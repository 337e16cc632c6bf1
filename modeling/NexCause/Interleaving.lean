/-
NexCause/Interleaving.lean

Any number of programs over the state of one service, one call at a time, in
any order.

A `Pool` holds the programs with their requests and a log of the calls made,
so that a statement about a run can speak of the order in which its programs
made their calls.  Each program follows a contract whose state is the list of
its own calls; what the other programs do is in the answers that the contract
allows (`Pool.Follows.step`).
-/
import NexCause.Program
import NexCause.Transition

namespace Program

open Prog Transition

variable {C : Type} {R : C → Type} {ε α β σ χ ρ : Type}

/-- Programs with their requests `ρ`, the state they share, and the calls made
so far, with the index of the program that made them. -/
structure Pool (ρ C : Type) (R : C → Type) (ε α σ : Type) where
  state : σ
  tasks : List (ρ × Prog C R ε α)
  log : List (ℕ × C)

namespace Pool

/-- The pool in which nothing has happened yet. -/
def start (s : σ) (tasks : List (ρ × Prog C R ε α)) : Pool ρ C R ε α σ := ⟨s, tasks, []⟩

/-- Program `l.1` makes its next call, under the environment's choice `l.2`. -/
def step (serve : Service C R ε χ σ) (s : Pool ρ C R ε α σ) (l : ℕ × χ) :
    Option (Pool ρ C R ε α σ) :=
  match s.tasks[l.1]? with
  | some (q, call c k) =>
      let answer := serve c l.2 s.state
      some { state := answer.2
             tasks := s.tasks.set l.1 (q, k answer.1)
             log := s.log ++ [(l.1, c)] }
  | _ => none

/-- The request of program `i` and the call it is about to make. -/
def next (s : Pool ρ C R ε α σ) (i : ℕ) : Option (ρ × C) :=
  match s.tasks[i]? with
  | some (q, call c _) => some (q, c)
  | _ => none

/-- Every program has ended. -/
def Settled (s : Pool ρ C R ε α σ) : Prop := ∀ task ∈ s.tasks, task.2.Finished

instance (s : Pool ρ C R ε α σ) : Decidable s.Settled :=
  inferInstanceAs (Decidable (∀ task ∈ s.tasks, task.2.Finished))

/-- The calls program `i` has made. -/
def own (s : Pool ρ C R ε α σ) (i : ℕ) : List C :=
  s.log.filterMap fun e => if e.1 = i then some e.2 else none

variable {serve : Service C R ε χ σ} {s t : Pool ρ C R ε α σ} {l : ℕ × χ}

theorem next_some {i : ℕ} {q : ρ} {c : C} :
    s.next i = some (q, c) ↔ ∃ k, s.tasks[i]? = some (q, call c k) := by
  unfold next
  constructor
  · intro h
    split at h
    · rename_i hi
      obtain ⟨rfl, rfl⟩ := Prod.mk.inj (Option.some.inj h)
      exact ⟨_, hi⟩
    · cases h
  · rintro ⟨k, hi⟩
    rw [hi]

/-- What one step of a pool is. -/
theorem step_some (h : s.step serve l = some t) :
    ∃ q c k, s.tasks[l.1]? = some (q, call c k) ∧
      t = { state := (serve c l.2 s.state).2
            tasks := s.tasks.set l.1 (q, k (serve c l.2 s.state).1)
            log := s.log ++ [(l.1, c)] } := by
  unfold step at h
  split at h
  · rename_i q c k hi
    exact ⟨q, c, k, hi, (Option.some.inj h).symm⟩
  · cases h

/-- A program's own calls grow by the calls it makes. -/
theorem own_append (s : Pool ρ C R ε α σ) (w : σ) (tasks : List (ρ × Prog C R ε α)) (i j : ℕ)
    (c : C) :
    Pool.own ⟨w, tasks, s.log ++ [(j, c)]⟩ i = if j = i then s.own i ++ [c] else s.own i := by
  unfold own
  rw [List.filterMap_append]
  by_cases h : j = i
  · simp [h]
  · simp [h]

/-- What the step of a known call leaves. -/
theorem step_eq {q : ρ} {c : C} {k : Except ε (R c) → Prog C R ε α}
    (hq : s.tasks[l.1]? = some (q, call c k)) (h : s.step serve l = some t) :
    t.state = (serve c l.2 s.state).2 ∧ t.log = s.log ++ [(l.1, c)] ∧
      ∀ i, t.own i = if l.1 = i then s.own i ++ [c] else s.own i := by
  obtain ⟨q', c', k', hq', rfl⟩ := step_some h
  obtain ⟨-, heq⟩ := Prod.mk.inj (Option.some.inj (hq'.symm.trans hq))
  obtain ⟨rfl, -⟩ := Prog.call.inj heq
  exact ⟨rfl, rfl, fun i => own_append s _ _ i l.1 c'⟩

theorem mem_own {i : ℕ} {c : C} : c ∈ s.own i ↔ (i, c) ∈ s.log := by
  unfold own
  simp only [List.mem_filterMap, Option.ite_none_right_eq_some, Option.some.injEq]
  constructor
  · rintro ⟨⟨j, c'⟩, hmem, rfl, rfl⟩
    exact hmem
  · exact fun h => ⟨(i, c), h, rfl, rfl⟩

/-- The entry of a list that was set, or another one. -/
theorem getElem?_set_cases {xs : List β} {i j : ℕ} {x y : β} (h : (xs.set i x)[j]? = some y) :
    (j = i ∧ y = x) ∨ (j ≠ i ∧ xs[j]? = some y) := by
  rw [List.getElem?_set] at h
  by_cases hij : i = j
  · subst hij
    left
    split at h
    · split at h
      · exact ⟨rfl, (Option.some.inj h).symm⟩
      · cases h
    · contradiction
  · rw [if_neg hij] at h
    exact .inr ⟨Ne.symm hij, h⟩

/-- The requests of a pool stay what they are. -/
theorem step_requests (h : s.step serve l = some t) :
    t.tasks.map Prod.fst = s.tasks.map Prod.fst := by
  obtain ⟨q, c, k, hq, rfl⟩ := step_some h
  obtain ⟨hlt, heq⟩ := List.getElem?_eq_some_iff.mp hq
  rw [List.map_set]
  apply List.ext_getElem
  · simp
  · intro i h₁ h₂
    rw [List.getElem_set]
    split
    · rename_i hi
      subst hi
      simp [heq]
    · rfl

theorem exec_requests {ls : List (ℕ × χ)} (hrun : exec (step serve) s ls = some t) :
    t.tasks.map Prod.fst = s.tasks.map Prod.fst := by
  have hkeep : ∀ (u : Pool ρ C R ε α σ) l v, u.tasks.map Prod.fst = s.tasks.map Prod.fst → True →
      u.step serve l = some v → v.tasks.map Prod.fst = s.tasks.map Prod.fst :=
    fun u l v hu _ hstep => (step_requests hstep).trans hu
  exact exec_invariant hkeep rfl (along_true _ _) hrun

/-! ### The last call of a kind -/

/-- The last entry of a log with a value of `f`: which program, which value. -/
def lastBy (f : C → Option β) (log : List (ℕ × C)) : Option (ℕ × β) :=
  (log.filterMap fun e => (f e.2).map fun b => (e.1, b)).getLast?

@[simp] theorem lastBy_nil (f : C → Option β) : lastBy f [] = none := rfl

theorem lastBy_append_some {f : C → Option β} {log : List (ℕ × C)} {i : ℕ} {c : C} {b : β}
    (h : f c = some b) : lastBy f (log ++ [(i, c)]) = some (i, b) := by
  simp [lastBy, List.filterMap_append, h]

theorem lastBy_append_none {f : C → Option β} {log : List (ℕ × C)} {i : ℕ} {c : C}
    (h : f c = none) : lastBy f (log ++ [(i, c)]) = lastBy f log := by
  simp [lastBy, List.filterMap_append, h]

theorem lastBy_mem {f : C → Option β} {log : List (ℕ × C)} {i : ℕ} {b : β}
    (h : lastBy f log = some (i, b)) : ∃ c, (i, c) ∈ log ∧ f c = some b := by
  have hmem := List.mem_of_getLast? h
  rw [List.mem_filterMap] at hmem
  obtain ⟨⟨j, c⟩, hlog, heq⟩ := hmem
  rw [Option.map_eq_some_iff] at heq
  obtain ⟨b', hb, hpair⟩ := heq
  obtain ⟨rfl, rfl⟩ := Prod.mk.inj hpair
  exact ⟨c, hlog, hb⟩

/-- There is a last entry as soon as there is one. -/
theorem lastBy_isSome {f : C → Option β} {log : List (ℕ × C)} {i : ℕ} {c : C} {b : β}
    (hmem : (i, c) ∈ log) (hc : f c = some b) : ∃ j b', lastBy f log = some (j, b') := by
  have hne : (log.filterMap fun e => (f e.2).map fun b => (e.1, b)) ≠ [] := by
    apply List.ne_nil_of_mem (a := (i, b))
    rw [List.mem_filterMap]
    exact ⟨(i, c), hmem, by simp [hc]⟩
  exact ⟨_, _, List.getLast?_eq_some_getLast hne⟩

/-! ### What comes after what -/

/-- Some entry with `P` has no `x` after it. -/
def NotFollowed {β : Type} (P : β → Prop) (x : β) (log : List β) : Prop :=
  ∃ before y after, log = before ++ y :: after ∧ P y ∧ x ∉ after

theorem not_notFollowed_nil {β : Type} {P : β → Prop} {x : β} : ¬ NotFollowed P x [] := by
  rintro ⟨before, y, after, h, -⟩
  simp at h

theorem notFollowed_append {β : Type} {P : β → Prop} {x e : β} {log : List β} :
    NotFollowed P x (log ++ [e]) ↔ P e ∨ (NotFollowed P x log ∧ e ≠ x) := by
  constructor
  · rintro ⟨before, y, after, heq, hy, hx⟩
    rcases List.eq_nil_or_concat after with rfl | ⟨after', z, rfl⟩
    · obtain ⟨-, hz⟩ := List.append_inj' heq rfl
      rw [List.singleton_inj] at hz
      exact .inl (hz ▸ hy)
    · rw [List.concat_eq_append, ← List.cons_append, ← List.append_assoc] at heq
      obtain ⟨hlog, hz⟩ := List.append_inj' heq rfl
      rw [List.singleton_inj] at hz
      rw [List.concat_eq_append, List.mem_append, not_or, List.mem_singleton] at hx
      exact .inr ⟨⟨before, y, after', hlog, hy, hx.1⟩, fun he => hx.2 (he ▸ hz)⟩
  · rintro (he | ⟨⟨before, y, after, rfl, hy, hx⟩, he⟩)
    · exact ⟨log, e, [], rfl, he, List.not_mem_nil⟩
    · refine ⟨before, y, after ++ [e], by simp, hy, ?_⟩
      rw [List.mem_append, not_or, List.mem_singleton]
      exact ⟨hx, fun h => he h.symm⟩

/-- Where `x` comes exactly once, an entry that it does not follow comes after
it. -/
theorem notFollowed_iff_after {β : Type} {P : β → Prop} {x : β} {log : List β} (hmem : x ∈ log)
    (honce : ∀ before after, log = before ++ x :: after → x ∉ after) (hx : ¬ P x) :
    NotFollowed P x log ↔ ∃ before after, log = before ++ x :: after ∧ ∃ y ∈ after, P y := by
  constructor
  · rintro ⟨before, y, after, rfl, hy, hnot⟩
    rcases List.mem_append.mp hmem with hb | hb
    · obtain ⟨l, r, rfl⟩ := List.append_of_mem hb
      exact ⟨l, r ++ y :: after, by simp, y, by simp, hy⟩
    · rcases List.mem_cons.mp hb with rfl | hb
      · exact absurd hy hx
      · exact absurd hb hnot
  · rintro ⟨before, after, heq, y, hy, hPy⟩
    have hlast := honce before after heq
    obtain ⟨l, r, rfl⟩ := List.append_of_mem hy
    rw [List.mem_append, not_or, List.mem_cons, not_or] at hlast
    exact ⟨before ++ x :: l, y, r, by rw [heq]; simp, hPy, hlast.2.2⟩

/-- A call that a program makes once comes once in the log. -/
theorem once_of_nodup {i : ℕ} {c : C} (h : (s.own i).Nodup) (before after : List (ℕ × C))
    (hlog : s.log = before ++ (i, c) :: after) : (i, c) ∉ after := by
  intro hmem
  unfold own at h
  rw [hlog, List.filterMap_append, List.filterMap_cons_some (b := c) (by simp)] at h
  have hc : c ∈ after.filterMap fun e => if e.1 = i then some e.2 else none :=
    List.mem_filterMap.mpr ⟨(i, c), hmem, by simp⟩
  exact (List.nodup_cons.mp (List.nodup_append.mp h).2.1).1 hc

/-! ### Contracts over a program's own calls -/

/-- Each program follows the contract of its request, from the calls it has
made so far. -/
def Follows (K : ρ → Contract C R ε (List C)) (Q : ρ → Except ε α → List C → Prop)
    (s : Pool ρ C R ε α σ) : Prop :=
  ∀ (i : ℕ) (q : ρ) (p : Prog C R ε α), s.tasks[i]? = some (q, p) →
    p.Meets (K q) (Q q) (s.own i)

/-- A step whose answer the contract allows keeps every program to its
contract: the others have not moved. -/
theorem Follows.step {K : ρ → Contract C R ε (List C)} {Q : ρ → Except ε α → List C → Prop}
    (h : s.Follows K Q) (hstep : s.step serve l = some t)
    {q : ρ} {c : C} {k : Except ε (R c) → Prog C R ε α}
    (hq : s.tasks[l.1]? = some (q, call c k))
    (hanswer : (K q).post c (s.own l.1) (serve c l.2 s.state).1 (s.own l.1 ++ [c])) :
    t.Follows K Q := by
  obtain ⟨q', c', k', hq', rfl⟩ := step_some hstep
  obtain ⟨rfl, heq⟩ := Prod.mk.inj (Option.some.inj (hq'.symm.trans hq))
  obtain ⟨rfl, hk⟩ := Prog.call.inj heq
  obtain rfl := eq_of_heq hk
  intro i q p hi
  rw [own_append]
  obtain ⟨rfl, heq⟩ | ⟨hne, hi⟩ := getElem?_set_cases hi
  · obtain ⟨rfl, rfl⟩ := Prod.mk.inj heq
    rw [if_pos rfl]
    exact (h l.1 q (call c' k') hq).answer hanswer
  · rw [if_neg (Ne.symm hne)]
    exact h i q p hi

end Pool

end Program
