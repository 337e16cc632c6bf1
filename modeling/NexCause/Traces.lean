/-
NexCause/Traces.lean

Pools that keep the record of their calls and answers.

A program is a function of the answers it has got, so what is left of it is
determined by its own part of the record (`Prog.Reaches`), whatever the other
programs have done.  The service, on its side, does not know which program
calls (`Replays`).  A property of a run is then an induction over the record,
in which each entry is a call that its program can make (`traced_sound`).
-/
import NexCause.Interleaving

namespace Program

open Prog Transition

variable {C : Type} {R : C → Type} {ε α β σ χ ρ : Type}

/-- A call with its answer. -/
structure Exchange (C : Type) (R : C → Type) (ε : Type) where
  call : C
  answer : Except ε (R call)

/-! ### What is left of a program -/

/-- `q` is left of the program when it has made these calls and got these answers. -/
inductive Prog.Reaches : Prog C R ε α → List (Exchange C R ε) → Prog C R ε α → Prop
  | start (p : Prog C R ε α) : Reaches p [] p
  | next {c : C} {k : Except ε (R c) → Prog C R ε α} {r : Except ε (R c)}
      {own : List (Exchange C R ε)} {q : Prog C R ε α} (h : Reaches (k r) own q) :
      Reaches (call c k) (⟨c, r⟩ :: own) q

namespace Prog

variable {c : C} {k : Except ε (R c) → Prog C R ε α} {own : List (Exchange C R ε)}
  {p q : Prog C R ε α}

/-- One more answer. -/
theorem Reaches.answer (h : p.Reaches own (call c k)) (r : Except ε (R c)) :
    p.Reaches (own ++ [⟨c, r⟩]) (k r) := by
  generalize hq : call c k = q at h
  induction h with
  | start p =>
    subst hq
    exact .next (.start _)
  | next _ ih => exact .next (ih hq)

theorem reaches_ret {a : α} (h : (ret a : Prog C R ε α).Reaches own q) : own = [] ∧ q = ret a := by
  cases h
  exact ⟨rfl, rfl⟩

theorem reaches_throw {e : ε} (h : (throw e : Prog C R ε α).Reaches own q) :
    own = [] ∧ q = throw e := by
  cases h
  exact ⟨rfl, rfl⟩

/-- A program that begins with one call: it has not made it, or the call has
failed, or it has gone on. -/
theorem reaches_perform {f : R c → Prog C R ε α} (h : (perform c >>= f).Reaches own q) :
    (own = [] ∧ q = call c fun r => ofExcept r >>= f) ∨
    (∃ e, own = [⟨c, .error e⟩] ∧ q = throw e) ∨
    ∃ a rest, own = ⟨c, .ok a⟩ :: rest ∧ (f a).Reaches rest q := by
  cases h with
  | start => exact .inl ⟨rfl, rfl⟩
  | @next _ _ r rest _ h =>
    right
    cases r with
    | error e =>
      obtain ⟨rfl, rfl⟩ := reaches_throw h
      exact .inl ⟨e, rfl, rfl⟩
    | ok a => exact .inr ⟨a, rest, rfl, h⟩

/-- A program that begins with one call, after an answer. -/
theorem Reaches.perform {f : R c → Prog C R ε α} {a : R c} (h : (f a).Reaches own q) :
    (perform c >>= f).Reaches (⟨c, .ok a⟩ :: own) q := .next h

/-- A program that begins with one call, and has returned. -/
theorem reaches_perform_ret {f : R c → Prog C R ε α} {a : α}
    (h : (perform c >>= f).Reaches own (ret a)) :
    ∃ b rest, own = ⟨c, .ok b⟩ :: rest ∧ (f b).Reaches rest (ret a) := by
  obtain ⟨-, hq⟩ | ⟨e, -, hq⟩ | h := reaches_perform h
  · cases hq
  · cases hq
  · exact h

/-- One call that has returned. -/
theorem reaches_last {a : R c} (h : (perform c : Prog C R ε (R c)).Reaches own (ret a)) :
    own = [⟨c, .ok a⟩] := by
  cases h with
  | @next _ _ r rest _ h =>
    cases r with
    | error e => cases (reaches_throw h).2
    | ok b =>
      obtain ⟨rfl, heq⟩ := reaches_ret h
      obtain rfl := Prog.ret.inj heq
      rfl

/-- A program that begins with one call, and is at a call. -/
theorem reaches_perform_call {f : R c → Prog C R ε α} {c' : C} {k' : Except ε (R c') → Prog C R ε α}
    (h : (perform c >>= f).Reaches own (call c' k')) :
    (own = [] ∧ c' = c) ∨ ∃ b rest, own = ⟨c, .ok b⟩ :: rest ∧ (f b).Reaches rest (call c' k') := by
  obtain ⟨hown, hq⟩ | ⟨e, -, hq⟩ | h := reaches_perform h
  · exact .inl ⟨hown, (Prog.call.inj hq).1⟩
  · cases hq
  · exact .inr h

/-- A sequence that has returned: its first part has returned before. -/
theorem reaches_bind_ret {f : α → Prog C R ε β} {b : β} (h : (p >>= f).Reaches own (ret b)) :
    ∃ a own₁ own₂, own = own₁ ++ own₂ ∧ p.Reaches own₁ (ret a) ∧ (f a).Reaches own₂ (ret b) := by
  induction p generalizing own with
  | ret a => exact ⟨a, [], own, rfl, .start _, h⟩
  | throw e => cases (reaches_throw h).2
  | call c k ih =>
    cases h with
    | next h =>
      obtain ⟨a, own₁, own₂, rfl, hp, hf⟩ := ih _ h
      exact ⟨a, _ :: own₁, own₂, rfl, .next hp, hf⟩

/-- A program that meets a contract, after answers that it allows: `f` follows the state of the
contract. -/
theorem Meets.reaches {K : Contract C R ε σ} {Q : Except ε α → σ → Prop}
    {f : σ → Exchange C R ε → σ} {A : Exchange C R ε → Prop}
    (hf : ∀ c s r, A ⟨c, r⟩ → K.post c s r (f s ⟨c, r⟩)) {s : σ} (hp : p.Meets K Q s)
    (h : p.Reaches own q) (hown : ∀ e ∈ own, A e) : q.Meets K Q (own.foldl f s) := by
  induction h generalizing s with
  | start p => exact hp
  | next _ ih =>
    obtain ⟨hfirst, hrest⟩ := List.forall_mem_cons.mp hown
    exact ih (hp.2 _ _ (hf _ _ _ hfirst)) hrest

/-- A program that is protected by a handler: it runs, or has returned, or the
handler runs. -/
theorem reaches_try {h : ε → Prog C R ε α} {f : α → Prog C R ε β} {q : Prog C R ε β}
    (hr : (p.tryCatch h >>= f).Reaches own q) :
    (∃ c k, p.Reaches own (call c k) ∧ q = (call c k).tryCatch h >>= f) ∨
    (∃ a own₁ own₂, own = own₁ ++ own₂ ∧ p.Reaches own₁ (ret a) ∧ (f a).Reaches own₂ q) ∨
    ∃ e own₁ own₂, own = own₁ ++ own₂ ∧ p.Reaches own₁ (throw e) ∧ (h e >>= f).Reaches own₂ q := by
  induction p generalizing own with
  | ret a => exact .inr (.inl ⟨a, [], own, rfl, .start _, hr⟩)
  | throw e => exact .inr (.inr ⟨e, [], own, rfl, .start _, hr⟩)
  | call c k ih =>
    cases hr with
    | start => exact .inl ⟨c, k, .start _, rfl⟩
    | next hr =>
      obtain ⟨c', k', hp, hq⟩ | ⟨a, own₁, own₂, rfl, hp, hq⟩ | ⟨e, own₁, own₂, rfl, hp, hq⟩ := ih _ hr
      · exact .inl ⟨c', k', .next hp, hq⟩
      · exact .inr (.inl ⟨a, _ :: own₁, own₂, rfl, .next hp, hq⟩)
      · exact .inr (.inr ⟨e, _ :: own₁, own₂, rfl, .next hp, hq⟩)

/-- The result of a program that has returned. -/
def returned : Prog C R ε α → Option α
  | ret a => some a
  | _ => none

theorem returned_eq {a : α} : p.returned = some a ↔ p = ret a := by
  cases p with
  | ret b => simp [returned]
  | throw e => simp [returned]
  | call c k => simp [returned]

/-- Work on the result is no call. -/
theorem reaches_map {β : Type} {g : α → β} {q : Prog C R ε β}
    (h : (p >>= fun a => ret (g a)).Reaches own q) :
    ∃ p', p.Reaches own p' ∧ q = p' >>= fun a => ret (g a) := by
  induction p generalizing own with
  | ret a =>
    obtain ⟨rfl, rfl⟩ := reaches_ret h
    exact ⟨_, .start _, rfl⟩
  | throw e =>
    obtain ⟨rfl, rfl⟩ := reaches_throw h
    exact ⟨_, .start _, rfl⟩
  | call c k ih =>
    cases h with
    | start => exact ⟨_, .start _, rfl⟩
    | next h =>
      obtain ⟨p', hp', rfl⟩ := ih _ h
      exact ⟨p', .next hp', rfl⟩

theorem reaches_map_call {β : Type} {g : α → β} {k : Except ε (R c) → Prog C R ε β}
    (h : (p >>= fun a => ret (g a)).Reaches own (call c k)) :
    ∃ k', p.Reaches own (call c k') := by
  obtain ⟨p', hp', hq⟩ := reaches_map h
  cases p' with
  | ret a => cases hq
  | throw e => cases hq
  | call c' k' =>
    obtain ⟨rfl, -⟩ := Prog.call.inj hq
    exact ⟨k', hp'⟩

theorem reaches_map_ret {β : Type} {g : α → β} {b : β}
    (h : (p >>= fun a => ret (g a)).Reaches own (ret b)) :
    ∃ a, p.Reaches own (ret a) ∧ b = g a := by
  obtain ⟨p', hp', hq⟩ := reaches_map h
  cases p' with
  | ret a => exact ⟨a, hp', Prog.ret.inj hq⟩
  | throw e => cases hq
  | call c' k' => cases hq

end Prog

/-! ### Records -/

/-- Two entries of a list: they are the same, or one comes before the other. -/
theorem append_cons_cases {xs ys xs' ys' : List β} {x y : β} (h : xs ++ x :: ys = xs' ++ y :: ys') :
    (xs = xs' ∧ x = y ∧ ys = ys') ∨ x ∈ xs' ∨ y ∈ xs := by
  induction xs generalizing xs' with
  | nil =>
    cases xs' with
    | nil =>
      obtain ⟨rfl, rfl⟩ := List.cons.inj h
      exact .inl ⟨rfl, rfl, rfl⟩
    | cons z xs' =>
      obtain ⟨rfl, -⟩ := List.cons.inj h
      exact .inr (.inl List.mem_cons_self)
  | cons w xs ih =>
    cases xs' with
    | nil =>
      obtain ⟨rfl, -⟩ := List.cons.inj h
      exact .inr (.inr List.mem_cons_self)
    | cons z xs' =>
      obtain ⟨rfl, hrest⟩ := List.cons.inj h
      rcases ih hrest with ⟨rfl, rfl, rfl⟩ | hmem | hmem
      · exact .inl ⟨rfl, rfl, rfl⟩
      · exact .inr (.inl (List.mem_cons_of_mem _ hmem))
      · exact .inr (.inr (List.mem_cons_of_mem _ hmem))

/-- The part of program `i` in a record. -/
def ownTrace (trace : List (ℕ × Exchange C R ε)) (i : ℕ) : List (Exchange C R ε) :=
  trace.filterMap fun e => if e.1 = i then some e.2 else none

@[simp] theorem ownTrace_nil (i : ℕ) : ownTrace ([] : List (ℕ × Exchange C R ε)) i = [] := rfl

theorem ownTrace_append (trace later : List (ℕ × Exchange C R ε)) (i : ℕ) :
    ownTrace (trace ++ later) i = ownTrace trace i ++ ownTrace later i :=
  List.filterMap_append

theorem ownTrace_cons (e : ℕ × Exchange C R ε) (trace : List (ℕ × Exchange C R ε)) (i : ℕ) :
    ownTrace (e :: trace) i = if e.1 = i then e.2 :: ownTrace trace i else ownTrace trace i := by
  by_cases h : e.1 = i
  · rw [if_pos h]
    exact List.filterMap_cons_some (by simp [h])
  · rw [if_neg h]
    exact List.filterMap_cons_none (by simp [h])

theorem mem_ownTrace {trace : List (ℕ × Exchange C R ε)} {i : ℕ} {x : Exchange C R ε} :
    x ∈ ownTrace trace i ↔ (i, x) ∈ trace := by
  unfold ownTrace
  simp only [List.mem_filterMap, Option.ite_none_right_eq_some, Option.some.injEq]
  constructor
  · rintro ⟨⟨j, y⟩, hmem, rfl, rfl⟩
    exact hmem
  · exact fun h => ⟨(i, x), h, rfl, rfl⟩

/-- An entry of a program's own part, in the whole record. -/
theorem ownTrace_split {trace : List (ℕ × Exchange C R ε)} {i : ℕ} {own own' : List (Exchange C R ε)}
    {e : Exchange C R ε} (h : ownTrace trace i = own ++ e :: own') :
    ∃ before after, trace = before ++ (i, e) :: after ∧ ownTrace before i = own ∧
      ownTrace after i = own' := by
  induction trace generalizing own with
  | nil =>
    rw [ownTrace_nil] at h
    simp at h
  | cons x trace ih =>
    rw [ownTrace_cons] at h
    by_cases hx : x.1 = i
    · subst hx
      rw [if_pos rfl] at h
      cases own with
      | nil =>
        obtain ⟨rfl, hrest⟩ := List.cons.inj h
        exact ⟨[], trace, rfl, rfl, hrest⟩
      | cons y own =>
        obtain ⟨rfl, hrest⟩ := List.cons.inj h
        obtain ⟨before, after, rfl, hbefore, hafter⟩ := ih hrest
        refine ⟨x :: before, after, rfl, ?_, hafter⟩
        rw [ownTrace_cons, if_pos rfl, hbefore]
    · rw [if_neg hx] at h
      obtain ⟨before, after, rfl, hbefore, hafter⟩ := ih h
      refine ⟨x :: before, after, rfl, ?_, hafter⟩
      rw [ownTrace_cons, if_neg hx, hbefore]

/-- The service gives these answers from `s` on, and is then in `u`. -/
inductive Replays (serve : Service C R ε χ σ) (s : σ) : List (ℕ × Exchange C R ε) → σ → Prop
  | start : Replays serve s [] s
  | next {trace : List (ℕ × Exchange C R ε)} {u : σ} (i : ℕ) (c : C) (x : χ)
      (h : Replays serve s trace u) :
      Replays serve s (trace ++ [(i, ⟨c, (serve c x u).1⟩)]) (serve c x u).2

/-- An entry of the record, and the state in which the service answered it. -/
theorem Replays.entry {serve : Service C R ε χ σ} {s u : σ}
    {before after : List (ℕ × Exchange C R ε)} {i : ℕ} {e : Exchange C R ε}
    (h : Replays serve s (before ++ (i, e) :: after) u) :
    ∃ v x, Replays serve s before v ∧ e.answer = (serve e.call x v).1 := by
  generalize htrace : before ++ (i, e) :: after = trace at h
  induction h generalizing after with
  | start => simp at htrace
  | @next trace u j c x h ih =>
    rcases List.eq_nil_or_concat after with rfl | ⟨after', last, rfl⟩
    · obtain ⟨rfl, heq⟩ := List.append_inj' htrace rfl
      rw [List.singleton_inj] at heq
      obtain ⟨rfl, rfl⟩ := Prod.mk.inj heq
      exact ⟨u, x, h, rfl⟩
    · rw [List.concat_eq_append, ← List.cons_append, ← List.append_assoc] at htrace
      exact ih (List.append_inj' htrace rfl).1

theorem replays_nil {serve : Service C R ε χ σ} {s u : σ} (h : Replays serve s [] u) : u = s := by
  generalize htrace : ([] : List (ℕ × Exchange C R ε)) = trace at h
  cases h with
  | start => rfl
  | next i c x h => simp at htrace

/-- A record in two parts, with the state between them. -/
theorem Replays.split {serve : Service C R ε χ σ} {s u : σ} {later : List (ℕ × Exchange C R ε)} :
    ∀ {before : List (ℕ × Exchange C R ε)}, Replays serve s (before ++ later) u →
      ∃ v, Replays serve s before v ∧ Replays serve v later u := by
  intro before h
  generalize htrace : before ++ later = trace at h
  induction h generalizing later with
  | start =>
    obtain ⟨rfl, rfl⟩ := List.append_eq_nil_iff.mp htrace
    exact ⟨s, .start, .start⟩
  | @next trace u j c x h ih =>
    rcases List.eq_nil_or_concat later with rfl | ⟨later', last, rfl⟩
    · rw [List.append_nil] at htrace
      exact ⟨_, htrace ▸ h.next j c x, .start⟩
    · rw [List.concat_eq_append, ← List.append_assoc] at htrace
      obtain ⟨hfirst, hlast⟩ := List.append_inj' htrace rfl
      obtain ⟨v, hbefore, hlater⟩ := ih hfirst
      rw [List.singleton_inj] at hlast
      subst hlast
      rw [List.concat_eq_append]
      exact ⟨v, hbefore, hlater.next j c x⟩

/-- Every entry is a call that its program can make after what it has done so far. -/
def Justified (tasks : List (ρ × Prog C R ε α)) (trace : List (ℕ × Exchange C R ε)) : Prop :=
  ∀ before i e after, trace = before ++ (i, e) :: after →
    ∃ q p k, tasks[i]? = some (q, p) ∧ p.Reaches (ownTrace before i) (call e.call k)

theorem Justified.before {tasks : List (ρ × Prog C R ε α)} {trace later : List (ℕ × Exchange C R ε)}
    (h : Justified tasks (trace ++ later)) : Justified tasks trace := by
  intro before i e after htrace
  apply h before i e (after ++ later)
  rw [htrace, List.append_assoc, List.cons_append]

namespace Pool

/-- The record after a step. -/
def note (serve : Service C R ε χ σ) (s : Pool ρ C R ε α σ) (l : ℕ × χ)
    (trace : List (ℕ × Exchange C R ε)) : List (ℕ × Exchange C R ε) :=
  match s.tasks[l.1]? with
  | some (_, call c _) => trace ++ [(l.1, ⟨c, (serve c l.2 s.state).1⟩)]
  | _ => trace

/-- A pool with its record. -/
abbrev traced (serve : Service C R ε χ σ) :
    Pool ρ C R ε α σ × List (ℕ × Exchange C R ε) → ℕ × χ →
      Option (Pool ρ C R ε α σ × List (ℕ × Exchange C R ε)) :=
  observed (step serve) (note serve)

variable {serve : Service C R ε χ σ}

/-- What one step of a pool with its record is. -/
theorem traced_some {s t : Pool ρ C R ε α σ} {trace trace' : List (ℕ × Exchange C R ε)} {l : ℕ × χ}
    (h : traced serve (s, trace) l = some (t, trace')) :
    ∃ q c k, s.tasks[l.1]? = some (q, call c k) ∧ t.state = (serve c l.2 s.state).2 ∧
      t.tasks = s.tasks.set l.1 (q, k (serve c l.2 s.state).1) ∧
      trace' = trace ++ [(l.1, ⟨c, (serve c l.2 s.state).1⟩)] := by
  obtain ⟨hstep, rfl⟩ := observed_some h
  obtain ⟨q, c, k, hq, rfl⟩ := step_some hstep
  refine ⟨q, c, k, hq, rfl, rfl, ?_⟩
  unfold note
  rw [hq]

/-- What the record of a run says of its programs and of the service. -/
structure Recorded (serve : Service C R ε χ σ) (s : σ) (tasks : List (ρ × Prog C R ε α))
    (x : Pool ρ C R ε α σ × List (ℕ × Exchange C R ε)) : Prop where
  replays : Replays serve s x.2 x.1.state
  justified : Justified tasks x.2
  left : ∀ (i : ℕ) (q : ρ) (p : Prog C R ε α), x.1.tasks[i]? = some (q, p) →
    ∃ p₀, tasks[i]? = some (q, p₀) ∧ p₀.Reaches (ownTrace x.2 i) p

theorem recorded_start (s : σ) (tasks : List (ρ × Prog C R ε α)) :
    Recorded serve s tasks (start s tasks, []) := by
  refine ⟨.start, ?_, fun i q p hi => ⟨p, hi, .start p⟩⟩
  intro before i e after htrace
  simp at htrace

theorem Recorded.step {s : σ} {tasks : List (ρ × Prog C R ε α)}
    {x y : Pool ρ C R ε α σ × List (ℕ × Exchange C R ε)} {l : ℕ × χ}
    (h : Recorded serve s tasks x) (hstep : traced serve x l = some y) :
    Recorded serve s tasks y := by
  obtain ⟨x, trace⟩ := x
  obtain ⟨y, trace'⟩ := y
  obtain ⟨q, c, k, hq, hstate, htasks, rfl⟩ := traced_some hstep
  obtain ⟨p₀, hp₀, hreach⟩ := h.left l.1 q _ hq
  refine ⟨?_, ?_, ?_⟩
  · -- the state is what the calls have made of it
    rw [hstate]
    exact h.replays.next l.1 c l.2
  · -- each call was the next one of its program
    intro before i e after htrace
    rcases List.eq_nil_or_concat after with rfl | ⟨after', last, rfl⟩
    · obtain ⟨rfl, heq⟩ := List.append_inj' htrace rfl
      rw [List.singleton_inj] at heq
      obtain ⟨rfl, rfl⟩ := Prod.mk.inj heq
      exact ⟨q, p₀, k, hp₀, hreach⟩
    · rw [List.concat_eq_append, ← List.cons_append, ← List.append_assoc] at htrace
      exact h.justified before i e after' (List.append_inj' htrace rfl).1
  · -- and the rest of a program is what its own calls have left of it
    intro i q' p hi
    rw [htasks] at hi
    rw [ownTrace_append, ownTrace_cons]
    rcases getElem?_set_cases hi with ⟨rfl, heq⟩ | ⟨hne, hi⟩
    · obtain ⟨rfl, rfl⟩ := Prod.mk.inj heq
      rw [if_pos rfl]
      exact ⟨p₀, hp₀, hreach.answer _⟩
    · rw [if_neg (Ne.symm hne), ownTrace_nil, List.append_nil]
      exact h.left i q' p hi

/-- **Records.**  In a run of a pool, the service has given the answers of the
record, and each program is where its own part of the record takes it. -/
theorem traced_sound {s : σ} {tasks : List (ρ × Prog C R ε α)} {ls : List (ℕ × χ)}
    {x : Pool ρ C R ε α σ × List (ℕ × Exchange C R ε)}
    (hrun : exec (traced serve) (start s tasks, []) ls = some x) : Recorded serve s tasks x := by
  have hkeep : ∀ x l y, Recorded serve s tasks x → True → traced serve x l = some y →
      Recorded serve s tasks y := fun x l y hx _ hstep => hx.step hstep
  exact exec_invariant hkeep (recorded_start s tasks) (along_true _ _) hrun

/-- A pool with its record in which a call may have to wait. -/
def guarded (free : C → σ → Bool) (serve : Service C R ε χ σ)
    (x : Pool ρ C R ε α σ × List (ℕ × Exchange C R ε)) (l : ℕ × χ) :
    Option (Pool ρ C R ε α σ × List (ℕ × Exchange C R ε)) :=
  match x.1.next l.1 with
  | some (_, c) => if free c x.1.state then traced serve x l else none
  | none => none

theorem guarded_some {free : C → σ → Bool} {x y : Pool ρ C R ε α σ × List (ℕ × Exchange C R ε)}
    {l : ℕ × χ} (h : guarded free serve x l = some y) :
    traced serve x l = some y ∧
      ∀ q c k, x.1.tasks[l.1]? = some (q, call c k) → free c x.1.state = true := by
  unfold guarded at h
  split at h
  · rename_i q c hnext
    obtain ⟨hfree, hstep⟩ := Option.ite_none_right_eq_some.mp h
    refine ⟨hstep, fun q' c' k' hq' => ?_⟩
    obtain ⟨-, rfl⟩ := Prod.mk.inj (Option.some.inj (hnext.symm.trans (next_some.mpr ⟨k', hq'⟩)))
    exact hfree
  · cases h

/-- A record only grows. -/
theorem traced_prefix {x y : Pool ρ C R ε α σ × List (ℕ × Exchange C R ε)} {ls : List (ℕ × χ)}
    (hrun : exec (traced serve) x ls = some y) : ∃ later, y.2 = x.2 ++ later := by
  apply exec_relation (R := fun x y => ∃ later, y.2 = x.2 ++ later) (I := fun _ => True)
    (C := fun _ _ => True) _ _ _ trivial (along_true _ _) hrun
  · exact fun x => ⟨[], (List.append_nil _).symm⟩
  · rintro x y z ⟨l₁, h₁⟩ ⟨l₂, h₂⟩
    exact ⟨l₁ ++ l₂, by rw [h₂, h₁, List.append_assoc]⟩
  · rintro ⟨x, trace⟩ l ⟨y, trace'⟩ - - hstep
    obtain ⟨q, c, k, -, -, -, rfl⟩ := traced_some hstep
    exact ⟨trivial, _, rfl⟩

end Pool

end Program
