/-
NexCause/Sweeps.lean

Passes over a list: an `async` function that lists some keys and, for one key
after another, asks for the items of the key, starts a function for each of
them, waits for all with `Promise.all`, and finishes the key.

What is started catches its own errors.  So a pass is stopped only by a call
that it makes itself, for a key; and then the keys that follow have to wait for
the next pass.

Main results: what has been awaited has ended as `Promise.all` says
(`Fibers.joined_run`); a pass serves every key for which no call fails exactly
if it is stopped at no key that another one follows (`Sweep.serves_iff`).
-/
import Mathlib.Data.List.Nodup
import NexCause.Gates

namespace Program

open Prog Transition

variable {K Q C : Type} {R : C → Type} {ε α β σ χ : Type}

/-! ### Records of programs -/

namespace Prog

variable {p q : Prog C R ε α} {own : List (Exchange C R ε)}

/-- A record has only calls that the program can make. -/
theorem Calls.reaches {P : C → Prop} (hp : p.Calls P) (h : p.Reaches own q) :
    (∀ x ∈ own, P x.call) ∧ q.Calls P := by
  induction h with
  | start p => exact ⟨List.forall_mem_nil _, hp⟩
  | next _ ih =>
    obtain ⟨hown, hq⟩ := ih (hp.2 _)
    exact ⟨List.forall_mem_cons.mpr ⟨hp.1, hown⟩, hq⟩

theorem Transparent.blameless (hp : p.Transparent) : p.Blameless := by
  induction p with
  | ret a => trivial
  | throw e => exact hp
  | call c k ih => exact fun a => ih _ (hp.1 a)

/-- Where a program that catches nothing has returned, no call has failed. -/
theorem Transparent.reaches_ret {a : α} (hp : p.Transparent) (h : p.Reaches own (ret a)) :
    ∀ x ∈ own, ∀ e, x.answer ≠ .error e := by
  generalize hq : ret a = q at h
  induction h with
  | start p => exact List.forall_mem_nil _
  | @next c k r own q h ih =>
    subst hq
    cases r with
    | ok b =>
      refine List.forall_mem_cons.mpr ⟨fun e he => ?_, ih (hp.1 b) rfl⟩
      cases he
    | error e =>
      rw [hp.2 e] at h
      cases (Prog.reaches_throw h).2

/-- A sequence, after its first part has returned. -/
theorem Reaches.bind {f : α → Prog C R ε β} {a : α} {own' : List (Exchange C R ε)}
    {q : Prog C R ε β} (hp : p.Reaches own (ret a)) (hf : (f a).Reaches own' q) :
    (p >>= f).Reaches (own ++ own') q := by
  generalize hr : ret a = r at hp
  induction hp with
  | start p =>
    subst hr
    exact hf
  | next _ ih => exact .next (ih hr)

/-- A sequence that has raised: its first part, or its second. -/
theorem reaches_bind_throw {f : α → Prog C R ε β} {e : ε} (h : (p >>= f).Reaches own (throw e)) :
    p.Reaches own (throw e) ∨ ∃ a own₁ own₂, own = own₁ ++ own₂ ∧ p.Reaches own₁ (ret a) ∧
      (f a).Reaches own₂ (throw e) := by
  induction p generalizing own with
  | ret a => exact .inr ⟨a, [], own, rfl, .start _, h⟩
  | throw e' =>
    obtain ⟨rfl, he⟩ := reaches_throw h
    obtain rfl := Prog.throw.inj he
    exact .inl (.start _)
  | call c k ih =>
    cases h with
    | next h =>
      rcases ih _ h with hp | ⟨a, own₁, own₂, rfl, hp, hf⟩
      · exact .inl (.next hp)
      · exact .inr ⟨a, _ :: own₁, own₂, rfl, .next hp, hf⟩

/-- A program whose errors are swallowed. -/
theorem reaches_caught {a : α} (h : (p.tryCatch fun _ => ret a).Reaches own q) :
    ∃ p', p.Reaches own p' ∧ q = p'.tryCatch fun _ => ret a := by
  induction p generalizing own with
  | ret b =>
    obtain ⟨rfl, rfl⟩ := reaches_ret h
    exact ⟨_, .start _, rfl⟩
  | throw e =>
    obtain ⟨rfl, rfl⟩ := reaches_ret h
    exact ⟨_, .start _, rfl⟩
  | call c k ih =>
    cases h with
    | start => exact ⟨_, .start _, rfl⟩
    | next h =>
      obtain ⟨p', hp', rfl⟩ := ih _ h
      exact ⟨p', .next hp', rfl⟩

theorem finished_of_caught {a : α} (h : (p.tryCatch fun _ => ret a).Finished) : p.Finished := by
  cases p with
  | ret b => trivial
  | throw e => trivial
  | call c k => exact h

theorem caught_ne_throw {a : α} {e : ε} : (p.tryCatch fun _ => ret a) ≠ throw e := by
  cases p with
  | ret b => exact fun h => nomatch h
  | throw e' => exact fun h => nomatch h
  | call c k => exact fun h => nomatch h

end Prog

theorem Prog.Calls.withFinally {P : Await Q C → Prop} {p : Async Q C R ε α} {q : Async Q C R ε Unit}
    (hp : p.Calls P) (hq : q.Calls P) : (withFinally p q).Calls P := by
  apply Prog.Calls.bind
  · apply Prog.Calls.tryCatch
    · exact hp.bind fun _ => trivial
    · exact fun _ => trivial
  · intro outcome
    exact hq.bind fun _ => calls_ofExcept

/-- `try … finally …` that has ended: its body has, and the rest is of the second part. -/
theorem reaches_withFinally {p : Async Q C R ε α} {q : Async Q C R ε Unit} {r : Async Q C R ε α}
    {own : List (Exchange (Await Q C) (Await.Result R) ε)} (h : (withFinally p q).Reaches own r)
    (hr : r.Finished) {P : Await Q C → Prop} (hq : q.Calls P) :
    ∃ own₁ own₂ p', own = own₁ ++ own₂ ∧ p.Reaches own₁ p' ∧ p'.Finished ∧ ∀ x ∈ own₂, P x.call := by
  have hrest : ∀ outcome : Except ε α, (q >>= fun _ => Prog.ofExcept outcome).Calls P :=
    fun outcome => hq.bind fun _ => calls_ofExcept
  induction p generalizing own with
  | ret a => exact ⟨[], own, _, rfl, .start _, trivial, ((hrest (.ok a)).reaches h).1⟩
  | throw e => exact ⟨[], own, _, rfl, .start _, trivial, ((hrest (.error e)).reaches h).1⟩
  | call c k ih =>
    cases h with
    | start => exact hr.elim
    | next h =>
      obtain ⟨own₁, own₂, p', rfl, hp, hp', hown⟩ := ih _ h
      exact ⟨_ :: own₁, own₂, p', rfl, .next hp, hp', hown⟩

/-! ### One key after another -/

/-- `for (const key of keys) await visit(key)` -/
def forEach (visit : K → Async Q C R ε Unit) : List K → Async Q C R ε Unit
  | [] => ret ()
  | k :: rest => do
      visit k
      forEach visit rest

section ForEach

variable {visit : K → Async Q C R ε Unit} {keys : List K}
  {own : List (Exchange (Await Q C) (Await.Result R) ε)}

theorem forEach_calls {P : K → Await Q C → Prop} (hvisit : ∀ k, (visit k).Calls (P k)) :
    (forEach visit keys).Calls fun c => ∃ k ∈ keys, P k c := by
  induction keys with
  | nil => trivial
  | cons k rest ih =>
    apply Prog.Calls.bind
    · exact (hvisit k).mono fun c hc => ⟨k, List.mem_cons_self, hc⟩
    · intro _
      exact ih.mono fun c ⟨k', hk', hc⟩ => ⟨k', List.mem_cons_of_mem _ hk', hc⟩

/-- A loop that has returned: so has every visit. -/
theorem forEach_returned (h : (forEach visit keys).Reaches own (ret ())) :
    ∀ k ∈ keys, ∃ own' ⊆ own, (visit k).Reaches own' (ret ()) := by
  induction keys generalizing own with
  | nil => exact List.forall_mem_nil _
  | cons k rest ih =>
    obtain ⟨⟨⟩, own₁, own₂, rfl, hvisit, hrest⟩ := reaches_bind_ret h
    refine List.forall_mem_cons.mpr ⟨⟨own₁, List.subset_append_left .., hvisit⟩, fun k' hk' => ?_⟩
    obtain ⟨own', hown', hvisit'⟩ := ih hrest k' hk'
    exact ⟨own', List.Subset.trans hown' (List.subset_append_right ..), hvisit'⟩

/-- A loop that has raised: so has one visit, after those before it have returned. -/
theorem forEach_raised {e : ε} (h : (forEach visit keys).Reaches own (Prog.throw e)) :
    ∃ before k after own₁ own₂, keys = before ++ k :: after ∧ own = own₁ ++ own₂ ∧
      (forEach visit before).Reaches own₁ (ret ()) ∧ (visit k).Reaches own₂ (Prog.throw e) := by
  induction keys generalizing own with
  | nil => cases (reaches_ret h).2
  | cons k rest ih =>
    rcases reaches_bind_throw h with hvisit | ⟨⟨⟩, own₁, own₂, rfl, hvisit, hrest⟩
    · exact ⟨[], k, rest, [], own, rfl, rfl, .start _, hvisit⟩
    · obtain ⟨before, k', after, own₃, own₄, rfl, rfl, hbefore, hraised⟩ := ih hrest
      refine ⟨k :: before, k', after, own₁ ++ own₃, own₄, rfl, (List.append_assoc ..).symm, ?_, hraised⟩
      exact hvisit.bind hbefore

end ForEach

/-! ### What has been awaited -/

namespace Fibers

/-- What the answer of `Promise.all` says of the fibers it has waited for. -/
def Answered (s : Fibers Q C R ε σ) (i : ℕ) (qs : List Q) : Except ε Unit → Prop
  | .ok () => ∀ q ∈ qs, ∃ j g, s.At j g ∧ g.parent = some i ∧ g.request = q ∧ g.prog = ret ()
  | .error e => ∃ j g, s.At j g ∧ g.parent = some i ∧ g.request ∈ qs ∧ g.prog = Prog.throw e

/-- What fibers have to do with those that have started them. -/
structure Joined (s : Fibers Q C R ε σ) : Prop where
  started : ∀ j f p, s.At j f → f.parent = some p → ∃ qs, f.request ∈ qs ∧
    ((∃ r, (p, ⟨.all qs, r⟩) ∈ s.trace) ∨ ∃ g k, s.At p g ∧ g.prog = call (.all qs) k)
  awaited : ∀ i f children qs k, s.At i f → f.awaits = some children → f.prog = call (.all qs) k →
    (∀ j ∈ children, ∃ g, s.At j g ∧ g.parent = some i ∧ g.request ∈ qs) ∧
      ∀ q ∈ qs, ∃ j ∈ children, ∃ g, s.At j g ∧ g.parent = some i ∧ g.request = q
  answered : ∀ i qs r, (i, ⟨.all qs, r⟩) ∈ s.trace → s.Answered i qs r

section Step

variable {program : Q → Async Q C R ε Unit} {serve : Service C R ε χ σ} {s t : Fibers Q C R ε σ}
  {i : ℕ} {x : χ} {f f' : Fiber Q C R ε} {qs : List Q}
  {own : List (Exchange (Await Q C) (Await.Result R) ε)}

/-- Fibers that have ended stay as they are. -/
theorem Answered.move {p : ℕ} {qs' : List Q} {r : Except ε Unit} (h : s.Answered p qs' r)
    (hmove : Moves program s t i f f' qs own) : t.Answered p qs' r := by
  cases r with
  | ok u =>
    intro q hq
    obtain ⟨j, g, hj, hparent, hrequest, hret⟩ := h q hq
    refine ⟨j, g, hmove.raised hj ?_, hparent, hrequest, hret⟩
    rw [hret]
    trivial
  | error e =>
    obtain ⟨j, g, hj, hparent, hrequest, hthrow⟩ := h
    refine ⟨j, g, hmove.raised hj ?_, hparent, hrequest, hthrow⟩
    rw [hthrow]
    trivial

/-- What is asked of a move for the fibers to stay joined. -/
theorem Joined.move (h : s.Joined) (hmove : Moves program s t i f f' qs own)
    (hwaits : ∀ qs' k, f.prog = call (.all qs') k →
      (∃ r, (i, ⟨.all qs', r⟩) ∈ t.trace) ∨ ∃ k', f'.prog = call (.all qs') k')
    (hnew : qs ≠ [] → ∃ k, f'.prog = call (.all qs) k)
    (hawaits : ∀ children qs' k, f'.awaits = some children → f'.prog = call (.all qs') k →
      children = List.range' s.fibers.length qs.length ∧ qs' = qs)
    (hown : ∀ qs' r, ⟨.all qs', r⟩ ∈ own → s.Answered i qs' r) : t.Joined := by
  have hparent : f'.parent = f.parent := by rw [hmove.same]
  have hrequest : f'.request = f.request := by rw [hmove.same]
  have hold : ∀ e ∈ s.trace, e ∈ t.trace := by
    intro e he
    rw [hmove.trace]
    exact List.mem_append_left _ he
  refine ⟨fun j g p hj hp => ?_, fun j g children qs' k hj hc hprog => ?_, fun j qs' r hmem => ?_⟩
  · -- one that was there before: who has started it still waits, or has been answered
    have hbefore : ∀ j₀ g₀, s.At j₀ g₀ → g₀.parent = some p → ∃ qs', g₀.request ∈ qs' ∧
        ((∃ r, (p, ⟨.all qs', r⟩) ∈ t.trace) ∨ ∃ g k, t.At p g ∧ g.prog = call (.all qs') k) := by
      intro j₀ g₀ hj₀ hp₀
      obtain ⟨qs', hmem, ⟨r, hr⟩ | ⟨g', k, hg', hprog⟩⟩ := h.started j₀ g₀ p hj₀ hp₀
      · exact ⟨qs', hmem, .inl ⟨r, hold _ hr⟩⟩
      · refine ⟨qs', hmem, ?_⟩
        by_cases hpi : p = i
        · subst hpi
          obtain rfl := Option.some.inj (hmove.here.symm.trans hg')
          rcases hwaits qs' k hprog with hr | ⟨k', hprog'⟩
          · exact .inl hr
          · exact .inr ⟨f', k', hmove.moved, hprog'⟩
        · exact .inr ⟨g', k, hmove.other hpi hg', hprog⟩
    rcases hmove.cases hj with ⟨rfl, rfl⟩ | ⟨-, hj⟩ | ⟨m, q, hq, rfl, rfl⟩
    · rw [hrequest]
      exact hbefore j f hmove.here (hparent ▸ hp)
    · exact hbefore j g hj hp
    · obtain rfl := Option.some.inj hp
      obtain ⟨k, hk⟩ := hnew (List.ne_nil_of_mem (List.mem_of_getElem? hq))
      exact ⟨qs, List.mem_of_getElem? hq, .inr ⟨f', k, hmove.moved, hk⟩⟩
  · rcases hmove.cases hj with ⟨rfl, rfl⟩ | ⟨hne, hj⟩ | ⟨m, q, hq, rfl, rfl⟩
    · obtain ⟨rfl, rfl⟩ := hawaits children qs' k hc hprog
      have hstarted : ∀ m (hm : m < qs'.length), t.At (s.fibers.length + m)
          ⟨qs'[m], f.root, some j, program qs'[m], none⟩ := by
        intro m hm
        unfold At
        rw [hmove.fibers, List.getElem?_append_right (by simp)]
        simp [hm]
      constructor
      · intro c hc
        obtain ⟨m, hm, rfl⟩ := List.mem_range'.mp hc
        rw [Nat.one_mul]
        exact ⟨_, hstarted m hm, rfl, List.getElem_mem hm⟩
      · intro q hq
        obtain ⟨m, hm, rfl⟩ := List.getElem_of_mem hq
        exact ⟨_, List.mem_range'.mpr ⟨m, hm, by omega⟩, _, hstarted m hm, rfl, rfl⟩
    · obtain ⟨hof, hall⟩ := h.awaited j g children qs' k hj hc hprog
      constructor
      · intro c hc
        obtain ⟨g₀, hg₀, hp₀, hq₀⟩ := hof c hc
        obtain ⟨g', hg', hq', -, hp'⟩ := hmove.stays hg₀
        exact ⟨g', hg', hp'.trans hp₀, hq' ▸ hq₀⟩
      · intro q hq
        obtain ⟨c, hc, g₀, hg₀, hp₀, hq₀⟩ := hall q hq
        obtain ⟨g', hg', hq', -, hp'⟩ := hmove.stays hg₀
        exact ⟨c, hc, g', hg', hp'.trans hp₀, hq'.trans hq₀⟩
    · cases hc
  · rw [hmove.trace] at hmem
    rcases List.mem_append.mp hmem with hmem | hmem
    · exact (h.answered j qs' r hmem).move hmove
    · obtain ⟨e, he, heq⟩ := List.mem_map.mp hmem
      obtain ⟨rfl, rfl⟩ := Prod.mk.inj heq
      exact (hown qs' r he).move hmove

/-- **One step** keeps fibers joined. -/
theorem Joined.step (h : s.Joined) (hformed : Formed program s)
    (hstep : Stepped program serve s i x t) : t.Joined := by
  cases hstep with
  -- a call of its own: nothing has been awaited
  | @called q root parent c k awaits hi =>
    have hawaits : awaits = none := by
      cases hc : awaits with
      | none => rfl
      | some children =>
        obtain ⟨⟨qs, k', hprog⟩, -⟩ := hformed.awaiting i _ children hi hc
        cases (Prog.call.inj hprog).1
    subst hawaits
    apply h.move (moves_called program hi _ _)
    · intro qs' k' hprog
      cases (Prog.call.inj hprog).1
    · exact fun hne => absurd rfl hne
    · exact fun children qs' k' hc => nomatch hc
    · intro qs' r hmem
      cases congrArg Exchange.call (List.mem_singleton.mp hmem)
  -- the children are new, and are those that it waits for
  | @spawned q root parent qs k hi =>
    apply h.move (moves_spawned program hi)
    · exact fun qs' k' hprog => .inr ⟨k', hprog⟩
    · exact fun _ => ⟨k, rfl⟩
    · intro children qs' k' hc hprog
      exact ⟨(Option.some.inj hc).symm, (Await.all.inj (Prog.call.inj hprog).1).symm⟩
    · exact fun qs' r hmem => nomatch hmem
  -- it is resumed by a child that raised, or by all of them
  | @resumed q root parent qs k children r hi hr =>
    obtain ⟨hof, hall⟩ := h.awaited i _ children qs k hi rfl rfl
    apply h.move (moves_resumed program hi r)
    · intro qs' k' hprog
      obtain rfl := Await.all.inj (Prog.call.inj hprog).1
      exact .inl ⟨r, List.mem_append_right _ (List.mem_singleton.mpr rfl)⟩
    · exact fun hne => absurd rfl hne
    · exact fun children qs' k' hc => nomatch hc
    · intro qs' r' hmem
      obtain ⟨hcall, hanswer⟩ := Exchange.mk.inj (List.mem_singleton.mp hmem)
      obtain rfl := Await.all.inj hcall
      obtain rfl := eq_of_heq hanswer
      rcases settled_some hr with ⟨j, hj, e, g, hg, hthrow, rfl⟩ | ⟨rfl, hret⟩
      · obtain ⟨g', hg', hp', hq'⟩ := hof j hj
        obtain rfl := Option.some.inj (hg.symm.trans hg')
        exact ⟨j, g, hg, hp', hq', hthrow⟩
      · intro q hq
        obtain ⟨j, hj, g, hg, hp, rfl⟩ := hall q hq
        obtain ⟨g', hg', hprog⟩ := hret j hj
        obtain rfl := Option.some.inj (hg.symm.trans hg')
        exact ⟨j, g, hg, hp, rfl, hprog⟩

/-- Every answer in the record is one that the service has given. -/
theorem entry_served {w : σ} {requests : List Q} {ls : List (ℕ × χ)}
    (hrun : exec (step program serve) (start program w requests) ls = some t) {j : ℕ} {c : C}
    {r : Except ε (R c)} (hmem : (j, ⟨.call c, r⟩) ∈ t.trace) : ∃ y u, (serve c y u).1 = r := by
  obtain ⟨ls₁, l, ls₂, u, v, -, -, hstep, -, hl, htrace⟩ :=
    trace_entry hrun hmem fun hstart => nomatch hstart
  subst hl
  obtain ⟨-, hserved⟩ := called_of_trace (step_some hstep) htrace
  exact ⟨l.2, u.state, congrArg Prod.fst hserved⟩

theorem joined_start (program : Q → Async Q C R ε Unit) (w : σ) (requests : List Q) :
    (start program w requests).Joined := by
  refine ⟨fun j g p hj hp => ?_, fun j g children qs k hj hc => ?_, fun j qs r hmem => ?_⟩
  · obtain ⟨q, -, rfl⟩ := start_at hj
    cases hp
  · obtain ⟨q, -, rfl⟩ := start_at hj
    cases hc
  · cases hmem

/-- **In every run** what has been awaited has ended as `Promise.all` says. -/
theorem joined_run {w : σ} {requests : List Q} {ls : List (ℕ × χ)}
    (hrun : exec (step program serve) (start program w requests) ls = some t) :
    Formed program t ∧ t.Joined := by
  have hkeep : ∀ (s : Fibers Q C R ε σ) l t, (Formed program s ∧ s.Joined) → True →
      step program serve s l = some t → Formed program t ∧ t.Joined :=
    fun s l t hs _ hstep => ⟨hs.1.step (step_some hstep), hs.2.step hs.1 (step_some hstep)⟩
  exact exec_invariant hkeep ⟨formed_start program w requests, joined_start program w requests⟩
    (along_true _ _) hrun

end Step

/-- The calls of the record, and whether they have failed. -/
def calls (s : Fibers Q C R ε σ) : List (ℕ × C × Bool) :=
  s.trace.filterMap fun e => match e with
    | (i, ⟨.call c, .ok _⟩) => some (i, c, false)
    | (i, ⟨.call c, .error _⟩) => some (i, c, true)
    | (_, ⟨.all _, _⟩) => none

theorem mem_calls_ok {s : Fibers Q C R ε σ} {i : ℕ} {c : C} {a : R c}
    (h : (i, ⟨.call c, .ok a⟩) ∈ s.trace) : (i, c, false) ∈ s.calls :=
  List.mem_filterMap.mpr ⟨_, h, rfl⟩

theorem mem_calls_error {s : Fibers Q C R ε σ} {i : ℕ} {c : C} {e : ε}
    (h : (i, ⟨.call c, .error e⟩) ∈ s.trace) : (i, c, true) ∈ s.calls :=
  List.mem_filterMap.mpr ⟨_, h, rfl⟩

end Fibers

/-! ### Passes -/

/-- A pass over the keys that a call lists: `claim` tells whether it may run, each key has a call that
lists its items and a last part, and `release` comes at the end in any case.  Calls and requests belong
to keys. -/
structure Sweep (K Q C : Type) (R : C → Type) (ε : Type) where
  claim : C
  claimed : R claim → Bool
  list : C
  keys : R list → List K
  listing : K → C
  items : (k : K) → R (listing k) → List Q
  finish : K → Async Q C R ε Unit
  release : Async Q C R ε Unit
  key : C → Option K
  tag : Q → Option K
  claim_ne : claim ≠ list
  key_claim : key claim = none
  key_list : key list = none
  key_listing : ∀ k, key (listing k) = some k
  tag_items : ∀ k a, ∀ q ∈ items k a, tag q = some k
  finish_calls : ∀ k, (finish k).Calls fun c => ∃ c', c = .call c' ∧ key c' = some k
  finish_transparent : ∀ k, (finish k).Transparent
  release_calls : release.Calls fun c => ∃ c', c = .call c' ∧ c' ≠ list ∧ key c' = none

namespace Sweep

variable (W : Sweep K Q C R ε)

/-- What the pass does for a key. -/
def visit (k : K) : Async Q C R ε Unit := do
  let a ← await (W.listing k)
  awaitAll (W.items k a)
  W.finish k

/-- The pass. -/
def pass : Async Q C R ε Unit := do
  let a ← await W.claim
  if W.claimed a then
    withFinally
      (do
        let a ← await W.list
        forEach W.visit (W.keys a))
      W.release

/-- What the pass awaits for the key. -/
def Of (k : K) : Await Q C → Prop
  | .call c => W.key c = some k
  | .all qs => ∃ a, qs = W.items k a

/-- What a function awaits that works for the key. -/
def Within (k : K) : Await Q C → Prop
  | .call c => W.key c = some k ∨ W.key c = none
  | .all qs => ∀ q ∈ qs, W.tag q = some k

/-- What is started works for some key. -/
def Starts : Await Q C → Prop
  | .call _ => True
  | .all qs => ∀ q ∈ qs, ∃ k, W.tag q = some k

/-- The functions that work for a key keep to it, and those of the items catch their errors. -/
structure Keeps (program : Q → Async Q C R ε Unit) : Prop where
  starts : ∀ q, (program q).Calls W.Starts
  keyed : ∀ q k, W.tag q = some k → (program q).Calls (W.Within k)
  caught : ∀ k a, ∀ q ∈ W.items k a,
    ∃ p : Async Q C R ε Unit, program q = p.tryCatch fun _ => ret ()

variable {W}

theorem visit_transparent (k : K) : (W.visit k).Transparent := by
  apply (transparent_perform _).bind
  intro a
  apply (transparent_perform _).bind
  exact fun _ => W.finish_transparent k

theorem visit_calls (k : K) : (W.visit k).Calls (W.Of k) := by
  have hlisting : (await (W.listing k) : Async Q C R ε _).Calls (W.Of k) :=
    calls_perform.mpr (W.key_listing k)
  apply hlisting.bind
  intro a
  have hall : (awaitAll (W.items k a) : Async Q C R ε Unit).Calls (W.Of k) :=
    calls_perform.mpr ⟨a, rfl⟩
  apply hall.bind
  intro _
  apply (W.finish_calls k).mono
  rintro _ ⟨c, rfl, hc⟩
  exact hc

theorem forEach_transparent {visit : K → Async Q C R ε Unit} (hvisit : ∀ k, (visit k).Transparent)
    (keys : List K) : (forEach visit keys).Transparent := by
  induction keys with
  | nil => trivial
  | cons k rest ih =>
    apply (hvisit k).bind
    exact fun _ => ih

/-- A pass starts functions for its keys. -/
theorem pass_starts : W.pass.Calls W.Starts := by
  have hcall : ∀ c : C, (await c : Async Q C R ε (R c)).Calls W.Starts :=
    fun c => calls_perform.mpr trivial
  apply (hcall _).bind
  intro a
  split
  · apply Prog.Calls.withFinally
    · apply (hcall _).bind
      intro b
      apply (forEach_calls W.visit_calls).mono
      rintro c ⟨k, -, hk⟩
      cases c with
      | call c => trivial
      | all qs =>
        obtain ⟨d, rfl⟩ := hk
        exact fun q hq => ⟨k, W.tag_items k d q hq⟩
    · apply W.release_calls.mono
      rintro _ ⟨c, rfl, -⟩
      trivial
  · trivial

/-- The record of a pass: the rest of it is not for a key. -/
theorem pass_record {own : List (Exchange (Await Q C) (Await.Result R) ε)} {q : Async Q C R ε Unit}
    (h : W.pass.Reaches own q) (hq : q.Finished) {a : R W.list}
    (hlist : ⟨.call W.list, .ok a⟩ ∈ own) :
    ∃ own' p, (forEach W.visit (W.keys a)).Reaches own' p ∧ p.Finished ∧ own' ⊆ own ∧
      ∀ x ∈ own, x ∈ own' ∨ ∃ c, x.call = .call c ∧ W.key c = none := by
  obtain ⟨rfl, -⟩ | ⟨e, rfl, -⟩ | ⟨b, rest, rfl, hrest⟩ := reaches_perform h
  · cases hlist
  · have heq := congrArg Exchange.call (List.mem_singleton.mp hlist)
    exact absurd (Await.call.inj heq).symm W.claim_ne
  replace hlist : ⟨.call W.list, .ok a⟩ ∈ rest := by
    rcases List.mem_cons.mp hlist with heq | hlist
    · exact absurd (Await.call.inj (congrArg Exchange.call heq)).symm W.claim_ne
    · exact hlist
  by_cases hb : W.claimed b = true
  · rw [if_pos hb] at hrest
    obtain ⟨own₁, own₂, p', rfl, hbody, hp', hrelease⟩ :=
      reaches_withFinally hrest hq W.release_calls
    replace hlist : ⟨.call W.list, .ok a⟩ ∈ own₁ := by
      rcases List.mem_append.mp hlist with hlist | hlist
      · exact hlist
      · obtain ⟨c, hc, hne, -⟩ := hrelease _ hlist
        exact absurd (Await.call.inj hc).symm hne
    obtain ⟨rfl, -⟩ | ⟨e, rfl, -⟩ | ⟨a', own', rfl, hloop⟩ := reaches_perform hbody
    · cases hlist
    · cases List.mem_singleton.mp hlist
    -- the loop makes no call to list
    obtain rfl : a = a' := by
      rcases List.mem_cons.mp hlist with heq | hlist
      · exact Except.ok.inj (eq_of_heq (Exchange.mk.inj heq).2)
      · obtain ⟨k, -, hk⟩ := ((forEach_calls W.visit_calls).reaches hloop).1 _ hlist
        cases W.key_list.symm.trans hk
    refine ⟨own', p', hloop, hp', fun x hx => ?_, fun x hx => ?_⟩
    · exact List.mem_cons_of_mem _ (List.mem_append_left _ (List.mem_cons_of_mem _ hx))
    · rcases List.mem_cons.mp hx with rfl | hx
      · exact .inr ⟨_, rfl, W.key_claim⟩
      rcases List.mem_append.mp hx with hx | hx
      · rcases List.mem_cons.mp hx with rfl | hx
        · exact .inr ⟨_, rfl, W.key_list⟩
        · exact .inl hx
      · obtain ⟨c, hc, -, hkey⟩ := hrelease x hx
        exact .inr ⟨c, hc, hkey⟩
  · rw [if_neg hb] at hrest
    obtain ⟨rfl, -⟩ := reaches_ret hrest
    cases hlist

/-! ### Which keys a pass serves -/

section Serves

variable (W) (s : Fibers Q C R ε σ) (r : ℕ)

/-- A call that the pass makes itself for the key has failed. -/
def Stops (k : K) : Prop := ∃ c e, (r, ⟨.call c, .error e⟩) ∈ s.trace ∧ W.key c = some k

/-- A call for the key has failed, of the pass or of a function that works for it. -/
def Fails (k : K) : Prop :=
  ∃ j g c e, s.At j g ∧ g.root = r ∧ (j, ⟨.call c, .error e⟩) ∈ s.trace ∧ W.key c = some k

/-- The items of the key were listed. -/
def Lists (k : K) : Prop := ∃ a, (r, ⟨.call (W.listing k), .ok a⟩) ∈ s.trace

/-- The items of the key were listed, and the function for each of them has returned. -/
def Serves (k : K) : Prop :=
  ∃ a, (r, ⟨.call (W.listing k), .ok a⟩) ∈ s.trace ∧
    ∀ q ∈ W.items k a, ∃ j g, s.At j g ∧ g.parent = some r ∧ g.request = q ∧ g.prog = ret ()

/-- Fiber `r` was a pass, over the keys of `a`, and has ended. -/
structure Ended (program : Q → Async Q C R ε Unit) (a : R W.list) : Prop where
  formed : s.Formed program
  joined : s.Joined
  keeps : W.Keeps program
  fiber : ∃ f, s.At r f ∧ W.tag f.request = none ∧ f.prog.Finished ∧
    program f.request = W.pass.tryCatch fun _ => ret ()
  list : (r, ⟨.call W.list, .ok a⟩) ∈ s.trace

end Serves

section Ended

variable {program : Q → Async Q C R ε Unit} {s : Fibers Q C R ε σ} {r : ℕ} {a : R W.list}

/-- Nobody starts a pass. -/
theorem Ended.top (h : W.Ended s r program a) {j : ℕ} {f : Fiber Q C R ε} (hj : s.At j f)
    (htag : W.tag f.request = none) : f.parent = none := by
  cases hparent : f.parent with
  | none => rfl
  | some p =>
    obtain ⟨-, g, hg, -⟩ := h.formed.child j p f hj hparent
    obtain ⟨qs, hmem, hstarted⟩ := h.joined.started j f p hj hparent
    obtain ⟨hown, hleft⟩ := (h.keeps.starts g.request).reaches (h.formed.left p g hg)
    have hstarts : W.Starts (.all qs) := by
      rcases hstarted with ⟨answer, hanswer⟩ | ⟨g', k, hg', hprog⟩
      · exact hown _ (mem_ownTrace.mpr hanswer)
      · obtain rfl := Option.some.inj (hg.symm.trans hg')
        rw [hprog] at hleft
        exact hleft.1
    obtain ⟨k, hk⟩ := hstarts _ hmem
    cases htag.symm.trans hk

/-- What a pass has started works for it. -/
theorem Ended.root (h : W.Ended s r program a) {j : ℕ} {g : Fiber Q C R ε} (hj : s.At j g)
    (hparent : g.parent = some r) : g.root = r := by
  obtain ⟨f, hf, htag, -, -⟩ := h.fiber
  obtain ⟨-, f', hf', hroot⟩ := h.formed.child j r g hj hparent
  obtain rfl := Option.some.inj (hf.symm.trans hf')
  rw [← hroot]
  exact h.formed.top r f hf (h.top hf htag)

/-- The record of the loop of a pass. -/
theorem Ended.loop (h : W.Ended s r program a) :
    ∃ own p, (forEach W.visit (W.keys a)).Reaches own p ∧ p.Finished ∧
      (∀ x ∈ own, (r, x) ∈ s.trace) ∧
      ∀ x, (r, x) ∈ s.trace → x ∈ own ∨ ∃ c, x.call = .call c ∧ W.key c = none := by
  obtain ⟨f, hf, -, hfinished, hprogram⟩ := h.fiber
  have hleft := h.formed.left r f hf
  rw [hprogram] at hleft
  obtain ⟨p', hp', hcaught⟩ := reaches_caught hleft
  rw [hcaught] at hfinished
  obtain ⟨own, p, hloop, hp, hown, hrest⟩ :=
    W.pass_record hp' (finished_of_caught hfinished) (mem_ownTrace.mpr h.list)
  refine ⟨own, p, hloop, hp, fun x hx => mem_ownTrace.mp (hown hx), fun x hx => ?_⟩
  exact hrest x (mem_ownTrace.mpr hx)

/-- The functions of the items have returned. -/
theorem Ended.returned (h : W.Ended s r program a) {k : K} {b : R (W.listing k)} {e : ε} :
    (r, ⟨.all (W.items k b), .error e⟩) ∉ s.trace := by
  intro hmem
  obtain ⟨j, g, hj, -, hrequest, hthrow⟩ := h.joined.answered r _ _ hmem
  obtain ⟨p, hp⟩ := h.keeps.caught k b g.request hrequest
  have hleft := h.formed.left j g hj
  rw [hp, hthrow] at hleft
  obtain ⟨p', -, hcaught⟩ := reaches_caught hleft
  exact caught_ne_throw hcaught.symm

/-- A visit that has returned. -/
theorem Ended.serves (h : W.Ended s r program a) {k : K}
    {own : List (Exchange (Await Q C) (Await.Result R) ε)} (hown : ∀ x ∈ own, (r, x) ∈ s.trace)
    (hvisit : (W.visit k).Reaches own (ret ())) : W.Serves s r k := by
  obtain ⟨b, own₁, rfl, hrest⟩ := reaches_perform_ret hvisit
  obtain ⟨⟨⟩, own₂, rfl, -⟩ := reaches_perform_ret hrest
  refine ⟨b, hown _ List.mem_cons_self, ?_⟩
  have hall := hown _ (List.mem_cons_of_mem _ List.mem_cons_self)
  exact h.joined.answered r _ _ hall

/-- A visit that has raised. -/
theorem Ended.stops (h : W.Ended s r program a) {k : K} {e : ε}
    {own : List (Exchange (Await Q C) (Await.Result R) ε)} (hown : ∀ x ∈ own, (r, x) ∈ s.trace)
    (hvisit : (W.visit k).Reaches own (Prog.throw e)) : W.Stops s r k := by
  obtain ⟨x, hx, error, herror⟩ := (W.visit_transparent k).blameless.reaches hvisit
  have hof := ((W.visit_calls k).reaches hvisit).1 x hx
  have hmem := hown x hx
  obtain ⟨c, answer⟩ := x
  obtain rfl : answer = .error error := herror
  cases c with
  | call c => exact ⟨c, error, hmem, hof⟩
  | all qs =>
    obtain ⟨b, rfl⟩ := hof
    exact absurd hmem h.returned

/-- Whoever works for the pass works for a key that the pass has visited. -/
theorem Ended.lineage (h : W.Ended s r program a) {visited : List K}
    (hvisited : ∀ x, (r, x) ∈ s.trace →
      (∃ k ∈ visited, W.Of k x.call) ∨ ∃ c, x.call = .call c ∧ W.key c = none) :
    ∀ j g, s.At j g → g.root = r → j ≠ r → ∃ k ∈ visited, W.tag g.request = some k := by
  intro j
  -- strong induction: a fiber is started after its parent
  induction j using Nat.strongRecOn with
  | ind j ih =>
    intro g hj hroot hne
    cases hparent : g.parent with
    | none => exact absurd ((h.formed.top j g hj hparent).symm.trans hroot) hne
    | some p =>
      obtain ⟨hlt, gp, hgp, hgpRoot⟩ := h.formed.child j p g hj hparent
      obtain ⟨qs, hmem, hstarted⟩ := h.joined.started j g p hj hparent
      by_cases hp : p = r
      · -- the fibers of the pass itself are of an item that it visited
        subst hp
        obtain ⟨f, hf, -, hfinished, -⟩ := h.fiber
        rcases hstarted with ⟨answer, hanswer⟩ | ⟨f', k, hf', hprog⟩
        · obtain ⟨k, hk, b, rfl⟩ | ⟨c, hc, -⟩ := hvisited _ hanswer
          · exact ⟨k, hk, W.tag_items k b _ hmem⟩
          · cases hc
        · obtain rfl := Option.some.inj (hf.symm.trans hf')
          rw [hprog] at hfinished
          exact hfinished.elim
      · obtain ⟨k, hk, htag⟩ := ih p hlt gp hgp (hgpRoot.trans hroot) hp
        -- further down, the item is that of the parent
        obtain ⟨hown, hleft⟩ := (h.keeps.keyed _ k htag).reaches (h.formed.left p gp hgp)
        refine ⟨k, hk, ?_⟩
        rcases hstarted with ⟨answer, hanswer⟩ | ⟨f', k', hf', hprog⟩
        · exact hown _ (mem_ownTrace.mpr hanswer) _ hmem
        · obtain rfl := Option.some.inj (hgp.symm.trans hf')
          rw [hprog] at hleft
          exact hleft.1 _ hmem

/-- A key at which the pass stops is one for which a call fails. -/
theorem Ended.fails (h : W.Ended s r program a) {k : K} (hstops : W.Stops s r k) :
    W.Fails s r k := by
  obtain ⟨f, hf, htag, -, -⟩ := h.fiber
  obtain ⟨c, e, hmem, hkey⟩ := hstops
  exact ⟨r, f, c, e, hf, h.formed.top r f hf (h.top hf htag), hmem, hkey⟩

/-- A pass that was not stopped has served every key; one that was stopped has served those before,
and has not come to those after. -/
theorem Ended.cases (h : W.Ended s r program a) :
    ((∀ k, ¬ W.Stops s r k) ∧ ∀ k ∈ W.keys a, W.Serves s r k) ∨
    ∃ before k after, W.keys a = before ++ k :: after ∧ W.Stops s r k ∧
      (∀ k', W.Stops s r k' → k' = k) ∧ (∀ k' ∈ before, W.Serves s r k') ∧
      ∀ k', W.Fails s r k' ∨ W.Lists s r k' → k' ∈ before ∨ k' = k := by
  obtain ⟨own, p, hloop, hp, hown, hrest⟩ := h.loop
  -- a call for a key is one of the loop
  have hin : ∀ {c answer k}, (r, ⟨.call c, answer⟩) ∈ s.trace → W.key c = some k →
      ⟨.call c, answer⟩ ∈ own := by
    intro c answer k hmem hkey
    rcases hrest _ hmem with hx | ⟨c', hc, hnone⟩
    · exact hx
    · obtain rfl := Await.call.inj hc
      cases hkey.symm.trans hnone
  cases p with
  | call c k => exact hp.elim
  | ret u =>
    left
    refine ⟨?_, fun k hk => ?_⟩
    · rintro k ⟨c, e, hmem, hkey⟩
      exact (forEach_transparent W.visit_transparent _).reaches_ret hloop _ (hin hmem hkey) e rfl
    · obtain ⟨own', hsub, hvisit⟩ := forEach_returned hloop k hk
      exact h.serves (fun x hx => hown x (hsub hx)) hvisit
  | throw e =>
    right
    obtain ⟨before, k, after, own₁, own₂, hkeys, rfl, hbefore, hraised⟩ := forEach_raised hloop
    have hown₁ := ((forEach_calls W.visit_calls).reaches hbefore).1
    have hown₂ := ((W.visit_calls k).reaches hraised).1
    have hkey : ∀ {c answer k'}, (r, ⟨.call c, answer⟩) ∈ s.trace → W.key c = some k' →
        k' ∈ before ∨ k' = k := by
      intro c answer k' hmem hk'
      rcases List.mem_append.mp (hin hmem hk') with hx | hx
      · obtain ⟨k'', hmem'', hof⟩ := hown₁ _ hx
        obtain rfl := Option.some.inj (hk'.symm.trans hof)
        exact .inl hmem''
      · exact .inr (Option.some.inj (hk'.symm.trans (hown₂ _ hx)))
    refine ⟨before, k, after, hkeys, ?_, ?_, ?_, ?_⟩
    · exact h.stops (fun x hx => hown x (List.mem_append_right _ hx)) hraised
    · -- the visits before have returned, so that none of their calls has failed
      rintro k' ⟨c, e', hmem, hk'⟩
      rcases List.mem_append.mp (hin hmem hk') with hx | hx
      · have hok := (forEach_transparent W.visit_transparent _).reaches_ret hbefore _ hx e'
        exact absurd rfl hok
      · exact Option.some.inj (hk'.symm.trans (hown₂ _ hx))
    · intro k' hk'
      obtain ⟨own', hsub, hvisit⟩ := forEach_returned hbefore k' hk'
      exact h.serves (fun x hx => hown x (List.mem_append_left _ (hsub hx))) hvisit
    · rintro k' (⟨j, g, c, e', hj, hroot, hmem, hk'⟩ | ⟨b, hmem⟩)
      · by_cases hjr : j = r
        · subst hjr
          exact hkey hmem hk'
        · have hvisited : ∀ x, (r, x) ∈ s.trace → (∃ k'' ∈ before ++ [k], W.Of k'' x.call) ∨
              ∃ c, x.call = .call c ∧ W.key c = none := by
            intro x hx
            rcases hrest x hx with hx | hnone
            · left
              rcases List.mem_append.mp hx with hx | hx
              · obtain ⟨k'', hmem'', hof⟩ := hown₁ x hx
                exact ⟨k'', List.mem_append_left _ hmem'', hof⟩
              · exact ⟨k, List.mem_append_right _ (List.mem_singleton.mpr rfl), hown₂ x hx⟩
            · exact .inr hnone
          obtain ⟨k'', hmem'', htag⟩ := h.lineage hvisited j g hj hroot hjr
          have hwithin := ((h.keeps.keyed _ k'' htag).reaches (h.formed.left j g hj)).1 _
            (mem_ownTrace.mpr hmem)
          obtain rfl : k' = k'' := by
            rcases hwithin with hsome | hnone
            · exact Option.some.inj (hk'.symm.trans hsome)
            · cases hk'.symm.trans hnone
          rcases List.mem_append.mp hmem'' with hmem'' | hmem''
          · exact .inl hmem''
          · exact .inr (List.mem_singleton.mp hmem'')
      · exact hkey hmem (W.key_listing k')

/-- **Isolation.**  A pass over distinct keys serves every key for which no call fails exactly if it is
stopped at no key but the last.  `S` is what it is to serve a key: at least its items were listed, and
no more is asked than that the function for each of them has returned. -/
theorem serves_iff (h : W.Ended s r program a) (hdistinct : (W.keys a).Nodup) {S : K → Prop}
    (hlists : ∀ k, S k → W.Lists s r k) (hserves : ∀ k, ¬ W.Fails s r k → W.Serves s r k → S k) :
    (∀ before k after, W.keys a = before ++ k :: after → W.Stops s r k → after = []) ↔
      ∀ k ∈ W.keys a, ¬ W.Fails s r k → S k := by
  rcases h.cases with ⟨hnone, hall⟩ | ⟨before, k, after, hkeys, hstops, honly, hbefore, hvisited⟩
  · constructor
    · exact fun _ k hk hfails => hserves k hfails (hall k hk)
    · exact fun _ before k after _ hstops => absurd hstops (hnone k)
  constructor
  · intro hlast k' hk' hfails
    apply hserves k' hfails
    obtain rfl := hlast before k after hkeys hstops
    rw [hkeys] at hk'
    rcases List.mem_append.mp hk' with hk' | hk'
    · exact hbefore k' hk'
    · obtain rfl := List.mem_singleton.mp hk'
      exact absurd (h.fails hstops) hfails
  · intro hserved before' k' after' hkeys' hstops'
    obtain rfl := honly k' hstops'
    have hnot : ∀ {xs ys : List K}, W.keys a = xs ++ k' :: ys → k' ∉ xs ++ ys := by
      intro xs ys heq
      rw [heq] at hdistinct
      exact (List.nodup_cons.mp (List.nodup_middle.mp hdistinct)).1
    obtain ⟨rfl, rfl⟩ : before = before' ∧ after = after' := by
      rcases append_cons_cases (hkeys.symm.trans hkeys') with ⟨hb, -, ha⟩ | hmem | hmem
      · exact ⟨hb, ha⟩
      · exact absurd (List.mem_append_left _ hmem) (hnot hkeys')
      · exact absurd (List.mem_append_left _ hmem) (hnot hkeys)
    -- a key after the one at which the pass stopped has not been visited
    by_contra hafter
    obtain ⟨k'', rest, rfl⟩ := List.exists_cons_of_ne_nil hafter
    have hne : ¬ (k'' ∈ before ∨ k'' = k') := by
      rintro (hmem | rfl)
      · rw [hkeys] at hdistinct
        have hdisjoint := (List.nodup_append.mp hdistinct).2.2
        exact hdisjoint k'' hmem k'' (by simp) rfl
      · exact hnot hkeys (by simp)
    have hunfailed : ¬ W.Fails s r k'' := fun hfails => hne (hvisited k'' (.inl hfails))
    have hmem : k'' ∈ W.keys a := by
      rw [hkeys]
      simp
    exact hne (hvisited k'' (.inr (hlists k'' (hserved k'' hmem hunfailed))))

end Ended

/-! ### Passes and their gate -/

/-- A pass enters its gate with the call that claims it, and leaves it at the end. -/
theorem pass_followed {I : Type} {G : Gate I C R ε} {i : I}
    (hclaim : G.wants W.claim = some (.enter i))
    (hadmits : ∀ a, G.admits W.claim (.ok a) = W.claimed a)
    (herror : ∀ e, G.admits W.claim (.error e) = false) (hlist : G.wants W.list = none)
    (hkeyed : ∀ c k, W.key c = some k → G.wants c = none)
    (hrelease : W.release.Meets G.policy.contract (fun _ g => g = .over) (.inside i)) :
    W.pass.Meets G.policy.contract (fun _ g => g = .over) .fresh := by
  have htrack : ∀ r, G.policy.track .fresh
      (⟨.call W.claim, r⟩ : Exchange (Await Q C) (Await.Result R) ε) =
        if G.admits W.claim r then .inside i else .over := by
    intro r
    show Phase.after .fresh (G.wants W.claim) (G.admits W.claim r) = _
    rw [hclaim]
    cases G.admits W.claim r with
    | true => rfl
    | false => rfl
  apply Policy.await_bind_meets
  · show Phase.fresh.MayAsk (G.wants W.claim)
    rw [hclaim]
    rfl
  · intro a _
    rw [htrack, hadmits]
    by_cases ha : W.claimed a = true
    · -- let in, the pass visits its keys and releases the gate, whatever happens
      rw [if_pos ha, if_pos ha]
      apply Policy.Keeps.withFinally _ hrelease
      apply Gate.meets_of_quiet
      · apply Prog.Calls.bind
        · exact calls_perform.mpr hlist
        · intro b
          apply (forEach_calls W.visit_calls).mono
          rintro c ⟨k, -, hk⟩
          cases c with
          | call c => exact hkeyed c k hk
          | all qs => trivial
      · exact fun h => nomatch h
    · -- not let in, it ends
      rw [if_neg ha, if_neg ha]
      rfl
  · intro e
    rw [htrack, herror]
    rfl

end Sweep

end Program
