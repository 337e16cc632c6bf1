/-
NexCause/Coupling.lean

Two runs side by side: a relational logic of programs.

A `Coupling` says which calls of two programs belong together and which pairs
of answers they may get.  Two programs are `Coupled` if, call by call, what
they ask belongs together and they end alike, whatever pairs of answers they
get.  When a service answers calls that belong together by such a pair, and
keeps two states related, so does every run of two coupled programs
(`Coupled.run`).

The rules follow the programs: `Coupled.bind`, `Coupled.tryCatch`,
`Coupled.forM`, and `Calls.coupled` for a program beside itself.  Where every
call has one answer, `Prog.both_bind` and `Prog.both_tryCatch` compare outcomes.
-/
import Mathlib.Data.List.Forall2
import NexCause.Program

namespace Program

variable {C : Type} {R : C → Type} {ε α β γ δ χ σ : Type}

/-- Which calls belong together, and which answers they may get. -/
structure Coupling (C : Type) (R : C → Type) (ε : Type) where
  call : C → C → Prop
  answer : (c c' : C) → Except ε (R c) → Except ε (R c') → Prop

/-- Both return, with related results, or both throw the same. -/
def Both (V : α → β → Prop) : Except ε α → Except ε β → Prop
  | .ok a, .ok b => V a b
  | .error e, .error e' => e = e'
  | _, _ => False

theorem Both.refl (x : Except ε α) : Both Eq x x := by
  cases x <;> exact rfl

theorem Both.eq {x y : Except ε α} (h : Both Eq x y) : x = y := by
  cases x with
  | ok a =>
    cases y with
    | ok b => exact congrArg Except.ok h
    | error e => cases h
  | error e =>
    cases y with
    | ok b => cases h
    | error e' => exact congrArg Except.error h

theorem Both.bind {V : α → β → Prop} {W : γ → δ → Prop} {x : Except ε α} {y : Except ε β}
    {f : α → Except ε γ} {g : β → Except ε δ} (h : Both V x y)
    (hfg : ∀ a b, V a b → Both W (f a) (g b)) : Both W (x >>= f) (y >>= g) := by
  cases x with
  | ok a =>
    cases y with
    | ok b => exact hfg a b h
    | error e => cases h
  | error e =>
    cases y with
    | ok b => cases h
    | error e' => exact h

namespace Prog

variable {K : Coupling C R ε} {V : α → β → Prop} {W : γ → δ → Prop}

/-- The two programs make calls that belong together and end alike, whatever
pairs of answers they get. -/
inductive Coupled (K : Coupling C R ε) (V : α → β → Prop) : Prog C R ε α → Prog C R ε β → Prop
  | ret {a : α} {b : β} (h : V a b) : Coupled K V (ret a) (ret b)
  | throw (e : ε) : Coupled K V (throw e) (throw e)
  | call {c c' : C} {k : Except ε (R c) → Prog C R ε α} {k' : Except ε (R c') → Prog C R ε β}
      (hcall : K.call c c') (hrest : ∀ r r', K.answer c c' r r' → Coupled K V (k r) (k' r')) :
      Coupled K V (call c k) (call c' k')

theorem coupled_ofExcept {r : Except ε α} {r' : Except ε β} (h : Both V r r') :
    Coupled K V (ofExcept r : Prog C R ε α) (ofExcept r') := by
  cases r with
  | ok a =>
    cases r' with
    | ok b => exact .ret h
    | error e' => cases h
  | error e =>
    cases r' with
    | ok b => cases h
    | error e' =>
      obtain rfl : e = e' := h
      exact .throw e

/-- One call each. -/
theorem coupled_perform {c c' : C} {V : R c → R c' → Prop} (hcall : K.call c c')
    (hanswer : ∀ r r', K.answer c c' r r' → Both V r r') :
    Coupled K V (perform c : Prog C R ε (R c)) (perform c' : Prog C R ε (R c')) := by
  apply Coupled.call hcall
  intro r r' hr
  exact coupled_ofExcept (hanswer r r' hr)

/-- Sequences of coupled programs. -/
theorem Coupled.bind {p : Prog C R ε α} {q : Prog C R ε β} {f : α → Prog C R ε γ}
    {g : β → Prog C R ε δ} (h : Coupled K V p q) (hfg : ∀ a b, V a b → Coupled K W (f a) (g b)) :
    Coupled K W (p >>= f) (q >>= g) := by
  induction h with
  | ret h => exact hfg _ _ h
  | throw e => exact .throw e
  | call hcall _ ih => exact .call hcall ih

/-- Handlers of coupled programs: they meet the same exception. -/
theorem Coupled.tryCatch {p : Prog C R ε α} {q : Prog C R ε β} {f : ε → Prog C R ε α}
    {g : ε → Prog C R ε β} (h : Coupled K V p q) (hfg : ∀ e, Coupled K V (f e) (g e)) :
    Coupled K V (p.tryCatch f) (q.tryCatch g) := by
  induction h with
  | ret h => exact .ret h
  | throw e => exact hfg e
  | call hcall _ ih => exact .call hcall ih

/-- A loop over one list. -/
theorem Coupled.forM {xs : List α} {f g : α → Prog C R ε Unit}
    (h : ∀ x ∈ xs, Coupled K Eq (f x) (g x)) : Coupled K Eq (xs.forM f) (xs.forM g) := by
  induction xs with
  | nil => exact .ret rfl
  | cons x xs ih =>
    apply (h x List.mem_cons_self).bind
    intro _ _ _
    exact ih fun y hy => h y (List.mem_cons_of_mem x hy)

/-- A program beside itself, if each of its calls belongs to itself and is
answered by two equal answers. -/
theorem Calls.coupled {P : C → Prop} {p : Prog C R ε α} (hp : p.Calls P)
    (hcall : ∀ c, P c → K.call c c) (hanswer : ∀ c r r', P c → K.answer c c r r' → r = r') :
    Coupled K Eq p p := by
  induction p with
  | ret a => exact .ret rfl
  | throw e => exact .throw e
  | call c k ih =>
    apply Coupled.call (hcall c hp.1)
    intro r r' hr
    obtain rfl := hanswer c r r' hp.1 hr
    exact ih r (hp.2 r)

end Prog

/-! ### Runs -/

/-- A service answers calls that belong together by a pair of answers that the
coupling allows, and keeps two states related. -/
def Coupling.Serves (K : Coupling C R ε) (serve : Service C R ε χ σ) (S : σ → σ → Prop) : Prop :=
  ∀ c c' x s s', K.call c c' → S s s' →
    K.answer c c' (serve c x s).1 (serve c' x s').1 ∧ S (serve c x s).2 (serve c' x s').2

/-- **Two runs** of coupled programs, under the same choices of the environment:
they end alike, in related states, and their calls belong together one by one. -/
theorem Prog.Coupled.run {K : Coupling C R ε} {serve : Service C R ε χ σ} {S : σ → σ → Prop}
    (hserves : K.Serves serve S) {V : α → β → Prop} {p : Prog C R ε α} {q : Prog C R ε β}
    (h : Coupled K V p q) (env : ℕ → χ) {s s' : σ} (hs : S s s') :
    Both V (p.run serve env s).outcome (q.run serve env s').outcome ∧
      S (p.run serve env s).state (q.run serve env s').state ∧
      List.Forall₂ K.call (p.run serve env s).calls (q.run serve env s').calls := by
  induction h generalizing env s s' with
  | ret h => exact ⟨h, hs, .nil⟩
  | throw e => exact ⟨rfl, hs, .nil⟩
  | call hcall _ ih =>
    obtain ⟨hanswer, hnext⟩ := hserves _ _ (env 0) s s' hcall hs
    obtain ⟨houtcome, hstate, hcalls⟩ := ih _ _ hanswer (fun n => env (n + 1)) hnext
    exact ⟨houtcome, hstate, .cons hcall hcalls⟩

/-! ### Two answers to every call -/

section Answers

variable {answer answer' : (c : C) → Except ε (R c)} {V : α → β → Prop} {W : γ → δ → Prop}

/-- Answers that a program does not ask for do not matter. -/
theorem Prog.eval_congr {P : C → Prop} {p : Prog C R ε α} (hp : p.Calls P)
    (h : ∀ c, P c → answer c = answer' c) : p.eval answer = p.eval answer' := by
  induction p with
  | ret a => rfl
  | throw e => rfl
  | call c k ih =>
    show (k (answer c)).eval answer = (k (answer' c)).eval answer'
    rw [h c hp.1]
    exact ih _ (hp.2 _)

theorem Prog.both_bind {p : Prog C R ε α} {q : Prog C R ε β} {f : α → Prog C R ε γ}
    {g : β → Prog C R ε δ} (hp : Both V (p.eval answer) (q.eval answer'))
    (hfg : ∀ a b, V a b → Both W ((f a).eval answer) ((g b).eval answer')) :
    Both W ((p >>= f).eval answer) ((q >>= g).eval answer') := by
  rw [eval_bind, eval_bind]
  exact hp.bind hfg

theorem Prog.both_tryCatch {p : Prog C R ε α} {q : Prog C R ε β} {f : ε → Prog C R ε α}
    {g : ε → Prog C R ε β} (hp : Both V (p.eval answer) (q.eval answer'))
    (hfg : ∀ e, Both V ((f e).eval answer) ((g e).eval answer')) :
    Both V ((p.tryCatch f).eval answer) ((q.tryCatch g).eval answer') := by
  cases hx : p.eval answer with
  | ok a =>
    cases hy : q.eval answer' with
    | ok b =>
      rw [eval_tryCatch_ok hx, eval_tryCatch_ok hy]
      rw [hx, hy] at hp
      exact hp
    | error e =>
      rw [hx, hy] at hp
      cases hp
  | error e =>
    cases hy : q.eval answer' with
    | ok b =>
      rw [hx, hy] at hp
      cases hp
    | error e' =>
      rw [hx, hy] at hp
      obtain rfl : e = e' := hp
      rw [eval_tryCatch_error hx, eval_tryCatch_error hy]
      exact hfg e

/-- Two environments that a service answers alike give one run. -/
theorem Prog.run_congr {serve : Service C R ε χ σ} {p : Prog C R ε α} {env env' : ℕ → χ} {s : σ}
    (h : ∀ n c t, serve c (env n) t = serve c (env' n) t) :
    p.run serve env s = p.run serve env' s := by
  induction p generalizing env env' s with
  | ret a => rfl
  | throw e => rfl
  | call c k ih =>
    have hrest : ∀ n c t, serve c (env (n + 1)) t = serve c (env' (n + 1)) t := fun n => h (n + 1)
    rw [run_call rfl, run_call rfl, h 0 c s, ih _ hrest]

end Answers

end Program
