/-
NexCause/Simulation.lean

A program over one service does what a program over another one says: two
levels of one design, whose calls, results and states may have different types.

`Simulates` compares their runs.  Under the same choices of the environment and
from related states, the two make calls that belong together one by one, end
alike, and leave related states.

Main results: simulation goes through sequences (`Simulates.bind`), and one call
simulates another one if the two services answer them alike
(`simulates_perform`); the work on an answer that needs no call belongs to it
(`simulates_request`).
-/
import NexCause.Coupling

namespace Program

variable {C C' : Type} {R : C → Type} {R' : C' → Type} {ε α β γ δ χ σ σ' : Type}

/-- Two services, which calls of theirs belong together, and which states. -/
structure Levels (C C' : Type) (R : C → Type) (R' : C' → Type) (ε χ σ σ' : Type) where
  serve : Service C R ε χ σ
  serve' : Service C' R' ε χ σ'
  call : C → C' → Prop
  state : σ → σ' → Prop

variable {L : Levels C C' R R' ε χ σ σ'}

/-- The runs of two programs. -/
structure Levels.Alike (L : Levels C C' R R' ε χ σ σ') (V : α → β → Prop) (x : Ended C ε α σ)
    (y : Ended C' ε β σ') : Prop where
  outcome : Both V x.outcome y.outcome
  state : L.state x.state y.state
  calls : List.Forall₂ L.call x.calls y.calls

/-- The program `p` over the one service does what `q` over the other one says. -/
def Simulates (L : Levels C C' R R' ε χ σ σ') (V : α → β → Prop) (p : Prog C R ε α)
    (q : Prog C' R' ε β) : Prop :=
  ∀ env s s', L.state s s' → L.Alike V (p.run L.serve env s) (q.run L.serve' env s')

variable {V : α → β → Prop} {W : γ → δ → Prop}

theorem simulates_ofExcept {x : Except ε α} {y : Except ε β} (h : Both V x y) :
    Simulates L V (Prog.ofExcept x) (Prog.ofExcept y) := by
  intro env s s' hs
  rw [Prog.run_ofExcept, Prog.run_ofExcept]
  exact ⟨h, hs, .nil⟩

theorem simulates_ret {a : α} {b : β} (h : V a b) : Simulates L V (Prog.ret a) (Prog.ret b) :=
  simulates_ofExcept (x := .ok a) (y := .ok b) h

/-- Sequences. -/
theorem Simulates.bind {p : Prog C R ε α} {q : Prog C' R' ε β} {f : α → Prog C R ε γ}
    {g : β → Prog C' R' ε δ} (h : Simulates L V p q)
    (hfg : ∀ a b, V a b → Simulates L W (f a) (g b)) : Simulates L W (p >>= f) (q >>= g) := by
  intro env s s' hs
  obtain ⟨houtcome, hstate, hcalls⟩ := h env s s' hs
  generalize hx : p.run L.serve env s = x at houtcome hstate hcalls
  generalize hy : q.run L.serve' env s' = y at houtcome hstate hcalls
  obtain ⟨x, t, cs⟩ := x
  obtain ⟨y, t', cs'⟩ := y
  cases x with
  | ok a =>
    cases y with
    | error e => cases houtcome
    | ok b =>
      rw [Prog.run_bind_ok hx, Prog.run_bind_ok hy]
      -- both have made the same number of calls, and meet the same choices from here
      have hlength : cs.length = cs'.length := hcalls.length_eq
      rw [← hlength]
      obtain ⟨hout, hnext, hrest⟩ := hfg a b houtcome (fun n => env (n + cs.length)) t t' hstate
      exact ⟨hout, hnext, List.rel_append hcalls hrest⟩
  | error e =>
    cases y with
    | ok b => cases houtcome
    | error e' =>
      rw [Prog.run_bind_error hx, Prog.run_bind_error hy]
      exact ⟨houtcome, hstate, hcalls⟩

/-- One call each. -/
theorem simulates_perform (L : Levels C C' R R' ε χ σ σ') (c : C) (c' : C')
    {V : R c → R' c' → Prop} (hcall : L.call c c')
    (h : ∀ x s s', L.state s s' →
      Both V (L.serve c x s).1 (L.serve' c' x s').1 ∧
        L.state (L.serve c x s).2 (L.serve' c' x s').2) :
    Simulates L V (Prog.perform c) (Prog.perform c') := by
  intro env s s' hs
  obtain ⟨hanswer, hnext⟩ := h (env 0) s s' hs
  rw [Prog.run_perform rfl, Prog.run_perform rfl]
  exact ⟨hanswer, hnext, .cons hcall .nil⟩

/-- One call each, where the answer to the first one is worked on. -/
theorem simulates_request {c : C} {c' : C'} {V : α → R' c' → Prop} {f : R c → Except ε α}
    (hcall : L.call c c')
    (h : ∀ x s s', L.state s s' →
      Both V ((L.serve c x s).1 >>= f) (L.serve' c' x s').1 ∧
        L.state (L.serve c x s).2 (L.serve' c' x s').2) :
    Simulates L V (Prog.perform c >>= fun r => Prog.ofExcept (f r)) (Prog.perform c') := by
  intro env s s' hs
  obtain ⟨hanswer, hnext⟩ := h (env 0) s s' hs
  have hrun : ((Prog.perform c >>= fun r => Prog.ofExcept (f r) : Prog C R ε α).run L.serve env s) =
      ⟨(L.serve c (env 0) s).1 >>= f, (L.serve c (env 0) s).2, [c]⟩ := by
    generalize hserve : L.serve c (env 0) s = answer
    obtain ⟨r, t⟩ := answer
    cases r with
    | error e => exact Prog.run_bind_error (Prog.run_perform hserve)
    | ok a =>
      rw [Prog.run_bind_ok (Prog.run_perform hserve), Prog.run_ofExcept]
      rfl
  rw [hrun, Prog.run_perform rfl]
  exact ⟨hanswer, hnext, .cons hcall .nil⟩

end Program
