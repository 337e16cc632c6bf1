/-
NexCause/Program.lean

Programs that issue calls to a service and wait for each answer: a call either
returns or fails, and the program goes on from there.  This is what an `async`
function with `await` and `try … catch` is, when each awaited call is one
atomic step.

The calls are a type `C`, the call `c` returns an `R c` or fails with an `ε`,
and nothing here knows what they do.  A `Service` answers them over a state
`σ`, given a choice `χ` of the environment (a fault, a clock reading).

* `Prog.run` — a program alone, to its end; `Prog.steps` — the calls of that run
  with the states they find and leave; `Prog.eval` — its outcome where every
  call has one answer;
* `Prog.Meets` — what a program guarantees when each of its calls keeps a
  `Contract`.  A contract may speak of the state of a service, or of a ghost
  state of one program, when others interfere;
* `Prog.Calls`, `Prog.Returns`, `Prog.Throughout` — what holds of every call,
  of every result, and of whatever is left of a program;
* `Prog.Transparent` — the program catches nothing and throws nothing itself.

Main results: `Meets` is compositional (`meets_bind`, `meets_tryCatch`,
`Meets.mono`) and sound for runs (`run_of_meets`).
-/
import Mathlib.Data.List.Basic

namespace Program

/-- A sequence that returns has a first part that returns. -/
theorem except_bind_ok {ε α β : Type} {x : Except ε α} {f : α → Except ε β} {b : β}
    (h : x >>= f = .ok b) : ∃ a, x = .ok a ∧ f a = .ok b := by
  cases x with
  | error e => cases h
  | ok a => exact ⟨a, rfl, h⟩

theorem except_mapError_ok {ε ε' α : Type} {x : Except ε α} {f : ε → ε'} {a : α} :
    x.mapError f = .ok a ↔ x = .ok a := by
  cases x with
  | error e => simp [Except.mapError]
  | ok b => simp [Except.mapError]

/-- A program. -/
inductive Prog (C : Type) (R : C → Type) (ε α : Type) : Type
  | ret (a : α)
  | throw (e : ε)
  | call (c : C) (k : Except ε (R c) → Prog C R ε α)

variable {C : Type} {R : C → Type} {ε α β : Type}

namespace Prog

/-- Go on with `f` when the program returns. -/
def bind : Prog C R ε α → (α → Prog C R ε β) → Prog C R ε β
  | ret a, f => f a
  | throw e, _ => throw e
  | call c k, f => call c fun r => (k r).bind f

/-- Go on with the handler when the program throws. -/
def tryCatch : Prog C R ε α → (ε → Prog C R ε α) → Prog C R ε α
  | ret a, _ => ret a
  | throw e, h => h e
  | call c k, h => call c fun r => (k r).tryCatch h

/-- A return value or an exception. -/
def ofExcept : Except ε α → Prog C R ε α
  | .ok a => ret a
  | .error e => throw e

/-- One call. -/
def perform (c : C) : Prog C R ε (R c) := call c ofExcept

instance : Monad (Prog C R ε) where
  pure := ret
  bind := bind

instance : MonadExceptOf ε (Prog C R ε) where
  throw := throw
  tryCatch := tryCatch

@[simp] theorem pure_eq (a : α) : (pure a : Prog C R ε α) = ret a := rfl

@[simp] theorem throw_eq (e : ε) :
    (MonadExcept.throw e : Prog C R ε α) = throw e := rfl

@[simp] theorem ret_bind (a : α) (f : α → Prog C R ε β) : ret a >>= f = f a := rfl

@[simp] theorem throw_bind (e : ε) (f : α → Prog C R ε β) : throw e >>= f = throw e := rfl

@[simp] theorem call_bind (c : C) (k : Except ε (R c) → Prog C R ε α) (f : α → Prog C R ε β) :
    call c k >>= f = call c fun r => k r >>= f := rfl

@[simp] theorem ofExcept_ok_bind (a : α) (f : α → Prog C R ε β) :
    (ofExcept (.ok a) : Prog C R ε α) >>= f = f a := rfl

@[simp] theorem ofExcept_error_bind (e : ε) (f : α → Prog C R ε β) :
    (ofExcept (.error e) : Prog C R ε α) >>= f = throw e := rfl

theorem bind_assoc {γ : Type} (p : Prog C R ε α) (f : α → Prog C R ε β) (g : β → Prog C R ε γ) :
    p >>= f >>= g = p >>= fun a => f a >>= g := by
  induction p with
  | ret a => rfl
  | throw e => rfl
  | call c k ih =>
    simp only [call_bind]
    congr 1
    funext r
    exact ih r

theorem bind_ret_unit (p : Prog C R ε Unit) : (p >>= fun _ => ret ()) = p := by
  induction p with
  | ret a => rfl
  | throw e => rfl
  | call c k ih =>
    rw [call_bind]
    congr 1
    funext r
    exact ih r

/-! ### Contracts -/

/-- What each call may assume of the state, and what its answer and the next
state are then. -/
structure Contract (C : Type) (R : C → Type) (ε σ : Type) where
  pre : C → σ → Prop
  post : (c : C) → σ → Except ε (R c) → σ → Prop

variable {σ : Type}

/-- From `s`, every call finds its precondition, and the program ends with an
outcome and a state that satisfy `Q`, whatever the answers are. -/
def Meets (K : Contract C R ε σ) : Prog C R ε α → (Except ε α → σ → Prop) → σ → Prop
  | ret a, Q, s => Q (.ok a) s
  | throw e, Q, s => Q (.error e) s
  | call c k, Q, s => K.pre c s ∧ ∀ r t, K.post c s r t → (k r).Meets K Q t

variable {K : Contract C R ε σ}

@[simp] theorem meets_ret {Q : Except ε α → σ → Prop} {s : σ} {a : α} :
    (ret a : Prog C R ε α).Meets K Q s ↔ Q (.ok a) s := Iff.rfl

@[simp] theorem meets_throw {Q : Except ε α → σ → Prop} {s : σ} {e : ε} :
    (throw e : Prog C R ε α).Meets K Q s ↔ Q (.error e) s := Iff.rfl

theorem meets_call {Q : Except ε α → σ → Prop} {s : σ} {c : C}
    {k : Except ε (R c) → Prog C R ε α} :
    (call c k).Meets K Q s ↔ K.pre c s ∧ ∀ r t, K.post c s r t → (k r).Meets K Q t := Iff.rfl

theorem meets_ofExcept {Q : Except ε α → σ → Prop} {s : σ} {r : Except ε α} :
    (ofExcept r : Prog C R ε α).Meets K Q s ↔ Q r s := by
  cases r <;> rfl

/-- One call meets its contract. -/
theorem meets_perform {c : C} {Q : Except ε (R c) → σ → Prop} {s : σ} :
    (perform c).Meets K Q s ↔ K.pre c s ∧ ∀ r t, K.post c s r t → Q r t := by
  unfold perform
  simp only [meets_call, meets_ofExcept]

theorem Meets.mono {p : Prog C R ε α} {Q Q' : Except ε α → σ → Prop} {s : σ}
    (h : p.Meets K Q s) (hQ : ∀ r t, Q r t → Q' r t) : p.Meets K Q' s := by
  induction p generalizing s with
  | ret a => exact hQ _ _ h
  | throw e => exact hQ _ _ h
  | call c k ih => exact ⟨h.1, fun r t hr => ih r (h.2 r t hr)⟩

/-- Sequential composition. -/
theorem meets_bind {p : Prog C R ε α} {f : α → Prog C R ε β} {Q : Except ε β → σ → Prop} {s : σ} :
    (p >>= f).Meets K Q s ↔
      p.Meets K (fun r t => match r with
        | .ok a => (f a).Meets K Q t
        | .error e => Q (.error e) t) s := by
  induction p generalizing s with
  | ret a => rfl
  | throw e => rfl
  | call c k ih =>
    rw [call_bind, meets_call, meets_call]
    simp only [ih]

/-- Exception handling. -/
theorem meets_tryCatch {p : Prog C R ε α} {h : ε → Prog C R ε α} {Q : Except ε α → σ → Prop}
    {s : σ} :
    (p.tryCatch h).Meets K Q s ↔
      p.Meets K (fun r t => match r with
        | .ok a => Q (.ok a) t
        | .error e => (h e).Meets K Q t) s := by
  induction p generalizing s with
  | ret a => rfl
  | throw e => rfl
  | call c k ih =>
    rw [tryCatch, meets_call, meets_call]
    simp only [ih]

/-- A sequential composition, by a specification of its first part. -/
theorem Meets.bind {p : Prog C R ε α} {f : α → Prog C R ε β} {P : Except ε α → σ → Prop}
    {Q : Except ε β → σ → Prop} {s : σ} (hp : p.Meets K P s)
    (hok : ∀ a t, P (.ok a) t → (f a).Meets K Q t)
    (herr : ∀ e t, P (.error e) t → Q (.error e) t) : (p >>= f).Meets K Q s := by
  rw [meets_bind]
  refine hp.mono fun r t h => ?_
  cases r with
  | ok a => exact hok a t h
  | error e => exact herr e t h

/-- A handler, by a specification of the program it protects. -/
theorem Meets.tryCatch {p : Prog C R ε α} {h : ε → Prog C R ε α} {P Q : Except ε α → σ → Prop}
    {s : σ} (hp : p.Meets K P s) (hok : ∀ a t, P (.ok a) t → Q (.ok a) t)
    (herr : ∀ e t, P (.error e) t → (h e).Meets K Q t) : (p.tryCatch h).Meets K Q s := by
  rw [meets_tryCatch]
  refine hp.mono fun r t hr => ?_
  cases r with
  | ok a => exact hok a t hr
  | error e => exact herr e t hr

/-- Two guarantees at once. -/
theorem Meets.and {p : Prog C R ε α} {Q Q' : Except ε α → σ → Prop} {s : σ}
    (h : p.Meets K Q s) (h' : p.Meets K Q' s) : p.Meets K (fun r t => Q r t ∧ Q' r t) s := by
  induction p generalizing s with
  | ret a => exact ⟨h, h'⟩
  | throw e => exact ⟨h, h'⟩
  | call c k ih => exact ⟨h.1, fun r t hr => ih r (h.2 r t hr) (h'.2 r t hr)⟩

/-- The next call of a program that meets a contract may be made, and every
answer the contract allows leaves a program that meets it. -/
theorem Meets.answer {c : C} {k : Except ε (R c) → Prog C R ε α} {Q : Except ε α → σ → Prop}
    {s t : σ} {r : Except ε (R c)} (h : (call c k).Meets K Q s) (hr : K.post c s r t) :
    (k r).Meets K Q t := h.2 r t hr

/-! ### Which calls a program can make -/

/-- Every call the program can make, whatever the answers, satisfies `P`. -/
def Calls (P : C → Prop) : Prog C R ε α → Prop
  | ret _ => True
  | throw _ => True
  | call c k => P c ∧ ∀ r, (k r).Calls P

@[simp] theorem calls_ret {P : C → Prop} {a : α} : (ret a : Prog C R ε α).Calls P ↔ True := Iff.rfl

@[simp] theorem calls_throw {P : C → Prop} {e : ε} :
    (throw e : Prog C R ε α).Calls P ↔ True := Iff.rfl

theorem calls_perform {P : C → Prop} {c : C} : (perform c : Prog C R ε (R c)).Calls P ↔ P c := by
  refine ⟨fun h => h.1, fun h => ⟨h, fun r => ?_⟩⟩
  cases r <;> trivial

theorem Calls.bind {P : C → Prop} {p : Prog C R ε α} {f : α → Prog C R ε β} (hp : p.Calls P)
    (hf : ∀ a, (f a).Calls P) : (p >>= f).Calls P := by
  induction p with
  | ret a => exact hf a
  | throw e => trivial
  | call c k ih => exact ⟨hp.1, fun r => ih r (hp.2 r)⟩

theorem Calls.tryCatch {P : C → Prop} {p : Prog C R ε α} {h : ε → Prog C R ε α} (hp : p.Calls P)
    (hh : ∀ e, (h e).Calls P) : (p.tryCatch h).Calls P := by
  induction p with
  | ret a => trivial
  | throw e => exact hh e
  | call c k ih => exact ⟨hp.1, fun r => ih r (hp.2 r)⟩

theorem Calls.mono {P P' : C → Prop} {p : Prog C R ε α} (hp : p.Calls P)
    (h : ∀ c, P c → P' c) : p.Calls P' := by
  induction p with
  | ret a => trivial
  | throw e => trivial
  | call c k ih => exact ⟨h c hp.1, fun r => ih r (hp.2 r)⟩

theorem calls_ofExcept {P : C → Prop} {r : Except ε α} : (ofExcept r : Prog C R ε α).Calls P := by
  cases r <;> trivial

/-- Whatever the program returns, whatever the answers, satisfies `P`. -/
def Returns (P : α → Prop) : Prog C R ε α → Prop
  | ret a => P a
  | throw _ => True
  | call _ k => ∀ r, (k r).Returns P

@[simp] theorem returns_ret {P : α → Prop} {a : α} : (ret a : Prog C R ε α).Returns P ↔ P a := Iff.rfl

@[simp] theorem returns_throw {P : α → Prop} {e : ε} :
    (throw e : Prog C R ε α).Returns P ↔ True := Iff.rfl

theorem returns_ofExcept {P : α → Prop} {r : Except ε α} :
    (ofExcept r : Prog C R ε α).Returns P ↔ ∀ a, r = .ok a → P a := by
  cases r with
  | ok a => simp [ofExcept]
  | error e => simp [ofExcept]

theorem Returns.of_forall {P : α → Prop} (h : ∀ a, P a) (p : Prog C R ε α) : p.Returns P := by
  induction p with
  | ret a => exact h a
  | throw e => trivial
  | call c k ih => exact ih

theorem Returns.mono {P P' : α → Prop} {p : Prog C R ε α} (hp : p.Returns P)
    (h : ∀ a, P a → P' a) : p.Returns P' := by
  induction p with
  | ret a => exact h a hp
  | throw e => trivial
  | call c k ih => exact fun r => ih r (hp r)

theorem Returns.bind {P : α → Prop} {Q : β → Prop} {p : Prog C R ε α} {f : α → Prog C R ε β}
    (hp : p.Returns P) (hf : ∀ a, P a → (f a).Returns Q) : (p >>= f).Returns Q := by
  induction p with
  | ret a => exact hf a hp
  | throw e => trivial
  | call c k ih => exact fun r => ih r (hp r)

/-- What every call of the program keeps, the program keeps; and its result is
one the program can return. -/
theorem Calls.meets {P : C → Prop} {p : Prog C R ε α} (hp : p.Calls P) {V : α → Prop}
    (hV : p.Returns V) {I : σ → Prop}
    (hkeep : ∀ c s, P c → I s → K.pre c s ∧ ∀ r t, K.post c s r t → I t) {s : σ} (hs : I s) :
    p.Meets K (fun r t => I t ∧ ∀ a, r = .ok a → V a) s := by
  induction p generalizing s with
  | ret a => exact ⟨hs, fun b hb => Except.ok.inj hb ▸ hV⟩
  | throw e => exact ⟨hs, fun b hb => nomatch hb⟩
  | call c k ih =>
    obtain ⟨hc, hk⟩ := hp
    obtain ⟨hpre, hpost⟩ := hkeep c s hc hs
    exact ⟨hpre, fun r t hr => ih r (hk r) (hV r) (hpost r t hr)⟩

/-- What every call of the program keeps, the program keeps. -/
theorem Calls.keeps {P : C → Prop} {p : Prog C R ε α} (hp : p.Calls P) {I : σ → Prop}
    (hkeep : ∀ c s, P c → I s → K.pre c s ∧ ∀ r t, K.post c s r t → I t) {s : σ} (hs : I s) :
    p.Meets K (fun _ t => I t) s :=
  (hp.meets (Returns.of_forall (P := fun _ => True) (fun _ => trivial) p) hkeep hs).mono
    fun _ _ h => h.1

/-- `P` holds of the program, and of what is left of it after any answers that
`A` allows. -/
def Throughout (A : (c : C) → Except ε (R c) → Prop) (P : Prog C R ε α → Prop) :
    Prog C R ε α → Prop
  | ret a => P (ret a)
  | throw e => P (throw e)
  | call c k => P (call c k) ∧ ∀ r, A c r → (k r).Throughout A P

theorem Throughout.here {A : (c : C) → Except ε (R c) → Prop} {P : Prog C R ε α → Prop}
    {p : Prog C R ε α} (h : p.Throughout A P) : P p := by
  cases p with
  | ret a => exact h
  | throw e => exact h
  | call c k => exact h.1

theorem Throughout.answer {A : (c : C) → Except ε (R c) → Prop} {P : Prog C R ε α → Prop} {c : C}
    {k : Except ε (R c) → Prog C R ε α} (h : (call c k).Throughout A P) {r : Except ε (R c)}
    (hr : A c r) : (k r).Throughout A P := h.2 r hr

/-- A program whose calls satisfy `P₀` keeps, throughout, what all such programs
have. -/
theorem Calls.throughout {P₀ : C → Prop} {A : (c : C) → Except ε (R c) → Prop}
    {P : Prog C R ε α → Prop} {p : Prog C R ε α} (hp : p.Calls P₀)
    (h : ∀ p : Prog C R ε α, p.Calls P₀ → P p) : p.Throughout A P := by
  induction p with
  | ret a => exact h _ hp
  | throw e => exact h _ hp
  | call c k ih => exact ⟨h _ hp, fun r _ => ih r (hp.2 r)⟩

/-- The program has no call left. -/
def Finished : Prog C R ε α → Prop
  | ret _ => True
  | throw _ => True
  | call _ _ => False

instance : DecidablePred (Finished : Prog C R ε α → Prop)
  | ret _ => .isTrue trivial
  | throw _ => .isTrue trivial
  | call _ _ => .isFalse id

/-! ### Programs that catch nothing -/

/-- The program raises when a call fails, and at no other time. -/
def Transparent : Prog C R ε α → Prop
  | ret _ => True
  | throw _ => False
  | call _ k => (∀ a, (k (.ok a)).Transparent) ∧ ∀ e, k (.error e) = throw e

theorem transparent_perform (c : C) : (perform c : Prog C R ε (R c)).Transparent :=
  ⟨fun _ => trivial, fun _ => rfl⟩

theorem Transparent.bind {p : Prog C R ε α} {f : α → Prog C R ε β} (hp : p.Transparent)
    (hf : ∀ a, (f a).Transparent) : (p >>= f).Transparent := by
  induction p with
  | ret a => exact hf a
  | throw e => exact hp.elim
  | call c k ih =>
    refine ⟨fun a => ih _ (hp.1 a), fun e => ?_⟩
    show k (.error e) >>= f = throw e
    rw [hp.2 e, throw_bind]

/-- The program has raised. -/
def Raised : Prog C R ε α → Prop
  | throw _ => True
  | _ => False

instance : DecidablePred (Raised : Prog C R ε α → Prop)
  | ret _ => .isFalse id
  | throw _ => .isTrue trivial
  | call _ _ => .isFalse id

theorem Transparent.not_raised {p : Prog C R ε α} (h : p.Transparent) : ¬ p.Raised := by
  cases p with
  | throw e => exact fun _ => h
  | ret a => exact id
  | call c k => exact id

/-- What is left after an answer has raised exactly if the call failed. -/
theorem Transparent.raised_iff {c : C} {k : Except ε (R c) → Prog C R ε α}
    (h : (call c k).Transparent) (r : Except ε (R c)) : (k r).Raised ↔ ∃ e, r = .error e := by
  cases r with
  | ok a => exact iff_of_false (h.1 a).not_raised (by simp)
  | error e =>
    rw [h.2 e]
    exact iff_of_true trivial ⟨e, rfl⟩

end Prog

/-! ### A program alone -/

open Prog

/-- How a service answers a call under a choice of the environment. -/
abbrev Service (C : Type) (R : C → Type) (ε χ σ : Type) : Type :=
  (c : C) → χ → σ → Except ε (R c) × σ

/-- The end of a run: the outcome, the state, and the calls made. -/
structure Ended (C : Type) (ε α σ : Type) where
  outcome : Except ε α
  state : σ
  calls : List C

variable {χ σ : Type}

/-- A run after other calls. -/
def Ended.after (e : Ended C ε α σ) (cs : List C) : Ended C ε α σ :=
  { e with calls := cs ++ e.calls }

/-- Run a program to its end; `env n` is the environment's choice at its
`n`-th call. -/
def Prog.run (serve : Service C R ε χ σ) : Prog C R ε α → (ℕ → χ) → σ → Ended C ε α σ
  | ret a, _, s => ⟨.ok a, s, []⟩
  | throw e, _, s => ⟨.error e, s, []⟩
  | call c k, env, s =>
      let answer := serve c (env 0) s
      let rest := (k answer.1).run serve (fun n => env (n + 1)) answer.2
      { rest with calls := c :: rest.calls }

/-- The first call of a run, by its answer. -/
theorem Prog.run_call {serve : Service C R ε χ σ} {c : C} {k : Except ε (R c) → Prog C R ε α}
    {env : ℕ → χ} {s t : σ} {r : Except ε (R c)} (h : serve c (env 0) s = (r, t)) :
    (call c k).run serve env s = ((k r).run serve (fun n => env (n + 1)) t).after [c] := by
  rw [run, h]
  rfl

/-- A program that ends with a single call. -/
theorem Prog.run_perform {serve : Service C R ε χ σ} {c : C} {env : ℕ → χ} {s t : σ}
    {r : Except ε (R c)} (h : serve c (env 0) s = (r, t)) :
    (perform c).run serve env s = ⟨r, t, [c]⟩ := by
  unfold perform
  rw [run_call h]
  cases r <;> rfl

/-- Work on the result leaves the run as it is. -/
theorem Prog.run_map {serve : Service C R ε χ σ} (p : Prog C R ε α) (g : α → β) (env : ℕ → χ)
    (s : σ) :
    (p >>= fun a => ret (g a)).run serve env s =
      ⟨(p.run serve env s).outcome.map g, (p.run serve env s).state,
        (p.run serve env s).calls⟩ := by
  induction p generalizing env s with
  | ret a => rfl
  | throw e => rfl
  | call c k ih =>
    rw [call_bind, run, ih]
    rfl

/-- A sequence runs its second part after its first. -/
theorem Prog.run_bind_ok {serve : Service C R ε χ σ} {p : Prog C R ε α} {f : α → Prog C R ε β}
    {env : ℕ → χ} {s t : σ} {a : α} {cs : List C} (h : p.run serve env s = ⟨.ok a, t, cs⟩) :
    (p >>= f).run serve env s =
      ((f a).run serve (fun n => env (n + cs.length)) t).after cs := by
  induction p generalizing env s cs with
  | ret b =>
    obtain ⟨hb, rfl, rfl⟩ := Ended.mk.inj h
    obtain rfl := Except.ok.inj hb
    rfl
  | throw e =>
    obtain ⟨hb, -, -⟩ := Ended.mk.inj h
    cases hb
  | call c k ih =>
    obtain ⟨hout, hstate, rfl⟩ := Ended.mk.inj h
    rw [call_bind, run, ih _ (Eq.symm ?_)]
    · rfl
    · exact Ended.mk.injEq .. ▸ ⟨hout.symm, hstate.symm, rfl⟩

/-- A sequence whose first part throws. -/
theorem Prog.run_bind_error {serve : Service C R ε χ σ} {p : Prog C R ε α} {f : α → Prog C R ε β}
    {env : ℕ → χ} {s t : σ} {e : ε} {cs : List C} (h : p.run serve env s = ⟨.error e, t, cs⟩) :
    (p >>= f).run serve env s = ⟨.error e, t, cs⟩ := by
  induction p generalizing env s cs with
  | ret b =>
    obtain ⟨hb, -, -⟩ := Ended.mk.inj h
    cases hb
  | throw e' =>
    obtain ⟨hb, rfl, rfl⟩ := Ended.mk.inj h
    obtain rfl := Except.error.inj hb
    rfl
  | call c k ih =>
    obtain ⟨hout, hstate, rfl⟩ := Ended.mk.inj h
    rw [call_bind, run, ih _ (Eq.symm ?_)]
    · exact Ended.mk.injEq .. ▸ ⟨hout.symm, hstate.symm, rfl⟩

@[simp] theorem Prog.run_ofExcept {serve : Service C R ε χ σ} (r : Except ε α) (env : ℕ → χ)
    (s : σ) : (ofExcept r : Prog C R ε α).run serve env s = ⟨r, s, []⟩ := by
  cases r <;> rfl

/-- What a sequence returns, its second part returns after the first. -/
theorem Prog.run_bind_returns {serve : Service C R ε χ σ} {p : Prog C R ε α}
    {f : α → Prog C R ε β} {env : ℕ → χ} {s : σ} {b : β} :
    ((p >>= f).run serve env s).outcome = .ok b ↔
      ∃ a, (p.run serve env s).outcome = .ok a ∧
        ((f a).run serve (fun n => env (n + (p.run serve env s).calls.length))
          (p.run serve env s).state).outcome = .ok b := by
  rcases hp : p.run serve env s with ⟨outcome, t, cs⟩
  cases outcome with
  | ok a =>
    rw [run_bind_ok hp]
    simp [Ended.after]
  | error e =>
    rw [run_bind_error hp]
    simp

/-- Every call of a run is one that the program can make. -/
theorem Prog.Calls.run {serve : Service C R ε χ σ} {P : C → Prop} {p : Prog C R ε α}
    (hp : p.Calls P) (env : ℕ → χ) (s : σ) : ∀ c ∈ (p.run serve env s).calls, P c := by
  induction p generalizing env s with
  | ret a => simp [Prog.run]
  | throw e => simp [Prog.run]
  | call c k ih =>
    rw [Prog.run]
    exact List.forall_mem_cons.mpr ⟨hp.1, ih _ (hp.2 _) _ _⟩

/-- The calls of a sequence are those of its parts. -/
theorem Prog.run_bind_calls {serve : Service C R ε χ σ} {P : C → Prop} {p : Prog C R ε α}
    {f : α → Prog C R ε β} {env : ℕ → χ} {s : σ} (hp : ∀ c ∈ (p.run serve env s).calls, P c)
    (hf : ∀ a, (p.run serve env s).outcome = .ok a → (f a).Calls P) :
    ∀ c ∈ ((p >>= f).run serve env s).calls, P c := by
  rcases hrun : p.run serve env s with ⟨outcome, t, cs⟩
  rw [hrun] at hp hf
  cases outcome with
  | ok a =>
    rw [run_bind_ok hrun]
    exact List.forall_mem_append.mpr ⟨hp, (hf a rfl).run _ _⟩
  | error e =>
    rw [run_bind_error hrun]
    exact hp

/-- What every call of a run keeps, the run keeps. -/
theorem Prog.run_keeps {serve : Service C R ε χ σ} {I : σ → Prop} {P : C → Prop}
    (hkeep : ∀ c x s, P c → I s → I (serve c x s).2) {p : Prog C R ε α} {env : ℕ → χ} {s : σ}
    (hcalls : ∀ c ∈ (p.run serve env s).calls, P c) (hs : I s) : I (p.run serve env s).state := by
  induction p generalizing env s with
  | ret a => exact hs
  | throw e => exact hs
  | call c k ih =>
    obtain ⟨hc, hrest⟩ := List.forall_mem_cons.mp hcalls
    exact ih _ hrest (hkeep c (env 0) s hc hs)

/-- The outcome of a program where every call has one answer. -/
def Prog.eval (answer : (c : C) → Except ε (R c)) : Prog C R ε α → Except ε α
  | ret a => .ok a
  | throw e => .error e
  | call c k => (k (answer c)).eval answer

section Eval

variable {answer : (c : C) → Except ε (R c)}

@[simp] theorem Prog.eval_ret (a : α) : (ret a : Prog C R ε α).eval answer = .ok a := rfl

@[simp] theorem Prog.eval_throw (e : ε) : (throw e : Prog C R ε α).eval answer = .error e := rfl

@[simp] theorem Prog.eval_ofExcept (r : Except ε α) :
    (ofExcept r : Prog C R ε α).eval answer = r := by
  cases r <;> rfl

@[simp] theorem Prog.eval_perform (c : C) :
    (perform c : Prog C R ε (R c)).eval answer = answer c := by
  show (ofExcept (answer c) : Prog C R ε (R c)).eval answer = answer c
  rw [eval_ofExcept]

theorem Prog.eval_bind (p : Prog C R ε α) (f : α → Prog C R ε β) :
    (p >>= f).eval answer = (p.eval answer).bind fun a => (f a).eval answer := by
  induction p with
  | ret a => rfl
  | throw e => rfl
  | call c k ih =>
    rw [call_bind, eval, ih]
    rfl

/-- A sequence whose first part returns. -/
theorem Prog.eval_bind_ok {p : Prog C R ε α} {f : α → Prog C R ε β} {a : α}
    (h : p.eval answer = .ok a) : (p >>= f).eval answer = (f a).eval answer := by
  rw [eval_bind, h]
  rfl

theorem Prog.eval_bind_error {p : Prog C R ε α} {f : α → Prog C R ε β} {e : ε}
    (h : p.eval answer = .error e) : (p >>= f).eval answer = .error e := by
  rw [eval_bind, h]
  rfl

/-- A sequence that returns. -/
theorem Prog.eval_bind_eq_ok {p : Prog C R ε α} {f : α → Prog C R ε β} {b : β}
    (h : (p >>= f).eval answer = .ok b) : ∃ a, p.eval answer = .ok a ∧ (f a).eval answer = .ok b := by
  rw [eval_bind] at h
  cases hp : p.eval answer with
  | error e =>
    rw [hp] at h
    cases h
  | ok a =>
    rw [hp] at h
    exact ⟨a, rfl, h⟩

theorem Prog.eval_tryCatch_ok {p : Prog C R ε α} {handler : ε → Prog C R ε α} {a : α}
    (h : p.eval answer = .ok a) : (p.tryCatch handler).eval answer = .ok a := by
  induction p with
  | ret b => exact h
  | throw e => cases h
  | call c k ih => exact ih _ h

theorem Prog.eval_tryCatch_error {p : Prog C R ε α} {handler : ε → Prog C R ε α} {e : ε}
    (h : p.eval answer = .error e) :
    (p.tryCatch handler).eval answer = (handler e).eval answer := by
  induction p with
  | ret b => cases h
  | throw e' =>
    obtain rfl := Except.error.inj h
    rfl
  | call c k ih => exact ih _ h

end Eval

theorem Prog.Returns.run {serve : Service C R ε χ σ} {P : α → Prop} {p : Prog C R ε α}
    (hp : p.Returns P) {env : ℕ → χ} {s : σ} {a : α} (h : (p.run serve env s).outcome = .ok a) :
    P a := by
  induction p generalizing s env with
  | ret b => exact Except.ok.inj h ▸ hp
  | throw e => cases h
  | call c k ih => exact ih _ (hp _) h

/-- The contract a service keeps, for the choices that are legal. -/
def Service.contract (serve : Service C R ε χ σ) (legal : C → χ → Prop) : Contract C R ε σ where
  pre _ _ := True
  post c s r t := ∃ x, legal c x ∧ serve c x s = (r, t)

/-- **Soundness.**  What a program guarantees under the contract of the
service holds at the end of every run in which the choice at each call is
legal. -/
theorem run_of_meets {serve : Service C R ε χ σ} {legal : C → χ → Prop} {p : Prog C R ε α}
    {Q : Except ε α → σ → Prop} {s : σ} (h : p.Meets (Service.contract serve legal) Q s)
    {env : ℕ → χ}
    (hlegal : ∀ n c, (p.run serve env s).calls[n]? = some c → legal c (env n)) :
    Q (p.run serve env s).outcome (p.run serve env s).state := by
  induction p generalizing s env with
  | ret a => exact h
  | throw e => exact h
  | call c k ih =>
    exact ih _ (h.2 _ _ ⟨env 0, hlegal 0 c rfl, rfl⟩) fun n c' hc' => hlegal (n + 1) c' hc'

/-- A state that records the kinds of the calls. -/
def Contract.recording (kind : C → β) : Contract C R ε (List β) where
  pre _ _ := True
  post c w _ w' := w' = w ++ [kind c]

/-- What a program guarantees of its calls holds of the calls of every run. -/
theorem run_recording {serve : Service C R ε χ σ} {kind : C → β} {p : Prog C R ε α}
    {Q : Except ε α → List β → Prop} {w : List β} (h : p.Meets (Contract.recording kind) Q w)
    (env : ℕ → χ) (s : σ) :
    Q (p.run serve env s).outcome (w ++ (p.run serve env s).calls.map kind) := by
  induction p generalizing env s w with
  | ret a =>
    show Q (.ok a) (w ++ [])
    rw [List.append_nil]
    exact h
  | throw e =>
    show Q (.error e) (w ++ [])
    rw [List.append_nil]
    exact h
  | call c k ih =>
    have hrest := ih _ (h.2 (serve c (env 0) s).1 _ rfl) (fun n => env (n + 1)) (serve c (env 0) s).2
    rw [List.append_assoc] at hrest
    exact hrest

/-- One call of a run, with the state it finds and the one it leaves. -/
structure Step (C : Type) (R : C → Type) (ε σ : Type) where
  call : C
  before : σ
  answer : Except ε (R call)
  after : σ

/-- The calls of a run, one after another. -/
def Prog.steps (serve : Service C R ε χ σ) : Prog C R ε α → (ℕ → χ) → σ → List (Step C R ε σ)
  | ret _, _, _ => []
  | throw _, _, _ => []
  | call c k, env, s =>
      let answer := serve c (env 0) s
      ⟨c, s, answer.1, answer.2⟩ :: (k answer.1).steps serve (fun n => env (n + 1)) answer.2

/-- The state of a service, with the calls it has served. -/
def Contract.logging (serve : Service C R ε χ σ) : Contract C R ε (σ × List (Step C R ε σ)) where
  pre _ _ := True
  post c s r t := ∃ x, serve c x s.1 = (r, t.1) ∧ t.2 = s.2 ++ [⟨c, s.1, r, t.1⟩]

/-- What a program guarantees of its steps holds of the steps of every run. -/
theorem run_logging {serve : Service C R ε χ σ} {p : Prog C R ε α}
    {Q : Except ε α → σ × List (Step C R ε σ) → Prop} {s : σ} {log : List (Step C R ε σ)}
    (h : p.Meets (Contract.logging serve) Q (s, log)) (env : ℕ → χ) :
    Q (p.run serve env s).outcome ((p.run serve env s).state, log ++ p.steps serve env s) := by
  induction p generalizing env s log with
  | ret a =>
    show Q (.ok a) (s, log ++ [])
    rw [List.append_nil]
    exact h
  | throw e =>
    show Q (.error e) (s, log ++ [])
    rw [List.append_nil]
    exact h
  | call c k ih =>
    have hrest := ih _ (h.2 (serve c (env 0) s).1
      ((serve c (env 0) s).2, log ++ [⟨c, s, (serve c (env 0) s).1, (serve c (env 0) s).2⟩])
      ⟨env 0, rfl, rfl⟩) (fun n => env (n + 1))
    rw [List.append_assoc] at hrest
    exact hrest

/-- The state of a service, with the calls of one kind that it has served: whether each has
returned. -/
def Contract.watching (serve : Service C R ε χ σ) (watched : C → Bool) :
    Contract C R ε (σ × List Bool) where
  pre _ _ := True
  post c s r t :=
    (∃ x, serve c x s.1 = (r, t.1)) ∧ t.2 = if watched c then s.2 ++ [r.isOk] else s.2

/-- What a program guarantees of the calls of a kind holds of these in every run. -/
theorem run_watching {serve : Service C R ε χ σ} {watched : C → Bool} {p : Prog C R ε α}
    {Q : Except ε α → σ × List Bool → Prop} {s : σ} {log : List Bool}
    (h : p.Meets (Contract.watching serve watched) Q (s, log)) (env : ℕ → χ) :
    Q (p.run serve env s).outcome ((p.run serve env s).state,
      log ++ ((p.steps serve env s).filter fun step => watched step.call).map (·.answer.isOk)) := by
  -- induction on the program, for any log that stands before it
  induction p generalizing env s log with
  | ret a =>
    show Q (.ok a) (s, log ++ [])
    rw [List.append_nil]
    exact h
  | throw e =>
    show Q (.error e) (s, log ++ [])
    rw [List.append_nil]
    exact h
  | call c k ih =>
    have hrest := ih _ (h.2 (serve c (env 0) s).1
      ((serve c (env 0) s).2, if watched c then log ++ [(serve c (env 0) s).1.isOk] else log)
      ⟨⟨env 0, rfl⟩, rfl⟩) (fun n => env (n + 1))
    rw [steps]
    -- a watched call is the next entry
    cases hc : watched c with
    | true =>
      rw [hc, if_pos rfl, List.append_assoc] at hrest
      rw [List.filter_cons_of_pos (by exact hc)]
      exact hrest
    | false =>
      rw [hc, if_neg Bool.false_ne_true] at hrest
      rw [List.filter_cons_of_neg (by simp [hc])]
      exact hrest

/-! ### Programs of a part -/

section Embedding

variable {C' : Type} {R' : C' → Type} {ε' χ' σ' : Type}

/-- A program over the calls of a part, in the whole: `f` makes its calls, `get` reads their results,
and `back` tells which errors are those of the part; the others the program does not see. -/
def Prog.embed (f : C → C') (get : (c : C) → R' (f c) → R c) (back : ε' → Option ε)
    (err : ε → ε') : Prog C R ε α → Prog C' R' ε' α
  | ret a => ret a
  | throw e => throw (err e)
  | call c k => call (f c) fun r => match r with
      | .ok a => (k (.ok (get c a))).embed f get back err
      | .error e' => match back e' with
          | some e => (k (.error e)).embed f get back err
          | none => throw e'

/-- A service whose calls of the part are answered as the part's own service does. -/
structure Embeds (f : C → C') (get : (c : C) → R' (f c) → R c) (back : ε' → Option ε)
    (serve : Service C R ε χ σ) (serve' : Service C' R' ε' χ' σ') (choice : χ' → χ) (part : σ' → σ) :
    Prop where
  answer : ∀ c x s, (∃ a, (serve' (f c) x s).1 = .ok a ∧
      (serve c (choice x) (part s)).1 = .ok (get c a)) ∨
    ∃ e e', (serve' (f c) x s).1 = .error e' ∧ back e' = some e ∧
      (serve c (choice x) (part s)).1 = .error e
  state : ∀ c x s, part (serve' (f c) x s).2 = (serve c (choice x) (part s)).2

/-- An embedded program runs as it does alone. -/
theorem Prog.run_embed {f : C → C'} {get : (c : C) → R' (f c) → R c} {back : ε' → Option ε}
    {err : ε → ε'} {serve : Service C R ε χ σ} {serve' : Service C' R' ε' χ' σ'}
    {choice : χ' → χ} {part : σ' → σ} (h : Embeds f get back serve serve' choice part)
    (p : Prog C R ε α) (env : ℕ → χ') (s : σ') :
    ((p.embed f get back err).run serve' env s).outcome =
        (p.run serve (fun n => choice (env n)) (part s)).outcome.mapError err ∧
      part ((p.embed f get back err).run serve' env s).state =
        (p.run serve (fun n => choice (env n)) (part s)).state ∧
      ((p.embed f get back err).run serve' env s).calls =
        (p.run serve (fun n => choice (env n)) (part s)).calls.map f := by
  induction p generalizing env s with
  | ret a => exact ⟨rfl, rfl, rfl⟩
  | throw e => exact ⟨rfl, rfl, rfl⟩
  | call c k ih =>
    have hstate := h.state c (env 0) s
    rw [embed, run, run]
    rcases h.answer c (env 0) s with ⟨a, hwhole, hpart⟩ | ⟨e, e', hwhole, hback, hpart⟩
    · obtain ⟨hout, hrest, hcalls⟩ := ih (.ok (get c a)) (fun n => env (n + 1)) (serve' (f c) (env 0) s).2
      rw [hstate] at hout hrest hcalls
      rw [hwhole, hpart]
      exact ⟨hout, hrest, congrArg (f c :: ·) hcalls⟩
    · obtain ⟨hout, hrest, hcalls⟩ := ih (.error e) (fun n => env (n + 1)) (serve' (f c) (env 0) s).2
      rw [hstate] at hout hrest hcalls
      rw [hwhole, hpart]
      simp only [hback]
      exact ⟨hout, hrest, congrArg (f c :: ·) hcalls⟩

theorem Prog.embed_bind {f : C → C'} {get : (c : C) → R' (f c) → R c} {back : ε' → Option ε}
    {err : ε → ε'} (p : Prog C R ε α) (g : α → Prog C R ε β) :
    (p >>= g).embed f get back err =
      p.embed f get back err >>= fun a => (g a).embed f get back err := by
  induction p with
  | ret a => rfl
  | throw e => rfl
  | call c k ih =>
    rw [call_bind, embed, embed, call_bind]
    congr 1
    funext r
    cases r with
    | ok a => exact ih _
    | error e' =>
      show (match back e' with
        | some e => (k (.error e) >>= g).embed f get back err
        | none => throw e') = (match back e' with
        | some e => (k (.error e)).embed f get back err
        | none => throw e') >>= _
      cases back e' with
      | some e => exact ih _
      | none => rfl

/-- An embedded program guarantees what it does alone, where its calls are answered alike. -/
theorem Prog.Meets.embed {f : C → C'} {get : (c : C) → R' (f c) → R c} {back : ε' → Option ε}
    {err : ε → ε'} {K : Contract C R ε σ} {K' : Contract C' R' ε' σ} {p : Prog C R ε α}
    {Q : Except ε α → σ → Prop} {s : σ} (h : p.Meets K Q s)
    (hpre : ∀ c s, K.pre c s → K'.pre (f c) s)
    (hpost : ∀ c s r t, K'.post (f c) s r t →
      (∃ a, r = .ok a ∧ K.post c s (.ok (get c a)) t) ∨
        ∃ e e', r = .error e' ∧ back e' = some e ∧ K.post c s (.error e) t) :
    (p.embed f get back err).Meets K' (fun r t => ∃ r₀, r = r₀.mapError err ∧ Q r₀ t) s := by
  induction p generalizing s with
  | ret a => exact ⟨.ok a, rfl, h⟩
  | throw e => exact ⟨.error e, rfl, h⟩
  | call c k ih =>
    obtain ⟨hc, hk⟩ := h
    rw [Prog.embed]
    refine meets_call.mpr ⟨hpre c s hc, fun r t hr => ?_⟩
    rcases hpost c s r t hr with ⟨a, rfl, ha⟩ | ⟨e, e', rfl, hback, he⟩
    · exact ih _ (hk _ _ ha)
    · dsimp only
      rw [hback]
      exact ih _ (hk _ _ he)

/-- The calls of an embedded program. -/
theorem Prog.Calls.embed {f : C → C'} {get : (c : C) → R' (f c) → R c} {back : ε' → Option ε}
    {err : ε → ε'} {P : C → Prop} {P' : C' → Prop} {p : Prog C R ε α} (hp : p.Calls P)
    (h : ∀ c, P c → P' (f c)) : (p.embed f get back err).Calls P' := by
  induction p with
  | ret a => trivial
  | throw e => trivial
  | call c k ih =>
    rw [Prog.embed]
    refine ⟨h c hp.1, fun r => ?_⟩
    cases r with
    | ok a => exact ih _ (hp.2 _)
    | error e' =>
      show (match back e' with
        | some e => (k (.error e)).embed f get back err
        | none => throw e').Calls P'
      cases back e' with
      | some e => exact ih _ (hp.2 _)
      | none => trivial

end Embedding

end Program
