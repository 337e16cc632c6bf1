/-
NexCause/Expansion.lean

Programs whose calls are programs themselves: a service that is built on
another one.  `Prog.expand` puts the program of each call in its place, and
lets the errors through that the outer program does not see.

Main results: expansion goes through sequences (`expand_bind`), and a call
becomes its program (`expand_perform`).
-/
import NexCause.Program

namespace Program

open Prog

variable {C C' : Type} {R : C → Type} {R' : C' → Type} {ε ε' α β : Type}

namespace Prog

theorem bind_ret (p : Prog C R ε α) : (p >>= fun a => ret a) = p := by
  induction p with
  | ret a => rfl
  | throw e => rfl
  | call c k ih =>
    rw [call_bind]
    congr 1
    funext r
    exact ih r

/-- The outcome of a program, as a value. -/
def attempt (p : Prog C R ε α) : Prog C R ε (Except ε α) :=
  (p >>= fun a => ret (Except.ok a)).tryCatch fun e => ret (Except.error e)

/-- Go on with an outcome. -/
theorem attempt_bind (p : Prog C R ε α) (f : Except ε α → Prog C R ε β)
    (hthrow : ∀ e, f (.error e) = throw e) :
    p.attempt >>= f = p >>= fun a => f (.ok a) := by
  induction p with
  | ret a => rfl
  | throw e => exact hthrow e
  | call c k ih =>
    show call c _ = call c _
    congr 1
    funext r
    exact ih r

variable (h : (c : C) → Prog C' R' ε' (R c)) (back : ε' → Option ε) (err : ε → ε')

/-- `h` gives the program of each call; `back` tells which of its errors are those of the outer
program, and `err` how these look. -/
def expand : Prog C R ε α → Prog C' R' ε' α
  | ret a => ret a
  | throw e => throw (err e)
  | call c k => (h c).attempt >>= fun
      | .ok a => (k (.ok a)).expand
      | .error e' => match back e' with
          | some e => (k (.error e)).expand
          | none => throw e'

@[simp] theorem expand_ret (a : α) : (ret a : Prog C R ε α).expand h back err = ret a := rfl

@[simp] theorem expand_throw (e : ε) :
    (throw e : Prog C R ε α).expand h back err = throw (err e) := rfl

theorem expand_bind (p : Prog C R ε α) (f : α → Prog C R ε β) :
    (p >>= f).expand h back err = p.expand h back err >>= fun a => (f a).expand h back err := by
  induction p with
  | ret a => rfl
  | throw e => rfl
  | call c k ih =>
    rw [call_bind, expand, expand, bind_assoc]
    congr 1
    funext r
    cases r with
    | ok a => exact ih _
    | error e' =>
      show (match back e' with
        | some e => (k (.error e) >>= f).expand h back err
        | none => throw e') = (match back e' with
        | some e => (k (.error e)).expand h back err
        | none => throw e') >>= _
      cases back e' with
      | some e => exact ih _
      | none => rfl

/-- A call becomes its program. -/
theorem expand_perform (hback : ∀ e' e, back e' = some e → err e = e') (c : C) :
    (perform c).expand h back err = h c := by
  have hthrow : ∀ e', (match back e' with
      | some e => (ofExcept (.error e) : Prog C R ε (R c)).expand h back err
      | none => throw e') = throw e' := by
    intro e'
    cases he : back e' with
    | none => rfl
    | some e =>
      show throw (err e) = throw e'
      rw [hback e' e he]
  unfold perform
  rw [expand, attempt_bind _ _ hthrow]
  exact bind_ret (h c)

end Prog

end Program
