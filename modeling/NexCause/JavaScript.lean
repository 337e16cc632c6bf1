/-
NexCause/JavaScript.lean

The few notions of JavaScript that the services of the repository lean on: an
object with string values as the list of its entries, the truth of a string,
white space, and lower case as far as an ASCII pattern can tell.
-/
import Mathlib.Data.List.Basic

namespace NexCause

/-- The entries of a JavaScript object with string values, in their order. -/
abbrev Entries : Type := List (String × String)

/-- Set a key: in place if it is there, else at the end. -/
def Entries.set (es : Entries) (k v : String) : Entries :=
  if es.any (fun e => e.1 = k) then es.map fun e => if e.1 = k then (k, v) else e
  else es ++ [(k, v)]

/-- `{ ...a, ...b }`. -/
def Entries.merge (a b : Entries) : Entries :=
  b.foldl (fun acc e => Entries.set acc e.1 e.2) a

/-- `Object.keys`. -/
def Entries.keys (es : Entries) : List String := es.map Prod.fst

/-- An optional string that JavaScript takes as true. -/
def truthy (s : Option String) : Option String := s.filter (· ≠ "")

theorem truthy_eq_some {s : Option String} {t : String} : truthy s = some t ↔ s = some t ∧ t ≠ "" := by
  unfold truthy
  simp [Option.filter_eq_some_iff]

@[simp] theorem truthy_empty : truthy (some "") = none := rfl

theorem truthy_of_ne {s : String} (h : s ≠ "") : truthy (some s) = some s :=
  truthy_eq_some.mpr ⟨rfl, h⟩

theorem truthy_truthy (s : Option String) : truthy (truthy s) = truthy s := by
  unfold truthy
  rw [Option.filter_filter]
  simp

/-- The white space and line terminators that `trim` and `\s` know. -/
def isWhiteSpace (c : Char) : Bool :=
  c ∈ ['\t', '\n', '\u000b', '\u000c', '\r', ' ', '\u00a0', '\u1680', '\u2028', '\u2029', '\u202f',
    '\u205f', '\u3000', '\ufeff'] || ('\u2000' ≤ c && c ≤ '\u200a')

/-- `trim`. -/
def trim (s : List Char) : List Char :=
  ((s.dropWhile isWhiteSpace).reverse.dropWhile isWhiteSpace).reverse

/-- `toLowerCase` of one character.  Beside the ASCII letters only the Kelvin
sign and the dotted capital I become ASCII letters; the patterns that look at
the result treat all other letters alike. -/
def lowerCaseChar (c : Char) : List Char :=
  if c = '\u212a' then ['k']
  else if c = '\u0130' then ['i', '\u0307']
  else [c.toLower]

def toLowerCase (s : List Char) : List Char := s.flatMap lowerCaseChar

/-- A check of each character of a text, as a computation. -/
theorem forall_mem_of_all {α : Type} {p : α → Prop} [DecidablePred p] {xs : List α}
    (h : (xs.all fun a => decide (p a)) = true) : ∀ a ∈ xs, p a :=
  fun a ha => of_decide_eq_true (List.all_eq_true.mp h a ha)

theorem forall_mem_mem_of_all {α : Type} {p : α → Prop} [DecidablePred p] {xss : List (List α)}
    (h : (xss.all fun xs => xs.all fun a => decide (p a)) = true) : ∀ xs ∈ xss, ∀ a ∈ xs, p a :=
  fun xs hxs => forall_mem_of_all (List.all_eq_true.mp h xs hxs)

/-- What holds of the first 128 characters holds of ASCII. -/
theorem forall_ascii {P : Char → Prop} (h : ∀ n < 128, P (Char.ofNat n)) {c : Char}
    (hc : c.toNat < 128) : P c := by
  have hofNat := h c.toNat hc
  rwa [Char.ofNat_toNat] at hofNat

theorem isAlphanum_eq (c : Char) : c.isAlphanum = (c.isUpper || c.isLower || c.isDigit) := rfl

/-- Letters and digits are ASCII. -/
theorem toNat_lt_of_isAlphanum {c : Char} (h : c.isAlphanum = true) : c.toNat < 128 := by
  have hranges : (decide ('A'.val ≤ c.val ∧ c.val ≤ 'Z'.val) ||
      (decide ('a'.val ≤ c.val) && decide (c.val ≤ 'z'.val)) ||
      (decide ('0'.val ≤ c.val) && decide (c.val ≤ '9'.val))) = true := h
  simp only [Bool.or_eq_true, Bool.and_eq_true, decide_eq_true_eq, UInt32.le_iff_toNat_le]
    at hranges
  rcases hranges with (⟨-, h⟩ | ⟨-, h⟩) | ⟨-, h⟩
  · exact Nat.lt_of_le_of_lt h (by decide)
  · exact Nat.lt_of_le_of_lt h (by decide)
  · exact Nat.lt_of_le_of_lt h (by decide)

end NexCause
