/-
NexCause/JavaScriptDates.lean

Numbers and dates of JavaScript: the number that a string stands for, a few
functions of `Math` and `Number`, and `Date`, which holds an integer of
milliseconds within 8.64e15 of 1970 or is invalid.

Main result: `new Date` of a time and an offset is the exact instant, and invalid
exactly if that is out of range, although sums are rounded and large offsets may
be (`dateOf_add`).
-/
import Mathlib.Data.List.TakeWhile
import NexCause.Float64Bounds
import NexCause.JavaScript

namespace NexCause

open Float64 (one signed ofInt ofRatio Is AtLeast AtMost IntRepresentable)

/-! ### Numbers -/

/-- The value of a digit in a base. -/
def digitValue (base : ℕ) (c : Char) : Option ℕ :=
  let value :=
    if '0' ≤ c ∧ c ≤ '9' then some (c.toNat - '0'.toNat)
    else if 'a' ≤ c.toLower ∧ c.toLower ≤ 'z' then some (c.toLower.toNat - 'a'.toNat + 10)
    else none
  value.filter (· < base)

/-- The value of digits, one at least. -/
def digitsValue (base : ℕ) (s : List Char) : Option ℕ :=
  if s = [] then none
  else s.foldlM (fun value c => (digitValue base c).map fun d => value * base + d) 0

/-- The exponent at the end of a decimal literal. -/
def exponentPart : List Char → Option ℤ
  | [] => some 0
  | c :: s =>
      if c = 'e' ∨ c = 'E' then
        match s with
        | '+' :: ds => (digitsValue 10 ds).map fun e => (e : ℤ)
        | '-' :: ds => (digitsValue 10 ds).map fun e => -(e : ℤ)
        | ds => (digitsValue 10 ds).map fun e => (e : ℤ)
      else none

/-- `± value * 10 ^ e` -/
def ofDecimal (negative : Bool) (value : ℕ) (e : ℤ) : Float64 :=
  if 0 ≤ e then ofRatio negative (value * 10 ^ e.toNat * one) 1
  else ofRatio negative (value * one) (10 ^ (-e).toNat)

/-- A decimal literal after its sign. -/
def decimalLiteral (negative : Bool) (s : List Char) : Float64 :=
  if s = ['I', 'n', 'f', 'i', 'n', 'i', 't', 'y'] then .infinite negative
  else
    let whole := s.takeWhile Char.isDigit
    let rest := s.dropWhile Char.isDigit
    let (fraction, tail) := match rest with
      | '.' :: t => (t.takeWhile Char.isDigit, t.dropWhile Char.isDigit)
      | _ => ([], rest)
    match digitsValue 10 (whole ++ fraction), exponentPart tail with
    | some value, some e => ofDecimal negative value (e - fraction.length)
    | _, _ => .nan

/-- The base that the character after a zero stands for. -/
def radix (c : Char) : Option ℕ :=
  if c = 'x' ∨ c = 'X' then some 16
  else if c = 'o' ∨ c = 'O' then some 8
  else if c = 'b' ∨ c = 'B' then some 2
  else none

/-- `Number(s)` -/
def stringToNumber (s : List Char) : Float64 :=
  match trim s with
  | [] => .zero
  | '+' :: t => decimalLiteral false t
  | '-' :: t => decimalLiteral true t
  | '0' :: c :: t =>
      match radix c with
      | some base => ((digitsValue base t).map Float64.ofNat).getD .nan
      | none => decimalLiteral false ('0' :: c :: t)
  | t => decimalLiteral false t

/-- `Number.isInteger(x)` -/
def isInteger : Float64 → Bool
  | .finite f => f.units % one = 0
  | _ => false

/-- `x <= y` -/
def lessEqual (x y : Float64) : Bool := x ≠ .nan && y ≠ .nan && !Float64.lt y x

/-- `Math.ceil(x)` -/
def mathCeil : Float64 → Float64
  | .nan => .nan
  | .infinite a => .infinite a
  | .finite f =>
      if f.negative then ofRatio true (f.units / one * one) 1
      else ofRatio false ((f.units + (one - 1)) / one * one) 1

/-- `Math.max(x, y)`, of which one is not zero. -/
def mathMax (x y : Float64) : Float64 :=
  if x = .nan ∨ y = .nan then .nan else if Float64.lt x y then y else x

theorem units_of_signed {f : FiniteFloat64} {i : ℤ} (h : signed f = i * one) :
    f.units = i.natAbs * one := by
  have habs := Float64.natAbs_signed_mul f 1
  rw [Nat.cast_one, mul_one, mul_one, h, Int.natAbs_mul, Int.natAbs_natCast] at habs
  exact habs.symm

theorem trunc_of_signed {f : FiniteFloat64} {i : ℤ} (h : signed f = i * one) :
    Float64.trunc (.finite f) = i := by
  have hdiv : (f.units / one : ℕ) * (one : ℤ) = f.units := by
    rw [units_of_signed h, Nat.mul_div_cancel _ Float64.unit_pos, Nat.cast_mul]
  apply mul_right_cancel₀ (Int.natCast_ne_zero.mpr Float64.unit_pos.ne')
  rw [← h]
  show (if f.negative = true then _ else _ : ℤ) * (one : ℤ) =
    (if f.negative = true then _ else _ : ℤ)
  split
  · rw [neg_mul, hdiv]
  · exact hdiv

theorem trunc_of_is {x : Float64} {i : ℤ} (h : x.Is i) : x.trunc = i := by
  obtain ⟨f, rfl, hf⟩ := h
  exact trunc_of_signed hf

/-- The integers are the numbers that are integers. -/
theorem isInteger_iff {x : Float64} : isInteger x = true ↔ ∃ i, x.Is i := by
  constructor
  · intro h
    cases x with
    | nan => cases h
    | infinite a => cases h
    | finite f =>
      obtain ⟨k, hk⟩ := Nat.dvd_of_mod_eq_zero (decide_eq_true_eq.mp h)
      refine ⟨if f.negative then -k else k, f, rfl, ?_⟩
      unfold signed
      rw [hk]
      split
      · push_cast
        ring
      · push_cast
        ring
  · rintro ⟨i, f, rfl, hf⟩
    show decide (f.units % one = 0) = true
    rw [units_of_signed hf, decide_eq_true_eq]
    exact Nat.mul_mod_left _ _

theorem digitValue_of_isDigit {c : Char} (hc : c.isDigit = true) :
    digitValue 10 c = some (c.toNat - '0'.toNat) := by
  have hval : 48 ≤ c.val ∧ c.val ≤ 57 := by simpa [Char.isDigit] using hc
  have hrange : '0' ≤ c ∧ c ≤ '9' := hval
  have hlt : c.toNat - '0'.toNat < 10 := by
    have h : c.toNat ≤ '9'.toNat := hrange.2
    have h9 : '9'.toNat = 57 := rfl
    have h0 : '0'.toNat = 48 := rfl
    omega
  unfold digitValue
  rw [if_pos hrange]
  exact if_pos (decide_eq_true hlt)

/-- A digit is no white space, and no letter of a base. -/
theorem plain_of_isDigit {c : Char} (hc : c.isDigit = true) :
    isWhiteSpace c = false ∧ radix c = none := by
  have hascii : c.toNat < 128 :=
    toNat_lt_of_isAlphanum (by rw [Char.isAlphanum, hc, Bool.or_true])
  exact forall_ascii (P := fun c => c.isDigit = true → isWhiteSpace c = false ∧ radix c = none)
    (by decide) hascii hc

theorem digitsValue_of_isDigit {s : List Char} (hne : s ≠ []) (hs : ∀ c ∈ s, c.isDigit = true) :
    digitsValue 10 s = some (Nat.ofDigitChars 10 s 0) := by
  have hfold : ∀ (t : List Char) (init : ℕ), (∀ c ∈ t, c.isDigit = true) →
      t.foldlM (fun value c => (digitValue 10 c).map fun d => value * 10 + d) init =
        some (Nat.ofDigitChars 10 t init) := by
    intro t
    induction t with
    | nil => exact fun init _ => rfl
    | cons c t ih =>
      intro init ht
      obtain ⟨hc, ht⟩ := List.forall_mem_cons.mp ht
      rw [List.foldlM_cons, digitValue_of_isDigit hc, Nat.ofDigitChars_cons, mul_comm 10 init]
      exact ih _ ht
  unfold digitsValue
  rw [if_neg hne]
  exact hfold s 0 hs

/-- Digits are read as the integer that they stand for, rounded. -/
theorem decimalLiteral_of_isDigit {s : List Char} (hne : s ≠ [])
    (hs : ∀ c ∈ s, c.isDigit = true) :
    decimalLiteral false s = Float64.ofNat (Nat.ofDigitChars 10 s 0) := by
  have htake : s.takeWhile Char.isDigit = s := List.takeWhile_eq_self_iff.mpr hs
  have hdrop : s.dropWhile Char.isDigit = [] := List.dropWhile_eq_nil_iff.mpr hs
  have hword : s ≠ ['I', 'n', 'f', 'i', 'n', 'i', 't', 'y'] := by
    rintro rfl
    exact absurd (hs 'I' List.mem_cons_self) (by decide)
  unfold decimalLiteral
  rw [if_neg hword, htake, hdrop]
  dsimp only [exponentPart]
  rw [List.append_nil, digitsValue_of_isDigit hne hs]
  dsimp only
  unfold ofDecimal Float64.ofNat
  simp only [List.length_nil, Nat.cast_zero, sub_zero, le_refl, if_true, Int.toNat_zero, pow_zero,
    mul_one]

/-- The text of an integer is read as that integer, rounded. -/
theorem stringToNumber_toDigits (n : ℕ) :
    stringToNumber (Nat.toDigits 10 n) = Float64.ofNat n := by
  have hdigit : ∀ c ∈ Nat.toDigits 10 n, c.isDigit = true :=
    fun c hc => Nat.isDigit_of_mem_toDigits (by decide) (by decide) hc
  have hne : Nat.toDigits 10 n ≠ [] := Nat.toDigits_ne_nil
  have hliteral := decimalLiteral_of_isDigit hne hdigit
  rw [Nat.ofDigitChars_toDigits (by decide) (by decide)] at hliteral
  generalize Nat.toDigits 10 n = s at *
  have htrim : trim s = s := by
    have hspace : ∀ t : List Char, (∀ c ∈ t, c.isDigit = true) → t.dropWhile isWhiteSpace = t := by
      intro t ht
      cases t with
      | nil => rfl
      | cons c t =>
        apply List.dropWhile_cons_of_neg
        rw [(plain_of_isDigit (ht c List.mem_cons_self)).1]
        exact Bool.false_ne_true
    unfold trim
    rw [hspace s hdigit, hspace _ fun c hc => hdigit c (List.mem_reverse.mp hc),
      List.reverse_reverse]
  unfold stringToNumber
  rw [htrim]
  split
  · exact absurd rfl hne
  · exact absurd (hdigit '+' List.mem_cons_self) (by decide)
  · exact absurd (hdigit '-' List.mem_cons_self) (by decide)
  · -- a digit after a zero is no letter of a base
    rename_i c t
    rw [(plain_of_isDigit (hdigit c (List.mem_cons_of_mem _ List.mem_cons_self))).2]
    exact hliteral
  · exact hliteral

theorem lt_of_is {x y : Float64} {i j : ℤ} (hx : x.Is i) (hy : y.Is j) :
    Float64.lt x y = decide (i < j) := by
  obtain ⟨f, rfl, hf⟩ := hx
  obtain ⟨g, rfl, hg⟩ := hy
  show decide (signed f < signed g) = _
  rw [hf, hg, decide_eq_decide]
  exact mul_lt_mul_iff_of_pos_right (Int.natCast_pos.mpr Float64.unit_pos)

theorem ne_nan_of_is {x : Float64} {i : ℤ} (h : x.Is i) : x ≠ .nan := by
  obtain ⟨f, rfl, -⟩ := h
  exact Float64.noConfusion

theorem lessEqual_of_is {x y : Float64} {i j : ℤ} (hx : x.Is i) (hy : y.Is j) :
    lessEqual x y = decide (i ≤ j) := by
  unfold lessEqual
  rw [lt_of_is hy hx, decide_eq_true (ne_nan_of_is hx), decide_eq_true (ne_nan_of_is hy),
    Bool.true_and, Bool.true_and, ← decide_not, decide_eq_decide]
  exact not_lt

theorem mathMax_of_is {x y : Float64} {i j : ℤ} (hx : x.Is i) (hy : y.Is j) :
    (mathMax x y).Is (max i j) := by
  unfold mathMax
  rw [if_neg (not_or.mpr ⟨ne_nan_of_is hx, ne_nan_of_is hy⟩), lt_of_is hx hy]
  split
  · rename_i h
    rw [max_eq_right (of_decide_eq_true h).le]
    exact hy
  · rename_i h
    rw [max_eq_left (not_lt.mp (of_decide_eq_false (Bool.eq_false_iff.mpr h)))]
    exact hx

/-- An integer, in units. -/
theorem is_ofRatio {k : ℕ} (h : k ≤ 2 ^ 53) : (ofRatio false (k * one) 1).Is k := by
  have hk := Float64.is_ofInt (i := k) (Float64.intRepresentable_of_le h)
  unfold ofInt at hk
  rwa [decide_eq_false (Int.natCast_nonneg k).not_gt, Int.natAbs_natCast] at hk

theorem ceilDiv_bounds {u d : ℕ} (hd : 0 < d) :
    u ≤ (u + (d - 1)) / d * d ∧ (u + (d - 1)) / d * d < u + d := by
  have hsplit := Nat.div_add_mod (u + (d - 1)) d
  have hmod := Nat.mod_lt (u + (d - 1)) hd
  rw [mul_comm]
  omega

theorem ceilDiv_le {u d b : ℕ} (hd : 0 < d) (h : u ≤ b * d) : (u + (d - 1)) / d ≤ b := by
  apply Nat.le_of_lt_succ
  rw [Nat.div_lt_iff_lt_mul hd, Nat.succ_mul]
  omega

/-- The integer that a number of 2^53 at most is rounded up to. -/
theorem mathCeil_is {f : FiniteFloat64} (hpos : 0 ≤ signed f)
    (hle : signed f ≤ (2 ^ 53 * one : ℕ)) :
    ∃ k : ℤ, (mathCeil (.finite f)).Is k ∧ signed f ≤ k * one ∧ k * one < signed f + one := by
  have hunit := Float64.unit_pos
  cases hneg : f.negative with
  | true =>
    -- a zero with a sign
    have hzero : f.units = 0 := by
      unfold signed at hpos
      rw [hneg, if_pos rfl] at hpos
      omega
    have hsigned : signed f = 0 := by
      unfold signed
      rw [hneg, if_pos rfl, hzero]
      rfl
    refine ⟨0, ?_, by rw [hsigned, zero_mul], by rw [hsigned, zero_mul]; omega⟩
    show (if f.negative = true then ofRatio true (f.units / one * one) 1 else _ : Float64).Is 0
    rw [if_pos hneg, hzero, Nat.zero_div]
    have hcases := (is_ofRatio (Nat.zero_le (2 ^ 53))).neg
    rwa [← Float64.ofRatio_not, Bool.not_false, Nat.cast_zero, neg_zero] at hcases
  | false =>
    have hsigned : signed f = f.units := by
      unfold signed
      rw [hneg, if_neg Bool.false_ne_true]
    rw [hsigned] at hle ⊢
    obtain ⟨hlow, hhigh⟩ := ceilDiv_bounds (u := f.units) hunit
    have hk := ceilDiv_le hunit (Int.ofNat_le.mp hle)
    refine ⟨((f.units + (one - 1)) / one : ℕ), ?_, ?_, ?_⟩
    · show (if f.negative = true then _ else ofRatio false _ 1 : Float64).Is _
      rw [if_neg (by rw [hneg]; exact Bool.false_ne_true)]
      exact is_ofRatio hk
    · exact_mod_cast hlow
    · exact_mod_cast hhigh

/-! ### Dates -/

/-- The latest time of a date, in milliseconds. -/
def maxTime : ℕ := 8640000000000000

/-- The time of a valid date, in milliseconds from 1970. -/
abbrev TimeValue : Type := {t : ℤ // t.natAbs ≤ maxTime}

instance : DecidableLE TimeValue := fun a b => inferInstanceAs (Decidable (a.1 ≤ b.1))

/-- A date, or an invalid one. -/
abbrev Date : Type := Option TimeValue

/-- `date.getTime()` -/
def Date.getTime : Date → Float64
  | none => .nan
  | some t => ofInt t.1

/-- `date.toISOString()` -/
def Date.toISOString : Date → Except String TimeValue
  | none => .error "Invalid time value"
  | some t => .ok t

theorem natAbs_trunc (f : FiniteFloat64) : (Float64.trunc (.finite f)).natAbs = f.units / one := by
  show (if f.negative then _ else _ : ℤ).natAbs = _
  split
  · rw [Int.natAbs_neg, Int.natAbs_natCast]
  · exact Int.natAbs_natCast _

/-- `new Date(x)`, of a number. -/
def dateOf : Float64 → Date
  | .finite f =>
      if h : f.units ≤ maxTime * one then
        some ⟨Float64.trunc (.finite f), by
          rw [natAbs_trunc]
          exact Nat.div_le_of_le_mul (by rwa [mul_comm])⟩
      else none
  | _ => none

/-- The date at an instant, if there is one. -/
def dateAt (t : ℤ) : Date := if h : t.natAbs ≤ maxTime then some ⟨t, h⟩ else none

theorem dateAt_in {t : ℤ} (h : t.natAbs ≤ maxTime) : dateAt t = some ⟨t, h⟩ := dif_pos h

theorem dateAt_out {t : ℤ} (h : ¬ t.natAbs ≤ maxTime) : dateAt t = none := dif_neg h

theorem dateAt_eq_some {t : ℤ} {date : TimeValue} : dateAt t = some date ↔ t = date.1 := by
  by_cases h : t.natAbs ≤ maxTime
  · rw [dateAt_in h, Option.some_inj]
    exact Subtype.ext_iff
  · rw [dateAt_out h]
    constructor
    · intro hnone
      cases hnone
    · rintro rfl
      exact absurd date.2 h

/-- What follows `toISOString` is reached with a valid date only. -/
theorem Date.toISOString_bind {α : Type} {date : Date} {f : TimeValue → Except String α} {a : α} :
    (date.toISOString >>= f) = .ok a ↔ ∃ t, date = some t ∧ f t = .ok a := by
  constructor
  · intro h
    cases date with
    | none => cases h
    | some t => exact ⟨t, rfl, h⟩
  · rintro ⟨t, rfl, h⟩
    exact h

theorem dateOf_of_is {x : Float64} {i : ℤ} (h : x.Is i) : dateOf x = dateAt i := by
  obtain ⟨f, rfl, hf⟩ := h
  have hrange : f.units ≤ maxTime * one ↔ i.natAbs ≤ maxTime := by
    rw [units_of_signed hf]
    exact Nat.mul_le_mul_right_iff Float64.unit_pos
  show (if h : f.units ≤ maxTime * one then _ else none : Date) = _
  by_cases hi : i.natAbs ≤ maxTime
  · rw [dif_pos (hrange.mpr hi), dateAt_in hi]
    exact congrArg some (Subtype.ext (trunc_of_signed hf))
  · rw [dif_neg (mt hrange.mp hi), dateAt_out hi]

/-- A time that is not negative and may have a fraction. -/
theorem dateOf_of_nonneg {f : FiniteFloat64} (hpos : 0 ≤ signed f)
    (hle : f.units ≤ maxTime * one) : dateOf (.finite f) = dateAt (f.units / one : ℕ) := by
  have htrunc : Float64.trunc (.finite f) = (f.units / one : ℕ) := by
    show (if f.negative = true then _ else _ : ℤ) = _
    split
    · -- a zero with a sign
      rename_i hneg
      have hzero : f.units = 0 := by
        unfold signed at hpos
        rw [if_pos hneg] at hpos
        omega
      rw [hzero, Nat.zero_div]
      rfl
    · rfl
  have hdate : (f.units / one : ℕ) ≤ maxTime :=
    Nat.div_le_of_le_mul (hle.trans_eq (Nat.mul_comm _ _))
  rw [dateAt_in (by rwa [Int.natAbs_natCast])]
  show (if h : f.units ≤ maxTime * one then _ else none : Date) = _
  rw [dif_pos hle]
  exact congrArg some (Subtype.ext htrunc)

/-- Out of range, up to 2^53 exactly. -/
theorem dateOf_of_atLeast {x : Float64} (h : x.AtLeast (2 ^ 53 * one)) : dateOf x = none := by
  obtain rfl | ⟨f, rfl, hf⟩ := h
  · rfl
  · have hunits : 2 ^ 53 * one ≤ f.units := by
      unfold signed at hf
      split at hf
      · omega
      · exact_mod_cast hf
    apply dif_neg
    intro hle
    have hlt : maxTime * one < 2 ^ 53 * one :=
      Nat.mul_lt_mul_of_pos_right (by decide) Float64.unit_pos
    exact absurd (hunits.trans hle) hlt.not_ge

theorem dateOf_neg (x : Float64) : dateOf (Float64.neg x) = none ↔ dateOf x = none := by
  cases x with
  | nan => rfl
  | infinite a => rfl
  | finite f =>
    show (if h : f.units ≤ maxTime * one then _ else none : Date) = none ↔
      (if h : f.units ≤ maxTime * one then _ else none : Date) = none
    split
    · simp
    · rfl

theorem dateOf_of_atMost {x : Float64} (h : x.AtMost (-(2 ^ 53 * one))) : dateOf x = none := by
  have hneg := Float64.atLeast_neg h
  rw [neg_neg] at hneg
  exact (dateOf_neg x).mp (dateOf_of_atLeast hneg)

/-- An offset in milliseconds: exact, or too large for any date. -/
inductive Offset (x : Float64) (i : ℤ) : Prop
  | exact (h : x.Is i)
  | after (hi : 2 ^ 57 ≤ i) (h : x.AtLeast (2 ^ 57 * one))
  | before (hi : i ≤ -2 ^ 57) (h : x.AtMost (-(2 ^ 57 * one)))

theorem Offset.neg {x : Float64} {i : ℤ} (h : Offset x i) : Offset (Float64.neg x) (-i) := by
  cases h with
  | exact h => exact .exact h.neg
  | after hi h => exact .before (neg_le_neg hi) (Float64.atMost_neg h)
  | before hi h =>
    have hneg := Float64.atLeast_neg h
    rw [neg_neg] at hneg
    exact .after (by omega) hneg

/-- An integer times the unit, compared. -/
theorem mul_unit_le {i j : ℤ} (h : i ≤ j) : i * (one : ℤ) ≤ j * one :=
  Int.mul_le_mul_of_nonneg_right h (Int.natCast_nonneg one)

/-- **A date and an offset.** -/
theorem dateOf_add (t : TimeValue) {x : Float64} {i : ℤ} (h : Offset x i) :
    dateOf (Float64.add (ofInt t.1) x) = dateAt (t.1 + i) := by
  obtain ⟨t, ht⟩ := t
  have hmax : maxTime < 2 ^ 53 := by decide
  have htime : (ofInt t).Is t := Float64.is_ofInt (Float64.intRepresentable_of_le (by omega))
  obtain ⟨hlow, hhigh⟩ := Float64.is_iff.mp htime
  have hbound : IntRepresentable (2 ^ 53) := Float64.intRepresentable_of_le (le_refl _)
  have hbound' : IntRepresentable (-2 ^ 53) := Float64.intRepresentable_of_le (le_refl _)
  -- a sum beyond 2^53 is rounded to one that is not before it
  have hafter : ∀ j, x.AtLeast (j * one) → 2 ^ 53 ≤ t + j → 2 ^ 53 ≤ t + i →
      dateOf (Float64.add (ofInt t) x) = dateAt (t + i) := by
    intro j hj hsum hi
    have hsum' := mul_unit_le hsum
    rw [add_mul] at hsum'
    rw [dateOf_of_atLeast (Float64.add_atLeast hlow hj hbound.units.1 hbound.units.2 hsum')]
    have hout : ¬ (t + i).natAbs ≤ maxTime := by omega
    exact (dateAt_out hout).symm
  have hbefore : ∀ j, x.AtMost (j * one) → t + j ≤ -2 ^ 53 → t + i ≤ -2 ^ 53 →
      dateOf (Float64.add (ofInt t) x) = dateAt (t + i) := by
    intro j hj hsum hi
    have hsum' := mul_unit_le hsum
    rw [add_mul] at hsum'
    have hmost := Float64.add_atMost hhigh hj hbound'.units.1 hbound'.units.2 hsum'
    rw [neg_mul] at hmost
    rw [dateOf_of_atMost hmost]
    have hout : ¬ (t + i).natAbs ≤ maxTime := by omega
    exact (dateAt_out hout).symm
  cases h with
  | exact h =>
    obtain ⟨hxlow, hxhigh⟩ := Float64.is_iff.mp h
    by_cases hsum : (t + i).natAbs ≤ 2 ^ 53
    · exact dateOf_of_is (htime.add h (Float64.intRepresentable_of_le hsum))
    · rcases le_total 0 (t + i) with hpos | hneg
      · exact hafter i hxlow (by omega) (by omega)
      · exact hbefore i hxhigh (by omega) (by omega)
  | after hi h => exact hafter (2 ^ 57) h (by omega) (by omega)
  | before hi h =>
    rw [← neg_mul] at h
    exact hbefore (-2 ^ 57) h (by omega) (by omega)

/-- Minutes, in milliseconds. -/
theorem offset_minutes {m : Float64} {i : ℤ} (hm : m.Is i) (hi : 0 < i) :
    Offset ((m.mulNat 60).mulNat 1000) (i * 60000) := by
  by_cases hsmall : i * 60 ≤ 2 ^ 48
  · have hseconds : (m.mulNat 60).Is (i * 60) :=
      hm.mulNat (by decide) (Float64.intRepresentable_of_le (by omega))
    -- a multiple of 2^5
    have hrep : IntRepresentable (i * 60 * 1000) :=
      ⟨(i * 1875).natAbs, 5, by omega, by decide, by omega⟩
    have hmillis := hseconds.mulNat (by decide) hrep
    rw [show i * 60 * ((1000 : ℕ) : ℤ) = i * 60000 by push_cast; ring] at hmillis
    exact .exact hmillis
  · have hrep : IntRepresentable (2 ^ 48) := Float64.intRepresentable_of_le (by decide)
    have hrep' : IntRepresentable (2 ^ 57) := ⟨1, 57, by decide, by decide, by decide⟩
    obtain ⟨hlow, -⟩ := Float64.is_iff.mp hm
    have hseconds := Float64.mulNat_atLeast (by decide : 0 < 60) hlow hrep.units.1 hrep.units.2 (by
      have h := mul_unit_le (not_le.mp hsmall).le
      rwa [mul_right_comm] at h)
    refine .after (by omega) (Float64.mulNat_atLeast (by decide) hseconds hrep'.units.1
      hrep'.units.2 ?_)
    have h := mul_unit_le (show (2 : ℤ) ^ 57 ≤ 2 ^ 48 * 1000 by decide)
    rwa [mul_right_comm] at h

end NexCause
