/-
NexCause/Float64.lean

IEEE 754 binary64, by value.

Every finite binary64 number is a multiple of the smallest subnormal 2^-1074,
so that its magnitude is a natural number of such units and a sum of two is
exact before it is rounded.  A result is rounded to the nearest number of 53
significant bits, ties to even; from half a step above the largest number on
it is infinite.

Main results: a quotient by a positive integer is finite if its dividend is
(`isFinite_divNat`), and a sum of numbers is not finite once a summand or a
partial sum is not (`isFinite_foldl_add`).
-/
import Mathlib.Data.List.Sort
import Mathlib.Data.Nat.Log
import Mathlib.Tactic.Linarith
import Mathlib.Tactic.Ring

namespace Binary64

/-! ### Rounding -/

/-- The quotient rounded to the nearest integer, ties to even. -/
def roundDiv (n d : ℕ) : ℕ :=
  if 2 * (n % d) < d then n / d
  else if d < 2 * (n % d) then n / d + 1
  else n / d + n / d % 2

/-- The distance between the numbers of 53 bits around `n / d`. -/
def ulp (n d : ℕ) : ℕ := 2 ^ (Nat.log 2 (n / d) + 1 - 53)

/-- The number of 53 bits nearest to `n / d`. -/
def nearest (n d : ℕ) : ℕ := roundDiv n (d * ulp n d) * ulp n d

/-- The largest significand. -/
def maxSignificand : ℕ := 2 ^ 53 - 1

/-- A quotient below `k + 1/2` is rounded to `k` at most. -/
theorem roundDiv_le {n d k : ℕ} (h : 2 * n < (2 * k + 1) * d) : roundDiv n d ≤ k := by
  have hd : 0 < d := Nat.pos_of_mul_pos_left (Nat.lt_of_le_of_lt (Nat.zero_le _) h)
  have hn : d * (n / d) + n % d = n := Nat.div_add_mod n d
  have hr : n % d < d := Nat.mod_lt n hd
  unfold roundDiv
  generalize n / d = q at hn ⊢
  generalize n % d = r at hn hr ⊢
  have hq : q ≤ k := by
    by_contra hlt
    have hkd : d * (k + 1) ≤ d * q := Nat.mul_le_mul_left d (by omega)
    nlinarith
  split
  · exact hq
  · -- rounded up: the remainder is half of `d` at least
    have hup : q + 1 ≤ k := by
      by_contra hlt
      obtain rfl : q = k := by omega
      nlinarith
    split
    · exact hup
    · have : q % 2 < 2 := Nat.mod_lt _ (by decide)
      omega

/-- Half a step below the next power of two, the nearest number is still below
it.  The half step is that of a last binade of any exponent. -/
theorem nearest_le_of_lt {n d e : ℕ} (h : n < (2 * maxSignificand + 1) * 2 ^ e * d) :
    nearest n d ≤ maxSignificand * (2 * 2 ^ e) := by
  have hd : 0 < d := Nat.pos_of_mul_pos_left (Nat.lt_of_le_of_lt (Nat.zero_le _) h)
  have hpos : 0 < 2 ^ e := Nat.two_pow_pos e
  have hquot : n / d < 2 ^ (54 + e) := by
    have hlt : n / d < (2 * maxSignificand + 1) * 2 ^ e := (Nat.div_lt_iff_lt_mul hd).mpr h
    rw [Nat.pow_add]
    exact hlt.trans (Nat.mul_lt_mul_of_pos_right (by decide) hpos)
  have hlog : Nat.log 2 (n / d) < 54 + e := Nat.log_lt_of_lt_pow' (by omega) hquot
  unfold nearest ulp
  generalize hs : Nat.log 2 (n / d) + 1 - 53 = s
  have hn : n < 2 ^ (53 + s) * d := by
    apply (Nat.div_lt_iff_lt_mul hd).mp
    have hself := Nat.lt_pow_succ_log_self (by decide : 1 < 2) (n / d)
    exact hself.trans_le (Nat.pow_le_pow_right (by decide) (by omega))
  rcases Nat.lt_or_ge s (e + 1) with hs' | hs'
  · -- at most 2^53 steps of 2^s
    have hround : roundDiv n (d * 2 ^ s) ≤ 2 ^ 53 := by
      apply roundDiv_le
      rw [Nat.pow_add] at hn
      nlinarith [Nat.two_pow_pos s]
    calc roundDiv n (d * 2 ^ s) * 2 ^ s ≤ 2 ^ 53 * 2 ^ e :=
          Nat.mul_le_mul hround (Nat.pow_le_pow_right (by decide) (by omega))
      _ ≤ maxSignificand * (2 * 2 ^ e) := by
          unfold maxSignificand
          omega
  · -- the last binade: the limit leaves 2^53 - 1 steps
    obtain rfl : s = e + 1 := by omega
    rw [Nat.pow_succ']
    have hround : roundDiv n (d * (2 * 2 ^ e)) ≤ maxSignificand := by
      apply roundDiv_le
      have hstep : (2 * maxSignificand + 1) * (d * (2 * 2 ^ e)) =
          2 * ((2 * maxSignificand + 1) * 2 ^ e * d) := by
        ring
      rw [hstep]
      omega
    exact Nat.mul_le_mul hround (le_refl _)

/-- Half a step in the last binade. -/
def halfStep : ℕ := 2 ^ 2044

/-- The largest finite magnitude. -/
def maxUnits : ℕ := maxSignificand * (2 * halfStep)

/-- Half a step above the largest finite magnitude. -/
def overflow : ℕ := (2 * maxSignificand + 1) * halfStep

theorem halfStep_pos : 0 < halfStep := by
  unfold halfStep
  apply Nat.pow_pos
  decide

theorem maxUnits_lt_overflow : maxUnits < overflow := by
  have hpos := halfStep_pos
  have hsum : overflow = maxUnits + halfStep := by
    unfold maxUnits overflow
    ring
  omega

/-- Below the overflow limit the nearest number is finite. -/
theorem nearest_le {n d : ℕ} (h : n < overflow * d) : nearest n d ≤ maxUnits := by
  unfold overflow halfStep at h
  unfold maxUnits halfStep
  exact nearest_le_of_lt h

end Binary64

/-! ### Numbers -/

/-- A finite number: its sign, and its magnitude in units of 2^-1074. -/
structure FiniteFloat64 where
  negative : Bool
  units : ℕ
  bound : units ≤ Binary64.maxUnits
  deriving DecidableEq

/-- A binary64 number. -/
inductive Float64
  | nan
  | infinite (negative : Bool)
  | finite (x : FiniteFloat64)
  deriving DecidableEq

namespace Float64

open Binary64

def isFinite : Float64 → Bool
  | finite _ => true
  | _ => false

/-- `± n / d`, in units, rounded. -/
def ofRatio (negative : Bool) (n d : ℕ) : Float64 :=
  if h : n < overflow * d then finite ⟨negative, nearest n d, nearest_le h⟩
  else infinite negative

/-- The units of one. -/
def one : ℕ := 2 ^ 1074

def zero : Float64 := finite ⟨false, 0, Nat.zero_le _⟩

/-- `float64(n)`. -/
def ofNat (n : ℕ) : Float64 := ofRatio false (n * one) 1

/-- `float64(i)`. -/
def ofInt (i : ℤ) : Float64 := ofRatio (decide (i < 0)) (i.natAbs * one) 1

/-- The value of a finite number, in units. -/
def signed (x : FiniteFloat64) : ℤ := if x.negative then -x.units else x.units

/-- The sum.  Zeros keep a sign only if both have it. -/
def add : Float64 → Float64 → Float64
  | nan, _ => nan
  | _, nan => nan
  | infinite a, infinite b => if a = b then infinite a else nan
  | infinite a, finite _ => infinite a
  | finite _, infinite b => infinite b
  | finite x, finite y =>
      let sum := signed x + signed y
      ofRatio (if sum = 0 then x.negative && y.negative else decide (sum < 0)) sum.natAbs 1

/-- The product with `float64(n)`, for an `n` below 2^53. -/
def mulNat (x : Float64) (n : ℕ) : Float64 :=
  match x with
  | nan => nan
  | infinite a => if n = 0 then nan else infinite a
  | finite x => ofRatio x.negative (x.units * n) 1

/-- The quotient by `float64(n)`, for an `n` below 2^53. -/
def divNat (x : Float64) (n : ℕ) : Float64 :=
  match x with
  | nan => nan
  | infinite a => infinite a
  | finite x => if n = 0 then (if x.units = 0 then nan else infinite x.negative)
      else ofRatio x.negative x.units n

/-- `x < y`, which no NaN satisfies. -/
def lt : Float64 → Float64 → Bool
  | nan, _ => false
  | _, nan => false
  | infinite a, infinite b => a && !b
  | infinite a, finite _ => a
  | finite _, infinite b => !b
  | finite x, finite y => signed x < signed y

/-- The order of a sort: NaN first. -/
def sortsBefore (x y : Float64) : Bool := lt x y || (decide (x = nan) && decide (y ≠ nan))

/-- The numbers in ascending order, NaN first. -/
def sort (xs : List Float64) : List Float64 := xs.insertionSort fun x y => !sortsBefore y x

/-- `int(math.Ceil(x))` of a number that is not negative. -/
def ceil : Float64 → ℕ
  | finite x => (x.units + (one - 1)) / one
  | _ => 0

/-- The integer part of a finite number, toward zero. -/
def trunc : Float64 → ℤ
  | finite x => if x.negative then -(x.units / one : ℕ) else (x.units / one : ℕ)
  | _ => 0

/-! ### Which results are finite -/

theorem isFinite_divNat {n : ℕ} (hn : 0 < n) (x : Float64) :
    (x.divNat n).isFinite = x.isFinite := by
  cases x with
  | nan => rfl
  | infinite a => rfl
  | finite x =>
    have hlt : x.units < overflow * n :=
      calc x.units < overflow := x.bound.trans_lt maxUnits_lt_overflow
        _ ≤ overflow * n := Nat.le_mul_of_pos_right _ hn
    simp only [divNat, Nat.pos_iff_ne_zero.mp hn, if_false, ofRatio, dif_pos hlt, isFinite]

/-- A sum is finite only if both summands are. -/
theorem isFinite_of_add {x y : Float64} (h : (add x y).isFinite) : x.isFinite ∧ y.isFinite := by
  cases x with
  | nan => simp [add, isFinite] at h
  | infinite a =>
    -- two infinities give an infinity or no number
    cases y with
    | infinite b =>
      simp only [add] at h
      split at h <;> cases h
    | nan => cases h
    | finite y => cases h
  | finite x =>
    cases y with
    | finite y => exact ⟨rfl, rfl⟩
    | nan => cases h
    | infinite b => cases h

/-- A running sum that ends finite started from a finite number and met
finite numbers only. -/
theorem isFinite_foldl_add {xs : List Float64} {x : Float64}
    (h : (xs.foldl add x).isFinite) : x.isFinite ∧ ∀ y ∈ xs, y.isFinite := by
  induction xs generalizing x with
  | nil => exact ⟨h, fun _ hy => nomatch hy⟩
  | cons z zs ih =>
    have hsum := ih h
    have hx := isFinite_of_add hsum.1
    refine ⟨hx.1, ?_⟩
    intro y hy
    rcases List.mem_cons.mp hy with rfl | hy
    · exact hx.2
    · exact hsum.2 y hy

theorem mem_sort {x : Float64} {xs : List Float64} : x ∈ sort xs ↔ x ∈ xs :=
  (List.perm_insertionSort (r := _) xs).mem_iff

theorem length_sort (xs : List Float64) : (sort xs).length = xs.length :=
  (List.perm_insertionSort (r := _) xs).length_eq

end Float64
