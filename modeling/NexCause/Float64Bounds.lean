/-
NexCause/Float64Bounds.lean

Bounds on what is computed in binary64.

A number of 53 bits is never jumped over by rounding (`le_nearest`,
`nearest_le_of_le`), so a bound of 53 bits on an exact result is one on the
rounded result; and a result is an integer where both bounds are
(`Is`).  Beyond half a step the result is rounded up (`lt_nearest`), and at half
a step to the even neighbour (`nearest_tie`).
-/
import NexCause.Float64
import Mathlib.Tactic.Positivity

namespace Binary64

/-! ### Rounding -/

/-- A quotient that is not below an integer is not rounded below it. -/
theorem le_roundDiv {n d k : ℕ} (hd : 0 < d) (h : k * d ≤ n) : k ≤ roundDiv n d := by
  have hk : k ≤ n / d := (Nat.le_div_iff_mul_le hd).mpr h
  unfold roundDiv
  split
  · exact hk
  · split
    · exact hk.trans (Nat.le_add_right _ _)
    · exact hk.trans (Nat.le_add_right _ _)

/-- A quotient above `k + 1/2` is rounded to `k + 1` at least. -/
theorem lt_roundDiv {n d k : ℕ} (hd : 0 < d) (h : (2 * k + 1) * d < 2 * n) : k < roundDiv n d := by
  have hn : d * (n / d) + n % d = n := Nat.div_add_mod n d
  have hr : n % d < d := Nat.mod_lt n hd
  unfold roundDiv
  generalize n / d = q at hn ⊢
  generalize n % d = r at hn hr ⊢
  have hq : k ≤ q := by
    by_contra hlt
    have hkd : d * (q + 1) ≤ d * k := Nat.mul_le_mul_left d (by omega)
    nlinarith
  rcases hq.eq_or_lt with rfl | hq
  · -- the remainder is more than half of `d`
    have hhalf : d < 2 * r := by nlinarith
    rw [if_neg (by omega), if_pos hhalf]
    omega
  · split
    · exact hq
    · split
      · omega
      · omega

/-- A magnitude of 53 bits. -/
def Representable (r : ℕ) : Prop := ∃ a k, a ≤ 2 ^ 53 ∧ r = a * 2 ^ k

theorem ulp_pos (n d : ℕ) : 0 < ulp n d := Nat.two_pow_pos _

/-- A magnitude of 53 bits is on the grid of a quotient, or below a point of the grid that is not
above the quotient. -/
theorem Representable.dvd_or_le {r : ℕ} (hr : Representable r) (n d : ℕ) :
    ulp n d ∣ r ∨ ∃ s, r ≤ s ∧ ulp n d ∣ s ∧ s ≤ n / d := by
  obtain ⟨a, k, ha, rfl⟩ := hr
  unfold ulp
  generalize he : Nat.log 2 (n / d) + 1 - 53 = e
  rcases Nat.lt_or_ge k e with hk | hk
  · right
    have hlog : 52 + e = Nat.log 2 (n / d) := by omega
    have hq : n / d ≠ 0 := by
      intro h0
      rw [h0, Nat.log_zero_right] at hlog
      omega
    refine ⟨2 ^ (52 + e), ?_, pow_dvd_pow 2 (by omega), ?_⟩
    · calc a * 2 ^ k ≤ 2 ^ 53 * 2 ^ k := Nat.mul_le_mul_right _ ha
        _ = 2 ^ (53 + k) := (pow_add 2 53 k).symm
        _ ≤ 2 ^ (52 + e) := Nat.pow_le_pow_right (by decide) (by omega)
    · rw [hlog]
      exact Nat.pow_log_le_self 2 hq
  · exact .inl (Dvd.dvd.mul_left (pow_dvd_pow 2 hk) a)

/-- A number of 53 bits that is not above the quotient is not above what it is rounded
to. -/
theorem le_nearest {r n d : ℕ} (hr : Representable r) (hd : 0 < d) (h : r * d ≤ n) :
    r ≤ nearest n d := by
  have hgrid : ∀ s, ulp n d ∣ s → s * d ≤ n → s ≤ nearest n d := by
    rintro s ⟨t, rfl⟩ hs
    have ht : t ≤ roundDiv n (d * ulp n d) :=
      le_roundDiv (Nat.mul_pos hd (ulp_pos n d)) (by rw [← mul_assoc]; linarith)
    calc ulp n d * t = t * ulp n d := mul_comm _ _
      _ ≤ nearest n d := Nat.mul_le_mul_right _ ht
  obtain hdvd | ⟨s, hrs, hdvd, hs⟩ := hr.dvd_or_le n d
  · exact hgrid r hdvd h
  · exact hrs.trans (hgrid s hdvd ((Nat.le_div_iff_mul_le hd).mp hs))

/-- One that is not below the quotient is not below what it is rounded to. -/
theorem nearest_le_of_le {r n d : ℕ} (hr : Representable r) (hd : 0 < d) (h : n ≤ r * d) :
    nearest n d ≤ r := by
  have hdvd : ulp n d ∣ r := by
    obtain hdvd | ⟨s, hrs, hdvd, hs⟩ := hr.dvd_or_le n d
    · exact hdvd
    · -- the quotient is `r` itself
      have hq : n / d ≤ r := Nat.div_le_of_le_mul (by linarith)
      obtain rfl : r = s := le_antisymm hrs (hs.trans hq)
      exact hdvd
  obtain ⟨t, rfl⟩ := hdvd
  have hpos : 0 < d * ulp n d := Nat.mul_pos hd (ulp_pos n d)
  have ht : roundDiv n (d * ulp n d) ≤ t := roundDiv_le (by nlinarith)
  calc nearest n d ≤ t * ulp n d := Nat.mul_le_mul_right _ ht
    _ = ulp n d * t := mul_comm _ _

/-- Rounding keeps the order. -/
theorem roundDiv_mono {m n d : ℕ} (h : m ≤ n) : roundDiv m d ≤ roundDiv n d := by
  have hm : d * (m / d) + m % d = m := Nat.div_add_mod m d
  have hn : d * (n / d) + n % d = n := Nat.div_add_mod n d
  have hdiv : m / d ≤ n / d := Nat.div_le_div_right h
  unfold roundDiv
  generalize m / d = q at *
  generalize n / d = q' at *
  rcases hdiv.eq_or_lt with rfl | hlt
  · have hmod : m % d ≤ n % d := by omega
    split_ifs <;> omega
  · split_ifs <;> omega

/-- Rounding keeps the order. -/
theorem nearest_mono {m n d : ℕ} (hd : 0 < d) (h : m ≤ n) : nearest m d ≤ nearest n d := by
  have hdiv : m / d ≤ n / d := Nat.div_le_div_right h
  rcases (Nat.log_mono_right (b := 2) hdiv).eq_or_lt with heq | hlt
  · unfold nearest ulp
    rw [heq]
    exact Nat.mul_le_mul_right _ (roundDiv_mono h)
  · -- a power of two lies between them
    have hne : n / d ≠ 0 := by
      intro h0
      rw [h0, Nat.log_zero_right] at hlt
      exact Nat.not_lt_zero _ hlt
    have hrep : Representable (2 ^ Nat.log 2 (n / d)) := ⟨1, _, by decide, (one_mul _).symm⟩
    have hbelow : m / d < 2 ^ Nat.log 2 (n / d) := Nat.lt_pow_of_log_lt (by decide) hlt
    have habove : 2 ^ Nat.log 2 (n / d) ≤ n / d := Nat.pow_log_le_self 2 hne
    calc nearest m d ≤ 2 ^ Nat.log 2 (n / d) :=
          nearest_le_of_le hrep hd ((Nat.div_lt_iff_lt_mul hd).mp hbelow).le
      _ ≤ nearest n d := le_nearest hrep hd ((Nat.le_div_iff_mul_le hd).mp habove)

/-- Above half a step of 2^e from `a * 2^e` on, the nearest number is greater than that. -/
theorem lt_nearest {a e n d : ℕ} (hd : 0 < d) (h : (2 * a + 1) * 2 ^ e * d < 2 * n)
    (hn : n < 2 ^ (53 + e) * d) : a * 2 ^ e < nearest n d := by
  have hlog : Nat.log 2 (n / d) + 1 - 53 ≤ e := by
    rcases Nat.eq_zero_or_pos (n / d) with h0 | h0
    · rw [h0, Nat.log_zero_right]
      omega
    · have hlt := Nat.log_lt_of_lt_pow' (by omega) ((Nat.div_lt_iff_lt_mul hd).mpr hn)
      omega
  have hround : ∀ k, (2 * k + 1) * (d * ulp n d) < 2 * n → (k + 1) * ulp n d ≤ nearest n d :=
    fun k hk => Nat.mul_le_mul_right _ (lt_roundDiv (Nat.mul_pos hd (ulp_pos n d)) hk)
  have hpos := ulp_pos n d
  -- the step of `n / d` divides that of `2 ^ e`
  obtain ⟨i, hi⟩ : ∃ i, 2 ^ e = 2 ^ i * ulp n d :=
    ⟨e - (Nat.log 2 (n / d) + 1 - 53), by unfold ulp; rw [← pow_add]; congr 1; omega⟩
  have hi1 : 1 ≤ 2 ^ i := Nat.one_le_two_pow
  have hstep := hround (a * 2 ^ i) (by
    calc (2 * (a * 2 ^ i) + 1) * (d * ulp n d)
        ≤ (2 * (a * 2 ^ i) + 2 ^ i) * (d * ulp n d) := Nat.mul_le_mul_right _ (by omega)
      _ = (2 * a + 1) * 2 ^ e * d := by rw [hi]; ring
      _ < 2 * n := h)
  calc a * 2 ^ e = a * 2 ^ i * ulp n d := by rw [hi]; ring
    _ < (a * 2 ^ i + 1) * ulp n d := Nat.mul_lt_mul_of_pos_right (by omega) hpos
    _ ≤ nearest n d := hstep

/-- Half a step above an even number of steps, the nearest number is below. -/
theorem nearest_tie {z e : ℕ} (hlow : 2 ^ 52 ≤ z) (hhigh : z < 2 ^ 53) (heven : z % 2 = 0) :
    nearest ((2 * z + 1) * 2 ^ e) 1 = 2 * z * 2 ^ e := by
  have hpos : 0 < 2 ^ e := Nat.two_pow_pos e
  have hlog : Nat.log 2 ((2 * z + 1) * 2 ^ e) = 53 + e := by
    apply Nat.log_eq_of_pow_le_of_lt_pow
    · rw [pow_add]
      exact Nat.mul_le_mul_right _ (by omega)
    · rw [show 53 + e + 1 = 54 + e by omega, pow_add]
      exact Nat.mul_lt_mul_of_pos_right (by omega) hpos
  have hulp : ulp ((2 * z + 1) * 2 ^ e) 1 = 2 * 2 ^ e := by
    unfold ulp
    rw [Nat.div_one, hlog, show 53 + e + 1 - 53 = e + 1 by omega, pow_succ, mul_comm]
  have hsplit : (2 * z + 1) * 2 ^ e = 2 ^ e + 2 * 2 ^ e * z := by ring
  have hlt : 2 ^ e < 2 * 2 ^ e := by omega
  have hquot : (2 * z + 1) * 2 ^ e / (2 * 2 ^ e) = z := by
    rw [hsplit, Nat.add_mul_div_left _ _ (by omega), Nat.div_eq_of_lt hlt, zero_add]
  have hrem : (2 * z + 1) * 2 ^ e % (2 * 2 ^ e) = 2 ^ e := by
    rw [hsplit, Nat.add_mul_mod_self_left, Nat.mod_eq_of_lt hlt]
  have hround : roundDiv ((2 * z + 1) * 2 ^ e) (2 * 2 ^ e) = z := by
    unfold roundDiv
    rw [hquot, hrem, if_neg (lt_irrefl _), if_neg (lt_irrefl _), heven, add_zero]
  unfold nearest
  rw [hulp, one_mul, hround]
  ring

end Binary64

namespace Float64

open Binary64

/-! ### Bounds -/

/-- The number is `r` units at most. -/
def AtMost (x : Float64) (r : ℤ) : Prop := x = infinite true ∨ ∃ f, x = finite f ∧ signed f ≤ r

/-- The number is `r` units at least. -/
def AtLeast (x : Float64) (r : ℤ) : Prop := x = infinite false ∨ ∃ f, x = finite f ∧ r ≤ signed f

/-- The number is this integer. -/
def Is (x : Float64) (i : ℤ) : Prop := ∃ f, x = finite f ∧ signed f = i * one

theorem unit_pos : 0 < one := by
  unfold one
  apply Nat.pow_pos
  decide

/-- The unit is 512 steps of the numbers from 2^43 on. -/
theorem unit_eq : one = 512 * 2 ^ 1065 := by
  unfold one
  rw [show 512 = 2 ^ 9 from rfl, ← pow_add]

/-- What is not negative is its magnitude. -/
theorem signed_eq_units {f : FiniteFloat64} (h : 0 ≤ signed f) : signed f = f.units := by
  unfold signed at h ⊢
  split
  · rename_i hneg
    rw [if_pos hneg] at h
    omega
  · rfl

/-- `-x` -/
def neg : Float64 → Float64
  | nan => nan
  | infinite a => infinite !a
  | finite x => finite { x with negative := !x.negative }

/-- `x - y` -/
def sub (x y : Float64) : Float64 := add x (neg y)

variable {x y : Float64} {r s : ℤ} {i j : ℤ}

/-- A number is an integer if it is not below it and not above it. -/
theorem is_iff : x.Is i ↔ x.AtLeast (i * one) ∧ x.AtMost (i * one) := by
  constructor
  · rintro ⟨f, rfl, hf⟩
    exact ⟨.inr ⟨f, rfl, hf.ge⟩, .inr ⟨f, rfl, hf.le⟩⟩
  · rintro ⟨rfl | ⟨f, rfl, hlow⟩, h | ⟨g, h, hhigh⟩⟩
    · cases h
    · cases h
    · cases h
    · cases h
      exact ⟨f, rfl, le_antisymm hhigh hlow⟩

/-- A number is one integer at most. -/
theorem Is.unique (hi : x.Is i) (hj : x.Is j) : i = j := by
  obtain ⟨f, rfl, hf⟩ := hi
  obtain ⟨g, hfg, hg⟩ := hj
  cases hfg
  exact mul_right_cancel₀ (Int.natCast_ne_zero.mpr unit_pos.ne') (hf.symm.trans hg)

theorem signed_neg (f : FiniteFloat64) :
    signed { f with negative := !f.negative } = -signed f := by
  unfold signed
  cases f.negative
  · rfl
  · simp

/-- Negation turns a bound from below into one from above. -/
theorem atMost_neg (h : x.AtLeast r) : (neg x).AtMost (-r) := by
  obtain rfl | ⟨f, rfl, hf⟩ := h
  · exact .inl rfl
  · exact .inr ⟨_, rfl, by rw [signed_neg]; exact neg_le_neg hf⟩

theorem atLeast_neg (h : x.AtMost r) : (neg x).AtLeast (-r) := by
  obtain rfl | ⟨f, rfl, hf⟩ := h
  · exact .inl rfl
  · exact .inr ⟨_, rfl, by rw [signed_neg]; exact neg_le_neg hf⟩

theorem Is.neg (h : x.Is i) : (neg x).Is (-i) := by
  obtain ⟨f, rfl, hf⟩ := h
  exact ⟨_, rfl, by rw [signed_neg, hf, neg_mul]⟩

/-! ### Rounded results -/

/-- A rounded quotient that is not negative. -/
theorem atLeast_ofRatio {r n d : ℕ} (hr : Representable r) (hd : 0 < d) (h : r * d ≤ n) :
    (ofRatio false n d).AtLeast r := by
  unfold ofRatio
  split
  · exact .inr ⟨_, rfl, Int.ofNat_le.mpr (le_nearest hr hd h)⟩
  · exact .inl rfl

/-- A quotient that is not above a finite number is not rounded above it. -/
theorem atMost_ofRatio {r n d : ℕ} (hr : Representable r) (hmax : r ≤ maxUnits) (hd : 0 < d)
    (h : n ≤ r * d) : (ofRatio false n d).AtMost r := by
  have hlt : n < overflow * d :=
    h.trans_lt (Nat.mul_lt_mul_of_pos_right (hmax.trans_lt maxUnits_lt_overflow) hd)
  unfold ofRatio
  rw [dif_pos hlt]
  exact .inr ⟨_, rfl, Int.ofNat_le.mpr (nearest_le_of_le hr hd h)⟩

theorem ofRatio_not (negative : Bool) (n d : ℕ) :
    ofRatio (!negative) n d = neg (ofRatio negative n d) := by
  unfold ofRatio
  split
  · rfl
  · rfl

/-- A smaller bound holds, too. -/
theorem AtLeast.mono (h : x.AtLeast r) (hs : s ≤ r) : x.AtLeast s := by
  obtain rfl | ⟨f, rfl, hf⟩ := h
  · exact .inl rfl
  · exact .inr ⟨f, rfl, hs.trans hf⟩

/-- A rounded integer of units: its sign is that of the integer, unless that is zero. -/
theorem atLeast_round {negative : Bool} (hsign : s ≠ 0 → negative = decide (s < 0))
    (hr : Representable r.natAbs) (hmax : r.natAbs ≤ maxUnits) (h : r ≤ s) :
    (ofRatio negative s.natAbs 1).AtLeast r := by
  have hzero : Representable 0 := ⟨0, 0, Nat.zero_le _, rfl⟩
  rcases lt_trichotomy s 0 with hs | rfl | hs
  · -- negative: the magnitude is bounded from above
    rw [hsign hs.ne, decide_eq_true hs]
    have hhigh := atMost_ofRatio (n := s.natAbs) hr hmax one_pos (by omega)
    have hlow := atLeast_neg hhigh
    rw [← ofRatio_not, Bool.not_false] at hlow
    exact hlow.mono (by omega)
  · -- a zero of either sign
    rw [Int.natAbs_zero]
    have hlow : (ofRatio false 0 1).AtLeast (0 : ℕ) :=
      atLeast_ofRatio hzero one_pos (Nat.zero_mul 1).le
    have hhigh : (ofRatio false 0 1).AtMost (0 : ℕ) :=
      atMost_ofRatio hzero (Nat.zero_le _) one_pos (Nat.zero_le _)
    cases negative with
    | false => exact hlow.mono h
    | true =>
      have hneg := atLeast_neg hhigh
      rw [← ofRatio_not, Bool.not_false] at hneg
      exact hneg.mono h
  · -- positive: a bound below zero is no matter
    rw [hsign hs.ne', decide_eq_false hs.le.not_gt]
    rcases le_total r 0 with hneg | hpos
    · have hlow := atLeast_ofRatio (n := s.natAbs) hzero one_pos (by omega)
      exact hlow.mono hneg
    · have hlow := atLeast_ofRatio (n := s.natAbs) hr one_pos (by omega)
      exact hlow.mono (by omega)

/-- The bound from above, by negation. -/
theorem atMost_round {negative : Bool} (hsign : s ≠ 0 → negative = decide (s < 0))
    (hr : Representable r.natAbs) (hmax : r.natAbs ≤ maxUnits) (h : s ≤ r) :
    (ofRatio negative s.natAbs 1).AtMost r := by
  have hlow : (ofRatio (!negative) (-s).natAbs 1).AtLeast (-r) := by
    apply atLeast_round
    · intro hs
      rw [hsign (by omega)]
      rcases lt_or_gt_of_ne (neg_ne_zero.mp hs) with hlt | hgt
      · rw [decide_eq_true hlt, decide_eq_false (by omega), Bool.not_true]
      · rw [decide_eq_false hgt.le.not_gt, decide_eq_true (by omega), Bool.not_false]
    · rwa [Int.natAbs_neg]
    · rwa [Int.natAbs_neg]
    · exact neg_le_neg h
  have hhigh := atMost_neg hlow
  rwa [← ofRatio_not, Bool.not_not, Int.natAbs_neg, neg_neg] at hhigh

/-! ### Operations -/

/-- A sum of bounds, if it has 53 bits, is a bound on the rounded sum. -/
theorem add_atLeast {p q : ℤ} (hx : x.AtLeast p) (hy : y.AtLeast q) (hr : Representable r.natAbs)
    (hmax : r.natAbs ≤ maxUnits) (h : r ≤ p + q) : (add x y).AtLeast r := by
  obtain rfl | ⟨f, rfl, hf⟩ := hx
  · obtain rfl | ⟨g, rfl, hg⟩ := hy
    · exact .inl rfl
    · exact .inl rfl
  · -- both are finite, and the sum is rounded
    obtain rfl | ⟨g, rfl, hg⟩ := hy
    · exact .inl rfl
    · refine atLeast_round ?_ hr hmax (h.trans (add_le_add hf hg))
      intro hs
      rw [if_neg hs]

theorem add_atMost {p q : ℤ} (hx : x.AtMost p) (hy : y.AtMost q) (hr : Representable r.natAbs)
    (hmax : r.natAbs ≤ maxUnits) (h : p + q ≤ r) : (add x y).AtMost r := by
  obtain rfl | ⟨f, rfl, hf⟩ := hx
  · obtain rfl | ⟨g, rfl, hg⟩ := hy
    · exact .inl rfl
    · exact .inl rfl
  · obtain rfl | ⟨g, rfl, hg⟩ := hy
    · exact .inl rfl
    · refine atMost_round ?_ hr hmax ((add_le_add hf hg).trans h)
      intro hs
      rw [if_neg hs]

theorem natAbs_signed_mul (f : FiniteFloat64) (n : ℕ) : (signed f * n).natAbs = f.units * n := by
  have hf : (signed f).natAbs = f.units := by
    unfold signed
    split
    · rw [Int.natAbs_neg, Int.natAbs_natCast]
    · exact Int.natAbs_natCast _
  rw [Int.natAbs_mul, hf, Int.natAbs_natCast]

theorem sign_signed_mul (f : FiniteFloat64) (n : ℕ) (h : signed f * n ≠ 0) :
    f.negative = decide (signed f * n < 0) := by
  obtain ⟨hf, hn⟩ := mul_ne_zero_iff.mp h
  have hn' : (0 : ℤ) < n := by omega
  unfold signed at hf ⊢
  split at hf
  · rename_i hneg
    rw [if_pos hneg, hneg]
    exact (decide_eq_true (mul_neg_of_neg_of_pos (by omega) hn')).symm
  · rename_i hneg
    rw [if_neg hneg, Bool.eq_false_iff.mpr hneg]
    exact (decide_eq_false (not_lt.mpr (by positivity))).symm

/-- So is a multiple of a bound on the rounded multiple. -/
theorem mulNat_atLeast {p : ℤ} {n : ℕ} (hn : 0 < n) (hx : x.AtLeast p)
    (hr : Representable r.natAbs) (hmax : r.natAbs ≤ maxUnits) (h : r ≤ p * n) :
    (mulNat x n).AtLeast r := by
  obtain rfl | ⟨f, rfl, hf⟩ := hx
  · exact .inl (if_neg hn.ne')
  · show (ofRatio f.negative (f.units * n) 1).AtLeast r
    rw [← natAbs_signed_mul]
    exact atLeast_round (sign_signed_mul f n) hr hmax
      (h.trans (Int.mul_le_mul_of_nonneg_right hf (Int.natCast_nonneg n)))

theorem mulNat_atMost {p : ℤ} {n : ℕ} (hn : 0 < n) (hx : x.AtMost p)
    (hr : Representable r.natAbs) (hmax : r.natAbs ≤ maxUnits) (h : p * n ≤ r) :
    (mulNat x n).AtMost r := by
  obtain rfl | ⟨f, rfl, hf⟩ := hx
  · exact .inl (if_neg hn.ne')
  · show (ofRatio f.negative (f.units * n) 1).AtMost r
    rw [← natAbs_signed_mul]
    exact atMost_round (sign_signed_mul f n) hr hmax
      ((Int.mul_le_mul_of_nonneg_right hf (Int.natCast_nonneg n)).trans h)

/-! ### Integers -/

/-- An integer of 53 bits has 53 bits in units, too. -/
theorem representable_mul_unit {n : ℕ} (h : n ≤ 2 ^ 53) : Representable (n * one) :=
  ⟨n, 1074, h, by unfold one; rfl⟩

theorem representable_two_pow_mul_unit (k : ℕ) : Representable (2 ^ k * one) :=
  ⟨1, k + 1074, by decide, by unfold one; rw [pow_add, one_mul]⟩

/-- The integer is a number: it has 53 bits, and is not too large. -/
def IntRepresentable (i : ℤ) : Prop := ∃ a k, a ≤ 2 ^ 53 ∧ k ≤ 64 ∧ i.natAbs = a * 2 ^ k

/-- An integer up to 2^53 is a number. -/
theorem intRepresentable_of_le {i : ℤ} (h : i.natAbs ≤ 2 ^ 53) : IntRepresentable i :=
  ⟨i.natAbs, 0, h, Nat.zero_le _, (mul_one _).symm⟩

theorem two_pow_mul_le {a b c : ℕ} (h : a + b ≤ c) : 2 ^ a * 2 ^ b ≤ 2 ^ c := by
  rw [← pow_add]
  exact Nat.pow_le_pow_right (by decide) h

/-- In units, such an integer has 53 bits and is finite. -/
theorem IntRepresentable.units {i : ℤ} (h : IntRepresentable i) :
    Representable (i * one).natAbs ∧ (i * one).natAbs ≤ maxUnits := by
  obtain ⟨a, k, ha, hk, hi⟩ := h
  rw [Int.natAbs_mul, hi, Int.natAbs_natCast]
  refine ⟨⟨a, k + 1074, ha, by unfold one; rw [mul_assoc, ← pow_add]⟩, ?_⟩
  have hone : 2 ^ 64 * one ≤ halfStep := by
    unfold one halfStep
    exact two_pow_mul_le (by decide)
  calc a * 2 ^ k * one ≤ 2 ^ 53 * 2 ^ 64 * one :=
        Nat.mul_le_mul_right _ (Nat.mul_le_mul ha (Nat.pow_le_pow_right (by decide) hk))
    _ ≤ maxUnits := by
        unfold maxUnits maxSignificand
        generalize one = o at hone ⊢
        generalize halfStep = step at hone ⊢
        omega

theorem IntRepresentable.mul_unit_le {n : ℕ} (h : IntRepresentable n) : n * one ≤ maxUnits := by
  have hmax := h.units.2
  rwa [Int.natAbs_mul, Int.natAbs_natCast, Int.natAbs_natCast] at hmax

/-- Such an integer is converted to itself. -/
theorem is_ofInt (h : IntRepresentable i) : (ofInt i).Is i := by
  obtain ⟨hr, hmax⟩ := h.units
  have hsign : i * one ≠ 0 → decide (i < 0) = decide (i * one < 0) := by
    intro _
    have hone : (0 : ℤ) < one := Int.natCast_pos.mpr unit_pos
    rw [decide_eq_decide]
    constructor
    · intro hi
      exact mul_neg_of_neg_of_pos hi hone
    · intro hi
      exact neg_of_mul_neg_left hi hone.le
  have habs : (i * one).natAbs = i.natAbs * one := by rw [Int.natAbs_mul, Int.natAbs_natCast]
  unfold ofInt
  rw [← habs]
  exact is_iff.mpr ⟨atLeast_round hsign hr hmax le_rfl, atMost_round hsign hr hmax le_rfl⟩

/-- Integers are added exactly, if the sum is a number. -/
theorem Is.add (hx : x.Is i) (hy : y.Is j) (h : IntRepresentable (i + j)) :
    (add x y).Is (i + j) := by
  obtain ⟨hr, hmax⟩ := h.units
  obtain ⟨hx, hx'⟩ := is_iff.mp hx
  obtain ⟨hy, hy'⟩ := is_iff.mp hy
  exact is_iff.mpr ⟨add_atLeast hx hy hr hmax (add_mul _ _ _).le,
    add_atMost hx' hy' hr hmax (add_mul _ _ _).ge⟩

/-- They are multiplied exactly, if the product is a number. -/
theorem Is.mulNat {n : ℕ} (hn : 0 < n) (hx : x.Is i) (h : IntRepresentable (i * n)) :
    (mulNat x n).Is (i * n) := by
  obtain ⟨hr, hmax⟩ := h.units
  obtain ⟨hx, hx'⟩ := is_iff.mp hx
  have hcomm : i * n * one = i * one * n := mul_right_comm _ _ _
  exact is_iff.mpr ⟨mulNat_atLeast hn hx hr hmax hcomm.le,
    mulNat_atMost hn hx' hr hmax hcomm.ge⟩

/-- A sum of integers half a step above an even number of steps. -/
theorem Is.add_tie {z : ℕ} (hx : x.Is i) (hy : y.Is j) (hsum : i + j = 2 * z + 1)
    (hlow : 2 ^ 52 ≤ z) (hhigh : z < 2 ^ 53) (heven : z % 2 = 0) :
    (Float64.add x y).Is (2 * z) := by
  obtain ⟨f, rfl, hf⟩ := hx
  obtain ⟨g, rfl, hg⟩ := hy
  have hunits : signed f + signed g = ((2 * z + 1) * one : ℕ) := by
    rw [hf, hg, ← add_mul, hsum]
    norm_cast
  have hpos : 0 < (2 * z + 1) * one := Nat.mul_pos (Nat.succ_pos _) unit_pos
  have hmax : (2 * z + 1) * one < overflow * 1 := by
    have hrep : IntRepresentable ((2 * (z + 1) : ℕ) : ℤ) :=
      ⟨z + 1, 1, hhigh, by decide, by rw [Int.natAbs_natCast]; omega⟩
    rw [mul_one]
    exact ((Nat.mul_le_mul_right one (by omega)).trans hrep.mul_unit_le).trans_lt
      maxUnits_lt_overflow
  have htie : nearest ((2 * z + 1) * one) 1 = 2 * z * one := nearest_tie hlow hhigh heven
  refine ⟨⟨false, nearest ((2 * z + 1) * one) 1, nearest_le hmax⟩, ?_, ?_⟩
  · show ofRatio (if signed f + signed g = 0 then _ else _) (signed f + signed g).natAbs 1 = _
    rw [hunits, if_neg (by exact_mod_cast hpos.ne'), Int.natAbs_natCast,
      decide_eq_false (Int.natCast_nonneg _).not_gt]
    exact dif_pos hmax
  · show ((nearest ((2 * z + 1) * one) 1 : ℕ) : ℤ) = _
    rw [htie]
    push_cast
    rfl

/-- The quotient of a number that is not negative. -/
theorem divNat_eq {f : FiniteFloat64} {n : ℕ} (hn : 0 < n) (hpos : 0 ≤ signed f) :
    ∃ g, divNat (finite f) n = finite g ∧ signed g = nearest f.units n := by
  have hlt : f.units < overflow * n :=
    (f.bound.trans_lt maxUnits_lt_overflow).trans_le (Nat.le_mul_of_pos_right _ hn)
  refine ⟨⟨f.negative, nearest f.units n, nearest_le hlt⟩, ?_, ?_⟩
  · show (if n = 0 then _ else ofRatio f.negative f.units n : Float64) = _
    rw [if_neg hn.ne']
    exact dif_pos hlt
  · unfold signed at hpos ⊢
    split
    · -- a zero with a sign
      rename_i hneg
      rw [if_pos hneg] at hpos
      have hzero : nearest f.units n ≤ 0 :=
        nearest_le_of_le ⟨0, 0, Nat.zero_le _, rfl⟩ hn (by omega)
      show -((nearest f.units n : ℕ) : ℤ) = (nearest f.units n : ℕ)
      rw [Nat.le_zero.mp hzero]
      rfl
    · rfl

/-- A natural number below 2^63, rounded. -/
theorem ofNat_eq {n : ℕ} (h : n < 2 ^ 63) :
    ∃ f, ofNat n = finite f ∧ signed f = nearest (n * one) 1 := by
  have hrep : IntRepresentable ((2 ^ 63 : ℕ) : ℤ) := ⟨1, 63, by decide, by decide, rfl⟩
  have hlt : n * one < overflow * 1 := by
    rw [mul_one]
    calc n * one ≤ 2 ^ 63 * one := Nat.mul_le_mul_right one h.le
      _ ≤ maxUnits := hrep.mul_unit_le
      _ < overflow := maxUnits_lt_overflow
  refine ⟨⟨false, nearest (n * one) 1, nearest_le hlt⟩, ?_, ?_⟩
  · unfold ofNat ofRatio
    exact dif_pos hlt
  · unfold signed
    exact if_neg Bool.false_ne_true

end Float64
