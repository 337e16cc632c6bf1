/-
NexCause/MetricRanks.lean

The statistics of a metric series (`calculateStats` and `percentile`): their
ranks.

Over the rationals nothing is rounded, and the statistics are what their names
say (`Exact.calculateStats_spec`): the 95th percentile is the item of the rank
that is nearest from above.  In binary64 the average is rounded, but the minimum,
the maximum and the percentile still have the same ranks (`calculateStats_ranks`):
the rank comes out right although 0.95 is not a binary64 number.
-/
import Mathlib
import NexCause.Float64Bounds
import NexCause.Preprocess
import NexCause.Ranks

namespace NexCause.Preprocess

open Ranks

/-! ### Over the rationals -/

namespace Exact

/-- `xs[i]`; an index out of bounds panics. -/
def index (xs : List ℚ) (i : ℤ) : Option ℚ := if i < 0 then none else xs[i.toNat]?

/-- `percentile` -/
def percentile (sorted : List ℚ) (p : ℚ) : Option ℚ :=
  if sorted.length = 0 then some 0
  else
    let i : ℤ := ⌈p * sorted.length⌉ - 1
    let i := if i < 0 then 0 else i
    let i := if sorted.length ≤ i then (sorted.length : ℤ) - 1 else i
    index sorted i

structure Stats where
  min : ℚ
  max : ℚ
  avg : ℚ
  p95 : ℚ

/-- `calculateStats` -/
def calculateStats (values : List ℚ) : Option Stats := do
  let sorted := values.insertionSort (· ≤ ·)
  let sum := sorted.foldl (· + ·) 0
  let min ← index sorted 0
  let max ← index sorted (sorted.length - 1)
  let p95 ← percentile sorted (95 / 100)
  return { min, max, avg := sum / sorted.length, p95 }

/-- The number of items that are 95 percent of `n`, rounded up. -/
def rank (n : ℕ) : ℕ := ⌈(95 / 100 : ℚ) * n⌉₊

variable {values values' : List ℚ} {n : ℕ}

theorem rank_pos (h : 0 < n) : 0 < rank n := by
  have hn : (0 : ℚ) < n := by exact_mod_cast h
  exact Nat.ceil_pos.mpr (by linarith)

theorem rank_le (n : ℕ) : rank n ≤ n := by
  have hn : (0 : ℚ) ≤ n := by positivity
  exact Nat.ceil_le.mpr (by linarith)

theorem index_natCast (xs : List ℚ) (i : ℕ) : index xs i = xs[i]? := by
  simp [index]

/-- The rank is at hand, and neither bound of the index matters. -/
theorem percentile_eq {sorted : List ℚ} (h : 0 < sorted.length) :
    percentile sorted (95 / 100) = sorted[rank sorted.length - 1]? := by
  have hpos := rank_pos h
  have hle := rank_le sorted.length
  have hceil : ⌈(95 / 100 : ℚ) * sorted.length⌉ = (rank sorted.length : ℤ) := by
    have hn : (0 : ℚ) ≤ 95 / 100 * sorted.length := by positivity
    exact (Int.natCast_ceil_eq_ceil hn).symm
  unfold percentile
  rw [if_neg (by omega), hceil]
  have hindex : (rank sorted.length : ℤ) - 1 = (rank sorted.length - 1 : ℕ) := by omega
  simp only [hindex]
  rw [if_neg (by omega), if_neg (by omega), index_natCast]

/-- The statistics are those that their names say. -/
structure NearestRank (values : List ℚ) (s : Stats) : Prop where
  min : IsLeast {v | v ∈ values} s.min
  max : IsGreatest {v | v ∈ values} s.max
  avg : s.min ≤ s.avg ∧ s.avg ≤ s.max
  p95_bounds : s.min ≤ s.p95 ∧ s.p95 ≤ s.max
  p95_mem : s.p95 ∈ values
  p95_enough : (95 / 100 : ℚ) * values.length ≤ values.countP (· ≤ s.p95)
  p95_least : ∀ v ∈ values, v < s.p95 →
    (values.countP (· ≤ v) : ℚ) < 95 / 100 * values.length

/-- The items of the ranks, and the mean. -/
structure Ranked (values : List ℚ) (s : Stats) : Prop where
  min : HasRank values 1 s.min
  max : HasRank values values.length s.max
  p95 : HasRank values (rank values.length) s.p95
  avg : s.avg = values.sum / values.length

/-- Every index is in bounds. -/
theorem calculateStats_ranked (h : values ≠ []) :
    ∃ s, calculateStats values = some s ∧ Ranked values s := by
  let sorted := values.insertionSort (· ≤ ·)
  have hperm : sorted.Perm values := List.perm_insertionSort _ _
  have hsorted : sorted.Pairwise (· ≤ ·) := List.pairwise_insertionSort _ _
  have hlength : sorted.length = values.length := hperm.length_eq
  have hpos : 0 < values.length := List.length_pos_of_ne_nil h
  have hsum : sorted.foldl (· + ·) 0 = values.sum := by
    rw [← List.sum_eq_foldl]
    exact hperm.sum_eq
  obtain ⟨min, hmin, hminRank⟩ := exists_hasRank hsorted hperm Nat.one_pos hpos
  obtain ⟨max, hmax, hmaxRank⟩ := exists_hasRank hsorted hperm hpos le_rfl
  obtain ⟨p95, hp95, hp95Rank⟩ := exists_hasRank hsorted hperm (rank_pos hpos) (rank_le _)
  have hfirst : index sorted 0 = some min := (index_natCast sorted 0).trans hmin
  have hlast : index sorted (sorted.length - 1) = some max := by
    have hcast : (sorted.length : ℤ) - 1 = (values.length - 1 : ℕ) := by omega
    rw [hcast, index_natCast, hmax]
  have hpercentile : percentile sorted (95 / 100) = some p95 := by
    rw [percentile_eq (hlength ▸ hpos), hlength, hp95]
  refine ⟨{ min, max, avg := values.sum / values.length, p95 }, ?_,
    { min := hminRank, max := hmaxRank, p95 := hp95Rank, avg := rfl }⟩
  have hstats : calculateStats values = (index sorted 0).bind fun min =>
      (index sorted (sorted.length - 1)).bind fun max =>
        (percentile sorted (95 / 100)).bind fun p95 =>
          some { min, max, avg := sorted.foldl (· + ·) 0 / sorted.length, p95 } := rfl
  rw [hstats, hfirst, hlast, hpercentile, hsum, hlength]
  rfl

theorem calculateStats_perm (h : values'.Perm values) :
    calculateStats values' = calculateStats values := by
  have hsorted : values'.insertionSort (· ≤ ·) = values.insertionSort (· ≤ ·) := by
    apply List.Perm.eq_of_pairwise' (List.pairwise_insertionSort _ _)
      (List.pairwise_insertionSort _ _)
    exact (List.perm_insertionSort _ _).trans (h.trans (List.perm_insertionSort _ _).symm)
  unfold calculateStats
  rw [hsorted]

/-- The mean lies between the least and the greatest value. -/
theorem Ranked.avg_bounds {s : Stats} (h : Ranked values s) : s.min ≤ s.avg ∧ s.avg ≤ s.max := by
  have hn : (0 : ℚ) < values.length := by
    exact_mod_cast List.length_pos_of_mem h.min.mem
  have hlow := List.card_nsmul_le_sum values s.min h.min.isLeast.2
  have hhigh := List.sum_le_card_nsmul values s.max h.max.isGreatest.2
  rw [nsmul_eq_mul] at hlow hhigh
  rw [h.avg, le_div_iff₀ hn, div_le_iff₀ hn]
  constructor
  · linarith
  · linarith

/-- At least 95 percent are at most as large as the percentile, and fewer as
large as a smaller item. -/
theorem Ranked.nearestRank {s : Stats} (h : Ranked values s) : NearestRank values s where
  min := h.min.isLeast
  max := h.max.isGreatest
  avg := h.avg_bounds
  p95_bounds := ⟨h.min.isLeast.2 h.p95.mem, h.max.isGreatest.2 h.p95.mem⟩
  p95_mem := h.p95.mem
  p95_enough := Nat.ceil_le.mp h.p95.le_atMost
  p95_least := fun v _ hv => Nat.lt_ceil.mp (h.p95.atMost_lt v hv)

/-- **The statistics over the rationals.**  There are some for every list that is
not empty, they are the nearest-rank ones, and the order of the list does not
matter. -/
theorem calculateStats_spec (h : values ≠ []) :
    ∃ s, calculateStats values = some s ∧ NearestRank values s ∧
      ∀ values', values'.Perm values → calculateStats values' = some s := by
  obtain ⟨s, hs, hranked⟩ := calculateStats_ranked h
  refine ⟨s, hs, hranked.nearestRank, ?_⟩
  intro values' hperm
  exact (calculateStats_perm hperm).trans hs

theorem spike_stats : ([1, 2, 10] : List ℚ) ≠ [] ∧ ∃ s, calculateStats [1, 2, 10] = some s ∧
    NearestRank [1, 2, 10] s ∧
      ∀ values', values'.Perm [1, 2, 10] → calculateStats values' = some s :=
  ⟨List.cons_ne_nil _ _, calculateStats_spec (List.cons_ne_nil _ _)⟩

end Exact

/-! ### In binary64 -/

open Binary64 Float64

/-- The significand of 0.95: a little less than 0.95. -/
def significand : ℕ := 8556839292003942

theorem nearest_p95 : nearest (95 * one) 100 = significand * 2 ^ 1021 := by
  have hlog : Nat.log 2 (95 * one / 100) = 1073 := by
    rw [Nat.log_eq_iff (.inl (by decide))]
    decide +kernel
  unfold nearest ulp
  rw [hlog]
  decide +kernel

theorem ofRatio_of_lt {negative : Bool} {n d : ℕ} (h : n < overflow * d) :
    ofRatio negative n d = finite ⟨negative, nearest n d, nearest_le h⟩ := by
  unfold ofRatio
  rw [dif_pos h]

theorem p95_units :
    ∃ f, p95 = finite f ∧ f.negative = false ∧ f.units = significand * 2 ^ 1021 := by
  have hlt : 95 * one < overflow * 100 := by decide +kernel
  exact ⟨_, ofRatio_of_lt hlt, rfl, nearest_p95⟩

/-- A product below the limit, rounded up to an integer. -/
theorem ceil_eq_of_bounds {f : FiniteFloat64} {m : ℕ} (hlow : (m - 1) * one < f.units)
    (hhigh : f.units ≤ m * one) (hm : 0 < m) : ceil (finite f) = m := by
  have hone := unit_pos
  show (f.units + (one - 1)) / one = m
  rw [Nat.div_eq_iff hone]
  have hsplit : m * one = (m - 1) * one + one := by
    rw [Nat.sub_mul, Nat.one_mul, Nat.sub_add_cancel (Nat.le_mul_of_pos_left _ hm)]
  omega

/-- **The rank comes out right**: what the significand is below 0.95 is less than
what keeps 95 percent of `n` from the integers. -/
theorem ceil_mulNat_p95 {n : ℕ} (hpos : 0 < n) (hlt : n < 2 ^ 40) :
    (p95.mulNat n).ceil = Exact.rank n := by
  obtain ⟨f, hf, hnegative, hunits⟩ := p95_units
  have hm := Exact.rank_pos hpos
  have hmn := Exact.rank_le n
  -- twenty ranks are nineteen items, rounded up
  have hup : 19 * n ≤ 20 * Exact.rank n := by
    have hceil : (95 / 100 : ℚ) * n ≤ Exact.rank n := Nat.le_ceil _
    have hscaled : (19 * n : ℚ) ≤ 20 * Exact.rank n := by linarith
    exact_mod_cast hscaled
  have hdown : 20 * (Exact.rank n - 1) < 19 * n := by
    have hceil : ((Exact.rank n - 1 : ℕ) : ℚ) < (95 / 100 : ℚ) * n := Nat.lt_ceil.mp (by
      show Exact.rank n - 1 < Exact.rank n
      omega)
    have hscaled : (20 * (Exact.rank n - 1 : ℕ) : ℚ) < 19 * n := by linarith
    exact_mod_cast hscaled
  generalize Exact.rank n = m at hm hmn hup hdown ⊢
  -- in units: the product is at most the rank, and well above the integer before it
  have hone : one = 2 ^ 53 * 2 ^ 1021 := by
    unfold one
    rw [← pow_add]
  have hstep : (2 : ℕ) ^ 1066 = 2 ^ 45 * 2 ^ 1021 := by rw [← pow_add]
  have hhigh : f.units * n ≤ m * one * 1 := by
    have hproduct : significand * n ≤ m * 2 ^ 53 := by
      unfold significand
      omega
    calc f.units * n = significand * n * 2 ^ 1021 := by rw [hunits, Nat.mul_right_comm]
      _ ≤ m * 2 ^ 53 * 2 ^ 1021 := Nat.mul_le_mul_right _ hproduct
      _ = m * one * 1 := by rw [hone, mul_one, mul_assoc]
  have hlow : ((m - 1) * 2 ^ 8 + 1) * 2 ^ 1066 * 1 ≤ f.units * n := by
    have hproduct : ((m - 1) * 2 ^ 8 + 1) * 2 ^ 45 ≤ significand * n := by
      unfold significand
      omega
    calc ((m - 1) * 2 ^ 8 + 1) * 2 ^ 1066 * 1 = ((m - 1) * 2 ^ 8 + 1) * 2 ^ 45 * 2 ^ 1021 := by
          rw [hstep, mul_one, mul_assoc]
      _ ≤ significand * n * 2 ^ 1021 := Nat.mul_le_mul_right _ hproduct
      _ = f.units * n := by rw [hunits, Nat.mul_right_comm]
  have hfinite : f.units * n < overflow * 1 := by
    have hmax := (intRepresentable_of_le (i := m) (by omega)).mul_unit_le
    have hover := maxUnits_lt_overflow
    omega
  have hproduct : p95.mulNat n =
      finite ⟨f.negative, nearest (f.units * n) 1, nearest_le hfinite⟩ := by
    rw [hf]
    exact ofRatio_of_lt hfinite
  rw [hproduct]
  apply ceil_eq_of_bounds _
    (nearest_le_of_le (representable_mul_unit (by omega)) Nat.one_pos hhigh) hm
  have hbelow := le_nearest (r := ((m - 1) * 2 ^ 8 + 1) * 2 ^ 1066)
    ⟨(m - 1) * 2 ^ 8 + 1, 1066, by omega, rfl⟩ Nat.one_pos hlow
  have hunit : one = 2 ^ 8 * 2 ^ 1066 := by
    unfold one
    rw [← pow_add]
  have hpow : 0 < 2 ^ 1066 := by positivity
  generalize 2 ^ 1066 = step at hbelow hunit hpow
  calc (m - 1) * one = (m - 1) * 2 ^ 8 * step := by rw [hunit, mul_assoc]
    _ < ((m - 1) * 2 ^ 8 + 1) * step := Nat.mul_lt_mul_of_pos_right (Nat.lt_succ_self _) hpow
    _ ≤ _ := hbelow

/-- Numbers are sorted by their values. -/
theorem sort_finite (fs : List FiniteFloat64) : sort (fs.map finite) =
    (fs.insertionSort fun x y => signed x ≤ signed y).map finite := by
  symm
  apply List.map_insertionSort
  intro x _ y _
  simp [sortsBefore, lt]

/-- **In binary64**, too, the minimum, the maximum and the percentile are values
of the series, and of the ranks that they should have. -/
theorem calculateStats_ranks {fs : List FiniteFloat64} (hne : fs ≠ []) (hlt : fs.length < 2 ^ 40) :
    ∃ min max p95, (calculateStats (fs.map finite)).min = finite min ∧
      (calculateStats (fs.map finite)).max = finite max ∧
      (calculateStats (fs.map finite)).p95 = finite p95 ∧
      HasRank (fs.map signed) 1 (signed min) ∧
      HasRank (fs.map signed) fs.length (signed max) ∧
      HasRank (fs.map signed) (Exact.rank fs.length) (signed p95) := by
  let sorted := fs.insertionSort fun x y => signed x ≤ signed y
  have hperm : (sorted.map signed).Perm (fs.map signed) := (List.perm_insertionSort _ _).map _
  have hsorted : (sorted.map signed).Pairwise (· ≤ ·) := by
    rw [List.pairwise_map]
    exact List.pairwise_insertionSort _ _
  have hlength : sorted.length = fs.length := List.length_insertionSort _ _
  have hpos : 0 < fs.length := List.length_pos_of_ne_nil hne
  have hle : ∀ k, k ≤ fs.length → k ≤ (fs.map signed).length := by
    intro k hk
    rwa [List.length_map]
  -- each place of the sorted list has its rank
  have hplace : ∀ k, 0 < k → k ≤ fs.length →
      ∃ f, sorted[k - 1]? = some f ∧ HasRank (fs.map signed) k (signed f) := by
    intro k hk hkn
    obtain ⟨x, hx, hrank⟩ := exists_hasRank hsorted hperm hk (hle k hkn)
    rw [List.getElem?_map, Option.map_eq_some_iff] at hx
    obtain ⟨f, hf, rfl⟩ := hx
    exact ⟨f, hf, hrank⟩
  have hsort : sort (fs.map finite) = sorted.map finite := sort_finite fs
  have hread : ∀ (i : ℕ) f, sorted[i]? = some f → (sorted.map finite)[i]? = some (finite f) := by
    intro i f hf
    rw [List.getElem?_map, hf]
    rfl
  obtain ⟨min, hmin, hminRank⟩ := hplace 1 Nat.one_pos hpos
  obtain ⟨max, hmax, hmaxRank⟩ := hplace fs.length hpos le_rfl
  obtain ⟨p, hp, hpRank⟩ := hplace _ (Exact.rank_pos hpos) (Exact.rank_le _)
  refine ⟨min, max, p, ?_, ?_, ?_, hminRank, hmaxRank, hpRank⟩
  · show (sort (fs.map finite)).headD zero = finite min
    rw [hsort, List.headD_eq_head?_getD, List.head?_eq_getElem?, hread _ _ hmin]
    rfl
  · show (sort (fs.map finite)).getLastD zero = finite max
    rw [hsort, List.getLastD_eq_getLast?, List.getLast?_eq_getElem?, List.length_map, hlength,
      hread _ _ hmax]
    rfl
  · -- the index comes out of a product that is rounded
    show percentile (sort (fs.map finite)) p95 = finite p
    have hrank := Exact.rank_pos hpos
    have hcount := Exact.rank_le fs.length
    rw [hsort]
    unfold percentile
    rw [List.length_map, hlength, if_neg (by omega), ceil_mulNat_p95 hpos hlt]
    show (sorted.map finite).getD (Min.min (Exact.rank fs.length - 1) (fs.length - 1)) zero = _
    rw [Nat.min_eq_left (by omega), List.getD_eq_getElem?_getD, hread _ _ hp]
    rfl

end NexCause.Preprocess
