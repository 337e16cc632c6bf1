/-
NexCause/Tallies.lean

Tallies: lists of counts, each under a key.  Two tallies are compared key by key,
which tells what the second has gained and what it has lost.

Main result: the sum of the second is greater than that of the first exactly if
more was gained than lost (`sum_lt_sum_iff`).
-/
import Mathlib

namespace Tally

variable {κ : Type} [DecidableEq κ]

/-- What the entries of a key come to. -/
def total (xs : List (κ × ℕ)) (k : κ) : ℕ := ((xs.filter fun x => x.1 = k).map Prod.snd).sum

/-- The keys of two tallies. -/
def keysOf (xs ys : List (κ × ℕ)) : Finset κ := ((xs ++ ys).map Prod.fst).toFinset

/-- What the second tally has more than the first, key by key. -/
def gained (xs ys : List (κ × ℕ)) : ℕ := ∑ k ∈ keysOf xs ys, (total ys k - total xs k)

/-- What the second tally has less than the first, key by key. -/
def lost (xs ys : List (κ × ℕ)) : ℕ := ∑ k ∈ keysOf xs ys, (total xs k - total ys k)

theorem total_cons (x : κ × ℕ) (xs : List (κ × ℕ)) (k : κ) :
    total (x :: xs) k = (if k = x.1 then x.2 else 0) + total xs k := by
  unfold total
  by_cases h : x.1 = k
  · simp [h]
  · simp [h, Ne.symm h]

/-- A sum is the sum of the totals of its keys. -/
theorem sum_eq_sum_total (xs : List (κ × ℕ)) {s : Finset κ} (h : ∀ x ∈ xs, x.1 ∈ s) :
    (xs.map Prod.snd).sum = ∑ k ∈ s, total xs k := by
  induction xs with
  | nil => simp [total]
  | cons x xs ih =>
    obtain ⟨hx, hxs⟩ := List.forall_mem_cons.mp h
    simp only [total_cons]
    rw [List.map_cons, List.sum_cons, Finset.sum_add_distrib, Finset.sum_ite_eq' s x.1, if_pos hx,
      ih hxs]

/-- The second sum and what is lost is the first sum and what is gained. -/
theorem sum_add_lost (xs ys : List (κ × ℕ)) :
    (ys.map Prod.snd).sum + lost xs ys = (xs.map Prod.snd).sum + gained xs ys := by
  have hxs : ∀ x ∈ xs, x.1 ∈ keysOf xs ys := by
    intro x hx
    exact List.mem_toFinset.mpr (List.mem_map_of_mem (List.mem_append_left _ hx))
  have hys : ∀ y ∈ ys, y.1 ∈ keysOf xs ys := by
    intro y hy
    exact List.mem_toFinset.mpr (List.mem_map_of_mem (List.mem_append_right _ hy))
  rw [sum_eq_sum_total xs hxs, sum_eq_sum_total ys hys, lost, gained, ← Finset.sum_add_distrib,
    ← Finset.sum_add_distrib]
  refine Finset.sum_congr rfl fun k _ => ?_
  omega

theorem sum_lt_sum_iff (xs ys : List (κ × ℕ)) :
    (xs.map Prod.snd).sum < (ys.map Prod.snd).sum ↔ lost xs ys < gained xs ys := by
  have h := sum_add_lost xs ys
  omega

end Tally
