/-
NexCause/Stretches.lean

The stretch of a schedule between two of its labels: from the first label that
begins it to the next one that ends it, and what one more label does to it.
-/
import Mathlib.Data.List.TakeWhile

namespace Transition

variable {α : Type} (p q : α → Bool)

/-- What comes after the first entry with `p`. -/
def afterFirst (xs : List α) : List α := (xs.dropWhile (!p ·)).drop 1

/-- What comes after the first entry with `p`, up to the next one with `q`. -/
def stretch (xs : List α) : List α := (afterFirst p xs).takeWhile (!q ·)

variable {p q} {xs : List α} {x : α}

theorem afterFirst_none (h : ∀ y ∈ xs, p y = false) : afterFirst p xs = [] := by
  have hall : xs.dropWhile (!p ·) = [] := by
    rw [List.dropWhile_eq_nil_iff]
    intro y hy
    simp [h y hy]
  unfold afterFirst
  rw [hall]
  rfl

/-- The entry that begins a stretch is not part of it. -/
theorem afterFirst_first (h : ∀ y ∈ xs, p y = false) : afterFirst p (xs ++ [x]) = [] := by
  have hall : xs.dropWhile (!p ·) = [] := by
    rw [List.dropWhile_eq_nil_iff]
    intro y hy
    simp [h y hy]
  unfold afterFirst
  rw [List.dropWhile_append, hall]
  cases hx : p x <;> simp [List.dropWhile, hx]

theorem afterFirst_later (h : ∃ y ∈ xs, p y = true) :
    afterFirst p (xs ++ [x]) = afterFirst p xs ++ [x] := by
  obtain ⟨y, hy, hpy⟩ := h
  have hne : xs.dropWhile (!p ·) ≠ [] := by
    intro hnil
    have hnot := List.dropWhile_eq_nil_iff.mp hnil y hy
    simp [hpy] at hnot
  unfold afterFirst
  rw [List.dropWhile_append, if_neg (by simpa using hne)]
  cases hd : xs.dropWhile (!p ·) with
  | nil => exact absurd hd hne
  | cons z zs => rfl

theorem stretch_none (h : ∀ y ∈ xs, p y = false) : stretch p q xs = [] := by
  unfold stretch
  rw [afterFirst_none h]
  rfl

theorem stretch_first (h : ∀ y ∈ xs, p y = false) : stretch p q (xs ++ [x]) = [] := by
  unfold stretch
  rw [afterFirst_first h]
  rfl

/-- A stretch that has not ended yet. -/
theorem stretch_open (h : ∃ y ∈ xs, p y = true) (hq : ∀ y ∈ afterFirst p xs, q y = false) :
    stretch p q (xs ++ [x]) = stretch p q xs ++ if q x then [] else [x] := by
  have hall : ∀ y ∈ afterFirst p xs, (!q y) = true := by
    intro y hy
    simp [hq y hy]
  unfold stretch
  rw [afterFirst_later h, List.takeWhile_append_of_pos hall, List.takeWhile_eq_self_iff.mpr hall]
  cases hx : q x <;> simp [hx]

/-- A stretch that has ended. -/
theorem stretch_over (h : ∃ y ∈ xs, p y = true) (hq : ∃ y ∈ afterFirst p xs, q y = true) :
    stretch p q (xs ++ [x]) = stretch p q xs := by
  obtain ⟨y, hy, hqy⟩ := hq
  have hne : ((afterFirst p xs).takeWhile (!q ·)).length ≠ (afterFirst p xs).length := by
    intro hlen
    have hself := (List.takeWhile_prefix (!q ·)).eq_of_length hlen
    have hnot := List.takeWhile_eq_self_iff.mp hself y hy
    simp [hqy] at hnot
  unfold stretch
  rw [afterFirst_later h, List.takeWhile_append, if_neg hne]

end Transition
