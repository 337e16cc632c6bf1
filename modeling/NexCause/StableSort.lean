/-
NexCause/StableSort.lean

Stable sorting of a list whose elements are distinct.  `Before r xs a b` says
that `a` comes before `b` in the sorted list: the relation puts it there, or it
allows both orders and the list has that one.

Main results: the first `n` elements of the sorted list are those with fewer
than `n` before them (`mem_take_insertionSort`), and two sorts, the one of a
list and cut off, the other of some of its elements, agree exactly if the cut
takes those elements and the relations agree on them
(`take_insertionSort_eq_iff`).
-/
import Mathlib.Data.List.Sort

namespace StableSort

open scoped List

variable {α : Type}

/-! ### The order of a list -/

/-- Of two elements of a list, one stands before the other. -/
theorem pair_sublist_or {xs : List α} {a b : α} (ha : a ∈ xs) (hb : b ∈ xs) (hne : a ≠ b) :
    [a, b] <+ xs ∨ [b, a] <+ xs := by
  induction xs with
  | nil => cases ha
  | cons x xs ih =>
    rcases List.mem_cons.mp ha with rfl | ha'
    · have hb' : b ∈ xs := (List.mem_cons.mp hb).resolve_left hne.symm
      exact .inl ((List.singleton_sublist.mpr hb').cons_cons _)
    · rcases List.mem_cons.mp hb with rfl | hb'
      · exact .inr ((List.singleton_sublist.mpr ha').cons_cons _)
      · exact (ih ha' hb').imp (fun h => h.cons _) fun h => h.cons _

/-- If they are distinct, not both. -/
theorem not_pair_sublist {xs : List α} (hxs : xs.Nodup) {a b : α} (hab : [a, b] <+ xs) :
    ¬ [b, a] <+ xs := by
  induction hxs with
  | nil => exact absurd hab (by simp)
  | @cons x xs hx hxs ih =>
    intro hba
    rcases List.sublist_cons_iff.mp hab with hab' | ⟨rest, hrest, hb⟩
    · rcases List.sublist_cons_iff.mp hba with hba' | ⟨rest, hrest, ha⟩
      · exact ih hab' hba'
      · obtain ⟨rfl, rfl⟩ := List.cons.inj hrest
        exact hx _ (hab'.subset (List.mem_cons_of_mem _ List.mem_cons_self)) rfl
    · obtain ⟨rfl, rfl⟩ := List.cons.inj hrest
      rcases List.sublist_cons_iff.mp hba with hba' | ⟨rest, hrest, ha⟩
      · exact hx _ (hba'.subset (List.mem_cons_of_mem _ List.mem_cons_self)) rfl
      · obtain ⟨rfl, rfl⟩ := List.cons.inj hrest
        exact hx _ (ha.subset List.mem_cons_self) rfl

/-- Where a list is ordered, an element is among the first `n` exactly if
fewer than `n` come before it. -/
theorem mem_take_iff {R : α → α → Prop} [DecidableRel R] (hasymm : ∀ a b, R a b → ¬ R b a)
    {xs : List α} (hxs : xs.Pairwise R) {a : α} (ha : a ∈ xs) (n : ℕ) :
    a ∈ xs.take n ↔ (xs.filter fun b => R b a).length < n := by
  induction xs generalizing n with
  | nil => cases ha
  | cons x xs ih =>
    obtain ⟨hx, hxs⟩ := List.pairwise_cons.mp hxs
    have hirrefl : ∀ a, ¬ R a a := fun a h => hasymm a a h h
    cases n with
    | zero => simp
    | succ n =>
      rw [List.take_succ_cons, List.mem_cons]
      rcases List.mem_cons.mp ha with rfl | ha'
      · -- nothing comes before the first element
        have hnone : (a :: xs).filter (fun b => R b a) = [] := by
          rw [List.filter_eq_nil_iff]
          intro b hb
          rw [decide_eq_true_eq]
          rcases List.mem_cons.mp hb with rfl | hb
          · exact hirrefl _
          · exact hasymm _ _ (hx b hb)
        rw [hnone]
        simp
      · have hne : a ≠ x := by
          rintro rfl
          exact hirrefl _ (hx _ ha')
        have hfirst : (x :: xs).filter (fun b => R b a) = x :: xs.filter fun b => R b a :=
          List.filter_cons_of_pos (decide_eq_true (hx a ha'))
        rw [hfirst, List.length_cons, Nat.add_lt_add_iff_right, ← ih hxs ha']
        exact or_iff_right hne

/-! ### The order of a stable sort -/

/-- `a` comes before `b` when the list is sorted. -/
def Before (r : α → α → Prop) (xs : List α) (a b : α) : Prop :=
  ([a, b] <+ xs ∧ r a b) ∨ ([b, a] <+ xs ∧ ¬ r b a)

instance [DecidableEq α] {r : α → α → Prop} [DecidableRel r] {xs : List α} :
    DecidableRel (Before r xs) := fun a b =>
  inferInstanceAs (Decidable (([a, b] <+ xs ∧ r a b) ∨ ([b, a] <+ xs ∧ ¬ r b a)))

variable {r s : α → α → Prop} {xs : List α}

theorem Before.asymm (hxs : xs.Nodup) (a b : α) (h : Before r xs a b) : ¬ Before r xs b a := by
  intro h'
  rcases h with ⟨hab, hr⟩ | ⟨hba, hr⟩
  · rcases h' with ⟨hba, -⟩ | ⟨-, hr'⟩
    · exact not_pair_sublist hxs hab hba
    · exact hr' hr
  · rcases h' with ⟨-, hr'⟩ | ⟨hab, -⟩
    · exact hr hr'
    · exact not_pair_sublist hxs hab hba

/-- Two relations that agree on a list put the elements of a part of it into the
same order. -/
theorem Before.congr {ys : List α} (hys : ys <+ xs) (hagree : ∀ a b, [a, b] <+ ys → (r a b ↔ s a b))
    {a b : α} (h : Before s ys a b) : Before r xs a b := by
  rcases h with ⟨hab, hs⟩ | ⟨hba, hs⟩
  · exact .inl ⟨hab.trans hys, (hagree a b hab).mpr hs⟩
  · exact .inr ⟨hba.trans hys, fun hr => hs ((hagree b a hba).mp hr)⟩

variable [DecidableRel r] [DecidableRel s]

section Total

variable [Std.Total r] [IsTrans α r]

/-- In a sorted list, what comes before stands before. -/
theorem pairwise_before (hxs : xs.Nodup) : (xs.insertionSort r).Pairwise (Before r xs) := by
  rw [List.pairwise_iff_forall_sublist]
  intro a b hab
  have hr : r a b := List.pairwise_iff_forall_sublist.mp (List.pairwise_insertionSort r xs) hab
  have hnodup : (xs.insertionSort r).Nodup := (List.perm_insertionSort r xs).nodup_iff.mpr hxs
  have hmem : ∀ c ∈ [a, b], c ∈ xs := fun c hc =>
    (List.mem_insertionSort r).mp (hab.subset hc)
  have hne : a ≠ b := by
    rintro rfl
    exact not_pair_sublist hnodup hab hab
  rcases pair_sublist_or (hmem a (by simp)) (hmem b (by simp)) hne with h | h
  · exact .inl ⟨h, hr⟩
  · -- if the relation allowed the other order, the sort would have kept it
    exact .inr ⟨h, fun hba => not_pair_sublist hnodup hab (List.pair_sublist_insertionSort hba h)⟩

/-- How many elements come before one. -/
def rank [DecidableEq α] (r : α → α → Prop) [DecidableRel r] (xs : List α) (a : α) : ℕ :=
  (xs.filter fun b => Before r xs b a).length

/-- The first elements of a sorted list. -/
theorem mem_take_insertionSort [DecidableEq α] (hxs : xs.Nodup) {a : α} (ha : a ∈ xs) (n : ℕ) :
    a ∈ (xs.insertionSort r).take n ↔ rank r xs a < n := by
  have hperm := (List.perm_insertionSort r xs).filter fun b => Before r xs b a
  rw [mem_take_iff (Before.asymm hxs) (pairwise_before hxs) ((List.mem_insertionSort r).mpr ha) n,
    hperm.length_eq]
  rfl

theorem rank_lt [DecidableEq α] (hxs : xs.Nodup) {a : α} (ha : a ∈ xs) :
    rank r xs a < xs.length := by
  rw [← mem_take_insertionSort hxs ha, List.take_of_length_le (List.length_insertionSort r xs).le,
    List.mem_insertionSort]
  exact ha

variable [Std.Total s] [IsTrans α s]

/-- **Two sorts.**  The first `n` elements of a sorted list are some of its
elements, sorted by another relation, exactly if these are the elements with
fewer than `n` before them and the relations agree on them. -/
theorem take_insertionSort_eq_iff [DecidableEq α] (hxs : xs.Nodup) (p : α → Bool) (n : ℕ) :
    (xs.insertionSort r).take n = (xs.filter p).insertionSort s ↔
      (∀ a ∈ xs, p a = true ↔ rank r xs a < n) ∧
        ∀ a b, [a, b] <+ xs.filter p → (r a b ↔ s a b) := by
  have hpart : xs.filter p <+ xs := List.filter_sublist
  have hys : (xs.filter p).Nodup := hxs.sublist hpart
  constructor
  · intro heq
    have hmem : ∀ a ∈ xs, p a = true ↔ rank r xs a < n := by
      intro a ha
      rw [← mem_take_insertionSort hxs ha, heq, List.mem_insertionSort, List.mem_filter]
      exact (and_iff_right ha).symm
    refine ⟨hmem, fun a b hab => ?_⟩
    -- both orders of the pair are read off the one list
    have hr : ((xs.insertionSort r).take n).Pairwise (Before r xs) :=
      (pairwise_before hxs).sublist (List.take_sublist _ _)
    have hs : ((xs.insertionSort r).take n).Pairwise (Before s (xs.filter p)) :=
      heq ▸ pairwise_before hys
    have hin : ∀ c ∈ [a, b], c ∈ (xs.insertionSort r).take n := by
      intro c hc
      rw [heq, List.mem_insertionSort]
      exact hab.subset hc
    have hne : a ≠ b := by
      rintro rfl
      exact not_pair_sublist hys hab hab
    have hnot : ¬ [b, a] <+ xs := not_pair_sublist hxs (hab.trans hpart)
    rcases pair_sublist_or (hin a (by simp)) (hin b (by simp)) hne with h | h
    · have hra := List.pairwise_iff_forall_sublist.mp hr h
      have hsa := List.pairwise_iff_forall_sublist.mp hs h
      exact iff_of_true (hra.resolve_right fun h => hnot h.1).2
        (hsa.resolve_right fun h => hnot (h.1.trans hpart)).2
    · have hrb := List.pairwise_iff_forall_sublist.mp hr h
      have hsb := List.pairwise_iff_forall_sublist.mp hs h
      exact iff_of_false (hrb.resolve_left fun h => hnot h.1).2
        (hsb.resolve_left fun h => hnot (h.1.trans hpart)).2
  · rintro ⟨hmem, hagree⟩
    have hperm : ((xs.insertionSort r).take n).Perm ((xs.filter p).insertionSort s) := by
      refine (List.perm_ext_iff_of_nodup ?_ ?_).mpr fun a => ?_
      · exact ((List.perm_insertionSort r xs).nodup_iff.mpr hxs).sublist (List.take_sublist _ _)
      · exact (List.perm_insertionSort s _).nodup_iff.mpr hys
      · rw [List.mem_insertionSort, List.mem_filter]
        constructor
        · intro h
          have ha : a ∈ xs := (List.mem_insertionSort r).mp (List.mem_of_mem_take h)
          exact ⟨ha, (hmem a ha).mpr ((mem_take_insertionSort hxs ha n).mp h)⟩
        · rintro ⟨ha, hp⟩
          exact (mem_take_insertionSort hxs ha n).mpr ((hmem a ha).mp hp)
    have hantisymm : ∀ a b, a ∈ (xs.insertionSort r).take n → b ∈ (xs.filter p).insertionSort s →
        Before r xs a b → Before r xs b a → a = b :=
      fun a b _ _ h h' => absurd h' (Before.asymm hxs a b h)
    apply List.Perm.eq_of_pairwise hantisymm _ _ hperm
    · exact (pairwise_before hxs).sublist (List.take_sublist _ _)
    · exact (pairwise_before hys).imp (Before.congr hpart hagree)

end Total

/-! ### The order as it is -/

/-- Every order is as good as any other. -/
def anyOrder (_ _ : α) : Prop := True

instance : DecidableRel (anyOrder : α → α → Prop) := fun _ _ => .isTrue trivial

instance : Std.Total (anyOrder : α → α → Prop) := ⟨fun _ _ => .inl trivial⟩

instance : IsTrans α anyOrder := ⟨fun _ _ _ _ _ => trivial⟩

/-- Sorting then changes nothing. -/
theorem insertionSort_anyOrder (xs : List α) : xs.insertionSort anyOrder = xs := by
  induction xs with
  | nil => rfl
  | cons x xs ih =>
    rw [List.insertionSort_cons, ih]
    cases xs with
    | nil => rfl
    | cons y ys => rfl

/-- The first `n` elements are some of the elements exactly if these are the ones
with fewer than `n` before them. -/
theorem take_eq_filter_iff [DecidableEq α] (hxs : xs.Nodup) (p : α → Bool) (n : ℕ) :
    xs.take n = xs.filter p ↔ ∀ a ∈ xs, p a = true ↔ rank anyOrder xs a < n := by
  have hsort := take_insertionSort_eq_iff (r := anyOrder) (s := anyOrder) hxs p n
  rw [insertionSort_anyOrder, insertionSort_anyOrder] at hsort
  rw [hsort]
  exact and_iff_left fun _ _ _ => Iff.rfl

end StableSort
