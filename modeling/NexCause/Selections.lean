/-
NexCause/Selections.lean

The newest elements of a list, and rows that are sorted by a coarse time.

A stable sort by a key leaves the elements of each key as they stood
(`filter_insertionSort`), and a sorted list is determined by these
(`eq_of_filter_eq`).  Two selections of the newest elements that show the same
rows show them at the same times (`Newest.perm_views`).

Main results: the sorted rows of a selection are those of newest elements in
order exactly if the selection can be put in order without moving a row past
one of the same coarse time (`sorted_rows_iff`); a list can be put in order and
read as it stands exactly if its rows with its times in order are its rows with
their own times (`exists_sorted_iff`).
-/
import Mathlib.Data.List.Perm.Basic
import Mathlib.Data.List.Sort

namespace Selection

variable {α ρ κ : Type} [LinearOrder κ]

/-! ### Sorting by a key -/

theorem filter_orderedInsert (key : α → κ) (t : κ) (x : α) (xs : List α) :
    (xs.orderedInsert (fun a b => key a ≤ key b) x).filter (key · = t) =
      (x :: xs).filter (key · = t) := by
  induction xs with
  | nil => rfl
  | cons y ys ih =>
    rw [List.orderedInsert_cons]
    split
    · rfl
    · -- `x` goes behind `y`, which has a smaller key
      rename_i hlt
      have hne : key y ≠ key x := (not_le.mp hlt).ne
      by_cases hx : key x = t
      · have hy : key y ≠ t := fun h => hne (h.trans hx.symm)
        simp only [List.filter_cons, ih, hx, hy, decide_true, decide_false, if_true,
          Bool.false_eq_true, if_false]
      · simp only [List.filter_cons, ih, hx, decide_false, Bool.false_eq_true, if_false]

/-- A stable sort leaves the elements of a key as they stood. -/
theorem filter_insertionSort (key : α → κ) (t : κ) (xs : List α) :
    (xs.insertionSort fun a b => key a ≤ key b).filter (key · = t) = xs.filter (key · = t) := by
  induction xs with
  | nil => rfl
  | cons x xs ih =>
    rw [List.insertionSort_cons, filter_orderedInsert, List.filter_cons, List.filter_cons, ih]

/-- A sorted list is determined by the elements of each key. -/
theorem eq_of_filter_eq (key : α → κ) {xs ys : List α}
    (hxs : xs.Pairwise fun a b => key a ≤ key b) (hys : ys.Pairwise fun a b => key a ≤ key b)
    (h : ∀ t, xs.filter (key · = t) = ys.filter (key · = t)) : xs = ys := by
  have hmem : ∀ a, a ∈ xs ↔ a ∈ ys := by
    intro a
    have hfilter := congrArg (a ∈ ·) (h (key a))
    simpa [List.mem_filter] using hfilter
  induction xs generalizing ys with
  | nil =>
    symm
    rw [List.eq_nil_iff_forall_not_mem]
    intro a ha
    exact absurd ((hmem a).mpr ha) List.not_mem_nil
  | cons x xs ih =>
    cases ys with
    | nil => exact absurd ((hmem x).mp List.mem_cons_self) List.not_mem_nil
    | cons y ys =>
      obtain ⟨hx, hxs'⟩ := List.pairwise_cons.mp hxs
      obtain ⟨hy, hys'⟩ := List.pairwise_cons.mp hys
      -- both heads have the least key
      have hkey : key x = key y := by
        apply le_antisymm
        · rcases List.mem_cons.mp ((hmem y).mpr List.mem_cons_self) with rfl | hyx
          · exact le_refl _
          · exact hx y hyx
        · rcases List.mem_cons.mp ((hmem x).mp List.mem_cons_self) with rfl | hxy
          · exact le_refl _
          · exact hy x hxy
      have hhead := h (key x)
      rw [List.filter_cons_of_pos (by simp), List.filter_cons_of_pos (by simp [hkey])] at hhead
      -- and of those with this key they come first
      obtain rfl : x = y := (List.cons.inj hhead).1
      have htail : ∀ t, xs.filter (key · = t) = ys.filter (key · = t) := by
        intro t
        have ht := h t
        by_cases hxt : key x = t
        · rw [List.filter_cons_of_pos (by simpa using hxt),
            List.filter_cons_of_pos (by simpa using hxt)] at ht
          exact (List.cons.inj ht).2
        · rwa [List.filter_cons_of_neg (by simpa using hxt),
            List.filter_cons_of_neg (by simpa using hxt)] at ht
      rw [ih hxs' hys' htail]
      intro a
      have hfilter := congrArg (a ∈ ·) (htail (key a))
      simpa [List.mem_filter] using hfilter

/-! ### The newest elements -/

/-- `ys` are `k` of the newest elements of `xs`, or all if there are fewer. -/
def Newest (time : α → ℕ) (xs : List α) (k : ℕ) (ys : List α) : Prop :=
  ys.length = min k xs.length ∧
    ∃ rest, (ys ++ rest).Perm xs ∧ ∀ a ∈ ys, ∀ b ∈ rest, time b ≤ time a

variable {time : α → ℕ} {xs ys zs : List α} {k : ℕ}

theorem Newest.perm (h : Newest time xs k ys) (hperm : ys.Perm zs) : Newest time xs k zs := by
  obtain ⟨hlength, rest, hxs, hrest⟩ := h
  exact ⟨hperm.length_eq ▸ hlength, rest, (hperm.symm.append_right rest).trans hxs,
    fun a ha => hrest a (hperm.mem_iff.mpr ha)⟩

/-- Of the newest elements some are selected: they are the newest of these, if they are enough. -/
theorem Newest.filter (h : Newest time xs k ys) (p : α → Bool)
    (hlength : (ys.filter p).length = min k (xs.filter p).length) :
    Newest time (xs.filter p) k (ys.filter p) := by
  obtain ⟨-, rest, hxs, hrest⟩ := h
  refine ⟨hlength, rest.filter p, ?_, ?_⟩
  · rw [← List.filter_append]
    exact hxs.filter p
  · intro a ha b hb
    exact hrest a (List.mem_of_mem_filter ha) b (List.mem_of_mem_filter hb)

/-- Of the newest elements enough are selected exactly if all are, or all that could be are among
them. -/
theorem Newest.enough_iff (h : Newest time xs k ys) (p : α → Bool) :
    (ys.filter p).length = min k (xs.filter p).length ↔
      (∀ a ∈ ys, p a = true) ∨ (ys.filter p).length = (xs.filter p).length := by
  obtain ⟨hlength, rest, hxs, -⟩ := h
  have htotal := hxs.length_eq
  have hselected := (hxs.filter p).length_eq
  rw [List.length_append] at htotal
  rw [List.filter_append, List.length_append] at hselected
  have hall : (∀ a ∈ ys, p a = true) ↔ (ys.filter p).length = ys.length :=
    List.length_filter_eq_length_iff.symm
  have hys := List.length_filter_le p ys
  have hrest := List.length_filter_le p rest
  rw [hall]
  omega

/-- The times of a selection begin at a time from which on all elements are selected. -/
theorem Newest.threshold (h : Newest time xs k ys) (hne : ys ≠ []) :
    ∃ t, (∃ y ∈ ys, time y = t) ∧ (∀ y ∈ ys, t ≤ time y) ∧
      (ys.filter fun y => t < time y).Perm (xs.filter fun x => t < time x) := by
  obtain ⟨-, rest, hxs, hrest⟩ := h
  obtain ⟨y, hy⟩ := List.exists_mem_of_ne_nil ys hne
  have hex : ∃ t, ∃ y ∈ ys, time y = t := ⟨_, y, hy, rfl⟩
  classical
  refine ⟨Nat.find hex, Nat.find_spec hex, fun y hy => Nat.find_min' hex ⟨y, hy, rfl⟩, ?_⟩
  obtain ⟨y, hy, heq⟩ := Nat.find_spec hex
  have hnone : rest.filter (fun b => Nat.find hex < time b) = [] := by
    rw [List.filter_eq_nil_iff]
    intro b hb
    rw [decide_eq_true_eq, not_lt, ← heq]
    exact hrest y hy b hb
  have hfilter := hxs.filter fun x => Nat.find hex < time x
  rwa [List.filter_append, hnone, List.append_nil] at hfilter

/-- Two selections begin at the same time. -/
theorem threshold_le {s t : ℕ} (hlength : ys.length = zs.length) (hys : ∃ y ∈ ys, time y = s)
    (hzs : ∀ z ∈ zs, t ≤ time z)
    (hsx : (ys.filter fun y => s < time y).Perm (xs.filter fun x => s < time x))
    (hzx : ∃ rest, (zs ++ rest).Perm xs) : t ≤ s := by
  by_contra hlt
  obtain ⟨y, hy, hys⟩ := hys
  obtain ⟨rest, hzx⟩ := hzx
  have hall : zs.filter (fun z => s < time z) = zs := by
    rw [List.filter_eq_self]
    intro z hz
    exact decide_eq_true ((not_le.mp hlt).trans_le (hzs z hz))
  have hfilter := (hzx.filter fun x => s < time x).length_eq
  rw [List.filter_append, hall, List.length_append, ← hsx.length_eq] at hfilter
  -- but `y` is not among those after `s`
  have hless : (ys.filter fun y => s < time y).length < ys.length := by
    rw [List.length_filter_lt_length_iff_exists]
    exact ⟨y, hy, by rw [decide_eq_true_eq, hys]; exact lt_irrefl s⟩
  omega

/-- Two selections that show the same rows show them at the same times. -/
theorem Newest.perm_views (hys : Newest time xs k ys) (hzs : Newest time xs k zs) {row : α → ρ}
    (hrows : (ys.map row).Perm (zs.map row)) :
    (ys.map fun a => (time a, row a)).Perm (zs.map fun a => (time a, row a)) := by
  have hlength : ys.length = zs.length := hys.1.trans hzs.1.symm
  by_cases hnil : ys = []
  · subst hnil
    obtain rfl := List.length_eq_zero_iff.mp hlength.symm
    exact .refl _
  · have hnil' : zs ≠ [] := by
      rintro rfl
      exact hnil (List.length_eq_zero_iff.mp hlength)
    obtain ⟨s, hs, hsys, hsx⟩ := hys.threshold hnil
    obtain ⟨t, ht, htzs, htx⟩ := hzs.threshold hnil'
    obtain ⟨-, rest, hyx, -⟩ := hys
    obtain ⟨-, rest', hzx, -⟩ := hzs
    obtain rfl : s = t := le_antisymm (threshold_le hlength.symm ht hsys htx ⟨rest, hyx⟩)
      (threshold_le hlength hs htzs hsx ⟨rest', hzx⟩)
    have hafter := hsx.trans htx.symm
    have hsplit : ∀ l : List α,
        (l.filter (fun a => s < time a) ++ l.filter fun a => !decide (s < time a)).Perm l :=
      fun l => List.filter_append_perm _ l
    -- the rows at the time `s` are those that remain
    have hat : ((ys.filter fun a => !decide (s < time a)).map row).Perm
        ((zs.filter fun a => !decide (s < time a)).map row) := by
      have h := (((hsplit ys).map row).trans hrows).trans ((hsplit zs).map row).symm
      rw [List.map_append, List.map_append] at h
      exact (List.perm_append_left_iff _).mp
        (((hafter.map row).symm.append_right _).trans h)
    have hviews : ∀ l : List α, (∀ a ∈ l, s ≤ time a) →
        (l.filter fun a => !decide (s < time a)).map (fun a => (time a, row a)) =
          ((l.filter fun a => !decide (s < time a)).map row).map fun r => (s, r) := by
      intro l hl
      rw [List.map_map]
      refine List.map_congr_left fun a ha => ?_
      obtain ⟨ha, hnot⟩ := List.mem_filter.mp ha
      have hle : time a ≤ s := by simpa using hnot
      show (time a, row a) = (s, row a)
      rw [le_antisymm hle (hl a ha)]
    have hjoin := (hafter.map fun a => (time a, row a)).append
      ((hviews ys hsys ▸ (hat.map fun r => (s, r)) : List.Perm _ _).trans
        (List.Perm.of_eq (hviews zs htzs).symm))
    rw [← List.map_append, ← List.map_append] at hjoin
    exact (((hsplit ys).map _).symm.trans hjoin).trans ((hsplit zs).map _)

/-! ### Rows in order -/

/-- The elements can be put in order without moving a row past one of the same coarse time. -/
def ReadsInOrder (time : α → ℕ) (row : α → ρ) (coarse : ρ → κ) (xs : List α) : Prop :=
  ∃ p : List α, p.Perm xs ∧ p.Pairwise (fun a b => time a ≤ time b) ∧
    ∀ t, (p.map row).filter (coarse · = t) = (xs.map row).filter (coarse · = t)

/-- **The rows of a selection, sorted by a coarse time.** -/
theorem sorted_rows_iff {row : α → ρ} {coarse : ρ → κ}
    (hmono : ∀ a b, time a ≤ time b → coarse (row a) ≤ coarse (row b))
    (hselected : Newest time xs k ys) :
    (∃ es, Newest time xs k es ∧ es.Pairwise (fun a b => time a ≤ time b) ∧
        es.map row = (ys.map row).insertionSort fun a b => coarse a ≤ coarse b) ↔
      ReadsInOrder time row coarse ys := by
  constructor
  · rintro ⟨es, hes, hsorted, hrows⟩
    have hperm : (es.map row).Perm (ys.map row) := by
      rw [hrows]
      exact List.perm_insertionSort _ _
    -- the selection in the order of `es`
    obtain ⟨p, hviews, hp⟩ : ∃ p : List α, es.map (fun a => (time a, row a)) =
        p.map (fun a => (time a, row a)) ∧ p.Perm ys :=
      (congrFun (congrFun (List.eq_map_comp_perm fun a => (time a, row a)) _) _).mpr
        (hes.perm_views hselected hperm)
    have hrows' : es.map row = p.map row := by
      have h := congrArg (List.map Prod.snd) hviews
      rwa [List.map_map, List.map_map] at h
    refine ⟨p, hp, ?_, ?_⟩
    · have h : (es.map fun a => (time a, row a)).Pairwise fun v w => v.1 ≤ w.1 :=
        List.pairwise_map.mpr hsorted
      rw [hviews] at h
      have hpairs := List.pairwise_map.mp h
      exact hpairs
    · intro t
      rw [← hrows', hrows, filter_insertionSort]
  · rintro ⟨p, hp, hsorted, hclasses⟩
    refine ⟨p, hselected.perm hp.symm, hsorted, ?_⟩
    apply eq_of_filter_eq coarse
    · rw [List.pairwise_map]
      exact hsorted.imp fun h => hmono _ _ h
    · exact List.pairwise_insertionSort _ _
    · intro t
      rw [hclasses t, filter_insertionSort]

/-! ### Rows that stand as they are -/

/-- The rows as they stand, with the times in order, are the rows with their own times. -/
def ReadsByTime (time : α → ℕ) (row : α → ρ) (xs : List α) : Prop :=
  (((xs.map time).insertionSort (· ≤ ·)).zip (xs.map row)).Perm (xs.map fun a => (time a, row a))

instance [DecidableEq ρ] (time : α → ℕ) (row : α → ρ) (xs : List α) :
    Decidable (ReadsByTime time row xs) := inferInstanceAs (Decidable (List.Perm _ _))

/-- **A list that reads in order as it stands.** -/
theorem exists_sorted_iff {row : α → ρ} :
    (∃ p : List α, p.Perm xs ∧ p.Pairwise (fun a b => time a ≤ time b) ∧
        p.map row = xs.map row) ↔ ReadsByTime time row xs := by
  unfold ReadsByTime
  constructor
  · rintro ⟨p, hp, hsorted, hrows⟩
    have htimes : p.map time = (xs.map time).insertionSort (· ≤ ·) :=
      ((hp.map time).trans (List.perm_insertionSort _ _).symm).eq_of_pairwise'
        (List.pairwise_map.mpr hsorted) (List.pairwise_insertionSort _ _)
    rw [← htimes, ← hrows, List.zip_map']
    exact hp.map _
  · intro hviews
    -- the rows with the times in order are those of a rearrangement
    obtain ⟨p, hzip, hp⟩ : ∃ p : List α, ((xs.map time).insertionSort (· ≤ ·)).zip (xs.map row) =
        p.map (fun a => (time a, row a)) ∧ p.Perm xs :=
      (congrFun (congrFun (List.eq_map_comp_perm fun a => (time a, row a)) _) _).mpr hviews
    have hlength : ((xs.map time).insertionSort (· ≤ ·)).length = (xs.map row).length := by
      rw [List.length_insertionSort, List.length_map, List.length_map]
    have htimes := congrArg (List.map Prod.fst) hzip
    have hrows := congrArg (List.map Prod.snd) hzip
    rw [List.map_fst_zip hlength.le, List.map_map] at htimes
    rw [List.map_snd_zip hlength.ge, List.map_map] at hrows
    refine ⟨p, hp, ?_, hrows.symm⟩
    have hsorted : (p.map time).Pairwise (· ≤ ·) :=
      htimes ▸ List.pairwise_insertionSort (· ≤ ·) (xs.map time)
    exact List.pairwise_map.mp hsorted

/-- Rows that differ read in order exactly if they are in order. -/
theorem readsByTime_iff_sorted {row : α → ρ} (hdiffer : (xs.map row).Nodup) :
    ReadsByTime time row xs ↔ xs.Pairwise fun a b => time a ≤ time b := by
  rw [← exists_sorted_iff]
  constructor
  · rintro ⟨p, hp, hsorted, hrows⟩
    have hinj := List.inj_on_of_nodup_map hdiffer
    obtain rfl : p = xs := by
      apply List.ext_getElem hp.length_eq
      intro i hi hi'
      apply hinj (hp.mem_iff.mp (List.getElem_mem hi)) (List.getElem_mem hi')
      have hrow := List.getElem_of_eq hrows (i := i) (by rwa [List.length_map])
      rwa [List.getElem_map, List.getElem_map] at hrow
    exact hsorted
  · intro hsorted
    exact ⟨xs, .refl _, hsorted, rfl⟩

end Selection
