/-
NexCause/Holes.lean

Texts with holes: pieces that are kept, and between them pieces that a mark takes
the place of.

What a text with its holes filled contains is in one of its blocks, or reads
across the edge of one (`infix_flatten_iff`).

Main result: a part that stood in a hole, and nowhere else, is read again exactly
if it reads across the edge of a mark (`Holed.infix_filled_iff`).  Without the
first and the last character of the mark it does not (`Holed.not_crosses`).
-/
import Mathlib.Data.List.Infix

/-- Pieces with a hole behind each of them, and a last piece. -/
structure Holed (α : Type) where
  parts : List (List α × List α)
  last : List α

namespace Holed

variable {α : Type} {xs ys hole mark : List α} {bs : List (List α)} {t : Holed α} {n : ℕ}

/-! ### Texts of blocks -/

/-- The text reads across an edge between two blocks. -/
def Crosses (xs : List α) (bs : List (List α)) : Prop :=
  ∃ front back, bs = front ++ back ∧ ∃ a b, a ≠ [] ∧ b ≠ [] ∧ xs = a ++ b ∧
    a <:+ front.flatten ∧ b <+: back.flatten

/-- A part of a text of blocks is in one of them, or reads across an edge. -/
theorem infix_flatten_iff (hxs : xs ≠ []) :
    xs <:+: bs.flatten ↔ (∃ b ∈ bs, xs <:+: b) ∨ Crosses xs bs := by
  constructor
  · induction bs with
    | nil =>
      intro h
      exact absurd (List.infix_nil.mp h) hxs
    | cons b bs ih =>
      intro h
      rw [List.flatten_cons, List.infix_append_iff_ne_nil] at h
      rcases h with h | h | ⟨x, y, hx, hy, hxy, hsuffix, hleads⟩
      · exact .inl ⟨b, List.mem_cons_self, h⟩
      · rcases ih h with ⟨b', hb', hin⟩ | ⟨front, back, rfl, x, y, hx, hy, hxy, hsuffix, hleads⟩
        · exact .inl ⟨b', List.mem_cons_of_mem b hb', hin⟩
        · refine .inr ⟨b :: front, back, rfl, x, y, hx, hy, hxy, ?_, hleads⟩
          rw [List.flatten_cons]
          exact hsuffix.trans (List.suffix_append _ _)
      · refine .inr ⟨[b], bs, rfl, x, y, hx, hy, hxy, ?_, hleads⟩
        rwa [List.flatten_singleton]
  · rintro (⟨b, hb, hin⟩ | ⟨front, back, rfl, x, y, -, -, rfl, ⟨before, hbefore⟩, ⟨after, hafter⟩⟩)
    · exact hin.trans (List.infix_of_mem_flatten hb)
    · refine ⟨before, after, ?_⟩
      rw [List.flatten_append, ← hbefore, ← hafter]
      simp only [List.append_assoc]

/-! ### Texts with holes -/

def text (t : Holed α) : List α := t.parts.flatMap (fun p => p.1 ++ p.2) ++ t.last

/-- The blocks of the text whose holes are filled with a mark. -/
def blocks (mark : List α) (t : Holed α) : List (List α) :=
  t.parts.flatMap (fun p => [p.1, mark]) ++ [t.last]

def filled (mark : List α) (t : Holed α) : List α := (t.blocks mark).flatten

/-- Text before the first piece. -/
def prepend (xs : List α) (t : Holed α) : Holed α :=
  match t.parts with
  | [] => ⟨[], xs ++ t.last⟩
  | (kept, hole) :: parts => ⟨(xs ++ kept, hole) :: parts, t.last⟩

/-- A piece and a hole before the first piece. -/
def cut (xs hole : List α) (t : Holed α) : Holed α := ⟨(xs, hole) :: t.parts, t.last⟩

@[simp] theorem text_prepend (xs : List α) (t : Holed α) : (t.prepend xs).text = xs ++ t.text := by
  obtain ⟨parts, last⟩ := t
  cases parts with
  | nil => rfl
  | cons p parts => simp [prepend, text]

@[simp] theorem filled_prepend (mark xs : List α) (t : Holed α) :
    (t.prepend xs).filled mark = xs ++ t.filled mark := by
  obtain ⟨parts, last⟩ := t
  cases parts with
  | nil => simp [prepend, filled, blocks]
  | cons p parts => simp [prepend, filled, blocks]

@[simp] theorem text_cut (xs hole : List α) (t : Holed α) :
    (t.cut xs hole).text = xs ++ hole ++ t.text := by
  simp [cut, text]

@[simp] theorem filled_cut (mark xs hole : List α) (t : Holed α) :
    (t.cut xs hole).filled mark = xs ++ mark ++ t.filled mark := by
  simp [cut, filled, blocks]

/-- The part stands at the place `n`, in one hole. -/
def InHole (xs : List α) : ℕ → List (List α × List α) → Prop
  | _, [] => False
  | n, (kept, hole) :: parts =>
      (∃ a b, hole = a ++ xs ++ b ∧ n = kept.length + a.length) ∨
        ∃ m, n = kept.length + hole.length + m ∧ InHole xs m parts

theorem InHole.prepend (h : InHole xs n t.parts) :
    InHole xs (ys.length + n) (t.prepend ys).parts := by
  obtain ⟨parts, last⟩ := t
  cases parts with
  | nil => exact h.elim
  | cons p parts =>
    rcases h with ⟨a, b, hhole, rfl⟩ | ⟨m, rfl, hm⟩
    · refine .inl ⟨a, b, hhole, ?_⟩
      rw [List.length_append, Nat.add_assoc]
    · refine .inr ⟨m, ?_, hm⟩
      rw [List.length_append]
      omega

theorem InHole.cut (h : InHole xs n t.parts) :
    InHole xs (ys.length + hole.length + n) (t.cut ys hole).parts := .inr ⟨n, rfl, h⟩

theorem inHole_cut {a b : List α} (hhole : hole = a ++ xs ++ b) :
    InHole xs (ys.length + a.length) (t.cut ys hole).parts := .inl ⟨a, b, hhole, rfl⟩

theorem prefix_drop_of_eq {a b cs : List α} (h : cs = a ++ xs ++ b) : xs <+: cs.drop a.length := by
  rw [h, List.append_assoc, List.drop_left]
  exact List.prefix_append xs b

/-- A part of a piece that is kept stands at a place that is in no hole. -/
theorem exists_other_place {parts : List (List α × List α)} {last : List α} (hxs : xs ≠ [])
    (hhole : InHole xs n parts) (hkept : (∃ p ∈ parts, xs <:+: p.1) ∨ xs <:+: last) :
    ∃ m, m ≠ n ∧ xs <+: (parts.flatMap (fun p => p.1 ++ p.2) ++ last).drop m := by
  have hpos := List.length_pos_of_ne_nil hxs
  induction parts generalizing n with
  | nil => exact hhole.elim
  | cons p parts ih =>
    obtain ⟨kept, hole⟩ := p
    have hshift : ∀ m, (((kept, hole) :: parts).flatMap (fun p => p.1 ++ p.2) ++ last).drop
        (kept.length + hole.length + m) =
          (parts.flatMap (fun p => p.1 ++ p.2) ++ last).drop m := by
      intro m
      rw [List.flatMap_cons, List.append_assoc, ← List.length_append, List.drop_append,
        List.drop_eq_nil_of_le (Nat.le_add_right _ m), Nat.add_sub_cancel_left]
      rfl
    have hcases : xs <:+: kept ∨ ((∃ p ∈ parts, xs <:+: p.1) ∨ xs <:+: last) := by
      rcases hkept with ⟨p, hp, hin⟩ | hlast
      · rcases List.mem_cons.mp hp with rfl | hp
        · exact .inl hin
        · exact .inr (.inl ⟨p, hp, hin⟩)
      · exact .inr (.inr hlast)
    rcases hcases with ⟨a, b, hin⟩ | hlater
    · -- the part ends before the first hole
      have hlength : a.length + xs.length + b.length = kept.length := by
        rw [← hin, List.length_append, List.length_append]
      refine ⟨a.length, ?_, ?_⟩
      · rcases hhole with ⟨a', b', -, rfl⟩ | ⟨m, rfl, -⟩
        · omega
        · omega
      · apply prefix_drop_of_eq (b := b ++ (hole ++ (parts.flatMap (fun p => p.1 ++ p.2) ++ last)))
        rw [List.flatMap_cons, ← hin]
        simp only [List.append_assoc]
    · rcases hhole with ⟨a, b, hin, rfl⟩ | ⟨m, rfl, hm⟩
      · -- the part stands behind the first hole
        have hplace : ∃ m, xs <+: (parts.flatMap (fun p => p.1 ++ p.2) ++ last).drop m := by
          have hinfix : xs <:+: parts.flatMap (fun p => p.1 ++ p.2) ++ last := by
            rcases hlater with ⟨p, hp, hin⟩ | hlast
            · have hpart : p.1 ++ p.2 <:+: parts.flatMap fun p => p.1 ++ p.2 :=
                List.infix_of_mem_flatten (List.mem_map.mpr ⟨p, hp, rfl⟩)
              exact ((hin.trans List.infix_append_left).trans hpart).trans List.infix_append_left
            · exact hlast.trans List.infix_append_right
          obtain ⟨before, after, heq⟩ := hinfix
          exact ⟨before.length, prefix_drop_of_eq heq.symm⟩
        obtain ⟨m, hm⟩ := hplace
        refine ⟨kept.length + hole.length + m, ?_, hshift m ▸ hm⟩
        have hlength : a.length + xs.length + b.length = hole.length := by
          rw [hin, List.length_append, List.length_append]
        omega
      · obtain ⟨m', hne, hm'⟩ := ih hm hlater
        exact ⟨kept.length + hole.length + m', by omega, hshift m' ▸ hm'⟩

/-- **Holes.**  A part that stood in a hole and nowhere else is read again exactly
if it reads across the edge of a mark. -/
theorem infix_filled_iff (hxs : xs ≠ []) (hhole : InHole xs n t.parts)
    (honce : ∀ m, xs <+: t.text.drop m → m = n) (hmark : ¬xs <:+: mark) :
    xs <:+: t.filled mark ↔ Crosses xs (t.blocks mark) := by
  unfold filled
  rw [infix_flatten_iff hxs, or_iff_right]
  rintro ⟨b, hb, hin⟩
  have hkept : ¬((∃ p ∈ t.parts, xs <:+: p.1) ∨ xs <:+: t.last) := by
    intro hkept
    obtain ⟨m, hne, hm⟩ := exists_other_place hxs hhole hkept
    exact hne (honce m hm)
  rcases List.mem_append.mp hb with hb | hb
  · obtain ⟨p, hp, hb⟩ := List.mem_flatMap.mp hb
    rcases List.mem_cons.mp hb with rfl | hb
    · exact hkept (.inl ⟨p, hp, hin⟩)
    · exact hmark (List.mem_singleton.mp hb ▸ hin)
  · exact hkept (.inr (List.mem_singleton.mp hb ▸ hin))

/-- What has neither the first nor the last character of the mark does not read
across its edges. -/
theorem not_crosses {first final : α} {inner inner' : List α} (hfirst : mark = first :: inner)
    (hfinal : mark = inner' ++ [final]) (hxs : first ∉ xs) (hxs' : final ∉ xs) :
    ¬Crosses xs (t.blocks mark) := by
  rintro ⟨front, back, hblocks, a, b, ha, hb, rfl, hsuffix, hleads⟩
  have hstart : ∀ {rest}, ¬b <+: mark ++ rest := by
    intro rest hleads
    cases b with
    | nil => exact hb rfl
    | cons c b =>
      rw [hfirst, List.cons_append, List.cons_prefix_cons] at hleads
      exact hxs (List.mem_append_right _ (hleads.1 ▸ List.mem_cons_self))
  have hend : ∀ {before ends : List α}, ends ≠ [] → ends <:+ before ++ mark → final ∈ ends := by
    intro before ends hne hsuffix
    rw [hfinal, ← List.append_assoc] at hsuffix
    rcases List.suffix_concat_iff.mp hsuffix with h | ⟨ends', rfl, -⟩
    · exact absurd h hne
    · exact List.mem_append_right _ (List.mem_singleton_self final)
  obtain ⟨parts, last⟩ := t
  have hparts : ∀ front, parts.flatMap (fun p => [p.1, mark]) ++ [last] = front ++ back →
      ¬a <:+ front.flatten := by
    clear hblocks hsuffix front
    induction parts with
    | nil =>
      intro front hblocks hsuffix
      cases front with
      | nil => exact ha (List.suffix_nil.mp hsuffix)
      | cons k front =>
        have hnil : front ++ back = [] := (List.cons.inj hblocks).2.symm
        rw [(List.append_eq_nil_iff.mp hnil).2] at hleads
        exact hb (List.prefix_nil.mp hleads)
    | cons p parts ih =>
      intro front hblocks hsuffix
      have hblocks' : p.1 :: mark :: (parts.flatMap (fun p => [p.1, mark]) ++ [last]) =
          front ++ back := hblocks
      cases front with
      | nil => exact ha (List.suffix_nil.mp hsuffix)
      | cons k front =>
        have hback := (List.cons.inj hblocks').2
        cases front with
        | nil =>
          -- the edge before the mark
          have hback' : back = mark :: (parts.flatMap (fun p => [p.1, mark]) ++ [last]) :=
            hback.symm
          rw [hback', List.flatten_cons] at hleads
          exact hstart hleads
        | cons m front =>
          obtain ⟨rfl, hrest⟩ := List.cons.inj hback
          obtain ⟨before, hbefore⟩ := hsuffix
          rw [List.flatten_cons, List.flatten_cons, ← List.append_assoc] at hbefore
          rcases List.append_eq_append_iff.mp hbefore with ⟨ends, hends, rfl⟩ | ⟨more, -, hmore⟩
          · by_cases hne : ends = []
            · subst hne
              exact ih front hrest (List.suffix_refl _)
            · -- the edge behind the mark
              have hfinal' := hend hne ⟨before, hends.symm⟩
              exact hxs' (List.mem_append_left _ (List.mem_append_left _ hfinal'))
          · exact ih front hrest ⟨more, hmore.symm⟩
  exact hparts front hblocks hsuffix

end Holed
