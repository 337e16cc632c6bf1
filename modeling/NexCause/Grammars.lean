/-
NexCause/Grammars.lean

Grammars as languages: a character of a class, one or more of something, and a
list of items with separators between them, as regular expressions write them.

Main results: an induction over such a list (`listOf_induction`), its first item
and the list behind it (`mem_listOf`), and the list whose separator is one
character as a join of its items (`mem_listOf_singleton`), which splitting takes
apart again (`splitOn_intercalate`).
-/
import Mathlib

namespace Grammar

open scoped Computability

variable {α : Type}

/-- One character of a class. -/
def oneOf (p : α → Bool) : Language α := {s | ∃ c, p c = true ∧ s = [c]}

/-- `l+` -/
def many1 (l : Language α) : Language α := l * l∗

/-- `l?` -/
def optional (l : Language α) : Language α := 1 + l

/-- `p{0,n}` -/
def atMost (n : ℕ) (p : α → Bool) : Language α := {s | s.length ≤ n ∧ ∀ c ∈ s, p c = true}

/-- `item(sep item)*` -/
def listOf (item sep : Language α) : Language α := item * (sep * item)∗

variable {p : α → Bool} {l item sep : Language α} {s : List α}

theorem mem_optional : s ∈ optional l ↔ s = [] ∨ s ∈ l := Iff.rfl

/-- Repetition of a class gives the texts of its characters. -/
theorem mem_kstar_oneOf : s ∈ (oneOf p)∗ ↔ ∀ c ∈ s, p c = true := by
  rw [Language.mem_kstar]
  constructor
  · rintro ⟨parts, rfl, hparts⟩ c hc
    obtain ⟨part, hpart, hc⟩ := List.mem_flatten.mp hc
    obtain ⟨d, hd, rfl⟩ := hparts part hpart
    rw [List.mem_singleton.mp hc]
    exact hd
  · intro h
    refine ⟨s.map fun c => [c], ?_, ?_⟩
    · rw [← List.flatMap_def, List.flatMap_singleton']
    · intro part hpart
      obtain ⟨c, hc, rfl⟩ := List.mem_map.mp hpart
      exact ⟨c, h c hc, rfl⟩

theorem mem_many1_oneOf : s ∈ many1 (oneOf p) ↔ s ≠ [] ∧ ∀ c ∈ s, p c = true := by
  rw [many1, Language.mem_mul]
  constructor
  · rintro ⟨_, ⟨c, hc, rfl⟩, rest, hrest, rfl⟩
    refine ⟨List.cons_ne_nil _ _, ?_⟩
    exact List.forall_mem_cons.mpr ⟨hc, mem_kstar_oneOf.mp hrest⟩
  · rintro ⟨hne, hall⟩
    cases s with
    | nil => exact absurd rfl hne
    | cons c s =>
      obtain ⟨hc, hs⟩ := List.forall_mem_cons.mp hall
      exact ⟨[c], ⟨c, hc, rfl⟩, s, mem_kstar_oneOf.mpr hs, rfl⟩

/-! ### Lists -/

theorem listOf_eq : listOf item sep = item + item * (sep * listOf item sep) := by
  calc listOf item sep = item * (1 + sep * item * (sep * item)∗) := by
        rw [Language.one_add_self_mul_kstar_eq_kstar, listOf]
    _ = item + item * (sep * listOf item sep) := by
        rw [mul_add, mul_one, mul_assoc, listOf]

/-- A list is an item, or an item and a separator before a list. -/
theorem mem_listOf : s ∈ listOf item sep ↔
    s ∈ item ∨ ∃ first ∈ item, ∃ gap ∈ sep, ∃ rest ∈ listOf item sep, s = first ++ (gap ++ rest) := by
  conv_lhs => rw [listOf_eq]
  rw [Language.mem_add, Language.mem_mul]
  simp only [Language.mem_mul]
  constructor
  · rintro (h | ⟨first, hfirst, _, ⟨gap, hgap, rest, hrest, rfl⟩, rfl⟩)
    exacts [.inl h, .inr ⟨first, hfirst, gap, hgap, rest, hrest, rfl⟩]
  · rintro (h | ⟨first, hfirst, gap, hgap, rest, hrest, rfl⟩)
    exacts [.inl h, .inr ⟨first, hfirst, _, ⟨gap, hgap, rest, hrest, rfl⟩, rfl⟩]

theorem mem_listOf_item (h : s ∈ item) : s ∈ listOf item sep := mem_listOf.mpr (.inl h)

theorem mem_listOf_cons {first gap rest : List α} (hfirst : first ∈ item) (hgap : gap ∈ sep)
    (hrest : rest ∈ listOf item sep) : first ++ (gap ++ rest) ∈ listOf item sep :=
  mem_listOf.mpr (.inr ⟨first, hfirst, gap, hgap, rest, hrest, rfl⟩)

/-- Induction over the items of a list, from its end. -/
theorem listOf_induction {P : List α → Prop} (hitem : ∀ s ∈ item, P s)
    (hcons : ∀ first ∈ item, ∀ gap ∈ sep, ∀ rest ∈ listOf item sep, P rest →
      P (first ++ (gap ++ rest))) (h : s ∈ listOf item sep) : P s := by
  obtain ⟨first, hfirst, _, hrest, rfl⟩ := Language.mem_mul.mp h
  obtain ⟨parts, rfl, hparts⟩ := Language.mem_kstar.mp hrest
  clear h hrest
  induction parts generalizing first with
  | nil =>
    rw [List.flatten_nil, List.append_nil]
    exact hitem first hfirst
  | cons part parts ih =>
    obtain ⟨hpart, htail⟩ := List.forall_mem_cons.mp hparts
    obtain ⟨gap, hgap, second, hsecond, rfl⟩ := Language.mem_mul.mp hpart
    rw [List.flatten_cons, List.append_assoc]
    refine hcons first hfirst gap hgap _ ?_ (ih second hsecond htail)
    exact Language.append_mem_mul hsecond (Language.join_mem_kstar htail)

/-- With one character as its separator, a list is the join of its items. -/
theorem mem_listOf_singleton {c : α} : s ∈ listOf item {[c]} ↔
    ∃ items : List (List α), items ≠ [] ∧ (∀ x ∈ items, x ∈ item) ∧ s = [c].intercalate items := by
  constructor
  · intro h
    refine listOf_induction (P := fun s => ∃ items : List (List α), items ≠ [] ∧
      (∀ x ∈ items, x ∈ item) ∧ s = [c].intercalate items) ?_ ?_ h
    · intro s hs
      exact ⟨[s], List.cons_ne_nil _ _, by simpa using hs, (List.intercalate_singleton ..).symm⟩
    · rintro first hfirst _ rfl _ - ⟨items, hne, hitems, rfl⟩
      refine ⟨first :: items, List.cons_ne_nil _ _, List.forall_mem_cons.mpr ⟨hfirst, hitems⟩, ?_⟩
      rw [List.intercalate_cons_of_ne_nil hne, List.append_assoc]
  · rintro ⟨items, hne, hitems, rfl⟩
    induction items with
    | nil => exact absurd rfl hne
    | cons first items ih =>
      obtain ⟨hfirst, hitems⟩ := List.forall_mem_cons.mp hitems
      cases items with
      | nil =>
        rw [List.intercalate_singleton]
        exact mem_listOf_item hfirst
      | cons second items =>
        rw [List.intercalate_cons_of_ne_nil (List.cons_ne_nil _ _), List.append_assoc]
        exact mem_listOf_cons hfirst rfl (ih (List.cons_ne_nil _ _) hitems)

/-- The length of a join: that of the items, and the separators between them. -/
theorem length_intercalate_singleton (c : α) {items : List (List α)} (hne : items ≠ []) :
    ([c].intercalate items).length + 1 = (items.map List.length).sum + items.length := by
  induction items with
  | nil => exact absurd rfl hne
  | cons first items ih =>
    cases items with
    | nil => simp
    | cons second items =>
      have hrest := ih (List.cons_ne_nil _ _)
      rw [List.intercalate_cons_of_ne_nil (List.cons_ne_nil _ _)]
      simp only [List.length_append, List.map_cons, List.sum_cons, List.length_cons,
        List.length_nil] at hrest ⊢
      omega

/-! ### Splitting a join -/

section Splitting

variable [BEq α] [LawfulBEq α] {c : α}

/-- The separator is in none of the parts. -/
theorem not_mem_of_mem_splitOn {item : List α} (h : item ∈ s.splitOn c) : c ∉ item := by
  induction hn : s.length using Nat.strong_induction_on generalizing s with
  | _ n ih =>
    by_cases hsep : c ∈ s
    · obtain ⟨before, after, rfl, hbefore⟩ := List.eq_append_cons_of_mem hsep
      rw [List.splitOn_append_cons_self_of_not_mem hbefore] at h
      rcases List.mem_cons.mp h with rfl | hrest
      · exact hbefore
      · refine ih after.length ?_ hrest rfl
        rw [← hn, List.length_append, List.length_cons]
        omega
    · rw [List.splitOn_eq_singleton hsep, List.mem_singleton] at h
      exact h ▸ hsep

/-- The parts of a join are those of its items. -/
theorem splitOn_intercalate {items : List (List α)} (hne : items ≠ []) :
    ([c].intercalate items).splitOn c = items.flatMap (·.splitOn c) := by
  induction items with
  | nil => exact absurd rfl hne
  | cons first items ih =>
    cases items with
    | nil => simp
    | cons second items =>
      rw [List.intercalate_cons_cons, List.append_assoc, List.singleton_append,
        List.splitOn_append_cons_self, ih (List.cons_ne_nil _ _)]
      rfl

/-- Items are joined, or the parts of them all: it is the same. -/
theorem intercalate_flatMap_splitOn (items : List (List α)) :
    [c].intercalate (items.flatMap (·.splitOn c)) = [c].intercalate items := by
  by_cases hne : items = []
  · rw [hne]
    rfl
  · rw [← splitOn_intercalate hne, List.intercalate_splitOn]

end Splitting

end Grammar
