/-
NexCause/RegexRules.lean

Rules for the expressions of `Regex`: what the rests of each kind are, which of
them comes first, and what `replaceAll` makes of a text whose next match is
known.

Main results: a match is replaced and the scan goes on behind it
(`Pattern.replaceAll_match`), and a text in which no match starts is kept
(`Pattern.replaceAll_append`).
-/
import Mathlib.Data.List.Forall2
import NexCause.Regex

namespace Regex

variable {p : Char → Bool} {cs rest : List Char}

/-! ### Runs of characters -/

/-- A run of the class ends before the text. -/
def Stops (p : Char → Bool) (cs : List Char) : Prop := ∀ c ∈ cs.head?, p c = false

section Runs

variable {run run' cs' : List Char}

/-- A run, and nothing behind it, is dropped. -/
theorem dropWhile_of_stops (hrun : ∀ c ∈ run, p c = true) (hcs : Stops p cs) :
    (run ++ cs).dropWhile p = cs := by
  rw [List.dropWhile_append_of_pos hrun]
  cases cs with
  | nil => rfl
  | cons c cs => exact List.dropWhile_cons_of_neg (Bool.eq_false_iff.mp (hcs c rfl))

/-- What is left where the run ends. -/
theorem stops_dropWhile : Stops p (cs.dropWhile p) := by
  intro c hc
  have hnot := List.head?_dropWhile_not p cs
  rw [Option.mem_def.mp hc] at hnot
  exact hnot

/-- Only the first character matters. -/
theorem Stops.congr (h : Stops p cs) (hhead : cs'.head? = cs.head?) : Stops p cs' := by
  intro c hc
  exact h c (hhead ▸ hc)

/-- Where a run ends is determined. -/
theorem run_unique (hrun : ∀ c ∈ run, p c = true) (hcs : Stops p cs)
    (hrun' : ∀ c ∈ run', p c = true) (hcs' : Stops p cs') (h : run ++ cs = run' ++ cs') :
    run = run' ∧ cs = cs' := by
  have hdrop : cs = cs' := by
    rw [← dropWhile_of_stops hrun hcs, h, dropWhile_of_stops hrun' hcs']
  subst hdrop
  exact ⟨List.append_cancel_right h, rfl⟩

end Runs

/-! ### Rests -/

/-- One character of the class is taken. -/
theorem mem_rests_char : rest ∈ (char p).rests cs ↔ ∃ c, p c = true ∧ cs = c :: rest := by
  cases cs with
  | nil => simp [rests]
  | cons d cs =>
    rw [rests]
    by_cases hd : p d = true
    · rw [if_pos hd, List.mem_singleton]
      constructor
      · rintro rfl
        exact ⟨d, hd, rfl⟩
      · rintro ⟨c, -, h⟩
        exact (List.cons.inj h).2.symm
    · rw [if_neg hd]
      constructor
      · intro h
        cases h
      · rintro ⟨c, hc, h⟩
        obtain ⟨rfl, -⟩ := List.cons.inj h
        exact absurd hc hd

/-- One part is taken after the other. -/
theorem mem_rests_seq {r s : Regex} :
    rest ∈ (seq r s).rests cs ↔ ∃ middle ∈ r.rests cs, rest ∈ s.rests middle := by
  rw [rests, List.mem_flatMap]

theorem mem_rests_alt {r s : Regex} :
    rest ∈ (alt r s).rests cs ↔ rest ∈ r.rests cs ∨ rest ∈ s.rests cs := by
  rw [rests, List.mem_append]

/-- Any run of the class is taken, also the empty one. -/
theorem mem_rests_many :
    rest ∈ (many p).rests cs ↔ ∃ run, (∀ c ∈ run, p c = true) ∧ cs = run ++ rest := by
  show rest ∈ manyRests p cs ↔ _
  induction cs with
  | nil =>
    rw [manyRests, List.mem_singleton]
    constructor
    · rintro rfl
      exact ⟨[], by simp, rfl⟩
    · rintro ⟨run, -, h⟩
      exact (List.append_eq_nil_iff.mp h.symm).2
  | cons c cs ih =>
    have hnil : rest = c :: cs → ∃ run, (∀ c ∈ run, p c = true) ∧ c :: cs = run ++ rest := by
      rintro rfl
      exact ⟨[], by simp, rfl⟩
    rw [manyRests]
    split
    · rename_i hc
      -- the run goes on, or has ended before this character
      rw [List.mem_append, ih, List.mem_singleton]
      constructor
      · rintro (⟨run, hrun, rfl⟩ | h)
        · exact ⟨c :: run, List.forall_mem_cons.mpr ⟨hc, hrun⟩, rfl⟩
        · exact hnil h
      · rintro ⟨run, hrun, h⟩
        cases run with
        | nil => exact .inr h.symm
        | cons d run =>
          obtain ⟨rfl, rfl⟩ := List.cons.inj h
          exact .inl ⟨run, (List.forall_mem_cons.mp hrun).2, rfl⟩
    · rename_i hc
      rw [List.mem_singleton]
      constructor
      · exact hnil
      · rintro ⟨run, hrun, h⟩
        cases run with
        | nil => exact h.symm
        -- a run that is not empty would begin with this character
        | cons d run =>
          obtain ⟨rfl, -⟩ := List.cons.inj h
          exact absurd ((List.forall_mem_cons.mp hrun).1) hc

/-- Any run but the empty one is taken. -/
theorem mem_rests_many1 : rest ∈ (many1 p).rests cs ↔
    ∃ run, run ≠ [] ∧ (∀ c ∈ run, p c = true) ∧ cs = run ++ rest := by
  rw [many1, mem_rests_seq]
  constructor
  · rintro ⟨middle, hmiddle, hrest⟩
    obtain ⟨c, hc, rfl⟩ := mem_rests_char.mp hmiddle
    obtain ⟨run, hrun, rfl⟩ := mem_rests_many.mp hrest
    exact ⟨c :: run, List.cons_ne_nil _ _, List.forall_mem_cons.mpr ⟨hc, hrun⟩, rfl⟩
  · rintro ⟨run, hne, hrun, rfl⟩
    cases run with
    | nil => exact absurd rfl hne
    | cons c run =>
      obtain ⟨hc, hrun⟩ := List.forall_mem_cons.mp hrun
      exact ⟨run ++ rest, mem_rests_char.mpr ⟨c, hc, rfl⟩, mem_rests_many.mpr ⟨run, hrun, rfl⟩⟩

/-- A word is matched by what compares to it, letter by letter. -/
theorem mem_rests_word {eq : Char → Char → Bool} {w : List Char} :
    rest ∈ (word eq w).rests cs ↔
      ∃ found, List.Forall₂ (fun a c => eq a c = true) w found ∧ cs = found ++ rest := by
  induction w generalizing cs with
  | nil =>
    rw [word, rests, List.mem_singleton]
    constructor
    · rintro rfl
      exact ⟨[], .nil, rfl⟩
    · rintro ⟨found, hfound, rfl⟩
      cases hfound
      rfl
  | cons a w ih =>
    rw [word, mem_rests_seq]
    constructor
    · rintro ⟨middle, hmiddle, hrest⟩
      obtain ⟨c, hc, rfl⟩ := mem_rests_char.mp hmiddle
      obtain ⟨found, hfound, rfl⟩ := ih.mp hrest
      exact ⟨c :: found, .cons hc hfound, rfl⟩
    · rintro ⟨found, hfound, rfl⟩
      cases hfound with
      | @cons _ c _ found hc hfound =>
        exact ⟨found ++ rest, mem_rests_char.mpr ⟨c, hc, rfl⟩, ih.mpr ⟨found, hfound, rfl⟩⟩

/-! ### Matched texts -/

/-- The expression matches the whole text. -/
def Matches (r : Regex) (cs : List Char) : Prop := [] ∈ r.rests cs

/-- What is left is what is not matched. -/
theorem mem_rests_iff {r : Regex} :
    rest ∈ r.rests cs ↔ ∃ found, r.Matches found ∧ cs = found ++ rest := by
  unfold Matches
  induction r generalizing cs rest with
  | empty =>
    simp only [rests, List.mem_singleton]
    constructor
    · rintro rfl
      exact ⟨[], rfl, rfl⟩
    · rintro ⟨found, rfl, rfl⟩
      rfl
  | char p =>
    simp only [mem_rests_char]
    constructor
    · rintro ⟨c, hc, rfl⟩
      exact ⟨[c], ⟨c, hc, rfl⟩, rfl⟩
    · rintro ⟨_, ⟨c, hc, rfl⟩, rfl⟩
      exact ⟨c, hc, rfl⟩
  -- what is found is cut where the second part begins
  | seq r s ihr ihs =>
    simp only [mem_rests_seq]
    constructor
    · rintro ⟨middle, hmiddle, hrest⟩
      obtain ⟨first, hfirst, rfl⟩ := ihr.mp hmiddle
      obtain ⟨second, hsecond, rfl⟩ := ihs.mp hrest
      refine ⟨first ++ second, ⟨second, ihr.mpr ⟨first, hfirst, rfl⟩, hsecond⟩, ?_⟩
      rw [List.append_assoc]
    · rintro ⟨_, ⟨second, hsecond, hrest⟩, rfl⟩
      obtain ⟨first, hfirst, rfl⟩ := ihr.mp hsecond
      refine ⟨second ++ rest, ihr.mpr ⟨first, hfirst, ?_⟩, ihs.mpr ⟨second, hrest, rfl⟩⟩
      rw [List.append_assoc]
  | alt r s ihr ihs =>
    simp only [mem_rests_alt]
    rw [ihr, ihs, ← exists_or]
    exact exists_congr fun found => or_and_right.symm
  -- a run is found, or the empty text
  | many p =>
    simp only [mem_rests_many]
    constructor
    · rintro ⟨run, hrun, rfl⟩
      exact ⟨run, ⟨run, hrun, (List.append_nil run).symm⟩, rfl⟩
    · rintro ⟨_, ⟨run, hrun, rfl⟩, rfl⟩
      exact ⟨run, hrun, by rw [List.append_nil]⟩

theorem matches_seq {r s : Regex} : (seq r s).Matches cs ↔
    ∃ first second, r.Matches first ∧ s.Matches second ∧ cs = first ++ second := by
  unfold Matches
  rw [mem_rests_seq]
  constructor
  · rintro ⟨second, hsecond, hrest⟩
    obtain ⟨first, hfirst, rfl⟩ := mem_rests_iff.mp hsecond
    exact ⟨first, second, hfirst, hrest, rfl⟩
  · rintro ⟨first, second, hfirst, hsecond, rfl⟩
    exact ⟨second, mem_rests_iff.mpr ⟨first, hfirst, rfl⟩, hsecond⟩

theorem matches_alt {r s : Regex} : (alt r s).Matches cs ↔ r.Matches cs ∨ s.Matches cs :=
  mem_rests_alt

/-- A repetition matches the runs of its class. -/
theorem matches_many : (many p).Matches cs ↔ ∀ c ∈ cs, p c = true := by
  unfold Matches
  rw [mem_rests_many]
  constructor
  · rintro ⟨run, hrun, rfl⟩
    rwa [List.append_nil]
  · intro h
    exact ⟨cs, h, (List.append_nil cs).symm⟩

theorem matches_many1 : (many1 p).Matches cs ↔ cs ≠ [] ∧ ∀ c ∈ cs, p c = true := by
  unfold Matches
  rw [mem_rests_many1]
  constructor
  · rintro ⟨run, hne, hrun, rfl⟩
    rw [List.append_nil]
    exact ⟨hne, hrun⟩
  · rintro ⟨hne, h⟩
    exact ⟨cs, hne, h, (List.append_nil cs).symm⟩

theorem matches_char : (char p).Matches cs ↔ ∃ c, p c = true ∧ cs = [c] := mem_rests_char

/-- A word matches the texts that agree with it character by character. -/
theorem matches_word {eq : Char → Char → Bool} {w : List Char} :
    (word eq w).Matches cs ↔ List.Forall₂ (fun a c => eq a c = true) w cs := by
  unfold Matches
  rw [mem_rests_word]
  constructor
  · rintro ⟨found, hfound, rfl⟩
    rwa [List.append_nil]
  · intro h
    exact ⟨cs, h, (List.append_nil cs).symm⟩

/-! ### The first rest -/

/-- Repetition takes the longest run. -/
theorem head?_rests_many : ((many p).rests cs).head? = some (cs.dropWhile p) := by
  show (manyRests p cs).head? = _
  induction cs with
  | nil => rfl
  | cons c cs ih =>
    rw [manyRests, List.dropWhile_cons]
    split
    · rw [List.head?_append, ih]
      rfl
    · rfl

theorem head?_rests_many1 : ((many1 p).rests cs).head? =
    if cs.head?.any p then some (cs.dropWhile p) else none := by
  cases cs with
  | nil => rfl
  | cons c cs =>
    show ((if p c then [cs] else []).flatMap (many p).rests).head? = if p c then _ else none
    by_cases hc : p c = true
    · rw [if_pos hc, if_pos hc, List.flatMap_singleton, head?_rests_many,
        List.dropWhile_cons_of_pos hc]
    · rw [if_neg hc, if_neg hc]
      rfl

/-- The first rest is behind the longest run. -/
theorem head?_rests_many1_iff : ((many1 p).rests cs).head? = some rest ↔
    ∃ run, run ≠ [] ∧ (∀ c ∈ run, p c = true) ∧ Stops p rest ∧ cs = run ++ rest := by
  rw [head?_rests_many1]
  constructor
  · -- the longest run, which is not empty if the first character is one of it
    intro h
    cases cs with
    | nil => cases h
    | cons c cs =>
      by_cases hc : (c :: cs).head?.any p = true
      · rw [if_pos hc] at h
        obtain rfl := Option.some.inj h
        refine ⟨(c :: cs).takeWhile p, ?_, fun d hd => ?_, stops_dropWhile,
          (List.takeWhile_append_dropWhile).symm⟩
        · rw [List.takeWhile_cons_of_pos (show p c = true from hc)]
          exact List.cons_ne_nil _ _
        · exact List.all_eq_true.mp List.all_takeWhile d hd
      · rw [if_neg hc] at h
        cases h
  · rintro ⟨run, hne, hrun, hrest, rfl⟩
    cases run with
    | nil => exact absurd rfl hne
    | cons c run =>
      rw [dropWhile_of_stops hrun hrest]
      exact if_pos (hrun c List.mem_cons_self)

/-- The first way to match one part and then another. -/
theorem head?_rests_seq {r s : Regex} (hs : ∀ middle, ((s.rests middle).head?).isSome) :
    ((seq r s).rests cs).head? = (r.rests cs).head?.bind fun middle => (s.rests middle).head? := by
  rw [rests]
  cases hr : r.rests cs with
  | nil => rfl
  | cons middle middles =>
    rw [List.flatMap_cons, List.head?_append_of_ne_nil]
    · rfl
    · intro hnil
      have hsome := hs middle
      rw [hnil] at hsome
      cases hsome

/-- What is left is an end of the text. -/
theorem suffix_of_mem_rests {r : Regex} (h : rest ∈ r.rests cs) : rest <:+ cs := by
  induction r generalizing cs rest with
  | empty =>
    obtain rfl := List.mem_singleton.mp h
    exact List.suffix_refl _
  | char p =>
    obtain ⟨c, -, rfl⟩ := mem_rests_char.mp h
    exact List.suffix_cons c rest
  | seq r s ihr ihs =>
    obtain ⟨middle, hmiddle, hrest⟩ := mem_rests_seq.mp h
    exact (ihs hrest).trans (ihr hmiddle)
  | alt r s ihr ihs =>
    rcases mem_rests_alt.mp h with h | h
    · exact ihr h
    · exact ihs h
  | many p =>
    obtain ⟨run, -, rfl⟩ := mem_rests_many.mp h
    exact List.suffix_append run rest

/-! ### Matches and replacement -/

namespace Pattern

variable {pattern : Pattern} {mark after left : List Char}

/-- The two parts of a match. -/
theorem of_first_eq_some (h : pattern.first cs = some (after, left)) :
    after ∈ pattern.captured.rests cs ∧ (pattern.rest.rests after).head? = some left := by
  obtain ⟨tried, hmem, htried⟩ := List.exists_of_findSome?_eq_some h
  obtain ⟨found, hfound, hpair⟩ := Option.map_eq_some_iff.mp htried
  obtain ⟨rfl, rfl⟩ := Prod.mk.inj hpair
  exact ⟨hmem, hfound⟩

/-- If only one rest of the captured part can be gone on from, it is the match. -/
theorem first_eq_some (hmem : after ∈ pattern.captured.rests cs)
    (hleft : (pattern.rest.rests after).head? = some left)
    (huniq : ∀ other ∈ pattern.captured.rests cs, (pattern.rest.rests other).head?.isSome →
      other = after) : pattern.first cs = some (after, left) := by
  cases hfirst : pattern.first cs with
  | none =>
    have hnone := List.findSome?_eq_none_iff.mp hfirst after hmem
    rw [hleft] at hnone
    cases hnone
  -- the match that is found can be gone on from, and so is this one
  | some found =>
    obtain ⟨after', left'⟩ := found
    obtain ⟨hmem', hleft'⟩ := of_first_eq_some hfirst
    obtain rfl := huniq after' hmem' (by rw [hleft']; rfl)
    rw [← Option.some.inj (hleft'.symm.trans hleft)]

/-- What has been matched is skipped. -/
theorem replaceFrom_length (skipped ys : List Char) :
    pattern.replaceFrom mark skipped.length (skipped ++ ys) = pattern.replaceFrom mark 0 ys := by
  induction skipped with
  | nil => rfl
  | cons c skipped ih => exact ih

@[simp] theorem replaceAll_nil : pattern.replaceAll mark [] = [] := rfl

/-- A character where no match starts is kept. -/
theorem replaceAll_cons {c : Char} (h : pattern.first (c :: cs) = none) :
    pattern.replaceAll mark (c :: cs) = c :: pattern.replaceAll mark cs := by
  unfold replaceAll
  rw [replaceFrom, h]

/-- A match is replaced, and the scan goes on behind it. -/
theorem replaceAll_match {kept gone : List Char} (hne : kept ++ gone ≠ [])
    (h : pattern.first (kept ++ gone ++ left) = some (gone ++ left, left)) :
    pattern.replaceAll mark (kept ++ gone ++ left) =
      kept ++ mark ++ pattern.replaceAll mark left := by
  cases hmatch : kept ++ gone with
  | nil => exact absurd hmatch hne
  | cons c matched =>
    have htake : (kept ++ gone ++ left).take
        ((kept ++ gone ++ left).length - (gone ++ left).length) = kept := by
      rw [List.append_assoc, List.length_append, Nat.add_sub_cancel, List.take_left']
      rfl
    rw [hmatch] at h htake
    unfold replaceAll
    rw [List.cons_append] at h htake ⊢
    rw [replaceFrom, h]
    show (c :: (matched ++ left)).take ((c :: (matched ++ left)).length - (gone ++ left).length) ++
      mark ++ pattern.replaceFrom mark ((matched ++ left).length - left.length) (matched ++ left) = _
    rw [htake, List.length_append, Nat.add_sub_cancel, replaceFrom_length]

/-- A text in which no match starts is kept. -/
theorem replaceAll_append {xs ys : List Char}
    (h : ∀ end', end' ≠ [] → end' <:+ xs → pattern.first (end' ++ ys) = none) :
    pattern.replaceAll mark (xs ++ ys) = xs ++ pattern.replaceAll mark ys := by
  induction xs with
  | nil => rfl
  | cons x xs ih =>
    have hrest := ih fun end' hne hsuffix => h end' hne (hsuffix.trans (List.suffix_cons x xs))
    rw [List.cons_append, replaceAll_cons, hrest, List.cons_append]
    exact h (x :: xs) (List.cons_ne_nil _ _) (List.suffix_refl _)

/-- What comes out is of the text or of the mark. -/
theorem mem_replaceAll {c : Char} (h : c ∈ pattern.replaceAll mark cs) : c ∈ cs ∨ c ∈ mark := by
  have hfrom : ∀ skip, c ∈ pattern.replaceFrom mark skip cs → c ∈ cs ∨ c ∈ mark := by
    clear h
    induction cs with
    | nil =>
      intro skip h
      cases skip <;> cases h
    | cons d cs ih =>
      intro skip h
      cases skip with
      | succ skip => exact (ih skip h).imp_left (List.mem_cons_of_mem _)
      | zero =>
        rw [replaceFrom] at h
        split at h
        · rcases List.mem_append.mp h with h | h
          · exact (List.mem_append.mp h).imp_left List.mem_of_mem_take
          · exact (ih _ h).imp_left (List.mem_cons_of_mem _)
        · rcases List.mem_cons.mp h with rfl | h
          · exact .inl List.mem_cons_self
          · exact (ih 0 h).imp_left (List.mem_cons_of_mem _)
  exact hfrom 0 h

end Pattern

/-! ### Expressions that agree on some characters -/

/-- The expressions are built alike, and their classes have the same characters
of `P`. -/
def SameOn (P : Char → Prop) : Regex → Regex → Prop
  | empty, empty => True
  | char p, char q => ∀ c, P c → p c = q c
  | seq r s, seq r' s' => SameOn P r r' ∧ SameOn P s s'
  | alt r s, alt r' s' => SameOn P r r' ∧ SameOn P s s'
  | many p, many q => ∀ c, P c → p c = q c
  | _, _ => False

variable {P : Char → Prop}

theorem manyRests_congr {q : Char → Bool} (h : ∀ c, P c → p c = q c) (hcs : ∀ c ∈ cs, P c) :
    manyRests p cs = manyRests q cs := by
  induction cs with
  | nil => rfl
  | cons c cs ih =>
    obtain ⟨hc, hcs⟩ := List.forall_mem_cons.mp hcs
    rw [manyRests, manyRests, h c hc, ih hcs]

/-- Expressions that agree on the characters of a text leave the same of it. -/
theorem rests_congr {r r' : Regex} (h : SameOn P r r') (hcs : ∀ c ∈ cs, P c) :
    r.rests cs = r'.rests cs := by
  induction r generalizing r' cs with
  | empty =>
    cases r' with
    | empty => rfl
    | _ => exact h.elim
  | char p =>
    cases r' with
    | char q =>
      cases cs with
      | nil => rfl
      | cons c cs =>
        have hc : p c = q c := h c (hcs c List.mem_cons_self)
        rw [rests, rests, hc]
    | _ => exact h.elim
  | seq r s ihr ihs =>
    cases r' with
    | seq r' s' =>
      rw [rests, rests, ← ihr h.1 hcs]
      -- what is left after the first part is an end of the text
      refine List.flatMap_congr fun middle hmiddle => ihs h.2 fun c hc => ?_
      exact hcs c ((suffix_of_mem_rests hmiddle).subset hc)
    | _ => exact h.elim
  | alt r s ihr ihs =>
    cases r' with
    | alt r' s' => rw [rests, rests, ihr h.1 hcs, ihs h.2 hcs]
    | _ => exact h.elim
  | many p =>
    cases r' with
    | many q => exact manyRests_congr h hcs
    | _ => exact h.elim

theorem sameOn_word {eq eq' : Char → Char → Bool} (h : ∀ a c, P c → eq a c = eq' a c)
    (w : List Char) : SameOn P (word eq w) (word eq' w) := by
  induction w with
  | nil => trivial
  | cons a w ih => exact ⟨h a, ih⟩

theorem sameOn_refl (r : Regex) : SameOn P r r := by
  induction r with
  | empty => trivial
  | char p => exact fun _ _ => rfl
  | seq r s ihr ihs => exact ⟨ihr, ihs⟩
  | alt r s ihr ihs => exact ⟨ihr, ihs⟩
  | many p => exact fun _ _ => rfl

/-- The first value that is found depends on the values of the list only. -/
theorem findSome?_congr {α β : Type} {f g : α → Option β} {xs : List α} (h : ∀ x ∈ xs, f x = g x) :
    xs.findSome? f = xs.findSome? g := by
  induction xs with
  | nil => rfl
  | cons x xs ih =>
    obtain ⟨hx, hxs⟩ := List.forall_mem_cons.mp h
    rw [List.findSome?_cons, List.findSome?_cons, hx, ih hxs]

/-- Patterns that agree on the characters of a text replace the same. -/
theorem Pattern.replaceAll_congr {pattern pattern' : Pattern} {mark : List Char}
    (hcaptured : SameOn P pattern.captured pattern'.captured)
    (hrest : SameOn P pattern.rest pattern'.rest) (hcs : ∀ c ∈ cs, P c) :
    pattern.replaceAll mark cs = pattern'.replaceAll mark cs := by
  have hfirst : ∀ ds : List Char, (∀ c ∈ ds, P c) → pattern.first ds = pattern'.first ds := by
    intro ds hds
    unfold Pattern.first
    rw [rests_congr hcaptured hds]
    apply findSome?_congr
    intro after hafter
    have hsuffix := suffix_of_mem_rests hafter
    rw [rests_congr hrest fun c hc => hds c (hsuffix.subset hc)]
  have hfrom : ∀ skip, pattern.replaceFrom mark skip cs = pattern'.replaceFrom mark skip cs := by
    induction cs with
    | nil =>
      intro skip
      cases skip <;> rfl
    | cons c cs ih =>
      have hrec := ih (List.forall_mem_cons.mp hcs).2
      intro skip
      cases skip with
      | succ skip => exact hrec skip
      | zero =>
        rw [Pattern.replaceFrom, Pattern.replaceFrom, hfirst _ hcs]
        split
        · rw [hrec]
        · rw [hrec]
  exact hfrom 0

end Regex
