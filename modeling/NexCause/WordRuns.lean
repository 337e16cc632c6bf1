/-
NexCause/WordRuns.lean

Expressions `\b[class]{n,}\b`: runs of a class of word characters between word
boundaries.  Whether there is a boundary depends on the character before a
place, and so the scan carries whether that is a word character.

Main results: a run is replaced if it is a whole word of the class that is long
enough, and else nothing is (`replaceAll_word`); what other characters separate
is replaced on its own (`replaceAll_append`).
-/
import Mathlib.Data.List.Find
import NexCause.RegexRules

namespace Regex

/-- `\w` -/
def isWord (c : Char) : Bool := c.isAlphanum || c = '_'

/-- `\b`, where `before` says whether a word character comes before. -/
def isBoundary (before : Bool) (rest : List Char) : Bool := before != rest.head?.any isWord

/-- At least so many characters of a class, between word boundaries. -/
structure WordRun where
  cls : Char → Bool
  least : ℕ
  isWord_of_cls : ∀ c, cls c = true → isWord c = true
  least_pos : 0 < least

namespace WordRun

/-- The match of the run that leaves the rest of a text. -/
def ends (r : WordRun) (before : Bool) (cs rest : List Char) : Bool :=
  let run := cs.take (cs.length - rest.length)
  decide (r.least ≤ run.length) && isBoundary (run.getLast?.elim before isWord) rest

/-- What is left after the match at the start of a text, the longest run first. -/
def first (r : WordRun) (before : Bool) (cs : List Char) : Option (List Char) :=
  if isBoundary before cs then (manyRests r.cls cs).find? (r.ends before cs) else none

/-- Replace every match, from left to right, by the mark; `skip` is how much of
the text the last match still covers. -/
def replaceFrom (r : WordRun) (mark : List Char) : ℕ → Bool → List Char → List Char
  | _, _, [] => []
  | skip + 1, _, c :: cs => r.replaceFrom mark skip (isWord c) cs
  | 0, before, c :: cs =>
      match r.first before (c :: cs) with
      | some rest => mark ++ r.replaceFrom mark (cs.length - rest.length) (isWord c) cs
      | none => c :: r.replaceFrom mark 0 (isWord c) cs

/-- Replace every match. -/
def replaceAll (r : WordRun) (mark cs : List Char) : List Char := r.replaceFrom mark 0 false cs

variable {r : WordRun} {mark cs rest : List Char} {before : Bool}

/-! ### Separators -/

/-- A run does not go on behind a separator. -/
theorem manyRests_append {p : Char → Bool} {c : Char} (hc : p c = false) (a b : List Char) :
    manyRests p (a ++ c :: b) = (manyRests p a).map (· ++ c :: b) := by
  induction a with
  | nil => simp [manyRests, hc]
  | cons d a ih =>
    rw [List.cons_append]
    by_cases hd : p d = true
    · simp [manyRests, hd, ih]
    · simp [manyRests, hd]

theorem cls_separator {c : Char} (hc : isWord c = false) : r.cls c = false := by
  rw [Bool.eq_false_iff]
  intro hcls
  rw [r.isWord_of_cls c hcls] at hc
  cases hc

theorem isBoundary_append {c : Char} (hc : isWord c = false) (a b : List Char) :
    isBoundary before (a ++ c :: b) = isBoundary before a := by
  cases a with
  | nil => simp [isBoundary, hc]
  | cons d a => rfl

/-- The match in front of a separator does not depend on what is behind it. -/
theorem first_append {c : Char} (hc : isWord c = false) (a b : List Char) :
    r.first before (a ++ c :: b) = (r.first before a).map (· ++ c :: b) := by
  unfold first
  rw [isBoundary_append hc, manyRests_append (cls_separator hc), List.find?_map]
  split
  · congr 1
    apply List.find?_congr
    intro rest hrest
    -- both matches are the same run, in front of the same rest
    obtain ⟨run, -, rfl⟩ := mem_rests_many.mp hrest
    have hlength : (run ++ rest ++ c :: b).length - (rest ++ c :: b).length =
        (run ++ rest).length - rest.length := by
      simp only [List.length_append]
      omega
    have htake : (run ++ rest ++ c :: b).take ((run ++ rest).length - rest.length) =
        (run ++ rest).take ((run ++ rest).length - rest.length) :=
      List.take_append_of_le_length (Nat.sub_le _ _)
    show r.ends before (run ++ rest ++ c :: b) (rest ++ c :: b) = _
    unfold ends
    dsimp only
    rw [hlength, htake, isBoundary_append hc]
  · rfl

theorem first_separator {c : Char} (hc : isWord c = false) (b : List Char) :
    r.first before (c :: b) = none := by
  -- only the empty run comes before a separator, and it is too short
  rw [← List.nil_append (c :: b), first_append hc]
  unfold first
  have hnone : [([] : List Char)].find? (r.ends before []) = none := by
    have hleast := r.least_pos
    simp [ends]
    omega
  split
  · rw [manyRests, hnone]
    rfl
  · rfl

theorem replaceFrom_append {c : Char} (hc : isWord c = false) (a b : List Char) :
    ∀ skip before, skip ≤ a.length →
      r.replaceFrom mark skip before (a ++ c :: b) =
        r.replaceFrom mark skip before a ++ c :: r.replaceFrom mark 0 false b := by
  induction a with
  | nil =>
    intro skip before hskip
    obtain rfl : skip = 0 := Nat.le_zero.mp hskip
    show r.replaceFrom mark 0 before (c :: b) = c :: r.replaceFrom mark 0 false b
    rw [replaceFrom, first_separator hc, hc]
  | cons d a ih =>
    intro skip before hskip
    rw [List.cons_append]
    cases skip with
    | succ skip => exact ih skip _ (Nat.le_of_succ_le_succ hskip)
    | zero =>
      rw [replaceFrom, replaceFrom, ← List.cons_append, first_append hc]
      cases r.first before (d :: a) with
      | none => exact congrArg (d :: ·) (ih 0 _ (Nat.zero_le _))
      | some rest =>
        -- the match ends before the separator: what it covers is skipped in front of it
        have hlength : (a ++ c :: b).length - (rest ++ c :: b).length = a.length - rest.length := by
          simp only [List.length_append]
          omega
        show mark ++ r.replaceFrom mark _ _ _ = mark ++ r.replaceFrom mark _ _ _ ++ _
        rw [hlength, ih _ _ (Nat.sub_le _ _), List.append_assoc]

/-- **What is separated** is replaced on its own. -/
theorem replaceAll_append {c : Char} (hc : isWord c = false) (a b : List Char) :
    r.replaceAll mark (a ++ c :: b) = r.replaceAll mark a ++ c :: r.replaceAll mark b :=
  replaceFrom_append hc a b 0 false (Nat.zero_le _)

/-! ### Words -/

/-- Within a word nothing starts. -/
theorem replaceFrom_within (h : ∀ c ∈ cs, isWord c = true) : r.replaceFrom mark 0 true cs = cs := by
  induction cs with
  | nil => rfl
  | cons c cs ih =>
    have hc := h c List.mem_cons_self
    have hfirst : r.first true (c :: cs) = none := by
      unfold first
      rw [if_neg (by simp [isBoundary, hc])]
    rw [replaceFrom, hfirst, hc]
    exact congrArg (c :: ·) (ih fun d hd => h d (List.mem_cons_of_mem _ hd))

/-- What the last match covers is skipped. -/
theorem replaceFrom_length (cs : List Char) (before : Bool) :
    r.replaceFrom mark cs.length before cs = [] := by
  induction cs generalizing before with
  | nil => rfl
  | cons c cs ih => exact ih _

/-- The run is this word. -/
def Covers (r : WordRun) (w : List Char) : Prop := (∀ c ∈ w, r.cls c = true) ∧ r.least ≤ w.length

instance (r : WordRun) (w : List Char) : Decidable (r.Covers w) :=
  inferInstanceAs (Decidable (_ ∧ _))

/-- A match within a word is the whole word. -/
theorem ends_word (h : ∀ c ∈ cs, isWord c = true) {run : List Char} (hsplit : cs = run ++ rest) :
    r.ends before cs rest = true ↔ rest = [] ∧ r.least ≤ cs.length := by
  have htake : cs.take (cs.length - rest.length) = run := by
    rw [hsplit, List.length_append, Nat.add_sub_cancel, List.take_left']
    rfl
  have hlast : r.least ≤ run.length → run.getLast?.elim before isWord = true := by
    intro hleast
    have hne : run ≠ [] := List.ne_nil_of_length_pos (r.least_pos.trans_le hleast)
    rw [List.getLast?_eq_some_getLast hne]
    exact h _ (hsplit ▸ List.mem_append_left _ (List.getLast_mem hne))
  unfold ends
  dsimp only
  rw [htake, Bool.and_eq_true, decide_eq_true_eq]
  cases rest with
  | nil =>
    rw [List.append_nil] at hsplit
    subst hsplit
    constructor
    · exact fun hends => ⟨rfl, hends.1⟩
    · rintro ⟨-, hleast⟩
      exact ⟨hleast, by rw [hlast hleast]; rfl⟩
  | cons d rest =>
    -- the rest starts within the word, so that there is no boundary
    have hd : isWord d = true := h d (hsplit ▸ List.mem_append_right _ List.mem_cons_self)
    refine iff_of_false ?_ fun hnil => List.cons_ne_nil _ _ hnil.1
    rintro ⟨hleast, hboundary⟩
    rw [hlast hleast] at hboundary
    simp [isBoundary, hd] at hboundary

theorem first_word (h : ∀ c ∈ cs, isWord c = true) (hne : cs ≠ []) :
    r.first false cs = if r.Covers cs then some [] else none := by
  have hboundary : isBoundary false cs = true := by
    obtain ⟨c, w, rfl⟩ := List.exists_cons_of_ne_nil hne
    simp [isBoundary, h c List.mem_cons_self]
  unfold first
  rw [if_pos hboundary]
  split
  · rename_i hcovers
    have hmem : [] ∈ manyRests r.cls cs :=
      mem_rests_many.mpr ⟨cs, hcovers.1, (List.append_nil cs).symm⟩
    have hends : r.ends false cs [] = true :=
      (ends_word h (List.append_nil cs).symm).mpr ⟨rfl, hcovers.2⟩
    cases hfind : (manyRests r.cls cs).find? (r.ends false cs) with
    | none => exact absurd hends (List.find?_eq_none.mp hfind [] hmem)
    | some rest =>
      obtain ⟨run, -, hsplit⟩ := mem_rests_many.mp (List.mem_of_find?_eq_some hfind)
      rw [((ends_word h hsplit).mp (List.find?_some hfind)).1]
  · rename_i hcovers
    rw [List.find?_eq_none]
    intro rest hrest hends
    obtain ⟨run, hrun, hsplit⟩ := mem_rests_many.mp hrest
    obtain ⟨rfl, hleast⟩ := (ends_word h hsplit).mp hends
    rw [List.append_nil] at hsplit
    exact hcovers ⟨hsplit ▸ hrun, hleast⟩

/-- **A word** is replaced if it is a run, and kept if not. -/
theorem replaceAll_word (h : ∀ c ∈ cs, isWord c = true) (hne : cs ≠ []) :
    r.replaceAll mark cs = if r.Covers cs then mark else cs := by
  obtain ⟨c, w, rfl⟩ := List.exists_cons_of_ne_nil hne
  unfold replaceAll
  rw [replaceFrom, first_word h hne]
  by_cases hcovers : r.Covers (c :: w)
  · -- the match covers the rest of the word
    rw [if_pos hcovers, if_pos hcovers]
    show mark ++ r.replaceFrom mark w.length (isWord c) w = mark
    rw [replaceFrom_length, List.append_nil]
  · rw [if_neg hcovers, if_neg hcovers, h c List.mem_cons_self]
    exact congrArg (c :: ·) (replaceFrom_within fun d hd => h d (List.mem_cons_of_mem _ hd))

end WordRun

end Regex
