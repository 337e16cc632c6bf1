/-
NexCause/LogStamps.lean

A line of a log behind its time, as the API server writes it with
`timestamps=true`: what the redaction, the classes and the patterns of the log
lines make of the time.

The redaction and the classes pass it over.  The patterns do not: what is left
of it (`Stamp.worn`) still has the day with the hour, and the last digits before
a `Z`.

Main results: the redaction passes the time over (`redact_stamp`), and so do the
classes (`classify_stamp`) and the search for a `Traceback` (`traceback_stamp`);
the normalisation leaves `Stamp.worn` of it (`normalizeText_stamp`).
-/
import Mathlib
import NexCause.LogPatterns
import NexCause.RedactionPatterns

namespace NexCause.Preprocess

open Regex

/-! ### Timestamps -/

/-- Between `least` and `most` decimal digits. -/
structure Digits (least most : ℕ) where
  chars : List Char
  least_le : least ≤ chars.length
  le_most : chars.length ≤ most
  isDigit : ∀ c ∈ chars, c.isDigit = true

/-- `Z`, or an offset from UTC. -/
inductive Zone
  | utc
  | offset (east : Bool) (hours minutes : Digits 2 2)

/-- A time as RFC 3339 writes it, with up to nine digits of a second. -/
structure Stamp where
  year : Digits 4 4
  month : Digits 2 2
  day : Digits 2 2
  hour : Digits 2 2
  minute : Digits 2 2
  second : Digits 2 2
  fraction : Digits 0 9
  zone : Zone

/-- The offset as it is written: `Z`, or a sign with hours and minutes. -/
def Zone.text : Zone → List Char
  | utc => ['Z']
  | offset east hours minutes =>
      (if east then '+' else '-') :: (hours.chars ++ ':' :: minutes.chars)

/-- The fraction behind its point, if there is one. -/
def Stamp.fractionText (s : Stamp) : List Char :=
  if s.fraction.chars = [] then [] else '.' :: s.fraction.chars

def Stamp.date (s : Stamp) : List Char :=
  s.year.chars ++ '-' :: (s.month.chars ++ '-' :: s.day.chars)

def Stamp.time (s : Stamp) : List Char :=
  s.hour.chars ++ ':' ::
    (s.minute.chars ++ ':' :: (s.second.chars ++ (s.fractionText ++ s.zone.text)))

/-- The time as it is written. -/
def Stamp.text (s : Stamp) : List Char := s.date ++ 'T' :: s.time

/-- The mark of a number, and that of an identifier. -/
def numberMark : List Char := "<number>".toList

def identifierMark : List Char := "<id>".toList

/-- What the normalisation leaves of the end of a time.  Digits in front of a `Z`
are no number. -/
def Stamp.wornEnd (s : Stamp) : List Char :=
  match s.zone with
  | .utc =>
      if s.fraction.chars = [] then s.second.chars ++ ['Z']
      else numberMark ++ '.' :: (s.fraction.chars ++ ['Z'])
  | .offset east _ _ =>
      let zone := (if east then '+' else '-') :: (numberMark ++ ':' :: numberMark)
      if s.fraction.chars = [] then numberMark ++ zone
      else numberMark ++ '.' ::
        ((if 8 ≤ s.fraction.chars.length then identifierMark else numberMark) ++ zone)

/-- What the normalisation leaves of a time: the day and the hour are no numbers, as
a letter joins them. -/
def Stamp.worn (s : Stamp) : List Char :=
  numberMark ++ '-' :: (numberMark ++ '-' ::
    (s.day.chars ++ 'T' :: s.hour.chars ++ ':' :: (numberMark ++ ':' :: s.wornEnd)))

/-! ### What passes a time over -/

/-- A character that starts neither a credential nor a word of a class. -/
def quiet (c : Char) : Bool :=
  !(c.toLower ∈ ['p', 's', 't', 'a', 'e', 'f', 'w']) && c ≠ '\u017f'

theorem quiet_of_isDigit {c : Char} (h : c.isDigit = true) : quiet c = true := by
  have hall : ∀ n < 128, (Char.ofNat n).isDigit = true → quiet (Char.ofNat n) = true := by decide
  have hlt : c.toNat < 128 := toNat_lt_of_isAlphanum (by simp [isAlphanum_eq, h])
  exact forall_ascii (P := fun c => c.isDigit = true → quiet c = true) hall hlt h

/-- The spaces, one by one. -/
def spaces : List Char :=
  ['\t', '\n', '\u000b', '\u000c', '\r', ' ', '\u0085', '\u00a0', '\u1680', '\u2028', '\u2029',
    '\u202f', '\u205f', '\u3000'] ++ (List.range 11).map fun n => Char.ofNat (0x2000 + n)

/-- There are no others. -/
theorem mem_spaces {c : Char} (h : Go.isSpace c = true) : c ∈ spaces := by
  unfold spaces
  rcases Bool.or_eq_true_iff.mp h with hmem | hrange
  · exact List.mem_append_left _ (of_decide_eq_true hmem)
  · obtain ⟨hlow, hhigh⟩ := Bool.and_eq_true_iff.mp hrange
    have hlow' : 0x2000 ≤ c.toNat := of_decide_eq_true hlow
    have hhigh' : c.toNat ≤ 0x200a := of_decide_eq_true hhigh
    apply List.mem_append_right
    rw [List.mem_map]
    refine ⟨c.toNat - 0x2000, List.mem_range.mpr (by omega), ?_⟩
    rw [Nat.add_sub_cancel' hlow', Char.ofNat_toNat]

theorem quiet_of_isSpace {c : Char} (h : Go.isSpace c = true) : quiet c = true := by
  have hall : ∀ c ∈ spaces, quiet c = true := forall_mem_of_all (by decide)
  exact hall c (mem_spaces h)

theorem isWord_of_isSpace {c : Char} (h : Go.isSpace c = true) : isWord c = false := by
  have hall : ∀ c ∈ spaces, isWord c = false := forall_mem_of_all (by decide)
  exact hall c (mem_spaces h)

/-- The letters with which a credential can start are not folded to it. -/
theorem fold_of_quiet {c : Char} (h : quiet c = true) :
    ∀ a ∈ ['p', 's', 't', 'a'], goFoldEq a c = false := by
  obtain ⟨hlower, hlong⟩ := Bool.and_eq_true_iff.mp h
  have hlower' : c.toLower ∉ ['p', 's', 't', 'a', 'e', 'f', 'w'] := by simpa using hlower
  have hlong' : c ≠ '\u017f' := of_decide_eq_true hlong
  have hstarts : ∀ a ∈ ['p', 's', 't', 'a'], a ∈ ['p', 's', 't', 'a', 'e', 'f', 'w'] ∧ a ≠ 'k' :=
    forall_mem_of_all (by decide)
  intro a ha
  obtain ⟨hmem, hk⟩ := hstarts a ha
  have hne : c.toLower ≠ a := fun heq => hlower' (heq ▸ hmem)
  simp [goFoldEq, hne, hlong', hk]

/-- The letters with which a word of a class can start are not its lower case. -/
theorem toLowerChar_of_quiet {c : Char} (h : quiet c = true) :
    Go.toLowerChar c ∉ ['e', 'f', 'p', 'w'] := by
  obtain ⟨hlower, -⟩ := Bool.and_eq_true_iff.mp h
  have hlower' : c.toLower ∉ ['p', 's', 't', 'a', 'e', 'f', 'w'] := by simpa using hlower
  unfold Go.toLowerChar
  split
  · decide
  · split
    · decide
    · intro hmem
      apply hlower'
      have hall : ∀ a ∈ ['e', 'f', 'p', 'w'], a ∈ ['p', 's', 't', 'a', 'e', 'f', 'w'] :=
        forall_mem_of_all (by decide)
      exact hall _ hmem

/-! ### Redaction -/

/-- A word does not match where its first letter does not. -/
theorem rests_word_cons {eq : Char → Char → Bool} {a c : Char} {w cs : List Char}
    (h : eq a c = false) : (word eq (a :: w)).rests (c :: cs) = [] := by
  simp [word, rests, h]

theorem rests_seq_nil {r s : Regex} {cs : List Char} (h : r.rests cs = []) :
    (seq r s).rests cs = [] := by
  rw [rests, h]
  rfl

/-- Where none of the words starts, no key does. -/
theorem rests_secretKeyWord {cs : List Char}
    (hpassword : (word goFoldEq "password".toList).rests cs = [])
    (hsecret : (word goFoldEq "secret".toList).rests cs = [])
    (htoken : (word goFoldEq "token".toList).rests cs = [])
    (hapi : (word goFoldEq "api".toList).rests cs = []) :
    (secretKeyWord goFoldEq).rests cs = [] := by
  unfold secretKeyWord
  rw [rests, rests, rests, hpassword, hsecret, htoken, rests_seq_nil hapi]
  rfl

theorem first_of_rests {pattern : Regex.Pattern} {cs : List Char}
    (h : pattern.captured.rests cs = []) : pattern.first cs = none := by
  unfold Pattern.first
  rw [h]
  rfl

/-- No credential starts with a quiet character. -/
theorem first_quiet {c : Char} (h : quiet c = true) :
    ∀ pattern ∈ secretPatterns, ∀ cs, pattern.first (c :: cs) = none := by
  have hp := fold_of_quiet h 'p' (by decide)
  have hs := fold_of_quiet h 's' (by decide)
  have ht := fold_of_quiet h 't' (by decide)
  have ha := fold_of_quiet h 'a' (by decide)
  intro pattern hpattern cs
  apply first_of_rests
  rcases List.mem_cons.mp hpattern with rfl | hpattern
  · exact rests_secretKeyWord (rests_word_cons hp) (rests_word_cons hs) (rests_word_cons ht)
      (rests_word_cons ha)
  · obtain rfl := List.mem_singleton.mp hpattern
    exact rests_seq_nil (rests_word_cons ha)

/-- Nor with a `T` in front of a digit. -/
theorem first_letter {d : Char} (hd : d.isDigit = true) :
    ∀ pattern ∈ secretPatterns, ∀ cs, pattern.first ('T' :: d :: cs) = none := by
  have ho : goFoldEq 'o' d = false := by
    have hall : ∀ n < 128, (Char.ofNat n).isDigit = true → goFoldEq 'o' (Char.ofNat n) = false := by
      decide
    have hlt : d.toNat < 128 := toNat_lt_of_isAlphanum (by simp [isAlphanum_eq, hd])
    exact forall_ascii (P := fun c => c.isDigit = true → goFoldEq 'o' c = false) hall hlt hd
  intro pattern hpattern cs
  apply first_of_rests
  rcases List.mem_cons.mp hpattern with rfl | hpattern
  · -- the `T` is the first letter of `token`, but no digit is the second
    have htoken : (word goFoldEq "token".toList).rests ('T' :: d :: cs) = [] := by
      have hrest : (word goFoldEq "oken".toList).rests (d :: cs) = [] := rests_word_cons ho
      show (seq (char (goFoldEq 't')) (word goFoldEq "oken".toList)).rests _ = []
      rw [rests, rests, if_pos (by decide), List.flatMap_singleton, hrest]
    exact rests_secretKeyWord (rests_word_cons (by decide)) (rests_word_cons (by decide)) htoken
      (rests_word_cons (by decide))
  · obtain rfl := List.mem_singleton.mp hpattern
    exact rests_seq_nil (rests_word_cons (by decide))

/-- What every pattern keeps, the redaction keeps. -/
theorem redact_append {xs : List Char} (h : ∀ pattern ∈ secretPatterns, ∀ ys,
    pattern.replaceAll redactedMark (xs ++ ys) = xs ++ pattern.replaceAll redactedMark ys)
    (ys : List Char) : redact (xs ++ ys) = xs ++ redact ys := by
  -- one pattern after the other
  unfold redact
  generalize secretPatterns = patterns at h
  induction patterns generalizing ys with
  | nil => rfl
  | cons pattern patterns ih =>
    rw [List.foldl_cons, List.foldl_cons, h pattern List.mem_cons_self]
    exact ih _ fun pattern hpattern => h pattern (List.mem_cons_of_mem _ hpattern)

/-- A text of quiet characters is kept. -/
theorem redact_quiet {xs : List Char} (h : ∀ c ∈ xs, quiet c = true) (ys : List Char) :
    redact (xs ++ ys) = xs ++ redact ys := by
  apply redact_append
  intro pattern hpattern ys
  apply Pattern.replaceAll_append
  intro end' hne hsuffix
  obtain ⟨c, cs, rfl⟩ := List.exists_cons_of_ne_nil hne
  exact first_quiet (h c (hsuffix.subset List.mem_cons_self)) pattern hpattern _

/-- So is a `T` in front of a digit. -/
theorem redact_letter {d : Char} (hd : d.isDigit = true) (cs : List Char) :
    redact ('T' :: d :: cs) = 'T' :: d :: redact cs := by
  show redact (['T', d] ++ cs) = ['T', d] ++ redact cs
  apply redact_append
  intro pattern hpattern cs
  show pattern.replaceAll redactedMark ('T' :: d :: cs) =
    'T' :: d :: pattern.replaceAll redactedMark cs
  rw [Pattern.replaceAll_cons (first_letter hd pattern hpattern cs),
    Pattern.replaceAll_cons (first_quiet (quiet_of_isDigit hd) pattern hpattern cs)]

/-! ### Classes -/

/-- A word that does not start at a character is behind it. -/
theorem contains_cons {c : Char} {text : List Char} {word : String}
    (h : ¬ word.toList <+: c :: text) : contains (c :: text) word = contains text word := by
  unfold contains
  rw [decide_eq_decide, List.infix_cons_iff]
  exact ⟨fun hin => hin.resolve_left h, .inr⟩

/-- A word is not found in a text that has none of its first letter. -/
theorem contains_append {xs text : List Char} {word : String} (hne : word.toList ≠ [])
    (h : ∀ c ∈ xs, word.toList.head? ≠ some c) :
    contains (xs ++ text) word = contains text word := by
  induction xs with
  | nil => rfl
  | cons c xs ih =>
    have hstart : ¬ word.toList <+: c :: (xs ++ text) := by
      obtain ⟨d, letters, hword⟩ := List.exists_cons_of_ne_nil hne
      have hd := h c List.mem_cons_self
      rw [hword] at hd ⊢
      intro hpre
      obtain rfl := (List.cons_prefix_cons.mp hpre).1
      exact hd rfl
    rw [List.cons_append, contains_cons hstart]
    exact ih fun c hc => h c (List.mem_cons_of_mem _ hc)

/-- A character whose lower case starts no word of a class. -/
def calm (c : Char) : Bool := !(Go.toLowerChar c ∈ ['e', 'f', 'p', 'w'])

/-- Calm characters do not change the class. -/
theorem classify_calm {xs : List Char} (h : ∀ c ∈ xs, calm c = true) (ys : List Char) :
    classifyLogLine (xs ++ ys) = classifyLogLine ys := by
  have hword : ∀ word ∈ ["error", "exception", "failed", "panic", "warn"],
      contains (Go.toLower (xs ++ ys)) word = contains (Go.toLower ys) word := by
    intro word hmem
    have hstarts : ∀ word ∈ ["error", "exception", "failed", "panic", "warn"],
        (word.toList.head?.any fun c => c ∈ ['e', 'f', 'p', 'w']) = true :=
      forall_mem_of_all (by decide)
    -- the letter with which the word starts is none of theirs
    obtain ⟨letter, hletter, hstart⟩ := (Option.any_eq_true _ _).mp (hstarts word hmem)
    unfold Go.toLower
    rw [List.map_append]
    apply contains_append
    · rintro hnil
      rw [hnil] at hletter
      cases hletter
    · intro c hc hhead
      obtain ⟨d, hd, rfl⟩ := List.mem_map.mp hc
      have hcalm : Go.toLowerChar d ∉ ['e', 'f', 'p', 'w'] := by simpa [calm] using h d hd
      obtain rfl := Option.some.inj (hletter.symm.trans hhead)
      exact hcalm (of_decide_eq_true hstart)
  unfold classifyLogLine
  dsimp only
  rw [hword _ (by decide), hword _ (by decide), hword _ (by decide), hword _ (by decide),
    hword _ (by decide)]

/-! ### Times -/

section Times

variable (s : Stamp)

theorem Digits.ne_nil {least most : ℕ} (d : Digits least most) (h : 0 < least) : d.chars ≠ [] :=
  List.ne_nil_of_length_pos (h.trans_le d.least_le)

/-- The characters of a time other than the `T`. -/
def timeChar (c : Char) : Bool := c.isDigit || c ∈ ['-', ':', '.', 'Z', '+']

theorem timeChar_digits {least most : ℕ} (d : Digits least most) :
    ∀ c ∈ d.chars, timeChar c = true := by
  intro c hc
  simp [timeChar, d.isDigit c hc]

theorem timeChar_date : ∀ c ∈ s.date, timeChar c = true := by
  unfold Stamp.date
  simp only [List.forall_mem_append, List.forall_mem_cons]
  exact ⟨timeChar_digits _, by decide, timeChar_digits _, by decide, timeChar_digits _⟩

theorem timeChar_zone (z : Zone) : ∀ c ∈ z.text, timeChar c = true := by
  cases z with
  | utc => simp [Zone.text, timeChar]
  | offset east hours minutes =>
    have hsign : timeChar (if east then '+' else '-') = true := by cases east <;> decide
    unfold Zone.text
    simp only [List.forall_mem_append, List.forall_mem_cons]
    exact ⟨hsign, timeChar_digits _, by decide, timeChar_digits _⟩

theorem timeChar_fraction : ∀ c ∈ s.fractionText, timeChar c = true := by
  unfold Stamp.fractionText
  split
  · exact nofun
  · exact List.forall_mem_cons.mpr ⟨by decide, timeChar_digits _⟩

/-- What stands behind the `T` of a time is of its characters. -/
theorem timeChar_time : ∀ c ∈ s.time, timeChar c = true := by
  unfold Stamp.time
  simp only [List.forall_mem_append, List.forall_mem_cons]
  exact ⟨timeChar_digits _, by decide, timeChar_digits _, by decide, timeChar_digits _,
    timeChar_fraction s, timeChar_zone _⟩

/-- The time starts with a digit. -/
theorem exists_time : ∃ d rest, d.isDigit = true ∧ s.time = d :: rest := by
  obtain ⟨d, digits, hhour⟩ := List.exists_cons_of_ne_nil (s.hour.ne_nil (by decide))
  have hd : d.isDigit = true := s.hour.isDigit d (hhour ▸ List.mem_cons_self)
  unfold Stamp.time
  rw [hhour]
  exact ⟨d, _, hd, rfl⟩

/-- Nothing in a time starts a credential or a word of a class. -/
theorem quiet_of_timeChar {c : Char} (h : timeChar c = true) : quiet c = true := by
  have hall : ∀ c ∈ ['-', ':', '.', 'Z', '+'], quiet c = true := forall_mem_of_all (by decide)
  rcases Bool.or_eq_true_iff.mp h with hdigit | hmem
  · exact quiet_of_isDigit hdigit
  · exact hall c (of_decide_eq_true hmem)

theorem calm_of_quiet {c : Char} (h : quiet c = true) : calm c = true := by
  simpa [calm] using toLowerChar_of_quiet h

/-- The redaction passes a time over. -/
theorem redact_stamp (ys : List Char) : redact (s.text ++ ys) = s.text ++ redact ys := by
  obtain ⟨d, rest, hd, htime⟩ := exists_time s
  have hdate : ∀ c ∈ s.date, quiet c = true := fun c hc => quiet_of_timeChar (timeChar_date s c hc)
  have hrest : ∀ c ∈ rest, quiet c = true := fun c hc =>
    quiet_of_timeChar (timeChar_time s c (htime ▸ List.mem_cons_of_mem _ hc))
  have htext : ∀ zs, s.text ++ zs = s.date ++ 'T' :: d :: (rest ++ zs) := by
    intro zs
    unfold Stamp.text
    rw [htime, List.append_assoc]
    rfl
  rw [htext, redact_quiet hdate, redact_letter hd, redact_quiet hrest, htext]

/-- So do the classes. -/
theorem classify_stamp (ys : List Char) : classifyLogLine (s.text ++ ys) = classifyLogLine ys := by
  apply classify_calm
  intro c hc
  rcases List.mem_append.mp hc with hc | hc
  · exact calm_of_quiet (quiet_of_timeChar (timeChar_date s c hc))
  · rcases List.mem_cons.mp hc with rfl | hc
    · decide
    · exact calm_of_quiet (quiet_of_timeChar (timeChar_time s c hc))

theorem ne_of_timeChar {c : Char} (h : timeChar c = true) : 'T' ≠ c := by
  rintro rfl
  exact absurd h (by decide)

/-- The `T` of a time starts no `Traceback`, as a digit follows it. -/
theorem traceback_stamp (ys : List Char) :
    contains (s.text ++ ys) "Traceback" = contains ys "Traceback" := by
  obtain ⟨d, rest, hd, htime⟩ := exists_time s
  have hpass : ∀ xs : List Char, (∀ c ∈ xs, timeChar c = true) → ∀ zs,
      contains (xs ++ zs) "Traceback" = contains zs "Traceback" := by
    intro xs hxs zs
    apply contains_append (by decide)
    intro c hc hhead
    exact ne_of_timeChar (hxs c hc) (Option.some.inj hhead)
  have hletter : ¬ "Traceback".toList <+: 'T' :: (s.time ++ ys) := by
    intro hpre
    have hr : "raceback".toList <+: s.time ++ ys := (List.cons_prefix_cons.mp hpre).2
    rw [htime] at hr
    obtain rfl := (List.cons_prefix_cons.mp hr).1
    exact absurd hd (by decide)
  have htext : s.text ++ ys = s.date ++ 'T' :: (s.time ++ ys) := by
    unfold Stamp.text
    rw [List.append_assoc]
    rfl
  rw [htext, hpass _ (timeChar_date s), contains_cons hletter, hpass _ (timeChar_time s)]

end Times

/-! ### Normal forms -/

/-- The words of a text end at a character that is none of a word's, and so does its
normalisation. -/
theorem normalizeText_append {c : Char} (hc : isWord c = false) (a b : List Char) :
    normalizeText (a ++ c :: b) = normalizeText a ++ c :: normalizeText b := by
  unfold normalizeText
  rw [WordRun.replaceAll_append hc, WordRun.replaceAll_append hc]

/-- Words of other characters than those of an identifier are kept. -/
theorem normalizeText_kept {w : List Char} (hword : ∀ c ∈ w, isWord c = true) {c : Char}
    (hc : c ∈ w) (hcls : identifierRun.cls c = false) : normalizeText w = w := by
  have hne : w ≠ [] := List.ne_nil_of_mem hc
  have hidentifier : ¬ identifierRun.Covers w := by
    intro hcovers
    rw [hcovers.1 c hc] at hcls
    cases hcls
  have hnumber : ¬ numberRun.Covers w := by
    intro hcovers
    have hdigit : c.isDigit = true := hcovers.1 c hc
    have hin : identifierRun.cls c = true := by simp [identifierRun, hdigit]
    rw [hin] at hcls
    cases hcls
  unfold normalizeText
  rw [WordRun.replaceAll_word hword hne, if_neg hidentifier, WordRun.replaceAll_word hword hne,
    if_neg hnumber]

/-- A number of eight digits passes for an identifier. -/
theorem normalizeText_digits {w : List Char} (h : ∀ c ∈ w, c.isDigit = true) (hne : w ≠ []) :
    normalizeText w = if 8 ≤ w.length then identifierMark else numberMark := by
  have hword : ∀ c ∈ w, isWord c = true := fun c hc => numberRun.isWord_of_cls c (h c hc)
  have hcls : ∀ c ∈ w, identifierRun.cls c = true := fun c hc => by simp [identifierRun, h c hc]
  unfold normalizeText
  rw [WordRun.replaceAll_word hword hne]
  by_cases hlong : 8 ≤ w.length
  · -- its mark has no number in it
    have hcovers : identifierRun.Covers w := ⟨hcls, hlong⟩
    rw [if_pos hcovers, if_pos hlong]
    decide
  · have hshort : ¬ identifierRun.Covers w := fun hcovers => hlong hcovers.2
    have hcovers : numberRun.Covers w := ⟨h, List.length_pos_of_ne_nil hne⟩
    rw [if_neg hshort, if_neg hlong, WordRun.replaceAll_word hword hne, if_pos hcovers]
    rfl

/-- Two digits on their own are a number. -/
theorem normalizeText_two (d : Digits 2 2) : normalizeText d.chars = numberMark := by
  have hle := d.le_most
  rw [normalizeText_digits d.isDigit (d.ne_nil (by decide)), if_neg (by omega)]

theorem isWord_of_isDigit {c : Char} (h : c.isDigit = true) : isWord c = true :=
  numberRun.isWord_of_cls c h

/-- An offset is worn down to its sign and two numbers. -/
theorem normalizeText_offset (east : Bool) (hours minutes : Digits 2 2) (a : List Char) :
    normalizeText (a ++ (Zone.offset east hours minutes).text) =
      normalizeText a ++ (if east then '+' else '-') :: (numberMark ++ ':' :: numberMark) := by
  have hsign : isWord (if east then '+' else '-') = false := by cases east <;> decide
  unfold Zone.text
  rw [normalizeText_append hsign, normalizeText_append (by decide), normalizeText_two,
    normalizeText_two]

section Worn

variable (s : Stamp)

/-- The seconds, their fraction and the zone are worn down as `wornEnd` says. -/
theorem normalizeText_end :
    normalizeText (s.second.chars ++ (s.fractionText ++ s.zone.text)) = s.wornEnd := by
  have hletter : ∀ d : List Char, (∀ c ∈ d, c.isDigit = true) →
      normalizeText (d ++ ['Z']) = d ++ ['Z'] := by
    intro d hd
    apply normalizeText_kept (c := 'Z')
    · intro c hc
      rcases List.mem_append.mp hc with hc | hc
      · exact isWord_of_isDigit (hd c hc)
      · rw [List.mem_singleton.mp hc]
        decide
    · exact List.mem_append_right _ (List.mem_singleton_self _)
    · decide
  unfold Stamp.wornEnd Stamp.fractionText
  cases s.zone with
  | utc =>
    -- the last digits and the `Z` are one word
    dsimp only
    split
    · exact hletter _ s.second.isDigit
    · show normalizeText (s.second.chars ++ '.' :: (s.fraction.chars ++ ['Z'])) = _
      rw [normalizeText_append (by decide), normalizeText_two, hletter _ s.fraction.isDigit]
  | offset east hours minutes =>
    -- the sign ends the last word
    dsimp only
    split
    · rw [List.nil_append, normalizeText_offset, normalizeText_two]
    · rename_i hfraction
      rw [List.cons_append, normalizeText_append (by decide), normalizeText_two,
        normalizeText_offset, normalizeText_digits s.fraction.isDigit hfraction]

/-- **What is left of a time.** -/
theorem normalizeText_stamp : normalizeText s.text = s.worn := by
  have hyear : normalizeText s.year.chars = numberMark := by
    have hle := s.year.le_most
    rw [normalizeText_digits s.year.isDigit (s.year.ne_nil (by decide)), if_neg (by omega)]
  have hday : normalizeText (s.day.chars ++ 'T' :: s.hour.chars) =
      s.day.chars ++ 'T' :: s.hour.chars := by
    apply normalizeText_kept (c := 'T')
    · simp only [List.forall_mem_append, List.forall_mem_cons]
      exact ⟨fun c hc => isWord_of_isDigit (s.day.isDigit c hc), by decide,
        fun c hc => isWord_of_isDigit (s.hour.isDigit c hc)⟩
    · exact List.mem_append_right _ List.mem_cons_self
    · decide
  have htext : s.text = s.year.chars ++ '-' :: (s.month.chars ++ '-' ::
      (s.day.chars ++ 'T' :: s.hour.chars ++ ':' :: (s.minute.chars ++ ':' ::
        (s.second.chars ++ (s.fractionText ++ s.zone.text))))) := by
    simp [Stamp.text, Stamp.date, Stamp.time]
  -- word by word
  rw [htext, normalizeText_append (c := '-') (by decide),
    normalizeText_append (c := '-') (by decide), normalizeText_append (c := ':') (by decide),
    normalizeText_append (c := ':') (by decide), hyear, normalizeText_two, hday, normalizeText_two,
    normalizeText_end]
  rfl

/-- The characters of what is left of a time. -/
def wornChar (c : Char) : Bool :=
  c.isDigit || c ∈ numberMark || c ∈ identifierMark || c ∈ ['-', 'T', ':', '.', 'Z', '+']

theorem wornChar_digits {least most : ℕ} (d : Digits least most) :
    ∀ c ∈ d.chars, wornChar c = true := by
  intro c hc
  simp [wornChar, d.isDigit c hc]

theorem wornChar_marks : (∀ c ∈ numberMark, wornChar c = true) ∧
    ∀ c ∈ identifierMark, wornChar c = true := by
  constructor <;> exact forall_mem_of_all (by decide)

theorem wornChar_end : ∀ c ∈ s.wornEnd, wornChar c = true := by
  obtain ⟨hnumber, hidentifier⟩ := wornChar_marks
  unfold Stamp.wornEnd
  cases s.zone with
  | utc =>
    dsimp only
    split
    · simp only [List.forall_mem_append, List.forall_mem_singleton]
      exact ⟨wornChar_digits _, by decide⟩
    · simp only [List.forall_mem_append, List.forall_mem_cons]
      exact ⟨hnumber, by decide, wornChar_digits _, by decide, nofun⟩
  | offset east hours minutes =>
    have hsign : wornChar (if east then '+' else '-') = true := by cases east <;> decide
    dsimp only
    split
    · simp only [List.forall_mem_append, List.forall_mem_cons]
      exact ⟨hnumber, hsign, hnumber, by decide, hnumber⟩
    · have hfraction : ∀ c ∈ (if 8 ≤ s.fraction.chars.length then identifierMark else numberMark),
          wornChar c = true := by
        split
        · exact hidentifier
        · exact hnumber
      simp only [List.forall_mem_append, List.forall_mem_cons]
      exact ⟨hnumber, by decide, hfraction, hsign, hnumber, by decide, hnumber⟩

/-- A worn time has no other characters. -/
theorem wornChar_worn : ∀ c ∈ s.worn, wornChar c = true := by
  obtain ⟨hnumber, -⟩ := wornChar_marks
  unfold Stamp.worn
  simp only [List.forall_mem_append, List.forall_mem_cons]
  exact ⟨hnumber, by decide, hnumber, by decide, ⟨wornChar_digits _, by decide, wornChar_digits _⟩,
    by decide, hnumber, by decide, wornChar_end s⟩

/-- The end of a worn time is short, whatever the digits. -/
theorem length_end : s.wornEnd.length ≤ 40 := by
  have hsecond := s.second.le_most
  have hfraction := s.fraction.le_most
  have hnumber : numberMark.length = 8 := rfl
  have hidentifier : identifierMark.length = 4 := rfl
  unfold Stamp.wornEnd
  cases s.zone with
  | utc => dsimp only; split <;> simp <;> omega
  | offset east hours minutes => dsimp only; split <;> split <;> simp <;> omega

/-- It leaves room for the line. -/
theorem length_worn : s.worn.length ≤ 80 := by
  have hend := length_end s
  have hday := s.day.le_most
  have hhour := s.hour.le_most
  have hnumber : numberMark.length = 8 := rfl
  unfold Stamp.worn
  simp
  omega

/-- Its characters are ASCII, and no space. -/
theorem ascii_of_wornChar {c : Char} (h : wornChar c = true) : c.toNat < 128 ∧ c ≠ ' ' := by
  have hmarks : ∀ c ∈ numberMark ++ identifierMark ++ ['-', 'T', ':', '.', 'Z', '+'],
      c.toNat < 128 ∧ c ≠ ' ' := forall_mem_of_all (by decide)
  by_cases hdigit : c.isDigit = true
  · have hspace : c ≠ ' ' := by
      rintro rfl
      exact absurd hdigit (by decide)
    exact ⟨toNat_lt_of_isAlphanum (by simp [isAlphanum_eq, hdigit]), hspace⟩
  · apply hmarks
    simpa [wornChar, hdigit, or_assoc] using h

end Worn

end NexCause.Preprocess
