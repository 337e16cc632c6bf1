/-
NexCause/StampedLogs.lean

The logs of pods as Loki returns them, and as the API server does, which writes
the time and a space in front of every line.

The report does not change exactly if no line is a frame of a stack trace, which
is only known by its first characters, and the patterns agree up to what the
times leave of themselves (`Timeless`, `sameReport_iff_timeless`).
-/
import Mathlib
import NexCause.LogStamps

namespace NexCause.Preprocess

open Float64 Regex

/-! ### Lines with their times -/

structure StampedLine where
  stamp : Stamp
  text : List Char
  oneLine : '\n' ∉ text

structure StampedLog where
  podName : String
  lines : List StampedLine

/-- The line behind its time, as `timestamps=true` asks for it. -/
def StampedLine.stamped (l : StampedLine) : List Char := l.stamp.text ++ ' ' :: l.text

/-- The log of a pod whose lines are written in some way. -/
def StampedLog.write (line : StampedLine → List Char) (log : StampedLog) : PodLog :=
  ⟨log.podName, ['\n'].intercalate (log.lines.map line)⟩

/-- The logs as Loki returns them. -/
def bareLogs (pods : List StampedLog) : List PodLog := pods.map (StampedLog.write StampedLine.text)

/-- The logs as the API server returns them. -/
def stampedLogs (pods : List StampedLog) : List PodLog :=
  pods.map (StampedLog.write StampedLine.stamped)

def allLines (pods : List StampedLog) : List StampedLine := pods.flatMap StampedLog.lines

/-- A line as the report shows it. -/
def shown (line : List Char) : List Char := redact (Go.trimSpace line)

/-! ### Blanks -/

theorem isSpace_of_blank {line : List Char} (h : Go.trimSpace line = []) :
    ∀ c ∈ line, Go.isSpace c = true := by
  intro c hc
  by_contra hspace
  exact Go.trimSpace_ne_nil hc hspace h

section Trim

variable {xs line : List Char} (hne : xs ≠ []) (hxs : ∀ c ∈ xs, Go.isSpace c = false)

include hne hxs

theorem dropWhile_solid (ys : List Char) : (xs ++ ys).dropWhile Go.isSpace = xs ++ ys := by
  obtain ⟨c, cs, rfl⟩ := List.exists_cons_of_ne_nil hne
  exact List.dropWhile_cons_of_neg (by simp [hxs c List.mem_cons_self])

/-- Behind a text without blanks, a blank line is trimmed. -/
theorem trimSpace_append_blank (h : Go.trimSpace line = []) :
    Go.trimSpace (xs ++ ' ' :: line) = xs := by
  -- the end is trimmed up to the text
  have hblank : ∀ c ∈ (' ' :: line).reverse, Go.isSpace c = true := by
    intro c hc
    rcases List.mem_cons.mp (List.mem_reverse.mp hc) with rfl | hc
    · decide
    · exact isSpace_of_blank h c hc
  have hend : xs.reverse.dropWhile Go.isSpace = xs.reverse := by
    have hsolid : (xs.reverse ++ []).dropWhile Go.isSpace = xs.reverse ++ [] :=
      dropWhile_solid (List.reverse_ne_nil_iff.mpr hne)
        (fun c hc => hxs c (List.mem_reverse.mp hc)) []
    rwa [List.append_nil] at hsolid
  unfold Go.trimSpace
  rw [dropWhile_solid hne hxs, List.reverse_append, List.dropWhile_append_of_pos hblank, hend,
    List.reverse_reverse]

/-- Of another line, the blanks in front of it remain. -/
theorem trimSpace_append (h : Go.trimSpace line ≠ []) :
    Go.trimSpace (xs ++ ' ' :: line) =
      xs ++ ' ' :: (line.takeWhile Go.isSpace ++ Go.trimSpace line) := by
  have hkept : (line.dropWhile Go.isSpace).reverse.dropWhile Go.isSpace ≠ [] := by
    intro hnil
    apply h
    unfold Go.trimSpace
    rw [hnil]
    rfl
  -- the end is trimmed within what is left of the line
  have hsplit : xs ++ ' ' :: line =
      (xs ++ ' ' :: line.takeWhile Go.isSpace) ++ line.dropWhile Go.isSpace := by
    rw [List.append_assoc, List.cons_append, List.takeWhile_append_dropWhile]
  have hstart : (xs ++ ' ' :: line).dropWhile Go.isSpace = xs ++ ' ' :: line :=
    dropWhile_solid hne hxs _
  unfold Go.trimSpace
  rw [hstart, hsplit, List.reverse_append, List.dropWhile_append, if_neg (by simpa using hkept),
    List.reverse_append, List.reverse_reverse, List.append_assoc]
  rfl

end Trim

/-! ### A line behind its time -/

section Lines

variable (l : StampedLine)

/-- The blanks in front of the line. -/
def StampedLine.blanks : List Char := l.text.takeWhile Go.isSpace

theorem isSpace_blanks : ∀ c ∈ l.blanks, Go.isSpace c = true := fun _ hc =>
  List.mem_takeWhile_imp hc

theorem stamp_ne_nil (s : Stamp) : s.text ≠ [] := by
  unfold Stamp.text
  exact List.append_ne_nil_of_right_ne_nil _ (List.cons_ne_nil _ _)

/-- A time has no blanks. -/
theorem isSpace_stamp (s : Stamp) : ∀ c ∈ s.text, Go.isSpace c = false := by
  have hchar : ∀ c, timeChar c = true → Go.isSpace c = false := by
    intro c hc
    by_contra hspace
    have hall : ∀ c ∈ spaces, timeChar c = false := forall_mem_of_all (by decide)
    have hno := hall c (mem_spaces (by simpa using hspace))
    rw [hc] at hno
    cases hno
  intro c hc
  rcases List.mem_append.mp hc with hc | hc
  · exact hchar c (timeChar_date s c hc)
  · rcases List.mem_cons.mp hc with rfl | hc
    · decide
    · exact hchar c (timeChar_time s c hc)

theorem shown_stamped_blank (h : Go.trimSpace l.text = []) : shown l.stamped = l.stamp.text := by
  unfold shown StampedLine.stamped
  rw [trimSpace_append_blank (stamp_ne_nil _) (isSpace_stamp _) h]
  have hredact := redact_stamp l.stamp []
  rw [List.append_nil] at hredact
  rw [hredact]
  exact List.append_nil _

/-- The report shows the time, the blanks and the line. -/
theorem shown_stamped (h : Go.trimSpace l.text ≠ []) :
    shown l.stamped = l.stamp.text ++ ' ' :: (l.blanks ++ shown l.text) := by
  have hquiet : ∀ c ∈ ' ' :: l.blanks, quiet c = true :=
    List.forall_mem_cons.mpr ⟨by decide, fun c hc => quiet_of_isSpace (isSpace_blanks l c hc)⟩
  unfold shown StampedLine.stamped
  rw [trimSpace_append (stamp_ne_nil _) (isSpace_stamp _) h, redact_stamp]
  exact congrArg _ (redact_quiet hquiet _)

/-- The class is that of the line. -/
theorem classify_stamped : classifyLogLine (shown l.stamped) = classifyLogLine (shown l.text) := by
  by_cases hblank : Go.trimSpace l.text = []
  · have hclass := classify_stamp l.stamp []
    rw [List.append_nil] at hclass
    rw [shown_stamped_blank l hblank, hclass]
    unfold shown
    rw [hblank]
    rfl
  · have hcalm : ∀ c ∈ ' ' :: l.blanks, calm c = true := List.forall_mem_cons.mpr
      ⟨by decide, fun c hc => calm_of_quiet (quiet_of_isSpace (isSpace_blanks l c hc))⟩
    rw [shown_stamped l hblank, classify_stamp]
    exact classify_calm hcalm _

/-- A `Traceback` is found behind the time, a frame is not. -/
theorem isStackTrace_stamped :
    isStackTrace (shown l.stamped) = contains (shown l.text) "Traceback" := by
  -- a time starts with a digit
  have hstart : ∀ ys, "at ".toList.isPrefixOf (l.stamp.text ++ ys) = false := by
    intro ys
    obtain ⟨d, digits, hyear⟩ := List.exists_cons_of_ne_nil (l.stamp.year.ne_nil (by decide))
    have hd : d.isDigit = true := l.stamp.year.isDigit d (hyear ▸ List.mem_cons_self)
    have hne : ('a' == d) = false := by
      apply beq_false_of_ne
      rintro rfl
      exact absurd hd (by decide)
    unfold Stamp.text Stamp.date
    rw [hyear]
    show (('a' == d) && _) = false
    rw [hne]
    rfl
  unfold isStackTrace
  by_cases hblank : Go.trimSpace l.text = []
  · have htext := traceback_stamp l.stamp []
    have hno := hstart []
    rw [List.append_nil] at htext hno
    rw [shown_stamped_blank l hblank, hno, htext, Bool.false_or]
    unfold shown
    rw [hblank]
    rfl
  · have hpass : ∀ c ∈ ' ' :: l.blanks, "Traceback".toList.head? ≠ some c := by
      intro c hc hhead
      obtain rfl := Option.some.inj hhead
      rcases List.mem_cons.mp hc with hc | hc
      · exact absurd hc (by decide)
      · exact absurd (isSpace_blanks l _ hc) (by decide)
    rw [shown_stamped l hblank, hstart, traceback_stamp, Bool.false_or]
    exact contains_append (by decide) hpass

/-! ### Patterns -/

/-- The normal form of a line, before it is cut. -/
def StampedLine.normal : List UInt8 := Utf8.encode (normalizeText (shown l.text))

/-- What a pattern has room for behind the time. -/
def StampedLine.kept : List UInt8 :=
  (Utf8.encode l.blanks ++ l.normal).take (159 - l.stamp.worn.length)

theorem normalizeLogPattern_eq (line : List Char) :
    normalizeLogPattern line = (Utf8.encode (normalizeText line)).take 160 := by
  unfold normalizeLogPattern
  dsimp only
  split
  · rfl
  · rw [List.take_of_length_le (by omega)]

theorem encode_append (a b : List Char) :
    Utf8.encode (a ++ b) = Utf8.encode a ++ Utf8.encode b := List.flatMap_append

theorem encode_ascii {text : List Char} (h : ∀ c ∈ text, c.toNat < 128) :
    Utf8.encode text = text.map fun c => UInt8.ofNat c.toNat := by
  induction text with
  | nil => rfl
  | cons c text ih =>
    have hc : c.toNat < 0x80 := h c List.mem_cons_self
    have hrest := ih fun c hc => h c (List.mem_cons_of_mem _ hc)
    show Utf8.encodeChar c ++ Utf8.encode text = _
    unfold Utf8.encodeChar
    dsimp only
    rw [if_pos hc, hrest]
    rfl

/-- Blanks are kept. -/
theorem normalizeText_blanks {bs : List Char} (h : ∀ c ∈ bs, isWord c = false) (ys : List Char) :
    normalizeText (bs ++ ys) = bs ++ normalizeText ys := by
  induction bs with
  | nil => rfl
  | cons c bs ih =>
    have hc := h c List.mem_cons_self
    have hstep := normalizeText_append hc [] (bs ++ ys)
    rw [ih fun c hc => h c (List.mem_cons_of_mem _ hc)] at hstep
    exact hstep

theorem length_encode_worn (s : Stamp) : (Utf8.encode s.worn).length = s.worn.length := by
  rw [encode_ascii fun c hc => (ascii_of_wornChar (wornChar_worn s c hc)).1, List.length_map]

theorem space_notMem_worn (s : Stamp) : UInt8.ofNat 32 ∉ Utf8.encode s.worn := by
  rw [encode_ascii fun c hc => (ascii_of_wornChar (wornChar_worn s c hc)).1]
  intro hmem
  obtain ⟨c, hc, hbyte⟩ := List.mem_map.mp hmem
  obtain ⟨hascii, hspace⟩ := ascii_of_wornChar (wornChar_worn s c hc)
  have hnat := congrArg UInt8.toNat hbyte
  rw [Utf8.toNat_ofNat_of_lt (by omega), Utf8.toNat_ofNat_of_lt (by omega)] at hnat
  apply hspace
  rw [← Char.ofNat_toNat c, hnat]

/-- A pattern with its time. -/
theorem pattern_stamped (h : Go.trimSpace l.text ≠ []) :
    normalizeLogPattern (shown l.stamped) =
      Utf8.encode l.stamp.worn ++ UInt8.ofNat 32 :: l.kept := by
  have hnormal : normalizeText (shown l.stamped) =
      l.stamp.worn ++ ' ' :: (l.blanks ++ normalizeText (shown l.text)) := by
    rw [shown_stamped l h, normalizeText_append (by decide), normalizeText_stamp,
      normalizeText_blanks fun c hc => isWord_of_isSpace (isSpace_blanks l c hc)]
  -- what is left of the time and the space are never cut
  have hroom := length_worn l.stamp
  have hcut : 160 - l.stamp.worn.length = (159 - l.stamp.worn.length) + 1 := by omega
  have hspace : Utf8.encode (' ' :: (l.blanks ++ normalizeText (shown l.text))) =
      UInt8.ofNat 32 :: (Utf8.encode l.blanks ++ l.normal) := by
    unfold StampedLine.normal
    rw [← encode_append]
    rfl
  have hfits : (Utf8.encode l.stamp.worn).take 160 = Utf8.encode l.stamp.worn :=
    List.take_of_length_le (by rw [length_encode_worn]; omega)
  rw [normalizeLogPattern_eq, hnormal, encode_append, hspace, List.take_append, hfits,
    length_encode_worn, hcut, List.take_succ_cons]
  rfl

/-- The parts before and behind the first mark. -/
theorem append_cons_unique {α : Type} {mark : α} {xs xs' ys ys' : List α} (hxs : mark ∉ xs)
    (hxs' : mark ∉ xs') (h : xs ++ mark :: ys = xs' ++ mark :: ys') : xs = xs' ∧ ys = ys' := by
  induction xs generalizing xs' with
  | nil =>
    cases xs' with
    | nil => exact ⟨rfl, (List.cons.inj h).2⟩
    | cons x' xs' => exact absurd ((List.cons.inj h).1 ▸ List.mem_cons_self) hxs'
  | cons x xs ih =>
    cases xs' with
    | nil => exact absurd ((List.cons.inj h).1 ▸ List.mem_cons_self) hxs
    | cons x' xs' =>
      obtain ⟨rfl, htail⟩ := List.cons.inj h
      obtain ⟨rfl, hys⟩ := ih (fun hin => hxs (List.mem_cons_of_mem _ hin))
        (fun hin => hxs' (List.mem_cons_of_mem _ hin)) htail
      exact ⟨rfl, hys⟩

/-- The patterns of two lines with their times. -/
theorem pattern_stamped_eq_iff {a b : StampedLine} (ha : Go.trimSpace a.text ≠ [])
    (hb : Go.trimSpace b.text ≠ []) :
    normalizeLogPattern (shown a.stamped) = normalizeLogPattern (shown b.stamped) ↔
      a.stamp.worn = b.stamp.worn ∧ a.kept = b.kept := by
  rw [pattern_stamped a ha, pattern_stamped b hb]
  constructor
  · intro h
    obtain ⟨hworn, hkept⟩ :=
      append_cons_unique (space_notMem_worn a.stamp) (space_notMem_worn b.stamp) h
    exact ⟨Utf8.encode_injective hworn, hkept⟩
  · rintro ⟨hworn, hkept⟩
    rw [hworn, hkept]

end Lines

/-! ### Counts -/

section Counts

variable {line : StampedLine → List Char} (hline : ∀ l, '\n' ∉ line l)

include hline

/-- The lines of a pod's log come apart again. -/
theorem visibleLines_write (log : StampedLog) : visibleLines (log.write line).logs =
    (log.lines.map fun l => Go.trimSpace (line l)).filter (· ≠ []) := by
  unfold StampedLog.write
  rw [visibleLines_intercalate, List.flatMap_map]
  induction log.lines with
  | nil => rfl
  | cons l lines ih =>
    rw [List.flatMap_cons, visibleLines_oneLine (hline l), ih, ← List.filter_append]
    rfl

theorem podLogLines_write (pods : List StampedLog) :
    ((pods.map (StampedLog.write line)).flatMap podLogLines).map Prod.snd =
      ((allLines pods).map fun l => Go.trimSpace (line l)).filter (· ≠ []) := by
  unfold allLines
  rw [List.flatMap_map, List.map_flatMap, List.map_flatMap, List.filter_flatMap]
  congr 1
  funext log
  unfold podLogLines
  rw [List.map_map, visibleLines_write hline]
  exact List.map_id _

variable {pods : List StampedLog} {maxLines : ℤ} (hmax : (allLines pods).length ≤ maxLines)

include hmax

/-- With room for all lines, what does not count for a blank line is counted over
all of them. -/
theorem countP_scanLogs {count : Sample → Bool} {p : List Char → Bool}
    (hcount : ∀ name text, count (logSample (name, text)) = p text) (hnil : p [] = false) :
    (scanLogs maxLines (pods.map (StampedLog.write line))).lines.countP count =
      (allLines pods).countP fun l => p (Go.trimSpace (line l)) := by
  have hafter := (logLines_eq maxLines (pods.map (StampedLog.write line))).1
  rw [← scanLogs_toLogState] at hafter
  have hlength : ((pods.map (StampedLog.write line)).flatMap podLogLines).length ≤
      maxLines.toNat := by
    have hfilter := List.length_filter_le (· ≠ [])
      ((allLines pods).map fun l => Go.trimSpace (line l))
    rw [← podLogLines_write hline, List.length_map, List.length_map] at hfilter
    omega
  have hsamples : count ∘ logSample = p ∘ Prod.snd := by
    funext sample
    exact hcount sample.1 sample.2
  -- a blank line is not there, and would not count
  have hblank : ∀ text, (p text && decide (text ≠ [])) = p text := by
    intro text
    cases text with
    | nil => rw [hnil]; rfl
    | cons c text => simp
  rw [hafter, List.take_of_length_le hlength, List.countP_map, hsamples, ← List.countP_map,
    podLogLines_write hline, List.countP_filter, List.countP_map]
  apply List.countP_congr
  intro l _
  show (p (Go.trimSpace (line l)) && decide (Go.trimSpace (line l) ≠ [])) = true ↔ _
  rw [hblank]

theorem errorCount_write :
    (logLines maxLines (pods.map (StampedLog.write line))).errorCount =
      (allLines pods).countP fun l => decide (classifyLogLine (shown (line l)) = .error) := by
  rw [← scanLogs_toLogState, (scanLogs_counts _ _).errorCount]
  exact countP_scanLogs hline hmax
    (p := fun text => decide (classifyLogLine (redact text) = .error)) (fun _ _ => rfl) (by decide)

theorem stackTraceCount_write :
    (logLines maxLines (pods.map (StampedLog.write line))).stackTraceCount =
      (allLines pods).countP fun l => isStackTrace (shown (line l)) := by
  rw [← scanLogs_toLogState, (scanLogs_counts _ _).stackTraceCount]
  exact countP_scanLogs hline hmax (p := fun text => isStackTrace (redact text)) (fun _ _ => rfl)
    (by decide)

end Counts

theorem countP_eq_iff {α : Type} {p q : α → Bool} {xs : List α}
    (h : ∀ x ∈ xs, q x = true → p x = true) :
    xs.countP q = xs.countP p ↔ ∀ x ∈ xs, p x = true → q x = true := by
  have hq : (xs.filter p).countP q = xs.countP q := by
    rw [List.countP_filter]
    apply List.countP_congr
    intro x hx
    rw [Bool.and_eq_true]
    exact ⟨And.left, fun hqx => ⟨hqx, h x hx hqx⟩⟩
  have hp : xs.countP p = (xs.filter p).length := List.countP_eq_length_filter
  rw [← hq, hp, List.countP_eq_length]
  simp only [List.mem_filter, and_imp]

/-! ### The report -/

theorem countSignal_inj {name : String} {m n : ℕ} (h : countSignal name m = countSignal name n) :
    m = n := by
  unfold countSignal at h
  split at h <;> split at h
  · simpa using h
  · cases h
  · cases h
  · omega

theorem signals_logs (scope : Scope) (start stop : Go.Time) (podLogs : List PodLog) (maxLines : ℤ) :
    (logs scope start stop podLogs maxLines).signals =
      countSignal "log_errors_present" (logLines maxLines podLogs).errorCount ++
        countSignal "stack_traces_present" (logLines maxLines podLogs).stackTraceCount := rfl

/-- Two reports with the same counts and the same signals. -/
structure SameCounts (a b : Bundle) : Prop where
  errorLineCount : a.stats.lookup "errorLineCount" = b.stats.lookup "errorLineCount"
  stackTraceCount : a.stats.lookup "stackTraceCount" = b.stats.lookup "stackTraceCount"
  signals : a.signals = b.signals

/-- The report does not depend on whether the lines come with their times: with
room for all of them, the counts and the signals are the same, and so are the
lines that have a pattern in common. -/
structure SameReport (scope : Scope) (start stop : Go.Time) (pods : List StampedLog) : Prop where
  counts : ∀ maxLines : ℤ, (allLines pods).length ≤ maxLines →
    SameCounts (logs scope start stop (stampedLogs pods) maxLines)
      (logs scope start stop (bareLogs pods) maxLines)
  patterns : ∀ a ∈ allLines pods, ∀ b ∈ allLines pods,
    Go.trimSpace a.text ≠ [] → Go.trimSpace b.text ≠ [] →
    (normalizeLogPattern (shown a.stamped) = normalizeLogPattern (shown b.stamped) ↔
      normalizeLogPattern (shown a.text) = normalizeLogPattern (shown b.text))

/-- Nothing in the logs is told by the place where a line starts.  No line is a
frame, unless it is one by a `Traceback`, too.  And of two lines, the normal forms
agree as far as a pattern goes exactly if what is left of their times agrees, and
the lines do as far as there is room behind it. -/
structure Timeless (pods : List StampedLog) : Prop where
  frames : ∀ l ∈ allLines pods, "at ".toList <+: shown l.text →
    "Traceback".toList <:+: shown l.text
  together : ∀ a ∈ allLines pods, ∀ b ∈ allLines pods,
    Go.trimSpace a.text ≠ [] → Go.trimSpace b.text ≠ [] →
    a.normal.take 160 = b.normal.take 160 → a.stamp.worn = b.stamp.worn ∧ a.kept = b.kept
  apart : ∀ a ∈ allLines pods, ∀ b ∈ allLines pods,
    Go.trimSpace a.text ≠ [] → Go.trimSpace b.text ≠ [] →
    a.stamp.worn = b.stamp.worn → a.kept = b.kept → a.normal.take 160 = b.normal.take 160

section Report

variable {pods : List StampedLog}

theorem oneLine_stamped (l : StampedLine) : '\n' ∉ l.stamped := by
  intro hmem
  rcases List.mem_append.mp hmem with hmem | hmem
  · exact absurd (isSpace_stamp l.stamp _ hmem) (by decide)
  · rcases List.mem_cons.mp hmem with hmem | hmem
    · exact absurd hmem (by decide)
    · exact l.oneLine hmem

/-- The errors are counted alike. -/
theorem errorCount_stamped {maxLines : ℤ} (hmax : (allLines pods).length ≤ maxLines) :
    (logLines maxLines (stampedLogs pods)).errorCount =
      (logLines maxLines (bareLogs pods)).errorCount := by
  apply (errorCount_write oneLine_stamped hmax).trans
  apply Eq.trans _ (errorCount_write StampedLine.oneLine hmax).symm
  apply List.countP_congr
  intro l _
  rw [classify_stamped]

/-- The stack traces are counted alike exactly if there is no frame. -/
theorem stackTraceCount_stamped_iff {maxLines : ℤ} (hmax : (allLines pods).length ≤ maxLines) :
    (logLines maxLines (stampedLogs pods)).stackTraceCount =
      (logLines maxLines (bareLogs pods)).stackTraceCount ↔
      ∀ l ∈ allLines pods, "at ".toList <+: shown l.text →
        "Traceback".toList <:+: shown l.text := by
  have hstamped := stackTraceCount_write oneLine_stamped hmax
  have hbare := stackTraceCount_write StampedLine.oneLine hmax
  have htraceback : (fun l : StampedLine => isStackTrace (shown l.stamped)) =
      fun l => contains (shown l.text) "Traceback" := funext isStackTrace_stamped
  have hstart : ∀ l : StampedLine, isStackTrace (shown l.text) = true ↔
      "at ".toList <+: shown l.text ∨ "Traceback".toList <:+: shown l.text := by
    intro l
    unfold isStackTrace contains
    rw [Bool.or_eq_true, List.isPrefixOf_iff_prefix, decide_eq_true_eq]
  have hcontains : ∀ l : StampedLine, contains (shown l.text) "Traceback" = true ↔
      "Traceback".toList <:+: shown l.text := fun _ => decide_eq_true_iff
  unfold stampedLogs bareLogs
  rw [hstamped, hbare, htraceback, countP_eq_iff]
  · constructor
    · intro h l hl hframe
      exact (hcontains l).mp (h l hl ((hstart l).mpr (.inl hframe)))
    · intro h l hl htrace
      rcases (hstart l).mp htrace with hframe | hin
      · exact (hcontains l).mpr (h l hl hframe)
      · exact (hcontains l).mpr hin
  · intro l _ hin
    exact (hstart l).mpr (.inr ((hcontains l).mp hin))

/-- What the report needs. -/
theorem SameReport.timeless {scope : Scope} {start stop : Go.Time}
    (h : SameReport scope start stop pods) : Timeless pods := by
  have hpatterns : ∀ a ∈ allLines pods, ∀ b ∈ allLines pods,
      Go.trimSpace a.text ≠ [] → Go.trimSpace b.text ≠ [] →
      ((a.stamp.worn = b.stamp.worn ∧ a.kept = b.kept) ↔
        a.normal.take 160 = b.normal.take 160) := by
    intro a ha b hb hablank hbblank
    have hsame := h.patterns a ha b hb hablank hbblank
    rwa [pattern_stamped_eq_iff hablank hbblank, normalizeLogPattern_eq,
      normalizeLogPattern_eq] at hsame
  constructor
  · -- the signals of the errors are the same, and so those of the stack traces are
    have hsignals := (h.counts _ le_rfl).signals
    rw [signals_logs, signals_logs, errorCount_stamped le_rfl] at hsignals
    exact (stackTraceCount_stamped_iff le_rfl).mp
      (countSignal_inj (List.append_cancel_left hsignals))
  · intro a ha b hb hablank hbblank
    exact (hpatterns a ha b hb hablank hbblank).mpr
  · intro a ha b hb hablank hbblank hworn hkept
    exact (hpatterns a ha b hb hablank hbblank).mp ⟨hworn, hkept⟩

/-- What is enough for it. -/
theorem Timeless.sameReport (h : Timeless pods) (scope : Scope) (start stop : Go.Time) :
    SameReport scope start stop pods := by
  constructor
  · intro maxLines hmax
    have herrors := errorCount_stamped hmax
    have htraces := (stackTraceCount_stamped_iff hmax).mpr h.frames
    constructor
    · show some (ofInt _) = some (ofInt _)
      rw [herrors]
    · show some (ofInt _) = some (ofInt _)
      rw [htraces]
    · rw [signals_logs, signals_logs, herrors, htraces]
  · intro a ha b hb hablank hbblank
    rw [pattern_stamped_eq_iff hablank hbblank, normalizeLogPattern_eq, normalizeLogPattern_eq]
    constructor
    · rintro ⟨hworn, hkept⟩
      exact h.apart a ha b hb hablank hbblank hworn hkept
    · exact h.together a ha b hb hablank hbblank

/-- **The times make no difference exactly if nothing is told by where a line
starts.** -/
theorem sameReport_iff_timeless (scope : Scope) (start stop : Go.Time) (pods : List StampedLog) :
    SameReport scope start stop pods ↔ Timeless pods :=
  ⟨SameReport.timeless, fun h => h.sameReport scope start stop⟩

/-- Where every line starts without a blank and fits behind its time, only the frames
and what is left of the times matter. -/
theorem timeless_iff_of_fits (hfits : ∀ l ∈ allLines pods, Go.trimSpace l.text ≠ [] →
    l.blanks = [] ∧ l.normal.length ≤ 159 - l.stamp.worn.length) :
    Timeless pods ↔
      (∀ l ∈ allLines pods, "at ".toList <+: shown l.text → "Traceback".toList <:+: shown l.text) ∧
      ∀ a ∈ allLines pods, ∀ b ∈ allLines pods,
        Go.trimSpace a.text ≠ [] → Go.trimSpace b.text ≠ [] →
        a.normal = b.normal → a.stamp.worn = b.stamp.worn := by
  have hkept : ∀ l ∈ allLines pods, Go.trimSpace l.text ≠ [] →
      l.kept = l.normal ∧ l.normal.take 160 = l.normal := by
    intro l hl hblank
    obtain ⟨hblanks, hlength⟩ := hfits l hl hblank
    unfold StampedLine.kept
    rw [hblanks]
    exact ⟨List.take_of_length_le hlength, List.take_of_length_le (by omega)⟩
  constructor
  · intro h
    refine ⟨h.frames, fun a ha b hb hablank hbblank hnormal => ?_⟩
    exact (h.together a ha b hb hablank hbblank (congrArg _ hnormal)).1
  · rintro ⟨hframes, hworn⟩
    constructor
    · exact hframes
    · intro a ha b hb hablank hbblank hnormal
      obtain ⟨hakept, hawhole⟩ := hkept a ha hablank
      obtain ⟨hbkept, hbwhole⟩ := hkept b hb hbblank
      rw [hawhole, hbwhole] at hnormal
      rw [hakept, hbkept]
      exact ⟨hworn a ha b hb hablank hbblank hnormal, hnormal⟩
    · intro a ha b hb hablank hbblank _ hequal
      rw [(hkept a ha hablank).1, (hkept b hb hbblank).1] at hequal
      exact congrArg _ hequal

end Report

/-! ### Frames and ticks -/

def digits (chars : List Char) (least most : ℕ) (h : least ≤ chars.length ∧ chars.length ≤ most ∧
    chars.all Char.isDigit = true) : Digits least most :=
  ⟨chars, h.1, h.2.1, List.all_eq_true.mp h.2.2⟩

/-- The second of January 2024, at some hour. -/
def secondOfJanuary (hour : Digits 2 2) : Stamp where
  year := digits ['2', '0', '2', '4'] 4 4 (by decide)
  month := digits ['0', '1'] 2 2 (by decide)
  day := digits ['0', '2'] 2 2 (by decide)
  hour := hour
  minute := digits ['3', '0'] 2 2 (by decide)
  second := digits ['0', '0'] 2 2 (by decide)
  fraction := digits ['1', '2', '3', '4', '5', '6', '7', '8', '9'] 0 9 (by decide)
  zone := .utc

/-- One frame of a stack trace. -/
def frameLog : StampedLog :=
  ⟨"web", [⟨secondOfJanuary (digits ['1', '0'] 2 2 (by decide)), "at f.js:1".toList, by decide⟩]⟩

/-- The same line in two hours. -/
def tickLog : StampedLog :=
  ⟨"web", [⟨secondOfJanuary (digits ['1', '0'] 2 2 (by decide)), "tick".toList, by decide⟩,
    ⟨secondOfJanuary (digits ['1', '1'] 2 2 (by decide)), "tick".toList, by decide⟩]⟩

/-- The times hide the frame, and tell the ticks apart. -/
theorem times_matter : (∀ l ∈ allLines [frameLog, tickLog], (Utf8.encode l.text).length < 100) ∧
    ¬ SameReport ⟨"", "", "", "", "", ""⟩ 0 0 [frameLog] ∧
    ¬ SameReport ⟨"", "", "", "", "", ""⟩ 0 0 [tickLog] := by
  refine ⟨forall_mem_of_all (by decide), ?_, ?_⟩
  · intro h
    -- the line is a frame, and has no `Traceback`
    have htraceback := h.timeless.frames _ List.mem_cons_self (by decide)
    exact absurd htraceback (by decide)
  · intro h
    -- the ticks have one normal form, and the hours differ
    have hworn := h.timeless.together _ List.mem_cons_self _
      (List.mem_cons_of_mem _ List.mem_cons_self) (by decide) (by decide) rfl
    exact absurd hworn.1 (by decide)

end NexCause.Preprocess
