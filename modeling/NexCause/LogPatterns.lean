/-
NexCause/LogPatterns.lean

What the log bundle holds, and the patterns of its lines (`normalizeLogPattern`,
`topPatterns`) with it.

A pattern is the line with its identifiers and numbers taken out, cut to 160
bytes.  The counts are kept in a map, which is read in some order, sorted by
exchanges, and cut to eight entries.

Main result: the bundle is exact, whatever the order of the map (`logs_exact`).
-/
import Mathlib
import NexCause.LogLines

namespace NexCause.Preprocess

open Float64 Regex

/-! ### What is counted -/

/-- What every line keeps, the loop keeps. -/
theorem scanLogs_induction {P : LogScan → Prop} {maxLines : ℤ} (logs : List PodLog) (hstart : P {})
    (hline : ∀ podName s line, P s → P (scanLine maxLines podName s line)) :
    P (scanLogs maxLines logs) := by
  have hpod : ∀ podName (lines : List (List Char)) s, P s →
      P (lines.foldl (scanLine maxLines podName) s) := by
    intro podName lines
    induction lines with
    | nil => exact fun _ h => h
    | cons line lines ih => exact fun s h => ih _ (hline podName s line h)
  have hpods : ∀ s, P s → P (logs.foldl
      (fun s log => (log.logs.splitOn '\n').foldl (scanLine maxLines log.podName) s) s) := by
    induction logs with
    | nil => exact fun _ h => h
    | cons log logs ih => exact fun s h => ih _ (hpod _ _ s h)
  exact hpods {} hstart

def isErrorSample : Sample → Bool
  | .log _ _ cls => cls = .error
  | _ => false

def isStackTraceSample : Sample → Bool
  | .log _ line _ => isStackTrace line
  | _ => false

def samplePattern : Sample → Option LogPattern
  | .log _ line _ => some (normalizeLogPattern line)
  | _ => none

/-- The patterns in the order in which they came. -/
def countPatterns (patterns : List LogPattern) : List (LogPattern × ℕ) :=
  patterns.foldl (fun counts pattern => countPattern pattern counts) []

/-- The counts are those of the lines that are kept. -/
structure LogScan.Counts (s : LogScan) : Prop where
  errorCount : s.errorCount = s.lines.countP isErrorSample
  stackTraceCount : s.stackTraceCount = s.lines.countP isStackTraceSample
  patterns : s.patterns = countPatterns (s.lines.filterMap samplePattern)

/-- One more line is counted where it is sampled or dropped. -/
theorem LogScan.Counts.scanLine {s : LogScan} (h : s.Counts) (maxLines : ℤ) (podName : String)
    (line : List Char) : (scanLine maxLines podName s line).Counts := by
  unfold Preprocess.scanLine
  dsimp only
  split
  · exact h
  · split
    · exact ⟨h.errorCount, h.stackTraceCount, h.patterns⟩
    · -- the line is kept, and counted once in each place
      constructor
      · rw [List.countP_append, ← h.errorCount]
        simp [isErrorSample]
      · rw [List.countP_append, ← h.stackTraceCount, List.countP_singleton]
        rfl
      · rw [List.filterMap_append]
        simp [samplePattern, countPatterns, h.patterns]

theorem scanLogs_counts (maxLines : ℤ) (logs : List PodLog) : (scanLogs maxLines logs).Counts :=
  scanLogs_induction logs ⟨rfl, rfl, rfl⟩ fun podName _ line h => h.scanLine maxLines podName line

/-! ### The map -/

variable {pattern : LogPattern} {counts : List (LogPattern × ℕ)} {patterns : List LogPattern}

theorem countPattern_of_notMem (h : pattern ∉ counts.map Prod.fst) :
    countPattern pattern counts = counts ++ [(pattern, 1)] := by
  induction counts with
  | nil => rfl
  | cons entry counts ih =>
    obtain ⟨found, n⟩ := entry
    obtain ⟨hne, hrest⟩ := not_or.mp fun hmem => h (List.mem_cons.mpr hmem)
    rw [countPattern, if_neg (Ne.symm hne), ih hrest]
    rfl

/-- A pattern that has its entry is counted there. -/
theorem countPattern_append {before after : List (LogPattern × ℕ)} {n : ℕ}
    (h : pattern ∉ before.map Prod.fst) :
    countPattern pattern (before ++ (pattern, n) :: after) =
      before ++ (pattern, n + 1) :: after := by
  induction before with
  | nil => exact if_pos rfl
  | cons entry before ih =>
    obtain ⟨found, m⟩ := entry
    obtain ⟨hne, hrest⟩ := not_or.mp fun hmem => h (List.mem_cons.mpr hmem)
    rw [List.cons_append, countPattern, if_neg (Ne.symm hne), ih hrest]
    rfl

/-- The map has each pattern once, with its count. -/
structure Counted (patterns : List LogPattern) (counts : List (LogPattern × ℕ)) : Prop where
  nodup : (counts.map Prod.fst).Nodup
  mem_iff : ∀ pattern, pattern ∈ counts.map Prod.fst ↔ pattern ∈ patterns
  count : ∀ entry ∈ counts, entry.2 = patterns.count entry.1

/-- Another pattern's occurrences are not counted. -/
theorem count_append_singleton_of_ne {found : LogPattern} (h : found ≠ pattern) :
    (patterns ++ [pattern]).count found = patterns.count found := by
  rw [List.count_append, List.count_singleton, if_neg (by simpa using Ne.symm h), Nat.add_zero]

/-- One step of the count: the pattern's own entry grows, or is made. -/
theorem Counted.countPattern (h : Counted patterns counts) (pattern : LogPattern) :
    Counted (patterns ++ [pattern]) (countPattern pattern counts) := by
  by_cases hmem : pattern ∈ counts.map Prod.fst
  · -- it is there already
    obtain ⟨⟨found, n⟩, hentry, rfl⟩ := List.mem_map.mp hmem
    obtain ⟨before, after, rfl⟩ := List.append_of_mem hentry
    have hnodup := h.nodup
    rw [List.map_append, List.map_cons] at hnodup
    have hbefore : found ∉ before.map Prod.fst := by
      intro hin
      exact (List.nodup_append.mp hnodup).2.2 _ hin _ List.mem_cons_self rfl
    have hafter : found ∉ after.map Prod.fst :=
      (List.nodup_cons.mp (List.nodup_append.mp hnodup).2.1).1
    have hkeys : (before ++ (found, n + 1) :: after).map Prod.fst =
        (before ++ (found, n) :: after).map Prod.fst := by simp
    rw [countPattern_append hbefore]
    constructor
    · rw [hkeys]
      exact h.nodup
    · intro p
      rw [hkeys, h.mem_iff, List.mem_append, List.mem_singleton]
      constructor
      · exact .inl
      · rintro (hp | rfl)
        · exact hp
        · exact (h.mem_iff _).mp hmem
    · intro entry hentry
      -- of the entries beside it no count changes
      have hother : ∀ e ∈ before ++ after, e.2 = (patterns ++ [found]).count e.1 := by
        intro e he
        have hne : e.1 ≠ found := by
          rintro rfl
          rcases List.mem_append.mp he with he | he
          · exact hbefore (List.mem_map_of_mem he)
          · exact hafter (List.mem_map_of_mem he)
        rw [count_append_singleton_of_ne hne]
        apply h.count
        rcases List.mem_append.mp he with he | he
        · exact List.mem_append_left _ he
        · exact List.mem_append_right _ (List.mem_cons_of_mem _ he)
      rcases List.mem_append.mp hentry with hentry | hentry
      · exact hother entry (List.mem_append_left _ hentry)
      · rcases List.mem_cons.mp hentry with rfl | hentry
        · have hn : n = patterns.count found := h.count (found, n) (by simp)
          rw [hn]
          simp
        · exact hother entry (List.mem_append_right _ hentry)
  · -- it is new, and comes last
    rw [countPattern_of_notMem hmem]
    have hnone : pattern ∉ patterns := fun hin => hmem ((h.mem_iff pattern).mpr hin)
    constructor
    · rw [List.map_append]
      refine h.nodup.append (List.nodup_singleton _) ?_
      intro p hp hp'
      rw [List.mem_singleton.mp hp'] at hp
      exact hmem hp
    · intro p
      rw [List.map_append, List.mem_append, List.mem_append, h.mem_iff]
      simp
    · intro entry hentry
      rcases List.mem_append.mp hentry with hold | hnew
      · have hne : entry.1 ≠ pattern := by
          rintro rfl
          exact hmem (List.mem_map_of_mem hold)
        rw [count_append_singleton_of_ne hne]
        exact h.count entry hold
      · obtain rfl := List.mem_singleton.mp hnew
        simp [List.count_eq_zero_of_not_mem hnone]

/-- The counts are those of the patterns, whatever their order. -/
theorem counted_countPatterns (patterns : List LogPattern) :
    Counted patterns (countPatterns patterns) := by
  induction patterns using List.reverseRecOn with
  | nil => exact ⟨List.nodup_nil, fun _ => Iff.rfl, nofun⟩
  | append_singleton patterns pattern ih =>
    unfold countPatterns
    rw [List.foldl_append]
    exact ih.countPattern pattern

/-! ### The first eight -/

/-- Eight patterns, or all of them, with the greatest counts. -/
structure TopPatterns (patterns : List LogPattern) (entries : List (LogPattern × ℕ)) : Prop where
  length : entries.length = min 8 patterns.dedup.length
  descending : (entries.map Prod.snd).Pairwise (· ≥ ·)
  greatest : entries.map Prod.snd =
    ((patterns.dedup.map fun pattern => patterns.count pattern).insertionSort (· ≥ ·)).take 8
  distinct : (entries.map Prod.fst).Nodup
  count : ∀ entry ∈ entries, entry.1 ∈ patterns ∧ entry.2 = patterns.count entry.1

theorem topPatterns_eq (order : MapOrder) (counts : List (LogPattern × ℕ)) (limit : ℕ) :
    topPatterns order counts limit =
      (ExchangeSort.sort Prod.snd (order.order counts)).take limit := by
  unfold topPatterns
  dsimp only
  split
  · rfl
  · rw [List.take_of_length_le (by omega)]

/-- The report takes the patterns of the highest counts, eight at most. -/
theorem Counted.topPatterns (h : Counted patterns counts) (order : MapOrder) :
    TopPatterns patterns (topPatterns order counts 8) := by
  let pairs := ExchangeSort.sort Prod.snd (order.order counts)
  have hperm : pairs.Perm counts := (ExchangeSort.sort_perm _).trans (order.perm counts)
  have hsorted : (pairs.map Prod.snd).Pairwise (· ≥ ·) :=
    List.pairwise_map.mpr (ExchangeSort.sort_pairwise _)
  have hkeys : (counts.map Prod.fst).Perm patterns.dedup := by
    rw [List.perm_ext_iff_of_nodup h.nodup patterns.nodup_dedup]
    intro p
    rw [h.mem_iff, List.mem_dedup]
  have hvalues : counts.map Prod.snd = (counts.map Prod.fst).map fun p => patterns.count p := by
    rw [List.map_map]
    exact List.map_congr_left h.count
  -- two descending lists of the same counts are the same
  have hgreatest : pairs.map Prod.snd =
      (patterns.dedup.map fun p => patterns.count p).insertionSort (· ≥ ·) := by
    apply List.Perm.eq_of_pairwise' hsorted (List.pairwise_insertionSort _ _)
    refine (hperm.map _).trans ?_
    rw [hvalues]
    exact (hkeys.map _).trans (List.perm_insertionSort _ _).symm
  rw [topPatterns_eq]
  show TopPatterns patterns (pairs.take 8)
  constructor
  · rw [List.length_take, hperm.length_eq, ← hkeys.length_eq, List.length_map]
  · rw [List.map_take]
    exact hsorted.sublist (List.take_sublist _ _)
  · rw [List.map_take, hgreatest]
  · rw [List.map_take]
    exact ((hperm.map _).nodup_iff.mpr h.nodup).sublist (List.take_sublist _ _)
  · intro entry hentry
    have hin := hperm.mem_iff.mp (List.mem_of_mem_take hentry)
    exact ⟨(h.mem_iff _).mp (List.mem_map_of_mem hin), h.count entry hin⟩

/-! ### The bundle -/

/-- A signal of this name is there exactly if the count is positive, and has it as
its value. -/
structure Signals (signals : List Signal) (name : String) (count : ℕ) : Prop where
  present : (∃ signal ∈ signals, signal.name = name) ↔ 0 < count
  value : ∀ signal ∈ signals, signal.name = name → signal.value = .int count

/-- What the bundle of logs holds: the first lines, their counts, and the counts of
their patterns. -/
structure ExactLogs (logs : List PodLog) (maxLines : ℕ) (bundle : LogsBundle) : Prop where
  samples : bundle.samples = ((logs.flatMap podLogLines).take maxLines).map logSample
  truncated : bundle.truncated = true ↔ maxLines < (logs.flatMap podLogLines).length
  stats : bundle.stats =
    [("sampleLineCount", ofInt bundle.samples.length),
     ("errorLineCount", ofInt (bundle.samples.countP isErrorSample)),
     ("stackTraceCount", ofInt (bundle.samples.countP isStackTraceSample))]
  errors : Signals bundle.signals "log_errors_present" (bundle.samples.countP isErrorSample)
  stackTraces : Signals bundle.signals "stack_traces_present"
    (bundle.samples.countP isStackTraceSample)
  patterns_present : bundle.patterns.isSome = true ↔ 0 < bundle.samples.countP isErrorSample
  patterns : ∀ entries, bundle.patterns = some entries →
    TopPatterns (bundle.samples.filterMap samplePattern) entries

/-- The signal of a count. -/
def countSignal (name : String) (count : ℕ) : List Signal :=
  if count > 0 then [{ name := name, severity := "warning", value := .int count }] else []

/-- A signal is raised for a count that is not zero. -/
theorem mem_countSignal {name : String} {count : ℕ} {signal : Signal} :
    signal ∈ countSignal name count ↔
      0 < count ∧ signal = { name := name, severity := "warning", value := .int count } := by
  unfold countSignal
  split
  · rename_i hpos
    simp [hpos]
  · rename_i hzero
    simp [hzero]

/-- Signals of other names beside it do not matter. -/
theorem signals_countSignal {name : String} {count : ℕ} {others signals : List Signal}
    (hsignals : ∀ signal, signal ∈ signals ↔ signal ∈ countSignal name count ∨ signal ∈ others)
    (hothers : ∀ signal ∈ others, signal.name ≠ name) : Signals signals name count := by
  constructor
  · constructor
    · rintro ⟨signal, hmem, hname⟩
      rcases (hsignals signal).mp hmem with hmem | hmem
      · exact (mem_countSignal.mp hmem).1
      · exact absurd hname (hothers signal hmem)
    · intro hpos
      exact ⟨_, (hsignals _).mpr (.inl (mem_countSignal.mpr ⟨hpos, rfl⟩)), rfl⟩
  · intro signal hmem hname
    rcases (hsignals signal).mp hmem with hmem | hmem
    · rw [(mem_countSignal.mp hmem).2]
    · exact absurd hname (hothers signal hmem)

theorem name_countSignal {name : String} {count : ℕ} :
    ∀ signal ∈ countSignal name count, signal.name = name := by
  intro signal hmem
  rw [(mem_countSignal.mp hmem).2]

/-- **The logs bundle is exact**, for every list of logs, every limit and every
order of the map of patterns. -/
theorem logs_exact (order : MapOrder) (scope : Scope) (start stop : Go.Time) (podLogs : List PodLog)
    (maxLines : ℕ) : ExactLogs podLogs maxLines
      (logsBundle order scope start stop podLogs maxLines) := by
  -- the lines are those of the loop without patterns
  have hafter := logLines_eq maxLines podLogs
  rw [← scanLogs_toLogState] at hafter
  obtain ⟨hlines, htruncated⟩ := hafter
  have hcounts := scanLogs_counts maxLines podLogs
  let s := scanLogs maxLines podLogs
  have hsignals : ∀ signal, signal ∈ (logsBundle order scope start stop podLogs maxLines).signals ↔
      signal ∈ countSignal "log_errors_present" s.errorCount ∨
        signal ∈ countSignal "stack_traces_present" s.stackTraceCount := fun _ => List.mem_append
  have hpatterns : (logsBundle order scope start stop podLogs maxLines).patterns =
      if s.errorCount > 0 then some (topPatterns order s.patterns 8) else none := rfl
  exact {
    samples := hlines
    truncated := by
      show s.truncated = true ↔ _
      rw [htruncated, decide_eq_true_eq]
      rfl
    stats := by
      show [_, _, _] = [_, _, _]
      rw [hcounts.errorCount, hcounts.stackTraceCount]
      rfl
    errors := by
      show Signals _ _ (s.lines.countP isErrorSample)
      rw [← hcounts.errorCount]
      apply signals_countSignal hsignals
      intro signal hmem
      rw [name_countSignal signal hmem]
      decide
    stackTraces := by
      show Signals _ _ (s.lines.countP isStackTraceSample)
      rw [← hcounts.stackTraceCount]
      apply signals_countSignal fun signal => (hsignals signal).trans or_comm
      intro signal hmem
      rw [name_countSignal signal hmem]
      decide
    patterns_present := by
      show _ ↔ 0 < s.lines.countP isErrorSample
      rw [hpatterns, ← hcounts.errorCount]
      split
      · rename_i hpos
        exact iff_of_true rfl hpos
      · rename_i hzero
        exact iff_of_false Bool.false_ne_true hzero
    patterns := by
      intro entries hentries
      rw [hpatterns] at hentries
      split at hentries
      · obtain rfl := Option.some.inj hentries
        rw [hcounts.patterns]
        exact (counted_countPatterns _).topPatterns order
      · cases hentries }

end NexCause.Preprocess
