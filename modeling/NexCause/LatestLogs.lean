/-
NexCause/LatestLogs.lean

The logs of a deployment, as the deployment manager shows them:
`queryDeploymentLogs` of the client of Loki.  Loki is asked for the newest
entries up to the limit, whatever their level, and the rows are sorted by the
millisecond of their time.

Main result: the rows are those of the newest entries of the level, in order,
exactly if the answer has enough of these and can be put in order within its
milliseconds without moving a row past another (`logs_latest_iff`).
-/
import NexCause.JavaScriptDates
import NexCause.Redaction
import NexCause.Selections

namespace NexCause.LokiTelemetryClient

open Float64 (one)
open Selection

/-! ### The client -/

inductive LogLevel
  | error
  | warning
  | info
  deriving DecidableEq, Repr

/-- A row; the text of its timestamp stands for the time. -/
structure TelemetryLogRow where
  timestamp : TimeValue
  podName : String
  line : List Char
  level : LogLevel
  labels : Entries

/-- A stream of an answer: its labels, and each entry as the texts of its nanoseconds and its
line. -/
structure LokiStreamResult where
  stream : Entries
  values : List (List Char × List Char)

structure LogQuery where
  «namespace» : String
  deploymentName : String
  start : TimeValue
  stop : TimeValue
  limit : ℕ
  level : Option LogLevel

/-- What Loki is asked for: the texts of the query are made of the two names. -/
structure RangeRequest where
  baseUrl : String
  «namespace» : String
  deploymentName : String
  start : Float64
  stop : Float64
  limit : ℕ
  direction : String

inductive LokiResponse
  | failed (status : ℕ) (body : String)
  /-- `data.result` of the body, if it has one -/
  | answered (result : Option (List LokiStreamResult))

/-- `lower.includes(word)` -/
def includes (lower : List Char) (word : String) : Bool := decide (word.toList <:+: lower)

def classify (line : List Char) : LogLevel :=
  let lower := toLowerCase line
  if includes lower "error" || includes lower "exception" || includes lower "failed" ||
      includes lower "panic" then .error
  else if includes lower "warn" then .warning
  else .info

def podName (labels : Entries) (fallback : String) : String :=
  (labels.lookup "k8s_pod_name" <|> labels.lookup "pod" <|> labels.lookup "service_name").getD
    fallback

def baseUrl (lokiUrl : Option String) : Except String String :=
  let value := lokiUrl.getD ""
  if value = "" then .error "LOKI_URL is not configured" else .ok value

/-- The row of an entry of a stream. -/
def toRow (deploymentName : String) (stream : Entries) (nanoseconds line : List Char) :
    Except String TelemetryLogRow := do
  let redacted := redact line
  let timestamp ← (dateOf ((stringToNumber nanoseconds).divNat 1000000)).toISOString
  return { timestamp, podName := podName stream deploymentName, line := redacted,
           level := classify redacted, labels := stream }

/-- `rows.slice(-limit)` -/
def sliceLast {α : Type} (rows : List α) (limit : ℕ) : List α :=
  if limit = 0 then rows else rows.drop (rows.length - limit)

/-- `!level || row.level === level` -/
def ofLevel (level : Option LogLevel) (row : TelemetryLogRow) : Bool := level.all (row.level = ·)

def rangeRequest (url : String) (input : LogQuery) : RangeRequest where
  baseUrl := url
  «namespace» := input.«namespace»
  deploymentName := input.deploymentName
  start := (Date.getTime (some input.start)).mulNat 1000000
  stop := (Date.getTime (some input.stop)).mulNat 1000000
  limit := input.limit
  direction := "backward"

def queryDeploymentLogs (lokiUrl : Option String)
    (fetch : RangeRequest → Except String LokiResponse) (input : LogQuery) :
    Except String (List TelemetryLogRow) := do
  let url ← baseUrl lokiUrl
  let response ← fetch (rangeRequest url input)
  match response with
  | .failed status body => throw s!"Loki returned {status}: {body}"
  | .answered result =>
      let rows ← ((result.getD []).flatMap fun r => r.values.map fun v => (r.stream, v)).mapM
        fun (stream, nanoseconds, line) => toRow input.deploymentName stream nanoseconds line
      return sliceLast ((rows.filter (ofLevel input.level)).insertionSort
        fun a b => a.timestamp ≤ b.timestamp) input.limit

/-! ### Loki -/

/-- An entry that Loki holds; its time is an `int64`. -/
structure LokiEntry where
  labels : Entries
  nanoseconds : ℕ
  line : List Char
  bound : nanoseconds < 2 ^ 63

/-- An answer to a query backward up to a limit: of the entries for the query the newest, by
stream, and the newest first in each. -/
structure LokiAnswer (held : List LokiEntry) (limit : ℕ) where
  streams : List (Entries × List LokiEntry)
  labelled : ∀ s ∈ streams, ∀ e ∈ s.2, e.labels = s.1
  distinct : (streams.map Prod.fst).Nodup
  newestFirst : ∀ s ∈ streams, s.2.Pairwise fun a b => b.nanoseconds ≤ a.nanoseconds
  newest : Newest LokiEntry.nanoseconds held limit (streams.flatMap Prod.snd)

variable {held : List LokiEntry} {limit : ℕ}

/-- The entries of an answer. -/
def LokiAnswer.entries (answer : LokiAnswer held limit) : List LokiEntry :=
  answer.streams.flatMap Prod.snd

/-- The answer, as it is sent. -/
def LokiAnswer.results (answer : LokiAnswer held limit) : List LokiStreamResult :=
  answer.streams.map fun s => ⟨s.1, s.2.map fun e => (Nat.toDigits 10 e.nanoseconds, e.line)⟩

/-! ### Rows -/

/-- The millisecond of a number of nanoseconds, which is rounded twice on the way. -/
def milliseconds (nanoseconds : ℕ) : ℕ :=
  Binary64.nearest (Binary64.nearest (nanoseconds * one) 1) 1000000 / one

theorem milliseconds_mono {m n : ℕ} (h : m ≤ n) : milliseconds m ≤ milliseconds n :=
  Nat.div_le_div_right (Binary64.nearest_mono (by decide)
    (Binary64.nearest_mono Nat.one_pos (Nat.mul_le_mul_right one h)))

theorem quotient_le {n : ℕ} (h : n < 2 ^ 63) :
    Binary64.nearest (Binary64.nearest (n * one) 1) 1000000 ≤ 2 ^ 44 * one := by
  have hnumber : Binary64.nearest (n * one) 1 ≤ 2 ^ 63 * one := by
    apply Binary64.nearest_le_of_le (Float64.representable_two_pow_mul_unit 63) Nat.one_pos
    rw [mul_one]
    exact Nat.mul_le_mul_right one h.le
  apply Binary64.nearest_le_of_le (Float64.representable_two_pow_mul_unit 44) (by decide)
  rw [Nat.mul_right_comm]
  exact hnumber.trans (Nat.mul_le_mul_right one (by decide))

/-- An `int64` of nanoseconds is within the range of dates. -/
theorem milliseconds_le {n : ℕ} (h : n < 2 ^ 63) : (milliseconds n : ℤ).natAbs ≤ maxTime := by
  have hdiv : milliseconds n ≤ 2 ^ 44 := by
    unfold milliseconds
    exact Nat.div_le_of_le_mul ((quotient_le h).trans_eq (Nat.mul_comm _ _))
  rw [Int.natAbs_natCast]
  exact hdiv.trans (by decide)

def LokiEntry.row (deploymentName : String) (e : LokiEntry) : TelemetryLogRow where
  timestamp := ⟨milliseconds e.nanoseconds, milliseconds_le e.bound⟩
  podName := podName e.labels deploymentName
  line := redact e.line
  level := classify (redact e.line)
  labels := e.labels

theorem toRow_entry (deploymentName : String) (e : LokiEntry) :
    toRow deploymentName e.labels (Nat.toDigits 10 e.nanoseconds) e.line =
      .ok (e.row deploymentName) := by
  have hdate : dateOf ((stringToNumber (Nat.toDigits 10 e.nanoseconds)).divNat 1000000) =
      some ⟨milliseconds e.nanoseconds, milliseconds_le e.bound⟩ := by
    obtain ⟨f, hf, hfunits⟩ := Float64.ofNat_eq e.bound
    have hpos : 0 ≤ Float64.signed f := by
      rw [hfunits]
      exact Int.natCast_nonneg _
    obtain ⟨g, hg, hgunits⟩ := Float64.divNat_eq (by decide : 0 < 1000000) hpos
    have hgpos : 0 ≤ Float64.signed g := by
      rw [hgunits]
      exact Int.natCast_nonneg _
    rw [Float64.signed_eq_units hpos] at hfunits
    rw [Float64.signed_eq_units hgpos, Nat.cast_inj.mp hfunits] at hgunits
    have hunits : g.units / one = milliseconds e.nanoseconds := by
      rw [Nat.cast_inj.mp hgunits]
      rfl
    have hrange : g.units ≤ maxTime * one := by
      rw [Nat.cast_inj.mp hgunits]
      exact (quotient_le e.bound).trans (Nat.mul_le_mul_right one (by decide))
    rw [stringToNumber_toDigits, hf, hg, dateOf_of_nonneg hgpos hrange, hunits,
      dateAt_in (milliseconds_le e.bound)]
  unfold toRow
  rw [hdate]
  rfl

theorem timestamp_mono (deploymentName : String) (e d : LokiEntry)
    (h : e.nanoseconds ≤ d.nanoseconds) :
    (e.row deploymentName).timestamp ≤ (d.row deploymentName).timestamp :=
  Int.ofNat_le.mpr (milliseconds_mono h)

/-- The rows of an answer, before they are filtered. -/
theorem rows_eq (answer : LokiAnswer held limit) (deploymentName : String) :
    (answer.results.flatMap fun r => r.values.map fun v => (r.stream, v)).mapM
        (fun (stream, nanoseconds, line) => toRow deploymentName stream nanoseconds line) =
      .ok (answer.entries.map (LokiEntry.row deploymentName)) := by
  have hvalues : (answer.results.flatMap fun r => r.values.map fun v => (r.stream, v)) =
      answer.entries.map fun e => (e.labels, Nat.toDigits 10 e.nanoseconds, e.line) := by
    unfold LokiAnswer.results LokiAnswer.entries
    rw [List.flatMap_map, List.map_flatMap]
    refine List.flatMap_congr fun s hs => ?_
    show (s.2.map _).map _ = _
    rw [List.map_map]
    refine List.map_congr_left fun e he => ?_
    rw [answer.labelled s hs e he]
    rfl
  rw [hvalues]
  induction answer.entries with
  | nil => rfl
  | cons e es ih =>
    rw [List.map_cons, List.mapM_cons, ih]
    show (toRow deploymentName e.labels (Nat.toDigits 10 e.nanoseconds) e.line >>= _) = _
    rw [toRow_entry]
    rfl

/-! ### The latest entries -/

variable (input : LogQuery)

/-- The row of the entry is of the level that is asked for. -/
def LogQuery.matchesEntry (e : LokiEntry) : Bool := ofLevel input.level (e.row input.deploymentName)

/-- The rows are those of the newest entries of the level, in ascending order of their times. -/
def LatestInOrder (held : List LokiEntry) (result : Except String (List TelemetryLogRow)) : Prop :=
  ∃ es, Newest LokiEntry.nanoseconds (held.filter input.matchesEntry) input.limit es ∧
    es.Pairwise (fun a b => a.nanoseconds ≤ b.nanoseconds) ∧
    result = .ok (es.map (LokiEntry.row input.deploymentName))

/-- The answer has enough entries of the level, and its order is right within each millisecond. -/
structure LokiAnswer.Fits (answer : LokiAnswer held input.limit) : Prop where
  /-- all entries of the answer are of the level, or all entries of the level are in it -/
  enough : (∀ e ∈ answer.entries, input.matchesEntry e = true) ∨
    (answer.entries.filter input.matchesEntry).length = (held.filter input.matchesEntry).length
  /-- they can be put in order without moving a row past one of the same millisecond -/
  inOrder : ReadsInOrder LokiEntry.nanoseconds (LokiEntry.row input.deploymentName)
    TelemetryLogRow.timestamp (answer.entries.filter input.matchesEntry)

theorem sliceLast_of_le {α : Type} {rows : List α} {limit : ℕ} (h : rows.length ≤ limit) :
    sliceLast rows limit = rows := by
  unfold sliceLast
  rw [Nat.sub_eq_zero_of_le h, List.drop_zero, ite_self]

/-- What comes of an answer. -/
theorem queryDeploymentLogs_eq {lokiUrl : String} {fetch : RangeRequest → Except String LokiResponse}
    (hurl : lokiUrl ≠ "") (answer : LokiAnswer held input.limit)
    (hfetch : fetch (rangeRequest lokiUrl input) = .ok (.answered (some answer.results))) :
    queryDeploymentLogs (some lokiUrl) fetch input =
      .ok (((answer.entries.filter input.matchesEntry).map
        (LokiEntry.row input.deploymentName)).insertionSort
          fun a b => a.timestamp ≤ b.timestamp) := by
  have hbase : baseUrl (some lokiUrl) = .ok lokiUrl := if_neg hurl
  unfold queryDeploymentLogs
  rw [hbase]
  show (fetch (rangeRequest lokiUrl input) >>= _) = _
  rw [hfetch]
  show ((answer.results.flatMap fun r => r.values.map fun v => (r.stream, v)).mapM _ >>=
    fun rows => Except.ok (sliceLast ((rows.filter (ofLevel input.level)).insertionSort _) _)) = _
  rw [rows_eq]
  show Except.ok (sliceLast (((answer.entries.map _).filter _).insertionSort _) _) = _
  rw [List.filter_map]
  refine congrArg Except.ok (sliceLast_of_le ?_)
  -- Loki has kept to the limit
  rw [List.length_insertionSort, List.length_map]
  exact (List.length_filter_le _ _).trans (answer.newest.1.trans_le (min_le_left _ _))

/-- **The logs are the latest of the level, in order, exactly if the answer fits.** -/
theorem logs_latest_iff {lokiUrl : String} {fetch : RangeRequest → Except String LokiResponse}
    (hurl : lokiUrl ≠ "") (answer : LokiAnswer held input.limit)
    (hfetch : fetch (rangeRequest lokiUrl input) = .ok (.answered (some answer.results))) :
    LatestInOrder input held (queryDeploymentLogs (some lokiUrl) fetch input) ↔
      answer.Fits input := by
  have henough := answer.newest.enough_iff input.matchesEntry
  change (answer.entries.filter input.matchesEntry).length = _ ↔ _ at henough
  rw [queryDeploymentLogs_eq input hurl answer hfetch]
  constructor
  · rintro ⟨es, hes, hsorted, hrows⟩
    have hrows' := (Except.ok.inj hrows).symm
    have hlength : (answer.entries.filter input.matchesEntry).length =
        min input.limit (held.filter input.matchesEntry).length := by
      have h := congrArg List.length hrows'
      rw [List.length_map, List.length_insertionSort, List.length_map] at h
      exact h.symm.trans hes.1
    refine ⟨henough.mp hlength, ?_⟩
    exact (sorted_rows_iff (timestamp_mono input.deploymentName)
      (answer.newest.filter _ hlength)).mp ⟨es, hes, hsorted, hrows'⟩
  · rintro ⟨hlength, horder⟩
    obtain ⟨es, hes, hsorted, hrows⟩ := (sorted_rows_iff (timestamp_mono input.deploymentName)
      (answer.newest.filter _ (henough.mpr hlength))).mpr horder
    exact ⟨es, hes, hsorted, congrArg Except.ok hrows.symm⟩

/-- An error of a pod. -/
def errorEntry : LokiEntry := ⟨[("pod", "web")], 1, ['e', 'r', 'r', 'o', 'r'], by decide⟩

/-- A later line of the pod. -/
def laterEntry : LokiEntry := ⟨[("pod", "web")], 2, ['o', 'k'], by decide⟩

def sampleQuery (level : Option LogLevel) : LogQuery where
  «namespace» := "shop"
  deploymentName := "web"
  start := ⟨0, by decide⟩
  stop := ⟨1000, by decide⟩
  limit := 1
  level := level

/-- The answer to a query with limit one. -/
def sampleAnswer (level : Option LogLevel) :
    LokiAnswer [laterEntry, errorEntry] (sampleQuery level).limit where
  streams := [([("pod", "web")], [laterEntry])]
  labelled := by
    intro s hs e he
    obtain rfl := List.mem_singleton.mp hs
    obtain rfl := List.mem_singleton.mp he
    rfl
  distinct := List.nodup_singleton _
  newestFirst := by
    intro s hs
    obtain rfl := List.mem_singleton.mp hs
    exact List.pairwise_singleton _ _
  newest := by
    refine ⟨rfl, [errorEntry], .refl _, ?_⟩
    intro a ha b hb
    obtain rfl := List.mem_singleton.mp ha
    obtain rfl := List.mem_singleton.mp hb
    decide

/-- Without a level the latest line is shown. -/
theorem latest_line_shown : LatestInOrder (sampleQuery none) [laterEntry, errorEntry]
    (queryDeploymentLogs (some "http://loki:3100")
      (fun _ => .ok (.answered (some (sampleAnswer none).results))) (sampleQuery none)) :=
  (logs_latest_iff (sampleQuery none) (by decide) (sampleAnswer none) rfl).mpr
    ⟨.inl fun _ _ => rfl, [laterEntry], .refl _, List.pairwise_singleton _ _, fun _ => rfl⟩

/-- The errors are asked for, and the latest line is none: the error is not shown. -/
theorem latest_error_missed : ¬ ∀ (input : LogQuery) (held : List LokiEntry)
    (answer : LokiAnswer held input.limit), 1 ≤ input.limit →
    LatestInOrder input held (queryDeploymentLogs (some "http://loki:3100")
      (fun _ => .ok (.answered (some answer.results))) input) := by
  intro h
  obtain ⟨es, hes, -, hrows⟩ := h (sampleQuery (some .error)) _
    (sampleAnswer (some .error)) (le_refl _)
  have hlater : (sampleQuery (some .error)).matchesEntry laterEntry = false := by decide
  have herror : (sampleQuery (some .error)).matchesEntry errorEntry = true := by decide
  rw [queryDeploymentLogs_eq _ (by decide) (sampleAnswer (some .error)) rfl] at hrows
  have hnone :
      (sampleAnswer (some .error)).entries.filter (sampleQuery (some .error)).matchesEntry = [] := by
    show [laterEntry].filter _ = []
    rw [List.filter_cons_of_neg (by rw [hlater]; exact Bool.false_ne_true)]
    rfl
  have hlength := congrArg List.length (Except.ok.inj hrows)
  rw [List.length_insertionSort, hnone, List.length_map, List.length_map, hes.1] at hlength
  -- one entry of the level is held
  have hone :
      ([laterEntry, errorEntry].filter (sampleQuery (some .error)).matchesEntry).length = 1 := by
    rw [List.filter_cons_of_neg (by rw [hlater]; exact Bool.false_ne_true),
      List.filter_cons_of_pos herror]
    rfl
  rw [hone] at hlength
  exact absurd hlength (by decide)

end NexCause.LokiTelemetryClient
