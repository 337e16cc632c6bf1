/-
NexCause/Preprocess.lean

The package `preprocess` of the evidence server: what becomes of the records
that the adapters and the store return, bundle by bundle.

The error signal of the log bundle also carries counts of normalised patterns:
`logs` is the bundle without them, and `logsBundle` the one with them.
-/
import Mathlib.Data.List.Infix
import NexCause.Adapters
import NexCause.ExchangeSort
import NexCause.Redaction
import NexCause.Utf8
import NexCause.WordRuns

namespace NexCause.Preprocess

open Float64

/-! ### Kubernetes -/

def deploymentStatus (scope : Scope) (start stop : Go.Time) (status : K8sDeploymentStatus) : Bundle :=
  { newBundle .kubernetes scope start stop with
    summary := s!"Deployment readiness is {status.readyReplicas}/{status.desiredReplicas} ready replicas with {status.unavailableReplicas} unavailable replicas."
    samples := [.status status]
    stats :=
      [("desiredReplicas", ofInt status.desiredReplicas),
       ("readyReplicas", ofInt status.readyReplicas),
       ("availableReplicas", ofInt status.availableReplicas),
       ("unavailableReplicas", ofInt status.unavailableReplicas)]
    signals :=
      (if status.desiredReplicas > 0 ∧ status.readyReplicas < status.desiredReplicas then
        [{ name := "ready_replicas_below_desired", severity := "critical"
           value := .text s!"{status.readyReplicas}/{status.desiredReplicas}"
           reason := "Deployment has fewer ready replicas than desired." }] else []) ++
      (if status.unavailableReplicas > 0 then
        [{ name := "unavailable_replicas", severity := "warning"
           value := .int status.unavailableReplicas
           reason := "Deployment reports unavailable replicas." }] else []) }

def pods (scope : Scope) (start stop : Go.Time) (pods : List K8sPod) (limit : ℤ) : Bundle :=
  let containers := pods.flatMap K8sPod.containers
  let totalRestarts := (containers.map K8sContainer.restartCount).sum
  let notReady := (containers.filter fun c => !c.ready).length
  let trimmed := trimAny (pods.map Sample.pod) limit
  { newBundle .kubernetes scope start stop with
    samples := trimmed.1
    truncated := trimmed.2
    summary := s!"Found {pods.length} pod(s), {notReady} not-ready container(s), and {totalRestarts} total restart(s)."
    stats :=
      [("podCount", ofInt pods.length), ("notReadyContainers", ofInt notReady),
       ("totalRestartCount", ofInt totalRestarts)]
    signals :=
      (if notReady > 0 then
        [{ name := "containers_not_ready", severity := "warning", value := .int notReady }]
      else []) ++
      (if totalRestarts > 0 then
        [{ name := "container_restarts_present", severity := "warning", value := .int totalRestarts }]
      else []) }

/-- `time.Time` without a value: the start of the year 1. -/
def zeroTime : Go.Time := -62135596800 * Go.second

/-- The time of an event: the first of three that is set. -/
def eventTime (event : K8sEvent) : Go.Time :=
  (event.eventTime <|> event.lastTimestamp <|> event.firstTimestamp).getD zeroTime

/-- Count an event in its group. -/
def countGroup (groups : List (String × ℤ)) (event : K8sEvent) : List (String × ℤ) :=
  let key := event.type ++ ":" ++ event.reason ++ ":" ++ event.involvedKind
  let n := if event.count > 1 then event.count else 1
  if groups.any fun g => g.1 = key then
    groups.map fun g => if g.1 = key then (key, g.2 + n) else g
  else groups ++ [(key, n)]

def events (scope : Scope) (start stop : Go.Time) (events : List K8sEvent) (limit : ℤ) : Bundle :=
  let sorted := events.insertionSort fun a b => eventTime a ≤ eventTime b
  let warningCount := (sorted.filter fun e => e.type = "Warning").length
  let trimmed := trimAny (sorted.map Sample.event) limit
  { newBundle .kubernetes scope start stop with
    samples := trimmed.1
    truncated := trimmed.2
    summary := s!"Found {sorted.length} Kubernetes event(s), including {warningCount} warning event(s)."
    stats := [("eventCount", ofInt sorted.length), ("warningEventCount", ofInt warningCount)]
    signals :=
      if warningCount > 0 then
        [{ name := "kubernetes_warning_events", severity := "warning", value := .int warningCount
           counts := sorted.foldl countGroup [] }]
      else [] }

/-! ### Logs -/

/-- `strings.Contains`. -/
def contains (text : List Char) (word : String) : Bool := decide (word.toList <:+: text)

def classifyLogLine (line : List Char) : LogClass :=
  let lower := Go.toLower line
  if contains lower "error" || contains lower "exception" || contains lower "failed" ||
      contains lower "panic" then .error
  else if contains lower "warn" then .warning
  else .info

/-- What the loop over the lines keeps. -/
structure LogState where
  lines : List Sample := []
  errorCount : ℕ := 0
  stackTraceCount : ℕ := 0
  truncated : Bool := false

/-- One line of a pod: blank lines are dropped, and lines beyond the limit only
noted. -/
def logLine (maxLines : ℤ) (podName : String) (s : LogState) (line : List Char) : LogState :=
  let line := Go.trimSpace line
  if line = [] then s
  else if maxLines ≤ s.lines.length then { s with truncated := true }
  else
    let redacted := redact line
    let cls := classifyLogLine redacted
    { s with
      lines := s.lines ++ [.log podName redacted cls]
      errorCount := s.errorCount + if cls = .error then 1 else 0
      stackTraceCount := s.stackTraceCount +
        if "at ".toList.isPrefixOf redacted || contains redacted "Traceback" then 1 else 0 }

/-- The loop over the pods. -/
def logLines (maxLines : ℤ) (logs : List PodLog) : LogState :=
  logs.foldl (fun s log => (log.logs.splitOn '\n').foldl (logLine maxLines log.podName) s) {}

def logs (scope : Scope) (start stop : Go.Time) (logs : List PodLog) (maxLines : ℤ) : Bundle :=
  let s := logLines maxLines logs
  { newBundle .logs scope start stop with
    samples := s.lines
    truncated := s.truncated
    summary := if s.errorCount > 0 then "Logs contain error-like lines in the incident window."
      else "Logs were collected and normalized."
    stats :=
      [("sampleLineCount", ofInt s.lines.length), ("errorLineCount", ofInt s.errorCount),
       ("stackTraceCount", ofInt s.stackTraceCount)]
    signals :=
      (if s.errorCount > 0 then
        [{ name := "log_errors_present", severity := "warning", value := .int s.errorCount }]
      else []) ++
      (if s.stackTraceCount > 0 then
        [{ name := "stack_traces_present", severity := "warning", value := .int s.stackTraceCount }]
      else []) }

/-! ### Patterns of log lines -/

section Patterns

open Regex

/-- `\b[0-9a-f]{8,}\b` -/
def identifierRun : WordRun where
  cls c := c.isDigit || c ∈ ['a', 'b', 'c', 'd', 'e', 'f']
  least := 8
  isWord_of_cls := by
    intro c h
    have hletter : ∀ c ∈ ['a', 'b', 'c', 'd', 'e', 'f'], isWord c = true :=
      forall_mem_of_all (by decide)
    rcases Bool.or_eq_true_iff.mp h with hdigit | hmem
    · simp [isWord, isAlphanum_eq, hdigit]
    · exact hletter c (of_decide_eq_true hmem)
  least_pos := by decide

/-- `\b\d+\b` -/
def numberRun : WordRun where
  cls := Char.isDigit
  least := 1
  isWord_of_cls := by
    intro c h
    simp [isWord, isAlphanum_eq, h]
  least_pos := Nat.one_pos

/-- The line without its identifiers and numbers. -/
def normalizeText (line : List Char) : List Char :=
  numberRun.replaceAll "<number>".toList (identifierRun.replaceAll "<id>".toList line)

def normalizeLogPattern (line : List Char) : LogPattern :=
  let bytes := Utf8.encode (normalizeText line)
  if bytes.length > 160 then bytes.take 160 else bytes

/-- `patterns[pattern]++` -/
def countPattern (pattern : LogPattern) : List (LogPattern × ℕ) → List (LogPattern × ℕ)
  | [] => [(pattern, 1)]
  | (found, n) :: patterns =>
      if found = pattern then (found, n + 1) :: patterns
      else (found, n) :: countPattern pattern patterns

def topPatterns (order : MapOrder) (patterns : List (LogPattern × ℕ)) (limit : ℕ) :
    List (LogPattern × ℕ) :=
  let pairs := ExchangeSort.sort Prod.snd (order.order patterns)
  if pairs.length > limit then pairs.take limit else pairs

end Patterns

/-! ### The log bundle with its patterns -/

/-- The state of the loop over the lines, with the map of patterns. -/
structure LogScan extends LogState where
  patterns : List (LogPattern × ℕ) := []

/-- The test for a line of a stack trace. -/
def isStackTrace (line : List Char) : Bool :=
  "at ".toList.isPrefixOf line || contains line "Traceback"

/-- One line of a pod. -/
def scanLine (maxLines : ℤ) (podName : String) (s : LogScan) (line : List Char) : LogScan :=
  let line := Go.trimSpace line
  if line = [] then s
  else if maxLines ≤ s.lines.length then { s with truncated := true }
  else
    let redacted := redact line
    let cls := classifyLogLine redacted
    { lines := s.lines ++ [.log podName redacted cls]
      errorCount := s.errorCount + if cls = .error then 1 else 0
      stackTraceCount := s.stackTraceCount + if isStackTrace redacted then 1 else 0
      truncated := s.truncated
      patterns := countPattern (normalizeLogPattern redacted) s.patterns }

/-- The loop over the pods. -/
def scanLogs (maxLines : ℤ) (logs : List PodLog) : LogScan :=
  logs.foldl (fun s log => (log.logs.splitOn '\n').foldl (scanLine maxLines log.podName) s) {}

/-- A bundle, and the attribute `patterns` of its error signal. -/
structure LogsBundle extends Bundle where
  patterns : Option (List (LogPattern × ℕ))

/-- `Logs` -/
def logsBundle (order : MapOrder) (scope : Scope) (start stop : Go.Time) (logs : List PodLog)
    (maxLines : ℤ) : LogsBundle :=
  let s := scanLogs maxLines logs
  { newBundle .logs scope start stop with
    samples := s.lines
    truncated := s.truncated
    stats :=
      [("sampleLineCount", ofInt s.lines.length), ("errorLineCount", ofInt s.errorCount),
       ("stackTraceCount", ofInt s.stackTraceCount)]
    summary := if s.errorCount > 0 then "Logs contain error-like lines in the incident window."
      else "Logs were collected and normalized."
    signals :=
      (if s.errorCount > 0 then
        [{ name := "log_errors_present", severity := "warning", value := .int s.errorCount }]
      else []) ++
      (if s.stackTraceCount > 0 then
        [{ name := "stack_traces_present", severity := "warning", value := .int s.stackTraceCount }]
      else [])
    patterns := if s.errorCount > 0 then some (topPatterns order s.patterns 8) else none }

/-- The bundle as it is returned, its attribute where it belongs. -/
def LogsBundle.returned (b : LogsBundle) : Bundle :=
  { b.toBundle with
    signals := b.signals.map fun signal =>
      if signal.name = "log_errors_present" then { signal with patterns := b.patterns } else signal }

/-- The loop does what it does without the patterns. -/
theorem scanLine_toLogState (maxLines : ℤ) (podName : String) (s : LogScan) (line : List Char) :
    (scanLine maxLines podName s line).toLogState = logLine maxLines podName s.toLogState line := by
  unfold scanLine logLine isStackTrace
  dsimp only
  split
  · rfl
  · split <;> rfl

theorem scanLogs_toLogState (maxLines : ℤ) (logs : List PodLog) :
    (scanLogs maxLines logs).toLogState = logLines maxLines logs := by
  have hstart : ({} : LogState) = LogScan.toLogState {} := rfl
  unfold scanLogs logLines
  rw [hstart]
  symm
  apply List.foldl_hom LogScan.toLogState
  intro s log
  exact List.foldl_hom LogScan.toLogState fun s line =>
    (scanLine_toLogState maxLines log.podName s line).symm

/-- The bundle is the one without the attribute. -/
theorem logsBundle_toBundle (order : MapOrder) (scope : Scope) (start stop : Go.Time)
    (podLogs : List PodLog) (maxLines : ℤ) :
    (logsBundle order scope start stop podLogs maxLines).toBundle =
      logs scope start stop podLogs maxLines := by
  unfold logsBundle logs
  rw [← scanLogs_toLogState]

/-- Of the bundle that is returned, only the signals have more than the one
without the attribute. -/
theorem returned_samples (order : MapOrder) (scope : Scope) (start stop : Go.Time)
    (podLogs : List PodLog) (maxLines : ℤ) :
    (logsBundle order scope start stop podLogs maxLines).returned.samples =
      (logs scope start stop podLogs maxLines).samples := by
  rw [← logsBundle_toBundle order]
  rfl

theorem returned_truncated (order : MapOrder) (scope : Scope) (start stop : Go.Time)
    (podLogs : List PodLog) (maxLines : ℤ) :
    (logsBundle order scope start stop podLogs maxLines).returned.truncated =
      (logs scope start stop podLogs maxLines).truncated := by
  rw [← logsBundle_toBundle order]
  rfl

/-! ### Metrics -/

/-- The literal 0.95. -/
def p95 : Float64 := ofRatio false (95 * one) 100

/-- The place of a percentile in an ascending list. -/
def percentile (sorted : List Float64) (p : Float64) : Float64 :=
  if sorted.length = 0 then zero
  else
    let index := (p.mulNat sorted.length).ceil - 1
    sorted.getD (min index (sorted.length - 1)) zero

/-- `calculateStats`: minimum, maximum, average and 95th percentile. -/
structure MetricStats where
  min : Float64
  max : Float64
  avg : Float64
  p95 : Float64

def calculateStats (values : List Float64) : MetricStats :=
  let sorted := sort values
  { min := sorted.headD zero
    max := sorted.getLastD zero
    avg := (sorted.foldl add zero).divNat sorted.length
    p95 := percentile sorted p95 }

/-- The statistics of a series, if it has a value. -/
def seriesStats (series : MetricSeries) : Option MetricStats :=
  let values := series.values.map MetricPoint.value
  if values.length = 0 then none else some (calculateStats values)

/-- A maximum above twice the average. -/
def isSpike (s : MetricStats) : Bool := lt (s.avg.mulNat 2) s.max && lt zero s.max

def metrics (scope : Scope) (start stop : Go.Time) (series : List MetricSeries) (limit : ℤ) : Bundle :=
  let found := series.filterMap fun item => (seriesStats item).map fun s => (item, s)
  let spikes := found.filter fun f => isSpike f.2
  let trimmed := trimAny (found.map fun f => Sample.series f.1) limit
  { newBundle .metrics scope start stop with
    samples := trimmed.1
    truncated := trimmed.2
    summary := s!"Processed {series.length} metric series with {spikes.length} spike signal(s)."
    stats := found.flatMap fun f =>
      [(f.1.name ++ ".min", f.2.min), (f.1.name ++ ".max", f.2.max),
       (f.1.name ++ ".avg", f.2.avg), (f.1.name ++ ".p95", f.2.p95)]
    signals := spikes.map fun f =>
      { name := "metric_spike", severity := "warning", value := .text f.1.name
        attributes := [("max", f.2.max), ("avg", f.2.avg)] } }

/-! ### Traces -/

def traces (scope : Scope) (start stop : Go.Time) (traces : List TraceSummary) (limit : ℤ) : Bundle :=
  let maxDuration := traces.foldl
    (fun m t => if lt m (finite t.durationMs) then finite t.durationMs else m) zero
  let slowCount := (traces.filter fun t => !lt (finite t.durationMs) (ofNat 1000)).length
  let failedCount := (traces.filter fun t => t.status = "error").length
  let trimmed := trimAny (traces.map Sample.trace) limit
  { newBundle .traces scope start stop with
    samples := trimmed.1
    truncated := trimmed.2
    stats :=
      [("traceCount", ofInt traces.length), ("slowTraceCount", ofInt slowCount),
       ("failedCount", ofInt failedCount), ("maxDurationMs", maxDuration)]
    summary := s!"Processed {traces.length} trace summary record(s), with {slowCount} slow trace(s)."
    signals :=
      (if slowCount > 0 then
        [{ name := "slow_traces_present", severity := "warning", value := .int slowCount }]
      else []) ++
      (if failedCount > 0 then
        [{ name := "failed_traces_present", severity := "warning", value := .int failedCount }]
      else []) }

/-! ### Records of the database -/

def healthSamples (scope : Scope) (start stop : Go.Time) (samples : List HealthSample) (limit : ℤ) :
    Bundle :=
  let trimmed := trimAny (samples.map Sample.health) limit
  let bundle :=
    { newBundle .healthSamples scope start stop with samples := trimmed.1, truncated := trimmed.2 }
  match samples.head?, samples.getLast? with
  | some newest, some oldest =>
      let restartDelta := newest.restartCount - oldest.restartCount
      { bundle with
        summary := s!"Health samples show latest status {newest.status}, readiness {newest.readyReplicas}/{newest.desiredReplicas}, restart delta {restartDelta}."
        stats :=
          [("sampleCount", ofInt samples.length), ("latestReady", ofInt newest.readyReplicas),
           ("latestDesired", ofInt newest.desiredReplicas),
           ("warningEventCount", ofInt newest.warningEventCount),
           ("restartDelta", ofInt restartDelta), ("latestRestartCount", ofInt newest.restartCount)]
        signals :=
          (if newest.desiredReplicas > 0 ∧ newest.readyReplicas < newest.desiredReplicas then
            [{ name := "readiness_degraded", severity := "critical"
               value := .text s!"{newest.readyReplicas}/{newest.desiredReplicas}" }] else []) ++
          (if restartDelta > 0 then
            [{ name := "restart_count_increased", severity := "warning", value := .int restartDelta }]
          else []) ++
          (if newest.warningEventCount > 0 then
            [{ name := "warning_events_present", severity := "warning"
               value := .int newest.warningEventCount }] else []) }
  | _, _ => { bundle with summary := "No health samples were available in the incident window." }

/-- The numbers of a stored JSON are texts. -/
def storedNumbers : GoNumbers String where
  text := id
  fitsFloat64 n := (Go.parseFloat n.toList).isSome

def runtimeConfigs (scope : Scope) (start stop : Go.Time) (configs : List StoredConfig) (limit : ℤ) :
    Bundle :=
  let sanitized := configs.map fun c =>
    Sample.config c.id c.type (sanitizeRuntimeConfig storedNumbers c.type c.data)
  let trimmed := trimAny sanitized limit
  { newBundle .runtime scope start stop with
    samples := trimmed.1
    truncated := trimmed.2
    stats := [("runtimeConfigCount", ofInt configs.length)]
    summary := s!"Found {configs.length} runtime config record(s). Secret values were redacted." }

def recentChanges (scope : Scope) (start stop : Go.Time) (changes : List RecentChange) (limit : ℤ) :
    Bundle :=
  let trimmed := trimAny (changes.map Sample.change) limit
  { newBundle .changes scope start stop with
    samples := trimmed.1
    truncated := trimmed.2
    stats := [("changeCount", ofInt changes.length)]
    summary := s!"Found {changes.length} recent deployment/runtime change(s)."
    signals :=
      if changes.length > 0 then
        [{ name := "recent_changes_present", severity := "info", value := .int changes.length }]
      else [] }

end NexCause.Preprocess
