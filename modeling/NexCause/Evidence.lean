/-
NexCause/Evidence.lean

The data of the evidence server: its configuration, what its backends return,
the context of an RCA run (`context/context.go`), and the bundle in which it
reports evidence (`evidence/types.go`).

Two fields of a bundle that nothing reads are left out, the empty list of
correlations and the time of collection; so are the columns of the backends'
records that only pass through.
-/
import NexCause.Go
import NexCause.RcaContext
import NexCause.SecretRecords

namespace NexCause

/-- `config.Config`, as far as the tools read it.  `kubernetes` says whether the
adapter could be set up. -/
structure Config where
  defaultLookback : Go.Time
  defaultLookahead : Go.Time
  maxRecursionDepth : ℤ
  maxLogLines : ℤ
  maxSamples : ℤ
  maxSpans : ℤ
  prometheusURL : String
  tempoURL : String
  logBackendURL : String
  kubernetes : Bool
  internalServiceJWTSecret : String
  deriving DecidableEq, Repr

/-- `Load` without any variable set. -/
def defaultConfig : Config where
  defaultLookback := 10 * Go.minute
  defaultLookahead := 2 * Go.minute
  maxRecursionDepth := 3
  maxLogLines := 500
  maxSamples := 120
  maxSpans := 100
  prometheusURL := ""
  tempoURL := ""
  logBackendURL := ""
  kubernetes := true
  internalServiceJWTSecret := ""

/-! ### What the backends return -/

structure K8sDeploymentStatus where
  desiredReplicas : ℤ
  readyReplicas : ℤ
  availableReplicas : ℤ
  updatedReplicas : ℤ
  unavailableReplicas : ℤ
  deriving DecidableEq, Repr

structure K8sContainer where
  name : String
  ready : Bool
  restartCount : ℤ
  deriving DecidableEq, Repr

structure K8sPod where
  name : String
  phase : String
  nodeName : String
  startedAt : Option Go.Time
  containers : List K8sContainer
  deriving DecidableEq, Repr

structure K8sEvent where
  name : String
  type : String
  reason : String
  message : String
  involvedKind : String
  involvedName : String
  firstTimestamp : Option Go.Time
  lastTimestamp : Option Go.Time
  eventTime : Option Go.Time
  count : ℤ
  deriving DecidableEq, Repr

/-- A stream of a Loki answer: its labels, and its entries as the texts they
hold beside their time. -/
structure LokiStream where
  stream : List (String × String)
  values : List (List (List Char))
  deriving DecidableEq, Repr

structure PodLog where
  podName : String
  logs : List Char
  deriving DecidableEq, Repr

/-- The timestamp is in seconds. -/
structure MetricPoint where
  timestamp : ℤ
  value : Float64
  deriving DecidableEq

structure MetricSeries where
  name : String
  labels : List (String × String)
  values : List MetricPoint
  deriving DecidableEq

/-- A duration comes out of a JSON number and is finite. -/
structure TraceSummary where
  traceId : String
  rootService : String
  rootOperation : String
  durationMs : FiniteFloat64
  status : String
  deriving DecidableEq

structure HealthSample where
  id : String
  status : String
  desiredReplicas : ℤ
  readyReplicas : ℤ
  warningEventCount : ℤ
  restartCount : ℤ
  collectedAt : Go.Time
  deriving DecidableEq, Repr

/-- `store.RuntimeConfig`; the numbers of its JSON are texts. -/
structure StoredConfig where
  id : String
  type : RuntimeConfigType
  data : Json String

structure RecentChange where
  kind : String
  id : String
  summary : String
  changedAt : Go.Time
  deriving DecidableEq, Repr

/-! ### Bundles -/

/-- `evidence.Source`. -/
inductive Source
  | kubernetes | logs | metrics | traces | healthSamples | runtime | changes
  deriving DecidableEq, Repr

/-- The text of a source. -/
def Source.name : Source → String
  | .kubernetes => "kubernetes"
  | .logs => "logs"
  | .metrics => "metrics"
  | .traces => "traces"
  | .healthSamples => "health_samples"
  | .runtime => "runtime"
  | .changes => "changes"

/-- `evidence.Scope`. -/
structure Scope where
  appId : String
  appName : String
  deploymentId : String
  «namespace» : String
  serviceName : String
  deploymentName : String
  deriving DecidableEq, Repr

/-- The class of a log line. -/
inductive LogClass
  | error | warning | info
  deriving DecidableEq, Repr

/-- What a bundle can hold. -/
inductive Sample
  | status (status : K8sDeploymentStatus)
  | pod (pod : K8sPod)
  | event (event : K8sEvent)
  | log (podName : String) (line : List Char) (cls : LogClass)
  | series (series : MetricSeries)
  | trace (trace : TraceSummary)
  | health (sample : HealthSample)
  | config (id : String) (type : RuntimeConfigType) (data : ReportedData String)
  | change (change : RecentChange)

inductive SignalValue
  | int (i : ℤ)
  | text (s : String)
  deriving DecidableEq, Repr

/-- A normalised log line, cut to 160 bytes. -/
abbrev LogPattern : Type := List UInt8

/-- `evidence.Signal`; its attributes are numbers, counts, or patterns and how often
they occur. -/
structure Signal where
  name : String
  severity : String
  value : SignalValue
  reason : String := ""
  attributes : List (String × Float64) := []
  counts : List (String × ℤ) := []
  patterns : Option (List (LogPattern × ℕ)) := none
  deriving DecidableEq

structure CollectionError where
  source : String
  message : String
  deriving DecidableEq, Repr

/-- `evidence.Bundle`. -/
structure Bundle where
  source : Source
  scope : Scope
  windowStart : ℤ
  windowEnd : ℤ
  summary : String := ""
  signals : List Signal := []
  samples : List Sample := []
  stats : List (String × Float64) := []
  errors : List CollectionError := []
  truncated : Bool := false

/-- `NewBundle`. -/
def newBundle (source : Source) (scope : Scope) (start stop : Go.Time) : Bundle where
  source := source
  scope := scope
  windowStart := Go.formatRFC3339 start
  windowEnd := Go.formatRFC3339 stop

/-- `trimAny`. -/
def trimAny {α : Type} (items : List α) (limit : ℤ) : List α × Bool :=
  if limit ≤ 0 ∨ items.length ≤ limit then (items, false) else (items.take limit.toNat, true)

/-! ### The context of a run -/

structure ContextWindow where
  triggeredAt : ℤ
  windowStart : ℤ
  windowEnd : ℤ
  lookbackMinutes : ℤ
  lookaheadMinutes : ℤ
  reason : String
  deriving DecidableEq, Repr

structure Constraints where
  readOnly : Bool
  persistence : String
  maxRecursionDepth : ℤ
  maxLogLines : ℤ
  maxSamples : ℤ
  maxSpans : ℤ
  redactSecrets : Bool
  deriving DecidableEq, Repr

/-- `RCAContext`; times are texts of whole seconds. -/
structure RCAContext where
  runId : String
  runSource : String
  runStartedAt : ℤ
  incidentId : String
  severity : String
  ruleKey : Option String
  title : String
  incidentSummary : Option String
  openedAt : ℤ
  latestHealthSampleId : Option String
  scope : Scope
  window : ContextWindow
  constraints : Constraints
  deriving DecidableEq, Repr

/-- `Builder.Build` after its query, at the time `now`: the window around the
trigger, which does not end in the future. -/
def buildContext (cfg : Config) (record : RCAContextRecord) (now : Go.Time) : RCAContext :=
  let triggeredAt : Go.Time := match record.latestHealthSampleCollectedAt with
    | some t => t
    | none => record.incident.openedAt
  let requestedEnd := triggeredAt + cfg.defaultLookahead
  { runId := record.run.id
    runSource := record.run.source
    runStartedAt := Go.formatRFC3339 record.run.startedAt
    incidentId := record.incident.id
    severity := record.incident.severity
    ruleKey := record.incident.ruleKey
    title := record.incident.title
    incidentSummary := record.incident.summary
    openedAt := Go.formatRFC3339 record.incident.openedAt
    latestHealthSampleId := record.incident.latestHealthSampleId
    scope :=
      { appId := record.app.id
        appName := record.app.name
        deploymentId := record.deployment.id
        «namespace» := record.deployment.«namespace»
        serviceName := record.deployment.kubernetesService
        deploymentName := record.deployment.kubernetesDeployment }
    window :=
      { triggeredAt := Go.formatRFC3339 triggeredAt
        windowStart := Go.formatRFC3339 (triggeredAt - cfg.defaultLookback)
        windowEnd := Go.formatRFC3339 (if now < requestedEnd then now else requestedEnd)
        lookbackMinutes := cfg.defaultLookback.tdiv Go.minute
        lookaheadMinutes := cfg.defaultLookahead.tdiv Go.minute
        reason := if record.latestHealthSampleCollectedAt.isSome then "incident-health-sample"
          else "incident-opened-at" }
    constraints :=
      { readOnly := true
        persistence := "none"
        maxRecursionDepth := cfg.maxRecursionDepth
        maxLogLines := cfg.maxLogLines
        maxSamples := cfg.maxSamples
        maxSpans := cfg.maxSpans
        redactSecrets := true } }

/-- `WindowTimes`. -/
def RCAContext.windowTimes (c : RCAContext) : Except String (Go.Time × Go.Time) := do
  let start ← Go.parseRFC3339 c.window.windowStart
  let stop ← Go.parseRFC3339 c.window.windowEnd
  return (start, stop)

end NexCause
