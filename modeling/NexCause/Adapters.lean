/-
NexCause/Adapters.lean

The adapters and the store of the evidence server, as programs over its calls
to the outside: the database, the cluster, Loki, Prometheus and Tempo.

Each call may fail, with the text of its error.  The order in which Go walks
through a map is a `MapOrder`, of which nothing is known but that it is an
order of the entries.
-/
import NexCause.Decoding
import NexCause.Program

namespace NexCause

open Program Json Decoding

/-! ### Calls -/

inductive EvidenceCall
  /-- `time.Now` -/
  | now
  /-- begin a transaction and set its `app.workspace_id` -/
  | tenantTx (workspaceId : String)
  /-- a query, and the commit -/
  | contextRecord (runId incidentId : String)
  | healthSamples (deploymentId : String) (start stop : Go.Time) (limit : ℤ)
  | storedConfigs (deploymentId : String)
  | recentChanges (deploymentId : String) (start stop : Go.Time) (limit : ℤ)
  /-- a request to the API server -/
  | deploymentStatus («namespace» deploymentName : String)
  | pods («namespace» appId deploymentId : String)
  | events («namespace» : String)
  | podLog («namespace» podName : String) (tailLines sinceSeconds : ℤ)
  /-- a query of Loki, forward -/
  | queryLogs («namespace» deploymentName : String) (start stop : Go.Time) (limit : ℤ)
  /-- a query of Prometheus, by the name of the metric; the times are seconds -/
  | queryRange (metric «namespace» deploymentName : String) (start stop : ℤ)
  /-- a search of Tempo; the times are seconds -/
  | searchTraces (serviceName : String) (start stop limit : ℤ)
  deriving DecidableEq, Repr

/-- What a call returns. -/
def EvidenceCall.Result : EvidenceCall → Type
  | .now => Go.Time
  | .tenantTx _ => Unit
  | .contextRecord _ _ => RCAContextRecord
  | .healthSamples _ _ _ _ => List HealthSample
  | .storedConfigs _ => List StoredConfig
  | .recentChanges _ _ _ _ => List RecentChange
  | .deploymentStatus _ _ => K8sDeploymentStatus
  | .pods _ _ _ => List K8sPod
  | .events _ => List K8sEvent
  | .podLog _ _ _ _ => List Char
  | .queryLogs _ _ _ _ _ => List LokiStream
  | .queryRange _ _ _ _ _ => Json String
  | .searchTraces _ _ _ _ => List TraceSummary

/-- A program of the evidence server. -/
abbrev EvidenceProg (α : Type) : Type := Prog EvidenceCall EvidenceCall.Result String α

/-- The order in which Go walks through a map. -/
structure MapOrder where
  order : {α : Type} → List α → List α
  perm : ∀ {α : Type} (entries : List α), (order entries).Perm entries

/-- The order in which the entries were made. -/
def MapOrder.insertion : MapOrder := ⟨fun entries => entries, fun _ => .refl _⟩

/-! ### The store -/

/-- `serviceauth.Claims`, as far as the server reads them. -/
structure Claims where
  workspaceId : String
  runId : String
  incidentId : String
  deriving DecidableEq, Repr

namespace PostgresStore

/-- `tenantTx`, in a request with these claims. -/
def tenantTx : Option Claims → EvidenceProg Unit
  | none => Prog.throw "workspace context is required"
  | some claims => Prog.perform (EvidenceCall.tenantTx claims.workspaceId)

def getRCAContextRecord (ctx : Option Claims) (runId incidentId : String) :
    EvidenceProg RCAContextRecord := do
  tenantTx ctx
  Prog.perform (EvidenceCall.contextRecord runId incidentId)

def listHealthSamples (ctx : Option Claims) (deploymentId : String) (start stop : Go.Time)
    (limit : ℤ) : EvidenceProg (List HealthSample) := do
  tenantTx ctx
  Prog.perform (EvidenceCall.healthSamples deploymentId start stop limit)

def listRuntimeConfigs (ctx : Option Claims) (deploymentId : String) :
    EvidenceProg (List StoredConfig) := do
  tenantTx ctx
  Prog.perform (EvidenceCall.storedConfigs deploymentId)

def listRecentChanges (ctx : Option Claims) (deploymentId : String) (start stop : Go.Time)
    (limit : ℤ) : EvidenceProg (List RecentChange) := do
  tenantTx ctx
  Prog.perform (EvidenceCall.recentChanges deploymentId start stop limit)

end PostgresStore

/-! ### Kubernetes -/

namespace KubernetesAdapter

def deploymentStatus («namespace» deploymentName : String) : EvidenceProg K8sDeploymentStatus :=
  Prog.perform (EvidenceCall.deploymentStatus «namespace» deploymentName)

def pods («namespace» appId deploymentId : String) : EvidenceProg (List K8sPod) :=
  Prog.perform (EvidenceCall.pods «namespace» appId deploymentId)

/-- The events of the deployment, of its pods, and of everything whose name
starts with the deployment's and a hyphen. -/
def selectsEvent (deploymentName : String) (pods : List K8sPod) (event : K8sEvent) : Bool :=
  event.involvedName = deploymentName || pods.any (fun pod => pod.name = event.involvedName) ||
    (deploymentName ++ "-").toList.isPrefixOf event.involvedName.toList

def events («namespace» deploymentName appId deploymentId : String) :
    EvidenceProg (List K8sEvent) := do
  let found ← (pods «namespace» appId deploymentId).tryCatch fun _ => Prog.ret []
  let items ← Prog.perform (EvidenceCall.events «namespace»)
  return items.filter (selectsEvent deploymentName found)

/-- The seconds of a duration, one at least. -/
def sinceSeconds (since : Go.Time) : ℤ :=
  if since.tdiv Go.second < 1 then 1 else since.tdiv Go.second

/-- The log of one pod, or a line that tells why there is none. -/
def podLog («namespace» : String) (since : Go.Time) (tailLines : ℤ) (pod : K8sPod) :
    EvidenceProg PodLog :=
  ((do
    let data ← Prog.perform
      (EvidenceCall.podLog «namespace» pod.name tailLines (sinceSeconds since))
    return ⟨pod.name, data⟩) : EvidenceProg PodLog).tryCatch fun err =>
      Prog.ret ⟨pod.name, ("error: " ++ err).toList⟩

def podLogs («namespace» : String) (since : Go.Time) (tailLines : ℤ) :
    List K8sPod → EvidenceProg (List PodLog)
  | [] => Prog.ret []
  | pod :: rest => do
      let log ← podLog «namespace» since tailLines pod
      let logs ← podLogs «namespace» since tailLines rest
      return log :: logs

def logs («namespace» appId deploymentId : String) (since : Go.Time) (tailLines : ℤ) :
    EvidenceProg (List PodLog) := do
  let found ← pods «namespace» appId deploymentId
  podLogs «namespace» since tailLines found

end KubernetesAdapter

/-! ### Loki -/

namespace LogBackendAdapter

/-- The pod of a stream: the first of three labels that is not empty. -/
def podName (fallbackName : String) (stream : List (String × String)) : String :=
  (["k8s_pod_name", "pod", "service_name"].findSome? fun label => truthy (lookup label stream)).getD
    fallbackName

/-- The texts of a stream's entries. -/
def entryTexts (values : List (List (List Char))) : List (List Char) :=
  values.filterMap fun value => if value.length = 2 then value[1]? else none

/-- Append the lines to those of a pod, which a pod without lines gets only
if there are any. -/
def addLines (podName : String) (lines : List (List Char)) :
    List (String × List (List Char)) → List (String × List (List Char))
  | [] => if lines = [] then [] else [(podName, lines)]
  | (name, found) :: rest =>
      if name = podName then (name, found ++ lines) :: rest
      else (name, found) :: addLines podName lines rest

/-- The lines by pod, in the order in which the pods came up. -/
def logsByPod (fallbackName : String) (streams : List LokiStream) :
    List (String × List (List Char)) :=
  streams.foldl (fun byPod s => addLines (podName fallbackName s.stream) (entryTexts s.values) byPod) []

/-- `parseLokiLogs`, after the decoding. -/
def parseLokiLogs (order : MapOrder) (fallbackName : String) (streams : List LokiStream) :
    List PodLog :=
  match order.order (logsByPod fallbackName streams) with
  | [] => [⟨fallbackName, []⟩]
  | byPod => byPod.map fun (podName, lines) => ⟨podName, ['\n'].intercalate lines⟩

def queryLogs (cfg : Config) (order : MapOrder) («namespace» deploymentName : String)
    (start stop : Go.Time) (limit : ℤ) : EvidenceProg (List PodLog) :=
  if cfg.logBackendURL = "" then Prog.throw "log backend url is not configured"
  else do
    let streams ← Prog.perform
      (EvidenceCall.queryLogs «namespace» deploymentName start stop limit)
    return parseLokiLogs order deploymentName streams

end LogBackendAdapter

/-! ### Prometheus -/

namespace PrometheusAdapter

/-- One entry of the result: its labels and its rows. -/
def decodeResult (v : Json String) :
    Except String (List (String × String) × List (List (Json String))) := do
  let fields ← decodeStruct [v]
  let labels ← decodeLabels (fieldValues "metric" fields)
  let rows ← (← decodeSlice (fieldValues "values" fields)).mapM fun row => do
    (← decodeSlice [row]).mapM decodeAny
  return (labels, rows)

/-- The body of an answer. -/
def decodeBody (body : Json String) :
    Except String (List (List (String × String) × List (List (Json String)))) := do
  let fields ← decodeStruct [body]
  let _ ← decodeString (fieldValues "status" fields)
  let data ← decodeStruct (fieldValues "data" fields)
  (← decodeSlice (fieldValues "result" data)).mapM decodeResult

/-- The point of a row: a number and the text of one, or nothing. -/
def point? : List (Json String) → Option MetricPoint
  | [number ts, string value] => do
      let seconds ← Go.parseFloat ts.toList
      let value ← Go.parseFloat value.toList
      return { timestamp := seconds.trunc, value }
  | _ => none

/-- `queryRange`, after its answer: the points and the labels of the first
series. -/
def seriesPoints (body : Json String) :
    Except String (List MetricPoint × List (String × String)) := do
  match ← decodeBody body with
  | [] => return ([], [])
  | (labels, rows) :: _ => return (rows.filterMap point?, labels)

/-- The metrics that are queried. -/
def metricNames : List String :=
  ["container_cpu_usage_seconds_total", "container_memory_working_set_bytes",
    "kube_pod_container_status_restarts_total", "http_requests_error_rate",
    "http_request_duration_p95"]

/-- One query: its series, or one that tells why there is none. -/
def querySeries («namespace» deploymentName : String) (start stop : Go.Time) (name : String) :
    EvidenceProg MetricSeries :=
  ((do
    let body ← Prog.perform (EvidenceCall.queryRange name «namespace» deploymentName
      (start / Go.second) (stop / Go.second))
    let (values, labels) ← Prog.ofExcept (seriesPoints body)
    return { name, labels, values }) : EvidenceProg MetricSeries).tryCatch fun err =>
      Prog.ret { name, labels := [("error", err)], values := [] }

def queryAll («namespace» deploymentName : String) (start stop : Go.Time) :
    List String → EvidenceProg (List MetricSeries)
  | [] => Prog.ret []
  | name :: names => do
      let series ← querySeries «namespace» deploymentName start stop name
      let rest ← queryAll «namespace» deploymentName start stop names
      return series :: rest

def queryDeploymentMetrics (cfg : Config) (order : MapOrder) («namespace» deploymentName : String)
    (start stop : Go.Time) : EvidenceProg (List MetricSeries) :=
  if cfg.prometheusURL = "" then Prog.throw "prometheus url is not configured"
  else queryAll «namespace» deploymentName start stop (order.order metricNames)

end PrometheusAdapter

/-! ### Tempo -/

namespace TempoAdapter

def search (serviceName : String) (start stop limit : ℤ) : EvidenceProg (List TraceSummary) :=
  Prog.perform (EvidenceCall.searchTraces serviceName start stop limit)

def queryDeploymentTraces (cfg : Config) (serviceName : String) (start stop : Go.Time) :
    EvidenceProg (List TraceSummary) :=
  if cfg.tempoURL = "" then Prog.throw "tempo url is not configured"
  else search serviceName (start / Go.second) (stop / Go.second) cfg.maxSpans

end TempoAdapter

end NexCause
