/-
NexCause/EvidenceServer.lean

The evidence server from its JSON-RPC endpoint to its adapters: the handler
(`tools/mcp.go`), the registry of tools, and the services behind them.

Every tool first builds the context of the run that its arguments name
(`scopedContext`) and collects its evidence for the scope and the window of
that context.  A request carries the claims of its token, and its body is
`none` where it is not JSON.
-/
import NexCause.Preprocess

namespace NexCause

open Program Json Decoding

/-! ### Services -/

structure EvidenceRequest where
  runId : String
  incidentId : String
  deriving DecidableEq, Repr

/-- `strings.TrimSpace` of a string. -/
@[irreducible] def trimmed (s : String) : String := String.ofList (Go.trimSpace s.toList)

/-- A context with its window. -/
structure ScopedContext where
  context : RCAContext
  start : Go.Time
  stop : Go.Time
  deriving DecidableEq, Repr

/-- `scopedContext`; its authorizer allows every read. -/
def scopedContext (cfg : Config) (ctx : Option Claims) (req : EvidenceRequest) :
    EvidenceProg ScopedContext :=
  if trimmed req.runId = "" ∨ trimmed req.incidentId = "" then
    Prog.throw "runId and incidentId are required"
  else do
    let record ← PostgresStore.getRCAContextRecord ctx (trimmed req.runId) (trimmed req.incidentId)
    if record.run.id = "" then
      Prog.throw s!"rca run {trimmed req.runId} for incident {trimmed req.incidentId} was not found"
    else
      let now ← Prog.perform EvidenceCall.now
      let context := buildContext cfg record now
      let (start, stop) ← Prog.ofExcept context.windowTimes
      return { context, start, stop }

/-- `withError`. -/
def withError (source : Source) (s : ScopedContext) (err : String) : Bundle :=
  { newBundle source s.context.scope s.start s.stop with
    summary := "Evidence collection failed."
    errors := [⟨source.name, err⟩] }

/-- `unavailable`. -/
def unavailable (source : Source) (s : ScopedContext) (message : String) : Bundle :=
  { newBundle source s.context.scope s.start s.stop with
    summary := message
    errors := [⟨source.name, message⟩] }

/-- Collect, and report a bundle: of what was collected, or of the error. -/
def collect {α : Type} (source : Source) (s : ScopedContext) (p : EvidenceProg α) (bundle : α → Bundle) :
    EvidenceProg Bundle :=
  (p >>= fun a => Prog.ret (bundle a)).tryCatch fun err => Prog.ret (withError source s err)

/-- Collect from the cluster, if there is an adapter for it. -/
def collectFromCluster {α : Type} (cfg : Config) (s : ScopedContext) (p : EvidenceProg α)
    (bundle : α → Bundle) : EvidenceProg Bundle :=
  if cfg.kubernetes then collect .kubernetes s p bundle
  else Prog.ret (unavailable .kubernetes s "kubernetes adapter is not configured")

namespace Services

def getDeploymentStatus (cfg : Config) (s : ScopedContext) : EvidenceProg Bundle :=
  collectFromCluster cfg s
    (KubernetesAdapter.deploymentStatus s.context.scope.«namespace» s.context.scope.deploymentName)
    (Preprocess.deploymentStatus s.context.scope s.start s.stop)

def getPods (cfg : Config) (s : ScopedContext) : EvidenceProg Bundle :=
  collectFromCluster cfg s
    (KubernetesAdapter.pods s.context.scope.«namespace» s.context.scope.appId
      s.context.scope.deploymentId)
    fun pods => Preprocess.pods s.context.scope s.start s.stop pods s.context.constraints.maxSamples

def getEvents (cfg : Config) (s : ScopedContext) : EvidenceProg Bundle :=
  collectFromCluster cfg s
    (KubernetesAdapter.events s.context.scope.«namespace» s.context.scope.deploymentName
      s.context.scope.appId s.context.scope.deploymentId)
    fun events =>
      Preprocess.events s.context.scope s.start s.stop events s.context.constraints.maxSamples

/-- The logs of Loki, or else those of the pods. -/
def collectLogs (cfg : Config) (order : MapOrder) (s : ScopedContext) : EvidenceProg (List PodLog) :=
  (LogBackendAdapter.queryLogs cfg order s.context.scope.«namespace» s.context.scope.deploymentName
    s.start s.stop s.context.constraints.maxLogLines).tryCatch fun err =>
      if cfg.kubernetes then
        KubernetesAdapter.logs s.context.scope.«namespace» s.context.scope.appId
          s.context.scope.deploymentId (s.stop - s.start) s.context.constraints.maxLogLines
      else Prog.throw err

def getLogs (cfg : Config) (order : MapOrder) (s : ScopedContext) : EvidenceProg Bundle :=
  collect .logs s (collectLogs cfg order s) fun logs =>
    (Preprocess.logsBundle order s.context.scope s.start s.stop logs
      s.context.constraints.maxLogLines).returned

def getMetrics (cfg : Config) (order : MapOrder) (s : ScopedContext) : EvidenceProg Bundle :=
  collect .metrics s
    (PrometheusAdapter.queryDeploymentMetrics cfg order s.context.scope.«namespace»
      s.context.scope.deploymentName s.start s.stop)
    fun series =>
      Preprocess.metrics s.context.scope s.start s.stop series s.context.constraints.maxSamples

def getTraces (cfg : Config) (s : ScopedContext) : EvidenceProg Bundle :=
  collect .traces s
    (TempoAdapter.queryDeploymentTraces cfg s.context.scope.serviceName s.start s.stop)
    fun traces =>
      Preprocess.traces s.context.scope s.start s.stop traces s.context.constraints.maxSpans

def getHealthSamples (ctx : Option Claims) (s : ScopedContext) : EvidenceProg Bundle :=
  collect .healthSamples s
    (PostgresStore.listHealthSamples ctx s.context.scope.deploymentId s.start s.stop
      s.context.constraints.maxSamples)
    fun samples =>
      Preprocess.healthSamples s.context.scope s.start s.stop samples s.context.constraints.maxSamples

def getRuntimeConfigs (ctx : Option Claims) (s : ScopedContext) : EvidenceProg Bundle :=
  collect .runtime s (PostgresStore.listRuntimeConfigs ctx s.context.scope.deploymentId)
    fun configs =>
      Preprocess.runtimeConfigs s.context.scope s.start s.stop configs s.context.constraints.maxSamples

def getRecentChanges (ctx : Option Claims) (s : ScopedContext) : EvidenceProg Bundle :=
  collect .changes s
    (PostgresStore.listRecentChanges ctx s.context.scope.deploymentId s.start s.stop
      s.context.constraints.maxSamples)
    fun changes =>
      Preprocess.recentChanges s.context.scope s.start s.stop changes s.context.constraints.maxSamples

end Services

/-! ### Tools -/

inductive Tool
  | rcaContext | deploymentStatus | pods | kubernetesEvents | logs | metrics | traces
  | healthSamples | runtimeConfigs | recentChanges
  deriving DecidableEq, Repr

/-- The tools, in the order of the list. -/
def Tool.all : List Tool :=
  [.rcaContext, .deploymentStatus, .pods, .kubernetesEvents, .logs, .metrics, .traces,
    .healthSamples, .runtimeConfigs, .recentChanges]

def Tool.name : Tool → String
  | .rcaContext => "get_rca_context"
  | .deploymentStatus => "get_deployment_status"
  | .pods => "get_pods"
  | .kubernetesEvents => "get_kubernetes_events"
  | .logs => "get_logs"
  | .metrics => "get_metrics"
  | .traces => "get_traces"
  | .healthSamples => "get_health_samples"
  | .runtimeConfigs => "get_runtime_configs"
  | .recentChanges => "get_recent_changes"

/-- What a tool returns. -/
inductive ToolResult
  | context (c : RCAContext)
  | bundle (b : Bundle)

/-- What a tool does in its context. -/
def Tool.evidence (cfg : Config) (order : MapOrder) (ctx : Option Claims) (s : ScopedContext) :
    Tool → EvidenceProg ToolResult
  | .rcaContext => return .context s.context
  | .deploymentStatus => return .bundle (← Services.getDeploymentStatus cfg s)
  | .pods => return .bundle (← Services.getPods cfg s)
  | .kubernetesEvents => return .bundle (← Services.getEvents cfg s)
  | .logs => return .bundle (← Services.getLogs cfg order s)
  | .metrics => return .bundle (← Services.getMetrics cfg order s)
  | .traces => return .bundle (← Services.getTraces cfg s)
  | .healthSamples => return .bundle (← Services.getHealthSamples ctx s)
  | .runtimeConfigs => return .bundle (← Services.getRuntimeConfigs ctx s)
  | .recentChanges => return .bundle (← Services.getRecentChanges ctx s)

/-- `stringArgument`, and `stringArg` without a fallback: a missing value and a
value that is no string are empty. -/
def stringArgument (arguments : List (String × Json String)) (key : String) : String :=
  match lookup key arguments with
  | some (string s) => s
  | _ => ""

/-- `evidenceRequest`. -/
def evidenceRequest (arguments : List (String × Json String)) : Except String EvidenceRequest :=
  let runId := stringArgument arguments "runId"
  let incidentId := stringArgument arguments "incidentId"
  if runId = "" ∨ incidentId = "" then .error "runId and incidentId are required"
  else .ok { runId, incidentId }

/-- `Registry.Call`. -/
def Registry.call (cfg : Config) (order : MapOrder) (ctx : Option Claims) (name : String)
    (arguments : List (String × Json String)) : EvidenceProg ToolResult :=
  match Tool.all.find? fun tool => tool.name = name with
  | none => Prog.throw ("unknown tool " ++ Go.quote name)
  | some tool => do
      let req ← Prog.ofExcept (evidenceRequest arguments)
      let s ← scopedContext cfg ctx req
      tool.evidence cfg order ctx s

/-! ### JSON-RPC -/

/-- `jsonRPCRequest`. -/
structure RpcRequest where
  jsonrpc : String
  id : Json String
  method : String
  params : Option (Json String)

/-- The parameters of `tools/call`. -/
structure CallParams where
  name : String
  arguments : List (String × Json String)

inductive RpcResult
  | initialized (protocolVersion serverName serverVersion : String)
  | tools (names : List String)
  | call (result : ToolResult)

structure RpcError where
  code : ℤ
  message : String
  deriving DecidableEq, Repr

/-- `jsonRPCResponse`; an id of null is left out of its text. -/
structure RpcResponse where
  id : Json String
  result : Option RpcResult
  error : Option RpcError

/-- A response: its status, and the value that goes into its body. -/
structure HttpResponse where
  status : ℕ
  body : RpcResponse

/-- Decode the body of a request. -/
def decodeRequest (body : Json String) : Except String RpcRequest := do
  let fields ← decodeStruct [body]
  let jsonrpc ← decodeString (fieldValues "jsonrpc" fields)
  let id ← decodeAny ((fieldValues "id" fields).getLastD null)
  let method ← decodeString (fieldValues "method" fields)
  return { jsonrpc, id, method, params := (fieldValues "params" fields).getLast? }

/-- Decode the parameters of `tools/call`; without any there is no JSON to
decode. -/
def decodeParams : Option (Json String) → Except String CallParams
  | none => .error "unexpected end of JSON input"
  | some params => do
      let fields ← decodeStruct [params]
      let name ← decodeString (fieldValues "name" fields)
      let arguments ← decodeMap (fieldValues "arguments" fields)
      return { name, arguments }

/-- The arguments name exactly the run and the incident of the claims. -/
def CallParams.InScope (params : CallParams) (claims : Claims) : Prop :=
  stringArgument params.arguments "runId" = claims.runId ∧
    stringArgument params.arguments "incidentId" = claims.incidentId

instance (params : CallParams) (claims : Claims) : Decidable (params.InScope claims) :=
  inferInstanceAs (Decidable (_ ∧ _))

/-- The error of a call out of scope. -/
def scopeError : RpcError := ⟨-32602, "tool scope does not match the authenticated RCA run"⟩

/-- `tools/call`. -/
def toolsCall (cfg : Config) (order : MapOrder) (ctx : Option Claims) (req : RpcRequest) :
    EvidenceProg (Except RpcError RpcResult) :=
  match decodeParams req.params with
  | .error message => return .error ⟨-32602, message⟩
  | .ok params =>
      match ctx with
      | none => return .error scopeError
      | some claims =>
          if params.InScope claims then
            (Registry.call cfg order ctx params.name params.arguments >>= fun result =>
              Prog.ret (.ok (.call result))).tryCatch fun err => Prog.ret (.error ⟨-32000, err⟩)
          else return .error scopeError

/-- `MCPHandler.dispatch`. -/
def dispatch (cfg : Config) (order : MapOrder) (ctx : Option Claims) (req : RpcRequest) :
    EvidenceProg (Except RpcError RpcResult) :=
  if req.method = "initialize" then
    return .ok (.initialized "2024-11-05" "rca-mcp-server" "0.1.3")
  else if req.method = "tools/list" then return .ok (.tools (Tool.all.map Tool.name))
  else if req.method = "tools/call" then toolsCall cfg order ctx req
  else return .error ⟨-32601, "method not found"⟩

/-- The response to a dispatched request. -/
def rpcResponse (id : Json String) : Except RpcError RpcResult → RpcResponse
  | .ok result => { id, result := some result, error := none }
  | .error error => { id, result := none, error := some error }

/-- `MCPHandler.ServeHTTP` for a POST request. -/
def serveHTTP (cfg : Config) (order : MapOrder) (ctx : Option Claims) (body : Option (Json String)) :
    EvidenceProg HttpResponse :=
  match (body.map decodeRequest).getD (.error "invalid character in JSON") with
  | .error message => return ⟨400, rpcResponse null (.error ⟨-32700, message⟩)⟩
  | .ok req => do
      let outcome ← dispatch cfg order ctx req
      return ⟨200, rpcResponse req.id outcome⟩

end NexCause
