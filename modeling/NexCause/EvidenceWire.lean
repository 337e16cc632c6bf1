/-
NexCause/EvidenceWire.lean

The evidence server as its client meets it: a JSON-RPC request behind a token,
and the answer as `encoding/json` writes it, field by field with the tags of the
source.

Numbers, times, patterns and the samples of a bundle, which the agent hands on
without a look, are written in some way (`Wire`).

Main results: what the client makes of a request over HTTP, whatever surrounds
it: the session begins (`request_initialized`), the tools are those that are
required (`request_tools`), and a call of a tool gives what the tool gives
(`callTool_answer`).
-/
import NexCause.IncidentScope
import NexCause.MetricAnswers
import NexCause.ScopeConfinement
import NexCause.RcaGraph

namespace NexCause

open Json Program

/-! ### What is written -/

/-- How the server writes a finite number, the text of a time in whole seconds,
a pattern, which may have been cut within a character, a sample, and a value within a
string. -/
structure Wire where
  number : Float64 → String
  time : ℤ → String
  pattern : LogPattern → String
  sample : Sample → Json String
  text : Json String → String

/-- A field with `omitempty`. -/
def optionalField (key : String) : Option (Json String) → List (String × Json String)
  | some v => [(key, v)]
  | none => []

/-- A text that is left out when it is empty. -/
def nonEmpty (s : String) : Option (Json String) := if s = "" then none else some (.string s)

/-- The entries of a map, which are written in the order of their keys. -/
def sortedFields (entries : List (String × Json String)) : List (String × Json String) :=
  entries.insertionSort fun a b => a.1 ≤ b.1

def integer (n : ℤ) : Json String := .number (toString n)

def Scope.json (s : Scope) : Json String :=
  .object (("appId", .string s.appId) :: optionalField "appName" (nonEmpty s.appName) ++
    [("deploymentId", .string s.deploymentId), ("namespace", .string s.«namespace»)] ++
    optionalField "serviceName" (nonEmpty s.serviceName) ++
    optionalField "deploymentName" (nonEmpty s.deploymentName))

section Wire

variable (w : Wire)

/-- The fields of `incident`. -/
def RCAContext.incidentFields (c : RCAContext) : List (String × Json String) :=
  [("id", .string c.incidentId), ("severity", .string c.severity)] ++
    optionalField "ruleKey" (c.ruleKey.map .string) ++ [("title", .string c.title)] ++
    optionalField "summary" (c.incidentSummary.map .string) ++
    [("openedAt", .string (w.time c.openedAt))] ++
    optionalField "latestHealthSampleId" (c.latestHealthSampleId.map .string)

def RCAContext.json (c : RCAContext) : Json String :=
  .object
    [("run", .object [("id", .string c.runId), ("source", .string c.runSource),
        ("startedAt", .string (w.time c.runStartedAt))]),
      ("incident", .object (c.incidentFields w)),
      ("scope", c.scope.json),
      ("window", .object [("triggeredAt", .string (w.time c.window.triggeredAt)),
        ("windowStart", .string (w.time c.window.windowStart)),
        ("windowEnd", .string (w.time c.window.windowEnd)),
        ("lookbackMinutes", integer c.window.lookbackMinutes),
        ("lookaheadMinutes", integer c.window.lookaheadMinutes),
        ("reason", .string c.window.reason)]),
      ("constraints", .object [("readOnly", .bool c.constraints.readOnly),
        ("persistence", .string c.constraints.persistence),
        ("maxRecursionDepth", integer c.constraints.maxRecursionDepth),
        ("maxLogLines", integer c.constraints.maxLogLines),
        ("maxSamples", integer c.constraints.maxSamples),
        ("maxSpans", integer c.constraints.maxSpans),
        ("redactSecrets", .bool c.constraints.redactSecrets)])]

def SignalValue.json : SignalValue → Json String
  | .int n => integer n
  | .text s => .string s

/-- The entries of `patterns`. -/
def patternsJson (patterns : List (LogPattern × ℕ)) : Json String :=
  .array (patterns.map fun p =>
    .object [("count", integer p.2), ("pattern", .string (w.pattern p.1))])

/-- The `attributes` of a signal: its numbers, its counts as `groups`, and its
`patterns`. -/
def Signal.attributesJson (s : Signal) : Option (Json String) :=
  let groups : Option (Json String) :=
    if s.counts = [] then none
    else some (.object (sortedFields (s.counts.map fun c => (c.1, integer c.2))))
  match s.attributes.map (fun a => (a.1, (.number (w.number a.2) : Json String))) ++
      optionalField "groups" groups ++ optionalField "patterns" (s.patterns.map (patternsJson w)) with
  | [] => none
  | entries => some (.object (sortedFields entries))

def Signal.fields (s : Signal) : List (String × Json String) :=
  [("name", .string s.name), ("severity", .string s.severity), ("value", s.value.json)] ++
    optionalField "reason" (nonEmpty s.reason) ++ optionalField "attributes" (s.attributesJson w)

def Signal.json (s : Signal) : Json String := .object (s.fields w)

def CollectionError.json (e : CollectionError) : Json String :=
  .object [("source", .string e.source), ("message", .string e.message)]

/-- The fields of `stats`. -/
def Bundle.statFields (b : Bundle) : List (String × Json String) :=
  sortedFields (b.stats.map fun p => (p.1, .number (w.number p.2)))

/-- A bundle that was collected at `collectedAt`. -/
def Bundle.json (collectedAt : ℤ) (b : Bundle) : Json String :=
  .object ([("source", .string b.source.name), ("scope", b.scope.json),
      ("window", .object [("start", .string (w.time b.windowStart)),
        ("end", .string (w.time b.windowEnd))]),
      ("summary", .string b.summary),
      ("signals", .array (b.signals.map (Signal.json w))),
      ("samples", .array (b.samples.map w.sample))] ++
    optionalField "stats" (if b.stats = [] then none else some (.object (b.statFields w))) ++
    [("correlations", .array []), ("errors", .array (b.errors.map CollectionError.json)),
      ("truncated", .bool b.truncated), ("collectedAt", .string (w.time collectedAt))])

def ToolResult.json (collectedAt : ℤ) : ToolResult → Json String
  | .context c => c.json w
  | .bundle b => b.json w collectedAt

/-- Reading what has been written, one by one. -/
theorem mapM_written {ι α β : Type} {f : α → Option β} {j : ι → α} {v : ι → β}
    (h : ∀ i, f (j i) = some (v i)) (written : List ι) :
    (written.map j).mapM f = some (written.map v) := by
  induction written with
  | nil => rfl
  | cons i written ih =>
    rw [List.map_cons, List.mapM_cons, ih, h]
    rfl

/-! ### Answers -/

def Tool.description : Tool → String
  | .rcaContext => "Build ephemeral RCA context from runId and incidentId."
  | .deploymentStatus =>
      "Read Kubernetes deployment replica/condition status for the scoped deployment."
  | .pods => "Read and preprocess scoped pod status and restart data."
  | .kubernetesEvents => "Read and preprocess scoped Kubernetes events."
  | .logs => "Read and preprocess scoped logs from configured log backend or Kubernetes pod logs."
  | .metrics => "Read and preprocess scoped Prometheus metrics."
  | .traces => "Read and preprocess scoped Tempo traces."
  | .healthSamples => "Read and preprocess stored deployment health samples."
  | .runtimeConfigs => "Read and sanitize scoped runtime config metadata."
  | .recentChanges => "Read recent deployment/runtime changes for the scoped window."

/-- The `inputSchema` of every tool. -/
def inputSchema : Json String :=
  .object [("properties", .object [("depth", .object [("minimum", integer 0),
      ("type", .string "integer")]), ("focus", .object [("type", .string "string")]),
      ("incidentId", .object [("type", .string "string")]),
      ("runId", .object [("type", .string "string")])]),
    ("required", .array [.string "runId", .string "incidentId"]), ("type", .string "object")]

/-- `ToolDefinition`, of a tool by its name. -/
def toolDefinition (name : String) : Json String :=
  .object [("name", .string name),
    ("description", .string
      (((Tool.all.find? fun tool => tool.name = name).map Tool.description).getD "")),
    ("inputSchema", inputSchema)]

def RpcResult.json (collectedAt : ℤ) : RpcResult → Json String
  | .initialized protocolVersion name version =>
      .object [("capabilities", .object [("tools", .object [])]),
        ("protocolVersion", .string protocolVersion),
        ("serverInfo", .object [("name", .string name), ("version", .string version)])]
  | .tools names => .object [("tools", .array (names.map toolDefinition))]
  | .call result =>
      .object [("content", .array [.object [("text", .string (w.text (result.json w collectedAt))),
          ("type", .string "text")]]),
        ("structuredContent", result.json w collectedAt)]

def RpcError.json (e : RpcError) : Json String :=
  .object [("code", integer e.code), ("message", .string e.message)]

/-- The body of an answer. -/
def RpcResponse.json (collectedAt : ℤ) (r : RpcResponse) : Json String :=
  .object (("jsonrpc", .string "2.0") ::
    optionalField "id" (match r.id with
      | .null => none
      | id => some id) ++
    optionalField "result" (r.result.map (RpcResult.json w collectedAt)) ++
    optionalField "error" (r.error.map RpcError.json))

end Wire

/-! ### Over HTTP -/

/-- The store gives the record of the run and the incident that it is asked for. -/
theorem getRCAContextRecord_ids {c : AccessControl.Catalog Table DbRole} {role : DbRole}
    {db : ContextTables} {ctx : Option String} {runId incidentId : String}
    {record : RCAContextRecord}
    (h : getRCAContextRecord c role db ctx runId incidentId = .ok record) :
    record.run.id = runId ∧ record.incident.id = incidentId := by
  obtain ⟨r, -, i, -, d, -, a, -, hrun, hincident, -, -, -, collectedAt, rfl⟩ :=
    Incidents.getRCAContextRecord_rows h
  exact ⟨hrun, hincident⟩

/-- What surrounds one step of an investigation: the network, the clock of the
server in seconds, what its backends answer to the calls of the request, the id
that the client gives the request, and what the language model says.  The query
for the context of a run is one for its ids (`getRCAContextRecord_ids`). -/
structure Surroundings where
  failure : Option RcaAgent.GraphError := none
  now : ℤ
  answers : (c : EvidenceCall) → Except String c.Result
  id : ℕ
  text : Except RcaAgent.GraphError String
  idFits : (Go.parseFloat (toString id).toList).isSome
  found : ∀ {runId incidentId : String} {record : RCAContextRecord},
    answers (.contextRecord runId incidentId) = .ok record → record.run.id ≠ "" →
      record.run.id = runId ∧ record.incident.id = incidentId

/-- The ids of a job: they are not empty, and have no white space around them, as
the manager generates them. -/
structure RunJob.WellFormed (job : RunJob) : Prop where
  workspaceId : job.workspaceId ≠ ""
  runId : job.runId ≠ ""
  incidentId : job.incidentId ≠ ""
  trimmedRunId : trimmed job.runId = job.runId
  trimmedIncidentId : trimmed job.incidentId = job.incidentId

/-- What the token of a job says. -/
def RunJob.claims (job : RunJob) : Claims := ⟨job.workspaceId, job.runId, job.incidentId⟩

/-- A request gets to the server in time: the token was signed at `started`. -/
def Surroundings.reach (x : Surroundings) (started : ℤ) : Except RcaAgent.GraphError Unit :=
  match x.failure with
  | some e => .error e
  | none => if x.now < started + 120 then .ok () else .error (.httpStatus 401)

/-- The context of a job's run. -/
def RunJob.context (job : RunJob) (cfg : Config) : EvidenceProg ScopedContext :=
  scopedContext cfg (some job.claims) ⟨job.runId, job.incidentId⟩

/-- JSON can hold the result. -/
def ToolResult.encodes : ToolResult → Bool
  | .context _ => true
  | .bundle b => b.encodes

namespace RcaAgent

/-- `payload` of `_request`. -/
def requestPayload (id : ℕ) (method : String) (params : Option (Json String)) : Json String :=
  .object ([("jsonrpc", .string "2.0"), ("id", .number (toString id)),
    ("method", .string method)] ++ optionalField "params" params)

/-- A request to the evidence server, which answers behind its middleware. -/
def exchange (w : Wire) (secret : String) (cfg : Config) (order : MapOrder) (token : BearerToken)
    (method : String) (params : Option (Json String)) (x : Surroundings) :
    Except GraphError (RcaAgent.HttpResponse String) :=
  match x.failure with
  | some e => .error e
  | none =>
      match ServiceAuth.middleware secret x.now (.bearer token) with
      | .error e => .ok ⟨e.status, none⟩
      | .ok claims =>
          match (serveHTTP cfg order (some claims)
              (some (requestPayload x.id method params))).eval x.answers with
          | .ok response =>
              .ok ⟨response.status, (writeJSON response).map (RpcResponse.json w x.now)⟩
          | .error message => .error (.transport message)

/-- The evidence server and the language model. -/
def overHttp (w : Wire) (secret : String) (cfg : Config) (order : MapOrder) :
    Service (GraphCall String) GraphCall.Result GraphError Surroundings Unit
  | .post token method params, x, s => (exchange w secret cfg order token method params x, s)
  | .invoke _, x, s => (x.text, s)

/-! ### What the client makes of it -/

variable [Python.Reading String]

/-- The end of `_request`. -/
def received (response : RcaAgent.HttpResponse String) : Except GraphError (Json String) :=
  if 200 ≤ response.status ∧ response.status < 300 then
    match response.body with
    | some body => rpcResult body
    | none => .error (.transport "JSONDecodeError")
  else .error (.httpStatus response.status)

theorem request_eq (token : BearerToken) (method : String) (params : Option (Json String)) :
    request token method params =
      Prog.perform (GraphCall.post token method params) >>= fun response =>
        Prog.ofExcept (received response) := by
  unfold request received
  congr 1
  funext response
  split
  · cases response.body <;> rfl
  · rfl

theorem rpcResult_ok (w : Wire) (t : ℤ) (id : ℕ) (r : RpcResult) :
    rpcResult (RpcResponse.json w t (rpcResponse (.number (toString id)) (.ok r))) =
      .ok (r.json w t) := by
  simp [rpcResult, RpcResponse.json, rpcResponse, optionalField, lookup, Python.truthy]

theorem rpcResult_error (w : Wire) (t : ℤ) (id : ℕ) (e : RpcError) :
    rpcResult (RpcResponse.json w t (rpcResponse (.number (toString id)) (.error e))) =
      .error (.runtimeError e.message) := by
  simp [rpcResult, RpcResponse.json, RpcError.json, rpcResponse, optionalField, lookup,
    Python.truthy, Python.get, Python.str]

/-- The client reads the result, unless it is one that JSON cannot hold. -/
theorem received_written (w : Wire) (t : ℤ) (id : ℕ) (outcome : Except RpcError RpcResult) :
    received ⟨200, (writeJSON ⟨200, rpcResponse (.number (toString id)) outcome⟩).map
        (RpcResponse.json w t)⟩ =
      match outcome with
      | .ok r =>
          if (rpcResponse null (.ok r)).encodes then .ok (r.json w t)
          else .error (.transport "JSONDecodeError")
      | .error e => .error (.runtimeError e.message) := by
  cases outcome with
  | error e =>
    exact rpcResult_error w t id e
  | ok r =>
    have hencodes : (rpcResponse (.number (toString id)) (.ok r)).encodes =
        (rpcResponse null (.ok r)).encodes := rfl
    unfold writeJSON received
    rw [hencodes]
    dsimp only
    by_cases h : (rpcResponse null (.ok r)).encodes = true
    · rw [if_pos h, if_pos h]
      exact rpcResult_ok w t id r
    · rw [if_neg h, if_neg h]
      rfl

omit [Python.Reading String] in
/-- The server reads the payload of the client. -/
theorem decodeRequest_payload {id : ℕ} (hid : (Go.parseFloat (toString id).toList).isSome)
    (method : String) (params : Option (Json String)) :
    decodeRequest (requestPayload id method params) =
      .ok ⟨"2.0", .number (toString id), method, params⟩ := by
  unfold requestPayload
  generalize toString id = n at hid ⊢
  obtain ⟨x, hx⟩ := Option.isSome_iff_exists.mp hid
  have hany : Decoding.decodeAny (.number n) = .ok (.number n) := by
    simp [Decoding.decodeAny, numbers, hx]
  -- each field of the payload goes to one field of the struct
  generalize hfields : ([("jsonrpc", .string "2.0"), ("id", .number n),
    ("method", .string method)] ++ optionalField "params" params :
      List (String × Json String)) = fields
  have hstruct : Decoding.decodeStruct [.object fields] = .ok fields := rfl
  have hjsonrpc : Decoding.fieldValues "jsonrpc" fields = [.string "2.0"] := by
    rw [← hfields]
    cases params <;> simp [Decoding.fieldValues, List.filter, Go.foldName, optionalField]
  have hids : Decoding.fieldValues "id" fields = [.number n] := by
    rw [← hfields]
    cases params <;> simp [Decoding.fieldValues, List.filter, Go.foldName, optionalField]
  have hmethods : Decoding.fieldValues "method" fields = [.string method] := by
    rw [← hfields]
    cases params <;> simp [Decoding.fieldValues, List.filter, Go.foldName, optionalField]
  have hparams : Decoding.fieldValues "params" fields = params.toList := by
    rw [← hfields]
    cases params <;> simp [Decoding.fieldValues, List.filter, Go.foldName, optionalField]
  have hstring : ∀ s, Decoding.decodeString [.string s] = .ok s := fun _ => rfl
  have hok : ∀ {α β : Type} (a : α) (f : α → Except String β), (Except.ok a >>= f) = f a :=
    fun _ _ => rfl
  unfold decodeRequest
  simp only [hstruct, hjsonrpc, hids, hmethods, hparams, hok, hstring, List.getLastD_cons,
    List.getLastD_nil, hany]
  cases params <;> rfl

/-! ### Requests of a job -/

variable {w : Wire} {secret : String} {cfg : Config} {order : MapOrder} {started : ℤ} {job : RunJob}
  {x : Surroundings}

omit [Python.Reading String] in
theorem middleware_late (hlate : ¬ x.now < started + 120) :
    ∃ detail, ServiceAuth.middleware secret x.now (.bearer (mintToken secret started job)) =
      .error ⟨401, detail⟩ := by
  unfold ServiceAuth.middleware
  dsimp only
  split
  · exact ⟨_, rfl⟩
  · simp [ServiceAuth.parseToken, mintToken, hlate]

/-- What the client makes of an answer, by what the server does with the method. -/
theorem received_exchange (hsecret : 32 ≤ secret.utf8ByteSize) (hjob : job.WellFormed)
    {method : String} {params : Option (Json String)} {outcome : Except RpcError RpcResult}
    (hdispatch : (dispatch cfg order (some job.claims)
      ⟨"2.0", .number (toString x.id), method, params⟩).eval x.answers = .ok outcome) :
    (exchange w secret cfg order (mintToken secret started job) method params x >>= received) =
      x.reach started >>= fun _ =>
        match outcome with
        | .ok r =>
            if (rpcResponse null (.ok r)).encodes then .ok (r.json w x.now)
            else .error (.transport "JSONDecodeError")
        | .error e => .error (.runtimeError e.message) := by
  unfold exchange Surroundings.reach
  cases x.failure with
  -- the network fails
  | some e => rfl
  | none =>
    -- the token is accepted for two minutes
    by_cases hnow : x.now < started + 120
    · have hclaims := ServiceAuth.middleware_mintToken hsecret hnow hjob.workspaceId hjob.runId
        hjob.incidentId
      have hserve : (serveHTTP cfg order (some job.claims)
          (some (requestPayload x.id method params))).eval x.answers =
          .ok ⟨200, rpcResponse (.number (toString x.id)) outcome⟩ := by
        unfold serveHTTP
        rw [Option.map_some, Option.getD_some, decodeRequest_payload x.idFits]
        exact Prog.eval_bind_ok hdispatch
      dsimp only
      rw [hclaims, if_pos hnow]
      dsimp only
      show ((match (serveHTTP cfg order (some job.claims) _).eval x.answers with
        | .ok response => _
        | .error message => _) >>= received) = _
      rw [hserve]
      exact received_written w x.now x.id outcome
    · obtain ⟨detail, hrefused⟩ : ∃ detail, ServiceAuth.middleware secret x.now
          (.bearer (mintToken secret started job)) = .error ⟨401, detail⟩ := middleware_late hnow
      dsimp only
      rw [hrefused, if_neg hnow]
      rfl

/-! ### The session -/

/-- The client takes what the server answers to `initialize`, whatever it is. -/
theorem request_initialized (hsecret : 32 ≤ secret.utf8ByteSize) (hjob : job.WellFormed) :
    (exchange w secret cfg order (mintToken secret started job) "initialize" none x >>= received) =
      x.reach started >>= fun _ =>
        .ok (RpcResult.json w x.now (.initialized "2024-11-05" "rca-mcp-server" "0.1.3")) := by
  have hdispatch : (dispatch cfg order (some job.claims)
      ⟨"2.0", .number (toString x.id), "initialize", none⟩).eval x.answers =
      .ok (.ok (.initialized "2024-11-05" "rca-mcp-server" "0.1.3")) := rfl
  exact received_exchange hsecret hjob hdispatch

/-- What `validate_required_tools` makes of a list of tools. -/
def checkedTools (required : List String) (result : Json String) : Except GraphError Unit :=
  match Python.get "tools" (.array []) result >>= toolNames with
  | none => .error .shape
  | some names =>
      let missing := (required.filter fun name => !named names name).insertionSort (· ≤ ·)
      if missing ≠ [] then
        .error (.runtimeError ("MCP server is missing required tools: [" ++
          ", ".intercalate (missing.map fun name => "'" ++ name ++ "'") ++ "]"))
      else if named names "extract_evidence" then
        .error (.runtimeError "MCP server still exposes forbidden tool extract_evidence")
      else .ok ()

theorem validateRequiredTools_eq (token : BearerToken) (required : List String) :
    validateRequiredTools token required =
      Prog.perform (GraphCall.post token "tools/list" none) >>= fun response =>
        Prog.ofExcept (received response >>= checkedTools required) := by
  unfold validateRequiredTools listTools
  rw [request_eq, Prog.bind_assoc, Prog.bind_assoc]
  congr 1
  funext response
  -- an error ends the check, whatever was wanted
  cases received response with
  | error e => rfl
  | ok result =>
    show (expect (Python.get "tools" (.array []) result) >>= _) =
      Prog.ofExcept (checkedTools required result)
    unfold checkedTools
    -- an answer without tools, or with tools that have no names
    cases Python.get "tools" (.array []) result with
    | none => rfl
    | some tools =>
      have hbind : (some tools >>= toolNames) = toolNames tools := rfl
      show (expect (toolNames tools) >>= _) = _
      rw [hbind]
      cases toolNames tools with
      | none => rfl
      | some names =>
        show (if _ then _ else if _ then _ else _) = _
        dsimp only
        split
        · rfl
        · split <;> rfl

omit [Python.Reading String] in
theorem toolNames_definitions (names : List String) :
    toolNames (.array (names.map toolDefinition)) = some (names.map .string) := by
  show (names.map toolDefinition).mapM _ = _
  apply mapM_written
  exact fun _ => rfl

omit [Python.Reading String] in
theorem named_map (names : List String) (name : String) :
    named (names.map (.string : String → Json String)) name = decide (name ∈ names) := by
  unfold named
  rw [List.any_map]
  induction names with
  | nil => rfl
  | cons found names ih =>
    rw [List.any_cons, ih]
    simp [eq_comm]

omit [Python.Reading String] in
/-- The server has all tools that are required, and not the forbidden one. -/
theorem checkedTools_all (t : ℤ) :
    checkedTools requiredMcpTools (RpcResult.json w t (.tools (Tool.all.map Tool.name))) =
      .ok () := by
  have hnames : (Python.get "tools" (.array [])
      (RpcResult.json w t (.tools (Tool.all.map Tool.name))) >>= toolNames) =
      some ((Tool.all.map Tool.name).map .string) := toolNames_definitions _
  have hmissing : (requiredMcpTools.filter fun name =>
      !named ((Tool.all.map Tool.name).map (.string : String → Json String)) name) = [] := by
    simp only [named_map]
    decide
  have hforbidden : named ((Tool.all.map Tool.name).map (.string : String → Json String))
      "extract_evidence" = false := by
    rw [named_map]
    decide
  unfold checkedTools
  rw [hnames]
  dsimp only
  rw [hmissing, hforbidden]
  rfl

/-- The tools are found to be those that are required. -/
theorem request_tools (hsecret : 32 ≤ secret.utf8ByteSize) (hjob : job.WellFormed) :
    (exchange w secret cfg order (mintToken secret started job) "tools/list" none x >>=
        fun response => received response >>= checkedTools requiredMcpTools) = x.reach started := by
  have hlist : (exchange w secret cfg order (mintToken secret started job) "tools/list" none x >>=
      received) = x.reach started >>= fun _ =>
        .ok (RpcResult.json w x.now (.tools (Tool.all.map Tool.name))) := by
    have hdispatch : (dispatch cfg order (some job.claims)
        ⟨"2.0", .number (toString x.id), "tools/list", none⟩).eval x.answers =
        .ok (.ok (.tools (Tool.all.map Tool.name))) := rfl
    exact received_exchange hsecret hjob hdispatch
  rw [← bind_assoc, hlist, bind_assoc]
  cases x.reach started with
  | error e => rfl
  | ok _ => exact checkedTools_all (w := w) x.now

/-! ### Calls of tools -/

/-- The end of `call_tool`. -/
def contentOf (result : Json String) : Except GraphError (Json String) :=
  match toolContent result with
  | some content => .ok content
  | none => .error .shape

theorem callTool_eq (token : BearerToken) (name : String) (arguments : Json String) :
    callTool token name arguments =
      Prog.perform (GraphCall.post token "tools/call"
        (some (.object [("name", .string name), ("arguments", arguments)]))) >>= fun response =>
        Prog.ofExcept (received response >>= contentOf) := by
  unfold callTool
  rw [request_eq, Prog.bind_assoc]
  congr 1
  funext response
  cases received response with
  | error e => rfl
  | ok result =>
    show expect (toolContent result) = Prog.ofExcept (contentOf result)
    unfold contentOf
    cases toolContent result <;> rfl

/-- The arguments of a call, by the ids that it names. -/
def toolArguments (runId incidentId : String) : Json String :=
  .object [("runId", .string runId), ("incidentId", .string incidentId)]

omit [Python.Reading String] in
/-- The server reads the parameters of a call. -/
theorem decodeParams_call (name runId incidentId : String) :
    decodeParams (some (.object [("name", .string name),
        ("arguments", toolArguments runId incidentId)])) =
      .ok ⟨name, [("runId", .string runId), ("incidentId", .string incidentId)]⟩ := by
  generalize hfields : [("name", (.string name : Json String)),
    ("arguments", toolArguments runId incidentId)] = fields
  have hstruct : Decoding.decodeStruct [.object fields] = .ok fields := rfl
  have hname : Decoding.fieldValues "name" fields = [.string name] := by
    rw [← hfields]
    simp [Decoding.fieldValues, List.filter, Go.foldName]
  have harguments : Decoding.fieldValues "arguments" fields = [toolArguments runId incidentId] := by
    rw [← hfields]
    simp [Decoding.fieldValues, List.filter, Go.foldName]
  have hstring : Decoding.decodeString [.string name] = .ok name := rfl
  have hmap : Decoding.decodeMap [toolArguments runId incidentId] =
      .ok [("runId", .string runId), ("incidentId", .string incidentId)] := by
    rfl
  have hok : ∀ {α β : Type} (a : α) (f : α → Except String β), (Except.ok a >>= f) = f a :=
    fun _ _ => rfl
  unfold decodeParams
  simp only [hstruct, hname, harguments, hok, hstring, hmap]
  rfl

omit [Python.Reading String] in
/-- What the server does with a call of a tool. -/
theorem dispatch_call (hjob : job.WellFormed) (tool : Tool)
    (answers : (c : EvidenceCall) → Except String c.Result) (id : Json String) :
    (dispatch cfg order (some job.claims) ⟨"2.0", id, "tools/call",
        some (.object [("name", .string tool.name),
          ("arguments", toolArguments job.runId job.incidentId)])⟩).eval answers =
      .ok (match (job.context cfg >>= fun s => tool.evidence cfg order (some job.claims) s).eval
          answers with
        | .ok result => .ok (.call result)
        | .error err => .error ⟨-32000, err⟩) := by
  generalize hparams : [("runId", (.string job.runId : Json String)),
    ("incidentId", .string job.incidentId)] = arguments
  have hrun : stringArgument arguments "runId" = job.runId := by
    rw [← hparams]
    simp [stringArgument, lookup]
  have hincident : stringArgument arguments "incidentId" = job.incidentId := by
    rw [← hparams]
    simp [stringArgument, lookup]
  have hdecode : decodeParams (some (.object [("name", .string tool.name),
      ("arguments", toolArguments job.runId job.incidentId)])) = .ok ⟨tool.name, arguments⟩ := by
    rw [← hparams]
    exact decodeParams_call tool.name job.runId job.incidentId
  -- the arguments are those of the token
  have hscope : CallParams.InScope ⟨tool.name, arguments⟩ job.claims := ⟨hrun, hincident⟩
  have hreq : evidenceRequest arguments = .ok ⟨job.runId, job.incidentId⟩ := by
    unfold evidenceRequest
    rw [hrun, hincident]
    exact if_neg (not_or.mpr ⟨hjob.runId, hjob.incidentId⟩)
  have hfind : Tool.all.find? (fun t => t.name = tool.name) = some tool := by
    cases tool <;> rfl
  have hregistry : Registry.call cfg order (some job.claims) tool.name arguments =
      job.context cfg >>= fun s => tool.evidence cfg order (some job.claims) s := by
    unfold Registry.call
    rw [hfind, hreq]
    rfl
  have hcall : dispatch cfg order (some job.claims) ⟨"2.0", id, "tools/call",
      some (.object [("name", .string tool.name),
        ("arguments", toolArguments job.runId job.incidentId)])⟩ =
      (Registry.call cfg order (some job.claims) tool.name arguments >>= fun result =>
        Prog.ret (.ok (.call result))).tryCatch fun err => Prog.ret (.error ⟨-32000, err⟩) := by
    have htools : ∀ req : RpcRequest, req.method = "tools/call" →
        dispatch cfg order (some job.claims) req = toolsCall cfg order (some job.claims) req := by
      intro req hmethod
      simp [dispatch, hmethod]
    rw [htools _ rfl]
    unfold toolsCall
    rw [hdecode]
    exact if_pos hscope
  -- an error of the tool becomes one of JSON-RPC
  rw [hcall, hregistry]
  cases hresult : (job.context cfg >>= fun s => tool.evidence cfg order (some job.claims) s).eval
      answers with
  | ok result => exact Prog.eval_tryCatch_ok (Prog.eval_bind_ok hresult)
  | error err => exact Prog.eval_tryCatch_error (Prog.eval_bind_error hresult)

/-- **A call of a tool** gives what the tool gives, unless JSON cannot hold it. -/
theorem callTool_answer (hsecret : 32 ≤ secret.utf8ByteSize) (hjob : job.WellFormed) (tool : Tool) :
    (exchange w secret cfg order (mintToken secret started job) "tools/call"
        (some (.object [("name", .string tool.name),
          ("arguments", toolArguments job.runId job.incidentId)])) x >>= fun response =>
        received response >>= contentOf) =
      x.reach started >>= fun _ =>
        match (job.context cfg >>= fun s => tool.evidence cfg order (some job.claims) s).eval
            x.answers with
        | .ok result =>
            if result.encodes then .ok (result.json w x.now)
            else .error (.transport "JSONDecodeError")
        | .error err => .error (.runtimeError err) := by
  have hcall : (exchange w secret cfg order (mintToken secret started job) "tools/call" _ x >>=
      received) = _ :=
    received_exchange hsecret hjob (dispatch_call hjob tool x.answers (.number (toString x.id)))
  rw [← bind_assoc, hcall, bind_assoc]
  -- a server that is not reached answers nothing
  cases x.reach started with
  | error e => rfl
  | ok _ =>
    show (_ : Except GraphError (Json String)) >>= contentOf = _
    cases (job.context cfg >>= fun s => tool.evidence cfg order (some job.claims) s).eval
        x.answers with
    | error err => rfl
    | ok result =>
      have hencodes : (rpcResponse null (.ok (.call result))).encodes = result.encodes := by
        cases result <;> rfl
      -- a value without JSON ends the response in its middle
      show (if (rpcResponse null (.ok (.call result))).encodes then _ else _) >>= contentOf = _
      rw [hencodes]
      show _ = if result.encodes = true then _ else _
      split
      · rfl
      · rfl

end RcaAgent

end NexCause
