/-
NexCause/RcaGraph.lean

One investigation of the RCA agent (`graph/rca_graph.py`): the client of the
evidence server (`mcp_client.py`), the supervisor and the investigators
(`agents/supervisor.py`, `agents/base.py`, `agents/investigators.py`), and what
comes after them without a request (`agents/synthesis.py`).

An investigation is a program over the requests to the evidence server, each
with the token that the client was made with, and the calls of the language
model.  Events for subscribers are left out.
-/
import NexCause.Python
import NexCause.ServiceTokens

namespace NexCause.RcaAgent

open Json Program Prog

/-! ### Models -/

inductive Confidence
  | low | medium | high
  deriving DecidableEq, Repr

inductive ReportStatus
  | rootCauseIdentified | noRootCauseIdentified | inconclusive
  deriving DecidableEq, Repr

inductive Verdict
  | approved | needsFollowup | inconclusive
  deriving DecidableEq, Repr

structure RootCause where
  title : Option String
  category : Option String
  confidence : Confidence
  explanation : String
  deriving DecidableEq, Repr

structure EvidenceReference (ν : Type) where
  source : String
  summary : String
  signals : List (List (String × Json ν))
  stats : List (String × Json ν)
  truncated : Bool

structure AgentFinding (ν : Type) where
  agent : String
  findings : List String
  suspectedCauses : List String
  ruledOut : List String
  recommendedFollowUps : List String
  confidence : Confidence
  evidence : List (EvidenceReference ν)

structure Hypothesis where
  title : String
  category : String
  supportingEvidence : List String
  contradictingEvidence : List String
  confidence : Confidence
  deriving DecidableEq, Repr

structure VerifierResult where
  verdict : Verdict
  unsupportedClaims : List String
  requiredFollowUps : List String
  notes : List String
  deriving DecidableEq, Repr

/-- An entry of `toolCallSummary`. -/
structure ToolCallSummary where
  agent : String
  evidenceSources : List String
  deriving DecidableEq, Repr

structure RCAReport (ν : Type) where
  schemaVersion : String
  runId : String
  incidentId : String
  generatedAt : String
  status : ReportStatus
  summary : String
  rootCause : RootCause
  timeline : List (List (String × Json ν))
  evidenceUsed : List (EvidenceReference ν)
  hypotheses : List Hypothesis
  ruledOutCauses : List String
  recommendations : List String
  limitations : List String
  agentContributions : List (AgentFinding ν)
  toolCallSummary : List ToolCallSummary

/-! ### Calls -/

inductive GraphError
  /-- an error of the network or of the language model, or a timeout -/
  | transport (message : String)
  /-- `HTTPStatusError` -/
  | httpStatus (status : ℕ)
  | runtimeError (message : String)
  /-- an answer of another shape than the code expects -/
  | shape
  deriving DecidableEq, Repr

/-- The answer to a request, with its body if that is JSON. -/
structure HttpResponse (ν : Type) where
  status : ℕ
  body : Option (Json ν)

inductive GraphCall (ν : Type)
  /-- `httpx.AsyncClient.post` to the evidence server -/
  | post (token : BearerToken) (method : String) (params : Option (Json ν))
  /-- `ainvoke` of the language model -/
  | invoke (message : String)

abbrev GraphCall.Result {ν : Type} : GraphCall ν → Type
  | .post _ _ _ => HttpResponse ν
  | .invoke _ => String

abbrev GraphProg (ν α : Type) : Type := Prog (GraphCall ν) GraphCall.Result GraphError α

variable {ν : Type}

/-- Work on an answer, which raises if that has another shape. -/
def expect {α : Type} : Option α → GraphProg ν α
  | some a => ret a
  | none => Prog.throw .shape

/-! ### Kinds of calls -/

/-- A request to the evidence server. -/
def GraphCall.isPost : GraphCall ν → Bool
  | .post _ _ _ => true
  | .invoke _ => false

/-- If the program returns, then its calls are of these kinds. -/
def Emits {α : Type} (p : GraphProg ν α) (W : List Bool → Prop) : Prop :=
  ∀ w, p.Meets (Contract.recording GraphCall.isPost)
    (fun r w' => ∀ a, r = .ok a → ∃ kinds, W kinds ∧ w' = w ++ kinds) w

section Emits

variable {α β : Type} {p : GraphProg ν α} {W : List Bool → Prop} {kinds : List Bool}

theorem emits_ret (a : α) (h : W []) : Emits (ret a : GraphProg ν α) W :=
  fun w _ _ => ⟨[], h, (List.append_nil w).symm⟩

theorem emits_throw (e : GraphError) : Emits (Prog.throw e : GraphProg ν α) W :=
  fun _ _ h => nomatch h

theorem emits_perform (c : GraphCall ν) :
    Emits (perform c : GraphProg ν c.Result) (· = [c.isPost]) := by
  intro w
  apply meets_perform.mpr
  refine ⟨trivial, ?_⟩
  rintro r _ rfl a -
  exact ⟨_, rfl, rfl⟩

theorem Emits.bind {f : α → GraphProg ν β} {W : List Bool → Prop} (hp : Emits p (· = kinds))
    (hf : ∀ a, Emits (f a) fun rest => W (kinds ++ rest)) : Emits (p >>= f) W := by
  intro w
  apply (hp w).bind
  · intro a w' h
    obtain ⟨first, hfirst, rfl⟩ := h a rfl
    rw [hfirst]
    apply (hf a (w ++ kinds)).mono
    intro r w'' hrest b hb
    obtain ⟨rest, hW, rfl⟩ := hrest b hb
    exact ⟨kinds ++ rest, hW, List.append_assoc _ _ _⟩
  · exact fun e w' _ b hb => nomatch hb

theorem emits_expect (a : Option α) (h : W []) : Emits (expect a : GraphProg ν α) W := by
  cases a with
  | none => exact emits_throw _
  | some a => exact emits_ret a h

/-- What comes after an answer has been taken apart. -/
theorem emits_expect_bind (a : Option α) {f : α → GraphProg ν β}
    (h : ∀ b, a = some b → Emits (f b) W) : Emits (expect a >>= f) W := by
  cases a with
  | none => exact emits_throw _
  | some b => exact h b rfl

/-- The kinds of the calls of a run that returns. -/
theorem Emits.run (hp : Emits p W) {χ σ : Type}
    {serve : Service (GraphCall ν) GraphCall.Result GraphError χ σ} {env : ℕ → χ} {s : σ} {a : α}
    (h : (p.run serve env s).outcome = .ok a) :
    W ((p.run serve env s).calls.map GraphCall.isPost) := by
  obtain ⟨kinds, hW, hkinds⟩ := run_recording (hp []) env s a h
  rw [List.nil_append, List.nil_append] at hkinds
  rw [hkinds]
  exact hW

end Emits

variable [Python.Reading ν]

/-! ### The client of the evidence server -/

/-- The end of `_request`: the `result` of a JSON-RPC body. -/
def rpcResult (body : Json ν) : Except GraphError (Json ν) :=
  match body with
  | .object fields =>
      let error := (lookup "error" fields).getD .null
      if Python.truthy error then
        match Python.get "message" (.string "MCP request failed") error with
        | some message => .error (.runtimeError (Python.str message))
        | none => .error .shape
      else .ok ((lookup "result" fields).getD .null)
  | _ => .error .shape

/-- `_request` -/
def request (token : BearerToken) (method : String) (params : Option (Json ν)) :
    GraphProg ν (Json ν) := do
  let response : HttpResponse ν ← perform (GraphCall.post token method params)
  if 200 ≤ response.status ∧ response.status < 300 then
    match response.body with
    | some body => Prog.ofExcept (rpcResult body)
    | none => Prog.throw (.transport "JSONDecodeError")
  else Prog.throw (.httpStatus response.status)

/-- `initialize` -/
def initializeSession (token : BearerToken) : GraphProg ν (Json ν) := request token "initialize" none

/-- `list_tools` -/
def listTools (token : BearerToken) : GraphProg ν (Json ν) := do
  let result ← request token "tools/list" none
  expect (Python.get "tools" (.array []) result)

/-- `names` of `validate_required_tools`. -/
def toolNames (tools : Json ν) : Option (List (Json ν)) := do
  (← Python.iter tools).mapM fun tool => do
    let name ← Python.get "name" .null tool
    if Python.hashable name then some name else none

/-- The name is among the values. -/
def named (names : List (Json ν)) (name : String) : Bool :=
  names.any fun
    | .string s => s = name
    | _ => false

/-- `validate_required_tools` -/
def validateRequiredTools (token : BearerToken) (required : List String) : GraphProg ν Unit := do
  let tools ← listTools token
  let names ← expect (toolNames tools)
  let missing := (required.filter fun name => !named names name).insertionSort (· ≤ ·)
  if missing ≠ [] then
    let texts := missing.map fun name => "'" ++ name ++ "'"
    Prog.throw (.runtimeError
      ("MCP server is missing required tools: [" ++ ", ".intercalate texts ++ "]"))
  else if named names "extract_evidence" then
    Prog.throw (.runtimeError "MCP server still exposes forbidden tool extract_evidence")

/-- The end of `call_tool`: the content of a result. -/
def toolContent (result : Json ν) : Option (Json ν) :=
  match result with
  | .object fields =>
      match lookup "structuredContent" fields with
      | some content => some content
      | none =>
          let content := (lookup "content" fields).getD .null
          if Python.truthy content then
            match content with
            | .array (first :: _) => Python.get "text" .null first
            | _ => none
          else some result
  | _ => none

/-- `call_tool` -/
def callTool (token : BearerToken) (name : String) (arguments : Json ν) : GraphProg ν (Json ν) := do
  let result ← request token "tools/call"
    (some (.object [("name", .string name), ("arguments", arguments)]))
  expect (toolContent result)

/-! ### The language model -/

/-- `fallback_summary` -/
def fallbackSummary (evidence : List (Json ν)) : String :=
  let summaries := evidence.filterMap fun
    | .object fields =>
        let summary := (lookup "summary" fields).getD .null
        if Python.truthy summary then some (Python.str summary) else none
    | _ => none
  let text := " ".intercalate (summaries.take 4)
  if text = "" then "No strong evidence summary was available." else text

/-- `summarize_json`: without a model, by `fallback_summary`. -/
def summarizeJson (hasModel : Bool) (prompt : String) (context : Json ν) (evidence : List (Json ν)) :
    GraphProg ν String :=
  if hasModel then
    let payload : Json ν := .object [("context", context), ("evidence", .array evidence)]
    perform (GraphCall.invoke (prompt ++ "\n\nReturn concise RCA findings grounded only in this JSON:\n" ++
      Python.str payload))
  else return fallbackSummary evidence

/-! ### The supervisor -/

/-- `(incident.get(key) or "").lower()` -/
def loweredField (key : String) (incident : Json ν) : Option (List Char) := do
  let value ← Python.get key .null incident
  if Python.truthy value then Python.lower value else some []

/-- `select_specialists` -/
def selectSpecialists (context : Json ν) : Option (List String) := do
  let incident ← Python.get "incident" (.object []) context
  let ruleKey ← loweredField "ruleKey" incident
  let summary ← loweredField "summary" incident
  let signal := ruleKey ++ ' ' :: summary
  let mentions (terms : List String) : Bool := terms.any fun term => term.toList <:+: signal
  let selected := ["kubernetes_investigator", "changes_config_investigator"]
  let selected :=
    if mentions ["restart", "crash", "warning", "health"] then selected ++ ["logs_investigator"]
    else selected
  let selected :=
    if mentions ["ready", "latency", "error", "traffic", "slow"] then
      selected ++ ["metrics_traces_investigator"]
    else selected
  let selected :=
    if "logs_investigator" ∈ selected then selected else selected ++ ["logs_investigator"]
  let selected :=
    if "metrics_traces_investigator" ∈ selected then selected
    else selected ++ ["metrics_traces_investigator"]
  return selected

/-! ### The investigators -/

structure Investigator where
  name : String
  allowedTools : List String
  prompt : String
  deriving DecidableEq, Repr

def kubernetesInvestigator : Investigator where
  name := "kubernetes_investigator"
  allowedTools := ["get_deployment_status", "get_pods", "get_kubernetes_events", "get_health_samples"]
  prompt := "You are the Kubernetes RCA investigator. Inspect readiness, restarts, " ++
    "warning events, probes, image pulls, scheduling, and rollout health. " ++
    "Use only Kubernetes and health-sample evidence."

def logsInvestigator : Investigator where
  name := "logs_investigator"
  allowedTools := ["get_logs"]
  prompt := "You are the logs RCA investigator. Inspect log patterns for crashes, " ++
    "exceptions, dependency errors, startup failures, and repeated timeouts."

def metricsTracesInvestigator : Investigator where
  name := "metrics_traces_investigator"
  allowedTools := ["get_metrics", "get_traces"]
  prompt := "You are the metrics and traces RCA investigator. Inspect latency, error " ++
    "rates, resource saturation, failed spans, and slow dependencies."

def changesConfigInvestigator : Investigator where
  name := "changes_config_investigator"
  allowedTools := ["get_runtime_configs", "get_recent_changes"]
  prompt := "You are the changes and configuration RCA investigator. Inspect runtime " ++
    "config metadata, deployment changes, image/build changes, and config drift."

/-- `build_investigators` -/
def buildInvestigators (names : List String) : List Investigator :=
  names.filterMap fun name =>
    [kubernetesInvestigator, logsInvestigator, metricsTracesInvestigator,
      changesConfigInvestigator].find? fun investigator => investigator.name = name

/-- `evidence_reference` -/
def evidenceReference (item : Json ν) : Option (EvidenceReference ν) := do
  let source ← Python.get "source" (.string "unknown") item
  let summary ← Python.get "summary" (.string "") item
  let signals ← (← Python.iter (← Python.get "signals" (.array []) item)).mapM fun
    | .object fields => some fields
    | _ => none
  let stats ← Python.get "stats" (.object []) item
  let stats ← if Python.truthy stats then Python.dict stats else some []
  let truncated ← Python.get "truncated" (.bool false) item
  return ⟨Python.str source, Python.str summary, signals, stats, Python.truthy truncated⟩

/-- `finding_from_evidence` -/
def findingFromEvidence (agent summary : String) (evidence : List (Json ν)) :
    Option (AgentFinding ν) := do
  let references ← evidence.mapM evidenceReference
  let signals ← evidence.mapM fun item => do
    Python.iter (← Python.get "signals" (.array []) item)
  let causes ← (signals.flatten.take 5).mapM fun signal => do
    match ← Python.get "name" (.string "unknown") signal with
    | .string name => some name
    | _ => none
  return {
    agent
    findings := [summary]
    suspectedCauses := causes
    ruledOut := []
    recommendedFollowUps := []
    confidence := if signals.flatten.isEmpty then .low else .medium
    evidence := references }

/-- The loop of `BaseInvestigator.run` over its tools. -/
def gatherEvidence (token : BearerToken) (context : Json ν) :
    List String → GraphProg ν (List (Json ν))
  | [] => return []
  | tool :: tools => do
      let run ← expect (Python.item "run" context)
      let runId ← expect (Python.item "id" run)
      let incident ← expect (Python.item "incident" context)
      let incidentId ← expect (Python.item "id" incident)
      let answer ← callTool token tool (.object [("runId", runId), ("incidentId", incidentId)])
      let answers ← gatherEvidence token context tools
      return answer :: answers

/-- `BaseInvestigator.run` -/
def Investigator.run (investigator : Investigator) (token : BearerToken) (hasModel : Bool)
    (context : Json ν) (task : String) : GraphProg ν (AgentFinding ν) := do
  let evidence ← gatherEvidence token context investigator.allowedTools
  let summary ← summarizeJson hasModel (investigator.prompt ++ "\nTask: " ++ task) context evidence
  expect (findingFromEvidence investigator.name summary evidence)

/-- `task_for` -/
def taskFor (context : Json ν) : Option String := do
  let incident ← Python.get "incident" (.object []) context
  let id ← Python.get "id" .null incident
  let ruleKey ← Python.get "ruleKey" .null incident
  let summary ← Python.get "summary" .null incident
  return "Investigate incident " ++ Python.str id ++ " with ruleKey " ++ Python.str ruleKey ++
    " and summary " ++ Python.str summary ++ "."

/-! ### Synthesis -/

/-- `HypothesisBuilder.run` -/
def buildHypotheses (findings : List (AgentFinding ν)) : List Hypothesis :=
  let causes := findings.flatMap AgentFinding.suspectedCauses
  let evidence := findings.flatMap AgentFinding.findings
  match causes with
  | [] =>
      [{ title := "No dominant root cause identified"
         category := "unknown"
         supportingEvidence := evidence.take 5
         contradictingEvidence := []
         confidence := .low }]
  | cause :: _ =>
      [{ title := "Possible " ++ cause.map fun c => if c = '_' then ' ' else c
         category := cause
         supportingEvidence := evidence.take 5
         contradictingEvidence := []
         confidence := .medium }]

/-- `Verifier.run` -/
def verify (hypotheses : List Hypothesis) : VerifierResult :=
  match hypotheses with
  | [] => ⟨.inconclusive, [], [], ["No hypothesis had supporting evidence."]⟩
  | strongest :: _ =>
      if strongest.supportingEvidence = [] then
        ⟨.inconclusive, [], [], ["No hypothesis had supporting evidence."]⟩
      else if strongest.confidence = .low then
        ⟨.needsFollowup, [], ["Collect one more focused evidence source."], []⟩
      else ⟨.approved, [], [], []⟩

/-- `build_recommendations` -/
def buildRecommendations (findings : List (AgentFinding ν)) (status : ReportStatus) : List String :=
  let recommendations := findings.flatMap AgentFinding.recommendedFollowUps
  if recommendations ≠ [] then recommendations
  else if status = .inconclusive then
    ["Review additional telemetry and rerun RCA with a wider evidence window."]
  else ["Validate the suspected root cause in staging before applying remediation."]

/-- The hypothesis that `ReportWriter.run` reports as the root cause. -/
def approvedHypothesis (hypotheses : List Hypothesis) (verifier : VerifierResult) :
    Option Hypothesis :=
  if verifier.verdict = .approved then hypotheses.head? else none

/-- `ReportWriter.run` -/
def writeReport (runId incidentId generatedAt : String) (findings : List (AgentFinding ν))
    (hypotheses : List Hypothesis) (verifier : VerifierResult) : RCAReport ν :=
  let best := approvedHypothesis hypotheses verifier
  let status := if best.isSome then ReportStatus.rootCauseIdentified else .inconclusive
  let rootCause : RootCause :=
    match best with
    | some best =>
        ⟨some best.title, some best.category, best.confidence,
          "; ".intercalate (best.supportingEvidence.take 3)⟩
    | none => ⟨none, none, .low, ""⟩
  { schemaVersion := "1.0"
    runId
    incidentId
    generatedAt
    status
    summary :=
      match best with
      | some best => best.title ++ ": " ++ rootCause.explanation
      | none => "RCA was inconclusive."
    rootCause
    timeline := []
    evidenceUsed := findings.flatMap AgentFinding.evidence
    hypotheses
    ruledOutCauses := findings.flatMap AgentFinding.ruledOut
    recommendations := buildRecommendations findings status
    limitations := verifier.notes ++ verifier.unsupportedClaims
    agentContributions := findings
    toolCallSummary := findings.map fun finding =>
      ⟨finding.agent, finding.evidence.map EvidenceReference.source⟩ }

/-! ### The graph -/

/-- `REQUIRED_MCP_TOOLS` -/
def requiredMcpTools : List String :=
  ["get_rca_context", "get_deployment_status", "get_pods", "get_kubernetes_events", "get_logs",
    "get_metrics", "get_traces", "get_health_samples", "get_runtime_configs", "get_recent_changes"]

/-- `load_context` -/
def loadContext (token : BearerToken) (job : RunJob) : GraphProg ν (Json ν) :=
  callTool token "get_rca_context"
    (.object [("runId", .string job.runId), ("incidentId", .string job.incidentId)])

/-- The loop of `run_specialists`. -/
def runSpecialists (token : BearerToken) (hasModel : Bool) (context : Json ν) :
    List Investigator → GraphProg ν (List (AgentFinding ν))
  | [] => return []
  | investigator :: investigators => do
      let task ← expect (taskFor context)
      let finding ← investigator.run token hasModel context task
      let findings ← runSpecialists token hasModel context investigators
      return finding :: findings

/-- `RCAGraphRunner.run`, at the time `now` in seconds.  `hasModel` says that
there is an API key and that the client of the model could be made. -/
def runGraph (secret : String) (hasModel : Bool) (now : ℤ) (generatedAt : String) (job : RunJob) :
    GraphProg ν (RCAReport ν) := do
  let token := mintToken secret now job
  let _ ← initializeSession token
  validateRequiredTools token requiredMcpTools
  let context ← loadContext token job
  let selected ← expect (selectSpecialists context)
  let findings ← runSpecialists token hasModel context (buildInvestigators selected)
  let hypotheses := buildHypotheses findings
  let verifier := verify hypotheses
  return writeReport job.runId job.incidentId generatedAt findings hypotheses verifier

/-! ### Which token is sent -/

/-- A request carries this token. -/
def GraphCall.Carries (token : BearerToken) : GraphCall ν → Prop
  | .post sent _ _ => sent = token
  | .invoke _ => True

section Carries

variable {token : BearerToken}

omit [Python.Reading ν] in
theorem expect_carries {α : Type} (a : Option α) :
    (expect a : GraphProg ν α).Calls (GraphCall.Carries token) := by
  cases a <;> trivial

theorem request_carries (method : String) (params : Option (Json ν)) :
    (request token method params).Calls (GraphCall.Carries token) := by
  apply Calls.bind
  · exact calls_perform.mpr rfl
  · intro response
    split
    · split
      · exact calls_ofExcept
      · trivial
    · trivial

theorem callTool_carries (name : String) (arguments : Json ν) :
    (callTool token name arguments).Calls (GraphCall.Carries token) :=
  (request_carries _ _).bind fun _ => expect_carries _

theorem validateRequiredTools_carries (required : List String) :
    (validateRequiredTools token required : GraphProg ν Unit).Calls (GraphCall.Carries token) := by
  apply Calls.bind
  · exact (request_carries _ _).bind fun _ => expect_carries _
  · intro tools
    apply (expect_carries _).bind
    intro names
    dsimp only
    split
    · trivial
    · split <;> trivial

theorem summarizeJson_carries (hasModel : Bool) (prompt : String) (context : Json ν)
    (evidence : List (Json ν)) :
    (summarizeJson hasModel prompt context evidence).Calls (GraphCall.Carries token) := by
  cases hasModel with
  | false => trivial
  | true => exact calls_perform.mpr trivial

theorem gatherEvidence_carries (context : Json ν) (tools : List String) :
    (gatherEvidence token context tools).Calls (GraphCall.Carries token) := by
  induction tools with
  | nil => trivial
  | cons tool tools ih =>
    apply (expect_carries _).bind
    intro run
    apply (expect_carries _).bind
    intro runId
    apply (expect_carries _).bind
    intro incident
    apply (expect_carries _).bind
    intro incidentId
    apply (callTool_carries _ _).bind
    intro answer
    exact ih.bind fun _ => trivial

theorem runSpecialists_carries (hasModel : Bool) (context : Json ν)
    (investigators : List Investigator) :
    (runSpecialists token hasModel context investigators).Calls (GraphCall.Carries token) := by
  induction investigators with
  | nil => trivial
  | cons investigator investigators ih =>
    apply (expect_carries _).bind
    intro task
    apply Calls.bind
    · apply (gatherEvidence_carries _ _).bind
      intro evidence
      exact (summarizeJson_carries _ _ _ _).bind fun _ => expect_carries _
    · intro finding
      exact ih.bind fun _ => trivial

/-- Every request of a run carries the token that was signed at its start. -/
theorem runGraph_carries (secret : String) (hasModel : Bool) (now : ℤ) (generatedAt : String)
    (job : RunJob) :
    (runGraph secret hasModel now generatedAt job : GraphProg ν (RCAReport ν)).Calls
      (GraphCall.Carries (mintToken secret now job)) := by
  apply (request_carries _ _).bind
  intro _
  apply (validateRequiredTools_carries _).bind
  intro _
  apply (callTool_carries _ _).bind
  intro context
  apply (expect_carries _).bind
  intro selected
  exact (runSpecialists_carries _ _ _).bind fun _ => trivial

end Carries

/-! ### The steps of a run -/

section Emits

theorem request_emits (token : BearerToken) (method : String) (params : Option (Json ν)) :
    Emits (request token method params) (· = [true]) := by
  apply (emits_perform _).bind
  intro response
  split
  · split
    · rename_i body _
      cases rpcResult body with
      | ok result => exact emits_ret _ rfl
      | error e => exact emits_throw _
    · exact emits_throw _
  · exact emits_throw _

theorem callTool_emits (token : BearerToken) (name : String) (arguments : Json ν) :
    Emits (callTool token name arguments) (· = [true]) := by
  apply (request_emits token _ _).bind
  intro result
  exact emits_expect _ rfl

theorem validateRequiredTools_emits (token : BearerToken) (required : List String) :
    Emits (validateRequiredTools token required : GraphProg ν Unit) (· = [true]) := by
  have htools : Emits (listTools token : GraphProg ν (Json ν)) (· = [true]) := by
    apply (request_emits token _ _).bind
    intro result
    exact emits_expect _ rfl
  apply htools.bind
  intro tools
  apply emits_expect_bind
  intro names _
  dsimp only
  split
  · exact emits_throw _
  · split
    · exact emits_throw _
    · exact emits_ret _ rfl

theorem summarizeJson_emits (hasModel : Bool) (prompt : String) (context : Json ν)
    (evidence : List (Json ν)) :
    Emits (summarizeJson hasModel prompt context evidence)
      (· = if hasModel then [false] else []) := by
  cases hasModel with
  | false => exact emits_ret _ rfl
  | true => exact emits_perform _

theorem gatherEvidence_emits (token : BearerToken) (context : Json ν) (tools : List String) :
    Emits (gatherEvidence token context tools) (· = tools.map fun _ => true) := by
  induction tools with
  | nil => exact emits_ret _ rfl
  | cons tool tools ih =>
    apply emits_expect_bind
    intro run _
    apply emits_expect_bind
    intro runId _
    apply emits_expect_bind
    intro incident _
    apply emits_expect_bind
    intro incidentId _
    apply (callTool_emits token _ _).bind
    intro answer
    apply ih.bind
    exact fun answers => emits_ret _ (by simp)

/-- The steps of an investigator: its tools, and then the model. -/
def Investigator.steps (hasModel : Bool) (investigator : Investigator) : List Bool :=
  (investigator.allowedTools.map fun _ => true) ++ if hasModel then [false] else []

theorem Investigator.run_emits (investigator : Investigator) (token : BearerToken) (hasModel : Bool)
    (context : Json ν) (task : String) :
    Emits (investigator.run token hasModel context task) (· = investigator.steps hasModel) := by
  apply (gatherEvidence_emits token context _).bind
  intro evidence
  apply (summarizeJson_emits hasModel _ context evidence).bind
  intro summary
  exact emits_expect _ (by simp [steps])

theorem runSpecialists_emits (token : BearerToken) (hasModel : Bool) (context : Json ν)
    (investigators : List Investigator) :
    Emits (runSpecialists token hasModel context investigators)
      (· = investigators.flatMap (Investigator.steps hasModel)) := by
  induction investigators with
  | nil => exact emits_ret _ rfl
  | cons investigator investigators ih =>
    apply emits_expect_bind
    intro task _
    apply (investigator.run_emits token hasModel context task).bind
    intro finding
    apply ih.bind
    exact fun findings => emits_ret _ (by simp)

/-- The supervisor always selects all four investigators; the incident decides
only which of the last two comes first. -/
theorem selectSpecialists_some {context : Json ν} {selected : List String}
    (h : selectSpecialists context = some selected) :
    selected = ["kubernetes_investigator", "changes_config_investigator", "logs_investigator",
        "metrics_traces_investigator"] ∨
      selected = ["kubernetes_investigator", "changes_config_investigator",
        "metrics_traces_investigator", "logs_investigator"] := by
  unfold selectSpecialists at h
  obtain ⟨incident, -, h⟩ := Option.bind_eq_some_iff.mp h
  obtain ⟨ruleKey, -, h⟩ := Option.bind_eq_some_iff.mp h
  obtain ⟨summary, -, h⟩ := Option.bind_eq_some_iff.mp h
  obtain rfl := Option.some.inj h
  dsimp only
  -- in each of the four cases the names are evaluated
  by_cases hunhealthy : (["restart", "crash", "warning", "health"].any fun term =>
      term.toList <:+: ruleKey ++ ' ' :: summary) = true
  · simp only [if_pos hunhealthy]
    by_cases hslow : (["ready", "latency", "error", "traffic", "slow"].any fun term =>
        term.toList <:+: ruleKey ++ ' ' :: summary) = true
    · simp only [if_pos hslow]
      decide
    · simp only [if_neg hslow]
      decide
  · simp only [if_neg hunhealthy]
    by_cases hslow : (["ready", "latency", "error", "traffic", "slow"].any fun term =>
        term.toList <:+: ruleKey ++ ' ' :: summary) = true
    · simp only [if_pos hslow]
      decide
    · simp only [if_neg hslow]
      decide

/-- The steps of a run that returns a report: three requests, and then the four
investigators. -/
theorem runGraph_emits (secret : String) (hasModel : Bool) (now : ℤ) (generatedAt : String)
    (job : RunJob) :
    Emits (runGraph secret hasModel now generatedAt job : GraphProg ν (RCAReport ν)) fun kinds =>
      kinds = [true, true, true] ++ [kubernetesInvestigator, changesConfigInvestigator,
        logsInvestigator, metricsTracesInvestigator].flatMap (Investigator.steps hasModel) ∨
      kinds = [true, true, true] ++ [kubernetesInvestigator, changesConfigInvestigator,
        metricsTracesInvestigator, logsInvestigator].flatMap (Investigator.steps hasModel) := by
  unfold runGraph
  dsimp only
  apply (request_emits _ _ _).bind
  intro _
  apply (validateRequiredTools_emits _ _).bind
  intro _
  apply (callTool_emits _ _ _).bind
  intro context
  apply emits_expect_bind
  intro selected hselected
  apply (runSpecialists_emits _ hasModel context _).bind
  intro findings
  apply emits_ret
  rw [List.append_nil]
  rcases selectSpecialists_some hselected with rfl | rfl
  · exact Or.inl rfl
  · exact Or.inr rfl

end Emits

end NexCause.RcaAgent
