/-
NexCause/Investigations.lean

An investigation as it is meant: a study that asks the evidence services for the
context of a run and for evidence about it, without tokens, JSON or a protocol in
between.

Main result: the investigation of the agent over HTTP does what the study says
(`investigation_is_study`): it makes the corresponding calls one by one and ends
alike, whatever surrounds its steps, and a report that it returns rests on the
bundles of all nine evidence services, each asked once, and on nothing else.
-/
import NexCause.EvidenceWire
import NexCause.RcaReports
import NexCause.Simulation

namespace NexCause

open Json Program

/-! ### Inquiries -/

/-- What an investigator can ask for. -/
inductive Inquiry
  | deploymentStatus | pods | kubernetesEvents | logs | metrics | traces | healthSamples
  | runtimeConfigs | recentChanges
  deriving DecidableEq, Repr

/-- All of them. -/
def Inquiry.all : List Inquiry :=
  [.deploymentStatus, .pods, .kubernetesEvents, .logs, .metrics, .traces, .healthSamples,
    .runtimeConfigs, .recentChanges]

/-- The tool that answers it. -/
def Inquiry.tool : Inquiry → Tool
  | .deploymentStatus => .deploymentStatus
  | .pods => .pods
  | .kubernetesEvents => .kubernetesEvents
  | .logs => .logs
  | .metrics => .metrics
  | .traces => .traces
  | .healthSamples => .healthSamples
  | .runtimeConfigs => .runtimeConfigs
  | .recentChanges => .recentChanges

/-- The service that answers it. -/
def Inquiry.collect (cfg : Config) (order : MapOrder) (ctx : Option Claims) (s : ScopedContext) :
    Inquiry → EvidenceProg Bundle
  | .deploymentStatus => Services.getDeploymentStatus cfg s
  | .pods => Services.getPods cfg s
  | .kubernetesEvents => Services.getEvents cfg s
  | .logs => Services.getLogs cfg order s
  | .metrics => Services.getMetrics cfg order s
  | .traces => Services.getTraces cfg s
  | .healthSamples => Services.getHealthSamples ctx s
  | .runtimeConfigs => Services.getRuntimeConfigs ctx s
  | .recentChanges => Services.getRecentChanges ctx s

/-- The tool of an inquiry answers with what the inquiry collects. -/
theorem evidence_inquiry (cfg : Config) (order : MapOrder) (ctx : Option Claims) (s : ScopedContext)
    (inquiry : Inquiry) :
    inquiry.tool.evidence cfg order ctx s =
      inquiry.collect cfg order ctx s >>= fun bundle => Prog.ret (.bundle bundle) := by
  cases inquiry <;> rfl

/-- A bundle, and when it was collected. -/
structure Evidence where
  bundle : Bundle
  collectedAt : ℤ

/-- The evidence as the server writes it. -/
def Evidence.json (w : Wire) (e : Evidence) : Json String := e.bundle.json w e.collectedAt

namespace RcaAgent

/-! ### The study -/

/-- What a study asks, and of whom. -/
inductive StudyCall
  /-- of the evidence server: whether it is there, and has what is needed -/
  | connect
  | checkTools
  | context
  | evidence (inquiry : Inquiry)
  /-- of the language model -/
  | model (prompt : String) (context : RCAContext) (evidence : List Evidence)

abbrev StudyCall.Result : StudyCall → Type
  | .connect => Unit
  | .checkTools => Unit
  | .context => RCAContext
  | .evidence _ => Evidence
  | .model _ _ _ => String

/-- A study, whose calls may fail as those of the graph do. -/
abbrev StudyProg (α : Type) : Type := Prog StudyCall StudyCall.Result GraphError α

/-- An investigator, by what it asks for. -/
structure Specialist where
  name : String
  inquiries : List Inquiry
  prompt : String

/-- As the agent has it. -/
def Specialist.investigator (s : Specialist) : Investigator :=
  ⟨s.name, s.inquiries.map fun inquiry => inquiry.tool.name, s.prompt⟩

def kubernetesSpecialist : Specialist :=
  ⟨kubernetesInvestigator.name, [.deploymentStatus, .pods, .kubernetesEvents, .healthSamples],
    kubernetesInvestigator.prompt⟩

def logsSpecialist : Specialist := ⟨logsInvestigator.name, [.logs], logsInvestigator.prompt⟩

def metricsTracesSpecialist : Specialist :=
  ⟨metricsTracesInvestigator.name, [.metrics, .traces], metricsTracesInvestigator.prompt⟩

def changesConfigSpecialist : Specialist :=
  ⟨changesConfigInvestigator.name, [.runtimeConfigs, .recentChanges],
    changesConfigInvestigator.prompt⟩

/-- What the incident is about, in lower case. -/
def signalText (context : RCAContext) : List Char :=
  toLowerCase (context.ruleKey.getD "").toList ++
    ' ' :: toLowerCase (context.incidentSummary.getD "").toList

/-- All four specialists.  The one for metrics and traces goes before the one for logs when the
incident is about slowness or errors, and not about health. -/
def specialistsFor (context : RCAContext) : List Specialist :=
  let mentions (terms : List String) : Prop := ∃ term ∈ terms, term.toList <:+: signalText context
  if mentions ["ready", "latency", "error", "traffic", "slow"] ∧
      ¬ mentions ["restart", "crash", "warning", "health"] then
    [kubernetesSpecialist, changesConfigSpecialist, metricsTracesSpecialist, logsSpecialist]
  else [kubernetesSpecialist, changesConfigSpecialist, logsSpecialist, metricsTracesSpecialist]

section Study

variable [Python.Reading String] (w : Wire)

/-- The task of a specialist. -/
def taskOf (context : RCAContext) : String :=
  let text (t : Option String) : String := Python.str ((t.map .string).getD (.null : Json String))
  "Investigate incident " ++ context.incidentId ++ " with ruleKey " ++ text context.ruleKey ++
    " and summary " ++ text context.incidentSummary ++ "."

/-- The first four summaries, where there is no model. -/
def summaryOf (evidence : List Evidence) : String :=
  let summaries := (evidence.map fun e => e.bundle.summary).filter (· ≠ "")
  let text := " ".intercalate (summaries.take 4)
  if text = "" then "No strong evidence summary was available." else text

/-- What a report says of a bundle. -/
def referenceOf (e : Evidence) : EvidenceReference String where
  source := e.bundle.source.name
  summary := e.bundle.summary
  signals := e.bundle.signals.map (Signal.fields w)
  stats := e.bundle.statFields w
  truncated := e.bundle.truncated

/-- What a specialist finds in its evidence: it suspects the first five signals. -/
def findingOf (agent summary : String) (evidence : List Evidence) : AgentFinding String :=
  let signals := evidence.flatMap fun e => e.bundle.signals
  { agent
    findings := [summary]
    suspectedCauses := (signals.take 5).map Signal.name
    ruledOut := []
    recommendedFollowUps := []
    confidence := if signals = [] then .low else .medium
    evidence := evidence.map (referenceOf w) }

/-- The evidence of the inquiries, one after the other; the first failure ends it. -/
def gather : List Inquiry → StudyProg (List Evidence)
  | [] => return []
  | inquiry :: inquiries => do
      let e : Evidence ← Prog.perform (StudyCall.evidence inquiry)
      let rest ← gather inquiries
      return e :: rest

/-- The summary of the evidence: by the model, if there is one. -/
def summarize (hasModel : Bool) (prompt : String) (context : RCAContext)
    (evidence : List Evidence) : StudyProg String :=
  if hasModel then Prog.perform (StudyCall.model prompt context evidence)
  else Prog.ret (summaryOf evidence)

/-- What a specialist does. -/
def Specialist.study (hasModel : Bool) (context : RCAContext) (s : Specialist) :
    StudyProg (AgentFinding String) := do
  let evidence ← gather s.inquiries
  let summary ← summarize hasModel (s.prompt ++ "\nTask: " ++ taskOf context) context evidence
  return findingOf w s.name summary evidence

/-- The findings of the specialists, one after the other. -/
def studyAll (hasModel : Bool) (context : RCAContext) :
    List Specialist → StudyProg (List (AgentFinding String))
  | [] => return []
  | s :: specialists => do
      let finding ← s.study w hasModel context
      let findings ← studyAll hasModel context specialists
      return finding :: findings

/-- An investigation. -/
def study (hasModel : Bool) (generatedAt : String) (job : RunJob) :
    StudyProg (RCAReport String) := do
  Prog.perform StudyCall.connect
  Prog.perform StudyCall.checkTools
  let context : RCAContext ← Prog.perform StudyCall.context
  let findings ← studyAll w hasModel context (specialistsFor context)
  return synthesize job.runId job.incidentId generatedAt findings

end Study

/-- The evidence services and the language model, asked directly; what has been
collected is written down.  A request may be lost, and is refused two minutes
after the start. -/
def directly (cfg : Config) (order : MapOrder) (job : RunJob) (started : ℤ) :
    Service StudyCall StudyCall.Result GraphError Surroundings (List (Inquiry × Evidence))
  | .connect, x, s => (x.reach started, s)
  | .checkTools, x, s => (x.reach started, s)
  | .context, x, s =>
      (do
        x.reach started
        let found ← ((job.context cfg).eval x.answers).mapError GraphError.runtimeError
        return found.context, s)
  | .evidence inquiry, x, s =>
      let answer : Except GraphError Evidence := do
        x.reach started
        let bundle ← ((job.context cfg >>= inquiry.collect cfg order (some job.claims)).eval
          x.answers).mapError GraphError.runtimeError
        if bundle.encodes then return ⟨bundle, x.now⟩
        else .error (.transport "JSONDecodeError")
      (answer, match answer with
        | .ok e => s ++ [(inquiry, e)]
        | .error _ => s)
  | .model _ _ _, x, s => (x.text, s)

/-! ### What the agent reads -/

section Reading

variable [Python.Reading String] {w : Wire}

omit [Python.Reading String] in
theorem lookup_ruleKey (c : RCAContext) :
    lookup "ruleKey" (c.incidentFields w) = c.ruleKey.map .string := by
  cases hrule : c.ruleKey <;> cases hsummary : c.incidentSummary <;>
    cases hsample : c.latestHealthSampleId <;>
    simp [RCAContext.incidentFields, optionalField, lookup, hrule, hsummary, hsample]

omit [Python.Reading String] in
theorem lookup_summary (c : RCAContext) :
    lookup "summary" (c.incidentFields w) = c.incidentSummary.map .string := by
  cases hrule : c.ruleKey <;> cases hsummary : c.incidentSummary <;>
    cases hsample : c.latestHealthSampleId <;>
    simp [RCAContext.incidentFields, optionalField, lookup, hrule, hsummary, hsample]

omit [Python.Reading String] in
theorem lookup_incidentId (c : RCAContext) :
    lookup "id" (c.incidentFields w) = some (.string c.incidentId) := by
  cases hrule : c.ruleKey <;> cases hsummary : c.incidentSummary <;>
    cases hsample : c.latestHealthSampleId <;>
    simp [RCAContext.incidentFields, optionalField, lookup, hrule, hsummary, hsample]

omit [Python.Reading String] in
/-- The agent finds the incident in the context it is sent. -/
theorem get_incident (c : RCAContext) :
    Python.get "incident" (.object []) (c.json w) = some (.object (c.incidentFields w)) := by
  simp [Python.get, RCAContext.json, lookup]

/-- The task read off the context as JSON is that of the context. -/
theorem taskFor_json (c : RCAContext) : taskFor (c.json w) = some (taskOf c) := by
  have hget : ∀ key, Python.get key .null (.object (c.incidentFields w)) =
      some ((lookup key (c.incidentFields w)).getD .null) := fun _ => rfl
  have hstr : Python.str ((some (.string c.incidentId)).getD (.null : Json String)) =
      c.incidentId := rfl
  unfold taskFor taskOf
  rw [get_incident]
  simp only [hget, lookup_ruleKey, lookup_summary, lookup_incidentId, Option.bind_eq_bind,
    Option.bind_some, hstr]
  rfl

/-- A text of the incident, in lower case. -/
theorem loweredField_json {key : String} {fields : List (String × Json String)}
    {text : Option String} (h : lookup key fields = text.map .string) :
    loweredField key (.object fields) = some (toLowerCase (text.getD "").toList) := by
  unfold loweredField
  cases text with
  | none => simp [Python.get, h, Python.truthy, toLowerCase]
  | some s =>
    by_cases hs : s = ""
    · simp [Python.get, h, Python.truthy, hs, toLowerCase]
    · simp [Python.get, h, Python.truthy, hs, Python.lower]

omit [Python.Reading String] in
/-- For a slow deployment the metrics are looked at before the logs, -/
theorem buildInvestigators_slow :
    buildInvestigators ["kubernetes_investigator", "changes_config_investigator",
        "metrics_traces_investigator", "logs_investigator"] =
      [kubernetesSpecialist, changesConfigSpecialist, metricsTracesSpecialist,
        logsSpecialist].map Specialist.investigator := by
  rfl

omit [Python.Reading String] in
/-- and after them for any other. -/
theorem buildInvestigators_other :
    buildInvestigators ["kubernetes_investigator", "changes_config_investigator",
        "logs_investigator", "metrics_traces_investigator"] =
      [kubernetesSpecialist, changesConfigSpecialist, logsSpecialist,
        metricsTracesSpecialist].map Specialist.investigator := by
  rfl

/-- The supervisor selects the specialists. -/
theorem selectSpecialists_json (c : RCAContext) :
    ∃ names, selectSpecialists (c.json w) = some names ∧
      buildInvestigators names = (specialistsFor c).map Specialist.investigator := by
  have hrule := loweredField_json (lookup_ruleKey (w := w) c)
  have hsummary := loweredField_json (lookup_summary (w := w) c)
  have hmentions : ∀ terms : List String, (terms.any fun term => decide (term.toList <:+:
      toLowerCase (c.ruleKey.getD "").toList ++
        ' ' :: toLowerCase (c.incidentSummary.getD "").toList)) = true ↔
      ∃ term ∈ terms, term.toList <:+: signalText c := by
    intro terms
    simp [signalText]
  unfold selectSpecialists specialistsFor
  rw [get_incident]
  simp only [Option.bind_eq_bind, Option.bind_some, hrule, hsummary]
  -- an unhealthy deployment has its order, slow or not
  by_cases hunhealthy : ∃ term ∈ ["restart", "crash", "warning", "health"],
      term.toList <:+: signalText c
  · simp only [if_pos ((hmentions _).mpr hunhealthy), if_neg fun h : _ ∧ ¬ _ => h.2 hunhealthy]
    refine ⟨_, ?_, buildInvestigators_other⟩
    by_cases hslow : ∃ term ∈ ["ready", "latency", "error", "traffic", "slow"],
        term.toList <:+: signalText c
    · simp only [if_pos ((hmentions _).mpr hslow)]
      decide
    · simp only [if_neg fun h => hslow ((hmentions _).mp h)]
      decide
  · simp only [if_neg fun h => hunhealthy ((hmentions _).mp h)]
    by_cases hslow : ∃ term ∈ ["ready", "latency", "error", "traffic", "slow"],
        term.toList <:+: signalText c
    · simp only [if_pos ((hmentions _).mpr hslow), if_pos (And.intro hslow hunhealthy)]
      -- the one case in which the metrics come first
      exact ⟨_, by decide, buildInvestigators_slow⟩
    · simp only [if_neg fun h => hslow ((hmentions _).mp h), if_neg fun h : _ ∧ ¬ _ => hslow h.1]
      exact ⟨_, by decide, buildInvestigators_other⟩

omit [Python.Reading String] in
/-- What the agent looks up in a bundle. -/
theorem get_bundle (e : Evidence) :
    Python.get "source" (.string "unknown") (e.json w) = some (.string e.bundle.source.name) ∧
      Python.get "summary" (.string "") (e.json w) = some (.string e.bundle.summary) ∧
      Python.get "signals" (.array []) (e.json w) =
        some (.array (e.bundle.signals.map (Signal.json w))) ∧
      Python.get "stats" (.object []) (e.json w) = some (.object (e.bundle.statFields w)) ∧
      Python.get "truncated" (.bool false) (e.json w) = some (.bool e.bundle.truncated) := by
  unfold Evidence.json Bundle.json
  by_cases hstats : e.bundle.stats = []
  · have hfields : e.bundle.statFields w = [] := by
      simp [Bundle.statFields, sortedFields, hstats]
    simp [Python.get, lookup, optionalField, hstats, hfields]
  · simp [Python.get, lookup, optionalField, hstats]

/-- A reference to a bundle. -/
theorem evidenceReference_json (e : Evidence) :
    evidenceReference (e.json w) = some (referenceOf w e) := by
  obtain ⟨hsource, hsummary, hsignals, hstats, htruncated⟩ := get_bundle (w := w) e
  unfold evidenceReference
  simp only [hsource, hsummary, hsignals, hstats, htruncated, Option.bind_eq_bind, Option.bind_some,
    Python.iter]
  rw [mapM_written (j := Signal.json w) (v := Signal.fields w)]
  · unfold referenceOf
    cases e.bundle.statFields w <;> rfl
  · exact fun _ => rfl

omit [Python.Reading String] in
/-- The summaries read off the JSON are those of the evidence that are not empty. -/
theorem filterMap_summaries {f : Json String → Option String}
    (h : ∀ e : Evidence, f (e.json w) =
      if e.bundle.summary = "" then none else some e.bundle.summary) (evidence : List Evidence) :
    (evidence.map (Evidence.json w)).filterMap f =
      (evidence.map fun e => e.bundle.summary).filter (· ≠ "") := by
  induction evidence with
  | nil => rfl
  | cons e evidence ih =>
    rw [List.map_cons, List.map_cons, List.filterMap_cons, ih, h]
    by_cases hsummary : e.bundle.summary = ""
    · simp [hsummary]
    · simp [hsummary]

/-- The summary without a model is made of these. -/
theorem fallbackSummary_json (evidence : List Evidence) :
    fallbackSummary (evidence.map (Evidence.json w)) = summaryOf evidence := by
  unfold fallbackSummary summaryOf
  rw [filterMap_summaries (w := w)]
  intro e
  by_cases hstats : e.bundle.stats = []
  · simp [Evidence.json, Bundle.json, lookup, Python.truthy, Python.str, optionalField, hstats]
  · simp [Evidence.json, Bundle.json, lookup, Python.truthy, Python.str, optionalField, hstats]

/-- A finding from the JSON is the finding from the evidence. -/
theorem findingFromEvidence_json (agent summary : String) (evidence : List Evidence) :
    findingFromEvidence agent summary (evidence.map (Evidence.json w)) =
      some (findingOf w agent summary evidence) := by
  have hsignals : ∀ e : Evidence,
      (Python.get "signals" (.array []) (e.json w)).bind Python.iter =
        some (e.bundle.signals.map (Signal.json w)) := by
    intro e
    rw [(get_bundle e).2.2.1]
    rfl
  have hflatten : (evidence.map fun e => e.bundle.signals.map (Signal.json w)).flatten =
      (evidence.flatMap fun e => e.bundle.signals).map (Signal.json w) := by
    rw [← List.flatMap_def, List.map_flatMap]
  unfold findingFromEvidence
  simp only [Option.bind_eq_bind]
  rw [mapM_written evidenceReference_json, mapM_written hsignals]
  simp only [Option.bind_some, hflatten]
  rw [← List.map_take, mapM_written (j := Signal.json w) (v := Signal.name)]
  · unfold findingOf
    cases evidence.flatMap fun e => e.bundle.signals <;> rfl
  · intro s
    cases hreason : nonEmpty s.reason <;> cases hattributes : s.attributesJson w <;>
      simp [Python.get, Signal.json, Signal.fields, lookup, optionalField, hreason, hattributes]

end Reading

/-! ### One step over HTTP -/

/-- The parameters of a call of a tool. -/
def toolParams (tool : Tool) (job : RunJob) : Json String :=
  .object [("name", .string tool.name), ("arguments", toolArguments job.runId job.incidentId)]

/-- What the agent sends for it. -/
def StudyCall.sent [Python.Reading String] (w : Wire) (token : BearerToken) (job : RunJob) :
    StudyCall → GraphCall String
  | .connect => .post token "initialize" none
  | .checkTools => .post token "tools/list" none
  | .context => .post token "tools/call" (some (toolParams .rcaContext job))
  | .evidence inquiry => .post token "tools/call" (some (toolParams inquiry.tool job))
  | .model prompt c collected =>
      .invoke (prompt ++ "\n\nReturn concise RCA findings grounded only in this JSON:\n" ++
        Python.str (.object [("context", c.json w),
          ("evidence", .array (collected.map (Evidence.json w)))]))

section Steps

variable [Python.Reading String] {w : Wire} {secret : String} {cfg : Config} {order : MapOrder}
  {started : ℤ} {job : RunJob}

variable (w secret cfg order started job) in
/-- The investigation over HTTP, and the one that is meant. -/
def levels : Levels (GraphCall String) StudyCall GraphCall.Result StudyCall.Result GraphError
    Surroundings Unit (List (Inquiry × Evidence)) where
  serve := overHttp w secret cfg order
  serve' := directly cfg order job started
  call c c' := c = c'.sent w (mintToken secret started job) job
  state _ _ := True

/-- It is the context of the job's run that has been read. -/
def ReadContext (w : Wire) (job : RunJob) (value : Json String) (context : RCAContext) : Prop :=
  value = context.json w ∧ context.runId = job.runId ∧ context.incidentId = job.incidentId

/-- The token the agent mints opens a session. -/
theorem simulates_connect (hsecret : 32 ≤ secret.utf8ByteSize) (hjob : job.WellFormed) :
    Simulates (levels w secret cfg order started job) (fun _ _ => True)
      (initializeSession (mintToken secret started job)) (Prog.perform StudyCall.connect) := by
  unfold initializeSession
  rw [request_eq]
  apply simulates_request rfl
  intro x s s' _
  refine ⟨?_, trivial⟩
  show Both _ (exchange w secret cfg order (mintToken secret started job) "initialize" none x >>=
    received) (x.reach started)
  rw [request_initialized hsecret hjob]
  cases x.reach started with
  | ok _ => exact trivial
  | error e => exact rfl

/-- The server has the tools that the agent needs. -/
theorem simulates_checkTools (hsecret : 32 ≤ secret.utf8ByteSize) (hjob : job.WellFormed) :
    Simulates (levels w secret cfg order started job) (fun _ _ => True)
      (validateRequiredTools (mintToken secret started job) requiredMcpTools)
      (Prog.perform StudyCall.checkTools) := by
  rw [validateRequiredTools_eq]
  apply simulates_request rfl
  intro x s s' _
  refine ⟨?_, trivial⟩
  show Both _ (exchange w secret cfg order (mintToken secret started job) "tools/list" none x >>=
    fun response => received response >>= checkedTools requiredMcpTools) (x.reach started)
  rw [request_tools hsecret hjob]
  cases x.reach started with
  | ok _ => exact trivial
  | error e => exact rfl

/-- A call of a tool, by what the request gives. -/
theorem simulates_callTool (hsecret : 32 ≤ secret.utf8ByteSize) (hjob : job.WellFormed)
    {tool : Tool} {c : StudyCall} {V : Json String → c.Result → Prop}
    (hsent : c.sent w (mintToken secret started job) job =
      .post (mintToken secret started job) "tools/call" (some (toolParams tool job)))
    (h : ∀ x s, Both V (x.reach started >>= fun _ =>
        match (job.context cfg >>= fun s => tool.evidence cfg order (some job.claims) s).eval
            x.answers with
        | .ok result =>
            if result.encodes then .ok (result.json w x.now)
            else .error (.transport "JSONDecodeError")
        | .error err => .error (.runtimeError err)) (directly cfg order job started c x s).1) :
    Simulates (levels w secret cfg order started job) V
      (callTool (mintToken secret started job) tool.name (toolArguments job.runId job.incidentId))
      (Prog.perform c) := by
  rw [callTool_eq]
  apply simulates_request hsent.symm
  intro x s s' _
  refine ⟨?_, trivial⟩
  show Both _ (exchange w secret cfg order (mintToken secret started job) "tools/call"
    (some (toolParams tool job)) x >>= fun response => received response >>= contentOf)
    (directly cfg order job started c x s').1
  unfold toolParams
  rw [callTool_answer hsecret hjob tool]
  exact h x s'

omit [Python.Reading String] in
/-- The context of a job's run is that of its run and its incident. -/
theorem context_ids (hjob : job.WellFormed) {x : Surroundings} {found : ScopedContext}
    (h : (job.context cfg).eval x.answers = .ok found) :
    found.context.runId = job.runId ∧ found.context.incidentId = job.incidentId := by
  unfold RunJob.context scopedContext at h
  rw [hjob.trimmedRunId, hjob.trimmedIncidentId,
    if_neg (not_or.mpr ⟨hjob.runId, hjob.incidentId⟩)] at h
  obtain ⟨record, hrecord, h⟩ := Prog.eval_bind_eq_ok h
  obtain ⟨_, -, hquery⟩ := Prog.eval_bind_eq_ok hrecord
  have hanswer : x.answers (.contextRecord job.runId job.incidentId) = .ok record :=
    (Prog.eval_perform _).symm.trans hquery
  by_cases hrun : record.run.id = ""
  · rw [if_pos hrun] at h
    cases h
  · rw [if_neg hrun] at h
    obtain ⟨now, -, h⟩ := Prog.eval_bind_eq_ok h
    obtain ⟨⟨start, stop⟩, -, h⟩ := Prog.eval_bind_eq_ok h
    obtain rfl := Except.ok.inj h
    exact x.found hanswer hrun

/-- The context that is read is the one of the run, written as JSON. -/
theorem simulates_context (hsecret : 32 ≤ secret.utf8ByteSize) (hjob : job.WellFormed) :
    Simulates (levels w secret cfg order started job) (ReadContext w job)
      (loadContext (mintToken secret started job) job) (Prog.perform StudyCall.context) := by
  apply simulates_callTool (c := .context) (V := ReadContext w job) hsecret hjob rfl
  intro x s
  show Both (ReadContext w job) _ (x.reach started >>= fun _ =>
    ((job.context cfg).eval x.answers).mapError GraphError.runtimeError >>= fun found =>
      .ok found.context)
  cases x.reach started with
  | error e => exact rfl
  | ok _ =>
    show Both (ReadContext w job) (match (job.context cfg >>= fun s =>
        (Prog.ret (ToolResult.context s.context) : EvidenceProg ToolResult)).eval x.answers with
      | .ok result => _
      | .error err => _) _
    cases hfound : (job.context cfg).eval x.answers with
    | error e =>
      rw [Prog.eval_bind_error hfound]
      exact rfl
    | ok found =>
      rw [Prog.eval_bind_ok hfound]
      exact ⟨rfl, context_ids hjob hfound⟩

/-- A tool call answers with the evidence of its inquiry. -/
theorem simulates_evidence (hsecret : 32 ≤ secret.utf8ByteSize) (hjob : job.WellFormed)
    (inquiry : Inquiry) :
    Simulates (levels w secret cfg order started job) (fun value e => value = e.json w)
      (callTool (mintToken secret started job) inquiry.tool.name
        (toolArguments job.runId job.incidentId))
      (Prog.perform (StudyCall.evidence inquiry)) := by
  apply simulates_callTool (c := .evidence inquiry) (V := fun value e => value = Evidence.json w e)
    hsecret hjob rfl
  intro x s
  show Both (fun value e => value = Evidence.json w e) _ (x.reach started >>= fun _ =>
    ((job.context cfg >>= inquiry.collect cfg order (some job.claims)).eval x.answers).mapError
        GraphError.runtimeError >>= fun bundle =>
      if bundle.encodes then .ok ⟨bundle, x.now⟩ else .error (.transport "JSONDecodeError"))
  have hcollect :
      (job.context cfg >>= fun s => inquiry.tool.evidence cfg order (some job.claims) s) =
      (job.context cfg >>= inquiry.collect cfg order (some job.claims)) >>= fun bundle =>
        Prog.ret (.bundle bundle) := by
    rw [Prog.bind_assoc]
    congr 1
    funext s
    exact evidence_inquiry cfg order (some job.claims) s inquiry
  rw [hcollect]
  -- a request that does not arrive fails on both levels
  cases x.reach started with
  | error e => exact rfl
  | ok _ =>
    show Both _ (match ((job.context cfg >>= inquiry.collect cfg order (some job.claims)) >>=
        fun b => (Prog.ret (ToolResult.bundle b) : EvidenceProg ToolResult)).eval x.answers with
      | .ok result => _
      | .error err => _) _
    cases hbundle : (job.context cfg >>= inquiry.collect cfg order (some job.claims)).eval
        x.answers with
    | error e =>
      rw [Prog.eval_bind_error hbundle]
      exact rfl
    -- a bundle that JSON cannot hold is no answer
    | ok bundle =>
      rw [Prog.eval_bind_ok hbundle]
      show Both _ (if bundle.encodes then _ else _) (if bundle.encodes then _ else _)
      split
      · exact rfl
      · exact rfl

/-- The model is asked with the same prompt, about the same text. -/
theorem simulates_model (hasModel : Bool) (prompt : String) (c : RCAContext)
    (collected : List Evidence) :
    Simulates (levels w secret cfg order started job) Eq
      (summarizeJson hasModel prompt (c.json w) (collected.map (Evidence.json w)))
      (summarize hasModel prompt c collected) := by
  cases hasModel with
  | false => exact simulates_ret (fallbackSummary_json collected)
  | true =>
    unfold summarizeJson summarize
    rw [if_pos rfl, if_pos rfl]
    apply simulates_perform (levels w secret cfg order started job) (.invoke _)
      (.model _ c collected)
    · exact rfl
    · intro x s s' _
      exact ⟨Both.refl x.text, trivial⟩

/-! ### The investigation over HTTP -/

omit [Python.Reading String] in
/-- What the agent reads of the context: the run, the incident and its id. -/
theorem item_context (c : RCAContext) :
    Python.item "run" (c.json w) = some (.object [("id", .string c.runId),
        ("source", .string c.runSource), ("startedAt", .string (w.time c.runStartedAt))]) ∧
      Python.item "incident" (c.json w) = some (.object (c.incidentFields w)) ∧
      Python.item "id" (.object (c.incidentFields w)) = some (.string c.incidentId) := by
  refine ⟨?_, ?_, lookup_incidentId c⟩
  · simp [Python.item, RCAContext.json, lookup]
  · simp [Python.item, RCAContext.json, lookup]

/-- One more tool, with the ids of the context. -/
theorem gatherEvidence_cons (token : BearerToken) (c : RCAContext) (tool : String)
    (tools : List String) :
    gatherEvidence token (c.json w) (tool :: tools) =
      callTool token tool (toolArguments c.runId c.incidentId) >>= fun answer =>
        gatherEvidence token (c.json w) tools >>= fun answers => Prog.ret (answer :: answers) := by
  obtain ⟨hrun, hincident, hincidentId⟩ := item_context (w := w) c
  have hrunId : Python.item "id" (.object [("id", .string c.runId), ("source", .string c.runSource),
      ("startedAt", .string (w.time c.runStartedAt))]) = some (.string c.runId : Json String) := by
    simp [Python.item, lookup]
  conv_lhs => unfold gatherEvidence
  have hret : ∀ {α β : Type} (a : α) (f : α → GraphProg String β), (expect (some a) >>= f) = f a :=
    fun _ _ => rfl
  rw [hrun, hret, hrunId, hret, hincident, hret, hincidentId, hret]
  rfl

/-- By induction on the inquiries, the evidence of a specialist. -/
theorem simulates_gather (hsecret : 32 ≤ secret.utf8ByteSize) (hjob : job.WellFormed)
    {value : Json String} {c : RCAContext} (hcontext : ReadContext w job value c)
    (inquiries : List Inquiry) :
    Simulates (levels w secret cfg order started job)
      (fun answers collected => answers = collected.map (Evidence.json w))
      (gatherEvidence (mintToken secret started job) value
        (inquiries.map fun inquiry => inquiry.tool.name))
      (gather inquiries) := by
  obtain ⟨rfl, hrunId, hincidentId⟩ := hcontext
  induction inquiries with
  | nil => exact simulates_ret rfl
  | cons inquiry inquiries ih =>
    rw [List.map_cons, gatherEvidence_cons, hrunId, hincidentId]
    apply (simulates_evidence hsecret hjob inquiry).bind
    rintro _ e rfl
    apply ih.bind
    rintro _ collected rfl
    exact simulates_ret rfl

/-- One specialist. -/
theorem simulates_specialist (hsecret : 32 ≤ secret.utf8ByteSize) (hjob : job.WellFormed)
    (hasModel : Bool) {value : Json String} {c : RCAContext} (hcontext : ReadContext w job value c)
    (s : Specialist) :
    Simulates (levels w secret cfg order started job) Eq
      (s.investigator.run (mintToken secret started job) hasModel value (taskOf c))
      (s.study w hasModel c) := by
  have hvalue := hcontext.1
  apply (simulates_gather hsecret hjob hcontext s.inquiries).bind
  rintro _ collected rfl
  rw [hvalue]
  apply (simulates_model hasModel _ c collected).bind
  rintro _ summary rfl
  rw [findingFromEvidence_json]
  exact simulates_ret rfl

/-- By induction on the specialists, all findings. -/
theorem simulates_specialists (hsecret : 32 ≤ secret.utf8ByteSize) (hjob : job.WellFormed)
    (hasModel : Bool) {value : Json String} {c : RCAContext} (hcontext : ReadContext w job value c)
    (specialists : List Specialist) :
    Simulates (levels w secret cfg order started job) Eq
      (runSpecialists (mintToken secret started job) hasModel value
        (specialists.map Specialist.investigator))
      (studyAll w hasModel c specialists) := by
  induction specialists with
  | nil => exact simulates_ret rfl
  | cons s specialists ih =>
    have htask : taskFor value = some (taskOf c) := by
      rw [hcontext.1]
      exact taskFor_json c
    rw [List.map_cons, runSpecialists, htask]
    show Simulates _ _
      (s.investigator.run (mintToken secret started job) hasModel value (taskOf c) >>= _) _
    apply (simulates_specialist hsecret hjob hasModel hcontext s).bind
    rintro _ finding rfl
    apply ih.bind
    rintro _ findings rfl
    exact simulates_ret rfl

variable (w cfg order started) in
/-- The whole investigation. -/
theorem simulates_study (hsecret : 32 ≤ secret.utf8ByteSize) (hjob : job.WellFormed)
    (hasModel : Bool) (generatedAt : String) :
    Simulates (levels w secret cfg order started job) Eq
      (runGraph secret hasModel started generatedAt job) (study w hasModel generatedAt job) := by
  apply (simulates_connect hsecret hjob).bind
  intro _ _ _
  apply (simulates_checkTools hsecret hjob).bind
  intro _ _ _
  apply (simulates_context hsecret hjob).bind
  intro value c hcontext
  obtain ⟨names, hnames, hinvestigators⟩ := selectSpecialists_json (w := w) c
  rw [hcontext.1, hnames, ← hcontext.1]
  show Simulates _ _ (runSpecialists (mintToken secret started job) hasModel value
    (buildInvestigators names) >>= _) _
  rw [hinvestigators]
  apply (simulates_specialists hsecret hjob hasModel hcontext (specialistsFor c)).bind
  rintro _ findings rfl
  exact simulates_ret rfl

end Steps

/-! ### What a study collects -/

section Collected

variable [Python.Reading String] {w : Wire} {cfg : Config} {order : MapOrder} {started : ℤ}
  {job : RunJob}

variable (cfg order started job) in
/-- If it returns, a part of a study has collected some evidence, and made this of it. -/
def Gathers {α : Type} (p : StudyProg α) (V : List (Inquiry × Evidence) → α → Prop) : Prop :=
  ∀ before, p.Meets (Service.contract (directly cfg order job started) fun _ _ => True)
    (fun r after => ∀ a, r = .ok a → ∃ own, after = before ++ own ∧ V own a) before

omit [Python.Reading String] in
theorem gathers_ret {α : Type} {a : α} {V : List (Inquiry × Evidence) → α → Prop} (h : V [] a) :
    Gathers cfg order started job (Prog.ret a) V := by
  intro before b hb
  obtain rfl := Except.ok.inj hb
  exact ⟨[], (List.append_nil before).symm, h⟩

omit [Python.Reading String] in
/-- What two programs gather, one after the other, is together what they gather. -/
theorem Gathers.bind {α β : Type} {p : StudyProg α} {f : α → StudyProg β}
    {V : List (Inquiry × Evidence) → α → Prop} {W : List (Inquiry × Evidence) → β → Prop}
    (hp : Gathers cfg order started job p V)
    (hf : ∀ own a, V own a → Gathers cfg order started job (f a) fun rest b => W (own ++ rest) b) :
    Gathers cfg order started job (p >>= f) W := by
  intro before
  apply (hp before).bind
  · intro a after h
    obtain ⟨own, rfl, hV⟩ := h a rfl
    apply (hf own a hV (before ++ own)).mono
    intro r after' hrest b hb
    obtain ⟨rest, hafter, hW⟩ := hrest b hb
    exact ⟨own ++ rest, by rw [hafter, List.append_assoc], hW⟩
  · exact fun e after _ b hb => nomatch hb

omit [Python.Reading String] in
/-- What is not asked of an evidence service collects nothing. -/
theorem gathers_other {c : StudyCall} (h : ∀ x s, (directly cfg order job started c x s).2 = s) :
    Gathers cfg order started job (Prog.perform c) fun own _ => own = [] := by
  intro before
  apply Prog.meets_perform.mpr
  refine ⟨trivial, ?_⟩
  rintro r after ⟨x, -, hx⟩ a -
  have hafter : after = before := by
    rw [← h x before, hx]
  exact ⟨[], by rw [hafter, List.append_nil], rfl⟩

omit [Python.Reading String] in
theorem gathers_evidence (inquiry : Inquiry) :
    Gathers cfg order started job (Prog.perform (StudyCall.evidence inquiry)) fun own e =>
      own = [(inquiry, e)] := by
  intro before
  apply Prog.meets_perform.mpr
  refine ⟨trivial, ?_⟩
  rintro r after ⟨x, -, hx⟩ e rfl
  obtain ⟨hanswer, hafter⟩ := Prod.mk.inj hx
  rw [hanswer] at hafter
  exact ⟨[(inquiry, e)], hafter.symm, rfl⟩

omit [Python.Reading String] in
/-- The evidence is of the inquiries that were made, in their order. -/
theorem gathers_gather (inquiries : List Inquiry) :
    Gathers cfg order started job (gather inquiries) fun own collected =>
      own.map Prod.fst = inquiries ∧ own.map Prod.snd = collected := by
  induction inquiries with
  | nil => exact gathers_ret ⟨rfl, rfl⟩
  | cons inquiry inquiries ih =>
    apply (gathers_evidence inquiry).bind
    rintro _ e rfl
    apply ih.bind
    rintro own collected ⟨hinquiries, hcollected⟩
    apply gathers_ret
    rw [List.append_nil, ← hinquiries, ← hcollected]
    exact ⟨rfl, rfl⟩

/-- A finding rests on what has been collected for it. -/
theorem gathers_specialist (hasModel : Bool) (c : RCAContext) (s : Specialist) :
    Gathers cfg order started job (s.study w hasModel c) fun own finding =>
      own.map Prod.fst = s.inquiries ∧ finding.evidence = own.map fun e => referenceOf w e.2 := by
  apply (gathers_gather s.inquiries).bind
  rintro own collected ⟨hinquiries, rfl⟩
  have hsummary : Gathers cfg order started job (summarize hasModel
      (s.prompt ++ "\nTask: " ++ taskOf c) c (own.map Prod.snd)) fun own _ => own = [] := by
    unfold summarize
    split
    · exact gathers_other fun _ _ => rfl
    · exact gathers_ret rfl
  apply hsummary.bind
  rintro _ summary rfl
  apply gathers_ret
  rw [List.append_nil, List.append_nil]
  exact ⟨hinquiries, List.map_map⟩

/-- The findings refer to the evidence their specialists gathered. -/
theorem gathers_all (hasModel : Bool) (c : RCAContext) (specialists : List Specialist) :
    Gathers cfg order started job (studyAll w hasModel c specialists) fun own findings =>
      own.map Prod.fst = specialists.flatMap Specialist.inquiries ∧
        findings.flatMap AgentFinding.evidence = own.map fun e => referenceOf w e.2 := by
  induction specialists with
  | nil => exact gathers_ret ⟨rfl, rfl⟩
  | cons s specialists ih =>
    apply (gathers_specialist hasModel c s).bind
    rintro own finding ⟨hinquiries, hevidence⟩
    apply ih.bind
    rintro rest findings ⟨hrest, hfindings⟩
    apply gathers_ret
    rw [List.append_nil, List.map_append, List.map_append, List.flatMap_cons, List.flatMap_cons,
      hinquiries, hrest, hevidence, hfindings]
    exact ⟨rfl, rfl⟩

omit [Python.Reading String] in
/-- Together the specialists ask for everything, and for nothing twice. -/
theorem specialistsFor_inquiries (c : RCAContext) :
    ((specialistsFor c).flatMap Specialist.inquiries).Perm Inquiry.all := by
  unfold specialistsFor
  dsimp only
  split
  · decide
  · decide

variable (w cfg order started job) in
/-- A study makes each inquiry once, and its report refers to every piece of evidence. -/
theorem gathers_study (hasModel : Bool) (generatedAt : String) :
    Gathers cfg order started job (study w hasModel generatedAt job) fun own report =>
      (own.map Prod.fst).Perm Inquiry.all ∧
        report.evidenceUsed = own.map fun e => referenceOf w e.2 := by
  apply (gathers_other (c := .connect) fun _ _ => rfl).bind
  rintro _ _ rfl
  apply (gathers_other (c := .checkTools) fun _ _ => rfl).bind
  rintro _ _ rfl
  apply (gathers_other (c := .context) fun _ _ => rfl).bind
  rintro _ c rfl
  apply (gathers_all hasModel c (specialistsFor c)).bind
  rintro own findings ⟨hinquiries, hevidence⟩
  apply gathers_ret
  rw [List.nil_append, List.nil_append, List.nil_append, List.append_nil, hinquiries]
  exact ⟨specialistsFor_inquiries c, hevidence⟩

end Collected

/-! ### Main result -/

/-- **An investigation is the study that it is meant to be.** -/
theorem investigation_is_study [Python.Reading String] (w : Wire) (secret : String) (cfg : Config)
    (order : MapOrder) (started : ℤ) (job : RunJob) (hasModel : Bool) (generatedAt : String)
    (env : ℕ → Surroundings) (hsecret : 32 ≤ secret.utf8ByteSize) (hjob : job.WellFormed) :
    let real := (runGraph secret hasModel started generatedAt job).run (overHttp w secret cfg order)
      env ()
    let meant := (study w hasModel generatedAt job).run (directly cfg order job started) env []
    real.outcome = meant.outcome ∧
      real.calls = meant.calls.map (StudyCall.sent w (mintToken secret started job) job) ∧
      ∀ report, real.outcome = .ok report →
        (meant.state.map Prod.fst).Perm Inquiry.all ∧
          report.evidenceUsed = meant.state.map fun e => referenceOf w e.2 := by
  dsimp only
  obtain ⟨houtcome, -, hcalls⟩ :=
    simulates_study w cfg order started hsecret hjob hasModel generatedAt env () [] trivial
  refine ⟨houtcome.eq, ?_, ?_⟩
  · exact List.forall₂_eq_eq_eq ▸ List.forall₂_map_right_iff.mpr hcalls
  · intro report hreport
    have hgathers := gathers_study w cfg order started job hasModel generatedAt []
    obtain ⟨own, hstate, hall⟩ := run_of_meets hgathers (fun _ _ _ => trivial) report
      (houtcome.eq.symm.trans hreport)
    rw [hstate, List.nil_append]
    exact hall

instance : Python.Reading String where
  isZero n := n = "0"
  print
    | .null => "None"
    | .bool b => if b then "True" else "False"
    | .number n => n
    | _ => ""

/-- The record, if it is the one of these ids. -/
def recordOf (runId incidentId : String) (record : RCAContextRecord) :
    Except String RCAContextRecord :=
  if record.run.id = runId ∧ record.incident.id = incidentId then .ok record
  else .error "sql: no rows in result set"

/-- The answers of a backend, whose query for a record is one by its ids. -/
def answersOf (b : Backend) : (c : EvidenceCall) → Except String c.Result
  | .contextRecord runId incidentId => b.record >>= recordOf runId incidentId
  | c => b.answer c

/-- A context that is found is that of the run and the incident asked for. -/
theorem answersOf_found {b : Backend} {runId incidentId : String} {record : RCAContextRecord}
    (h : answersOf b (.contextRecord runId incidentId) = .ok record) :
    record.run.id = runId ∧ record.incident.id = incidentId := by
  change (b.record >>= recordOf runId incidentId) = .ok record at h
  cases hb : b.record with
  | error e =>
    rw [hb] at h
    cases h
  | ok found =>
    rw [hb] at h
    change recordOf runId incidentId found = .ok record at h
    unfold recordOf at h
    by_cases hids : found.run.id = runId ∧ found.incident.id = incidentId
    · rw [if_pos hids] at h
      obtain rfl := Except.ok.inj h
      exact hids
    · rw [if_neg hids] at h
      cases h

/-- Nothing fails around a step, and there is nothing to be found. -/
def sampleSurroundings : Surroundings where
  now := 1000
  answers := answersOf sampleBackend
  id := 1
  text := .error (.transport "no model")
  idFits := by decide +kernel
  found h _ := answersOf_found h

def sampleWire : Wire where
  number _ := "0"
  time t := toString t
  pattern _ := ""
  sample _ := .null
  text _ := ""

def sampleSecret : String := "0123456789abcdef0123456789abcdef"

def sampleJob : RunJob := ⟨"workspace", "run", "incident"⟩

theorem investigation_is_study_sample :
    ∃ report, ((runGraph sampleSecret false 950 "now" sampleJob).run
        (overHttp sampleWire sampleSecret defaultConfig MapOrder.insertion)
        (fun _ => sampleSurroundings) ()).outcome = .ok report ∧
      report.evidenceUsed.length = 9 := by
  have hjob : sampleJob.WellFormed :=
    ⟨by decide, by decide, by decide, by unfold trimmed; decide, by unfold trimmed; decide⟩
  obtain ⟨houtcome, -, hreport⟩ := investigation_is_study sampleWire sampleSecret defaultConfig
    MapOrder.insertion 950 sampleJob false "now" (fun _ => sampleSurroundings) (by decide) hjob
  have hreturns : ((study sampleWire false "now" sampleJob).run (directly defaultConfig
      MapOrder.insertion sampleJob 950) (fun _ => sampleSurroundings) []).outcome.isOk = true := by
    decide +kernel
  cases hreal : ((runGraph sampleSecret false 950 "now" sampleJob).run
      (overHttp sampleWire sampleSecret defaultConfig MapOrder.insertion)
      (fun _ => sampleSurroundings) ()).outcome with
  | error e =>
    rw [← houtcome, hreal] at hreturns
    cases hreturns
  | ok report =>
    obtain ⟨hinquiries, hevidence⟩ := hreport report hreal
    refine ⟨report, rfl, ?_⟩
    have hlength := hinquiries.length_eq
    rw [List.length_map] at hlength
    rw [hevidence, List.length_map, hlength]
    rfl

end RcaAgent

end NexCause
