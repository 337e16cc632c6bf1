/-
NexCause/ScopeConfinement.lean

The scope of a run, from the manager's token to the evidence store.

The scope is encoded anew at every hop: the manager's token, the request and
the job of the agent, the agent's token, the arguments of a tool call, the
trimmed request of a service.  Nothing is lost or widened on the way
(`scope_confinement`): the agent runs the run of the manager's token, signs a
token for it alone, and the evidence server opens transactions only for the
workspace of that token and asks only for its run and incident, whatever a
request says; a tool call whose arguments do not name exactly these is refused
before any access.
-/
import NexCause.EvidenceServer
import NexCause.ServiceTokens

namespace NexCause

open Program Json Decoding

/-! ### Confined programs -/

/-- The call stays in the scope of the claims. -/
def Confined (claims : Claims) : EvidenceCall → Prop
  | .tenantTx workspaceId => workspaceId = claims.workspaceId
  | .contextRecord runId incidentId => runId = claims.runId ∧ incidentId = claims.incidentId
  | _ => True

variable {claims : Claims} {cfg : Config} {order : MapOrder}

theorem tenantTx_confined : (PostgresStore.tenantTx (some claims)).Calls (Confined claims) :=
  Prog.calls_perform.mpr rfl

theorem pods_confined («namespace» appId deploymentId : String) :
    (KubernetesAdapter.pods «namespace» appId deploymentId).Calls (Confined claims) :=
  Prog.calls_perform.mpr trivial

theorem events_confined («namespace» deploymentName appId deploymentId : String) :
    (KubernetesAdapter.events «namespace» deploymentName appId deploymentId).Calls
      (Confined claims) := by
  apply Prog.Calls.bind
  · exact (pods_confined _ _ _).tryCatch fun _ => trivial
  · intro found
    apply Prog.Calls.bind
    · exact Prog.calls_perform.mpr trivial
    · intro items
      trivial

theorem podLogs_confined («namespace» : String) (since : Go.Time) (tailLines : ℤ)
    (pods : List K8sPod) :
    (KubernetesAdapter.podLogs «namespace» since tailLines pods).Calls (Confined claims) := by
  induction pods with
  | nil => trivial
  | cons pod pods ih =>
    apply Prog.Calls.bind
    · have hlog : (KubernetesAdapter.podLog «namespace» since tailLines pod).Calls (Confined claims) := by
        apply Prog.Calls.tryCatch
        · apply Prog.Calls.bind
          · exact Prog.calls_perform.mpr trivial
          · intro data
            trivial
        · intro err
          trivial
      exact hlog
    · intro log
      exact ih.bind fun _ => trivial

theorem collectLogs_confined (s : ScopedContext) :
    (Services.collectLogs cfg order s).Calls (Confined claims) := by
  apply Prog.Calls.tryCatch
  · unfold LogBackendAdapter.queryLogs
    split
    · trivial
    · exact (Prog.calls_perform.mpr trivial).bind fun _ => trivial
  · intro err
    split
    · exact (pods_confined _ _ _).bind fun _ => podLogs_confined _ _ _ _
    · trivial

theorem queryAll_confined («namespace» deploymentName : String) (start stop : Go.Time)
    (names : List String) :
    (PrometheusAdapter.queryAll «namespace» deploymentName start stop names).Calls
      (Confined claims) := by
  induction names with
  | nil => trivial
  | cons name names ih =>
    apply Prog.Calls.bind
    · have hseries : (PrometheusAdapter.querySeries «namespace» deploymentName start stop name).Calls
          (Confined claims) := by
        apply Prog.Calls.tryCatch
        · apply Prog.Calls.bind
          · exact Prog.calls_perform.mpr trivial
          · intro body
            exact Prog.calls_ofExcept.bind fun _ => trivial
        · intro err
          trivial
      exact hseries
    · intro series
      exact ih.bind fun _ => trivial

/-- A collection makes the calls of what it collects. -/
theorem collect_calls {P : EvidenceCall → Prop} {α : Type} {source : Source} {s : ScopedContext}
    {p : EvidenceProg α} {bundle : α → Bundle} (hp : p.Calls P) :
    (collect source s p bundle).Calls P := by
  apply Prog.Calls.tryCatch
  · exact hp.bind fun _ => trivial
  · intro err
    trivial

theorem collectFromCluster_calls {P : EvidenceCall → Prop} {α : Type} {s : ScopedContext}
    {p : EvidenceProg α} {bundle : α → Bundle} (hp : p.Calls P) :
    (collectFromCluster cfg s p bundle).Calls P := by
  unfold collectFromCluster
  split
  · exact collect_calls hp
  · trivial

/-- A query of the store, in its transaction. -/
theorem storeQuery_confined (call : EvidenceCall) (hcall : Confined claims call) :
    (PostgresStore.tenantTx (some claims) >>= fun _ =>
      (Prog.perform call : EvidenceProg call.Result)).Calls (Confined claims) :=
  tenantTx_confined.bind fun _ => Prog.calls_perform.mpr hcall

/-- A tool stays in scope, one case for each tool. -/
theorem evidence_confined (s : ScopedContext) (tool : Tool) :
    (tool.evidence cfg order (some claims) s).Calls (Confined claims) := by
  cases tool with
  | rcaContext => trivial
  | deploymentStatus =>
    exact (collectFromCluster_calls (Prog.calls_perform.mpr trivial)).bind fun _ => trivial
  | pods => exact (collectFromCluster_calls (pods_confined _ _ _)).bind fun _ => trivial
  | kubernetesEvents =>
    exact (collectFromCluster_calls (events_confined _ _ _ _)).bind fun _ => trivial
  | logs => exact (collect_calls (collectLogs_confined s)).bind fun _ => trivial
  | metrics =>
    -- nothing is asked without a URL
    refine (collect_calls ?_).bind fun _ => trivial
    unfold PrometheusAdapter.queryDeploymentMetrics
    split
    · trivial
    · exact queryAll_confined _ _ _ _ _
  | traces =>
    refine (collect_calls ?_).bind fun _ => trivial
    unfold TempoAdapter.queryDeploymentTraces
    split
    · trivial
    · exact Prog.calls_perform.mpr trivial
  | healthSamples =>
    exact (collect_calls (storeQuery_confined (.healthSamples _ _ _ _) trivial)).bind fun _ => trivial
  | runtimeConfigs =>
    exact (collect_calls (storeQuery_confined (.storedConfigs _) trivial)).bind fun _ => trivial
  | recentChanges =>
    exact (collect_calls (storeQuery_confined (.recentChanges _ _ _ _) trivial)).bind fun _ => trivial

/-! ### Requests -/

/-- The ids of the claims have no white space around them, as those that the
manager generates. -/
def Claims.Trimmed (claims : Claims) : Prop :=
  trimmed claims.runId = claims.runId ∧ trimmed claims.incidentId = claims.incidentId

/-- The context of a request for exactly the ids of the claims is in scope. -/
theorem scopedContext_confined (htrimmed : claims.Trimmed) {req : EvidenceRequest}
    (hrun : req.runId = claims.runId) (hincident : req.incidentId = claims.incidentId) :
    (scopedContext cfg (some claims) req).Calls (Confined claims) := by
  unfold scopedContext
  rw [hrun, hincident, htrimmed.1, htrimmed.2]
  split
  · trivial
  · apply Prog.Calls.bind
    · have hquery : (PostgresStore.getRCAContextRecord (some claims) claims.runId
          claims.incidentId).Calls (Confined claims) :=
        storeQuery_confined (.contextRecord _ _) ⟨rfl, rfl⟩
      exact hquery
    · intro record
      split
      · trivial
      · apply Prog.Calls.bind
        · exact Prog.calls_perform.mpr trivial
        · intro now
          exact Prog.calls_ofExcept.bind fun _ => trivial

theorem evidenceRequest_ok {arguments : List (String × Json String)} {req : EvidenceRequest}
    (h : evidenceRequest arguments = .ok req) :
    req = ⟨stringArgument arguments "runId", stringArgument arguments "incidentId"⟩ := by
  unfold evidenceRequest at h
  dsimp only at h
  split at h
  · cases h
  · exact (Except.ok.inj h).symm

/-- A tool call whose arguments are in scope stays there. -/
theorem call_confined (htrimmed : claims.Trimmed) {params : CallParams}
    (hscope : params.InScope claims) :
    (Registry.call cfg order (some claims) params.name params.arguments).Calls (Confined claims) := by
  unfold Registry.call
  cases Tool.all.find? fun tool => tool.name = params.name with
  | none => exact True.intro
  | some tool =>
    dsimp only
    cases hreq : evidenceRequest params.arguments with
    | error message => exact True.intro
    | ok req =>
      have hids := evidenceRequest_ok hreq
      have hrun : req.runId = claims.runId := by
        rw [hids]
        exact hscope.1
      have hincident : req.incidentId = claims.incidentId := by
        rw [hids]
        exact hscope.2
      rw [Prog.ofExcept_ok_bind]
      refine Prog.Calls.bind (scopedContext_confined htrimmed hrun hincident) ?_
      intro s
      exact evidence_confined s tool

theorem toolsCall_confined (htrimmed : claims.Trimmed) (req : RpcRequest) :
    (toolsCall cfg order (some claims) req).Calls (Confined claims) := by
  unfold toolsCall
  cases decodeParams req.params with
  | error message => trivial
  | ok params =>
    dsimp only
    by_cases hscope : params.InScope claims
    · rw [if_pos hscope]
      apply Prog.Calls.tryCatch
      · exact (call_confined htrimmed hscope).bind fun _ => trivial
      · intro err
        trivial
    · rw [if_neg hscope]
      trivial

/-- Every request stays in the scope of its claims. -/
theorem serveHTTP_confined (htrimmed : claims.Trimmed) (body : Option (Json String)) :
    (serveHTTP cfg order (some claims) body).Calls (Confined claims) := by
  unfold serveHTTP
  split
  · trivial
  · rename_i req hreq
    apply Prog.Calls.bind
    · -- only a tool call makes calls
      unfold dispatch
      split
      · trivial
      · split
        · trivial
        · split
          · exact toolsCall_confined htrimmed req
          · trivial
    · intro outcome
      trivial

/-- The arguments name the run and the incident of the claims, both as strings. -/
def CallParams.Names (params : CallParams) (claims : Claims) : Prop :=
  lookup "runId" params.arguments = some (string claims.runId) ∧
    lookup "incidentId" params.arguments = some (string claims.incidentId)

/-- A string argument that is not empty is a string. -/
theorem stringArgument_eq {arguments : List (String × Json String)} {key value : String}
    (hvalue : value ≠ "") (h : stringArgument arguments key = value) :
    lookup key arguments = some (string value) := by
  unfold stringArgument at h
  split at h
  · rename_i s hs
    rw [hs, h]
  · exact absurd h.symm hvalue

/-- A tool call with any other arguments is refused, and the server makes no
call at all for it. -/
theorem serveHTTP_refuses (hrun : claims.runId ≠ "") (hincident : claims.incidentId ≠ "")
    {json : Json String} {req : RpcRequest} (hreq : decodeRequest json = .ok req)
    (hmethod : req.method = "tools/call")
    (hnames : ∀ params, decodeParams req.params = .ok params → ¬ params.Names claims) :
    ∃ error, serveHTTP cfg order (some claims) (some json) =
      .ret ⟨200, { id := req.id, result := none, error := some error }⟩ := by
  have hserve : serveHTTP cfg order (some claims) (some json) =
      toolsCall cfg order (some claims) req >>= fun outcome =>
        Prog.ret ⟨200, rpcResponse req.id outcome⟩ := by
    simp [serveHTTP, hreq, dispatch, hmethod]
  rw [hserve]
  unfold toolsCall
  cases hparams : decodeParams req.params with
  | error message => exact ⟨_, rfl⟩
  | ok params =>
    have hout : ¬ params.InScope claims := by
      intro hscope
      apply hnames params hparams
      exact ⟨stringArgument_eq hrun hscope.1, stringArgument_eq hincident hscope.2⟩
    dsimp only
    rw [if_neg hout]
    exact ⟨_, rfl⟩

/-- The claims of a request that the evidence server admits are those of a
token signed with the shared secret, and none of them is empty. -/
theorem ServiceAuth.middleware_ok {secret : String} {now : ℤ} {header : AuthorizationHeader}
    (h : middleware secret now header = .ok claims) :
    (∃ jwt, header = .bearer (.signed secret "HS256" jwt) ∧
      jwt.Name ⟨claims.workspaceId, claims.runId, claims.incidentId⟩) ∧
    claims.runId ≠ "" ∧ claims.incidentId ≠ "" := by
  unfold middleware at h
  split at h
  · rename_i token
    split at h
    · cases h
    · split at h
      · rename_i jwt hparse
        dsimp only at h
        split at h
        · cases h
        · rename_i hids
          rw [not_or, not_or] at hids
          obtain rfl := Except.ok.inj h
          -- a claim that is missing reads as empty, and is refused
          have hsome : ∀ {x : Option String}, ¬ x.getD "" = "" → x = some (x.getD "") := by
            intro x hx
            cases x with
            | none => exact absurd rfl hx
            | some s => rfl
          cases token with
          | other text => cases hparse
          | signed key algorithm jwt' =>
            simp only [parseToken, Option.ite_none_right_eq_some] at hparse
            obtain ⟨⟨hkey, halg, -⟩, hjwt⟩ := hparse
            obtain rfl := Option.some.inj hjwt
            rw [hkey, halg]
            exact ⟨⟨_, rfl, hsome hids.1, hsome hids.2.1, hsome hids.2.2⟩, hids.2.1, hids.2.2⟩
      · cases h
  · cases h

/-! ### From the manager to the store -/

/-- **Scope confinement**, hop by hop. -/
theorem scope_confinement (secret : String) (db : RcaAgent.Database) (cfg : Config)
    (order : MapOrder) :
    -- a job that the agent accepts, and the token it signs for it, are those of the manager's token
    (∀ now header request job, RcaAgent.startRun secret now db header request = .ok job →
      (∃ jwt, header = .bearer (.signed secret "HS256" jwt) ∧
        jwt.issuer = some "deployment-manager" ∧ "rca-agent" ∈ jwt.audience ∧ jwt.Name job) ∧
      ∀ signedAt, ∃ minted, RcaAgent.mintToken secret signedAt job = .signed secret "HS256" minted ∧
        minted.Name job) ∧
    -- a request that the evidence server admits stays in the scope of its token
    (∀ now header claims, ServiceAuth.middleware secret now header = .ok claims → claims.Trimmed →
      (∃ jwt, header = .bearer (.signed secret "HS256" jwt) ∧
        jwt.Name ⟨claims.workspaceId, claims.runId, claims.incidentId⟩) ∧
      (∀ body, (serveHTTP cfg order (some claims) body).Calls (Confined claims)) ∧
      ∀ json req, decodeRequest json = .ok req → req.method = "tools/call" →
        (∀ params, decodeParams req.params = .ok params → ¬ params.Names claims) →
        ∃ error, serveHTTP cfg order (some claims) (some json) =
          .ret ⟨200, { id := req.id, result := none, error := some error }⟩) := by
  constructor
  · intro now header request job hjob
    refine ⟨RcaAgent.startRun_ok hjob, ?_⟩
    intro signedAt
    exact ⟨_, rfl, rfl, rfl, rfl⟩
  · intro now header claims hadmitted htrimmed
    obtain ⟨htoken, hrun, hincident⟩ := ServiceAuth.middleware_ok hadmitted
    refine ⟨htoken, serveHTTP_confined htrimmed, ?_⟩
    intro json req hreq hmethod hnames
    exact serveHTTP_refuses hrun hincident hreq hmethod hnames

/-- A database with one run. -/
def sampleDatabase : RcaAgent.Database where
  runs := [⟨"run", "workspace", "incident", "deployment", "auto", none, 0⟩]
  incidents := [⟨"incident", "workspace", "app", "warning", none, "title", none, 0, none⟩]
  runIds := by decide
  incidentIds := by decide

/-- The manager's token for that run is accepted, and the agent's token for it
is admitted by the evidence server, in scope. -/
theorem scope_confinement_sample :
    RcaAgent.startRun "0123456789abcdef0123456789abcdef" 100 sampleDatabase
      (.bearer (.signed "0123456789abcdef0123456789abcdef" "HS256"
        ⟨some "deployment-manager", ["rca-agent"], some 90, some 210, none, some "workspace",
          some "run", some "incident"⟩)) ⟨"workspace", "run", "incident"⟩ =
      .ok ⟨"workspace", "run", "incident"⟩ ∧
    (∀ body, (serveHTTP defaultConfig .insertion (some ⟨"workspace", "run", "incident"⟩) body).Calls
      (Confined ⟨"workspace", "run", "incident"⟩)) := by
  refine ⟨by decide, ?_⟩
  have htrimmed : Claims.Trimmed ⟨"workspace", "run", "incident"⟩ := by
    unfold Claims.Trimmed trimmed
    decide
  exact ((scope_confinement "0123456789abcdef0123456789abcdef" sampleDatabase
    defaultConfig .insertion).2 101
    (.bearer (RcaAgent.mintToken "0123456789abcdef0123456789abcdef" 100 ⟨"workspace", "run", "incident"⟩))
    ⟨"workspace", "run", "incident"⟩ (by decide) htrimmed).2.1

end NexCause
