/-
NexCause/SecretSessions.lean

Sessions of the deployment manager whose requests are alike: creations of the
same deployments with other secrets.

The calls to the cluster differ in the contents of Secret objects.  Everything
else is the same: the calls to the database with the rows they write, and the
responses.  The lists of the cluster and the logs of its pods are what the
environment chooses, the same in both runs.

  * `session_alike`         sessions of requests that are alike
  * `secrets_do_not_flow`   a creation, and any later requests
-/
import NexCause.SecretFlow

namespace NexCause

open Program EvidenceService

/-! ### Calls and answers -/

/-- The same call, or two calls of the platform that are alike. -/
inductive ManagerCall.Alike : ManagerCall → ManagerCall → Prop
  | same (c : ManagerCall) : Alike c c
  | platform {c c' : Call} (h : c.Alike c') : Alike (.platform c) (.platform c')

/-- The same answer, or two answers of the platform that are alike. -/
inductive ManagerCall.AnswersAlike :
    (c c' : ManagerCall) → Except ApiError c.Result → Except ApiError c'.Result → Prop
  | same (c : ManagerCall) (r : Except ApiError c.Result) : AnswersAlike c c r r
  | platform {c c' : Call} {r : Except ApiError c.Result} {r' : Except ApiError c'.Result}
      (h : Call.AnswersAlike c c' r r') : AnswersAlike (.platform c) (.platform c') r r'

/-- Calls and answers of two sessions that are alike. -/
def managerCoupling : Coupling ManagerCall ManagerCall.Result ApiError where
  call := ManagerCall.Alike
  answer := ManagerCall.AnswersAlike

/-- The call is one to the database. -/
def ManagerCall.isDatabase : ManagerCall → Bool
  | .platform (.kubernetes _) => false
  | .listPods _ _ => false
  | .listEvents _ => false
  | .readPodLog _ _ _ _ => false
  | _ => true

/-- Calls that are alike are equal, or both to the cluster. -/
theorem ManagerCall.Alike.cases {c c' : ManagerCall} (h : c.Alike c') :
    c = c' ∨ c.isDatabase = false ∧ c'.isDatabase = false := by
  cases h with
  | same => exact .inl rfl
  | platform h =>
    cases h with
    | same => exact .inl rfl
    | create => exact .inr ⟨rfl, rfl⟩
    | replace => exact .inr ⟨rfl, rfl⟩

/-- The calls to the database are the same. -/
theorem databaseCalls_alike {cs cs' : List ManagerCall} (h : List.Forall₂ ManagerCall.Alike cs cs') :
    cs.filter ManagerCall.isDatabase = cs'.filter ManagerCall.isDatabase := by
  induction h with
  | nil => rfl
  | cons hc _ ih =>
    rcases hc.cases with rfl | ⟨hcluster, hcluster'⟩
    · rw [List.filter_cons, List.filter_cons, ih]
    · rw [List.filter_cons_of_neg (by simp [hcluster]), List.filter_cons_of_neg (by simp [hcluster']), ih]

/-! ### The manager -/

theorem ManagerState.Alike.refl (s : ManagerState) : s.Alike s :=
  ⟨_, rfl, _, rfl, .refl _⟩

/-- The tables beside the cluster answer the same. -/
theorem serveDatabase_alike {s s' : ManagerState} (h : s.Alike s') (c : ManagerCall) :
    (s.serveDatabase c).1 = (s'.serveDatabase c).1 ∧
      (s.serveDatabase c).2.Alike (s'.serveDatabase c).2 := by
  obtain ⟨_, rfl, cluster', rfl, hcluster⟩ := h
  cases c <;> exact ⟨rfl, _, rfl, cluster', rfl, hcluster⟩

/-- A row that is inserted on one side is inserted on the other. -/
theorem servePlatform_alike {c c' : Call} (h : c.Alike c') (x : ManagerEnvironment)
    {s s' : ManagerState} (hs : s.Alike s') :
    ManagerCall.AnswersAlike (.platform c) (.platform c') (serveManager (.platform c) x s).1
        (serveManager (.platform c') x s').1 ∧
      (serveManager (.platform c) x s).2.Alike (serveManager (.platform c') x s').2 := by
  obtain ⟨world', rfl, hworld⟩ := hs
  obtain ⟨hanswer, hnext⟩ := serve_alike c c' x.platform _ _ h hworld
  refine ⟨.platform hanswer, ?_⟩
  cases h with
  | create key resourceVersion h => exact ⟨_, rfl, hnext⟩
  | replace key resourceVersion h => exact ⟨_, rfl, hnext⟩
  | same =>
    cases c with
    | createDeployment data =>
      have hplain : (Call.createDeployment data).Plain := fun _ h => nomatch h
      have heq := hanswer.eq hplain
      simp only [serveManager]
      rw [heq]
      exact ⟨_, rfl, hnext⟩
    | _ => exact ⟨_, rfl, hnext⟩

/-- **The manager** answers calls that are alike alike, and stays alike. -/
theorem serveManager_alike : managerCoupling.Serves serveManager ManagerState.Alike := by
  intro c c' x s s' hcall hs
  cases hcall with
  | platform h => exact servePlatform_alike h x hs
  | same =>
    have hdatabase : ∀ c : ManagerCall,
        ManagerCall.AnswersAlike c c (s.serveDatabase c).1 (s'.serveDatabase c).1 ∧
          (s.serveDatabase c).2.Alike (s'.serveDatabase c).2 := by
      intro c
      obtain ⟨hanswer, hnext⟩ := serveDatabase_alike hs c
      rw [hanswer]
      exact ⟨.same _ _, hnext⟩
    cases c with
    | platform c => exact servePlatform_alike (.same c) x hs
    | listPods | listEvents | readPodLog => exact ⟨.same _ _, hs⟩
    | findDeployments | findDeploymentForEvidence | findHealthSamples | createSnapshot =>
      simp only [serveManager]
      split
      · exact ⟨.same _ _, hs⟩
      · exact hdatabase _

/-! ### Programs -/

/-- Programs of the manager that run alike, with the same result. -/
abbrev ManagerAlike {α : Type} (p q : ManagerAction α) : Prop :=
  Prog.Coupled managerCoupling Eq p q

/-- Programs of the platform that run alike do so in the manager. -/
theorem onPlatform_alike {α : Type} {p q : Action α} (h : RunAlike Eq p q) :
    ManagerAlike (onPlatform p) (onPlatform q) := by
  induction h with
  | ret h => exact .ret h
  | throw e => exact .throw e
  | call hcall _ ih =>
    apply Prog.Coupled.call (ManagerCall.Alike.platform hcall)
    intro r r' hr
    cases hr with
    | platform h => exact ih r r' h
    | same => exact ih r r (.same _ r)

theorem AnswersAlike.eq_of_not_platform {c : ManagerCall} (hc : ∀ d, c ≠ .platform d)
    {r r' : Except ApiError c.Result} (h : ManagerCall.AnswersAlike c c r r') : r = r' := by
  cases h with
  | same => rfl
  | platform h => exact absurd rfl (hc _)

/-- A call that the platform does not know gets one answer. -/
theorem performManager_alike {c : ManagerCall} (hc : ∀ d, c ≠ .platform d) :
    ManagerAlike (Prog.perform c) (Prog.perform c) := by
  apply Prog.coupled_perform (ManagerCall.Alike.same c)
  intro r r' hr
  rw [AnswersAlike.eq_of_not_platform hc hr]
  exact .refl r'

theorem findByApp_alike (appId : String) :
    ManagerAlike (DeploymentsService.findByApp appId) (DeploymentsService.findByApp appId) := by
  apply (onPlatform_alike (lookup_alike (findAppOrThrow_calls appId))).bind
  rintro _ _ -
  apply (performManager_alike (c := .findDeployments appId) fun _ h => nomatch h).bind
  rintro deployments _ rfl
  exact .ret rfl

theorem listDeploymentPods_alike («namespace» : String) (labels : Entries) :
    ManagerAlike (KubernetesService.listDeploymentPods «namespace» labels)
      (KubernetesService.listDeploymentPods «namespace» labels) := by
  apply (performManager_alike (c := .listPods «namespace» labels) fun _ h => nomatch h).bind
  rintro pods _ rfl
  exact .ret rfl

theorem listDeploymentEvents_alike («namespace» deploymentName : String) (labels : Entries) :
    ManagerAlike (KubernetesService.listDeploymentEvents «namespace» deploymentName labels)
      (KubernetesService.listDeploymentEvents «namespace» deploymentName labels) := by
  apply (performManager_alike (c := .listEvents «namespace») fun _ h => nomatch h).bind
  rintro events _ rfl
  apply (listDeploymentPods_alike «namespace» labels).bind
  rintro pods _ rfl
  exact .ret rfl

theorem podLogs_alike («namespace» : String) (tailLines sinceSeconds : ℤ) (pods : List Pod) :
    ManagerAlike (KubernetesService.podLogs «namespace» tailLines sinceSeconds pods)
      (KubernetesService.podLogs «namespace» tailLines sinceSeconds pods) := by
  induction pods with
  | nil => exact .ret rfl
  | cons pod rest ih =>
    unfold KubernetesService.podLogs
    split
    · exact .throw _
    · next podName _ =>
      apply (performManager_alike (c := .readPodLog «namespace» podName sinceSeconds tailLines)
        fun _ h => nomatch h).bind
      rintro logs _ rfl
      apply ih.bind
      rintro others _ rfl
      exact .ret rfl

theorem getDeploymentEvidenceLogs_alike («namespace» : String) (labels : Entries)
    (tailLines sinceSeconds : ℤ) :
    ManagerAlike
      (KubernetesService.getDeploymentEvidenceLogs «namespace» labels tailLines sinceSeconds)
      (KubernetesService.getDeploymentEvidenceLogs «namespace» labels tailLines sinceSeconds) := by
  apply (performManager_alike (c := .listPods «namespace» labels) fun _ h => nomatch h).bind
  rintro pods _ rfl
  exact podLogs_alike _ _ _ pods

theorem collectOrError_alike {α : Type} {p : ManagerAction α} (h : ManagerAlike p p) :
    ManagerAlike (collectOrError p) (collectOrError p) := by
  apply Prog.Coupled.tryCatch
  · apply h.bind
    rintro a _ rfl
    exact .ret rfl
  · exact fun e => .ret rfl

/-- What is collected does not show the secrets: no Secret is read for it. -/
theorem collectLive_alike (parseDate : List Char → Option ℤ) (id : String)
    (options : EvidenceWindowOptions) (collectedAt : ℤ) :
    ManagerAlike (EvidenceService.collectLive parseDate id options collectedAt)
      (EvidenceService.collectLive parseDate id options collectedAt) := by
  have hfind : ManagerAlike (findDeploymentForEvidence id) (findDeploymentForEvidence id) := by
    apply (performManager_alike (c := .findDeploymentForEvidence id) fun _ h => nomatch h).bind
    rintro found _ rfl
    cases found with
    | some found => exact .ret rfl
    | none => exact .throw _
  apply hfind.bind
  rintro found _ rfl
  dsimp only
  apply (collectOrError_alike (onPlatform_alike (getDeploymentStatus_alike _ _))).bind
  rintro status _ rfl
  apply (collectOrError_alike (listDeploymentPods_alike _ _)).bind
  rintro pods _ rfl
  apply (collectOrError_alike (listDeploymentEvents_alike _ _ _)).bind
  rintro rawEvents _ rfl
  apply (collectOrError_alike (getDeploymentEvidenceLogs_alike _ _ _ _)).bind
  rintro rawLogs _ rfl
  apply (performManager_alike (c := .findHealthSamples _ _ _) fun _ h => nomatch h).bind
  rintro healthSamples _ rfl
  exact .ret rfl

theorem createSnapshot_alike (parseDate : List Char → Option ℤ) (id : String)
    (options : EvidenceWindowOptions) (collectedAt : ℤ) :
    ManagerAlike (EvidenceService.createSnapshot parseDate id options collectedAt)
      (EvidenceService.createSnapshot parseDate id options collectedAt) := by
  apply (collectLive_alike parseDate id options collectedAt).bind
  rintro evidence _ rfl
  exact performManager_alike (c := .createSnapshot _) fun _ h => nomatch h

/-! ### Sessions -/

/-- The same request, or two creations that are alike. -/
inductive ManagerRequest.Alike : ManagerRequest → ManagerRequest → Prop
  | same (request : ManagerRequest) : Alike request request
  | onDeployment (id : String) {request request' : Request} (h : request.Alike request') :
      Alike (.onDeployment id request) (.onDeployment id request')

theorem managerRequest_alike (config : ServiceConfig) (parseDate : List Char → Option ℤ)
    {request request' : ManagerRequest} (h : request.Alike request') :
    ManagerAlike (request.program config parseDate) (request'.program config parseDate) := by
  have hrespond : ∀ {α : Type} {p q : ManagerAction α} (f : α → ManagerResponse),
      ManagerAlike p q → ManagerAlike (p >>= fun a => pure (f a)) (q >>= fun a => pure (f a)) := by
    intro α p q f h
    apply h.bind
    rintro a _ rfl
    exact .ret rfl
  cases h with
  | onDeployment id h =>
    exact hrespond .onDeployment (onPlatform_alike (request_alike config id h))
  | same =>
    cases request with
    | onDeployment id request =>
      exact hrespond .onDeployment (onPlatform_alike (request_alike config id (.same request)))
    | findByApp appId => exact hrespond .deployments (findByApp_alike appId)
    | collectLive id options now =>
      exact hrespond .evidence (collectLive_alike parseDate id options now)
    | createSnapshot id options now =>
      exact hrespond .snapshot (createSnapshot_alike parseDate id options now)

/-- Two requests that are alike, with the same choices of the environment. -/
def StepsAlike (p p' : ManagerRequest × (ℕ → ManagerEnvironment)) : Prop :=
  p.1.Alike p'.1 ∧ p.2 = p'.2

/-- **Sessions** of requests that are alike, from states that are alike: the
responses are the same, the states stay alike, and so do the calls. -/
theorem session_alike (config : ServiceConfig) (parseDate : List Char → Option ℤ)
    {requests requests' : List (ManagerRequest × (ℕ → ManagerEnvironment))}
    (h : List.Forall₂ StepsAlike requests requests') {s s' : ManagerState} (hs : s.Alike s') :
    (session config parseDate requests s).responses =
        (session config parseDate requests' s').responses ∧
      (session config parseDate requests s).state.Alike
        (session config parseDate requests' s').state ∧
      List.Forall₂ ManagerCall.Alike (session config parseDate requests s).calls
        (session config parseDate requests' s').calls := by
  induction h generalizing s s' with
  | nil => exact ⟨rfl, hs, .nil⟩
  | @cons p p' rest rest' hstep _ ih =>
    obtain ⟨request, env⟩ := p
    obtain ⟨request', env'⟩ := p'
    obtain ⟨hrequest, rfl⟩ := hstep
    obtain ⟨houtcome, hstate, hcalls⟩ :=
      (managerRequest_alike config parseDate hrequest).run serveManager_alike env hs
    obtain ⟨hresponses, hend, hothers⟩ := ih hstate
    refine ⟨?_, hend, List.rel_append hcalls hothers⟩
    exact congrArg₂ List.cons houtcome.eq hresponses

/-- **Secrets do not flow.**  Create a deployment with one set of secret values
or with another, from the same state, with the same generated id and the same
choices of the environment, and let any requests follow.  All responses are the
same, so are the calls to the database with the rows they write, and so is the
database in the end. -/
theorem secrets_do_not_flow (config : ServiceConfig) (parseDate : List Char → Option ℤ)
    (id : String) {request request' : CreateRequest} (h : request.Alike request')
    (env : ℕ → ManagerEnvironment) (later : List (ManagerRequest × (ℕ → ManagerEnvironment)))
    (s : ManagerState) :
    let one := session config parseDate ((.onDeployment id (.create request), env) :: later) s
    let other := session config parseDate ((.onDeployment id (.create request'), env) :: later) s
    one.responses = other.responses ∧
      one.calls.filter ManagerCall.isDatabase = other.calls.filter ManagerCall.isDatabase ∧
      ∃ cluster, other.state = { one.state with world := { one.state.world with cluster } } := by
  have hlater : List.Forall₂ StepsAlike later later := by
    apply List.forall₂_same.mpr
    exact fun p _ => ⟨.same p.1, rfl⟩
  have hrequests : List.Forall₂ StepsAlike
      ((.onDeployment id (.create request), env) :: later)
      ((.onDeployment id (.create request'), env) :: later) :=
    .cons ⟨.onDeployment id (.create h), rfl⟩ hlater
  obtain ⟨hresponses, ⟨world', hstate, cluster', hworld, -⟩, hcalls⟩ :=
    session_alike config parseDate hrequests (ManagerState.Alike.refl s)
  refine ⟨hresponses, databaseCalls_alike hcalls, cluster', ?_⟩
  rw [hstate, hworld]

/-- A request with a secret and a secret file. -/
def secretRequest (password : String) : CreateRequest :=
  { sampleRequest with
    scopes := ["secrets:write"]
    dto :=
      { sampleRequest.dto with
        secrets := some [("DB_PASSWORD", password)]
        secretFiles := some [("key.pem", password)] } }

/-- Nothing fails, and the cluster lists nothing. -/
def quietManager : ManagerEnvironment := ⟨healthy, .ok [], .ok [], .ok []⟩

/-- Its status, its evidence and a snapshot of it. -/
def laterRequests : List (ManagerRequest × (ℕ → ManagerEnvironment)) :=
  [(.onDeployment "1" .getStatus, fun _ => quietManager),
   (.collectLive "1" ⟨none, none, none, none, none, none⟩ 0, fun _ => quietManager),
   (.createSnapshot "1" ⟨none, none, none, none, none, none⟩ 0, fun _ => quietManager)]

def sampleManager : ManagerState := ⟨sampleEmptyWorld, [], [], []⟩

theorem secrets_do_not_flow_sample :
    let one := session sampleConfig (fun _ => none)
      ((.onDeployment "1" (.create (secretRequest "hunter2")), fun _ => quietManager) ::
        laterRequests) sampleManager
    let other := session sampleConfig (fun _ => none)
      ((.onDeployment "1" (.create (secretRequest "correct horse")), fun _ => quietManager) ::
        laterRequests) sampleManager
    one.responses = other.responses ∧
      one.calls.filter ManagerCall.isDatabase = other.calls.filter ManagerCall.isDatabase ∧
      ∃ cluster, other.state = { one.state with world := { one.state.world with cluster } } :=
  have halike : (secretRequest "hunter2").Alike (secretRequest "correct horse") :=
    ⟨_, rfl, _, _, rfl, rfl, rfl⟩
  secrets_do_not_flow sampleConfig (fun _ => none) "1" halike (fun _ => quietManager)
    laterRequests sampleManager

end NexCause
