/-
NexCause/DeploymentPrograms.lean

What the programs of the deployment manager can do, whatever the database and
the cluster answer: which calls they make, on which objects, and what a
creation plans to insert.

Scale, stop, start and restart have one shape, `patchThenUpdate`: read the
record, patch its Deployment, update the record.
-/
import NexCause.DeploymentsService
import NexCause.Interleaving

namespace NexCause

open Program

/-! ### Calls -/

/-- The call reads rows that no program here writes. -/
def Call.IsLookup : Call → Prop
  | .findApp _ => True
  | .findBuild _ => True
  | .findWorkspace _ => True
  | _ => False

/-- A call to the cluster on an object in `S`. -/
def Call.On (S : ObjectKey → Prop) (c : Call) : Prop := ∃ op, c = .kubernetes op ∧ S op.key

theorem Call.On.mono {S T : ObjectKey → Prop} (h : ∀ key, S key → T key) {c : Call} :
    c.On S → c.On T :=
  fun ⟨op, hc, hop⟩ => ⟨op, hc, h _ hop⟩

section Calls

variable {S : ObjectKey → Prop} {key : ObjectKey}

/-- An answer for what is missing makes no further call. -/
theorem onNotFound_calls {α : Type} {P : Call → Prop} {p : Action α} (hp : p.Calls P)
    (error : ApiError) : (onNotFound p error).Calls P := by
  unfold onNotFound
  split
  · exact hp
  · trivial

/-- One call to the cluster. -/
theorem on_perform {op : ClusterOp} (h : S op.key) :
    (Prog.perform (Call.kubernetes op) : Action _).Calls (Call.On S) :=
  Prog.calls_perform.mpr ⟨op, rfl, h⟩

theorem deleteIfExists_on (h : S key) : (deleteIfExists key).Calls (Call.On S) :=
  (on_perform h).tryCatch fun _ => onNotFound_calls (p := pure ()) trivial _

theorem upsert_on (h : S key) (fresh : Manifest) (replacing : Object → Manifest) :
    (upsert key fresh replacing).Calls (Call.On S) := by
  have hread : (readObject key >>= fun body => pure (some body.object) : Action _).Calls
      (Call.On S) := (on_perform h).bind fun _ => trivial
  refine (hread.tryCatch fun _ => onNotFound_calls (p := pure none) trivial _).bind fun existing => ?_
  cases existing with
  | none => exact on_perform h
  | some object => exact (on_perform h).tryCatch fun _ => onNotFound_calls (on_perform h) _

/-- An upsert that may turn into a deletion touches the one object, if it is named. -/
theorem upsertOptional_on {kind : Kind} {kubernetesNamespace : String} {name : Option String}
    {isEmpty : Bool} {m : Manifest} {missing : String}
    (h : ∀ name', name = some name' → S ⟨kind, kubernetesNamespace, name'⟩) :
    (upsertOptional kind kubernetesNamespace name isEmpty m missing).Calls (Call.On S) := by
  have hname : ∀ name', truthy name = some name' → name = some name' :=
    fun name' h => (Option.filter_eq_some_iff.mp h).1
  unfold upsertOptional
  split
  · split
    · exact deleteIfExists_on (h _ (hname _ ‹_›))
    · trivial
  · split
    · exact upsert_on (h _ (hname _ ‹_›)) m _
    · trivial

/-- The namespace and its policies. -/
theorem ensureNamespace_on (config : ServiceConfig) (kubernetesNamespace : String)
    (labels : Entries) :
    (ensureNamespace config kubernetesNamespace labels).Calls
      (Call.On fun key => key.kind = .ns ∨ key.kind = .networkPolicy) := by
  have hpolicies : (reconcileTenantNetworkPolicies config kubernetesNamespace).Calls
      (Call.On fun key => key.kind = .ns ∨ key.kind = .networkPolicy) := by
    unfold reconcileTenantNetworkPolicies
    split
    · trivial
    · refine Prog.Calls.tryCatch ?_ fun _ => trivial
      unfold buildTenantNetworkPolicyManifests
      exact (upsert_on (.inr rfl) _ _).bind fun _ => (upsert_on (.inr rfl) _ _).bind fun _ =>
        (upsert_on (.inr rfl) _ _).bind fun _ => trivial
  have hread : (readObject ⟨.ns, "", kubernetesNamespace⟩ >>= fun _ => pure () : Action Unit).Calls
      (Call.On fun key => key.kind = .ns ∨ key.kind = .networkPolicy) :=
    (on_perform (.inl rfl)).bind fun _ => trivial
  unfold ensureNamespace
  refine (hread.tryCatch fun _ => onNotFound_calls (on_perform (.inl rfl)) _).bind fun _ => ?_
  split
  · exact hpolicies
  · trivial

/-- The objects of a deployment, its routes apart. -/
structure DeployImageInput.Workload (input : DeployImageInput) (S : ObjectKey → Prop) : Prop where
  deployment : S ⟨.deployment, input.«namespace», input.names.deploymentName⟩
  service : S ⟨.service, input.«namespace», input.names.serviceName⟩
  configMap : S ⟨.configMap, input.«namespace», input.names.configMapName⟩
  fileConfigMap : ∀ name, input.names.fileConfigMapName = some name →
    S ⟨.configMap, input.«namespace», name⟩
  secret : ∀ name, input.names.secretName = some name → S ⟨.secret, input.«namespace», name⟩
  secretFiles : ∀ name, input.names.secretFileSecretName = some name →
    S ⟨.secret, input.«namespace», name⟩

variable {input : DeployImageInput}

/-- The routes of a deployment that has some. -/
theorem enableApplicationRouting_calls (hns : S ⟨.ns, "", input.«namespace»⟩)
    (hroute : input.routing.isSome = true →
      S ⟨.httpRoute, input.«namespace», input.names.httpRouteName⟩)
    (hredirect : input.routing.isSome = true →
      S ⟨.httpRoute, input.«namespace», input.names.httpRedirectRouteName⟩) :
    (enableApplicationRouting input).Calls (Call.On S) := by
  unfold enableApplicationRouting
  split
  · trivial
  · rename_i routing hrouting
    have hsome : input.routing.isSome = true := by
      rw [hrouting]
      rfl
    refine (on_perform hns).bind fun _ => ?_
    -- the routes, and their removal when the second one fails
    apply ((on_perform (hroute hsome)).bind fun _ => on_perform (hredirect hsome)).tryCatch
    intro e
    exact (deleteIfExists_on (hredirect hsome)).bind fun _ =>
      (deleteIfExists_on (hroute hsome)).bind fun _ => trivial

/-- A deployment is about the namespace, its workload and its routes. -/
theorem deployImage_calls {config : ServiceConfig}
    (hnamespace : (ensureNamespace config input.«namespace» input.labels).Calls (Call.On S))
    (hworkload : input.Workload S) (hrouting : (enableApplicationRouting input).Calls (Call.On S)) :
    (deployImage config input).Calls (Call.On S) := by
  unfold deployImage
  refine hnamespace.bind fun _ => ?_
  refine (upsert_on hworkload.configMap _ _).bind fun _ => ?_
  refine (upsertOptional_on hworkload.fileConfigMap).bind fun _ => ?_
  refine (upsertOptional_on hworkload.secret).bind fun _ => ?_
  refine (upsertOptional_on hworkload.secretFiles).bind fun _ => ?_
  refine (upsert_on hworkload.deployment _ _).bind fun _ => ?_
  refine (upsert_on hworkload.service _ _).bind fun _ => ?_
  split
  · exact hrouting
  · trivial

end Calls

/-- The name of a record's Deployment object. -/
def Deployment.key (d : Deployment) : ObjectKey :=
  ⟨.deployment, d.«namespace», d.kubernetesDeployment⟩

@[simp] theorem Deployment.update_key (d : Deployment) (u : DeploymentUpdate) :
    (d.update u).key = d.key := rfl

/-! ### The common shape of scale, stop, start and restart -/

/-- Read the record, patch its Deployment, update the record. -/
def patchThenUpdate (id : String) (patch : Deployment → MergePatch)
    (update : Deployment → DeploymentUpdate) : Action Deployment := do
  let deployment ← findOneOrThrow id
  patchObject deployment.key (patch deployment)
  updateDeployment id (update deployment)

theorem restart_eq (id : String) (now : ℕ) :
    DeploymentsService.restart id now =
      patchThenUpdate id (fun _ => .restartedAt now)
        (fun _ => { status := some .creating, lastRestartedAt := some (some now) }) := by
  unfold DeploymentsService.restart patchThenUpdate restartDeployment
  congr 1
  funext d
  show Prog.call _ _ = Prog.call _ _
  congr 1
  funext r
  cases r <;> rfl

/-! ### What scale, stop and start set -/

/-- An update that sets the counts to `n`. -/
structure ScalingUpdate (n : ℕ) (u : DeploymentUpdate) : Prop where
  replicas : u.replicas = some n
  desired : u.desiredReplicas = some n
  status : ∃ st, u.status = some st ∧ (st = .stopped ↔ n = 0)
  lastNonZero : ∃ l, u.lastNonZeroReplicas = some l ∧ l ≠ some 0

/-- Scaling keeps the last size that was not zero, -/
theorem scaleUpdate_scaling {d : Deployment} (hlast : d.lastNonZeroReplicas ≠ some 0)
    {n now : ℕ} : ScalingUpdate n (scaleUpdate n now d) := by
  refine ⟨rfl, rfl, ⟨_, rfl, ?_⟩, ⟨_, rfl, ?_⟩⟩
  · split <;> simp_all
  · split
    · rename_i hpos
      intro h0
      exact absurd (Option.some.inj h0) (by omega)
    · exact hlast

/-- and so does stopping. -/
theorem stopUpdate_scaling {d : Deployment} (hlast : d.lastNonZeroReplicas ≠ some 0) {now : ℕ} :
    ScalingUpdate 0 (stopUpdate now d) := by
  refine ⟨rfl, rfl, ⟨_, rfl, by simp⟩, ⟨_, rfl, ?_⟩⟩
  split
  · rename_i hpos
    intro h0
    exact absurd (Option.some.inj h0) (by omega)
  · exact hlast

theorem startUpdate_scaling {n : ℕ} (hpos : 0 < n) : ScalingUpdate n (startUpdate n) := by
  refine ⟨rfl, rfl, ⟨_, rfl, ?_⟩, ⟨_, rfl, ?_⟩⟩
  · constructor
    · exact fun h => nomatch h
    · omega
  · intro h0
    exact absurd (Option.some.inj h0) (by omega)

/-- A start asks for one replica at least. -/
theorem startReplicas_pos {requested : Option ℕ} {d : Deployment}
    (hreq : ∀ n, requested = some n → 1 ≤ n) (hlast : d.lastNonZeroReplicas ≠ some 0) :
    0 < startReplicas requested d := by
  unfold startReplicas
  cases requested with
  | some n => exact hreq n rfl
  | none =>
    cases hd : d.lastNonZeroReplicas with
    | some n =>
      have hn : n ≠ 0 := fun h => hlast (by rw [hd, h])
      show 0 < n
      omega
    | none =>
      show 0 < if d.desiredReplicas > 0 then d.desiredReplicas else 1
      split <;> omega

/-- A patch of the replicas gives the Deployment its count. -/
theorem specReplicas_patch {o : Object} {n₀ : ℕ} (h : o.specReplicas = some n₀) (rv n : ℕ) :
    Object.specReplicas ⟨rv, o.manifest.patch (.replicas n)⟩ = some n := by
  unfold Object.specReplicas at h ⊢
  cases hm : o.manifest with
  | deployment labels spec => rfl
  | _ => rw [hm] at h; cases h

/-! ### What a creation plans -/

/-- What `create` inserts and deploys, whatever its reads return. -/
structure Planned (request : CreateRequest) (data : Deployment) (input : DeployImageInput) :
    Prop where
  id : data.id = request.deploymentId
  status : data.status = .creating
  desired : data.desiredReplicas = data.replicas
  replicas : data.replicas = request.dto.replicas.getD 1
  lastNonZero : data.lastNonZeroReplicas = if data.replicas > 0 then some data.replicas else none
  stoppedAt : data.stoppedAt = none
  deployed : input.replicas = data.replicas
  kubernetesNamespace : input.«namespace» = data.«namespace»
  base : ∃ appName, data.kubernetesDeployment = baseName appName request.deploymentId
  names : input.names = resourceNamesOf data.kubernetesDeployment
  recorded : deploymentToResourceNames data = .ok input.names
  routed : (truthy data.publicHostname).isSome = input.routing.isSome

theorem truthy_append {a b : String} (h : b ≠ "") : truthy (some (a ++ b)) = some (a ++ b) := by
  unfold truthy
  have hne : a ++ b ≠ "" := by
    intro hab
    exact h (String.append_eq_empty_iff.mp hab).2
  simp [hne]

/-- The host name of a routed deployment is not empty. -/
theorem requestedRouting_hostname {config : ServiceConfig} {request : CreateRequest} {app : App}
    {routing : Option ApplicationRoutingInput}
    (h : requestedRouting config request app = .ok routing) :
    (truthy (routing.map ApplicationRoutingInput.hostname)).isSome = routing.isSome := by
  unfold requestedRouting at h
  split at h
  · unfold applicationRouting at h
    split at h
    · cases h
    · unfold buildPublicHostname at h
      dsimp only at h
      split at h
      · cases h
      · rename_i hostname hhost
        split at hhost
        · obtain rfl := Except.ok.inj h
          obtain rfl := Option.some.inj hhost
          rw [Option.map_some, String.append_assoc, truthy_append]
          · rfl
          · intro hdot
            exact absurd (String.append_eq_empty_iff.mp hdot).1 (by decide)
        · cases hhost
  · obtain rfl := Except.ok.inj h
    rfl

/-- A record that is assembled is a planned one. -/
theorem assembleDeployment_planned {config : ServiceConfig} {request : CreateRequest} {app : App}
    {image workspaceId kubernetesNamespace : String} {p : Deployment × DeployImageInput}
    (h : assembleDeployment config request app image workspaceId kubernetesNamespace = .ok p) :
    Planned request p.1 p.2 := by
  unfold assembleDeployment at h
  obtain ⟨files, -, h⟩ := except_bind_ok h
  obtain ⟨secretFiles, -, h⟩ := except_bind_ok h
  obtain ⟨routing, hrouting, h⟩ := except_bind_ok h
  dsimp only at h
  split at h
  · cases h
  · cases h
  · rename_i port hport
    obtain rfl := Except.ok.inj h
    refine ⟨rfl, rfl, rfl, rfl, rfl, rfl, rfl, rfl, ⟨app.name, rfl⟩, rfl, ?_,
      requestedRouting_hostname hrouting⟩
    unfold deploymentToResourceNames
    have hname : truthy (some (buildResourceNames app.name request.deploymentId).configMapName) =
        some (buildResourceNames app.name request.deploymentId).configMapName :=
      truthy_append (by decide)
    rw [hname]
    rfl

theorem calls_liftExcept {α : Type} {P : Call → Prop} {r : Except ApiError α} :
    (liftExcept r).Calls P := Prog.calls_ofExcept

/-- The image is looked up, and nothing written. -/
theorem resolveDeploymentImage_calls (appId : String) (dto : CreateDeploymentDto) :
    (resolveDeploymentImage appId dto).Calls Call.IsLookup := by
  unfold resolveDeploymentImage
  split
  · trivial
  · trivial
  · trivial
  · exact (Prog.calls_perform.mpr trivial).bind fun _ => calls_liftExcept

theorem findAppOrThrow_calls (appId : String) : (findAppOrThrow appId).Calls Call.IsLookup := by
  refine (Prog.calls_perform.mpr trivial).bind fun app => ?_
  cases app <;> trivial

theorem workspaceNamespace_calls (workspaceId : String) :
    (workspaceNamespace workspaceId).Calls Call.IsLookup := by
  refine (Prog.calls_perform.mpr trivial).bind fun workspace => ?_
  cases workspace <;> trivial

/-- Before its insertion, a creation only reads. -/
theorem planDeployment_calls (config : ServiceConfig) (request : CreateRequest) :
    (planDeployment config request).Calls Call.IsLookup := by
  have hrest : ∀ app, (planForApp config request app).Calls Call.IsLookup := fun app =>
    (resolveDeploymentImage_calls _ _).bind fun _ => calls_liftExcept.bind fun _ =>
      (workspaceNamespace_calls _).bind fun _ => calls_liftExcept
  unfold planDeployment
  split
  · exact calls_liftExcept.bind fun _ => (findAppOrThrow_calls _).bind hrest
  · exact (findAppOrThrow_calls _).bind hrest

/-- What is planned for a request is planned from it. -/
theorem planDeployment_returns (config : ServiceConfig) (request : CreateRequest) :
    (planDeployment config request).Returns fun p => Planned request p.1 p.2 := by
  have hany : ∀ {α : Type} (p : Action α), p.Returns fun _ => True :=
    fun p => Prog.Returns.of_forall (fun _ => trivial) p
  have hrest : ∀ app, (planForApp config request app).Returns fun p => Planned request p.1 p.2 :=
    fun app => (hany _).bind fun _ _ => (hany _).bind fun _ _ => (hany _).bind fun _ _ =>
      Prog.returns_ofExcept.mpr fun _ hp => assembleDeployment_planned hp
  unfold planDeployment
  split
  · exact (hany _).bind fun _ _ => (hany _).bind fun app _ => hrest app
  · exact (hany _).bind fun app _ => hrest app

/-- What a creation plans when nothing fails. -/
def plannedOutcome (config : ServiceConfig) (request : CreateRequest) (w : World) :
    Except ApiError (Deployment × DeployImageInput) :=
  ((planDeployment config request).run serve (fun _ => healthy) w).outcome

theorem plannedOutcome_planned {config : ServiceConfig} {request : CreateRequest} {w : World}
    {p : Deployment × DeployImageInput} (h : plannedOutcome config request w = .ok p) :
    Planned request p.1 p.2 := (planDeployment_returns config request).run h

/-- When its reads are answered from one world, a program that only reads ends
as it does alone in this world. -/
theorem lookups_run {α : Type} {p : Action α} (hp : p.Calls Call.IsLookup) {w : World}
    {K : Prog.Contract Call Call.Result ApiError (List Call)} (hpre : ∀ c h, c.IsLookup → K.pre c h)
    (hpost : ∀ c h r h', c.IsLookup → K.post c h r h' →
      r = (serve c healthy w).1 ∧ h' = h ++ [c]) {h : List Call} (hh : ∀ c ∈ h, c.IsLookup) :
    p.Meets K (fun r h' => r = (p.run serve (fun _ => healthy) w).outcome ∧
      ∀ c ∈ h', c.IsLookup) h := by
  induction p generalizing h with
  | ret a => exact ⟨rfl, hh⟩
  | throw e => exact ⟨rfl, hh⟩
  | call c k ih =>
    obtain ⟨hc, hk⟩ := hp
    have hstate : (serve c healthy w).2 = w := by
      cases c <;> first | rfl | exact hc.elim
    refine ⟨hpre c h hc, fun r h' hr => ?_⟩
    obtain ⟨rfl, rfl⟩ := hpost c h r h' hc hr
    have hrest := ih (serve c healthy w).1 (hk _) (h := h ++ [c]) (by
      intro c' hc'
      rcases List.mem_append.mp hc' with hc' | hc'
      · exact hh c' hc'
      · exact List.mem_singleton.mp hc' ▸ hc)
    show Prog.Meets _ _ (fun r h' => r = ((k (serve c healthy w).1).run serve (fun _ => healthy)
      (serve c healthy w).2).outcome ∧ _) _
    rw [hstate]
    exact hrest

/-! ### A deployment to run on -/

def sampleConfig : ServiceConfig where
  tenantNetworkPolicyEnabled := false
  applicationRoutingEnabled := false
  applicationGatewayName := "shared"
  applicationGatewayNamespace := "gateway"
  applicationWildcardHostname := "*.apps.example"
  gatewayAccessNamespaceLabelKey := "gateway-access"
  gatewayAccessNamespaceLabelValue := "true"
  observabilityEnabled := false
  otelExporterOtlpEndpoint := ""
  otelExporterOtlpProtocol := ""

def sampleDeployment : Deployment where
  id := "1"
  workspaceId := "w"
  appId := "a"
  buildId := none
  «namespace» := "ns"
  image := "i"
  replicas := 1
  desiredReplicas := 1
  lastNonZeroReplicas := some 1
  port := 80
  status := .running
  kubernetesDeployment := "a-1"
  kubernetesService := "a-1-svc"
  kubernetesConfigMap := some "a-1-env"
  kubernetesFileConfigMap := some "a-1-files"
  kubernetesSecret := some "a-1-secret"
  kubernetesSecretFiles := some "a-1-secret-files"
  publicHostname := none
  stoppedAt := none
  lastRestartedAt := none
  deletedAt := none
  runtimeConfigs := []

def sampleObject : Object where
  resourceVersion := 1
  manifest := .deployment []
    { replicas := 1
      matchLabels := []
      templateLabels := []
      restartedAt := none
      image := "i"
      containerPort := 80
      envFrom := []
      volumes := []
      volumeMounts := [] }

/-- One workspace with one app and its deployment. -/
def sampleWorld : World where
  apps := [⟨"a", "a", some 80⟩]
  builds := []
  workspaces := [⟨"w", "ns"⟩]
  deployments := Function.update (fun _ => none) "1" (some sampleDeployment)
  cluster :=
    { objects := Function.update (fun _ => none) sampleDeployment.key (some sampleObject)
      revision := 1 }

/-! ### The objects of a deployment -/

/-- The objects of the deployment with names on `base`, in the order in which
they are created. -/
def deploymentObjects (kubernetesNamespace base : String) : List ObjectKey :=
  [⟨.configMap, kubernetesNamespace, base ++ "-env"⟩,
   ⟨.configMap, kubernetesNamespace, base ++ "-files"⟩,
   ⟨.secret, kubernetesNamespace, base ++ "-secret"⟩,
   ⟨.secret, kubernetesNamespace, base ++ "-secret-files"⟩,
   ⟨.deployment, kubernetesNamespace, base⟩,
   ⟨.service, kubernetesNamespace, base ++ "-svc"⟩,
   ⟨.httpRoute, kubernetesNamespace, base ++ "-route"⟩,
   ⟨.httpRoute, kubernetesNamespace, base ++ "-redirect"⟩]

/-- The objects of a deployment are different ones. -/
theorem deploymentObjects_nodup (kubernetesNamespace base : String) :
    (deploymentObjects kubernetesNamespace base).Nodup := by
  simp [deploymentObjects, String.append_right_inj]

/-- The namespace of a deployment, the base of its names, and whether it is
routed. -/
structure Naming where
  kubernetesNamespace : String
  base : String
  routed : Bool

/-- The objects of the deployment that has the names. -/
def Naming.objects (n : Naming) : List ObjectKey := deploymentObjects n.kubernetesNamespace n.base

/-- The objects the deletion deletes. -/
def Naming.deleted (n : Naming) : List ObjectKey :=
  n.objects.filter fun key => n.routed || key.kind ≠ .httpRoute

/-- A record with this naming. -/
structure Naming.Of (n : Naming) (d : Deployment) : Prop where
  kubernetesNamespace : d.«namespace» = n.kubernetesNamespace
  base : d.kubernetesDeployment = n.base
  names : deploymentToResourceNames d = .ok (resourceNamesOf n.base)

theorem Naming.objects_of_deleted {n : Naming} {key : ObjectKey} (h : key ∈ n.deleted) :
    key ∈ n.objects := List.mem_of_mem_filter h

/-- The objects in the order in which they are deleted. -/
def Naming.deletionOrder (n : Naming) : List ObjectKey :=
  (if n.routed then
    [⟨.httpRoute, n.kubernetesNamespace, n.base ++ "-redirect"⟩,
     ⟨.httpRoute, n.kubernetesNamespace, n.base ++ "-route"⟩] else []) ++
  [⟨.deployment, n.kubernetesNamespace, n.base⟩,
   ⟨.service, n.kubernetesNamespace, n.base ++ "-svc"⟩,
   ⟨.configMap, n.kubernetesNamespace, n.base ++ "-env"⟩,
   ⟨.configMap, n.kubernetesNamespace, n.base ++ "-files"⟩,
   ⟨.secret, n.kubernetesNamespace, n.base ++ "-secret"⟩,
   ⟨.secret, n.kubernetesNamespace, n.base ++ "-secret-files"⟩]

theorem Naming.deletionOrder_nodup (n : Naming) : n.deletionOrder.Nodup := by
  unfold deletionOrder
  split <;> simp [String.append_right_inj]

theorem Naming.mem_deletionOrder {n : Naming} {key : ObjectKey} (hkey : key ∈ n.deleted) :
    key ∈ n.deletionOrder := by
  obtain ⟨hobj, hkind⟩ := List.mem_filter.mp hkey
  simp only [objects, deploymentObjects, List.mem_cons, List.not_mem_nil, or_false] at hobj
  unfold deletionOrder
  rcases hobj with rfl | rfl | rfl | rfl | rfl | rfl | rfl | rfl <;> simp_all

/-- A name with a suffix is not empty, and its object is deleted as any other. -/
theorem deleteOptional_eq {kind : Kind} {kubernetesNamespace base suffix : String}
    (h : suffix ≠ "") :
    deleteOptional kind kubernetesNamespace (some (base ++ suffix)) =
      deleteIfExists ⟨kind, kubernetesNamespace, base ++ suffix⟩ := by
  unfold deleteOptional
  rw [truthy_append h]

/-- The deletion of the objects deletes them one by one. -/
theorem deleteDeploymentResources_eq (n : Naming) :
    deleteDeploymentResources n.kubernetesNamespace (resourceNamesOf n.base) n.routed =
      n.deletionOrder.forM deleteIfExists := by
  unfold deleteDeploymentResources resourceNamesOf Naming.deletionOrder
  dsimp only
  rw [deleteOptional_eq (by decide), deleteOptional_eq (by decide), deleteOptional_eq (by decide)]
  split
  · simp only [List.cons_append, List.nil_append, List.forM, Prog.pure_eq, Prog.bind_ret_unit]
    rfl
  · simp only [List.nil_append, List.forM, Prog.pure_eq, Prog.bind_ret_unit]

/-! ### Requests over one world -/

/-- The requests over a world, each at its beginning. -/
def requestPool (config : ServiceConfig) (id : String) (w : World) (requests : List Request) :
    Pool Request Call Call.Result ApiError Response World :=
  Pool.start w (requests.map fun q => (q, q.program config id))

/-- The programs `is` make one call each, in this order, and nothing fails. -/
def schedule (is : List ℕ) : List (ℕ × Environment) := is.map fun i => (i, healthy)

theorem schedule_healthy (is : List ℕ) : ∀ l ∈ schedule is, l.2.Healthy := by
  intro l hl
  obtain ⟨i, -, rfl⟩ := List.mem_map.mp hl
  exact healthy_healthy

/-- The same workspace and app without a deployment. -/
def sampleEmptyWorld : World :=
  { sampleWorld with
    deployments := fun _ => none
    cluster := ⟨fun _ => none, 0⟩ }

/-- A call to the cluster fails. -/
def clusterFault : Environment := ⟨some ⟨.error "timeout", rfl⟩, none, healthy.status, false⟩

/-- A call to the cluster has its effect, and its answer is lost. -/
def lostAnswer : Environment := { clusterFault with tookEffect := true }

/-- A request to deploy an image, with an empty list of everything else. -/
def sampleRequest : CreateRequest where
  workspaceId := some "w"
  scopes := []
  appId := "a"
  deploymentId := "1"
  dto :=
    { image := some "i"
      buildId := none
      port := none
      replicas := none
      expose := none
      env := none
      secrets := none
      files := none
      secretFiles := none }

end NexCause
