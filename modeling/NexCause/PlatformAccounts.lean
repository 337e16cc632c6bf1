/-
NexCause/PlatformAccounts.lean

What the rows of the deployment manager say about its cluster.

The system is any number of requests on any deployments and builds, beside the
controllers that start and stop pods.  A row says by its id, its names and its
other columns that no update touches which objects there may be, and what is in
them, but for what the cluster assigns (`AccountedFor`).

Main results: the calls that keep it so (`admissible_step`), and that the
controllers do (`move_step`).
-/
import NexCause.DeployedObjects
import NexCause.NetworkPolicies
import NexCause.RelyGuarantee
import NexCause.RouteRollback
import NexCause.TenantPolicies

namespace NexCause

open Program Prog Transition

/-! ### The system -/

structure RunningPod extends NetworkPod where
  image : String
  containerPort : ℕ
  deriving DecidableEq, Repr

structure PlatformState where
  world : World
  /-- the rows as they were inserted -/
  created : List Deployment
  pods : List RunningPod

abbrev PlatformState.objects (s : PlatformState) : ObjectKey → Option Object :=
  s.world.cluster.objects

/-- The row that a call has inserted. -/
def insertedBy : (c : Call) → Except ApiError c.Result → List Deployment
  | .createDeployment data, .ok _ => [data]
  | _, _ => []

/-- Serve a call of the deployment manager, and write down what it inserts. -/
def servePlatform : Service Call Call.Result ApiError Environment PlatformState := fun c x s =>
  let answer := serve c x s.world
  (answer.1,
    { s with world := answer.2, created := s.created ++ insertedBy c answer.1 })

/-- What the controllers of the cluster do. -/
inductive ControllerMove
  | startPod (key : ObjectKey) (templateHash : String)
  | startJobPod (key : ObjectKey) (uid : String)
  | stopPod (index : ℕ)
  deriving DecidableEq, Repr

def ControllerMove.apply : ControllerMove → PlatformState → Option PlatformState
  | .startPod key templateHash, s =>
      match s.objects key with
      | some ⟨_, .deployment _ spec⟩ =>
          if admitted (spec.podLabels templateHash) then
            some { s with pods := s.pods ++
              [⟨⟨key.«namespace», spec.podLabels templateHash⟩, spec.image, spec.containerPort⟩] }
          else none
      | _ => none
  | .startJobPod key uid, s =>
      match s.objects key with
      | some ⟨_, .job _ spec⟩ =>
          if admitted (spec.podLabels uid key.name) then
            some { s with pods := s.pods ++
              [⟨⟨key.«namespace», spec.podLabels uid key.name⟩,
                (spec.containers.head?.map JobContainer.image).getD "", 0⟩] }
          else none
      | _ => none
  | .stopPod index, s => some { s with pods := s.pods.eraseIdx index }

/-- A request, to the deployments service or to the builds service. -/
inductive PlatformRequest
  | deployment (id : String) (request : Request)
  | dockerfileBuild (input : CreateBuildJobInput) (workspaceId appId buildId : String)
  | buildpackBuild (input : CreateBuildpackJobInput) (workspaceId appId buildId : String)

inductive PlatformResponse
  | deployment (response : Response)
  | build
  deriving DecidableEq, Repr

def PlatformRequest.program (config : ServiceConfig) : PlatformRequest → Action PlatformResponse
  | .deployment id request => do return .deployment (← request.program config id)
  | .dockerfileBuild input workspaceId appId buildId => do
      createBuildJob config { input with labels := buildJobLabels workspaceId appId buildId }
      return .build
  | .buildpackBuild input workspaceId appId buildId => do
      createBuildpackJob config { input with labels := buildJobLabels workspaceId appId buildId }
      return .build

abbrev PlatformPool : Type :=
  Pool PlatformRequest Call Call.Result ApiError PlatformResponse PlatformState

def platformPool (config : ServiceConfig) (s : PlatformState) (requests : List PlatformRequest) :
    PlatformPool :=
  Pool.start s (requests.map fun q => (q, q.program config))

abbrev platformStep : PlatformPool → (ℕ × Environment) ⊕ ControllerMove → Option PlatformPool :=
  Terms.beside servePlatform ControllerMove.apply

/-! ### What a row says about the cluster -/

/-- A row without the columns that updates write. -/
def Deployment.identity (d : Deployment) : Deployment :=
  { d with
    replicas := 0
    desiredReplicas := 0
    lastNonZeroReplicas := none
    status := .creating
    publicHostname := none
    stoppedAt := none
    lastRestartedAt := none
    deletedAt := none }

@[simp] theorem Deployment.update_identity (d : Deployment) (u : DeploymentUpdate) :
    (d.update u).identity = d.identity := rfl

/-- A manifest without what the cluster assigns and patches change. -/
def Manifest.core : Manifest → Manifest
  | .ns _ => .ns []
  | .deployment labels spec => .deployment labels { spec with replicas := 0, restartedAt := none }
  | .service labels spec => .service labels { spec with address := ⟨none, none, none, none⟩ }
  | m => m

@[simp] theorem Manifest.core_patch (m : Manifest) (p : MergePatch) :
    (m.patch p).core = m.core := by
  cases m <;> cases p <;> rfl

/-- The row and the input are those of one creation. -/
def ComesFrom (config : ServiceConfig) (d : Deployment) (input : DeployImageInput) : Prop :=
  ∃ request app image workspaceId «namespace»,
    assembleDeployment config request app image workspaceId «namespace» = .ok (d, input)

/-- An object with a name that may be absent, if it has content. -/
def writtenOptional (kind : Kind) («namespace» : String) (name : Option String) (isEmpty : Bool)
    (m : Manifest) : List (ObjectKey × Manifest) :=
  if isEmpty then [] else (truthy name).toList.map fun name => (⟨kind, «namespace», name⟩, m)

/-- The objects that `deployImage` writes. -/
def DeployImageInput.written (input : DeployImageInput) : List (ObjectKey × Manifest) :=
  [(⟨.configMap, input.«namespace», input.names.configMapName⟩,
    .configMap input.labels input.env)] ++
  writtenOptional .configMap input.«namespace» input.names.fileConfigMapName
    (input.files.items.length = 0) (.configMap input.labels input.files.data) ++
  writtenOptional .secret input.«namespace» input.names.secretName
    (input.secrets.length = 0) (.secret input.labels input.secrets) ++
  writtenOptional .secret input.«namespace» input.names.secretFileSecretName
    (input.secretFiles.items.length = 0) (.secret input.labels input.secretFiles.data) ++
  [(⟨.deployment, input.«namespace», input.names.deploymentName⟩, deploymentManifest input),
   (⟨.service, input.«namespace», input.names.serviceName⟩,
     buildServiceManifest input.labels input.port ⟨none, none, none, none⟩)] ++
  generatedRoutes input

/-- The object is one that the input writes, up to what others may change in it. -/
def DeployImageInput.Writes (input : DeployImageInput) (key : ObjectKey) (m : Manifest) : Prop :=
  ∃ entry ∈ input.written, entry.1 = key ∧ m.core = entry.2.core

/-- The row records the object. -/
def Records (config : ServiceConfig) (d : Deployment) (key : ObjectKey) (m : Manifest) : Prop :=
  ∃ input, ComesFrom config d input ∧ input.Writes key m

/-- The pod is one of the row's Deployment. -/
structure RunningPod.IsOf (config : ServiceConfig) (d : Deployment) (pod : RunningPod) : Prop where
  placed : pod.«namespace» = d.«namespace»
  image : pod.image = d.image
  port : pod.containerPort = d.port
  made : ∃ input, ComesFrom config d input ∧ MakesPod (deploymentManifest input) pod.labels

/-- What the database says about where a row comes from. -/
structure Provenance (w : World) (d : Deployment) : Prop where
  app : ∃ app ∈ w.apps, app.id = d.appId ∧ d.kubernetesDeployment = baseName app.name d.id
  workspace : ∃ workspace ∈ w.workspaces, workspace.id = d.workspaceId ∧
    workspace.kubernetesNamespace = d.«namespace»
  /-- the image of a build is that of a build of the app that has succeeded -/
  build : ∀ buildId, truthy d.buildId = some buildId → ∃ build ∈ w.builds, build.id = buildId ∧
    build.appId = d.appId ∧ build.status = .succeeded ∧ build.image = some d.image

/-- Routes of the namespace may be attached to the gateway. -/
def Cluster.GrantsAccess (c : Cluster) (config : ServiceConfig) («namespace» : String) : Prop :=
  ∃ resourceVersion labels, c.objects ⟨.ns, "", «namespace»⟩ = some ⟨resourceVersion, .ns labels⟩ ∧
    labels.lookup config.gatewayAccessNamespaceLabelKey =
      some config.gatewayAccessNamespaceLabelValue

/-- Where an object comes from. -/
def HasSource (config : ServiceConfig) (created : List Deployment) (key : ObjectKey)
    (m : Manifest) : Prop :=
  match key.kind with
  | .ns => ∃ labels, m = .ns labels
  | .networkPolicy => config.tenantNetworkPolicyEnabled = true ∧
      ∃ policy ∈ config.tenantPolicies, key.name = policy.1 ∧ m = .networkPolicy policy.2
  | .job => IsBuildJob m
  | _ => ∃ d ∈ created, Records config d key m

/-- The database accounts for the cluster. -/
structure AccountedFor (config : ServiceConfig) (s : PlatformState) : Prop where
  /-- the rows are those that were inserted, and stay what they are -/
  rows : ∀ id d, s.world.deployments id = some d → ∃ d₀ ∈ s.created, d₀.id = id ∧
    d₀.identity = d.identity
  inserted : ∀ d₀ ∈ s.created, ∃ d, s.world.deployments d₀.id = some d ∧ d.identity = d₀.identity
  distinct : (s.created.map Deployment.id).Nodup
  planned : ∀ d ∈ s.created, (∃ input, ComesFrom config d input) ∧ Provenance s.world d
  objects : ∀ key o, s.objects key = some o → HasSource config s.created key o.manifest
  pods : ∀ pod ∈ s.pods, (∃ d ∈ s.created, pod.IsOf config d) ∨
    ∃ m, IsBuildJob m ∧ MakesPod m pod.labels
  /-- no workload without the policies of its namespace -/
  guarded : config.tenantNetworkPolicyEnabled = true → ∀ key o, s.objects key = some o →
    key.kind.IsWorkload = true → s.world.cluster.HoldsPolicies config key.«namespace»
  guardedPods : config.tenantNetworkPolicyEnabled = true → ∀ pod ∈ s.pods,
    s.world.cluster.HoldsPolicies config pod.«namespace»
  /-- no route in a namespace from which the gateway takes none -/
  routed : ∀ key o, s.objects key = some o → key.kind = .httpRoute →
    s.world.cluster.GrantsAccess config key.«namespace»

/-- What a step leaves as it is. -/
structure Preserves (config : ServiceConfig) (s t : PlatformState) : Prop where
  created : s.created <+: t.created
  apps : t.world.apps = s.world.apps
  builds : t.world.builds = s.world.builds
  workspaces : t.world.workspaces = s.world.workspaces
  policies : ∀ «namespace», ∀ policy ∈ config.tenantPolicies,
    Stored ⟨.networkPolicy, «namespace», policy.1⟩ (.networkPolicy policy.2) s.objects →
      Stored ⟨.networkPolicy, «namespace», policy.1⟩ (.networkPolicy policy.2) t.objects
  access : ∀ «namespace», s.world.cluster.GrantsAccess config «namespace» →
    t.world.cluster.GrantsAccess config «namespace»

def platformTerms (config : ServiceConfig) : Terms PlatformState where
  keeps := AccountedFor config
  allows := Preserves config
  refl _ := ⟨List.prefix_rfl, rfl, rfl, rfl, fun _ _ _ h => h, fun _ h => h⟩
  trans _ _ _ h h' :=
    ⟨h.created.trans h'.created, h'.apps.trans h.apps, h'.builds.trans h.builds,
      h'.workspaces.trans h.workspaces,
      fun ns policy hpolicy hs => h'.policies ns policy hpolicy (h.policies ns policy hpolicy hs),
      fun ns hs => h'.access ns (h.access ns hs)⟩

/-! ### Calls that keep it so -/

/-- The object may be written. -/
structure MayBeWritten (config : ServiceConfig) (s : PlatformState) (key : ObjectKey)
    (m : Manifest) : Prop where
  source : HasSource config s.created key m
  guarded : config.tenantNetworkPolicyEnabled = true → key.kind.IsWorkload = true →
    s.world.cluster.HoldsPolicies config key.«namespace»
  access : key.kind = .httpRoute → s.world.cluster.GrantsAccess config key.«namespace»

/-- The call may be made, after what has been done so far. -/
def Admissible (config : ServiceConfig) (s : PlatformState) : Call → Prop
  | .createDeployment data => (∃ input, ComesFrom config data input) ∧ Provenance s.world data
  | .kubernetes (.create key _ m) => MayBeWritten config s key m
  | .kubernetes (.replace key _ m) => key.kind ≠ .ns ∧ MayBeWritten config s key m
  | .kubernetes (.delete key) => key.kind.IsWorkload = true
  | .kubernetes (.patch key (.label k v)) => key.kind = .ns ∧
      k = config.gatewayAccessNamespaceLabelKey ∧ v = config.gatewayAccessNamespaceLabelValue
  | .kubernetes (.patch key _) => key.kind = .deployment
  | _ => True

section Calls

variable {config : ServiceConfig} {s : PlatformState} {c : Cluster} {key : ObjectKey} {m : Manifest}

theorem DeployImageInput.Writes.core {input : DeployImageInput} {m' : Manifest}
    (h : input.Writes key m) (hcore : m'.core = m.core) : input.Writes key m' := by
  obtain ⟨entry, hentry, hkey, hm⟩ := h
  exact ⟨entry, hentry, hkey, hcore.trans hm⟩

/-- A Deployment may be patched. -/
theorem HasSource.patch {created : List Deployment} (h : HasSource config created key m)
    (hkind : key.kind = .deployment ∨ key.kind = .ns) (p : MergePatch) :
    HasSource config created key (m.patch p) := by
  unfold HasSource at h ⊢
  rcases hkind with hkind | hkind
  · rw [hkind] at h ⊢
    obtain ⟨d, hd, input, hfrom, hwrites⟩ := h
    exact ⟨d, hd, input, hfrom, hwrites.core (m.core_patch p)⟩
  · rw [hkind] at h ⊢
    obtain ⟨labels, rfl⟩ := h
    cases p <;> exact ⟨_, rfl⟩

theorem HasSource.more {created more : List Deployment} (h : HasSource config created key m)
    (hbegins : created <+: more) : HasSource config more key m := by
  unfold HasSource at h ⊢
  split at h
  · exact h
  · exact h
  · exact h
  · obtain ⟨d, hd, hrecords⟩ := h
    exact ⟨d, hbegins.subset hd, hrecords⟩

/-- What a call makes of the cluster. -/
theorem Cluster.serve_change (op : ClusterOp) (status : DeploymentConditions) (c : Cluster) :
    (c.serve op status).2 = c ∨
    (∃ resourceVersion m, op = .create op.key resourceVersion m ∧ c.objects op.key = none ∧
      (c.serve op status).2 = c.put op.key m) ∨
    (∃ resourceVersion m, op = .replace op.key resourceVersion m ∧
      (c.serve op status).2 = c.put op.key m) ∨
    (∃ p o, op = .patch op.key p ∧ c.objects op.key = some o ∧
      (c.serve op status).2 = c.put op.key (o.manifest.patch p)) ∨
    op = .delete op.key ∧ (c.serve op status).2 = c.remove op.key := by
  cases op with
  | read key =>
    left
    simp only [serve]
    split <;> rfl
  -- a write that finds the wrong object changes nothing
  | create key resourceVersion m =>
    simp only [serve]
    split
    · exact .inl rfl
    · exact .inr (.inl ⟨none, m, rfl, ‹_›, rfl⟩)
    · exact .inl rfl
  | replace key resourceVersion m =>
    simp only [serve]
    split
    · exact .inl rfl
    · split
      · exact .inr (.inr (.inl ⟨resourceVersion, m, rfl, rfl⟩))
      · exact .inl rfl
  | delete key =>
    simp only [serve]
    split
    · exact .inl rfl
    · exact .inr (.inr (.inr (.inr ⟨rfl, rfl⟩)))
  | patch key p =>
    simp only [serve]
    split
    · exact .inl rfl
    · exact .inr (.inr (.inr (.inl ⟨p, _, rfl, ‹_›, rfl⟩)))

/-- The cluster is another one. -/
def PlatformState.setCluster (s : PlatformState) (c : Cluster) : PlatformState :=
  { s with world := { s.world with cluster := c } }

theorem servePlatform_kubernetes (op : ClusterOp) (x : Environment) (s : PlatformState) :
    (servePlatform (.kubernetes op) x s).2 = s ∨
      (servePlatform (.kubernetes op) x s).2 =
        s.setCluster (s.world.cluster.serve op x.status).2 := by
  have hcreated : ∀ r, s.created ++ insertedBy (.kubernetes op) r = s.created :=
    fun r => List.append_nil _
  unfold servePlatform
  dsimp only
  rw [hcreated]
  unfold serve
  cases x.kubernetesFault with
  | some fault =>
    -- the call fails, before or after its effect
    cases x.tookEffect with
    | false => exact .inl rfl
    | true => exact .inr rfl
  | none => exact .inr rfl

/-- A policy's object is written only with what the policy says. -/
theorem HasSource.policy {created : List Deployment} {policy : String × NetworkPolicySpec}
    {«namespace» : String} (hpolicy : policy ∈ config.tenantPolicies)
    (h : HasSource config created ⟨.networkPolicy, «namespace», policy.1⟩ m) :
    m = .networkPolicy policy.2 := by
  obtain ⟨-, other, hother, hname, rfl⟩ := h
  have hnames : (config.tenantPolicies.map Prod.fst).Nodup := by
    simp [ServiceConfig.tenantPolicies, buildTenantNetworkPolicyManifests]
  obtain rfl := List.inj_on_of_nodup_map hnames hpolicy hother hname
  rfl

theorem Provenance.tables {w w' : World} {d : Deployment} (h : Provenance w d)
    (happs : w'.apps = w.apps) (hbuilds : w'.builds = w.builds)
    (hworkspaces : w'.workspaces = w.workspaces) : Provenance w' d where
  app := happs ▸ h.app
  workspace := hworkspaces ▸ h.workspace
  build := hbuilds ▸ h.build

/-- The rows and the pods stay what they are when the cluster changes. -/
theorem AccountedFor.setCluster (h : AccountedFor config s)
    (hobjects : ∀ key o, c.objects key = some o → HasSource config s.created key o.manifest)
    (hguarded : config.tenantNetworkPolicyEnabled = true → ∀ key o, c.objects key = some o →
      key.kind.IsWorkload = true → c.HoldsPolicies config key.«namespace»)
    (hholds : ∀ «namespace», s.world.cluster.HoldsPolicies config «namespace» →
      c.HoldsPolicies config «namespace»)
    (hrouted : ∀ key o, c.objects key = some o → key.kind = .httpRoute →
      c.GrantsAccess config key.«namespace») : AccountedFor config (s.setCluster c) where
  rows := h.rows
  inserted := h.inserted
  distinct := h.distinct
  planned d hd := ⟨(h.planned d hd).1, (h.planned d hd).2.tables rfl rfl rfl⟩
  objects := hobjects
  pods := h.pods
  guarded := hguarded
  guardedPods henabled pod hpod := hholds _ (h.guardedPods henabled pod hpod)
  routed := hrouted

/-- An object is written. -/
theorem put_step (h : AccountedFor config s) (hwrite : MayBeWritten config s key m)
    (haccess : ∀ «namespace», s.world.cluster.GrantsAccess config «namespace» →
      (s.world.cluster.put key m).GrantsAccess config «namespace») :
    (platformTerms config).Step s (s.setCluster (s.world.cluster.put key m)) := by
  have hpolicies : ∀ «namespace», ∀ policy ∈ config.tenantPolicies,
      Stored ⟨.networkPolicy, «namespace», policy.1⟩ (.networkPolicy policy.2) s.objects →
      Stored ⟨.networkPolicy, «namespace», policy.1⟩ (.networkPolicy policy.2)
        (s.world.cluster.put key m).objects := by
    intro ns policy hpolicy hstored
    by_cases hkey : (⟨.networkPolicy, ns, policy.1⟩ : ObjectKey) = key
    · subst hkey
      -- what is written under the key of a policy is the policy
      rw [hwrite.source.policy hpolicy]
      exact ⟨_, Cluster.put_objects_self _ _ _⟩
    · rw [Stored, Cluster.put_objects_of_ne _ _ hkey]
      exact hstored
  have hholds : ∀ «namespace», s.world.cluster.HoldsPolicies config «namespace» →
      (s.world.cluster.put key m).HoldsPolicies config «namespace» :=
    fun ns hs policy hpolicy => hpolicies ns policy hpolicy (hs policy hpolicy)
  -- an object is the one that is written, or was there before
  have hobject : ∀ key' o, (s.world.cluster.put key m).objects key' = some o →
      (key' = key ∧ o.manifest = m) ∨ s.objects key' = some o := by
    intro key' o ho
    by_cases hkey : key' = key
    · subst hkey
      rw [Cluster.put_objects_self] at ho
      exact .inl ⟨rfl, by rw [← Option.some.inj ho]⟩
    · rw [Cluster.put_objects_of_ne _ _ hkey] at ho
      exact .inr ho
  refine ⟨h.setCluster ?_ ?_ hholds ?_, ⟨List.prefix_rfl, rfl, rfl, rfl, hpolicies, haccess⟩⟩
  · intro key' o ho
    rcases hobject key' o ho with ⟨rfl, hm⟩ | ho
    · rw [hm]
      exact hwrite.source
    · exact h.objects key' o ho
  · intro henabled key' o ho hkind
    rcases hobject key' o ho with ⟨rfl, -⟩ | ho
    · exact hholds _ (hwrite.guarded henabled hkind)
    · exact hholds _ (h.guarded henabled key' o ho hkind)
  · intro key' o ho hkind
    rcases hobject key' o ho with ⟨rfl, -⟩ | ho
    · exact haccess _ (hwrite.access hkind)
    · exact haccess _ (h.routed key' o ho hkind)

/-- Access is a matter of the namespace's own object. -/
theorem access_of_ne {c' : Cluster} (hne : key.kind ≠ .ns)
    (hsame : ∀ key', key' ≠ key → c'.objects key' = c.objects key') {«namespace» : String}
    (h : c.GrantsAccess config «namespace») : c'.GrantsAccess config «namespace» := by
  obtain ⟨resourceVersion, labels, hobject, hlookup⟩ := h
  refine ⟨resourceVersion, labels, ?_, hlookup⟩
  rw [hsame _ fun heq => hne (by rw [← heq])]
  exact hobject

/-- A workload is deleted. -/
theorem remove_step (h : AccountedFor config s) (hkind : key.kind.IsWorkload = true) :
    (platformTerms config).Step s (s.setCluster (s.world.cluster.remove key)) := by
  have hsame : ∀ key', key' ≠ key →
      (s.world.cluster.remove key).objects key' = s.world.cluster.objects key' :=
    fun key' hne => Cluster.remove_objects_of_ne _ hne
  -- neither a policy nor a namespace is a workload
  have hne : ∀ key', key'.kind.IsWorkload = false → key' ≠ key := by
    rintro key' hkind' rfl
    rw [hkind] at hkind'
    cases hkind'
  have hpolicies : ∀ «namespace» name, (s.world.cluster.remove key).objects
      ⟨.networkPolicy, «namespace», name⟩ = s.objects ⟨.networkPolicy, «namespace», name⟩ :=
    fun ns name => hsame _ (hne _ rfl)
  have hholds : ∀ «namespace», s.world.cluster.HoldsPolicies config «namespace» →
      (s.world.cluster.remove key).HoldsPolicies config «namespace» := by
    intro ns hs policy hpolicy
    rw [hpolicies]
    exact hs policy hpolicy
  have haccess : ∀ «namespace», s.world.cluster.GrantsAccess config «namespace» →
      (s.world.cluster.remove key).GrantsAccess config «namespace» := by
    intro ns
    apply access_of_ne _ hsame
    intro hns
    rw [hns] at hkind
    cases hkind
  -- what is there now was there before
  have hobject : ∀ key' o, (s.world.cluster.remove key).objects key' = some o →
      s.objects key' = some o := by
    intro key' o ho
    by_cases hkey : key' = key
    · subst hkey
      rw [Cluster.remove_objects_self] at ho
      cases ho
    · rw [hsame key' hkey] at ho
      exact ho
  refine ⟨h.setCluster ?_ ?_ hholds ?_, ⟨List.prefix_rfl, rfl, rfl, rfl, ?_, haccess⟩⟩
  · exact fun key' o ho => h.objects key' o (hobject key' o ho)
  · exact fun henabled key' o ho hkind' =>
      hholds _ (h.guarded henabled key' o (hobject key' o ho) hkind')
  · exact fun key' o ho hkind' => haccess _ (h.routed key' o (hobject key' o ho) hkind')
  · intro ns policy _ hstored
    show Stored _ _ (s.world.cluster.remove key).objects
    rw [Stored, hpolicies]
    exact hstored

/-- A namespace is labelled. -/
theorem access_of_label {o : Object} (ho : s.objects key = some o) {«namespace» : String}
    (h : s.world.cluster.GrantsAccess config «namespace») :
    (s.world.cluster.put key (o.manifest.patch (.label config.gatewayAccessNamespaceLabelKey
      config.gatewayAccessNamespaceLabelValue))).GrantsAccess config «namespace» := by
  obtain ⟨resourceVersion, labels, hobject, hlookup⟩ := h
  by_cases hkey : (⟨.ns, "", «namespace»⟩ : ObjectKey) = key
  · subst hkey
    obtain rfl := Option.some.inj (hobject.symm.trans ho)
    refine ⟨_, _, Cluster.put_objects_self _ _ _, ?_⟩
    rw [lookup_set, if_pos rfl]
  · exact ⟨resourceVersion, labels, (Cluster.put_objects_of_ne _ _ hkey).trans hobject, hlookup⟩

/-- An admissible call to the cluster. -/
theorem kubernetes_step (h : AccountedFor config s) {op : ClusterOp}
    (hadmissible : Admissible config s (.kubernetes op)) (x : Environment) :
    (platformTerms config).Step s (servePlatform (.kubernetes op) x s).2 := by
  have hrefl : (platformTerms config).Step s s := ⟨h, (platformTerms config).refl s⟩
  have hother : ∀ {m}, op.key.kind ≠ .ns → ∀ «namespace»,
      s.world.cluster.GrantsAccess config «namespace» →
        (s.world.cluster.put op.key m).GrantsAccess config «namespace» :=
    fun hne ns => access_of_ne hne fun key' hkey => Cluster.put_objects_of_ne _ _ hkey
  rcases servePlatform_kubernetes op x s with heq | heq
  · rw [heq]
    exact hrefl
  · rw [heq]
    rcases Cluster.serve_change op x.status s.world.cluster with
      hsame | ⟨rv, m, hop, hnone, hput⟩ | ⟨rv, m, hop, hput⟩ | ⟨p, o, hop, ho, hput⟩ |
      ⟨hop, hremove⟩
    · rw [hsame]
      exact hrefl
    · -- a creation, of an object that was not there
      rw [hput]
      rw [hop] at hadmissible
      apply put_step h hadmissible
      rintro ns ⟨rv', labels, hobject, hlookup⟩
      refine ⟨rv', labels, ?_, hlookup⟩
      rw [Cluster.put_objects_of_ne]
      · exact hobject
      · intro hkey
        rw [hkey, hnone] at hobject
        cases hobject
    · rw [hput]
      rw [hop] at hadmissible
      exact put_step h hadmissible.2 (hother hadmissible.1)
    · rw [hput]
      rw [hop] at hadmissible
      have hsource := h.objects _ o ho
      cases p with
      | label k v =>
        obtain ⟨hkind, rfl, rfl⟩ := hadmissible
        refine put_step h ⟨hsource.patch (.inr hkind) _, ?_, ?_⟩ fun ns => access_of_label ho
        · intro _ hworkload
          rw [hkind] at hworkload
          cases hworkload
        · intro hroute
          rw [hkind] at hroute
          cases hroute
      | replicas n =>
        have hkind : op.key.kind = .deployment := hadmissible
        refine put_step h ⟨hsource.patch (.inl hkind) _, ?_, ?_⟩ (hother (by simp [hkind]))
        · exact fun henabled => h.guarded henabled _ o ho
        · exact fun hroute => h.routed _ o ho hroute
      | restartedAt instant =>
        have hkind : op.key.kind = .deployment := hadmissible
        refine put_step h ⟨hsource.patch (.inl hkind) _, ?_, ?_⟩ (hother (by simp [hkind]))
        · exact fun henabled => h.guarded henabled _ o ho
        · exact fun hroute => h.routed _ o ho hroute
    · rw [hremove]
      rw [hop] at hadmissible
      exact remove_step h hadmissible

/-- The rows change by what is inserted, and by updates. -/
theorem AccountedFor.rows_step (h : AccountedFor config s) {w : World} {more : List Deployment}
    (hcluster : w.cluster = s.world.cluster) (happs : w.apps = s.world.apps)
    (hbuilds : w.builds = s.world.builds) (hworkspaces : w.workspaces = s.world.workspaces)
    (hrows : ∀ id d, w.deployments id = some d →
      ∃ d₀ ∈ s.created ++ more, d₀.id = id ∧ d₀.identity = d.identity)
    (hinserted : ∀ d₀ ∈ s.created ++ more,
      ∃ d, w.deployments d₀.id = some d ∧ d.identity = d₀.identity)
    (hdistinct : ((s.created ++ more).map Deployment.id).Nodup)
    (hmore : ∀ d ∈ more, (∃ input, ComesFrom config d input) ∧ Provenance s.world d) :
    (platformTerms config).Step s { s with world := w, created := s.created ++ more } := by
  have hbegins : s.created <+: s.created ++ more := List.prefix_append _ _
  refine ⟨⟨hrows, hinserted, hdistinct, ?_, ?_, ?_, ?_, ?_, ?_⟩,
    ⟨hbegins, happs, hbuilds, hworkspaces, ?_, ?_⟩⟩
  · intro d hd
    have hplanned : (∃ input, ComesFrom config d input) ∧ Provenance s.world d := by
      rcases List.mem_append.mp hd with hd | hd
      · exact h.planned d hd
      · exact hmore d hd
    exact ⟨hplanned.1, hplanned.2.tables happs hbuilds hworkspaces⟩
  · intro key o ho
    rw [PlatformState.objects, hcluster] at ho
    -- an object keeps its row, since no row goes
    exact (h.objects key o ho).more hbegins
  · intro pod hpod
    rcases h.pods pod hpod with ⟨d, hd, hof⟩ | hjob
    · exact .inl ⟨d, hbegins.subset hd, hof⟩
    · exact .inr hjob
  · intro henabled key o ho
    rw [PlatformState.objects, hcluster] at ho
    rw [hcluster]
    exact h.guarded henabled key o ho
  · intro henabled pod hpod
    rw [hcluster]
    exact h.guardedPods henabled pod hpod
  · intro key o ho
    rw [PlatformState.objects, hcluster] at ho
    rw [hcluster]
    exact h.routed key o ho
  · intro ns policy _ hstored
    rw [PlatformState.objects, hcluster]
    exact hstored
  · intro ns haccess
    rw [hcluster]
    exact haccess

/-- A call that leaves the rows alone. -/
theorem lookup_step (h : AccountedFor config s) {w : World} (hworld : w = s.world) :
    (platformTerms config).Step s { s with world := w, created := s.created ++ [] } := by
  subst hworld
  apply h.rows_step rfl rfl rfl rfl
  · rw [List.append_nil]
    exact h.rows
  · rw [List.append_nil]
    exact h.inserted
  · rw [List.append_nil]
    exact h.distinct
  · exact fun d hd => absurd hd List.not_mem_nil

/-- An insertion. -/
theorem insert_step (h : AccountedFor config s) {data : Deployment}
    (hadmissible : Admissible config s (.createDeployment data)) (x : Environment) :
    (platformTerms config).Step s (servePlatform (.createDeployment data) x s).2 := by
  unfold servePlatform serve
  dsimp only
  cases x.databaseFault with
  | some message => exact lookup_step h rfl
  | none =>
    simp only [World.serveDatabase]
    split
    · exact lookup_step h rfl
    · rename_i hnone
      split
      · -- the row is inserted: no row with its id was before
        have hfresh : ∀ d₀ ∈ s.created, d₀.id ≠ data.id := by
          intro d₀ hd₀ heq
          obtain ⟨d, hd, -⟩ := h.inserted d₀ hd₀
          rw [heq, hnone] at hd
          cases hd
        refine h.rows_step (w := { s.world with
          deployments := Function.update s.world.deployments data.id (some data) })
          rfl rfl rfl rfl ?_ ?_ ?_ ?_
        · intro id d hd
          change Function.update s.world.deployments data.id (some data) id = some d at hd
          by_cases hid : id = data.id
          · subst hid
            rw [Function.update_self] at hd
            obtain rfl := Option.some.inj hd
            exact ⟨data, List.mem_append_right _ (List.mem_singleton.mpr rfl), rfl, rfl⟩
          · rw [Function.update_of_ne hid] at hd
            obtain ⟨d₀, hd₀, hid₀⟩ := h.rows id d hd
            exact ⟨d₀, List.mem_append_left _ hd₀, hid₀⟩
        · intro d₀ hd₀
          rcases List.mem_append.mp hd₀ with hd₀ | hd₀
          · obtain ⟨d, hd, hidentity⟩ := h.inserted d₀ hd₀
            exact ⟨d, (Function.update_of_ne (hfresh d₀ hd₀) _ _).trans hd, hidentity⟩
          · obtain rfl := List.mem_singleton.mp hd₀
            exact ⟨d₀, Function.update_self .., rfl⟩
        · rw [List.map_append, List.nodup_append]
          refine ⟨h.distinct, List.nodup_singleton _, ?_⟩
          rintro id hid id' hid' rfl
          obtain ⟨d₀, hd₀, rfl⟩ := List.mem_map.mp hid
          exact hfresh d₀ hd₀ (List.mem_singleton.mp hid')
        · intro d hd
          obtain rfl := List.mem_singleton.mp hd
          exact hadmissible
      · exact lookup_step h rfl

/-- An update. -/
theorem update_step (h : AccountedFor config s) (id : String) (u : DeploymentUpdate)
    (x : Environment) :
    (platformTerms config).Step s (servePlatform (.updateDeployment id u) x s).2 := by
  unfold servePlatform serve
  dsimp only
  cases x.databaseFault with
  | some message => exact lookup_step h rfl
  | none =>
    simp only [World.serveDatabase]
    split
    · exact lookup_step h rfl
    · rename_i d hd
      -- an update leaves the identity of its row alone
      refine h.rows_step (w := { s.world with
        deployments := Function.update s.world.deployments id (some (d.update u)) })
        rfl rfl rfl rfl ?_ ?_ ?_ ?_
      · intro id' d' hd'
        change Function.update s.world.deployments id (some (d.update u)) id' = some d' at hd'
        simp only [insertedBy, List.append_nil]
        by_cases hid : id' = id
        · subst hid
          rw [Function.update_self] at hd'
          obtain rfl := Option.some.inj hd'
          exact h.rows id' d hd
        · rw [Function.update_of_ne hid] at hd'
          exact h.rows id' d' hd'
      · simp only [insertedBy, List.append_nil]
        intro d₀ hd₀
        obtain ⟨d', hd', hidentity⟩ := h.inserted d₀ hd₀
        by_cases hid : d₀.id = id
        · subst hid
          obtain rfl := Option.some.inj (hd.symm.trans hd')
          exact ⟨d.update u, Function.update_self .., hidentity⟩
        · exact ⟨d', (Function.update_of_ne hid _ _).trans hd', hidentity⟩
      · simp only [insertedBy, List.append_nil]
        exact h.distinct
      · exact fun d hd => absurd hd List.not_mem_nil

/-- **An admissible call** is a step on the terms. -/
theorem admissible_step (h : AccountedFor config s) {c : Call} (hadmissible : Admissible config s c)
    (x : Environment) : (platformTerms config).Step s (servePlatform c x s).2 := by
  cases c with
  | kubernetes op => exact kubernetes_step h hadmissible x
  | createDeployment data => exact insert_step h hadmissible x
  | updateDeployment id u => exact update_step h id u x
  | findApp id =>
    unfold servePlatform serve
    cases x.databaseFault <;> exact lookup_step h rfl
  | findBuild id =>
    unfold servePlatform serve
    cases x.databaseFault <;> exact lookup_step h rfl
  | findWorkspace id =>
    unfold servePlatform serve
    cases x.databaseFault <;> exact lookup_step h rfl
  | findDeployment id =>
    unfold servePlatform serve
    cases x.databaseFault <;> exact lookup_step h rfl

end Calls

/-! ### What a row determines -/

/-- The host name of a deployment with routing. -/
def ServiceConfig.hostnameOf (config : ServiceConfig) (d : Deployment) : String :=
  d.kubernetesDeployment ++ "." ++
    String.ofList ((toLowerCase (trim config.applicationWildcardHostname.toList)).drop 2)

/-- What the row says about the input of its creation. -/
structure Describes (config : ServiceConfig) (d : Deployment) (input : DeployImageInput) :
    Prop where
  placed : input.«namespace» = d.«namespace»
  names : input.names = resourceNamesOf d.kubernetesDeployment
  image : input.image = d.image
  port : input.port = d.port
  labels : input.labels = buildManagedLabels d.workspaceId d.appId d.id
  routing : ∀ routing, input.routing = some routing → routing =
    ⟨config.hostnameOf d, config.applicationGatewayName, config.applicationGatewayNamespace,
      config.gatewayAccessNamespaceLabelKey, config.gatewayAccessNamespaceLabelValue⟩
  exposed : input.routing.map ApplicationRoutingInput.hostname = d.publicHostname

section Rows

variable {config : ServiceConfig} {d : Deployment} {input : DeployImageInput}

theorem applicationRouting_ok {appName id : String} {routing : ApplicationRoutingInput}
    (h : applicationRouting config appName id = .ok routing) : routing =
      ⟨baseName appName id ++ "." ++
          String.ofList ((toLowerCase (trim config.applicationWildcardHostname.toList)).drop 2),
        config.applicationGatewayName, config.applicationGatewayNamespace,
        config.gatewayAccessNamespaceLabelKey, config.gatewayAccessNamespaceLabelValue⟩ := by
  unfold applicationRouting at h
  split at h
  · cases h
  · split at h
    · cases h
    · rename_i hostname hhost
      obtain rfl := Except.ok.inj h
      unfold buildPublicHostname at hhost
      dsimp only at hhost
      split at hhost
      · rw [Option.some.inj hhost]
      · cases hhost

theorem ComesFrom.describes (h : ComesFrom config d input) : Describes config d input := by
  obtain ⟨request, app, image, workspaceId, ns, h⟩ := h
  unfold assembleDeployment at h
  obtain ⟨files, -, h⟩ := except_bind_ok h
  obtain ⟨secretFiles, -, h⟩ := except_bind_ok h
  obtain ⟨routing, hrouting, h⟩ := except_bind_ok h
  dsimp only at h
  split at h
  · cases h
  · cases h
  · obtain ⟨rfl, rfl⟩ := Prod.mk.inj (Except.ok.inj h)
    refine ⟨rfl, rfl, rfl, rfl, rfl, ?_, rfl⟩
    rintro routing' rfl
    unfold requestedRouting at hrouting
    split at hrouting
    · cases hrequested : applicationRouting config app.name request.deploymentId with
      | error e =>
        rw [hrequested] at hrouting
        cases hrouting
      | ok requested =>
        rw [hrequested] at hrouting
        obtain rfl := Option.some.inj (Except.ok.inj hrouting)
        exact applicationRouting_ok hrequested
    · cases hrouting

/-- The deployment as its selectors know it. -/
def Describes.managed (h : Describes config d input) : ManagedDeployment where
  workspaceId := d.workspaceId
  appId := d.appId
  id := d.id
  input := input
  labels := h.labels

theorem mem_writtenOptional {kind : Kind} {«namespace» : String} {name : Option String}
    {isEmpty : Bool} {m : Manifest} {entry : ObjectKey × Manifest}
    (h : entry ∈ writtenOptional kind «namespace» name isEmpty m) :
    ∃ name', entry = (⟨kind, «namespace», name'⟩, m) := by
  unfold writtenOptional at h
  split at h
  · cases h
  · obtain ⟨name', -, rfl⟩ := List.mem_map.mp h
    exact ⟨name', rfl⟩

/-- The kinds of what is written. -/
inductive DeployImageInput.Entry (input : DeployImageInput) : ObjectKey × Manifest → Prop
  | configMap (name : String) (data : Entries) :
      Entry input (⟨.configMap, input.«namespace», name⟩, .configMap input.labels data)
  | secret (name : String) (data : Entries) :
      Entry input (⟨.secret, input.«namespace», name⟩, .secret input.labels data)
  | deployment : Entry input
      (⟨.deployment, input.«namespace», input.names.deploymentName⟩, deploymentManifest input)
  | service : Entry input (⟨.service, input.«namespace», input.names.serviceName⟩,
      buildServiceManifest input.labels input.port ⟨none, none, none, none⟩)
  | route (routing : ApplicationRoutingInput) (h : input.routing = some routing) :
      Entry input (input.routeKey, buildApplicationRouteManifest input routing)
  | redirect (routing : ApplicationRoutingInput) (h : input.routing = some routing) :
      Entry input (input.redirectKey, buildApplicationRedirectRouteManifest input routing)

theorem mem_written {entry : ObjectKey × Manifest} (h : entry ∈ input.written) :
    input.Entry entry := by
  simp only [DeployImageInput.written, List.mem_append, List.mem_cons, List.not_mem_nil,
    or_false] at h
  rcases h with ((((rfl | h) | h) | h) | rfl | rfl) | h
  · exact .configMap _ _
  · obtain ⟨name, rfl⟩ := mem_writtenOptional h
    exact .configMap _ _
  · obtain ⟨name, rfl⟩ := mem_writtenOptional h
    exact .secret _ _
  · obtain ⟨name, rfl⟩ := mem_writtenOptional h
    exact .secret _ _
  · exact .deployment
  · exact .service
  · unfold generatedRoutes at h
    split at h
    · cases h
    · rename_i routing hrouting
      simp only [List.mem_cons, List.not_mem_nil, or_false] at h
      rcases h with rfl | rfl
      · exact .route routing hrouting
      · exact .redirect routing hrouting

theorem DeployImageInput.Entry.kind {entry : ObjectKey × Manifest} (h : input.Entry entry) :
    entry.1.kind.IsWorkload = true ∧ entry.1.kind ≠ .job ∧
      entry.1.«namespace» = input.«namespace» := by
  cases h <;> exact ⟨rfl, by simp [DeployImageInput.routeKey, DeployImageInput.redirectKey], rfl⟩

/-- The objects of a row, by their kind. -/
theorem hasSource_iff {created : List Deployment} {key : ObjectKey} {m : Manifest}
    (hworkload : key.kind.IsWorkload = true) (hjob : key.kind ≠ .job) :
    HasSource config created key m ↔ ∃ d ∈ created, Records config d key m := by
  unfold HasSource
  cases hkind : key.kind with
  | ns =>
    rw [hkind] at hworkload
    cases hworkload
  | networkPolicy =>
    rw [hkind] at hworkload
    cases hworkload
  | job => exact absurd hkind hjob
  | _ => exact Iff.rfl

/-- A Deployment in the cluster is that of a row. -/
theorem HasSource.ofDeployment {created : List Deployment} {key : ObjectKey} {labels : Entries}
    {spec : DeploymentSpec} (h : HasSource config created key (.deployment labels spec)) :
    ∃ d ∈ created, ∃ input, ComesFrom config d input ∧
      key = ⟨.deployment, input.«namespace», input.names.deploymentName⟩ ∧
      (Manifest.deployment labels spec).core = (deploymentManifest input).core := by
  by_cases hworkload : key.kind.IsWorkload = true
  · by_cases hjob : key.kind = .job
    · unfold HasSource at h
      rw [hjob] at h
      cases h
    · obtain ⟨d, hd, input, hfrom, entry, hentry, hkey, hcore⟩ :=
        (hasSource_iff hworkload hjob).mp h
      obtain ⟨key', m⟩ := entry
      obtain rfl : key' = key := hkey
      refine ⟨d, hd, input, hfrom, ?_⟩
      replace hentry := mem_written hentry
      cases hentry with
      | deployment => exact ⟨rfl, hcore⟩
      | _ => cases hcore
  · unfold HasSource at h
    cases hkind : key.kind <;> rw [hkind] at h hworkload <;>
      first | exact absurd rfl hworkload | skip
    · obtain ⟨labels, h⟩ := h
      cases h
    · obtain ⟨-, policy, -, -, h⟩ := h
      cases h

/-- Only the Jobs of builds are Jobs. -/
theorem HasSource.ofJob {created : List Deployment} {key : ObjectKey} {labels : Entries}
    {spec : JobSpec} (h : HasSource config created key (.job labels spec)) :
    key.kind = .job ∧ IsBuildJob (.job labels spec) := by
  by_cases hworkload : key.kind.IsWorkload = true
  · by_cases hjob : key.kind = .job
    · unfold HasSource at h
      rw [hjob] at h
      exact ⟨hjob, h⟩
    · obtain ⟨d, hd, input, hfrom, entry, hentry, hkey, hcore⟩ :=
        (hasSource_iff hworkload hjob).mp h
      replace hentry := mem_written hentry
      cases hentry <;> cases hcore
  · unfold HasSource at h
    cases hkind : key.kind <;> rw [hkind] at h hworkload <;>
      first | exact absurd rfl hworkload | skip
    · obtain ⟨labels, h⟩ := h
      cases h
    · obtain ⟨-, policy, -, -, h⟩ := h
      cases h

end Rows

/-! ### The controllers -/

section Controllers

variable {config : ServiceConfig} {s t : PlatformState}

/-- Only the pods change. -/
theorem pods_step (h : AccountedFor config s) {pods : List RunningPod}
    (hpods : ∀ pod ∈ pods, pod ∈ s.pods ∨
      (((∃ d ∈ s.created, pod.IsOf config d) ∨ ∃ m, IsBuildJob m ∧ MakesPod m pod.labels) ∧
        ∃ key o, s.objects key = some o ∧ key.kind.IsWorkload = true ∧
          key.«namespace» = pod.«namespace»)) :
    (platformTerms config).Step s { s with pods := pods } := by
  refine ⟨{ h with pods := ?_, guardedPods := ?_ },
    ⟨List.prefix_rfl, rfl, rfl, rfl, fun _ _ _ hs => hs, fun _ hs => hs⟩⟩
  · intro pod hpod
    rcases hpods pod hpod with hold | ⟨hnew, -⟩
    · exact h.pods pod hold
    · exact hnew
  · intro henabled pod hpod
    rcases hpods pod hpod with hold | ⟨-, key, o, ho, hkind, hns⟩
    · exact h.guardedPods henabled pod hold
    · rw [← hns]
      exact h.guarded henabled key o ho hkind

/-- A pod that a Deployment starts is one of its row. -/
theorem isOf_started {key : ObjectKey} {labels : Entries} {spec : DeploymentSpec}
    {created : List Deployment} {templateHash : String}
    (hsource : HasSource config created key (.deployment labels spec))
    (hadmitted : admitted (spec.podLabels templateHash) = true) :
    key.kind = .deployment ∧ ∃ d ∈ created, RunningPod.IsOf config d
      ⟨⟨key.«namespace», spec.podLabels templateHash⟩, spec.image, spec.containerPort⟩ := by
  obtain ⟨d, hd, input, hfrom, rfl, hcore⟩ := hsource.ofDeployment
  obtain ⟨-, hspec⟩ := Manifest.deployment.inj hcore
  have hdescribes := hfrom.describes
  refine ⟨rfl, d, hd, hdescribes.placed, ?_, ?_, input, hfrom, ?_⟩
  · exact (congrArg DeploymentSpec.image hspec).trans hdescribes.image
  · exact (congrArg DeploymentSpec.containerPort hspec).trans hdescribes.port
  · -- the labels of the template are part of the core
    have htemplate := congrArg DeploymentSpec.templateLabels hspec
    have hlabels : spec.podLabels templateHash =
        Entries.set (buildApplicationPodLabels input.labels input.routing.isSome)
          "pod-template-hash" templateHash :=
      congrArg (fun labels => Entries.set labels "pod-template-hash" templateHash) htemplate
    rw [hlabels] at hadmitted ⊢
    exact MakesPod.deployment templateHash hadmitted

theorem move_step (h : AccountedFor config s) (e : ControllerMove) (hmove : e.apply s = some t) :
    (platformTerms config).Step s t := by
  cases e with
  -- a pod is made from the template of its Deployment
  | startPod key templateHash =>
    simp only [ControllerMove.apply] at hmove
    split at hmove
    · rename_i resourceVersion labels spec hobject
      split at hmove
      · rename_i hadmitted
        obtain rfl := Option.some.inj hmove
        obtain ⟨hkind, hof⟩ := isOf_started (h.objects key _ hobject) hadmitted
        apply pods_step h
        intro pod hpod
        rcases List.mem_append.mp hpod with hpod | hpod
        · exact .inl hpod
        · obtain rfl := List.mem_singleton.mp hpod
          exact .inr ⟨.inl hof, key, _, hobject, by rw [hkind]; rfl, rfl⟩
      · cases hmove
    · cases hmove
  -- or from that of its Job
  | startJobPod key uid =>
    simp only [ControllerMove.apply] at hmove
    split at hmove
    · rename_i resourceVersion labels spec hobject
      split at hmove
      · rename_i hadmitted
        obtain rfl := Option.some.inj hmove
        obtain ⟨hkind, hjob⟩ := (h.objects key _ hobject).ofJob
        apply pods_step h
        intro pod hpod
        rcases List.mem_append.mp hpod with hpod | hpod
        · exact .inl hpod
        · obtain rfl := List.mem_singleton.mp hpod
          exact .inr ⟨.inr ⟨_, hjob, MakesPod.job uid key.name hadmitted⟩, key, _, hobject,
            by rw [hkind]; rfl, rfl⟩
      · cases hmove
    · cases hmove
  -- a pod that stops leaves the others
  | stopPod index =>
    obtain rfl := Option.some.inj hmove
    apply pods_step h
    exact fun pod hpod => .inl (List.mem_of_mem_eraseIdx hpod)

end Controllers

end NexCause
