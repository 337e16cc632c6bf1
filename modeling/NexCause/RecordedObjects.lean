/-
NexCause/RecordedObjects.lean

The database accounts for the cluster.  A creation inserts its row before it
writes an object, the row stays, and no update touches what it says about the
objects.  So what is in the cluster can always be told from the rows, also
after requests have failed halfway, or a creation and a deletion have met.

Main result: in every reachable state each object that the services write, and
each pod, is that of a row, with the image, the port and the configuration that
the row records; and the image of a build is that of a build of the same app
that has succeeded (`objects_accounted`).
-/
import NexCause.PlatformAccounts

namespace NexCause

open Program Prog Transition

variable {config : ServiceConfig} {s : PlatformState} {α : Type}

/-! ### What is stable -/

theorem stable_created (d : Deployment) : (platformTerms config).Stable fun s => d ∈ s.created :=
  fun _ _ h hst => hst.allows.created.subset h

/-- A policy of a tenant that stands is left standing, as it is. -/
theorem stable_policy {«namespace» : String} {policy : String × NetworkPolicySpec}
    (hpolicy : policy ∈ config.tenantPolicies) : (platformTerms config).Stable fun s =>
      Stored ⟨.networkPolicy, «namespace», policy.1⟩ (.networkPolicy policy.2) s.objects :=
  fun _ _ h hst => hst.allows.policies _ policy hpolicy h

theorem stable_policies (config : ServiceConfig) («namespace» : String) :
    (platformTerms config).Stable fun s => s.world.cluster.HoldsPolicies config «namespace» :=
  fun _ _ h hst policy hpolicy => hst.allows.policies _ policy hpolicy (h policy hpolicy)

theorem stable_access (config : ServiceConfig) («namespace» : String) :
    (platformTerms config).Stable fun s => s.world.cluster.GrantsAccess config «namespace» :=
  fun _ _ h hst => hst.allows.access _ h

/-- The tables that no program writes. -/
theorem stable_tables {P : List App → List Build → List Workspace → Prop} :
    (platformTerms config).Stable fun s => P s.world.apps s.world.builds s.world.workspaces := by
  intro s t h hst
  rw [hst.allows.apps, hst.allows.builds, hst.allows.workspaces]
  exact h

/-! ### Programs that need to know nothing -/

/-- The call may always be made. -/
def Free (config : ServiceConfig) (c : Call) : Prop := ∀ s, Admissible config s c

/-- A program of such calls keeps to its terms, and what is stable stays so while it
runs. -/
theorem free_meets {p : Action α} (hp : p.Calls (Free config)) {P : PlatformState → Prop}
    (hP : (platformTerms config).Stable P) (hs : P s) :
    p.Meets ((platformTerms config).contract servePlatform) (fun _ t => P t) s :=
  Terms.calls_meet hp hP hs fun _ hc t x _ ht => admissible_step ht (hc t) x

theorem findDeployment_free (id : String) : (findDeployment id).Calls (Free config) :=
  calls_perform.mpr fun _ => trivial

theorem updateDeployment_free (id : String) (u : DeploymentUpdate) :
    (updateDeployment id u).Calls (Free config) := calls_perform.mpr fun _ => trivial

theorem readObject_free (key : ObjectKey) : (readObject key).Calls (Free config) :=
  calls_perform.mpr fun _ => trivial

/-- An object of a workload may be deleted whoever created it. -/
theorem deleteIfExists_free {key : ObjectKey} (h : key.kind.IsWorkload = true) :
    (deleteIfExists key).Calls (Free config) := by
  have hdelete : (deleteObject key).Calls (Free config) := calls_perform.mpr fun _ => h
  exact hdelete.tryCatch fun _ => onNotFound_calls (p := pure ()) trivial _

theorem deleteOptional_free {kind : Kind} {«namespace» : String} {name : Option String}
    (h : kind.IsWorkload = true) : (deleteOptional kind «namespace» name).Calls (Free config) := by
  unfold deleteOptional
  split
  · exact deleteIfExists_free h
  · trivial

theorem findOneOrThrow_free (id : String) : (findOneOrThrow id).Calls (Free config) := by
  refine (findDeployment_free id).bind fun deployment => ?_
  cases deployment <;> trivial

/-- Scale, stop, start and restart patch a Deployment with something else than a label. -/
theorem patchThenUpdate_free (config : ServiceConfig) (id : String)
    (patch : Deployment → MergePatch) (update : Deployment → DeploymentUpdate)
    (h : ∀ d k v, patch d ≠ .label k v) :
    (patchThenUpdate id patch update).Calls (Free config) := by
  refine (findOneOrThrow_free id).bind fun d => ?_
  have hpatch : (patchObject d.key (patch d)).Calls (Free config) := by
    apply calls_perform.mpr
    intro s
    cases heq : patch d with
    | label k v => exact absurd heq (h d k v)
    | replicas n => exact rfl
    | restartedAt instant => exact rfl
  exact hpatch.bind fun _ => updateDeployment_free id _

/-- A status request reads, and writes the record at most. -/
theorem getStatus_free (id : String) : (DeploymentsService.getStatus id).Calls (Free config) := by
  refine (findOneOrThrow_free id).bind fun d => ?_
  unfold statusOf
  split
  · trivial
  · have hlive : (getDeploymentStatus d.«namespace» d.kubernetesDeployment).Calls (Free config) :=
      (readObject_free _).bind fun _ => trivial
    refine hlive.bind fun liveStatus => ?_
    dsimp only
    split
    · exact (updateDeployment_free _ _).bind fun _ => trivial
    · trivial

/-- A deletion touches objects of workloads and the record. -/
theorem delete_free (id : String) (now : ℕ) :
    (DeploymentsService.delete id now).Calls (Free config) := by
  refine (findOneOrThrow_free id).bind fun d => calls_liftExcept.bind fun names => ?_
  have hresources : ∀ routes, (deleteDeploymentResources d.«namespace» names routes).Calls
      (Free config) := by
    have hrest : (do
        deleteIfExists ⟨.deployment, d.«namespace», names.deploymentName⟩
        deleteIfExists ⟨.service, d.«namespace», names.serviceName⟩
        deleteIfExists ⟨.configMap, d.«namespace», names.configMapName⟩
        deleteOptional .configMap d.«namespace» names.fileConfigMapName
        deleteOptional .secret d.«namespace» names.secretName
        deleteOptional .secret d.«namespace» names.secretFileSecretName : Action Unit).Calls
          (Free config) :=
      (deleteIfExists_free rfl).bind fun _ => (deleteIfExists_free rfl).bind fun _ =>
        (deleteIfExists_free rfl).bind fun _ => (deleteOptional_free rfl).bind fun _ =>
          (deleteOptional_free rfl).bind fun _ => deleteOptional_free rfl
    intro routes
    unfold deleteDeploymentResources
    cases routes with
    | false => exact hrest
    | true =>
      exact (deleteIfExists_free rfl).bind fun _ => (deleteIfExists_free rfl).bind fun _ => hrest
  exact (hresources _).bind fun _ => (updateDeployment_free _ _).bind fun _ => trivial

/-! ### The namespace and its policies -/

/-- A creation or a replacement that returns has written the object. -/
theorem servePlatform_wrote {op : ClusterOp} {key : ObjectKey} {m : Manifest} {x : Environment}
    {a : op.Result} (hop : (Call.kubernetes op).writes = some (key, m))
    (h : (servePlatform (.kubernetes op) x s).1 = .ok a) :
    Stored key m (servePlatform (.kubernetes op) x s).2.objects := by
  unfold servePlatform serve at h ⊢
  dsimp only [PlatformState.objects] at h ⊢
  cases hfault : x.kubernetesFault with
  | some fault =>
    rw [hfault] at h
    cases h
  | none =>
    rw [hfault] at h
    exact serveDisturbed_wrote (x := ⟨none, x.status⟩) hop h

/-- One call that writes a policy. -/
theorem write_stored (op : ClusterOp) {key : ObjectKey} {m : Manifest}
    (hop : (Call.kubernetes op).writes = some (key, m)) (hfree : Free config (.kubernetes op)) :
    (perform (Call.kubernetes op) : Action op.Result).Meets
      ((platformTerms config).contract servePlatform)
      (fun r t => ∀ a, r = .ok a → Stored key m t.objects) s := by
  apply Terms.perform_meets (Terms.stable_const True) trivial
  · exact fun t x _ ht => admissible_step ht (hfree t) x
  · exact fun t x _ _ a ha => servePlatform_wrote hop ha

/-- A policy stands once its upsert has returned. -/
theorem upsertNetworkPolicy_stored (henabled : config.tenantNetworkPolicyEnabled = true)
    {«namespace» : String} {policy : String × NetworkPolicySpec}
    (hpolicy : policy ∈ config.tenantPolicies) :
    (upsertNetworkPolicy «namespace» policy).Meets ((platformTerms config).contract servePlatform)
      (fun r t => r = .ok () →
        Stored ⟨.networkPolicy, «namespace», policy.1⟩ (.networkPolicy policy.2) t.objects) s := by
  have hwrite : ∀ s, MayBeWritten config s ⟨.networkPolicy, «namespace», policy.1⟩
      (.networkPolicy policy.2) := fun s =>
    ⟨⟨henabled, policy, hpolicy, rfl, rfl⟩, fun _ h => (nomatch h), fun h => nomatch h⟩
  have hcreate : ∀ resourceVersion (s : PlatformState), (createObject
      ⟨.networkPolicy, «namespace», policy.1⟩ resourceVersion (.networkPolicy policy.2)).Meets
        ((platformTerms config).contract servePlatform) (fun r t => r = .ok () →
          Stored ⟨.networkPolicy, «namespace», policy.1⟩ (.networkPolicy policy.2) t.objects) s :=
    fun resourceVersion s => (write_stored (.create _ resourceVersion _) rfl hwrite).mono
      fun _ _ h hr => h () hr
  have hread : (readObject ⟨.networkPolicy, «namespace», policy.1⟩ >>=
      fun body => pure (some body.object) : Action _).Calls (Free config) :=
    (readObject_free _).bind fun _ => trivial
  apply (free_meets (hread.tryCatch fun _ => onNotFound_calls (p := pure none) trivial _)
    (Terms.stable_const True) trivial).bind
  · intro existing t _
    cases existing with
    | none => exact hcreate none t
    | some object =>
      have hfree : Free config (.kubernetes (.replace ⟨.networkPolicy, «namespace», policy.1⟩
          object.resourceVersion (.networkPolicy policy.2))) :=
        fun s => ⟨fun h => (nomatch h), hwrite s⟩
      have hreplace := write_stored (s := t) _ rfl hfree
      -- a policy that has gone since it was read is created again
      apply hreplace.tryCatch
      · exact fun a u h _ => h a rfl
      · intro error u _
        unfold onNotFound
        split
        · exact hcreate _ u
        · exact fun hr => nomatch hr
  · exact fun error t _ hr => nomatch hr

/-- The loop over the policies: what has been written stays while the next ones are. -/
theorem upsertPolicies_stored (henabled : config.tenantNetworkPolicyEnabled = true)
    {«namespace» : String} {policies : List (String × NetworkPolicySpec)}
    (hpolicies : ∀ policy ∈ policies, policy ∈ config.tenantPolicies) :
    (policies.forM (upsertNetworkPolicy «namespace»)).Meets
      ((platformTerms config).contract servePlatform)
      (fun r t => r = .ok () → ∀ policy ∈ policies,
        Stored ⟨.networkPolicy, «namespace», policy.1⟩ (.networkPolicy policy.2) t.objects) s := by
  induction policies generalizing s with
  | nil => exact fun _ policy hpolicy => absurd hpolicy List.not_mem_nil
  | cons policy policies ih =>
    obtain ⟨hpolicy, hrest⟩ := List.forall_mem_cons.mp hpolicies
    apply (upsertNetworkPolicy_stored henabled hpolicy).bind
    · intro _ t hstored
      apply (Terms.meets_frame (ih hrest (s := t)) (stable_policy hpolicy) (hstored rfl)).mono
      rintro r u ⟨hfirst, hothers⟩ hr
      exact List.forall_mem_cons.mpr ⟨hfirst, hothers hr⟩
    · exact fun error t _ hr => nomatch hr

/-- When `ensureNamespace` returns, the policies are there. -/
theorem ensureNamespace_holds («namespace» : String) (labels : Entries) :
    (ensureNamespace config «namespace» labels).Meets
      ((platformTerms config).contract servePlatform)
      (fun r t => r = .ok () → config.tenantNetworkPolicyEnabled = true →
        t.world.cluster.HoldsPolicies config «namespace») s := by
  have hcreate : (createObject ⟨.ns, "", «namespace»⟩ none (.ns (namespaceLabels labels))).Calls
      (Free config) := calls_perform.mpr fun _ =>
    ⟨⟨_, rfl⟩, fun _ h => (nomatch h), fun h => nomatch h⟩
  have hread : (readObject ⟨.ns, "", «namespace»⟩ >>= fun _ => pure () : Action Unit).Calls
      (Free config) := (readObject_free _).bind fun _ => trivial
  unfold ensureNamespace
  apply (free_meets (hread.tryCatch fun _ => onNotFound_calls hcreate _)
    (Terms.stable_const True) trivial).bind
  · intro _ t _
    split
    · rename_i henabled
      unfold reconcileTenantNetworkPolicies
      split
      · exact fun hr => nomatch hr
      · apply (upsertPolicies_stored henabled (s := t) fun policy hpolicy => hpolicy).tryCatch
        · exact fun _ u h _ _ => h rfl
        · exact fun error u _ hr => nomatch hr
    · rename_i hdisabled
      exact fun _ henabled => absurd henabled hdisabled
  · exact fun error t _ hr => nomatch hr

/-! ### The objects of a row -/

/-- A call that writes an object of the input, or deletes one. -/
def Writing (input : DeployImageInput) (routes : Prop) : Call → Prop
  | .kubernetes (.read _) => True
  | .kubernetes (.create key _ m) => input.Writes key m ∧ (key.kind = .httpRoute → routes)
  | .kubernetes (.replace key _ m) => input.Writes key m ∧ (key.kind = .httpRoute → routes)
  | .kubernetes (.delete key) => key.kind.IsWorkload = true
  | _ => False

/-- What has to be known for it. -/
structure Prepared (config : ServiceConfig) (d : Deployment) (routes : Prop) (s : PlatformState) :
    Prop where
  created : d ∈ s.created
  policies : config.tenantNetworkPolicyEnabled = true →
    s.world.cluster.HoldsPolicies config d.«namespace»
  access : routes → s.world.cluster.GrantsAccess config d.«namespace»

variable {d : Deployment} {input : DeployImageInput} {routes : Prop}

theorem stable_prepared : (platformTerms config).Stable (Prepared config d routes) :=
  fun s t h hst => ⟨stable_created d s t h.created hst,
    fun henabled => stable_policies config _ s t (h.policies henabled) hst,
    fun hroutes => stable_access config _ s t (h.access hroutes) hst⟩

/-- What a creation writes once its namespace is prepared, it may write. -/
theorem Prepared.mayWrite (h : Prepared config d routes s) (hfrom : ComesFrom config d input)
    {key : ObjectKey} {m : Manifest} (hwrites : input.Writes key m)
    (hroutes : key.kind = .httpRoute → routes) : key.kind ≠ .ns ∧ MayBeWritten config s key m := by
  obtain ⟨entry, hentry, rfl, hcore⟩ := hwrites
  obtain ⟨hworkload, hjob, hns⟩ := (mem_written hentry).kind
  have hplaced : entry.1.«namespace» = d.«namespace» := hns.trans hfrom.describes.placed
  refine ⟨fun hkind => ?_, (hasSource_iff hworkload hjob).mpr ?_, fun henabled _ => ?_,
    fun hroute => ?_⟩
  · rw [hkind] at hworkload
    cases hworkload
  · exact ⟨d, h.created, input, hfrom, entry, hentry, rfl, hcore⟩
  · rw [hplaced]
    exact h.policies henabled
  · rw [hplaced]
    exact h.access (hroutes hroute)

/-- The namespace stays prepared while a creation writes. -/
theorem writing_meets {p : Action α} (hp : p.Calls (Writing input routes))
    (hfrom : ComesFrom config d input) (hs : Prepared config d routes s) :
    p.Meets ((platformTerms config).contract servePlatform)
      (fun _ t => Prepared config d routes t) s := by
  apply Terms.calls_meet hp stable_prepared hs
  intro c hc t x hprepared ht
  apply admissible_step ht
  cases c with
  | kubernetes op =>
    cases op with
    | read key => trivial
    | create key resourceVersion m => exact (hprepared.mayWrite hfrom hc.1 hc.2).2
    | replace key resourceVersion m => exact hprepared.mayWrite hfrom hc.1 hc.2
    | delete key => exact hc
    | patch key p => exact hc.elim
  | _ => exact hc.elim

theorem deleteIfExists_writing (input : DeployImageInput) (routes : Prop) {key : ObjectKey}
    (h : key.kind.IsWorkload = true) : (deleteIfExists key).Calls (Writing input routes) := by
  have hdelete : (deleteObject key).Calls (Writing input routes) := calls_perform.mpr h
  exact hdelete.tryCatch fun _ => onNotFound_calls (p := pure ()) trivial _

/-- An upsert of an object of the deployment writes that object, new or replaced. -/
theorem upsert_writing {key : ObjectKey} {fresh : Manifest} {replacing : Object → Manifest}
    (hkind : key.kind ≠ .httpRoute) (hfresh : input.Writes key fresh)
    (hreplacing : ∀ o, input.Writes key (replacing o)) :
    (upsert key fresh replacing).Calls (Writing input routes) := by
  have hroutes : key.kind = .httpRoute → routes := fun h => absurd h hkind
  have hread : (readObject key >>= fun body => pure (some body.object) : Action _).Calls
      (Writing input routes) :=
    Prog.Calls.bind (p := readObject key) (calls_perform.mpr trivial) fun _ => trivial
  refine (hread.tryCatch fun _ =>
    onNotFound_calls (p := pure none) trivial _).bind fun existing => ?_
  cases existing with
  | none => exact calls_perform.mpr ⟨hfresh, hroutes⟩
  | some object =>
    have hreplace : (replaceObject key object.resourceVersion (replacing object)).Calls
        (Writing input routes) := calls_perform.mpr ⟨hreplacing object, hroutes⟩
    exact hreplace.tryCatch fun _ =>
      onNotFound_calls (calls_perform.mpr ⟨hreplacing object, hroutes⟩) _

/-- So does one of an object that the deployment may do without. -/
theorem upsertOptional_writing {kind : Kind} {name : Option String} {isEmpty : Bool} {m : Manifest}
    {missing : String} (hkind : kind ≠ .httpRoute) (hworkload : kind.IsWorkload = true)
    (h : ∀ entry ∈ writtenOptional kind input.«namespace» name isEmpty m, entry ∈ input.written) :
    (upsertOptional kind input.«namespace» name isEmpty m missing).Calls
      (Writing input routes) := by
  unfold upsertOptional
  split
  · split
    · exact deleteIfExists_writing input routes hworkload
    · trivial
  · rename_i hempty
    split
    · rename_i name' hname
      have hentry := h (⟨kind, input.«namespace», name'⟩, m)
        (by simp [writtenOptional, hempty, hname])
      exact upsert_writing hkind ⟨_, hentry, rfl, rfl⟩ fun _ => ⟨_, hentry, rfl, rfl⟩
    · trivial

/-- The workload of a deployment, its routes apart. -/
theorem upserts_writing (input : DeployImageInput) : (do
      upsertConfigMap input
      upsertFileConfigMap input
      upsertSecret input
      upsertSecretFiles input
      upsertDeployment input
      upsertService input : Action Unit).Calls (Writing input routes) := by
  have hconfigMap : input.Writes ⟨.configMap, input.«namespace», input.names.configMapName⟩
      (.configMap input.labels input.env) :=
    ⟨(⟨.configMap, input.«namespace», input.names.configMapName⟩,
        .configMap input.labels input.env),
      by simp [DeployImageInput.written], rfl, rfl⟩
  have hdeployment : input.Writes ⟨.deployment, input.«namespace», input.names.deploymentName⟩
      (deploymentManifest input) :=
    ⟨(⟨.deployment, input.«namespace», input.names.deploymentName⟩, deploymentManifest input),
      by simp [DeployImageInput.written], rfl, rfl⟩
  -- an existing Service keeps its addresses
  have hservice : ∀ address, input.Writes ⟨.service, input.«namespace», input.names.serviceName⟩
      (buildServiceManifest input.labels input.port address) := fun address =>
    ⟨(⟨.service, input.«namespace», input.names.serviceName⟩,
      buildServiceManifest input.labels input.port ⟨none, none, none, none⟩),
      by simp [DeployImageInput.written], rfl, rfl⟩
  refine (upsert_writing (by simp) hconfigMap fun _ => hconfigMap).bind fun _ => ?_
  refine (upsertOptional_writing (by simp) rfl ?_).bind fun _ => ?_
  · intro entry hentry
    exact List.mem_append_left _ (List.mem_append_left _ (List.mem_append_left _
      (List.mem_append_left _ (List.mem_append_right _ hentry))))
  refine (upsertOptional_writing (by simp) rfl ?_).bind fun _ => ?_
  · intro entry hentry
    exact List.mem_append_left _ (List.mem_append_left _ (List.mem_append_left _
      (List.mem_append_right _ hentry)))
  refine (upsertOptional_writing (by simp) rfl ?_).bind fun _ => ?_
  · intro entry hentry
    exact List.mem_append_left _ (List.mem_append_left _ (List.mem_append_right _ hentry))
  refine (upsert_writing (by simp) hdeployment fun _ => hdeployment).bind fun _ => ?_
  exact upsert_writing (by simp) (hservice _) fun _ => hservice _

/-- A patch that returns has been applied. -/
theorem servePlatform_patched {key : ObjectKey} {p : MergePatch} {x : Environment}
    {a : (ClusterOp.patch key p).Result}
    (h : (servePlatform (.kubernetes (.patch key p)) x s).1 = .ok a) :
    ∃ o, s.objects key = some o ∧ (servePlatform (.kubernetes (.patch key p)) x s).2.objects =
      (s.world.cluster.put key (o.manifest.patch p)).objects := by
  unfold servePlatform serve at h ⊢
  dsimp only [PlatformState.objects] at h ⊢
  cases hfault : x.kubernetesFault with
  | some fault =>
    rw [hfault] at h
    cases h
  | none =>
    rw [hfault] at h
    simp only [Cluster.serve] at h ⊢
    split at h
    · cases h
    · rename_i o ho
      exact ⟨o, ho, rfl⟩

/-- A namespace that has been labelled grants access. -/
theorem label_meets {«namespace» : String} :
    (patchObject ⟨.ns, "", «namespace»⟩ (.label config.gatewayAccessNamespaceLabelKey
      config.gatewayAccessNamespaceLabelValue)).Meets
      ((platformTerms config).contract servePlatform)
      (fun r t => r = .ok () → t.world.cluster.GrantsAccess config «namespace») s := by
  have hfree : Free config (.kubernetes (.patch ⟨.ns, "", «namespace»⟩
      (.label config.gatewayAccessNamespaceLabelKey config.gatewayAccessNamespaceLabelValue))) :=
    fun _ => ⟨rfl, rfl, rfl⟩
  apply Terms.perform_meets (Terms.stable_const True) trivial
  · exact fun t x _ ht => admissible_step ht (hfree t) x
  · intro t x _ ht hr
    obtain ⟨o, ho, hobjects⟩ := servePlatform_patched hr
    obtain ⟨labels, hlabels⟩ := ht.objects _ o ho
    refine ⟨t.world.cluster.revision + 1, Entries.set labels config.gatewayAccessNamespaceLabelKey
      config.gatewayAccessNamespaceLabelValue, ?_, ?_⟩
    · refine (congrFun hobjects _).trans ?_
      rw [Cluster.put_objects_self, hlabels]
      rfl
    · rw [lookup_set, if_pos rfl]

/-- The two routes are created after the policies and the Service they rest on. -/
theorem enableApplicationRouting_onTerms (hfrom : ComesFrom config d input)
    (hs : Prepared config d False s) :
    (enableApplicationRouting input).Meets ((platformTerms config).contract servePlatform)
      (fun _ _ => True) s := by
  unfold enableApplicationRouting
  split
  · trivial
  · rename_i routing hrouting
    have hrow := hfrom.describes.routing routing hrouting
    have hkey : routing.namespaceLabelKey = config.gatewayAccessNamespaceLabelKey := by rw [hrow]
    have hvalue : routing.namespaceLabelValue = config.gatewayAccessNamespaceLabelValue := by
      rw [hrow]
    rw [hkey, hvalue]
    -- the label comes before the routes
    apply (Terms.meets_frame (label_meets (s := s)) stable_prepared hs).bind
    · rintro ⟨⟩ t ⟨hprepared, hlabelled⟩
      have haccess : Prepared config d True t :=
        ⟨hprepared.created, hprepared.policies, fun _ => hfrom.describes.placed ▸ hlabelled rfl⟩
      have hroute : ∀ key m, (key, m) ∈ generatedRoutes input →
          (createObject key none m).Calls (Writing input True) := by
        intro key m hentry
        refine calls_perform.mpr ⟨⟨(key, m), ?_, rfl, rfl⟩, fun _ => trivial⟩
        exact List.mem_append_right _ hentry
      have hroutes : generatedRoutes input =
          [(input.routeKey, buildApplicationRouteManifest input routing),
           (input.redirectKey, buildApplicationRedirectRouteManifest input routing)] := by
        rw [generatedRoutes, hrouting]
      have hfirst := hroute _ _ (by rw [hroutes]; exact List.mem_cons_self)
      have hsecond := hroute _ _ (by rw [hroutes]; exact List.mem_cons_of_mem _ List.mem_cons_self)
      have hdelete : ∀ key : ObjectKey, key.kind = .httpRoute →
          (deleteIfExists key).Calls (Writing input True) :=
        fun key hkind => deleteIfExists_writing input True (by rw [hkind]; rfl)
      -- the rollback deletes routes of the deployment
      have hrollback : ∀ error, (rollback input error).Calls (Writing input True) :=
        fun error => (hdelete input.redirectKey rfl).bind fun _ =>
          (hdelete input.routeKey rfl).bind fun _ => trivial
      have hcalls := (hfirst.bind fun _ => hsecond).tryCatch hrollback
      exact (writing_meets hcalls hfrom haccess).mono fun _ _ _ => trivial
    · exact fun _ _ _ => trivial

/-- A deployment of a recorded request writes what its record accounts for. -/
theorem deployImage_onTerms (hfrom : ComesFrom config d input) (hs : d ∈ s.created) :
    (deployImage config input).Meets ((platformTerms config).contract servePlatform)
      (fun _ _ => True) s := by
  have hdeploy : deployImage config input =
      (ensureNamespace config input.«namespace» input.labels >>= fun _ => (do
        upsertConfigMap input
        upsertFileConfigMap input
        upsertSecret input
        upsertSecretFiles input
        upsertDeployment input
        upsertService input : Action Unit) >>= fun _ =>
          if input.routing.isSome then enableApplicationRouting input else pure ()) := by
    simp only [Prog.bind_assoc]
    rfl
  rw [hdeploy]
  apply (Terms.meets_frame (ensureNamespace_holds (s := s) _ _) (stable_created d) hs).bind
  · rintro ⟨⟩ t ⟨hcreated, hholds⟩
    have hprepared : Prepared config d False t :=
      ⟨hcreated, fun henabled => hfrom.describes.placed ▸ hholds rfl henabled, fun h => h.elim⟩
    apply (writing_meets (upserts_writing input) hfrom hprepared).bind
    · intro _ u hu
      split
      · exact enableApplicationRouting_onTerms hfrom hu
      · trivial
    · exact fun _ _ _ => trivial
  · exact fun _ _ _ => trivial

/-! ### Where a row comes from -/

/-- A lookup is answered from the tables. -/
theorem lookup_meets {c : Call} (hc : c.IsLookup)
    {Q : Except ApiError c.Result → PlatformState → Prop}
    (herror : ∀ e t, Q (.error e) t)
    (hfound : ∀ t : PlatformState, Q (t.world.serveDatabase c).1 (servePlatform c healthy t).2) :
    (perform c : Action c.Result).Meets ((platformTerms config).contract servePlatform) Q s := by
  apply Terms.perform_meets (Terms.stable_const True) trivial
  · intro t x _ ht
    apply admissible_step ht
    cases c <;> trivial
  · intro t x _ _
    cases hfault : x.databaseFault with
    | some message =>
      have hserve : (servePlatform c x t).1 = .error (.database message) := by
        cases c <;> first | exact hc.elim | simp [servePlatform, serve, hfault]
      rw [hserve]
      exact herror _ _
    | none =>
      have hserve : servePlatform c x t = servePlatform c healthy t := by
        cases c <;> first | exact hc.elim | simp [servePlatform, serve, hfault, healthy]
      have hanswer : (servePlatform c healthy t).1 = (t.world.serveDatabase c).1 := by
        cases c <;> first | exact hc.elim | rfl
      rw [hserve, hanswer]
      exact hfound t

/-- The application that is found is one of the table, under the id that was asked for. -/
theorem findAppOrThrow_onTerms (id : String) :
    (findAppOrThrow id).Meets ((platformTerms config).contract servePlatform)
      (fun r t => ∀ app, r = .ok app → app ∈ t.world.apps ∧ app.id = id) s := by
  have hfind : (findApp id).Meets ((platformTerms config).contract servePlatform)
      (fun r t => ∀ app, r = .ok (some app) → app ∈ t.world.apps ∧ app.id = id) s := by
    apply lookup_meets (c := .findApp id) trivial
    · exact fun e t app h => nomatch h
    · intro t app h
      replace h : t.world.apps.find? (fun a => a.id = id) = some app := Except.ok.inj h
      exact ⟨List.mem_of_find?_eq_some h, by simpa using List.find?_some h⟩
  apply hfind.bind
  · intro found t h
    cases found with
    | none => exact fun app happ => nomatch happ
    | some app =>
      rintro app' ⟨⟩
      exact h app rfl
  · exact fun e t _ app happ => nomatch happ

/-- The image is that of a build, where the request names one. -/
def IsBuilt (builds : List Build) (appId : String) (buildId : Option String) (image : String) :
    Prop :=
  ∀ id, truthy buildId = some id → ∃ build ∈ builds, build.id = id ∧ build.appId = appId ∧
    build.status = .succeeded ∧ build.image = some image

/-- An image is taken only from a build of the application that succeeded. -/
theorem buildImage_ok {appId buildId image : String} {build : Build}
    (h : buildImage appId buildId (some build) = .ok image) :
    build.appId = appId ∧ build.status = .succeeded ∧ build.image = some image := by
  unfold buildImage at h
  dsimp only at h
  split at h
  · cases h
  · rename_i happ
    split at h
    · cases h
    · rename_i hstatus
      split at h
      · cases h
      · rename_i found hfound
        obtain rfl := Except.ok.inj h
        exact ⟨not_not.mp happ, not_not.mp hstatus, (Option.filter_eq_some_iff.mp hfound).1⟩

theorem resolveDeploymentImage_onTerms (appId : String) (dto : CreateDeploymentDto) :
    (resolveDeploymentImage appId dto).Meets ((platformTerms config).contract servePlatform)
      (fun r t => ∀ image, r = .ok image → IsBuilt t.world.builds appId dto.buildId image) s := by
  unfold resolveDeploymentImage
  split
  · exact fun image h => nomatch h
  · exact fun image h => nomatch h
  · rename_i image himage hbuild
    intro image' _ id hid
    -- an image that was given needs no build
    rw [hbuild] at hid
    cases hid
  · rename_i buildId himage hbuild
    -- the build is looked up, and its image is taken
    have hfind : (findBuild buildId).Meets ((platformTerms config).contract servePlatform)
        (fun r t => ∀ build, r = .ok (some build) →
          build ∈ t.world.builds ∧ build.id = buildId) s := by
      apply lookup_meets (c := .findBuild buildId) trivial
      · exact fun e t build h => nomatch h
      · intro t build h
        replace h : t.world.builds.find? (fun b => b.id = buildId) = some build := Except.ok.inj h
        exact ⟨List.mem_of_find?_eq_some h, by simpa using List.find?_some h⟩
    apply hfind.bind
    · intro found t h
      apply meets_ofExcept.mpr
      intro image hok id hid
      obtain rfl := Option.some.inj (hbuild.symm.trans hid)
      cases found with
      -- no such build, no image
      | none => cases hok
      | some build =>
        obtain ⟨hmem, hid⟩ := h build rfl
        exact ⟨build, hmem, hid, buildImage_ok hok⟩
    · exact fun e t _ image hr => nomatch hr

/-- The namespace is that of a workspace of the table. -/
theorem workspaceNamespace_onTerms (workspaceId : String) :
    (workspaceNamespace workspaceId).Meets ((platformTerms config).contract servePlatform)
      (fun r t => ∀ «namespace», r = .ok «namespace» → ∃ workspace ∈ t.world.workspaces,
        workspace.id = workspaceId ∧ workspace.kubernetesNamespace = «namespace») s := by
  have hfind : (findWorkspace workspaceId).Meets ((platformTerms config).contract servePlatform)
      (fun r t => ∀ ws, r = .ok (some ws) → ws ∈ t.world.workspaces ∧ ws.id = workspaceId) s := by
    apply lookup_meets (c := .findWorkspace workspaceId) trivial
    · exact fun e t ws h => nomatch h
    · intro t ws h
      replace h : t.world.workspaces.find? (fun ws => ws.id = workspaceId) = some ws :=
        Except.ok.inj h
      exact ⟨List.mem_of_find?_eq_some h, by simpa using List.find?_some h⟩
  apply hfind.bind
  · intro found t h
    cases found with
    | none => exact fun ns hns => nomatch hns
    | some ws =>
      rintro ns ⟨⟩
      exact ⟨ws, (h ws rfl).1, (h ws rfl).2, rfl⟩
  · exact fun e t _ ns hns => nomatch hns

/-- What has been planned may be inserted. -/
theorem planned_provenance {request : CreateRequest} {app : App}
    {image workspaceId «namespace» : String} {w : World}
    (happ : app ∈ w.apps ∧ app.id = request.appId)
    (hbuilt : IsBuilt w.builds request.appId request.dto.buildId image)
    (hworkspace : ∃ workspace ∈ w.workspaces, workspace.id = workspaceId ∧
      workspace.kubernetesNamespace = «namespace»)
    (h : assembleDeployment config request app image workspaceId «namespace» = .ok (d, input)) :
    ComesFrom config d input ∧ Provenance w d ∧ d.id = request.deploymentId := by
  refine ⟨⟨request, app, image, workspaceId, «namespace», h⟩, ?_⟩
  unfold assembleDeployment at h
  obtain ⟨files, -, h⟩ := except_bind_ok h
  obtain ⟨secretFiles, -, h⟩ := except_bind_ok h
  obtain ⟨routing, -, h⟩ := except_bind_ok h
  dsimp only at h
  split at h
  · cases h
  · cases h
  · obtain ⟨rfl, -⟩ := Prod.mk.inj (Except.ok.inj h)
    refine ⟨⟨⟨app, happ.1, rfl, rfl⟩, hworkspace, fun buildId hbuild => ?_⟩, rfl⟩
    rw [happ.2]
    exact hbuilt buildId hbuild

/-- The record that is planned says where each of its parts comes from. -/
theorem planDeployment_onTerms (request : CreateRequest) :
    (planDeployment config request).Meets ((platformTerms config).contract servePlatform)
      (fun r t => ∀ data input, r = .ok (data, input) →
        ComesFrom config data input ∧ Provenance t.world data ∧
          data.id = request.deploymentId) s := by
  have hrest : ∀ app t, (app ∈ t.world.apps ∧ app.id = request.appId) →
      (planForApp config request app).Meets ((platformTerms config).contract servePlatform)
        (fun r t => ∀ data input, r = .ok (data, input) →
          ComesFrom config data input ∧ Provenance t.world data ∧
            data.id = request.deploymentId) t := by
    intro app t happ
    have happs : (platformTerms config).Stable fun s =>
        app ∈ s.world.apps ∧ app.id = request.appId :=
      stable_tables (P := fun apps _ _ => app ∈ apps ∧ app.id = request.appId)
    -- each lookup finds a row, which others may not change
    apply (Terms.meets_frame (resolveDeploymentImage_onTerms request.appId request.dto)
      happs happ).bind
    · rintro image u ⟨happ, hbuilt⟩
      replace hbuilt := hbuilt image rfl
      have hbuilds : (platformTerms config).Stable fun s => (app ∈ s.world.apps ∧
          app.id = request.appId) ∧
            IsBuilt s.world.builds request.appId request.dto.buildId image :=
        happs.and (stable_tables (P := fun _ builds _ => IsBuilt builds _ _ _))
      apply Prog.Meets.bind (P := fun _ t => t = u) (meets_ofExcept.mpr rfl)
      · rintro workspaceId _ rfl
        apply (Terms.meets_frame (workspaceNamespace_onTerms workspaceId)
          hbuilds ⟨happ, hbuilt⟩).bind
        · rintro ns v ⟨⟨happ, hbuilt⟩, hworkspace⟩
          apply meets_ofExcept.mpr
          exact fun data input h => planned_provenance happ hbuilt (hworkspace ns rfl) h
        · exact fun e t _ data input h => nomatch h
      · exact fun e t _ data input h => nomatch h
    · exact fun e t _ data input h => nomatch h
  have happ : (findAppOrThrow request.appId >>= planForApp config request).Meets
      ((platformTerms config).contract servePlatform)
      (fun r t => ∀ data input, r = .ok (data, input) →
        ComesFrom config data input ∧ Provenance t.world data ∧
          data.id = request.deploymentId) s := by
    apply (findAppOrThrow_onTerms request.appId).bind
    · exact fun app t h => hrest app t (h app rfl)
    · exact fun e t _ data input h => nomatch h
  unfold planDeployment
  split
  · -- a request with secrets needs a permission first
    cases hpermitted : requirePermissions request.scopes ["secrets:write"] with
    | error e => exact fun data input h => nomatch h
    | ok _ => exact happ
  · exact happ

/-! ### Requests -/

/-- An insertion that returns has put its row into the list. -/
theorem createDeployment_onTerms (hfrom : ComesFrom config d input)
    (hplanned : Provenance s.world d) :
    (createDeployment d).Meets ((platformTerms config).contract servePlatform)
      (fun r t => ∀ row, r = .ok row → row = d ∧ d ∈ t.created) s := by
  have hprovenance : (platformTerms config).Stable fun s => Provenance s.world d :=
    fun s t h hst => h.tables hst.allows.apps hst.allows.builds hst.allows.workspaces
  apply Terms.perform_meets hprovenance hplanned
  · exact fun t x h ht => admissible_step (c := .createDeployment d) ht ⟨⟨input, hfrom⟩, h⟩ x
  · intro t x _ _ row hrow
    unfold servePlatform at hrow ⊢
    dsimp only at hrow ⊢
    rw [hrow]
    refine ⟨?_, List.mem_append_right _ (List.mem_singleton.mpr rfl)⟩
    unfold serve at hrow
    dsimp only at hrow
    cases hfault : x.databaseFault with
    | some message =>
      rw [hfault] at hrow
      cases hrow
    | none =>
      rw [hfault] at hrow
      simp only [World.serveDatabase] at hrow
      split at hrow
      · cases hrow
      · split at hrow
        · exact (Except.ok.inj hrow).symm
        · cases hrow

theorem true_onTerms {p : Action α} (hp : p.Calls (Free config)) :
    p.Meets ((platformTerms config).contract servePlatform) (fun _ _ => True) s :=
  free_meets hp (Terms.stable_const True) trivial

/-- **A creation** writes what its row records. -/
theorem create_onTerms (request : CreateRequest) :
    (DeploymentsService.create config request).Meets ((platformTerms config).contract servePlatform)
      (fun _ _ => True) s := by
  unfold DeploymentsService.create
  apply (planDeployment_onTerms request).bind
  · rintro ⟨data, input⟩ t hplanned
    obtain ⟨hfrom, hprovenance, -⟩ := hplanned data input rfl
    apply (createDeployment_onTerms hfrom hprovenance).bind
    · intro row u hrow
      obtain ⟨rfl, hcreated⟩ := hrow row rfl
      have hdeploy : ((deployImage config input).tryCatch fun error => do
          let _ ← updateDeployment row.id { status := some .failed }
          .throw error).Meets ((platformTerms config).contract servePlatform)
            (fun _ _ => True) u := by
        apply (deployImage_onTerms hfrom hcreated).tryCatch
        · exact fun _ _ _ => trivial
        · intro e v _
          exact true_onTerms ((updateDeployment_free _ _).bind fun _ => trivial)
      exact hdeploy.bind (fun _ _ _ => trivial) fun _ _ _ => trivial
    · exact fun _ _ _ => trivial
  · exact fun _ _ _ => trivial

/-- Each request on a deployment keeps to the terms. -/
theorem request_onTerms (id : String) (request : Request) :
    (request.program config id).Meets ((platformTerms config).contract servePlatform)
      (fun _ _ => True) s := by
  cases request with
  | create request =>
    exact (create_onTerms _).bind (fun _ _ _ => trivial) fun _ _ _ => trivial
  | getStatus => exact true_onTerms ((getStatus_free id).bind fun _ => trivial)
  | scale replicas now =>
    have hscale := patchThenUpdate_free config id (fun _ => .replicas replicas)
      (scaleUpdate replicas now) (by simp)
    exact true_onTerms (hscale.bind fun _ => trivial)
  | stop now =>
    have hstop := patchThenUpdate_free config id (fun _ => .replicas 0) (stopUpdate now) (by simp)
    exact true_onTerms (hstop.bind fun _ => trivial)
  | start requested =>
    have hstart := patchThenUpdate_free config id
      (fun d => .replicas (startReplicas requested d))
      (fun d => startUpdate (startReplicas requested d)) (by simp)
    exact true_onTerms (hstart.bind fun _ => trivial)
  | restart now =>
    have hrestart := patchThenUpdate_free config id (fun _ => .restartedAt now)
      (fun _ => { status := some .creating, lastRestartedAt := some (some now) }) (by simp)
    rw [← restart_eq] at hrestart
    exact true_onTerms (hrestart.bind fun _ => trivial)
  | delete now => exact true_onTerms ((delete_free id now).bind fun _ => trivial)

/-- A Job of a build comes after the policies of its namespace. -/
theorem createJob_onTerms (key : ObjectKey) (labels : Entries) {m : Manifest}
    (hkind : key.kind = .job) (hjob : IsBuildJob m) : (do
      ensureNamespace config key.«namespace» labels
      createObject key none m : Action Unit).Meets
        ((platformTerms config).contract servePlatform) (fun _ _ => True) s := by
  apply (ensureNamespace_holds (s := s) _ _).bind
  · rintro ⟨⟩ t hholds
    have hstable : (platformTerms config).Stable fun s =>
        config.tenantNetworkPolicyEnabled = true →
          s.world.cluster.HoldsPolicies config key.«namespace» :=
      fun s t h hst henabled => stable_policies config _ s t (h henabled) hst
    apply Terms.perform_meets hstable (hholds rfl)
    · intro u x hu hkeeps
      apply admissible_step (c := .kubernetes (.create key none m)) hkeeps
      refine ⟨?_, fun henabled _ => hu henabled, fun hroute => ?_⟩
      · unfold HasSource
        rw [hkind]
        exact hjob
      · rw [hkind] at hroute
        cases hroute
    · exact fun _ _ _ _ => trivial
  · exact fun _ _ _ => trivial

/-- Each request to the platform keeps to the terms. -/
theorem program_onTerms (request : PlatformRequest) :
    (request.program config).Meets ((platformTerms config).contract servePlatform)
      (fun _ _ => True) s := by
  cases request with
  | deployment id request =>
    exact (request_onTerms id request).bind (fun _ _ _ => trivial) fun _ _ _ => trivial
  | dockerfileBuild input workspaceId appId buildId =>
    have hmanifest : IsBuildJob (buildBuildJobManifest
        { input with labels := buildJobLabels workspaceId appId buildId }) := .dockerfile rfl
    exact (createJob_onTerms ⟨.job, input.«namespace», input.jobName⟩ _ rfl hmanifest).bind
      (fun _ _ _ => trivial) fun _ _ _ => trivial
  | buildpackBuild input workspaceId appId buildId =>
    have hmanifest : IsBuildJob (buildBuildpackJobManifest
        { input with labels := buildJobLabels workspaceId appId buildId }) := .buildpack rfl
    exact (createJob_onTerms ⟨.job, input.«namespace», input.jobName⟩ _ rfl hmanifest).bind
      (fun _ _ _ => trivial) fun _ _ _ => trivial

/-- In every reachable state. -/
theorem accounted_run {requests : List PlatformRequest} {t : PlatformPool}
    {ls : List ((ℕ × Environment) ⊕ ControllerMove)} (hs : AccountedFor config s)
    (hrun : exec platformStep (platformPool config s requests) ls = some t) :
    AccountedFor config t.state ∧ Preserves config s t.state := by
  have htasks : ∀ task ∈ requests.map fun q => (q, q.program config),
      task.2.Meets ((platformTerms config).contract servePlatform) (fun _ _ => True) s := by
    intro task htask
    obtain ⟨q, -, rfl⟩ := List.mem_map.mp htask
    exact program_onTerms q
  obtain ⟨hkeeps, hallows, -⟩ := Terms.upheld (Q := fun _ _ _ => True) hs htasks
    (fun e u v hu hmove => move_step hu e hmove) hrun
  exact ⟨hkeeps, hallows⟩

/-! ### What the rows tell -/

/-- The row is in the database. -/
def World.HasRow (w : World) (d : Deployment) : Prop := w.deployments d.id = some d

/-- What rows of one identity have in common. -/
structure Deployment.SameRow (d₀ d : Deployment) : Prop where
  id : d₀.id = d.id
  workspaceId : d₀.workspaceId = d.workspaceId
  appId : d₀.appId = d.appId
  buildId : d₀.buildId = d.buildId
  placed : d₀.«namespace» = d.«namespace»
  image : d₀.image = d.image
  port : d₀.port = d.port
  name : d₀.kubernetesDeployment = d.kubernetesDeployment

theorem sameRow_of_identity {d₀ d : Deployment} (h : d₀.identity = d.identity) : d₀.SameRow d := by
  have hcolumn : ∀ {β : Type} (f : Deployment → β), f d₀.identity = f d.identity :=
    fun f => congrArg f h
  exact ⟨hcolumn Deployment.id, hcolumn Deployment.workspaceId, hcolumn Deployment.appId,
    hcolumn Deployment.buildId, hcolumn Deployment.namespace, hcolumn Deployment.image,
    hcolumn Deployment.port, hcolumn Deployment.kubernetesDeployment⟩

/-- The row as it is now. -/
theorem AccountedFor.now {d₀ : Deployment} (h : AccountedFor config s) (hd₀ : d₀ ∈ s.created) :
    ∃ d, s.world.HasRow d ∧ d₀.identity = d.identity := by
  obtain ⟨d, hd, hidentity⟩ := h.inserted d₀ hd₀
  refine ⟨d, ?_, hidentity.symm⟩
  rw [World.HasRow, (sameRow_of_identity hidentity).id, hd]

/-- A pod of a deployment carries its id. -/
theorem RunningPod.IsOf.lookup {pod : RunningPod} (h : pod.IsOf config d) :
    pod.labels.lookup "rca-platform/deployment-id" = some d.id := by
  obtain ⟨input, hfrom, hmade⟩ := h.made
  obtain ⟨templateHash, hlookup⟩ := hfrom.describes.managed.pod_lookup hmade
  rw [hlookup]
  simp [Describes.managed, buildManagedLabels, lookup_cons_ite, PUBLIC_APPLICATION_LABEL]

end NexCause
