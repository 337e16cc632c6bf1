/-
NexCause/DeleteRetry.lean

Cleaning up after a creation, however it ended.  A creation writes the record
before the first object, and touches only objects that the record's names
determine (`create_touches`).  A deletion that fails leaves the record as it
is, so every later attempt goes by the same names (`failedDeletes_keep`); and
the one that returns has deleted all of them (`cleanup_complete`).

The namespace of a workspace and its network policies are shared by its
deployments: a creation may create them, and no deletion removes them.
-/
import NexCause.DeploymentHistory

namespace NexCause

open Program Transition

/-! ### What a creation touches -/

/-- The object belongs to the deployment with this naming. -/
def Naming.Owns (n : Naming) (key : ObjectKey) : Prop := key ∈ n.deletionOrder

/-- The objects that a creation under this naming may touch: its own, and those of the workspace. -/
def Naming.Touches (n : Naming) (key : ObjectKey) : Prop :=
  n.Owns key ∨ key.kind = .ns ∨ key.kind = .networkPolicy

section Touches

variable {n : Naming} {input : DeployImageInput}

/-- The input of `deployImage` has the naming. -/
structure Naming.Names (n : Naming) (input : DeployImageInput) : Prop where
  kubernetesNamespace : input.«namespace» = n.kubernetesNamespace
  names : input.names = resourceNamesOf n.base
  routed : input.routing.isSome = n.routed

/-- The kinds and names of the objects that every deployment has. -/
def Naming.workload (n : Naming) : List (Kind × String) :=
  [(.deployment, n.base), (.service, n.base ++ "-svc"), (.configMap, n.base ++ "-env"),
   (.configMap, n.base ++ "-files"), (.secret, n.base ++ "-secret"),
   (.secret, n.base ++ "-secret-files")]

theorem Naming.touches_object {kind : Kind} {name : String} (h : (kind, name) ∈ n.workload) :
    n.Touches ⟨kind, n.kubernetesNamespace, name⟩ := by
  left
  show _ ∈ n.deletionOrder
  unfold deletionOrder
  apply List.mem_append_right
  simp only [workload, List.mem_cons, List.not_mem_nil, or_false, Prod.mk.injEq] at h
  rcases h with ⟨rfl, rfl⟩ | ⟨rfl, rfl⟩ | ⟨rfl, rfl⟩ | ⟨rfl, rfl⟩ | ⟨rfl, rfl⟩ | ⟨rfl, rfl⟩ <;> simp

/-- The routes of a routed deployment. -/
theorem Naming.touches_route (hrouted : n.routed = true) {name : String}
    (h : name = n.base ++ "-redirect" ∨ name = n.base ++ "-route") :
    n.Touches ⟨.httpRoute, n.kubernetesNamespace, name⟩ := by
  left
  show _ ∈ n.deletionOrder
  unfold deletionOrder
  rw [hrouted]
  rcases h with rfl | rfl <;> simp

/-- The deployment of an image touches the objects of its naming. -/
theorem deployImage_touches (config : ServiceConfig) (h : n.Names input) :
    (deployImage config input).Calls (Call.On n.Touches) := by
  obtain ⟨hns, hnames, hrouted⟩ := h
  -- a name of the workload is one of the naming
  have hobject : ∀ {kind : Kind} {name : String}, (kind, name) ∈ n.workload →
      n.Touches ⟨kind, input.«namespace», name⟩ := by
    intro kind name hmem
    rw [hns]
    exact Naming.touches_object hmem
  have hworkload : input.Workload n.Touches := by
    constructor
    case deployment | service | configMap =>
      apply hobject
      rw [hnames]
      simp [resourceNamesOf, Naming.workload]
    case fileConfigMap | secret | secretFiles =>
      intro name hname
      rw [hnames] at hname
      obtain rfl := Option.some.inj hname
      apply hobject
      simp [Naming.workload]
  apply deployImage_calls
    ((ensureNamespace_on _ _ _).mono fun c => Call.On.mono fun key => .inr) hworkload
  -- the label of the namespace, and the two routes if there is a hostname
  apply enableApplicationRouting_calls (.inr (.inl rfl))
  · intro hsome
    rw [hns, hnames]
    exact Naming.touches_route (hrouted.symm.trans hsome) (.inr rfl)
  · intro hsome
    rw [hns, hnames]
    exact Naming.touches_route (hrouted.symm.trans hsome) (.inl rfl)

end Touches

/-- A record by whose names a deletion finds the objects that changed since `w`. -/
structure Traceable (w t : World) (d : Deployment) : Prop where
  names : deploymentToResourceNames d = .ok (resourceNamesOf d.kubernetesDeployment)
  touched : ∀ key, ¬ d.naming.Touches key → t.cluster.objects key = w.cluster.objects key

theorem Planned.namesOf {request : CreateRequest} {data : Deployment} {input : DeployImageInput}
    (h : Planned request data input) : data.naming.Names input where
  kubernetesNamespace := h.kubernetesNamespace
  names := h.names
  routed := h.routed.symm

/-- Whatever fails, a creation of a new id leaves no record, or a record that names every object
it has touched. -/
theorem create_touches {legal : Call → Environment → Prop} {config : ServiceConfig}
    {request : CreateRequest} {id : String} {w : World} (hid : request.deploymentId = id)
    (hfresh : w.deployments id = none) :
    (DeploymentsService.create config request).Meets (Service.contract serve legal)
      (fun _ t => ∀ d, t.deployments id = some d → Traceable w t d) w := by
  have hno : ∀ d, w.deployments id = some d → Traceable w w d := by
    intro d hd
    rw [hfresh] at hd
    cases hd
  refine (lookups_meets (planDeployment_calls config request)
    (planDeployment_returns config request)).bind (fun p t h => ?_) fun e t h => ?_
  · obtain ⟨rfl, hplanned⟩ := h
    obtain ⟨data, input⟩ := p
    have hplan : Planned request data input := hplanned _ rfl
    have hdata : data.id = id := hplan.id.trans hid
    refine Prog.meets_bind.mpr (createDeployment_meets (fun _ => ?_) fun e => hno)
    rw [hdata]
    show Prog.Meets _ (_ >>= fun _ => _) _ _
    have hrecord : (t.stored id data).deployments id = some data :=
      World.stored_deployments_self ..
    -- the record's update on a failure does not change its names
    have htrace : ∀ (u : World) (upd : DeploymentUpdate), upd.publicHostname = none →
        (∀ key, ¬ data.naming.Touches key → u.cluster.objects key = t.cluster.objects key) →
        Traceable t u (data.update upd) := by
      intro u upd hupd hsame
      have hnaming : (data.update upd).naming = data.naming := by
        unfold Deployment.naming Deployment.update
        rw [hupd]
        rfl
      refine ⟨?_, fun key hkey => hsame key (hnaming ▸ hkey)⟩
      show deploymentToResourceNames data = .ok (resourceNamesOf data.kubernetesDeployment)
      rw [← hplan.names]
      exact hplan.recorded
    have hself : data.update {} = data := rfl
    refine Prog.meets_bind.mpr ((on_meets (w := t.stored id data)
      (deployImage_touches config hplan.namesOf)).tryCatch (fun _ u hu => ?_) fun e u hu => ?_)
    · -- the image is deployed
      intro d hd
      obtain rfl := Option.some.inj (hrecord.symm.trans ((hu.1 ▸ hd : (t.stored id data).deployments
        id = some d)))
      exact hself ▸ htrace u {} rfl hu.2
    · -- a call failed: the record is marked, or that fails too
      refine Prog.meets_bind.mpr (updateDeployment_meets (fun d hd => ?_) fun e' _ => ?_)
      · rw [hdata, hu.1, hrecord] at hd
        obtain rfl := Option.some.inj hd
        rw [hdata]
        intro d hd
        obtain rfl := Option.some.inj ((World.stored_deployments_self u id _).symm.trans hd)
        exact htrace _ { status := some .failed } rfl hu.2
      · intro d hd
        rw [hu.1, hrecord] at hd
        obtain rfl := Option.some.inj hd
        exact hself ▸ htrace u {} rfl hu.2
  · rw [h.1]
    exact hno

/-! ### Deletions that fail -/

/-- A delete request that throws. -/
def FailedDelete (config : ServiceConfig) (id : String) (w : World) (o : Operation) : Prop :=
  ∃ now e, o.request = .delete now ∧ (o.finish config id w).outcome = .error e

/-- The records of `id` go by names that a deletion rebuilds. -/
def Named (id : String) (w : World) : Prop :=
  ∀ d, w.deployments id = some d →
    deploymentToResourceNames d = .ok (resourceNamesOf d.kubernetesDeployment)

/-- What a failed deletion leaves: the same records, and no object that was not there. -/
structure Interrupted (w t : World) : Prop where
  records : t.deployments = w.deployments
  objects : ∀ key, t.cluster.objects key = w.cluster.objects key ∨ t.cluster.objects key = none

theorem interrupted_refl (w : World) : Interrupted w w := ⟨rfl, fun _ => .inl rfl⟩

theorem Interrupted.trans {w t u : World} (h : Interrupted w t) (h' : Interrupted t u) :
    Interrupted w u := by
  refine ⟨h'.records.trans h.records, fun key => ?_⟩
  rcases h'.objects key with hsame | hnone
  · rw [hsame]
    exact h.objects key
  · exact .inr hnone

theorem interrupted_swept (w : World) (keys : List ObjectKey) : Interrupted w (w.swept keys) := by
  refine ⟨rfl, fun key => ?_⟩
  rw [World.swept_objects]
  split
  · exact .inr rfl
  · exact .inl rfl

/-- **A failed deletion leaves the record unchanged.** -/
theorem failedDelete_keeps {config : ServiceConfig} {id : String} {w : World} {o : Operation}
    (hw : Named id w) (h : FailedDelete config id w o) :
    Interrupted w (o.finish config id w).state := by
  obtain ⟨now, e, hrequest, houtcome⟩ := h
  obtain ⟨ended, hrun, hfinish⟩ := finish_of_delete config hrequest hw
  rw [hfinish] at houtcome ⊢
  cases hrun with
  | unread e => exact interrupted_refl w
  | interrupted d e j => exact interrupted_swept w _
  | unstored d e => exact interrupted_swept w _
  | deleted d => cases houtcome

/-- And so does any number of them. -/
theorem failedDeletes_keep {config : ServiceConfig} {id : String} {w t : World}
    {deletes : List Operation} (hw : Named id w)
    (hfailed : Along (historyStep config id) (FailedDelete config id) w deletes)
    (hrun : exec (historyStep config id) w deletes = some t) : Interrupted w t := by
  have hstep : ∀ (s : World) (o : Operation) (u : World), Interrupted w s →
      FailedDelete config id s o → historyStep config id s o = some u → Interrupted w u := by
    intro s o u hs ho hu
    obtain rfl := Option.some.inj hu
    have hnamed : Named id s := by
      intro d hd
      rw [hs.records] at hd
      exact hw d hd
    exact hs.trans (failedDelete_keeps hnamed ho)
  exact exec_invariant hstep (interrupted_refl w) hfailed hrun

/-! ### The deletion that returns -/

/-- The kinds of object that make up a deployment. -/
def Kind.IsDeployed : Kind → Prop
  | .deployment => True
  | .service => True
  | .configMap => True
  | .secret => True
  | .httpRoute => True
  | _ => False

/-- **Cleanup is complete and can be retried.**  A creation of a new id ends in any way, then any
number of deletions fail, one after the other, and then one returns; every call may fail.  The
failed deletions leave the record unchanged.  After the last one the record is marked deleted, and
every Deployment, Service, ConfigMap, Secret and HTTPRoute that the creation made or changed is
gone. -/
theorem cleanup_complete {config : ServiceConfig} {id : String} {w w₁ w₂ w₃ : World}
    {create last : Operation} {deletes : List Operation} {request : CreateRequest} {now : ℕ}
    {response : Response} (hfresh : w.deployments id = none)
    (hcreate : create.request = .create request) (hw₁ : (create.finish config id w).state = w₁)
    (hfailed : Along (historyStep config id) (FailedDelete config id) w₁ deletes)
    (hw₂ : exec (historyStep config id) w₁ deletes = some w₂)
    (hlast : last.request = .delete now) (hw₃ : (last.finish config id w₂).state = w₃)
    (hok : (last.finish config id w₂).outcome = .ok response) :
    w₂.deployments = w₁.deployments ∧
      (∃ d, w₃.deployments id = some d ∧ d.status = .deleted) ∧
      ∀ key, key.kind.IsDeployed → w₁.cluster.objects key ≠ w.cluster.objects key →
        w₃.cluster.objects key = none := by
  -- the creation leaves a record that names what it touched
  have htrace : ∀ d, w₁.deployments id = some d → Traceable w w₁ d := by
    have hprogram : create.request.program config id =
        DeploymentsService.create config { request with deploymentId := id } >>=
          fun d => .ret (.sanitized d) := by
      rw [hcreate]
      rfl
    have hmeets : (DeploymentsService.create config { request with deploymentId := id }).Meets
        (Service.contract serve fun _ _ => True)
        (fun _ t => ∀ d, t.deployments id = some d → Traceable w t d) w :=
      create_touches rfl hfresh
    rw [← hw₁, finish_of_program hprogram]
    exact run_of_meets hmeets fun _ _ _ => trivial
  have hkept : Interrupted w₁ w₂ :=
    failedDeletes_keep (fun d hd => (htrace d hd).names) hfailed hw₂
  have hnamed : Named id w₂ := by
    intro d hd
    rw [hkept.records] at hd
    exact (htrace d hd).names
  refine ⟨hkept.records, ?_⟩
  obtain ⟨ended, hrun, hfinish⟩ := finish_of_delete config hlast hnamed
  rw [hfinish] at hw₃ hok
  cases hrun with
  | unread e => cases hok
  | interrupted d e j => cases hok
  | unstored d e => cases hok
  | deleted d hd =>
    subst hw₃
    refine ⟨⟨_, World.stored_deployments_self .., rfl⟩, fun key hkind hchanged => ?_⟩
    rw [hkept.records] at hd
    have htouched : d.naming.Touches key := by
      apply Classical.byContradiction
      intro hnot
      exact hchanged ((htrace d hd).touched key hnot)
    -- it is no object of the workspace, so the sweep deletes it
    have howns : key ∈ d.naming.deletionOrder := by
      rcases htouched with howns | hns | hpolicy
      · exact howns
      · rw [hns] at hkind
        exact hkind.elim
      · rw [hpolicy] at hkind
        exact hkind.elim
    show (if key ∈ d.naming.deletionOrder then none else w₂.cluster.objects key) = none
    rw [if_pos howns]

/-- A creation whose first call for the Service fails, so that the Deployment and its ConfigMap are
left behind. -/
def failingCreate : Operation :=
  ⟨.create sampleRequest, fun n => if n = 12 then clusterFault else healthy⟩

/-- A deletion that fails at its second object. -/
def failingDelete : Operation := ⟨.delete 7, fun n => if n = 2 then clusterFault else healthy⟩

/-- A deletion without faults. -/
def lastDelete : Operation := ⟨.delete 8, fun _ => healthy⟩

/-- What an operation that did not return threw. -/
theorem error_of_not_isOk {α : Type} {r : Except ApiError α} (h : r.isOk = false) :
    ∃ e, r = .error e := by
  cases r with
  | ok a => cases h
  | error e => exact ⟨e, rfl⟩

theorem ok_of_isOk {α : Type} {r : Except ApiError α} (h : r.isOk = true) : ∃ a, r = .ok a := by
  cases r with
  | ok a => exact ⟨a, rfl⟩
  | error e => cases h

/-- The theorem at these three operations: the ConfigMap that the failed deletion did not reach is
gone at the end. -/
theorem cleanup_complete_retry :
    ∃ w₁ w₂ w₃, (failingCreate.finish sampleConfig "1" sampleEmptyWorld).state = w₁ ∧
      exec (historyStep sampleConfig "1") w₁ [failingDelete] = some w₂ ∧
      (lastDelete.finish sampleConfig "1" w₂).state = w₃ ∧
      (w₂.cluster.objects ⟨.configMap, "ns", "a-1-env"⟩).isSome ∧
      w₂.deployments = w₁.deployments ∧
      (∃ d, w₃.deployments "1" = some d ∧ d.status = .deleted) ∧
      w₃.cluster.objects ⟨.configMap, "ns", "a-1-env"⟩ = none := by
  have hfail : (failingDelete.finish sampleConfig "1"
      (failingCreate.finish sampleConfig "1" sampleEmptyWorld).state).outcome.isOk = false := by
    decide
  have hlast : (lastDelete.finish sampleConfig "1" (failingDelete.finish sampleConfig "1"
      (failingCreate.finish sampleConfig "1" sampleEmptyWorld).state).state).outcome.isOk = true := by
    decide
  have hleft : ((failingDelete.finish sampleConfig "1" (failingCreate.finish sampleConfig "1"
      sampleEmptyWorld).state).state.cluster.objects ⟨.configMap, "ns", "a-1-env"⟩).isSome = true := by
    decide
  have hmade : ((failingCreate.finish sampleConfig "1" sampleEmptyWorld).state.cluster.objects
      ⟨.configMap, "ns", "a-1-env"⟩).isSome = true := by
    decide
  obtain ⟨e, he⟩ := error_of_not_isOk hfail
  obtain ⟨response, hok⟩ := ok_of_isOk hlast
  have hfailed : Along (historyStep sampleConfig "1") (FailedDelete sampleConfig "1")
      (failingCreate.finish sampleConfig "1" sampleEmptyWorld).state [failingDelete] :=
    ⟨⟨7, e, rfl, he⟩, fun _ _ => trivial⟩
  -- after the last delete
  obtain ⟨hrecords, hdeleted, hgone⟩ := cleanup_complete (w := sampleEmptyWorld) rfl
    (rfl : failingCreate.request = .create sampleRequest) rfl hfailed rfl
    (rfl : lastDelete.request = .delete 8) rfl hok
  refine ⟨_, _, _, rfl, rfl, rfl, hleft, hrecords, hdeleted, hgone _ trivial fun hsame => ?_⟩
  -- the object was there before
  rw [hsame] at hmade
  cases hmade

end NexCause
