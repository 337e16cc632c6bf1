/-
NexCause/CreateDelete.lean

One create and one delete request for the same deployment id, interleaved, all
calls succeeding.

The record is visible to the delete before the objects exist, and nothing makes
the creation stop once the record is deleted.  What is left of the objects is
decided, for each of them, by whether the creation creates it after the
deletion deletes it (`left_behind_iff`); a whole workload is left when the
deletion falls between the insertion and the first object
(`delete_leaves_workload`).
-/
import NexCause.DeploymentPrograms

namespace NexCause

open Program Transition

/-! ### Calls on the objects -/

/-- The call is not on the object. -/
def Call.Avoids (key : ObjectKey) (c : Call) : Prop := ∀ op, c = .kubernetes op → op.key ≠ key

/-- No call of `h` is on one of the objects. -/
def Untouched (keys : List ObjectKey) (h : List Call) : Prop :=
  ∀ key ∈ keys, ∀ c ∈ h, c.Avoids key

/-- The call creates the object. -/
def Call.Creates (key : ObjectKey) (c : Call) : Prop := ∃ m, c = .kubernetes (.create key none m)

/-! ### The create request -/

/-- What the creation knows: the naming, what it plans, and the world its reads
are answered from.  What it plans to insert has the naming. -/
structure Creation where
  naming : Naming
  plan : Except ApiError (Deployment × DeployImageInput)
  world : World
  planned : ∀ p, plan = .ok p → naming.Of p.1 ∧ p.1.status = .creating ∧
    (truthy p.1.publicHostname).isSome = naming.routed

/-- The calls of the create request: it creates no object twice, deletes no
object it created, creates routes only for a routed deployment, and inserts
what it planned. -/
def creationCall (n : Creation) (c : Call) (h : List Call) : Prop :=
  match c with
  | .kubernetes (.create key _ _) =>
      key ∈ n.naming.objects → (∀ c ∈ h, ¬ c.Creates key) ∧ key ∈ n.naming.deleted
  | .kubernetes (.delete key) => key ∈ n.naming.objects → ∀ c ∈ h, ¬ c.Creates key
  | .createDeployment data => ∃ input, n.plan = .ok (data, input)
  | .updateDeployment _ u => u = { status := some .failed }
  | _ => True

/-- Its answers: an object it has not created is not there. -/
def creationAnswer (n : Creation) (h : List Call) : (c : Call) → Except ApiError c.Result → Prop
  | .kubernetes (.read key), r =>
      key ∈ n.naming.objects → (∀ c ∈ h, ¬ c.Creates key) → r = .error (.kubernetes 404 "NotFound")
  | .kubernetes (.create key none _), r =>
      key ∈ n.naming.objects → (∀ c ∈ h, ¬ c.Creates key) → r = .ok ()
  | c, r => c.IsLookup → r = (serve c healthy n.world).1

def creationContract (n : Creation) : Prog.Contract Call Call.Result ApiError (List Call) where
  pre c h := creationCall n c h
  post c h r h' := creationAnswer n h c r ∧ h' = h ++ [c]

theorem Untouched.creates {keys : List ObjectKey} {h : List Call} (hu : Untouched keys h)
    {key : ObjectKey} (hkey : key ∈ keys) : ∀ c ∈ h, ¬ c.Creates key := by
  rintro c hc ⟨m, rfl⟩
  exact hu key hkey _ hc _ rfl rfl

theorem Untouched.append {keys : List ObjectKey} {h : List Call} {c : Call}
    (hu : Untouched keys h) (hc : ∀ key ∈ keys, c.Avoids key) : Untouched keys (h ++ [c]) := by
  intro key hkey c' hc'
  rcases List.mem_append.mp hc' with hc' | hc'
  · exact hu key hkey c' hc'
  · rw [List.mem_singleton] at hc'
    exact hc' ▸ hc key hkey

theorem Untouched.tail {key : ObjectKey} {keys : List ObjectKey} {h : List Call}
    (hu : Untouched (key :: keys) h) : Untouched keys h :=
  fun key' hkey' => hu key' (List.mem_cons_of_mem _ hkey')

/-- A call on another object. -/
theorem avoids_of_not_mem {keys : List ObjectKey} {op : ClusterOp} (h : op.key ∉ keys) :
    ∀ key ∈ keys, Call.Avoids key (.kubernetes op) := by
  rintro key hkey op' heq rfl
  obtain rfl := Call.kubernetes.inj heq
  exact h hkey

section Creation

variable {n : Creation} {h : List Call} {key : ObjectKey} {keys : List ObjectKey}

/-- Go on when the first part leaves the remaining objects untouched. -/
theorem creation_bind {α β : Type} {p : Action α} {f : α → Action β}
    (hp : p.Meets (creationContract n) (fun _ h' => Untouched keys h') h)
    (hf : ∀ a h', Untouched keys h' →
      (f a).Meets (creationContract n) (fun _ _ => True) h') :
    (p >>= f).Meets (creationContract n) (fun _ _ => True) h :=
  hp.bind hf fun _ _ _ => trivial

/-- A creation of an object that was not touched. -/
theorem create_creation (hkey : key ∈ n.naming.deleted) (hu : Untouched (key :: keys) h)
    (hnot : key ∉ keys) (m : Manifest) :
    (createObject key none m).Meets (creationContract n)
      (fun r h' => r = .ok () ∧ Untouched keys h') h := by
  have hfree := hu.creates List.mem_cons_self
  refine Prog.meets_perform.mpr ⟨fun _ => ⟨hfree, hkey⟩, ?_⟩
  rintro r h' ⟨hr, rfl⟩
  exact ⟨hr (Naming.objects_of_deleted hkey) hfree, hu.tail.append (avoids_of_not_mem hnot)⟩

/-- An upsert of an object that was not touched: it is not there, so it is
created. -/
theorem upsert_creation (hkey : key ∈ n.naming.deleted) (hu : Untouched (key :: keys) h)
    (hnot : key ∉ keys) (fresh : Manifest) (replacing : Object → Manifest) :
    (upsert key fresh replacing).Meets (creationContract n) (fun _ h' => Untouched keys h') h := by
  have hfree := hu.creates List.mem_cons_self
  refine ⟨trivial, ?_⟩
  rintro r h' ⟨hr, rfl⟩
  obtain rfl := hr (Naming.objects_of_deleted hkey) hfree
  refine ⟨fun _ => ⟨?_, hkey⟩, ?_⟩
  · intro c hc
    rcases List.mem_append.mp hc with hc | hc
    · exact hfree c hc
    · rw [List.mem_singleton] at hc
      rintro ⟨m, rfl⟩
      cases hc
  · rintro r h' ⟨-, rfl⟩
    have hread : Untouched keys (h ++ [.kubernetes (.read key)]) :=
      hu.tail.append (avoids_of_not_mem hnot)
    exact Prog.meets_ofExcept.mpr (hread.append (avoids_of_not_mem hnot))

theorem deleteIfExists_creation (hu : Untouched (key :: keys) h) (hnot : key ∉ keys) :
    (deleteIfExists key).Meets (creationContract n) (fun _ h' => Untouched keys h') h := by
  refine ⟨fun _ => hu.creates List.mem_cons_self, ?_⟩
  rintro r h' ⟨-, rfl⟩
  have hu' : Untouched keys (h ++ [.kubernetes (.delete key)]) :=
    hu.tail.append (avoids_of_not_mem hnot)
  cases r with
  | ok v => exact hu'
  | error e =>
    show Prog.Meets _ (onNotFound _ e) _ _
    unfold onNotFound
    split
    · exact hu'
    · exact hu'

/-- An optional object, created or deleted. -/
theorem upsertOptional_creation {kind : Kind} {kubernetesNamespace name : String}
    (hname : name ≠ "") (hkey : ⟨kind, kubernetesNamespace, name⟩ ∈ n.naming.deleted)
    (hu : Untouched (⟨kind, kubernetesNamespace, name⟩ :: keys) h)
    (hnot : ⟨kind, kubernetesNamespace, name⟩ ∉ keys) (isEmpty : Bool) (m : Manifest)
    (missing : String) :
    (upsertOptional kind kubernetesNamespace (some name) isEmpty m missing).Meets
      (creationContract n) (fun _ h' => Untouched keys h') h := by
  have ht : truthy (some name) = some name := by simp [truthy, hname]
  unfold upsertOptional
  rw [ht]
  split
  · exact deleteIfExists_creation hu hnot
  · exact upsert_creation hkey hu hnot m _

/-- Calls on other objects leave the objects untouched. -/
theorem creation_of_calls {α : Type} {p : Action α} (hu : Untouched n.naming.objects h)
    (hp : p.Calls (Call.On fun key => key ∉ n.naming.objects)) :
    p.Meets (creationContract n) (fun _ h' => Untouched n.naming.objects h') h := by
  refine hp.keeps ?_ hu
  rintro c h ⟨op, rfl, hop⟩ hu
  refine ⟨?_, ?_⟩
  · cases op with
    | create key rv m => exact fun hmem => absurd hmem hop
    | delete key => exact fun hmem => absurd hmem hop
    | _ => trivial
  · rintro r h' ⟨-, rfl⟩
    exact hu.append (avoids_of_not_mem hop)

/-! ### The creation, object by object -/

theorem ensureNamespace_creation (config : ServiceConfig) (kubernetesNamespace : String)
    (labels : Entries) (hu : Untouched n.naming.objects h) :
    (ensureNamespace config kubernetesNamespace labels).Meets (creationContract n)
      (fun _ h' => Untouched n.naming.objects h') h := by
  refine creation_of_calls hu ((ensureNamespace_on ..).mono fun c => Call.On.mono ?_)
  rintro key hkind hmem
  simp only [Naming.objects, deploymentObjects, List.mem_cons, List.not_mem_nil] at hmem
  rcases hmem with rfl | rfl | rfl | rfl | rfl | rfl | rfl | rfl | hmem
  all_goals first | cases hmem | simp at hkind

/-- The routes: created on untouched names, so that nothing is rolled back. -/
theorem enableApplicationRouting_creation {input : DeployImageInput} {route redirect : ObjectKey}
    (hroute : ⟨.httpRoute, input.«namespace», input.names.httpRouteName⟩ = route)
    (hredirect : ⟨.httpRoute, input.«namespace», input.names.httpRedirectRouteName⟩ = redirect)
    (hns : ⟨.ns, "", input.«namespace»⟩ ∉ [route, redirect])
    (hdeleted : ∀ key ∈ [route, redirect], key ∈ n.naming.deleted)
    (hne : route ∉ [redirect]) (hu : Untouched [route, redirect] h) :
    (enableApplicationRouting input).Meets (creationContract n) (fun _ _ => True) h := by
  subst hroute hredirect
  unfold enableApplicationRouting
  split
  · trivial
  · rename_i routing _
    refine ⟨trivial, ?_⟩
    rintro r h' ⟨-, rfl⟩
    cases r with
    | error e => trivial
    | ok v =>
      refine Prog.Meets.tryCatch (P := fun r _ => r = .ok ()) ?_ (fun _ _ _ => trivial)
        fun e t he => nomatch he
      have hu' := hu.append (c := .kubernetes (.patch ⟨.ns, "", input.«namespace»⟩
        (.label routing.namespaceLabelKey routing.namespaceLabelValue))) (avoids_of_not_mem hns)
      refine (create_creation (hdeleted _ (by simp)) hu' hne _).bind (fun _ h' hok => ?_)
        fun e h' he => nomatch he.1
      refine (create_creation (hdeleted _ (by simp)) hok.2 (by simp) _).mono fun r h' hr => hr.1

theorem deployImage_creation (config : ServiceConfig) {input : DeployImageInput}
    (hns : input.«namespace» = n.naming.kubernetesNamespace)
    (hnames : input.names = resourceNamesOf n.naming.base)
    (hrouted : input.routing.isSome = n.naming.routed) (hu : Untouched n.naming.objects h) :
    (deployImage config input).Meets (creationContract n) (fun _ _ => True) h := by
  have hnodup := deploymentObjects_nodup n.naming.kubernetesNamespace n.naming.base
  simp only [deploymentObjects, List.nodup_cons] at hnodup
  obtain ⟨hconfig, hfiles, hsecret, hsecretFiles, hdeployment, hservice, hroute, -⟩ := hnodup
  have hdeleted : ∀ key ∈ n.naming.objects, key.kind ≠ .httpRoute → key ∈ n.naming.deleted :=
    fun key hkey hkind => List.mem_filter.mpr ⟨hkey, by simp [hkind]⟩
  have hobject : ∀ key, key ∈ deploymentObjects n.naming.kubernetesNamespace n.naming.base →
      key ∈ n.naming.objects :=
    fun _ h => h
  have hne : ∀ suffix : String, suffix ≠ "" → n.naming.base ++ suffix ≠ "" :=
    fun suffix hs hcat => hs (String.append_eq_empty_iff.mp hcat).2
  obtain ⟨ns, names, image, port, replicas, env, secrets, files, secretFiles, labels, routing⟩ :=
    input
  dsimp only at hns hnames hrouted
  subst hns hnames
  unfold deployImage
  -- one object after the other, each under a key that is its own
  refine creation_bind (ensureNamespace_creation _ _ _ hu) fun _ h hu => ?_
  refine creation_bind (upsert_creation (hdeleted _ (hobject _ ?_) (by simp)) hu hconfig _ _)
    fun _ h hu => ?_
  · simp [deploymentObjects]
  refine creation_bind (upsertOptional_creation (hne _ (by decide))
    (hdeleted _ (hobject _ ?_) (by simp)) hu hfiles _ _ _) fun _ h hu => ?_
  · simp [deploymentObjects]
  refine creation_bind (upsertOptional_creation (hne _ (by decide))
    (hdeleted _ (hobject _ ?_) (by simp)) hu hsecret _ _ _) fun _ h hu => ?_
  · simp [deploymentObjects]
  refine creation_bind (upsertOptional_creation (hne _ (by decide))
    (hdeleted _ (hobject _ ?_) (by simp)) hu hsecretFiles _ _ _) fun _ h hu => ?_
  · simp [deploymentObjects]
  refine creation_bind (upsert_creation (hdeleted _ (hobject _ ?_) (by simp)) hu hdeployment _ _)
    fun _ h hu => ?_
  · simp [deploymentObjects]
  refine creation_bind (upsert_creation (hdeleted _ (hobject _ ?_) (by simp)) hu hservice _ _)
    fun _ h hu => ?_
  · simp [deploymentObjects]
  dsimp only
  split
  · -- the routes are among the objects only if the deployment is routed
    rename_i hr
    refine enableApplicationRouting_creation rfl rfl (by simp) ?_ hroute hu
    intro key hkey
    refine List.mem_filter.mpr ⟨?_, by rw [hrouted.symm.trans hr]; rfl⟩
    rcases List.mem_pair.mp hkey with rfl | rfl <;>
      simp [Naming.objects, deploymentObjects, resourceNamesOf]
  · trivial

/-- The create request keeps its contract. -/
theorem create_meets (config : ServiceConfig) {id : String} {request : CreateRequest}
    (hplan : n.plan = plannedOutcome config { request with deploymentId := id } n.world) :
    ((Request.create request).program config id).Meets (creationContract n) (fun _ _ => True) [] := by
  have hlookups : (planDeployment config { request with deploymentId := id }).Meets
      (creationContract n) (fun r h => r = n.plan ∧ ∀ c ∈ h, Call.IsLookup c) [] := by
    rw [hplan]
    refine lookups_run (planDeployment_calls ..) ?_ ?_ fun _ hc => nomatch hc
    · intro c h hc
      cases c <;> trivial
    · rintro c h r h' hc ⟨hr, rfl⟩
      cases c <;> first | exact ⟨hr hc, rfl⟩ | exact hc.elim
  have hcreate : (DeploymentsService.create config { request with deploymentId := id }).Meets
      (creationContract n) (fun _ _ => True) [] := by
    refine hlookups.bind ?_ fun _ _ _ => trivial
    rintro ⟨data, input⟩ h ⟨hok, hlookup⟩
    have hp := plannedOutcome_planned (hplan.symm.trans hok.symm)
    obtain ⟨hof, -, hrouted⟩ := n.planned _ hok.symm
    have hu : Untouched n.naming.objects h := fun key _ c hc op heq => (heq ▸ hlookup c hc).elim
    -- the insertion
    refine ⟨⟨input, hok.symm⟩, ?_⟩
    rintro r h' ⟨-, rfl⟩
    cases r with
    | error e => trivial
    | ok v =>
      have hdeploy : ((deployImage config input).tryCatch fun error => do
          let _ ← updateDeployment v.id { status := some .failed }
          .throw error).Meets (creationContract n) (fun _ _ => True)
          (h ++ [.createDeployment data]) := by
        refine (deployImage_creation config (hp.kubernetesNamespace.trans hof.kubernetesNamespace)
          (hp.names.trans (by rw [hof.base])) (hp.routed.symm.trans hrouted)
          (hu.append (c := .createDeployment data) fun _ _ _ heq => nomatch heq)).tryCatch
          (fun _ _ _ => trivial) ?_
        -- on an error the record is marked as failed
        refine fun e h _ => ⟨rfl, ?_⟩
        rintro r h' ⟨-, rfl⟩
        cases r <;> trivial
      exact hdeploy.bind (fun _ _ _ => trivial) fun _ _ _ => trivial
  exact hcreate.bind (fun _ _ _ => trivial) fun _ _ _ => trivial

end Creation

/-! ### The delete request -/

/-- The calls of the delete request: it makes none twice, reads the record
first, deletes objects only, and updates the record when it has deleted them
all. -/
def deletionCall (n : Naming) (id : String) (c : Call) (h : List Call) : Prop :=
  c ∉ h ∧
  match c with
  | .findDeployment id' => id' = id ∧ h = []
  | .kubernetes (.delete _) => True
  | .kubernetes _ => False
  | .updateDeployment _ _ => ∀ key ∈ n.deleted, .kubernetes (.delete key) ∈ h
  | .createDeployment _ => False
  | _ => True

/-- Its answers: the record it finds has the naming. -/
def deletionAnswer (n : Naming) : (c : Call) → Except ApiError c.Result → Prop
  | .findDeployment _, r =>
      ∀ d : Deployment, r = .ok (some d) → n.Of d ∧ (truthy d.publicHostname).isSome = n.routed
  | _, _ => True

def deletionContract (n : Naming) (id : String) :
    Prog.Contract Call Call.Result ApiError (List Call) where
  pre c h := deletionCall n id c h
  post c h r h' := deletionAnswer n c r ∧ h' = h ++ [c]

section Deletion

variable {n : Naming} {id : String} {h : List Call} {key : ObjectKey}

/-- Deleting objects one by one, none of them twice. -/
theorem forM_deletion {keys : List ObjectKey} (hnodup : keys.Nodup)
    (hnot : ∀ key ∈ keys, .kubernetes (.delete key) ∉ h) :
    (keys.forM deleteIfExists).Meets (deletionContract n id)
      (fun r h' => r = .ok () → h' = h ++ keys.map fun key => .kubernetes (.delete key)) h := by
  induction keys generalizing h with
  | nil => exact fun _ => by simp
  | cons key keys ih =>
    obtain ⟨hkey, hnodup⟩ := List.nodup_cons.mp hnodup
    have hrest := ih (h := h ++ [.kubernetes (.delete key)]) hnodup (by
      intro key' hkey' hmem
      rcases List.mem_append.mp hmem with hmem | hmem
      · exact hnot key' (List.mem_cons_of_mem _ hkey') hmem
      · simp only [List.mem_singleton, Call.kubernetes.injEq, ClusterOp.delete.injEq] at hmem
        exact hkey (hmem ▸ hkey'))
    rw [List.append_assoc] at hrest
    refine ⟨⟨hnot key List.mem_cons_self, trivial⟩, ?_⟩
    rintro r h' ⟨-, rfl⟩
    cases r with
    | ok v => exact hrest
    | error e =>
      show ((onNotFound (pure ()) e : Action Unit) >>= fun _ => keys.forM deleteIfExists).Meets _ _ _
      unfold onNotFound
      split
      · exact hrest
      · exact fun hr => nomatch hr

/-- The delete request keeps its contract. -/
theorem delete_meets (config : ServiceConfig) (n : Naming) (id : String) (now : ℕ) :
    ((Request.delete now).program config id).Meets (deletionContract n id) (fun _ _ => True) [] := by
  have hdelete : (DeploymentsService.delete id now).Meets (deletionContract n id)
      (fun _ _ => True) [] := by
    refine ⟨⟨List.not_mem_nil, rfl, rfl⟩, ?_⟩
    rintro r h ⟨hr, rfl⟩
    match r, hr with
    -- no row to delete
    | .error e, _ => trivial
    | .ok none, _ => trivial
    | .ok (some d), hr =>
      obtain ⟨hd, hrouted⟩ := hr d rfl
      -- all objects are deleted, in their order, before the row is
      have hall : (deleteDeploymentResources d.«namespace» (resourceNamesOf n.base)
          (truthy d.publicHostname).isSome).Meets (deletionContract n id)
          (fun r h' => r = .ok () → h' = [.findDeployment id] ++
            n.deletionOrder.map fun key => .kubernetes (.delete key)) [.findDeployment id] := by
        rw [hd.kubernetesNamespace, hrouted, deleteDeploymentResources_eq]
        exact forM_deletion n.deletionOrder_nodup (by simp)
      show ((liftExcept (deploymentToResourceNames d)) >>= fun names =>
        deleteDeploymentResources d.«namespace» names (truthy d.publicHostname).isSome >>= fun _ =>
        updateDeployment id (deletedUpdate now) >>= fun deleted =>
        pure (sanitizeDeployment deleted)).Meets _ _ _
      rw [hd.names]
      refine hall.bind (fun _ h hh => ?_) fun _ _ _ => trivial
      obtain rfl := hh rfl
      refine ⟨⟨by simp, ?_⟩, ?_⟩
      · intro key hkey
        exact List.mem_append_right _ (List.mem_map_of_mem (Naming.mem_deletionOrder hkey))
      · -- the row is written last
        rintro r h' ⟨-, rfl⟩
        cases r <;> trivial
  exact hdelete.bind (fun _ _ _ => trivial) fun _ _ _ => trivial

end Deletion

/-! ### The two together -/

/-- The contract of each request. -/
def raceContract (n : Creation) (id : String) :
    Request → Prog.Contract Call Call.Result ApiError (List Call)
  | .create _ => creationContract n
  | _ => deletionContract n.naming id

/-- The create request's creation of an object. -/
def CreatedBy (key : ObjectKey) (e : ℕ × Call) : Prop := e.1 = 0 ∧ e.2.Creates key

/-- The delete request's deletion of an object. -/
def deletionOf (key : ObjectKey) : ℕ × Call := (1, .kubernetes (.delete key))

/-- The pool of the two requests: an object exists when it was created and not
deleted since. -/
structure Race (n : Creation) (id : String) (request : CreateRequest) (now : ℕ)
    (s : Pool Request Call Call.Result ApiError Response World) : Prop where
  tables : s.state.apps = n.world.apps ∧ s.state.builds = n.world.builds ∧
    s.state.workspaces = n.world.workspaces
  requests : s.tasks.map Prod.fst = [.create request, .delete now]
  tasks : s.Follows (raceContract n id) (fun _ _ _ => True)
  objects : ∀ key ∈ n.naming.objects, (s.state.cluster.objects key).isSome ↔
    Pool.NotFollowed (CreatedBy key) (deletionOf key) s.log
  created : ∀ key ∈ n.naming.objects, ∀ c ∈ s.own 0, c.Creates key → key ∈ n.naming.deleted
  record : ∀ d, s.state.deployments id = some d →
    n.naming.Of d ∧ (d.status = .deleted → ∃ c ∈ s.own 1, ∃ u, c = .updateDeployment id u) ∧
      (s.own 1 = [] → (truthy d.publicHostname).isSome = n.naming.routed)
  deleted : ∀ c ∈ s.own 1, ∀ u, c = .updateDeployment id u →
    ∀ key ∈ n.naming.deleted, .kubernetes (.delete key) ∈ s.own 1
  once : (s.own 1).Nodup

variable {n : Creation} {id : String} {request : CreateRequest} {now : ℕ}
  {s t : Pool Request Call Call.Result ApiError Response World} {l : ℕ × Environment}

/-- An object the creation has not created is not there. -/
theorem Race.absent (h : Race n id request now s) {key : ObjectKey} (hkey : key ∈ n.naming.objects)
    (hnot : ∀ c ∈ s.own 0, ¬ c.Creates key) : s.state.cluster.objects key = none := by
  rw [← Option.not_isSome_iff_eq_none, h.objects key hkey]
  rintro ⟨before, ⟨i, c⟩, after, hlog, ⟨rfl, hc⟩, -⟩
  exact hnot c (Pool.mem_own.mpr (hlog ▸ by simp)) hc

/-- The answers the creation gets. -/
theorem Race.creation_answer (h : Race n id request now s) {x : Environment} (hx : x.Healthy)
    (c : Call) : creationAnswer n (s.own 0) c (serve c x s.state).1 := by
  obtain ⟨happs, hbuilds, hworkspaces⟩ := h.tables
  cases c with
  | kubernetes op =>
    cases op with
    | read key =>
      intro hkey hnot
      simp only [serve, hx.kubernetes, Cluster.serve, h.absent hkey hnot]
      rfl
    | create key rv m =>
      cases rv with
      | none =>
        intro hkey hnot
        simp only [serve, hx.kubernetes, Cluster.serve, h.absent hkey hnot]
        rfl
      | some rv => exact fun hc => hc.elim
    | _ => exact fun hc => hc.elim
  | findApp id => simp [creationAnswer, serve, hx.database, World.serveDatabase, healthy, happs]
  | findBuild id => simp [creationAnswer, serve, hx.database, World.serveDatabase, healthy, hbuilds]
  | findWorkspace id =>
    simp [creationAnswer, serve, hx.database, World.serveDatabase, healthy, hworkspaces]
  | _ => exact fun hc => hc.elim

/-- The answers the deletion gets. -/
theorem Race.deletion_answer (h : Race n id request now s) {x : Environment} (hx : x.Healthy)
    {c : Call} (hc : deletionCall n.naming id c (s.own 1)) :
    deletionAnswer n.naming c (serve c x s.state).1 := by
  cases c with
  | findDeployment id' =>
    obtain ⟨-, rfl, hfirst⟩ := hc
    intro d hd
    simp only [serve, hx.database, World.serveDatabase] at hd
    obtain ⟨hof, -, hrouted⟩ := h.record d (Except.ok.inj hd)
    exact ⟨hof, hrouted hfirst⟩
  | _ => trivial

/-- Which program a step is of. -/
theorem Race.task (h : Race n id request now s) {i : ℕ} {q : Request} {p : Action Response}
    (hi : s.tasks[i]? = some (q, p)) :
    (i = 0 ∧ q = .create request) ∨ (i = 1 ∧ q = .delete now) := by
  have hq : ([.create request, .delete now] : List Request)[i]? = some q := by
    rw [← h.requests, List.getElem?_map, hi]
    rfl
  match i, hq with
  | 0, hq => exact .inl ⟨rfl, (Option.some.inj hq).symm⟩
  | 1, hq => exact .inr ⟨rfl, (Option.some.inj hq).symm⟩

/-- Which objects exist after a call that does not fail by itself. -/
theorem serve_isSome_iff {c : Call} {x : Environment} (hx : x.Healthy) {w : World}
    {key : ObjectKey} :
    ((serve c x w).2.cluster.objects key).isSome ↔
      c.Creates key ∨ ((w.cluster.objects key).isSome ∧ c ≠ .kubernetes (.delete key)) := by
  by_cases hc : c.IsKubernetes
  · cases c with
    | kubernetes op =>
      have hserve : (serve (.kubernetes op) x w).2.cluster = (w.cluster.serve op x.status).2 := by
        simp only [serve, hx.kubernetes]
      rw [hserve, Cluster.serve_isSome_iff]
      simp [Call.Creates]
    | _ => exact hc.elim
  · rw [serve_cluster hc]
    constructor
    · exact fun h => .inr ⟨h, fun heq => hc (heq ▸ trivial)⟩
    · rintro (⟨m, rfl⟩ | ⟨h, -⟩)
      · exact absurd trivial hc
      · exact h

/-- A step of the creation. -/
theorem Race.step_creation (h : Race n id request now s) {x : Environment} (hx : x.Healthy)
    {c : Call} {k : Except ApiError c.Result → Action Response}
    (hq : s.tasks[0]? = some (.create request, .call c k)) (hstep : s.step serve (0, x) = some t) :
    Race n id request now t := by
  have hpre : creationCall n c (s.own 0) := (h.tasks 0 _ _ hq).1
  obtain ⟨hstate, hlog, hown⟩ := Pool.step_eq hq hstep
  have hown0 : t.own 0 = s.own 0 ++ [c] := by rw [hown, if_pos rfl]
  have hown1 : t.own 1 = s.own 1 := by rw [hown, if_neg Nat.zero_ne_one]
  have htables := serve_tables c x s.state
  rw [← hstate] at htables
  refine ⟨⟨htables.1.trans h.tables.1, htables.2.1.trans h.tables.2.1,
      htables.2.2.trans h.tables.2.2⟩, (Pool.step_requests hstep).trans h.requests,
    h.tasks.step hstep hq ⟨h.creation_answer hx c, rfl⟩, ?_, ?_, ?_, ?_, ?_⟩
  · -- the objects: a creation adds one, and no deletion is of one that it created
    intro key hkey
    rw [hstate, hlog, serve_isSome_iff hx, Pool.notFollowed_append, h.objects key hkey]
    have hdelete : c = .kubernetes (.delete key) → s.state.cluster.objects key = none := by
      rintro rfl
      exact h.absent hkey (hpre hkey)
    constructor
    · rintro (hc | ⟨hleft, -⟩)
      · exact .inl ⟨rfl, hc⟩
      · exact .inr ⟨hleft, fun heq => by cases heq⟩
    · rintro (⟨-, hc⟩ | ⟨hleft, -⟩)
      · exact .inl hc
      · refine .inr ⟨hleft, fun heq => ?_⟩
        have hsome := (h.objects key hkey).mpr hleft
        rw [hdelete heq] at hsome
        cases hsome
  · intro key hkey c' hc' hcreates
    rw [hown0, List.mem_append, List.mem_singleton] at hc'
    rcases hc' with hc' | rfl
    · exact h.created key hkey c' hc' hcreates
    · obtain ⟨m, rfl⟩ := hcreates
      exact (hpre hkey).2
  · -- the record: inserted with the naming, or marked as failed
    intro d' hd'
    rw [hstate] at hd'
    rw [hown1]
    rcases serve_record hd' with hd | ⟨-, rfl, -⟩ | ⟨d, u, hd, rfl, rfl⟩
    · exact h.record d' hd
    · obtain ⟨input, hplan⟩ := hpre
      obtain ⟨hof, hstatus, hrouted⟩ := n.planned _ hplan
      refine ⟨hof, fun hdel => ?_, fun _ => hrouted⟩
      rw [hstatus] at hdel
      cases hdel
    · obtain rfl := hpre
      obtain ⟨⟨hns, hbase, hnames⟩, -, hrouted⟩ := h.record d hd
      refine ⟨⟨hns, hbase, hnames⟩, fun hdel => ?_, hrouted⟩
      rw [show (d.update { status := some .failed }).status = .failed from rfl] at hdel
      cases hdel
  · rw [hown1]
    exact h.deleted
  · rw [hown1]
    exact h.once

/-- A step of the deletion. -/
theorem Race.step_deletion (h : Race n id request now s) {x : Environment} (hx : x.Healthy)
    {c : Call} {k : Except ApiError c.Result → Action Response}
    (hq : s.tasks[1]? = some (.delete now, .call c k)) (hstep : s.step serve (1, x) = some t) :
    Race n id request now t := by
  have hpre : deletionCall n.naming id c (s.own 1) := (h.tasks 1 _ _ hq).1
  obtain ⟨hstate, hlog, hown⟩ := Pool.step_eq hq hstep
  have hown0 : t.own 0 = s.own 0 := by rw [hown, if_neg Nat.one_ne_zero]
  have hown1 : t.own 1 = s.own 1 ++ [c] := by rw [hown, if_pos rfl]
  have htables := serve_tables c x s.state
  rw [← hstate] at htables
  refine ⟨⟨htables.1.trans h.tables.1, htables.2.1.trans h.tables.2.1,
      htables.2.2.trans h.tables.2.2⟩, (Pool.step_requests hstep).trans h.requests,
    h.tasks.step hstep hq ⟨h.deletion_answer hx hpre, rfl⟩, ?_, ?_, ?_, ?_, ?_⟩
  · intro key hkey
    rw [hstate, hlog, serve_isSome_iff hx, Pool.notFollowed_append, h.objects key hkey]
    constructor
    · rintro (⟨m, rfl⟩ | ⟨hleft, hne⟩)
      · exact hpre.2.elim
      · exact .inr ⟨hleft, fun heq => hne (Prod.mk.inj heq).2⟩
    · rintro (⟨hzero, -⟩ | ⟨hleft, hne⟩)
      · cases hzero
      · exact .inr ⟨hleft, fun heq => hne (by rw [heq]; rfl)⟩
  · rw [hown0]
    exact h.created
  · intro d' hd'
    rw [hstate] at hd'
    rw [hown1]
    rcases serve_record hd' with hd | ⟨-, rfl, -⟩ | ⟨d, u, hd, rfl, rfl⟩
    · obtain ⟨hof, hdel, -⟩ := h.record d' hd
      refine ⟨hof, fun hst => ?_, fun hnil => absurd hnil (by simp)⟩
      obtain ⟨c', hc', hu⟩ := hdel hst
      exact ⟨c', List.mem_append_left _ hc', hu⟩
    · exact hpre.2.elim
    · obtain ⟨⟨hns, hbase, hnames⟩, -, -⟩ := h.record d hd
      exact ⟨⟨hns, hbase, hnames⟩, fun _ => ⟨_, by simp, u, rfl⟩, fun hnil => absurd hnil (by simp)⟩
  · -- the update comes after the deletions
    intro c' hc' u hu key hkey
    rw [hown1, List.mem_append, List.mem_singleton] at hc'
    rw [hown1]
    refine List.mem_append_left _ ?_
    rcases hc' with hc' | rfl
    · exact h.deleted c' hc' u hu key hkey
    · subst hu
      exact hpre.2 key hkey
  · rw [hown1]
    refine List.nodup_append.mpr ⟨h.once, by simp, ?_⟩
    rintro a ha b hb rfl
    exact hpre.1 (List.mem_singleton.mp hb ▸ ha)

theorem Race.start {config : ServiceConfig}
    (hplan : n.plan = plannedOutcome config { request with deploymentId := id } n.world)
    (hnew : n.world.deployments id = none)
    (hfree : ∀ key ∈ n.naming.objects, n.world.cluster.objects key = none) :
    Race n id request now (requestPool config id n.world [.create request, .delete now]) := by
  refine ⟨⟨rfl, rfl, rfl⟩, rfl, ?_, ?_, fun _ _ _ hc => (nomatch hc), ?_, fun _ hc => (nomatch hc),
    List.nodup_nil⟩
  · intro i q p hi
    match i, hi with
    | 0, hi =>
      obtain ⟨rfl, rfl⟩ := Prod.mk.inj (Option.some.inj hi)
      exact create_meets config hplan
    | 1, hi =>
      obtain ⟨rfl, rfl⟩ := Prod.mk.inj (Option.some.inj hi)
      exact delete_meets config n.naming id now
  · intro key hkey
    show (n.world.cluster.objects key).isSome ↔ Pool.NotFollowed _ _ []
    rw [hfree key hkey]
    simp [Pool.not_notFollowed_nil]
  · intro d hd
    rw [show (requestPool config id n.world _).state.deployments id = none from hnew] at hd
    cases hd

/-- **Step.** -/
theorem Race.step (h : Race n id request now s) (hl : l.2.Healthy)
    (hstep : s.step serve l = some t) : Race n id request now t := by
  obtain ⟨q, c, k, hq, -⟩ := Pool.step_some hstep
  obtain ⟨i, x⟩ := l
  obtain ⟨rfl, rfl⟩ | ⟨rfl, rfl⟩ := h.task hq
  · exact h.step_creation hl hq hstep
  · exact h.step_deletion hl hq hstep

/-- The naming of what a request plans, or of nothing. -/
def plannedNaming (config : ServiceConfig) (id : String) (request : CreateRequest) (w : World) :
    Naming :=
  match plannedOutcome config { request with deploymentId := id } w with
  | .ok (data, _) =>
      ⟨data.«namespace», data.kubernetesDeployment, (truthy data.publicHostname).isSome⟩
  | .error _ => ⟨"", baseName "" id, false⟩

/-- What the creation of `request` knows over `w`. -/
def creationOf (config : ServiceConfig) (id : String) (request : CreateRequest) (w : World) :
    Creation where
  naming := plannedNaming config id request w
  plan := plannedOutcome config { request with deploymentId := id } w
  world := w
  planned := by
    rintro ⟨data, input⟩ hp
    have hplanned := plannedOutcome_planned hp
    unfold plannedNaming
    rw [hp]
    exact ⟨⟨rfl, rfl, by rw [hplanned.recorded, hplanned.names]⟩, hplanned.status, rfl⟩

/-- **What is left behind.**  However a create and a delete request for the
same id interleave, when the record is marked as deleted an object of the
deployment exists exactly when the creation created it after the deletion had
deleted it. -/
theorem left_behind_iff {config : ServiceConfig} {w : World} {labels : List (ℕ × Environment)}
    {d : Deployment} (hnew : w.deployments id = none)
    (hfree : ∀ kubernetesNamespace appName,
      ∀ key ∈ deploymentObjects kubernetesNamespace (baseName appName id),
        w.cluster.objects key = none)
    (hhealthy : ∀ l ∈ labels, l.2.Healthy)
    (hrun : exec (Pool.step serve) (requestPool config id w [.create request, .delete now]) labels =
      some s)
    (hd : s.state.deployments id = some d) (hdeleted : d.status = .deleted) {key : ObjectKey}
    (hkey : key ∈ deploymentObjects d.«namespace» d.kubernetesDeployment) :
    (s.state.cluster.objects key).isSome ↔
      ∃ before after, s.log = before ++ deletionOf key :: after ∧ ∃ e ∈ after, CreatedBy key e := by
  let n := creationOf config id request w
  have hbase : ∃ appName, n.naming.base = baseName appName id := by
    show ∃ appName, (plannedNaming config id request w).base = baseName appName id
    unfold plannedNaming
    split
    · rename_i data input hp
      exact (plannedOutcome_planned hp).base
    · exact ⟨"", rfl⟩
  have hinv : Race n id request now s := by
    obtain ⟨appName, hbase⟩ := hbase
    refine exec_invariant (C := fun _ l => l.2.Healthy) (fun _ _ _ hs hl hstep =>
      Race.step hs hl hstep) (Race.start (n := n) rfl hnew fun key hkey => ?_)
      (along_of_forall hhealthy) hrun
    refine hfree n.naming.kubernetesNamespace appName key ?_
    rw [← hbase]
    exact hkey
  obtain ⟨hof, hupdated, -⟩ := hinv.record d hd
  obtain ⟨c, hc, u, hu⟩ := hupdated hdeleted
  have hobject : key ∈ n.naming.objects := by
    rw [hof.kubernetesNamespace, hof.base] at hkey
    exact hkey
  rw [hinv.objects key hobject]
  by_cases hin : key ∈ n.naming.deleted
  · -- deleted by the request, once
    have hmem : deletionOf key ∈ s.log := Pool.mem_own.mp (hinv.deleted c hc u hu key hin)
    exact Pool.notFollowed_iff_after hmem (Pool.once_of_nodup hinv.once) fun h => nomatch h.1
  · -- a route of a deployment without routes: never created
    have hnever : ∀ e ∈ s.log, ¬ CreatedBy key e := by
      rintro ⟨i, c'⟩ he ⟨rfl, hcreates⟩
      exact hin (hinv.created key hobject c' (Pool.mem_own.mpr he) hcreates)
    constructor
    · rintro ⟨before, e, after, hlog, he, -⟩
      exact absurd he (hnever e (hlog ▸ by simp))
    · rintro ⟨before, after, hlog, e, he, hcreated⟩
      exact absurd hcreated (hnever e (hlog ▸ by simp [he]))

/-- Insert the record, delete all of it, then create the objects. -/
def deleteBetween : List (ℕ × Environment) :=
  schedule ([0, 0, 0] ++ List.replicate 8 1 ++ List.replicate 11 0)

/-- The deletion falls between the insertion and the first object: the record
is marked as deleted, and the Deployment, its Service and its ConfigMap stay. -/
theorem delete_leaves_workload :
    ∃ s d,
      exec (Pool.step serve)
        (requestPool sampleConfig "1" sampleEmptyWorld [.create sampleRequest, .delete 0])
        deleteBetween = some s ∧ s.Settled ∧
      s.state.deployments "1" = some d ∧ d.status = .deleted ∧
      (s.state.cluster.objects ⟨.deployment, "ns", "a-1"⟩).isSome ∧
      (s.state.cluster.objects ⟨.service, "ns", "a-1-svc"⟩).isSome ∧
      (s.state.cluster.objects ⟨.configMap, "ns", "a-1-env"⟩).isSome := by
  have hsome : ((exec (Pool.step serve)
      (requestPool sampleConfig "1" sampleEmptyWorld [.create sampleRequest, .delete 0])
      deleteBetween).any fun s => decide s.Settled &&
        (s.state.deployments "1").any (fun d => d.status = .deleted) &&
        ((s.state.cluster.objects ⟨.deployment, "ns", "a-1"⟩).isSome &&
          ((s.state.cluster.objects ⟨.service, "ns", "a-1-svc"⟩).isSome &&
            (s.state.cluster.objects ⟨.configMap, "ns", "a-1-env"⟩).isSome))) = true := by decide
  obtain ⟨s, hrun, hs⟩ := (Option.any_eq_true ..).mp hsome
  simp only [Bool.and_eq_true, Option.any_eq_true, decide_eq_true_eq] at hs
  obtain ⟨⟨hsettled, d, hd, hdeleted⟩, hobjects⟩ := hs
  exact ⟨s, d, hrun, hsettled, hd, hdeleted, hobjects⟩

theorem left_behind_iff_deleteBetween :
    ∃ s d,
      exec (Pool.step serve)
        (requestPool sampleConfig "1" sampleEmptyWorld [.create sampleRequest, .delete 0])
        deleteBetween = some s ∧
      s.state.deployments "1" = some d ∧
      ∀ key ∈ deploymentObjects d.«namespace» d.kubernetesDeployment,
        ((s.state.cluster.objects key).isSome ↔ ∃ before after,
          s.log = before ++ deletionOf key :: after ∧ ∃ e ∈ after, CreatedBy key e) := by
  have hsome : ((exec (Pool.step serve)
      (requestPool sampleConfig "1" sampleEmptyWorld [.create sampleRequest, .delete 0])
      deleteBetween).any fun s => (s.state.deployments "1").any fun d => d.status = .deleted) =
      true := by decide
  obtain ⟨s, hrun, hs⟩ := (Option.any_eq_true ..).mp hsome
  obtain ⟨d, hd, hdeleted⟩ := (Option.any_eq_true ..).mp hs
  exact ⟨s, d, hrun, hd, fun key hkey =>
    left_behind_iff rfl (fun _ _ _ _ => rfl) (schedule_healthy _) hrun hd
      (of_decide_eq_true hdeleted) hkey⟩

end NexCause
