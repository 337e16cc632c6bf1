/-
NexCause/DeploymentHistory.lean

Requests on one deployment, one after another.  Each runs to its end, under
the faults the environment chooses for its calls; then the next begins.

What each kind of request leaves behind is said once: `patchThenUpdate_run` for
scale, stop, start and restart, `getStatus_run`, `create_leaves` and
`delete_run`.
-/
import NexCause.DeploymentPrograms

namespace NexCause

open Program Transition

/-! ### Histories -/

/-- A request, and what the environment does at each of its calls. -/
structure Operation where
  request : Request
  env : ℕ → Environment

/-- How an operation ends, alone in the world. -/
def Operation.finish (config : ServiceConfig) (id : String) (w : World) (o : Operation) :
    Ended Call ApiError Response World :=
  (o.request.program config id).run serve o.env w

/-- One operation after the other. -/
def historyStep (config : ServiceConfig) (id : String) (w : World) (o : Operation) : Option World :=
  some (o.finish config id w).state

/-- An operation whose program only wraps the result of another. -/
theorem finish_of_program {config : ServiceConfig} {id : String} {w : World} {o : Operation}
    {α : Type} {p : Action α} {g : α → Response}
    (h : o.request.program config id = p >>= fun a => .ret (g a)) :
    o.finish config id w =
      ⟨(p.run serve o.env w).outcome.map g, (p.run serve o.env w).state,
        (p.run serve o.env w).calls⟩ := by
  unfold Operation.finish
  rw [h]
  exact Prog.run_map ..

/-- A request within the bounds of its DTO. -/
def Request.InBounds : Request → Prop
  | .create request => ∀ n, request.dto.replicas = some n → 1 ≤ n
  | .start requested => ∀ n, requested = some n → 1 ≤ n
  | _ => True

/-! ### Single calls -/

theorem serve_databaseFault {c : Call} {x : Environment} {message : String}
    (hc : ¬ c.IsKubernetes) (h : x.databaseFault = some message) (w : World) :
    serve c x w = (.error (.database message), w) := by
  cases c with
  | kubernetes op => exact absurd trivial hc
  | _ => simp only [serve, h]

theorem serve_databaseHealthy {c : Call} {x : Environment} (hc : ¬ c.IsKubernetes)
    (h : x.databaseFault = none) (w : World) : serve c x w = w.serveDatabase c := by
  cases c with
  | kubernetes op => exact absurd trivial hc
  | _ => simp only [serve, h]

theorem serve_kubernetesFault {op : ClusterOp} {x : Environment} {fault : Fault}
    (h : x.kubernetesFault = some fault) (w : World) :
    serve (.kubernetes op) x w = (.error fault.1,
      if x.tookEffect then { w with cluster := (w.cluster.serve op x.status).2 } else w) := by
  simp only [serve, h]

theorem serve_kubernetesHealthy {op : ClusterOp} {x : Environment} (h : x.kubernetesFault = none)
    (w : World) :
    serve (.kubernetes op) x w =
      ((w.cluster.serve op x.status).1, { w with cluster := (w.cluster.serve op x.status).2 }) := by
  simp only [serve, h]
  rfl

/-! ### Scale, stop, start and restart -/

/-- The world after a patch of the object `o`. -/
def World.patched (w : World) (key : ObjectKey) (o : Object) (p : MergePatch) : World :=
  { w with cluster := w.cluster.put key (o.manifest.patch p) }

/-- The world after an update of the record. -/
def World.stored (w : World) (id : String) (d : Deployment) : World :=
  { w with deployments := Function.update w.deployments id (some d) }

@[simp] theorem World.stored_deployments_self (w : World) (id : String) (d : Deployment) :
    (w.stored id d).deployments id = some d := Function.update_self ..

@[simp] theorem World.stored_cluster (w : World) (id : String) (d : Deployment) :
    (w.stored id d).cluster = w.cluster := rfl

@[simp] theorem World.patched_deployments (w : World) (key : ObjectKey) (o : Object)
    (p : MergePatch) : (w.patched key o p).deployments = w.deployments := rfl

/-- The ways in which reading, patching and updating can end. -/
inductive PatchRun (id : String) (patch : Deployment → MergePatch)
    (update : Deployment → DeploymentUpdate) (env : ℕ → Environment) (w : World) :
    Ended Call ApiError Deployment World → Prop
  | unread (e : ApiError) (h : (env 0).databaseFault.isSome ∨ w.deployments id = none) :
      PatchRun id patch update env w ⟨.error e, w, [.findDeployment id]⟩
  | unpatched (d : Deployment) (e : ApiError) (hread : (env 0).databaseFault = none)
      (hd : w.deployments id = some d)
      (h : (env 1).kubernetesFault.isSome ∨ w.cluster.objects d.key = none) :
      PatchRun id patch update env w
        ⟨.error e, w, [.findDeployment id, .kubernetes (.patch d.key (patch d))]⟩
  | unanswered (d : Deployment) (o : Object) (e : ApiError)
      (hread : (env 0).databaseFault = none) (hd : w.deployments id = some d)
      (ho : w.cluster.objects d.key = some o) (hlost : (env 1).AnswerLost) :
      PatchRun id patch update env w
        ⟨.error e, w.patched d.key o (patch d),
          [.findDeployment id, .kubernetes (.patch d.key (patch d))]⟩
  | unstored (d : Deployment) (o : Object) (e : ApiError) (hread : (env 0).databaseFault = none)
      (hd : w.deployments id = some d) (ho : w.cluster.objects d.key = some o)
      (hpatch : (env 1).kubernetesFault = none) (h : (env 2).databaseFault.isSome) :
      PatchRun id patch update env w
        ⟨.error e, w.patched d.key o (patch d),
          [.findDeployment id, .kubernetes (.patch d.key (patch d)),
            .updateDeployment id (update d)]⟩
  | stored (d : Deployment) (o : Object) (hread : (env 0).databaseFault = none)
      (hd : w.deployments id = some d) (ho : w.cluster.objects d.key = some o)
      (hpatch : (env 1).kubernetesFault = none) :
      PatchRun id patch update env w
        ⟨.ok (d.update (update d)), (w.patched d.key o (patch d)).stored id (d.update (update d)),
          [.findDeployment id, .kubernetes (.patch d.key (patch d)),
            .updateDeployment id (update d)]⟩

theorem patchThenUpdate_run (id : String) (patch : Deployment → MergePatch)
    (update : Deployment → DeploymentUpdate) (env : ℕ → Environment) (w : World) :
    PatchRun id patch update env w ((patchThenUpdate id patch update).run serve env w) := by
  have hfind : ¬ (Call.findDeployment id).IsKubernetes := fun h => h
  have hupdate : ∀ u, ¬ (Call.updateDeployment id u).IsKubernetes := fun _ h => h
  unfold patchThenUpdate
  show PatchRun _ _ _ _ _ ((Prog.call (.findDeployment id) _).run serve env w)
  cases hread : (env 0).databaseFault with
  | some message =>
    rw [Prog.run_call (serve_databaseFault hfind hread w)]
    exact .unread _ (.inl (by simp [hread]))
  | none =>
    rw [Prog.run_call (t := w) (r := .ok (w.deployments id)) (serve_databaseHealthy hfind hread w)]
    cases hd : w.deployments id with
    | none => exact .unread _ (.inr hd)
    | some d =>
      show PatchRun _ _ _ _ _
        (((Prog.call (.kubernetes (.patch d.key (patch d))) _).run serve _ w).after _)
      cases hpatch : (env 1).kubernetesFault with
      | some fault =>
        have hfault : (env 1).kubernetesFault.isSome := by simp [hpatch]
        rw [Prog.run_call (serve_kubernetesFault hpatch w)]
        cases htook : (env 1).tookEffect with
        | false => exact .unpatched d _ hread hd (.inl hfault)
        | true =>
          -- the answer is lost: the patch was made if there is an object to patch
          cases ho : w.cluster.objects d.key with
          | none =>
            simp only [Cluster.serve, ho]
            exact .unpatched d _ hread hd (.inr ho)
          | some o =>
            simp only [Cluster.serve, ho]
            exact .unanswered d o _ hread hd ho ⟨hfault, htook⟩
      | none =>
        cases ho : w.cluster.objects d.key with
        | none =>
          have hserve : serve (.kubernetes (.patch d.key (patch d))) (env 1) w =
              (.error (.kubernetes 404 "NotFound"), w) := by
            rw [serve_kubernetesHealthy hpatch]
            simp only [Cluster.serve, ho]
            rfl
          rw [Prog.run_call hserve]
          exact .unpatched d _ hread hd (.inr ho)
        | some o =>
          have hserve : serve (.kubernetes (.patch d.key (patch d))) (env 1) w =
              (.ok (), w.patched d.key o (patch d)) := by
            rw [serve_kubernetesHealthy hpatch]
            simp only [Cluster.serve, ho]
            rfl
          rw [Prog.run_call hserve]
          show PatchRun _ _ _ _ _ ((((updateDeployment id (update d)).run serve
            (fun n => env (n + 2)) (w.patched d.key o (patch d))).after _).after _)
          cases hstore : (env 2).databaseFault with
          | some message =>
            have hrun : (updateDeployment id (update d)).run serve (fun n => env (n + 2))
                (w.patched d.key o (patch d)) = ⟨.error (.database message), _, _⟩ :=
              Prog.run_perform (serve_databaseFault (hupdate _) hstore _)
            rw [hrun]
            exact .unstored d o _ hread hd ho hpatch (by simp [hstore])
          | none =>
            have hserve : serve (.updateDeployment id (update d)) (env 2)
                (w.patched d.key o (patch d)) = (.ok (d.update (update d)),
                  (w.patched d.key o (patch d)).stored id (d.update (update d))) := by
              rw [serve_databaseHealthy (hupdate _) hstore]
              simp only [World.serveDatabase, World.patched_deployments, hd]
              rfl
            have hrun : (updateDeployment id (update d)).run serve (fun n => env (n + 2))
                (w.patched d.key o (patch d)) = ⟨.ok (d.update (update d)), _, _⟩ :=
              Prog.run_perform hserve
            rw [hrun]
            exact .stored d o hread hd ho hpatch

section PatchRun

variable {id : String} {patch : Deployment → MergePatch} {update : Deployment → DeploymentUpdate}
  {env : ℕ → Environment} {w : World} {ended : Ended Call ApiError Deployment World}

/-- When the operation fails, the record is what it was. -/
theorem PatchRun.deployments_of_error (h : PatchRun id patch update env w ended) {e : ApiError}
    (herror : ended.outcome = .error e) : ended.state.deployments = w.deployments := by
  cases h with
  | unread => rfl
  | unpatched => rfl
  | unanswered => rfl
  | unstored => rfl
  | stored => cases herror

/-- When it succeeds, the record is updated and its Deployment patched. -/
theorem PatchRun.of_ok (h : PatchRun id patch update env w ended) {d' : Deployment}
    (hok : ended.outcome = .ok d') :
    ∃ d o, w.deployments id = some d ∧ w.cluster.objects d.key = some o ∧
      d' = d.update (update d) ∧ ended.state = (w.patched d.key o (patch d)).stored id d' := by
  cases h with
  | unread => cases hok
  | unpatched => cases hok
  | unanswered => cases hok
  | unstored => cases hok
  | stored d o _ hd ho _ => exact ⟨d, o, hd, ho, (Except.ok.inj hok).symm, Except.ok.inj hok ▸ rfl⟩

/-- When the patch fails, the operation throws before its update. -/
theorem PatchRun.of_fault (h : PatchRun id patch update env w ended)
    (hfault : (env 1).kubernetesFault.isSome) :
    (∃ e, ended.outcome = .error e) ∧ ∀ u, .updateDeployment id u ∉ ended.calls := by
  cases h with
  | unread e => exact ⟨⟨e, rfl⟩, by simp⟩
  | unpatched d e => exact ⟨⟨e, rfl⟩, by simp⟩
  | unanswered d o e => exact ⟨⟨e, rfl⟩, by simp⟩
  | unstored d o e hread hd ho hpatch =>
    rw [hpatch] at hfault
    cases hfault
  | stored d o hread hd ho hpatch =>
    rw [hpatch] at hfault
    cases hfault

end PatchRun

/-- What a request that patches and updates patches and updates. -/
def Request.patching : Request → Option (Deployment → MergePatch × DeploymentUpdate)
  | .scale replicas now => some fun d => (.replicas replicas, scaleUpdate replicas now d)
  | .stop now => some fun d => (.replicas 0, stopUpdate now d)
  | .start requested => some fun d =>
      (.replicas (startReplicas requested d), startUpdate (startReplicas requested d))
  | .restart now => some fun _ =>
      (.restartedAt now, { status := some .creating, lastRestartedAt := some (some now) })
  | _ => none

theorem program_of_patching {config : ServiceConfig} {id : String} {q : Request}
    {f : Deployment → MergePatch × DeploymentUpdate} (h : q.patching = some f) :
    q.program config id =
      patchThenUpdate id (fun d => (f d).1) (fun d => (f d).2) >>= fun d => .ret (.deployment d) := by
  cases q with
  | scale replicas now => cases h; rfl
  | stop now => cases h; rfl
  | start requested => cases h; rfl
  | restart now =>
    cases h
    rw [← restart_eq]
    rfl
  | _ => cases h

/-- How such an operation ends. -/
theorem finish_of_patching (config : ServiceConfig) (id : String) (w : World) {o : Operation}
    {f : Deployment → MergePatch × DeploymentUpdate} (h : o.request.patching = some f) :
    ∃ ended, PatchRun id (fun d => (f d).1) (fun d => (f d).2) o.env w ended ∧
      o.finish config id w =
        ⟨ended.outcome.map Response.deployment, ended.state, ended.calls⟩ := by
  rw [finish_of_program (program_of_patching h)]
  exact ⟨_, patchThenUpdate_run _ _ _ _ _, rfl⟩

/-! ### Rules for the calls

What each action guarantees from a world `w`, under the legal choices of the
environment. -/

section Rules

variable {legal : Call → Environment → Prop} {w : World}

/-- A call to the database fails on the spot, or is served. -/
theorem post_database {c : Call} (hc : ¬ c.IsKubernetes) {r : Except ApiError c.Result} {t : World}
    (h : (Service.contract serve legal).post c w r t) :
    (∃ e x, legal c x ∧ x.databaseFault.isSome ∧ r = .error e ∧ t = w) ∨
      w.serveDatabase c = (r, t) := by
  obtain ⟨x, hx, hserve⟩ := h
  cases hfault : x.databaseFault with
  | some message =>
    rw [serve_databaseFault hc hfault] at hserve
    obtain ⟨rfl, rfl⟩ := Prod.mk.inj hserve
    exact .inl ⟨_, x, hx, by simp [hfault], rfl, rfl⟩
  | none =>
    rw [serve_databaseHealthy hc hfault] at hserve
    exact .inr hserve

/-- A call to the cluster fails on the spot, or is served; then its answer may
still be lost. -/
theorem post_kubernetes {op : ClusterOp} {r : Except ApiError op.Result} {t : World}
    (h : (Service.contract serve legal).post (.kubernetes op) w r t) :
    (∃ e, r = .error e ∧ t = w) ∨
      ∃ status, (r = (w.cluster.serve op status).1 ∨ ∃ e, r = .error e) ∧
        t = { w with cluster := (w.cluster.serve op status).2 } := by
  obtain ⟨x, -, hserve⟩ := h
  cases hfault : x.kubernetesFault with
  | some fault =>
    rw [serve_kubernetesFault hfault] at hserve
    obtain ⟨rfl, rfl⟩ := Prod.mk.inj hserve
    split
    · exact .inr ⟨x.status, .inr ⟨_, rfl⟩, rfl⟩
    · exact .inl ⟨_, rfl, rfl⟩
  | none =>
    rw [serve_kubernetesHealthy hfault] at hserve
    obtain ⟨rfl, rfl⟩ := Prod.mk.inj hserve
    exact .inr ⟨x.status, .inl rfl, rfl⟩

theorem readObject_meets {key : ObjectKey} {Q : Except ApiError ReadBody → World → Prop}
    (hok : ∀ o status, w.cluster.objects key = some o → Q (.ok ⟨o, status⟩) w)
    (herror : ∀ e, Q (.error e) w) :
    (readObject key).Meets (Service.contract serve legal) Q w := by
  refine Prog.meets_perform.mpr ⟨trivial, fun r t hpost => ?_⟩
  obtain ⟨e, rfl, rfl⟩ | ⟨status, rfl | ⟨e, rfl⟩, rfl⟩ := post_kubernetes hpost
  · exact herror e
  · cases ho : w.cluster.objects key with
    | none =>
      simp only [Cluster.serve, ho]
      exact herror _
    | some o =>
      simp only [Cluster.serve, ho]
      exact hok o status ho
  · -- a read leaves the cluster as it is, whether or not its answer arrives
    rw [Cluster.serve_read]
    exact herror e

/-- An update fails for a fault of the database or a missing record, and then
changes nothing. -/
theorem updateDeployment_meets {id : String} {u : DeploymentUpdate}
    {Q : Except ApiError Deployment → World → Prop}
    (hok : ∀ d, w.deployments id = some d → Q (.ok (d.update u)) (w.stored id (d.update u)))
    (herror : ∀ e, (∃ x, legal (.updateDeployment id u) x ∧ x.databaseFault.isSome) ∨
      w.deployments id = none →
      Q (.error e) w) :
    (updateDeployment id u).Meets (Service.contract serve legal) Q w := by
  refine Prog.meets_perform.mpr ⟨trivial, fun r t hpost => ?_⟩
  obtain ⟨e, x, hx, hfault, rfl, rfl⟩ | hserve :=
    post_database (c := .updateDeployment id u) (fun h => h) hpost
  · exact herror e (.inl ⟨x, hx, hfault⟩)
  · simp only [World.serveDatabase] at hserve
    split at hserve
    · rename_i hnone
      obtain ⟨rfl, rfl⟩ := Prod.mk.inj hserve
      exact herror _ (.inr hnone)
    · rename_i d hd
      obtain ⟨rfl, rfl⟩ := Prod.mk.inj hserve
      exact hok d hd

theorem createDeployment_meets {data : Deployment} {Q : Except ApiError Deployment → World → Prop}
    (hok : w.deployments data.id = none → Q (.ok data) (w.stored data.id data))
    (herror : ∀ e, Q (.error e) w) :
    (createDeployment data).Meets (Service.contract serve legal) Q w := by
  refine Prog.meets_perform.mpr ⟨trivial, fun r t hpost => ?_⟩
  obtain ⟨e, x, -, -, rfl, rfl⟩ | hserve :=
    post_database (c := .createDeployment data) (fun h => h) hpost
  · exact herror e
  · simp only [World.serveDatabase] at hserve
    split at hserve
    · obtain ⟨rfl, rfl⟩ := Prod.mk.inj hserve
      exact herror _
    · rename_i hnone
      split at hserve
      · obtain ⟨rfl, rfl⟩ := Prod.mk.inj hserve
        exact hok hnone
      · obtain ⟨rfl, rfl⟩ := Prod.mk.inj hserve
        exact herror _

/-- A creation of an object that is not there. -/
theorem createObject_meets {key : ObjectKey} {m : Manifest} {Q : Except ApiError Unit → World → Prop}
    (hmissing : w.cluster.objects key = none)
    (hok : Q (.ok ()) { w with cluster := w.cluster.put key m }) (herror : ∀ e, Q (.error e) w)
    (hlost : ∀ e, Q (.error e) { w with cluster := w.cluster.put key m }) :
    (createObject key none m).Meets (Service.contract serve legal) Q w := by
  refine Prog.meets_perform.mpr ⟨trivial, fun r t hpost => ?_⟩
  obtain ⟨e, rfl, rfl⟩ | ⟨status, rfl | ⟨e, rfl⟩, rfl⟩ := post_kubernetes hpost
  · exact herror e
  · simp only [Cluster.serve, hmissing]
    exact hok
  · simp only [Cluster.serve, hmissing]
    exact hlost e

/-- Reads of other tables leave the world alone. -/
theorem lookups_meets {α : Type} {p : Action α} (hp : p.Calls Call.IsLookup) {V : α → Prop}
    (hV : p.Returns V) :
    p.Meets (Service.contract serve legal) (fun r t => t = w ∧ ∀ a, r = .ok a → V a) w := by
  refine hp.meets hV (fun c s hc hs => ⟨trivial, ?_⟩) rfl
  rintro r t ⟨x, -, hserve⟩
  have ht : (serve c x s).2 = s := by
    cases c with
    | findApp id | findBuild id | findWorkspace id =>
      simp only [serve, World.serveDatabase]
      split <;> rfl
    | _ => exact hc.elim
  rw [hserve] at ht
  exact ht.trans hs

/-- Calls to the cluster leave the database alone, and the other objects. -/
theorem on_meets {α : Type} {S : ObjectKey → Prop} {p : Action α} (hp : p.Calls (Call.On S)) :
    p.Meets (Service.contract serve legal)
      (fun _ (t : World) => t.deployments = w.deployments ∧
        ∀ key, ¬ S key → t.cluster.objects key = w.cluster.objects key) w := by
  refine hp.keeps (I := fun (t : World) => t.deployments = w.deployments ∧
    ∀ key, ¬ S key → t.cluster.objects key = w.cluster.objects key)
    (fun c s hc hs => ⟨trivial, ?_⟩) ⟨rfl, fun _ _ => rfl⟩
  obtain ⟨op, rfl, hop⟩ := hc
  rintro r t hpost
  obtain ⟨e, rfl, rfl⟩ | ⟨status, -, rfl⟩ := post_kubernetes hpost
  · exact hs
  · refine ⟨hs.1, fun key hkey => (Cluster.serve_objects_of_ne ?_).trans (hs.2 key hkey)⟩
    rintro rfl
    exact hkey hop

/-! ### A read of the status -/

/-- The Deployment asks for replicas, and its controller says they are ready. -/
def Object.Ready (o : Object) (status : DeploymentConditions) : Prop :=
  0 < o.specReplicas.getD 0 ∧ o.specReplicas.getD 0 ≤ status.readyReplicas

/-- What a read of the status leaves behind: a record whose Deployment is ready
may have become running. -/
def Refreshed (id : String) (env : ℕ → Environment) (w t : World) : Prop :=
  t = w ∨ ∃ d o, (env 0).databaseFault = none ∧ w.deployments id = some d ∧
    d.status ≠ .deleted ∧ (env 1).kubernetesFault = none ∧ w.cluster.objects d.key = some o ∧
    o.Ready (env 1).status ∧ t = w.stored id (d.update { status := some .running })

/-- The status changes only when the Deployment is ready. -/
theorem nextStatus_ne {stored : DeploymentStatus} {live : LiveStatus}
    (h : nextStatus stored live ≠ stored) :
    nextStatus stored live = .running ∧ 0 < live.desiredReplicas ∧
      live.desiredReplicas ≤ live.readyReplicas := by
  unfold nextStatus at h ⊢
  split at h
  · rename_i hready
    exact ⟨if_pos hready, hready.2, hready.1⟩
  · exact absurd rfl h

/-- The read of the Deployment changes nothing; it returns only what is there. -/
theorem getDeploymentStatus_run (kubernetesNamespace name : String) (env : ℕ → Environment)
    (w : World) :
    ∃ r cs, (getDeploymentStatus kubernetesNamespace name).run serve env w = ⟨r, w, cs⟩ ∧
      cs.length = 1 ∧ ∀ live, r = .ok live → (env 0).kubernetesFault = none ∧
        ∃ o, w.cluster.objects ⟨.deployment, kubernetesNamespace, name⟩ = some o ∧
          live.desiredReplicas = o.specReplicas.getD 0 ∧
          live.readyReplicas = (env 0).status.readyReplicas := by
  have hread : ∃ r, (readObject ⟨.deployment, kubernetesNamespace, name⟩).run serve env w =
      ⟨r, w, [.kubernetes (.read ⟨.deployment, kubernetesNamespace, name⟩)]⟩ ∧
      ∀ body, r = .ok body → (env 0).kubernetesFault = none ∧
        w.cluster.objects ⟨.deployment, kubernetesNamespace, name⟩ = some body.object ∧
        body.status = (env 0).status := by
    cases hfault : (env 0).kubernetesFault with
    | some fault =>
      -- the answer of a read: whether it is lost or refused, nothing has changed
      refine ⟨.error fault.1, Prog.run_perform ?_, nofun⟩
      rw [serve_kubernetesFault hfault, Cluster.serve_read]
      exact congrArg _ (ite_self w)
    | none =>
      have hserve : serve (.kubernetes (.read ⟨.deployment, kubernetesNamespace, name⟩)) (env 0) w =
          _ := serve_kubernetesHealthy hfault w
      rw [Cluster.serve_read] at hserve
      refine ⟨_, Prog.run_perform hserve, fun body hbody => ⟨rfl, ?_⟩⟩
      simp only [Cluster.serve] at hbody
      split at hbody
      · cases hbody
      · obtain rfl := Except.ok.inj hbody
        exact ⟨‹_›, rfl⟩
  obtain ⟨r, hrun, hr⟩ := hread
  unfold getDeploymentStatus
  simp only [Prog.pure_eq]
  rw [Prog.run_map, hrun]
  refine ⟨_, _, rfl, rfl, fun live hlive => ?_⟩
  cases r with
  | error e => cases hlive
  | ok body =>
    obtain rfl := Except.ok.inj hlive
    obtain ⟨hfault, ho, hstatus⟩ := hr body rfl
    exact ⟨hfault, body.object, ho, rfl, congrArg DeploymentConditions.readyReplicas hstatus⟩

theorem getStatus_run {id : String} (env : ℕ → Environment) (w : World)
    (hid : ∀ d, w.deployments id = some d → d.id = id) :
    Refreshed id env w ((DeploymentsService.getStatus id).run serve env w).state := by
  have hfind : ¬ (Call.findDeployment id).IsKubernetes := fun h => h
  have hupdate : ∀ u, ¬ (Call.updateDeployment id u).IsKubernetes := fun _ h => h
  unfold DeploymentsService.getStatus
  show Refreshed _ _ _ ((Prog.call (.findDeployment id) _).run serve env w).state
  cases hread : (env 0).databaseFault with
  | some message =>
    rw [Prog.run_call (serve_databaseFault hfind hread w)]
    exact .inl rfl
  | none =>
    rw [Prog.run_call (t := w) (r := .ok (w.deployments id)) (serve_databaseHealthy hfind hread w)]
    cases hd : w.deployments id with
    | none => exact .inl rfl
    | some d =>
      show Refreshed _ _ _ ((statusOf d).run serve _ w).state
      unfold statusOf
      -- of a deleted record nothing is read
      by_cases hdeleted : d.status = .deleted
      · rw [if_pos hdeleted]
        exact .inl rfl
      rw [if_neg hdeleted]
      obtain ⟨r, cs, hrun, hcs, hlive⟩ := getDeploymentStatus_run d.«namespace»
        d.kubernetesDeployment (fun n => env (n + 1)) w
      cases r with
      | error e =>
        rw [Prog.run_bind_error hrun]
        exact .inl rfl
      | ok live =>
        obtain ⟨hfault, o, ho, hdesired, hreplicas⟩ := hlive live rfl
        rw [Prog.run_bind_ok hrun, hcs]
        show Refreshed _ _ _ (Prog.run serve (if _ then _ else _) _ w).state
        -- the record is written only if the status is another one
        split
        · rename_i hne
          obtain ⟨hrunning, hpos, hready⟩ := nextStatus_ne hne
          rw [hdesired] at hpos hready
          rw [hreplicas] at hready
          rw [hrunning, hid d hd]
          show Refreshed _ _ _ ((Prog.call (.updateDeployment id _) _).run serve _ w).state
          cases hstore : (env 2).databaseFault with
          | some message =>
            rw [Prog.run_call (serve_databaseFault (hupdate _) hstore w)]
            exact .inl rfl
          | none =>
            have hserve : serve (.updateDeployment id { status := some .running }) (env 2) w =
                (.ok (d.update { status := some .running }),
                  w.stored id (d.update { status := some .running })) := by
              rw [serve_databaseHealthy (hupdate _) hstore]
              simp only [World.serveDatabase, hd]
              rfl
            rw [Prog.run_call hserve]
            exact .inr ⟨d, o, hread, hd, hdeleted, hfault, ho, ⟨hpos, hready⟩, rfl⟩
        · exact .inl rfl

/-! ### A creation -/

/-- The Deployment is deployed with `n` replicas, or is not there; after a
success it is there. -/
def Deployed {α : Type} (n : ℕ) (r : Except ApiError α) (o : Option Object) : Prop :=
  (∀ o', o = some o' → o'.specReplicas = some n) ∧ ∀ a, r = .ok a → o.isSome

theorem deployed_error {α : Type} {n : ℕ} {e : ApiError} {o : Option Object}
    (h : ∀ o', o = some o' → o'.specReplicas = some n) :
    Deployed n (.error e : Except ApiError α) o := by
  refine ⟨h, fun a ha => ?_⟩
  cases ha

theorem enableApplicationRouting_on (input : DeployImageInput) :
    (enableApplicationRouting input).Calls (Call.On fun key => key.kind ≠ .deployment) :=
  enableApplicationRouting_calls nofun (fun _ => nofun) fun _ => nofun

/-- The upsert of a Deployment that is not there. -/
theorem upsertDeployment_meets {input : DeployImageInput} {key : ObjectKey}
    (hkey : key = ⟨.deployment, input.«namespace», input.names.deploymentName⟩)
    (hmissing : w.cluster.objects key = none) :
    (upsertDeployment input).Meets (Service.contract serve legal)
      (fun r t => t.deployments = w.deployments ∧
        Deployed input.replicas r (t.cluster.objects key)) w := by
  subst hkey
  have hnone : ∀ e, Deployed input.replicas (.error e : Except ApiError Unit) (w.cluster.objects
      ⟨.deployment, input.«namespace», input.names.deploymentName⟩) := by
    intro e
    rw [hmissing]
    exact deployed_error nofun
  refine Prog.meets_bind.mpr (Prog.meets_tryCatch.mpr (Prog.meets_bind.mpr
    (readObject_meets (fun o _ ho => ?_) fun e => ?_)))
  · -- there is none to be read
    rw [hmissing] at ho
    cases ho
  · show (onNotFound (pure none) e).Meets _ _ w
    unfold onNotFound
    split
    · have hput : ∀ o' key', (w.cluster.put key' (deploymentManifest input)).objects key' =
          some o' → o'.specReplicas = some input.replicas := by
        intro o' key' ho'
        rw [Cluster.put_objects_self] at ho'
        obtain rfl := Option.some.inj ho'
        rfl
      -- it is created, with the replicas asked for
      refine createObject_meets hmissing ⟨rfl, fun o' => hput o' _, fun _ _ => ?_⟩
        (fun e => ⟨rfl, hnone e⟩) fun e => ⟨rfl, deployed_error fun o' => hput o' _⟩
      rw [Cluster.put_objects_self]
      rfl
    · -- another error ends the upsert, and nothing was made
      exact ⟨rfl, hnone e⟩

theorem deployImage_meets {config : ServiceConfig} {input : DeployImageInput} {key : ObjectKey}
    (hkey : key = ⟨.deployment, input.«namespace», input.names.deploymentName⟩)
    (hmissing : w.cluster.objects key = none) :
    (deployImage config input).Meets (Service.contract serve legal)
      (fun r t => t.deployments = w.deployments ∧
        Deployed input.replicas r (t.cluster.objects key)) w := by
  -- go on after a call on other objects, while the Deployment is missing
  have hbefore : ∀ {p q : Action Unit} {t : World},
      p.Calls (Call.On fun key => key.kind ≠ .deployment) →
      t.deployments = w.deployments ∧ t.cluster.objects key = none →
      (∀ t, t.deployments = w.deployments ∧ t.cluster.objects key = none →
        q.Meets (Service.contract serve legal) (fun r t => t.deployments = w.deployments ∧
          Deployed input.replicas r (t.cluster.objects key)) t) →
      (p >>= fun _ => q).Meets (Service.contract serve legal) (fun r t =>
        t.deployments = w.deployments ∧ Deployed input.replicas r (t.cluster.objects key)) t := by
    intro p q t hp ht hq
    refine (on_meets (w := t) hp).bind (fun _ u hu => ?_)
      fun e u hu => ?_
    · exact hq u ⟨hu.1.trans ht.1, (hu.2 key (by simp [hkey])).trans ht.2⟩
    · rw [hu.2 key (by simp [hkey]), ht.2]
      exact ⟨hu.1.trans ht.1, deployed_error nofun⟩
  have hns : (ensureNamespace config input.«namespace» input.labels).Calls
      (Call.On fun key => key.kind ≠ .deployment) :=
    (ensureNamespace_on _ _ _).mono fun c => Call.On.mono (by
      rintro key (h | h) <;> simp [h])
  have hafter : (do
      upsertService input
      if input.routing.isSome then
        enableApplicationRouting input : Action Unit).Calls
      (Call.On fun key => key.kind ≠ .deployment) := by
    refine (upsert_on nofun _ _).bind fun _ => ?_
    split
    · exact enableApplicationRouting_on input
    · trivial
  refine hbefore hns ⟨rfl, hmissing⟩ fun _ h => ?_
  refine hbefore (upsert_on nofun _ _) h fun _ h => ?_
  refine hbefore (upsertOptional_on fun _ _ => nofun) h fun _ h => ?_
  refine hbefore (upsertOptional_on fun _ _ => nofun) h fun _ h => ?_
  refine hbefore (upsertOptional_on fun _ _ => nofun) h fun _ h => ?_
  refine (upsertDeployment_meets hkey h.2).bind (fun _ u hu => ?_) fun e u hu => ?_
  · -- the Deployment is there, and the rest does not touch it
    refine (on_meets (w := u) hafter).mono fun r v hv => ?_
    refine ⟨hv.1.trans (hu.1.trans h.1), ?_⟩
    rw [hv.2 key (by simp [hkey])]
    exact ⟨hu.2.1, fun _ _ => hu.2.2 _ rfl⟩
  · exact ⟨hu.1.trans h.1, deployed_error hu.2.1⟩

theorem deployImage_deployments {config : ServiceConfig} {input : DeployImageInput} :
    (deployImage config input).Meets (Service.contract serve legal)
      (fun _ (t : World) => t.deployments = w.deployments) w := by
  have hnamespace : (ensureNamespace config input.«namespace» input.labels).Calls
      (Call.On fun _ => True) :=
    (ensureNamespace_on _ _ _).mono fun c => Call.On.mono fun _ _ => trivial
  have hcalls : (deployImage config input).Calls (Call.On fun _ => True) :=
    deployImage_calls hnamespace
      ⟨trivial, trivial, trivial, fun _ _ => trivial, fun _ _ => trivial, fun _ _ => trivial⟩
      (enableApplicationRouting_calls trivial (fun _ => trivial) fun _ => trivial)
  exact (on_meets hcalls).mono fun r t h => h.1

/-- The record a creation has inserted, and how the creation ended. -/
structure Inserted (legal : Call → Environment → Prop) (id : String) (request : CreateRequest) (w : World)
    (r : Except ApiError SanitizedDeployment) (t : World) (data : Deployment)
    (input : DeployImageInput) : Prop where
  planned : Planned request data input
  fresh : w.deployments id = none
  record : t.deployments id = some data ∨
    t.deployments id = some (data.update { status := some .failed })
  failed : ∀ e, r = .error e →
    (∀ u x, legal (.updateDeployment id u) x → x.databaseFault = none) →
    t.deployments id = some (data.update { status := some .failed })
  deployed : w.cluster.objects data.key = none →
    Deployed data.replicas r (t.cluster.objects data.key)

/-- What a creation leaves behind: all as it was, or a new record. -/
def Created (legal : Call → Environment → Prop) (id : String) (request : CreateRequest) (w : World)
    (r : Except ApiError SanitizedDeployment) (t : World) : Prop :=
  (t = w ∧ ∃ e, r = .error e) ∨ ∃ data input, Inserted legal id request w r t data input

theorem create_leaves {config : ServiceConfig} {request : CreateRequest} {id : String}
    (hid : request.deploymentId = id) :
    (DeploymentsService.create config request).Meets (Service.contract serve legal)
      (fun r t => Created legal id request w r t) w := by
  refine (lookups_meets (planDeployment_calls config request)
    (planDeployment_returns config request)).bind (fun p t h => ?_) fun e t h => .inl ⟨h.1, e, rfl⟩
  obtain ⟨rfl, hplanned⟩ := h
  obtain ⟨data, input⟩ := p
  have hplan : Planned request data input := hplanned _ rfl
  have hdata : data.id = id := hplan.id.trans hid
  refine Prog.meets_bind.mpr (createDeployment_meets (fun hnone => ?_) fun e => .inl ⟨rfl, e, rfl⟩)
  rw [hdata] at hnone ⊢
  show Prog.Meets _ (_ >>= fun _ => _) _ _
  have hkey : data.key = ⟨.deployment, input.«namespace», input.names.deploymentName⟩ := by
    unfold Deployment.key
    rw [hplan.kubernetesNamespace, hplan.names]
    rfl
  -- the deployment of the image, whether or not the Deployment is missing
  have hdeploy : (deployImage config input).Meets (Service.contract serve legal)
      (fun r u => u.deployments = (t.stored id data).deployments ∧
        (t.cluster.objects data.key = none →
          Deployed data.replicas r (u.cluster.objects data.key))) (t.stored id data) := by
    by_cases hmissing : t.cluster.objects data.key = none
    · exact (deployImage_meets (w := t.stored id data) hkey hmissing).mono fun r u h =>
        ⟨h.1, fun _ => hplan.deployed ▸ h.2⟩
    · exact deployImage_deployments.mono fun r u h => ⟨h, fun h => absurd h hmissing⟩
  have hrecord : (t.stored id data).deployments id = some data := World.stored_deployments_self ..
  refine Prog.meets_bind.mpr (hdeploy.tryCatch (fun _ u hu => ?_) fun e u hu => ?_)
  · exact .inr ⟨data, input, hplan, hnone, .inl (hu.1 ▸ hrecord), nofun, fun h =>
      ⟨(hu.2 h).1, fun _ _ => (hu.2 h).2 _ rfl⟩⟩
  · refine Prog.meets_bind.mpr (updateDeployment_meets (fun d hd => ?_) fun e' he' => ?_)
    · rw [hdata, hu.1, hrecord] at hd
      obtain rfl := Option.some.inj hd
      rw [hdata]
      have hafter := World.stored_deployments_self u id (data.update { status := some .failed })
      show Created legal id request t (.error e) _
      exact .inr ⟨data, input, hplan, hnone, .inr hafter, fun _ _ _ => hafter, fun h =>
        deployed_error (hu.2 h).1⟩
    · show Created legal id request t (.error e') u
      refine .inr ⟨data, input, hplan, hnone, .inl (hu.1 ▸ hrecord), fun _ _ hlegal => ?_, fun h =>
        deployed_error (hu.2 h).1⟩
      rcases he' with ⟨x, hx, hfault⟩ | hnone'
      · rw [hdata] at hx
        rw [hlegal _ x hx] at hfault
        cases hfault
      · rw [hdata, hu.1, hrecord] at hnone'
        cases hnone'

end Rules

/-! ### A deletion -/

/-- The world without the objects. -/
def World.swept (w : World) (keys : List ObjectKey) : World :=
  { w with
    cluster :=
      { w.cluster with
        objects := fun key => if key ∈ keys then none else w.cluster.objects key } }

theorem World.swept_objects (w : World) (keys : List ObjectKey) (key : ObjectKey) :
    (w.swept keys).cluster.objects key = if key ∈ keys then none else w.cluster.objects key := rfl

theorem World.swept_nil (w : World) : w.swept [] = w := by
  unfold swept
  simp

theorem World.swept_cons (w : World) (key : ObjectKey) (keys : List ObjectKey) :
    (w.swept [key]).swept keys = w.swept (key :: keys) := by
  show World.mk w.apps w.builds w.workspaces w.deployments ⟨_, w.cluster.revision⟩ =
    World.mk w.apps w.builds w.workspaces w.deployments ⟨_, w.cluster.revision⟩
  congr 2
  funext key'
  by_cases h : key' = key
  · simp [h, World.swept_objects]
  · simp [h, World.swept_objects]

/-- The call that deletes an object. -/
def deleteCall (key : ObjectKey) : Call := .kubernetes (.delete key)

/-- A deletion that is served sweeps the object, whether or not it is there. -/
theorem World.served_delete (w : World) (key : ObjectKey) (status : DeploymentConditions) :
    { w with cluster := (w.cluster.serve (.delete key) status).2 } = w.swept [key] := by
  unfold World.swept
  cases ho : w.cluster.objects key with
  | none =>
    have hsame : (fun key' => if key' ∈ [key] then none else w.cluster.objects key') =
        w.cluster.objects := by
      funext key'
      by_cases h : key' = key
      · simp [h, ho]
      · simp [h]
    simp only [Cluster.serve, ho]
    rw [hsame]
  | some o =>
    simp only [Cluster.serve, ho]
    unfold Cluster.remove
    congr
    funext key'
    simp [Function.update_apply]

theorem deleteIfExists_run (key : ObjectKey) (env : ℕ → Environment) (w : World) :
    (deleteIfExists key).run serve env w =
      match (env 0).kubernetesFault with
      | none => ⟨.ok (), w.swept [key], [deleteCall key]⟩
      | some fault =>
          ⟨.error fault.1, if (env 0).tookEffect then w.swept [key] else w, [deleteCall key]⟩ := by
  show (Prog.call (.kubernetes (.delete key)) _).run serve env w = _
  cases hfault : (env 0).kubernetesFault with
  | some fault =>
    rw [Prog.run_call (serve_kubernetesFault hfault w), World.served_delete]
    show ((onNotFound (pure ()) fault.1).run serve _ _).after _ = _
    unfold onNotFound
    rw [fault.2]
    rfl
  | none =>
    rw [Prog.run_call (serve_kubernetesHealthy hfault w), World.served_delete]
    cases ho : w.cluster.objects key with
    | none =>
      simp only [Cluster.serve, ho]
      rfl
    | some o =>
      simp only [Cluster.serve, ho]
      rfl

/-- How many objects are gone when the call `j` of a sweep is the first to
fail. -/
def sweptBy (env : ℕ → Environment) (j : ℕ) : ℕ := if (env j).tookEffect then j + 1 else j

/-- The deletion of objects one by one: up to the first fault. -/
theorem sweep_run (keys : List ObjectKey) (env : ℕ → Environment) (w : World) :
    ((∀ n < keys.length, (env n).kubernetesFault = none) ∧
      (keys.forM deleteIfExists).run serve env w = ⟨.ok (), w.swept keys, keys.map deleteCall⟩) ∨
    ∃ j < keys.length, (env j).kubernetesFault.isSome ∧
      (∀ n < j, (env n).kubernetesFault = none) ∧
      ∃ e, (keys.forM deleteIfExists).run serve env w =
        ⟨.error e, w.swept (keys.take (sweptBy env j)), (keys.take (j + 1)).map deleteCall⟩ := by
  induction keys generalizing env w with
  | nil =>
    refine .inl ⟨nofun, ?_⟩
    rw [World.swept_nil]
    rfl
  | cons key keys ih =>
    have hrun := deleteIfExists_run key env w
    show _ ∧ ((deleteIfExists key >>= fun _ => keys.forM deleteIfExists).run serve env w = _) ∨
      ∃ j < _, _ ∧ _ ∧ ∃ e,
        (deleteIfExists key >>= fun _ => keys.forM deleteIfExists).run serve env w = _
    cases hfault : (env 0).kubernetesFault with
    | some fault =>
      rw [hfault] at hrun
      rw [Prog.run_bind_error hrun]
      -- the first deletion fails, before its effect or after it
      refine .inr ⟨0, by simp, by simp [hfault], nofun, fault.1, ?_⟩
      unfold sweptBy
      cases (env 0).tookEffect <;> simp [World.swept_nil]
    | none =>
      rw [hfault] at hrun
      rw [Prog.run_bind_ok hrun]
      -- it succeeds, and the rest follows
      rcases ih (fun n => env (n + 1)) (w.swept [key]) with
        ⟨hnone, hrest⟩ | ⟨j, hj, hsome, hnone, e, hrest⟩
      · refine .inl ⟨?_, ?_⟩
        · rintro (_ | n) hn
          · exact hfault
          · exact hnone n (by simpa using hn)
        · show ((keys.forM deleteIfExists).run serve (fun n => env (n + 1)) _).after _ = _
          rw [hrest, World.swept_cons]
          rfl
      · refine .inr ⟨j + 1, by simpa using hj, hsome, ?_, e, ?_⟩
        · rintro (_ | n) hn
          · exact hfault
          · exact hnone n (by simpa using hn)
        · have hcount : (key :: keys).take (sweptBy env (j + 1)) =
              key :: keys.take (sweptBy (fun n => env (n + 1)) j) := by
            unfold sweptBy
            split <;> rfl
          show ((keys.forM deleteIfExists).run serve (fun n => env (n + 1)) _).after _ = _
          rw [hrest, World.swept_cons, hcount]
          rfl

/-- The names a deletion goes by. -/
def Deployment.naming (d : Deployment) : Naming where
  kubernetesNamespace := d.«namespace»
  base := d.kubernetesDeployment
  routed := (truthy d.publicHostname).isSome

/-- The ways in which a deletion can end. -/
inductive DeleteRun (id : String) (now : ℕ) (env : ℕ → Environment) (w : World) :
    Ended Call ApiError SanitizedDeployment World → Prop
  | unread (e : ApiError) : DeleteRun id now env w ⟨.error e, w, [.findDeployment id]⟩
  | interrupted (d : Deployment) (e : ApiError) (j : ℕ) (hread : (env 0).databaseFault = none)
      (hd : w.deployments id = some d) (hj : j < d.naming.deletionOrder.length)
      (hfault : (env (j + 1)).kubernetesFault.isSome)
      (hbefore : ∀ n < j, (env (n + 1)).kubernetesFault = none) :
      DeleteRun id now env w ⟨.error e,
        w.swept (d.naming.deletionOrder.take (sweptBy (fun n => env (n + 1)) j)),
        .findDeployment id :: (d.naming.deletionOrder.take (j + 1)).map deleteCall⟩
  | unstored (d : Deployment) (e : ApiError) (hd : w.deployments id = some d)
      (h : (env (d.naming.deletionOrder.length + 1)).databaseFault.isSome) :
      DeleteRun id now env w ⟨.error e, w.swept d.naming.deletionOrder,
        .findDeployment id :: (d.naming.deletionOrder.map deleteCall ++
          [.updateDeployment id (deletedUpdate now)])⟩
  | deleted (d : Deployment) (hd : w.deployments id = some d)
      (hnone : ∀ n < d.naming.deletionOrder.length, (env (n + 1)).kubernetesFault = none) :
      DeleteRun id now env w ⟨.ok (sanitizeDeployment (d.update (deletedUpdate now))),
        (w.swept d.naming.deletionOrder).stored id (d.update (deletedUpdate now)),
        .findDeployment id :: (d.naming.deletionOrder.map deleteCall ++
          [.updateDeployment id (deletedUpdate now)])⟩

theorem delete_run {id : String} {w : World} (now : ℕ) (env : ℕ → Environment)
    (hnames : ∀ d, w.deployments id = some d →
      deploymentToResourceNames d = .ok (resourceNamesOf d.kubernetesDeployment)) :
    DeleteRun id now env w ((DeploymentsService.delete id now).run serve env w) := by
  have hfind : ¬ (Call.findDeployment id).IsKubernetes := fun h => h
  have hupdate : ¬ (Call.updateDeployment id (deletedUpdate now)).IsKubernetes := fun h => h
  unfold DeploymentsService.delete
  show DeleteRun _ _ _ _ ((Prog.call (.findDeployment id) _).run serve env w)
  cases hread : (env 0).databaseFault with
  | some message =>
    rw [Prog.run_call (serve_databaseFault hfind hread w)]
    exact .unread _
  | none =>
    rw [Prog.run_call (t := w) (r := .ok (w.deployments id)) (serve_databaseHealthy hfind hread w)]
    cases hd : w.deployments id with
    | none => exact .unread _
    | some d =>
      show DeleteRun _ _ _ _ (((liftExcept (deploymentToResourceNames d) >>= _).run serve _ w).after _)
      rw [hnames d hd]
      show DeleteRun _ _ _ _ (((deleteDeploymentResources d.naming.kubernetesNamespace
        (resourceNamesOf d.naming.base) d.naming.routed >>= fun _ =>
          updateDeployment id (deletedUpdate now) >>= fun deleted =>
            .ret (sanitizeDeployment deleted)).run serve (fun n => env (n + 1)) w).after _)
      rw [deleteDeploymentResources_eq]
      -- the objects are deleted one after the other, until a deletion fails
      rcases sweep_run d.naming.deletionOrder (fun n => env (n + 1)) w with
        ⟨hnone, hrun⟩ | ⟨j, hj, hfault, hbefore, e, hrun⟩
      · have hlength : (d.naming.deletionOrder.map deleteCall).length =
            d.naming.deletionOrder.length := List.length_map ..
        rw [Prog.run_bind_ok hrun, Prog.run_map, hlength]
        -- all are gone, and the row is still to be marked
        cases hstore : (env (d.naming.deletionOrder.length + 1)).databaseFault with
        | some message =>
          have hrun : (updateDeployment id (deletedUpdate now)).run serve
              (fun n => env (n + d.naming.deletionOrder.length + 1))
              (w.swept d.naming.deletionOrder) = ⟨.error (.database message), _, _⟩ :=
            Prog.run_perform (serve_databaseFault hupdate (by simpa using hstore) _)
          rw [hrun]
          exact .unstored d _ hd (by simp [hstore])
        | none =>
          have hserve : serve (.updateDeployment id (deletedUpdate now))
              (env (0 + d.naming.deletionOrder.length + 1)) (w.swept d.naming.deletionOrder) =
              (.ok (d.update (deletedUpdate now)),
                (w.swept d.naming.deletionOrder).stored id (d.update (deletedUpdate now))) := by
            rw [serve_databaseHealthy hupdate (by simpa using hstore)]
            have hd' : (w.swept d.naming.deletionOrder).deployments id = some d := hd
            simp only [World.serveDatabase, hd']
            rfl
          have hrun : (updateDeployment id (deletedUpdate now)).run serve
              (fun n => env (n + d.naming.deletionOrder.length + 1))
              (w.swept d.naming.deletionOrder) = ⟨.ok (d.update (deletedUpdate now)), _, _⟩ :=
            Prog.run_perform hserve
          rw [hrun]
          exact .deleted d hd hnone
      · rw [Prog.run_bind_error hrun]
        exact .interrupted d e j hread hd hj hfault hbefore

/-! ### How an operation ends -/

section Finish

variable {o : Operation}

theorem finish_of_create (config : ServiceConfig) (id : String) (w : World)
    (legal : Call → Environment → Prop) {request : CreateRequest} (h : o.request = .create request)
    (hlegal : ∀ n c, (o.finish config id w).calls[n]? = some c → legal c (o.env n)) :
    ∃ r, Created legal id { request with deploymentId := id } w r (o.finish config id w).state ∧
      (o.finish config id w).outcome = r.map Response.sanitized := by
  have hprogram : o.request.program config id =
      DeploymentsService.create config { request with deploymentId := id } >>=
        fun d => .ret (.sanitized d) := by
    rw [h]
    rfl
  rw [finish_of_program hprogram] at hlegal ⊢
  exact ⟨_, run_of_meets (create_leaves rfl) hlegal, rfl⟩

theorem finish_of_getStatus (config : ServiceConfig) {id : String} {w : World}
    (h : o.request = .getStatus)
    (hid : ∀ d, w.deployments id = some d → d.id = id) :
    Refreshed id o.env w (o.finish config id w).state := by
  have hprogram : o.request.program config id =
      DeploymentsService.getStatus id >>= fun r => .ret (.status r) := by
    rw [h]
    rfl
  rw [finish_of_program hprogram]
  exact getStatus_run o.env w hid

/-- How a deletion ends. -/
theorem finish_of_delete (config : ServiceConfig) {id : String} {w : World} {now : ℕ}
    (h : o.request = .delete now)
    (hnames : ∀ d, w.deployments id = some d →
      deploymentToResourceNames d = .ok (resourceNamesOf d.kubernetesDeployment)) :
    ∃ ended, DeleteRun id now o.env w ended ∧
      o.finish config id w = ⟨ended.outcome.map Response.sanitized, ended.state, ended.calls⟩ := by
  have hprogram : o.request.program config id =
      DeploymentsService.delete id now >>= fun d => .ret (.sanitized d) := by
    rw [h]
    rfl
  rw [finish_of_program hprogram]
  exact ⟨_, delete_run now o.env hnames, rfl⟩

end Finish

end NexCause
