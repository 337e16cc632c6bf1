/-
NexCause/DeletedTerminal.lean

Requests of every kind on one deployment, interleaved, any call failing: is a
deleted record deleted for good?

Scale, stop, start, restart, getStatus and a failing creation write a status by
id without looking at the record again, so a deletion is undone by a request
that has already talked to the cluster (`scale_undoes_delete`).  It is final
when no request is in that position as the deletion commits, and the Deployment
is gone (`deleted_is_terminal`): from then on every request either finds the
record deleted or fails on the missing Deployment.
-/
import NexCause.DeploymentPrograms

namespace NexCause

open Program Transition

variable {id : String} {key : ObjectKey}

/-! ### After the deletion -/

/-- The call gives the record a status other than deleted. -/
def Call.Revives (id : String) (c : Call) : Prop :=
  ∃ u st, c = .updateDeployment id u ∧ u.status = some st ∧ st ≠ .deleted

/-- What calls are answered when the record `id` is deleted and its Deployment
`key` is gone. -/
def deadAnswer (id : String) (key : ObjectKey) : (c : Call) → Except ApiError c.Result → Prop
  | .findDeployment id', r =>
      id' = id → ∀ v : Option Deployment, r = .ok v →
        ∃ d, v = some d ∧ d.status = .deleted ∧ d.key = key
  | .createDeployment data, r => data.id = id → ∃ e, r = .error e
  | .kubernetes op, r => op.key = key → (∀ rv m, op ≠ .create key rv m) → ∃ e, r = .error e
  | _, _ => True

/-- What keeps it that way. -/
def deadContract (id : String) (key : ObjectKey) : Prog.Contract Call Call.Result ApiError Unit where
  pre c _ := ¬ c.Revives id ∧ ∀ rv m, c ≠ .kubernetes (.create key rv m)
  post c _ r _ := deadAnswer id key c r

/-- The program leaves a deleted record deleted. -/
def LeavesDeleted {α : Type} (id : String) (key : ObjectKey) (p : Action α) : Prop :=
  p.Meets (deadContract id key) (fun _ _ => True) ()

/-- The next call of the program gives the record a status other than deleted. -/
def Reviving {α : Type} (id : String) (p : Action α) : Prop :=
  ∃ c k, p = .call c k ∧ c.Revives id

/-- The calls of a deletion. -/
inductive HarmlessCall (id : String) : Call → Prop
  | find (id' : String) : HarmlessCall id (.findDeployment id')
  | delete (key : ObjectKey) : HarmlessCall id (.kubernetes (.delete key))
  | update (now : ℕ) : HarmlessCall id (.updateDeployment id (deletedUpdate now))

theorem HarmlessCall.not_revives {c : Call} (h : HarmlessCall id c) : ¬ c.Revives id := by
  rintro ⟨u, st, heq, hst, hne⟩
  cases h with
  | find id' => cases heq
  | delete key => cases heq
  | update now =>
    obtain ⟨-, rfl⟩ := Call.updateDeployment.inj heq
    exact hne (Option.some.inj hst).symm

theorem HarmlessCall.leavesDeleted {α : Type} {p : Action α} (h : p.Calls (HarmlessCall id)) :
    LeavesDeleted id key p := by
  refine (h.keeps (I := fun _ => True) ?_ trivial).mono fun _ _ _ => trivial
  intro c _ hc _
  refine ⟨⟨hc.not_revives, ?_⟩, fun _ _ _ => trivial⟩
  rintro rv m rfl
  cases hc

/-! ### Before the deletion -/

/-- What calls are answered at any time, when the record has the Deployment
`key`; of an insertion, only its failure. -/
def aliveAnswer (id : String) (key : ObjectKey) : (c : Call) → Except ApiError c.Result → Prop
  | .findDeployment id', r => id' = id → ∀ d : Deployment, r = .ok (some d) → d.key = key
  | .createDeployment _, r => ∃ e, r = .error e
  | _, _ => True

/-- Whatever is left of the program leaves a deleted record deleted, unless it
is about to write another status. -/
def Ready {α : Type} (id : String) (key : ObjectKey) (p : Action α) : Prop :=
  Reviving id p ∨ LeavesDeleted id key p

/-- Read the record, patch its Deployment, update the record: a patch of a
missing Deployment fails, so only the last call can revive the record. -/
theorem patchThenUpdate_ready {patch : Deployment → MergePatch}
    {update : Deployment → DeploymentUpdate}
    (hupdate : ∀ d, ∃ st, (update d).status = some st ∧ st ≠ .deleted) :
    (patchThenUpdate id patch update >>= fun d => pure (Response.deployment d)).Throughout
      (aliveAnswer id key) (Ready id key) := by
  have hpatch : ∀ d : Deployment, d.key = key →
      LeavesDeleted id key ((patchObject d.key (patch d) >>= fun _ =>
        updateDeployment id (update d)) >>= fun d => pure (Response.deployment d)) := by
    rintro d rfl
    refine ⟨⟨fun ⟨_, _, heq, _⟩ => (nomatch heq), fun _ _ => nofun⟩, fun r _ hr => ?_⟩
    obtain ⟨e, rfl⟩ := hr rfl fun rv m => nofun
    trivial
  refine ⟨.inr ⟨⟨fun ⟨_, _, heq, _⟩ => (nomatch heq), fun _ _ => nofun⟩, ?_⟩, ?_⟩
  · -- dead from the start: the record is found deleted, the patch fails
    rintro r _ hr
    cases r with
    | error e => trivial
    | ok v =>
      obtain ⟨d, rfl, -, hd⟩ := hr rfl v rfl
      exact hpatch d hd
  · rintro r hr
    match r, hr with
    | .error e, _ => exact .inr trivial
    | .ok none, _ => exact .inr trivial
    | .ok (some d), hr =>
      refine ⟨.inr (hpatch d (hr rfl d rfl)), fun r _ => ?_⟩
      cases r with
      | error e => exact .inr trivial
      | ok v =>
        obtain ⟨st, hst, hne⟩ := hupdate d
        refine ⟨.inl ⟨_, _, rfl, update d, st, rfl, hst, hne⟩, fun r _ => ?_⟩
        cases r <;> exact .inr trivial

/-- The rest of a status read: it ends on a deleted record, and fails on a
missing Deployment. -/
theorem statusOf_ready (d : Deployment) :
    (statusOf d >>= fun s => pure (Response.status s)).Throughout
      (aliveAnswer id d.key) (Ready id d.key) := by
  -- after the Deployment was read, an update can only write `running`
  have hupdate : ∀ live : LiveStatus, d.status ≠ .deleted →
      ((do
        if nextStatus d.status live ≠ d.status then
          let _ ← updateDeployment d.id { status := some (nextStatus d.status live) }
        return StatusResponse.live d.id (nextStatus d.status live) live : Action StatusResponse)
        >>= fun s => pure (Response.status s)).Throughout (aliveAnswer id d.key) (Ready id d.key) := by
    intro live hstatus
    split
    · have hne : nextStatus d.status live ≠ .deleted := by
        unfold nextStatus
        split
        · decide
        · exact hstatus
      refine ⟨?_, fun r _ => by cases r <;> exact .inr trivial⟩
      by_cases hid : d.id = id
      · exact .inl ⟨_, _, rfl, _, _, by rw [hid], rfl, hne⟩
      · refine .inr ⟨⟨fun ⟨_, _, heq, _⟩ => hid (Call.updateDeployment.inj heq).1, fun _ _ => nofun⟩,
          fun r _ _ => by cases r <;> trivial⟩
    · exact .inr trivial
  unfold statusOf
  split
  · exact .inr trivial
  · rename_i hstatus
    refine ⟨.inr ⟨⟨fun ⟨_, _, heq, _⟩ => (nomatch heq), fun _ _ => nofun⟩, fun r _ hr => ?_⟩,
      fun r _ => ?_⟩
    · obtain ⟨e, rfl⟩ := hr rfl fun _ _ => nofun
      trivial
    cases r with
    | error e => exact .inr trivial
    | ok body => exact hupdate _ hstatus

theorem getStatus_ready :
    (DeploymentsService.getStatus id >>= fun s => pure (Response.status s)).Throughout
      (aliveAnswer id key) (Ready id key) := by
  refine ⟨.inr ⟨⟨fun ⟨_, _, heq, _⟩ => (nomatch heq), fun _ _ => nofun⟩, ?_⟩, ?_⟩
  · rintro r _ hr
    cases r with
    | error e => trivial
    | ok v =>
      obtain ⟨d, rfl, hdeleted, -⟩ := hr rfl v rfl
      show Prog.Meets _ (statusOf d >>= _) _ _
      unfold statusOf
      rw [if_pos hdeleted]
      trivial
  · rintro r hr
    match r, hr with
    | .error e, _ => exact .inr trivial
    | .ok none, _ => exact .inr trivial
    | .ok (some d), hr => exact hr rfl d rfl ▸ statusOf_ready d

theorem deleteDeploymentResources_calls (kubernetesNamespace : String)
    (names : KubernetesResourceNames) (deleteRoutes : Bool) :
    (deleteDeploymentResources kubernetesNamespace names deleteRoutes).Calls (HarmlessCall id) := by
  have hone : ∀ key, (deleteIfExists key).Calls (HarmlessCall id) := fun key =>
    (Prog.calls_perform.mpr (.delete key)).tryCatch fun _ => onNotFound_calls (p := pure ()) trivial _
  have hoptional : ∀ kind name,
      (deleteOptional kind kubernetesNamespace name).Calls (HarmlessCall id) := by
    intro kind name
    unfold deleteOptional
    split
    · exact hone _
    · trivial
  have hrest : (do
      deleteIfExists ⟨.deployment, kubernetesNamespace, names.deploymentName⟩
      deleteIfExists ⟨.service, kubernetesNamespace, names.serviceName⟩
      deleteIfExists ⟨.configMap, kubernetesNamespace, names.configMapName⟩
      deleteOptional .configMap kubernetesNamespace names.fileConfigMapName
      deleteOptional .secret kubernetesNamespace names.secretName
      deleteOptional .secret kubernetesNamespace names.secretFileSecretName :
        Action Unit).Calls (HarmlessCall id) :=
    (hone _).bind fun _ => (hone _).bind fun _ => (hone _).bind fun _ => (hoptional _ _).bind
      fun _ => (hoptional _ _).bind fun _ => hoptional _ _
  unfold deleteDeploymentResources
  split
  · exact (hone _).bind fun _ => (hone _).bind fun _ => hrest
  · exact hrest

/-- The deletion makes harmless calls only. -/
theorem delete_calls (now : ℕ) :
    (DeploymentsService.delete id now >>= fun d => pure (Response.sanitized d)).Calls
      (HarmlessCall id) := by
  have hfind : (findOneOrThrow id).Calls (HarmlessCall id) := by
    refine (Prog.calls_perform.mpr (.find id)).bind fun d => ?_
    cases d <;> trivial
  refine Prog.Calls.bind ?_ fun _ => trivial
  refine hfind.bind fun d => calls_liftExcept.bind fun names => ?_
  refine (deleteDeploymentResources_calls _ _ _).bind fun _ => ?_
  exact (Prog.calls_perform.mpr (.update now)).bind fun _ => trivial

/-- Reads of other tables, then a program that is ready. -/
theorem lookups_ready {α β : Type} {p : Action α} {f : α → Action β} {V : α → Prop}
    (hp : p.Calls Call.IsLookup) (hV : p.Returns V)
    (hleaves : ∀ a, V a → LeavesDeleted id key (f a))
    (hready : ∀ a, V a → (f a).Throughout (aliveAnswer id key) (Ready id key)) :
    (p >>= f).Throughout (aliveAnswer id key) (Ready id key) := by
  have hkeep : ∀ (c : Call) (s : Unit), c.IsLookup → True →
      (deadContract id key).pre c s ∧ ∀ r t, (deadContract id key).post c s r t → True := by
    intro c s hc _
    refine ⟨⟨?_, ?_⟩, fun _ _ _ => trivial⟩
    · rintro ⟨u, st, rfl, -⟩
      exact hc.elim
    · rintro rv m rfl
      exact hc.elim
  induction p with
  | ret a => exact hready a hV
  | throw e => exact .inr trivial
  | call c k ih =>
    refine ⟨.inr ?_, fun r _ => ih r (hp.2 r) (hV r)⟩
    exact (hp.meets hV hkeep trivial).bind (fun a _ h => hleaves a (h.2 a rfl)) fun _ _ _ => trivial

/-- A creation, up to its insertion: that fails when the record exists. -/
theorem create_ready (config : ServiceConfig) (request : CreateRequest)
    (hid : request.deploymentId = id) :
    (DeploymentsService.create config request >>= fun d => pure (Response.sanitized d)).Throughout
      (aliveAnswer id key) (Ready id key) := by
  have hleaves : ∀ {β : Type} (data : Deployment)
      (k : Except ApiError (Call.createDeployment data).Result → Action β),
      data.id = id → (∀ e, k (.error e) = .throw e) →
      LeavesDeleted id key (.call (.createDeployment data) k) := by
    intro β data k hdata hk
    refine ⟨⟨fun ⟨_, _, heq, _⟩ => (nomatch heq), fun _ _ => nofun⟩, fun r _ hr => ?_⟩
    obtain ⟨e, rfl⟩ := hr hdata
    rw [hk e]
    trivial
  unfold DeploymentsService.create
  rw [Prog.bind_assoc]
  refine lookups_ready (planDeployment_calls ..) (planDeployment_returns ..) ?_ ?_
  · rintro ⟨data, input⟩ hp
    exact hleaves data _ (hp.id.trans hid) fun _ => rfl
  · rintro ⟨data, input⟩ hp
    refine ⟨.inr (hleaves data _ (hp.id.trans hid) fun _ => rfl), ?_⟩
    rintro r ⟨e, rfl⟩
    exact .inr trivial

/-- Every request is ready throughout. -/
theorem program_ready (config : ServiceConfig) (id : String) (key : ObjectKey) (q : Request) :
    (q.program config id).Throughout (aliveAnswer id key) (Ready id key) := by
  cases q with
  | create request => exact create_ready config { request with deploymentId := id } rfl
  | getStatus => exact getStatus_ready
  | scale replicas now =>
    refine patchThenUpdate_ready fun d => ⟨_, rfl, ?_⟩
    split <;> decide
  | stop now => exact patchThenUpdate_ready fun d => ⟨_, rfl, by decide⟩
  | start requested => exact patchThenUpdate_ready fun d => ⟨_, rfl, by decide⟩
  | restart now =>
    show (DeploymentsService.restart id now >>= _).Throughout _ _
    rw [restart_eq]
    exact patchThenUpdate_ready fun d => ⟨_, rfl, by decide⟩
  | delete now =>
    exact (delete_calls now).throughout fun p hp => .inr (HarmlessCall.leavesDeleted hp)

/-! ### The requests together, before the deletion -/

/-- The record, if there is one, has its Deployment at `key`. -/
def KeyOf (id : String) (w : World) (key : ObjectKey) : Prop :=
  ∀ d, w.deployments id = some d → d.key = key

variable {s t u : Pool Request Call Call.Result ApiError Response World} {l : ℕ × Environment}

/-- While the requests run: every program is ready throughout, unless it is a
creation that has tried its insertion; and deletions make harmless calls. -/
structure Alive (id : String) (s : Pool Request Call Call.Result ApiError Response World) : Prop where
  ready : ∀ key, KeyOf id s.state key → ∀ (i : ℕ) (q : Request) (p : Action Response),
    s.tasks[i]? = some (q, p) →
    (∃ data, .createDeployment data ∈ s.own i) ∨ p.Throughout (aliveAnswer id key) (Ready id key)
  deletions : ∀ (i now : ℕ) (p : Action Response), s.tasks[i]? = some (.delete now, p) →
    p.Calls (HarmlessCall id)

theorem alive_start (config : ServiceConfig) (id : String) (w : World) (requests : List Request) :
    Alive id (requestPool config id w requests) := by
  have htask : ∀ (i : ℕ) (q : Request) (p : Action Response),
      (requestPool config id w requests).tasks[i]? = some (q, p) → p = q.program config id := by
    intro i q p hi
    rw [requestPool, Pool.start, List.getElem?_map, Option.map_eq_some_iff] at hi
    obtain ⟨q', -, heq⟩ := hi
    obtain ⟨rfl, rfl⟩ := Prod.mk.inj heq
    rfl
  constructor
  · intro key _ i q p hi
    obtain rfl := htask i q p hi
    exact .inr (program_ready config id key q)
  · intro i now p hi
    obtain rfl := htask i _ p hi
    exact delete_calls now

/-- A task after a step: it made the call, or it has not moved. -/
theorem task_of_step {q q' : Request} {c : Call} {k : Except ApiError c.Result → Action Response}
    {p : Action Response} {j : ℕ} (hq : s.tasks[l.1]? = some (q, .call c k))
    (hstep : s.step serve l = some t) (hj : t.tasks[j]? = some (q', p)) :
    (j = l.1 ∧ q' = q ∧ p = k (serve c l.2 s.state).1) ∨
      (j ≠ l.1 ∧ s.tasks[j]? = some (q', p)) := by
  obtain ⟨q₀, c₀, k₀, hq₀, rfl⟩ := Pool.step_some hstep
  obtain ⟨rfl, heq⟩ := Prod.mk.inj (Option.some.inj (hq₀.symm.trans hq))
  obtain ⟨rfl, hk⟩ := Prog.call.inj heq
  obtain rfl := eq_of_heq hk
  obtain ⟨rfl, heq⟩ | ⟨hne, hj⟩ := Pool.getElem?_set_cases hj
  · obtain ⟨rfl, rfl⟩ := Prod.mk.inj heq
    exact .inl ⟨rfl, rfl, rfl⟩
  · exact .inr ⟨hne, hj⟩

theorem KeyOf.of_step {c : Call} {x : Environment} {w : World}
    (h : KeyOf id (serve c x w).2 key) : KeyOf id w key := by
  intro d hd
  rcases serve_keeps_record hd c x with hd' | ⟨u, -, hd'⟩
  · exact h d hd'
  · exact h (d.update u) hd'

theorem Alive.step (h : Alive id s) (hstep : s.step serve l = some t) : Alive id t := by
  obtain ⟨q, c, k, hq, -⟩ := Pool.step_some hstep
  obtain ⟨hstate, -, hown⟩ := Pool.step_eq hq hstep
  constructor
  · intro key hkey i q' p hi
    rw [hstate] at hkey
    rw [hown]
    obtain ⟨rfl, rfl, rfl⟩ | ⟨hne, hi⟩ := task_of_step hq hstep hi
    · rw [if_pos rfl]
      rcases h.ready key hkey.of_step l.1 q' _ hq with ⟨data, hdata⟩ | hready
      · exact .inl ⟨data, List.mem_append_left _ hdata⟩
      · -- an insertion is noted; every other answer is one the program is ready for
        cases c with
        | createDeployment data => exact .inl ⟨data, by simp⟩
        | findDeployment id' =>
          refine .inr (hready.answer ?_)
          rintro rfl d hd
          refine hkey.of_step d ?_
          simp only [serve, World.serveDatabase] at hd
          split at hd
          · cases hd
          · exact Except.ok.inj hd
        | _ => exact .inr (hready.answer trivial)
    · rw [if_neg (Ne.symm hne)]
      exact h.ready key hkey.of_step i q' p hi
  · intro i now p hi
    obtain ⟨rfl, rfl, rfl⟩ | ⟨-, hi⟩ := task_of_step hq hstep hi
    · exact (h.deletions _ now _ hq).2 _
    · exact h.deletions i now p hi

/-! ### The requests together, after the deletion -/

/-- The record is deleted, and no program can change that. -/
structure Dead (id : String) (s : Pool Request Call Call.Result ApiError Response World) : Prop where
  deleted : ∃ d, s.state.deployments id = some d ∧ d.status = .deleted ∧
    ((s.state.cluster.objects d.key = none ∧
        ∀ (i : ℕ) (q : Request) (p : Action Response), s.tasks[i]? = some (q, p) →
          LeavesDeleted id d.key p) ∨
      ∀ (i : ℕ) (q : Request) (p : Action Response), s.tasks[i]? = some (q, p) →
        p.Calls (HarmlessCall id))

/-- A record that is deleted stays so under a call that does not revive it. -/
theorem deleted_of_not_revives {w : World} {d : Deployment} {c : Call} {x : Environment}
    (hd : w.deployments id = some d) (hdeleted : d.status = .deleted) (hc : ¬ c.Revives id) :
    ∃ d', (serve c x w).2.deployments id = some d' ∧ d'.status = .deleted ∧ d'.key = d.key := by
  rcases serve_keeps_record hd c x with hd' | ⟨u, rfl, hd'⟩
  · exact ⟨d, hd', hdeleted, rfl⟩
  · refine ⟨d.update u, hd', ?_, rfl⟩
    show u.status.getD d.status = .deleted
    cases hu : u.status with
    | none => exact hdeleted
    | some st =>
      by_contra hne
      exact hc ⟨u, st, rfl, hu, hne⟩

/-- The answers on a deleted record without a Deployment. -/
theorem deadAnswer_of_serve {w : World} {d : Deployment} (hd : w.deployments id = some d)
    (hdeleted : d.status = .deleted) (hgone : w.cluster.objects d.key = none) (c : Call)
    (x : Environment) : deadAnswer id d.key c (serve c x w).1 := by
  cases c with
  | findDeployment id' =>
    rintro rfl v hv
    simp only [serve, World.serveDatabase] at hv
    split at hv
    · cases hv
    · obtain rfl := Except.ok.inj hv
      exact ⟨d, hd, hdeleted, rfl⟩
  -- the id is taken
  | createDeployment data =>
    rintro rfl
    simp only [serve, World.serveDatabase]
    split
    · exact ⟨_, rfl⟩
    · split
      · exact ⟨_, rfl⟩
      · rename_i hnone
        rw [hnone] at hd
        cases hd
  -- the object is gone, and only a creation would not mind
  | kubernetes op =>
    intro hkey hop
    simp only [serve]
    split
    · exact ⟨_, rfl⟩
    · rw [Cluster.serve_of_missing (hkey ▸ hgone) fun key rv m heq => ?_]
      · exact ⟨_, rfl⟩
      · subst heq
        obtain rfl : key = d.key := hkey
        exact hop rv m rfl
  | _ => trivial

/-- A Deployment that is gone stays gone when it is not created. -/
theorem gone_of_serve {w : World} (hgone : w.cluster.objects key = none) {c : Call}
    (hc : ∀ rv m, c ≠ .kubernetes (.create key rv m)) (x : Environment) :
    (serve c x w).2.cluster.objects key = none := by
  by_cases hk : c.IsKubernetes
  · cases c with
    | kubernetes op =>
      have hserved : (w.cluster.serve op x.status).2.objects key = none := by
        by_cases hkey : key = op.key
        · subst hkey
          rw [Cluster.serve_of_missing hgone fun key rv m heq => hc rv m (by subst heq; rfl)]
          exact hgone
        · rw [Cluster.serve_objects_of_ne hkey]
          exact hgone
      simp only [serve]
      split
      · -- the call fails, with or without its effect
        split
        · exact hserved
        · exact hgone
      · exact hserved
    | _ => exact hk.elim
  · rw [serve_cluster hk]
    exact hgone

theorem Dead.step (h : Dead id s) (hstep : s.step serve l = some t) : Dead id t := by
  obtain ⟨q, c, k, hq, -⟩ := Pool.step_some hstep
  obtain ⟨hstate, -, -⟩ := Pool.step_eq hq hstep
  obtain ⟨d, hd, hdeleted, ⟨hgone, htasks⟩ | htasks⟩ := h.deleted
  · -- the Deployment is gone
    have hmeets := htasks l.1 q _ hq
    obtain ⟨d', hd', hdeleted', hkey⟩ := deleted_of_not_revives (x := l.2) hd hdeleted hmeets.1.1
    refine ⟨d', hstate ▸ hd', hdeleted', .inl ⟨?_, ?_⟩⟩
    · rw [hstate, hkey]
      exact gone_of_serve hgone hmeets.1.2 l.2
    · intro i q' p hi
      rw [hkey]
      obtain ⟨rfl, rfl, rfl⟩ | ⟨-, hi⟩ := task_of_step hq hstep hi
      · exact hmeets.2 _ () (deadAnswer_of_serve hd hdeleted hgone c l.2)
      · exact htasks i q' p hi
  · -- only deletions are left
    have hcalls := htasks l.1 q _ hq
    obtain ⟨d', hd', hdeleted', -⟩ :=
      deleted_of_not_revives (x := l.2) hd hdeleted hcalls.1.not_revives
    refine ⟨d', hstate ▸ hd', hdeleted', .inr ?_⟩
    intro i q' p hi
    obtain ⟨rfl, rfl, rfl⟩ | ⟨-, hi⟩ := task_of_step hq hstep hi
    · exact hcalls.2 _
    · exact htasks i q' p hi

/-! ### The commit of a deletion -/

/-- The step commits the update of a delete request. -/
def CommitsDelete (id : String) (s : Pool Request Call Call.Result ApiError Response World)
    (l : ℕ × Environment) : Prop :=
  l.2.databaseFault = none ∧ (s.state.deployments id).isSome ∧
    ∃ now, s.next l.1 = some (.delete now, .updateDeployment id (deletedUpdate now))

/-- Every request that has not returned is a deletion, or else it cannot revive
the record: its next call does not write another status, it is not a creation
that has tried its insertion, and the Deployment it would find is gone. -/
def Quiet (id : String) (s : Pool Request Call Call.Result ApiError Response World) : Prop :=
  ∀ d, s.state.deployments id = some d → ∀ i q c, s.next i = some (q, c) →
    (∃ now, q = .delete now) ∨
      (s.state.cluster.objects d.key = none ∧ ¬ c.Revives id ∧
        ∀ data, .createDeployment data ∉ s.own i)

/-- A deletion that commits while the others are quiet is final. -/
theorem Alive.commit (h : Alive id s) (hcommit : CommitsDelete id s l) (hquiet : Quiet id s)
    (hstep : s.step serve l = some t) : Dead id t := by
  obtain ⟨hfault, hsome, now, hnext⟩ := hcommit
  obtain ⟨k, hq⟩ := Pool.next_some.mp hnext
  obtain ⟨d, hd⟩ := Option.isSome_iff_exists.mp hsome
  obtain ⟨hstate, -, -⟩ := Pool.step_eq hq hstep
  have hserve : (serve (.updateDeployment id (deletedUpdate now)) l.2 s.state).2 =
      { s.state with
        deployments := Function.update s.state.deployments id
          (some (d.update (deletedUpdate now))) } := by
    simp only [serve, hfault, World.serveDatabase, hd]
  rw [hserve] at hstate
  have hkeyOf : KeyOf id s.state d.key := by
    intro d' hd'
    obtain rfl := Option.some.inj (hd'.symm.trans hd)
    rfl
  have hrecord : t.state.deployments id = some (d.update (deletedUpdate now)) := by
    rw [hstate]
    exact Function.update_self ..
  refine ⟨d.update (deletedUpdate now), hrecord, rfl, ?_⟩
  by_cases hgone : s.state.cluster.objects d.key = none
  · refine .inl ⟨by rw [hstate]; exact hgone, fun i q p hi => ?_⟩
    obtain ⟨rfl, rfl, rfl⟩ | ⟨-, hi⟩ := task_of_step hq hstep hi
    · exact HarmlessCall.leavesDeleted ((h.deletions _ now _ hq).2 _)
    · cases p with
      | call c k' =>
        rcases hquiet d hd i q c (Pool.next_some.mpr ⟨k', hi⟩) with ⟨now', rfl⟩ | ⟨-, hnot, hinsert⟩
        · exact HarmlessCall.leavesDeleted (h.deletions i now' _ hi)
        · rcases h.ready d.key hkeyOf i q _ hi with ⟨data, hdata⟩ | hready
          · exact absurd hdata (hinsert data)
          · refine hready.here.resolve_left ?_
            rintro ⟨c', k'', heq, hrevives⟩
            obtain ⟨rfl, -⟩ := Prog.call.inj heq
            exact hnot hrevives
      | _ => trivial
  · -- the Deployment is still there: only deletions are left
    refine .inr fun i q p hi => ?_
    obtain ⟨rfl, rfl, rfl⟩ | ⟨-, hi⟩ := task_of_step hq hstep hi
    · exact (h.deletions _ now _ hq).2 _
    · cases p with
      | call c k' =>
        rcases hquiet d hd i q c (Pool.next_some.mpr ⟨k', hi⟩) with ⟨now', rfl⟩ | ⟨hgone', -⟩
        · exact h.deletions i now' _ hi
        · exact absurd hgone' hgone
      | _ => trivial

/-- **Deleted is terminal, when it commits in quiet.**  In every run of any
requests on a deployment, whichever calls fail, after a deletion that commits
while the other requests are quiet the record is deleted for good. -/
theorem deleted_is_terminal {config : ServiceConfig} {w : World} {requests : List Request}
    {before after : List (ℕ × Environment)}
    (hbefore : exec (Pool.step serve) (requestPool config id w requests) before = some s)
    (hcommit : CommitsDelete id s l) (hquiet : Quiet id s) (hstep : s.step serve l = some t)
    (hafter : exec (Pool.step serve) t after = some u) :
    ∃ d, u.state.deployments id = some d ∧ d.status = .deleted := by
  have halive : Alive id s :=
    exec_invariant (C := fun _ _ => True) (fun _ _ _ hs _ hstep => Alive.step hs hstep)
      (alive_start config id w requests) (along_true _ _) hbefore
  have hdead : Dead id u :=
    exec_invariant (C := fun _ _ => True) (fun _ _ _ hs _ hstep => Dead.step hs hstep)
      (halive.commit hcommit hquiet hstep) (along_true _ _) hafter
  obtain ⟨d, hd, hdeleted, -⟩ := hdead.deleted
  exact ⟨d, hd, hdeleted⟩

/-- A scale request that begins after the deletion finds the Deployment gone. -/
theorem deleted_is_terminal_then_scale :
    ∃ s t u d,
      exec (Pool.step serve) (requestPool sampleConfig "1" sampleWorld [.delete 0, .scale 3 0])
        (schedule (List.replicate 7 0)) = some s ∧
      s.step serve (0, healthy) = some t ∧ exec (Pool.step serve) t (schedule [1, 1]) = some u ∧
      u.state.deployments "1" = some d ∧ d.status = .deleted := by
  have hsome : ((exec (Pool.step serve)
      (requestPool sampleConfig "1" sampleWorld [.delete 0, .scale 3 0])
      (schedule (List.replicate 7 0))).any fun s =>
        decide (s.next 0 = some (.delete 0, .updateDeployment "1" (deletedUpdate 0))) &&
        decide (s.next 1 = some (.scale 3 0, .findDeployment "1") ∧ s.own 1 = []) &&
        decide (s.state.deployments "1" = some sampleDeployment) &&
        (s.state.cluster.objects sampleDeployment.key).isNone &&
        (s.step serve (0, healthy)).any fun t =>
          (exec (Pool.step serve) t (schedule [1, 1])).isSome) = true := by decide
  obtain ⟨s, hrun, hs⟩ := (Option.any_eq_true ..).mp hsome
  simp only [Bool.and_eq_true, Option.any_eq_true, Option.isSome_iff_exists, decide_eq_true_eq,
    Option.isNone_iff_eq_none] at hs
  obtain ⟨⟨⟨⟨hdelete, hscale, hown⟩, hrecord⟩, hgone⟩, t, hstep, u, hafter⟩ := hs
  -- the deletion is about to write, and the scale has not read yet
  have hquiet : Quiet "1" s := by
    intro d hd i q c hi
    obtain rfl := Option.some.inj (hd.symm.trans hrecord)
    match i with
    | 0 =>
      obtain ⟨rfl, -⟩ := Prod.mk.inj (Option.some.inj (hi.symm.trans hdelete))
      exact .inl ⟨0, rfl⟩
    | 1 =>
      obtain ⟨-, rfl⟩ := Prod.mk.inj (Option.some.inj (hi.symm.trans hscale))
      refine .inr ⟨hgone, ?_, by simp [hown]⟩
      rintro ⟨v, st, heq, -⟩
      cases heq
    | i + 2 =>
      obtain ⟨k, hk⟩ := Pool.next_some.mp hi
      have hlt := (List.getElem?_eq_some_iff.mp hk).1
      have hlength := congrArg List.length (Pool.exec_requests hrun)
      simp [requestPool, Pool.start] at hlength
      omega
  obtain ⟨d, hd, hdeleted⟩ :=
    deleted_is_terminal hrun ⟨rfl, by simp [hrecord], 0, hdelete⟩ hquiet hstep hafter
  exact ⟨s, t, u, d, hrun, hstep, hafter, hd, hdeleted⟩

/-- A scale request reads and patches; a deletion runs from beginning to end;
then the scale request updates the record. -/
theorem scale_undoes_delete :
    ∃ s t u d,
      exec (Pool.step serve) (requestPool sampleConfig "1" sampleWorld [.scale 3 0, .delete 0])
        (schedule ([0, 0] ++ List.replicate 7 1)) = some s ∧
      CommitsDelete "1" s (1, healthy) ∧ s.step serve (1, healthy) = some t ∧
      exec (Pool.step serve) t (schedule [0]) = some u ∧
      u.state.deployments "1" = some d ∧ d.status = .creating := by
  have hsome : ((exec (Pool.step serve)
      (requestPool sampleConfig "1" sampleWorld [.scale 3 0, .delete 0])
      (schedule ([0, 0] ++ List.replicate 7 1))).any fun s =>
        decide (s.next 1 = some (.delete 0, .updateDeployment "1" (deletedUpdate 0))) &&
        (s.state.deployments "1").isSome &&
        (s.step serve (1, healthy)).any fun t =>
          (exec (Pool.step serve) t (schedule [0])).any fun u =>
            (u.state.deployments "1").any fun d => d.status = .creating) = true := by decide
  obtain ⟨s, hrun, hs⟩ := (Option.any_eq_true ..).mp hsome
  simp only [Bool.and_eq_true, Option.any_eq_true, decide_eq_true_eq] at hs
  obtain ⟨⟨hdelete, hrecord⟩, t, hstep, u, hafter, d, hd, hcreating⟩ := hs
  exact ⟨s, t, u, d, hrun, ⟨rfl, hrecord, 0, hdelete⟩, hstep, hafter, hd, hcreating⟩

end NexCause
