/-
NexCause/ScaleAgreement.lean

Concurrent scale, stop and start requests on one deployment, all calls
succeeding.

Each request patches the cluster and then updates the record, and nothing
orders the patches of different requests as their updates.  So once all have
returned, the cluster has the count of the last patch, and the record the
count of the last update (`record_follows_last_update`); they agree exactly
when these are the same, and do not when one request patches last and another
updates last (`scale_and_stop_disagree`).
-/
import NexCause.DeploymentPrograms
import NexCause.Transition

namespace NexCause

open Program Transition

/-! ### The requests and their counts -/

/-- A scale, stop or start request, within the bounds of its DTO. -/
def Request.IsScaling : Request → Prop
  | .scale _ _ => True
  | .stop _ => True
  | .start requested => ∀ n, requested = some n → 1 ≤ n
  | _ => False

/-- The count a call gives the Deployment `key`. -/
def Call.patchedReplicas (key : ObjectKey) : Call → Option ℕ
  | .kubernetes (.patch key' (.replicas n)) => if key' = key then some n else none
  | _ => none

/-- The count a call gives the record `id`. -/
def Call.storedReplicas (id : String) : Call → Option ℕ
  | .updateDeployment id' u => if id' = id then u.replicas else none
  | _ => none

/-- The record and its Deployment object agree. -/
structure Agree (d : Deployment) (o : Object) : Prop where
  desired : o.specReplicas = some d.desiredReplicas
  replicas : o.specReplicas = some d.replicas
  stopped : d.status = .stopped ↔ o.specReplicas = some 0

/-! ### What one request does -/

/-- No two of a request's calls give different counts. -/
def Coherent (id : String) (key : ObjectKey) (h : List Call) : Prop :=
  ∀ c ∈ h, ∀ c' ∈ h, ∀ m n, c.storedReplicas id = some m → c'.patchedReplicas key = some n → m = n

/-- The calls of a scaling request: those of the record `id` and its Deployment
`key`, with one count. -/
inductive ScalingCall (id : String) (key : ObjectKey) : Call → Prop
  | find : ScalingCall id key (.findDeployment id)
  | patch (n : ℕ) : ScalingCall id key (.kubernetes (.patch key (.replicas n)))
  | update (n : ℕ) (u : DeploymentUpdate) (hu : ScalingUpdate n u) :
      ScalingCall id key (.updateDeployment id u)

/-- What the calls of a scaling request may be answered. -/
def scalingAnswer (key : ObjectKey) : (c : Call) → Except ApiError c.Result → Prop
  | .findDeployment _, r =>
      ∃ d : Deployment, r = .ok (some d) ∧ d.key = key ∧ d.lastNonZeroReplicas ≠ some 0
  | _, r => ∃ v, r = .ok v

/-- What a scaling request may assume and must keep. -/
def scalingContract (id : String) (key : ObjectKey) :
    Prog.Contract Call Call.Result ApiError (List Call) where
  pre c h := ScalingCall id key c ∧ Coherent id key (h ++ [c])
  post c h r h' := scalingAnswer key c r ∧ h' = h ++ [c]

/-- A settled request has returned, and made its patch and its update. -/
def ScalingDone (id : String) (key : ObjectKey) (r : Except ApiError Response) (h : List Call) :
    Prop :=
  (∃ v, r = .ok v) ∧ (∃ c ∈ h, ∃ n, c.storedReplicas id = some n) ∧
    ∃ c ∈ h, ∃ n, c.patchedReplicas key = some n

/-- The common shape of the three operations keeps the contract. -/
theorem patchThenUpdate_scaling {id : String} {key : ObjectKey} (count : Deployment → ℕ)
    (update : Deployment → DeploymentUpdate)
    (hupdate : ∀ d, d.lastNonZeroReplicas ≠ some 0 → ScalingUpdate (count d) (update d)) :
    ((patchThenUpdate id (fun d => .replicas (count d)) update >>= fun d =>
      pure (Response.deployment d) : Action Response)).Meets (scalingContract id key)
      (ScalingDone id key) [] := by
  -- no count has been given when the record is read
  refine ⟨⟨.find, by simp [Coherent, Call.storedReplicas]⟩, ?_⟩
  rintro r h ⟨⟨d, rfl, rfl, hlast⟩, rfl⟩
  have hu := hupdate d hlast
  -- the patch gives the first
  refine ⟨⟨.patch _, by simp [Coherent, Call.storedReplicas]⟩, ?_⟩
  rintro r h ⟨⟨v, rfl⟩, rfl⟩
  -- the update gives the same
  refine ⟨⟨.update _ _ hu, ?_⟩, ?_⟩
  · simp [Coherent, Call.storedReplicas, Call.patchedReplicas, hu.replicas]
  · rintro r h ⟨⟨v, rfl⟩, rfl⟩
    refine ⟨⟨_, rfl⟩, ⟨.updateDeployment id (update d), by simp, count d, ?_⟩,
      ⟨.kubernetes (.patch d.key (.replicas (count d))), by simp, count d, ?_⟩⟩
    · simp [Call.storedReplicas, hu.replicas]
    · simp [Call.patchedReplicas]

/-- Every scaling request keeps the contract. -/
theorem scaling_meets {config : ServiceConfig} {id : String} {key : ObjectKey} {q : Request}
    (hq : q.IsScaling) :
    (q.program config id).Meets (scalingContract id key) (ScalingDone id key) [] := by
  cases q with
  | scale replicas now =>
    apply patchThenUpdate_scaling (fun _ => replicas) (scaleUpdate replicas now)
    exact fun d hlast => scaleUpdate_scaling hlast
  | stop now =>
    apply patchThenUpdate_scaling (fun _ => 0) (stopUpdate now)
    exact fun d hlast => stopUpdate_scaling hlast
  | start requested =>
    apply patchThenUpdate_scaling (startReplicas requested)
      fun d => startUpdate (startReplicas requested d)
    exact fun d hlast => startUpdate_scaling (startReplicas_pos hq hlast)
  | _ => exact hq.elim

/-! ### What the requests do together -/

/-- The record and the Deployment hold the counts that were given last. -/
structure LastCounts (id : String) (key : ObjectKey) (w : World) (log : List (ℕ × Call)) : Prop where
  record : ∃ d, w.deployments id = some d ∧ d.key = key ∧ d.lastNonZeroReplicas ≠ some 0 ∧
    ∀ i n, Pool.lastBy (Call.storedReplicas id) log = some (i, n) →
      d.desiredReplicas = n ∧ d.replicas = n ∧ (d.status = .stopped ↔ n = 0)
  object : ∃ o n₀, w.cluster.objects key = some o ∧ o.specReplicas = some n₀ ∧
    ∀ i n, Pool.lastBy (Call.patchedReplicas key) log = some (i, n) → n₀ = n

/-- The pool while the requests run. -/
structure Scaling (id : String) (key : ObjectKey)
    (s : Pool Request Call Call.Result ApiError Response World) : Prop where
  counts : LastCounts id key s.state s.log
  coherent : ∀ i, Coherent id key (s.own i)
  tasks : s.Follows (fun _ => scalingContract id key) (fun _ => ScalingDone id key)

/-- One call of a scaling request: its answer is one the contract allows, and
the last counts stay the last. -/
theorem LastCounts.serve {id : String} {key : ObjectKey} {w : World} {log : List (ℕ × Call)}
    {x : Environment} (h : LastCounts id key w log) (hx : x.Healthy) {c : Call}
    (hc : ScalingCall id key c) (i : ℕ) :
    scalingAnswer key c (serve c x w).1 ∧ LastCounts id key (serve c x w).2 (log ++ [(i, c)]) := by
  obtain ⟨⟨d, hd, hkey, hlast, hstored⟩, ⟨o, n₀, ho, hn₀, hpatched⟩⟩ := h
  cases hc with
  | find =>
    have hserve : NexCause.serve (.findDeployment id) x w = (.ok (some d), w) := by
      simp only [NexCause.serve, hx.database, World.serveDatabase, hd]
    rw [hserve]
    refine ⟨⟨d, rfl, hkey, hlast⟩, ⟨d, hd, hkey, hlast, ?_⟩, ⟨o, n₀, ho, hn₀, ?_⟩⟩
    · rwa [Pool.lastBy_append_none rfl]
    · rwa [Pool.lastBy_append_none rfl]
  -- the last patch is this one
  | patch n =>
    have hserve : NexCause.serve (.kubernetes (.patch key (.replicas n))) x w =
        (.ok (), { w with cluster := w.cluster.put key (o.manifest.patch (.replicas n)) }) := by
      simp only [NexCause.serve, hx.kubernetes, Cluster.serve, ho]
      rfl
    rw [hserve]
    refine ⟨⟨_, rfl⟩, ⟨d, hd, hkey, hlast, ?_⟩, ⟨_, n, Cluster.put_objects_self .., ?_, ?_⟩⟩
    · rwa [Pool.lastBy_append_none rfl]
    · exact specReplicas_patch hn₀ _ n
    · intro j m hm
      rw [Pool.lastBy_append_some (b := n) (by simp [Call.patchedReplicas])] at hm
      exact (Prod.mk.inj (Option.some.inj hm)).2
  -- and the last update this one
  | update n u hu =>
    have hserve : NexCause.serve (.updateDeployment id u) x w = (.ok (d.update u),
        { w with deployments := Function.update w.deployments id (some (d.update u)) }) := by
      simp only [NexCause.serve, hx.database, World.serveDatabase, hd]
    rw [hserve]
    obtain ⟨st, hst, hstop⟩ := hu.status
    obtain ⟨l, hl, hl0⟩ := hu.lastNonZero
    refine ⟨⟨_, rfl⟩, ⟨d.update u, Function.update_self .., hkey, ?_, ?_⟩, ⟨o, n₀, ho, hn₀, ?_⟩⟩
    · simpa only [Deployment.update, hl, Option.getD_some] using hl0
    · intro j m hm
      rw [Pool.lastBy_append_some (b := n) (by simp [Call.storedReplicas, hu.replicas])] at hm
      obtain ⟨-, rfl⟩ := Prod.mk.inj (Option.some.inj hm)
      simp only [Deployment.update, hu.replicas, hu.desired, hst, Option.getD_some]
      exact ⟨trivial, trivial, hstop⟩
    · rwa [Pool.lastBy_append_none rfl]

/-- **Step.** -/
theorem Scaling.step {id : String} {key : ObjectKey}
    {s t : Pool Request Call Call.Result ApiError Response World} {l : ℕ × Environment}
    (h : Scaling id key s) (hl : l.2.Healthy) (hstep : s.step serve l = some t) :
    Scaling id key t := by
  obtain ⟨q, c, k, hq, -⟩ := Pool.step_some hstep
  obtain ⟨hstate, hlog, hown⟩ := Pool.step_eq hq hstep
  obtain ⟨hcall, hcoherent⟩ := (h.tasks l.1 q (.call c k) hq).1
  obtain ⟨hanswer, hcounts⟩ := h.counts.serve hl hcall l.1
  refine ⟨?_, fun i => ?_, h.tasks.step hstep hq ⟨hanswer, rfl⟩⟩
  · rw [hstate, hlog]
    exact hcounts
  · rw [hown]
    split
    · rename_i hi
      exact hi ▸ hcoherent
    · exact h.coherent i

theorem scaling_start {config : ServiceConfig} {id : String} {w : World} {d₀ : Deployment}
    {o₀ : Object} {n₀ : ℕ} {requests : List Request} (hrecord : w.deployments id = some d₀)
    (hobject : w.cluster.objects d₀.key = some o₀) (hspec : o₀.specReplicas = some n₀)
    (hlast : d₀.lastNonZeroReplicas ≠ some 0) (hrequests : ∀ q ∈ requests, q.IsScaling) :
    Scaling id d₀.key (requestPool config id w requests) := by
  refine ⟨⟨⟨d₀, hrecord, rfl, hlast, fun _ _ h => nomatch h⟩,
    ⟨o₀, n₀, hobject, hspec, fun _ _ h => nomatch h⟩⟩, fun _ _ hc => (nomatch hc), ?_⟩
  intro i q p hi
  rw [requestPool, Pool.start, List.getElem?_map, Option.map_eq_some_iff] at hi
  obtain ⟨q', hq', heq⟩ := hi
  obtain ⟨rfl, rfl⟩ := Prod.mk.inj heq
  exact scaling_meets (hrequests q' (List.mem_of_getElem? hq'))

/-- **The last writes decide.**  However scale, stop and start requests
interleave, once all have returned (and every one does return a record) the
record holds the count of the last update, and is stopped exactly when that is
zero; the Deployment holds the count of the last patch.  So they agree exactly
when these counts are the same, as they are when the last patch and the last
update are of one request. -/
theorem record_follows_last_update {config : ServiceConfig} {id : String} {w : World}
    {d₀ : Deployment} {o₀ : Object} {n₀ : ℕ} {requests : List Request}
    {labels : List (ℕ × Environment)} {s : Pool Request Call Call.Result ApiError Response World}
    (hrecord : w.deployments id = some d₀) (hobject : w.cluster.objects d₀.key = some o₀)
    (hspec : o₀.specReplicas = some n₀) (hlast : d₀.lastNonZeroReplicas ≠ some 0)
    (hrequests : ∀ q ∈ requests, q.IsScaling) (hne : requests ≠ [])
    (hhealthy : ∀ l ∈ labels, l.2.Healthy)
    (hrun : exec (Pool.step serve) (requestPool config id w requests) labels = some s)
    (hsettled : s.Settled) :
    (∀ task ∈ s.tasks, ∃ v, task.2 = .ret v) ∧
    ∃ d o i j m n, s.state.deployments id = some d ∧ s.state.cluster.objects d₀.key = some o ∧
      Pool.lastBy (Call.storedReplicas id) s.log = some (i, m) ∧
      Pool.lastBy (Call.patchedReplicas d₀.key) s.log = some (j, n) ∧
      d.desiredReplicas = m ∧ d.replicas = m ∧ (d.status = .stopped ↔ m = 0) ∧
      o.specReplicas = some n ∧ (Agree d o ↔ m = n) ∧ (i = j → m = n) := by
  have hinv : Scaling id d₀.key s :=
    exec_invariant (C := fun _ l => l.2.Healthy) (fun _ _ _ hs hl hstep => Scaling.step hs hl hstep)
      (scaling_start hrecord hobject hspec hlast hrequests) (along_of_forall hhealthy) hrun
  have hsame : s.tasks.map Prod.fst = requests := by
    rw [Pool.exec_requests hrun]
    show ((requests.map fun q => (q, q.program config id)).map Prod.fst) = requests
    rw [List.map_map]
    exact List.map_id requests
  -- what a settled request guarantees
  have hdone : ∀ i q p, s.tasks[i]? = some (q, p) →
      (∃ v, p = .ret v) ∧ (∃ c ∈ s.own i, ∃ n, c.storedReplicas id = some n) ∧
        ∃ c ∈ s.own i, ∃ n, c.patchedReplicas d₀.key = some n := by
    intro i q p hi
    have hmeets := hinv.tasks i q p hi
    have hend := hsettled (q, p) (List.mem_of_getElem? hi)
    cases p with
    | ret v => exact ⟨⟨v, rfl⟩, hmeets.2⟩
    | throw e => exact absurd hmeets.1 (by rintro ⟨v, hv⟩; cases hv)
    | call c k => exact hend.elim
  constructor
  · intro task htask
    obtain ⟨i, hi⟩ := List.getElem?_of_mem htask
    exact (hdone i task.1 task.2 hi).1
  -- the first request has made both calls
  obtain ⟨q₀, rest, rfl⟩ := List.exists_cons_of_ne_nil hne
  obtain ⟨task, tasks, htasks, -, -⟩ := List.map_eq_cons_iff.mp hsame
  obtain ⟨-, ⟨c, hc, k, hk⟩, ⟨c', hc', k', hk'⟩⟩ := hdone 0 task.1 task.2 (by rw [htasks]; rfl)
  obtain ⟨i, m, hm⟩ := Pool.lastBy_isSome (Pool.mem_own.mp hc) hk
  obtain ⟨j, n, hn⟩ := Pool.lastBy_isSome (Pool.mem_own.mp hc') hk'
  obtain ⟨d, hd, -, -, hstored⟩ := hinv.counts.record
  obtain ⟨o, n', ho, hn', hpatched⟩ := hinv.counts.object
  obtain ⟨hdesired, hreplicas, hstop⟩ := hstored i m hm
  obtain rfl := hpatched j n hn
  refine ⟨d, o, i, j, m, n', hd, ho, hm, hn, hdesired, hreplicas, hstop, hn', ?_, ?_⟩
  · constructor
    · intro hagree
      have h := hagree.desired
      rw [hn', hdesired] at h
      exact (Option.some.inj h).symm
    · rintro rfl
      refine ⟨by rw [hn', hdesired], by rw [hn', hreplicas], ?_⟩
      rw [hstop, hn']
      simp
  · rintro rfl
    obtain ⟨a, ha, hav⟩ := Pool.lastBy_mem hm
    obtain ⟨b, hb, hbv⟩ := Pool.lastBy_mem hn
    exact hinv.coherent i a (Pool.mem_own.mpr ha) b (Pool.mem_own.mpr hb) m n' hav hbv

theorem record_follows_last_update_in_turn :
    ∃ s d o m n,
      exec (Pool.step serve) (requestPool sampleConfig "1" sampleWorld [.scale 3 0, .stop 0])
        (schedule [0, 0, 0, 1, 1, 1]) = some s ∧
      s.state.deployments "1" = some d ∧ s.state.cluster.objects sampleDeployment.key = some o ∧
      d.desiredReplicas = m ∧ o.specReplicas = some n ∧ (Agree d o ↔ m = n) := by
  have hsome : ((exec (Pool.step serve)
      (requestPool sampleConfig "1" sampleWorld [.scale 3 0, .stop 0])
      (schedule [0, 0, 0, 1, 1, 1])).any fun s => decide s.Settled) = true := by decide
  obtain ⟨s, hrun, hsettled⟩ := (Option.any_eq_true ..).mp hsome
  obtain ⟨-, d, o, -, -, m, n, hd, ho, -, -, hm, -, -, hn, hagree, -⟩ :=
    record_follows_last_update
      (rfl : sampleWorld.deployments "1" = some sampleDeployment)
      (rfl : sampleWorld.cluster.objects sampleDeployment.key = some sampleObject)
      (rfl : sampleObject.specReplicas = some 1)
      (by decide) (by simp [Request.IsScaling]) (by simp) (schedule_healthy _) hrun
      (of_decide_eq_true hsettled)
  exact ⟨s, d, o, m, n, hrun, hd, ho, hm, hn, hagree⟩

/-- The first request patches first and updates last: the cluster is left with
no replica, and the record with three. -/
theorem scale_and_stop_disagree :
    Agree sampleDeployment sampleObject ∧
    ∃ s d o,
      exec (Pool.step serve) (requestPool sampleConfig "1" sampleWorld [.scale 3 0, .stop 0])
        (schedule [0, 1, 0, 1, 1, 0]) = some s ∧ s.Settled ∧
      s.state.deployments "1" = some d ∧ s.state.cluster.objects sampleDeployment.key = some o ∧
      d.desiredReplicas = 3 ∧ o.specReplicas = some 0 ∧ ¬ Agree d o := by
  refine ⟨⟨rfl, rfl, by decide⟩, ?_⟩
  have hsome : ((exec (Pool.step serve)
      (requestPool sampleConfig "1" sampleWorld [.scale 3 0, .stop 0])
      (schedule [0, 1, 0, 1, 1, 0])).any fun s => decide s.Settled &&
        (s.state.deployments "1").any (fun d => d.desiredReplicas = 3) &&
        (s.state.cluster.objects sampleDeployment.key).any fun o => o.specReplicas = some 0) =
      true := by decide
  obtain ⟨s, hrun, hs⟩ := (Option.any_eq_true ..).mp hsome
  simp only [Bool.and_eq_true, Option.any_eq_true, decide_eq_true_eq] at hs
  obtain ⟨⟨hsettled, d, hd, hdesired⟩, o, ho, hspec⟩ := hs
  refine ⟨s, d, o, hrun, hsettled, hd, ho, hdesired, hspec, fun hagree => ?_⟩
  have h := hagree.desired
  rw [hspec, hdesired] at h
  cases h

end NexCause
