/-
NexCause/Lifecycle.lean

Requests of every kind on one deployment, one after another, from the creation
of its record on.  Calls to the cluster and reads of the database may fail, a
call to the cluster also after it has had its effect; writes to the database
succeed.  Do the counts, the status and the Deployment stay in step?

They do (`lifecycle_invariant`), but for requests that write a status, or none,
without looking at the replicas:

* a restart of a stopped deployment, which is left creating with no replica;
* a deletion that fails once the Deployment is deleted, which leaves the record
  as it was;
* a scale, stop or start whose patch is made but not answered, which leaves the
  record as it was; on a failed record this shows when a restart or a read of
  the status brings the record back.

`lifecycle_breaks` runs the first three.
-/
import NexCause.DeploymentHistory

namespace NexCause

open Program Transition

/-! ### The property -/

/-- The columns of a record agree with each other. -/
structure Counts (d : Deployment) : Prop where
  replicas : d.replicas = d.desiredReplicas
  stopped : d.status = .stopped ↔ d.desiredReplicas = 0
  stoppedAt : d.desiredReplicas = 0 ↔ d.stoppedAt.isSome

/-- The columns agree with each other and, unless the record is failed, with
the Deployment. -/
structure Consistent (w : World) (d : Deployment) : Prop extends Counts d where
  cluster : d.status ≠ .failed →
    ∃ o, w.cluster.objects d.key = some o ∧ o.specReplicas = some d.desiredReplicas

/-! ### The condition -/

/-- The call of a deletion that deletes the Deployment; the routes go first. -/
def Deployment.deletionCall (d : Deployment) : ℕ :=
  if (truthy d.publicHostname).isSome then 3 else 1

/-- The patch that sets `n` replicas is answered, or sets what the record has. -/
def Settled (d : Deployment) (x : Environment) (n : ℕ) : Prop :=
  d.status ≠ .failed → d.status ≠ .deleted → x.AnswerLost → n = d.desiredReplicas

/-- Where a request's calls must not fail, and what it must not find.

* The patch of a live deployment's replicas does not lose its answer.
* A restart that gets to its update does not find a stopped deployment.
* What brings a failed record back finds the count of the record in the cluster.
* A deletion of a live record fails while the Deployment stands, or not at all
  from there to the last object. -/
def Sound (id : String) (w : World) (o : Operation) : Prop :=
  ∀ d, w.deployments id = some d → (o.env 0).databaseFault = none →
    match o.request with
    | .create _ => True
    | .scale n _ => Settled d (o.env 1) n
    | .stop _ => Settled d (o.env 1) 0
    | .start requested => Settled d (o.env 1) (startReplicas requested d)
    | .restart _ =>
        (o.env 1).kubernetesFault = none → ∀ object, w.cluster.objects d.key = some object →
          d.desiredReplicas ≠ 0 ∧
            (d.status = .failed → object.specReplicas = some d.desiredReplicas)
    | .getStatus =>
        d.status = .failed → (o.env 1).kubernetesFault = none →
          ∀ object, w.cluster.objects d.key = some object → object.Ready (o.env 1).status →
            object.specReplicas = some d.desiredReplicas
    | .delete _ =>
        d.status ≠ .failed → d.status ≠ .deleted →
          (∃ n, 1 ≤ n ∧ n < d.deletionCall ∧ (o.env n).kubernetesFault.isSome) ∨
          ((o.env d.deletionCall).kubernetesFault.isSome ∧
            (o.env d.deletionCall).tookEffect = false) ∨
          ∀ n, d.deletionCall ≤ n → n ≤ d.deletionCall + 5 → (o.env n).kubernetesFault = none

/-- The call writes to the database. -/
def Call.IsWrite : Call → Prop
  | .createDeployment _ => True
  | .updateDeployment _ _ => True
  | _ => False

/-- No write to the database fails. -/
def WritesSucceed (config : ServiceConfig) (id : String) (w : World) (o : Operation) : Prop :=
  ∀ n c, (o.finish config id w).calls[n]? = some c → c.IsWrite → (o.env n).databaseFault = none

/-! ### The invariant -/

/-- What is true of a record beside `Consistent`, deleted or not. -/
structure Life (id : String) (w : World) (d : Deployment) : Prop where
  id : d.id = id
  names : deploymentToResourceNames d = .ok (resourceNamesOf d.kubernetesDeployment)
  lastNonZero : d.lastNonZeroReplicas ≠ some 0
  counts : d.status ≠ .deleted → Counts d
  deployment : ∀ o, w.cluster.objects d.key = some o → ∃ n, o.specReplicas = some n
  cluster : d.status ≠ .failed → d.status ≠ .deleted → ∀ o, w.cluster.objects d.key = some o →
    o.specReplicas = some d.desiredReplicas
  there : d.status ≠ .failed → d.status ≠ .deleted → (w.cluster.objects d.key).isSome
  gone : d.status = .deleted → w.cluster.objects d.key = none

/-- The record, if there is one, is alive; before it there is no Deployment
under a name built for it. -/
structure Lives (id : String) (w : World) : Prop where
  life : ∀ d, w.deployments id = some d → Life id w d
  fresh : w.deployments id = none → ∀ kubernetesNamespace appName,
    w.cluster.objects ⟨.deployment, kubernetesNamespace, baseName appName id⟩ = none

section Step

variable {config : ServiceConfig} {id : String} {w : World} {d : Deployment} {o : Operation}

/-- What the record does not show. -/
theorem Life.consistent (h : Life id w d) (hd : d.status ≠ .deleted) : Consistent w d := by
  refine ⟨h.counts hd, fun hfailed => ?_⟩
  obtain ⟨o, ho⟩ := Option.isSome_iff_exists.mp (h.there hfailed hd)
  exact ⟨o, ho, h.cluster hfailed hd o ho⟩

/-- A new record in a world where the old one was alive. -/
theorem Lives.of_stored {t : World} {d' : Deployment} (hd : t.deployments id = some d')
    (h : Life id t d') : Lives id t := by
  constructor
  · intro d hd'
    obtain rfl := Option.some.inj (hd.symm.trans hd')
    exact h
  · intro hnone
    rw [hd] at hnone
    cases hnone

/-! A patch finds the Deployment, so the record is not deleted. -/

theorem Life.not_deleted (h : Life id w d) {object : Object}
    (ho : w.cluster.objects d.key = some object) : d.status ≠ .deleted := by
  intro hdeleted
  rw [h.gone hdeleted] at ho
  cases ho

theorem specReplicas_patch_restartedAt (object : Object) (rv instant : ℕ) :
    Object.specReplicas ⟨rv, object.manifest.patch (.restartedAt instant)⟩ =
      object.specReplicas := by
  unfold Object.specReplicas
  cases object.manifest with
  | deployment labels spec => rfl
  | _ => rfl

/-- An update that sets the counts to `n`, the status to go with it, and
whether the deployment is stopped. -/
structure Resize (n : ℕ) (u : DeploymentUpdate) : Prop extends ScalingUpdate n u where
  running : u.status = some .stopped ∨ u.status = some .creating
  stoppedAt : ∃ s, u.stoppedAt = some s ∧ (n = 0 ↔ s.isSome)

/-- Scale, stop and start keep a record alive. -/
theorem Life.resized (h : Life id w d) {object : Object}
    (ho : w.cluster.objects d.key = some object) {n : ℕ} {u : DeploymentUpdate}
    (hu : Resize n u) :
    Life id ((w.patched d.key object (.replicas n)).stored id (d.update u)) (d.update u) := by
  have hdeleted := h.not_deleted ho
  have hobject : ((w.patched d.key object (.replicas n)).stored id (d.update u)).cluster.objects
      (d.update u).key = some ⟨w.cluster.revision + 1, object.manifest.patch (.replicas n)⟩ :=
    Cluster.put_objects_self ..
  have hdesired : (d.update u).desiredReplicas = n := by
    show u.desiredReplicas.getD _ = n
    rw [hu.desired]
    rfl
  have hstatus : ∃ st, (d.update u).status = st ∧ (st = .stopped ↔ n = 0) ∧ st ≠ .deleted := by
    obtain ⟨st, hst, hstop⟩ := hu.status
    refine ⟨st, ?_, hstop, ?_⟩
    · show u.status.getD _ = st
      rw [hst]
      rfl
    · rintro rfl
      rcases hu.running with hrun | hrun <;> rw [hst] at hrun <;> cases hrun
  obtain ⟨st, hst, hstop, hne⟩ := hstatus
  -- the Deployment has the size that the patch gives it
  have hspec : ∀ o', ((w.patched d.key object (.replicas n)).stored id (d.update u)).cluster.objects
      (d.update u).key = some o' → o'.specReplicas = some n := by
    intro o' ho'
    rw [hobject] at ho'
    obtain rfl := Option.some.inj ho'
    obtain ⟨n₀, hn₀⟩ := h.deployment object ho
    exact specReplicas_patch hn₀ _ n
  constructor
  · exact h.id
  · exact h.names
  · -- the size to come back to is not zero
    obtain ⟨l, hl, hzero⟩ := hu.lastNonZero
    show u.lastNonZeroReplicas.getD _ ≠ some 0
    rw [hl]
    exact hzero
  · intro _
    -- the record counts what it is told, and stops at zero
    obtain ⟨s, hs, hzero⟩ := hu.stoppedAt
    refine ⟨?_, ?_, ?_⟩
    · rw [hdesired]
      show u.replicas.getD _ = n
      rw [hu.replicas]
      rfl
    · rw [hst, hdesired]
      exact hstop
    · rw [hdesired, hzero]
      show _ ↔ (u.stoppedAt.getD _).isSome
      rw [hs]
      rfl
  · intro o' ho'
    exact ⟨n, hspec o' ho'⟩
  · intro _ _ o' ho'
    rw [hdesired]
    exact hspec o' ho'
  · intro _ _
    rw [hobject]
    rfl
  · intro hdel
    exact absurd (hst.symm.trans hdel) hne

/-- A patch that was made, while the record stays as it was. -/
theorem Life.patched (h : Life id w d) {object : Object}
    (ho : w.cluster.objects d.key = some object) {p : MergePatch}
    (hany : ∀ rv, ∃ n, Object.specReplicas ⟨rv, object.manifest.patch p⟩ = some n)
    (hspec : d.status ≠ .failed → ∀ rv,
      Object.specReplicas ⟨rv, object.manifest.patch p⟩ = some d.desiredReplicas) :
    Life id (w.patched d.key object p) d := by
  have hdeleted := h.not_deleted ho
  have hobject : (w.cluster.put d.key (object.manifest.patch p)).objects d.key =
      some ⟨w.cluster.revision + 1, object.manifest.patch p⟩ := Cluster.put_objects_self ..
  constructor
  · exact h.id
  · exact h.names
  · exact h.lastNonZero
  · exact h.counts
  · intro o' ho'
    obtain rfl := Option.some.inj (hobject.symm.trans ho')
    exact hany _
  · intro hfailed _ o' ho'
    obtain rfl := Option.some.inj (hobject.symm.trans ho')
    exact hspec hfailed _
  · intro _ _
    exact Option.isSome_iff_exists.mpr ⟨_, hobject⟩
  · exact fun hdel => absurd hdel hdeleted

/-- A restart of a deployment with replicas keeps it alive. -/
theorem Life.restarted (h : Life id w d) {object : Object}
    (ho : w.cluster.objects d.key = some object) (hpos : d.desiredReplicas ≠ 0)
    (hspec : d.status = .failed → object.specReplicas = some d.desiredReplicas)
    {u : DeploymentUpdate} {now : ℕ}
    (hu : u = { status := some .creating, lastRestartedAt := some (some now) }) :
    Life id ((w.patched d.key object (.restartedAt now)).stored id (d.update u)) (d.update u) := by
  subst hu
  have hdeleted := h.not_deleted ho
  have hcounts := h.counts hdeleted
  have hobject : (w.cluster.put d.key (object.manifest.patch (.restartedAt now))).objects d.key =
      some ⟨w.cluster.revision + 1, object.manifest.patch (.restartedAt now)⟩ :=
    Cluster.put_objects_self ..
  constructor
  · exact h.id
  · exact h.names
  · exact h.lastNonZero
  · intro _
    refine ⟨hcounts.replicas, ?_, hcounts.stoppedAt⟩
    constructor
    · exact fun hst => nomatch hst
    · exact fun hzero => absurd hzero hpos
  · intro o' ho'
    obtain rfl := Option.some.inj (hobject.symm.trans ho')
    rw [specReplicas_patch_restartedAt]
    exact h.deployment object ho
  · intro _ _ o' ho'
    obtain rfl := Option.some.inj (hobject.symm.trans ho')
    rw [specReplicas_patch_restartedAt]
    -- a failed record comes back here, so its count in the cluster matters
    by_cases hfailed : d.status = .failed
    · exact hspec hfailed
    · exact h.cluster hfailed hdeleted object ho
  · intro _ _
    exact Option.isSome_iff_exists.mpr ⟨_, hobject⟩
  · exact fun hdel => nomatch hdel

theorem scaleUpdate_resize {n now : ℕ} (hlast : d.lastNonZeroReplicas ≠ some 0) :
    Resize n (scaleUpdate n now d) := by
  refine ⟨scaleUpdate_scaling hlast, ?_, ⟨_, rfl, ?_⟩⟩
  · by_cases hn : n = 0
    · exact .inl (congrArg some (if_pos hn))
    · exact .inr (congrArg some (if_neg hn))
  · by_cases hn : n = 0 <;> simp [hn]

theorem stopUpdate_resize {now : ℕ} (hlast : d.lastNonZeroReplicas ≠ some 0) :
    Resize 0 (stopUpdate now d) :=
  ⟨stopUpdate_scaling hlast, .inl rfl, ⟨_, rfl, by simp⟩⟩

theorem startUpdate_resize {n : ℕ} (hpos : 0 < n) : Resize n (startUpdate n) :=
  ⟨startUpdate_scaling hpos, .inr rfl, ⟨_, rfl, by simp [Nat.ne_of_gt hpos]⟩⟩

/-- Scale, stop, start and restart. -/
theorem Lives.patching (h : Lives id w) {f : Deployment → MergePatch × DeploymentUpdate}
    (hf : o.request.patching = some f) (hbounds : o.request.InBounds) (hsound : Sound id w o)
    (hwrites : WritesSucceed config id w o) : Lives id (o.finish config id w).state := by
  obtain ⟨ended, hpatch, hfinish⟩ := finish_of_patching config id w hf
  unfold WritesSucceed at hwrites
  rw [hfinish] at hwrites ⊢
  cases hpatch with
  | unread => exact h
  | unpatched => exact h
  -- the Deployment has changed and the record has not
  | unanswered d object e hread hd ho hlost =>
    have hlife := h.life d hd
    have hcond := hsound d hd hread
    refine Lives.of_stored (t := w.patched d.key object (f d).1) hd ?_
    obtain ⟨n₀, hn₀⟩ := hlife.deployment object ho
    have hreplicas : ∀ {n}, Settled d (o.env 1) n → (f d).1 = .replicas n →
        Life id (w.patched d.key object (f d).1) d := by
      intro n hsettled hn
      rw [hn]
      refine hlife.patched ho (fun rv => ⟨n, specReplicas_patch hn₀ rv n⟩) fun hfailed rv => ?_
      rw [← hsettled hfailed (hlife.not_deleted ho) hlost]
      exact specReplicas_patch hn₀ rv n
    cases hreq : o.request with
    | scale n now | stop now | start requested =>
      rw [hreq] at hf hcond
      obtain rfl := Option.some.inj hf
      exact hreplicas hcond rfl
    | restart now =>
      rw [hreq] at hf
      obtain rfl := Option.some.inj hf
      refine hlife.patched ho (fun rv => ⟨n₀, ?_⟩) fun hfailed rv => ?_
      · rw [specReplicas_patch_restartedAt]
        exact hn₀
      · rw [specReplicas_patch_restartedAt]
        exact hlife.cluster hfailed (hlife.not_deleted ho) object ho
    | _ =>
      rw [hreq] at hf
      cases hf
  -- a record that is not written is ruled out
  | unstored d object e hread hd ho hpatch hfault =>
    rw [hwrites 2 (.updateDeployment id (f d).2) rfl trivial] at hfault
    cases hfault
  -- both have changed, and to the same size
  | stored d object hread hd ho hpatch =>
    have hlife := h.life d hd
    refine Lives.of_stored (World.stored_deployments_self ..) ?_
    cases hreq : o.request with
    | scale n now =>
      rw [hreq] at hf
      obtain rfl := Option.some.inj hf
      exact hlife.resized ho (scaleUpdate_resize hlife.lastNonZero)
    | stop now =>
      rw [hreq] at hf
      obtain rfl := Option.some.inj hf
      exact hlife.resized ho (stopUpdate_resize hlife.lastNonZero)
    | start requested =>
      rw [hreq] at hf hbounds
      obtain rfl := Option.some.inj hf
      exact hlife.resized ho (startUpdate_resize (startReplicas_pos hbounds hlife.lastNonZero))
    -- a restart turns a failed record into a running one
    | restart now =>
      have hcond := hsound d hd hread
      rw [hreq] at hf hcond
      obtain rfl := Option.some.inj hf
      obtain ⟨hpos, hspec⟩ := hcond hpatch object ho
      exact hlife.restarted ho hpos hspec rfl
    | _ =>
      rw [hreq] at hf
      cases hf

/-- A read of the status: the deployment it finds running has replicas. -/
theorem Lives.getStatus (h : Lives id w) (hreq : o.request = .getStatus) (hsound : Sound id w o) :
    Lives id (o.finish config id w).state := by
  rcases finish_of_getStatus config hreq fun d hd => (h.life d hd).id with
    hsame | ⟨d, object, hread, hd, hdeleted, hanswered, ho, hready, hstate⟩
  · rw [hsame]
    exact h
  · rw [hstate]
    have hlife := h.life d hd
    have hcounts := hlife.counts hdeleted
    -- a failed record may run again only if its size is that of the Deployment
    have hspec : object.specReplicas = some d.desiredReplicas := by
      by_cases hfailed : d.status = .failed
      · have hcond := hsound d hd hread
        rw [hreq] at hcond
        exact hcond hfailed hanswered object ho hready
      · exact hlife.cluster hfailed hdeleted object ho
    have hne : d.desiredReplicas ≠ 0 := by
      have hpos := hready.1
      rw [hspec] at hpos
      exact Nat.ne_of_gt hpos
    refine Lives.of_stored (World.stored_deployments_self ..) ?_
    constructor
    · exact hlife.id
    · exact hlife.names
    · exact hlife.lastNonZero
    · intro _
      refine ⟨hcounts.replicas, ?_, hcounts.stoppedAt⟩
      constructor
      · exact fun hst => nomatch hst
      · exact fun hzero => absurd hzero hne
    · exact hlife.deployment
    · intro _ _ object' ho'
      obtain rfl := Option.some.inj (ho.symm.trans ho')
      exact hspec
    · intro _ _
      exact Option.isSome_iff_exists.mpr ⟨object, ho⟩
    · exact fun hdel => nomatch hdel

/-- What a creation plans is alive where it is deployed, created or failed. -/
theorem Planned.life {request : CreateRequest} {data : Deployment} {input : DeployImageInput}
    (h : Planned request data input) (hid : request.deploymentId = id) (hpos : 0 < data.replicas)
    (hobject : ∀ object, w.cluster.objects data.key = some object →
      object.specReplicas = some data.replicas)
    {st : DeploymentStatus} (hst : st = .failed ∨
      (st = .creating ∧ (w.cluster.objects data.key).isSome)) :
    Life id w (data.update { status := some st }) := by
  have hstopped : st ≠ .stopped := by
    rintro rfl
    rcases hst with hst | ⟨hst, -⟩ <;> cases hst
  have hne : data.desiredReplicas ≠ 0 := by
    rw [h.desired]
    exact Nat.ne_of_gt hpos
  constructor
  · exact h.id.trans hid
  · have hrecorded := h.recorded
    rw [h.names] at hrecorded
    exact hrecorded
  · show data.lastNonZeroReplicas ≠ some 0
    rw [h.lastNonZero, if_pos hpos]
    intro hzero
    exact absurd (Option.some.inj hzero) (Nat.ne_of_gt hpos)
  · intro _
    -- a new record has not been stopped, and wants at least one replica
    refine ⟨h.desired.symm, ?_, ?_⟩
    · constructor
      · exact fun hst => absurd hst hstopped
      · exact fun hzero => absurd hzero hne
    · constructor
      · exact fun hzero => absurd hzero hne
      · show data.stoppedAt.isSome → _
        rw [h.stoppedAt]
        exact fun hnone => nomatch hnone
  · exact fun object ho => ⟨data.replicas, hobject object ho⟩
  · intro _ _ object ho
    show _ = some data.desiredReplicas
    rw [h.desired]
    exact hobject object ho
  · intro hfailed _
    -- a deployment that did not fail has its object
    rcases hst with rfl | ⟨-, hthere⟩
    · exact absurd rfl hfailed
    · exact hthere
  · intro hdel
    obtain rfl : st = .deleted := hdel
    rcases hst with hst | ⟨hst, -⟩ <;> cases hst

/-- A creation: all is as it was, or its record is alive. -/
theorem Lives.create (h : Lives id w) {request : CreateRequest} (hreq : o.request = .create request)
    (hbounds : ∀ n, request.dto.replicas = some n → 1 ≤ n)
    (hwrites : WritesSucceed config id w o) : Lives id (o.finish config id w).state := by
  obtain ⟨r, hcreated, -⟩ := finish_of_create config id w
    (fun c x => c.IsWrite → x.databaseFault = none) hreq hwrites
  rcases hcreated with ⟨hsame, -⟩ | ⟨data, input, hins⟩
  · rw [hsame]
    exact h
  · have hplan := hins.planned
    have hpos : 0 < data.replicas := by
      rw [hplan.replicas]
      cases hreplicas : request.dto.replicas with
      | none => exact Nat.one_pos
      | some n => exact hbounds n hreplicas
    -- the id is new, and with it the name
    have hmissing : w.cluster.objects data.key = none := by
      obtain ⟨appName, hbase⟩ := hplan.base
      have hkey : data.key = ⟨.deployment, data.«namespace», baseName appName id⟩ := by
        unfold Deployment.key
        rw [hbase]
      rw [hkey]
      exact h.fresh hins.fresh _ _
    have hdeployed := hins.deployed hmissing
    cases r with
    -- a creation that fails after the row leaves it failed
    | error e =>
      refine Lives.of_stored (hins.failed e rfl fun u x hx => hx trivial) ?_
      exact hplan.life rfl hpos hdeployed.1 (.inl rfl)
    | ok a =>
      rcases hins.record with hd | hd
      · have hcreating : data = data.update { status := some .creating } := by
          unfold Deployment.update
          rw [← hplan.status]
          rfl
        refine Lives.of_stored hd ?_
        rw [hcreating]
        exact hplan.life rfl hpos hdeployed.1 (.inr ⟨rfl, hdeployed.2 a rfl⟩)
      · exact Lives.of_stored hd (hplan.life rfl hpos hdeployed.1 (.inl rfl))

/-- The deletion order: the Deployment, after the routes and before the rest. -/
theorem deletionOrder_length (d : Deployment) :
    d.naming.deletionOrder.length = d.deletionCall + 5 := by
  unfold Naming.deletionOrder Deployment.deletionCall Deployment.naming
  by_cases hrouted : (truthy d.publicHostname).isSome <;> simp [hrouted]

theorem deletionCall_pos (d : Deployment) : 1 ≤ d.deletionCall := by
  unfold Deployment.deletionCall
  split <;> decide

theorem key_mem_deletionOrder (d : Deployment) : d.key ∈ d.naming.deletionOrder := by
  unfold Naming.deletionOrder
  refine List.mem_append_right _ ?_
  exact List.mem_cons_self

/-- The first calls of a deletion leave the Deployment alone. -/
theorem deletionCall_le {j : ℕ} (h : d.key ∈ d.naming.deletionOrder.take j) :
    d.deletionCall ≤ j := by
  by_contra hlt
  unfold Naming.deletionOrder Deployment.deletionCall Deployment.naming Deployment.key at *
  by_cases hrouted : (truthy d.publicHostname).isSome
  · rw [if_pos hrouted] at hlt
    obtain rfl | rfl | rfl : j = 0 ∨ j = 1 ∨ j = 2 := by omega
    all_goals simp [hrouted] at h
  · rw [if_neg hrouted] at hlt
    obtain rfl : j = 0 := by omega
    simp at h

/-- A world with fewer objects, where the record is the same. -/
theorem Life.swept (h : Life id w d) {keys : List ObjectKey}
    (hkey : d.status ≠ .failed → d.status ≠ .deleted → d.key ∉ keys) :
    Life id (w.swept keys) d := by
  constructor
  · exact h.id
  · exact h.names
  · exact h.lastNonZero
  · exact h.counts
  · intro object ho
    rw [World.swept_objects] at ho
    split at ho
    · cases ho
    · exact h.deployment object ho
  · intro hfailed hdeleted object ho
    rw [World.swept_objects] at ho
    split at ho
    · cases ho
    · exact h.cluster hfailed hdeleted object ho
  · intro hfailed hdeleted
    rw [World.swept_objects, if_neg (hkey hfailed hdeleted)]
    exact h.there hfailed hdeleted
  · intro hdeleted
    rw [World.swept_objects, h.gone hdeleted]
    exact ite_self none

/-- A deletion that runs to its end, or fails before it deletes the Deployment
of a live record. -/
theorem Lives.delete (h : Lives id w) {now : ℕ} (hreq : o.request = .delete now)
    (hsound : Sound id w o) (hwrites : WritesSucceed config id w o) :
    Lives id (o.finish config id w).state := by
  obtain ⟨ended, hdelete, hfinish⟩ :=
    finish_of_delete config hreq fun d hd => (h.life d hd).names
  unfold WritesSucceed at hwrites
  rw [hfinish] at hwrites ⊢
  cases hdelete with
  | unread => exact h
  | interrupted d e j hread hd hj hfault hbefore =>
    refine Lives.of_stored (t := w.swept _) hd ((h.life d hd).swept fun hfailed hdeleted hmem => ?_)
    have hle := deletionCall_le hmem
    rw [deletionOrder_length] at hj
    have hcond := hsound d hd hread
    rw [hreq] at hcond
    -- the first fault is the one that interrupted it
    have hfirst : ∀ n, 1 ≤ n → (o.env n).kubernetesFault.isSome → j + 1 ≤ n := by
      intro n hn hn'
      by_contra hlt
      have hfree := hbefore (n - 1) (by omega)
      rw [show n - 1 + 1 = n by omega] at hfree
      rw [hfree] at hn'
      cases hn'
    have hswept : sweptBy (fun n => o.env (n + 1)) j ≤ j + 1 := by
      unfold sweptBy
      split <;> omega
    rcases hcond hfailed hdeleted with ⟨n, hn, hlt, hn'⟩ | ⟨hn', htook⟩ | hnone
    · have := hfirst n hn hn'
      omega
    · -- it fails where the Deployment is deleted, and the Deployment stays
      have hcall := hfirst _ (deletionCall_pos d) hn'
      have heq : d.deletionCall = j + 1 := by omega
      have hkept : sweptBy (fun n => o.env (n + 1)) j = j := by
        rw [heq] at htook
        exact if_neg (by simp [htook])
      omega
    · rw [hnone (j + 1) (by omega) (by omega)] at hfault
      cases hfault
  | unstored d e hd hfault =>
    rw [hwrites (d.naming.deletionOrder.length + 1) (.updateDeployment id (deletedUpdate now))
      (by simp) trivial] at hfault
    cases hfault
  | deleted d hd hnone =>
    have hlife := h.life d hd
    have hgone : (w.swept d.naming.deletionOrder).cluster.objects d.key = none := by
      rw [World.swept_objects, if_pos (key_mem_deletionOrder d)]
    refine Lives.of_stored (World.stored_deployments_self ..) ?_
    constructor
    · exact hlife.id
    · exact hlife.names
    · exact hlife.lastNonZero
    · exact fun hne => absurd rfl hne
    · intro object ho
      cases hgone.symm.trans ho
    · exact fun _ hne => absurd rfl hne
    · exact fun _ hne => absurd rfl hne
    · exact fun _ => hgone

/-- **Step.**  A sound operation keeps the record alive. -/
theorem Lives.step (h : Lives id w) (hbounds : o.request.InBounds) (hsound : Sound id w o)
    (hwrites : WritesSucceed config id w o) : Lives id (o.finish config id w).state := by
  cases hreq : o.request with
  | create request =>
    rw [hreq] at hbounds
    exact h.create hreq hbounds hwrites
  | getStatus => exact h.getStatus hreq hsound
  | scale n now => exact h.patching (congrArg Request.patching hreq) hbounds hsound hwrites
  | stop now => exact h.patching (congrArg Request.patching hreq) hbounds hsound hwrites
  | start requested => exact h.patching (congrArg Request.patching hreq) hbounds hsound hwrites
  | restart now => exact h.patching (congrArg Request.patching hreq) hbounds hsound hwrites
  | delete now => exact h.delete hreq hsound hwrites

end Step

/-! ### Every history -/

/-- **The lifecycle invariant.**  From a world without the record and its
Deployment, after every history of sound operations, whose writes to the
database succeed, a record that is not deleted is consistent. -/
theorem lifecycle_invariant {config : ServiceConfig} {id : String} {w₀ w : World}
    {history : List Operation} (hnew : w₀.deployments id = none)
    (hfresh : ∀ kubernetesNamespace appName,
      w₀.cluster.objects ⟨.deployment, kubernetesNamespace, baseName appName id⟩ = none)
    (hbounds : ∀ o ∈ history, o.request.InBounds)
    (hwrites : Along (historyStep config id) (WritesSucceed config id) w₀ history)
    (hsound : Along (historyStep config id) (Sound id) w₀ history)
    (hrun : exec (historyStep config id) w₀ history = some w) :
    ∀ d, w.deployments id = some d → d.status ≠ .deleted → Consistent w d := by
  have hlives : Lives id w := by
    refine exec_invariant (I := Lives id) (fun w o t h hC hstep => ?_) ?_
      ((along_of_forall hbounds).and (hwrites.and hsound)) hrun
    · obtain rfl := Option.some.inj hstep
      exact h.step hC.1 hC.2.2 hC.2.1
    · refine ⟨fun d hd => ?_, fun _ => hfresh⟩
      rw [hnew] at hd
      cases hd
  exact fun d hd hdeleted => (hlives.life d hd).consistent hdeleted

/-- A restart of a stopped deployment whose answer is lost, and a deletion that
fails at its first call, leave it consistent. -/
theorem lifecycle_invariant_through_faults :
    ∃ w d, exec (historyStep sampleConfig "1") sampleEmptyWorld
        [⟨.create sampleRequest, fun _ => healthy⟩, ⟨.stop 7, fun _ => healthy⟩,
          ⟨.restart 8, fun _ => lostAnswer⟩, ⟨.start none, fun _ => healthy⟩,
          ⟨.delete 9, fun _ => clusterFault⟩] = some w ∧
      w.deployments "1" = some d ∧ d.status = .creating ∧ Consistent w d := by
  have hsome : ((exec (historyStep sampleConfig "1") sampleEmptyWorld
      [⟨.create sampleRequest, fun _ => healthy⟩, ⟨.stop 7, fun _ => healthy⟩,
        ⟨.restart 8, fun _ => lostAnswer⟩, ⟨.start none, fun _ => healthy⟩,
        ⟨.delete 9, fun _ => clusterFault⟩]).any fun w =>
          (w.deployments "1").any fun d => d.status = .creating) = true := by decide
  obtain ⟨w, hrun, hw⟩ := (Option.any_eq_true ..).mp hsome
  simp only [Option.any_eq_true, decide_eq_true_eq] at hw
  obtain ⟨d, hd, hcreating⟩ := hw
  have hanswered : ¬ healthy.AnswerLost := by decide
  refine ⟨w, d, hrun, hd, hcreating, lifecycle_invariant rfl (fun _ _ => rfl) ?_ ?_ ?_ hrun d hd ?_⟩
  · simp [Request.InBounds, sampleRequest]
  · refine along_everywhere fun o ho w n c _ _ => ?_
    simp only [List.mem_cons, List.not_mem_nil, or_false] at ho
    rcases ho with rfl | rfl | rfl | rfl | rfl <;> rfl
  · refine along_everywhere fun o ho w d _ _ => ?_
    simp only [List.mem_cons, List.not_mem_nil, or_false] at ho
    rcases ho with rfl | rfl | rfl | rfl | rfl
    · trivial
    · exact fun _ _ hlost => absurd hlost hanswered
    · exact fun hnone => nomatch hnone
    · exact fun _ _ hlost => absurd hlost hanswered
    · exact fun _ _ => .inr (.inl ⟨rfl, rfl⟩)
  · rw [hcreating]
    decide

/-- A restart of a stopped deployment leaves it creating with no replica; a
deletion that fails at the Service leaves a record that is creating, without
its Deployment; a scale whose patch loses its answer leaves a record with one
replica for a Deployment with two. -/
theorem lifecycle_breaks :
    (∃ w d, exec (historyStep sampleConfig "1") sampleEmptyWorld
        [⟨.create sampleRequest, fun _ => healthy⟩, ⟨.stop 7, fun _ => healthy⟩,
          ⟨.restart 8, fun _ => healthy⟩] = some w ∧
      w.deployments "1" = some d ∧ d.status = .creating ∧ d.desiredReplicas = 0 ∧
      ¬ Consistent w d) ∧
    (∃ w d, exec (historyStep sampleConfig "1") sampleEmptyWorld
        [⟨.create sampleRequest, fun _ => healthy⟩,
          ⟨.delete 7, fun n => if n = 2 then clusterFault else healthy⟩] = some w ∧
      w.deployments "1" = some d ∧ d.status = .creating ∧ w.cluster.objects d.key = none ∧
      ¬ Consistent w d) ∧
    ∃ w d, exec (historyStep sampleConfig "1") sampleEmptyWorld
        [⟨.create sampleRequest, fun _ => healthy⟩,
          ⟨.scale 2 7, fun n => if n = 1 then lostAnswer else healthy⟩] = some w ∧
      w.deployments "1" = some d ∧ d.status = .creating ∧ d.desiredReplicas = 1 ∧
      (w.cluster.objects d.key).bind Object.specReplicas = some 2 ∧ ¬ Consistent w d := by
  refine ⟨?_, ?_, ?_⟩
  · -- the record runs again, at size zero
    have hsome : ((exec (historyStep sampleConfig "1") sampleEmptyWorld
        [⟨.create sampleRequest, fun _ => healthy⟩, ⟨.stop 7, fun _ => healthy⟩,
          ⟨.restart 8, fun _ => healthy⟩]).any fun w => (w.deployments "1").any fun d =>
            decide (d.status = .creating ∧ d.desiredReplicas = 0)) = true := by decide
    obtain ⟨w, hrun, hw⟩ := (Option.any_eq_true ..).mp hsome
    simp only [Option.any_eq_true, decide_eq_true_eq] at hw
    obtain ⟨d, hd, hcreating, hzero⟩ := hw
    refine ⟨w, d, hrun, hd, hcreating, hzero, fun h => ?_⟩
    have hstopped := h.stopped.mpr hzero
    rw [hcreating] at hstopped
    cases hstopped
  · -- the Deployment is gone, and the record runs on
    have hsome : ((exec (historyStep sampleConfig "1") sampleEmptyWorld
        [⟨.create sampleRequest, fun _ => healthy⟩,
          ⟨.delete 7, fun n => if n = 2 then clusterFault else healthy⟩]).any fun w =>
            (w.deployments "1").any fun d => decide (d.status = .creating) &&
              (w.cluster.objects d.key).isNone) = true := by decide
    obtain ⟨w, hrun, hw⟩ := (Option.any_eq_true ..).mp hsome
    simp only [Option.any_eq_true, Bool.and_eq_true, decide_eq_true_eq,
      Option.isNone_iff_eq_none] at hw
    obtain ⟨d, hd, hcreating, hgone⟩ := hw
    refine ⟨w, d, hrun, hd, hcreating, hgone, fun h => ?_⟩
    obtain ⟨o, ho, -⟩ := h.cluster (by rw [hcreating]; decide)
    rw [hgone] at ho
    cases ho
  · -- the Deployment has two replicas, and the record one
    have hsome : ((exec (historyStep sampleConfig "1") sampleEmptyWorld
        [⟨.create sampleRequest, fun _ => healthy⟩,
          ⟨.scale 2 7, fun n => if n = 1 then lostAnswer else healthy⟩]).any fun w =>
            (w.deployments "1").any fun d => decide (d.status = .creating ∧ d.desiredReplicas = 1 ∧
              (w.cluster.objects d.key).bind Object.specReplicas = some 2)) = true := by decide
    obtain ⟨w, hrun, hw⟩ := (Option.any_eq_true ..).mp hsome
    simp only [Option.any_eq_true, decide_eq_true_eq] at hw
    obtain ⟨d, hd, hcreating, hone, htwo⟩ := hw
    refine ⟨w, d, hrun, hd, hcreating, hone, htwo, fun h => ?_⟩
    obtain ⟨o, ho, hspec⟩ := h.cluster (by rw [hcreating]; decide)
    rw [ho, Option.bind_some, hspec, hone] at htwo
    cases htwo

end NexCause
