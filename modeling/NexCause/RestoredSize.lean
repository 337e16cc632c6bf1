/-
NexCause/RestoredSize.lean

Create, scale, stop, start, restart and getStatus requests on one deployment,
one after another, any call failing: which size does a start without a count
restore?

The history is replayed beside a ghost, the last positive count that a request
has set.  The column `lastNonZeroReplicas` holds it in every reachable state
(`restored_size`); the invariant behind it is that a positive `replicas` is this
count too, which is what `stop` falls back on.
-/
import NexCause.DeploymentHistory

namespace NexCause

open Program Transition

/-! ### The last size -/

/-- The replica count an operation sets: a creation that has inserted its
record, or a scale or start that succeeds. -/
def setReplicas (config : ServiceConfig) (id : String) (w : World) (o : Operation) : Option ℕ :=
  match o.request, (o.finish config id w).outcome with
  | .create _, _ =>
      if w.deployments id = none then
        ((o.finish config id w).state.deployments id).map Deployment.replicas
      else none
  | .scale replicas _, .ok _ => some replicas
  | .start _, .ok (.deployment d) => some d.replicas
  | _, _ => none

/-- The world, and the last positive count set so far. -/
abbrev SizedWorld : Type := World × Option ℕ

def sizeStep (config : ServiceConfig) (id : String) (s : SizedWorld) (o : Operation) :
    Option SizedWorld :=
  some ((o.finish config id s.1).state,
    ((setReplicas config id s.1 o).filter (0 < ·)) <|> s.2)

/-- The request is not a deletion. -/
def Request.Keeps : Request → Prop
  | .delete _ => False
  | _ => True

/-- What the columns of a record say of the last size `n`. -/
structure LastSize (id : String) (n : ℕ) (d : Deployment) : Prop where
  id : d.id = id
  pos : 0 < n
  lastNonZero : d.lastNonZeroReplicas = some n
  replicas : 0 < d.replicas → d.replicas = n

/-- The record, if there is one, has a last size. -/
def Sized (id : String) (s : SizedWorld) : Prop :=
  ∀ d, s.1.deployments id = some d → ∃ n, s.2 = some n ∧ LastSize id n d

section Step

variable {config : ServiceConfig} {id : String} {n : ℕ} {d : Deployment} {s t : SizedWorld}
  {o : Operation}

/-- An update that names neither column. -/
theorem LastSize.update (h : LastSize id n d) {u : DeploymentUpdate} (hr : u.replicas = none)
    (hl : u.lastNonZeroReplicas = none) : LastSize id n (d.update u) where
  id := h.id
  pos := h.pos
  lastNonZero := by
    show u.lastNonZeroReplicas.getD _ = _
    rw [hl]
    exact h.lastNonZero
  replicas := by
    show 0 < u.replicas.getD _ → u.replicas.getD _ = n
    rw [hr]
    exact h.replicas

/-- The count `start` sets. -/
theorem LastSize.startReplicas (h : LastSize id n d) (requested : Option ℕ)
    (hpos : ∀ m, requested = some m → 1 ≤ m) :
    0 < startReplicas requested d ∧ (requested = none → startReplicas requested d = n) := by
  unfold NexCause.startReplicas
  rw [h.lastNonZero]
  cases requested with
  | none => exact ⟨h.pos, fun _ => rfl⟩
  | some m => exact ⟨hpos m rfl, nofun⟩

/-- After a scale to `m`. -/
theorem LastSize.scale (h : LastSize id n d) (m now : ℕ) :
    LastSize id (if 0 < m then m else n) (d.update (scaleUpdate m now d)) := by
  by_cases hm : 0 < m
  · rw [if_pos hm]
    exact ⟨h.id, hm, if_pos hm, fun _ => rfl⟩
  · rw [if_neg hm]
    refine ⟨h.id, h.pos, ?_, fun hr => absurd hr hm⟩
    show (if m > 0 then some m else d.lastNonZeroReplicas) = some n
    rw [if_neg hm]
    exact h.lastNonZero

/-- After a stop, which remembers a positive count. -/
theorem LastSize.stop (h : LastSize id n d) (now : ℕ) :
    LastSize id n (d.update (stopUpdate now d)) := by
  refine ⟨h.id, h.pos, ?_, fun hr => absurd hr (Nat.lt_irrefl 0)⟩
  show (if d.replicas > 0 then some d.replicas else d.lastNonZeroReplicas) = some n
  split
  · rw [h.replicas ‹_›]
  · exact h.lastNonZero

/-- After a start with `m`. -/
theorem LastSize.start (h : LastSize id n d) {m : ℕ} (hm : 0 < m) :
    LastSize id m (d.update (startUpdate m)) :=
  ⟨h.id, hm, rfl, fun _ => rfl⟩

/-- An operation that sets no count and leaves the record alone. -/
theorem Sized.same (h : Sized id s) (hset : setReplicas config id s.1 o = none)
    (hw : (o.finish config id s.1).state.deployments id = s.1.deployments id)
    (hstep : sizeStep config id s o = some t) : Sized id t := by
  obtain rfl := Option.some.inj hstep
  intro d hd
  rw [hset]
  exact h d (hw ▸ hd)

/-- A creation: what it inserts is the first size. -/
theorem Sized.create (h : Sized id s) {request : CreateRequest} (hreq : o.request = .create request)
    (hbounds : ∀ n, request.dto.replicas = some n → 1 ≤ n)
    (hstep : sizeStep config id s o = some t) : Sized id t := by
  have hset : setReplicas config id s.1 o = if s.1.deployments id = none then
      ((o.finish config id s.1).state.deployments id).map Deployment.replicas else none := by
    unfold setReplicas
    rw [hreq]
  obtain ⟨r, hcreated, -⟩ :=
    finish_of_create config id s.1 (fun _ _ => True) hreq fun _ _ _ => trivial
  rcases hcreated with ⟨hsame, -⟩ | ⟨data, input, hins⟩
  · refine h.same (o := o) ?_ (by rw [hsame]) hstep
    rw [hset, hsame]
    split
    · rw [‹s.1.deployments id = none›]
      rfl
    · rfl
  · have hpos : 0 < data.replicas := by
      rw [hins.planned.replicas]
      cases hreplicas : request.dto.replicas with
      | none => exact Nat.one_pos
      | some n => exact hbounds n hreplicas
    have hsize : LastSize id data.replicas data := by
      refine ⟨hins.planned.id, hpos, ?_, fun _ => rfl⟩
      rw [hins.planned.lastNonZero, if_pos hpos]
    -- failed or not, the record is there with the count it was created with
    have hrecord : ∃ d, (o.finish config id s.1).state.deployments id = some d ∧
        d.replicas = data.replicas ∧ LastSize id data.replicas d := by
      rcases hins.record with hd | hd
      · exact ⟨data, hd, rfl, hsize⟩
      · exact ⟨_, hd, rfl, hsize.update rfl rfl⟩
    obtain ⟨d, hd, hreplicas, hlast⟩ := hrecord
    obtain rfl := Option.some.inj hstep
    intro d' hd'
    obtain rfl := Option.some.inj (hd.symm.trans hd')
    refine ⟨data.replicas, ?_, hlast⟩
    rw [hset, if_pos hins.fresh, hd, Option.map_some, hreplicas, Option.filter_some,
      if_pos (decide_eq_true hpos)]
    rfl

/-- A read of the status sets no count. -/
theorem Sized.getStatus (h : Sized id s) (hreq : o.request = .getStatus)
    (hstep : sizeStep config id s o = some t) : Sized id t := by
  have hset : setReplicas config id s.1 o = none := by
    unfold setReplicas
    rw [hreq]
  have hid : ∀ d, s.1.deployments id = some d → d.id = id := by
    intro d hd
    obtain ⟨n, -, hsize⟩ := h d hd
    exact hsize.id
  rcases finish_of_getStatus config hreq hid with hsame | ⟨d, _, -, hd, -, -, -, -, hstate⟩
  · exact h.same hset (by rw [hsame]) hstep
  · obtain rfl := Option.some.inj hstep
    obtain ⟨n, hn, hsize⟩ := h d hd
    intro d' hd'
    dsimp only at hd'
    rw [hstate, World.stored_deployments_self] at hd'
    obtain rfl := Option.some.inj hd'
    refine ⟨n, ?_, hsize.update rfl rfl⟩
    rw [hset]
    exact hn

/-- Scale, stop, start and restart: only a success changes the record, and the
count it sets. -/
theorem Sized.patching (h : Sized id s) {f : Deployment → MergePatch × DeploymentUpdate}
    (hf : o.request.patching = some f) (hbounds : o.request.InBounds)
    (hstep : sizeStep config id s o = some t) : Sized id t := by
  obtain ⟨ended, hpatch, hfinish⟩ := finish_of_patching config id s.1 hf
  cases hout : ended.outcome with
  -- no row has been written, so neither the record nor the count has changed
  | error e =>
    have hset : setReplicas config id s.1 o = none := by
      unfold setReplicas
      rw [hfinish, hout]
      cases hreq : o.request with
      | create request =>
        rw [hreq] at hf
        cases hf
      | _ => rfl
    refine h.same hset ?_ hstep
    rw [hfinish]
    exact congrFun (hpatch.deployments_of_error hout) id
  -- the row is written, and with it goes what was asked for
  | ok d' =>
    obtain ⟨d, o', hd, -, rfl, hstate⟩ := hpatch.of_ok hout
    obtain ⟨n, hn, hsize⟩ := h d hd
    obtain rfl := Option.some.inj hstep
    intro d' hd'
    dsimp only at hd'
    rw [hfinish, hstate, World.stored_deployments_self] at hd'
    obtain rfl := Option.some.inj hd'
    have hset : setReplicas config id s.1 o = match o.request with
        | .scale replicas _ => some replicas
        | .start _ => some (d.update (f d).2).replicas
        | _ => none := by
      unfold setReplicas
      rw [hfinish, hout]
      cases hreq : o.request with
      | create request =>
        rw [hreq] at hf
        cases hf
      | _ => rfl
    rw [hset, hn]
    cases hreq : o.request with
    -- a scale to zero is no size to come back to
    | scale m now =>
      rw [hreq] at hf
      obtain rfl := Option.some.inj hf
      refine ⟨_, ?_, hsize.scale m now⟩
      dsimp only
      rw [Option.filter_some]
      by_cases hm : 0 < m
      · rw [if_pos (decide_eq_true hm), if_pos hm]
        rfl
      · rw [if_neg (by simpa using hm), if_neg hm]
        rfl
    | stop now =>
      rw [hreq] at hf
      obtain rfl := Option.some.inj hf
      exact ⟨n, rfl, hsize.stop now⟩
    -- a start asks for what it restores
    | start requested =>
      rw [hreq] at hf hbounds
      obtain rfl := Option.some.inj hf
      have hpos := (hsize.startReplicas requested hbounds).1
      refine ⟨_, ?_, hsize.start hpos⟩
      show (Option.filter _ (some (startReplicas requested d)) <|> _) = _
      rw [Option.filter_some, if_pos (decide_eq_true hpos)]
      rfl
    | restart now =>
      rw [hreq] at hf
      obtain rfl := Option.some.inj hf
      exact ⟨n, rfl, hsize.update rfl rfl⟩
    | _ =>
      rw [hreq] at hf
      cases hf

/-- **Step.**  Every operation but a deletion keeps the last size. -/
theorem Sized.step (h : Sized id s) (hkeeps : o.request.Keeps) (hbounds : o.request.InBounds)
    (hstep : sizeStep config id s o = some t) : Sized id t := by
  cases hreq : o.request with
  | create request =>
    rw [hreq] at hbounds
    exact h.create hreq hbounds hstep
  | getStatus => exact h.getStatus hreq hstep
  | scale m now => exact h.patching (congrArg Request.patching hreq) hbounds hstep
  | stop now => exact h.patching (congrArg Request.patching hreq) hbounds hstep
  | start requested => exact h.patching (congrArg Request.patching hreq) hbounds hstep
  | restart now => exact h.patching (congrArg Request.patching hreq) hbounds hstep
  | delete now =>
    rw [hreq] at hkeeps
    exact hkeeps.elim

end Step

/-! ### Every history -/

/-- The call to the cluster, if it is one. -/
def Call.clusterOp : Call → Option ClusterOp
  | .kubernetes op => some op
  | _ => none

/-- A failing scale, stop, start or restart leaves the record alone, and it
fails before its update when its call to the cluster fails. -/
theorem failed_patching {config : ServiceConfig} {id : String} {w : World} {o : Operation}
    {f : Deployment → MergePatch × DeploymentUpdate} (hf : o.request.patching = some f) :
    (∀ e, (o.finish config id w).outcome = .error e →
      (o.finish config id w).state.deployments = w.deployments) ∧
    ((o.env 1).kubernetesFault.isSome →
      (∃ e, (o.finish config id w).outcome = .error e) ∧
      ∀ u, .updateDeployment id u ∉ (o.finish config id w).calls) := by
  obtain ⟨ended, hpatch, hfinish⟩ := finish_of_patching config id w hf
  rw [hfinish]
  refine ⟨fun e he => ?_, fun hfault => ?_⟩
  · cases hout : ended.outcome with
    | error e' => exact hpatch.deployments_of_error hout
    | ok d =>
      rw [hout] at he
      cases he
  · obtain ⟨⟨e, he⟩, hcalls⟩ := hpatch.of_fault hfault
    exact ⟨⟨e, by rw [he]; rfl⟩, hcalls⟩

/-- The calls to the cluster of an operation that patches: one, when it can
read the record. -/
theorem patching_clusterOps {config : ServiceConfig} {id : String} {w : World} {o : Operation}
    {f : Deployment → MergePatch × DeploymentUpdate} {d : Deployment}
    (hf : o.request.patching = some f) (hd : w.deployments id = some d) :
    (o.finish config id w).calls.filterMap Call.clusterOp =
      if (o.env 0).databaseFault = none then [.patch d.key (f d).1] else [] := by
  obtain ⟨ended, hpatch, hfinish⟩ := finish_of_patching config id w hf
  rw [hfinish]
  cases hpatch with
  | unread e h =>
    -- the record was not read, which is a fault here
    rcases h with h | h
    · rw [if_neg]
      · rfl
      · intro hnone
        rw [hnone] at h
        cases h
    · rw [h] at hd
      cases hd
  -- from here on the patch was sent, whatever came of it
  | unpatched d' e hread hd' =>
    obtain rfl := Option.some.inj (hd.symm.trans hd')
    rw [if_pos hread]
    rfl
  | unanswered d' o' e hread hd' =>
    obtain rfl := Option.some.inj (hd.symm.trans hd')
    rw [if_pos hread]
    rfl
  | unstored d' o' e hread hd' =>
    obtain rfl := Option.some.inj (hd.symm.trans hd')
    rw [if_pos hread]
    rfl
  | stored d' o' hread hd' =>
    obtain rfl := Option.some.inj (hd.symm.trans hd')
    rw [if_pos hread]
    rfl

/-- **Start restores the last size.**  After every history of create, scale,
stop, start, restart and getStatus requests, whichever calls fail:
`lastNonZeroReplicas` is the last positive count that was set; a scale, stop,
start or restart that fails leaves the record alone, and fails before its update
when its call to the cluster fails; and a start without a count patches the
Deployment to exactly the last count, which is not zero. -/
theorem restored_size {config : ServiceConfig} {id : String} {w₀ w : World} {last : Option ℕ}
    {history : List Operation} (hnew : w₀.deployments id = none)
    (hkeeps : ∀ o ∈ history, o.request.Keeps) (hbounds : ∀ o ∈ history, o.request.InBounds)
    (hrun : exec (sizeStep config id) (w₀, none) history = some (w, last)) :
    (∀ d, w.deployments id = some d →
      ∃ n, last = some n ∧ 0 < n ∧ d.lastNonZeroReplicas = some n) ∧
    (∀ o : Operation, o.request.patching.isSome →
      (∀ e, (o.finish config id w).outcome = .error e →
        (o.finish config id w).state.deployments = w.deployments) ∧
      ((o.env 1).kubernetesFault.isSome →
        (∃ e, (o.finish config id w).outcome = .error e) ∧
        ∀ u, .updateDeployment id u ∉ (o.finish config id w).calls)) ∧
    ∀ (o : Operation) (d : Deployment), o.request = .start none → w.deployments id = some d →
      ∃ n, last = some n ∧ 0 < n ∧
        (o.finish config id w).calls.filterMap Call.clusterOp =
          if (o.env 0).databaseFault = none then [.patch d.key (.replicas n)] else [] := by
  have hsized : Sized id (w, last) := by
    refine exec_invariant (C := fun _ o => o.request.Keeps ∧ o.request.InBounds)
      (fun s o t hs ho hstep => hs.step ho.1 ho.2 hstep) ?_
      (along_of_forall fun o ho => ⟨hkeeps o ho, hbounds o ho⟩) hrun
    intro d hd
    rw [hnew] at hd
    cases hd
  refine ⟨fun d hd => ?_, fun o ho => ?_, fun o d ho hd => ?_⟩
  · obtain ⟨n, hn, hsize⟩ := hsized d hd
    exact ⟨n, hn, hsize.pos, hsize.lastNonZero⟩
  · obtain ⟨f, hf⟩ := Option.isSome_iff_exists.mp ho
    exact failed_patching hf
  · obtain ⟨n, hn, hsize⟩ := hsized d hd
    refine ⟨n, hn, hsize.pos, ?_⟩
    rw [patching_clusterOps (congrArg Request.patching ho) hd]
    dsimp only
    rw [(hsize.startReplicas none nofun).2 rfl]

/-- A scale to three, a scale to five that fails, a stop: a start restores three. -/
theorem restored_size_three :
    ∃ w d, exec (sizeStep sampleConfig "1") (sampleEmptyWorld, none)
        [⟨.create sampleRequest, fun _ => healthy⟩, ⟨.scale 3 0, fun _ => healthy⟩,
          ⟨.scale 5 0, fun _ => clusterFault⟩,
          ⟨.stop 0, fun _ => healthy⟩] = some (w, some 3) ∧
      w.deployments "1" = some d ∧ d.replicas = 0 ∧ d.lastNonZeroReplicas = some 3 ∧
      ((Operation.mk (.start none) fun _ => healthy).finish sampleConfig "1" w).calls.filterMap
        Call.clusterOp = [.patch d.key (.replicas 3)] := by
  have hsome : ((exec (sizeStep sampleConfig "1") (sampleEmptyWorld, none)
      [⟨.create sampleRequest, fun _ => healthy⟩, ⟨.scale 3 0, fun _ => healthy⟩,
        ⟨.scale 5 0, fun _ => clusterFault⟩,
        ⟨.stop 0, fun _ => healthy⟩]).any fun s => decide (s.2 = some 3) &&
          (s.1.deployments "1").any fun d => d.replicas = 0) = true := by decide
  obtain ⟨⟨w, last⟩, hrun, hs⟩ := (Option.any_eq_true ..).mp hsome
  simp only [Bool.and_eq_true, Option.any_eq_true, decide_eq_true_eq] at hs
  obtain ⟨rfl, d, hd, hzero⟩ := hs
  obtain ⟨hlast, -, hstart⟩ := restored_size (rfl : sampleEmptyWorld.deployments "1" = none)
    (by simp [Request.Keeps]) (by simp [Request.InBounds, sampleRequest]) hrun
  obtain ⟨n, hn, -, hcolumn⟩ := hlast d hd
  obtain rfl := Option.some.inj hn
  obtain ⟨n, hn, -, hcalls⟩ := hstart ⟨.start none, fun _ => healthy⟩ d rfl hd
  obtain rfl := Option.some.inj hn
  exact ⟨w, d, hrun, hd, hzero, hcolumn, hcalls⟩

end NexCause
