/-
NexCause/CollectionIsolation.lean

The pass over the active workspaces that collects health samples.

It logs what fails for a deployment and goes on.  What fails for a workspace as
a whole, the listing of its deployments or the deletion of its samples, ends
the pass: the workspaces that follow are left out.

Main results: a pass samples every workspace for which no call fails exactly if
it is stopped at no workspace but the last, and its flag is up exactly while it
is in progress (`collection_isolated`).
-/
import NexCause.HealthCollection
import NexCause.Sweeps

namespace NexCause.Observability

open Program Prog Transition

/-- The workspace for which a call is made. -/
def Call.workspace : Call → Option String
  | .findDeployments ws => some ws
  | .findDeployment ws _ => some ws
  | .readCluster ws _ _ _ => some ws
  | .createSample ws _ => some ws
  | .deleteSamples ws _ => some ws
  | _ => none

def Job.workspace : Job → Option String
  | .tick _ => none
  | .collectDeployment ws _ => some ws

theorem claimCollection_ne_findActiveWorkspaces (i : ℕ) :
    Call.claimCollection i ≠ .findActiveWorkspaces := by
  intro h
  cases h

/-- `collectAllHealthSamples` as a pass. -/
def collectionSweep (config : HealthConfig) (i : ℕ) :
    Sweep String Job Call Call.Result ObservabilityError where
  claim := .claimCollection i
  claimed claimed := claimed
  list := .findActiveWorkspaces
  keys workspaces := workspaces
  listing := .findDeployments
  items ws ids := ids.map fun id => .collectDeployment ws id
  finish := deleteExpiredHealthSamples config
  release := ask (.endCollection i)
  key := Call.workspace
  tag := Job.workspace
  claim_ne := claimCollection_ne_findActiveWorkspaces i
  key_claim := rfl
  key_list := rfl
  key_listing _ := rfl
  tag_items ws ids q hq := by
    obtain ⟨id, -, rfl⟩ := List.mem_map.mp hq
    rfl
  finish_calls ws := calls_perform.mpr ⟨_, rfl, rfl⟩
  finish_transparent ws := transparent_perform _
  release_calls := by
    refine calls_perform.mpr ⟨_, rfl, ?_, rfl⟩
    intro h
    cases h

section Programs

variable (config : HealthConfig)

theorem collectWorkspaces_eq (i : ℕ) (workspaces : List String) :
    collectWorkspaces config workspaces = forEach (collectionSweep config i).visit workspaces := by
  induction workspaces with
  | nil => rfl
  | cons ws rest ih =>
    show _ = (collectionSweep config i).visit ws >>= fun _ => _
    rw [← ih, Sweep.visit, Prog.bind_assoc]
    show (ask (.findDeployments ws) >>= fun ids => _) = _
    congr 1
    funext ids
    rw [Prog.bind_assoc]
    rfl

theorem collectAllHealthSamples_eq (i : ℕ) :
    collectAllHealthSamples config i = (collectionSweep config i).pass := by
  unfold collectAllHealthSamples Sweep.pass
  simp only [collectWorkspaces_eq config i]
  rfl

/-- What `collectDeploymentHealthSample` calls. -/
def Call.OfSample (ws : String) : Await Job Call → Prop
  | .call c => c.workspace = some ws ∨ c = .now
  | .all _ => False

/-- `collectDeploymentHealthSample`, when the deployment was found. -/
def sampleFound (ws : String) (deployment : Deployment) : Task Unit := do
  let labels := buildManagedLabels deployment.workspaceId deployment.appId deployment.id
  let collectedAt : ℕ ← ask .now
  let (status, pods, events) ←
    ask (.readCluster ws deployment.«namespace» deployment.kubernetesDeployment labels)
  ask (.createSample ws (sampleOf deployment collectedAt status pods events))

theorem collectDeploymentHealthSample_eq (ws deploymentId : String) :
    collectDeploymentHealthSample ws deploymentId =
      (ask (.findDeployment ws deploymentId) >>= fun found => match found with
        | none => Prog.throw (.notFound s!"Deployment {deploymentId} was not found")
        | some deployment => sampleFound ws deployment) := by
  unfold collectDeploymentHealthSample findDeploymentForHealthSample
  rw [Prog.bind_assoc]
  congr 1
  funext found
  cases found with
  | none => rfl
  | some deployment => rfl

theorem sampleFound_transparent (ws : String) (deployment : Deployment) :
    (sampleFound ws deployment).Transparent := by
  apply (transparent_perform _).bind
  intro collectedAt
  apply (transparent_perform _).bind
  rintro ⟨status, pods, events⟩
  exact transparent_perform _

theorem sampleFound_calls (ws : String) (deployment : Deployment) :
    (sampleFound ws deployment).Calls (Call.OfSample ws) := by
  have hask : ∀ c : Call, c.workspace = some ws ∨ c = .now → (ask c).Calls (Call.OfSample ws) :=
    fun c hc => calls_perform.mpr hc
  apply (hask _ (.inr rfl)).bind
  intro collectedAt
  apply (hask _ (.inl rfl)).bind
  rintro ⟨status, pods, events⟩
  exact hask _ (.inl rfl)

theorem collectDeploymentHealthSample_calls (ws deploymentId : String) :
    (collectDeploymentHealthSample ws deploymentId).Calls (Call.OfSample ws) := by
  rw [collectDeploymentHealthSample_eq]
  have hfind : (ask (.findDeployment ws deploymentId)).Calls (Call.OfSample ws) :=
    calls_perform.mpr (.inl rfl)
  apply hfind.bind
  intro found
  cases found with
  | none => trivial
  | some deployment => exact sampleFound_calls ws deployment

/-- The functions of a pass keep to their workspace. -/
theorem collectionSweep_keeps (i : ℕ) : (collectionSweep config i).Keeps (Job.task config) where
  starts job := by
    cases job with
    | tick i' =>
      have hpass : (collectAllHealthSamples config i').Calls (collectionSweep config i).Starts := by
        rw [collectAllHealthSamples_eq]
        exact Sweep.pass_starts
      exact hpass.tryCatch fun _ => trivial
    | collectDeployment ws id =>
      have hcalls : (collectDeploymentHealthSample ws id).Calls (collectionSweep config i).Starts := by
        apply (collectDeploymentHealthSample_calls ws id).mono
        intro c hc
        cases c with
        | all jobs => exact hc.elim
        | call c => trivial
      exact hcalls.tryCatch fun _ => trivial
  keyed job ws hjob := by
    cases job with
    | tick i' => cases hjob
    | collectDeployment ws' id =>
      -- every call of the task is on behalf of its workspace
      obtain rfl := Option.some.inj hjob
      have hcalls : (collectDeploymentHealthSample ws' id).Calls
          ((collectionSweep config i).Within ws') := by
        apply (collectDeploymentHealthSample_calls ws' id).mono
        intro c hc
        cases c with
        | all jobs => exact hc.elim
        | call c =>
          rcases hc with hc | rfl
          · exact .inl hc
          · exact .inr rfl
      exact hcalls.tryCatch fun _ => trivial
  caught ws ids job hjob := by
    obtain ⟨id, -, rfl⟩ := List.mem_map.mp hjob
    exact ⟨_, rfl⟩

end Programs

/-! ### The flag of the collection -/

/-- The gate of each instance. -/
def collectionGate : Gate ℕ Call Call.Result ObservabilityError where
  wants
    | .claimCollection i => some (.enter i)
    | .endCollection i => some (.leave i)
    | _ => none
  admits
    | .claimCollection _, .ok claimed => claimed
    | _, _ => false

theorem serve_claimCollection (i : ℕ) (x : Choice) (s : System) :
    serve (.claimCollection i) x s =
      if i ∈ s.collecting then (.ok false, s)
      else (.ok true, { s with collecting := i :: s.collecting }) := rfl

/-- The other calls leave the flags alone. -/
theorem serve_collecting {c : Call} (hc : collectionGate.wants c = none) (x : Choice) (s : System) :
    (serve c x s).2.collecting = s.collecting := by
  unfold serve
  split
  · rfl
  · cases c with
    | claimCollection i => cases hc
    | endCollection i => cases hc
    | createSample ws data =>
      show (ite _ _ _ : Except ObservabilityError Unit × System).2.collecting = _
      split
      · rfl
      · rfl
    | _ => rfl

theorem collectionGate_guards : collectionGate.Guards serve fun i s => i ∈ s.collecting := by
  apply Gate.Lists.guards
  constructor
  · intro c i x s hwants
    cases c with
    | claimCollection i' =>
      obtain rfl := Ask.enter.inj (Option.some.inj hwants)
      rw [serve_claimCollection]
      by_cases hin : i' ∈ s.collecting
      · rw [if_pos hin, if_pos hin]
        exact ⟨(decide_eq_false (not_not.mpr hin)).symm, rfl⟩
      · rw [if_neg hin, if_neg hin]
        exact ⟨(decide_eq_true hin).symm, rfl⟩
    | _ => cases hwants
  · intro c i x s hwants
    cases c with
    | endCollection i' =>
      obtain rfl := Ask.leave.inj (Option.some.inj hwants)
      rfl
    | _ => cases hwants
  · exact fun c x s hwants => serve_collecting hwants x s

theorem collectionGate_followed (config : HealthConfig) :
    collectionGate.Followed (Job.task config) := by
  intro job
  cases job with
  -- a pass claims the flag first and releases it last
  | tick i =>
    have hpass : (collectAllHealthSamples config i).Meets collectionGate.policy.contract
        (fun _ g => g = .over) .fresh := by
      rw [collectAllHealthSamples_eq]
      apply Sweep.pass_followed (i := i)
      · rfl
      · exact fun _ => rfl
      · exact fun _ => rfl
      · rfl
      · intro c ws hc
        cases c with
        | claimCollection i' => cases hc
        | endCollection i' => cases hc
        | _ => rfl
      · apply Policy.await_meets
        · rfl
        · exact fun _ _ => rfl
    apply hpass.tryCatch
    · rintro a g rfl
      exact Gate.outside_over _ _
    · rintro e g rfl
      exact Gate.outside_over _ (.ok ())
  -- what it starts does not touch the flag
  | collectDeployment ws id =>
    have hquiet : (collectDeploymentHealthSample ws id).Calls collectionGate.Quiet := by
      apply (collectDeploymentHealthSample_calls ws id).mono
      intro c hc
      cases c with
      | all jobs => trivial
      | call c =>
        cases c with
        | claimCollection i => rcases hc with hc | hc <;> cases hc
        | endCollection i => rcases hc with hc | hc <;> cases hc
        | _ => rfl
    have hmeets := (Gate.meets_of_quiet hquiet (g := .fresh) (by intro h; cases h)).caught ()
    apply hmeets.mono
    rintro r g rfl i h
    cases h

/-! ### Collection -/

/-- A call for the workspace has failed, on behalf of pass `r`. -/
def Collector.Fails (s : Collector) (r : ℕ) (ws : String) : Prop :=
  ∃ j g c e, s.At j g ∧ g.root = r ∧ (j, ⟨.call c, .error e⟩) ∈ s.trace ∧ c.workspace = some ws

/-- The listing of the deployments or the deletion of the expired samples of the workspace has failed
in pass `r`. -/
def Collector.Stops (s : Collector) (r : ℕ) (ws : String) : Prop :=
  (∃ e, (r, ⟨.call (.findDeployments ws), .error e⟩) ∈ s.trace) ∨
    ∃ minutes e, (r, ⟨.call (.deleteSamples ws minutes), .error e⟩) ∈ s.trace

/-- Pass `r` has listed the deployments of the workspace, and a sample of each of them was stored, unless
the deployment was gone by then. -/
def Collector.Samples (s : Collector) (r : ℕ) (ws : String) : Prop :=
  ∃ ids, (r, ⟨.call (.findDeployments ws), .ok ids⟩) ∈ s.trace ∧ ∀ id ∈ ids, ∃ j g, s.At j g ∧
    g.parent = some r ∧ g.request = .collectDeployment ws id ∧
      ((∃ data, data.deploymentId = id ∧ (j, ⟨.call (.createSample ws data), .ok ()⟩) ∈ s.trace) ∨
        (j, ⟨.call (.findDeployment ws id), .ok none⟩) ∈ s.trace)

/-- Pass `r` of instance `i` has claimed the collection, and has not ended. -/
def Collector.InProgress (s : Collector) (r i : ℕ) : Prop :=
  ∃ f, s.At r f ∧ ¬ f.prog.Finished ∧ (r, ⟨.call (.claimCollection i), .ok true⟩) ∈ s.trace

section Runs

variable {config : HealthConfig} {samples : List HealthSample} {ticks : List ℕ}
  {ls : List (ℕ × Choice)} {t : Collector} {r i : ℕ} {f : Fiber Job Call Call.Result ObservabilityError}
  {workspaces : List String}

theorem inProgress_iff : t.InProgress r i ↔ collectionGate.Inside t r i := by
  constructor
  · rintro ⟨f, hf, hunfinished, hmem⟩
    exact ⟨f, hf, hunfinished, .claimCollection i, .ok true, hmem, rfl, rfl⟩
  · rintro ⟨f, hf, hunfinished, c, answer, hmem, hwants, hadmits⟩
    refine ⟨f, hf, hunfinished, ?_⟩
    cases c with
    | claimCollection i' =>
      obtain rfl := Ask.enter.inj (Option.some.inj hwants)
      cases answer with
      | ok claimed =>
        obtain rfl : claimed = true := hadmits
        exact hmem
      | error e => cases hadmits
    | _ => cases hwants

/-- A tick that has ended was a pass. -/
theorem ended_of_run
    (hrun : exec (collectorStep config) (startCollector config samples ticks) ls = some t)
    (hr : t.At r f) (hf : f.request = .tick i) (hend : f.prog.Finished)
    (hlist : (r, ⟨.call .findActiveWorkspaces, .ok workspaces⟩) ∈ t.trace) :
    (collectionSweep config i).Ended t r (Job.task config) workspaces := by
  obtain ⟨hformed, hjoined⟩ := Fibers.joined_run hrun
  refine ⟨hformed, hjoined, collectionSweep_keeps config i, ⟨f, hr, ?_, hend, ?_⟩, hlist⟩
  · rw [hf]
    rfl
  · rw [hf, ← collectAllHealthSamples_eq]
    rfl

/-- What a pass calls itself. -/
def Call.OfPass : Await Job Call → Prop
  | .call (.findDeployment _ _) => False
  | .call (.readCluster _ _ _ _) => False
  | .call (.createSample _ _) => False
  | _ => True

theorem collectAllHealthSamples_calls (config : HealthConfig) (i : ℕ) :
    (collectAllHealthSamples config i).Calls Call.OfPass := by
  have hworkspaces : ∀ workspaces, (collectWorkspaces config workspaces).Calls Call.OfPass := by
    intro workspaces
    induction workspaces with
    | nil => trivial
    | cons ws rest ih =>
      have hlisting : (ask (.findDeployments ws)).Calls Call.OfPass := calls_perform.mpr trivial
      have hall : ∀ jobs, (awaitAll jobs : Task Unit).Calls Call.OfPass :=
        fun jobs => calls_perform.mpr trivial
      have hdelete : (deleteExpiredHealthSamples config ws).Calls Call.OfPass :=
        calls_perform.mpr trivial
      exact hlisting.bind fun _ => (hall _).bind fun _ => hdelete.bind fun _ => ih
  have hclaim : (ask (.claimCollection i)).Calls Call.OfPass := calls_perform.mpr trivial
  have hlist : (ask .findActiveWorkspaces).Calls Call.OfPass := calls_perform.mpr trivial
  have hrelease : (ask (.endCollection i)).Calls Call.OfPass := calls_perform.mpr trivial
  apply hclaim.bind
  intro claimed
  cases claimed with
  | false => trivial
  | true => exact (hlist.bind hworkspaces).withFinally hrelease

/-- A pass is stopped by the listing or by the deletion. -/
theorem stops_iff (h : (collectionSweep config i).Ended t r (Job.task config) workspaces)
    (ws : String) : t.Stops r ws ↔ (collectionSweep config i).Stops t r ws := by
  constructor
  · rintro (⟨e, hmem⟩ | ⟨minutes, e, hmem⟩)
    · exact ⟨_, e, hmem, rfl⟩
    · exact ⟨_, e, hmem, rfl⟩
  · rintro ⟨c, e, hmem, hkey⟩
    obtain ⟨f, hf, -, -, hprogram⟩ := h.fiber
    have hcalls : (Job.task config f.request).Calls Call.OfPass := by
      rw [hprogram, ← collectAllHealthSamples_eq]
      exact (collectAllHealthSamples_calls config i).tryCatch fun _ => trivial
    have hof := (hcalls.reaches (h.formed.left r f hf)).1 _ (mem_ownTrace.mpr hmem)
    cases c with
    | findDeployments ws' =>
      obtain rfl := Option.some.inj hkey
      exact .inl ⟨e, hmem⟩
    | deleteSamples ws' minutes =>
      obtain rfl := Option.some.inj hkey
      exact .inr ⟨minutes, e, hmem⟩
    | findDeployment ws' id => exact hof.elim
    | readCluster ws' «namespace» name labels => exact hof.elim
    | createSample ws' data => exact hof.elim
    | _ => cases hkey

/-- The row that is found has the id that was asked for. -/
theorem findDeployment_id
    (hrun : exec (collectorStep config) (startCollector config samples ticks) ls = some t) {j : ℕ}
    {ws id : String} {deployment : Deployment}
    (hmem : (j, ⟨.call (.findDeployment ws id), .ok (some deployment)⟩) ∈ t.trace) :
    deployment.id = id := by
  obtain ⟨x, s, hserved⟩ := Fibers.entry_served hrun hmem
  unfold serve at hserved
  split at hserved
  · cases hserved
  · have hfind : x.deployments.find? (fun d => d.id = id ∧ d.workspaceId = ws) = some deployment :=
      Except.ok.inj hserved
    have hof := List.find?_some hfind
    simp only [decide_eq_true_eq] at hof
    exact hof.1

/-- The clock does not fail. -/
theorem now_ok (hrun : exec (collectorStep config) (startCollector config samples ticks) ls = some t)
    {j : ℕ} {e : ObservabilityError} : (j, ⟨.call .now, .error e⟩) ∉ t.trace := by
  intro hmem
  obtain ⟨x, s, hserved⟩ := Fibers.entry_served hrun hmem
  cases hserved

/-- A deployment for which no call has failed was sampled. -/
theorem sampled
    (hrun : exec (collectorStep config) (startCollector config samples ticks) ls = some t) {j : ℕ}
    {ws id : String} {g : Fiber Job Call Call.Result ObservabilityError} (hj : t.At j g)
    (hg : g.request = .collectDeployment ws id) (hret : g.prog = ret ())
    (hroot : g.root = r) (hfails : ¬ t.Fails r ws) :
    (∃ data, data.deploymentId = id ∧ (j, ⟨.call (.createSample ws data), .ok ()⟩) ∈ t.trace) ∨
      (j, ⟨.call (.findDeployment ws id), .ok none⟩) ∈ t.trace := by
  have hleft := (Fibers.formed_run hrun).left j g hj
  rw [hg, hret] at hleft
  obtain ⟨p, hp, hcaught⟩ := reaches_caught hleft
  have hfinished : p.Finished := by
    apply finished_of_caught
    rw [← hcaught]
    trivial
  have hok : ∀ (c : Call) e, c.workspace = some ws → (j, ⟨.call c, .error e⟩) ∉ t.trace :=
    fun c e hc hmem => hfails ⟨j, g, c, e, hj, hroot, hmem, hc⟩
  rw [collectDeploymentHealthSample_eq] at hp
  rcases reaches_perform hp with ⟨-, rfl⟩ | ⟨e, hown, -⟩ | ⟨found, own, hown, hrest⟩
  · exact hfinished.elim
  · have hmem := mem_ownTrace.mp (hown ▸ List.mem_cons_self)
    exact absurd hmem (hok _ e rfl)
  have hfound : (j, ⟨.call (.findDeployment ws id), .ok found⟩) ∈ t.trace :=
    mem_ownTrace.mp (hown ▸ List.mem_cons_self)
  have hmem : ∀ x ∈ own, (j, x) ∈ t.trace :=
    fun x hx => mem_ownTrace.mp (hown ▸ List.mem_cons_of_mem _ hx)
  cases found with
  | none => exact .inr hfound
  | some deployment =>
    left
    cases p with
    | call c k => exact hfinished.elim
    | throw e =>
      -- some call has failed, and the clock it was not
      obtain ⟨x, hx, error, herror⟩ := (sampleFound_transparent ws deployment).blameless.reaches hrest
      have hof := ((sampleFound_calls ws deployment).reaches hrest).1 x hx
      have hx := hmem x hx
      obtain ⟨c, answer⟩ := x
      obtain rfl : answer = .error error := herror
      cases c with
      | all jobs => exact hof.elim
      | call c =>
        rcases hof with hc | rfl
        · exact absurd hx (hok c error hc)
        · exact absurd hx (now_ok hrun)
    | ret u =>
      obtain ⟨collectedAt, own₁, rfl, h₁⟩ := reaches_perform_ret hrest
      obtain ⟨⟨status, pods, events⟩, own₂, rfl, h₂⟩ := reaches_perform_ret h₁
      replace h₂ : (ask (.createSample ws (sampleOf deployment collectedAt status pods events)) >>=
          fun _ => ret ()).Reaches own₂ (ret u) := by
        rw [bind_ret_unit]
        exact h₂
      obtain ⟨⟨⟩, own₃, rfl, -⟩ := reaches_perform_ret h₂
      refine ⟨sampleOf deployment collectedAt status pods events, findDeployment_id hrun hfound, ?_⟩
      apply hmem
      simp

/-- A workspace for which no call has failed is served. -/
theorem samples_of_serves
    (hrun : exec (collectorStep config) (startCollector config samples ticks) ls = some t)
    (h : (collectionSweep config i).Ended t r (Job.task config) workspaces) {ws : String}
    (hfails : ¬ t.Fails r ws) (hserves : (collectionSweep config i).Serves t r ws) :
    t.Samples r ws := by
  obtain ⟨ids, hlisted, hall⟩ := hserves
  refine ⟨ids, hlisted, fun id hid => ?_⟩
  obtain ⟨j, g, hj, hparent, hrequest, hret⟩ := hall _ (List.mem_map.mpr ⟨id, hid, rfl⟩)
  have hroot := h.root hj hparent
  exact ⟨j, g, hj, hparent, hrequest, sampled hrun hj hrequest hret hroot hfails⟩

/-- **Collection.**  A pass samples every deployment of every workspace for which no call fails exactly
if it is stopped at no workspace but the last; the flag of an instance is up exactly while a pass of it
is in progress; and the step that ends the pass leaves it down. -/
theorem collection_isolated
    (hrun : exec (collectorStep config) (startCollector config samples ticks) ls = some t) :
    (∀ r f i workspaces, t.At r f → f.request = .tick i → f.prog.Finished →
      (r, ⟨.call .findActiveWorkspaces, .ok workspaces⟩) ∈ t.trace → workspaces.Nodup →
      ((∀ before ws after, workspaces = before ++ ws :: after → t.Stops r ws → after = []) ↔
        ∀ ws ∈ workspaces, ¬ t.Fails r ws → t.Samples r ws)) ∧
    (∀ i, i ∈ t.state.collecting ↔ ∃ r, t.InProgress r i) ∧
    ∀ l u r i, collectorStep config t l = some u → t.InProgress r i → ¬ u.InProgress r i →
      i ∉ u.state.collecting := by
  obtain ⟨hkept, hbarred⟩ := Gate.barred_run collectionGate_guards (collectionGate_followed config)
    (fun _ => List.not_mem_nil) hrun
  refine ⟨fun r f i workspaces hr hf hend hlist hdistinct => ?_, fun i => ?_, ?_⟩
  · have h := ended_of_run hrun hr hf hend hlist
    simp only [stops_iff h]
    apply Sweep.serves_iff h hdistinct
    · rintro ws ⟨ids, hlisted, -⟩
      exact ⟨ids, hlisted⟩
    · exact fun ws hfails hserves => samples_of_serves hrun h hfails hserves
  · rw [hbarred.up_iff]
    simp only [Gate.phase_iff serve (collectionGate_followed config) hkept, inProgress_iff]
  · rintro ⟨l, x⟩ u r i hstep hin hout
    rw [inProgress_iff] at hin hout
    exact hbarred.down collectionGate_guards (collectionGate_followed config) hkept
      (Fibers.step_some hstep) hin hout

end Runs

end NexCause.Observability
