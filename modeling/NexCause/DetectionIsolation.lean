/-
NexCause/DetectionIsolation.lean

The pass over the active workspaces that detects incidents, as the collection
of health samples is one.

It is stopped by what fails for a workspace as a whole: here, the listing of
the deployments that were sampled recently.

Main results: a pass evaluates every workspace for which no call fails exactly
if it is stopped at no workspace but the last, and its flag is up exactly while
it is in progress (`detection_isolated`); both passes (`workspaces_isolated`).
-/
import NexCause.CollectionIsolation
import NexCause.DeploymentPrograms
import NexCause.IncidentRaces

namespace NexCause

open Program Prog Transition

namespace Incidents

/-- The workspace for which a call is made. -/
def Call.workspace : Call → Option String
  | .statement _ .findActiveWorkspaces => none
  | .statement ws _ => some ws
  | .transaction ws _ => some ws
  | _ => none

def Job.workspace : Job → Option String
  | .request _ => none
  | .detectDeployment ws _ => some ws
  | .openAutomatic ws _ _ => some ws

/-- `detectIncidents` as a pass. -/
def detectionSweep (i : ℕ) : Sweep String Job Call Call.Result IncidentError where
  claim := .claimDetection i
  claimed claimed := claimed
  list := .statement "" .findActiveWorkspaces
  keys workspaces := workspaces
  listing ws := .statement ws .findRecentDeploymentIds
  items ws ids := ids.map fun id => .detectDeployment ws id
  finish _ := ret ()
  release := await (Call.endDetection i)
  key := Call.workspace
  tag := Job.workspace
  claim_ne := by
    intro h
    cases h
  key_claim := rfl
  key_list := rfl
  key_listing _ := rfl
  tag_items ws ids q hq := by
    obtain ⟨id, -, rfl⟩ := List.mem_map.mp hq
    rfl
  finish_calls _ := trivial
  finish_transparent _ := trivial
  release_calls := by
    refine calls_perform.mpr ⟨_, rfl, ?_, rfl⟩
    intro h
    cases h

/-! ### What the functions call -/

theorem detectWorkspaces_eq (i : ℕ) (workspaces : List String) :
    detectWorkspaces workspaces = forEach (detectionSweep i).visit workspaces := by
  induction workspaces with
  | nil => rfl
  | cons ws rest ih =>
    show _ = (detectionSweep i).visit ws >>= fun _ => _
    rw [← ih, Sweep.visit, Prog.bind_assoc]
    show (query ws .findRecentDeploymentIds >>= fun ids => _) = _
    congr 1
    funext ids
    rw [Prog.bind_assoc]
    rfl

theorem detectIncidents_eq (i : ℕ) : detectIncidents i = (detectionSweep i).pass := by
  unfold detectIncidents Sweep.pass
  simp only [detectWorkspaces_eq i]
  rfl

/-- What `openAutomaticIncident` calls. -/
def Call.OfSignal (ws : String) : Await Job Call → Prop
  | .call c => c.workspace = some ws
  | .all _ => False

theorem openAutomaticIncident_calls (autoRcaEnabled : Bool) (ws : String) (sample : Sample)
    (signal : IncidentSignal) :
    (openAutomaticIncident autoRcaEnabled ws sample signal).Calls (Call.OfSignal ws) := by
  have hquery : ∀ c, c ≠ .findActiveWorkspaces → (query ws c).Calls (Call.OfSignal ws) := by
    intro c hc
    apply calls_perform.mpr
    cases c with
    | findActiveWorkspaces => exact absurd rfl hc
    | _ => rfl
  have hstart : ∀ t, (startRun ws t).Calls (Call.OfSignal ws) := fun t => calls_perform.mpr rfl
  apply (hquery _ (by simp)).bind
  intro existing
  cases existing with
  | some row => exact (hquery _ (by simp)).bind fun _ => trivial
  | none =>
    apply (hquery _ (by simp)).bind
    intro incident
    split
    · exact (hstart _).bind fun _ => trivial
    · trivial

theorem openAutomaticIncident_blameless (autoRcaEnabled : Bool) (ws : String) (sample : Sample)
    (signal : IncidentSignal) :
    (openAutomaticIncident autoRcaEnabled ws sample signal).Blameless := by
  apply (blameless_perform _).bind
  intro existing
  cases existing with
  | some row => exact (blameless_perform _).bind fun _ => trivial
  | none =>
    apply (blameless_perform _).bind
    intro incident
    split
    · exact (blameless_perform _).bind fun _ => trivial
    · trivial

/-- The functions of a pass keep to their workspace. -/
theorem detectDeploymentIncidents_within (i : ℕ) (ws deploymentId : String) :
    (detectDeploymentIncidents ws deploymentId).Calls ((detectionSweep i).Within ws) := by
  have hfind : (query ws (.findSamples deploymentId)).Calls ((detectionSweep i).Within ws) :=
    calls_perform.mpr (.inl rfl)
  apply hfind.bind
  intro samples
  cases samples with
  | nil => trivial
  | cons latest rest =>
    apply calls_perform.mpr
    intro job hjob
    obtain ⟨signal, -, rfl⟩ := List.mem_map.mp hjob
    rfl

theorem Call.OfSignal.within {i : ℕ} {ws : String} {c : Await Job Call} (h : Call.OfSignal ws c) :
    (detectionSweep i).Within ws c := by
  cases c with
  | call c => exact .inl h
  | all jobs => exact h.elim

/-- What a function awaits that is not a pass: statements, transactions, and functions for signals. -/
def Call.Plain : Await Job Call → Prop
  | .call (.statement _ _) => True
  | .call (.transaction _ _) => True
  | .call _ => False
  | .all jobs => ∀ job ∈ jobs, ∃ ws sample signal, job = .openAutomatic ws sample signal

theorem request_plain {request : Request} (h : ∀ i, request ≠ .detect i) :
    request.task.Calls Call.Plain := by
  have hquery : ∀ ws c, (query ws c).Calls Call.Plain := fun ws c => calls_perform.mpr trivial
  have hstart : ∀ ws t, (startRun ws t).Calls Call.Plain := fun ws t => calls_perform.mpr trivial
  cases request with
  | detect i => exact absurd rfl (h i)
  | createManual ws deploymentId dto =>
    have hfind : (findDeployment ws deploymentId).Calls Call.Plain := by
      apply (hquery _ _).bind
      intro deployment
      cases deployment with
      | none => trivial
      | some deployment => trivial
    have hcreate : (createManualIncident ws deploymentId dto).Calls Call.Plain :=
      hfind.bind fun _ => hquery _ _
    exact hcreate.bind fun _ => trivial
  | resolve ws id =>
    have hfind : (findOne ws id).Calls Call.Plain := by
      apply (hquery _ _).bind
      intro incident
      cases incident with
      | none => trivial
      | some incident => trivial
    have hresolve : (Incidents.resolve ws id).Calls Call.Plain := hfind.bind fun _ => hquery _ _
    exact hresolve.bind fun _ => trivial
  | startForIncident ws incidentId source => exact (hstart _ _).bind fun _ => trivial
  | startForDeployment ws deploymentId => exact (hstart _ _).bind fun _ => trivial

theorem detectDeploymentIncidents_plain (ws deploymentId : String) :
    (detectDeploymentIncidents ws deploymentId).Calls Call.Plain := by
  have hfind : (query ws (.findSamples deploymentId)).Calls Call.Plain := calls_perform.mpr trivial
  apply hfind.bind
  intro samples
  cases samples with
  | nil => trivial
  | cons latest rest =>
    apply calls_perform.mpr
    intro job hjob
    obtain ⟨signal, -, rfl⟩ := List.mem_map.mp hjob
    exact ⟨ws, latest, signal, rfl⟩

theorem Call.OfSignal.plain {ws : String} {c : Await Job Call} (h : Call.OfSignal ws c) :
    Call.Plain c := by
  cases c with
  | all jobs => exact h.elim
  | call c =>
    cases c with
    | claimDetection i => cases h
    | endDetection i => cases h
    | _ => trivial

/-- The functions that are no passes. -/
theorem job_plain (autoRcaEnabled : Bool) {job : Job} (h : ∀ i, job ≠ .request (.detect i)) :
    (job.task autoRcaEnabled).Calls Call.Plain := by
  cases job with
  | request request =>
    apply request_plain
    rintro i rfl
    exact h i rfl
  | detectDeployment ws id =>
    exact (detectDeploymentIncidents_plain ws id).tryCatch fun _ => trivial
  | openAutomatic ws sample signal =>
    apply (openAutomaticIncident_calls autoRcaEnabled ws sample signal).mono
    exact fun _ hc => hc.plain

theorem Call.Plain.starts {i : ℕ} {c : Await Job Call} (h : Call.Plain c) :
    (detectionSweep i).Starts c := by
  cases c with
  | call c => trivial
  | all jobs =>
    intro job hjob
    obtain ⟨ws, sample, signal, rfl⟩ := h job hjob
    exact ⟨ws, rfl⟩

theorem detectionSweep_keeps (autoRcaEnabled : Bool) (i : ℕ) :
    (detectionSweep i).Keeps (Job.task autoRcaEnabled) where
  starts job := by
    by_cases hjob : ∃ i', job = .request (.detect i')
    · obtain ⟨i', rfl⟩ := hjob
      have hpass : (detectIncidents i').Calls (detectionSweep i).Starts := by
        rw [detectIncidents_eq]
        exact Sweep.pass_starts
      exact hpass.tryCatch fun _ => trivial
    · apply (job_plain autoRcaEnabled (not_exists.mp hjob)).mono
      exact fun _ hc => hc.starts
  keyed job ws hjob := by
    cases job with
    | request request => cases hjob
    | detectDeployment ws' id =>
      obtain rfl := Option.some.inj hjob
      exact (detectDeploymentIncidents_within i ws' id).tryCatch fun _ => trivial
    | openAutomatic ws' sample signal =>
      obtain rfl := Option.some.inj hjob
      apply (openAutomaticIncident_calls autoRcaEnabled ws' sample signal).mono
      exact fun _ hc => hc.within
  caught ws ids job hjob := by
    obtain ⟨id, -, rfl⟩ := List.mem_map.mp hjob
    exact ⟨_, rfl⟩

/-! ### The flag of the detection -/

/-- The gate of each instance. -/
def detectionGate : Gate ℕ Call Call.Result IncidentError where
  wants
    | .claimDetection i => some (.enter i)
    | .endDetection i => some (.leave i)
    | _ => none
  admits
    | .claimDetection _, .ok claimed => claimed
    | _, _ => false

theorem serve_claimDetection (i : ℕ) (env : ℕ → Choice) (s : System) :
    serve (.claimDetection i) env s =
      if i ∈ s.detecting then (.ok false, s)
      else (.ok true, { s with detecting := i :: s.detecting }) := rfl

/-- The other calls leave the flags alone. -/
theorem serve_detecting {c : Call} (hc : detectionGate.wants c = none) (env : ℕ → Choice)
    (s : System) : (serve c env s).2.detecting = s.detecting := by
  cases c with
  | claimDetection i => cases hc
  | endDetection i => cases hc
  | statement ws c => rfl
  | transaction ws t =>
    simp only [serve]
    split
    · rfl
    · rfl

theorem detectionGate_guards : detectionGate.Guards serve fun i s => i ∈ s.detecting := by
  apply Gate.Lists.guards
  constructor
  · intro c i env s hwants
    cases c with
    | claimDetection i' =>
      obtain rfl := Ask.enter.inj (Option.some.inj hwants)
      rw [serve_claimDetection]
      by_cases hin : i' ∈ s.detecting
      · rw [if_pos hin, if_pos hin]
        exact ⟨(decide_eq_false (not_not.mpr hin)).symm, rfl⟩
      · rw [if_neg hin, if_neg hin]
        exact ⟨(decide_eq_true hin).symm, rfl⟩
    | _ => cases hwants
  · intro c i env s hwants
    cases c with
    | endDetection i' =>
      obtain rfl := Ask.leave.inj (Option.some.inj hwants)
      rfl
    | _ => cases hwants
  · exact fun c env s hwants => serve_detecting hwants env s

theorem Call.Plain.quiet {c : Await Job Call} (h : Call.Plain c) : detectionGate.Quiet c := by
  cases c with
  | all jobs => trivial
  | call c =>
    cases c with
    | claimDetection i => exact h.elim
    | endDetection i => exact h.elim
    | _ => rfl

theorem detectionGate_followed (autoRcaEnabled : Bool) :
    detectionGate.Followed (Job.task autoRcaEnabled) := by
  intro job
  by_cases hjob : ∃ i, job = .request (.detect i)
  · obtain ⟨i, rfl⟩ := hjob
    -- the pass goes through its gate once, and leaves it
    have hpass : (detectIncidents i).Meets detectionGate.policy.contract (fun _ g => g = .over)
        .fresh := by
      rw [detectIncidents_eq]
      apply Sweep.pass_followed (i := i)
      · rfl
      · exact fun _ => rfl
      · exact fun _ => rfl
      · rfl
      · intro c ws hc
        cases c with
        | claimDetection i' => cases hc
        | endDetection i' => cases hc
        | _ => rfl
      · apply Policy.await_meets
        · rfl
        · exact fun _ _ => rfl
    apply hpass.tryCatch
    · rintro a g rfl
      exact Gate.outside_over _ _
    · rintro e g rfl
      exact Gate.outside_over _ (.ok ())
  · -- nothing else goes near the gate
    have hquiet := (job_plain autoRcaEnabled (not_exists.mp hjob)).mono fun _ hc => hc.quiet
    have hmeets := Gate.meets_of_quiet hquiet (g := .fresh) (by intro h; cases h)
    apply hmeets.mono
    rintro r g rfl i h
    cases h

/-! ### Detection -/

/-- A call for the workspace has failed, on behalf of pass `r`. -/
def Manager.Fails (s : Manager) (r : ℕ) (ws : String) : Prop :=
  ∃ j g c e, s.At j g ∧ g.root = r ∧ (j, ⟨.call c, .error e⟩) ∈ s.trace ∧ c.workspace = some ws

/-- The listing of the recently sampled deployments of the workspace has failed in pass `r`. -/
def Manager.Stops (s : Manager) (r : ℕ) (ws : String) : Prop :=
  ∃ e, (r, ⟨.call (.statement ws .findRecentDeploymentIds), .error e⟩) ∈ s.trace

/-- Function `j` has read the newest samples of the deployment, and every signal that they show has been
dealt with. -/
def Manager.Handles (s : Manager) (j : ℕ) (ws id : String) : Prop :=
  ∃ samples, (j, ⟨.call (.statement ws (.findSamples id)), .ok samples⟩) ∈ s.trace ∧
    ∀ latest rest, samples = latest :: rest →
      ∀ signal ∈ buildSignals latest.toHealthSample (rest.head?.map Sample.toHealthSample),
        ∃ k h, s.At k h ∧ h.parent = some j ∧ h.request = .openAutomatic ws latest signal ∧
          h.prog = ret ()

/-- Pass `r` has listed the recently sampled deployments of the workspace, and has evaluated each. -/
def Manager.Evaluates (s : Manager) (r : ℕ) (ws : String) : Prop :=
  ∃ ids, (r, ⟨.call (.statement ws .findRecentDeploymentIds), .ok ids⟩) ∈ s.trace ∧
    ∀ id ∈ ids, ∃ j g, s.At j g ∧ g.parent = some r ∧ g.request = .detectDeployment ws id ∧
      s.Handles j ws id

/-- Pass `r` of instance `i` has claimed the detection, and has not ended. -/
def Manager.InProgress (s : Manager) (r i : ℕ) : Prop :=
  ∃ f, s.At r f ∧ ¬ f.prog.Finished ∧ (r, ⟨.call (.claimDetection i), .ok true⟩) ∈ s.trace

section Runs

variable {autoRcaEnabled : Bool} {db : Database} {requests : List Request}
  {ls : List (ℕ × (ℕ → Choice))} {t : Manager} {r i : ℕ} {f : Fiber Job Call Call.Result IncidentError}
  {workspaces : List String}

theorem inProgress_iff : t.InProgress r i ↔ detectionGate.Inside t r i := by
  constructor
  · rintro ⟨f, hf, hunfinished, hmem⟩
    exact ⟨f, hf, hunfinished, .claimDetection i, .ok true, hmem, rfl, rfl⟩
  · rintro ⟨f, hf, hunfinished, c, answer, hmem, hwants, hadmits⟩
    refine ⟨f, hf, hunfinished, ?_⟩
    cases c with
    | claimDetection i' =>
      obtain rfl := Ask.enter.inj (Option.some.inj hwants)
      cases answer with
      | ok claimed =>
        obtain rfl : claimed = true := hadmits
        exact hmem
      | error e => cases hadmits
    | _ => cases hwants

/-- A tick that has ended was a pass. -/
theorem ended_of_run
    (hrun : exec (managerStep autoRcaEnabled) (startManager autoRcaEnabled db requests) ls = some t)
    (hr : t.At r f) (hf : f.request = .request (.detect i)) (hend : f.prog.Finished)
    (hlist : (r, ⟨.call (.statement "" .findActiveWorkspaces), .ok workspaces⟩) ∈ t.trace) :
    (detectionSweep i).Ended t r (Job.task autoRcaEnabled) workspaces := by
  obtain ⟨hformed, hjoined⟩ := Fibers.joined_run hrun
  refine ⟨hformed, hjoined, detectionSweep_keeps autoRcaEnabled i, ⟨f, hr, ?_, hend, ?_⟩, hlist⟩
  · rw [hf]
    rfl
  · rw [hf, ← detectIncidents_eq]
    rfl

/-- What a pass calls itself. -/
def Call.OfDetection : Await Job Call → Prop
  | .call (.statement _ c) => c = .findActiveWorkspaces ∨ c = .findRecentDeploymentIds
  | .call (.transaction _ _) => False
  | _ => True

theorem detectIncidents_calls (i : ℕ) : (detectIncidents i).Calls Call.OfDetection := by
  have hworkspaces : ∀ workspaces, (detectWorkspaces workspaces).Calls Call.OfDetection := by
    intro workspaces
    induction workspaces with
    | nil => trivial
    | cons ws rest ih =>
      have hlisting : (query ws .findRecentDeploymentIds).Calls Call.OfDetection :=
        calls_perform.mpr (.inr rfl)
      have hall : ∀ jobs, (awaitAll jobs : Task Unit).Calls Call.OfDetection :=
        fun jobs => calls_perform.mpr trivial
      exact hlisting.bind fun _ => (hall _).bind fun _ => ih
  have hclaim : (await (Call.claimDetection i) : Task Bool).Calls Call.OfDetection :=
    calls_perform.mpr trivial
  have hlist : (query "" .findActiveWorkspaces).Calls Call.OfDetection :=
    calls_perform.mpr (.inl rfl)
  have hrelease : (await (Call.endDetection i) : Task Unit).Calls Call.OfDetection :=
    calls_perform.mpr trivial
  apply hclaim.bind
  intro claimed
  cases claimed with
  | false => trivial
  | true => exact (hlist.bind hworkspaces).withFinally hrelease

/-- A pass is stopped by the listing. -/
theorem stops_iff (h : (detectionSweep i).Ended t r (Job.task autoRcaEnabled) workspaces)
    (ws : String) : t.Stops r ws ↔ (detectionSweep i).Stops t r ws := by
  constructor
  · rintro ⟨e, hmem⟩
    exact ⟨_, e, hmem, rfl⟩
  · rintro ⟨c, e, hmem, hkey⟩
    obtain ⟨f, hf, -, -, hprogram⟩ := h.fiber
    have hcalls : (Job.task autoRcaEnabled f.request).Calls Call.OfDetection := by
      rw [hprogram, ← detectIncidents_eq]
      exact (detectIncidents_calls i).tryCatch fun _ => trivial
    have hof := (hcalls.reaches (h.formed.left r f hf)).1 _ (mem_ownTrace.mpr hmem)
    cases c with
    | statement ws' c =>
      rcases hof with rfl | rfl
      · cases hkey
      · obtain rfl := Option.some.inj hkey
        exact ⟨e, hmem⟩
    | transaction ws' t => exact hof.elim
    | _ => cases hkey

/-- A signal for which no call has failed was dealt with. -/
theorem handled (hformed : t.Formed (Job.task autoRcaEnabled)) {k : ℕ} {ws : String}
    {sample : Sample} {signal : IncidentSignal} {h : Fiber Job Call Call.Result IncidentError}
    (hk : t.At k h) (hrequest : h.request = .openAutomatic ws sample signal) (hroot : h.root = r)
    (hfails : ¬ t.Fails r ws) {e : IncidentError} : h.prog ≠ Prog.throw e := by
  intro hthrow
  have hleft := hformed.left k h hk
  rw [hrequest, hthrow] at hleft
  obtain ⟨x, hx, error, herror⟩ :=
    (openAutomaticIncident_blameless autoRcaEnabled ws sample signal).reaches hleft
  have hof := ((openAutomaticIncident_calls autoRcaEnabled ws sample signal).reaches hleft).1 x hx
  have hmem := mem_ownTrace.mp hx
  obtain ⟨c, answer⟩ := x
  obtain rfl : answer = .error error := herror
  cases c with
  | all jobs => exact hof.elim
  | call c => exact hfails ⟨k, h, c, error, hk, hroot, hmem, hof⟩

/-- A deployment for which no call has failed was evaluated. -/
theorem evaluated (hformed : t.Formed (Job.task autoRcaEnabled)) (hjoined : t.Joined) {j : ℕ}
    {ws id : String} {g : Fiber Job Call Call.Result IncidentError} (hj : t.At j g)
    (hg : g.request = .detectDeployment ws id) (hret : g.prog = ret ()) (hroot : g.root = r)
    (hfails : ¬ t.Fails r ws) : t.Handles j ws id := by
  have hleft := hformed.left j g hj
  rw [hg, hret] at hleft
  obtain ⟨p, hp, hcaught⟩ := reaches_caught hleft
  have hfinished : p.Finished := by
    apply finished_of_caught
    rw [← hcaught]
    trivial
  rcases reaches_perform hp with ⟨-, rfl⟩ | ⟨e, hown, -⟩ | ⟨samples, own, hown, hrest⟩
  · exact hfinished.elim
  · have hmem := mem_ownTrace.mp (hown ▸ List.mem_cons_self)
    exact absurd ⟨j, g, _, e, hj, hroot, hmem, rfl⟩ hfails
  have hmem : ∀ x ∈ own, (j, x) ∈ t.trace :=
    fun x hx => mem_ownTrace.mp (hown ▸ List.mem_cons_of_mem _ hx)
  refine ⟨samples, mem_ownTrace.mp (hown ▸ List.mem_cons_self), ?_⟩
  rintro latest rest rfl signal hsignal
  -- the functions for the signals were awaited, and none of them has raised
  cases hrest with
  | start => exact hfinished.elim
  | @next _ _ answer _ _ hrest =>
    have hanswered := hjoined.answered j _ _ (hmem _ List.mem_cons_self)
    cases answer with
    | ok u => exact hanswered _ (List.mem_map.mpr ⟨signal, hsignal, rfl⟩)
    | error e =>
      obtain ⟨k, h, hk, hparent, hrequest, hthrow⟩ := hanswered
      obtain ⟨signal', -, heq⟩ := List.mem_map.mp hrequest
      obtain ⟨-, g', hg', hsame⟩ := hformed.child k j h hk hparent
      obtain rfl := Option.some.inj (hj.symm.trans hg')
      exact absurd hthrow (handled hformed hk heq.symm (hsame.symm.trans hroot) hfails)

/-- A workspace for which no call has failed is served. -/
theorem evaluates_of_serves (h : (detectionSweep i).Ended t r (Job.task autoRcaEnabled) workspaces)
    {ws : String} (hfails : ¬ t.Fails r ws) (hserves : (detectionSweep i).Serves t r ws) :
    t.Evaluates r ws := by
  obtain ⟨ids, hlisted, hall⟩ := hserves
  refine ⟨ids, hlisted, fun id hid => ?_⟩
  obtain ⟨j, g, hj, hparent, hrequest, hret⟩ := hall _ (List.mem_map.mpr ⟨id, hid, rfl⟩)
  have hroot := h.root hj hparent
  exact ⟨j, g, hj, hparent, hrequest, evaluated h.formed h.joined hj hrequest hret hroot hfails⟩

/-- **Detection.**  A pass evaluates every recently sampled deployment of every workspace for which no
call fails exactly if it is stopped at no workspace but the last; the flag of an instance is up exactly
while a pass of it is in progress; and the step that ends the pass leaves it down. -/
theorem detection_isolated
    (hrun : exec (managerStep autoRcaEnabled) (startManager autoRcaEnabled db requests) ls = some t) :
    (∀ r f i workspaces, t.At r f → f.request = .request (.detect i) → f.prog.Finished →
      (r, ⟨.call (.statement "" .findActiveWorkspaces), .ok workspaces⟩) ∈ t.trace →
      workspaces.Nodup →
      ((∀ before ws after, workspaces = before ++ ws :: after → t.Stops r ws → after = []) ↔
        ∀ ws ∈ workspaces, ¬ t.Fails r ws → t.Evaluates r ws)) ∧
    (∀ i, i ∈ t.state.detecting ↔ ∃ r, t.InProgress r i) ∧
    ∀ l u r i, managerStep autoRcaEnabled t l = some u → t.InProgress r i → ¬ u.InProgress r i →
      i ∉ u.state.detecting := by
  have hfollowed := detectionGate_followed autoRcaEnabled
  obtain ⟨hkept, hbarred⟩ := Gate.barred_run detectionGate_guards hfollowed
    (fun _ => List.not_mem_nil) hrun
  refine ⟨fun r f i workspaces hr hf hend hlist hdistinct => ?_, fun i => ?_, ?_⟩
  · have h := ended_of_run hrun hr hf hend hlist
    simp only [stops_iff h]
    apply Sweep.serves_iff h hdistinct
    · rintro ws ⟨ids, hlisted, -⟩
      exact ⟨ids, hlisted⟩
    · exact fun ws hfails hserves => evaluates_of_serves h hfails hserves
  · rw [hbarred.up_iff]
    simp only [Gate.phase_iff serve hfollowed hkept, inProgress_iff]
  · rintro ⟨l, x⟩ u r i hstep hin hout
    rw [inProgress_iff] at hin hout
    exact hbarred.down detectionGate_guards hfollowed hkept (Fibers.step_some hstep) hin hout

end Runs

end Incidents

/-! ### Both passes -/

/-- **Isolation of the workspaces.**  In every run a pass of either kind serves every workspace for which
no call fails exactly if it is stopped at no workspace but the last; a flag is up exactly while a pass is
in progress, and the step that ends the pass leaves it down. -/
theorem workspaces_isolated {config : Observability.HealthConfig}
    {samples : List Observability.HealthSample} {ticks : List ℕ}
    {ls : List (ℕ × Observability.Choice)} {t : Observability.Collector} {autoRcaEnabled : Bool}
    {db : Incidents.Database} {requests : List Incidents.Request}
    {ls' : List (ℕ × (ℕ → Incidents.Choice))} {t' : Incidents.Manager}
    (hcollect : exec (Observability.collectorStep config)
      (Observability.startCollector config samples ticks) ls = some t)
    (hdetect : exec (Incidents.managerStep autoRcaEnabled)
      (Incidents.startManager autoRcaEnabled db requests) ls' = some t') :
    ((∀ r f i workspaces, t.At r f → f.request = .tick i → f.prog.Finished →
        (r, ⟨.call .findActiveWorkspaces, .ok workspaces⟩) ∈ t.trace → workspaces.Nodup →
        ((∀ before ws after, workspaces = before ++ ws :: after → t.Stops r ws → after = []) ↔
          ∀ ws ∈ workspaces, ¬ t.Fails r ws → t.Samples r ws)) ∧
      (∀ i, i ∈ t.state.collecting ↔ ∃ r, t.InProgress r i) ∧
      ∀ l u r i, Observability.collectorStep config t l = some u → t.InProgress r i →
        ¬ u.InProgress r i → i ∉ u.state.collecting) ∧
    (∀ r f i workspaces, t'.At r f → f.request = .request (.detect i) → f.prog.Finished →
        (r, ⟨.call (.statement "" .findActiveWorkspaces), .ok workspaces⟩) ∈ t'.trace →
        workspaces.Nodup →
        ((∀ before ws after, workspaces = before ++ ws :: after → t'.Stops r ws → after = []) ↔
          ∀ ws ∈ workspaces, ¬ t'.Fails r ws → t'.Evaluates r ws)) ∧
      (∀ i, i ∈ t'.state.detecting ↔ ∃ r, t'.InProgress r i) ∧
      ∀ l u r i, Incidents.managerStep autoRcaEnabled t' l = some u → t'.InProgress r i →
        ¬ u.InProgress r i → i ∉ u.state.detecting :=
  ⟨Observability.collection_isolated hcollect, Incidents.detection_isolated hdetect⟩

/-- Two workspaces with a deployment each. -/
def twoWorkspaces (fault cluster : Option String) : Observability.Choice where
  fault := fault
  now := 120000
  workspaces := ["w1", "w2"]
  deployments :=
    [{ sampleDeployment with id := "d1", workspaceId := "w1" },
      { sampleDeployment with id := "d2", workspaceId := "w2" }]
  status := match cluster with
    | none => .ok ⟨1, 1, 1, 1, 0, []⟩
    | some message => .error message
  pods := .ok []
  events := .ok []

/-- The cluster does not answer for the deployment of the first workspace. -/
def clusterFails : List (ℕ × Observability.Choice) :=
  [0, 0, 0, 0, 1, 1].map (fun i => (i, twoWorkspaces none none)) ++
    [(1, twoWorkspaces none (some "timeout"))] ++
    [0, 0, 0, 0, 2, 2, 2, 2, 0, 0, 0].map fun i => (i, twoWorkspaces none none)

/-- The listing of the deployments of the first workspace fails. -/
def listingFails : List (ℕ × Observability.Choice) :=
  [(0, twoWorkspaces none none), (0, twoWorkspaces none none),
    (0, twoWorkspaces (some "connection reset") none), (0, twoWorkspaces none none)]

/-- Two workspaces, the second one with a sample of a deployment that has failed. -/
def twoScopes (fault : Option String) : ℕ → Incidents.Choice := fun _ =>
  ⟨fault, 2000, "a", ["w1", "ws"], [{ Incidents.failedSample with workspaceId := "w1" },
    Incidents.failedSample], 0⟩

/-- The samples of the deployment of the first workspace cannot be read. -/
def samplesFail : List (ℕ × (ℕ → Incidents.Choice)) :=
  [0, 0, 0, 0].map (fun i => (i, twoScopes none)) ++ [(1, twoScopes (some "connection reset"))] ++
    [0, 0, 0, 2, 2, 3, 3, 3, 2, 0, 0].map fun i => (i, twoScopes none)

/-- The listing of the sampled deployments of the first workspace fails. -/
def recentFails : List (ℕ × (ℕ → Incidents.Choice)) :=
  [(0, twoScopes none), (0, twoScopes none), (0, twoScopes (some "connection reset")),
    (0, twoScopes none)]

/-- What fails for a deployment of the first workspace does not keep the second one from its turn. -/
theorem failed_deployment_isolated : ∃ t t',
    exec (Observability.collectorStep ⟨none⟩) (Observability.startCollector ⟨none⟩ [] [0])
      clusterFails = some t ∧
    exec (Incidents.managerStep true) (Incidents.startManager true Incidents.shop [.detect 0])
      samplesFail = some t' ∧
    t.Samples 0 "w2" ∧ t'.Evaluates 0 "ws" := by
  have hfacts : (exec (Observability.collectorStep ⟨none⟩) (Observability.startCollector ⟨none⟩ [] [0])
      clusterFails).map (fun t => decide (
        t.fibers[0]?.map (fun f => (f.request, decide f.prog.Finished)) = some (.tick 0, true) ∧
        (∀ x ∈ t.calls, x.1 = 0 → x.2.2 = false) ∧
        ∀ x ∈ t.calls, x.2.2 = true → x.2.1.workspace = some "w1")) = some true := by decide
  have hfacts' : (exec (Incidents.managerStep true)
      (Incidents.startManager true Incidents.shop [.detect 0]) samplesFail).map (fun t => decide (
        t.fibers[0]?.map (fun f => (f.request, decide f.prog.Finished)) =
          some (.request (.detect 0), true) ∧
        (∀ x ∈ t.calls, x.1 = 0 → x.2.2 = false) ∧
        ∀ x ∈ t.calls, x.2.2 = true → x.2.1.workspace = some "w1")) = some true := by decide
  -- the listings were read by the first calls of the passes
  have hlist : (exec (Observability.collectorStep ⟨none⟩) (Observability.startCollector ⟨none⟩ [] [0])
      clusterFails).bind (fun t => t.trace[1]?) =
        some (0, ⟨.call .findActiveWorkspaces, .ok ["w1", "w2"]⟩) := rfl
  have hlist' : (exec (Incidents.managerStep true)
      (Incidents.startManager true Incidents.shop [.detect 0]) samplesFail).bind
        (fun t => t.trace[1]?) =
          some (0, ⟨.call (.statement "" .findActiveWorkspaces), .ok ["w1", "ws"]⟩) := rfl
  obtain ⟨t, ht, hvalues⟩ := Option.map_eq_some_iff.mp hfacts
  obtain ⟨t', ht', hvalues'⟩ := Option.map_eq_some_iff.mp hfacts'
  rw [ht] at hlist
  rw [ht'] at hlist'
  obtain ⟨hfiber, hown, hfailed⟩ := of_decide_eq_true hvalues
  obtain ⟨hfiber', hown', hfailed'⟩ := of_decide_eq_true hvalues'
  obtain ⟨f, hf, hrequest⟩ := Option.map_eq_some_iff.mp hfiber
  obtain ⟨f', hf', hrequest'⟩ := Option.map_eq_some_iff.mp hfiber'
  obtain ⟨hjob, hfinished⟩ := Prod.mk.inj hrequest
  obtain ⟨hjob', hfinished'⟩ := Prod.mk.inj hrequest'
  obtain ⟨⟨hpass, -⟩, hpass', -⟩ := workspaces_isolated ht ht'
  refine ⟨t, t', ht, ht', ?_, ?_⟩
  · -- nothing failed on behalf of the pass itself, so it got to both workspaces
    apply (hpass 0 f 0 ["w1", "w2"] hf hjob (of_decide_eq_true hfinished)
      (List.mem_of_getElem? hlist) (by decide)).mp
    · rintro before ws after - (⟨e, hmem⟩ | ⟨minutes, e, hmem⟩)
      · cases hown _ (Fibers.mem_calls_error hmem) rfl
      · cases hown _ (Fibers.mem_calls_error hmem) rfl
    · simp
    · rintro ⟨j, g, c, e, -, -, hmem, hws⟩
      have hfirst := hfailed _ (Fibers.mem_calls_error hmem) rfl
      exact absurd (hws.symm.trans hfirst) (by decide)
  · apply (hpass' 0 f' 0 ["w1", "ws"] hf' hjob' (of_decide_eq_true hfinished')
      (List.mem_of_getElem? hlist') (by decide)).mp
    · rintro before ws after - ⟨e, hmem⟩
      cases hown' _ (Fibers.mem_calls_error hmem) rfl
    · simp
    · rintro ⟨j, g, c, e, -, -, hmem, hws⟩
      have hfirst := hfailed' _ (Fibers.mem_calls_error hmem) rfl
      exact absurd (hws.symm.trans hfirst) (by decide)

/-- What fails for the first workspace as a whole does: the pass ends, and the second workspace, for
which nothing fails, is neither sampled nor evaluated. -/
theorem failed_listing_starves : ∃ t t',
    exec (Observability.collectorStep ⟨none⟩) (Observability.startCollector ⟨none⟩ [] [0])
      listingFails = some t ∧
    exec (Incidents.managerStep true) (Incidents.startManager true Incidents.shop [.detect 0])
      recentFails = some t' ∧
    ((∃ f, t.At 0 f ∧ f.prog.Finished) ∧
      (0, ⟨.call .findActiveWorkspaces, .ok ["w1", "w2"]⟩) ∈ t.trace ∧
      ¬ t.Fails 0 "w2" ∧ ¬ t.Samples 0 "w2") ∧
    (∃ f, t'.At 0 f ∧ f.prog.Finished) ∧
      (0, ⟨.call (.statement "" .findActiveWorkspaces), .ok ["w1", "ws"]⟩) ∈ t'.trace ∧
      ¬ t'.Fails 0 "ws" ∧ ¬ t'.Evaluates 0 "ws" := by
  have hfacts : (exec (Observability.collectorStep ⟨none⟩) (Observability.startCollector ⟨none⟩ [] [0])
      listingFails).map (fun t => decide (
        t.fibers[0]?.map (fun f => decide f.prog.Finished) = some true ∧
        (0, .findDeployments "w2", false) ∉ t.calls ∧
        ∀ x ∈ t.calls, x.2.2 = true → x.2.1.workspace = some "w1")) = some true := by decide
  have hfacts' : (exec (Incidents.managerStep true)
      (Incidents.startManager true Incidents.shop [.detect 0]) recentFails).map (fun t => decide (
        t.fibers[0]?.map (fun f => decide f.prog.Finished) = some true ∧
        (0, .statement "ws" .findRecentDeploymentIds, false) ∉ t.calls ∧
        ∀ x ∈ t.calls, x.2.2 = true → x.2.1.workspace = some "w1")) = some true := by decide
  -- both passes read their list, and stop at the first workspace
  have hlist : (exec (Observability.collectorStep ⟨none⟩) (Observability.startCollector ⟨none⟩ [] [0])
      listingFails).bind (fun t => t.trace[1]?) =
        some (0, ⟨.call .findActiveWorkspaces, .ok ["w1", "w2"]⟩) := rfl
  have hlist' : (exec (Incidents.managerStep true)
      (Incidents.startManager true Incidents.shop [.detect 0]) recentFails).bind
        (fun t => t.trace[1]?) =
          some (0, ⟨.call (.statement "" .findActiveWorkspaces), .ok ["w1", "ws"]⟩) := rfl
  obtain ⟨t, ht, hvalues⟩ := Option.map_eq_some_iff.mp hfacts
  obtain ⟨t', ht', hvalues'⟩ := Option.map_eq_some_iff.mp hfacts'
  rw [ht] at hlist
  rw [ht'] at hlist'
  obtain ⟨hfiber, hunlisted, hfailed⟩ := of_decide_eq_true hvalues
  obtain ⟨hfiber', hunlisted', hfailed'⟩ := of_decide_eq_true hvalues'
  obtain ⟨f, hf, hfinished⟩ := Option.map_eq_some_iff.mp hfiber
  obtain ⟨f', hf', hfinished'⟩ := Option.map_eq_some_iff.mp hfiber'
  refine ⟨t, t', ht, ht', ⟨⟨f, hf, of_decide_eq_true hfinished⟩, List.mem_of_getElem? hlist, ?_, ?_⟩,
    ⟨f', hf', of_decide_eq_true hfinished'⟩, List.mem_of_getElem? hlist', ?_, ?_⟩
  · rintro ⟨j, g, c, e, -, -, hmem, hws⟩
    have hfirst := hfailed _ (Fibers.mem_calls_error hmem) rfl
    exact absurd (hws.symm.trans hfirst) (by decide)
  · rintro ⟨ids, hmem, -⟩
    exact hunlisted (Fibers.mem_calls_ok hmem)
  · rintro ⟨j, g, c, e, -, -, hmem, hws⟩
    have hfirst := hfailed' _ (Fibers.mem_calls_error hmem) rfl
    exact absurd (hws.symm.trans hfirst) (by decide)
  · rintro ⟨ids, hmem, -⟩
    exact hunlisted' (Fibers.mem_calls_ok hmem)

end NexCause
