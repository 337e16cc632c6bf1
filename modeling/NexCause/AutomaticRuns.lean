/-
NexCause/AutomaticRuns.lean

Does an incident that the detector has opened get its RCA run?  The creation of
the incident and the start of its run are two transactions.  If the second one
fails, the later passes find the incident and only update it.  And if a pass
ends with an error, a task that is left over from it can be between the two
while the next pass finds the incident, updates it and ends.

If no start of a run fails, and no task of another pass is about to create an
incident or to start a run while a pass is going on, then after every pass that
has met no failure the open incidents of its signals have their runs
(`automatic_incident_has_run_unless_interrupted`).
-/
import NexCause.ResolvedIncidents

namespace NexCause.Incidents

open Program Prog Transition

/-! ### What a pass has done -/

/-- What a function of a detection pass remembers. -/
inductive Progress
  | fresh
  /-- `isDetecting` has been set -/
  | active
  /-- `isDetecting` has been reset -/
  | ended
  /-- there is an open incident -/
  | known (deploymentId : String) (ruleKey : Option String)
  /-- an incident has been created, and its run not yet been started -/
  | opened (row : Incident)
  deriving DecidableEq, Repr

def Progress.track (g : Progress) : TaskExchange → Progress
  | ⟨.call (.claimDetection _), .ok true⟩ => .active
  | ⟨.call (.endDetection _), _⟩ => .ended
  | ⟨.call (.statement _ (.findOpenIncident deploymentId ruleKey)), .ok (some _)⟩ =>
      .known deploymentId (some ruleKey)
  | ⟨.call (.statement _ (.createIncident _)), .ok row⟩ => .opened row
  | ⟨.call (.transaction _ _), _⟩ =>
      match g with
      | .opened row => .known row.deploymentId row.ruleKey
      | g => g
  | _ => g

/-- What fiber `i` remembers.  A pass is going on while that is `active`. -/
def Manager.progress (x : Manager) (i : ℕ) : Progress :=
  (ownTrace x.trace i).foldl Progress.track .fresh

/-- The fiber is about to create an incident or to start a run. -/
def Manager.opens (x : Manager) (i : ℕ) : Bool :=
  match x.next i with
  | some (.call (.statement _ (.createIncident _))) => true
  | some (.call (.transaction _ _)) => true
  | _ => false

/-- A pass is going on while a task of another one is about to create an
incident or to start a run. -/
def Overtaken (x : Manager) : Prop :=
  ∃ i < x.fibers.length, x.progress i = .active ∧
    ∃ j < x.fibers.length, x.opens j = true ∧ x.fibers[j]?.map Fiber.root ≠ some i

instance : DecidablePred Overtaken := fun x => by unfold Overtaken; infer_instance

/-- If the step starts a run, then that does not fail. -/
def StartsRun (x : Manager) (l : ℕ × (ℕ → Choice)) : Prop :=
  match x.next l.1 with
  | some (.call (.transaction ws t)) => (serve (.transaction ws t) l.2 x.state).1.isOk = true
  | _ => True

instance (x : Manager) (l : ℕ × (ℕ → Choice)) : Decidable (StartsRun x l) := by
  unfold StartsRun
  split <;> infer_instance

/-- There is an open incident for the deployment and the rule. -/
def Database.HasOpen (db : Database) (deploymentId : String) (ruleKey : Option String) : Prop :=
  ∃ i ∈ db.incidents, i.status = .«open» ∧ i.deploymentId = deploymentId ∧ i.ruleKey = ruleKey

/-- The incident has a run that was started automatically. -/
def Database.HasAutomaticRun (db : Database) (id : String) : Prop :=
  ∃ run ∈ db.runs, run.incidentId = id ∧ run.source = .automatic

/-- The deployment and rule of a signal. -/
def Job.signalKey : Job → Option (String × String)
  | .openAutomatic _ sample signal => some (sample.deploymentId, signal.ruleKey)
  | _ => none

/-- The pass `i` has seen the signal: it has started a task for it. -/
def Manager.SeesSignal (x : Manager) (i : ℕ) (deploymentId ruleKey : String) : Prop :=
  ∃ j f, x.At j f ∧ f.root = i ∧ f.request.signalKey = some (deploymentId, ruleKey)

/-! ### What the functions of a pass do -/

/-- A job of a detection pass. -/
def Job.OfPass : Job → Prop
  | .request (.detect _) => True
  | .request _ => False
  | _ => True

/-- What a function of a pass may do next: whoever has created an incident
starts its run, and a pass that is over does nothing. -/
def Permitted : Await Job Call → Progress → Prop
  | _, .ended => False
  | c, .opened row => c = .call (.transaction row.workspaceId (.startForIncident row.id .automatic))
  | .all jobs, _ => ∀ job ∈ jobs, job.OfPass
  | .call (.endDetection _), g => g = .active
  | .call (.statement _ (.createIncident data)), _ =>
      data.source = .automatic ∧ data.ruleKey.isSome = true
  | .call (.statement _ (.updateIncident _ .resolved)), _ => False
  | .call (.transaction _ _), _ => False
  | .call _, _ => True

theorem permitted_transaction {ws : String} {t : Transaction} {g : Progress}
    (h : Permitted (.call (.transaction ws t)) g) : ∃ row, g = .opened row := by
  cases g with
  | opened row => exact ⟨row, rfl⟩
  | _ => exact h.elim

theorem permitted_endDetection {i : ℕ} {g : Progress} (h : Permitted (.call (.endDetection i)) g) :
    g = .active := by
  cases g with
  | ended => exact h.elim
  | opened row => cases h
  | _ => exact h

theorem not_permitted_resolved (ws id : String) (g : Progress) :
    ¬ Permitted (.call (.statement ws (.updateIncident id .resolved))) g := by
  intro h
  cases g with
  | opened row => cases h
  | _ => exact h

/-- What a creation says of the incident. -/
def Created : TaskExchange → Prop
  | ⟨.call (.statement ws (.createIncident data)), r⟩ => ∀ row, r = .ok row → ∃ x, row = data.row ws x
  | _ => True

/-- The policy of a detection pass. -/
def passPolicy : Policy Job Call Call.Result IncidentError Progress where
  valid := Job.OfPass
  first := .fresh
  track := Progress.track
  allowed := Created
  pre := Permitted

/-- How a function of a pass ends: a task that has returned knows of an open
incident for its signal, and none leaves an incident behind without a run. -/
def Leaves : Job → Except IncidentError Unit → Progress → Prop
  | .openAutomatic _ sample signal, .ok (), g => g = .known sample.deploymentId (some signal.ruleKey)
  | _, _, g => ∀ row, g ≠ .opened row

theorem openAutomaticIncident_leaves (ws : String) (sample : Sample) (signal : IncidentSignal) :
    (openAutomaticIncident true ws sample signal).Meets passPolicy.contract
      (Leaves (.openAutomatic ws sample signal)) .fresh := by
  apply Policy.await_bind_meets
  · trivial
  · intro existing _
    cases existing with
    | some row =>
      apply Policy.await_bind_meets
      · trivial
      · exact fun _ _ => rfl
      · exact fun _ _ h => nomatch h
    | none =>
      apply Policy.await_bind_meets
      · exact ⟨rfl, rfl⟩
      · intro incident hcreated
        obtain ⟨x, rfl⟩ := hcreated incident rfl
        apply Policy.await_bind_meets
        · rfl
        · exact fun _ _ => rfl
        · exact fun _ _ h => nomatch h
      · exact fun _ _ h => nomatch h
  · exact fun _ _ h => nomatch h

theorem detectDeploymentIncidents_keeps (ws deploymentId : String) :
    passPolicy.Keeps .fresh (detectDeploymentIncidents ws deploymentId) := by
  apply Policy.Keeps.bind
  · apply Policy.await_keeps
    · trivial
    · exact fun _ => rfl
  · intro samples
    cases samples with
    | nil => rfl
    | cons latest rest =>
      apply Policy.awaitAll_keeps
      · intro job hjob
        obtain ⟨signal, -, rfl⟩ := List.mem_map.mp hjob
        trivial
      · exact fun _ => rfl
  · exact fun _ => rfl

theorem detectIncidents_leaves (i : ℕ) :
    (detectIncidents i).Meets passPolicy.contract (fun _ g => g = .fresh ∨ g = .ended) .fresh := by
  apply Policy.await_bind_meets
  · trivial
  · intro claimed _
    cases claimed with
    | false => exact .inl rfl
    | true =>
      apply Policy.Keeps.withFinally (g := Progress.active) (S := fun g => g = .fresh ∨ g = .ended)
      · apply Policy.Keeps.bind
        · apply Policy.await_keeps
          · trivial
          · exact fun _ => rfl
        · apply detectWorkspaces_keeps
          · exact fun _ => trivial
          · exact fun _ _ => rfl
          · intro jobs hjobs job hjob
            obtain ⟨ws, id, rfl⟩ := hjobs job hjob
            trivial
          · exact fun _ _ => rfl
        · exact fun _ => rfl
      · apply Policy.await_meets
        · rfl
        · exact fun _ _ => .inr rfl
  · exact fun _ => .inl rfl

/-- **The policy of a pass is lawful.** -/
theorem passPolicy_lawful :
    passPolicy.Lawful (Job.task true) serve Leaves fun _ => True where
  meets job hjob := by
    cases job with
    -- a job that ends with its row open ends by an error
    | openAutomatic ws sample signal => exact openAutomaticIncident_leaves ws sample signal
    | detectDeployment ws id =>
      -- what a pass runs for one deployment is caught
      apply ((detectDeploymentIncidents_keeps ws id).caught ()).mono
      rintro r _ rfl row h
      cases h
    | request r =>
      cases r with
      | detect i =>
        have hleaves := (detectIncidents_leaves i).tryCatch (Q := Leaves (.request (.detect i)))
          (h := fun _ => ret ())
        apply hleaves
        · rintro a g (rfl | rfl) row h <;> cases h
        · rintro e g (rfl | rfl) row h <;> cases h
      | _ => exact hjob.elim
  starts jobs g hpre := by
    cases g with
    | ended => exact hpre.elim
    | opened row => cases hpre
    | _ => exact hpre
  awaits _ _ := trivial
  serves c g env s _ _ := by
    refine ⟨?_, trivial⟩
    show Created ⟨.call c, (serve c env s).1⟩
    cases c with
    | statement ws c =>
      cases c with
      -- only a creation opens a row
      | createIncident data => exact fun row hrow => serve_createIncident hrow
      | _ => trivial
    | _ => trivial

/-- The functions of a pass raise only after a call that has failed. -/
theorem job_blameless {job : Job} (h : job.OfPass) : (job.task true).Blameless := by
  have hquery : ∀ ws c, (query ws c).Blameless := fun ws c => blameless_perform _
  have hall : ∀ jobs, (awaitAll jobs : Task Unit).Blameless := fun jobs => blameless_perform _
  have hworkspaces : ∀ workspaces, (detectWorkspaces workspaces).Blameless := by
    intro workspaces
    induction workspaces with
    | nil => trivial
    | cons ws rest ih => exact (hquery _ _).bind fun _ => (hall _).bind fun _ => ih
  cases job with
  | openAutomatic ws sample signal =>
    apply (hquery _ _).bind
    intro existing
    cases existing with
    -- an open incident is updated, and that is all
    | some row => exact (hquery _ _).bind fun _ => trivial
    | none => exact (hquery _ _).bind fun _ => (blameless_perform _).bind fun _ => trivial
  | detectDeployment ws id =>
    apply Blameless.tryCatch
    apply (hquery _ _).bind
    intro samples
    cases samples with
    | nil => trivial
    | cons latest rest => exact hall _
  | request r =>
    cases r with
    | detect i =>
      -- what a pass throws is caught
      apply Blameless.tryCatch
      apply (blameless_perform _).bind
      intro claimed
      cases claimed with
      | false => trivial
      | true => exact ((hquery _ _).bind hworkspaces).withFinally (blameless_perform _)
    | _ => exact h.elim

/-! ### What answers tell -/

/-- Who has come to know of an open incident has found it, or has created it. -/
theorem track_known {c : Call} {env : ℕ → Choice} {s : System} {g : Progress} {deploymentId : String}
    {ruleKey : Option String}
    (h : g.track ⟨.call c, (serve c env s).1⟩ = .known deploymentId ruleKey) :
    g = .known deploymentId ruleKey ∨ s.db.HasOpen deploymentId ruleKey ∨
      ∃ row, g = .opened row ∧ row.deploymentId = deploymentId ∧ row.ruleKey = ruleKey := by
  generalize hr : (serve c env s).1 = r at h
  cases c with
  | claimDetection i =>
    cases r with
    | error e => exact .inl h
    | ok claimed =>
      cases claimed with
      | true => cases h
      | false => exact .inl h
  | endDetection i => cases h
  | transaction ws t =>
    cases g with
    -- the run of an incident that was opened
    | opened row =>
      obtain ⟨hdeployment, hrule⟩ := Progress.known.inj h
      exact .inr (.inr ⟨row, rfl, hdeployment, hrule⟩)
    | _ => exact .inl h
  | statement ws c =>
    cases c with
    | findOpenIncident d k =>
      cases r with
      | error e => exact .inl h
      | ok found =>
        cases found with
        | none => exact .inl h
        -- an incident that was found open
        | some row =>
          obtain ⟨rfl, rfl⟩ := Progress.known.inj h
          obtain ⟨hrow, -, hdeployment, hopen, hrule⟩ :=
            Database.mem_openIncidents.mp ((serve_findOpenIncident hr).1 row rfl)
          exact .inr (.inl ⟨row, hrow, hopen, hdeployment, hrule⟩)
    | createIncident data =>
      cases r with
      | error e => exact .inl h
      | ok row => cases h
    | _ => exact .inl h

/-- Who is to start the run of an incident has just created it. -/
theorem track_opened {c : Call} {env : ℕ → Choice} {s : System} {g : Progress} {row : Incident}
    (hpre : Permitted (.call c) g) (h : g.track ⟨.call c, (serve c env s).1⟩ = .opened row) :
    ∃ ws data x, c = .statement ws (.createIncident data) ∧ data.source = .automatic ∧
      data.ruleKey.isSome = true ∧ row = data.row ws x ∧
        (serve c env s).2.db = s.db.withIncident row := by
  generalize hr : (serve c env s).1 = r at h
  cases c with
  -- only a creation opens an incident; after any other call the state is another one
  | claimDetection i =>
    cases r with
    | error e => subst h; cases hpre
    | ok claimed =>
      cases claimed with
      | true => cases h
      | false => subst h; cases hpre
  | endDetection i => cases h
  | transaction ws t =>
    cases g with
    | opened row' => cases h
    | _ => cases h
  | statement ws c =>
    cases c with
    | findOpenIncident d k =>
      cases r with
      | error e => subst h; cases hpre
      | ok found =>
        cases found with
        | none => subst h; cases hpre
        | some row' => cases h
    | createIncident data =>
      cases r with
      | error e => subst h; cases hpre
      | ok row' =>
        obtain rfl := Progress.opened.inj h
        -- what the pass may create is an automatic incident
        have hsource : data.source = .automatic ∧ data.ruleKey.isSome = true := by
          cases g with
          | ended => exact hpre.elim
          | opened row => cases hpre
          | _ => exact hpre
        replace hr : (statement ws (.createIncident data) (env 0) s.db).1 = .ok row' := hr
        show ∃ ws' data' x, Call.statement ws (.createIncident data) =
            .statement ws' (.createIncident data') ∧ _ ∧ _ ∧ _ ∧
          (statement ws (.createIncident data) (env 0) s.db).2 = s.db.withIncident row'
        rcases statement_createIncident ws data (env 0) s.db with ⟨e, herror⟩ | ⟨-, hok⟩
        · rw [herror] at hr
          cases hr
        · rw [hok] at hr ⊢
          obtain rfl := Except.ok.inj hr
          exact ⟨ws, data, env 0, rfl, hsource.1, hsource.2, rfl, rfl⟩
    | _ => subst h; cases hpre

/-- A pass is over when it has reset `isDetecting`. -/
theorem track_over {c : Call} {r : Except IncidentError c.Result} {g : Progress}
    (h : g.track ⟨.call c, r⟩ = .ended) : g = .ended ∨ ∃ i, c = .endDetection i := by
  cases c with
  | claimDetection i =>
    cases r with
    | error e => exact .inl h
    | ok claimed =>
      cases claimed with
      -- a pass that has claimed its detection goes on
      | true => cases h
      | false => exact .inl h
  | endDetection i => exact .inr ⟨i, rfl⟩
  | transaction ws t =>
    cases g with
    | opened row => cases h
    | _ => exact .inl h
  | statement ws c =>
    cases c with
    | findOpenIncident d k =>
      cases r with
      | error e => exact .inl h
      | ok found =>
        cases found with
        | none => exact .inl h
        -- so does one with an open incident
        | some row => cases h
    | createIncident data =>
      cases r with
      | error e => exact .inl h
      | ok row => cases h
    | _ => exact .inl h

/-! ### One step -/

/-- The policies have been kept, and every error goes back to a call. -/
structure Orderly (db₀ : Database) (s : Manager) : Prop where
  regular : Regular true db₀ s
  kept : passPolicy.Kept (Job.task true) (fun _ => True) s
  accounted : s.Accounted

section Step

variable {db₀ : Database} {s t : Manager} {l : ℕ × (ℕ → Choice)} {deploymentId ruleKey : String}

theorem Orderly.step (h : Orderly db₀ s) (hstep : managerStep true s l = some t) :
    Orderly db₀ t := by
  have hstepped := Fibers.step_some hstep
  refine ⟨h.regular.step (incidentPolicy_lawful true db₀) hstepped,
    h.kept.step passPolicy_lawful hstepped, ?_⟩
  apply h.accounted.step h.kept.formed _ hstepped
  exact fun j f hj => job_blameless (h.kept.valid j f hj)

theorem opens_unfinished {j : ℕ} (h : s.opens j = true) :
    ∃ f, s.At j f ∧ ¬ f.prog.Finished := by
  unfold Manager.opens at h
  have hcall : ∀ c, s.next j = some c → ∃ f, s.At j f ∧ ¬ f.prog.Finished := by
    intro c hnext
    obtain ⟨f, k, hf, hprog⟩ := Fibers.next_some.mp hnext
    refine ⟨f, hf, ?_⟩
    rw [hprog]
    exact id
  split at h
  · rename_i hnext
    exact hcall _ hnext
  · rename_i hnext
    exact hcall _ hnext
  · cases h

theorem opens_of_opening {j : ℕ} {key : String × String} (h : s.opening j = some key) :
    s.opens j = true := by
  obtain ⟨ws, data, hnext, -⟩ := opening_some.mp h
  unfold Manager.opens
  rw [hnext]

/-- Who has created an incident is about to start its run. -/
theorem Orderly.next_of_opened (h : Orderly db₀ s) {j : ℕ} {row : Incident}
    (hj : s.progress j = .opened row) :
    s.next j = some (.call (.transaction row.workspaceId (.startForIncident row.id .automatic))) := by
  have hlt : j < s.fibers.length := by
    by_contra hge
    have hnew : s.progress j = .fresh := Policy.phase_new (P := passPolicy) h.kept.formed (by omega)
    rw [hnew] at hj
    cases hj
  have hat : s.At j s.fibers[j] := List.getElem?_eq_getElem hlt
  have hmeets := h.kept.meets passPolicy_lawful hat
  -- a job does not return with a row it has opened and not gone on with
  have hleaves : ∀ job r, ¬ Leaves job r (.opened row) := by
    intro job r hleaves
    cases job with
    | openAutomatic ws sample signal =>
      cases r with
      | ok a => cases hleaves
      | error e => exact hleaves row rfl
    | _ => exact hleaves row rfl
  replace hmeets : s.fibers[j].prog.Meets passPolicy.contract (Leaves s.fibers[j].request)
      (.opened row) := hj ▸ hmeets
  cases hprog : s.fibers[j].prog with
  | ret a =>
    rw [hprog] at hmeets
    exact absurd hmeets (hleaves _ _)
  | throw e =>
    rw [hprog] at hmeets
    exact absurd hmeets (hleaves _ _)
  | call c k =>
    rw [hprog] at hmeets
    -- so it makes the call that its phase asks for
    have hc : c = .call (.transaction row.workspaceId (.startForIncident row.id .automatic)) := hmeets.1
    rw [← hc]
    exact Fibers.next_some.mpr ⟨_, k, hat, hprog⟩

theorem Orderly.opens_of_opened (h : Orderly db₀ s) {j : ℕ} {row : Incident}
    (hj : s.progress j = .opened row) : s.opens j = true := by
  unfold Manager.opens
  rw [h.next_of_opened hj]

/-- What a step does to the tables, and to what its fiber remembers. -/
theorem Orderly.cases (h : Orderly db₀ s) (hstep : managerStep true s l = some t) :
    (∀ j, j ≠ l.1 → t.progress j = s.progress j) ∧
    (t.state.db = s.state.db ∧ t.progress l.1 = s.progress l.1 ∨
      ∃ c, s.next l.1 = some (.call c) ∧ Permitted (.call c) (s.progress l.1) ∧
        t.state = (serve c l.2 s.state).2 ∧
        Effect s.state.db c (serve c l.2 s.state).1 t.state.db ∧
        t.progress l.1 = (s.progress l.1).track ⟨.call c, (serve c l.2 s.state).1⟩) := by
  have hstepped := Fibers.step_some hstep
  refine ⟨fun j hne => ?_, ?_⟩
  · obtain ⟨f, f', qs, own, hmove⟩ := Fibers.stepped_moves hstepped
    exact (Policy.phase_move (P := passPolicy) hmove j).trans (if_neg hne)
  · rcases Policy.stepped_state passPolicy hstepped with
      ⟨c, hnext, hstate, hphase⟩ | ⟨hstate, ⟨qs, -, hphase⟩ | ⟨qs, r, hphase⟩⟩
    · refine .inr ⟨c, hnext, h.kept.pre passPolicy_lawful hnext, hstate, ?_, hphase⟩
      have hpre := h.regular.pre (incidentPolicy_lawful true db₀) hnext
      rw [hstate]
      exact serve_effect (issued_of_allowed hpre) l.2 s.state
    · exact .inl ⟨congrArg System.db hstate, hphase⟩
    · exact .inl ⟨congrArg System.db hstate, hphase⟩

/-- No pass closes an incident. -/
theorem Orderly.keeps_open (h : Orderly db₀ s) (hstep : managerStep true s l = some t)
    {row : Incident} (hrow : row ∈ s.state.db.incidents) (hopen : row.status = .«open») :
    ∃ row' ∈ t.state.db.incidents, row'.identity = row.identity ∧ row'.status = .«open» := by
  obtain ⟨-, ⟨hdb, -⟩ | ⟨c, hnext, hpre, -, heffect, -⟩⟩ := h.cases hstep
  · rw [hdb]
    exact ⟨row, hrow, rfl, hopen⟩
  · apply heffect.keeps_open hrow hopen
    rintro ws rfl
    exact not_permitted_resolved _ _ _ hpre

theorem Orderly.keeps_hasOpen (h : Orderly db₀ s) (hstep : managerStep true s l = some t)
    {ruleKey : Option String} (hopen : s.state.db.HasOpen deploymentId ruleKey) :
    t.state.db.HasOpen deploymentId ruleKey := by
  obtain ⟨row, hrow, hstatus, hdeployment, hrule⟩ := hopen
  obtain ⟨row', hrow', hidentity, hstatus'⟩ := h.keeps_open hstep hrow hstatus
  simp only [Incident.identity, Prod.mk.injEq] at hidentity
  obtain ⟨-, -, -, hdeployment', -, hrule'⟩ := hidentity
  exact ⟨row', hrow', hstatus', hdeployment'.trans hdeployment, hrule'.trans hrule⟩

/-- A pass that is over has come to its end. -/
theorem Orderly.finished (h : Orderly db₀ s) {p : ℕ} (hover : s.progress p = .ended)
    {f : Fiber Job Call Call.Result IncidentError} (hp : s.At p f) : f.prog.Finished := by
  cases hprog : f.prog with
  | ret a => trivial
  | throw e => trivial
  | call c k =>
    have hpre := h.kept.pre passPolicy_lawful (Fibers.next_some.mpr ⟨f, k, hp, hprog⟩)
    have hphase : passPolicy.phase s p = .ended := hover
    rw [hphase] at hpre
    exact hpre.elim

/-- When a pass is over that has met no failure, its functions have returned. -/
theorem Orderly.returned (h : Orderly db₀ s) {p : ℕ} (hover : s.progress p = .ended)
    (hfailed : ¬ s.Failed p) {j : ℕ} {f : Fiber Job Call Call.Result IncidentError} (hj : s.At j f)
    (hroot : f.root = p) : f.prog = ret () := by
  have hraised : ∀ j f, s.At j f → f.root = p → ¬ f.prog.Raised := by
    rintro j f hj rfl hraised
    exact hfailed (h.accounted.failed h.kept.formed hj (job_blameless (h.kept.valid j f hj)) hraised)
  have hfinished := h.kept.formed.ended (fun f hp => h.finished hover hp) hraised j f hj hroot
  have hnot := hraised j f hj hroot
  cases hprog : f.prog with
  | ret a => rfl
  | throw e => rw [hprog] at hnot; exact absurd trivial hnot
  | call c k => rw [hprog] at hfinished; exact hfinished.elim

/-! ### The invariant -/

/-- For this deployment and rule there is an open incident, and no task is about
to open another one or to start the run of one. -/
structure Decided (s : Manager) (deploymentId ruleKey : String) : Prop where
  hasOpen : s.state.db.HasOpen deploymentId (some ruleKey)
  opening : ∀ j, s.opening j ≠ some (deploymentId, ruleKey)
  opened : ∀ j row, s.progress j = .opened row →
    ¬ (row.deploymentId = deploymentId ∧ row.ruleKey = some ruleKey)

structure Tended (s : Manager) : Prop where
  known : ∀ j deploymentId ruleKey, s.progress j = .known deploymentId ruleKey →
    s.state.db.HasOpen deploymentId ruleKey
  opened : ∀ j row, s.progress j = .opened row →
    ∃ i ∈ s.state.db.incidents, i.identity = row.identity ∧ i.status = .«open»
  run : ∀ i ∈ s.state.db.incidents, i.status = .«open» → i.source = .automatic →
    s.state.db.HasAutomaticRun i.id ∨ ∃ j row, s.progress j = .opened row ∧ row.identity = i.identity
  decided : ∀ p, s.progress p = .ended → ¬ s.Failed p → ∀ deploymentId ruleKey,
    s.SeesSignal p deploymentId ruleKey → Decided s deploymentId ruleKey

theorem Tended.step_opened (h : Tended s) (horderly : Orderly db₀ s)
    (hstep : managerStep true s l = some t) {j : ℕ} {row : Incident}
    (hj : t.progress j = .opened row) :
    ∃ i ∈ t.state.db.incidents, i.identity = row.identity ∧ i.status = .«open» := by
  have hold : ∀ j row, s.progress j = .opened row →
      ∃ i ∈ t.state.db.incidents, i.identity = row.identity ∧ i.status = .«open» := by
    intro j row hj
    obtain ⟨i, hi, hidentity, hopen⟩ := h.opened j row hj
    obtain ⟨i', hi', hidentity', hopen'⟩ := horderly.keeps_open hstep hi hopen
    exact ⟨i', hi', hidentity'.trans hidentity, hopen'⟩
  obtain ⟨hothers, hcases⟩ := horderly.cases hstep
  by_cases hne : j = l.1
  · subst hne
    rcases hcases with ⟨-, hsame⟩ | ⟨c, -, hpre, hstate, -, hprogress⟩
    · exact hold _ row (hsame ▸ hj)
    · rw [hprogress] at hj
      obtain ⟨ws, data, x, -, -, -, rfl, hdb⟩ := track_opened hpre hj
      rw [hstate, hdb]
      exact ⟨_, List.mem_append_right _ (List.mem_singleton.mpr rfl), rfl, rfl⟩
  · exact hold j row (hothers j hne ▸ hj)

theorem Tended.step_known (h : Tended s) (horderly : Orderly db₀ s)
    (hstep : managerStep true s l = some t) {j : ℕ} {ruleKey : Option String}
    (hj : t.progress j = .known deploymentId ruleKey) :
    t.state.db.HasOpen deploymentId ruleKey := by
  apply horderly.keeps_hasOpen hstep
  obtain ⟨hothers, hcases⟩ := horderly.cases hstep
  by_cases hne : j = l.1
  · subst hne
    rcases hcases with ⟨-, hsame⟩ | ⟨c, -, -, -, -, hprogress⟩
    · exact h.known _ _ _ (hsame ▸ hj)
    · rw [hprogress] at hj
      rcases track_known hj with hknown | hopen | ⟨row, hopened, hdeployment, hrule⟩
      · exact h.known _ _ _ hknown
      · exact hopen
      · obtain ⟨i, hi, hidentity, hopen⟩ := h.opened _ row hopened
        simp only [Incident.identity, Prod.mk.injEq] at hidentity
        obtain ⟨-, -, -, hdeployment', -, hrule'⟩ := hidentity
        exact ⟨i, hi, hopen, hdeployment'.trans hdeployment, hrule'.trans hrule⟩
  · exact h.known _ _ _ (hothers j hne ▸ hj)

/-- A start of a run that does not fail. -/
theorem StartsRun.started (h : StartsRun s l) {row : Incident}
    (hnext : s.next l.1 =
      some (.call (.transaction row.workspaceId (.startForIncident row.id .automatic))))
    (heffect : Effect s.state.db (.transaction row.workspaceId (.startForIncident row.id .automatic))
      (serve (.transaction row.workspaceId (.startForIncident row.id .automatic)) l.2 s.state).1
      t.state.db) :
    t.state.db.incidents = s.state.db.incidents ∧
      ∃ run, t.state.db.runs = s.state.db.runs ++ [run] ∧ run.incidentId = row.id ∧
        run.source = .automatic := by
  unfold StartsRun at h
  rw [hnext] at h
  simp only at h
  generalize (serve (.transaction row.workspaceId (.startForIncident row.id .automatic)) l.2
    s.state).1 = r at heffect h
  generalize t.state.db = db' at heffect
  cases heffect with
  | nothing hc =>
    rcases hc with hc | ⟨e, rfl⟩
    · exact hc.elim
    · cases h
  | started x hincident =>
    obtain ⟨-, hid, -⟩ := Database.incident_some hincident
    exact ⟨rfl, _, rfl, hid, rfl⟩

theorem Tended.step_run (h : Tended s) (horderly : Orderly db₀ s) (hstarts : StartsRun s l)
    (hstep : managerStep true s l = some t) {i : Incident} (hi : i ∈ t.state.db.incidents)
    (hopen : i.status = .«open») (hsource : i.source = .automatic) :
    t.state.db.HasAutomaticRun i.id ∨
      ∃ j row, t.progress j = .opened row ∧ row.identity = i.identity := by
  obtain ⟨hothers, hcases⟩ := horderly.cases hstep
  -- what was known of an incident is still so, unless it is the step's fiber that starts its run
  have hold : ∀ i' ∈ s.state.db.incidents, i'.identity = i.identity → i'.status = .«open» →
      (∀ run ∈ s.state.db.runs, run ∈ t.state.db.runs) →
      (∀ row, s.progress l.1 = .opened row → row.identity = i.identity →
        t.progress l.1 = .opened row ∨ t.state.db.HasAutomaticRun i.id) →
      t.state.db.HasAutomaticRun i.id ∨
        ∃ j row, t.progress j = .opened row ∧ row.identity = i.identity := by
    intro i' hi' hidentity hopen' hruns hl
    have hparts := hidentity
    simp only [Incident.identity, Prod.mk.injEq] at hparts
    rcases h.run i' hi' hopen' (hparts.2.2.2.2.1.trans hsource) with
      ⟨run, hrun, hid, hautomatic⟩ | ⟨j, row, hj, hrow⟩
    · exact .inl ⟨run, hruns run hrun, hid.trans hparts.1, hautomatic⟩
    · have hrow' : row.identity = i.identity := hrow.trans hidentity
      by_cases hne : j = l.1
      · subst hne
        rcases hl row hj hrow' with hstays | hrun
        · exact .inr ⟨l.1, row, hstays, hrow'⟩
        · exact .inl hrun
      · exact .inr ⟨j, row, (hothers j hne).trans hj, hrow'⟩
  rcases hcases with ⟨hdb, hsame⟩ | ⟨c, hnext, hpre, hstate, heffect, hprogress⟩
  · rw [hdb] at hi hold ⊢
    exact hold i hi rfl hopen (fun run hrun => hrun) fun row hl _ => .inl (hsame.trans hl)
  by_cases hopened : ∃ row, s.progress l.1 = .opened row
  · -- the step starts the run
    obtain ⟨row, hg⟩ := hopened
    have hc := horderly.next_of_opened hg
    obtain rfl := Await.call.inj (Option.some.inj (hnext.symm.trans hc))
    obtain ⟨hincidents, run, hruns, hid, hautomatic⟩ := hstarts.started hc heffect
    rw [hincidents] at hi
    apply hold i hi rfl hopen
    · intro run' hrun'
      rw [hruns]
      exact List.mem_append_left _ hrun'
    · intro row' hrow' hidentity
      obtain rfl := Progress.opened.inj (hg.symm.trans hrow')
      refine .inr ⟨run, ?_, hid.trans (congrArg Prod.fst hidentity), hautomatic⟩
      rw [hruns]
      exact List.mem_append_right _ (List.mem_singleton.mpr rfl)
  · have hl : ∀ row, s.progress l.1 = .opened row → row.identity = i.identity →
        t.progress l.1 = .opened row ∨ t.state.db.HasAutomaticRun i.id :=
      fun row hrow _ => absurd ⟨row, hrow⟩ hopened
    generalize t.state.db = db' at hi hold heffect hl ⊢
    generalize (serve c l.2 s.state).1 = r at heffect hprogress
    cases heffect with
    | nothing => exact hold i hi rfl hopen (fun run hrun => hrun) hl
    | created x hinsert =>
      rcases List.mem_append.mp hi with hi | hnew
      · exact hold i hi rfl hopen (fun run hrun => hrun) hl
      · obtain rfl := List.mem_singleton.mp hnew
        exact .inr ⟨l.1, _, hprogress, rfl⟩
    | @updated ws id change row now hrow =>
      obtain ⟨i', hi', rfl⟩ := List.mem_map.mp hi
      apply hold i' hi' _ _ (fun run hrun => hrun) hl
      · split
        · exact (IncidentChange.apply_identity now change i').symm
        · rfl
      · split at hopen
        · cases change with
          | detected severity summary sampleId metadata => exact hopen
          | resolved => exact absurd hpre (not_permitted_resolved _ _ _)
        · exact hopen
    | started x hincident => exact absurd (permitted_transaction hpre) hopened
    | requested x y hdeployment happ hid hsource hrule hinsert =>
      exact absurd (permitted_transaction hpre) hopened

/-- What was decided stays so. -/
theorem Decided.step (h : Decided s deploymentId ruleKey) (horderly : Orderly db₀ s)
    (hstep : managerStep true s l = some t) : Decided t deploymentId ruleKey := by
  refine ⟨horderly.keeps_hasOpen hstep h.hasOpen, fun j hj => ?_, fun j row hj hkey => ?_⟩
  · rcases horderly.regular.opening_step hstep hj with ⟨-, hold⟩ | ⟨-, -, ws, hnone, hd⟩
    · exact h.opening j hold
    · -- it has not found the incident that there is
      obtain ⟨i, hi, hstatus, hdeployment, hrule⟩ := h.hasOpen
      have hmem := horderly.regular.state.consistent.mem_openIncidents hd hi hstatus hdeployment hrule
      rw [hnone] at hmem
      cases hmem
  · obtain ⟨hothers, hcases⟩ := horderly.cases hstep
    by_cases hne : j = l.1
    · subst hne
      rcases hcases with ⟨-, hsame⟩ | ⟨c, hnext, hpre, -, -, hprogress⟩
      · exact h.opened _ row (hsame ▸ hj) hkey
      · rw [hprogress] at hj
        obtain ⟨ws, data, x, rfl, hsource, -, rfl, -⟩ := track_opened hpre hj
        exact h.opening l.1 (opening_some.mpr ⟨ws, data, hnext, hsource, hkey.1, hkey.2⟩)
    · exact h.opened j row (hothers j hne ▸ hj) hkey

/-- What a pass has seen that is over, it had seen before the step. -/
theorem Orderly.seesSignal (h : Orderly db₀ s) (hstep : managerStep true s l = some t) {p : ℕ}
    (hover : s.progress p = .ended) (hfailed : ¬ s.Failed p)
    (hsees : t.SeesSignal p deploymentId ruleKey) : s.SeesSignal p deploymentId ruleKey := by
  obtain ⟨j, f, hj, hroot, hkey⟩ := hsees
  obtain ⟨g, g', qs, own, hmove⟩ := Fibers.stepped_moves (Fibers.step_some hstep)
  -- none of its functions moves any more
  have hnot : g.root ≠ p := by
    intro hg
    have hret := h.returned hover hfailed hmove.here hg
    have hunfinished := hmove.unfinished
    rw [hret] at hunfinished
    exact hunfinished trivial
  rcases hmove.cases hj with ⟨rfl, rfl⟩ | ⟨-, hj⟩ | ⟨m, q, hq, rfl, rfl⟩
  · rw [hmove.same] at hroot
    exact absurd hroot hnot
  · exact ⟨j, f, hj, hroot, hkey⟩
  · exact absurd hroot hnot

theorem Tended.step_decided (h : Tended s) (horderly : Orderly db₀ s) (halone : ¬ Overtaken s)
    (hstep : managerStep true s l = some t) {p : ℕ} (hover : t.progress p = .ended)
    (hfailed : ¬ t.Failed p) (hsees : t.SeesSignal p deploymentId ruleKey) :
    Decided t deploymentId ruleKey := by
  have horderly' : Orderly db₀ t := horderly.step hstep
  obtain ⟨g, g', qs, own, hmove⟩ := Fibers.stepped_moves (Fibers.step_some hstep)
  obtain ⟨hothers, hcases⟩ := horderly.cases hstep
  by_cases hp : s.progress p = .ended
  · have hfailed' : ¬ s.Failed p := fun hf => hfailed (hmove.failed hf)
    exact (h.decided p hp hfailed' _ _ (horderly.seesSignal hstep hp hfailed' hsees)).step horderly hstep
  -- the pass ends with this step
  have hpl : p = l.1 := by
    by_contra hne
    exact hp ((hothers p hne).symm.trans hover)
  subst hpl
  have hactive : s.progress l.1 = .active := by
    rcases hcases with ⟨-, hsame⟩ | ⟨c, -, hpre, -, -, hprogress⟩
    · exact absurd (hsame.symm.trans hover) hp
    · rcases track_over (hprogress.symm.trans hover) with hg | ⟨i, rfl⟩
      · exact absurd hg hp
      · exact permitted_endDetection hpre
  -- the tasks that are about to open an incident or start a run are its own, and they have returned
  have hnone : ∀ j, s.opens j = true → t.opens j = true → False := by
    intro j hbefore hafter
    obtain ⟨f, hj, hunfinished⟩ := opens_unfinished hafter
    obtain ⟨f₀, hj₀, -⟩ := opens_unfinished hbefore
    have hroot : f₀.root = l.1 := by
      by_contra hne
      refine halone ⟨l.1, hmove.here_lt, hactive, j, (List.getElem?_eq_some_iff.mp hj₀).1, hbefore, ?_⟩
      rw [hj₀]
      exact fun heq => hne (Option.some.inj heq)
    obtain ⟨f', hj', -, hroot', -⟩ := hmove.stays hj₀
    obtain rfl := Option.some.inj (hj.symm.trans hj')
    have hret := horderly'.returned hover hfailed hj (hroot'.trans hroot)
    rw [hret] at hunfinished
    exact hunfinished trivial
  refine ⟨?_, fun j hj => ?_, fun j row hj _ => ?_⟩
  · obtain ⟨j, f, hj, hroot, hkey⟩ := hsees
    have hmeets := horderly'.kept.meets passPolicy_lawful hj
    rw [horderly'.returned hover hfailed hj hroot] at hmeets
    cases hrequest : f.request with
    | openAutomatic ws sample signal =>
      rw [hrequest] at hmeets hkey
      obtain ⟨rfl, rfl⟩ := Prod.mk.inj (Option.some.inj hkey)
      exact h.step_known horderly hstep hmeets
    | _ =>
      rw [hrequest] at hkey
      cases hkey
  · rcases horderly.regular.opening_step hstep hj with ⟨-, hold⟩ | ⟨rfl, -⟩
    · exact hnone j (opens_of_opening hold) (opens_of_opening hj)
    · obtain ⟨f, hl, hunfinished⟩ := opens_unfinished (opens_of_opening hj)
      exact hunfinished (horderly'.finished hover hl)
  · have hne : j ≠ l.1 := by
      rintro rfl
      rw [hover] at hj
      cases hj
    have hbefore := horderly.opens_of_opened ((hothers j hne).symm.trans hj)
    exact hnone j hbefore (horderly'.opens_of_opened hj)

/-- **One step** that fails to start no run, and in which no pass is overtaken. -/
theorem Tended.step (h : Tended s) (horderly : Orderly db₀ s) (hstarts : StartsRun s l)
    (halone : ¬ Overtaken s) (hstep : managerStep true s l = some t) : Tended t where
  known _ _ _ hj := h.step_known horderly hstep hj
  opened _ _ hj := h.step_opened horderly hstep hj
  run _ hi hopen hsource := h.step_run horderly hstarts hstep hi hopen hsource
  decided _ hover hfailed _ _ hsees := h.step_decided horderly halone hstep hover hfailed hsees

theorem orderly_start {requests : List Request} (hdb : Consistent db₀) (hscope : OneScope db₀)
    (hpasses : ∀ r ∈ requests, ∃ i, r = .detect i) :
    Orderly db₀ (startManager true db₀ requests) := by
  refine ⟨regular_start hdb hscope, ?_, fun _ _ _ hmem => nomatch hmem⟩
  apply Policy.kept_start _ trivial
  intro job hjob
  obtain ⟨r, hr, rfl⟩ := List.mem_map.mp hjob
  obtain ⟨i, rfl⟩ := hpasses r hr
  trivial

theorem tended_start {requests : List Request}
    (hruns : ∀ i ∈ db₀.incidents, i.status = .«open» → i.source = .automatic →
      db₀.HasAutomaticRun i.id) : Tended (startManager true db₀ requests) where
  known _ _ _ hj := nomatch hj
  opened _ _ hj := nomatch hj
  run i hi hopen hsource := .inl (hruns i hi hopen hsource)
  decided _ hover := nomatch hover

end Step

/-- **Every automatic incident gets its run**, if no start of a run fails and no
pass is overtaken by a task of another one.  Whenever a pass is over that has
met no failure, an open incident of the detector for a signal that the pass has
seen has a run that was started automatically. -/
theorem automatic_incident_has_run_unless_interrupted {db : Database} {requests : List Request}
    (hdb : Consistent db) (hscope : OneScope db) (hpasses : ∀ r ∈ requests, ∃ i, r = .detect i)
    (hruns : ∀ i ∈ db.incidents, i.status = .«open» → i.source = .automatic →
      db.HasAutomaticRun i.id)
    {ls : List (ℕ × (ℕ → Choice))} {x : Manager}
    (halong : Along (managerStep true) (fun s l => StartsRun s l ∧ ¬ Overtaken s)
      (startManager true db requests) ls)
    (hrun : exec (managerStep true) (startManager true db requests) ls = some x) {p : ℕ}
    (hover : x.progress p = .ended) (hfailed : ¬ x.Failed p) {i : Incident}
    (hi : i ∈ x.state.db.incidents) (hopen : i.status = .«open») (hsource : i.source = .automatic)
    {ruleKey : String} (hrule : i.ruleKey = some ruleKey)
    (hsees : x.SeesSignal p i.deploymentId ruleKey) : x.state.db.HasAutomaticRun i.id := by
  have hkeep : ∀ s l t, Orderly db s ∧ Tended s → StartsRun s l ∧ ¬ Overtaken s →
      managerStep true s l = some t → Orderly db t ∧ Tended t :=
    fun s l t hs hl hstep => ⟨hs.1.step hstep, hs.2.step hs.1 hl.1 hl.2 hstep⟩
  obtain ⟨-, htended⟩ := exec_invariant hkeep
    ⟨orderly_start hdb hscope hpasses, tended_start hruns⟩ halong hrun
  rcases htended.run i hi hopen hsource with hrun | ⟨j, row, hj, hidentity⟩
  · exact hrun
  · have hdecided := htended.decided p hover hfailed _ _ hsees
    simp only [Incident.identity, Prod.mk.injEq] at hidentity
    obtain ⟨-, -, -, hdeployment, -, hkey⟩ := hidentity
    exact absurd ⟨hdeployment, hkey.trans hrule⟩ (hdecided.opened j row hj)

/-! ### Two passes of one instance -/

/-- The database is not there. -/
def unreachable : ℕ → Choice := fun _ => ⟨some "connection refused", 2000, "a", [], [], 0⟩

/-- The start of the run fails in the first pass; the second one meets no failure. -/
def startFails : List (ℕ × (ℕ → Choice)) :=
  [0, 0, 0, 0, 2, 2, 3, 3].map (fun i => (i, calm "a")) ++ [(3, unreachable)] ++
    [2, 0, 0, 1, 1, 1, 1, 4, 4, 5, 5, 4, 1, 1].map fun i => (i, calm "a")

/-- Without failures the incident has its run after the second pass. -/
theorem second_pass_finds_run : ∃ x,
    exec (managerStep true) (startManager true shop [.detect 1, .detect 1]) onePassAfterTheOther =
      some x ∧
    x.progress 1 = .ended ∧ ∃ i ∈ x.state.db.incidents, x.state.db.HasAutomaticRun i.id := by
  -- what the schedule leaves, evaluated once
  have hfacts : (exec (managerStep true) (startManager true shop [.detect 1, .detect 1])
      onePassAfterTheOther).map (fun x => decide (x.progress 1 = .ended ∧ 1 ∉ x.failures ∧
        x.state.db.incidents.map (OpenAutomatic "dep" "health-status-failed" ·) = [true] ∧
        x.fibers[5]?.map (fun f => (f.root, f.request.signalKey)) =
          some (1, some ("dep", "health-status-failed")))) = some true := by decide
  obtain ⟨x, hx, hvalues⟩ := Option.map_eq_some_iff.mp hfacts
  obtain ⟨hover, hfailures, hincidents, hsees⟩ := of_decide_eq_true hvalues
  obtain ⟨i, hrows, hi⟩ := List.map_eq_singleton_iff.mp hincidents
  obtain ⟨f, hf, hkey⟩ := Option.map_eq_some_iff.mp hsees
  obtain ⟨hopen, hsource, hdeployment, hrule⟩ := of_decide_eq_true hi
  obtain ⟨hroot, hsignal⟩ := Prod.mk.inj hkey
  have hmem : i ∈ x.state.db.incidents := hrows ▸ List.mem_singleton.mpr rfl
  refine ⟨x, hx, hover, i, hmem, ?_⟩
  -- the pass was not interrupted, so the theorem applies
  refine automatic_incident_has_run_unless_interrupted (p := 1) shop_consistent shop_scope ?_ ?_ ?_
    hx hover ?_ hmem hopen hsource hrule ?_
  · intro r hr
    simp only [List.mem_cons, List.not_mem_nil, or_false, or_self] at hr
    exact ⟨1, hr⟩
  · intro i hi
    cases hi
  · decide
  · exact fun hfailed => hfailures hfailed.mem_failures
  · rw [hdeployment]
    exact ⟨5, f, hf, hroot, hsignal⟩

/-- The incident of the first pass is updated by the second one, which meets no
failure, and has no run. -/
theorem updated_incident_has_no_run : ∃ x,
    exec (managerStep true) (startManager true shop [.detect 1, .detect 1]) startFails = some x ∧
    x.progress 1 = .ended ∧ ¬ x.Failed 1 ∧
    ∃ i ∈ x.state.db.incidents, i.status = .«open» ∧ i.source = .automatic ∧
      (∃ ruleKey, i.ruleKey = some ruleKey ∧ x.SeesSignal 1 i.deploymentId ruleKey) ∧
      ¬ x.state.db.HasAutomaticRun i.id := by
  have hfacts : (exec (managerStep true) (startManager true shop [.detect 1, .detect 1])
      startFails).map (fun x => decide (x.progress 1 = .ended ∧ 1 ∉ x.failures ∧
        x.state.db.incidents.map (OpenAutomatic "dep" "health-status-failed" ·) = [true] ∧
        x.state.db.runs = [] ∧ x.fibers[5]?.map (fun f => (f.root, f.request.signalKey)) =
          some (1, some ("dep", "health-status-failed")))) = some true := by decide
  obtain ⟨x, hx, hvalues⟩ := Option.map_eq_some_iff.mp hfacts
  obtain ⟨hover, hfailures, hincidents, hruns, hsees⟩ := of_decide_eq_true hvalues
  obtain ⟨i, hrows, hi⟩ := List.map_eq_singleton_iff.mp hincidents
  obtain ⟨f, hf, hkey⟩ := Option.map_eq_some_iff.mp hsees
  obtain ⟨hopen, hsource, hdeployment, hrule⟩ := of_decide_eq_true hi
  obtain ⟨hroot, hsignal⟩ := Prod.mk.inj hkey
  have hmem : i ∈ x.state.db.incidents := hrows ▸ List.mem_singleton.mpr rfl
  refine ⟨x, hx, hover, fun hfailed => ?_, i, hmem, hopen, hsource, ⟨_, hrule, ?_⟩, ?_⟩
  · exact hfailures hfailed.mem_failures
  · rw [hdeployment]
    exact ⟨5, f, hf, hroot, hsignal⟩
  · rintro ⟨run, hrun, -⟩
    rw [hruns] at hrun
    cases hrun

end NexCause.Incidents
