/-
NexCause/IncidentTasks.lean

What the functions of the incident service do with the answers they get
(`incidentPolicy_lawful`): the deployment of a new incident is one they have
read, an update by the detector comes right after the query that has found its
row, a creation by the detector right after the query that has found none, and
a run by the detector right after the creation of its incident.
-/
import NexCause.IncidentTables

namespace NexCause.Incidents

open Program Prog Transition

/-! ### What the functions do -/

/-- The sample is one of the workspace, with its deployment. -/
structure SampleOf (deployments : List Deployment) (ws : String) (sample : Sample) : Prop where
  mem : sample.deployment ∈ deployments
  deployment : sample.deployment.id = sample.deploymentId
  workspace : sample.deployment.workspaceId = ws

/-- A job of a detection pass is about a sample that has been read. -/
def Job.Valid (deployments : List Deployment) : Job → Prop
  | .openAutomatic ws sample _ => SampleOf deployments ws sample
  | _ => True

/-- What a function remembers of its last call. -/
inductive Seen
  | nothing
  | found (row : Incident)
  | absent (ws deploymentId ruleKey : String)
  | created (row : Incident)
  | updated (row : Incident)
  | started (run : Run)
  deriving DecidableEq, Repr

def seen : (c : Await Job Call) → Except IncidentError (Await.Result Call.Result c) → Seen
  | .call (.statement _ (.findOpenIncident _ _)), .ok (some row) => .found row
  | .call (.statement ws (.findOpenIncident deploymentId ruleKey)), .ok none =>
      .absent ws deploymentId ruleKey
  | .call (.statement _ (.createIncident _)), .ok row => .created row
  | .call (.statement _ (.updateIncident _ _)), .ok row => .updated row
  | .call (.transaction _ _), .ok run => .started run
  | _, _ => .nothing

/-- What the answers say of themselves. -/
def Answered (deployments : List Deployment) :
    (c : Await Job Call) → Except IncidentError (Await.Result Call.Result c) → Prop
  | .call (.statement ws (.findDeployment id)), r =>
      ∀ d, r = .ok (some d) → d ∈ deployments ∧ d.id = id ∧ d.workspaceId = ws
  | .call (.statement ws (.findSamples _)), r =>
      ∀ samples, r = .ok samples → ∀ s ∈ samples, SampleOf deployments ws s
  | .call (.statement ws (.findOpenIncident deploymentId ruleKey)), r =>
      ∀ row, r = .ok (some row) → row.workspaceId = ws ∧ row.deploymentId = deploymentId ∧
        row.ruleKey = some ruleKey
  | .call (.statement ws (.createIncident data)), r => ∀ row, r = .ok row → ∃ x, row = data.row ws x
  | _, _ => True

/-- A new incident of the deployment of a workspace: opened by hand, or by the
detector, which has just found none for this deployment and rule. -/
def Plans (deployments : List Deployment) (ws : String) (data : IncidentData) (g : Seen) : Prop :=
  (∃ d ∈ deployments, d.id = data.deploymentId ∧ d.workspaceId = ws ∧ d.appId = data.appId) ∧
  (data.source = .manual ∧ data.ruleKey = none ∨
    data.source = .automatic ∧
      ∃ ruleKey, data.ruleKey = some ruleKey ∧ g = .absent ws data.deploymentId ruleKey)

/-- What a function may do next: the detector updates the row it has just
found, and starts a run for the incident it has just created. -/
def Allowed (deployments : List Deployment) : Await Job Call → Seen → Prop
  | .all jobs, _ => ∀ job ∈ jobs, job.Valid deployments
  | .call (.statement ws (.createIncident data)), g => Plans deployments ws data g
  | .call (.statement ws (.updateIncident id (.detected _ _ _ _))), g =>
      ∃ row, g = .found row ∧ row.id = id ∧ row.workspaceId = ws
  | .call (.statement _ (.updateIncident _ .resolved)), g => g = .nothing
  | .call (.transaction ws (.startForIncident id source)), g =>
      ∀ row, g = .created row → ws = row.workspaceId ∧ id = row.id ∧ source = .automatic
  | .call c, g => c.Issued ∧ ∀ row, g ≠ .created row

/-- The policy of the incident service. -/
def incidentPolicy (deployments : List Deployment) :
    Policy Job Call Call.Result IncidentError Seen where
  valid := Job.Valid deployments
  first := .nothing
  track _ e := seen e.call e.answer
  allowed e := Answered deployments e.call e.answer
  pre := Allowed deployments

/-- How a function ends: the detector has recorded its signal on an incident,
and started a run for a new one. -/
def Concludes (autoRcaEnabled : Bool) : Job → Except IncidentError Unit → Seen → Prop
  | .openAutomatic _ _ _, .ok (), .updated _ => True
  | .openAutomatic _ _ _, .ok (), .started _ => True
  | .openAutomatic _ _ _, .ok (), .created _ => autoRcaEnabled = false
  | .openAutomatic _ _ _, .ok (), _ => False
  | _, _, _ => True

section Programs

variable {deployments : List Deployment} {autoRcaEnabled : Bool}

/-- A read or a call about `isDetecting`: nothing is asked of it. -/
theorem allowed_of_reads {c : Call} (h : c.Reads) {g : Seen} (hg : ∀ row, g ≠ .created row) :
    (incidentPolicy deployments).pre (.call c) g := by
  cases c with
  | transaction ws t => exact h.elim
  | claimDetection i => exact ⟨trivial, hg⟩
  | endDetection i => exact ⟨trivial, hg⟩
  | statement ws c =>
    cases c with
    | createIncident data => exact h.elim
    | updateIncident id change => exact h.elim
    | createRun data => exact h.elim
    | createRunEvent id type source => exact h.elim
    | _ => exact ⟨trivial, hg⟩

theorem issued_of_allowed {c : Call} {g : Seen} (h : Allowed deployments (.call c) g) :
    c.Issued := by
  cases c with
  | statement ws c =>
    cases c with
    | createRun data => exact h.1
    | createRunEvent id type source => exact h.1
    | _ => trivial
  | _ => trivial

theorem openAutomaticIncident_meets {ws : String} {sample : Sample} {signal : IncidentSignal}
    (hsample : SampleOf deployments ws sample) :
    (openAutomaticIncident autoRcaEnabled ws sample signal).Meets
      (incidentPolicy deployments).contract
      (Concludes autoRcaEnabled (.openAutomatic ws sample signal)) .nothing := by
  apply Policy.await_bind_meets
  · exact ⟨trivial, fun row h => nomatch h⟩
  · intro existing hanswered
    cases existing with
    | some row =>
      -- the row that was found is updated
      obtain ⟨hws, -, -⟩ := hanswered row rfl
      apply Policy.await_bind_meets
      · exact ⟨row, rfl, rfl, hws⟩
      · exact fun _ _ => trivial
      · exact fun _ => trivial
    -- none was open: the new row is of the sample and the rule
    | none =>
      apply Policy.await_bind_meets
      · refine ⟨⟨sample.deployment, hsample.mem, hsample.deployment, hsample.workspace, rfl⟩, .inr ⟨rfl, ?_⟩⟩
        exact ⟨signal.ruleKey, rfl, rfl⟩
      · intro incident hcreated
        obtain ⟨x, rfl⟩ := hcreated incident rfl
        cases autoRcaEnabled with
        | false => rfl
        -- and its run is started
        | true =>
          apply Policy.await_bind_meets
          · intro row hrow
            obtain rfl := Seen.created.inj hrow
            exact ⟨rfl, rfl, rfl⟩
          · exact fun _ _ => trivial
          · exact fun _ => trivial
      · exact fun _ => trivial
  · exact fun _ => trivial

/-- A function that is about to do, and has done, no more than read. -/
abbrev Quiet {α : Type} (deployments : List Deployment) (p : Task α) : Prop :=
  (incidentPolicy deployments).Keeps .nothing p

theorem await_quiet {c : Call} (h : c.Reads)
    (hseen : ∀ r : Except IncidentError c.Result, seen (.call c) r = .nothing) :
    Quiet deployments (await c : Task c.Result) := by
  apply Policy.await_keeps
  · exact allowed_of_reads h fun row hrow => nomatch hrow
  · exact hseen

/-- A function that begins with a read. -/
theorem read_bind_quiet {β : Type} {c : Call} {f : c.Result → Task β}
    {Q : Except IncidentError β → Seen → Prop} (h : c.Reads)
    (hseen : ∀ r : Except IncidentError c.Result, seen (.call c) r = .nothing)
    (hf : ∀ a, (f a).Meets (incidentPolicy deployments).contract Q .nothing)
    (hQ : ∀ e, Q (.error e) .nothing) :
    (await c >>= f).Meets (incidentPolicy deployments).contract Q .nothing :=
  (await_quiet h hseen).bind hf hQ

theorem findOne_quiet (ws id : String) : Quiet deployments (findOne ws id) := by
  apply read_bind_quiet
  · trivial
  · exact fun _ => rfl
  · intro incident
    cases incident <;> rfl
  · exact fun _ => rfl

/-- What `findDeployment` returns. -/
theorem findDeployment_meets (ws id : String) :
    (findDeployment ws id).Meets (incidentPolicy deployments).contract
      (fun r g => g = .nothing ∧
        ∀ d, r = .ok d → d ∈ deployments ∧ d.id = id ∧ d.workspaceId = ws) .nothing := by
  apply Policy.await_bind_meets
  · apply allowed_of_reads
    · trivial
    · exact fun row hrow => nomatch hrow
  · intro found hanswered
    cases found with
    | none => exact ⟨rfl, fun d hd => nomatch hd⟩
    | some deployment =>
      refine ⟨rfl, fun d hd => ?_⟩
      obtain rfl := Except.ok.inj hd
      exact hanswered deployment rfl
  · exact fun e => ⟨rfl, fun d hd => nomatch hd⟩

theorem detectDeploymentIncidents_quiet (ws deploymentId : String) :
    Quiet deployments (detectDeploymentIncidents ws deploymentId) := by
  apply Policy.await_bind_meets
  · apply allowed_of_reads
    · trivial
    · exact fun row hrow => nomatch hrow
  · intro samples hanswered
    cases samples with
    | nil => rfl
    | cons latest rest =>
      apply Policy.awaitAll_keeps
      · intro job hjob
        obtain ⟨signal, -, rfl⟩ := List.mem_map.mp hjob
        exact hanswered _ rfl latest List.mem_cons_self
      · exact fun _ => rfl
  · exact fun _ => rfl

/-- The loop over the workspaces, under any policy that does not mind what it
awaits. -/
theorem detectWorkspaces_keeps {γ : Type} {P : Policy Job Call Call.Result IncidentError γ} {g : γ}
    (hread : ∀ ws, P.pre (.call (.statement ws .findRecentDeploymentIds)) g)
    (hseen : ∀ ws r, P.track g ⟨.call (.statement ws .findRecentDeploymentIds), r⟩ = g)
    (hjobs : ∀ jobs, (∀ job ∈ jobs, ∃ ws id, job = .detectDeployment ws id) → P.pre (.all jobs) g)
    (hdone : ∀ jobs r, P.track g ⟨.all jobs, r⟩ = g) (workspaces : List String) :
    P.Keeps g (detectWorkspaces workspaces) := by
  induction workspaces with
  | nil => rfl
  | cons ws rest ih =>
    apply Policy.Keeps.bind (Policy.await_keeps (hread ws) (hseen ws))
    · intro deploymentIds
      apply Policy.Keeps.bind
      · apply Policy.awaitAll_keeps _ (hdone _)
        apply hjobs
        intro job hjob
        obtain ⟨id, -, rfl⟩ := List.mem_map.mp hjob
        exact ⟨ws, id, rfl⟩
      · exact fun _ => ih
      · exact fun _ => rfl
    · exact fun _ => rfl

theorem detectWorkspaces_quiet (workspaces : List String) :
    Quiet deployments (detectWorkspaces workspaces) := by
  apply detectWorkspaces_keeps
  · intro ws
    apply allowed_of_reads
    · trivial
    · exact fun row hrow => nomatch hrow
  · exact fun ws r => rfl
  · intro jobs hjobs job hjob
    obtain ⟨ws, id, rfl⟩ := hjobs job hjob
    trivial
  · exact fun jobs r => rfl

theorem detectIncidents_quiet (i : ℕ) : Quiet deployments (detectIncidents i) := by
  apply read_bind_quiet
  · trivial
  · exact fun _ => rfl
  · intro claimed
    cases claimed with
    | false => rfl
    | true =>
      apply Policy.Keeps.withFinally
      · apply read_bind_quiet
        · trivial
        · exact fun _ => rfl
        · exact detectWorkspaces_quiet
        · exact fun _ => rfl
      · apply await_quiet
        · trivial
        · exact fun _ => rfl
  · exact fun _ => rfl

/-- **Every job** follows the policy. -/
theorem job_meets (job : Job) (hvalid : job.Valid deployments) :
    (job.task autoRcaEnabled).Meets (incidentPolicy deployments).contract
      (Concludes autoRcaEnabled job) .nothing := by
  cases job with
  -- the one task that opens an automatic incident
  | openAutomatic ws sample signal => exact openAutomaticIncident_meets hvalid
  -- those that start others ask for nothing themselves
  | detectDeployment ws id =>
    exact ((detectDeploymentIncidents_quiet ws id).caught ()).mono fun _ _ _ => trivial
  | request r =>
    cases r with
    | detect i => exact ((detectIncidents_quiet i).caught ()).mono fun _ _ _ => trivial
    -- a manual incident is of the deployment that was found
    | createManual ws deploymentId dto =>
      apply Meets.bind (P := fun _ _ => True)
      · apply (findDeployment_meets ws deploymentId).bind
        · rintro d _ ⟨rfl, hd⟩
          obtain ⟨hmem, -, hws⟩ := hd d rfl
          apply Policy.await_meets
          · exact ⟨⟨d, hmem, rfl, hws, rfl⟩, .inl ⟨rfl, rfl⟩⟩
          · exact fun _ _ => trivial
        · exact fun _ _ _ => trivial
      · exact fun _ _ _ => trivial
      · exact fun _ _ _ => trivial
    | resolve ws id =>
      apply Meets.bind (P := fun _ _ => True)
      · apply (findOne_quiet ws id).bind
        · intro _
          apply Policy.await_meets
          · rfl
          · exact fun _ _ => trivial
        · exact fun _ => trivial
      · exact fun _ _ _ => trivial
      · exact fun _ _ _ => trivial
    | startForIncident ws incidentId source =>
      apply Policy.await_bind_meets
      · exact fun row hrow => nomatch hrow
      · exact fun _ _ => trivial
      · exact fun _ => trivial
    | startForDeployment ws deploymentId =>
      apply Policy.await_bind_meets
      · exact ⟨trivial, fun row hrow => nomatch hrow⟩
      · exact fun _ _ => trivial
      · exact fun _ => trivial

end Programs
/-! ### The record of a signal -/

section Signals

variable {autoRcaEnabled : Bool} {ws : String} {sample : Sample} {signal : IncidentSignal}

abbrev TaskExchange : Type := Exchange (Await Job Call) (Await.Result Call.Result) IncidentError

/-- The query of `openAutomaticIncident`, with its answer. -/
def asked (ws : String) (sample : Sample) (signal : IncidentSignal) (r : Option Incident) :
    TaskExchange :=
  ⟨.call (.statement ws (.findOpenIncident sample.deploymentId signal.ruleKey)), .ok r⟩

/-- Its update, with its answer. -/
def changed (ws id : String) (sample : Sample) (signal : IncidentSignal) (r : Incident) :
    TaskExchange :=
  ⟨.call (.statement ws (.updateIncident id (detectedChange sample signal))), .ok r⟩

/-- Its creation, with its answer. -/
def opened (ws : String) (sample : Sample) (signal : IncidentSignal) (r : Incident) :
    TaskExchange :=
  ⟨.call (.statement ws (.createIncident (automaticIncident sample signal))), .ok r⟩

/-- The start of its run, with its answer. -/
def launched (ws id : String) (r : Run) : TaskExchange :=
  ⟨.call (.transaction ws (.startForIncident id .automatic)), .ok r⟩

/-- Where `openAutomaticIncident` has returned. -/
theorem openAutomaticIncident_returned {own : List TaskExchange}
    (h : (openAutomaticIncident autoRcaEnabled ws sample signal).Reaches own (ret ())) :
    (∃ row r, own = [asked ws sample signal (some row), changed ws row.id sample signal r]) ∨
    ∃ r rest, own = asked ws sample signal none :: opened ws sample signal r :: rest ∧
      (autoRcaEnabled = true → ∃ run, rest = [launched ws r.id run]) := by
  obtain ⟨existing, own₁, rfl, h₁⟩ := reaches_perform_ret h
  cases existing with
  | some row =>
    obtain ⟨r, own₂, rfl, h₂⟩ := reaches_perform_ret h₁
    obtain ⟨rfl, -⟩ := reaches_ret h₂
    exact .inl ⟨row, r, rfl⟩
  | none =>
    obtain ⟨r, own₂, rfl, h₂⟩ := reaches_perform_ret h₁
    refine .inr ⟨r, own₂, rfl, ?_⟩
    rintro rfl
    obtain ⟨run, own₃, rfl, h₃⟩ := reaches_perform_ret h₂
    obtain ⟨rfl, -⟩ := reaches_ret h₃
    exact ⟨run, rfl⟩

/-- Where `openAutomaticIncident` is at a call. -/
theorem openAutomaticIncident_at {own : List TaskExchange} {c : Await Job Call}
    {k : Except IncidentError (Await.Result Call.Result c) → Task Unit}
    (h : (openAutomaticIncident autoRcaEnabled ws sample signal).Reaches own (call c k)) :
    (own = [] ∧ c = .call (.statement ws (.findOpenIncident sample.deploymentId signal.ruleKey))) ∨
    (∃ row, own = [asked ws sample signal (some row)] ∧
      c = .call (.statement ws (.updateIncident row.id (detectedChange sample signal)))) ∨
    (own = [asked ws sample signal none] ∧
      c = .call (.statement ws (.createIncident (automaticIncident sample signal)))) ∨
    ∃ r, own = [asked ws sample signal none, opened ws sample signal r] ∧
      c = .call (.transaction ws (.startForIncident r.id .automatic)) := by
  obtain ⟨rfl, rfl⟩ | ⟨existing, own₁, rfl, h₁⟩ := reaches_perform_call h
  · exact .inl ⟨rfl, rfl⟩
  cases existing with
  | some row =>
    obtain ⟨rfl, rfl⟩ | ⟨r, own₂, rfl, h₂⟩ := reaches_perform_call h₁
    · exact .inr (.inl ⟨row, rfl, rfl⟩)
    · cases (reaches_ret h₂).2
  | none =>
    obtain ⟨rfl, rfl⟩ | ⟨r, own₂, rfl, h₂⟩ := reaches_perform_call h₁
    · exact .inr (.inr (.inl ⟨rfl, rfl⟩))
    cases autoRcaEnabled with
    | false => cases (reaches_ret h₂).2
    | true =>
      obtain ⟨rfl, rfl⟩ | ⟨run, own₃, rfl, h₃⟩ := reaches_perform_call h₂
      · exact .inr (.inr (.inr ⟨r, rfl, rfl⟩))
      · cases (reaches_ret h₃).2

end Signals

/-! ### The policy is lawful -/

/-- What stays as it is while the service runs. -/
structure Steady (db₀ : Database) (s : System) : Prop where
  consistent : Consistent s.db
  scope : OneScope s.db
  apps : s.db.apps = db₀.apps
  deployments : s.db.deployments = db₀.deployments
/-- **Every call** that the policy allows keeps the tables steady. -/
theorem Steady.serve {db₀ : Database} {s : System} (h : Steady db₀ s) {c : Call} {g : Seen}
    (hpre : Allowed db₀.deployments (.call c) g) (env : ℕ → Choice) :
    Steady db₀ (serve c env s).2 := by
  have heffect := serve_effect (issued_of_allowed hpre) env s
  obtain ⟨happs, hdeployments⟩ := heffect.tables
  refine ⟨h.consistent.effect heffect, ?_, happs.trans h.apps, hdeployments.trans h.deployments⟩
  generalize (Incidents.serve c env s).2.db = db' at heffect
  generalize (Incidents.serve c env s).1 = r at heffect
  cases heffect with
  | nothing => exact h.scope
  | created x hinsert =>
    apply h.scope.withIncident h.consistent hinsert
    obtain ⟨⟨d, hd, hid, -, happ⟩, -⟩ := hpre
    exact ⟨d, h.deployments ▸ hd, hid, happ⟩
  | updated now hrow => exact h.scope.updated _ _ (IncidentChange.apply_identity now _)
  | started x hincident =>
    apply h.scope.withRun h.consistent
    obtain ⟨hmem, -, -⟩ := Database.incident_some hincident
    exact ⟨_, hmem, rfl, rfl⟩
  | requested x y hdeployment happ hid hsource hrule hinsert =>
    obtain ⟨hmem, -, -⟩ := Database.deployment_some hdeployment
    apply (h.scope.withIncident h.consistent hinsert _).withRun
      (h.consistent.withIncident hinsert)
    · exact ⟨_, List.mem_append_right _ (List.mem_singleton.mpr rfl), rfl, hid.symm⟩
    · exact ⟨_, hmem, hid.symm, happ.symm⟩

/-- The rows that `findFirst` may take. -/
theorem Database.mem_openIncidents {db : Database} {ws deploymentId ruleKey : String}
    {row : Incident} : row ∈ db.openIncidents ws deploymentId ruleKey ↔
      row ∈ db.incidents ∧ row.workspaceId = ws ∧ row.deploymentId = deploymentId ∧
        row.status = .«open» ∧ row.ruleKey = some ruleKey := by
  unfold openIncidents
  rw [List.mem_filter, decide_eq_true_iff]

/-- `findFirst` of an open incident finds one if there is one. -/
theorem serve_findOpenIncident {ws deploymentId ruleKey : String} {env : ℕ → Choice} {s : System}
    {found : Option Incident}
    (h : (serve (.statement ws (.findOpenIncident deploymentId ruleKey)) env s).1 = .ok found) :
    (∀ row, found = some row → row ∈ s.db.openIncidents ws deploymentId ruleKey) ∧
      (found = none → s.db.openIncidents ws deploymentId ruleKey = []) := by
  replace h : (statement ws (.findOpenIncident deploymentId ruleKey) (env 0) s.db).1 = .ok found := h
  have hread : (∃ e, statement ws (.findOpenIncident deploymentId ruleKey) (env 0) s.db =
      (.error e, s.db)) ∨ _ := statement_read (c := .findOpenIncident deploymentId ruleKey) rfl
  rcases hread with ⟨e, herror⟩ | hok
  · rw [herror] at h
    cases h
  · rw [hok] at h
    obtain rfl := Except.ok.inj h
    refine ⟨fun row hrow => List.mem_of_getElem? hrow, fun hnone => ?_⟩
    rw [List.getElem?_eq_none_iff] at hnone
    by_contra hne
    have hpos : 0 < (s.db.openIncidents ws deploymentId ruleKey).length :=
      List.length_pos_iff.mpr hne
    have hlt := Nat.mod_lt (env 0).pick hpos
    omega

/-- An incident that is created has the data that it was created with. -/
theorem serve_createIncident {ws : String} {data : IncidentData} {env : ℕ → Choice} {s : System}
    {row : Incident} (h : (serve (.statement ws (.createIncident data)) env s).1 = .ok row) :
    ∃ x, row = data.row ws x := by
  replace h : (statement ws (.createIncident data) (env 0) s.db).1 = .ok row := h
  rcases statement_createIncident ws data (env 0) s.db with ⟨e, herror⟩ | ⟨-, hok⟩
  · rw [herror] at h
    cases h
  · rw [hok] at h
    exact ⟨_, (Except.ok.inj h).symm⟩

/-- What a search for an open incident has seen is so in the tables. -/
def Seen.Holds (c : Call) (s : System) : Seen → Prop
  | .found row => ∃ ws deploymentId ruleKey,
      c = .statement ws (.findOpenIncident deploymentId ruleKey) ∧
        row ∈ s.db.openIncidents ws deploymentId ruleKey
  | .absent ws deploymentId ruleKey =>
      c = .statement ws (.findOpenIncident deploymentId ruleKey) ∧
        s.db.openIncidents ws deploymentId ruleKey = []
  | _ => True

theorem seen_holds (c : Call) (env : ℕ → Choice) (s : System) :
    (seen (.call c) (serve c env s).1).Holds c s := by
  generalize hr : (serve c env s).1 = r
  cases c with
  | claimDetection i => trivial
  | endDetection i => trivial
  | transaction ws t => cases r <;> trivial
  | statement ws c =>
    cases c with
    | findOpenIncident deploymentId ruleKey =>
      cases r with
      | error e => trivial
      | ok found =>
        cases found with
        | none => exact ⟨rfl, (serve_findOpenIncident hr).2 rfl⟩
        | some row => exact ⟨ws, deploymentId, ruleKey, rfl, (serve_findOpenIncident hr).1 row rfl⟩
    | _ => cases r <;> trivial

/-- A sample with its deployment. -/
theorem Database.withDeployment_some {db : Database} {ws : String} {s : HealthSample}
    {sample : Sample} (h : db.withDeployment ws s = some sample) :
    SampleOf db.deployments ws sample := by
  obtain ⟨d, hd, rfl⟩ := Option.map_eq_some_iff.mp h
  have hkeys := List.find?_some hd
  obtain ⟨hid, hws⟩ := of_decide_eq_true hkeys
  exact ⟨List.mem_of_find?_eq_some hd, hid, hws⟩

/-- The answers say of themselves what they should. -/
theorem answered_serve {db₀ : Database} {s : System} (h : Steady db₀ s) (c : Call)
    (env : ℕ → Choice) : Answered db₀.deployments (.call c) (serve c env s).1 := by
  cases c with
  | transaction ws t => trivial
  | claimDetection i => trivial
  | endDetection i => trivial
  | statement ws c =>
    cases c with
    -- what is found belongs to the workspace that asked
    | findDeployment id =>
      intro d hd
      replace hd : (statement ws (.findDeployment id) (env 0) s.db).1 = .ok (some d) := hd
      rcases statement_findDeployment ws id (env 0) s.db with ⟨e, herror⟩ | hok
      · rw [herror] at hd
        cases hd
      · rw [hok] at hd
        obtain ⟨hmem, hid, hws⟩ := Database.deployment_some (Except.ok.inj hd)
        exact ⟨h.deployments ▸ hmem, hid, hws⟩
    | findSamples id =>
      intro samples hsamples sample hsample
      replace hsamples : (statement ws (.findSamples id) (env 0) s.db).1 = .ok samples := hsamples
      have hread : (∃ e, statement ws (.findSamples id) (env 0) s.db = (.error e, s.db)) ∨ _ :=
        statement_read (c := .findSamples id) rfl
      rcases hread with ⟨e, herror⟩ | hok
      · rw [herror] at hsamples
        cases hsamples
      · rw [hok] at hsamples
        obtain rfl := Except.ok.inj hsamples
        obtain ⟨row, -, hrow⟩ := List.mem_filterMap.mp hsample
        exact h.deployments ▸ Database.withDeployment_some hrow
    | findOpenIncident deploymentId ruleKey =>
      intro row hrow
      obtain ⟨-, hws, hid, -, hrule⟩ :=
        Database.mem_openIncidents.mp ((serve_findOpenIncident hrow).1 row rfl)
      exact ⟨hws, hid, hrule⟩
    | createIncident data => exact fun row hrow => serve_createIncident hrow
    | _ => trivial

/-- **The policy is lawful.** -/
theorem incidentPolicy_lawful (autoRcaEnabled : Bool) (db₀ : Database) :
    (incidentPolicy db₀.deployments).Lawful (Job.task autoRcaEnabled) serve
      (Concludes autoRcaEnabled) (Steady db₀) where
  meets := job_meets
  starts := fun _ _ h => h
  awaits := fun _ _ => trivial
  serves := fun c _ env _ hw hpre => ⟨answered_serve hw c env, hw.serve hpre env⟩

end NexCause.Incidents
