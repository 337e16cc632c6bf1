/-
NexCause/IncidentTables.lean

What the calls of the incident service do to the database (`serve_effect`), and
what they keep: primary keys and foreign keys (`Consistent.effect`), and, if
what is inserted is about one deployment, that rows are (`OneScope`).
-/
import Mathlib.Data.List.Nodup
import NexCause.IncidentsService

namespace NexCause.Incidents

open Program Prog Transition

/-! ### Effects -/

/-- A call that writes no row. -/
def Call.Reads : Call → Prop
  | .statement _ (.createIncident _) => False
  | .statement _ (.updateIncident _ _) => False
  | .statement _ (.createRun _) => False
  | .statement _ (.createRunEvent _ _ _) => False
  | .transaction _ _ => False
  | _ => True

/-- A call that the functions make: runs are created in transactions only. -/
def Call.Issued : Call → Prop
  | .statement _ (.createRun _) => False
  | .statement _ (.createRunEvent _ _ _) => False
  | _ => True

/-- The tables after a run has been created. -/
def Database.withRun (db : Database) (run : Run) : Database :=
  { db with
      runs := db.runs ++ [run]
      events := db.events ++ [⟨run.id, run.workspaceId, "run.created", run.source⟩] }

def Database.withIncident (db : Database) (incident : Incident) : Database :=
  { db with incidents := db.incidents ++ [incident] }

/-- The tables after one row has been updated. -/
def Database.updated (db : Database) (ws id : String) (f : Incident → Incident) : Database :=
  { db with incidents := db.incidents.map fun i => if i.id = id ∧ i.workspaceId = ws then f i else i }

/-- An incident may be inserted: its id is new, and its deployment is there. -/
structure Insertable (db : Database) (incident : Incident) : Prop where
  fresh : ∀ i ∈ db.incidents, i.id ≠ incident.id
  deployment : ∃ d ∈ db.deployments, d.id = incident.deploymentId ∧ d.workspaceId = incident.workspaceId

/-- What a call does, with its answer. -/
inductive Effect (db : Database) : (c : Call) → Except IncidentError c.Result → Database → Prop
  | nothing {c : Call} {r : Except IncidentError c.Result} (h : c.Reads ∨ ∃ e, r = .error e) :
      Effect db c r db
  | created {ws : String} {data : IncidentData} (x : Choice) (h : Insertable db (data.row ws x)) :
      Effect db (.statement ws (.createIncident data)) (.ok (data.row ws x))
        (db.withIncident (data.row ws x))
  | updated {ws id : String} {change : IncidentChange} {row : Incident} (now : ℕ)
      (h : db.incident ws id = some row) :
      Effect db (.statement ws (.updateIncident id change)) (.ok (change.apply now row))
        (db.updated ws id (change.apply now))
  | started {ws id : String} {source : RcaRunSource} {incident : Incident} (x : Choice)
      (h : db.incident ws id = some incident) :
      Effect db (.transaction ws (.startForIncident id source))
        (.ok (RunData.row ws x ⟨incident.id, incident.deploymentId, normalizeRcaRunSource source⟩))
        (db.withRun
          (RunData.row ws x ⟨incident.id, incident.deploymentId, normalizeRcaRunSource source⟩))
  | requested {ws id : String} {deployment : Deployment} {data : IncidentData} (x y : Choice)
      (h : db.deployment ws id = some deployment) (happ : data.appId = deployment.appId)
      (hid : data.deploymentId = deployment.id) (hsource : data.source = .manual)
      (hrule : data.ruleKey = none) (hinsert : Insertable db (data.row ws x)) :
      Effect db (.transaction ws (.startForDeployment id))
        (.ok (RunData.row ws y ⟨x.id, deployment.id, .manual⟩))
        ((db.withIncident (data.row ws x)).withRun (RunData.row ws y ⟨x.id, deployment.id, .manual⟩))

/-- `create` of an incident. -/
theorem statement_createIncident (ws : String) (data : IncidentData) (x : Choice) (db : Database) :
    (∃ e, statement ws (.createIncident data) x db = (.error e, db)) ∨
      Insertable db (data.row ws x) ∧
        statement ws (.createIncident data) x db =
          (.ok (data.row ws x), db.withIncident (data.row ws x)) := by
  unfold statement
  cases x.fault with
  | some message => exact .inl ⟨_, rfl⟩
  | none =>
    simp only [answer]
    split
    · exact .inl ⟨_, rfl⟩
    · rename_i hfresh
      split
      · rename_i hkeys
        obtain ⟨d, hd, heq⟩ := List.any_eq_true.mp hkeys.2
        refine .inr ⟨⟨fun i hi heq => hfresh ?_, d, hd, of_decide_eq_true heq⟩, rfl⟩
        exact List.any_eq_true.mpr ⟨i, hi, decide_eq_true heq⟩
      · exact .inl ⟨_, rfl⟩

/-- `update` of an incident. -/
theorem statement_updateIncident (ws id : String) (change : IncidentChange) (x : Choice)
    (db : Database) :
    (∃ e, statement ws (.updateIncident id change) x db = (.error e, db)) ∨
      ∃ row, db.incident ws id = some row ∧
        statement ws (.updateIncident id change) x db =
          (.ok (change.apply x.now row), db.updated ws id (change.apply x.now)) := by
  unfold statement
  cases x.fault with
  | some message => exact .inl ⟨_, rfl⟩
  | none =>
    simp only [answer]
    cases hrow : db.incident ws id with
    | none => exact .inl ⟨_, rfl⟩
    | some row => exact .inr ⟨row, rfl, rfl⟩

/-- `create` of a run. -/
theorem statement_createRun (ws : String) (data : RunData) (x : Choice) (db : Database) :
    (∃ e, statement ws (.createRun data) x db = (.error e, db)) ∨
      statement ws (.createRun data) x db =
        (.ok (data.row ws x), { db with runs := db.runs ++ [data.row ws x] }) := by
  unfold statement
  cases x.fault with
  | some message => exact .inl ⟨_, rfl⟩
  | none =>
    simp only [answer]
    split
    · exact .inl ⟨_, rfl⟩
    · split
      · exact .inr rfl
      · exact .inl ⟨_, rfl⟩

theorem statement_createRunEvent (ws id type : String) (source : RcaRunSource) (x : Choice)
    (db : Database) :
    (∃ e, statement ws (.createRunEvent id type source) x db = (.error e, db)) ∨
      statement ws (.createRunEvent id type source) x db =
        (.ok (), { db with events := db.events ++ [⟨id, ws, type, source⟩] }) := by
  unfold statement
  cases x.fault with
  | some message => exact .inl ⟨_, rfl⟩
  | none =>
    simp only [answer]
    split
    · exact .inr rfl
    · exact .inl ⟨_, rfl⟩

/-- A read, of which the answer is known when it does not fail. -/
theorem statement_read {ws : String} {c : Statement} {a : c.Result} {x : Choice} {db : Database}
    (h : answer ws c x db = (.ok a, db)) :
    (∃ e, statement ws c x db = (.error e, db)) ∨ statement ws c x db = (.ok a, db) := by
  unfold statement
  cases x.fault with
  | some message => exact .inl ⟨_, rfl⟩
  | none => exact .inr h

/-- A read changes nothing. -/
theorem statement_keeps {ws : String} {c : Statement} {x : Choice} {db : Database}
    (h : (Call.statement ws c).Reads) : (statement ws c x db).2 = db := by
  unfold statement
  cases x.fault with
  | some message => rfl
  | none =>
    cases c with
    | createIncident data => exact h.elim
    | updateIncident id change => exact h.elim
    | createRun data => exact h.elim
    | createRunEvent id type source => exact h.elim
    | _ => rfl

theorem statement_findIncident (ws id : String) (x : Choice) (db : Database) :
    (∃ e, statement ws (.findIncident id) x db = (.error e, db)) ∨
      statement ws (.findIncident id) x db = (.ok (db.incident ws id), db) :=
  statement_read (c := .findIncident id) rfl

theorem statement_findDeployment (ws id : String) (x : Choice) (db : Database) :
    (∃ e, statement ws (.findDeployment id) x db = (.error e, db)) ∨
      statement ws (.findDeployment id) x db = (.ok (db.deployment ws id), db) :=
  statement_read (c := .findDeployment id) rfl

/-! ### Transactions -/

/-- The statements of a transaction, one after another. -/
abbrev txContract (ws : String) : Contract Statement Statement.Result IncidentError Database :=
  Service.contract (statement ws) fun _ _ => True

/-- What a transaction has done if it returns. -/
def Commits (P : Run → Database → Prop) (r : Except IncidentError Run) (db : Database) : Prop :=
  ∀ run, r = .ok run → P run db

theorem tx_meets {ws : String} {c : Statement} {Q : Except IncidentError c.Result → Database → Prop}
    {db : Database} (h : ∀ x, Q (statement ws c x db).1 (statement ws c x db).2) :
    (tx c).Meets (txContract ws) Q db := by
  apply meets_perform.mpr
  refine ⟨trivial, ?_⟩
  rintro r t ⟨x, -, hserve⟩
  have hQ := h x
  rw [hserve] at hQ
  exact hQ

/-- A statement that writes nothing, and what comes after it. -/
theorem tx_bind_commits {ws : String} {c : Statement} {f : c.Result → Query Run} {db : Database}
    {P : Run → Database → Prop} (hc : (Call.statement ws c).Reads)
    (hf : ∀ x a, (statement ws c x db).1 = .ok a → (f a).Meets (txContract ws) (Commits P) db) :
    (tx c >>= f).Meets (txContract ws) (Commits P) db := by
  have hfirst : (tx c).Meets (txContract ws)
      (fun r db' => db' = db ∧ ∃ x, (statement ws c x db).1 = r) db :=
    tx_meets fun x => ⟨statement_keeps hc, x, rfl⟩
  apply hfirst.bind
  · rintro a _ ⟨rfl, x, hx⟩
    exact hf x a hx
  · rintro e _ - run hrun
    cases hrun

theorem withTenantTransaction_commits {ws : String} {callback : Query Run} {db : Database}
    {P : Run → Database → Prop} (h : callback.Meets (txContract ws) (Commits P) db) :
    (withTenantTransaction callback).Meets (txContract ws) (Commits P) db := by
  unfold withTenantTransaction
  apply tx_bind_commits (by trivial)
  intro _ _ _
  apply tx_bind_commits (by trivial)
  intro _ _ _
  apply h.bind
  · intro run db' hP
    apply tx_bind_commits (by trivial)
    intro _ _ _
    exact fun run' hrun => Except.ok.inj hrun ▸ hP run rfl
  · intro e db' _ run hrun
    cases hrun

theorem createRunTx_commits (ws : String) (data : RunData) (db : Database) :
    (createRunTx data).Meets (txContract ws)
      (Commits fun run db' => ∃ x, run = data.row ws x ∧ db' = db.withRun (data.row ws x)) db := by
  have hrun : (tx (.createRun data)).Meets (txContract ws)
      (fun r db' => (∃ e, r = .error e) ∨
        ∃ x, r = .ok (data.row ws x) ∧ db' = { db with runs := db.runs ++ [data.row ws x] }) db := by
    apply tx_meets
    intro x
    rcases statement_createRun ws data x db with ⟨e, h⟩ | h
    · rw [h]
      exact .inl ⟨e, rfl⟩
    · rw [h]
      exact .inr ⟨x, rfl, rfl⟩
  apply hrun.bind
  · rintro run db₁ (⟨e, h⟩ | ⟨x, h, rfl⟩)
    · cases h
    obtain rfl := Except.ok.inj h
    -- the event refers to the run that has just been written
    have hevent : (tx (.createRunEvent (data.row ws x).id "run.created" (data.row ws x).source)).Meets
        (txContract ws) (fun r db' => (∃ e, r = .error e) ∨ db' = db.withRun (data.row ws x))
        { db with runs := db.runs ++ [data.row ws x] } := by
      apply tx_meets
      intro y
      rcases statement_createRunEvent ws (data.row ws x).id "run.created" (data.row ws x).source y
        { db with runs := db.runs ++ [data.row ws x] } with ⟨e, h⟩ | h
      · rw [h]
        exact .inl ⟨e, rfl⟩
      · rw [h]
        exact .inr rfl
    apply hevent.bind
    · rintro _ db₂ (⟨e, h⟩ | rfl) run hrun
      · cases h
      · exact ⟨x, (Except.ok.inj hrun).symm, rfl⟩
    · rintro e db₂ - run hrun
      cases hrun
  · rintro e db₁ - run hrun
    cases hrun

/-- What a transaction does, when it returns. -/
theorem transaction_commits (ws : String) (t : Transaction) (db : Database) :
    (withTenantTransaction t.callback).Meets (txContract ws)
      (Commits fun run db' => Effect db (.transaction ws t) (.ok run) db') db := by
  apply withTenantTransaction_commits
  cases t with
  -- the incident is there: the run refers to it
  | startForIncident incidentId source =>
    apply tx_bind_commits
    · trivial
    · intro x found hfound
      rcases statement_findIncident ws incidentId x db with ⟨e, h⟩ | h
      · rw [h] at hfound
        cases hfound
      rw [h] at hfound
      obtain rfl := Except.ok.inj hfound
      cases hincident : db.incident ws incidentId with
      | none => exact fun run hrun => nomatch hrun
      | some incident =>
        apply (createRunTx_commits ws _ db).mono
        rintro r db' hcommits run rfl
        obtain ⟨y, rfl, rfl⟩ := hcommits run rfl
        exact .started y hincident
  -- the incident is made first, in the same transaction
  | startForDeployment deploymentId =>
    apply tx_bind_commits
    · trivial
    · intro x found hfound
      rcases statement_findDeployment ws deploymentId x db with ⟨e, h⟩ | h
      · rw [h] at hfound
        cases hfound
      rw [h] at hfound
      obtain rfl := Except.ok.inj hfound
      cases hdeployment : db.deployment ws deploymentId with
      | none => exact fun run hrun => nomatch hrun
      | some deployment =>
        have hcreate : ∀ data, (tx (.createIncident data)).Meets (txContract ws)
            (fun r db' => (∃ e, r = .error e) ∨ ∃ x, Insertable db (data.row ws x) ∧
              r = .ok (data.row ws x) ∧ db' = db.withIncident (data.row ws x)) db := by
          intro data
          apply tx_meets
          intro x
          rcases statement_createIncident ws data x db with ⟨e, h⟩ | ⟨hinsert, h⟩
          · rw [h]
            exact .inl ⟨e, rfl⟩
          · rw [h]
            exact .inr ⟨x, hinsert, rfl, rfl⟩
        apply (hcreate _).bind
        · rintro incident db₁ (⟨e, h⟩ | ⟨x, hinsert, h, rfl⟩)
          · cases h
          obtain rfl := Except.ok.inj h
          apply (createRunTx_commits ws _ _).mono
          rintro r db' hcommits run rfl
          obtain ⟨y, rfl, rfl⟩ := hcommits run rfl
          exact .requested x y hdeployment rfl rfl rfl rfl hinsert
        · rintro e db₁ - run hrun
          cases hrun

/-- **The effect of a call.** -/
theorem serve_effect {c : Call} (hc : c.Issued) (env : ℕ → Choice) (s : System) :
    Effect s.db c (serve c env s).1 (serve c env s).2.db := by
  cases c with
  | claimDetection i =>
    have hdb : (serve (.claimDetection i) env s).2.db = s.db := by
      simp only [serve]
      split <;> rfl
    rw [hdb]
    exact .nothing (.inl trivial)
  | endDetection i => exact .nothing (.inl trivial)
  -- a transaction has an effect if it returns, and is rolled back if not
  | transaction ws t =>
    have hcommits : Commits (fun run db' => Effect s.db (.transaction ws t) (.ok run) db')
        ((withTenantTransaction t.callback).run (statement ws) env s.db).outcome
        ((withTenantTransaction t.callback).run (statement ws) env s.db).state :=
      run_of_meets (transaction_commits ws t s.db) fun _ _ _ => trivial
    simp only [serve]
    split
    · rename_i run hrun
      exact hcommits run hrun
    · rename_i e herror
      exact .nothing (.inr ⟨e, rfl⟩)
  -- so has a single statement
  | statement ws c =>
    show Effect s.db (.statement ws c) (statement ws c (env 0) s.db).1
      (statement ws c (env 0) s.db).2
    cases c with
    | createIncident data =>
      rcases statement_createIncident ws data (env 0) s.db with ⟨e, h⟩ | ⟨hinsert, h⟩
      · rw [h]
        exact .nothing (.inr ⟨e, rfl⟩)
      · rw [h]
        exact .created _ hinsert
    | updateIncident id change =>
      rcases statement_updateIncident ws id change (env 0) s.db with ⟨e, h⟩ | ⟨row, hrow, h⟩
      · rw [h]
        exact .nothing (.inr ⟨e, rfl⟩)
      · rw [h]
        exact .updated _ hrow
    | createRun data => exact hc.elim
    | createRunEvent id type source => exact hc.elim
    | _ =>
      -- the others read
      rw [statement_keeps]
      · exact .nothing (.inl trivial)
      · trivial

/-! ### Consistent tables -/

/-- What primary keys and foreign keys keep. -/
structure Consistent (db : Database) : Prop where
  deployments : (db.deployments.map fun d => d.id).Nodup
  incidents : (db.incidents.map fun i => i.id).Nodup
  deploymentApp : ∀ d ∈ db.deployments, ∃ a ∈ db.apps, a.id = d.appId ∧ a.workspaceId = d.workspaceId
  incidentDeployment : ∀ i ∈ db.incidents, ∃ d ∈ db.deployments,
    d.id = i.deploymentId ∧ d.workspaceId = i.workspaceId
  runIncident : ∀ r ∈ db.runs, ∃ i ∈ db.incidents, i.id = r.incidentId

theorem Database.incident_some {db : Database} {ws id : String} {row : Incident}
    (h : db.incident ws id = some row) : row ∈ db.incidents ∧ row.id = id ∧ row.workspaceId = ws := by
  have hrow := List.find?_some h
  exact ⟨List.mem_of_find?_eq_some h, of_decide_eq_true hrow⟩

theorem Database.deployment_some {db : Database} {ws id : String} {d : Deployment}
    (h : db.deployment ws id = some d) : d ∈ db.deployments ∧ d.id = id ∧ d.workspaceId = ws := by
  have hd := List.find?_some h
  exact ⟨List.mem_of_find?_eq_some h, of_decide_eq_true hd⟩

/-- The columns of an incident that no update writes. -/
def Incident.identity (i : Incident) :
    String × String × String × String × IncidentSource × Option String :=
  (i.id, i.workspaceId, i.appId, i.deploymentId, i.source, i.ruleKey)

theorem IncidentChange.apply_identity (now : ℕ) (change : IncidentChange) (row : Incident) :
    (change.apply now row).identity = row.identity := by
  cases change <;> rfl

/-- The rows of a table after an update, by their identities. -/
theorem Database.updated_identity (db : Database) (ws id : String) {f : Incident → Incident}
    (hf : ∀ i, (f i).identity = i.identity) :
    (db.updated ws id f).incidents.map Incident.identity = db.incidents.map Incident.identity := by
  unfold updated
  rw [List.map_map]
  apply List.map_congr_left
  intro i _
  show (if i.id = id ∧ i.workspaceId = ws then f i else i).identity = i.identity
  split
  · exact hf i
  · rfl

/-- A row after an update goes back to a row before it, and the other way. -/
theorem exists_of_identity {rows rows' : List Incident}
    (h : rows'.map Incident.identity = rows.map Incident.identity) {i : Incident} (hi : i ∈ rows) :
    ∃ i' ∈ rows', i'.identity = i.identity := by
  have hmem : i.identity ∈ rows'.map Incident.identity := h ▸ List.mem_map_of_mem hi
  obtain ⟨i', hi', heq⟩ := List.mem_map.mp hmem
  exact ⟨i', hi', heq⟩

theorem Consistent.withIncident {db : Database} (h : Consistent db) {incident : Incident}
    (hnew : Insertable db incident) : Consistent (db.withIncident incident) := by
  refine ⟨h.deployments, ?_, h.deploymentApp, fun i hi => ?_, fun r hr => ?_⟩
  · show ((db.incidents ++ [incident]).map fun i => i.id).Nodup
    rw [List.map_append, List.map_singleton]
    apply List.nodup_append.mpr
    refine ⟨h.incidents, List.nodup_singleton _, fun id hid id' hid' => ?_⟩
    obtain ⟨i, hi, rfl⟩ := List.mem_map.mp hid
    rw [List.mem_singleton.mp hid']
    exact hnew.fresh i hi
  · rcases List.mem_append.mp hi with hi | hi
    · exact h.incidentDeployment i hi
    · rw [List.mem_singleton.mp hi]
      exact hnew.deployment
  · obtain ⟨i, hi, hid⟩ := h.runIncident r hr
    exact ⟨i, List.mem_append_left _ hi, hid⟩

theorem Consistent.withRun {db : Database} (h : Consistent db) {run : Run}
    (hrun : ∃ i ∈ db.incidents, i.id = run.incidentId) : Consistent (db.withRun run) := by
  refine ⟨h.deployments, h.incidents, h.deploymentApp, h.incidentDeployment, fun r hr => ?_⟩
  rcases List.mem_append.mp hr with hr | hr
  · exact h.runIncident r hr
  · rw [List.mem_singleton.mp hr]
    exact hrun

theorem Consistent.updated {db : Database} (h : Consistent db) (ws id : String)
    {f : Incident → Incident} (hf : ∀ i, (f i).identity = i.identity) :
    Consistent (db.updated ws id f) := by
  have hrows := db.updated_identity ws id hf
  have hids : (db.updated ws id f).incidents.map (fun i => i.id) = db.incidents.map fun i => i.id := by
    have hfst := congrArg (List.map Prod.fst) hrows
    rw [List.map_map, List.map_map] at hfst
    exact hfst
  refine ⟨h.deployments, hids ▸ h.incidents, h.deploymentApp, fun i' hi' => ?_, fun r hr => ?_⟩
  · obtain ⟨i, hi, heq⟩ := exists_of_identity hrows.symm hi'
    obtain ⟨d, hd, hid, hws⟩ := h.incidentDeployment i hi
    simp only [Incident.identity, Prod.mk.injEq] at heq
    exact ⟨d, hd, hid.trans heq.2.2.2.1, hws.trans heq.2.1⟩
  · obtain ⟨i, hi, hid⟩ := h.runIncident r hr
    obtain ⟨i', hi', heq⟩ := exists_of_identity hrows hi
    exact ⟨i', hi', (congrArg Prod.fst heq).trans hid⟩

/-- **Every call** keeps the tables consistent. -/
theorem Consistent.effect {db db' : Database} {c : Call} {r : Except IncidentError c.Result}
    (h : Consistent db) (heffect : Effect db c r db') : Consistent db' := by
  cases heffect with
  | nothing => exact h
  | created x hinsert => exact h.withIncident hinsert
  | updated now hrow => exact h.updated _ _ (IncidentChange.apply_identity now _)
  | started x hincident =>
    obtain ⟨hmem, -, -⟩ := Database.incident_some hincident
    exact h.withRun ⟨_, hmem, rfl⟩
  | requested x y hdeployment happ hid hsource hrule hinsert =>
    apply (h.withIncident hinsert).withRun
    exact ⟨_, List.mem_append_right _ (List.mem_singleton.mpr rfl), rfl⟩

/-- No call touches apps and deployments. -/
theorem Effect.tables {db db' : Database} {c : Call} {r : Except IncidentError c.Result}
    (h : Effect db c r db') : db'.apps = db.apps ∧ db'.deployments = db.deployments := by
  cases h <;> exact ⟨rfl, rfl⟩
/-! ### One scope -/

/-- A run is about the deployment of its incident, and an incident about the
app of its deployment. -/
structure OneScope (db : Database) : Prop where
  run : ∀ r ∈ db.runs, ∀ i ∈ db.incidents, i.id = r.incidentId → r.deploymentId = i.deploymentId
  incident : ∀ i ∈ db.incidents, ∀ d ∈ db.deployments, d.id = i.deploymentId → i.appId = d.appId
/-- Rows with one id are the same. -/
theorem Consistent.deployment_eq {db : Database} (h : Consistent db) {d d' : Deployment}
    (hd : d ∈ db.deployments) (hd' : d' ∈ db.deployments) (heq : d.id = d'.id) : d = d' :=
  List.inj_on_of_nodup_map h.deployments hd hd' heq

theorem Consistent.incident_eq {db : Database} (h : Consistent db) {i i' : Incident}
    (hi : i ∈ db.incidents) (hi' : i' ∈ db.incidents) (heq : i.id = i'.id) : i = i' :=
  List.inj_on_of_nodup_map h.incidents hi hi' heq

theorem OneScope.withIncident {db : Database} (h : OneScope db) (hdb : Consistent db)
    {incident : Incident} (hnew : Insertable db incident)
    (happ : ∃ d ∈ db.deployments, d.id = incident.deploymentId ∧ d.appId = incident.appId) :
    OneScope (db.withIncident incident) := by
  refine ⟨fun r hr i hi hid => ?_, fun i hi d hd hid => ?_⟩
  · rcases List.mem_append.mp hi with hi | hi
    · exact h.run r hr i hi hid
    · -- the incident of an old run is an old one
      obtain ⟨i₀, hi₀, hid₀⟩ := hdb.runIncident r hr
      rw [List.mem_singleton.mp hi] at hid
      exact absurd (hid₀.trans hid.symm) (hnew.fresh i₀ hi₀)
  · rcases List.mem_append.mp hi with hi | hi
    · exact h.incident i hi d hd hid
    · obtain rfl := List.mem_singleton.mp hi
      obtain ⟨d₀, hd₀, hid₀, happ₀⟩ := happ
      obtain rfl := hdb.deployment_eq hd hd₀ (hid.trans hid₀.symm)
      exact happ₀.symm

theorem OneScope.withRun {db : Database} (h : OneScope db) (hdb : Consistent db) {run : Run}
    (hrun : ∃ i ∈ db.incidents, i.id = run.incidentId ∧ run.deploymentId = i.deploymentId) :
    OneScope (db.withRun run) := by
  refine ⟨fun r hr i hi hid => ?_, h.incident⟩
  rcases List.mem_append.mp hr with hr | hr
  · exact h.run r hr i hi hid
  · obtain rfl := List.mem_singleton.mp hr
    obtain ⟨i₀, hi₀, hid₀, hdeployment⟩ := hrun
    obtain rfl := hdb.incident_eq hi hi₀ (hid.trans hid₀.symm)
    exact hdeployment

theorem OneScope.updated {db : Database} (h : OneScope db) (ws id : String)
    {f : Incident → Incident} (hf : ∀ i, (f i).identity = i.identity) :
    OneScope (db.updated ws id f) := by
  have hback : ∀ i' ∈ (db.updated ws id f).incidents, ∃ i ∈ db.incidents,
      i.id = i'.id ∧ i.appId = i'.appId ∧ i.deploymentId = i'.deploymentId := by
    intro i' hi'
    obtain ⟨i, hi, heq⟩ := exists_of_identity (db.updated_identity ws id hf).symm hi'
    simp only [Incident.identity, Prod.mk.injEq] at heq
    exact ⟨i, hi, heq.1, heq.2.2.1, heq.2.2.2.1⟩
  refine ⟨fun r hr i' hi' hid => ?_, fun i' hi' d hd hid => ?_⟩
  · obtain ⟨i, hi, hid', -, hdeployment⟩ := hback i' hi'
    exact (h.run r hr i hi (hid'.trans hid)).trans hdeployment
  · obtain ⟨i, hi, -, happ, hdeployment⟩ := hback i' hi'
    exact happ.symm.trans (h.incident i hi d hd (hid.trans hdeployment.symm))
/-! ### A small shop -/

/-- One workspace with an app and its deployment. -/
def shop : Database where
  apps := [⟨"app", "ws", "shop", "Shop"⟩]
  deployments :=
    [{ id := "dep", workspaceId := "ws", «namespace» := "dm-ns", image := "nginx"
       status := "running", kubernetesDeployment := "dep-nginx", kubernetesService := "svc-nginx"
       buildId := none, appId := "app" }]
  incidents := []
  runs := []
  events := []

theorem shop_consistent : Consistent shop := by
  constructor <;> decide

theorem shop_scope : OneScope shop := by
  constructor <;> decide

end NexCause.Incidents
