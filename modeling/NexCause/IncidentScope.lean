/-
NexCause/IncidentScope.lean

The context of an RCA run describes one deployment.  The ids of a run, its
incident, its deployment and its app are written by four functions of the
deployment manager, no constraint ties them together, and the evidence server
joins them: the deployment through the run, the app through the incident.
They agree in every reachable state (`rca_context_describes_one_deployment`).
-/
import NexCause.Evidence
import NexCause.IncidentTasks

namespace NexCause.Incidents

open Program Prog Transition AccessControl

/-! ### What the evidence server reads -/

def Incident.toRow (i : Incident) : IncidentRow where
  id := i.id
  workspaceId := i.workspaceId
  appId := i.appId
  severity := i.severity.name
  ruleKey := i.ruleKey
  title := i.title
  summary := i.summary
  openedAt := i.openedAt
  latestHealthSampleId := i.latestHealthSampleId

/-- The row of a run, of which the agent service has written `startedAt`. -/
def Run.toRow (startedAt : String → Option ℕ) (r : Run) : RcaRunRow where
  id := r.id
  workspaceId := r.workspaceId
  incidentId := r.incidentId
  deploymentId := r.deploymentId
  source := r.source.name
  startedAt := startedAt r.id
  createdAt := r.createdAt

/-- The tables the context query names. -/
def Database.contextTables (db : Database) (startedAt : String → Option ℕ)
    (samples : List HealthSampleRow) : ContextTables where
  rcaRun := db.runs.map (Run.toRow startedAt)
  incident := db.incidents.map Incident.toRow
  deployment := db.deployments.map Deployment.toDeploymentRow
  app := db.apps
  deploymentHealthSample := samples

/-- `Builder.Build`, at the time `now`. -/
def build (cfg : Config) (c : Catalog Table DbRole) (role : DbRole) (tables : ContextTables)
    (ctx : Option String) (runID incidentID : String) (now : Go.Time) : Option RCAContext :=
  match getRCAContextRecord c role tables ctx runID incidentID with
  | .ok record => if record.run.id = "" then none else some (buildContext cfg record now)
  | .error _ => none

/-- The scope names the deployment and its app. -/
structure Describes (scope : Scope) (d : Deployment) (a : AppRow) : Prop where
  appId : scope.appId = a.id ∧ d.appId = a.id
  appName : scope.appName = a.name
  deploymentId : scope.deploymentId = d.id
  «namespace» : scope.«namespace» = d.«namespace»
  serviceName : scope.serviceName = d.kubernetesService
  deploymentName : scope.deploymentName = d.kubernetesDeployment

/-- Row security only takes rows away. -/
theorem mem_of_visible {α : Type} {c : Catalog Table DbRole} {role : DbRole} {t : Table}
    {admits : α → Bool} {rows : List α} {row : α} (h : row ∈ c.visible role t admits rows) :
    row ∈ rows := by
  unfold Catalog.visible at h
  split at h
  · split at h
    · exact (List.mem_filter.mp h).1
    · cases h
  · exact h

/-- What a record of the context query is made of. -/
theorem getRCAContextRecord_rows {c : Catalog Table DbRole} {role : DbRole} {tables : ContextTables}
    {ctx : Option String} {runID incidentID : String} {record : RCAContextRecord}
    (h : getRCAContextRecord c role tables ctx runID incidentID = .ok record) :
    ∃ r ∈ tables.rcaRun, ∃ i ∈ tables.incident, ∃ d ∈ tables.deployment, ∃ a ∈ tables.app,
      r.id = runID ∧ i.id = incidentID ∧ i.id = r.incidentId ∧ d.id = r.deploymentId ∧
        a.id = i.appId ∧ ∃ collectedAt, record = contextRecord r i d a collectedAt := by
  cases ctx with
  | none => cases h
  | some workspaceID =>
    simp only [getRCAContextRecord] at h
    split at h
    · cases h
    · split at h
      · cases h
      · rename_i record' rest hquery
        obtain rfl := Except.ok.inj h
        have hmem : record' ∈ contextQuery (tables.seenBy c role workspaceID) runID incidentID := by
          rw [hquery]
          exact List.mem_cons_self
        obtain ⟨r, hr, hrid, i, hi, ⟨hir, hiid⟩, d, hd, hdr, a, ha, hai, collectedAt, -, rfl⟩ :=
          mem_contextQuery.mp hmem
        exact ⟨r, mem_of_visible hr, i, mem_of_visible hi, d, mem_of_visible hd, a,
          mem_of_visible ha, hrid, hiid, hir, hdr, hai, collectedAt, rfl⟩

/-- Where runs, incidents and deployments agree, a context that is built
describes the deployment of its incident. -/
theorem OneScope.describes {db : Database} (h : OneScope db) {cfg : Config}
    {c : Catalog Table DbRole} {role : DbRole} {startedAt : String → Option ℕ}
    {samples : List HealthSampleRow} {ctx : Option String} {runID incidentID : String}
    {now : Go.Time} {context : RCAContext}
    (hbuild : build cfg c role (db.contextTables startedAt samples) ctx runID incidentID now =
      some context) :
    ∃ i ∈ db.incidents, i.id = incidentID ∧ ∃ d ∈ db.deployments, d.id = i.deploymentId ∧
      ∃ a ∈ db.apps, Describes context.scope d a := by
  unfold build at hbuild
  split at hbuild
  · rename_i record hrecord
    split at hbuild
    · cases hbuild
    · obtain rfl := Option.some.inj hbuild
      obtain ⟨r', hr', i', hi', d', hd', a, ha, -, hiid, hir, hdr, hai, collectedAt, rfl⟩ :=
        getRCAContextRecord_rows hrecord
      obtain ⟨r, hr, rfl⟩ := List.mem_map.mp hr'
      obtain ⟨i, hi, rfl⟩ := List.mem_map.mp hi'
      obtain ⟨d, hd, rfl⟩ := List.mem_map.mp hd'
      have hdeployment : d.id = i.deploymentId := hdr.trans (h.run r hr i hi hir)
      have happ : i.appId = d.appId := h.incident i hi d hd hdeployment
      refine ⟨i, hi, hiid, d, hd, hdeployment, a, ha, ?_⟩
      exact ⟨⟨rfl, happ.symm.trans hai.symm⟩, rfl, rfl, rfl, rfl, rfl⟩
  · cases hbuild

/-- **A context describes one deployment.**  In every state that detection
passes, manual incidents, resolutions and RCA requests reach, however they
interleave and fail, a run has the deployment of its incident and an incident
the app of its deployment; so every context that is built describes the
deployment of its incident, with its app. -/
theorem rca_context_describes_one_deployment {autoRcaEnabled : Bool} {db : Database}
    {requests : List Request} {ls : List (ℕ × (ℕ → Choice))} {x : Manager} (hdb : Consistent db)
    (hscope : OneScope db)
    (hrun : exec (managerStep autoRcaEnabled) (startManager autoRcaEnabled db requests) ls = some x) :
    (∀ r ∈ x.state.db.runs, ∃ i ∈ x.state.db.incidents, i.id = r.incidentId) ∧
    (∀ r ∈ x.state.db.runs, ∀ i ∈ x.state.db.incidents, i.id = r.incidentId →
      r.deploymentId = i.deploymentId) ∧
    (∀ i ∈ x.state.db.incidents, ∃ d ∈ x.state.db.deployments, d.id = i.deploymentId) ∧
    (∀ i ∈ x.state.db.incidents, ∀ d ∈ x.state.db.deployments, d.id = i.deploymentId →
      i.appId = d.appId) ∧
    ∀ cfg c role startedAt samples ctx runID incidentID now context,
      build cfg c role (x.state.db.contextTables startedAt samples) ctx runID incidentID now =
          some context →
        ∃ i ∈ x.state.db.incidents, i.id = incidentID ∧
          ∃ d ∈ x.state.db.deployments, d.id = i.deploymentId ∧
            ∃ a ∈ x.state.db.apps, Describes context.scope d a := by
  have hkept : (incidentPolicy db.deployments).Kept (Job.task autoRcaEnabled) (Steady db) x := by
    apply Policy.kept_run (incidentPolicy_lawful autoRcaEnabled db) _ _ hrun
    · exact ⟨hdb, hscope, rfl, rfl⟩
    · intro job hjob
      obtain ⟨r, -, rfl⟩ := List.mem_map.mp hjob
      trivial
  refine ⟨hkept.state.consistent.runIncident, hkept.state.scope.run, fun i hi => ?_,
    hkept.state.scope.incident, fun _ _ _ _ _ _ _ _ _ _ hbuild => hkept.state.scope.describes hbuild⟩
  obtain ⟨d, hd, hid, -⟩ := hkept.state.consistent.incidentDeployment i hi
  exact ⟨d, hd, hid⟩

/-- A catalog in which `rca_mcp` reads the five tables under row security. -/
def readableCatalog : Catalog Table DbRole :=
  { Catalog.empty with
    acl := contextQueryTables.map fun t => (.role .rcaMcp, .select, t)
    rowSecurity := contextQueryTables
    forcedRowSecurity := contextQueryTables
    policies := contextQueryTables }

/-- The context of a run that was requested for a deployment. -/
theorem rca_context_of_requested_run :
    ∃ x context,
      exec (managerStep true) (startManager true shop [.startForDeployment "ws" "dep"])
        [(0, fun n => ⟨none, 7, if n = 3 then "incident" else "run", [], [], 0⟩)] = some x ∧
      build defaultConfig readableCatalog .rcaMcp (x.state.db.contextTables (fun _ => none) [])
        (some "ws") "run" "incident" 9 = some context ∧
      ∃ i ∈ x.state.db.incidents, i.id = "incident" ∧
        ∃ d ∈ x.state.db.deployments, d.id = i.deploymentId ∧
          ∃ a ∈ x.state.db.apps, Describes context.scope d a := by
  obtain ⟨x, hx⟩ := Option.isSome_iff_exists.mp (show (exec (managerStep true)
    (startManager true shop [.startForDeployment "ws" "dep"])
    [(0, fun n => ⟨none, 7, if n = 3 then "incident" else "run", [], [], 0⟩)]).isSome by decide)
  have hsome : (build defaultConfig readableCatalog .rcaMcp
      (x.state.db.contextTables (fun _ => none) []) (some "ws") "run" "incident" 9).isSome := by
    have hdb := congrArg (Option.map fun x => (build defaultConfig readableCatalog .rcaMcp
      (x.state.db.contextTables (fun _ => none) []) (some "ws") "run" "incident" 9).isSome) hx
    rw [Option.map_some] at hdb
    exact Option.some.inj (hdb.symm.trans (by decide))
  obtain ⟨context, hcontext⟩ := Option.isSome_iff_exists.mp hsome
  obtain ⟨-, -, -, -, hbuild⟩ :=
    rca_context_describes_one_deployment shop_consistent shop_scope hx
  exact ⟨x, context, hx, hcontext, hbuild _ _ _ _ _ _ _ _ _ _ hcontext⟩

end NexCause.Incidents
