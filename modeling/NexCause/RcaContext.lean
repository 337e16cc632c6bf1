/-
NexCause/RcaContext.lean

`PostgresStore.GetRCAContextRecord` of the MCP server: the five-table join
that gives the context of an RCA run, executed inside `tenantTx` by the
database role `rca_mcp`.

A query fails when its role lacks `SELECT` on one of the tables it names;
otherwise it reads, of each table, the rows that row security lets the role
see under the tenant setting of the transaction.

Main results:

* `getRCAContextRecord_ok_iff` — for a role that may read the five tables, the
  query returns a record exactly for the authorised runs of the workspace;
* `context_query_meets_contract_iff` — under the deployed grants, `rca_mcp`
  meets that contract only where there is no authorised run, because it may
  not read `App`;
* `context_query_with_app_grant` — with that grant it would meet it everywhere.
-/
import NexCause.TenantSchema

namespace NexCause

open AccessControl

/-! ### The rows the query joins -/

structure RcaRunRow where
  id : String
  workspaceId : String
  incidentId : String
  deploymentId : String
  source : String
  startedAt : Option ℕ
  createdAt : ℕ
  deriving DecidableEq, Repr

structure IncidentRow where
  id : String
  workspaceId : String
  appId : String
  severity : String
  ruleKey : Option String
  title : String
  summary : Option String
  openedAt : ℕ
  latestHealthSampleId : Option String
  deriving DecidableEq, Repr

structure DeploymentRow where
  id : String
  workspaceId : String
  «namespace» : String
  image : String
  status : String
  kubernetesDeployment : String
  kubernetesService : String
  buildId : Option String
  deriving DecidableEq, Repr

structure AppRow where
  id : String
  workspaceId : String
  name : String
  displayName : String
  deriving DecidableEq, Repr

structure HealthSampleRow where
  id : String
  workspaceId : String
  collectedAt : ℕ
  deriving DecidableEq, Repr

/-- The tables the query names. -/
structure ContextTables where
  rcaRun : List RcaRunRow
  incident : List IncidentRow
  deployment : List DeploymentRow
  app : List AppRow
  deploymentHealthSample : List HealthSampleRow
  deriving DecidableEq, Repr

/-- The tables the query names, in the order of its `FROM` clause. -/
def contextQueryTables : List Table :=
  [.rcaRun, .incident, .deployment, .app, .deploymentHealthSample]

/-! ### The record it returns -/

structure RunRecord where
  id : String
  source : String
  startedAt : ℕ
  deriving DecidableEq, Repr

structure IncidentRecord where
  id : String
  severity : String
  ruleKey : Option String
  title : String
  summary : Option String
  openedAt : ℕ
  latestHealthSampleId : Option String
  deriving DecidableEq, Repr

structure DeploymentRecord where
  id : String
  «namespace» : String
  image : String
  status : String
  kubernetesDeployment : String
  kubernetesService : String
  buildId : Option String
  deriving DecidableEq, Repr

structure AppRecord where
  id : String
  name : String
  displayName : String
  deriving DecidableEq, Repr

structure RCAContextRecord where
  run : RunRecord
  incident : IncidentRecord
  deployment : DeploymentRecord
  app : AppRecord
  latestHealthSampleCollectedAt : Option ℕ
  deriving DecidableEq, Repr

/-- Why the call fails. -/
inductive StoreError
  /-- "workspace context is required" -/
  | workspaceRequired
  /-- the role lacks `SELECT` on the table -/
  | permissionDenied (t : Table)
  /-- `sql.ErrNoRows` -/
  | noRows
  deriving DecidableEq, Repr

/-! ### The query -/

/-- The columns the query selects; `startedAt` is `COALESCE`d with `createdAt`. -/
def contextRecord (r : RcaRunRow) (i : IncidentRow) (d : DeploymentRow) (a : AppRow)
    (collectedAt : Option ℕ) : RCAContextRecord where
  run := ⟨r.id, r.source, r.startedAt.getD r.createdAt⟩
  incident := ⟨i.id, i.severity, i.ruleKey, i.title, i.summary, i.openedAt, i.latestHealthSampleId⟩
  deployment := ⟨d.id, d.«namespace», d.image, d.status, d.kubernetesDeployment,
    d.kubernetesService, d.buildId⟩
  app := ⟨a.id, a.name, a.displayName⟩
  latestHealthSampleCollectedAt := collectedAt

/-- `LEFT JOIN "DeploymentHealthSample"`: one row for each sample the incident
names, or one row without a sample. -/
def leftJoinSample (samples : List HealthSampleRow) (i : IncidentRow) : List (Option ℕ) :=
  match samples.filter fun hs => i.latestHealthSampleId = some hs.id with
  | [] => [none]
  | hss => hss.map fun hs => some hs.collectedAt

/-- The rows of the join, over the tables as the transaction sees them. -/
def contextQuery (v : ContextTables) (runID incidentID : String) : List RCAContextRecord :=
  (v.rcaRun.filter fun r => r.id = runID).flatMap fun r =>
  (v.incident.filter fun i => i.id = r.incidentId ∧ i.id = incidentID).flatMap fun i =>
  (v.deployment.filter fun d => d.id = r.deploymentId).flatMap fun d =>
  (v.app.filter fun a => a.id = i.appId).flatMap fun a =>
  (leftJoinSample v.deploymentHealthSample i).map fun hs => contextRecord r i d a hs

/-- What the role sees of the tables in a transaction whose
`app.workspace_id` is `workspaceID`. -/
def ContextTables.seenBy (db : ContextTables) (c : Catalog Table DbRole) (role : DbRole)
    (workspaceID : String) : ContextTables where
  rcaRun := c.visible role .rcaRun (fun r => r.workspaceId = workspaceID) db.rcaRun
  incident := c.visible role .incident (fun r => r.workspaceId = workspaceID) db.incident
  deployment := c.visible role .deployment (fun r => r.workspaceId = workspaceID) db.deployment
  app := c.visible role .app (fun r => r.workspaceId = workspaceID) db.app
  deploymentHealthSample :=
    c.visible role .deploymentHealthSample (fun r => r.workspaceId = workspaceID)
      db.deploymentHealthSample

/-- `GetRCAContextRecord`, for a request that carries the workspace `ctx`. -/
def getRCAContextRecord (c : Catalog Table DbRole) (role : DbRole) (db : ContextTables)
    (ctx : Option String) (runID incidentID : String) : Except StoreError RCAContextRecord :=
  match ctx with
  | none => .error .workspaceRequired
  | some workspaceID =>
      match contextQueryTables.find? fun t => ¬ c.Allows role .select t with
      | some t => .error (.permissionDenied t)
      | none =>
          match contextQuery (db.seenBy c role workspaceID) runID incidentID with
          | [] => .error .noRows
          | record :: _ => .ok record

/-- The call returns a record. -/
def Returns (res : Except StoreError RCAContextRecord) : Prop := ∃ record, res = .ok record

/-- The workspace has the run, for that incident, with its incident, its
deployment and its app. -/
def AuthorisedRun (db : ContextTables) (workspaceID runID incidentID : String) : Prop :=
  ∃ r ∈ db.rcaRun, r.id = runID ∧ r.workspaceId = workspaceID ∧ r.incidentId = incidentID ∧
  ∃ i ∈ db.incident, i.id = incidentID ∧ i.workspaceId = workspaceID ∧
    (∃ d ∈ db.deployment, d.id = r.deploymentId ∧ d.workspaceId = workspaceID) ∧
    ∃ a ∈ db.app, a.id = i.appId ∧ a.workspaceId = workspaceID

/-! ### The join finds the authorised runs -/

theorem leftJoinSample_ne_nil (samples : List HealthSampleRow) (i : IncidentRow) :
    leftJoinSample samples i ≠ [] := by
  unfold leftJoinSample
  split
  · exact List.cons_ne_nil _ _
  · intro h
    rename_i hne
    exact hne (List.map_eq_nil_iff.mp h)

/-- A row of the join: a run, its incident, deployment and app, and a sample
if there is one. -/
theorem mem_contextQuery {v : ContextTables} {runID incidentID : String}
    {record : RCAContextRecord} :
    record ∈ contextQuery v runID incidentID ↔
      ∃ r ∈ v.rcaRun, r.id = runID ∧ ∃ i ∈ v.incident, (i.id = r.incidentId ∧ i.id = incidentID) ∧
        ∃ d ∈ v.deployment, d.id = r.deploymentId ∧ ∃ a ∈ v.app, a.id = i.appId ∧
          ∃ hs ∈ leftJoinSample v.deploymentHealthSample i, contextRecord r i d a hs = record := by
  simp only [contextQuery, List.mem_flatMap, List.mem_filter, List.mem_map, decide_eq_true_eq,
    and_assoc]

/-- Under row security on the five tables, the join has a row exactly for the
authorised runs. -/
theorem exists_mem_contextQuery_iff {c : Catalog Table DbRole} {role : DbRole}
    (hrls : ∀ t ∈ contextQueryTables, t ∈ c.rowSecurity ∧ t ∈ c.forcedRowSecurity ∧ t ∈ c.policies)
    {db : ContextTables} {workspaceID runID incidentID : String} :
    (∃ record, record ∈ contextQuery (db.seenBy c role workspaceID) runID incidentID) ↔
      AuthorisedRun db workspaceID runID incidentID := by
  have hvis : ∀ (t : Table), t ∈ contextQueryTables → ∀ {α : Type} (admits : α → Bool)
      (rows : List α), c.visible role t admits rows = rows.filter admits := by
    intro t ht α admits rows
    obtain ⟨he, hf, hp⟩ := hrls t ht
    exact Catalog.visible_eq_filter he hf hp
  have hseen : db.seenBy c role workspaceID =
      { rcaRun := db.rcaRun.filter fun r => r.workspaceId = workspaceID
        incident := db.incident.filter fun r => r.workspaceId = workspaceID
        deployment := db.deployment.filter fun r => r.workspaceId = workspaceID
        app := db.app.filter fun r => r.workspaceId = workspaceID
        deploymentHealthSample :=
          db.deploymentHealthSample.filter fun r => r.workspaceId = workspaceID } := by
    rw [ContextTables.seenBy, hvis .rcaRun (by decide), hvis .incident (by decide),
      hvis .deployment (by decide), hvis .app (by decide),
      hvis .deploymentHealthSample (by decide)]
  rw [hseen]
  simp only [mem_contextQuery, List.mem_filter, decide_eq_true_eq]
  constructor
  · rintro ⟨_, r, ⟨hr, hrw⟩, hid, i, ⟨hi, hiw⟩, ⟨hir, hii⟩, d, ⟨hd, hdw⟩, hdr, a, ⟨ha, haw⟩, hai, -⟩
    exact ⟨r, hr, hid, hrw, hir.symm.trans hii, i, hi, hii, hiw, ⟨d, hd, hdr, hdw⟩, a, ha, hai, haw⟩
  · rintro ⟨r, hr, hid, hrw, hri, i, hi, hii, hiw, ⟨d, hd, hdr, hdw⟩, a, ha, hai, haw⟩
    obtain ⟨hs, hhs⟩ := List.exists_mem_of_ne_nil _ (leftJoinSample_ne_nil
      (db.deploymentHealthSample.filter fun r => r.workspaceId = workspaceID) i)
    exact ⟨contextRecord r i d a hs, r, ⟨hr, hrw⟩, hid, i, ⟨hi, hiw⟩, ⟨hii.trans hri.symm, hii⟩,
      d, ⟨hd, hdw⟩, hdr, a, ⟨ha, haw⟩, hai, hs, hhs, rfl⟩

/-- **The query of a role that may read the five tables**: it returns a record
exactly for the authorised runs of the workspace it is issued for. -/
theorem getRCAContextRecord_ok_iff {c : Catalog Table DbRole} {role : DbRole}
    (hsel : ∀ t ∈ contextQueryTables, c.Allows role .select t)
    (hrls : ∀ t ∈ contextQueryTables, t ∈ c.rowSecurity ∧ t ∈ c.forcedRowSecurity ∧ t ∈ c.policies)
    (db : ContextTables) (workspaceID runID incidentID : String) :
    Returns (getRCAContextRecord c role db (some workspaceID) runID incidentID) ↔
      AuthorisedRun db workspaceID runID incidentID := by
  have hfind : (contextQueryTables.find? fun t => ¬ c.Allows role .select t) = none := by
    rw [List.find?_eq_none]
    intro t ht
    simpa using hsel t ht
  rw [← @exists_mem_contextQuery_iff c role hrls]
  unfold getRCAContextRecord
  rw [hfind]
  show Returns (match contextQuery _ runID incidentID with
    | [] => _
    | record :: _ => _) ↔ _
  rcases contextQuery (db.seenBy c role workspaceID) runID incidentID with - | ⟨record, rest⟩
  · simp [Returns]
  · simp [Returns]

/-! ### Under the deployed grants -/

/-- Without a workspace in the request the call fails before any query. -/
theorem getRCAContextRecord_no_workspace (c : Catalog Table DbRole) (role : DbRole)
    (db : ContextTables) (runID incidentID : String) :
    ¬ Returns (getRCAContextRecord c role db none runID incidentID) := by
  rintro ⟨record, h⟩
  cases h

/-- `rca_mcp` may read four of the five tables: the query stops at `App`. -/
theorem rcaMcp_denied (before after : List RoleScript) (db : ContextTables)
    (workspaceID runID incidentID : String) :
    getRCAContextRecord (deployedCatalog before after) .rcaMcp db (some workspaceID) runID
      incidentID = .error (.permissionDenied .app) := by
  have hfind : (contextQueryTables.find? fun t =>
      ¬ (deployedCatalog before after).Allows .rcaMcp .select t) = some .app := by
    simp [contextQueryTables, rcaMcp_select_iff]
  unfold getRCAContextRecord
  rw [hfind]

/-- **When the context query meets its contract.**  Under the deployed grants
the query of `rca_mcp` returns a record exactly for the authorised runs if and
only if the run asked for is not authorised: it never returns a record. -/
theorem context_query_meets_contract_iff (before after : List RoleScript) (db : ContextTables)
    (workspaceID runID incidentID : String) :
    (Returns (getRCAContextRecord (deployedCatalog before after) .rcaMcp db (some workspaceID)
        runID incidentID) ↔ AuthorisedRun db workspaceID runID incidentID) ↔
      ¬ AuthorisedRun db workspaceID runID incidentID := by
  have hnever : ¬ Returns (getRCAContextRecord (deployedCatalog before after) .rcaMcp db
      (some workspaceID) runID incidentID) := by
    rintro ⟨record, h⟩
    rw [rcaMcp_denied] at h
    cases h
  constructor
  · intro h ha
    exact hnever (h.mpr ha)
  · intro h
    exact iff_of_false hnever h

/-- One workspace with an app, its deployment, an open incident and a run. -/
def oneRun : ContextTables where
  rcaRun := [⟨"run", "ws", "inc", "dep", "manual", none, 5⟩]
  incident := [⟨"inc", "ws", "app", "high", none, "Pods restarting", none, 4, none⟩]
  deployment := [⟨"dep", "ws", "dm-ns", "nginx", "running", "dep-nginx", "svc-nginx", none⟩]
  app := [⟨"app", "ws", "shop", "Shop"⟩]
  deploymentHealthSample := []

/-- The run of `oneRun` is authorised, and the query for it fails. -/
theorem context_query_refuses_authorised_run :
    AuthorisedRun oneRun "ws" "run" "inc" ∧
    ¬ Returns (getRCAContextRecord (deployedCatalog [.bundledChart] []) .rcaMcp oneRun (some "ws")
      "run" "inc") := by
  constructor
  · refine ⟨_, List.mem_singleton.mpr rfl, rfl, rfl, rfl, _, List.mem_singleton.mpr rfl, rfl, rfl,
      ⟨_, List.mem_singleton.mpr rfl, rfl, rfl⟩, _, List.mem_singleton.mpr rfl, rfl, rfl⟩
  · rintro ⟨record, h⟩
    rw [rcaMcp_denied] at h
    cases h

/-- With `SELECT` on `App` granted after the migrations, the query would meet
its contract. -/
theorem context_query_with_app_grant (before after : List RoleScript) (db : ContextTables)
    (workspaceID runID incidentID : String) :
    Returns (getRCAContextRecord
        ((deployedCatalog before after).run [.grant [.select] [.app] [.role .rcaMcp]]) .rcaMcp db
        (some workspaceID) runID incidentID) ↔
      AuthorisedRun db workspaceID runID incidentID := by
  refine getRCAContextRecord_ok_iff (fun t ht => ?_) (fun t ht => ?_) db workspaceID runID incidentID
  · have hrole : ((deployedCatalog before after).run
        [.grant [.select] [.app] [.role .rcaMcp]]).rolesOf .rcaMcp = [.rcaMcp] :=
      rcaMcp_rolesOf before after
    refine .inr (.inr ⟨.rcaMcp, by rw [hrole]; exact List.mem_singleton.mpr rfl, ?_⟩)
    by_cases happ : t = .app
    · rw [happ]
      exact @Catalog.acl_of_grant _ _ _ _ _ [] [] _ _ _ _ _ _ (List.mem_singleton.mpr rfl)
        (List.mem_singleton.mpr rfl) (List.mem_singleton.mpr rfl) (by simp)
    · refine Catalog.acl_mono ?_ (by decide)
      refine rcaMcp_granted before after ?_
      revert ht happ
      cases t <;> decide
  · obtain ⟨h₁, h₂, h₃⟩ := Catalog.rowSecurity_mono (deployedCatalog before after)
      [.grant [.select] [.app] [.role .rcaMcp]] t
    obtain ⟨m₁, m₂, m₃⟩ := deployed_rowSecurity before after (t := t) (by
      revert ht
      cases t <;> decide)
    exact ⟨h₁ m₁, h₂ m₂, h₃ m₃⟩

end NexCause
