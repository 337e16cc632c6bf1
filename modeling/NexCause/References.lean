/-
NexCause/References.lean

References between the tenant tables: the foreign keys the migrations create,
and the inserts, updates and deletes that PostgreSQL accepts under them and
under the `workspace_isolation` policy.

The composite keys of `auth_tenancy_rls` cover every column but three
(`looseForeignKeys_eq`).  Other unique indexes and the columns that are not
references only make the database refuse more, and are left out.

Main result: `references_stay_in_workspace` — in every run whose writes name
rows of their own workspace in those three columns, every reference names a
row of the workspace of the row it is in.
-/
import NexCause.Relational
import NexCause.TenantSchema
import NexCause.Transition

namespace NexCause

open Transition Relational

/-- The columns that refer from one tenant table to another. -/
inductive RefColumn
  | appId | deploymentId | incidentId | rcaRunId | threadId
  | buildId | latestHealthSampleId | evidenceSnapshotId
  deriving DecidableEq, Repr

/-! ### The foreign keys of the migrations -/

/-- `FOREIGN KEY (column) REFERENCES parent (id) ON DELETE CASCADE ON UPDATE CASCADE` -/
def simpleKey (table : Table) (column : RefColumn) (parent : Table) : ForeignKey Table RefColumn :=
  ⟨table, column, parent, false, .cascade, .cascade⟩

/-- `FOREIGN KEY (column) REFERENCES parent (id) ON DELETE SET NULL ON UPDATE CASCADE` -/
def nullableKey (table : Table) (column : RefColumn) (parent : Table) :
    ForeignKey Table RefColumn :=
  ⟨table, column, parent, false, .setNull, .cascade⟩

/-- `FOREIGN KEY (column, workspaceId) REFERENCES parent (id, workspaceId) ON DELETE CASCADE` -/
def compositeKey (table : Table) (column : RefColumn) (parent : Table) :
    ForeignKey Table RefColumn :=
  ⟨table, column, parent, true, .cascade, .noAction⟩

/-- The keys of the migrations before `auth_tenancy_rls`. -/
def earlierForeignKeys : List (ForeignKey Table RefColumn) :=
  [simpleKey .deployment .appId .app,
   simpleKey .runtimeConfig .deploymentId .deployment,
   simpleKey .build .appId .app,
   nullableKey .deployment .buildId .build,
   simpleKey .evidenceSnapshot .deploymentId .deployment,
   simpleKey .deploymentHealthSample .deploymentId .deployment,
   simpleKey .incident .appId .app,
   simpleKey .incident .deploymentId .deployment,
   nullableKey .incident .latestHealthSampleId .deploymentHealthSample,
   simpleKey .rcaRun .incidentId .incident,
   simpleKey .rcaRun .deploymentId .deployment,
   nullableKey .rcaRun .evidenceSnapshotId .evidenceSnapshot,
   simpleKey .rcaAgentThread .rcaRunId .rcaRun,
   simpleKey .rcaChatMessage .threadId .rcaAgentThread]

/-- The keys `auth_tenancy_rls` adds. -/
def tenancyForeignKeys : List (ForeignKey Table RefColumn) :=
  [⟨.rcaRunEvent, .rcaRunId, .rcaRun, false, .cascade, .noAction⟩,
   compositeKey .rcaRunEvent .rcaRunId .rcaRun,
   compositeKey .deployment .appId .app,
   compositeKey .deploymentHealthSample .deploymentId .deployment,
   compositeKey .incident .appId .app,
   compositeKey .incident .deploymentId .deployment,
   compositeKey .rcaRun .incidentId .incident,
   compositeKey .rcaRun .deploymentId .deployment,
   compositeKey .rcaAgentThread .rcaRunId .rcaRun,
   compositeKey .rcaChatMessage .threadId .rcaAgentThread,
   compositeKey .evidenceSnapshot .deploymentId .deployment,
   compositeKey .runtimeConfig .deploymentId .deployment,
   compositeKey .build .appId .app]

/-- The tenant tables, parents before children. -/
def tablesByDependency : List Table :=
  [.app, .build, .deployment, .deploymentHealthSample, .evidenceSnapshot, .runtimeConfig,
   .incident, .rcaRun, .rcaRunEvent, .rcaAgentThread, .rcaChatMessage]

def referenceSchema : Schema Table RefColumn where
  tables := tablesByDependency
  foreignKeys := earlierForeignKeys ++ tenancyForeignKeys
  parent_mem := by decide
  parent_ne := by decide
  parent_unique := by decide
  loose_cascade := by decide

/-- The columns without a composite key. -/
theorem looseForeignKeys_eq :
    referenceSchema.foreignKeys.filter (Loose referenceSchema.foreignKeys ·) =
      [nullableKey .deployment .buildId .build,
       nullableKey .incident .latestHealthSampleId .deploymentHealthSample,
       nullableKey .rcaRun .evidenceSnapshotId .evidenceSnapshot] := by
  decide

/-! ### Writes -/

/-- A row of a tenant table: its `id`, `workspaceId` and references. -/
abbrev ReferenceRow := Row RefColumn String String

abbrev ReferenceDb := Db Table RefColumn String String

inductive ReferenceStatement
  | insert (t : TenantModel) (row : ReferenceRow)
  | update (t : TenantModel) (p : ReferenceRow → Bool) (f : ReferenceRow → ReferenceRow)
  | delete (t : TenantModel) (p : ReferenceRow → Bool)

/-- A write, under the tenant setting of its transaction. -/
structure ReferenceWrite where
  setting : Option String
  statement : ReferenceStatement

/-- The rows a statement with the condition `p` reaches through the policy. -/
def reaches (setting : Option String) (p : ReferenceRow → Bool) (r : ReferenceRow) : Bool :=
  workspaceIsolation setting r.scope && p r

/-- The rows a write stores itself (not those its referential actions change). -/
def ReferenceWrite.written (db : ReferenceDb) (w : ReferenceWrite) : List ReferenceRow :=
  match w.statement with
  | .insert _ row => [row]
  | .update t p f => ((db t.1).filter (reaches w.setting p)).map f
  | .delete _ _ => []

/-- The table a write is on. -/
def ReferenceWrite.table (w : ReferenceWrite) : TenantModel :=
  match w.statement with
  | .insert t _ => t
  | .update t _ _ => t
  | .delete t _ => t

/-- The database after a write and its referential actions. -/
def ReferenceWrite.effect (db : ReferenceDb) (w : ReferenceWrite) : ReferenceDb :=
  match w.statement with
  | .insert t row => insertRow db t.1 row
  | .update t p f => updateRows referenceSchema db t.1 (reaches w.setting p) f
  | .delete t p => deleteRows referenceSchema db t.1 (reaches w.setting p)

/-- One write: refused unless the policy admits every row it stores and the
database it leads to is consistent.  Foreign keys are checked below row
security, against all rows. -/
def referenceStep (db : ReferenceDb) (w : ReferenceWrite) : Option ReferenceDb :=
  if (∀ row ∈ w.written db, workspaceIsolation w.setting row.scope) ∧
      referenceSchema.Consistent (w.effect db) then
    some (w.effect db)
  else none

/-! ### References stay in the workspace -/

/-- Every reference between tenant tables names a row of the workspace of the
row it is in. -/
def SameWorkspace (db : ReferenceDb) : Prop :=
  ∀ fk ∈ referenceSchema.foreignKeys, ∀ r ∈ db fk.table, ∀ x ∈ r.refs fk.column,
    ∃ p ∈ db fk.parent, p.id = x ∧ p.scope = r.scope

/-- The migrated database: consistent, and all rows in the bootstrap workspace. -/
structure Migrated (db : ReferenceDb) : Prop where
  consistent : referenceSchema.Consistent db
  legacy : ∀ t, ∀ r ∈ db t, r.scope = "legacy-workspace"

/-- In a column without composite key, the rows the write stores do not name a
row of another workspace. -/
def NamesOwnRows (db : ReferenceDb) (w : ReferenceWrite) : Prop :=
  ∀ fk ∈ referenceSchema.foreignKeys, Loose referenceSchema.foreignKeys fk →
    fk.table = w.table.1 → ∀ row ∈ w.written db, ∀ x ∈ row.refs fk.column,
      ∀ p ∈ db fk.parent, p.id = x → p.scope = row.scope

theorem Migrated.sameWorkspace {db : ReferenceDb} (h : Migrated db) : SameWorkspace db := by
  intro fk hfk r hr x hx
  obtain ⟨p, hp, hid, -⟩ := h.consistent.holds fk hfk r hr x hx
  exact ⟨p, hp, hid, (h.legacy _ p hp).trans (h.legacy _ r hr).symm⟩

theorem tenantModel_mem_tables (t : TenantModel) : t.1 ∈ referenceSchema.tables := by
  have hsub : ∀ t ∈ tenantTables, t ∈ tablesByDependency := by decide
  exact hsub t.1 t.2

/-- An update that the policy admits moves no row to another workspace. -/
theorem update_keeps_scope {db : ReferenceDb} {setting : Option String} {t : TenantModel}
    {p : ReferenceRow → Bool} {f : ReferenceRow → ReferenceRow}
    (hpolicy : ∀ row ∈ ((db t.1).filter (reaches setting p)).map f,
      workspaceIsolation setting row.scope)
    {r : ReferenceRow} (hr : r ∈ db t.1) (htouch : reaches setting p r = true) :
    (f r).scope = r.scope := by
  have hnew := hpolicy (f r) (List.mem_map.mpr ⟨r, List.mem_filter.mpr ⟨hr, htouch⟩, rfl⟩)
  have hold := (Bool.and_eq_true _ _ ▸ htouch : _ ∧ _).1
  rw [workspaceIsolation, decide_eq_true_eq] at hnew hold
  exact Option.some.inj (hnew.symm.trans hold)

/-- One accepted write keeps references in the workspace, if it names rows of
its own workspace in the columns without composite key. -/
theorem referenceStep_sameWorkspace {db db' : ReferenceDb} {w : ReferenceWrite}
    (h : referenceSchema.Consistent db ∧ SameWorkspace db) (hw : NamesOwnRows db w)
    (hstep : referenceStep db w = some db') :
    referenceSchema.Consistent db' ∧ SameWorkspace db' := by
  obtain ⟨hpre, hin⟩ := h
  rw [referenceStep, Option.ite_none_right_eq_some, Option.some.injEq] at hstep
  obtain ⟨⟨hpolicy, hpost⟩, rfl⟩ := hstep
  refine ⟨hpost, ?_⟩
  obtain ⟨setting, statement⟩ := w
  cases statement with
  | insert t row =>
    exact insert_inScope hin hpost fun fk hfk hl ht =>
      hw fk hfk hl ht row (List.mem_singleton.mpr rfl)
  | update t p f =>
    refine update_inScope (tenantModel_mem_tables t) hpre hin hpost
      (fun r hr htouch => update_keeps_scope hpolicy hr htouch)
      fun fk hfk hl ht r hr htouch => ?_
    exact hw fk hfk hl ht (f r)
      (List.mem_map.mpr ⟨r, List.mem_filter.mpr ⟨hr, htouch⟩, rfl⟩)
  | delete t p => exact delete_inScope hpre hin hpost

/-- **References stay in the workspace.**  In every run of accepted writes that
name rows of their own workspace in the columns without composite key. -/
theorem references_stay_in_workspace {db₀ db : ReferenceDb} {ws : List ReferenceWrite}
    (h₀ : Migrated db₀) (hC : Along referenceStep NamesOwnRows db₀ ws)
    (hrun : exec referenceStep db₀ ws = some db) : SameWorkspace db :=
  (exec_invariant (fun _ _ _ hI hw hstep => referenceStep_sameWorkspace hI hw hstep)
    ⟨h₀.consistent, h₀.sameWorkspace⟩ hC hrun).2

instance (db : ReferenceDb) (w : ReferenceWrite) : Decidable (NamesOwnRows db w) := by
  unfold NamesOwnRows; infer_instance

instance (fk : ForeignKey Table RefColumn) (db : ReferenceDb) : Decidable (fk.InScope db) := by
  unfold ForeignKey.InScope; infer_instance

/-- The empty database is a migrated one. -/
theorem migrated_empty : Migrated fun _ => [] :=
  ⟨by decide, fun _ _ hr => by cases hr⟩

/-- Insert a row with the listed references under the setting `w`. -/
def insertAs (w : String) (t : TenantModel) (id : String) (refs : List (RefColumn × String)) :
    ReferenceWrite :=
  ⟨some w, .insert t ⟨id, w, fun c => refs.lookup c⟩⟩

/-- A workspace deploys its own build. -/
def deployOwnBuild : List ReferenceWrite :=
  [insertAs "ws-a" ⟨.app, by decide⟩ "app-a" [],
   insertAs "ws-a" ⟨.build, by decide⟩ "build-a" [(.appId, "app-a")],
   insertAs "ws-a" ⟨.deployment, by decide⟩ "dep-a" [(.appId, "app-a"), (.buildId, "build-a")]]

/-- The theorem applies to `deployOwnBuild`. -/
theorem references_stay_own_build :
    ∃ db, exec referenceStep (fun _ => []) deployOwnBuild = some db ∧ SameWorkspace db := by
  refine ⟨_, rfl, @references_stay_in_workspace _ _ deployOwnBuild migrated_empty ?_ rfl⟩
  refine (along_cons_iff rfl).mpr ⟨by decide, ?_⟩
  refine (along_cons_iff rfl).mpr ⟨by decide, ?_⟩
  exact (along_cons_iff rfl).mpr ⟨by decide, trivial⟩

/-- Workspace `ws-b` refers to the build, the health sample and the evidence
snapshot of workspace `ws-a`. -/
def referAcross : List ReferenceWrite :=
  deployOwnBuild ++
  [insertAs "ws-a" ⟨.deploymentHealthSample, by decide⟩ "sample-a" [(.deploymentId, "dep-a")],
   insertAs "ws-a" ⟨.evidenceSnapshot, by decide⟩ "snapshot-a" [(.deploymentId, "dep-a")],
   insertAs "ws-b" ⟨.app, by decide⟩ "app-b" [],
   insertAs "ws-b" ⟨.deployment, by decide⟩ "dep-b" [(.appId, "app-b"), (.buildId, "build-a")],
   insertAs "ws-b" ⟨.incident, by decide⟩ "inc-b"
     [(.appId, "app-b"), (.deploymentId, "dep-b"), (.latestHealthSampleId, "sample-a")],
   insertAs "ws-b" ⟨.rcaRun, by decide⟩ "run-b"
     [(.incidentId, "inc-b"), (.deploymentId, "dep-b"), (.evidenceSnapshotId, "snapshot-a")]]

/-- PostgreSQL accepts `referAcross`; it leaves a reference to another
workspace in each column without composite key. -/
theorem references_cross_workspaces :
    ∃ db, exec referenceStep (fun _ => []) referAcross = some db ∧
      (∀ fk ∈ [nullableKey .deployment .buildId .build,
          nullableKey .incident .latestHealthSampleId .deploymentHealthSample,
          nullableKey .rcaRun .evidenceSnapshotId .evidenceSnapshot], ¬ fk.InScope db) ∧
      ¬ SameWorkspace db := by
  refine ⟨_, rfl, by decide, fun h => ?_⟩
  have hbuild := h (nullableKey .deployment .buildId .build) (by decide)
  revert hbuild
  decide

end NexCause
