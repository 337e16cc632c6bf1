/-
NexCause/TenantSchema.lean

The access control of the platform database: the tables, the roles, the two
role scripts (`rca-roles.sql` of the bundled chart, `postgresql-roles.sql` for
an administrator) and the migrations, as statements of `AccessControl`.

Of each script only what decides table privileges and row security is here;
columns and constraints are modelled where they matter.  The migrations run
as `rca_migrator`, who therefore creates (and first owns) every table.
-/
import NexCause.AccessControl

namespace NexCause

open AccessControl

/-- The tables of the schema. -/
inductive Table
  | workspace | identityUser | workspaceMembership | authLoginAttempt | authSession | auditEvent
  | app | deployment | deploymentHealthSample | incident | rcaRun | rcaRunEvent
  | rcaAgentThread | rcaChatMessage | evidenceSnapshot | runtimeConfig | build
  deriving DecidableEq, Repr

/-- The database roles; all are `NOSUPERUSER` and `NOBYPASSRLS`. -/
inductive DbRole
  | rcaOwner | rcaMigrator | deploymentManager | rcaAgent | rcaMcp
  deriving DecidableEq, Repr

/-- A statement over this schema. -/
abbrev Ddl := Statement Table DbRole

/-! ### Role scripts -/

/-- The two scripts that create the roles. -/
inductive RoleScript
  /-- `deployments/charts/postgres/files/rca-roles.sql` -/
  | bundledChart
  /-- `src/database/postgresql-roles.sql` -/
  | administrator
  deriving DecidableEq, Repr

def RoleScript.statements : RoleScript → List Ddl
  | .bundledChart => [.grantRole .rcaOwner .rcaMigrator]
  | .administrator =>
      [.grantRole .rcaOwner .rcaMigrator,
       .defaultGrant .rcaOwner [.select, .insert, .update, .delete] [.role .deploymentManager]]

/-! ### Migrations -/

/-- The tables the migrations before `auth_tenancy_rls` create, in order. -/
def earlierTables : List Table :=
  [.app, .deployment, .runtimeConfig, .build, .evidenceSnapshot, .deploymentHealthSample,
   .incident, .rcaRun, .rcaAgentThread, .rcaChatMessage]

/-- The tables `auth_tenancy_rls` creates, in order. -/
def tenancyTables : List Table :=
  [.workspace, .identityUser, .workspaceMembership, .authLoginAttempt, .authSession, .auditEvent,
   .rcaRunEvent]

/-- The tables that carry a `workspaceId` and the `workspace_isolation` policy. -/
def tenantTables : List Table :=
  [.app, .deployment, .deploymentHealthSample, .incident, .rcaRun, .rcaRunEvent,
   .rcaAgentThread, .rcaChatMessage, .evidenceSnapshot, .runtimeConfig, .build]

/-- The tables whose owner the last loop of `auth_tenancy_rls` changes. -/
def ownedTables : List Table :=
  [.workspace, .identityUser, .workspaceMembership, .authLoginAttempt, .authSession, .auditEvent,
   .app, .deployment, .deploymentHealthSample, .incident, .rcaRun, .rcaAgentThread,
   .rcaRunEvent, .rcaChatMessage, .evidenceSnapshot, .runtimeConfig, .build]

/-- The row-security loop of `auth_tenancy_rls`. -/
def rowSecurityStatements : List Ddl :=
  tenantTables.flatMap fun t => [.enableRowSecurity t, .forceRowSecurity t, .createPolicy t]

/-- The grants of `auth_tenancy_rls`. -/
def grantStatements : List Ddl :=
  [.revokeAllTables .everyone,
   .grantAllTables [.select, .insert, .update, .delete] [.role .deploymentManager],
   .grant [.select]
     [.workspace, .incident, .deployment, .evidenceSnapshot, .deploymentHealthSample,
      .runtimeConfig] [.role .rcaAgent],
   .grant [.select, .insert, .update] [.rcaRun, .rcaAgentThread, .rcaChatMessage]
     [.role .rcaAgent],
   .grant [.select, .insert] [.rcaRunEvent] [.role .rcaAgent],
   .grant [.select]
     [.workspace, .rcaRun, .incident, .deployment, .deploymentHealthSample, .runtimeConfig]
     [.role .rcaMcp],
   .defaultRevoke .rcaMigrator .everyone]

/-- All migrations, in order. -/
def migrations : List Ddl :=
  earlierTables.map (.createTable .rcaMigrator) ++ tenancyTables.map (.createTable .rcaMigrator) ++
    rowSecurityStatements ++ grantStatements ++ ownedTables.map fun t => .ownerTo t .rcaOwner

/-- Everything that was executed: role scripts, all migrations, and possibly
role scripts again. -/
def deployedStatements (before after : List RoleScript) : List Ddl :=
  before.flatMap RoleScript.statements ++ migrations ++ after.flatMap RoleScript.statements

/-- The catalog of the deployed platform. -/
def deployedCatalog (before after : List RoleScript) : Catalog Table DbRole :=
  Catalog.empty.run (deployedStatements before after)

/-! ### What the scripts leave behind -/

/-- A property of every statement of the role scripts and of the migrations. -/
theorem forall_deployedStatements {P : Ddl → Prop} (before after : List RoleScript)
    (hr : ∀ s : RoleScript, ∀ st ∈ s.statements, P st) (hm : ∀ st ∈ migrations, P st) :
    ∀ st ∈ deployedStatements before after, P st := by
  have hscripts : ∀ scripts : List RoleScript,
      ∀ st ∈ scripts.flatMap RoleScript.statements, P st := by
    intro scripts st hst
    obtain ⟨s, -, hs⟩ := List.mem_flatMap.mp hst
    exact hr s st hs
  intro st hst
  rcases List.mem_append.mp hst with h | h
  · rcases List.mem_append.mp h with h | h
    · exact hscripts before st h
    · exact hm st h
  · exact hscripts after st h

/-- `rca_mcp` is a member of no role and owns no table. -/
theorem rcaMcp_rolesOf (before after : List RoleScript) :
    (deployedCatalog before after).rolesOf .rcaMcp = [.rcaMcp] := by
  refine Catalog.rolesOf_eq_self (Catalog.memberOf_of_run (by simp [Catalog.empty]) ?_)
  refine forall_deployedStatements before after (fun s => ?_) (by decide)
  cases s <;> decide

theorem rcaMcp_owns_nothing (before after : List RoleScript) (t : Table) :
    ¬ (deployedCatalog before after).Owns .rcaMcp t := by
  rintro ⟨r, hr, ht⟩
  rw [rcaMcp_rolesOf, List.mem_singleton] at hr
  subst hr
  have h := @Catalog.owner_of_run _ _ _ _ Catalog.empty
    (deployedStatements before after) DbRole.rcaMcp (by simp [Catalog.empty])
  refine h ?_ _ ht rfl
  refine forall_deployedStatements before after (fun s => ?_) (by decide)
  cases s <;> decide

/-- What `rca_mcp` may use is what the scripts grant to it or to everyone. -/
theorem rcaMcp_grants {before after : List RoleScript} {p : Privilege} {t : Table}
    (h : (deployedCatalog before after).Allows .rcaMcp p t) :
    ∃ st ∈ deployedStatements before after,
      st.MayGrant .everyone p t ∨ st.MayGrant (.role .rcaMcp) p t := by
  have none : ∀ g, ¬ (Catalog.empty : Catalog Table DbRole).Holds g p t := by
    intro g h
    rcases h with h | ⟨_, h⟩ <;> cases h
  rcases h with h | h | ⟨r, hr, h⟩
  · exact absurd h (rcaMcp_owns_nothing before after t)
  · rcases Catalog.holds_of_run (.inl h) with h | ⟨st, hst, hg⟩
    · exact absurd h (none _)
    · exact ⟨st, hst, .inl hg⟩
  · rw [rcaMcp_rolesOf, List.mem_singleton] at hr
    subst hr
    rcases Catalog.holds_of_run (.inl h) with h | ⟨st, hst, hg⟩
    · exact absurd h (none _)
    · exact ⟨st, hst, .inr hg⟩

/-- Row security is enabled and forced, with a policy, on every tenant table. -/
theorem deployed_rowSecurity (before after : List RoleScript) {t : Table} (ht : t ∈ tenantTables) :
    t ∈ (deployedCatalog before after).rowSecurity ∧
      t ∈ (deployedCatalog before after).forcedRowSecurity ∧ t ∈ (deployedCatalog before after).policies := by
  have hmem : ∀ st ∈ [.enableRowSecurity t, .forceRowSecurity t, .createPolicy t],
      st ∈ deployedStatements before after := by
    intro st hst
    have hloop : st ∈ rowSecurityStatements := List.mem_flatMap.mpr ⟨t, ht, hst⟩
    refine List.mem_append_left _ (List.mem_append_right _ ?_)
    exact List.mem_append_left _ (List.mem_append_left _ (List.mem_append_right _ hloop))
  obtain ⟨h₁, h₂, h₃⟩ := Catalog.rowSecurity_of_run Catalog.empty
    (deployedStatements before after) t
  exact ⟨h₁ (hmem _ (by simp)), h₂ (hmem _ (by simp)), h₃ (hmem _ (by simp))⟩

/-! ### The policy -/

/-- `workspace_isolation`: `"workspaceId" = current_setting('app.workspace_id', true)`,
over the setting of the connection (`none` when it was never set). -/
def workspaceIsolation (setting : Option String) (workspaceId : String) : Bool :=
  setting = some workspaceId

/-- The tables of `TENANT_MODELS`. -/
abbrev TenantModel : Type := { t : Table // t ∈ tenantTables }

/-- Every role reads, of a tenant table, the rows the policy admits. -/
theorem tenant_visible (before after : List RoleScript) (role : DbRole) (t : TenantModel)
    {α : Type*} (admits : α → Bool) (rows : List α) :
    (deployedCatalog before after).visible role t.1 admits rows = rows.filter admits := by
  obtain ⟨he, hf, hp⟩ := deployed_rowSecurity before after t.2
  exact Catalog.visible_eq_filter he hf hp

/-- Every role stores, in a tenant table, only rows the policy admits. -/
theorem tenant_checks_iff (before after : List RoleScript) (role : DbRole) (t : TenantModel)
    {α : Type*} (admits : α → Bool) (row : α) :
    (deployedCatalog before after).Checks role t.1 admits row ↔ admits row := by
  obtain ⟨he, hf, hp⟩ := deployed_rowSecurity before after t.2
  exact Catalog.checks_iff he hf hp

/-! ### What `rca_mcp` may read -/

/-- The `GRANT` to `rca_mcp` is in force. -/
theorem rcaMcp_granted (before after : List RoleScript) {t : Table}
    (ht : t ∈ [Table.workspace, .rcaRun, .incident, .deployment, .deploymentHealthSample,
      .runtimeConfig]) :
    (.role .rcaMcp, .select, t) ∈ (deployedCatalog before after).acl := by
  have split : deployedStatements before after =
      (before.flatMap RoleScript.statements ++ (earlierTables.map (.createTable .rcaMigrator) ++
        tenancyTables.map (.createTable .rcaMigrator) ++ rowSecurityStatements ++
        grantStatements.take 5)) ++ .grant [.select]
        [.workspace, .rcaRun, .incident, .deployment, .deploymentHealthSample, .runtimeConfig]
        [.role .rcaMcp] :: (.defaultRevoke .rcaMigrator .everyone ::
      ownedTables.map (fun t => .ownerTo t .rcaOwner) ++
        after.flatMap RoleScript.statements) := by
    rw [deployedStatements, migrations, grantStatements]
    simp only [List.append_assoc, List.take_succ_cons, List.take_zero, List.cons_append,
      List.nil_append]
  rw [deployedCatalog, split]
  refine Catalog.acl_of_grant (List.mem_singleton.mpr rfl) ht (List.mem_singleton.mpr rfl) ?_
  intro st hst
  have hno : ∀ st ∈ deployedStatements before after, ¬ st.Revokes (.role .rcaMcp) :=
    forall_deployedStatements before after (fun s => by cases s <;> decide) (by decide)
  refine hno st ?_
  rw [split]
  exact List.mem_append_right _ (List.mem_cons_of_mem _ hst)

/-- The tables `rca_mcp` may read are those of its `GRANT`. -/
theorem rcaMcp_select_iff (before after : List RoleScript) (t : Table) :
    (deployedCatalog before after).Allows .rcaMcp .select t ↔
      t ∈ [Table.workspace, .rcaRun, .incident, .deployment, .deploymentHealthSample,
        .runtimeConfig] := by
  constructor
  · intro h
    obtain ⟨st, hst, hg⟩ := rcaMcp_grants h
    refine forall_deployedStatements (P := fun st =>
      (st.MayGrant .everyone .select t ∨ st.MayGrant (.role .rcaMcp) .select t) →
        t ∈ [Table.workspace, .rcaRun, .incident, .deployment, .deploymentHealthSample,
          .runtimeConfig]) before after (fun s => ?_) ?_ st hst hg
    · cases s <;> cases t <;> decide
    · cases t <;> decide
  · intro ht
    refine .inr (.inr ⟨.rcaMcp, by rw [rcaMcp_rolesOf]; exact List.mem_singleton.mpr rfl, ?_⟩)
    exact rcaMcp_granted before after ht

end NexCause
