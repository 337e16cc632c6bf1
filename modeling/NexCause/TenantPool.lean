/-
NexCause/TenantPool.lean

`PrismaService`: how queries on the tenant models reach PostgreSQL over a pool
of connections (`prisma.service.ts`), and what the database does with them
there.

A connection carries the setting `app.workspace_id`.  `set_config(…, true)`
lasts until the end of the transaction; afterwards the setting is unset, or
the empty string.  Transactions run on different connections in any
interleaving: a statement sees the committed rows and the writes of its own
transaction, and the writes become visible to others at its commit.

The query extension decides, from the tenant context, whether a query is
executed as it is or inside a transaction that first sets the workspace
(`allOperations`); `withTenantTransaction` opens such a transaction for a
callback.  A query with nested reads or writes is several statements.

Main result: `tenant_isolation` — under tenant context `W` every statement
reads and writes rows of `W` only; without one it reads and writes nothing.
-/
import NexCause.TenantSchema
import NexCause.Transition
import NexCause.Program

namespace NexCause

open AccessControl Transition

/-- What `randomUUID()` returns. -/
def Uuid : Type := { s : String // s.length = 36 }

/-! ### Rows -/

/-- A row of a tenant table; `data` holds its other columns. -/
structure TenantRow (D : Type) where
  id : String
  workspaceId : String
  data : D
  deriving Repr

/-- The workspaces and the rows of the tenant tables. -/
structure TenantDb (D : Type) where
  workspaces : List String
  rows : TenantModel → List (TenantRow D)

/-- One row-level change. -/
inductive RowWrite (D : Type)
  | put (t : TenantModel) (row : TenantRow D)
  | erase (t : TenantModel) (id : String)

variable {D : Type}

def TenantDb.apply (db : TenantDb D) : RowWrite D → TenantDb D
  | .put t row =>
      { db with
        rows := Function.update db.rows t ((db.rows t).filter (fun r => r.id ≠ row.id) ++ [row]) }
  | .erase t id =>
      { db with
        rows := Function.update db.rows t ((db.rows t).filter fun r => r.id ≠ id) }

def TenantDb.applyAll (db : TenantDb D) (ws : List (RowWrite D)) : TenantDb D :=
  ws.foldl TenantDb.apply db

/-! ### Statements -/

/-- What a foreign key does to a row whose parent is deleted.  Foreign keys
act below row security. -/
inductive ReferentialAction (D : Type)
  | cascade (t : TenantModel) (id : String)
  | setNull (t : TenantModel) (id : String) (clear : D → D)

/-- A statement on a tenant table.  A `where` clause may refer to other tables,
of which it too sees the visible rows only. -/
inductive TenantStatement (D : Type)
  | select (t : TenantModel) (p : (TenantModel → List (TenantRow D)) → TenantRow D → Bool)
  /-- `workspaceId` is `none` when the column is left to its default -/
  | insert (t : TenantModel) (id : String) (workspaceId : Option String) (data : D)
  | update (t : TenantModel) (p : (TenantModel → List (TenantRow D)) → TenantRow D → Bool)
      (f : TenantRow D → TenantRow D)
  | delete (t : TenantModel) (p : (TenantModel → List (TenantRow D)) → TenantRow D → Bool)
      (actions : List (ReferentialAction D))

inductive TenantDbError
  /-- `current_setting('app.workspace_id')` of a setting that was never set -/
  | unrecognizedParameter
  | rowSecurityViolation
  | foreignKeyViolation
  | uniqueViolation
  deriving DecidableEq, Repr

/-- What a statement returns (`SELECT` or `RETURNING`), the rows it inserted or
updated, and all its row-level changes. -/
structure StatementResult (D : Type) where
  returned : List (TenantRow D)
  written : List (TenantRow D)
  writes : List (RowWrite D)

/-- The rows of each tenant table that the service's role sees. -/
def visibleRows (c : Catalog Table DbRole) (setting : Option String) (db : TenantDb D)
    (t : TenantModel) : List (TenantRow D) :=
  c.visible .deploymentManager t.1 (fun r => workspaceIsolation setting r.workspaceId) (db.rows t)

/-- A new version of a row is accepted by the policy and by the foreign key to
`Workspace`. -/
def checkRow (c : Catalog Table DbRole) (setting : Option String) (db : TenantDb D)
    (t : TenantModel) (row : TenantRow D) : Except TenantDbError Unit :=
  if ¬ c.Checks .deploymentManager t.1 (fun r : TenantRow D =>
      workspaceIsolation setting r.workspaceId) row then
    .error .rowSecurityViolation
  else if row.workspaceId ∉ db.workspaces then .error .foreignKeyViolation
  else .ok ()

/-- The row-level changes of a referential action. -/
def ReferentialAction.writes (db : TenantDb D) : ReferentialAction D → List (RowWrite D)
  | .cascade t id => [.erase t id]
  | .setNull t id clear =>
      ((db.rows t).filter fun r => r.id = id).map fun r => .put t { r with data := clear r.data }

/-- Execute a statement over the rows `db`. -/
def executeStatement (c : Catalog Table DbRole) (setting : Option String) (db : TenantDb D) :
    TenantStatement D → Except TenantDbError (StatementResult D)
  | .select t p =>
      .ok ⟨(visibleRows c setting db t).filter (p (visibleRows c setting db)), [], []⟩
  | .insert t id workspaceId data =>
      match workspaceId.or setting with
      | none => .error .unrecognizedParameter
      | some w => do
          let row : TenantRow D := ⟨id, w, data⟩
          checkRow c setting db t row
          if (db.rows t).any fun r => r.id = id then throw .uniqueViolation
          return ⟨[row], [row], [.put t row]⟩
  | .update t p f => do
      let old := (visibleRows c setting db t).filter (p (visibleRows c setting db))
      let new := old.map f
      forM new (checkRow c setting db t)
      return ⟨new, new, old.map (fun r => .erase t r.id) ++ new.map (.put t)⟩
  | .delete t p actions =>
      let old := (visibleRows c setting db t).filter (p (visibleRows c setting db))
      .ok ⟨old, [], old.map (fun r => .erase t r.id) ++ actions.flatMap (·.writes db)⟩

/-! ### `PrismaService` -/

structure TenantExecutionContext where
  workspaceId : String
  transactionActive : Bool
  deriving DecidableEq, Repr

/-- The workspace of a context, if it has one. -/
def tenantWorkspace (ctx : Option TenantExecutionContext) : Option String :=
  (ctx.map (·.workspaceId)).filter (· ≠ "")

/-- How a query is executed. -/
inductive QueryPlan
  /-- `query(args)` -/
  | plain
  /-- `$transaction([set_config(workspaceId), query(args)])` -/
  | wrapped (workspaceId : String)
  deriving DecidableEq, Repr

/-- The query extension, for an operation on `model`. -/
def allOperations (ctx : Option TenantExecutionContext) (model : Table) : QueryPlan :=
  if (ctx.map (·.transactionActive)).getD false then .plain
  else
    match tenantWorkspace ctx with
    | none => .plain
    | some workspaceId => if model ∈ tenantTables then .wrapped workspaceId else .plain

/-- `withTenantTransaction`; `none` when `requireWorkspaceId` throws. -/
def withTenantTransaction (ctx : Option TenantExecutionContext) : Option QueryPlan :=
  (tenantWorkspace ctx).map .wrapped

/-! ### The pool -/

/-- The transaction open on a connection.  `ctx` is the tenant context it was
issued under. -/
structure OpenTransaction (D : Type) where
  ctx : Option TenantExecutionContext
  plan : QueryPlan
  writes : List (RowWrite D)
  aborted : Bool

/-- A pooled connection: its `app.workspace_id` and its open transaction. -/
structure Connection (D : Type) where
  setting : Option String
  tx : Option (OpenTransaction D)

structure PoolState (D : Type) where
  db : TenantDb D
  connections : List (Connection D)

/-- What the end of a transaction leaves of a transaction-local setting. -/
inductive Leftover
  | unset | emptyString
  deriving DecidableEq, Repr

def Leftover.setting : Leftover → Option String
  | .unset => none
  | .emptyString => some ""

/-- One step of the pool. -/
inductive PoolLabel (D : Type)
  /-- the pool opens a connection -/
  | connect
  /-- a query on `model` is issued and gets connection `c` -/
  | query (c : ℕ) (ctx : Option TenantExecutionContext) (model : Table)
  /-- `withTenantTransaction` gets connection `c` -/
  | tenantTransaction (c : ℕ) (ctx : Option TenantExecutionContext)
  | statement (c : ℕ) (st : TenantStatement D)
  /-- the transaction ends -/
  | finish (c : ℕ) (commit : Bool) (leaves : Leftover)
  /-- `resolveIdentity` inserts a workspace -/
  | createWorkspace (id : Uuid)

/-- Begin a transaction that follows `plan` on an idle connection. -/
def Connection.start (setting : Option String) (ctx : Option TenantExecutionContext)
    (plan : QueryPlan) : Connection D where
  setting :=
    match plan with
    | .plain => setting
    | .wrapped workspaceId => some workspaceId
  tx := some ⟨ctx, plan, [], false⟩

/-- End the transaction: a transaction-local setting is undone. -/
def Connection.finish (setting : Option String) (tx : OpenTransaction D) (leaves : Leftover) :
    Connection D where
  setting :=
    match tx.plan with
    | .plain => setting
    | .wrapped _ => leaves.setting
  tx := none

/-- What the statements of the transaction see. -/
def PoolState.view (s : PoolState D) (tx : OpenTransaction D) : TenantDb D :=
  s.db.applyAll tx.writes

/-- One statement in an open transaction; an error aborts it. -/
def PoolState.runStatement (c : Catalog Table DbRole) (s : PoolState D) (setting : Option String)
    (tx : OpenTransaction D) (st : TenantStatement D) : OpenTransaction D :=
  match executeStatement c setting (s.view tx) st with
  | .ok r => { tx with writes := tx.writes ++ r.writes }
  | .error _ => { tx with aborted := true }

/-- The step function of the pool. -/
def poolStep (c : Catalog Table DbRole) (s : PoolState D) : PoolLabel D → Option (PoolState D)
  | .connect => some { s with connections := s.connections ++ [⟨none, none⟩] }
  | .query i ctx model =>
      match s.connections[i]? with
      | some ⟨setting, none⟩ =>
          some { s with
            connections := s.connections.set i
              (.start setting ctx (allOperations ctx model)) }
      | _ => none
  | .tenantTransaction i ctx =>
      match s.connections[i]?, withTenantTransaction ctx with
      | some ⟨setting, none⟩, some plan =>
          some { s with
            connections := s.connections.set i (.start setting ctx plan) }
      | _, _ => none
  | .statement i st =>
      match s.connections[i]? with
      | some ⟨setting, some tx⟩ =>
          if tx.aborted then none
          else some { s with
            connections := s.connections.set i
              ⟨setting, some (s.runStatement c setting tx st)⟩ }
      | _ => none
  | .finish i commit leaves =>
      match s.connections[i]? with
      | some ⟨setting, some tx⟩ =>
          some { db := if commit ∧ ¬ tx.aborted then s.view tx else s.db
                 connections := s.connections.set i (.finish setting tx leaves) }
      | _ => none
  | .createWorkspace id =>
      some { s with db := { s.db with workspaces := id.1 :: s.db.workspaces } }

/-- A pool after the migrations: the bootstrap workspace owns the earlier rows,
and each connection is as some earlier transaction left it. -/
def migratedPool (leftovers : List Leftover) (rows : TenantModel → List (String × D)) :
    PoolState D where
  db := ⟨["legacy-workspace"], fun t => (rows t).map fun r => ⟨r.1, "legacy-workspace", r.2⟩⟩
  connections := leftovers.map fun l => ⟨l.setting, none⟩

/-! ### Isolation of one statement -/

/-- A statement issued under the tenant context reads and writes rows of its
workspace only; without a workspace it reads and writes none. -/
def StatementResult.Isolated (res : StatementResult D) (ctx : Option TenantExecutionContext) :
    Prop :=
  match tenantWorkspace ctx with
  | some w => (∀ row ∈ res.returned, row.workspaceId = w) ∧ ∀ row ∈ res.written, row.workspaceId = w
  | none => res.returned = [] ∧ res.written = []

/-- Foreign keys hold, and no workspace has the empty id. -/
structure TenantDb.WellFormed (db : TenantDb D) : Prop where
  workspace : ∀ t, ∀ r ∈ db.rows t, r.workspaceId ∈ db.workspaces
  nonempty : "" ∉ db.workspaces

theorem mem_visibleRows {before after : List RoleScript} {setting : Option String}
    {db : TenantDb D} {t : TenantModel} {r : TenantRow D} :
    r ∈ visibleRows (deployedCatalog before after) setting db t ↔
      r ∈ db.rows t ∧ setting = some r.workspaceId := by
  rw [visibleRows, tenant_visible, List.mem_filter, workspaceIsolation, decide_eq_true_eq]

theorem checkRow_ok {before after : List RoleScript} {setting : Option String}
    {db : TenantDb D} {t : TenantModel} {r : TenantRow D} {u : Unit}
    (h : checkRow (deployedCatalog before after) setting db t r = .ok u) :
    setting = some r.workspaceId ∧ r.workspaceId ∈ db.workspaces := by
  unfold checkRow at h
  split at h
  · cases h
  · rename_i hcheck
    rw [not_not, tenant_checks_iff, workspaceIsolation, decide_eq_true_eq] at hcheck
    split at h
    · cases h
    · rename_i hfk
      exact ⟨hcheck, not_not.mp hfk⟩

theorem forM_checkRow_ok {before after : List RoleScript} {setting : Option String}
    {db : TenantDb D} {t : TenantModel} {rows : List (TenantRow D)} {u : Unit}
    (h : forM rows (checkRow (deployedCatalog before after) setting db t) = .ok u) :
    ∀ r ∈ rows, setting = some r.workspaceId ∧ r.workspaceId ∈ db.workspaces := by
  induction rows with
  | nil => exact fun r hr => by cases hr
  | cons r rows ih =>
    rw [List.forM_cons] at h
    obtain ⟨_, hc, hrest⟩ := Program.except_bind_ok h
    intro r' hr'
    rcases List.mem_cons.mp hr' with rfl | hr'
    · exact checkRow_ok hc
    · exact ih hrest r' hr'

/-- **What one statement may touch**: every row it returns, inserts or updates
belongs to the workspace of the setting, and every version it stores names an
existing workspace. -/
theorem executeStatement_ok {before after : List RoleScript} {setting : Option String}
    {db : TenantDb D} (hdb : db.WellFormed) {st : TenantStatement D} {res : StatementResult D}
    (h : executeStatement (deployedCatalog before after) setting db st = .ok res) :
    (∀ row ∈ res.returned ++ res.written,
      setting = some row.workspaceId ∧ row.workspaceId ∈ db.workspaces) ∧
    ∀ t row, RowWrite.put t row ∈ res.writes → row.workspaceId ∈ db.workspaces := by
  have hvis : ∀ t, ∀ row ∈ visibleRows (deployedCatalog before after) setting db t,
      setting = some row.workspaceId ∧ row.workspaceId ∈ db.workspaces := by
    intro t row hrow
    obtain ⟨hmem, hset⟩ := mem_visibleRows.mp hrow
    exact ⟨hset, hdb.workspace t row hmem⟩
  cases st with
  -- a role reads what it sees
  | select t p =>
    obtain rfl := Except.ok.inj h
    refine ⟨fun row hrow => ?_, fun t row hw => by cases hw⟩
    rw [List.append_nil] at hrow
    exact hvis t row (List.mem_of_mem_filter hrow)
  -- a new row is checked before it is written
  | insert t id workspaceId data =>
    simp only [executeStatement] at h
    split at h
    · cases h
    · obtain ⟨_, hc, h⟩ := Program.except_bind_ok h
      have hrow := checkRow_ok hc
      split at h
      · cases h
      · obtain rfl := Except.ok.inj h
        refine ⟨fun row hr => ?_, fun t' row hw => ?_⟩
        · rcases List.mem_append.mp hr with hr | hr <;>
            exact List.mem_singleton.mp hr ▸ hrow
        · obtain ⟨-, rfl⟩ := RowWrite.put.inj (List.mem_singleton.mp hw)
          exact hrow.2
  -- so is each row that an update leaves behind
  | update t p f =>
    simp only [executeStatement] at h
    obtain ⟨_, hc, h⟩ := Program.except_bind_ok h
    have hnew := forM_checkRow_ok hc
    obtain rfl := Except.ok.inj h
    refine ⟨fun row hr => ?_, fun t' row hw => ?_⟩
    · rcases List.mem_append.mp hr with hr | hr <;> exact hnew row hr
    · rcases List.mem_append.mp hw with hw | hw
      · obtain ⟨_, -, he⟩ := List.mem_map.mp hw
        cases he
      · obtain ⟨row', hrow', he⟩ := List.mem_map.mp hw
        obtain ⟨-, rfl⟩ := RowWrite.put.inj he
        exact (hnew _ hrow').2
  | delete t p actions =>
    obtain rfl := Except.ok.inj h
    refine ⟨fun row hrow => ?_, fun t' row hw => ?_⟩
    · rw [List.append_nil] at hrow
      exact hvis t row (List.mem_of_mem_filter hrow)
    · rcases List.mem_append.mp hw with hw | hw
      · obtain ⟨_, -, he⟩ := List.mem_map.mp hw
        cases he
      · obtain ⟨action, -, hw⟩ := List.mem_flatMap.mp hw
        cases action with
        | cascade t₁ id => simp [ReferentialAction.writes] at hw
        -- a row that loses its reference stays in its workspace
        | setNull t₁ id clear =>
          obtain ⟨r, hr, he⟩ := List.mem_map.mp hw
          obtain ⟨rfl, rfl⟩ := RowWrite.put.inj he
          exact hdb.workspace t₁ r (List.mem_of_mem_filter hr)

/-! ### Row-level changes keep the foreign keys -/

@[simp] theorem TenantDb.apply_workspaces (db : TenantDb D) (w : RowWrite D) :
    (db.apply w).workspaces = db.workspaces := by
  cases w <;> rfl

/-- The row-level changes store only rows of the workspaces `ws`. -/
def StoresIn (ws : List String) (writes : List (RowWrite D)) : Prop :=
  ∀ t row, RowWrite.put t row ∈ writes → row.workspaceId ∈ ws

/-- A row found after a change is an old one or the one just stored. -/
theorem TenantDb.mem_apply {db : TenantDb D} {w : RowWrite D} {t : TenantModel} {r : TenantRow D}
    (h : r ∈ (db.apply w).rows t) : r ∈ db.rows t ∨ w = .put t r := by
  cases w with
  | put t' row =>
    simp only [TenantDb.apply, Function.update_apply] at h
    split at h
    · rename_i ht
      subst ht
      rcases List.mem_append.mp h with h | h
      · exact .inl (List.mem_of_mem_filter h)
      · exact .inr (by rw [List.mem_singleton.mp h])
    · exact .inl h
  | erase t' id =>
    simp only [TenantDb.apply, Function.update_apply] at h
    split at h
    · rename_i ht
      subst ht
      exact .inl (List.mem_of_mem_filter h)
    · exact .inl h

theorem TenantDb.WellFormed.apply {db : TenantDb D} (h : db.WellFormed) {w : RowWrite D}
    (hw : StoresIn db.workspaces [w]) : (db.apply w).WellFormed := by
  refine ⟨fun t r hr => ?_, by rw [apply_workspaces]; exact h.nonempty⟩
  rw [apply_workspaces]
  rcases TenantDb.mem_apply hr with hr | rfl
  · exact h.workspace t r hr
  · exact hw t r (List.mem_singleton.mpr rfl)

theorem TenantDb.WellFormed.applyAll {db : TenantDb D} (h : db.WellFormed)
    {writes : List (RowWrite D)} (hw : StoresIn db.workspaces writes) :
    (db.applyAll writes).WellFormed := by
  induction writes generalizing db with
  | nil => exact h
  | cons w writes ih =>
    refine ih (h.apply fun t row hrow => ?_) fun t row hrow => ?_
    · exact hw t row (List.mem_singleton.mp hrow ▸ List.mem_cons_self)
    · rw [apply_workspaces]
      exact hw t row (List.mem_cons_of_mem w hrow)

theorem TenantDb.applyAll_workspaces (db : TenantDb D) (writes : List (RowWrite D)) :
    (db.applyAll writes).workspaces = db.workspaces := by
  induction writes generalizing db with
  | nil => rfl
  | cons w writes ih => exact (ih (db.apply w)).trans (db.apply_workspaces w)

/-! ### The invariant of the pool -/

/-- The setting holds no workspace. -/
def NoWorkspace (setting : Option String) : Prop := setting = none ∨ setting = some ""

/-- What a connection's setting is: the workspace of the context during a
wrapped transaction, no workspace at any other time.  What an open transaction
has stored belongs to the workspaces `ws`. -/
structure Connection.Clean (ws : List String) (conn : Connection D) : Prop where
  idle : conn.tx = none → NoWorkspace conn.setting
  plain : ∀ tx, conn.tx = some tx → tx.plan = .plain → NoWorkspace conn.setting
  wrapped : ∀ tx w, conn.tx = some tx → tx.plan = .wrapped w →
    conn.setting = some w ∧ tenantWorkspace tx.ctx = some w
  stores : ∀ tx, conn.tx = some tx → StoresIn ws tx.writes

structure PoolState.Clean (s : PoolState D) : Prop where
  db : s.db.WellFormed
  connections : ∀ conn ∈ s.connections, conn.Clean s.db.workspaces

theorem Leftover.noWorkspace (l : Leftover) : NoWorkspace l.setting := by
  cases l
  · exact .inl rfl
  · exact .inr rfl

theorem Connection.Clean.of_idle {ws : List String} {setting : Option String}
    (h : NoWorkspace setting) : Connection.Clean ws (⟨setting, none⟩ : Connection D) :=
  ⟨fun _ => h, fun _ he => (by cases he), fun _ _ he => (by cases he), fun _ he => (by cases he)⟩

/-- The plan of the query extension wraps only in the workspace of the context. -/
theorem allOperations_wrapped {ctx : Option TenantExecutionContext} {model : Table} {w : String}
    (h : allOperations ctx model = .wrapped w) : tenantWorkspace ctx = some w := by
  unfold allOperations at h
  split at h
  · cases h
  · split at h
    · cases h
    · rename_i w' hw'
      split at h
      · rw [hw', QueryPlan.wrapped.inj h]
      · cases h

theorem withTenantTransaction_wrapped {ctx : Option TenantExecutionContext} {plan : QueryPlan}
    (h : withTenantTransaction ctx = some plan) :
    ∃ w, plan = .wrapped w ∧ tenantWorkspace ctx = some w := by
  obtain ⟨w, hw, rfl⟩ := Option.map_eq_some_iff.mp h
  exact ⟨w, rfl, hw⟩

theorem Connection.Clean.start {ws : List String} {setting : Option String}
    (h : NoWorkspace setting) {ctx : Option TenantExecutionContext} {plan : QueryPlan}
    (hplan : ∀ w, plan = .wrapped w → tenantWorkspace ctx = some w) :
    (Connection.start setting ctx plan : Connection D).Clean ws := by
  refine ⟨fun he => (by cases he), fun tx he hp => ?_, fun tx w he hp => ?_, fun tx he => ?_⟩ <;>
    obtain rfl := Option.some.inj he
  · simp only at hp
    simpa [Connection.start, hp] using h
  · simp only at hp
    exact ⟨by simp [Connection.start, hp], hplan w hp⟩
  · exact fun t row hrow => by cases hrow

theorem Connection.Clean.finish {ws : List String} {setting : Option String}
    {tx : OpenTransaction D} (h : (⟨setting, some tx⟩ : Connection D).Clean ws)
    (leaves : Leftover) : (Connection.finish setting tx leaves).Clean ws := by
  refine .of_idle ?_
  cases hp : tx.plan with
  | plain => exact h.plain tx rfl hp
  | wrapped w => exact leaves.noWorkspace

/-- A transaction of a clean pool sees a well-formed database. -/
theorem PoolState.Clean.view {s : PoolState D} (h : s.Clean) {setting : Option String}
    {tx : OpenTransaction D} (hconn : ⟨setting, some tx⟩ ∈ s.connections) :
    (s.view tx).WellFormed :=
  h.db.applyAll ((h.connections _ hconn).stores tx rfl)

/-- A statement adds to its transaction only rows of existing workspaces. -/
theorem Connection.Clean.runStatement {before after : List RoleScript} {s : PoolState D}
    (hs : s.Clean) {setting : Option String} {tx : OpenTransaction D}
    (hconn : ⟨setting, some tx⟩ ∈ s.connections) (st : TenantStatement D) :
    Connection.Clean s.db.workspaces
      ⟨setting, some (s.runStatement (deployedCatalog before after) setting tx st)⟩ := by
  have hc := hs.connections _ hconn
  have hsame : ∀ tx' : OpenTransaction D, tx'.ctx = tx.ctx → tx'.plan = tx.plan →
      StoresIn s.db.workspaces tx'.writes →
      Connection.Clean s.db.workspaces ⟨setting, some tx'⟩ := by
    intro tx' hctx hplan hst
    refine ⟨fun he => (by cases he), fun tx₁ he hp => ?_, fun tx₁ w he hp => ?_, fun tx₁ he => ?_⟩ <;>
      obtain rfl := Option.some.inj he
    · exact hc.plain tx rfl (hplan ▸ hp)
    · rw [hctx]
      exact hc.wrapped tx w rfl (hplan ▸ hp)
    · exact hst
  unfold PoolState.runStatement
  split
  · rename_i r hr
    refine hsame _ rfl rfl fun t row hrow => ?_
    rcases List.mem_append.mp hrow with hrow | hrow
    · exact hc.stores tx rfl t row hrow
    · have hput := (executeStatement_ok (hs.view hconn) hr).2 t row hrow
      rwa [PoolState.view, TenantDb.applyAll_workspaces] at hput
  · exact hsame _ rfl rfl (hc.stores tx rfl)

/-- Replacing one connection by a clean one. -/
theorem PoolState.Clean.set {s : PoolState D} (h : s.Clean) (i : ℕ) {conn : Connection D}
    (hconn : conn.Clean s.db.workspaces) :
    PoolState.Clean { s with connections := s.connections.set i conn } := by
  refine ⟨h.db, fun conn' hmem => ?_⟩
  rcases List.mem_or_eq_of_mem_set hmem with hmem | rfl
  · exact h.connections conn' hmem
  · exact hconn

/-- More workspaces do no harm. -/
theorem Connection.Clean.mono {ws ws' : List String} {conn : Connection D} (h : conn.Clean ws)
    (hsub : ∀ w ∈ ws, w ∈ ws') : conn.Clean ws' :=
  ⟨h.idle, h.plain, h.wrapped, fun tx he t row hrow => hsub _ (h.stores tx he t row hrow)⟩

/-- Every step keeps the pool clean. -/
theorem poolStep_clean {before after : List RoleScript} {s s' : PoolState D} {l : PoolLabel D}
    (h : s.Clean) (hstep : poolStep (deployedCatalog before after) s l = some s') : s'.Clean := by
  cases l with
  | connect =>
    obtain rfl := Option.some.inj hstep
    refine ⟨h.db, fun conn hmem => ?_⟩
    rcases List.mem_append.mp hmem with hmem | hmem
    · exact h.connections conn hmem
    · rw [List.mem_singleton.mp hmem]
      exact .of_idle (.inl rfl)
  | query i ctx model =>
    simp only [poolStep] at hstep
    split at hstep
    · rename_i setting hi
      obtain rfl := Option.some.inj hstep
      have hidle := (h.connections _ (List.mem_of_getElem? hi)).idle rfl
      exact h.set i (.start hidle fun w => allOperations_wrapped)
    · cases hstep
  | tenantTransaction i ctx =>
    simp only [poolStep] at hstep
    split at hstep
    · rename_i setting plan hi hplan
      obtain rfl := Option.some.inj hstep
      obtain ⟨w, rfl, hw⟩ := withTenantTransaction_wrapped hplan
      have hidle := (h.connections _ (List.mem_of_getElem? hi)).idle rfl
      exact h.set i (.start hidle fun w' he => QueryPlan.wrapped.inj he ▸ hw)
    · cases hstep
  | statement i st =>
    simp only [poolStep] at hstep
    split at hstep
    · rename_i setting tx hi
      split at hstep
      · cases hstep
      · obtain rfl := Option.some.inj hstep
        exact h.set i (.runStatement h (List.mem_of_getElem? hi) st)
    · cases hstep
  | finish i commit leaves =>
    simp only [poolStep] at hstep
    split at hstep
    · rename_i setting tx hi
      obtain rfl := Option.some.inj hstep
      have hmem := List.mem_of_getElem? hi
      have hfin := h.set i ((h.connections _ hmem).finish leaves)
      -- committing keeps the list of workspaces
      by_cases hcom : commit = true ∧ ¬ tx.aborted
      · rw [if_pos hcom]
        refine ⟨h.view hmem, ?_⟩
        rw [show (s.view tx).workspaces = s.db.workspaces from s.db.applyAll_workspaces tx.writes]
        exact hfin.connections
      · rw [if_neg hcom]
        exact hfin
    · cases hstep
  | createWorkspace id =>
    obtain rfl := Option.some.inj hstep
    have hid : id.1 ≠ "" := by
      intro he
      have hlen := id.2
      rw [he] at hlen
      exact absurd hlen (by decide)
    refine ⟨⟨fun t r hr => List.mem_cons_of_mem _ (h.db.workspace t r hr), ?_⟩, fun conn hmem => ?_⟩
    · intro he
      rcases List.mem_cons.mp he with he | he
      · exact hid he.symm
      · exact h.db.nonempty he
    · exact (h.connections conn hmem).mono fun w hw => List.mem_cons_of_mem _ hw

theorem migratedPool_clean (leftovers : List Leftover)
    (rows : TenantModel → List (String × D)) : (migratedPool leftovers rows).Clean := by
  have hlegacy : "" ∉ ["legacy-workspace"] := by decide
  refine ⟨⟨fun t r hr => ?_, hlegacy⟩, fun conn hmem => ?_⟩
  · obtain ⟨r', -, rfl⟩ := List.mem_map.mp hr
    exact List.mem_singleton.mpr rfl
  · obtain ⟨l, -, rfl⟩ := List.mem_map.mp hmem
    exact .of_idle l.noWorkspace

theorem exec_clean {before after : List RoleScript} {leftovers : List Leftover}
    {rows : TenantModel → List (String × D)} {ls : List (PoolLabel D)} {s : PoolState D}
    (hrun : exec (poolStep (deployedCatalog before after)) (migratedPool leftovers rows) ls =
      some s) : s.Clean :=
  exec_invariant (C := fun _ _ => True) (fun _ _ _ hs _ hst => poolStep_clean hs hst)
    (migratedPool_clean leftovers rows) (along_true _ ls) hrun

/-! ### Isolation -/

/-- Without a workspace in the setting, nothing is read or written. -/
theorem isolated_of_noWorkspace {before after : List RoleScript} {setting : Option String}
    {db : TenantDb D} (hdb : db.WellFormed) (hset : NoWorkspace setting) {st : TenantStatement D}
    {res : StatementResult D}
    (h : executeStatement (deployedCatalog before after) setting db st = .ok res) :
    res.returned = [] ∧ res.written = [] := by
  have hrows := (executeStatement_ok hdb h).1
  have hnone : res.returned ++ res.written = [] := by
    rw [List.eq_nil_iff_forall_not_mem]
    intro row hrow
    obtain ⟨hs, hw⟩ := hrows row hrow
    rcases hset with rfl | rfl
    · cases hs
    · -- a setting that has decayed to the empty string names no workspace
      rw [← Option.some.inj hs] at hw
      exact hdb.nonempty hw
  exact List.append_eq_nil_iff.mp hnone

/-- **Tenant isolation over a shared pool.**  In every state the pool can
reach, whatever statement the transaction open on a connection executes is
isolated to the tenant context it was issued under. -/
theorem tenant_isolation {before after : List RoleScript} {leftovers : List Leftover}
    {rows : TenantModel → List (String × D)} {ls : List (PoolLabel D)} {s : PoolState D}
    (hrun : exec (poolStep (deployedCatalog before after)) (migratedPool leftovers rows) ls =
      some s)
    {i : ℕ} {setting : Option String} {tx : OpenTransaction D}
    (hconn : s.connections[i]? = some ⟨setting, some tx⟩) (st : TenantStatement D)
    {res : StatementResult D}
    (hres : executeStatement (deployedCatalog before after) setting (s.view tx) st = .ok res) :
    res.Isolated tx.ctx := by
  have hclean := exec_clean hrun
  have hmem := List.mem_of_getElem? hconn
  have hc := hclean.connections _ hmem
  have hview := hclean.view hmem
  unfold StatementResult.Isolated
  cases hplan : tx.plan with
  | plain =>
    obtain ⟨hr, hw⟩ := isolated_of_noWorkspace hview (hc.plain tx rfl hplan) hres
    rw [hr, hw]
    split <;> simp
  | wrapped w =>
    obtain ⟨hset, hctx⟩ := hc.wrapped tx w rfl hplan
    rw [hctx]
    have hrows := (executeStatement_ok hview hres).1
    have hws : ∀ row ∈ res.returned ++ res.written, row.workspaceId = w := by
      intro row hrow
      have he := (hrows row hrow).1
      rw [show setting = some w from hset] at he
      exact (Option.some.inj he).symm
    exact ⟨fun row hrow => hws row (List.mem_append_left _ hrow),
      fun row hrow => hws row (List.mem_append_right _ hrow)⟩

/-- A second workspace. -/
def secondWorkspace : Uuid := ⟨"3b241101-e2bb-4255-8caf-4136c566a962", by decide⟩

/-- The apps of the platform. -/
def appModel : TenantModel := ⟨.app, List.mem_cons_self⟩

/-- The second workspace creates an app over connection 0, while a query
without tenant context is open on connection 1. -/
def twoConnections : List (PoolLabel Unit) :=
  [.createWorkspace secondWorkspace, .query 0 (some ⟨secondWorkspace.1, false⟩) .app,
   .query 1 none .app, .statement 0 (.insert appModel "app-2" none ())]

/-- The theorem applies to both connections of `twoConnections`. -/
theorem tenant_isolation_two_connections :
    ∃ s : PoolState Unit, exec (poolStep (deployedCatalog [.bundledChart] []))
        (migratedPool [.unset, .emptyString] fun _ => [("row-1", ())]) twoConnections = some s ∧
      ∀ (i : ℕ) (setting : Option String) (tx : OpenTransaction Unit),
        s.connections[i]? = some ⟨setting, some tx⟩ →
        ∀ res, executeStatement (deployedCatalog [.bundledChart] []) setting (s.view tx)
          (.select appModel fun _ _ => true) = .ok res → res.Isolated tx.ctx := by
  refine ⟨_, rfl, fun i setting tx hconn res hres => ?_⟩
  exact @tenant_isolation Unit [.bundledChart] [] [.unset, .emptyString] (fun _ => [("row-1", ())])
    twoConnections _ rfl i setting tx hconn (.select appModel fun _ _ => true) res hres

end NexCause
