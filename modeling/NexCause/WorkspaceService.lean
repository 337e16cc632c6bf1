/-
NexCause/WorkspaceService.lean

Workspaces of the deployment manager: `resolveIdentity` gives the organization
of an identity its workspace, and creates what is missing.

The transaction is a program over the statements of three tables.  A statement
may fail, by a unique index or by itself, and so may the commit; then all of it
is rolled back.

Main result: what a call that returns does to the mapping between workspaces and
organizations (`resolved_mapping`).
-/
import NexCause.SessionService

namespace NexCause

open Program Prog

/-! ### Identities -/

structure VerifiedIdentity where
  subject : String
  organizationId : String
  organizationName : String
  email : Option String
  displayName : Option String
  roles : List String
  scopes : List String
  deriving DecidableEq, Repr

/-- The exceptions of the services, and those of Prisma. -/
inductive AuthError
  | badRequest (message : String)
  | unauthorized (message : String)
  | forbidden (message : String)
  | internal (message : String)
  | prisma (e : PrismaError)
  deriving DecidableEq, Repr

/-! ### Rows -/

inductive WorkspaceStatus
  | active | suspended | deleted
  deriving DecidableEq, Repr

/-- What a workspace is created with. -/
structure NewWorkspace where
  id : String
  asgardeoOrganizationId : String
  displayName : String
  kubernetesNamespace : String
  deriving DecidableEq, Repr

structure WorkspaceRow extends NewWorkspace where
  status : WorkspaceStatus
  deriving DecidableEq, Repr

structure IdentityUser where
  id : String
  subject : String
  email : Option String
  displayName : Option String
  deriving DecidableEq, Repr

structure WorkspaceMembership where
  workspaceId : String
  userId : String
  roles : List String
  scopes : List String
  lastSeenAt : ℕ
  deriving DecidableEq, Repr

structure Tenants where
  workspaces : List WorkspaceRow
  users : List IdentityUser
  memberships : List WorkspaceMembership
  deriving DecidableEq, Repr

/-- The workspace of the data from before there were tenants, as the migration inserts it. -/
def legacyWorkspace : WorkspaceRow :=
  ⟨⟨"legacy-workspace", "legacy-bootstrap-required", "Legacy workspace", "rca-w-legacy"⟩, .active⟩

/-- The tables after the migration. -/
def migrated : Tenants := ⟨[legacyWorkspace], [], []⟩

/-! ### Statements -/

inductive TenantCall
  /-- `BEGIN` and `COMMIT` -/
  | control
  /-- `randomUUID()` -/
  | randomUUID
  /-- `new Date()` -/
  | now
  | findWorkspace (id : String)
  | updateWorkspace (id asgardeoOrganizationId displayName : String)
  /-- `upsert` by the organization -/
  | upsertWorkspace (create : NewWorkspace) (displayName : String)
  | upsertUser (subject : String) (email displayName : Option String)
  | upsertMembership (workspaceId userId : String) (roles scopes : List String) (lastSeenAt : ℕ)
  deriving DecidableEq, Repr

abbrev TenantCall.Result : TenantCall → Type
  | .control => Unit
  | .randomUUID => String
  | .now => ℕ
  | .findWorkspace _ => Option WorkspaceRow
  | .updateWorkspace _ _ _ => WorkspaceRow
  | .upsertWorkspace _ _ => WorkspaceRow
  | .upsertUser _ _ _ => IdentityUser
  | .upsertMembership _ _ _ _ _ => Unit

/-- What the environment chooses for a statement: whether it fails, the id that is generated, and the
clock. -/
structure TenantChoice where
  fault : Option AuthError
  id : String
  now : ℕ

/-- A workspace that an organization takes over. -/
def WorkspaceRow.adopt (w : WorkspaceRow) (asgardeoOrganizationId displayName : String) : WorkspaceRow :=
  { w with asgardeoOrganizationId := asgardeoOrganizationId, displayName := displayName }

def WorkspaceRow.rename (w : WorkspaceRow) (displayName : String) : WorkspaceRow :=
  { w with displayName := displayName }

def IdentityUser.update (u : IdentityUser) (email displayName : Option String) : IdentityUser :=
  { u with email := email <|> u.email, displayName := displayName <|> u.displayName }

/-- `workspace.update` -/
def Tenants.updateWorkspace (s : Tenants) (id organization displayName : String) :
    Except AuthError WorkspaceRow × Tenants :=
  match s.workspaces.find? (·.id = id) with
  | none => (.error (.prisma .recordNotFound), s)
  | some row =>
      if s.workspaces.any fun w => w.id ≠ id ∧ w.asgardeoOrganizationId = organization then
        (.error (.prisma .uniqueConstraint), s)
      else
        (.ok (row.adopt organization displayName),
          { s with workspaces := s.workspaces.map fun w =>
              if w.id = id then w.adopt organization displayName else w })

/-- `workspace.upsert` -/
def Tenants.upsertWorkspace (s : Tenants) (create : NewWorkspace) (displayName : String) :
    Except AuthError WorkspaceRow × Tenants :=
  match s.workspaces.find? (·.asgardeoOrganizationId = create.asgardeoOrganizationId) with
  | some row =>
      (.ok (row.rename displayName),
        { s with workspaces := s.workspaces.map fun w =>
            if w.asgardeoOrganizationId = create.asgardeoOrganizationId then w.rename displayName
            else w })
  | none =>
      if s.workspaces.any fun w =>
          w.id = create.id ∨ w.kubernetesNamespace = create.kubernetesNamespace then
        (.error (.prisma .uniqueConstraint), s)
      else (.ok ⟨create, .active⟩, { s with workspaces := s.workspaces ++ [⟨create, .active⟩] })

/-- `identityUser.upsert`, where a new user gets the id. -/
def Tenants.upsertUser (s : Tenants) (id subject : String) (email displayName : Option String) :
    Except AuthError IdentityUser × Tenants :=
  match s.users.find? (·.subject = subject) with
  | some row =>
      (.ok (row.update email displayName),
        { s with users := s.users.map fun u =>
            if u.subject = subject then u.update email displayName else u })
  | none =>
      if s.users.any fun u => u.id = id then (.error (.prisma .uniqueConstraint), s)
      else
        (.ok ⟨id, subject, email, displayName⟩,
          { s with users := s.users ++ [⟨id, subject, email, displayName⟩] })

/-- `workspaceMembership.upsert` at `now`. -/
def Tenants.upsertMembership (s : Tenants) (now : ℕ) (m : WorkspaceMembership) : Tenants :=
  if s.memberships.any fun n => n.workspaceId = m.workspaceId ∧ n.userId = m.userId then
    { s with memberships := s.memberships.map fun n =>
        if n.workspaceId = m.workspaceId ∧ n.userId = m.userId then m else n }
  else { s with memberships := s.memberships ++ [{ m with lastSeenAt := now }] }

/-- A statement that does not fail by itself. -/
def Tenants.answer (s : Tenants) (x : TenantChoice) :
    (c : TenantCall) → Except AuthError c.Result × Tenants
  | .control => (.ok (), s)
  | .randomUUID => (.ok x.id, s)
  | .now => (.ok x.now, s)
  | .findWorkspace id => (.ok (s.workspaces.find? (·.id = id)), s)
  | .updateWorkspace id organization displayName => s.updateWorkspace id organization displayName
  | .upsertWorkspace create displayName => s.upsertWorkspace create displayName
  | .upsertUser subject email displayName => s.upsertUser x.id subject email displayName
  | .upsertMembership workspaceId userId roles scopes lastSeenAt =>
      (.ok (), s.upsertMembership x.now ⟨workspaceId, userId, roles, scopes, lastSeenAt⟩)

/-- One statement. -/
def serveTenants : Service TenantCall TenantCall.Result AuthError TenantChoice Tenants :=
  fun c x s => match x.fault with
    | some e => (.error e, s)
    | none => s.answer x c

/-! ### The service -/

abbrev TenantAction (α : Type) : Type := Prog TenantCall TenantCall.Result AuthError α

/-- One statement of a transaction. -/
def askTenants (c : TenantCall) : TenantAction c.Result := perform c

/-- `auth.rootOrganizationId` and `auth.bootstrapOrganizationId` -/
structure WorkspaceConfig where
  rootOrganizationId : Option String
  bootstrapOrganizationId : Option String
  deriving DecidableEq, Repr

section Service

/- The hexadecimal SHA-256 of a text. -/
variable (sha256 : String → String)

/-- `namespaceFor` -/
def namespaceFor (workspaceId : String) : String :=
  "rca-w-" ++ String.ofList ((sha256 workspaceId).toList.take 16)

/-- The bootstrap organization takes over the legacy workspace. -/
def adoptLegacy (config : WorkspaceConfig) (identity : VerifiedIdentity) : TenantAction Unit :=
  if config.bootstrapOrganizationId.getD "" = identity.organizationId then do
    let legacy : Option WorkspaceRow ← askTenants (.findWorkspace "legacy-workspace")
    match legacy with
    | none => return ()
    | some legacy =>
        if legacy.asgardeoOrganizationId = "legacy-bootstrap-required" then
          let _ ← askTenants (.updateWorkspace legacy.id identity.organizationId identity.organizationName)
        else return ()
  else return ()

/-- The user and the membership. -/
def joinWorkspace (identity : VerifiedIdentity) (workspace : WorkspaceRow) :
    TenantAction (WorkspaceRow × IdentityUser) := do
  let user : IdentityUser ←
    askTenants (.upsertUser identity.subject identity.email identity.displayName)
  let lastSeenAt : ℕ ← askTenants .now
  askTenants (.upsertMembership workspace.id user.id identity.roles identity.scopes lastSeenAt)
  return (workspace, user)

/-- The callback of the transaction. -/
def resolveTx (config : WorkspaceConfig) (identity : VerifiedIdentity) :
    TenantAction (WorkspaceRow × IdentityUser) := do
  adoptLegacy config identity
  let newWorkspaceId : String ← askTenants .randomUUID
  let workspace : WorkspaceRow ← askTenants (.upsertWorkspace
    { id := newWorkspaceId
      asgardeoOrganizationId := identity.organizationId
      displayName := identity.organizationName
      kubernetesNamespace := namespaceFor sha256 newWorkspaceId } identity.organizationName)
  if workspace.status = .active then joinWorkspace identity workspace
  else Prog.throw (.forbidden "The workspace is not active")

/-- `$transaction` -/
def transaction {α : Type} (callback : TenantAction α) : TenantAction α := do
  askTenants .control
  let a ← callback
  askTenants .control
  return a

/-- A transaction on the tables; when it raises, it is rolled back. -/
def inTransaction {α : Type} (callback : TenantAction α) (env : ℕ → TenantChoice) (s : Tenants) :
    Except AuthError α × Tenants :=
  match (transaction callback).run serveTenants env s with
  | ⟨.ok a, t, _⟩ => (.ok a, t)
  | ⟨.error e, _, _⟩ => (.error e, s)

/-- Why `resolveIdentity` refuses an identity before its transaction. -/
def identityRefusal (config : WorkspaceConfig) (identity : VerifiedIdentity) : Option AuthError :=
  if config.rootOrganizationId.getD "" = "" then
    some (.internal "ASGARDEO_ROOT_ORGANIZATION_ID must be configured")
  else if identity.organizationId = config.rootOrganizationId.getD "" then
    some (.forbidden "Root organization users cannot use a customer workspace")
  else if identity.organizationId = "" ∨ identity.subject = "" then
    some (.unauthorized "The organization-scoped identity is incomplete")
  else none

/-- `resolveIdentity` -/
def resolveIdentity (config : WorkspaceConfig) (identity : VerifiedIdentity)
    (env : ℕ → TenantChoice) (s : Tenants) : Except AuthError (WorkspaceRow × IdentityUser) × Tenants :=
  match identityRefusal config identity with
  | some e => (.error e, s)
  | none => inTransaction (resolveTx sha256 config identity) env s

end Service

/-! ### The mapping -/

/-- Which workspace belongs to which organization. -/
abbrev Mapping : Type := List (String × String)

def WorkspaceRow.entry (w : WorkspaceRow) : String × String := (w.id, w.asgardeoOrganizationId)

def Tenants.mapping (s : Tenants) : Mapping := s.workspaces.map WorkspaceRow.entry

/-- The mapping after the legacy workspace was taken over. -/
def Mapping.adopt (m : Mapping) (organization : String) : Mapping :=
  m.map fun e => if e.1 = "legacy-workspace" then (e.1, organization) else e

/-- The legacy workspace is taken over, or not. -/
inductive Adopts (bootstrap organization : String) (m : Mapping) : Mapping → Prop
  | no : Adopts bootstrap organization m m
  | yes (hbootstrap : bootstrap = organization)
      (hlegacy : ("legacy-workspace", "legacy-bootstrap-required") ∈ m)
      (hnew : ∀ e ∈ m, e.1 ≠ "legacy-workspace" → e.2 ≠ organization) :
      Adopts bootstrap organization m (m.adopt organization)

/-- The organization has its workspace, or gets a new one. -/
inductive Finds (organization : String) (m : Mapping) (id : String) : Mapping → Prop
  | known (h : (id, organization) ∈ m) : Finds organization m id m
  | created (hid : ∀ e ∈ m, e.1 ≠ id) (horganization : ∀ e ∈ m, e.2 ≠ organization) :
      Finds organization m id (m ++ [(id, organization)])

/-- The statement leaves the workspaces alone. -/
def TenantCall.Elsewhere : TenantCall → Prop
  | .updateWorkspace _ _ _ => False
  | .upsertWorkspace _ _ => False
  | _ => True

/-- Statements on the workspaces, by what they do to the mapping. -/
abbrev tenantContract : Contract TenantCall TenantCall.Result AuthError Tenants :=
  Service.contract serveTenants fun _ _ => True

section Statements

variable {s t : Tenants} {x : TenantChoice}

/-- A statement that returns has not failed by itself. -/
theorem serveTenants_ok {c : TenantCall} {a : c.Result} (h : serveTenants c x s = (.ok a, t)) :
    s.answer x c = (.ok a, t) := by
  unfold serveTenants at h
  cases hfault : x.fault with
  | some e =>
    rw [hfault] at h
    cases (Prod.mk.inj h).1
  | none =>
    rw [hfault] at h
    exact h

theorem upsertUser_workspaces (id subject : String) (email displayName : Option String) :
    (s.upsertUser id subject email displayName).2.workspaces = s.workspaces := by
  unfold Tenants.upsertUser
  split
  · rfl
  · split
    · rfl
    · rfl

theorem upsertMembership_workspaces (now : ℕ) (m : WorkspaceMembership) :
    (s.upsertMembership now m).workspaces = s.workspaces := by
  unfold Tenants.upsertMembership
  split
  · rfl
  · rfl

/-- A statement on another table. -/
theorem elsewhere_workspaces {c : TenantCall} (hc : c.Elsewhere) {r : Except AuthError c.Result}
    (h : serveTenants c x s = (r, t)) : t.workspaces = s.workspaces := by
  have hsame : (serveTenants c x s).2.workspaces = s.workspaces := by
    unfold serveTenants
    cases x.fault with
    | some e => rfl
    | none =>
      cases c with
      | updateWorkspace id organization displayName => exact hc.elim
      | upsertWorkspace create displayName => exact hc.elim
      | upsertUser subject email displayName => exact upsertUser_workspaces _ _ _ _
      | upsertMembership workspaceId userId roles scopes lastSeenAt =>
        exact upsertMembership_workspaces _ _
      | _ => rfl
  rw [h] at hsame
  exact hsame

theorem mem_mapping {e : String × String} : e ∈ s.mapping ↔ ∃ w ∈ s.workspaces, w.entry = e := by
  unfold Tenants.mapping
  rw [List.mem_map]

/-- A row that was found. -/
theorem find_workspace {P : WorkspaceRow → Prop} [DecidablePred P] {w : WorkspaceRow}
    (h : s.workspaces.find? (fun w => decide (P w)) = some w) : w ∈ s.workspaces ∧ P w :=
  ⟨List.mem_of_find?_eq_some h, of_decide_eq_true (List.find?_some h :)⟩

/-- The legacy workspace is taken over. -/
theorem updateWorkspace_mapping {organization displayName : String} {w : WorkspaceRow}
    (h : s.updateWorkspace "legacy-workspace" organization displayName = (.ok w, t)) :
    t.mapping = s.mapping.adopt organization ∧
      ∀ e ∈ s.mapping, e.1 ≠ "legacy-workspace" → e.2 ≠ organization := by
  unfold Tenants.updateWorkspace at h
  split at h
  · cases (Prod.mk.inj h).1
  · split at h
    · cases (Prod.mk.inj h).1
    · rename_i hnone
      obtain ⟨-, rfl⟩ := Prod.mk.inj h
      constructor
      · unfold Tenants.mapping Mapping.adopt
        rw [List.map_map, List.map_map]
        apply List.map_congr_left
        intro w _
        show (if w.id = "legacy-workspace" then w.adopt organization displayName else w).entry =
          if w.id = "legacy-workspace" then (w.id, organization) else w.entry
        split
        · rfl
        · rfl
      · intro e he hid horganization
        obtain ⟨w, hw, rfl⟩ := mem_mapping.mp he
        apply hnone
        exact List.any_eq_true.mpr ⟨w, hw, decide_eq_true ⟨hid, horganization⟩⟩

/-- The organization has its workspace afterwards. -/
theorem upsertWorkspace_mapping {create : NewWorkspace} {displayName : String} {w : WorkspaceRow}
    (h : s.upsertWorkspace create displayName = (.ok w, t)) :
    w.asgardeoOrganizationId = create.asgardeoOrganizationId ∧
      Finds create.asgardeoOrganizationId s.mapping w.id t.mapping := by
  unfold Tenants.upsertWorkspace at h
  split at h
  · rename_i row hrow
    obtain ⟨hw, rfl⟩ := Prod.mk.inj h
    obtain rfl := Except.ok.inj hw
    -- the workspace is there, and only its name changes
    obtain ⟨hmem, horganization⟩ := find_workspace hrow
    refine ⟨horganization, ?_⟩
    have hsame : Tenants.mapping { s with workspaces := s.workspaces.map fun w =>
        if w.asgardeoOrganizationId = create.asgardeoOrganizationId then w.rename displayName
        else w } = s.mapping := by
      unfold Tenants.mapping
      rw [List.map_map]
      apply List.map_congr_left
      intro w _
      show (if w.asgardeoOrganizationId = create.asgardeoOrganizationId then w.rename displayName
        else w).entry = w.entry
      split
      · rfl
      · rfl
    rw [hsame]
    apply Finds.known
    apply mem_mapping.mpr
    exact ⟨row, hmem, Prod.ext rfl horganization⟩
  · rename_i hnone
    split at h
    · cases (Prod.mk.inj h).1
    · rename_i hfree
      obtain ⟨hw, rfl⟩ := Prod.mk.inj h
      obtain rfl := Except.ok.inj hw
      refine ⟨rfl, ?_⟩
      have happend : Tenants.mapping { s with workspaces := s.workspaces ++ [⟨create, .active⟩] } =
          s.mapping ++ [(create.id, create.asgardeoOrganizationId)] := List.map_append
      rw [happend]
      apply Finds.created
      · intro e he hid
        obtain ⟨w, hw, rfl⟩ := mem_mapping.mp he
        exact hfree (List.any_eq_true.mpr ⟨w, hw, decide_eq_true (.inl hid)⟩)
      · intro e he horganization
        obtain ⟨w, hw, rfl⟩ := mem_mapping.mp he
        exact absurd (decide_eq_true horganization) (List.find?_eq_none.mp hnone w hw)

end Statements

/-! ### A call -/

section Calls

variable {sha256 : String → String} {config : WorkspaceConfig} {identity : VerifiedIdentity}

theorem askTenants_meets {c : TenantCall} {s : Tenants} {Q : Except AuthError c.Result → Tenants → Prop}
    (h : ∀ r t x, serveTenants c x s = (r, t) → Q r t) : (askTenants c).Meets tenantContract Q s := by
  apply meets_perform.mpr
  refine ⟨trivial, ?_⟩
  rintro r t ⟨x, -, hserve⟩
  exact h r t x hserve

theorem askTenants_elsewhere {c : TenantCall} (hc : c.Elsewhere) :
    (askTenants c).Calls TenantCall.Elsewhere := calls_perform.mpr hc

/-- A program on other tables. -/
theorem elsewhere_meets {α : Type} {p : TenantAction α} (hp : p.Calls TenantCall.Elsewhere)
    {V : α → Prop} (hV : p.Returns V) (s : Tenants) :
    p.Meets tenantContract (fun r t => t.mapping = s.mapping ∧ ∀ a, r = .ok a → V a) s := by
  have hkeep : ∀ c u, TenantCall.Elsewhere c → Tenants.mapping u = s.mapping →
      tenantContract.pre c u ∧ ∀ r t, tenantContract.post c u r t → t.mapping = s.mapping := by
    intro c u hc hu
    refine ⟨trivial, ?_⟩
    rintro r t ⟨x, -, hserve⟩
    rw [← hu, Tenants.mapping, elsewhere_workspaces hc hserve, Tenants.mapping]
  exact hp.meets hV hkeep rfl

/-- What the reading of a workspace returns. -/
theorem findWorkspace_meets (id : String) (s : Tenants) :
    (askTenants (.findWorkspace id)).Meets tenantContract
      (fun r t => t = s ∧ ∀ found, r = .ok found → found = s.workspaces.find? (·.id = id)) s := by
  apply askTenants_meets
  intro r t x hserve
  unfold serveTenants at hserve
  cases hfault : x.fault with
  | some e =>
    rw [hfault] at hserve
    obtain ⟨rfl, rfl⟩ := Prod.mk.inj hserve
    exact ⟨rfl, fun _ h => by cases h⟩
  | none =>
    rw [hfault] at hserve
    obtain ⟨rfl, rfl⟩ := Prod.mk.inj hserve
    exact ⟨rfl, fun _ h => (Except.ok.inj h).symm⟩

theorem adoptLegacy_meets (s : Tenants) :
    (adoptLegacy config identity).Meets tenantContract
      (fun r t => ∀ a, r = .ok a →
        Adopts (config.bootstrapOrganizationId.getD "") identity.organizationId s.mapping t.mapping)
      s := by
  unfold adoptLegacy
  split
  · rename_i hbootstrap
    apply Meets.bind (findWorkspace_meets _ s)
    · rintro legacy t ⟨rfl, hlegacy⟩
      cases legacy with
      -- nothing to adopt
      | none => exact fun _ _ => .no
      | some legacy =>
        obtain ⟨hmem, hid⟩ := find_workspace (hlegacy _ rfl).symm
        show Meets _ (if _ then _ else _) _ _
        split
        · rename_i hplaceholder
          -- the row of the placeholder takes the organization over
          have hupdate : (askTenants (.updateWorkspace legacy.id identity.organizationId
              identity.organizationName)).Meets tenantContract
              (fun r u => ∀ a, r = .ok a → Adopts (config.bootstrapOrganizationId.getD "")
                identity.organizationId t.mapping u.mapping) t := by
            apply askTenants_meets
            rintro r u x hserve w rfl
            obtain ⟨hadopt, hnew⟩ := updateWorkspace_mapping (hid ▸ serveTenants_ok hserve)
            rw [hadopt]
            refine .yes hbootstrap ?_ hnew
            exact mem_mapping.mpr ⟨legacy, hmem, Prod.ext hid hplaceholder⟩
          apply Meets.bind hupdate
          · exact fun a u h _ _ => h a rfl
          · exact fun e u h b hb => by cases hb
        · exact fun _ _ => .no
    · exact fun e t h a ha => by cases ha
  · exact fun _ _ => .no

theorem joinWorkspace_calls (w : WorkspaceRow) :
    (joinWorkspace identity w).Calls TenantCall.Elsewhere := by
  apply Calls.bind (calls_perform.mpr trivial)
  intro user
  apply Calls.bind (calls_perform.mpr trivial)
  intro lastSeenAt
  apply Calls.bind (calls_perform.mpr trivial)
  exact fun _ => trivial

theorem joinWorkspace_returns (w : WorkspaceRow) : (joinWorkspace identity w).Returns (·.1 = w) := by
  intro r
  cases r with
  | error e => trivial
  | ok user =>
    intro r
    cases r with
    | error e => trivial
    | ok lastSeenAt =>
      intro r
      cases r with
      | error e => trivial
      | ok a => rfl

/-- What is known of a call that has returned a workspace. -/
structure Resolved (config : WorkspaceConfig) (identity : VerifiedIdentity) (m : Mapping)
    (w : WorkspaceRow) (m' : Mapping) : Prop where
  active : w.status = .active
  organization : w.asgardeoOrganizationId = identity.organizationId
  mapping : ∃ adopted,
    Adopts (config.bootstrapOrganizationId.getD "") identity.organizationId m adopted ∧
      Finds identity.organizationId adopted w.id m'

theorem resolveTx_meets (s : Tenants) :
    (resolveTx sha256 config identity).Meets tenantContract
      (fun r t => ∀ w u, r = .ok (w, u) → Resolved config identity s.mapping w t.mapping) s := by
  unfold resolveTx
  apply Meets.bind (adoptLegacy_meets s)
  · intro a s₁ hadopts
    -- the new id is drawn between the adoption and the upsert
    have huuid : (askTenants .randomUUID).Meets tenantContract
        (fun r t => t.mapping = s₁.mapping ∧ ∀ a, r = .ok a → True) s₁ :=
      elsewhere_meets (askTenants_elsewhere (c := .randomUUID) trivial)
        (Returns.of_forall (fun _ => trivial) _) s₁
    apply Meets.bind huuid
    · rintro newWorkspaceId s₂ ⟨hsame, -⟩
      have hupsert : (askTenants (.upsertWorkspace
          { id := newWorkspaceId
            asgardeoOrganizationId := identity.organizationId
            displayName := identity.organizationName
            kubernetesNamespace := namespaceFor sha256 newWorkspaceId }
          identity.organizationName)).Meets tenantContract
          (fun r s₃ => ∀ w : WorkspaceRow, r = .ok w →
            w.asgardeoOrganizationId = identity.organizationId ∧
              Finds identity.organizationId s₂.mapping w.id s₃.mapping) s₂ := by
        apply askTenants_meets
        rintro r s₃ x hserve w rfl
        exact upsertWorkspace_mapping (serveTenants_ok hserve)
      apply Meets.bind hupsert
      · intro w s₃ hw
        obtain ⟨horganization, hfinds⟩ := hw w rfl
        rw [hsame] at hfinds
        show Meets _ (if _ then _ else _) _ _
        split
        · -- an active workspace is joined, which does not change the mapping
          rename_i hactive
          apply (elsewhere_meets (joinWorkspace_calls w) (joinWorkspace_returns w) s₃).mono
          rintro r t ⟨hsame', hreturns⟩ w' u rfl
          obtain rfl : w' = w := hreturns _ rfl
          rw [hsame']
          exact ⟨hactive, horganization, s₁.mapping, hadopts a rfl, hfinds⟩
        · exact fun w' u h => by cases h
      · exact fun e t h w u hr => by cases hr
    · exact fun e t h w u hr => by cases hr
  · exact fun e t h w u hr => by cases hr

/-- A transaction meets what its callback meets, and the control statements keep. -/
theorem transaction_meets {α : Type} {callback : TenantAction α} {P : Mapping → α → Mapping → Prop}
    (h : ∀ s, callback.Meets tenantContract (fun r t => ∀ a, r = .ok a → P s.mapping a t.mapping) s)
    (s : Tenants) : (transaction callback).Meets tenantContract
      (fun r t => ∀ a, r = .ok a → P s.mapping a t.mapping) s := by
  have hcontrol : ∀ u, (askTenants .control).Meets tenantContract
      (fun r t => t.mapping = u.mapping ∧ ∀ a, r = .ok a → True) u := fun u =>
    elsewhere_meets (askTenants_elsewhere (c := .control) trivial)
      (Returns.of_forall (fun _ => trivial) _) u
  apply Meets.bind (hcontrol s)
  · rintro _ s₁ ⟨hsame, -⟩
    rw [← hsame]
    apply Meets.bind (h s₁)
    · intro a s₂ ha
      apply Meets.bind (hcontrol s₂)
      · rintro _ s₃ ⟨hsame', -⟩ b hb
        obtain rfl := Except.ok.inj hb
        rw [hsame']
        exact ha a rfl
      · exact fun e t _ b hb => by cases hb
    · exact fun e t _ b hb => by cases hb
  · exact fun e t _ b hb => by cases hb

/-- **A call that raises** changes no row. -/
theorem resolveIdentity_error {env : ℕ → TenantChoice} {s t : Tenants} {e : AuthError}
    (h : resolveIdentity sha256 config identity env s = (.error e, t)) : t = s := by
  unfold resolveIdentity at h
  split at h
  · exact (Prod.mk.inj h).2.symm
  · unfold inTransaction at h
    split at h
    · cases (Prod.mk.inj h).1
    · exact (Prod.mk.inj h).2.symm

/-- Whose identity is let in: that of a named organization other than the root one. -/
theorem resolved_identity {env : ℕ → TenantChoice} {s t : Tenants} {a : WorkspaceRow × IdentityUser}
    (h : resolveIdentity sha256 config identity env s = (.ok a, t)) :
    identity.organizationId ≠ "" ∧ config.rootOrganizationId ≠ some identity.organizationId := by
  have hnone : identityRefusal config identity = none := by
    unfold resolveIdentity at h
    split at h
    · cases (Prod.mk.inj h).1
    · assumption
  unfold identityRefusal at hnone
  split at hnone
  · cases hnone
  split at hnone
  · cases hnone
  · rename_i hroot
    split at hnone
    · cases hnone
    · rename_i hnamed
      refine ⟨fun hempty => hnamed (.inl hempty), fun hsome => hroot ?_⟩
      rw [hsome, Option.getD_some]

/-- **A call that returns**, by what it does to the mapping. -/
theorem resolved_mapping {env : ℕ → TenantChoice} {s t : Tenants} {w : WorkspaceRow} {u : IdentityUser}
    (h : resolveIdentity sha256 config identity env s = (.ok (w, u), t)) :
    Resolved config identity s.mapping w t.mapping := by
  unfold resolveIdentity at h
  split at h
  · cases (Prod.mk.inj h).1
  unfold inTransaction at h
  have htx : ∀ s, (resolveTx sha256 config identity).Meets tenantContract
      (fun r t => ∀ a, r = .ok a → Resolved config identity s.mapping a.1 t.mapping) s := by
    intro s
    apply (resolveTx_meets s).mono
    rintro r t hr ⟨w, u⟩ ha
    exact hr w u ha
  have hmeets : ∀ a, ((transaction (resolveTx sha256 config identity)).run serveTenants env s).outcome =
      .ok a → Resolved config identity s.mapping a.1
        ((transaction (resolveTx sha256 config identity)).run serveTenants env s).state.mapping :=
    run_of_meets (transaction_meets (P := fun m (a : WorkspaceRow × IdentityUser) m' =>
      Resolved config identity m a.1 m') htx s)
      fun _ _ _ => trivial
  split at h
  · rename_i a t' calls hended
    obtain ⟨ha, rfl⟩ := Prod.mk.inj h
    obtain rfl := Except.ok.inj ha
    rw [hended] at hmeets
    exact hmeets _ rfl
  · cases (Prod.mk.inj h).1

end Calls

end NexCause
