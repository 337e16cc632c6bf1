/-
NexCause/OrganizationMapping.lean

Organizations and their workspaces, over any history of calls of
`resolveIdentity`.  The configuration may change between the calls, and so may
the status of a workspace, by the hand of an operator.

Three things can happen to the mapping (`Resolved.change`): the organization has
its workspace, it gets a new one, or it takes over the legacy one.  In all of
them an organization keeps what it once was given (`organizations_one_to_one`).
-/
import Mathlib.Data.List.Nodup
import NexCause.Transition
import NexCause.WorkspaceService

namespace NexCause

open Program Transition

/-! ### Histories -/

/-- A call of `resolveIdentity`, with the configuration of its time. -/
structure ResolveCall where
  config : WorkspaceConfig
  identity : VerifiedIdentity
  result : Except AuthError (WorkspaceRow × IdentityUser)
  deriving DecidableEq

inductive TenantEvent
  | resolveIdentity (config : WorkspaceConfig) (identity : VerifiedIdentity)
      (env : ℕ → TenantChoice)
  | setStatus (id : String) (status : WorkspaceStatus)

/-- An operator changes the status of a workspace. -/
def Tenants.setStatus (s : Tenants) (id : String) (status : WorkspaceStatus) : Tenants :=
  { s with workspaces := s.workspaces.map fun w => if w.id = id then { w with status := status } else w }

/-- The tables, and the calls so far. -/
abbrev TenantHistory : Type := Tenants × List ResolveCall

/-- One event. -/
def tenantStep (sha256 : String → String) (h : TenantHistory) : TenantEvent → Option TenantHistory
  | .resolveIdentity config identity env =>
      let resolved := resolveIdentity sha256 config identity env h.1
      some (resolved.2, h.2 ++ [⟨config, identity, resolved.1⟩])
  | .setStatus id status => some (h.1.setStatus id status, h.2)

/-- The call has returned this workspace. -/
def ResolveCall.Gives (call : ResolveCall) (w : WorkspaceRow) : Prop :=
  ∃ u, call.result = .ok (w, u)

/-- What a workspace is that a call returns. -/
structure ResolveCall.Sound (call : ResolveCall) (w : WorkspaceRow) : Prop where
  active : w.status = .active
  organization : w.asgardeoOrganizationId = call.identity.organizationId
  nonempty : call.identity.organizationId ≠ ""
  root : call.config.rootOrganizationId ≠ some call.identity.organizationId

/-- The identity is not one of the organization that stands for none. -/
def TenantEvent.Named : TenantEvent → Prop
  | .resolveIdentity _ identity _ => identity.organizationId ≠ "legacy-bootstrap-required"
  | .setStatus _ _ => True

/-! ### The mapping in one step -/

/-- What a call that returns the workspace `id` does to the mapping. -/
inductive MappingChange (bootstrap organization : String) (m : Mapping) (id : String) :
    Mapping → Prop
  | known (h : (id, organization) ∈ m) : MappingChange bootstrap organization m id m
  | created (hid : ∀ e ∈ m, e.1 ≠ id) (horganization : ∀ e ∈ m, e.2 ≠ organization) :
      MappingChange bootstrap organization m id (m ++ [(id, organization)])
  | adopted (hid : id = "legacy-workspace") (hbootstrap : bootstrap = organization)
      (hlegacy : (id, "legacy-bootstrap-required") ∈ m)
      (hnew : ∀ e ∈ m, e.1 ≠ id → e.2 ≠ organization) :
      MappingChange bootstrap organization m id (m.adopt organization)

section Change

variable {config : WorkspaceConfig} {identity : VerifiedIdentity} {m m' : Mapping} {w : WorkspaceRow}
  {organization : String}

theorem mem_adopt {e : String × String} : e ∈ m.adopt organization ↔
    ∃ d ∈ m, (if d.1 = "legacy-workspace" then (d.1, organization) else d) = e := by
  unfold Mapping.adopt
  rw [List.mem_map]

/-- The organization that has taken over the legacy workspace has that one. -/
theorem Resolved.change (h : Resolved config identity m w m') :
    MappingChange (config.bootstrapOrganizationId.getD "") identity.organizationId m w.id m' := by
  obtain ⟨-, -, adopted, hadopts, hfinds⟩ := h
  cases hadopts with
  | no =>
    cases hfinds with
    | known h => exact .known h
    | created hid horganization => exact .created hid horganization
  | yes hbootstrap hlegacy hnew =>
    cases hfinds with
    | known h =>
      obtain ⟨d, hd, heq⟩ := mem_adopt.mp h
      by_cases hid : d.1 = "legacy-workspace"
      · rw [if_pos hid] at heq
        have hw : w.id = "legacy-workspace" := (Prod.mk.inj heq).1 ▸ hid
        exact .adopted hw hbootstrap (hw ▸ hlegacy) (hw ▸ hnew)
      · rw [if_neg hid] at heq
        exact absurd (congrArg Prod.snd heq) (hnew d hd hid)
    | created hid horganization =>
      exact absurd rfl (horganization _ (mem_adopt.mpr ⟨_, hlegacy, if_pos rfl⟩))

theorem adopt_ids (m : Mapping) (organization : String) :
    (m.adopt organization).map Prod.fst = m.map Prod.fst := by
  unfold Mapping.adopt
  rw [List.map_map]
  apply List.map_congr_left
  intro e _
  show (if e.1 = "legacy-workspace" then (e.1, organization) else e).1 = e.1
  split
  · rfl
  · rfl

/-- Two entries of one workspace. -/
theorem eq_of_id {e d : String × String} (hids : (m.map Prod.fst).Nodup) (he : e ∈ m) (hd : d ∈ m)
    (h : e.1 = d.1) : e = d := List.inj_on_of_nodup_map hids he hd h

/-- Two entries of one organization. -/
theorem eq_of_organization {e d : String × String} (horganizations : (m.map Prod.snd).Nodup)
    (he : e ∈ m) (hd : d ∈ m) (h : e.2 = d.2) : e = d := List.inj_on_of_nodup_map horganizations he hd h

theorem adopt_organizations (hids : (m.map Prod.fst).Nodup) (horganizations : (m.map Prod.snd).Nodup)
    (hnew : ∀ e ∈ m, e.1 ≠ "legacy-workspace" → e.2 ≠ organization) :
    ((m.adopt organization).map Prod.snd).Nodup := by
  unfold Mapping.adopt
  rw [List.map_map]
  apply List.Nodup.map_on _ hids.of_map
  intro e he d hd heq
  replace heq : (if e.1 = "legacy-workspace" then (e.1, organization) else e).2 =
      (if d.1 = "legacy-workspace" then (d.1, organization) else d).2 := heq
  by_cases hle : e.1 = "legacy-workspace"
  · by_cases hld : d.1 = "legacy-workspace"
    · exact eq_of_id hids he hd (hle.trans hld.symm)
    · rw [if_pos hle, if_neg hld] at heq
      exact absurd heq.symm (hnew d hd hld)
  · by_cases hld : d.1 = "legacy-workspace"
    · rw [if_neg hle, if_pos hld] at heq
      exact absurd heq (hnew e he hle)
    · rw [if_neg hle, if_neg hld] at heq
      exact eq_of_organization horganizations he hd heq

theorem setStatus_mapping (s : Tenants) (id : String) (status : WorkspaceStatus) :
    (s.setStatus id status).mapping = s.mapping := by
  unfold Tenants.mapping Tenants.setStatus
  rw [List.map_map]
  apply List.map_congr_left
  intro w _
  show (if w.id = id then { w with status := status } else w).entry = w.entry
  split
  · rfl
  · rfl

end Change

/-! ### The invariant -/

/-- The legacy workspace has been given away, to the bootstrap organization of that call. -/
def LegacyGiven (log : List ResolveCall) : Prop :=
  ∃ before given after w, log = before ++ given :: after ∧ given.Gives w ∧
    w.id = "legacy-workspace" ∧
    given.config.bootstrapOrganizationId.getD "" = given.identity.organizationId ∧
    ∀ call ∈ before, ∀ w, call.Gives w → w.id ≠ "legacy-workspace"

/-- What holds of the mapping after these calls. -/
structure OneToOne (m : Mapping) (log : List ResolveCall) : Prop where
  ids : (m.map Prod.fst).Nodup
  organizations : (m.map Prod.snd).Nodup
  named : ∀ call ∈ log, call.identity.organizationId ≠ "legacy-bootstrap-required"
  sound : ∀ call ∈ log, ∀ w, call.Gives w → call.Sound w
  given : ∀ call ∈ log, ∀ w, call.Gives w → (w.id, call.identity.organizationId) ∈ m
  legacy : ("legacy-workspace", "legacy-bootstrap-required") ∈ m ∨ LegacyGiven log

section Invariant

variable {m m' : Mapping} {log : List ResolveCall} {call : ResolveCall}

/-- Before it is given away, no call has returned the legacy workspace. -/
theorem OneToOne.legacy_free (h : OneToOne m log)
    (hlegacy : ("legacy-workspace", "legacy-bootstrap-required") ∈ m) :
    ∀ call ∈ log, ∀ w, call.Gives w → w.id ≠ "legacy-workspace" := by
  intro call hcall w hw hid
  have hentry := h.given call hcall w hw
  rw [hid] at hentry
  have heq := eq_of_id h.ids hentry hlegacy rfl
  exact h.named call hcall (Prod.mk.inj heq).2

theorem LegacyGiven.append (h : LegacyGiven log) (call : ResolveCall) : LegacyGiven (log ++ [call]) := by
  obtain ⟨before, given, after, w, rfl, hgives, hid, hbootstrap, hfirst⟩ := h
  exact ⟨before, given, after ++ [call], w, by rw [List.append_assoc, List.cons_append], hgives, hid,
    hbootstrap, hfirst⟩

/-- A call that raises. -/
theorem OneToOne.raised (h : OneToOne m log)
    (hnamed : call.identity.organizationId ≠ "legacy-bootstrap-required")
    (hraised : ∀ w, ¬ call.Gives w) : OneToOne m (log ++ [call]) := by
  refine ⟨h.ids, h.organizations, ?_, ?_, ?_, h.legacy.imp id fun hgiven => hgiven.append call⟩
  · exact List.forall_mem_append.mpr ⟨h.named, List.forall_mem_singleton.mpr hnamed⟩
  · refine List.forall_mem_append.mpr ⟨h.sound, List.forall_mem_singleton.mpr ?_⟩
    exact fun w hw => absurd hw (hraised w)
  · refine List.forall_mem_append.mpr ⟨h.given, List.forall_mem_singleton.mpr ?_⟩
    exact fun w hw => absurd hw (hraised w)

/-- A call that returns. -/
theorem OneToOne.returned (h : OneToOne m log)
    (hnamed : call.identity.organizationId ≠ "legacy-bootstrap-required") {w : WorkspaceRow}
    (hgives : call.Gives w) (hsound : call.Sound w)
    (hchange : MappingChange (call.config.bootstrapOrganizationId.getD "") call.identity.organizationId
      m w.id m') : OneToOne m' (log ++ [call]) := by
  have hnamed' : ∀ c ∈ log ++ [call], c.identity.organizationId ≠ "legacy-bootstrap-required" :=
    List.forall_mem_append.mpr ⟨h.named, List.forall_mem_singleton.mpr hnamed⟩
  have hsame : ∀ v, call.Gives v → v = w := by
    rintro v ⟨u, hv⟩
    obtain ⟨u', hw⟩ := hgives
    exact (Prod.mk.inj (Except.ok.inj (hv.symm.trans hw))).1
  have hsound' : ∀ c ∈ log ++ [call], ∀ v, c.Gives v → c.Sound v := by
    refine List.forall_mem_append.mpr ⟨h.sound, List.forall_mem_singleton.mpr ?_⟩
    intro v hv
    rw [hsame v hv]
    exact hsound
  cases hchange with
  -- nothing has changed: the entry was there
  | known hentry =>
    refine ⟨h.ids, h.organizations, hnamed', hsound', ?_,
      h.legacy.imp id fun hgiven => hgiven.append call⟩
    refine List.forall_mem_append.mpr ⟨h.given, List.forall_mem_singleton.mpr ?_⟩
    rintro v hv
    rw [hsame v hv]
    exact hentry
  -- a new entry, whose workspace and organization have none
  | created hid horganization =>
    refine ⟨?_, ?_, hnamed', hsound', ?_, ?_⟩
    · rw [List.map_append, List.map_singleton, ← List.concat_eq_append]
      apply h.ids.concat
      rintro hmem
      obtain ⟨e, he, heq⟩ := List.mem_map.mp hmem
      exact hid e he heq
    · rw [List.map_append, List.map_singleton, ← List.concat_eq_append]
      apply h.organizations.concat
      rintro hmem
      obtain ⟨e, he, heq⟩ := List.mem_map.mp hmem
      exact horganization e he heq
    · refine List.forall_mem_append.mpr ⟨?_, List.forall_mem_singleton.mpr ?_⟩
      · exact fun c hc v hv => List.mem_append_left _ (h.given c hc v hv)
      · rintro v hv
        rw [hsame v hv]
        exact List.mem_append_right _ (List.mem_singleton_self _)
    · exact h.legacy.imp (fun hfree => List.mem_append_left _ hfree) fun hgiven => hgiven.append call
  -- the entry of the legacy workspace goes to the organization, which has none
  | adopted hid hbootstrap hlegacy hnew =>
    have hfree := h.legacy_free (hid ▸ hlegacy)
    refine ⟨?_, ?_, hnamed', hsound', ?_, .inr ?_⟩
    · rw [adopt_ids]
      exact h.ids
    · exact adopt_organizations h.ids h.organizations (hid ▸ hnew)
    · refine List.forall_mem_append.mpr ⟨?_, List.forall_mem_singleton.mpr ?_⟩
      · intro c hc v hv
        exact mem_adopt.mpr ⟨_, h.given c hc v hv, if_neg (hfree c hc v hv)⟩
      · rintro v hv
        rw [hsame v hv]
        exact mem_adopt.mpr ⟨_, hlegacy, if_pos hid⟩
    · exact ⟨log, call, [], w, rfl, hgives, hid, hbootstrap, hfree⟩

end Invariant

/-! ### Histories from the migration on -/

section Histories

variable {sha256 : String → String}

theorem oneToOne_migrated : OneToOne migrated.mapping [] := by
  refine ⟨by decide, by decide, ?_, ?_, ?_, .inl (by decide)⟩
  · exact fun call hcall => absurd hcall List.not_mem_nil
  · exact fun call hcall => absurd hcall List.not_mem_nil
  · exact fun call hcall => absurd hcall List.not_mem_nil

theorem OneToOne.step {h h' : TenantHistory} {event : TenantEvent} (hinv : OneToOne h.1.mapping h.2)
    (hnamed : event.Named) (hstep : tenantStep sha256 h event = some h') :
    OneToOne h'.1.mapping h'.2 := by
  obtain ⟨s, log⟩ := h
  cases event with
  | setStatus id status =>
    obtain rfl := Option.some.inj hstep
    show OneToOne (s.setStatus id status).mapping log
    rw [setStatus_mapping]
    exact hinv
  | resolveIdentity config identity env =>
    obtain rfl := Option.some.inj hstep
    cases hresolved : resolveIdentity sha256 config identity env s with
    | mk result t =>
      show OneToOne t.mapping (log ++ [⟨config, identity, result⟩])
      cases result with
      | error e =>
        rw [resolveIdentity_error hresolved]
        refine hinv.raised hnamed ?_
        rintro w ⟨u, hw⟩
        cases hw
      | ok a =>
        obtain ⟨w, u⟩ := a
        obtain ⟨hnonempty, hroot⟩ := resolved_identity hresolved
        have hchange := resolved_mapping hresolved
        exact hinv.returned hnamed ⟨u, rfl⟩ ⟨hchange.active, hchange.organization, hnonempty, hroot⟩
          hchange.change

theorem oneToOne_of_run {events : List TenantEvent} {s : Tenants} {log : List ResolveCall}
    (hrun : exec (tenantStep sha256) (migrated, []) events = some (s, log))
    (hnamed : ∀ event ∈ events, event.Named) : OneToOne s.mapping log := by
  have hkeep : ∀ (h : TenantHistory) event h', OneToOne h.1.mapping h.2 → TenantEvent.Named event →
      tenantStep sha256 h event = some h' → OneToOne h'.1.mapping h'.2 :=
    fun h event h' hinv hevent hstep => hinv.step hevent hstep
  exact exec_invariant hkeep oneToOne_migrated (along_of_forall hnamed) hrun

/-- **One to one.**  In every history: a call returns an active workspace of its
organization, and none to the root organization; two calls return the same
workspace exactly if they are for the same organization; the legacy workspace
was first returned to an organization that was then the bootstrap one; and a
call that raises changes no row. -/
theorem organizations_one_to_one {events : List TenantEvent} {s : Tenants} {log : List ResolveCall}
    (hrun : exec (tenantStep sha256) (migrated, []) events = some (s, log))
    (hnamed : ∀ event ∈ events, event.Named) :
    (∀ call ∈ log, ∀ w, call.Gives w → call.Sound w) ∧
    (∀ call ∈ log, ∀ call' ∈ log, ∀ w w', call.Gives w → call'.Gives w' →
      (w.id = w'.id ↔ call.identity.organizationId = call'.identity.organizationId)) ∧
    (∀ call ∈ log, ∀ w, call.Gives w → w.id = "legacy-workspace" →
      ∃ before given after, log = before ++ given :: after ∧
        given.identity.organizationId = call.identity.organizationId ∧
        given.config.bootstrapOrganizationId = some call.identity.organizationId ∧
        (∃ w, given.Gives w ∧ w.id = "legacy-workspace") ∧
        ∀ earlier ∈ before, ∀ w, earlier.Gives w → w.id ≠ "legacy-workspace") ∧
    (∀ config identity env e, (resolveIdentity sha256 config identity env s).1 = .error e →
      (resolveIdentity sha256 config identity env s).2 = s) := by
  have hinv := oneToOne_of_run hrun hnamed
  have hsame : ∀ call ∈ log, ∀ call' ∈ log, ∀ w w', call.Gives w → call'.Gives w' →
      (w.id = w'.id ↔ call.identity.organizationId = call'.identity.organizationId) := by
    intro call hcall call' hcall' w w' hw hw'
    have hentry := hinv.given call hcall w hw
    have hentry' := hinv.given call' hcall' w' hw'
    constructor
    · intro hid
      exact (Prod.mk.inj (eq_of_id hinv.ids hentry hentry' hid)).2
    · intro horganization
      exact (Prod.mk.inj (eq_of_organization hinv.organizations hentry hentry' horganization)).1
  refine ⟨hinv.sound, hsame, ?_, ?_⟩
  · -- whoever got the legacy workspace got it from the first adoption
    intro call hcall w hw hid
    rcases hinv.legacy with hlegacy | ⟨before, given, after, v, hlog, hv, hv', hbootstrap, hfirst⟩
    · exact absurd hid (hinv.legacy_free hlegacy call hcall w hw)
    · have hgiven : given ∈ log := by
        rw [hlog]
        exact List.mem_append_right _ List.mem_cons_self
      have horganization := (hsame given hgiven call hcall v w hv hw).mp (hv'.trans hid.symm)
      refine ⟨before, given, after, hlog, horganization, ?_, ⟨v, hv, hv'⟩, hfirst⟩
      rw [← horganization]
      cases hconfig : given.config.bootstrapOrganizationId with
      | none =>
        rw [hconfig] at hbootstrap
        exact absurd hbootstrap.symm (hinv.sound given hgiven v hv).nonempty
      | some organization =>
        rw [hconfig] at hbootstrap
        exact congrArg some hbootstrap
  · -- a resolution that fails is rolled back
    intro config identity env e herror
    exact resolveIdentity_error (Prod.ext herror rfl)

end Histories

/-- Two organizations, of which the first one is the bootstrap organization. -/
def twoOrganizations : List TenantEvent :=
  [("organization-a", "3f2a9c1e-5d4b-4e7a-8c60-1b9d2e7f4a35"),
    ("organization-b", "0b7c1a52-6f0e-4a8b-9c5d-2f1e3d4c5b6a"),
    ("organization-a", "9d8e7c6b-5a49-4838-a727-161504f3e2d1")].map fun e =>
      .resolveIdentity ⟨some "root-organization", some "organization-a"⟩
        ⟨"subject-a", e.1, e.1, none, none, ["Viewer"], ["deployments:read"]⟩
        fun _ => ⟨none, e.2, 0⟩

/-- The SHA-256 hash on the ids of these events. -/
def sampleSha256 (text : String) : String :=
  if text = "3f2a9c1e-5d4b-4e7a-8c60-1b9d2e7f4a35" then
    "ba71cce18c5ed402e6cbfa86b2537ca6ded95cb6a6a758b2ff2db96a9d536a53"
  else if text = "0b7c1a52-6f0e-4a8b-9c5d-2f1e3d4c5b6a" then
    "b0ba1e9c6d36aefb4aedad5d8135acb5821d244ac91b62d3b749f604f76b528e"
  else if text = "9d8e7c6b-5a49-4838-a727-161504f3e2d1" then
    "8b9b215c7246e6565eeccba0e5bff3ccb652c0172f48944ceab06b9d0268133b"
  else text

theorem two_organizations :
    ∃ s log, exec (tenantStep sampleSha256) (migrated, []) twoOrganizations = some (s, log) ∧
      ∀ call ∈ log, ∀ call' ∈ log, ∀ w w', call.Gives w → call'.Gives w' →
        (w.id = w'.id ↔ call.identity.organizationId = call'.identity.organizationId) := by
  obtain ⟨⟨s, log⟩, hrun⟩ := Option.isSome_iff_exists.mp
    (show (exec (tenantStep sampleSha256) (migrated, []) twoOrganizations).isSome = true by decide +kernel)
  refine ⟨s, log, hrun, (organizations_one_to_one hrun ?_).2.1⟩
  intro event hevent
  obtain ⟨e, he, rfl⟩ := List.mem_map.mp hevent
  have hall : ∀ e ∈ [("organization-a", "3f2a9c1e-5d4b-4e7a-8c60-1b9d2e7f4a35"),
      ("organization-b", "0b7c1a52-6f0e-4a8b-9c5d-2f1e3d4c5b6a"),
      ("organization-a", "9d8e7c6b-5a49-4838-a727-161504f3e2d1")],
      e.1 ≠ "legacy-bootstrap-required" := by decide
  exact hall e he

end NexCause
