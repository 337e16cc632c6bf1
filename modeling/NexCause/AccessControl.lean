/-
NexCause/AccessControl.lean

Table privileges and row-level security of a SQL database, over arbitrary
table names `T` and roles `R`.

A `Catalog` is what a sequence of statements (`CREATE TABLE`, `GRANT`,
`REVOKE`, `ALTER DEFAULT PRIVILEGES`, `ALTER TABLE … OWNER TO`,
`ENABLE`/`FORCE ROW LEVEL SECURITY`, `CREATE POLICY`) leaves behind; `run`
executes such a sequence.  `Catalog.Allows` decides whether a role may use a
privilege on a table: it owns the table, or the privilege was granted to it, to
a role it is a member of, or to everyone.  `Catalog.visible` is what a `SELECT`
of that role sees of the rows of one table.

Main results:

* `holds_of_run` — a role has only the privileges some statement granted;
* `acl_of_grant` — a granted privilege stays unless it is revoked;
* `visible_eq_filter`, `checks_iff` — on a table with forced row security and a
  policy, every role sees, and stores, exactly the rows the policy admits.
-/
import Mathlib.Data.List.Basic
import Mathlib.Logic.Function.Iterate

namespace AccessControl

variable {T R : Type*}

inductive Privilege
  | select | insert | update | delete
  deriving DecidableEq, Repr

/-- Whom a privilege is granted to: everyone (`PUBLIC`) or a role. -/
inductive Grantee (R : Type*)
  | everyone
  | role (r : R)
  deriving DecidableEq, Repr

/-- Owners, memberships, privileges and row security of a schema.  `memberOf`
holds pairs (member, group); `defaults` holds (creator, grantee, privilege). -/
structure Catalog (T R : Type*) where
  tables : List T
  owner : List (T × R)
  memberOf : List (R × R)
  acl : List (Grantee R × Privilege × T)
  defaults : List (R × Grantee R × Privilege)
  rowSecurity : List T
  forcedRowSecurity : List T
  policies : List T

/-- The catalog of an empty schema. -/
def Catalog.empty : Catalog T R := ⟨[], [], [], [], [], [], [], []⟩

/-! ### Statements -/

inductive Statement (T R : Type*)
  /-- `CREATE TABLE`, executed by `creator` -/
  | createTable (creator : R) (t : T)
  /-- `GRANT ps ON ts TO gs` -/
  | grant (ps : List Privilege) (ts : List T) (gs : List (Grantee R))
  /-- `GRANT ps ON ALL TABLES IN SCHEMA … TO gs` -/
  | grantAllTables (ps : List Privilege) (gs : List (Grantee R))
  /-- `REVOKE ALL ON ALL TABLES IN SCHEMA … FROM g` -/
  | revokeAllTables (g : Grantee R)
  /-- `ALTER DEFAULT PRIVILEGES FOR ROLE creator … GRANT ps ON TABLES TO gs` -/
  | defaultGrant (creator : R) (ps : List Privilege) (gs : List (Grantee R))
  /-- `ALTER DEFAULT PRIVILEGES FOR ROLE creator … REVOKE ALL ON TABLES FROM g` -/
  | defaultRevoke (creator : R) (g : Grantee R)
  /-- `GRANT group TO member` -/
  | grantRole (group member : R)
  | ownerTo (t : T) (r : R)
  | enableRowSecurity (t : T)
  | forceRowSecurity (t : T)
  | createPolicy (t : T)

section
variable [DecidableEq T] [DecidableEq R]

/-- Execute one statement. -/
def Catalog.exec (c : Catalog T R) : Statement T R → Catalog T R
  | .createTable creator t =>
      { c with
        tables := c.tables ++ [t]
        owner := (t, creator) :: c.owner
        acl := c.acl ++
          (c.defaults.filter fun d => d.1 = creator).map fun d => (d.2.1, d.2.2, t) }
  | .grant ps ts gs =>
      { c with acl := c.acl ++
          gs.flatMap fun g => ps.flatMap fun p => ts.map fun t => (g, p, t) }
  | .grantAllTables ps gs =>
      { c with acl := c.acl ++
          gs.flatMap fun g => ps.flatMap fun p => c.tables.map fun t => (g, p, t) }
  | .revokeAllTables g => { c with acl := c.acl.filter fun e => e.1 ≠ g }
  | .defaultGrant creator ps gs =>
      { c with defaults := c.defaults ++
          gs.flatMap fun g => ps.map fun p => (creator, g, p) }
  | .defaultRevoke creator g =>
      { c with defaults := c.defaults.filter fun d => ¬ (d.1 = creator ∧ d.2.1 = g) }
  | .grantRole group member => { c with memberOf := c.memberOf ++ [(member, group)] }
  | .ownerTo t r => { c with owner := (t, r) :: c.owner.filter fun e => e.1 ≠ t }
  | .enableRowSecurity t => { c with rowSecurity := c.rowSecurity ++ [t] }
  | .forceRowSecurity t => { c with forcedRowSecurity := c.forcedRowSecurity ++ [t] }
  | .createPolicy t => { c with policies := c.policies ++ [t] }

/-- Execute a script. -/
def Catalog.run (c : Catalog T R) (sts : List (Statement T R)) : Catalog T R :=
  sts.foldl Catalog.exec c

@[simp] theorem Catalog.run_nil (c : Catalog T R) : c.run [] = c := rfl

@[simp] theorem Catalog.run_cons (c : Catalog T R) (st : Statement T R)
    (sts : List (Statement T R)) : c.run (st :: sts) = (c.exec st).run sts := rfl

theorem Catalog.run_append (c : Catalog T R) (sts sts' : List (Statement T R)) :
    c.run (sts ++ sts') = (c.run sts).run sts' := List.foldl_append

/-! ### Privileges of a role -/

/-- The groups one more membership step reaches. -/
def Catalog.expandRoles (c : Catalog T R) (rs : List R) : List R :=
  rs ++ (c.memberOf.filter fun m => m.1 ∈ rs).map Prod.snd

/-- The role itself and every role it is directly or indirectly a member of. -/
def Catalog.rolesOf (c : Catalog T R) (r : R) : List R :=
  c.expandRoles^[c.memberOf.length] [r]

/-- Some role that `r` acts as owns the table. -/
def Catalog.Owns (c : Catalog T R) (r : R) (t : T) : Prop :=
  ∃ r' ∈ c.rolesOf r, (t, r') ∈ c.owner

/-- `r` may use privilege `p` on table `t`. -/
def Catalog.Allows (c : Catalog T R) (r : R) (p : Privilege) (t : T) : Prop :=
  c.Owns r t ∨ (Grantee.everyone, p, t) ∈ c.acl ∨ ∃ r' ∈ c.rolesOf r, (Grantee.role r', p, t) ∈ c.acl

instance (c : Catalog T R) (r : R) (t : T) : Decidable (c.Owns r t) := by
  unfold Catalog.Owns; infer_instance

instance (c : Catalog T R) (r : R) (p : Privilege) (t : T) : Decidable (c.Allows r p t) := by
  unfold Catalog.Allows; infer_instance

omit [DecidableEq T] in
/-- A role that is a member of nothing acts as itself only. -/
theorem Catalog.rolesOf_eq_self {c : Catalog T R} {r : R} (h : ∀ m ∈ c.memberOf, m.1 ≠ r) :
    c.rolesOf r = [r] := by
  have hfix : c.expandRoles [r] = [r] := by
    unfold expandRoles
    rw [List.filter_eq_nil_iff.mpr]
    · rfl
    · intro m hm
      simpa using h m hm
  exact Function.iterate_fixed hfix _

/-! ### A role has only what was granted -/

/-- The statement can give grantee `g` the privilege `p` on `t`, now or when
`t` is created. -/
def Statement.MayGrant (g : Grantee R) (p : Privilege) (t : T) : Statement T R → Prop
  | .grant ps ts gs => p ∈ ps ∧ t ∈ ts ∧ g ∈ gs
  | .grantAllTables ps gs => p ∈ ps ∧ g ∈ gs
  | .defaultGrant _ ps gs => p ∈ ps ∧ g ∈ gs
  | _ => False

instance (g : Grantee R) (p : Privilege) (t : T) (st : Statement T R) :
    Decidable (st.MayGrant g p t) := by
  cases st <;> unfold Statement.MayGrant <;> infer_instance

/-- `g` holds `p` on `t`, or will on a table somebody creates. -/
def Catalog.Holds (c : Catalog T R) (g : Grantee R) (p : Privilege) (t : T) : Prop :=
  (g, p, t) ∈ c.acl ∨ ∃ creator, (creator, g, p) ∈ c.defaults

theorem Catalog.holds_of_exec {c : Catalog T R} {st : Statement T R} {g : Grantee R}
    {p : Privilege} {t : T} (h : (c.exec st).Holds g p t) :
    c.Holds g p t ∨ st.MayGrant g p t := by
  cases st with
  -- a new table comes with the default privileges of its creator
  | createTable creator t' =>
    rcases h with h | h
    · simp only [exec, List.mem_append, List.mem_map, List.mem_filter] at h
      rcases h with h | ⟨d, ⟨hd, -⟩, he⟩
      · exact .inl (.inl h)
      · obtain ⟨hg, hp, -⟩ : d.2.1 = g ∧ d.2.2 = p ∧ t' = t := by simpa using he
        exact .inl (.inr ⟨d.1, by rw [← hg, ← hp]; exact hd⟩)
    · exact .inl (.inr h)
  -- a grant is where a privilege comes from, now or by default
  | grant ps ts gs =>
    rcases h with h | h
    · simp only [exec, List.mem_append, List.mem_flatMap, List.mem_map, Prod.mk.injEq] at h
      rcases h with h | ⟨_, hg, _, hp, _, ht, rfl, rfl, rfl⟩
      · exact .inl (.inl h)
      · exact .inr ⟨hp, ht, hg⟩
    · exact .inl (.inr h)
  | grantAllTables ps gs =>
    rcases h with h | h
    · simp only [exec, List.mem_append, List.mem_flatMap, List.mem_map, Prod.mk.injEq] at h
      rcases h with h | ⟨_, hg, _, hp, _, -, rfl, rfl, -⟩
      · exact .inl (.inl h)
      · exact .inr ⟨hp, hg⟩
    · exact .inl (.inr h)
  -- a revocation takes away
  | revokeAllTables g' =>
    rcases h with h | h
    · exact .inl (.inl (List.mem_of_mem_filter h))
    · exact .inl (.inr h)
  | defaultGrant creator ps gs =>
    rcases h with h | ⟨cr, h⟩
    · exact .inl (.inl h)
    · simp only [exec, List.mem_append, List.mem_flatMap, List.mem_map, Prod.mk.injEq] at h
      rcases h with h | ⟨_, hg, _, hp, -, rfl, rfl⟩
      · exact .inl (.inr ⟨cr, h⟩)
      · exact .inr ⟨hp, hg⟩
  | defaultRevoke creator g' =>
    rcases h with h | ⟨cr, h⟩
    · exact .inl (.inl h)
    · exact .inl (.inr ⟨cr, List.mem_of_mem_filter h⟩)
  | _ => exact .inl h

/-- **A grantee holds only what it held before or what a statement of the
script grants it.** -/
theorem Catalog.holds_of_run {c : Catalog T R} {sts : List (Statement T R)} {g : Grantee R}
    {p : Privilege} {t : T} (h : (c.run sts).Holds g p t) :
    c.Holds g p t ∨ ∃ st ∈ sts, st.MayGrant g p t := by
  induction sts generalizing c with
  | nil => exact .inl h
  | cons st sts ih =>
    rcases ih h with h | ⟨st', hmem, hst'⟩
    · rcases c.holds_of_exec h with h | h
      · exact .inl h
      · exact .inr ⟨st, List.mem_cons_self, h⟩
    · exact .inr ⟨st', List.mem_cons_of_mem st hmem, hst'⟩

/-- What makes a role own a table. -/
def Statement.MakesOwner (r : R) : Statement T R → Prop
  | .createTable creator _ => creator = r
  | .ownerTo _ r' => r' = r
  | _ => False

instance (r : R) (st : Statement T R) : Decidable (st.MakesOwner r) := by
  cases st <;> unfold Statement.MakesOwner <;> infer_instance

/-- What makes a role a member of another. -/
def Statement.MakesMember (r : R) : Statement T R → Prop
  | .grantRole _ member => member = r
  | _ => False

instance (r : R) (st : Statement T R) : Decidable (st.MakesMember r) := by
  cases st <;> unfold Statement.MakesMember <;> infer_instance

theorem Catalog.owner_of_run {c : Catalog T R} {sts : List (Statement T R)} {r : R}
    (hc : ∀ e ∈ c.owner, e.2 ≠ r) (hs : ∀ st ∈ sts, ¬ st.MakesOwner r) :
    ∀ e ∈ (c.run sts).owner, e.2 ≠ r := by
  induction sts generalizing c with
  | nil => exact hc
  | cons st sts ih =>
    refine ih (fun e he => ?_) fun st' h => hs st' (List.mem_cons_of_mem st h)
    have hst := hs st List.mem_cons_self
    cases st with
    | createTable creator t =>
      rcases List.mem_cons.mp he with rfl | he
      · exact hst
      · exact hc e he
    | ownerTo t r' =>
      rcases List.mem_cons.mp he with rfl | he
      · exact hst
      · exact hc e (List.mem_of_mem_filter he)
    | _ => exact hc e he

theorem Catalog.memberOf_of_run {c : Catalog T R} {sts : List (Statement T R)} {r : R}
    (hc : ∀ m ∈ c.memberOf, m.1 ≠ r) (hs : ∀ st ∈ sts, ¬ st.MakesMember r) :
    ∀ m ∈ (c.run sts).memberOf, m.1 ≠ r := by
  induction sts generalizing c with
  | nil => exact hc
  | cons st sts ih =>
    refine ih (fun m hm => ?_) fun st' h => hs st' (List.mem_cons_of_mem st h)
    have hst := hs st List.mem_cons_self
    cases st with
    | grantRole group member =>
      rcases List.mem_append.mp hm with hm | hm
      · exact hc m hm
      · rw [List.mem_singleton.mp hm]
        exact hst
    | _ => exact hc m hm

/-! ### What was granted stays -/

/-- The script takes nothing back from `g`. -/
def Statement.Revokes (g : Grantee R) : Statement T R → Prop
  | .revokeAllTables g' => g' = g
  | _ => False

instance (g : Grantee R) (st : Statement T R) : Decidable (st.Revokes g) := by
  cases st <;> unfold Statement.Revokes <;> infer_instance

theorem Catalog.acl_mono {c : Catalog T R} {sts : List (Statement T R)} {g : Grantee R}
    {p : Privilege} {t : T} (h : (g, p, t) ∈ c.acl) (hs : ∀ st ∈ sts, ¬ st.Revokes g) :
    (g, p, t) ∈ (c.run sts).acl := by
  induction sts generalizing c with
  | nil => exact h
  | cons st sts ih =>
    refine ih ?_ fun st' h' => hs st' (List.mem_cons_of_mem st h')
    have hst := hs st List.mem_cons_self
    cases st with
    | createTable creator t' => exact List.mem_append_left _ h
    | grant ps ts gs => exact List.mem_append_left _ h
    | grantAllTables ps gs => exact List.mem_append_left _ h
    | revokeAllTables g' =>
      refine List.mem_filter.mpr ⟨h, ?_⟩
      exact decide_eq_true fun e => hst e.symm
    | _ => exact h

/-- What a `GRANT` gives stays, unless something later in the script takes it
back. -/
theorem Catalog.acl_of_grant {c : Catalog T R} {sts sts' : List (Statement T R)}
    {ps : List Privilege} {ts : List T} {gs : List (Grantee R)} {g : Grantee R} {p : Privilege}
    {t : T} (hp : p ∈ ps) (ht : t ∈ ts) (hg : g ∈ gs) (hs : ∀ st ∈ sts', ¬ st.Revokes g) :
    (g, p, t) ∈ (c.run (sts ++ .grant ps ts gs :: sts')).acl := by
  rw [run_append, run_cons]
  refine acl_mono ?_ hs
  refine List.mem_append_right _ (List.mem_flatMap.mpr ⟨g, hg, ?_⟩)
  exact List.mem_flatMap.mpr ⟨p, hp, List.mem_map.mpr ⟨t, ht, rfl⟩⟩

theorem Catalog.rowSecurity_mono (c : Catalog T R) (sts : List (Statement T R)) (t : T) :
    (t ∈ c.rowSecurity → t ∈ (c.run sts).rowSecurity) ∧
    (t ∈ c.forcedRowSecurity → t ∈ (c.run sts).forcedRowSecurity) ∧
    (t ∈ c.policies → t ∈ (c.run sts).policies) := by
  induction sts generalizing c with
  | nil => exact ⟨id, id, id⟩
  | cons st sts ih =>
    obtain ⟨h₁, h₂, h₃⟩ := ih (c.exec st)
    refine ⟨fun h => h₁ ?_, fun h => h₂ ?_, fun h => h₃ ?_⟩ <;>
      cases st <;> first | exact h | exact List.mem_append_left _ h

/-- A script that enables and forces row security on `t` and creates its
policy leaves all three behind. -/
theorem Catalog.rowSecurity_of_run (c : Catalog T R) (sts : List (Statement T R)) (t : T) :
    (.enableRowSecurity t ∈ sts → t ∈ (c.run sts).rowSecurity) ∧
    (.forceRowSecurity t ∈ sts → t ∈ (c.run sts).forcedRowSecurity) ∧
    (.createPolicy t ∈ sts → t ∈ (c.run sts).policies) := by
  induction sts generalizing c with
  | nil => simp
  | cons st sts ih =>
    obtain ⟨h₁, h₂, h₃⟩ := ih (c.exec st)
    obtain ⟨m₁, m₂, m₃⟩ := Catalog.rowSecurity_mono (c.exec st) sts t
    refine ⟨fun h => ?_, fun h => ?_, fun h => ?_⟩ <;> rcases List.mem_cons.mp h with rfl | h
    · exact m₁ (List.mem_append_right _ (List.mem_singleton.mpr rfl))
    · exact h₁ h
    · exact m₂ (List.mem_append_right _ (List.mem_singleton.mpr rfl))
    · exact h₂ h
    · exact m₃ (List.mem_append_right _ (List.mem_singleton.mpr rfl))
    · exact h₃ h

/-! ### What a role sees of a table -/

/-- Row-level security applies to `r` on `t`: it is enabled, and forced if `r`
owns the table. -/
def Catalog.Filtered (c : Catalog T R) (r : R) (t : T) : Prop :=
  t ∈ c.rowSecurity ∧ (t ∈ c.forcedRowSecurity ∨ ¬ c.Owns r t)

instance (c : Catalog T R) (r : R) (t : T) : Decidable (c.Filtered r t) := by
  unfold Catalog.Filtered; infer_instance

/-- The rows of `t` that a query of `r` reads, when the policies of the
schema admit the rows that satisfy `admits`. -/
def Catalog.visible {α : Type*} (c : Catalog T R) (r : R) (t : T) (admits : α → Bool)
    (rows : List α) : List α :=
  if c.Filtered r t then
    if t ∈ c.policies then rows.filter admits else []
  else rows

theorem Catalog.visible_eq_filter {α : Type*} {c : Catalog T R} {r : R} {t : T}
    {admits : α → Bool} {rows : List α} (he : t ∈ c.rowSecurity)
    (hf : t ∈ c.forcedRowSecurity) (hp : t ∈ c.policies) :
    c.visible r t admits rows = rows.filter admits := by
  unfold visible
  rw [if_pos ⟨he, .inl hf⟩, if_pos hp]

/-- Row security lets `r` store the row in `t` (`WITH CHECK`). -/
def Catalog.Checks {α : Type*} (c : Catalog T R) (r : R) (t : T) (admits : α → Bool)
    (row : α) : Prop :=
  c.Filtered r t → t ∈ c.policies ∧ admits row

instance {α : Type*} (c : Catalog T R) (r : R) (t : T) (admits : α → Bool) (row : α) :
    Decidable (c.Checks r t admits row) := by
  unfold Catalog.Checks; infer_instance

omit [DecidableEq T] in
theorem Catalog.checks_iff {α : Type*} {c : Catalog T R} {r : R} {t : T} {admits : α → Bool}
    {row : α} (he : t ∈ c.rowSecurity) (hf : t ∈ c.forcedRowSecurity) (hp : t ∈ c.policies) :
    c.Checks r t admits row ↔ admits row := by
  constructor
  · intro h
    exact (h ⟨he, .inl hf⟩).2
  · intro h _
    exact ⟨hp, h⟩

end

end AccessControl
