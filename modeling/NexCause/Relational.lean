/-
NexCause/Relational.lean

Tables whose rows carry a key, a scope (the tenant) and references to rows of
other tables, over arbitrary tables `T`, columns `C`, keys `K` and scopes `W`.

A foreign key says that a column, when it is not null, names a row of its
parent table; a *composite* one includes the scope and says that this row has
the same scope as well.  Inserts, updates and deletes carry out the `ON UPDATE`
and `ON DELETE` actions.

`ForeignKey.InScope` is the property of interest: the column names a row of
the same scope, whether or not the foreign key is composite.  A foreign key is
*loose* when no composite one covers its column.

Main results:

* `inScope_of_covered` — what a composite key covers is in scope in every
  consistent database;
* `insert_inScope`, `update_inScope`, `delete_inScope` — what a statement that
  leads to a consistent database preserves, provided that the rows it writes
  name rows of their own scope in loose columns.
-/
import Mathlib.Data.List.Nodup
import Mathlib.Logic.Function.Basic

namespace Relational

variable {T C K W : Type}

/-- A row.  `refs c` is the column `c`, null when it is `none`. -/
structure Row (C K W : Type) where
  id : K
  scope : W
  refs : C → Option K

/-- The rows of each table. -/
abbrev Db (T C K W : Type) : Type := T → List (Row C K W)

inductive OnDelete
  | cascade | setNull
  deriving DecidableEq, Repr

inductive OnUpdate
  | cascade | noAction
  deriving DecidableEq, Repr

structure ForeignKey (T C : Type) where
  table : T
  column : C
  parent : T
  composite : Bool
  onDelete : OnDelete
  onUpdate : OnUpdate
  deriving DecidableEq, Repr

/-- The column, when not null, names a row of the parent table; a composite key
asks for one of the same scope. -/
def ForeignKey.Holds (fk : ForeignKey T C) (db : Db T C K W) : Prop :=
  ∀ r ∈ db fk.table, ∀ x ∈ r.refs fk.column,
    ∃ p ∈ db fk.parent, p.id = x ∧ (fk.composite = true → p.scope = r.scope)

/-- The column, when not null, names a row of the same scope. -/
def ForeignKey.InScope (fk : ForeignKey T C) (db : Db T C K W) : Prop :=
  ∀ r ∈ db fk.table, ∀ x ∈ r.refs fk.column, ∃ p ∈ db fk.parent, p.id = x ∧ p.scope = r.scope

/-- No composite key covers the column of `fk`. -/
def Loose (fks : List (ForeignKey T C)) (fk : ForeignKey T C) : Prop :=
  ∀ fk' ∈ fks, fk'.table = fk.table → fk'.column = fk.column → fk'.composite = false

instance [DecidableEq T] [DecidableEq C] (fks : List (ForeignKey T C)) (fk : ForeignKey T C) :
    Decidable (Loose fks fk) := by
  unfold Loose; infer_instance

/-- Tables, in an order in which parents come before children, and foreign
keys.  No table refers to itself, a column has one parent table, and loose
columns follow a changed key. -/
structure Schema (T C : Type) where
  tables : List T
  foreignKeys : List (ForeignKey T C)
  parent_mem : ∀ fk ∈ foreignKeys, fk.parent ∈ tables
  parent_ne : ∀ fk ∈ foreignKeys, fk.parent ≠ fk.table
  parent_unique : ∀ fk ∈ foreignKeys, ∀ fk' ∈ foreignKeys, fk.table = fk'.table →
    fk.column = fk'.column → fk.parent = fk'.parent
  loose_cascade : ∀ fk ∈ foreignKeys, Loose foreignKeys fk → fk.onUpdate = .cascade

/-- What the database accepts: keys are unique, foreign keys hold, and columns
whose parent cascades its deletion are `NOT NULL`. -/
structure Schema.Consistent (S : Schema T C) (db : Db T C K W) : Prop where
  unique : ∀ t ∈ S.tables, ((db t).map Row.id).Nodup
  notNull : ∀ fk ∈ S.foreignKeys, fk.onDelete = .cascade →
    ∀ r ∈ db fk.table, r.refs fk.column ≠ none
  holds : ∀ fk ∈ S.foreignKeys, fk.Holds db

/-- Every foreign key is in scope. -/
def Schema.InScope (S : Schema T C) (db : Db T C K W) : Prop :=
  ∀ fk ∈ S.foreignKeys, fk.InScope db

variable [DecidableEq T] [DecidableEq C] [DecidableEq K] [DecidableEq W]

instance (S : Schema T C) (db : Db T C K W) : Decidable (S.Consistent db) :=
  decidable_of_iff ((∀ t ∈ S.tables, ((db t).map Row.id).Nodup) ∧
    (∀ fk ∈ S.foreignKeys, fk.onDelete = .cascade →
      ∀ r ∈ db fk.table, r.refs fk.column ≠ none) ∧
    ∀ fk ∈ S.foreignKeys, ∀ r ∈ db fk.table, ∀ x ∈ r.refs fk.column,
      ∃ p ∈ db fk.parent, p.id = x ∧ (fk.composite = true → p.scope = r.scope))
    ⟨fun ⟨h₁, h₂, h₃⟩ => ⟨h₁, h₂, h₃⟩, fun h => ⟨h.unique, h.notNull, h.holds⟩⟩

/-! ### Statements and their referential actions -/

def insertRow (db : Db T C K W) (t : T) (row : Row C K W) : Db T C K W :=
  Function.update db t (db t ++ [row])

/-- The key a row has after an update that changes keys as listed. -/
def rename (renames : List (K × K)) (x : K) : K :=
  ((renames.find? fun e => e.1 = x).map Prod.snd).getD x

/-- `ON UPDATE` of the foreign keys from `t'` to `t`, on one row of `t'`. -/
def followRenames (S : Schema T C) (t t' : T) (renames : List (K × K)) (r : Row C K W) :
    Row C K W :=
  { r with
    refs := fun c =>
      if S.foreignKeys.any fun fk =>
          fk.table = t' ∧ fk.column = c ∧ fk.parent = t ∧ fk.onUpdate = .cascade then
        (r.refs c).map (rename renames)
      else r.refs c }

/-- The keys an update changes, old and new. -/
def renamesOf (db : Db T C K W) (t : T) (touch : Row C K W → Bool)
    (f : Row C K W → Row C K W) : List (K × K) :=
  ((db t).filter touch).map fun r => (r.id, (f r).id)

/-- Update the rows of `t` that `touch` selects. -/
def updateRows (S : Schema T C) (db : Db T C K W) (t : T) (touch : Row C K W → Bool)
    (f : Row C K W → Row C K W) : Db T C K W := fun t' =>
  if t' = t then (db t).map fun r => if touch r then f r else r
  else (db t').map (followRenames S t t' (renamesOf db t touch f))

/-- The column of `fk` names a row that is gone. -/
def dangling (db : Db T C K W) (fk : ForeignKey T C) (r : Row C K W) : Bool :=
  match r.refs fk.column with
  | none => false
  | some x => !(db fk.parent).any fun p => p.id = x

/-- `ON DELETE` of the foreign keys of `t`: delete the rows whose parent is
gone, or set their column to null. -/
def sweep (S : Schema T C) (db : Db T C K W) (t : T) : Db T C K W :=
  Function.update db t
    (((db t).filter fun r => !S.foreignKeys.any fun fk =>
        fk.table = t ∧ fk.onDelete = .cascade ∧ dangling db fk r).map fun r =>
      { r with
        refs := fun c =>
          if S.foreignKeys.any fun fk =>
              fk.table = t ∧ fk.column = c ∧ fk.onDelete = .setNull ∧ dangling db fk r then
            none
          else r.refs c })

/-- Delete the rows of `t` that `touch` selects, then visit all tables, parents
first. -/
def deleteRows (S : Schema T C) (db : Db T C K W) (t : T) (touch : Row C K W → Bool) :
    Db T C K W :=
  S.tables.foldl (sweep S) (Function.update db t ((db t).filter fun r => !touch r))

/-! ### Covered columns -/

omit [DecidableEq T] [DecidableEq C] [DecidableEq K] [DecidableEq W] in
/-- What a composite key covers is in scope in every consistent database. -/
theorem inScope_of_covered {S : Schema T C} {db : Db T C K W} (h : S.Consistent db)
    {fk : ForeignKey T C} (hfk : fk ∈ S.foreignKeys) (hl : ¬ Loose S.foreignKeys fk) :
    fk.InScope db := by
  unfold Loose at hl
  push Not at hl
  obtain ⟨fk', hfk', ht, hc, hs⟩ := hl
  intro r hr x hx
  rw [← ht] at hr
  rw [← hc] at hx
  obtain ⟨p, hp, hid, hscope⟩ := h.holds fk' hfk' r hr x hx
  rw [← S.parent_unique fk' hfk' fk hfk ht hc]
  exact ⟨p, hp, hid, hscope (by simpa using hs)⟩

omit [DecidableEq T] [DecidableEq C] [DecidableEq K] [DecidableEq W] in
/-- Two rows of a table with one key are the same. -/
theorem eq_of_id_eq {S : Schema T C} {db : Db T C K W} (h : S.Consistent db)
    {t : T} (ht : t ∈ S.tables) {p q : Row C K W} (hp : p ∈ db t) (hq : q ∈ db t)
    (hid : p.id = q.id) : p = q :=
  List.inj_on_of_nodup_map (h.unique t ht) hp hq hid

/-! ### Insert -/

omit [DecidableEq C] [DecidableEq K] [DecidableEq W] in
theorem mem_insertRow {db : Db T C K W} {t t' : T} {row r : Row C K W} :
    r ∈ insertRow db t row t' ↔ r ∈ db t' ∨ t' = t ∧ r = row := by
  by_cases h : t' = t
  · subst h
    rw [insertRow, Function.update_self, List.mem_append, List.mem_singleton]
    simp
  · rw [insertRow, Function.update_of_ne h]
    simp [h]

omit [DecidableEq C] [DecidableEq K] [DecidableEq W] in
theorem insert_inScope {S : Schema T C} {db : Db T C K W} {t : T} {row : Row C K W}
    (hin : S.InScope db) (hpost : S.Consistent (insertRow db t row))
    (hrow : ∀ fk ∈ S.foreignKeys, Loose S.foreignKeys fk → fk.table = t →
      ∀ x ∈ row.refs fk.column, ∀ p ∈ db fk.parent, p.id = x → p.scope = row.scope) :
    S.InScope (insertRow db t row) := by
  intro fk hfk
  by_cases hl : Loose S.foreignKeys fk
  · intro r hr x hx
    rcases mem_insertRow.mp hr with hold | ⟨ht, rfl⟩
    · obtain ⟨p, hp, hpx⟩ := hin fk hfk r hold x hx
      exact ⟨p, mem_insertRow.mpr (.inl hp), hpx⟩
    · -- the parent is not in the table of the new row, so it was there before
      obtain ⟨p, hp, hid, -⟩ := hpost.holds fk hfk r hr x hx
      rcases mem_insertRow.mp hp with hold | ⟨hpt, -⟩
      · exact ⟨p, hp, hid, hrow fk hfk hl ht x hx p hold hid⟩
      · exact absurd (hpt.trans ht.symm) (S.parent_ne fk hfk)
  · exact inScope_of_covered hpost hfk hl

/-! ### Update -/

omit [DecidableEq W] in
@[simp] theorem followRenames_id (S : Schema T C) (t t' : T) (renames : List (K × K))
    (r : Row C K W) : (followRenames S t t' renames r).id = r.id := rfl

omit [DecidableEq W] in
@[simp] theorem followRenames_scope (S : Schema T C) (t t' : T) (renames : List (K × K))
    (r : Row C K W) : (followRenames S t t' renames r).scope = r.scope := rfl

omit [DecidableEq W] in
theorem updateRows_of_eq {S : Schema T C} {db : Db T C K W} {t t' : T}
    {touch : Row C K W → Bool} {f : Row C K W → Row C K W} (h : t' = t) :
    updateRows S db t touch f t' = (db t).map fun r => if touch r then f r else r := by
  rw [updateRows, if_pos h]

omit [DecidableEq W] in
theorem updateRows_of_ne {S : Schema T C} {db : Db T C K W} {t t' : T}
    {touch : Row C K W → Bool} {f : Row C K W → Row C K W} (h : t' ≠ t) :
    updateRows S db t touch f t' =
      (db t').map (followRenames S t t' (renamesOf db t touch f)) := by
  rw [updateRows, if_neg h]

omit [DecidableEq T] [DecidableEq C] [DecidableEq W] in
/-- The new key of a row is found among the renames, because keys are unique. -/
theorem rename_eq {S : Schema T C} {db : Db T C K W} (h : S.Consistent db) {t : T}
    (ht : t ∈ S.tables) (touch : Row C K W → Bool) (f : Row C K W → Row C K W)
    {q : Row C K W} (hq : q ∈ db t) :
    rename (renamesOf db t touch f) q.id = (if touch q then f q else q).id := by
  unfold rename
  cases hfind : (renamesOf db t touch f).find? fun e => e.1 = q.id with
  | none =>
    have hnot : ¬ touch q = true := by
      intro htouch
      have hall := List.find?_eq_none.mp hfind (q.id, (f q).id)
        (List.mem_map.mpr ⟨q, List.mem_filter.mpr ⟨hq, htouch⟩, rfl⟩)
      exact hall (decide_eq_true rfl)
    rw [if_neg hnot]
    rfl
  | some e =>
    have hid : e.1 = q.id := by simpa using List.find?_some hfind
    obtain ⟨r, hr, rfl⟩ := List.mem_map.mp (List.mem_of_find?_eq_some hfind)
    obtain ⟨hr, htouch⟩ := List.mem_filter.mp hr
    obtain rfl := eq_of_id_eq h ht hr hq hid
    rw [if_pos htouch]
    rfl

omit [DecidableEq W] in
theorem update_inScope {S : Schema T C} {db : Db T C K W} {t : T} {touch : Row C K W → Bool}
    {f : Row C K W → Row C K W} (ht : t ∈ S.tables) (hpre : S.Consistent db) (hin : S.InScope db)
    (hpost : S.Consistent (updateRows S db t touch f))
    (hscope : ∀ r ∈ db t, touch r → (f r).scope = r.scope)
    (hrow : ∀ fk ∈ S.foreignKeys, Loose S.foreignKeys fk → fk.table = t →
      ∀ r ∈ db t, touch r → ∀ x ∈ (f r).refs fk.column, ∀ p ∈ db fk.parent, p.id = x →
        p.scope = (f r).scope) :
    S.InScope (updateRows S db t touch f) := by
  intro fk hfk
  by_cases hl : Loose S.foreignKeys fk
  · intro r' hr' x hx
    by_cases hft : fk.table = t
    · -- a row of the updated table: its parent's key and scope are as before
      have hparent := @updateRows_of_ne _ _ _ _ _ _ _ S db t fk.parent touch f
        fun e => S.parent_ne fk hfk (e.trans hft.symm)
      have hpost' := hpost.holds fk hfk r' hr' x hx
      rw [hparent] at hpost' ⊢
      rw [updateRows_of_eq hft] at hr'
      obtain ⟨r, hr, rfl⟩ := List.mem_map.mp hr'
      by_cases htouch : touch r = true
      · rw [if_pos htouch] at hx hpost' ⊢
        obtain ⟨p', hp', hid, -⟩ := hpost'
        obtain ⟨p, hp, rfl⟩ := List.mem_map.mp hp'
        exact ⟨_, hp', hid, hrow fk hfk hl hft r hr htouch x hx p hp hid⟩
      · rw [if_neg htouch] at hx ⊢
        obtain ⟨p, hp, hid, hps⟩ := hin fk hfk r (hft ▸ hr) x hx
        exact ⟨_, List.mem_map.mpr ⟨p, hp, rfl⟩, hid, hps⟩
    · -- a row of another table: its column follows the key of its parent
      rw [updateRows_of_ne hft] at hr'
      obtain ⟨r, hr, rfl⟩ := List.mem_map.mp hr'
      rw [followRenames_scope]
      by_cases hpt : fk.parent = t
      · have hany : (S.foreignKeys.any fun fk' => fk'.table = fk.table ∧ fk'.column = fk.column ∧
            fk'.parent = t ∧ fk'.onUpdate = .cascade) = true :=
          List.any_eq_true.mpr ⟨fk, hfk, decide_eq_true ⟨rfl, rfl, hpt, S.loose_cascade fk hfk hl⟩⟩
        rw [followRenames] at hx
        simp only [hany, if_true] at hx
        obtain ⟨z, hz, rfl⟩ := Option.map_eq_some_iff.mp hx
        obtain ⟨q, hq, rfl, hqs⟩ := hin fk hfk r hr z hz
        rw [hpt] at hq
        rw [rename_eq hpre ht touch f hq, updateRows_of_eq hpt]
        refine ⟨_, List.mem_map.mpr ⟨q, hq, rfl⟩, rfl, ?_⟩
        by_cases htouch : touch q = true
        · rw [if_pos htouch, hscope q hq htouch]
          exact hqs
        · rw [if_neg htouch]
          exact hqs
      · have hany : (S.foreignKeys.any fun fk' => fk'.table = fk.table ∧ fk'.column = fk.column ∧
            fk'.parent = t ∧ fk'.onUpdate = .cascade) = false := by
          rw [List.any_eq_false]
          intro fk' hfk' he
          obtain ⟨h₁, h₂, h₃, -⟩ := of_decide_eq_true he
          exact hpt ((S.parent_unique fk' hfk' fk hfk h₁ h₂).symm.trans h₃)
        rw [followRenames] at hx
        simp only [hany, if_false, Bool.false_eq_true] at hx
        obtain ⟨q, hq, hid, hqs⟩ := hin fk hfk r hr x hx
        rw [updateRows_of_ne hpt]
        exact ⟨_, List.mem_map.mpr ⟨q, hq, rfl⟩, hid, hqs⟩
  · exact inScope_of_covered hpost hfk hl

/-! ### Delete -/

/-- Every row of `db'` is a row of `db`, possibly with columns set to null. -/
def Shrinks (db db' : Db T C K W) : Prop :=
  ∀ t, ∀ r' ∈ db' t, ∃ r ∈ db t, r.id = r'.id ∧ r.scope = r'.scope ∧
    ∀ c, ∀ x ∈ r'.refs c, x ∈ r.refs c

omit [DecidableEq T] [DecidableEq C] [DecidableEq K] [DecidableEq W] in
theorem Shrinks.trans {db db' db'' : Db T C K W} (h : Shrinks db db') (h' : Shrinks db' db'') :
    Shrinks db db'' := by
  intro t r'' hr''
  obtain ⟨r', hr', hid', hs', hx'⟩ := h' t r'' hr''
  obtain ⟨r, hr, hid, hs, hx⟩ := h t r' hr'
  exact ⟨r, hr, hid.trans hid', hs.trans hs', fun c x hmem => hx c x (hx' c x hmem)⟩

omit [DecidableEq W] in
theorem sweep_shrinks (S : Schema T C) (db : Db T C K W) (t : T) : Shrinks db (sweep S db t) := by
  intro t' r' hr'
  by_cases h : t' = t
  · subst h
    rw [sweep, Function.update_self] at hr'
    obtain ⟨r, hr, rfl⟩ := List.mem_map.mp hr'
    refine ⟨r, List.mem_of_mem_filter hr, rfl, rfl, fun c x hx => ?_⟩
    simp only at hx
    split at hx
    · cases hx
    · exact hx
  · rw [sweep, Function.update_of_ne h] at hr'
    exact ⟨r', hr', rfl, rfl, fun _ _ hx => hx⟩

omit [DecidableEq W] in
theorem deleteRows_shrinks (S : Schema T C) (db : Db T C K W) (t : T)
    (touch : Row C K W → Bool) : Shrinks db (deleteRows S db t touch) := by
  have hfold : ∀ (ts : List T) (db : Db T C K W), Shrinks db (ts.foldl (sweep S) db) := by
    intro ts
    induction ts with
    | nil => exact fun db t r hr => ⟨r, hr, rfl, rfl, fun _ _ hx => hx⟩
    | cons t ts ih => exact fun db => (sweep_shrinks S db t).trans (ih (sweep S db t))
  refine Shrinks.trans (fun t' r hr => ?_) (hfold S.tables _)
  by_cases h : t' = t
  · subst h
    rw [Function.update_self] at hr
    exact ⟨r, List.mem_of_mem_filter hr, rfl, rfl, fun _ _ hx => hx⟩
  · rw [Function.update_of_ne h] at hr
    exact ⟨r, hr, rfl, rfl, fun _ _ hx => hx⟩

omit [DecidableEq W] in
theorem delete_inScope {S : Schema T C} {db : Db T C K W} {t : T} {touch : Row C K W → Bool}
    (hpre : S.Consistent db) (hin : S.InScope db)
    (hpost : S.Consistent (deleteRows S db t touch)) :
    S.InScope (deleteRows S db t touch) := by
  have hsh := deleteRows_shrinks S db t touch
  intro fk hfk r' hr' x hx
  obtain ⟨r, hr, -, hrs, hrefs⟩ := hsh fk.table r' hr'
  obtain ⟨q, hq, hqid, hqs⟩ := hin fk hfk r hr x (hrefs _ x hx)
  obtain ⟨p', hp', hid', -⟩ := hpost.holds fk hfk r' hr' x hx
  obtain ⟨p, hp, hpid, hps, -⟩ := hsh fk.parent p' hp'
  -- the surviving parent is the one the column named before
  obtain rfl := eq_of_id_eq hpre (S.parent_mem fk hfk) hp hq ((hpid.trans hid').trans hqid.symm)
  exact ⟨p', hp', hid', (hps.symm.trans hqs).trans hrs⟩

end Relational
