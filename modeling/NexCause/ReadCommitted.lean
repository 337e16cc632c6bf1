/-
NexCause/ReadCommitted.lean

One row with a unique key, under PostgreSQL's READ COMMITTED isolation.  Any
number of clients select it, insert it and delete it in transactions, one
statement at a time, in any order.

What a transaction sees is its own version of the row once it has written it,
and the committed row before.  The first write takes the row lock, which is
held until the transaction ends (`Db.lock` is the holder with its uncommitted
version): an `INSERT` then waits, because the key is unique, and so does a
`DELETE` of a row that is there.  An `INSERT` that finds the row fails; a
`DELETE` that finds none deletes nothing.

A client follows the `discipline` when its transactions are well bracketed and
write at most once, all by inserting or all by deleting.  Then the row is
published at most once (`Sound.unique`), by whichever transaction.

Nothing here knows what the row is, or what the clients do outside of their
transactions.
-/
import NexCause.Traces

namespace ReadCommitted

open Program Prog Transition

variable {ρ A ε α χ σ κ : Type} {RA : A → Type}

/-! ### Statements -/

/-- What a client asks for: the statements of a transaction as far as they concern the row, and
calls that are not statements. -/
inductive Statement (ρ A : Type) : Type
  | begin
  /-- `SELECT` by the key -/
  | select (tx : ℕ)
  /-- `INSERT … RETURNING` -/
  | insert (tx : ℕ) (row : ρ)
  /-- `DELETE` by the key, where the row satisfies a condition; its answer says whether there was
  one -/
  | delete (tx : ℕ) (cond : ρ → Bool)
  /-- any statement on other rows -/
  | other (tx : ℕ)
  | commit (tx : ℕ)
  | rollback (tx : ℕ)
  | outside (c : A)

/-- What a statement returns. -/
abbrev Statement.Result (RA : A → Type) : Statement ρ A → Type
  | .begin => ℕ
  | .select _ => Option ρ
  | .insert _ _ => ρ
  | .delete _ _ => Bool
  | .other _ => Unit
  | .commit _ => Unit
  | .rollback _ => Unit
  | .outside c => RA c

/-- A client. -/
abbrev Client (ρ A : Type) (RA : A → Type) (ε α : Type) : Type :=
  Prog (Statement ρ A) (Statement.Result RA) ε α

/-- One call of a client. -/
def ask (c : Statement ρ A) : Client ρ A RA ε (c.Result RA) := perform c

/-- A transaction: it commits when its body returns, and is rolled back when its
body throws. -/
def transaction (body : ℕ → Client ρ A RA ε α) : Client ρ A RA ε α := do
  let tx ← ask .begin
  let a ← (body tx).tryCatch fun e => do
    ask (.rollback tx)
    Prog.throw e
  ask (.commit tx)
  return a

/-! ### The database -/

/-- The database, as far as it concerns the row: what is committed, the holder of the row lock
with its version, and the number of the next transaction. -/
structure Db (ρ : Type) where
  row : Option ρ
  lock : Option (ℕ × Option ρ)
  next : ℕ
  deriving DecidableEq, Repr

namespace Db

/-- A database without transactions. -/
def quiet (row : Option ρ) : Db ρ := ⟨row, none, 0⟩

/-- The version of the row that a transaction sees. -/
def version (db : Db ρ) (tx : ℕ) : Option ρ :=
  match db.lock with
  | some (holder, v) => if holder = tx then v else db.row
  | none => db.row

/-- Another transaction holds the row lock. -/
def heldByOther (db : Db ρ) (tx : ℕ) : Bool := db.lock.any fun l => l.1 ≠ tx

/-- A transaction publishes its version. -/
def commit (db : Db ρ) (tx : ℕ) : Db ρ :=
  match db.lock with
  | some (holder, v) => if holder = tx then { db with row := v, lock := none } else db
  | none => db

/-- A transaction gives its version up. -/
def rollback (db : Db ρ) (tx : ℕ) : Db ρ :=
  match db.lock with
  | some (holder, _) => if holder = tx then { db with lock := none } else db
  | none => db

end Db

/-- The statement does not have to wait. -/
def Statement.free (c : Statement ρ A) (x : Db ρ × σ) : Bool :=
  match c with
  | .insert tx _ => !x.1.heldByOther tx
  | .delete tx cond => !(x.1.heldByOther tx && x.1.row.any cond)
  | _ => true

/-- The database, with the error of a violated key, beside another service. -/
def serve (violation : ε) (outside : Service A RA ε χ σ) :
    Service (Statement ρ A) (Statement.Result RA) ε χ (Db ρ × σ)
  | .begin, _, (db, s) => (.ok db.next, { db with next := db.next + 1 }, s)
  | .select tx, _, (db, s) => (.ok (db.version tx), db, s)
  | .insert tx row, _, (db, s) =>
      match db.version tx with
      | some _ => (.error violation, db, s)
      | none => (.ok row, { db with lock := some (tx, some row) }, s)
  | .delete tx cond, _, (db, s) =>
      if (db.version tx).any cond then (.ok true, { db with lock := some (tx, none) }, s)
      else (.ok false, db, s)
  | .other _, _, x => (.ok (), x)
  | .commit tx, _, (db, s) => (.ok (), db.commit tx, s)
  | .rollback tx, _, (db, s) => (.ok (), db.rollback tx, s)
  | .outside c, choice, (db, s) =>
      let answer := outside c choice s
      (answer.1, db, answer.2)

/-! ### What a client has open -/

/-- A transaction in progress, with its version of the row if it has written one. -/
structure Open (ρ : Type) where
  tx : ℕ
  wrote : Option (Option ρ)
  deriving DecidableEq, Repr

/-- What a client has open after a call. -/
def track (o : Option (Open ρ)) : Exchange (Statement ρ A) (Statement.Result RA) ε → Option (Open ρ)
  | ⟨.begin, .ok tx⟩ => some ⟨tx, none⟩
  | ⟨.insert _ _, .ok row⟩ => o.map fun o => { o with wrote := some (some row) }
  | ⟨.delete _ _, .ok true⟩ => o.map fun o => { o with wrote := some none }
  | ⟨.commit _, _⟩ => none
  | ⟨.rollback _, _⟩ => none
  | _ => o

/-- What a client has open after its part of a record. -/
def openOf (own : List (Exchange (Statement ρ A) (Statement.Result RA) ε)) : Option (Open ρ) :=
  own.foldl track none

theorem openOf_append (own : List (Exchange (Statement ρ A) (Statement.Result RA) ε))
    (e : Exchange (Statement ρ A) (Statement.Result RA) ε) :
    openOf (own ++ [e]) = track (openOf own) e := by
  unfold openOf
  rw [List.foldl_append]
  rfl

/-- Transactions that are well bracketed, select before they write, and write at
most once: by inserting, or by deleting. -/
def discipline (RA : A → Type) (ε : Type) (inserting : Bool) :
    Contract (Statement ρ A) (Statement.Result RA) ε (Option (Open ρ)) where
  pre c o := match c with
    | .begin => o = none
    | .select tx => o = some ⟨tx, none⟩
    | .insert tx _ => inserting = true ∧ o = some ⟨tx, none⟩
    | .delete tx _ => inserting = false ∧ o = some ⟨tx, none⟩
    | .other tx => o.map Open.tx = some tx
    | .commit tx => o.map Open.tx = some tx
    | .rollback tx => o.map Open.tx = some tx
    | .outside _ => True
  post c o r o' := o' = track o ⟨c, r⟩

/-- The program follows the discipline. -/
def Disciplined (inserting : Bool) (p : Client ρ A RA ε α) : Prop :=
  p.Meets (discipline RA ε inserting) (fun _ _ => True) none

/-! ### The invariant -/

/-- The locks are those of the transactions in progress, `opens`, and whoever
holds one is about to change whether the row is there. -/
structure Sound (inserting : Bool) (opens : ℕ → Option (Open ρ)) (db : Db ρ) : Prop where
  lock : ∀ tx v, db.lock = some (tx, v) ↔ ∃ i, opens i = some ⟨tx, some v⟩
  fresh : ∀ i o, opens i = some o → o.tx < db.next
  distinct : ∀ i j o o', opens i = some o → opens j = some o' → o.tx = o'.tx → i = j
  flips : ∀ tx v, db.lock = some (tx, v) → v.isSome = inserting ∧ db.row.isSome = !inserting

variable {inserting : Bool} {opens : ℕ → Option (Open ρ)} {db : Db ρ} {i tx : ℕ}

theorem sound_quiet (inserting : Bool) (row : Option ρ) :
    Sound inserting (fun _ => none) (Db.quiet row) :=
  ⟨fun _ _ => ⟨fun h => (nomatch h), fun ⟨_, h⟩ => (nomatch h)⟩, fun _ _ h => (nomatch h),
    fun _ _ _ _ h => (nomatch h), fun _ _ h => (nomatch h)⟩

/-- A transaction that has not written does not hold the lock. -/
theorem Sound.not_holder (h : Sound inserting opens db) (hi : opens i = some ⟨tx, none⟩)
    (v : Option ρ) : db.lock ≠ some (tx, v) := by
  intro hlock
  obtain ⟨j, hj⟩ := (h.lock tx v).mp hlock
  obtain rfl := h.distinct i j _ _ hi hj rfl
  rw [hi] at hj
  cases hj

/-- It sees the committed row. -/
theorem Sound.version (h : Sound inserting opens db) (hi : opens i = some ⟨tx, none⟩) :
    db.version tx = db.row := by
  unfold Db.version
  cases hlock : db.lock with
  | none => rfl
  | some l =>
    obtain ⟨holder, v⟩ := l
    have hne : holder ≠ tx := by
      rintro rfl
      exact h.not_holder hi v hlock
    simp only [if_neg hne]

/-- If nobody else holds the lock, nobody does. -/
theorem Sound.lock_free (h : Sound inserting opens db) (hi : opens i = some ⟨tx, none⟩)
    (hfree : db.heldByOther tx = false) : db.lock = none := by
  cases hlock : db.lock with
  | none => rfl
  | some l =>
    obtain ⟨holder, v⟩ := l
    have hheld : holder = tx := by simpa [Db.heldByOther, hlock] using hfree
    subst hheld
    exact absurd hlock (h.not_holder hi v)

/-- What another client has open. -/
def opened (opens : ℕ → Option (Open ρ)) (i : ℕ) (o : Option (Open ρ)) (j : ℕ) : Option (Open ρ) :=
  if j = i then o else opens j

@[simp] theorem opened_self (o : Option (Open ρ)) : opened opens i o i = o := if_pos rfl

theorem opened_other {j : ℕ} (o : Option (Open ρ)) (h : j ≠ i) : opened opens i o j = opens j :=
  if_neg h

theorem opened_same : opened opens i (opens i) = opens := by
  funext j
  unfold opened
  split
  · rename_i h
    rw [h]
  · rfl

/-- A client begins. -/
theorem Sound.begin (h : Sound inserting opens db) (hi : opens i = none) :
    Sound inserting (opened opens i (some ⟨db.next, none⟩)) { db with next := db.next + 1 } := by
  have hold : ∀ j o, opened opens i (some ⟨db.next, none⟩) j = some o →
      (j = i ∧ o = ⟨db.next, none⟩) ∨ (j ≠ i ∧ opens j = some o) := by
    intro j o hj
    by_cases hji : j = i
    · subst hji
      rw [opened_self] at hj
      exact .inl ⟨rfl, (Option.some.inj hj).symm⟩
    · rw [opened_other _ hji] at hj
      exact .inr ⟨hji, hj⟩
  -- the new transaction has a number of its own and holds nothing
  refine ⟨fun tx v => ?_, fun j o hj => ?_, fun j k o o' hj hk heq => ?_, h.flips⟩
  · rw [h.lock]
    constructor
    · rintro ⟨j, hj⟩
      have hji : j ≠ i := by
        rintro rfl
        rw [hi] at hj
        cases hj
      exact ⟨j, (opened_other _ hji).trans hj⟩
    · rintro ⟨j, hj⟩
      obtain ⟨-, heq⟩ | ⟨-, hj⟩ := hold j _ hj
      · cases heq
      · exact ⟨j, hj⟩
  · obtain ⟨-, rfl⟩ | ⟨-, hj'⟩ := hold j o hj
    · exact Nat.lt_succ_self _
    · exact Nat.lt_succ_of_lt (h.fresh j o hj')
  · obtain ⟨rfl, rfl⟩ | ⟨-, hj'⟩ := hold j o hj
    · obtain ⟨rfl, rfl⟩ | ⟨-, hk'⟩ := hold k o' hk
      · rfl
      · have hlt := h.fresh k o' hk'
        rw [← heq] at hlt
        exact absurd hlt (Nat.lt_irrefl _)
    · obtain ⟨rfl, rfl⟩ | ⟨-, hk'⟩ := hold k o' hk
      · have hlt := h.fresh j o hj'
        rw [heq] at hlt
        exact absurd hlt (Nat.lt_irrefl _)
      · exact h.distinct j k o o' hj' hk' heq

/-- A client writes its version, and takes the lock. -/
theorem Sound.write (h : Sound inserting opens db) (hi : opens i = some ⟨tx, none⟩)
    (hfree : db.lock = none) {v : Option ρ} (hv : v.isSome = inserting)
    (hrow : db.row.isSome = !inserting) :
    Sound inserting (opened opens i (some ⟨tx, some v⟩)) { db with lock := some (tx, v) } := by
  -- the lock was free, so nobody had written
  have hnone : ∀ j tx' v', opens j ≠ some ⟨tx', some v'⟩ := by
    intro j tx' v' hj
    have hlock := (h.lock tx' v').mpr ⟨j, hj⟩
    rw [hfree] at hlock
    cases hlock
  have hother : ∀ j o, opened opens i (some ⟨tx, some v⟩) j = some o →
      ∃ o', opens j = some o' ∧ o'.tx = o.tx := by
    intro j o hj
    by_cases hji : j = i
    · subst hji
      rw [opened_self] at hj
      obtain rfl := Option.some.inj hj
      exact ⟨_, hi, rfl⟩
    · rw [opened_other _ hji] at hj
      exact ⟨o, hj, rfl⟩
  refine ⟨fun tx' v' => ⟨fun heq => ?_, fun ⟨j, hj⟩ => ?_⟩, fun j o hj => ?_,
    fun j k o o' hj hk heq => ?_, fun tx' v' heq => ?_⟩
  · obtain ⟨rfl, rfl⟩ := Prod.mk.inj (Option.some.inj heq)
    exact ⟨i, opened_self _⟩
  · by_cases hji : j = i
    · subst hji
      rw [opened_self] at hj
      obtain ⟨rfl, hv'⟩ := Open.mk.inj (Option.some.inj hj)
      rw [Option.some.inj hv']
    · rw [opened_other _ hji] at hj
      exact absurd hj (hnone j tx' v')
  · obtain ⟨o', ho', heq⟩ := hother j o hj
    rw [← heq]
    exact h.fresh j o' ho'
  · obtain ⟨p, hp, hpt⟩ := hother j o hj
    obtain ⟨p', hp', hpt'⟩ := hother k o' hk
    exact h.distinct j k p p' hp hp' (hpt.trans (heq.trans hpt'.symm))
  · obtain ⟨-, rfl⟩ := Prod.mk.inj (Option.some.inj heq)
    exact ⟨hv, hrow⟩

/-- A client ends, and its lock is released. -/
theorem Sound.finish (h : Sound inserting opens db) {w : Option (Option ρ)}
    (hi : opens i = some ⟨tx, w⟩) {db' : Db ρ} (hnext : db'.next = db.next)
    (hlock : ∀ tx' v, db'.lock = some (tx', v) ↔ db.lock = some (tx', v) ∧ tx' ≠ tx)
    (hrow : db'.lock ≠ none → db'.row = db.row) : Sound inserting (opened opens i none) db' := by
  have hold : ∀ j o, opened opens i none j = some o → j ≠ i ∧ opens j = some o := by
    intro j o hj
    by_cases hji : j = i
    · subst hji
      rw [opened_self] at hj
      cases hj
    · rw [opened_other _ hji] at hj
      exact ⟨hji, hj⟩
  refine ⟨fun tx' v => ?_, fun j o hj => ?_, fun j k o o' hj hk heq => ?_, fun tx' v heq => ?_⟩
  · rw [hlock, h.lock]
    constructor
    · rintro ⟨⟨j, hj⟩, hne⟩
      have hji : j ≠ i := by
        rintro rfl
        rw [hi] at hj
        exact hne (Open.mk.inj (Option.some.inj hj)).1.symm
      exact ⟨j, (opened_other _ hji).trans hj⟩
    · rintro ⟨j, hj⟩
      obtain ⟨hji, hj⟩ := hold j _ hj
      refine ⟨⟨j, hj⟩, fun heq => hji (h.distinct j i _ _ hj hi heq)⟩
  · rw [hnext]
    exact h.fresh j o (hold j o hj).2
  · exact h.distinct j k o o' (hold j o hj).2 (hold k o' hk).2 heq
  · have hsame := hrow (by rw [heq]; simp)
    rw [hsame]
    exact h.flips tx' v ((hlock tx' v).mp heq).1

/-! ### Steps -/

/-- The lock after a transaction has ended. -/
theorem lock_released (db : Db ρ) (tx tx' : ℕ) (v : Option ρ) :
    ((db.commit tx).lock = some (tx', v) ↔ db.lock = some (tx', v) ∧ tx' ≠ tx) ∧
      ((db.rollback tx).lock = some (tx', v) ↔ db.lock = some (tx', v) ∧ tx' ≠ tx) := by
  unfold Db.commit Db.rollback
  cases hlock : db.lock with
  | none => simp [hlock]
  | some l =>
    obtain ⟨holder, w⟩ := l
    by_cases hheld : holder = tx
    · subst hheld
      simp only [if_true, reduceCtorEq, Option.some.injEq, Prod.mk.injEq, false_iff]
      constructor
      · rintro ⟨⟨heq, -⟩, hne⟩
        exact hne heq.symm
      · rintro ⟨⟨heq, -⟩, hne⟩
        exact hne heq.symm
    · have hkeep : db.lock = some (tx', v) ↔ some (holder, w) = some (tx', v) ∧ tx' ≠ tx := by
        rw [hlock, Option.some.injEq, Prod.mk.injEq]
        exact ⟨fun heq => ⟨heq, fun h => hheld (heq.1.trans h)⟩, And.left⟩
      simp only [if_neg hheld]
      exact ⟨hkeep, hkeep⟩

theorem commit_next (db : Db ρ) (tx : ℕ) : (db.commit tx).next = db.next := by
  unfold Db.commit
  split
  · split <;> rfl
  · rfl

theorem rollback_next (db : Db ρ) (tx : ℕ) : (db.rollback tx).next = db.next := by
  unfold Db.rollback
  split
  · split <;> rfl
  · rfl

theorem rollback_row (db : Db ρ) (tx : ℕ) : (db.rollback tx).row = db.row := by
  unfold Db.rollback
  split
  · split <;> rfl
  · rfl

/-- A commit that leaves a lock behind is of a transaction that has not written. -/
theorem commit_row (db : Db ρ) (tx : ℕ) (h : (db.commit tx).lock ≠ none) :
    (db.commit tx).row = db.row := by
  unfold Db.commit at h ⊢
  split
  · split
    · simp_all
    · rfl
  · rfl

/-- The commit of the holder. -/
theorem commit_of_holder {v : Option ρ} (h : db.lock = some (tx, v)) :
    db.commit tx = { db with row := v, lock := none } := by
  unfold Db.commit
  rw [h]
  exact if_pos rfl

/-- The commit of a transaction that has not written. -/
theorem commit_of_other (h : ∀ v, db.lock ≠ some (tx, v)) : db.commit tx = db := by
  unfold Db.commit
  split
  · rename_i holder v hlock
    refine if_neg fun heq => h v ?_
    rw [hlock, heq]
  · rfl

section Step

variable {violation : ε} {outside : Service A RA ε χ σ} {c : Statement ρ A} {choice : χ} {s : σ}

theorem serve_insert_ok {row : ρ} (h : db.version tx = none) :
    serve violation outside (.insert tx row) choice (db, s) =
      (.ok row, { db with lock := some (tx, some row) }, s) := by
  simp only [serve, h]

theorem serve_insert_error {row r : ρ} (h : db.version tx = some r) :
    serve violation outside (.insert tx row) choice (db, s) = (.error violation, db, s) := by
  simp only [serve, h]

theorem serve_delete_ok {cond : ρ → Bool} (h : (db.version tx).any cond = true) :
    serve violation outside (.delete tx cond) choice (db, s) =
      (.ok true, { db with lock := some (tx, none) }, s) := by
  simp only [serve, if_pos h]

theorem serve_delete_none {cond : ρ → Bool} (h : ¬ (db.version tx).any cond = true) :
    serve violation outside (.delete tx cond) choice (db, s) = (.ok false, db, s) := by
  simp only [serve, if_neg h]

/-- **One statement** of a client that follows the discipline keeps the locks in
order. -/
theorem Sound.step (h : Sound inserting opens db)
    (hpre : (discipline RA ε inserting).pre c (opens i)) (hfree : c.free (db, s) = true) :
    Sound inserting
      (opened opens i (track (opens i) ⟨c, (serve violation outside c choice (db, s)).1⟩))
      (serve violation outside c choice (db, s)).2.1 := by
  have hquiet : Sound inserting (opened opens i (opens i)) db := by
    rw [opened_same]
    exact h
  cases c with
  | begin => exact h.begin hpre
  | select tx => exact hquiet
  | other tx => exact hquiet
  | outside c => exact hquiet
  -- an insert fails where a row is, and else takes the lock
  | insert tx row =>
    obtain ⟨rfl, hi⟩ := hpre
    have hnone := h.lock_free hi (by simpa [Statement.free] using hfree)
    cases hrow : db.row with
    | some r =>
      rw [serve_insert_error ((h.version hi).trans hrow)]
      exact hquiet
    | none =>
      rw [serve_insert_ok ((h.version hi).trans hrow), hi]
      exact h.write hi hnone (v := some row) rfl (by rw [hrow]; rfl)
  -- a deletion takes the lock if its condition holds
  | delete tx cond =>
    obtain ⟨rfl, hi⟩ := hpre
    have hversion := h.version hi
    by_cases hcond : db.row.any cond = true
    · have hnone := h.lock_free hi (by simpa [Statement.free, hcond] using hfree)
      obtain ⟨r, hr, -⟩ := (Option.any_eq_true ..).mp hcond
      rw [serve_delete_ok (hversion ▸ hcond), hi]
      exact h.write hi hnone (v := none) rfl (by rw [hr]; rfl)
    · rw [serve_delete_none (hversion ▸ hcond)]
      exact hquiet
  -- either end lets go of the lock
  | commit tx =>
    obtain ⟨⟨tx', w⟩, hi, rfl⟩ := Option.map_eq_some_iff.mp hpre
    exact h.finish hi (commit_next db _) (fun tx' v => (lock_released db _ tx' v).1)
      (commit_row db _)
  | rollback tx =>
    obtain ⟨⟨tx', w⟩, hi, rfl⟩ := Option.map_eq_some_iff.mp hpre
    exact h.finish hi (rollback_next db _) (fun tx' v => (lock_released db _ tx' v).2)
      (fun _ => rollback_row db _)

end Step

/-! ### What is published -/

/-- A record of the clients. -/
abbrev Record (ρ A : Type) (RA : A → Type) (ε : Type) : Type :=
  List (ℕ × Exchange (Statement ρ A) (Statement.Result RA) ε)

/-- Client `i` has committed a transaction that had written `v`. -/
def Published (trace : Record ρ A RA ε) (i : ℕ) (v : Option ρ) : Prop :=
  ∃ before tx after, trace = before ++ (i, ⟨.commit tx, .ok ()⟩) :: after ∧
    openOf (ownTrace before i) = some ⟨tx, some v⟩

theorem Published.append {trace : Record ρ A RA ε} {v : Option ρ} (h : Published trace i v)
    (later : Record ρ A RA ε) : Published (trace ++ later) i v := by
  obtain ⟨before, tx, after, rfl, ho⟩ := h
  exact ⟨before, tx, after ++ later, by simp, ho⟩

/-- A publication is an old one, or the last call. -/
theorem published_concat {trace : Record ρ A RA ε} {j : ℕ} {v : Option ρ}
    {e : Exchange (Statement ρ A) (Statement.Result RA) ε}
    (h : Published (trace ++ [(i, e)]) j v) :
    Published trace j v ∨
      j = i ∧ ∃ tx, e = ⟨.commit tx, .ok ()⟩ ∧ openOf (ownTrace trace i) = some ⟨tx, some v⟩ := by
  obtain ⟨before, tx, after, htrace, ho⟩ := h
  rcases List.eq_nil_or_concat after with rfl | ⟨after', last, rfl⟩
  · obtain ⟨rfl, heq⟩ := List.append_inj' htrace rfl
    rw [List.singleton_inj] at heq
    obtain ⟨rfl, rfl⟩ := Prod.mk.inj heq
    exact .inr ⟨rfl, tx, rfl, ho⟩
  · rw [List.concat_eq_append, ← List.cons_append, ← List.append_assoc] at htrace
    exact .inl ⟨before, tx, after', (List.append_inj' htrace rfl).1, ho⟩

/-- The locks are in order, and the row has been published once at most. -/
structure Serial (inserting : Bool) (row : Option ρ) (db : Db ρ) (trace : Record ρ A RA ε) :
    Prop where
  unpublished : (∀ i v, ¬ Published trace i v) → db.row = row
  sound : Sound inserting (fun i => openOf (ownTrace trace i)) db
  published : ∀ i v, Published trace i v → db.row = v ∧ v.isSome = inserting
  unique : ∀ i j v w, Published trace i v → Published trace j w → i = j

theorem serial_quiet (inserting : Bool) (row : Option ρ) :
    Serial inserting row (Db.quiet row) ([] : Record ρ A RA ε) := by
  have hnone : ∀ i v, ¬ Published ([] : Record ρ A RA ε) i v := by
    rintro i v ⟨before, tx, after, h, -⟩
    simp at h
  exact ⟨fun _ => rfl, sound_quiet inserting row, fun i v h => absurd h (hnone i v),
    fun i j v w h => absurd h (hnone i v)⟩

/-- Clients that delete leave the row as it was, or gone. -/
theorem Serial.row_deleting {row : Option ρ} {trace : Record ρ A RA ε}
    (h : Serial false row db trace) : db.row = row ∨ db.row = none := by
  by_cases hpublished : ∃ i v, Published trace i v
  · obtain ⟨i, v, hv⟩ := hpublished
    obtain ⟨hrow, hkind⟩ := h.published i v hv
    right
    rw [hrow]
    exact Option.isSome_eq_false_iff.mp hkind |> Option.isNone_iff_eq_none.mp
  · exact .inl (h.unpublished fun i v hv => hpublished ⟨i, v, hv⟩)

/-- What the clients have open after a call of one of them. -/
theorem openOf_concat (trace : Record ρ A RA ε) (i : ℕ)
    (e : Exchange (Statement ρ A) (Statement.Result RA) ε) :
    (fun j => openOf (ownTrace (trace ++ [(i, e)]) j)) =
      opened (fun j => openOf (ownTrace trace j)) i (track (openOf (ownTrace trace i)) e) := by
  funext j
  rw [ownTrace_append, ownTrace_cons, ownTrace_nil]
  by_cases h : j = i
  · subst h
    rw [if_pos rfl, openOf_append, opened_self]
  · rw [if_neg (Ne.symm h), List.append_nil, opened_other _ h]

section Run

variable {violation : ε} {outside : Service A RA ε χ σ} {trace : Record ρ A RA ε}
  {c : Statement ρ A} {choice : χ} {s : σ}

/-- A statement that is no commit leaves the committed row alone. -/
theorem serve_row (hc : ∀ tx, c ≠ .commit tx) :
    (serve violation outside c choice (db, s)).2.1.row = db.row := by
  cases c with
  | commit tx => exact absurd rfl (hc tx)
  | rollback tx => exact rollback_row db tx
  | insert tx row =>
    simp only [serve]
    split <;> rfl
  | delete tx cond =>
    simp only [serve]
    split <;> rfl
  | _ => rfl

/-- **One call** of a client that follows the discipline. -/
theorem Serial.step {row : Option ρ} (h : Serial inserting row db trace)
    (hpre : (discipline RA ε inserting).pre c (openOf (ownTrace trace i)))
    (hfree : c.free (db, s) = true) :
    Serial inserting row (serve violation outside c choice (db, s)).2.1
      (trace ++ [(i, ⟨c, (serve violation outside c choice (db, s)).1⟩)]) := by
  have hsound : Sound inserting (fun j => openOf (ownTrace
      (trace ++ [(i, ⟨c, (serve violation outside c choice (db, s)).1⟩)]) j))
      (serve violation outside c choice (db, s)).2.1 := by
    rw [openOf_concat]
    exact h.sound.step hpre hfree
  by_cases hcommit : ∃ tx v, c = .commit tx ∧ openOf (ownTrace trace i) = some ⟨tx, some v⟩
  · -- the holder publishes: nobody has before, because the row was not that of a publication
    obtain ⟨tx, v, rfl, ho⟩ := hcommit
    have hlock := (h.sound.lock tx v).mpr ⟨i, ho⟩
    obtain ⟨hkind, hpresent⟩ := h.sound.flips tx v hlock
    have hfirst : ∀ j w, ¬ Published trace j w := by
      intro j w hj
      obtain ⟨hrow, hw⟩ := h.published j w hj
      rw [hrow, hw] at hpresent
      cases inserting <;> cases hpresent
    have honly : ∀ j w, Published (trace ++ [(i, ⟨.commit tx, .ok ()⟩)]) j w → j = i ∧ w = v := by
      intro j w hj
      rcases published_concat hj with hj | ⟨rfl, tx', heq, ho'⟩
      · exact absurd hj (hfirst j w)
      · rw [ho] at ho'
        obtain ⟨-, hw⟩ := Open.mk.inj (Option.some.inj ho')
        exact ⟨rfl, (Option.some.inj hw).symm⟩
    have hself : Published (trace ++ [(i, ⟨.commit tx, .ok ()⟩)]) i v :=
      ⟨trace, tx, [], rfl, ho⟩
    refine ⟨fun hnone => absurd hself (hnone i v), hsound, fun j w hj => ?_, fun j k w w' hj hk => ?_⟩
    · obtain ⟨-, rfl⟩ := honly j w hj
      refine ⟨?_, hkind⟩
      show (db.commit tx).row = w
      rw [commit_of_holder hlock]
    · rw [(honly j w hj).1, (honly k w' hk).1]
  · -- nothing is published, and the row stays
    have hold : ∀ j w, Published
        (trace ++ [(i, ⟨c, (serve violation outside c choice (db, s)).1⟩)]) j w →
          Published trace j w := by
      intro j w hj
      rcases published_concat hj with hj | ⟨rfl, tx, heq, ho⟩
      · exact hj
      · exact absurd ⟨tx, w, congrArg Exchange.call heq, ho⟩ hcommit
    have hrow : (serve violation outside c choice (db, s)).2.1.row = db.row := by
      by_cases hc : ∃ tx, c = .commit tx
      · obtain ⟨tx, rfl⟩ := hc
        obtain ⟨⟨tx', w⟩, ho, rfl⟩ := Option.map_eq_some_iff.mp hpre
        show (db.commit tx').row = db.row
        rw [commit_of_other]
        intro v hlock
        obtain ⟨j, hj⟩ := (h.sound.lock tx' v).mp hlock
        obtain rfl := h.sound.distinct i j _ _ ho hj rfl
        exact hcommit ⟨tx', v, rfl, hj⟩
      · exact serve_row fun tx heq => hc ⟨tx, heq⟩
    refine ⟨fun hnone => ?_, hsound, fun j w hj => ?_, fun j k w w' hj hk => ?_⟩
    · rw [hrow]
      exact h.unpublished fun j w hj => hnone j w (hj.append _)
    · rw [hrow]
      exact h.published j w (hold j w hj)
    · exact h.unique j k w w' (hold j w hj) (hold k w' hk)

/-- The clients and the record of a run, and the database. -/
structure Orderly (inserting : Bool) (row : Option ρ) (s : σ) (violation : ε)
    (outside : Service A RA ε χ σ) (tasks : List (κ × Client ρ A RA ε α))
    (x : Pool κ (Statement ρ A) (Statement.Result RA) ε α (Db ρ × σ) × Record ρ A RA ε) : Prop where
  recorded : Pool.Recorded (serve violation outside) (Db.quiet row, s) tasks x
  serial : Serial inserting row x.1.state.1 x.2

variable {row : Option ρ} {tasks : List (κ × Client ρ A RA ε α)}
  {x y : Pool κ (Statement ρ A) (Statement.Result RA) ε α (Db ρ × σ) × Record ρ A RA ε}

theorem orderly_start (inserting : Bool) (row : Option ρ) (s : σ) (violation : ε)
    (outside : Service A RA ε χ σ) (tasks : List (κ × Client ρ A RA ε α)) :
    Orderly inserting row s violation outside tasks (Pool.start (Db.quiet row, s) tasks, []) :=
  ⟨Pool.recorded_start _ _, serial_quiet inserting row⟩

/-- Before each of its calls, a client has open what the discipline asks for. -/
theorem Orderly.pre (h : Orderly inserting row s violation outside tasks x)
    (hclients : ∀ task ∈ tasks, Disciplined inserting task.2) {q : κ}
    {k : Except ε (c.Result RA) → Client ρ A RA ε α} (hi : x.1.tasks[i]? = some (q, call c k)) :
    (discipline RA ε inserting).pre c (openOf (ownTrace x.2 i)) := by
  obtain ⟨p, hp, hreach⟩ := h.recorded.left i q _ hi
  have hmeets := hclients _ (List.mem_of_getElem? hp)
  have hleft := hmeets.reaches (A := fun _ => True) (fun _ _ _ _ => rfl) hreach fun _ _ => trivial
  exact hleft.1

/-- **One step** of a run. -/
theorem Orderly.step {l : ℕ × χ} (h : Orderly inserting row s violation outside tasks x)
    (hclients : ∀ task ∈ tasks, Disciplined inserting task.2)
    (hstep : Pool.guarded Statement.free (serve violation outside) x l = some y) :
    Orderly inserting row s violation outside tasks y := by
  obtain ⟨htraced, hfree⟩ := Pool.guarded_some hstep
  obtain ⟨x, trace⟩ := x
  obtain ⟨y, trace'⟩ := y
  refine ⟨h.recorded.step htraced, ?_⟩
  obtain ⟨q, c, k, hq, hstate, -, rfl⟩ := Pool.traced_some htraced
  show Serial inserting row y.state.1 _
  rw [hstate]
  exact h.serial.step (h.pre hclients hq) (hfree q c k hq)

/-- **Published once.**  However clients that follow the discipline interleave,
the row is published once at most, and stays as it was published. -/
theorem published_once {ls : List (ℕ × χ)} (hclients : ∀ task ∈ tasks, Disciplined inserting task.2)
    (hrun : exec (Pool.guarded Statement.free (serve violation outside))
      (Pool.start (Db.quiet row, s) tasks, []) ls = some x) :
    Orderly inserting row s violation outside tasks x := by
  have hkeep : ∀ x l y, Orderly inserting row s violation outside tasks x → True →
      Pool.guarded Statement.free (serve violation outside) x l = some y →
        Orderly inserting row s violation outside tasks y :=
    fun x l y hx _ hstep => hx.step hclients hstep
  exact exec_invariant hkeep (orderly_start inserting row s violation outside tasks)
    (along_true _ _) hrun

end Run

/-! ### Transactions -/

section Transactions

variable {β : Type}

/-- One statement of a program that meets the discipline. -/
theorem ask_disciplined {c : Statement ρ A} {o : Option (Open ρ)}
    {Q : Except ε (c.Result RA) → Option (Open ρ) → Prop}
    (hpre : (discipline RA ε inserting).pre c o) (hQ : ∀ r, Q r (track o ⟨c, r⟩)) :
    (ask c : Client ρ A RA ε _).Meets (discipline RA ε inserting) Q o := by
  apply meets_perform.mpr
  refine ⟨hpre, ?_⟩
  rintro r _ rfl
  exact hQ r

/-- A transaction follows the discipline if its body does. -/
theorem transaction_disciplined {body : ℕ → Client ρ A RA ε α}
    (hbody : ∀ tx, (body tx).Meets (discipline RA ε inserting)
      (fun _ o => o.map Open.tx = some tx) (some ⟨tx, none⟩)) :
    (transaction body).Meets (discipline RA ε inserting) (fun _ o => o = none) none := by
  have hfirst : (ask .begin : Client ρ A RA ε ℕ).Meets (discipline RA ε inserting)
      (fun r o => o = r.toOption.map fun tx => ⟨tx, none⟩) none := by
    apply ask_disciplined
    · rfl
    · intro r
      cases r <;> rfl
  apply hfirst.bind
  · rintro tx _ rfl
    have hprotected : ((body tx).tryCatch fun e =>
        ask (.rollback tx) >>= fun _ => Prog.throw e).Meets (discipline RA ε inserting)
        (fun r o => o.map Open.tx = r.toOption.map fun _ => tx) (some ⟨tx, none⟩) := by
      apply (hbody tx).tryCatch
      · exact fun a o ho => ho
      · intro e o ho
        have hroll : (ask (.rollback tx) : Client ρ A RA ε Unit).Meets
            (discipline RA ε inserting) (fun _ o => o = none) o := ask_disciplined ho fun _ => rfl
        exact hroll.bind (fun _ _ h => congrArg _ h) (fun _ _ h => congrArg _ h)
    apply hprotected.bind
    · intro a o ho
      have hcommit : (ask (.commit tx) : Client ρ A RA ε Unit).Meets
          (discipline RA ε inserting) (fun _ o => o = none) o := ask_disciplined ho fun _ => rfl
      exact hcommit.bind (fun _ _ h => h) (fun _ _ h => h)
    · exact fun e o ho => Option.map_eq_none_iff.mp ho
  · exact fun e o ho => ho

/-- What a transaction has done when it has returned. -/
theorem transaction_returned {body : ℕ → Client ρ A RA ε α} {a : α}
    {own : List (Exchange (Statement ρ A) (Statement.Result RA) ε)}
    (h : (transaction body).Reaches own (ret a)) :
    ∃ tx own', own = ⟨.begin, .ok tx⟩ :: (own' ++ [⟨.commit tx, .ok ()⟩]) ∧
      (body tx).Reaches own' (ret a) := by
  obtain ⟨tx, own₁, rfl, h₁⟩ := reaches_perform_ret h
  obtain ⟨c, k, -, hq⟩ | ⟨b, own₂, own₃, rfl, hbody, h₂⟩ | ⟨e, own₂, own₃, rfl, -, h₂⟩ :=
    reaches_try h₁
  · cases hq
  · obtain ⟨⟨⟩, own₄, rfl, h₃⟩ := reaches_perform_ret h₂
    obtain ⟨rfl, hret⟩ := reaches_ret h₃
    obtain rfl := Prog.ret.inj hret
    exact ⟨tx, own₂, rfl, hbody⟩
  · rw [bind_assoc] at h₂
    obtain ⟨-, own₄, rfl, h₃⟩ := reaches_perform_ret h₂
    cases (reaches_throw h₃).2

end Transactions

end ReadCommitted
