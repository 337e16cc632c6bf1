/-
NexCause/RowLock.lean

Transactions that write one row and append to its log, under PostgreSQL's
READ COMMITTED isolation.  A transaction is a program over statements; any
number of sessions interleave statement by statement, and any statement (or
the commit) may fail, which rolls the session back.

What a session sees is its own version of the row once it has written it, and
the committed row before.  The first write takes the row lock, which is held
until the session ends: `Db.lock` is the holder with its uncommitted version,
so two sessions cannot hold it.  An `UPDATE` whose `WHERE` clause does not
accept the visible row touches nothing and takes no lock.

A body is `LockFirst` when it appends to the log only after it has written
the row.  Such transactions are serialisable: `step_serial` says that every
step leaves the committed row and log alone, or commits what one whole body
does when it runs alone on them, and `exec_serial` carries that to runs.

Nothing here knows what the row or the entries of its log are.
-/
import NexCause.Program
import NexCause.Transition

namespace RowLock

open Program Prog Transition

variable {ρ ε α : Type}

/-! ### Statements -/

/-- A version of the row (`none` when it is not there) and a list of entries of its log. -/
@[ext] structure View (ρ ε : Type) where
  row : Option ρ
  log : List ε
  deriving DecidableEq

/-- The statements of a transaction, as far as they concern the row and its log. -/
inductive Statement (ρ ε : Type) : Type
  /-- any statement on other rows; its answer says whether it found what it looked for -/
  | other
  /-- `INSERT` of the row -/
  | insert (row : ρ)
  /-- `UPDATE … SET … WHERE … RETURNING` -/
  | update (accepts : ρ → Bool) (set : ρ → ρ)
  /-- `INSERT` of an entry that references the row -/
  | append (entry : ε)

/-- What a statement returns. -/
abbrev Statement.Answer : Statement ρ ε → Type
  | .other => Bool
  | .insert _ => Unit
  | .update _ _ => Option ρ
  | .append _ => Unit

/-- A transaction: what its client does between `BEGIN` and `COMMIT`. -/
abbrev Body (ρ ε α : Type) : Type := Prog (Statement ρ ε) Statement.Answer String α

/-- One statement. -/
def execute (c : Statement ρ ε) : Body ρ ε c.Answer := perform c

/-- A statement on what its session sees: its answer and what the session sees next; `none` when
a constraint (primary key, foreign key) makes it fail. -/
def Statement.act : (c : Statement ρ ε) → Bool → View ρ ε → Option (c.Answer × View ρ ε)
  | .other, found, v => some (found, v)
  | .insert r, _, v =>
      match v.row with
      | none => some ((), { v with row := some r })
      | some _ => none
  | .update accepts set, _, v =>
      match v.row with
      | some r => if accepts r then some (some (set r), { v with row := some (set r) })
          else some (none, v)
      | none => some (none, v)
  | .append e, _, v =>
      if v.row.isSome then some ((), { v with log := v.log ++ [e] }) else none

/-- The statement writes the row when it is executed. -/
def Statement.writes : Statement ρ ε → View ρ ε → Bool
  | .other, _ => false
  | .insert _, _ => true
  | .update accepts _, v => v.row.any accepts
  | .append _, _ => false

/-- What a statement that writes the row does to it. -/
theorem Statement.act_of_writes {c : Statement ρ ε} {b : Bool} {v w : View ρ ε} {a : c.Answer}
    (hw : c.writes v = true) (h : c.act b v = some (a, w)) : w.row.isSome ∧ w.log = v.log := by
  cases c with
  | other => cases hw
  | append e => cases hw
  | insert r =>
    simp only [act] at h
    split at h
    · obtain ⟨-, rfl⟩ := Prod.mk.inj (Option.some.inj h)
      exact ⟨rfl, rfl⟩
    · cases h
  | update accepts set =>
    obtain ⟨r, hr, hacc⟩ := (Option.any_eq_true ..).mp hw
    simp only [act, hr, hacc, if_true] at h
    obtain ⟨-, rfl⟩ := Prod.mk.inj (Option.some.inj h)
    exact ⟨rfl, rfl⟩

/-- A statement that does not write the row leaves it as it is. -/
theorem Statement.act_of_not_writes {c : Statement ρ ε} {b : Bool} {v w : View ρ ε} {a : c.Answer}
    (hw : c.writes v = false) (h : c.act b v = some (a, w)) : w.row = v.row := by
  cases c with
  | insert r => cases hw
  | other =>
    obtain ⟨-, rfl⟩ := Prod.mk.inj (Option.some.inj h)
    rfl
  | append e =>
    simp only [act, Option.ite_none_right_eq_some] at h
    obtain ⟨-, rfl⟩ := Prod.mk.inj (Option.some.inj h.2)
    rfl
  | update accepts set =>
    simp only [act] at h
    split at h
    · rename_i r hr
      have hacc : accepts r = false := by simpa [writes, hr] using hw
      rw [hacc, if_neg Bool.false_ne_true] at h
      obtain ⟨-, rfl⟩ := Prod.mk.inj (Option.some.inj h)
      rfl
    · obtain ⟨-, rfl⟩ := Prod.mk.inj (Option.some.inj h)
      rfl

/-- A statement only adds to the log it is given. -/
theorem Statement.act_append_log {c : Statement ρ ε} {b : Bool} {v w : View ρ ε} {a : c.Answer}
    (h : c.act b v = some (a, w)) (before : List ε) :
    c.act b ⟨v.row, before ++ v.log⟩ = some (a, ⟨w.row, before ++ w.log⟩) := by
  cases c with
  | other =>
    obtain ⟨rfl, rfl⟩ := Prod.mk.inj (Option.some.inj h)
    rfl
  | insert r =>
    simp only [act] at h ⊢
    split at h
    · obtain ⟨rfl, rfl⟩ := Prod.mk.inj (Option.some.inj h)
      rfl
    · cases h
  | update accepts set =>
    simp only [act] at h ⊢
    split at h
    · -- there is a row: the update takes it or leaves it
      rename_i r hr
      by_cases hacc : accepts r
      · rw [if_pos hacc] at h ⊢
        obtain ⟨rfl, rfl⟩ := Prod.mk.inj (Option.some.inj h)
        rfl
      · rw [if_neg hacc] at h ⊢
        obtain ⟨rfl, rfl⟩ := Prod.mk.inj (Option.some.inj h)
        rfl
    · obtain ⟨rfl, rfl⟩ := Prod.mk.inj (Option.some.inj h)
      rfl
  | append e =>
    simp only [act, Option.ite_none_right_eq_some] at h ⊢
    obtain ⟨hv, he⟩ := h
    obtain ⟨rfl, rfl⟩ := Prod.mk.inj (Option.some.inj he)
    -- the entry goes behind what is there
    exact ⟨hv, by rw [List.append_assoc]⟩

/-! ### A transaction alone -/

/-- `p`, executed alone from `v`, can reach `q` and `w`. -/
inductive Resumes (p : Body ρ ε α) (v : View ρ ε) : Body ρ ε α → View ρ ε → Prop
  | start : Resumes p v p v
  | next {c : Statement ρ ε} {k : Except String c.Answer → Body ρ ε α} {w w' : View ρ ε}
      {b : Bool} {a : c.Answer} (h : Resumes p v (call c k) w) (hact : c.act b w = some (a, w')) :
      Resumes p v (k (.ok a)) w'

/-- A transaction that runs alone only adds to the log it is given. -/
theorem Resumes.append_log {p q : Body ρ ε α} {v w : View ρ ε} (h : Resumes p v q w)
    (before : List ε) : Resumes p ⟨v.row, before ++ v.log⟩ q ⟨w.row, before ++ w.log⟩ := by
  induction h with
  | start => exact .start
  | next _ hact ih => exact ih.next (Statement.act_append_log hact before)

/-- An inversion: the first statement of a run. -/
theorem Resumes.first {p q : Body ρ ε α} {v w : View ρ ε} (h : Resumes p v q w) :
    (q = p ∧ w = v) ∨ ∃ (c : Statement ρ ε) (k : Except String c.Answer → Body ρ ε α) (b : Bool)
      (a : c.Answer) (u : View ρ ε), p = call c k ∧ c.act b v = some (a, u) ∧
        Resumes (k (.ok a)) u q w := by
  induction h with
  | start => exact .inl ⟨rfl, rfl⟩
  | next hprev hact ih =>
    rcases ih with ⟨rfl, rfl⟩ | ⟨c, k, b, a, u, hp, hfirst, hrest⟩
    · exact .inr ⟨_, _, _, _, _, rfl, hact, .start⟩
    · exact .inr ⟨c, k, b, a, u, hp, hfirst, hrest.next hact⟩

theorem resumes_call {c : Statement ρ ε} {k : Except String c.Answer → Body ρ ε α} {v w : View ρ ε}
    {x : α} (h : Resumes (call c k) v (ret x) w) :
    ∃ b a u, c.act b v = some (a, u) ∧ Resumes (k (.ok a)) u (ret x) w := by
  rcases h.first with ⟨hq, -⟩ | ⟨c', k', b, a, u, hp, hact, hrest⟩
  · cases hq
  · obtain ⟨rfl, hk⟩ := Prog.call.inj hp
    obtain rfl := eq_of_heq hk
    exact ⟨b, a, u, hact, hrest⟩

theorem resumes_ret {x y : α} {v w : View ρ ε} (h : Resumes (ret x) v (ret y) w) :
    y = x ∧ w = v := by
  rcases h.first with ⟨hq, hw⟩ | ⟨c, k, b, a, u, hp, -⟩
  · exact ⟨Prog.ret.inj hq, hw⟩
  · cases hp

theorem resumes_throw {e : String} {y : α} {v w : View ρ ε}
    (h : Resumes (Prog.throw e) v (ret y) w) : False := by
  rcases h.first with ⟨hq, -⟩ | ⟨c, k, b, a, u, hp, -⟩
  · cases hq
  · cases hp

/-! ### Sessions -/

/-- A session: a transaction with the entries it has added, or its end. -/
inductive Session (ρ ε α : Type) : Type
  | active (body : Body ρ ε α) (staged : List ε)
  | committed (result : α)
  | rolledBack

/-- The database, as far as it concerns the row: what is committed, the holder of the row lock
with its uncommitted version, and the sessions. -/
structure Db (ρ ε α : Type) where
  row : Option ρ
  log : List ε
  lock : Option (ℕ × ρ)
  sessions : List (Session ρ ε α)

namespace Db

/-- Row and log without sessions. -/
def quiet (v : View ρ ε) : Db ρ ε α := ⟨v.row, v.log, none, []⟩

/-- The committed row and log. -/
def committed (db : Db ρ ε α) : View ρ ε := ⟨db.row, db.log⟩

/-- The version of the row that session `i` sees. -/
def version (db : Db ρ ε α) (i : ℕ) : Option ρ :=
  match db.lock with
  | some (j, r) => if j = i then some r else db.row
  | none => db.row

/-- Another session holds the row lock. -/
def blocked (db : Db ρ ε α) (i : ℕ) : Bool :=
  match db.lock with
  | some (j, _) => j != i
  | none => false

/-- The lock when session `i` ends. -/
def released (db : Db ρ ε α) (i : ℕ) : Option (ℕ × ρ) :=
  if db.blocked i then db.lock else none

end Db

/-- One step of the database. -/
inductive Label (ρ ε α : Type) : Type
  | start (body : Body ρ ε α)
  /-- session `i` executes its next statement; `found` is the answer of an `other` -/
  | statement (i : ℕ) (found : Bool)
  | commit (i : ℕ)
  /-- a statement or the commit of session `i` fails, or its client gives up: nothing it did is
  kept, and PostgreSQL takes nothing more of the transaction -/
  | rollback (i : ℕ)

/-- The step function.  A statement that writes the row waits for its lock. -/
def step (db : Db ρ ε α) : Label ρ ε α → Option (Db ρ ε α)
  | .start body => some { db with sessions := db.sessions ++ [.active body []] }
  | .statement i found =>
      match db.sessions[i]? with
      | some (.active (call c k) staged) =>
          let sees : View ρ ε := ⟨db.version i, staged⟩
          if c.writes sees && db.blocked i then none
          else (c.act found sees).map fun r =>
            { db with
                lock := if c.writes sees then r.2.row.map fun row => (i, row) else db.lock
                sessions := db.sessions.set i (.active (k (.ok r.1)) r.2.log) }
      | _ => none
  | .commit i =>
      match db.sessions[i]? with
      | some (.active (ret a) staged) =>
          some { row := db.version i
                 log := db.log ++ staged
                 lock := db.released i
                 sessions := db.sessions.set i (.committed a) }
      | _ => none
  | .rollback i =>
      match db.sessions[i]? with
      | some (.active _ _) =>
          some { db with lock := db.released i, sessions := db.sessions.set i .rolledBack }
      | _ => none

/-! ### Transactions that lock first -/

/-- Statements on other rows only. -/
def Quiet (p : Body ρ ε α) : Prop := p.Calls fun c => c = .other

/-- The transaction writes the row before it adds to the log, or adds nothing.  After an `UPDATE`
that touched no row it goes on quietly, unless its `WHERE` clause accepts every row and the row is
known to be `present`. -/
def LockFirst (present : Bool) : Body ρ ε α → Prop
  | ret _ => True
  | Prog.throw _ => True
  | call .other k => ∀ found, LockFirst present (k (.ok found))
  | call (.insert _) _ => True
  | call (.update accepts _) k => Quiet (k (.ok none)) ∨ (present = true ∧ ∀ r, accepts r = true)
  | call (.append _) _ => False

/-- What is known of a session without the lock: it has changed nothing, and it will go on
quietly or lock first.  `P` are the transactions that are started. -/
def Waits (P : Body ρ ε α → Prop) (row : Option ρ) (body : Body ρ ε α) (staged : List ε) : Prop :=
  staged = [] ∧
    (Quiet body ∨ (LockFirst row.isSome body ∧ ∃ p, P p ∧ ∀ v, Resumes p v body v))

/-- The invariant.  The holder of the lock has done what its transaction does alone on the
committed row; the other sessions have done nothing yet. -/
structure Db.Sound (P : Body ρ ε α → Prop) (db : Db ρ ε α) : Prop where
  holder : ∀ i r, db.lock = some (i, r) → ∃ body staged p,
    db.sessions[i]? = some (.active body staged) ∧ P p ∧
      Resumes p ⟨db.row, []⟩ body ⟨some r, staged⟩
  waits : ∀ i body staged, db.sessions[i]? = some (.active body staged) →
    (∀ r, db.lock ≠ some (i, r)) → Waits P db.row body staged

/-- The row only ever appears. -/
theorem LockFirst.appears {present : Bool} {p : Body ρ ε α} (h : LockFirst present p) :
    LockFirst true p := by
  induction p with
  | ret a => trivial
  | throw e => trivial
  | call c k ih =>
    cases c with
    | other => exact fun found => ih _ (h found)
    | insert r => trivial
    | append e => exact h.elim
    | update accepts set =>
      rcases h with h | ⟨-, h⟩
      · exact .inl h
      · exact .inr ⟨rfl, h⟩

theorem Waits.appears {P : Body ρ ε α → Prop} {row : Option ρ} {body : Body ρ ε α}
    {staged : List ε} (h : Waits P row body staged) (r : ρ) : Waits P (some r) body staged := by
  obtain ⟨hs, hq | ⟨hl, hp⟩⟩ := h
  · exact ⟨hs, .inl hq⟩
  · exact ⟨hs, .inr ⟨hl.appears, hp⟩⟩

/-! ### Who holds the lock -/

namespace Db

variable {db t : Db ρ ε α} {i : ℕ}

theorem version_of_holder {r : ρ} (h : db.lock = some (i, r)) : db.version i = some r := by
  unfold version
  rw [h]
  exact if_pos rfl

theorem version_of_waits (h : ∀ r, db.lock ≠ some (i, r)) : db.version i = db.row := by
  unfold version
  split
  · rename_i j r hl
    rw [if_neg]
    rintro rfl
    exact h r hl
  · rfl

theorem released_of_holder {r : ρ} (h : db.lock = some (i, r)) : db.released i = none := by
  simp [released, blocked, h]

theorem released_of_waits (h : ∀ r, db.lock ≠ some (i, r)) : db.released i = db.lock := by
  unfold released blocked
  cases hl : db.lock with
  | none => rfl
  | some jr =>
    obtain ⟨j, r⟩ := jr
    have hji : j ≠ i := fun e => h r (e ▸ hl)
    simp [hji]

theorem lock_free_of_waits (h : ∀ r, db.lock ≠ some (i, r)) (hb : db.blocked i = false) :
    db.lock = none := by
  cases hl : db.lock with
  | none => rfl
  | some jr =>
    obtain ⟨j, r⟩ := jr
    have hji : j = i := by simpa [blocked, hl] using hb
    exact absurd (hji ▸ hl) (h r)

/-- A session holds the lock or waits. -/
theorem holds_or_waits (db : Db ρ ε α) (i : ℕ) :
    (∃ r, db.lock = some (i, r)) ∨ ∀ r, db.lock ≠ some (i, r) := by
  by_cases h : ∃ r, db.lock = some (i, r)
  · exact .inl h
  · exact .inr fun r hr => h ⟨r, hr⟩

end Db

/-! ### One step -/

section Step

variable {P : Body ρ ε α → Prop} {db t : Db ρ ε α} {i : ℕ}

/-- What a statement does. -/
theorem statement_some {found : Bool} (h : step db (.statement i found) = some t) :
    ∃ (c : Statement ρ ε) (k : Except String c.Answer → Body ρ ε α) (staged : List ε)
      (a : c.Answer) (w : View ρ ε), db.sessions[i]? = some (.active (call c k) staged) ∧
        c.act found ⟨db.version i, staged⟩ = some (a, w) ∧
        (c.writes ⟨db.version i, staged⟩ = true → db.blocked i = false) ∧
        t = { db with
          lock := if c.writes ⟨db.version i, staged⟩ then w.row.map fun row => (i, row) else db.lock
          sessions := db.sessions.set i (.active (k (.ok a)) w.log) } := by
  simp only [step] at h
  split at h
  · rename_i c k staged hi
    split at h
    · cases h
    · rename_i hb
      obtain ⟨⟨a, w⟩, hact, rfl⟩ := Option.map_eq_some_iff.mp h
      refine ⟨c, k, staged, a, w, hi, hact, fun hw => ?_, rfl⟩
      simpa [hw] using hb
  · cases h

theorem commit_some (h : step db (.commit i) = some t) :
    ∃ a staged, db.sessions[i]? = some (.active (ret a) staged) ∧
      t = { row := db.version i, log := db.log ++ staged, lock := db.released i,
            sessions := db.sessions.set i (.committed a) } := by
  simp only [step] at h
  split at h
  · rename_i a staged hi
    exact ⟨a, staged, hi, (Option.some.inj h).symm⟩
  · cases h

theorem rollback_some (h : step db (.rollback i) = some t) :
    ∃ body staged, db.sessions[i]? = some (.active body staged) ∧
      t = { db with lock := db.released i, sessions := db.sessions.set i .rolledBack } := by
  simp only [step] at h
  split at h
  · rename_i body staged hi
    exact ⟨body, staged, hi, (Option.some.inj h).symm⟩
  · cases h

/-- A step of session `i` keeps the invariant when it keeps what is known of `i`, gives the lock
to nobody else and takes it from nobody else, and does not change the row under a holder. -/
theorem Db.Sound.replace (h : db.Sound P) {row : Option ρ} {log : List ε} {lock : Option (ℕ × ρ)}
    {s : Session ρ ε α} (hlen : i < db.sessions.length)
    (hrow : row = db.row ∨ ∃ r, row = some r)
    (hother : ∀ j r, j ≠ i → lock = some (j, r) → db.lock = some (j, r) ∧ row = db.row)
    (hkept : ∀ j r, j ≠ i → db.lock = some (j, r) → lock = some (j, r))
    (hholds : ∀ r, lock = some (i, r) → ∃ body staged p, s = .active body staged ∧ P p ∧
      Resumes p ⟨row, []⟩ body ⟨some r, staged⟩)
    (hwaits : ∀ body staged, s = .active body staged → (∀ r, lock ≠ some (i, r)) →
      Waits P row body staged) :
    Db.Sound P ⟨row, log, lock, db.sessions.set i s⟩ := by
  have hself : (db.sessions.set i s)[i]? = some s := by
    rw [List.getElem?_set_self hlen]
  refine ⟨fun j r hl => ?_, fun j body staged hj hw => ?_⟩
  · by_cases hji : j = i
    · subst hji
      obtain ⟨body, staged, p, rfl, hp, hrun⟩ := hholds r hl
      exact ⟨body, staged, p, hself, hp, hrun⟩
    · obtain ⟨hl', rfl⟩ := hother j r hji hl
      obtain ⟨body, staged, p, hj, hp, hrun⟩ := h.holder j r hl'
      refine ⟨body, staged, p, ?_, hp, hrun⟩
      show (db.sessions.set i s)[j]? = _
      rw [List.getElem?_set_ne (Ne.symm hji)]
      exact hj
  · by_cases hji : j = i
    · subst hji
      exact hwaits body staged (Option.some.inj (hself.symm.trans hj)) hw
    · replace hj : (db.sessions.set i s)[j]? = _ := hj
      rw [List.getElem?_set_ne (Ne.symm hji)] at hj
      have hold := h.waits j body staged hj fun r hr => hw r (hkept j r hji hr)
      rcases hrow with rfl | ⟨r, rfl⟩
      · exact hold
      · exact hold.appears r

/-- A statement of the lock's holder. -/
theorem Db.Sound.holder_statement (h : db.Sound P) {c : Statement ρ ε}
    {k : Except String c.Answer → Body ρ ε α} {staged : List ε} {a : c.Answer} {w : View ρ ε}
    {found : Bool} {r : ρ} (hl : db.lock = some (i, r))
    (hi : db.sessions[i]? = some (.active (call c k) staged))
    (hact : c.act found ⟨some r, staged⟩ = some (a, w)) :
    Db.Sound P { db with
      lock := if c.writes ⟨some r, staged⟩ then w.row.map fun row => (i, row) else db.lock
      sessions := db.sessions.set i (.active (k (.ok a)) w.log) } := by
  obtain ⟨body, staged', p, hi', hp, hrun⟩ := h.holder i r hl
  obtain ⟨rfl, rfl⟩ : body = call c k ∧ staged' = staged := by simpa [hi] using hi'.symm
  -- the lock stays with `i`, at the version the statement leaves
  obtain ⟨r', hr', hlock⟩ : ∃ r', w.row = some r' ∧
      (if c.writes ⟨some r, staged'⟩ then w.row.map fun row => (i, row) else db.lock)
        = some (i, r') := by
    cases hw : c.writes ⟨some r, staged'⟩ with
    | true =>
      obtain ⟨r', hr'⟩ := Option.isSome_iff_exists.mp (Statement.act_of_writes hw hact).1
      exact ⟨r', hr', by rw [if_pos rfl, hr']; rfl⟩
    | false =>
      refine ⟨r, Statement.act_of_not_writes hw hact, ?_⟩
      rw [if_neg Bool.false_ne_true]
      exact hl
  rw [hlock]
  have hlen := (List.getElem?_eq_some_iff.mp hi).1
  refine h.replace hlen (.inl rfl) (fun j r'' hji hj => ?_) (fun j r'' hji hj => ?_)
    (fun r'' hj => ?_) (fun _ _ _ hw => absurd rfl (hw r'))
  · exact absurd (Prod.mk.inj (Option.some.inj hj)).1.symm hji
  · exact absurd (Prod.mk.inj (Option.some.inj (hl.symm.trans hj))).1.symm hji
  · obtain ⟨-, rfl⟩ := Prod.mk.inj (Option.some.inj hj)
    refine ⟨_, _, p, rfl, hp, ?_⟩
    have hnext := hrun.next hact
    rw [← hr']
    exact hnext

/-- A statement of a session that waits. -/
theorem Db.Sound.waits_statement (h : db.Sound P) {c : Statement ρ ε}
    {k : Except String c.Answer → Body ρ ε α} {staged : List ε} {a : c.Answer} {w : View ρ ε}
    {found : Bool} (hl : ∀ r, db.lock ≠ some (i, r))
    (hi : db.sessions[i]? = some (.active (call c k) staged))
    (hact : c.act found ⟨db.row, staged⟩ = some (a, w))
    (hfree : c.writes ⟨db.row, staged⟩ = true → db.blocked i = false) :
    Db.Sound P { db with
      lock := if c.writes ⟨db.row, staged⟩ then w.row.map fun row => (i, row) else db.lock
      sessions := db.sessions.set i (.active (k (.ok a)) w.log) } := by
  obtain ⟨rfl, hbody⟩ := h.waits i (call c k) staged hi hl
  have hlen := (List.getElem?_eq_some_iff.mp hi).1
  cases hw : c.writes ⟨db.row, []⟩ with
  | true =>
    -- the first write takes the lock, which is free
    have hnone := Db.lock_free_of_waits hl (hfree hw)
    obtain ⟨hsome, hlog⟩ := Statement.act_of_writes hw hact
    obtain ⟨r', hr'⟩ := Option.isSome_iff_exists.mp hsome
    obtain ⟨p, hp, hrun⟩ : ∃ p, P p ∧ ∀ v, Resumes p v (call c k) v := by
      rcases hbody with hq | ⟨-, hp⟩
      · obtain rfl := hq.1
        cases hw
      · exact hp
    rw [if_pos rfl, hr']
    refine h.replace hlen (.inl rfl) (fun j r hji hj => ?_) (fun j r _ hj => ?_)
      (fun r hj => ?_) (fun _ _ _ hw => absurd rfl (hw r'))
    · exact absurd (Prod.mk.inj (Option.some.inj hj)).1.symm hji
    · rw [hnone] at hj
      cases hj
    · obtain ⟨-, rfl⟩ := Prod.mk.inj (Option.some.inj hj)
      refine ⟨_, _, p, rfl, hp, ?_⟩
      have hnext := (hrun ⟨db.row, []⟩).next hact
      rw [← hr']
      exact hnext
  | false =>
    -- nothing is written: the session still waits
    rw [if_neg Bool.false_ne_true]
    have hstill : Waits P db.row (k (.ok a)) w.log := by
      cases c with
      | insert r => cases hw
      | other =>
        obtain ⟨rfl, rfl⟩ := Prod.mk.inj (Option.some.inj hact)
        refine ⟨rfl, ?_⟩
        rcases hbody with hq | ⟨hfirst, p, hp, hrun⟩
        · exact .inl (hq.2 _)
        · exact .inr ⟨hfirst found, p, hp, fun v => (hrun v).next rfl⟩
      | append e =>
        rcases hbody with hq | ⟨hfirst, -⟩
        · cases hq.1
        · exact hfirst.elim
      | update accepts set =>
        have hmiss : a = none ∧ w = ⟨db.row, []⟩ := by
          simp only [Statement.act] at hact
          split at hact
          · rename_i r hr
            have hacc : accepts r = false := by simpa [Statement.writes, hr] using hw
            rw [hacc, if_neg Bool.false_ne_true] at hact
            obtain ⟨rfl, rfl⟩ := Prod.mk.inj (Option.some.inj hact)
            exact ⟨rfl, rfl⟩
          · obtain ⟨rfl, rfl⟩ := Prod.mk.inj (Option.some.inj hact)
            exact ⟨rfl, rfl⟩
        obtain ⟨rfl, rfl⟩ := hmiss
        refine ⟨rfl, .inl ?_⟩
        rcases hbody with hq | ⟨hquiet | ⟨hpresent, hall⟩, -⟩
        · cases hq.1
        · exact hquiet
        · -- a clause that accepts every row accepts the one that is there
          obtain ⟨r, hr⟩ := Option.isSome_iff_exists.mp hpresent
          simp [Statement.writes, hr, hall r] at hw
    refine h.replace hlen (.inl rfl) (fun j r _ hj => ⟨hj, rfl⟩) (fun j r _ hj => hj)
      (fun r hj => absurd hj (hl r)) (fun body staged heq _ => ?_)
    obtain ⟨rfl, rfl⟩ := Session.active.inj heq
    exact hstill

/-- A session that ends without publishing anything. -/
theorem Db.Sound.ended (h : db.Sound P) {s : Session ρ ε α} {body : Body ρ ε α}
    {staged log : List ε} (hi : db.sessions[i]? = some (.active body staged))
    (hs : ∀ body staged, s ≠ .active body staged) :
    Db.Sound P ⟨db.row, log, db.released i, db.sessions.set i s⟩ := by
  have hlen := (List.getElem?_eq_some_iff.mp hi).1
  refine h.replace hlen (.inl rfl) (fun j r hji hj => ⟨?_, rfl⟩) (fun j r hji hj => ?_)
    (fun r hj => ?_) (fun body staged heq _ => absurd heq (hs body staged))
  · rcases db.holds_or_waits i with ⟨r', hl⟩ | hl
    · rw [Db.released_of_holder hl] at hj
      cases hj
    · rwa [Db.released_of_waits hl] at hj
  · have hl : ∀ r, db.lock ≠ some (i, r) := fun r' hl =>
      hji (Prod.mk.inj (Option.some.inj (hj.symm.trans hl))).1
    rwa [Db.released_of_waits hl]
  · rcases db.holds_or_waits i with ⟨r', hl⟩ | hl
    · rw [Db.released_of_holder hl] at hj
      cases hj
    · rw [Db.released_of_waits hl] at hj
      exact absurd hj (hl r)

/-- The holder publishes its version and its entries. -/
theorem Db.Sound.published (h : db.Sound P) {r : ρ} (hl : db.lock = some (i, r)) {s : Session ρ ε α}
    {log : List ε} (hs : ∀ body staged, s ≠ .active body staged) :
    Db.Sound P ⟨some r, log, none, db.sessions.set i s⟩ := by
  obtain ⟨body, staged, p, hi, -⟩ := h.holder i r hl
  have hlen := (List.getElem?_eq_some_iff.mp hi).1
  refine h.replace hlen (.inr ⟨r, rfl⟩) (fun j r' _ hj => (nomatch hj)) (fun j r' hji hj => ?_)
    (fun r' hj => (nomatch hj)) (fun body staged heq _ => absurd heq (hs body staged))
  exact absurd (Prod.mk.inj (Option.some.inj (hj.symm.trans hl))).1 hji

/-- The transactions that are started lock first. -/
def Starts (P : Body ρ ε α → Prop) (db : Db ρ ε α) : Label ρ ε α → Prop
  | .start body => P body ∧ LockFirst db.row.isSome body
  | _ => True

/-- **One step is serial.**  It leaves what is committed alone, or commits what a whole
transaction does alone on it. -/
theorem step_serial {l : Label ρ ε α} (h : db.Sound P) (hC : Starts P db l)
    (hstep : step db l = some t) :
    t.Sound P ∧ (t.committed = db.committed ∨
      ∃ p a, P p ∧ Resumes p db.committed (ret a) t.committed) := by
  cases l with
  -- a new session holds nothing yet
  | start body =>
    obtain rfl := Option.some.inj hstep
    refine ⟨⟨fun j r hj => ?_, fun j body' staged hj hw => ?_⟩, .inl rfl⟩
    · obtain ⟨body', staged, p, hi, hrest⟩ := h.holder j r hj
      refine ⟨body', staged, p, ?_, hrest⟩
      have hlen := (List.getElem?_eq_some_iff.mp hi).1
      show (db.sessions ++ [Session.active body []])[j]? = _
      rw [List.getElem?_append_left hlen]
      exact hi
    · replace hj : (db.sessions ++ [Session.active body []])[j]? = _ := hj
      rcases Nat.lt_or_ge j db.sessions.length with hlt | hge
      · rw [List.getElem?_append_left hlt] at hj
        exact h.waits j body' staged hj hw
      · rw [List.getElem?_append_right hge, List.getElem?_singleton] at hj
        split at hj
        · obtain ⟨rfl, rfl⟩ := Session.active.inj (Option.some.inj hj)
          exact ⟨rfl, .inr ⟨hC.2, body, hC.1, fun v => .start⟩⟩
        · cases hj
  -- a statement publishes nothing
  | statement j found =>
    obtain ⟨c, k, staged, a, w, hj, hact, hfree, rfl⟩ := statement_some hstep
    refine ⟨?_, .inl rfl⟩
    rcases db.holds_or_waits j with ⟨r, hl⟩ | hl
    · rw [Db.version_of_holder hl] at hact ⊢
      exact h.holder_statement hl hj hact
    · rw [Db.version_of_waits hl] at hact hfree ⊢
      exact h.waits_statement hl hj hact hfree
  -- the holder publishes what it has done; a session that only waited has done nothing
  | commit j =>
    obtain ⟨a, staged, hj, rfl⟩ := commit_some hstep
    rcases db.holds_or_waits j with ⟨r, hl⟩ | hl
    · rw [Db.version_of_holder hl, Db.released_of_holder hl]
      refine ⟨h.published hl fun _ _ => by simp, .inr ?_⟩
      obtain ⟨body, staged', p, hj', hp, hrun⟩ := h.holder j r hl
      obtain ⟨rfl, rfl⟩ : body = ret a ∧ staged' = staged := by simpa [hj] using hj'.symm
      refine ⟨p, a, hp, ?_⟩
      have halone := hrun.append_log db.log
      rwa [List.append_nil] at halone
    · obtain ⟨rfl, -⟩ := h.waits j (ret a) staged hj hl
      rw [Db.version_of_waits hl]
      refine ⟨h.ended hj fun _ _ => by simp, .inl ?_⟩
      show (⟨db.row, db.log ++ []⟩ : View ρ ε) = ⟨db.row, db.log⟩
      rw [List.append_nil]
  -- nothing is published, and the lock is free
  | rollback j =>
    obtain ⟨body, staged, hj, rfl⟩ := rollback_some hstep
    exact ⟨h.ended hj fun _ _ => by simp, .inl rfl⟩

end Step

/-! ### Runs -/

theorem sound_quiet (P : Body ρ ε α → Prop) (v : View ρ ε) : (Db.quiet v).Sound P :=
  ⟨fun _ _ h => (nomatch h), fun _ _ _ h => (nomatch h)⟩

/-- **Serial invariants.**  What every transaction keeps when it runs alone, every interleaving
of them keeps, in every committed state. -/
theorem exec_serial {P : Body ρ ε α → Prop} {I : View ρ ε → Prop}
    (hkeep : ∀ p a v w, P p → I v → Resumes p v (ret a) w → I w) {v : View ρ ε}
    {ls : List (Label ρ ε α)} {db : Db ρ ε α} (hv : I v)
    (hC : Along step (Starts P) (Db.quiet v) ls) (hrun : exec step (Db.quiet v) ls = some db) :
    I db.committed := by
  have hinv : db.Sound P ∧ I db.committed := by
    refine exec_invariant (I := fun db => db.Sound P ∧ I db.committed)
      (fun s l t hs hc hstep => ?_) ⟨sound_quiet P v, hv⟩ hC hrun
    obtain ⟨ht, hcommit⟩ := step_serial hs.1 hc hstep
    refine ⟨ht, ?_⟩
    rcases hcommit with heq | ⟨p, a, hp, halone⟩
    · exact heq ▸ hs.2
    · exact hkeep p a _ _ hp hs.2 halone
  exact hinv.2

end RowLock
