/-
NexCause/RunEventLog.lean

The event log of an RCA run explains its status.  The deployment manager
creates the run (`startForIncident`, `startForDeployment`), and the agent
service claims, completes and fails it (`mark_running`, `complete_run`,
`fail_run`); each of them writes the row and its event by separate statements
of one transaction.

The transactions are bodies over the row and its log (`RowLock`), so that any
number of them interleave statement by statement and any statement may fail.
Run alone, each body does what the corresponding method of `RCARepository`
does to a `RunStore` (`markRunningBody_serial` and its siblings), which keeps
the row `Explained` by its log; `RowLock.exec_serial` carries that to every
interleaving (`event_log_explains`).
-/
import NexCause.RcaRun
import NexCause.RowLock

namespace NexCause

open Program Prog RowLock Transition

variable {Report : Type}

/-! ### The transactions -/

/-- `RcaRunSource` of the database schema. -/
inductive RcaRunSource
  | manual | automatic
  deriving DecidableEq, Repr

/-- The enumeration's value, as Prisma stores it. -/
def RcaRunSource.name : RcaRunSource → String
  | .manual => "manual"
  | .automatic => "automatic"

/-- `normalizeRcaRunSource`. -/
def normalizeRcaRunSource (source : RcaRunSource) : RcaRunSource :=
  if source = .automatic then .automatic else .manual

/-- What a transaction hands to its caller. -/
inductive Reply (Report : Type) : Type
  | created (run : RcaRun Report)
  | claimed (claimed : Bool)
  | done

/-- A transaction on an RCA run. -/
abbrev RunBody (Report α : Type) : Type := Body (RcaRun Report) RcaRunEvent α

/-- What both services do first in a tenant transaction: two calls of `set_config`. -/
def tenantConnection : RunBody Report Unit := do
  let _ ← execute .other
  let _ ← execute .other

/-- The `INSERT` of an `RcaRunEvent` row. -/
def insertRunEvent (type : String) (data : List (String × String)) : RunBody Report Unit :=
  execute (.append ⟨type, data⟩)

/-- `mark_running`. -/
def markRunningBody (now : ℕ) : RunBody Report (Reply Report) := do
  tenantConnection
  let row ← execute (.update (fun run => run.status = .pending ∨ run.status = .failed) fun run =>
    { run with
        status := .running
        startedAt := some (run.startedAt.getD now)
        errorMessage := none })
  let claimed := row.isSome
  if claimed then
    insertRunEvent "run.running" []
  return .claimed claimed

/-- `complete_run`. -/
def completeRunBody (now : ℕ) (result : Report) : RunBody Report (Reply Report) := do
  tenantConnection
  let _ ← execute (.update (fun _ => true) fun run =>
    { run with
        status := .completed
        result := some result
        completedAt := some now
        errorMessage := none })
  insertRunEvent "run.completed" []
  return .done

/-- `fail_run`. -/
def failRunBody (now : ℕ) (message : String) : RunBody Report (Reply Report) := do
  tenantConnection
  let _ ← execute (.update (fun _ => true) fun run =>
    { run with
        status := .failed
        errorMessage := some message
        completedAt := some now })
  insertRunEvent "run.failed" [("error", String.ofList (message.toList.take 500))]
  return .done

/-- `tx.rcaRun.create` with its `include`, and the `run.created` event. -/
def createRun (id : String) (source : RcaRunSource) : RunBody Report (Reply Report) := do
  let created : RcaRun Report := ⟨id, .pending, none, none, none, none⟩
  execute (.insert created)
  let _ ← execute .other
  insertRunEvent "run.created" [("source", source.name)]
  return .created created

/-- The transaction of `startForIncident`, for the run id that is generated. -/
def startForIncidentBody (id : String) (source : RcaRunSource) : RunBody Report (Reply Report) := do
  tenantConnection
  let incident ← execute .other
  if incident then
    createRun id (normalizeRcaRunSource source)
  else
    Prog.throw "Incident was not found"

/-- The transaction of `startForDeployment`, for the run id that is generated. -/
def startForDeploymentBody (id : String) : RunBody Report (Reply Report) := do
  tenantConnection
  let deployment ← execute .other
  if deployment then
    -- the new incident
    let _ ← execute .other
    createRun id .manual
  else
    Prog.throw "Deployment was not found"

/-! ### Each transaction alone -/

/-- The row and the log of a run. -/
def RunStore.view (st : RunStore Report) : View (RcaRun Report) RcaRunEvent :=
  ⟨some st.run, st.events⟩

/-- A statement on other rows, alone. -/
theorem resumes_other {k : Except String Bool → RunBody Report (Reply Report)}
    {v w : View (RcaRun Report) RcaRunEvent} {x : Reply Report}
    (h : Resumes (call .other k) v (ret x) w) : ∃ found, Resumes (k (.ok found)) v (ret x) w := by
  obtain ⟨found, a, u, hact, hrest⟩ := resumes_call h
  obtain ⟨rfl, rfl⟩ := Prod.mk.inj (Option.some.inj hact)
  exact ⟨_, hrest⟩

/-- The two `set_config`s, alone. -/
theorem resumes_tenantConnection {f : Unit → RunBody Report (Reply Report)}
    {v w : View (RcaRun Report) RcaRunEvent} {x : Reply Report}
    (h : Resumes (tenantConnection >>= f) v (ret x) w) : Resumes (f ()) v (ret x) w := by
  obtain ⟨_, h⟩ := resumes_other h
  obtain ⟨_, h⟩ := resumes_other h
  exact h

/-- The insertion of an event, alone. -/
theorem resumes_insertRunEvent {type : String} {data : List (String × String)}
    {f : Unit → RunBody Report (Reply Report)} {v w : View (RcaRun Report) RcaRunEvent}
    {x : Reply Report} (h : Resumes (insertRunEvent type data >>= f) v (ret x) w) :
    v.row.isSome ∧ Resumes (f ()) ⟨v.row, v.log ++ [⟨type, data⟩]⟩ (ret x) w := by
  obtain ⟨_, a, u, hact, hrest⟩ := resumes_call h
  simp only [Statement.act, Option.ite_none_right_eq_some] at hact
  obtain ⟨hrow, hu⟩ := hact
  obtain ⟨-, rfl⟩ := Prod.mk.inj (Option.some.inj hu)
  exact ⟨hrow, hrest⟩

/-- `mark_running` alone is `markRunning`. -/
theorem markRunningBody_serial {now : ℕ} (st : RunStore Report) {x : Reply Report}
    {w : View (RcaRun Report) RcaRunEvent} (h : Resumes (markRunningBody now) st.view (ret x) w) :
    x = .claimed (markRunning now st).2 ∧ w = (markRunning now st).1.view := by
  obtain ⟨_, a, u, hact, hrest⟩ := resumes_call (resumes_tenantConnection h)
  by_cases hst : st.run.status = .pending ∨ st.run.status = .failed
  · simp only [Statement.act, RunStore.view, hst, decide_true, if_true] at hact
    obtain ⟨rfl, rfl⟩ := Prod.mk.inj (Option.some.inj hact)
    obtain ⟨-, hret⟩ := resumes_insertRunEvent hrest
    obtain ⟨rfl, rfl⟩ := resumes_ret hret
    simp [markRunning, hst, RunStore.addRunEvent, RunStore.view]
  · simp only [Statement.act, RunStore.view, hst, decide_false, Bool.false_eq_true, if_false] at hact
    obtain ⟨rfl, rfl⟩ := Prod.mk.inj (Option.some.inj hact)
    obtain ⟨rfl, rfl⟩ := resumes_ret hrest
    simp [markRunning_skips hst, RunStore.view]

/-- An update by id and its event, alone: what `complete_run` and `fail_run` have in common. -/
theorem resumes_update_by_id {set : RcaRun Report → RcaRun Report} {type : String}
    {data : List (String × String)} {v w : View (RcaRun Report) RcaRunEvent} {x : Reply Report}
    (h : Resumes (do
      tenantConnection
      let _ ← execute (.update (fun _ => true) set)
      insertRunEvent type data
      return .done) v (ret x) w) :
    ∃ run, v.row = some run ∧ x = .done ∧ w = ⟨some (set run), v.log ++ [⟨type, data⟩]⟩ := by
  obtain ⟨_, a, u, hact, hrest⟩ := resumes_call (resumes_tenantConnection h)
  obtain ⟨hrow, hret⟩ := resumes_insertRunEvent hrest
  obtain ⟨rfl, rfl⟩ := resumes_ret hret
  cases hv : v.row with
  | none =>
    -- nothing to update, so the event has no run to reference
    simp only [Statement.act, hv] at hact
    obtain ⟨-, rfl⟩ := Prod.mk.inj (Option.some.inj hact)
    rw [hv] at hrow
    cases hrow
  | some run =>
    simp only [Statement.act, hv, if_true] at hact
    obtain ⟨-, rfl⟩ := Prod.mk.inj (Option.some.inj hact)
    exact ⟨run, rfl, rfl, rfl⟩

/-- `complete_run` alone is `completeRun`. -/
theorem completeRunBody_serial {now : ℕ} {result : Report} (st : RunStore Report) {x : Reply Report}
    {w : View (RcaRun Report) RcaRunEvent}
    (h : Resumes (completeRunBody now result) st.view (ret x) w) :
    w = (completeRun now result st).view := by
  obtain ⟨run, hrun, -, rfl⟩ := resumes_update_by_id h
  obtain rfl := Option.some.inj hrun
  rfl

/-- `fail_run` alone is `failRun`. -/
theorem failRunBody_serial {now : ℕ} {message : String} (st : RunStore Report) {x : Reply Report}
    {w : View (RcaRun Report) RcaRunEvent}
    (h : Resumes (failRunBody now message) st.view (ret x) w) :
    w = (failRun now message st).view := by
  obtain ⟨run, hrun, -, rfl⟩ := resumes_update_by_id h
  obtain rfl := Option.some.inj hrun
  rfl

/-- The creation of a run, alone: there was none, and it is pending with its first event. -/
theorem createRun_serial {id : String} {source : RcaRunSource} {x : Reply Report}
    {v w : View (RcaRun Report) RcaRunEvent} (h : Resumes (createRun id source) v (ret x) w) :
    v.row = none ∧ w = ⟨some ⟨id, .pending, none, none, none, none⟩,
      v.log ++ [⟨"run.created", [("source", source.name)]⟩]⟩ := by
  obtain ⟨_, a, u, hact, hrest⟩ := resumes_call h
  cases hv : v.row with
  | some run => simp [Statement.act, hv] at hact
  | none =>
    simp only [Statement.act, hv] at hact
    obtain ⟨-, rfl⟩ := Prod.mk.inj (Option.some.inj hact)
    obtain ⟨_, hrest⟩ := resumes_other hrest
    obtain ⟨-, hret⟩ := resumes_insertRunEvent hrest
    obtain ⟨-, rfl⟩ := resumes_ret hret
    exact ⟨rfl, rfl⟩

/-- `startForIncident` alone creates the run. -/
theorem startForIncidentBody_serial {id : String} {source : RcaRunSource} {x : Reply Report}
    {v w : View (RcaRun Report) RcaRunEvent}
    (h : Resumes (startForIncidentBody id source) v (ret x) w) :
    Resumes (createRun id (normalizeRcaRunSource source)) v (ret x) w := by
  obtain ⟨found, h⟩ := resumes_other (resumes_tenantConnection h)
  cases found with
  | true => exact h
  | false => exact (resumes_throw h).elim

/-- `startForDeployment` alone creates the run. -/
theorem startForDeploymentBody_serial {id : String} {x : Reply Report}
    {v w : View (RcaRun Report) RcaRunEvent} (h : Resumes (startForDeploymentBody id) v (ret x) w) :
    Resumes (createRun id .manual) v (ret x) w := by
  obtain ⟨found, h⟩ := resumes_other (resumes_tenantConnection h)
  cases found with
  | true =>
    obtain ⟨_, h⟩ := resumes_other h
    exact h
  | false => exact (resumes_throw h).elim

/-! ### A row explained by its log -/

/-- The status that a lifecycle event names. -/
def statusNamed (type : String) : Option RcaRunStatus :=
  if type = "run.created" then some .pending
  else if type = "run.running" then some .running
  else if type = "run.completed" then some .completed
  else if type = "run.failed" then some .failed
  else none

/-- The log explains the row. -/
structure Explained (v : View (RcaRun Report) RcaRunEvent) : Prop where
  /-- a run that does not exist has no event -/
  absent : v.row = none → v.log = []
  /-- the last event names the status -/
  status : ∀ run, v.row = some run →
    ∃ e, v.log.getLast? = some e ∧ statusNamed e.type = some run.status
  /-- the first event is the only creation -/
  created : ∀ run, v.row = some run → ∃ e rest, v.log = e :: rest ∧ e.type = "run.created" ∧
    ∀ e' ∈ rest, e'.type ≠ "run.created"
  /-- a claim comes right after a creation or a failure -/
  claimed : ∀ before e after, v.log = before ++ e :: after → e.type = "run.running" →
    ∃ e', before.getLast? = some e' ∧ (e'.type = "run.created" ∨ e'.type = "run.failed")

/-- Only a creation names `pending`, and only a failure names `failed`. -/
theorem statusNamed_claimable {type : String} {status : RcaRunStatus}
    (h : statusNamed type = some status) (hs : status = .pending ∨ status = .failed) :
    type = "run.created" ∨ type = "run.failed" := by
  unfold statusNamed at h
  split at h
  · exact .inl ‹_›
  · split at h
    · obtain rfl := Option.some.inj h
      simp at hs
    · split at h
      · obtain rfl := Option.some.inj h
        simp at hs
      · split at h
        · exact .inr ‹_›
        · cases h

/-- A later transition: a new status, and the event that names it. -/
theorem Explained.transition {run run' : RcaRun Report} {log : List RcaRunEvent} {e : RcaRunEvent}
    (h : Explained ⟨some run, log⟩) (hname : statusNamed e.type = some run'.status)
    (hfirst : e.type ≠ "run.created")
    (hclaim : e.type = "run.running" → run.status = .pending ∨ run.status = .failed) :
    Explained ⟨some run', log ++ [e]⟩ := by
  obtain ⟨last, hlast, hlastName⟩ := h.status run rfl
  obtain ⟨first, rest, rfl, hcreated, honce⟩ := h.created run rfl
  refine ⟨fun hnone => (nomatch hnone),
    fun r hr => ⟨e, List.getLast?_concat .., Option.some.inj hr ▸ hname⟩,
    fun r _ => ⟨first, rest ++ [e], rfl, hcreated, fun e' he' => ?_⟩,
    fun before e' after hsplit he' => ?_⟩
  · rcases List.mem_append.mp he' with hmem | hmem
    · exact honce e' hmem
    · rw [List.mem_singleton.mp hmem]
      exact hfirst
  · -- the claim is the new event, or an old one
    rcases List.eq_nil_or_concat after with rfl | ⟨after', last', rfl⟩
    · obtain ⟨rfl, heq⟩ := List.append_inj' hsplit rfl
      obtain ⟨rfl, -⟩ := List.cons.inj heq
      exact ⟨last, hlast, statusNamed_claimable hlastName (hclaim he')⟩
    · rw [List.concat_eq_append, ← List.cons_append, ← List.append_assoc] at hsplit
      exact h.claimed before e' after' (List.append_inj' hsplit rfl).1 he'

/-- A new run is explained by its first event. -/
theorem Explained.creation {v : View (RcaRun Report) RcaRunEvent} (h : Explained v)
    (hnone : v.row = none) (id : String) (data : List (String × String)) :
    Explained (⟨some ⟨id, .pending, none, none, none, none⟩, v.log ++ [⟨"run.created", data⟩]⟩ :
      View (RcaRun Report) RcaRunEvent) := by
  rw [h.absent hnone]
  refine ⟨fun hnone => (nomatch hnone), fun r hr => ⟨_, rfl, Option.some.inj hr ▸ rfl⟩,
    fun r _ => ⟨_, [], rfl, rfl, fun e' he' => (nomatch he')⟩, fun before e after hsplit he => ?_⟩
  cases before with
  | nil =>
    obtain ⟨rfl, -⟩ := List.cons.inj hsplit
    simp at he
  | cons b before =>
    obtain ⟨-, hnil⟩ := List.cons.inj hsplit
    simp at hnil

theorem markRunning_explained {st : RunStore Report} (now : ℕ) (h : Explained st.view) :
    Explained (markRunning now st).1.view := by
  by_cases hst : st.run.status = .pending ∨ st.run.status = .failed
  · unfold markRunning
    rw [if_pos hst]
    exact Explained.transition h rfl (by decide) fun _ => hst
  · rw [markRunning_skips hst]
    exact h

theorem completeRun_explained {st : RunStore Report} (now : ℕ) (result : Report)
    (h : Explained st.view) : Explained (completeRun now result st).view :=
  Explained.transition h rfl (by decide) fun he => absurd he (by decide)

theorem failRun_explained {st : RunStore Report} (now : ℕ) (message : String)
    (h : Explained st.view) : Explained (failRun now message st).view :=
  Explained.transition h rfl (show "run.failed" ≠ "run.created" by decide)
    fun he => absurd he (show "run.failed" ≠ "run.running" by decide)

/-! ### Any interleaving -/

/-- The transactions on one run. -/
inductive RunTransaction (Report : Type) : Type
  | startForIncident (source : RcaRunSource)
  | startForDeployment
  | markRunning (now : ℕ)
  | completeRun (now : ℕ) (result : Report)
  | failRun (now : ℕ) (message : String)

/-- What the transaction does, for the run `id`. -/
def RunTransaction.body (id : String) : RunTransaction Report → RunBody Report (Reply Report)
  | .startForIncident source => startForIncidentBody id source
  | .startForDeployment => startForDeploymentBody id
  | .markRunning now => markRunningBody now
  | .completeRun now result => completeRunBody now result
  | .failRun now message => failRunBody now message

/-- The agent service has tasks only for runs it has read: `start_run` answers 404 when `get_run`
finds no row, and the poller takes the rows of `pending_runs`. -/
def RunTransaction.known (db : Db (RcaRun Report) RcaRunEvent (Reply Report)) :
    RunTransaction Report → Bool
  | .startForIncident _ => true
  | .startForDeployment => true
  | _ => db.row.isSome

/-- One step of the database around the run. -/
inductive RunDbLabel (Report : Type) : Type
  | start (tx : RunTransaction Report)
  | statement (i : ℕ) (found : Bool)
  | commit (i : ℕ)
  | rollback (i : ℕ)

/-- The step as one of `RowLock`. -/
def RunDbLabel.toLabel (id : String) :
    RunDbLabel Report → Label (RcaRun Report) RcaRunEvent (Reply Report)
  | .start tx => .start (tx.body id)
  | .statement i found => .statement i found
  | .commit i => .commit i
  | .rollback i => .rollback i

/-- The step function: any task starts a transaction, and sessions interleave. -/
def runDbStep (id : String) (db : Db (RcaRun Report) RcaRunEvent (Reply Report))
    (l : RunDbLabel Report) : Option (Db (RcaRun Report) RcaRunEvent (Reply Report)) :=
  match l with
  | .start tx => if tx.known db then RowLock.step db (l.toLabel id) else none
  | _ => RowLock.step db (l.toLabel id)

/-- No run, and no transaction yet. -/
def noRun : Db (RcaRun Report) RcaRunEvent (Reply Report) := Db.quiet ⟨none, []⟩

/-- Every transaction writes the row before it inserts its event. -/
theorem RunTransaction.lockFirst (id : String) {tx : RunTransaction Report}
    {db : Db (RcaRun Report) RcaRunEvent (Reply Report)} (h : tx.known db = true) :
    LockFirst db.row.isSome (tx.body id) := by
  cases tx with
  | startForIncident source => rintro - - (_ | _) <;> trivial
  | startForDeployment =>
    rintro - - (_ | _)
    · trivial
    · exact fun _ => trivial
  | markRunning now => exact fun _ _ => .inl trivial
  | completeRun now result => exact fun _ _ => .inr ⟨h, fun _ => rfl⟩
  | failRun now message => exact fun _ _ => .inr ⟨h, fun _ => rfl⟩

/-- Every transaction, alone, keeps the row explained. -/
theorem RunTransaction.explained {id : String} {tx : RunTransaction Report} {x : Reply Report}
    {v w : View (RcaRun Report) RcaRunEvent} (hv : Explained v)
    (h : Resumes (tx.body id) v (ret x) w) : Explained w := by
  have hcreate : ∀ {source : RcaRunSource}, Resumes (createRun id source) v (ret x) w →
      Explained w := by
    intro source hrun
    obtain ⟨hnone, rfl⟩ := createRun_serial hrun
    exact hv.creation hnone id _
  obtain ⟨row, log⟩ := v
  cases tx with
  | startForIncident source => exact hcreate (startForIncidentBody_serial h)
  | startForDeployment => exact hcreate (startForDeploymentBody_serial h)
  | markRunning now =>
    cases row with
    | none =>
      -- an `UPDATE` of a row that is not there
      obtain ⟨_, a, u, hact, hrest⟩ := resumes_call (resumes_tenantConnection h)
      obtain ⟨rfl, rfl⟩ := Prod.mk.inj (Option.some.inj hact)
      obtain ⟨-, rfl⟩ := resumes_ret hrest
      exact hv
    | some run =>
      obtain ⟨-, rfl⟩ := markRunningBody_serial ⟨run, log, none⟩ h
      exact markRunning_explained now hv
  | completeRun now result =>
    obtain ⟨run, hrun, -⟩ := resumes_update_by_id h
    obtain rfl : row = some run := hrun
    obtain rfl := completeRunBody_serial ⟨run, log, none⟩ h
    exact completeRun_explained now result hv
  | failRun now message =>
    obtain ⟨run, hrun, -⟩ := resumes_update_by_id h
    obtain rfl : row = some run := hrun
    obtain rfl := failRunBody_serial ⟨run, log, none⟩ h
    exact failRun_explained now message hv

/-- A step around the run is a step of `RowLock` that starts transactions which lock first. -/
theorem runDbStep_some {id : String} {db t : Db (RcaRun Report) RcaRunEvent (Reply Report)}
    {l : RunDbLabel Report} (h : runDbStep id db l = some t) :
    RowLock.step db (l.toLabel id) = some t ∧
      Starts (fun p => ∃ tx : RunTransaction Report, p = tx.body id) db (l.toLabel id) := by
  cases l with
  | start tx =>
    obtain ⟨hknown, hstep⟩ := Option.ite_none_right_eq_some.mp h
    exact ⟨hstep, ⟨tx, rfl⟩, tx.lockFirst id hknown⟩
  | statement i found => exact ⟨h, trivial⟩
  | commit i => exact ⟨h, trivial⟩
  | rollback i => exact ⟨h, trivial⟩

/-- **The event log explains the status.**  In every committed state that any interleaving of
creations, claims, completions and failures of a run reaches, whatever statements fail: the last
event names the run's status, `run.created` is the first event and occurs once, and every
`run.running` comes right after `run.created` or `run.failed`. -/
theorem event_log_explains {id : String} {ls : List (RunDbLabel Report)}
    {db : Db (RcaRun Report) RcaRunEvent (Reply Report)}
    (hrun : exec (runDbStep id) noRun ls = some db) : Explained db.committed := by
  obtain ⟨hexec, hC⟩ := exec_map (fun _ _ _ h => runDbStep_some h) hrun
  refine exec_serial (fun p a v w hp hv halone => ?_) ?_ hC hexec
  · obtain ⟨tx, rfl⟩ := hp
    exact RunTransaction.explained hv halone
  · refine ⟨fun _ => rfl, fun run hr => (nomatch hr), fun run hr => (nomatch hr), fun before e after h => ?_⟩
    simp at h

/-- A run is created; then a claim waits while a failure of another task holds the row lock, and
takes the run as soon as that failure is committed. -/
def claimAfterFailure : List (RunDbLabel String) :=
  [.start .startForDeployment, .statement 0 true, .statement 0 true, .statement 0 true,
   .statement 0 true, .statement 0 true, .statement 0 true, .statement 0 true, .commit 0,
   .start (.markRunning 1), .start (.failRun 2 "pool timeout"), .statement 1 true,
   .statement 1 true, .statement 2 true, .statement 2 true, .statement 2 true, .statement 2 true,
   .commit 2, .statement 1 true, .statement 1 true, .commit 1]

/-- The theorem at that interleaving: the claimed run and its three events. -/
theorem event_log_explains_claim :
    ∃ db, exec (runDbStep "run") noRun claimAfterFailure = some db ∧
      db.log.map RcaRunEvent.type = ["run.created", "run.failed", "run.running"] ∧
      db.row.map RcaRun.status = some .running ∧ Explained db.committed := by
  obtain ⟨db, hrun, hdb⟩ := (Option.any_eq_true ..).mp
    (show (exec (runDbStep "run") noRun claimAfterFailure).any (fun db =>
      decide (db.log.map RcaRunEvent.type = ["run.created", "run.failed", "run.running"] ∧
        db.row.map RcaRun.status = some .running)) = true by decide)
  obtain ⟨hlog, hrow⟩ := of_decide_eq_true hdb
  exact ⟨db, hrun, hlog, hrow, event_log_explains hrun⟩

end NexCause
