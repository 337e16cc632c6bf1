/-
NexCause/RunQueue.lean

The agent service for all runs of all workspaces: the tables of `db.py`, any
number of `run_rca` tasks, and `poll_pending_runs` with its rounds through the
active workspaces (`main.py`).

`RcaRun` is about one run.  Here the runs share the tables and the poller: a
statement finds its rows by id and workspace, and one read of the poller may
schedule several runs.  What one run sees of the whole (`Sees`) moves as the
service of that run alone does (`sees_step`).  The chats about a run, which may
create its thread too, are those of `ChatTranscripts`.

Main result: in every state of the whole service, each run is where the service
of that run alone can be (`run_alone`).
-/
import Mathlib
import NexCause.RcaLedger

namespace NexCause

open Transition

/-! ### The tables -/

/-- The columns that name a run in every statement. -/
structure RunKey where
  workspaceId : String
  runId : String
  deriving DecidableEq, Repr

/-- An `RcaRun` row. -/
structure RunRow (Report : Type) where
  workspaceId : String
  createdAt : ℕ
  run : RcaRun Report

variable {Report : Type}

/-- Those of some rows, or of some tasks, that belong to a run. -/
def ofRun {α : Type} (key : RunKey) (rows : List (RunKey × α)) : List α :=
  (rows.filter fun row => row.1 = key).map Prod.snd

def RunRow.key (row : RunRow Report) : RunKey := ⟨row.workspaceId, row.run.id⟩

/-- The tables `RcaRun`, `RcaRunEvent` and `RcaAgentThread`; events and threads
carry the key of their run. -/
structure RunTables (Report : Type) where
  runs : List (RunRow Report)
  events : List (RunKey × RcaRunEvent)
  threads : List (RunKey × RcaAgentThread)
  primaryKey : (runs.map fun row => row.run.id).Nodup

namespace RunTables

/-- `SELECT * FROM "RcaRun" WHERE "id" = … AND "workspaceId" = …` -/
def row (key : RunKey) (db : RunTables Report) : Option (RunRow Report) :=
  db.runs.find? fun row => row.key = key

/-- `SELECT * FROM "RcaAgentThread" WHERE "rcaRunId" = … AND "workspaceId" = …` -/
def thread (key : RunKey) (db : RunTables Report) : Option RcaAgentThread :=
  (db.threads.find? fun thread => thread.1 = key).map Prod.snd

/-- What the tables hold about one run. -/
def store (key : RunKey) (db : RunTables Report) : Option (RunStore Report) :=
  (db.row key).map fun row => ⟨row.run, ofRun key db.events, db.thread key⟩

/-- The runs with their creation times. -/
def creations (db : RunTables Report) : List (RunKey × ℕ) :=
  db.runs.map fun row => (row.key, row.createdAt)

/-! ### `RCARepository` -/

/-- `UPDATE "RcaRun" SET … WHERE "id" = … AND "workspaceId" = …`; the id is not
among the columns it sets. -/
def updateRun (key : RunKey) (set : RcaRun Report → RcaRun Report)
    (hset : ∀ run, (set run).id = run.id) (db : RunTables Report) : RunTables Report :=
  { db with
    runs := db.runs.map fun row => if row.key = key then { row with run := set row.run } else row
    primaryKey := by
      have hids : (fun row : RunRow Report => row.run.id) ∘
          (fun row => if row.key = key then { row with run := set row.run } else row) =
            fun row => row.run.id := by
        funext row
        show (if row.key = key then { row with run := set row.run } else row).run.id = row.run.id
        split
        · exact hset row.run
        · rfl
      rw [List.map_map, hids]
      exact db.primaryKey }

/-- `_add_run_event` -/
def addRunEvent (key : RunKey) (type : String) (data : List (String × String))
    (db : RunTables Report) : RunTables Report :=
  { db with events := db.events ++ [(key, ⟨type, data⟩)] }

/-- What `mark_running` sets, in the rows with a status it accepts. -/
def claimRun (now : ℕ) (run : RcaRun Report) : RcaRun Report :=
  if run.status = .pending ∨ run.status = .failed then
    { run with
      status := .running
      startedAt := some (run.startedAt.getD now)
      errorMessage := none }
  else run

theorem claimRun_id (now : ℕ) (run : RcaRun Report) : (claimRun now run).id = run.id := by
  unfold claimRun
  split <;> rfl

/-- `mark_running`: the claim succeeds if its `UPDATE` returns a row. -/
def markRunning (now : ℕ) (key : RunKey) (db : RunTables Report) : RunTables Report × Bool :=
  if db.runs.any fun row =>
      row.key = key ∧ (row.run.status = .pending ∨ row.run.status = .failed) then
    ((db.updateRun key (claimRun now) (claimRun_id now)).addRunEvent key "run.running" [], true)
  else (db, false)

/-- `complete_run` -/
def completeRun (now : ℕ) (result : Report) (key : RunKey) (db : RunTables Report) :
    RunTables Report :=
  (db.updateRun key (fun run =>
    { run with
      status := .completed
      result := some result
      completedAt := some now
      errorMessage := none }) (fun _ => rfl)).addRunEvent key "run.completed" []

/-- `fail_run` -/
def failRun (now : ℕ) (message : String) (key : RunKey) (db : RunTables Report) :
    RunTables Report :=
  (db.updateRun key (fun run =>
    { run with
      status := .failed
      errorMessage := some message
      completedAt := some now }) (fun _ => rfl)).addRunEvent key
    "run.failed" [("error", String.ofList (message.toList.take 500))]

/-- `get_or_create_thread` -/
def getOrCreateThread (newId : String) (key : RunKey) (db : RunTables Report) :
    RunTables Report :=
  match db.thread key with
  | some _ => db
  | none => { db with threads := db.threads ++ [(key, ⟨newId, key.runId, "open"⟩)] }

/-- The rows that `pending_runs` orders: the pending runs of a workspace, with
their creation times. -/
def pendingRows (workspaceId : String) (db : RunTables Report) : List (RunKey × ℕ) :=
  (db.runs.filter fun row => row.run.status = .pending ∧ row.workspaceId = workspaceId).map
    fun row => (row.key, row.createdAt)

/-- `startForIncident` of the deployment manager: a pending run, and its first
event. -/
def insertRun (key : RunKey) (createdAt : ℕ) (source : String) (db : RunTables Report)
    (hid : key.runId ∉ db.runs.map fun row => row.run.id) : RunTables Report :=
  { db with
    runs := db.runs ++ [⟨key.workspaceId, createdAt, ⟨key.runId, .pending, none, none, none, none⟩⟩]
    events := db.events ++ [(key, ⟨"run.created", [("source", source)]⟩)]
    primaryKey := by
      rw [List.map_append, List.nodup_append]
      refine ⟨db.primaryKey, List.nodup_singleton _, ?_⟩
      rintro id hold id' hnew rfl
      obtain rfl := List.mem_singleton.mp hnew
      exact hid hold }

end RunTables

/-- Resume a `run_rca` task of run `key` over the tables. -/
def runTask (key : RunKey) : RunRcaPc Report → Outcome Report → RunTables Report →
    Option (RunTables Report × RunRcaPc Report)
  | .markRunning, .returns now _, db =>
      let (db', claimed) := db.markRunning now key
      some (db', if claimed then .publishRunning else .publishSkipped)
  | .markRunning, .raises e, db => some (db, .failRun e)
  | .markRunning, .commitsThenRaises now _ e, db => some ((db.markRunning now key).1, .failRun e)
  | .publishSkipped, .returns _ _, db => some (db, .returned)
  | .publishRunning, .returns _ _, db => some (db, .getOrCreateThread)
  | .getOrCreateThread, .returns _ newId, db => some (db.getOrCreateThread newId key, .graph)
  | .getOrCreateThread, .raises e, db => some (db, .failRun e)
  | .getOrCreateThread, .commitsThenRaises _ newId e, db =>
      some (db.getOrCreateThread newId key, .failRun e)
  | .graph, .reports report, db => some (db, .completeRun report)
  | .graph, .raises e, db => some (db, .failRun e)
  | .completeRun report, .returns now _, db =>
      some (db.completeRun now report key, .publishCompleted)
  | .completeRun _, .raises e, db => some (db, .failRun e)
  | .completeRun report, .commitsThenRaises now _ e, db =>
      some (db.completeRun now report key, .failRun e)
  | .publishCompleted, .returns _ _, db => some (db, .returned)
  | .failRun error, .returns now _, db => some (db.failRun now error key, .publishFailed error)
  | .failRun _, .raises e, db => some (db, .raised e)
  | .failRun error, .commitsThenRaises now _ e, db => some (db.failRun now error key, .raised e)
  | .publishFailed _, .returns _ _, db => some (db, .returned)
  | _, _, _ => none

/-! ### The service -/

/-- Where `poll_pending_runs` is. -/
inductive PollPc
  /-- in `asyncio.sleep`, or not started -/
  | sleeping
  /-- awaiting `pending_runs` of a workspace, with the workspaces after it -/
  | asking (workspaceId : String) (rest : List String)
  /-- `pending_runs` has committed; the loop over its rows is still to run -/
  | read (due : List RunKey) (rest : List String)
  deriving DecidableEq, Repr

/-- The next workspace of the round. -/
def PollPc.next : List String → PollPc
  | [] => .sleeping
  | workspaceId :: rest => .asking workspaceId rest

/-- The rows the poller has read and not yet scheduled. -/
def PollPc.due : PollPc → List RunKey
  | .read due _ => due
  | _ => []

theorem due_next (workspaces : List String) : (PollPc.next workspaces).due = [] := by
  cases workspaces <;> rfl

structure QueueState (Report : Type) where
  db : RunTables Report
  /-- the workspaces whose status is active -/
  active : List String
  /-- the `run_rca` tasks in the order of their creation -/
  tasks : List (RunKey × RunRcaPc Report)
  poller : PollPc

inductive QueueLabel (Report : Type)
  /-- the deployment manager creates a run -/
  | create (key : RunKey) (createdAt : ℕ) (source : String)
  /-- the deployment manager changes which workspaces are active -/
  | activate (workspaces : List String)
  /-- `POST /rca-agent/runs` -/
  | startRun (key : RunKey)
  | task (i : ℕ) (o : Outcome Report)
  | cancel (i : ℕ)
  /-- `active_workspace_ids` -/
  | pollWake
  /-- `pending_runs`, whose rows the database has put into this order -/
  | pollRead (order : List (RunKey × ℕ))
  /-- the loop over the rows -/
  | pollSchedule
  /-- `except Exception: pass` -/
  | pollRaise
  | crash

/-- Nothing in the tables or in the service names a run with this id. -/
def QueueState.Unused (s : QueueState Report) (id : String) : Prop :=
  (id ∉ s.db.runs.map fun row => row.run.id) ∧ (∀ event ∈ s.db.events, event.1.runId ≠ id) ∧
    (∀ thread ∈ s.db.threads, thread.1.runId ≠ id) ∧ (∀ task ∈ s.tasks, task.1.runId ≠ id) ∧
    ∀ key ∈ s.poller.due, key.runId ≠ id

instance (s : QueueState Report) (id : String) : Decidable (s.Unused id) :=
  inferInstanceAs (Decidable (_ ∧ _ ∧ _ ∧ _ ∧ _))

/-- `order` is an answer to `ORDER BY "createdAt" ASC` on the rows. -/
def Ordered (rows order : List (RunKey × ℕ)) : Prop :=
  order.Perm rows ∧ order.Pairwise fun a b => a.2 ≤ b.2

instance (rows order : List (RunKey × ℕ)) : Decidable (Ordered rows order) :=
  inferInstanceAs (Decidable (_ ∧ _))

/-- The step function. -/
def queueStep (s : QueueState Report) : QueueLabel Report → Option (QueueState Report)
  | .create key createdAt source =>
      -- a `cuid` is new
      if h : s.Unused key.runId then
        some { s with db := s.db.insertRun key createdAt source h.1 }
      else none
  | .activate workspaces => some { s with active := workspaces }
  | .startRun key =>
      -- `get_run` has found it
      if (s.db.store key).isSome then
        some { s with tasks := s.tasks ++ [(key, .markRunning)] }
      else none
  | .task i o =>
      (s.tasks[i]?).bind fun task => (runTask task.1 task.2 o s.db).map fun r =>
        { s with db := r.1, tasks := s.tasks.set i (task.1, r.2) }
  | .cancel i =>
      (s.tasks[i]?).map fun task => { s with tasks := s.tasks.set i (task.1, .cancelled) }
  | .pollWake =>
      match s.poller with
      | .sleeping => some { s with poller := .next s.active }
      | _ => none
  | .pollRead order =>
      match s.poller with
      | .asking workspaceId rest =>
          if Ordered (s.db.pendingRows workspaceId) order then
            some { s with poller := .read ((order.take 3).map Prod.fst) rest }
          else none
      | _ => none
  | .pollSchedule =>
      match s.poller with
      | .read due rest =>
          some { s with
            tasks := s.tasks ++ due.map fun key => (key, .markRunning)
            poller := .next rest }
      | _ => none
  | .pollRaise => some { s with poller := .sleeping }
  | .crash =>
      some { s with tasks := s.tasks.map fun task => (task.1, .cancelled), poller := .sleeping }

/-- No runs and no tasks. -/
def QueueState.start (active : List String) : QueueState Report where
  db := ⟨[], [], [], List.nodup_nil⟩
  active := active
  tasks := []
  poller := .sleeping

/-! ### What belongs to a run -/

section OfRun

variable {α : Type} {key other : RunKey}

theorem ofRun_append (rows rows' : List (RunKey × α)) :
    ofRun key (rows ++ rows') = ofRun key rows ++ ofRun key rows' := by
  unfold ofRun
  rw [List.filter_append, List.map_append]

theorem ofRun_cons (row : RunKey × α) (rows : List (RunKey × α)) :
    ofRun key (row :: rows) =
      if row.1 = key then row.2 :: ofRun key rows else ofRun key rows := by
  unfold ofRun
  by_cases h : row.1 = key
  · simp [h]
  · simp [h]

theorem ofRun_concat (rows : List (RunKey × α)) (other key : RunKey) (a : α) :
    ofRun other (rows ++ [(key, a)]) =
      if other = key then ofRun other rows ++ [a] else ofRun other rows := by
  rw [ofRun_append, ofRun_cons]
  by_cases h : other = key
  · rw [if_pos h, if_pos h.symm]
    rfl
  · rw [if_neg h, if_neg (Ne.symm h)]
    exact List.append_nil _

theorem ofRun_eq_nil {rows : List (RunKey × α)} (h : ∀ row ∈ rows, row.1 ≠ key) :
    ofRun key rows = [] := by
  unfold ofRun
  rw [List.map_eq_nil_iff, List.filter_eq_nil_iff]
  simpa using h

/-- Row `i`, of run `key`, has a place among the rows of that run. -/
theorem ofRun_set {rows : List (RunKey × α)} {i : ℕ} {a : α} (h : rows[i]? = some (key, a)) :
    ∃ j, (ofRun key rows)[j]? = some a ∧ ∀ b other, ofRun other (rows.set i (key, b)) =
      if other = key then (ofRun key rows).set j b else ofRun other rows := by
  induction rows generalizing i with
  | nil => cases h
  | cons row rows ih =>
    cases i with
    | zero =>
      obtain rfl : row = (key, a) := Option.some.inj h
      refine ⟨0, by simp [ofRun_cons], fun b other => ?_⟩
      by_cases hother : other = key
      · simp [ofRun_cons, hother]
      · simp [ofRun_cons, hother, Ne.symm hother]
    | succ i =>
      obtain ⟨j, hj, hset⟩ := ih h
      by_cases hrow : row.1 = key
      · refine ⟨j + 1, by simpa [ofRun_cons, hrow] using hj, fun b other => ?_⟩
        rw [List.set_cons_succ, ofRun_cons, hset b other]
        by_cases hother : other = key
        · simp [ofRun_cons, hother, hrow]
        · simp [ofRun_cons, hother]
      · refine ⟨j, by simpa [ofRun_cons, hrow] using hj, fun b other => ?_⟩
        rw [List.set_cons_succ, ofRun_cons, hset b other]
        by_cases hother : other = key
        · simp [ofRun_cons, hother, hrow]
        · simp [ofRun_cons, hother]

theorem ofRun_map (rows : List (RunKey × α)) (b : α) :
    ofRun key (rows.map fun row => (row.1, b)) = (ofRun key rows).map fun _ => b := by
  induction rows with
  | nil => rfl
  | cons row rows ih =>
    rw [List.map_cons, ofRun_cons, ofRun_cons, ih]
    split <;> rfl

theorem ofRun_due (due : List RunKey) (b : α) :
    ofRun key (due.map fun other => (other, b)) = List.replicate (due.count key) b := by
  induction due with
  | nil => rfl
  | cons other due ih =>
    rw [List.map_cons, ofRun_cons, ih, List.count_cons]
    by_cases h : other = key
    · simp [h, List.replicate_succ]
    · simp [h]

end OfRun

/-! ### What a statement does to each run -/

namespace RunTables

/-- From `db` to `db'`, run `key` changes by `f` and every other run stays as it is. -/
structure Alters (key : RunKey) (f : RunStore Report → RunStore Report)
    (db db' : RunTables Report) : Prop where
  store_eq : ∀ other, db'.store other =
    (db.store other).map fun st => if other = key then f st else st
  creations_eq : db'.creations = db.creations

variable {key : RunKey} {db db' db'' : RunTables Report}

/-- Every other run stays as it is, and no run comes or goes. -/
structure Keeps (key : RunKey) (db db' : RunTables Report) : Prop where
  other : ∀ other, other ≠ key → db'.store other = db.store other
  none : db.store key = none → db'.store key = none
  creations_eq : db'.creations = db.creations

theorem Keeps.refl (key : RunKey) (db : RunTables Report) : Keeps key db db :=
  ⟨fun _ _ => rfl, id, rfl⟩

theorem Alters.trans {f g : RunStore Report → RunStore Report} (h : Alters key f db db')
    (h' : Alters key g db' db'') : Alters key (g ∘ f) db db'' := by
  refine ⟨fun other => ?_, h'.creations_eq.trans h.creations_eq⟩
  rw [h'.store_eq, h.store_eq, Option.map_map]
  refine congrArg (Option.map · _) (funext fun st => ?_)
  by_cases hkey : other = key
  · simp [hkey]
  · simp [hkey]

theorem Alters.store {f : RunStore Report → RunStore Report} {st : RunStore Report}
    (h : Alters key f db db') (hst : db.store key = some st) : db'.store key = some (f st) := by
  rw [h.store_eq, hst, Option.map_some, if_pos rfl]

theorem Alters.keeps {f : RunStore Report → RunStore Report} (h : Alters key f db db') :
    Keeps key db db' where
  other other hother := by
    rw [h.store_eq]
    simp [hother]
  none hnone := by rw [h.store_eq, hnone, Option.map_none]
  creations_eq := h.creations_eq

theorem row_key {row : RunRow Report} (h : db.row key = some row) : row.key = key := by
  simpa using List.find?_some h

/-- The row that is found is the same one, before or after its update. -/
theorem row_updateRun (set : RcaRun Report → RcaRun Report)
    (hset : ∀ run, (set run).id = run.id) (other : RunKey) :
    (db.updateRun key set hset).row other =
      (db.row other).map fun row =>
        if row.key = key then { row with run := set row.run } else row := by
  unfold row updateRun
  rw [List.find?_map]
  refine congrArg (Option.map _) (congrArg (List.find? · db.runs) (funext fun row => ?_))
  show decide ((if row.key = key then { row with run := set row.run } else row).key = other) = _
  split
  · have : RunRow.key { row with run := set row.run } = row.key := by simp [RunRow.key, hset]
    rw [this]
  · rfl

theorem creations_updateRun (set : RcaRun Report → RcaRun Report)
    (hset : ∀ run, (set run).id = run.id) :
    (db.updateRun key set hset).creations = db.creations := by
  unfold creations updateRun
  rw [List.map_map]
  refine congrArg (List.map · db.runs) (funext fun row => ?_)
  show (RunRow.key (if row.key = key then { row with run := set row.run } else row),
    (if row.key = key then { row with run := set row.run } else row).createdAt) = _
  split
  · simp [RunRow.key, hset]
  · rfl

theorem updateRun_alters (set : RcaRun Report → RcaRun Report)
    (hset : ∀ run, (set run).id = run.id) :
    Alters key (fun st => { st with run := set st.run }) db (db.updateRun key set hset) := by
  refine ⟨fun other => ?_, creations_updateRun set hset⟩
  unfold store
  rw [row_updateRun]
  cases hrow : db.row other with
  | none => rfl
  | some row =>
    obtain rfl := row_key hrow
    by_cases h : row.key = key
    · simp only [Option.map_some, if_pos h]
      rfl
    · simp only [Option.map_some, if_neg h]
      rfl

theorem addRunEvent_alters (type : String) (data : List (String × String)) :
    Alters key (fun st => st.addRunEvent type data) db (db.addRunEvent key type data) := by
  refine ⟨fun other => ?_, rfl⟩
  have hevents : ofRun other (db.addRunEvent key type data).events = _ :=
    ofRun_concat db.events other key ⟨type, data⟩
  unfold store
  rw [hevents, Option.map_map]
  refine congrArg (Option.map · _) (funext fun row => ?_)
  by_cases h : other = key
  · simp only [Function.comp, if_pos h]
    rfl
  · simp only [Function.comp, if_neg h]
    rfl

/-- Two rows with one key are one row. -/
theorem row_eq {row row' : RunRow Report} (hmem : row ∈ db.runs) (hmem' : row' ∈ db.runs)
    (h : row.key = row'.key) : row = row' := by
  refine List.inj_on_of_nodup_map db.primaryKey hmem hmem' ?_
  exact congrArg RunKey.runId h

/-- The row of a run that is stored. -/
theorem row_of_store {st : RunStore Report} (h : db.store key = some st) :
    ∃ row ∈ db.runs, row.key = key ∧ row.run = st.run := by
  obtain ⟨row, hrow, rfl⟩ := Option.map_eq_some_iff.mp h
  exact ⟨row, List.mem_of_find?_eq_some hrow, by simpa using List.find?_some hrow, rfl⟩

/-- A row that is stored is the run with its key. -/
theorem store_of_row {row : RunRow Report} (h : row ∈ db.runs) :
    ∃ st, db.store row.key = some st ∧ st.run = row.run := by
  have hsome : (db.store row.key).isSome := by
    unfold store
    rw [Option.isSome_map, RunTables.row, List.find?_isSome]
    exact ⟨row, h, by simp⟩
  obtain ⟨st, hst⟩ := Option.isSome_iff_exists.mp hsome
  obtain ⟨row', hmem, hkey, hrun⟩ := row_of_store hst
  obtain rfl := row_eq hmem h hkey
  exact ⟨st, hst, hrun.symm⟩

/-- `mark_running` finds a row to update exactly if the run may be claimed. -/
theorem claimable_iff {st : RunStore Report} (hst : db.store key = some st) :
    (db.runs.any fun row =>
      row.key = key ∧ (row.run.status = .pending ∨ row.run.status = .failed)) = true ↔
      st.run.status = .pending ∨ st.run.status = .failed := by
  obtain ⟨row, hmem, hkey, hrun⟩ := row_of_store hst
  -- by the primary key, a row that the statement finds is this one
  rw [List.any_eq_true]
  simp only [decide_eq_true_eq]
  constructor
  · rintro ⟨row', hmem', hkey', hstatus⟩
    obtain rfl := row_eq hmem hmem' (hkey.trans hkey'.symm)
    rwa [← hrun]
  · intro hstatus
    exact ⟨row, hmem, hkey, by rwa [hrun]⟩

theorem markRunning_alters (now : ℕ) {st : RunStore Report} (hst : db.store key = some st) :
    Alters key (fun st => (NexCause.markRunning now st).1) db (db.markRunning now key).1 ∧
      (db.markRunning now key).2 = (NexCause.markRunning now st).2 := by
  by_cases hc : st.run.status = .pending ∨ st.run.status = .failed
  · have hdb := (claimable_iff hst).mpr hc
    have hmark : db.markRunning now key = (_, true) := if_pos hdb
    refine ⟨?_, by rw [hmark, (markRunning_claims now hc).1]⟩
    rw [hmark]
    have hset : Alters key _ db _ :=
      (updateRun_alters (claimRun now) (claimRun_id now)).trans
        (addRunEvent_alters "run.running" [])
    refine ⟨fun other => ?_, hset.creations_eq⟩
    rw [hset.store_eq]
    by_cases hother : other = key
    · subst hother
      rw [hst]
      simp [NexCause.markRunning, claimRun, hc]
    · simp [hother]
  · have hdb := (claimable_iff hst).not.mpr hc
    have hmark : db.markRunning now key = (db, false) := if_neg hdb
    rw [hmark, markRunning_skips hc]
    refine ⟨⟨fun other => ?_, rfl⟩, rfl⟩
    by_cases hother : other = key
    · subst hother
      rw [hst]
      simp [markRunning_skips hc]
    · simp [hother]

theorem markRunning_keeps (now : ℕ) (key : RunKey) (db : RunTables Report) :
    Keeps key db (db.markRunning now key).1 := by
  unfold RunTables.markRunning
  split
  · exact ((updateRun_alters (claimRun now) (claimRun_id now)).trans
      (addRunEvent_alters "run.running" [])).keeps
  · exact .refl key db

theorem completeRun_alters (now : ℕ) (result : Report) :
    Alters key (NexCause.completeRun now result) db (db.completeRun now result key) :=
  (updateRun_alters (fun run => { run with
      status := .completed
      result := some result
      completedAt := some now
      errorMessage := none }) fun _ => rfl).trans (addRunEvent_alters "run.completed" [])

theorem failRun_alters (now : ℕ) (message : String) :
    Alters key (NexCause.failRun now message) db (db.failRun now message key) :=
  (updateRun_alters (fun run => { run with
      status := .failed
      errorMessage := some message
      completedAt := some now }) fun _ => rfl).trans
    (addRunEvent_alters "run.failed" [("error", String.ofList (message.toList.take 500))])

theorem thread_getOrCreateThread (newId : String) (other : RunKey) :
    (db.getOrCreateThread newId key).thread other =
      if other = key then some ((db.thread key).getD ⟨newId, key.runId, "open"⟩)
      else db.thread other := by
  unfold RunTables.getOrCreateThread
  cases hthread : db.thread key with
  | some thread =>
    by_cases h : other = key
    · simp [h, hthread]
    · simp [h]
  | none =>
    unfold thread at hthread ⊢
    rw [Option.map_eq_none_iff] at hthread
    show ((db.threads ++ [_]).find? _).map _ = _
    rw [List.find?_append]
    by_cases h : other = key
    · simp [h, hthread]
    · simp [h, Ne.symm h]

theorem getOrCreateThread_alters (newId : String) :
    Alters key (NexCause.getOrCreateThread newId) db (db.getOrCreateThread newId key) := by
  refine ⟨fun other => ?_, by unfold RunTables.getOrCreateThread; split <;> rfl⟩
  have hrow : (db.getOrCreateThread newId key).row other = db.row other := by
    unfold RunTables.getOrCreateThread
    split <;> rfl
  have hevents : (db.getOrCreateThread newId key).events = db.events := by
    unfold RunTables.getOrCreateThread
    split <;> rfl
  unfold store
  rw [hrow, hevents, thread_getOrCreateThread]
  cases hfound : db.row other with
  | none => rfl
  | some row =>
    by_cases h : other = key
    · subst h
      -- the thread gets the id of the row as its checkpoint
      have hid : row.run.id = other.runId := congrArg RunKey.runId (row_key hfound)
      cases hthread : db.thread other with
      | none => simp [NexCause.getOrCreateThread, hid]
      | some thread => simp [NexCause.getOrCreateThread]
    · simp [h]

end RunTables

/-- A task of run `key` moves it as `run_rca` does, and no other run. -/
theorem runTask_store {key : RunKey} {pc pc' : RunRcaPc Report} {o : Outcome Report}
    {db db' : RunTables Report} (h : runTask key pc o db = some (db', pc')) :
    RunTables.Keeps key db db' ∧ ∀ st, db.store key = some st →
      ∃ st', runRca pc o st = some (st', pc') ∧ db'.store key = some st' := by
  have stays := RunTables.Keeps.refl key db
  cases pc with
  | markRunning =>
    have hkeeps := fun now => RunTables.markRunning_keeps now key db
    cases o with
    | returns now newId =>
      obtain ⟨rfl, rfl⟩ : _ ∧ _ := by simpa [runTask] using h
      refine ⟨hkeeps now, fun st hst => ⟨(markRunning now st).1, ?_, ?_⟩⟩
      · rw [(RunTables.markRunning_alters now hst).2]
        rfl
      · exact (RunTables.markRunning_alters now hst).1.store hst
    | raises e =>
      obtain ⟨rfl, rfl⟩ : db = db' ∧ _ = pc' := by simpa [runTask] using h
      exact ⟨stays, fun st hst => ⟨st, rfl, hst⟩⟩
    | commitsThenRaises now newId e =>
      obtain ⟨rfl, rfl⟩ : _ ∧ _ := by simpa [runTask] using h
      exact ⟨hkeeps now, fun st hst =>
        ⟨_, rfl, (RunTables.markRunning_alters now hst).1.store hst⟩⟩
    | reports r => simp [runTask] at h
  | getOrCreateThread =>
    have halter : ∀ newId, RunTables.Alters key (getOrCreateThread newId) db
        (db.getOrCreateThread newId key) := RunTables.getOrCreateThread_alters
    cases o <;> simp only [runTask, Option.some.injEq, Prod.mk.injEq, reduceCtorEq] at h
    all_goals obtain ⟨rfl, rfl⟩ := h
    · exact ⟨(halter _).keeps, fun st hst => ⟨_, rfl, (halter _).store hst⟩⟩
    · exact ⟨stays, fun st hst => ⟨st, rfl, hst⟩⟩
    · exact ⟨(halter _).keeps, fun st hst => ⟨_, rfl, (halter _).store hst⟩⟩
  | completeRun report =>
    have halter : ∀ now, RunTables.Alters key (completeRun now report) db
        (db.completeRun now report key) := fun now => RunTables.completeRun_alters now report
    cases o <;> simp only [runTask, Option.some.injEq, Prod.mk.injEq, reduceCtorEq] at h
    all_goals obtain ⟨rfl, rfl⟩ := h
    · exact ⟨(halter _).keeps, fun st hst => ⟨_, rfl, (halter _).store hst⟩⟩
    · exact ⟨stays, fun st hst => ⟨st, rfl, hst⟩⟩
    · exact ⟨(halter _).keeps, fun st hst => ⟨_, rfl, (halter _).store hst⟩⟩
  | failRun error =>
    have halter : ∀ now, RunTables.Alters key (failRun now error) db (db.failRun now error key) :=
      fun now => RunTables.failRun_alters now error
    cases o <;> simp only [runTask, Option.some.injEq, Prod.mk.injEq, reduceCtorEq] at h
    all_goals obtain ⟨rfl, rfl⟩ := h
    · exact ⟨(halter _).keeps, fun st hst => ⟨_, rfl, (halter _).store hst⟩⟩
    · exact ⟨stays, fun st hst => ⟨st, rfl, hst⟩⟩
    · exact ⟨(halter _).keeps, fun st hst => ⟨_, rfl, (halter _).store hst⟩⟩
  | _ =>
    -- the remaining awaits write nothing
    cases o <;> simp only [runTask, Option.some.injEq, Prod.mk.injEq, reduceCtorEq] at h
    all_goals
      obtain ⟨rfl, rfl⟩ := h
      exact ⟨stays, fun st hst => ⟨st, rfl, hst⟩⟩

/-! ### What a run sees of the service -/

/-- Run `key` of the whole service is where `a`, the service of that run alone,
is.  Rows that the poller has lost may still be due in `a`. -/
structure Sees (key : RunKey) (s : QueueState Report) (a : AgentState Report) : Prop where
  store : s.db.store key = some a.store
  tasks : ofRun key s.tasks = a.tasks
  polled : s.poller.due.count key ≤ a.polled

variable {key : RunKey} {s t : QueueState Report} {a : AgentState Report}

/-- A new run: its row, its first event, and no task. -/
def newRun (id source : String) : AgentState Report where
  store := ⟨⟨id, .pending, none, none, none, none⟩, [⟨"run.created", [("source", source)]⟩], none⟩
  tasks := []
  polled := 0

/-- The other runs stay as they are. -/
theorem store_insertRun {db : RunTables Report} {createdAt : ℕ} {source : String}
    (hid : key.runId ∉ db.runs.map fun row => row.run.id) {other : RunKey} (hother : other ≠ key) :
    (db.insertRun key createdAt source hid).store other = db.store other := by
  have hrow : (db.insertRun key createdAt source hid).row other = db.row other := by
    unfold RunTables.row RunTables.insertRun
    rw [List.find?_append]
    have hnew : ([⟨key.workspaceId, createdAt, ⟨key.runId, .pending, none, none, none, none⟩⟩] :
        List (RunRow Report)).find? (fun row => row.key = other) = none :=
      List.find?_singleton.trans (if_neg fun heq => hother (of_decide_eq_true heq).symm)
    rw [hnew, Option.or_none]
  have hevents : ofRun other (db.insertRun key createdAt source hid).events = _ :=
    ofRun_concat db.events other key ⟨"run.created", [("source", source)]⟩
  unfold RunTables.store
  rw [hrow, hevents, if_neg hother]
  rfl

/-- A run with a new id is not stored. -/
theorem store_none_of_unused {db : RunTables Report}
    (hid : key.runId ∉ db.runs.map fun row => row.run.id) : db.store key = none := by
  refine Option.map_eq_none_iff.mpr (List.find?_eq_none.mpr fun row hmem heq => ?_)
  exact hid (List.mem_map.mpr ⟨row, hmem, congrArg RunKey.runId (of_decide_eq_true heq)⟩)

theorem sees_newRun {createdAt : ℕ} {source : String} (h : s.Unused key.runId) :
    Sees key { s with db := s.db.insertRun key createdAt source h.1 }
      (newRun key.runId source) := by
  obtain ⟨hruns, hevents, hthreads, htasks, hdue⟩ := h
  have ne_of_id : ∀ {other : RunKey}, other.runId ≠ key.runId → other ≠ key :=
    fun hid heq => hid (congrArg RunKey.runId heq)
  refine ⟨?_, ofRun_eq_nil fun task hmem => ne_of_id (htasks task hmem), ?_⟩
  · have hrow : (s.db.insertRun key createdAt source hruns).row key =
        some ⟨key.workspaceId, createdAt, ⟨key.runId, .pending, none, none, none, none⟩⟩ := by
      have hnone : s.db.row key = none := Option.map_eq_none_iff.mp (store_none_of_unused hruns)
      unfold RunTables.row at hnone
      unfold RunTables.row RunTables.insertRun
      rw [List.find?_append, hnone]
      simp [RunRow.key]
    have hthread : (s.db.insertRun key createdAt source hruns).thread key = none := by
      refine Option.map_eq_none_iff.mpr (List.find?_eq_none.mpr fun thread hmem heq => ?_)
      exact ne_of_id (hthreads thread hmem) (of_decide_eq_true heq)
    have hevent : ofRun key (s.db.insertRun key createdAt source hruns).events = _ :=
      ofRun_concat s.db.events key key ⟨"run.created", [("source", source)]⟩
    have hold : ofRun key s.db.events = [] :=
      ofRun_eq_nil fun event hmem => ne_of_id (hevents event hmem)
    unfold RunTables.store
    rw [hrow, hthread, hevent, if_pos rfl, hold]
    rfl
  · show s.poller.due.count key ≤ 0
    rw [List.count_eq_zero.mpr fun hmem => hdue key hmem rfl]

/-- A row that the poller reads is that of a pending run. -/
theorem pending_of_mem {db : RunTables Report} {workspaceId : String} {n : ℕ}
    {st : RunStore Report} (hst : db.store key = some st)
    (h : (key, n) ∈ db.pendingRows workspaceId) : st.run.status = .pending := by
  obtain ⟨row, hmem, heq⟩ := List.mem_map.mp h
  obtain ⟨hrow, hpending⟩ := List.mem_filter.mp hmem
  obtain ⟨rfl, rfl⟩ := Prod.mk.inj heq
  obtain ⟨st', hst', hrun⟩ := RunTables.store_of_row hrow
  obtain rfl := Option.some.inj (hst.symm.trans hst')
  rw [hrun]
  exact (of_decide_eq_true hpending).1

/-- Reading a run `n` times, and scheduling it `n` times. -/
theorem exec_pollRead (n : ℕ) (h : n ≠ 0 → a.store.run.status = .pending) :
    exec serviceStep a (List.replicate n (.agent .pollRead)) =
      some { a with polled := a.polled + n } := by
  induction n generalizing a with
  | zero => rfl
  | succ n ih =>
    have hpending := h (Nat.succ_ne_zero n)
    have hread : serviceStep a (.agent .pollRead) = some { a with polled := a.polled + 1 } :=
      if_pos hpending
    rw [List.replicate_succ, exec_cons, hread, Option.bind_some]
    refine (ih (a := { a with polled := a.polled + 1 }) fun _ => hpending).trans ?_
    simp only [Nat.add_assoc, Nat.add_comm 1 n]

theorem exec_pollSchedule (n : ℕ) (h : n ≤ a.polled) :
    exec serviceStep a (List.replicate n (.agent .pollSchedule)) =
      some { a with
        tasks := a.tasks ++ List.replicate n .markRunning
        polled := a.polled - n } := by
  induction n generalizing a with
  | zero => simp
  | succ n ih =>
    have hschedule : serviceStep a (.agent .pollSchedule) =
        some { a with tasks := a.tasks ++ [.markRunning], polled := a.polled - 1 } :=
      if_pos (by omega)
    rw [List.replicate_succ, exec_cons, hschedule, Option.bind_some, ih (by simp; omega)]
    simp only [List.append_assoc, List.singleton_append, List.replicate_succ, Nat.sub_sub,
      Nat.add_comm 1 n]

/-- **One step.**  What a run sees of a step of the whole service is what steps
of its own service do. -/
theorem sees_step {l : QueueLabel Report} (h : Sees key s a) (hstep : queueStep s l = some t) :
    ∃ ls b, exec serviceStep a ls = some b ∧ Sees key t b := by
  cases l with
  | create other createdAt source =>
    simp only [queueStep] at hstep
    split at hstep
    · rename_i hunused
      obtain rfl := Option.some.inj hstep
      have hother : key ≠ other := by
        rintro rfl
        cases (store_none_of_unused hunused.1).symm.trans h.store
      exact ⟨[], a, rfl, (store_insertRun hunused.1 hother).trans h.store, h.tasks, h.polled⟩
    · cases hstep
  | activate workspaces =>
    obtain rfl := Option.some.inj hstep
    exact ⟨[], a, rfl, h.store, h.tasks, h.polled⟩
  | startRun other =>
    simp only [queueStep] at hstep
    split at hstep
    · obtain rfl := Option.some.inj hstep
      by_cases hother : key = other
      · subst hother
        refine ⟨[.agent .startRun], _, rfl, h.store, ?_, h.polled⟩
        show ofRun key (s.tasks ++ [(key, .markRunning)]) = a.tasks ++ [.markRunning]
        rw [ofRun_concat, if_pos rfl, h.tasks]
      · refine ⟨[], a, rfl, h.store, ?_, h.polled⟩
        show ofRun key (s.tasks ++ [(other, .markRunning)]) = a.tasks
        rw [ofRun_concat, if_neg hother, h.tasks]
    · cases hstep
  | task i o =>
    obtain ⟨⟨other, pc⟩, htask, hrest⟩ := Option.bind_eq_some_iff.mp hstep
    obtain ⟨⟨db', pc'⟩, hmove, rfl⟩ := Option.map_eq_some_iff.mp hrest
    obtain ⟨j, hj, hset⟩ := ofRun_set htask
    by_cases hother : key = other
    · subst hother
      obtain ⟨st', hrun, hst'⟩ := (runTask_store hmove).2 _ h.store
      have hagent : serviceStep a (.agent (.task j o)) =
          some { a with store := st', tasks := a.tasks.set j pc' } := by
        show (a.tasks[j]?).bind _ = _
        rw [← h.tasks, hj, Option.bind_some, hrun]
        rfl
      refine ⟨[.agent (.task j o)], { a with store := st', tasks := a.tasks.set j pc' },
        by rw [exec_cons, hagent]; rfl, hst', ?_, h.polled⟩
      show ofRun key (s.tasks.set i (key, pc')) = a.tasks.set j pc'
      rw [hset, if_pos rfl, h.tasks]
    · refine ⟨[], a, rfl, ((runTask_store hmove).1.other key hother).trans h.store, ?_, h.polled⟩
      show ofRun key (s.tasks.set i (other, pc')) = a.tasks
      rw [hset, if_neg hother, h.tasks]
  | cancel i =>
    obtain ⟨⟨other, pc⟩, htask, rfl⟩ := Option.map_eq_some_iff.mp hstep
    obtain ⟨j, -, hset⟩ := ofRun_set htask
    by_cases hother : key = other
    · subst hother
      refine ⟨[.agent (.cancel j)], _, rfl, h.store, ?_, h.polled⟩
      show ofRun key (s.tasks.set i (key, .cancelled)) = a.tasks.set j .cancelled
      rw [hset, if_pos rfl, h.tasks]
    · refine ⟨[], a, rfl, h.store, ?_, h.polled⟩
      show ofRun key (s.tasks.set i (other, .cancelled)) = a.tasks
      rw [hset, if_neg hother, h.tasks]
  | pollWake =>
    simp only [queueStep] at hstep
    split at hstep
    · obtain rfl := Option.some.inj hstep
      refine ⟨[], a, rfl, h.store, h.tasks, ?_⟩
      show (PollPc.next s.active).due.count key ≤ a.polled
      rw [due_next]
      exact Nat.zero_le _
    · cases hstep
  | pollRead order =>
    simp only [queueStep] at hstep
    split at hstep
    · rename_i workspaceId rest _
      split at hstep
      · rename_i hordered
        obtain rfl := Option.some.inj hstep
        -- a row that is among those read is the row of a pending run
        have hpending : ((order.take 3).map Prod.fst).count key ≠ 0 →
            a.store.run.status = .pending := by
          intro hcount
          obtain ⟨⟨_, n⟩, hmem, rfl⟩ := List.mem_map.mp
            (List.count_pos_iff.mp (Nat.pos_of_ne_zero hcount))
          exact pending_of_mem h.store (hordered.1.mem_iff.mp (List.mem_of_mem_take hmem))
        exact ⟨_, _, exec_pollRead _ hpending, h.store, h.tasks, Nat.le_add_left _ _⟩
      · cases hstep
    · cases hstep
  | pollSchedule =>
    simp only [queueStep] at hstep
    split at hstep
    · rename_i due rest hpoller
      obtain rfl := Option.some.inj hstep
      -- one read may schedule the run as often as it has read it
      have hdue : due.count key ≤ a.polled := by
        have := h.polled
        rwa [hpoller] at this
      refine ⟨_, _, exec_pollSchedule _ hdue, h.store, ?_, ?_⟩
      · show ofRun key (s.tasks ++ due.map fun other => (other, .markRunning)) = _
        rw [ofRun_append, ofRun_due, h.tasks]
      · show (PollPc.next rest).due.count key ≤ _
        rw [due_next]
        exact Nat.zero_le _
    · cases hstep
  | pollRaise =>
    -- rows are lost, which the run alone does not see: they stay due in `a`
    obtain rfl := Option.some.inj hstep
    exact ⟨[], a, rfl, h.store, h.tasks, Nat.zero_le _⟩
  | crash =>
    -- every run sees the crash
    obtain rfl := Option.some.inj hstep
    refine ⟨[.crash], _, rfl, h.store, ?_, Nat.zero_le _⟩
    refine (ofRun_map s.tasks RunRcaPc.cancelled).trans ?_
    rw [h.tasks]

/-! ### Runs of the service -/

/-- Some steps of the service of the run alone lead from its creation to what
the run sees. -/
def Alone (s : QueueState Report) : Prop :=
  ∀ key st, s.db.store key = some st → ∃ source ls a,
    exec serviceStep (newRun key.runId source) ls = some a ∧ Sees key s a

/-- What a step does to the tables: nothing, a creation, or what one task does. -/
theorem queueStep_db {l : QueueLabel Report} (hstep : queueStep s l = some t) :
    t.db = s.db ∨
    (∃ (other : RunKey) (createdAt : ℕ) (source : String) (h : s.Unused other.runId),
      t = { s with db := s.db.insertRun other createdAt source h.1 }) ∨
    ∃ other pc o pc', runTask other pc o s.db = some (t.db, pc') := by
  cases l with
  | create other createdAt source =>
    simp only [queueStep] at hstep
    split at hstep
    · rename_i hunused
      exact .inr (.inl ⟨other, createdAt, source, hunused, (Option.some.inj hstep).symm⟩)
    · cases hstep
  | task i o =>
    obtain ⟨⟨other, pc⟩, -, hrest⟩ := Option.bind_eq_some_iff.mp hstep
    obtain ⟨⟨db', pc'⟩, hmove, rfl⟩ := Option.map_eq_some_iff.mp hrest
    exact .inr (.inr ⟨other, pc, o, pc', hmove⟩)
  | cancel i =>
    obtain ⟨task, -, rfl⟩ := Option.map_eq_some_iff.mp hstep
    exact .inl rfl
  | _ =>
    -- the other steps leave the tables alone
    simp only [queueStep] at hstep
    left
    repeat' split at hstep
    all_goals first
      | (obtain rfl := Option.some.inj hstep; rfl)
      | cases hstep

/-- A step that stores a run which was not stored creates it. -/
theorem created_of_stored {l : QueueLabel Report} {st : RunStore Report}
    (hnone : s.db.store key = none) (hstep : queueStep s l = some t)
    (hst : t.db.store key = some st) :
    ∃ source, Sees key t (newRun key.runId source) := by
  obtain heq | ⟨other, createdAt, source, hunused, rfl⟩ | ⟨other, pc, o, pc', hmove⟩ :=
    queueStep_db hstep
  · rw [heq, hnone] at hst
    cases hst
  · by_cases hother : key = other
    · subst hother
      exact ⟨source, sees_newRun hunused⟩
    · cases ((store_insertRun hunused.1 hother).trans hnone).symm.trans hst
  · obtain hkeeps := (runTask_store hmove).1
    by_cases hother : key = other
    · subst hother
      cases (hkeeps.none hnone).symm.trans hst
    · cases ((hkeeps.other key hother).trans hnone).symm.trans hst

/-- What a run sees of a step, or of its creation. -/
theorem alone_step {l : QueueLabel Report} (h : Alone s) (hstep : queueStep s l = some t) :
    Alone t := by
  intro key st hst
  -- a run that was stored before goes on, any other one begins here
  cases hold : s.db.store key with
  | some old =>
    obtain ⟨source, ls, a, hexec, hsees⟩ := h key old hold
    obtain ⟨ls', b, hexec', hsees'⟩ := sees_step hsees hstep
    refine ⟨source, ls ++ ls', b, ?_, hsees'⟩
    rw [exec_append, hexec, Option.bind_some, hexec']
  | none =>
    obtain ⟨source, hsees⟩ := created_of_stored hold hstep hst
    exact ⟨source, [], _, rfl, hsees⟩

/-- In every state of the whole service, whatever the runs, the workspaces and
the order of the steps, each run is where the service of that run alone can be
after its creation: its row, its events, its thread, and its tasks. -/
theorem run_alone {active : List String} {ls : List (QueueLabel Report)}
    (hrun : exec queueStep (.start active) ls = some s) {st : RunStore Report}
    (hst : s.db.store key = some st) : ∃ source ls' a,
    exec serviceStep (newRun key.runId source) ls' = some a ∧ a.store = st ∧
      a.tasks = ofRun key s.tasks := by
  have halone : Alone s := by
    refine exec_invariant (C := fun _ _ => True) (fun _ _ _ h _ => alone_step h) ?_
      (along_true ..) hrun
    rintro _ _ h
    cases h
  obtain ⟨source, ls', a, hexec, hsees⟩ := halone key st hst
  exact ⟨source, ls', a, hexec, Option.some.inj (hsees.store.symm.trans hst), hsees.tasks.symm⟩

/-- Two runs of two workspaces: the poller has read one of them and schedules
it, the other one is started, and both are claimed before the process crashes. -/
def twoRuns : List (QueueLabel String) :=
  [.create ⟨"shop", "a"⟩ 1 "automatic", .create ⟨"bank", "b"⟩ 2 "manual", .pollWake,
   .pollRead [(⟨"shop", "a"⟩, 1)], .startRun ⟨"bank", "b"⟩, .pollSchedule,
   .pollRead [(⟨"bank", "b"⟩, 2)], .task 0 (.returns 3 ""), .task 1 (.returns 4 ""), .crash]

theorem run_alone_twoRuns : ∃ s st source ls' a,
    exec queueStep (.start ["shop", "bank"]) twoRuns = some s ∧
      s.db.store ⟨"bank", "b"⟩ = some st ∧
      exec serviceStep (newRun "b" source) ls' = some a ∧ a.store = st ∧
        a.tasks = ofRun ⟨"bank", "b"⟩ s.tasks := by
  have hend : (exec queueStep (.start ["shop", "bank"]) twoRuns).any (fun s =>
      (s.db.store ⟨"bank", "b"⟩).isSome) = true := by decide +kernel
  obtain ⟨s, hrun, hstored⟩ := (Option.any_eq_true ..).mp hend
  obtain ⟨st, hst⟩ := Option.isSome_iff_exists.mp hstored
  obtain ⟨source, ls', a, hexec⟩ := run_alone hrun hst
  exact ⟨s, st, source, ls', a, hrun, hst, hexec⟩

end NexCause
