/-
NexCause/RcaRun.lean

The RCA agent service, for one run: the `RcaRun` row with its event log and
thread, the repository methods that write them (`db.py`), and the tasks that
execute `run_rca` (`main.py`).

A repository method is one transaction, so it is one function on the store.
`run_rca` is a program with a suspension point at every `await`: `RunRcaPc`
has one constructor for each, and `runRca` resumes a task with the outcome of
the call it awaited.  A call may return, raise, or raise *after* its
transaction has committed (the connection is lost on the way back).

The service runs any number of such tasks: `POST /rca-agent/runs` adds one
(`startRun`), and `poll_pending_runs` adds one for every time it has read the
run as pending.  Reading and scheduling are two steps, because the rows it
read may be stale when the tasks are created.  A task may be cancelled at any
await (`CancelledError` is not an `Exception`, so no handler sees it).
-/
import NexCause.Transition

namespace NexCause

/-! ### The stored run -/

/-- `RcaRunStatus` of the database schema. -/
inductive RcaRunStatus
  | pending | running | completed | failed
  deriving DecidableEq, Repr

/-- The columns of an `RcaRun` row that the agent service reads or writes. -/
structure RcaRun (Report : Type) where
  id : String
  status : RcaRunStatus
  startedAt : Option ℕ
  completedAt : Option ℕ
  result : Option Report
  errorMessage : Option String
  deriving DecidableEq, Repr

/-- An `RcaRunEvent` row: its type and its JSON data. -/
structure RcaRunEvent where
  type : String
  data : List (String × String)
  deriving DecidableEq, Repr

/-- The `RcaAgentThread` row of a run. -/
structure RcaAgentThread where
  id : String
  checkpointThreadId : String
  status : String
  deriving DecidableEq, Repr

/-- What the database holds about one run.  `events` is in commit order. -/
structure RunStore (Report : Type) where
  run : RcaRun Report
  events : List RcaRunEvent
  thread : Option RcaAgentThread
  deriving DecidableEq, Repr

variable {Report : Type}

/-! ### `RCARepository` -/

/-- `_add_run_event`. -/
def RunStore.addRunEvent (st : RunStore Report) (type : String)
    (data : List (String × String)) : RunStore Report :=
  { st with events := st.events ++ [⟨type, data⟩] }

/-- `mark_running`: claim the run if it is pending or failed; says whether
the claim succeeded. -/
def markRunning (now : ℕ) (st : RunStore Report) : RunStore Report × Bool :=
  if st.run.status = .pending ∨ st.run.status = .failed then
    (RunStore.addRunEvent
      { st with run := { st.run with
          status := .running
          startedAt := some (st.run.startedAt.getD now)
          errorMessage := none } } "run.running" [], true)
  else (st, false)

/-- `complete_run`: an update by id, whatever the status was. -/
def completeRun (now : ℕ) (result : Report) (st : RunStore Report) : RunStore Report :=
  RunStore.addRunEvent
    { st with run := { st.run with
        status := .completed
        result := some result
        completedAt := some now
        errorMessage := none } } "run.completed" []

/-- `fail_run`: an update by id, whatever the status was. -/
def failRun (now : ℕ) (message : String) (st : RunStore Report) : RunStore Report :=
  RunStore.addRunEvent
    { st with run := { st.run with
        status := .failed
        errorMessage := some message
        completedAt := some now } }
    "run.failed" [("error", String.ofList (message.toList.take 500))]

/-- `get_or_create_thread`, with the id the insert would use. -/
def getOrCreateThread (newId : String) (st : RunStore Report) : RunStore Report :=
  match st.thread with
  | some _ => st
  | none => { st with thread := some ⟨newId, st.run.id, "open"⟩ }

/-! ### `run_rca` -/

/-- Where a `run_rca` task is suspended: one constructor for each `await`. -/
inductive RunRcaPc (Report : Type)
  | markRunning
  | publishSkipped
  | publishRunning
  | getOrCreateThread
  /-- inside `RCAGraphRunner.run` -/
  | graph
  | completeRun (report : Report)
  | publishCompleted
  /-- in the `except` block -/
  | failRun (error : String)
  | publishFailed (error : String)
  | returned
  | raised (error : String)
  | cancelled
  deriving DecidableEq, Repr

/-- The outcome of an awaited call.  `now` and `newId` are the database clock
and the fresh id the call happens to see. -/
inductive Outcome (Report : Type)
  | returns (now : ℕ) (newId : String)
  | reports (report : Report)
  | raises (error : String)
  | commitsThenRaises (now : ℕ) (newId : String) (error : String)
  deriving DecidableEq, Repr

/-- The outcome says that the awaited transaction took effect. -/
def Outcome.commits : Outcome Report → Prop
  | .returns _ _ => True
  | .reports _ => False
  | .raises _ => False
  | .commitsThenRaises _ _ _ => True

instance : DecidablePred (@Outcome.commits Report) := fun o => by
  cases o <;> unfold Outcome.commits <;> infer_instance

/-- Resume a `run_rca` task with the outcome of the call it awaits; `none`
when the call cannot have that outcome. -/
def runRca : RunRcaPc Report → Outcome Report → RunStore Report →
    Option (RunStore Report × RunRcaPc Report)
  | .markRunning, .returns now _, st =>
      let (st', claimed) := markRunning now st
      some (st', if claimed then .publishRunning else .publishSkipped)
  | .markRunning, .raises e, st => some (st, .failRun e)
  | .markRunning, .commitsThenRaises now _ e, st => some ((markRunning now st).1, .failRun e)
  | .publishSkipped, .returns _ _, st => some (st, .returned)
  | .publishRunning, .returns _ _, st => some (st, .getOrCreateThread)
  | .getOrCreateThread, .returns _ newId, st => some (getOrCreateThread newId st, .graph)
  | .getOrCreateThread, .raises e, st => some (st, .failRun e)
  | .getOrCreateThread, .commitsThenRaises _ newId e, st =>
      some (getOrCreateThread newId st, .failRun e)
  | .graph, .reports report, st => some (st, .completeRun report)
  | .graph, .raises e, st => some (st, .failRun e)
  | .completeRun report, .returns now _, st =>
      some (completeRun now report st, .publishCompleted)
  | .completeRun _, .raises e, st => some (st, .failRun e)
  | .completeRun report, .commitsThenRaises now _ e, st =>
      some (completeRun now report st, .failRun e)
  | .publishCompleted, .returns _ _, st => some (st, .returned)
  -- the handler is not inside the `try`: what it raises ends the task
  | .failRun error, .returns now _, st => some (failRun now error st, .publishFailed error)
  | .failRun _, .raises e, st => some (st, .raised e)
  | .failRun error, .commitsThenRaises now _ e, st => some (failRun now error st, .raised e)
  | .publishFailed _, .returns _ _, st => some (st, .returned)
  | _, _, _ => none

/-! ### The service -/

/-- The agent service around one run.  `polled` counts the times the poller
has read the run as pending and not yet created the task. -/
structure AgentState (Report : Type) where
  store : RunStore Report
  tasks : List (RunRcaPc Report)
  polled : ℕ
  deriving DecidableEq, Repr

/-- One step of the service. -/
inductive AgentLabel (Report : Type)
  /-- `POST /rca-agent/runs` adds a background task -/
  | startRun
  /-- `poll_pending_runs` reads the run among `pending_runs` -/
  | pollRead
  /-- `poll_pending_runs` creates the task for a row it read -/
  | pollSchedule
  | task (i : ℕ) (o : Outcome Report)
  | cancel (i : ℕ)
  deriving DecidableEq, Repr

/-- The step function of the service. -/
def agentStep (s : AgentState Report) : AgentLabel Report → Option (AgentState Report)
  | .startRun => some { s with tasks := s.tasks ++ [.markRunning] }
  | .pollRead =>
      if s.store.run.status = .pending then some { s with polled := s.polled + 1 } else none
  | .pollSchedule =>
      if 0 < s.polled then
        some { s with tasks := s.tasks ++ [.markRunning], polled := s.polled - 1 }
      else none
  | .task i o =>
      (s.tasks[i]?).bind fun pc => (runRca pc o s.store).map fun r =>
        { s with store := r.1, tasks := s.tasks.set i r.2 }
  | .cancel i => some { s with tasks := s.tasks.set i .cancelled }

/-! ### What a step can do -/

/-- The task has claimed the run and has not yet recorded its outcome. -/
def RunRcaPc.OwnsRun : RunRcaPc Report → Prop
  | .publishRunning => True
  | .getOrCreateThread => True
  | .graph => True
  | .completeRun _ => True
  | _ => False

theorem markRunning_claims (now : ℕ) {st : RunStore Report}
    (h : st.run.status = .pending ∨ st.run.status = .failed) :
    (markRunning now st).2 = true ∧ (markRunning now st).1.run.status = .running := by
  simp [markRunning, h, RunStore.addRunEvent]

theorem markRunning_skips {now : ℕ} {st : RunStore Report}
    (h : ¬ (st.run.status = .pending ∨ st.run.status = .failed)) :
    markRunning now st = (st, false) := by
  simp [markRunning, h]

@[simp] theorem getOrCreateThread_run (newId : String) (st : RunStore Report) :
    (getOrCreateThread newId st).run = st.run := by
  unfold getOrCreateThread
  rcases st.thread with - | t <;> rfl

/-- What one resumption of `run_rca` does to the row and to the ownership of
the run: nothing, a claim, a completion by an owner, or a failure written by
a task in its handler. -/
theorem runRca_cases {pc pc' : RunRcaPc Report} {o : Outcome Report}
    {st st' : RunStore Report} (h : runRca pc o st = some (st', pc')) :
    (st'.run = st.run ∧ (pc'.OwnsRun → pc.OwnsRun)) ∨
    (pc = .markRunning ∧ (st.run.status = .pending ∨ st.run.status = .failed) ∧
      st'.run.status = .running) ∨
    (pc.OwnsRun ∧ ¬ pc'.OwnsRun ∧ st'.run.status = .completed) ∨
    (∃ e, pc = .failRun e ∧ o.commits ∧ ¬ pc'.OwnsRun ∧ st'.run.status = .failed) := by
  cases pc with
  | markRunning =>
    by_cases hst : st.run.status = .pending ∨ st.run.status = .failed
    · have hc := fun now => markRunning_claims now hst
      cases o with
      | returns now newId =>
        obtain ⟨rfl, rfl⟩ : _ ∧ _ := by simpa [runRca] using h
        exact .inr (.inl ⟨rfl, hst, (hc now).2⟩)
      | raises e =>
        obtain ⟨rfl, rfl⟩ : st = st' ∧ _ = pc' := by simpa [runRca] using h
        exact .inl ⟨rfl, id⟩
      | commitsThenRaises now newId e =>
        obtain ⟨rfl, rfl⟩ : _ ∧ _ := by simpa [runRca] using h
        exact .inr (.inl ⟨rfl, hst, (hc now).2⟩)
      | reports r => simp [runRca] at h
    · cases o <;> simp only [runRca, markRunning_skips hst, Option.some.injEq, Prod.mk.injEq,
        reduceCtorEq] at h
      all_goals
        obtain ⟨rfl, rfl⟩ := h
        exact .inl ⟨rfl, by simp [RunRcaPc.OwnsRun]⟩
  | completeRun report =>
    cases o <;> simp only [runRca, Option.some.injEq, Prod.mk.injEq, reduceCtorEq] at h
    all_goals obtain ⟨rfl, rfl⟩ := h
    · exact .inr (.inr (.inl ⟨trivial, id, rfl⟩))
    · exact .inl ⟨rfl, False.elim⟩
    · exact .inr (.inr (.inl ⟨trivial, id, rfl⟩))
  | failRun error =>
    cases o <;> simp only [runRca, Option.some.injEq, Prod.mk.injEq, reduceCtorEq] at h
    all_goals obtain ⟨rfl, rfl⟩ := h
    · exact .inr (.inr (.inr ⟨error, rfl, trivial, id, rfl⟩))
    · exact .inl ⟨rfl, False.elim⟩
    · exact .inr (.inr (.inr ⟨error, rfl, trivial, id, rfl⟩))
  | _ =>
    -- the remaining awaits do not write the row
    cases o <;> simp only [runRca, Option.some.injEq, Prod.mk.injEq, reduceCtorEq] at h
    all_goals
      obtain ⟨rfl, rfl⟩ := h
      exact .inl ⟨by simp, by simp [RunRcaPc.OwnsRun]⟩

end NexCause
