/-
NexCause/RcaThreads.lean

The thread of an RCA run: `get_or_create_thread`, statement by statement, in
any number of `run_rca` tasks and chat requests of one run.

The method looks for the thread and inserts one if there is none.  Two calls
that both find none insert one each; the unique index makes the second one
wait, and then fail, and in `run_rca` the handler marks the run as failed.
Nothing else goes wrong, and all calls get one thread
(`thread_creation_harmless_iff`).
-/
import NexCause.ReadCommitted
import NexCause.RcaRun

namespace NexCause

open Program Transition ReadCommitted

/-! ### Programs -/

/-- What the agent's coroutines raise. -/
inductive AgentError
  /-- `UniqueViolation` of `RcaAgentThread_rcaRunId_key` -/
  | uniqueViolation
  /-- `HTTPException(404)` -/
  | notFound
  | other (message : String)
  deriving DecidableEq, Repr

/-- `str(error)` -/
def AgentError.message : AgentError → String
  | .uniqueViolation =>
      "duplicate key value violates unique constraint \"RcaAgentThread_rcaRunId_key\""
  | .notFound => "404: RCA run was not found"
  | .other message => message

/-- The calls of `main.py` beside `get_or_create_thread`, for one run. -/
inductive AgentCall (Report : Type)
  | markRunning
  | publish (event : String)
  | runGraph
  | completeRun (report : Report)
  | failRun (error : AgentError)
  | getRun
  /-- `new_id("rca_thread")` -/
  | newId
  | addChatMessage (threadId role content : String)
  | answerChat (message : String)
  | listChatMessages (threadId : String)

abbrev AgentCall.Result {Report : Type} : AgentCall Report → Type
  | .markRunning => Bool
  | .publish _ => Unit
  | .runGraph => Report
  | .completeRun _ => Unit
  | .failRun _ => Unit
  | .getRun => Bool
  | .newId => String
  | .addChatMessage _ _ _ => Unit
  | .answerChat _ => String
  | .listChatMessages _ => List String

variable {Report : Type}

abbrev AgentAction (Report α : Type) : Type :=
  Client RcaAgentThread (AgentCall Report) AgentCall.Result AgentError α

/-- One call. -/
def agent (c : AgentCall Report) : AgentAction Report c.Result := ask (.outside c)

/-- `get_or_create_thread`, on a tenant connection. -/
def getOrCreateThreadTx (runId : String) : AgentAction Report RcaAgentThread :=
  transaction fun tx => do
    -- the two `set_config`
    ask (.other tx)
    ask (.other tx)
    match ← ask (.select tx) with
    | some existing => return existing
    | none =>
        let id : String ← agent .newId
        ask (.insert tx ⟨id, runId, "open"⟩)

/-- The `try` block of `run_rca`. -/
def runRcaBlock (runId : String) : AgentAction Report Unit := do
  let claimed : Bool ← agent .markRunning
  if claimed then
    agent (.publish "run.running")
    let _ ← getOrCreateThreadTx runId
    let report : Report ← agent .runGraph
    agent (.completeRun report)
    agent (.publish "run.completed")
  else
    agent (.publish "run.skipped")

/-- `run_rca` -/
def runRcaTask (runId : String) : AgentAction Report Unit :=
  (runRcaBlock runId).tryCatch fun error => do
    agent (.failRun error)
    agent (.publish "run.failed")

/-- `chat` -/
def chat (runId message : String) : AgentAction Report String := do
  let found : Bool ← agent .getRun
  if found then
    let thread ← getOrCreateThreadTx runId
    agent (.addChatMessage thread.id "user" message)
    let answer : String ← agent (.answerChat message)
    agent (.addChatMessage thread.id "assistant" answer)
    return answer
  else
    throw .notFound

/-- `list_chat` -/
def listChat (runId : String) : AgentAction Report (List String) := do
  let found : Bool ← agent .getRun
  if found then
    let thread ← getOrCreateThreadTx runId
    agent (.listChatMessages thread.id)
  else
    throw .notFound

inductive AgentRequest
  | runRca
  | chat (message : String)
  | listChat
  deriving DecidableEq, Repr

inductive AgentResponse
  | finished
  | answered (message : String)
  | messages (list : List String)
  deriving DecidableEq, Repr

/-- The program of a request. -/
def AgentRequest.program (runId : String) : AgentRequest → AgentAction Report AgentResponse
  | .runRca => do
      runRcaTask runId
      return .finished
  | .chat message => do
      return .answered (← NexCause.chat runId message)
  | .listChat => do
      return .messages (← NexCause.listChat runId)

/-! ### The service -/

/-- What the environment chooses at a call: whether it fails, and what it finds. -/
structure AgentChoice (Report : Type) where
  fault : Option String
  now : ℕ
  found : Bool
  id : String
  report : Report
  text : String
  messages : List String

/-- A call that fails when the environment says so. -/
def orFault {α σ : Type} (x : AgentChoice Report) (s : σ) (r : α × σ) : Except AgentError α × σ :=
  match x.fault with
  | some message => (.error (.other message), s)
  | none => (.ok r.1, r.2)

/-- The other calls, on the run.  Its thread is not here: it is the row under
consideration. -/
def serveAgent : Service (AgentCall Report) AgentCall.Result AgentError (AgentChoice Report)
    (RunStore Report)
  | .markRunning, x, st => orFault x st ((markRunning x.now st).2, (markRunning x.now st).1)
  | .publish _, _, st => (.ok (), st)
  | .runGraph, x, st => orFault x st (x.report, st)
  | .completeRun report, x, st => orFault x st ((), completeRun x.now report st)
  | .failRun error, x, st => orFault x st ((), failRun x.now error.message st)
  | .getRun, x, st => orFault x st (x.found, st)
  | .newId, x, st => (.ok x.id, st)
  | .addChatMessage _ _ _, x, st => orFault x st ((), st)
  | .answerChat _, x, st => orFault x st (x.text, st)
  | .listChatMessages _, x, st => orFault x st (x.messages, st)

/-- Requests in progress. -/
abbrev AgentPool (Report : Type) : Type :=
  Pool AgentRequest (Statement RcaAgentThread (AgentCall Report)) (Statement.Result AgentCall.Result)
    AgentError AgentResponse (Db RcaAgentThread × RunStore Report)

abbrev AgentExchange (Report : Type) : Type :=
  Exchange (Statement RcaAgentThread (AgentCall Report)) (Statement.Result AgentCall.Result)
    AgentError

abbrev AgentTrace (Report : Type) : Type := List (ℕ × AgentExchange Report)

/-- The step function. -/
def threadStep : AgentPool Report × AgentTrace Report → ℕ × AgentChoice Report →
    Option (AgentPool Report × AgentTrace Report) :=
  Pool.guarded Statement.free (ReadCommitted.serve .uniqueViolation serveAgent)

/-- Requests with their programs. -/
def agentTasks (runId : String) (requests : List AgentRequest) :
    List (AgentRequest × AgentAction Report AgentResponse) :=
  requests.map fun q => (q, q.program runId)

/-- Requests that have not begun, for a run with a thread or without one. -/
def startAgent (st : RunStore Report) (requests : List AgentRequest) :
    AgentPool Report × AgentTrace Report :=
  (.start (Db.quiet st.thread, st) (agentTasks st.run.id requests), [])

/-! ### Discipline -/

theorem agent_disciplined (c : AgentCall Report) (o : Option (Open RcaAgentThread)) :
    (agent c).Meets (discipline _ AgentError true) (fun _ o' => o' = o) o :=
  ask_disciplined trivial fun _ => rfl

theorem getOrCreateThreadTx_disciplined (runId : String) :
    (getOrCreateThreadTx runId : AgentAction Report _).Meets (discipline _ _ true)
      (fun _ o => o = none) none := by
  apply transaction_disciplined
  intro tx
  have hother : (ask (.other tx) : AgentAction Report Unit).Meets (discipline _ _ true)
      (fun _ o => o = some ⟨tx, none⟩) (some ⟨tx, none⟩) := ask_disciplined rfl fun _ => rfl
  have hselect : (ask (.select tx) : AgentAction Report (Option RcaAgentThread)).Meets
      (discipline _ _ true) (fun _ o => o = some ⟨tx, none⟩) (some ⟨tx, none⟩) :=
    ask_disciplined rfl fun _ => rfl
  have hfail : ∀ (e : AgentError) (o : Option (Open RcaAgentThread)), o = some ⟨tx, none⟩ →
      o.map Open.tx = some tx := by
    rintro e _ rfl
    rfl
  apply hother.bind _ hfail
  rintro _ _ rfl
  apply hother.bind _ hfail
  rintro _ _ rfl
  apply hselect.bind _ hfail
  rintro found _ rfl
  cases found with
  | some existing => rfl
  | none =>
    apply (agent_disciplined .newId _).bind _ hfail
    rintro id _ rfl
    apply ask_disciplined
    · exact ⟨rfl, rfl⟩
    · rintro (e | row) <;> rfl

/-- A call between transactions. -/
theorem agent_then_disciplined {β : Type} {c : AgentCall Report} {f : c.Result → AgentAction Report β}
    (hf : ∀ a, (f a).Meets (discipline _ _ true) (fun _ o => o = none) none) :
    (agent c >>= f).Meets (discipline _ _ true) (fun _ o => o = none) none := by
  apply (agent_disciplined c none).bind
  · rintro a _ rfl
    exact hf a
  · exact fun _ _ h => h

/-- The thread, and what comes after its transaction. -/
theorem thread_then_disciplined {β : Type} {runId : String}
    {f : RcaAgentThread → AgentAction Report β}
    (hf : ∀ thread, (f thread).Meets (discipline _ _ true) (fun _ o => o = none) none) :
    (getOrCreateThreadTx runId >>= f).Meets (discipline _ _ true) (fun _ o => o = none) none := by
  apply (getOrCreateThreadTx_disciplined runId).bind
  · rintro thread _ rfl
    exact hf thread
  · exact fun _ _ h => h

theorem runRcaBlock_disciplined (runId : String) :
    (runRcaBlock runId : AgentAction Report Unit).Meets (discipline _ _ true)
      (fun _ o => o = none) none := by
  apply agent_then_disciplined
  intro claimed
  cases claimed with
  | false => exact agent_disciplined _ _
  | true =>
    apply agent_then_disciplined
    intro _
    apply thread_then_disciplined
    intro thread
    apply agent_then_disciplined
    intro report
    apply agent_then_disciplined
    exact fun _ => agent_disciplined _ _

theorem runRcaTask_disciplined (runId : String) :
    (runRcaTask runId : AgentAction Report Unit).Meets (discipline _ _ true)
      (fun _ o => o = none) none := by
  apply (runRcaBlock_disciplined runId).tryCatch
  · exact fun _ _ h => h
  · rintro error _ rfl
    apply agent_then_disciplined
    exact fun _ => agent_disciplined _ _

theorem chat_disciplined (runId message : String) :
    (chat runId message : AgentAction Report String).Meets (discipline _ _ true)
      (fun _ o => o = none) none := by
  apply agent_then_disciplined
  intro found
  cases found with
  | false => rfl
  | true =>
    apply thread_then_disciplined
    intro thread
    apply agent_then_disciplined
    intro _
    apply agent_then_disciplined
    intro answer
    apply agent_then_disciplined
    exact fun _ => rfl

theorem listChat_disciplined (runId : String) :
    (listChat runId : AgentAction Report (List String)).Meets (discipline _ _ true)
      (fun _ o => o = none) none := by
  apply agent_then_disciplined
  intro found
  cases found with
  | false => rfl
  | true =>
    apply thread_then_disciplined
    exact fun thread => agent_disciplined _ _

theorem agentTasks_disciplined (runId : String) (requests : List AgentRequest) :
    ∀ task ∈ (agentTasks runId requests : List (_ × AgentAction Report _)),
      Disciplined true task.2 := by
  intro task htask
  obtain ⟨request, -, rfl⟩ := List.mem_map.mp htask
  cases request with
  | runRca => exact (runRcaTask_disciplined runId).bind (fun _ _ _ => trivial) (fun _ _ _ => trivial)
  | chat message =>
    exact (chat_disciplined runId message).bind (fun _ _ _ => trivial) (fun _ _ _ => trivial)
  | listChat => exact (listChat_disciplined runId).bind (fun _ _ _ => trivial) (fun _ _ _ => trivial)

/-! ### Who is to blame -/

/-- The call has met the unique index. -/
def violates (e : AgentExchange Report) : Bool :=
  match e.answer with
  | .error .uniqueViolation => true
  | _ => false

/-- What the service answers: a statement fails only on the unique index, and an id is always new. -/
def WellAnswered (e : AgentExchange Report) : Prop :=
  match e.call with
  | .outside .newId => ∃ id, e.answer = .ok id
  | .outside _ => True
  | _ => ∀ error, e.answer = .error error → error = .uniqueViolation

/-- A transaction is rolled back, and a run fails with the error of the unique
index, only when a call has met it. -/
def blame (Report : Type) : Prog.Contract (Statement RcaAgentThread (AgentCall Report))
    (Statement.Result AgentCall.Result) AgentError Bool where
  pre c met := match c with
    | .rollback _ => met = true
    | .outside (.failRun .uniqueViolation) => met = true
    | _ => True
  post c met r met' := WellAnswered ⟨c, r⟩ ∧ met' = (met || violates ⟨c, r⟩)

/-- The program raises the error of the unique index only when a call has met it. -/
def Honest {α : Type} (r : Except AgentError α) (met : Bool) : Prop :=
  r = .error .uniqueViolation → met = true

/-- The program raises only when a call has met the unique index. -/
def Faultless {α : Type} (r : Except AgentError α) (met : Bool) : Prop :=
  ∀ error, r = .error error → met = true

/-- A statement of a transaction. -/
theorem statement_faultless {c : Statement RcaAgentThread (AgentCall Report)} {met : Bool}
    (hc : ∀ call, c ≠ .outside call) (hrollback : ∀ tx, c ≠ .rollback tx) :
    (ask c : AgentAction Report _).Meets (blame Report) Faultless met := by
  have hpre : (blame Report).pre c met := by
    cases c with
    | outside call => exact absurd rfl (hc call)
    | rollback tx => exact absurd rfl (hrollback tx)
    | _ => trivial
  apply Prog.meets_perform.mpr
  refine ⟨hpre, ?_⟩
  rintro r _ ⟨hanswered, rfl⟩ error rfl
  have herror : error = .uniqueViolation := by
    cases c with
    | outside call => exact absurd rfl (hc call)
    | _ => exact hanswered error rfl
  subst herror
  exact Bool.or_true met

/-- A sequence that raises only when a call has met the unique index. -/
theorem faultless_bind {α β : Type} {p : AgentAction Report α} {f : α → AgentAction Report β}
    {met : Bool} (hp : p.Meets (blame Report) Faultless met)
    (hf : ∀ a met, (f a).Meets (blame Report) Faultless met) :
    (p >>= f).Meets (blame Report) Faultless met := by
  apply hp.bind
  · exact fun a met' _ => hf a met'
  · intro e met' he error herror
    exact he e rfl

theorem transaction_faultless {α : Type} {body : ℕ → AgentAction Report α}
    (hbody : ∀ tx met, (body tx).Meets (blame Report) Faultless met) (met : Bool) :
    (transaction body).Meets (blame Report) Faultless met := by
  apply faultless_bind (statement_faultless (by simp) (by simp))
  intro tx met
  apply faultless_bind
  · apply (hbody tx met).tryCatch
    · exact fun _ _ h => h
    · -- the handler knows that a call has met the index
      intro e met' he
      have hmet : met' = true := he e rfl
      have hroll : (ask (.rollback tx) : AgentAction Report Unit).Meets (blame Report)
          (fun _ met => met = true) met' := by
        apply Prog.meets_perform.mpr
        refine ⟨hmet, ?_⟩
        rintro r _ ⟨-, rfl⟩
        rw [hmet, Bool.true_or]
      apply hroll.bind
      · exact fun _ _ h _ _ => h
      · exact fun _ _ h _ _ => h
  · intro a met
    apply faultless_bind (statement_faultless (by simp) (by simp))
    intro _ met error herror
    cases herror

theorem getOrCreateThreadTx_faultless (runId : String) (met : Bool) :
    (getOrCreateThreadTx runId : AgentAction Report _).Meets (blame Report) Faultless met := by
  apply transaction_faultless
  intro tx met
  apply faultless_bind (statement_faultless (by simp) (by simp))
  intro _ met
  apply faultless_bind (statement_faultless (by simp) (by simp))
  intro _ met
  apply faultless_bind (statement_faultless (by simp) (by simp))
  intro found met
  cases found with
  | some existing =>
    intro error herror
    cases herror
  | none =>
    have hid : (agent .newId : AgentAction Report String).Meets (blame Report) Faultless met := by
      apply Prog.meets_perform.mpr
      refine ⟨trivial, ?_⟩
      rintro r _ ⟨⟨id, hanswer⟩, -⟩ error rfl
      cases hanswer
    apply faultless_bind hid
    intro id met
    exact statement_faultless (by simp) (by simp)

/-- A sequence that raises the error of the unique index only when a call has met it. -/
theorem honest_bind {α β : Type} {p : AgentAction Report α} {f : α → AgentAction Report β}
    {met : Bool} (hp : p.Meets (blame Report) Honest met)
    (hf : ∀ a met, (f a).Meets (blame Report) Honest met) :
    (p >>= f).Meets (blame Report) Honest met := by
  apply hp.bind
  · exact fun a met' _ => hf a met'
  · intro e met' he herror
    exact he (congrArg Except.error (Except.error.inj herror))

theorem getOrCreateThreadTx_honest (runId : String) (met : Bool) :
    (getOrCreateThreadTx runId : AgentAction Report _).Meets (blame Report) Honest met :=
  (getOrCreateThreadTx_faultless runId met).mono fun _ _ h => h _

theorem agent_honest {c : AgentCall Report} {met : Bool}
    (hc : c = .failRun .uniqueViolation → met = true) :
    (agent c).Meets (blame Report) Honest met := by
  have hpre : (blame Report).pre (.outside c) met := by
    cases c with
    | failRun error =>
      cases error with
      | uniqueViolation => exact hc rfl
      | _ => trivial
    | _ => trivial
  apply Prog.meets_perform.mpr
  refine ⟨hpre, ?_⟩
  rintro r _ ⟨-, rfl⟩ rfl
  exact Bool.or_true met

theorem honest_ret {α : Type} (a : α) (met : Bool) :
    (.ret a : AgentAction Report α).Meets (blame Report) Honest met := by
  intro herror
  cases herror

theorem notFound_honest {α : Type} (met : Bool) :
    (.throw .notFound : AgentAction Report α).Meets (blame Report) Honest met := by
  intro herror
  cases herror

theorem runRcaTask_honest (runId : String) (met : Bool) :
    (runRcaTask runId : AgentAction Report Unit).Meets (blame Report) Honest met := by
  have hblock : (runRcaBlock runId : AgentAction Report Unit).Meets (blame Report) Honest met := by
    apply honest_bind (agent_honest (by simp))
    intro claimed met
    cases claimed with
    | false => exact agent_honest (by simp)
    | true =>
      apply honest_bind (agent_honest (by simp))
      intro _ met
      apply honest_bind (getOrCreateThreadTx_honest runId met)
      intro thread met
      apply honest_bind (agent_honest (by simp))
      intro report met
      apply honest_bind (agent_honest (by simp))
      exact fun _ met => agent_honest (by simp)
  apply hblock.tryCatch
  · exact fun _ _ h => h
  · intro error met' herror
    have hfail : (AgentCall.failRun error : AgentCall Report) = .failRun .uniqueViolation →
        met' = true := fun heq => herror (congrArg Except.error (AgentCall.failRun.inj heq))
    exact honest_bind (agent_honest hfail) fun _ _ => agent_honest (by simp)

theorem chat_honest (runId message : String) (met : Bool) :
    (chat runId message : AgentAction Report String).Meets (blame Report) Honest met := by
  apply honest_bind (agent_honest (by simp))
  intro found met
  cases found with
  | false => exact notFound_honest met
  | true =>
    apply honest_bind (getOrCreateThreadTx_honest runId met)
    intro thread met
    apply honest_bind (agent_honest (by simp))
    intro _ met
    apply honest_bind (agent_honest (by simp))
    intro answer met
    apply honest_bind (agent_honest (by simp))
    exact fun _ met => honest_ret answer met

theorem listChat_honest (runId : String) (met : Bool) :
    (listChat runId : AgentAction Report (List String)).Meets (blame Report) Honest met := by
  apply honest_bind (agent_honest (by simp))
  intro found met
  cases found with
  | false => exact notFound_honest met
  | true =>
    apply honest_bind (getOrCreateThreadTx_honest runId met)
    exact fun thread met => agent_honest (by simp)

theorem agentTasks_honest (runId : String) (requests : List AgentRequest) :
    ∀ task ∈ (agentTasks runId requests : List (_ × AgentAction Report _)),
      task.2.Meets (blame Report) Honest false := by
  intro task htask
  obtain ⟨request, -, rfl⟩ := List.mem_map.mp htask
  cases request with
  | runRca => exact honest_bind (runRcaTask_honest runId false) fun _ met => honest_ret _ met
  | chat message => exact honest_bind (chat_honest runId message false) fun _ met => honest_ret _ met
  | listChat => exact honest_bind (listChat_honest runId false) fun _ met => honest_ret _ met

/-! ### The race -/

/-- The thread that a call of `get_or_create_thread` has found or inserted. -/
def threadOf : AgentExchange Report → Option RcaAgentThread
  | ⟨.select _, .ok (some thread)⟩ => some thread
  | ⟨.insert _ _, .ok thread⟩ => some thread
  | _ => none

/-- No call of `get_or_create_thread` has raised, all have got one thread, and
no task has marked the run as failed for such a call. -/
structure Harmless (x : AgentPool Report × AgentTrace Report) : Prop where
  noneRaises : ∀ e ∈ x.2, violates e.2 = false
  sameThread : ∀ e ∈ x.2, ∀ f ∈ x.2, ∀ r r', threadOf e.2 = some r → threadOf f.2 = some r' → r = r'
  runs : ∀ e ∈ x.2, e.2.call ≠ .outside (.failRun .uniqueViolation)
  tasks : ∀ task ∈ x.1.tasks, task.2 ≠ .throw .uniqueViolation

/-- A thread is inserted only while none is committed. -/
def InsertsFirst (x : AgentPool Report × AgentTrace Report) (l : ℕ × AgentChoice Report) : Prop :=
  match x.1.next l.1 with
  | some (_, .insert _ _) => x.1.state.1.row = none
  | _ => True

instance (x : AgentPool Report × AgentTrace Report) (l : ℕ × AgentChoice Report) :
    Decidable (InsertsFirst x l) := by
  unfold InsertsFirst
  split <;> infer_instance

/-- What is known of every run without a violation so far. -/
structure ThreadsKnown (st : RunStore Report) (requests : List AgentRequest)
    (x : AgentPool Report × AgentTrace Report) : Prop where
  orderly : Orderly true st.thread st .uniqueViolation serveAgent (agentTasks st.run.id requests) x
  answered : ∀ e ∈ x.2, WellAnswered e.2
  -- whoever has got a thread has got the one that is committed or about to be
  found : ∀ e ∈ x.2, ∀ r, threadOf e.2 = some r →
    x.1.state.1.row = some r ∨ ∃ tx, x.1.state.1.lock = some (tx, some r)

theorem threadsKnown_start (st : RunStore Report) (requests : List AgentRequest) :
    ThreadsKnown st requests (startAgent st requests) :=
  ⟨orderly_start _ _ _ _ _ _, fun _ he => (nomatch he), fun _ he => (nomatch he)⟩

theorem harmless_start (st : RunStore Report) (requests : List AgentRequest) :
    Harmless (startAgent st requests) := by
  refine ⟨fun _ he => (nomatch he), fun _ he => (nomatch he), fun _ he => (nomatch he), ?_⟩
  intro task htask hthrow
  have hhonest := agentTasks_honest st.run.id requests task htask
  rw [hthrow] at hhonest
  cases hhonest rfl

/-- The service answers as it should. -/
theorem serve_answered (c : Statement RcaAgentThread (AgentCall Report)) (choice : AgentChoice Report)
    (s : Db RcaAgentThread × RunStore Report) :
    WellAnswered ⟨c, (ReadCommitted.serve .uniqueViolation serveAgent c choice s).1⟩ := by
  obtain ⟨db, st⟩ := s
  cases c with
  | outside call =>
    cases call with
    | newId => exact ⟨_, rfl⟩
    | _ => trivial
  | insert tx row =>
    intro error herror
    cases hversion : db.version tx with
    | none =>
      rw [serve_insert_ok hversion] at herror
      cases herror
    | some r =>
      rw [serve_insert_error hversion] at herror
      exact (Except.error.inj herror).symm
  | delete tx cond =>
    intro error herror
    by_cases hcond : (db.version tx).any cond = true
    · rw [serve_delete_ok hcond] at herror
      cases herror
    · rw [serve_delete_none hcond] at herror
      cases herror
  | _ =>
    intro error herror
    cases herror

/-- Only an `INSERT` that finds the thread meets the index. -/
theorem serve_violates {c : Statement RcaAgentThread (AgentCall Report)} {choice : AgentChoice Report}
    {db : Db RcaAgentThread} {st : RunStore Report}
    (h : violates ⟨c, (ReadCommitted.serve .uniqueViolation serveAgent c choice (db, st)).1⟩ = true) :
    ∃ tx row, c = .insert tx row ∧ (db.version tx).isSome = true := by
  have hfault : ∀ {α σ : Type} (s : σ) (r : α × σ),
      (orFault choice s r).1 ≠ .error .uniqueViolation := by
    intro α σ s r
    unfold orFault
    cases choice.fault <;> simp
  have herror : (ReadCommitted.serve .uniqueViolation serveAgent c choice (db, st)).1 =
      .error .uniqueViolation := by
    unfold violates at h
    split at h
    · assumption
    · cases h
  cases c with
  -- only an insert finds a row in its way
  | insert tx row =>
    cases hversion : db.version tx with
    | none =>
      rw [serve_insert_ok hversion] at herror
      cases herror
    | some r => exact ⟨tx, row, rfl, by rw [hversion]; rfl⟩
  | delete tx cond =>
    by_cases hcond : (db.version tx).any cond = true
    · rw [serve_delete_ok hcond] at herror
      cases herror
    · rw [serve_delete_none hcond] at herror
      cases herror
  | outside call =>
    cases call with
    | publish event => cases herror
    | newId => cases herror
    | _ =>
      simp only [ReadCommitted.serve, serveAgent] at herror
      exact (hfault _ _ herror).elim
  | _ => cases herror

/-- As long as no call has met the index, no program is to blame. -/
theorem unblamed {st : RunStore Report} {requests : List AgentRequest}
    {x : AgentPool Report × AgentTrace Report} (h : ThreadsKnown st requests x) (hx : Harmless x)
    {i : ℕ} {q : AgentRequest} {p : AgentAction Report AgentResponse}
    (hi : x.1.tasks[i]? = some (q, p)) : p.Meets (blame Report) Honest false := by
  obtain ⟨p₀, hp₀, hreach⟩ := h.orderly.recorded.left i q p hi
  have hhonest := agentTasks_honest st.run.id requests _ (List.mem_of_getElem? hp₀)
  have hleft := Prog.Meets.reaches (K := blame Report) (f := fun met e => met || violates e)
    (A := WellAnswered) (fun c met r hanswered => ⟨hanswered, rfl⟩) hhonest hreach
    fun e he => h.answered (i, e) (mem_ownTrace.mp he)
  have hnone : ∀ own : List (AgentExchange Report), (∀ e ∈ own, violates e = false) →
      own.foldl (fun met e => met || violates e) false = false := by
    intro own
    induction own with
    | nil => exact fun _ => rfl
    | cons e own ih =>
      intro hown
      obtain ⟨hfirst, hrest⟩ := List.forall_mem_cons.mp hown
      rw [List.foldl_cons, hfirst]
      exact ih hrest
  rw [hnone _ fun e he => hx.noneRaises (i, e) (mem_ownTrace.mp he)] at hleft
  exact hleft

/-- A statement keeps what is known of the thread, unless it gives a version up. -/
theorem found_step {opens : ℕ → Option (Open RcaAgentThread)} {db : Db RcaAgentThread}
    {st : RunStore Report} {c : Statement RcaAgentThread (AgentCall Report)}
    {choice : AgentChoice Report} {i : ℕ} {trace : AgentTrace Report}
    (hsound : ReadCommitted.Sound true opens db)
    (hpre : (discipline AgentCall.Result AgentError true).pre c (opens i))
    (hroll : ∀ tx, c ≠ .rollback tx) (hfree : c.free (db, st) = true)
    (h : ∀ e ∈ trace, ∀ r, threadOf e.2 = some r →
      db.row = some r ∨ ∃ tx, db.lock = some (tx, some r)) :
    ∀ e ∈ trace ++ [(i, ⟨c, (ReadCommitted.serve .uniqueViolation serveAgent c choice (db, st)).1⟩)],
      ∀ r, threadOf e.2 = some r →
        (ReadCommitted.serve .uniqueViolation serveAgent c choice (db, st)).2.1.row = some r ∨
        ∃ tx, (ReadCommitted.serve .uniqueViolation serveAgent c choice (db, st)).2.1.lock =
          some (tx, some r) := by
  have hlast : ∀ (e : AgentExchange Report) (db' : Db RcaAgentThread),
      (∀ e ∈ trace, ∀ r, threadOf e.2 = some r →
        db'.row = some r ∨ ∃ tx, db'.lock = some (tx, some r)) →
      (∀ r, threadOf e = some r → db'.row = some r ∨ ∃ tx, db'.lock = some (tx, some r)) →
      ∀ f ∈ trace ++ [(i, e)], ∀ r, threadOf f.2 = some r →
        db'.row = some r ∨ ∃ tx, db'.lock = some (tx, some r) := by
    intro e db' hold hnew f hf
    rcases List.mem_append.mp hf with hf | hf
    · exact hold f hf
    · rw [List.mem_singleton] at hf
      exact hf ▸ hnew
  cases c with
  | rollback tx => exact absurd rfl (hroll tx)
  | delete tx cond => cases hpre.1
  | begin => exact hlast _ _ h (by rintro r ⟨⟩)
  | other tx => exact hlast _ _ h (by rintro r ⟨⟩)
  | outside call => exact hlast _ _ h (by rintro r ⟨⟩)
  | select tx =>
    -- the transaction has not written: it sees the committed row
    apply hlast _ _ h
    intro r hr
    left
    have hversion := hsound.version hpre
    rw [show (ReadCommitted.serve .uniqueViolation serveAgent (.select tx) choice (db, st)).1 =
      .ok (db.version tx) from rfl, hversion] at hr
    cases hrow : db.row with
    | none =>
      rw [hrow] at hr
      cases hr
    | some thread =>
      rw [hrow] at hr
      exact hr
  | insert tx row =>
    obtain ⟨-, hopen⟩ := hpre
    have hversion := hsound.version hopen
    cases hrow : db.row with
    | some r =>
      rw [serve_insert_error (hversion.trans hrow)]
      exact hlast _ _ h (by rintro r ⟨⟩)
    | none =>
      -- nobody has got a thread so far
      have hlock := hsound.lock_free hopen (by simpa [Statement.free] using hfree)
      rw [serve_insert_ok (hversion.trans hrow)]
      apply hlast
      · intro e he r hr
        rcases h e he r hr with hfound | ⟨tx', hfound⟩
        · rw [hrow] at hfound
          cases hfound
        · rw [hlock] at hfound
          cases hfound
      · intro r hr
        obtain rfl := Option.some.inj hr
        exact .inr ⟨tx, rfl⟩
  | commit tx =>
    refine hlast ⟨.commit tx, .ok ()⟩ (db.commit tx) ?_ (by rintro r ⟨⟩)
    intro e he r hr
    show (db.commit tx).row = some r ∨ ∃ tx', (db.commit tx).lock = some (tx', some r)
    by_cases hholder : ∃ v, db.lock = some (tx, v)
    · obtain ⟨v, hlock⟩ := hholder
      rw [commit_of_holder hlock]
      left
      rcases h e he r hr with hfound | ⟨tx', hfound⟩
      · have hpresent := (hsound.flips tx v hlock).2
        rw [hfound] at hpresent
        cases hpresent
      · rw [hlock] at hfound
        exact (Prod.mk.inj (Option.some.inj hfound)).2
    · rw [commit_of_other fun v hlock => hholder ⟨v, hlock⟩]
      exact h e he r hr

/-- Whoever has got a thread has got the same one. -/
theorem ThreadsKnown.sameThread {st : RunStore Report} {requests : List AgentRequest}
    {x : AgentPool Report × AgentTrace Report} (h : ThreadsKnown st requests x) :
    ∀ e ∈ x.2, ∀ f ∈ x.2, ∀ r r', threadOf e.2 = some r → threadOf f.2 = some r' → r = r' := by
  have hflips := h.orderly.serial.sound.flips
  intro e he f hf r r' hr hr'
  rcases h.found e he r hr with hrow | ⟨tx, hlock⟩
  · rcases h.found f hf r' hr' with hrow' | ⟨tx', hlock'⟩
    · exact Option.some.inj (hrow.symm.trans hrow')
    · have hpresent := (hflips tx' _ hlock').2
      rw [hrow] at hpresent
      cases hpresent
  · rcases h.found f hf r' hr' with hrow' | ⟨tx', hlock'⟩
    · have hpresent := (hflips tx _ hlock).2
      rw [hrow'] at hpresent
      cases hpresent
    · exact Option.some.inj (Prod.mk.inj (Option.some.inj (hlock.symm.trans hlock'))).2

/-- **One step**, as long as no call has met the index. -/
theorem thread_step {st : RunStore Report} {requests : List AgentRequest}
    {x y : AgentPool Report × AgentTrace Report} {l : ℕ × AgentChoice Report}
    (h : ThreadsKnown st requests x) (hx : Harmless x) (hstep : threadStep x l = some y) :
    ThreadsKnown st requests y ∧ (Harmless y ↔ InsertsFirst x l) := by
  have horderly := h.orderly.step (agentTasks_disciplined st.run.id requests) hstep
  obtain ⟨htraced, hfree⟩ := Pool.guarded_some hstep
  obtain ⟨x, trace⟩ := x
  obtain ⟨y, trace'⟩ := y
  obtain ⟨q, c, k, hq, hstate, htasks, rfl⟩ := Pool.traced_some htraced
  have hpre := h.orderly.pre (agentTasks_disciplined st.run.id requests) hq
  have hblame := unblamed h hx hq
  have hsound := h.orderly.serial.sound
  -- the thread is not given up, because no call has met the index
  have hroll : ∀ tx, c ≠ .rollback tx := by
    rintro tx rfl
    cases hblame.1
  have hknown : ThreadsKnown st requests
      (y, trace ++ [(l.1, ⟨c, (ReadCommitted.serve .uniqueViolation serveAgent c l.2 x.state).1⟩)]) := by
    refine ⟨horderly, ?_, ?_⟩
    · intro e he
      rcases List.mem_append.mp he with he | he
      · exact h.answered e he
      · rw [List.mem_singleton] at he
        exact he ▸ serve_answered c l.2 x.state
    · show ∀ e ∈ _, ∀ r, _ → y.state.1.row = some r ∨ ∃ tx, y.state.1.lock = some (tx, some r)
      rw [hstate]
      exact found_step hsound hpre hroll (hfree q c k hq) h.found
  refine ⟨hknown, ?_⟩
  have hnext : x.next l.1 = some (q, c) := Pool.next_some.mpr ⟨k, hq⟩
  constructor
  · -- the insertion of a thread that is there meets the index
    intro hy
    unfold InsertsFirst
    rw [hnext]
    cases c with
    | insert tx row =>
      show x.state.1.row = none
      cases hrow : x.state.1.row with
      | none => rfl
      | some r =>
        have hnone := hy.noneRaises _ (List.mem_append_right _ (List.mem_singleton.mpr rfl))
        rw [show ReadCommitted.serve .uniqueViolation serveAgent (.insert tx row) l.2 x.state = _ from
          serve_insert_error ((hsound.version hpre.2).trans hrow)] at hnone
        cases hnone
    | _ => trivial
  · intro hfirst
    have hmeets :
        violates ⟨c, (ReadCommitted.serve .uniqueViolation serveAgent c l.2 x.state).1⟩ = false := by
      rw [Bool.eq_false_iff]
      intro hviolates
      obtain ⟨tx, row, rfl, hsome⟩ := serve_violates hviolates
      rw [hsound.version hpre.2] at hsome
      unfold InsertsFirst at hfirst
      rw [hnext] at hfirst
      rw [show x.state.1.row = none from hfirst] at hsome
      cases hsome
    refine ⟨?_, hknown.sameThread, ?_, ?_⟩
    · intro e he
      rcases List.mem_append.mp he with he | he
      · exact hx.noneRaises e he
      · rw [List.mem_singleton] at he
        exact he ▸ hmeets
    · intro e he
      rcases List.mem_append.mp he with he | he
      · exact hx.runs e he
      · rw [List.mem_singleton] at he
        subst he
        rintro rfl
        cases hblame.1
    · intro task htask hthrow
      rw [htasks] at htask
      rcases List.mem_or_eq_of_mem_set htask with htask | rfl
      · exact hx.tasks task htask hthrow
      · -- the program that moves has not got the error
        have hleft := hblame.2 _ _ ⟨serve_answered c l.2 x.state, rfl⟩
        rw [hmeets, show k _ = Prog.throw .uniqueViolation from hthrow] at hleft
        cases hleft rfl

/-- **Thread creation.**  In a run of any tasks and chat requests of an RCA run,
no call of `get_or_create_thread` raises, all get one thread, and no task fails
the run for it, in any state, exactly if every thread is inserted while none is
committed. -/
theorem thread_creation_harmless_iff {st : RunStore Report} {requests : List AgentRequest}
    {ls : List (ℕ × AgentChoice Report)} {x : AgentPool Report × AgentTrace Report}
    (hrun : exec threadStep (startAgent st requests) ls = some x) :
    Along threadStep InsertsFirst (startAgent st requests) ls ↔
      Always threadStep Harmless (startAgent st requests) ls := by
  apply along_iff_always (J := ThreadsKnown st requests) _ (threadsKnown_start st requests)
    (harmless_start st requests) hrun
  exact fun x l y hknown hx hstep => thread_step hknown hx hstep

/-- A pending run without a thread. -/
def runWithoutThread : RunStore String :=
  ⟨⟨"run-a", .pending, none, none, none, none⟩, [], none⟩

/-- The next call of request `i`. -/
def agentTurn (i : ℕ) : ℕ × AgentChoice String :=
  (i, ⟨none, 1, true, if i = 0 then "rca_thread_0" else "rca_thread_1", "report", "answer", []⟩)

/-- A task, and then a request for the chat. -/
def oneAfterTheOther : List (ℕ × AgentChoice String) :=
  (List.replicate 12 0 ++ List.replicate 7 1).map agentTurn

/-- Both get the thread that the task has inserted. -/
theorem threads_one_after_the_other :
    Always threadStep Harmless (startAgent runWithoutThread [.runRca, .listChat]) oneAfterTheOther := by
  obtain ⟨x, hrun⟩ := Option.isSome_iff_exists.mp
    (show (exec threadStep (startAgent runWithoutThread [.runRca, .listChat]) oneAfterTheOther).isSome = true
      by decide)
  exact (thread_creation_harmless_iff hrun).mp (by decide)

/-- A task claims the run and finds no thread; a user who opens the chat inserts
one; the insertion of the task fails. -/
def racingChat : List (ℕ × AgentChoice String) :=
  ([0, 0, 1] ++ List.replicate 5 0 ++ List.replicate 7 1 ++ [0, 0, 0]).map agentTurn

/-- The run that was claimed is marked as failed. -/
theorem racing_chat_fails_run :
    ∃ x, exec threadStep (startAgent runWithoutThread [.runRca, .listChat]) racingChat = some x ∧
      x.1.state.2.run.status = .failed ∧ ¬ Harmless x := by
  obtain ⟨x, hrun, hx⟩ := (Option.any_eq_true ..).mp
    (show (exec threadStep (startAgent runWithoutThread [.runRca, .listChat]) racingChat).any (fun x =>
      decide (x.1.state.2.run.status = .failed) && x.2.any fun e => violates e.2) = true by decide)
  obtain ⟨hfailed, hviolates⟩ := Bool.and_eq_true_iff.mp hx
  obtain ⟨e, he, hmet⟩ := List.any_eq_true.mp hviolates
  refine ⟨x, hrun, of_decide_eq_true hfailed, fun hharmless => ?_⟩
  rw [hharmless.noneRaises e he] at hmet
  cases hmet

end NexCause
