/-
NexCause/ChatTranscripts.lean

The chats about RCA runs: `chat` and `list_chat` of the agent service
(`main.py`), with the methods of its repository (`db.py`), for any runs of any
workspaces.

A repository method is one transaction, so it is one call.  A call may fail
before its transaction, or after it has committed; a `ChatError` says which,
though no program looks.  `get_or_create_thread` is one call too: what its two
statements do in a race is a failure.

Main result: in any interleaving, each thread is the questions and answers of
the chats of its own run, each question before its answer, complete for each
chat that has returned; and a listing is its thread at that time
(`transcripts_kept`).
-/
import Mathlib
import NexCause.ServiceTokens
import NexCause.Traces

namespace NexCause

open Program Transition

/-! ### The store -/

/-- An `RcaRun` row with its incident, as `get_run` returns it. -/
structure ChatRun (Report : Type) where
  workspaceId : String
  id : String
  incidentId : String
  result : Option Report
  deriving DecidableEq, Repr

/-- An `RcaAgentThread` row. -/
structure ChatThread where
  id : String
  workspaceId : String
  rcaRunId : String
  deriving DecidableEq, Repr

/-- An `RcaChatMessage` row; its metadata is always the empty object. -/
structure ChatMessage where
  id : String
  workspaceId : String
  threadId : String
  role : String
  content : String
  createdAt : ℕ
  deriving DecidableEq, Repr

structure ChatStore (Report : Type) where
  runs : List (ChatRun Report)
  threads : List ChatThread
  messages : List ChatMessage

/-- `ORDER BY "createdAt" ASC`, which leaves the order of equal times open. -/
structure CreationOrder where
  order : List ChatMessage → List ChatMessage
  perm : ∀ rows, (order rows).Perm rows
  sorted : ∀ rows, (order rows).Pairwise fun a b => a.createdAt ≤ b.createdAt

/-! ### Calls -/

inductive ChatError
  | http (error : HttpError)
  | failed (committed : Bool) (message : String)
  deriving DecidableEq, Repr

inductive ChatCall (Report : Type)
  | getRun (workspaceId runId : String)
  | getOrCreateThread (workspaceId runId : String)
  | addChatMessage (workspaceId threadId role content : String)
  /-- `answer_chat` -/
  | answerChat (report : Option Report) (message : String)
  | listChatMessages (workspaceId threadId : String)
  /-- what other code does to the runs -/
  | writeRuns (write : List (ChatRun Report) → List (ChatRun Report))

abbrev ChatCall.Result {Report : Type} : ChatCall Report → Type
  | .getRun _ _ => Option (ChatRun Report)
  | .getOrCreateThread _ _ => String
  | .addChatMessage _ _ _ _ => Unit
  | .answerChat _ _ => String
  | .listChatMessages _ _ => List ChatMessage
  | .writeRuns _ => Unit

variable {Report : Type}

abbrev ChatProg (Report α : Type) : Type :=
  Prog (ChatCall Report) ChatCall.Result ChatError α

abbrev ChatExchange (Report : Type) : Type :=
  Exchange (ChatCall Report) ChatCall.Result ChatError

/-- One call. -/
def askChat (c : ChatCall Report) : ChatProg Report c.Result := Prog.perform c

/-! ### The endpoints -/

structure ChatReply where
  runId : String
  message : String
  deriving DecidableEq, Repr

namespace RcaAgent

/-- `verify_internal_token`, then `require_scope` with a run. -/
def chatScope (secret : String) (now : ℤ) (header : AuthorizationHeader) (runId : String) :
    Except HttpError String := do
  let claims ← verifyInternalToken secret now header "rca-agent"
  requireScope claims "" runId ""

/-- The run of a request, with its workspace. -/
def chatRun (secret : String) (now : ℤ) (header : AuthorizationHeader) (runId : String) :
    ChatProg Report (String × ChatRun Report) := do
  let workspaceId ← Prog.ofExcept ((chatScope secret now header runId).mapError .http)
  let run : Option (ChatRun Report) ← askChat (.getRun workspaceId runId)
  match run with
  | none => throw (.http ⟨404, "RCA run was not found"⟩)
  | some run => return (workspaceId, run)

/-- `chat` -/
def chat (secret : String) (now : ℤ) (header : AuthorizationHeader) (runId message : String) :
    ChatProg Report ChatReply := do
  let (workspaceId, run) ← chatRun secret now header runId
  let threadId : String ← askChat (.getOrCreateThread workspaceId runId)
  askChat (.addChatMessage workspaceId threadId "user" message)
  let answer : String ← askChat (.answerChat run.result message)
  askChat (.addChatMessage workspaceId threadId "assistant" answer)
  return ⟨runId, answer⟩

/-- `list_chat` -/
def listChat (secret : String) (now : ℤ) (header : AuthorizationHeader) (runId : String) :
    ChatProg Report (List ChatMessage) := do
  let (workspaceId, _) ← chatRun secret now header runId
  let threadId : String ← askChat (.getOrCreateThread workspaceId runId)
  askChat (.listChatMessages workspaceId threadId)

end RcaAgent

/-- A request, or other code that writes runs. -/
inductive ChatRequest (Report : Type)
  | chat (now : ℤ) (header : AuthorizationHeader) (runId message : String)
  | list (now : ℤ) (header : AuthorizationHeader) (runId : String)
  | other (write : List (ChatRun Report) → List (ChatRun Report))

inductive ChatResponse
  | reply (reply : ChatReply)
  | messages (rows : List ChatMessage)
  | written
  deriving DecidableEq, Repr

def ChatRequest.program (secret : String) : ChatRequest Report → ChatProg Report ChatResponse
  | .chat now header runId message => do
      return .reply (← RcaAgent.chat secret now header runId message)
  | .list now header runId => do
      return .messages (← RcaAgent.listChat secret now header runId)
  | .other write => do
      askChat (.writeRuns write)
      return .written

/-! ### The service -/

/-- What the environment chooses at a call: whether it fails, after its transaction or before, and
what it finds. -/
structure ChatChoice where
  fault : Option (Bool × String)
  now : ℕ
  /-- `new_id` -/
  id : String
  /-- what the model answers -/
  text : String
  order : CreationOrder

/-- A transaction that fails when the environment says so. -/
def chatTransaction {α σ : Type} (x : ChatChoice) (s : σ) (r : Except String (α × σ)) :
    Except ChatError α × σ :=
  match r, x.fault with
  | .error message, _ => (.error (.failed false message), s)
  | .ok _, some (false, message) => (.error (.failed false message), s)
  | .ok r, some (true, message) => (.error (.failed true message), r.2)
  | .ok r, none => (.ok r.1, r.2)

/-- `get_or_create_thread`; a run has one thread, in whatever workspace. -/
def ChatStore.getOrCreateThread (workspaceId runId newId : String) (st : ChatStore Report) :
    Except String (String × ChatStore Report) :=
  match st.threads.find? fun t => t.rcaRunId = runId ∧ t.workspaceId = workspaceId with
  | some thread => .ok (thread.id, st)
  | none =>
      if st.threads.any fun t => t.rcaRunId = runId ∨ t.id = newId then
        .error "duplicate key value violates unique constraint"
      else .ok (newId, { st with threads := st.threads ++ [⟨newId, workspaceId, runId⟩] })

/-- `add_chat_message` -/
def ChatStore.addChatMessage (workspaceId threadId role content newId : String) (now : ℕ)
    (st : ChatStore Report) : Except String (Unit × ChatStore Report) :=
  if ¬ st.threads.any fun t => t.id = threadId ∧ t.workspaceId = workspaceId then
    .error "violates foreign key constraint"
  else if st.messages.any fun m => m.id = newId then
    .error "duplicate key value violates unique constraint"
  else .ok ((), { st with
    messages := st.messages ++ [⟨newId, workspaceId, threadId, role, content, now⟩] })

/-- The rows of `list_chat_messages`. -/
def ChatStore.threadMessages (workspaceId threadId : String) (st : ChatStore Report) :
    List ChatMessage :=
  st.messages.filter fun m => m.threadId = threadId ∧ m.workspaceId = workspaceId

/-- What a call does when it does not fail. -/
def ChatStore.effect (x : ChatChoice) (st : ChatStore Report) :
    (c : ChatCall Report) → Except String (c.Result × ChatStore Report)
  | .getRun workspaceId runId =>
      .ok (st.runs.find? fun r => r.id = runId ∧ r.workspaceId = workspaceId, st)
  | .getOrCreateThread workspaceId runId => st.getOrCreateThread workspaceId runId x.id
  | .addChatMessage workspaceId threadId role content =>
      st.addChatMessage workspaceId threadId role content x.id x.now
  | .answerChat _ _ => .ok (x.text, st)
  | .listChatMessages workspaceId threadId =>
      .ok (x.order.order (st.threadMessages workspaceId threadId), st)
  | .writeRuns write => .ok ((), { st with runs := write st.runs })

def serveChat : Service (ChatCall Report) ChatCall.Result ChatError ChatChoice (ChatStore Report) :=
  fun c x st => chatTransaction x st (st.effect x c)

abbrev ChatPool (Report : Type) : Type :=
  Pool (ChatRequest Report) (ChatCall Report) ChatCall.Result ChatError ChatResponse
    (ChatStore Report)

abbrev ChatTrace (Report : Type) : Type := List (ℕ × ChatExchange Report)

def chatTasks (secret : String) (requests : List (ChatRequest Report)) :
    List (ChatRequest Report × ChatProg Report ChatResponse) :=
  requests.map fun q => (q, q.program secret)

/-! ### What is said -/

/-- A message without its id and its time. -/
structure Said where
  workspaceId : String
  threadId : String
  role : String
  content : String
  deriving DecidableEq, Repr

def ChatMessage.said (m : ChatMessage) : Said := ⟨m.workspaceId, m.threadId, m.role, m.content⟩

/-- The message that a call has left. -/
def saidBy : ChatExchange Report → Option Said
  | ⟨.addChatMessage workspaceId threadId role content, .ok _⟩ =>
      some ⟨workspaceId, threadId, role, content⟩
  | ⟨.addChatMessage workspaceId threadId role content, .error (.failed true _)⟩ =>
      some ⟨workspaceId, threadId, role, content⟩
  | _ => none

/-- The thread that a call has got. -/
def threadGot : ChatExchange Report → Option ChatThread
  | ⟨.getOrCreateThread workspaceId runId, .ok threadId⟩ => some ⟨threadId, workspaceId, runId⟩
  | _ => none

/-! ### What a call leaves -/

section Calls

variable {x : ChatChoice} {st : ChatStore Report}

/-- A transaction takes effect, whatever its caller hears, or it does not, and its caller hears
that it has failed. -/
theorem chatTransaction_cases {α σ : Type} (x : ChatChoice) (s : σ) (r : Except String (α × σ)) :
    (∃ a t, r = .ok (a, t) ∧ ((chatTransaction x s r) = (.ok a, t) ∨
      ∃ message, chatTransaction x s r = (.error (.failed true message), t))) ∨
    ∃ message, chatTransaction x s r = (.error (.failed false message), s) := by
  cases r with
  | error message => exact .inr ⟨message, rfl⟩
  | ok r =>
    unfold chatTransaction
    rcases hfault : x.fault with - | ⟨committed, message⟩
    · exact .inl ⟨r.1, r.2, rfl, .inl rfl⟩
    · cases committed with
      | false => exact .inr ⟨message, rfl⟩
      | true => exact .inl ⟨r.1, r.2, rfl, .inr ⟨message, rfl⟩⟩

/-- A thread that is returned was there, or is the only one of its run. -/
theorem getOrCreateThread_ok {workspaceId runId newId threadId : String} {t : ChatStore Report}
    (h : st.getOrCreateThread workspaceId runId newId = .ok (threadId, t)) :
    (t = st ∧ ⟨threadId, workspaceId, runId⟩ ∈ st.threads) ∨
    (t = { st with threads := st.threads ++ [⟨threadId, workspaceId, runId⟩] } ∧
      ∀ thread ∈ st.threads, thread.rcaRunId ≠ runId ∧ thread.id ≠ threadId) := by
  unfold ChatStore.getOrCreateThread at h
  split at h
  · rename_i thread hfind
    obtain ⟨rfl, rfl⟩ := Prod.mk.inj (Except.ok.inj h)
    have hthread := List.find?_some hfind
    simp only [decide_eq_true_eq] at hthread
    obtain ⟨rfl, rfl⟩ := hthread
    exact .inl ⟨rfl, List.mem_of_find?_eq_some hfind⟩
  · split at h
    · cases h
    · rename_i hnone
      obtain ⟨rfl, rfl⟩ := Prod.mk.inj (Except.ok.inj h)
      refine .inr ⟨rfl, fun thread hthread => ?_⟩
      have hnot := fun hboth => hnone (List.any_eq_true.mpr ⟨thread, hthread, hboth⟩)
      simpa using hnot

/-- A message that is added stands at the end. -/
theorem addChatMessage_ok {workspaceId threadId role content newId : String} {now : ℕ}
    {a : Unit} {t : ChatStore Report}
    (h : st.addChatMessage workspaceId threadId role content newId now = .ok (a, t)) :
    t = { st with messages :=
      st.messages ++ [⟨newId, workspaceId, threadId, role, content, now⟩] } := by
  unfold ChatStore.addChatMessage at h
  split at h
  · cases h
  · split at h
    · cases h
    · exact (Prod.mk.inj (Except.ok.inj h)).2.symm

/-- What a method leaves: its message if it writes one, its thread if it gets one. -/
structure Left (st t : ChatStore Report) (said : Option Said) (got : Option ChatThread) : Prop where
  messages : ∃ new, t.messages = st.messages ++ new ∧ new.map ChatMessage.said = said.toList
  threads : t.threads = st.threads ∨ ∃ thread, t.threads = st.threads ++ [thread] ∧
    ∀ thread' ∈ st.threads, thread'.rcaRunId ≠ thread.rcaRunId ∧ thread'.id ≠ thread.id
  got : ∀ thread ∈ got, thread ∈ t.threads

theorem left_self (st : ChatStore Report) : Left st st none none :=
  ⟨⟨[], (List.append_nil _).symm, rfl⟩, .inl rfl, by simp⟩

/-- Each call that takes effect leaves the store as `Left` says. -/
theorem effect_left {c : ChatCall Report} {a : c.Result} {t : ChatStore Report}
    (h : st.effect x c = .ok (a, t)) : Left st t (saidBy ⟨c, .ok a⟩) (threadGot ⟨c, .ok a⟩) := by
  cases c with
  | addChatMessage workspaceId threadId role content =>
    obtain rfl := addChatMessage_ok h
    exact ⟨⟨_, rfl, rfl⟩, .inl rfl, by simp [threadGot]⟩
  | getOrCreateThread workspaceId runId =>
    rcases getOrCreateThread_ok h with ⟨rfl, hmem⟩ | ⟨rfl, hnew⟩
    · exact ⟨⟨[], (List.append_nil _).symm, rfl⟩, .inl rfl, by simpa [threadGot] using hmem⟩
    · exact ⟨⟨[], (List.append_nil _).symm, rfl⟩, .inr ⟨_, rfl, hnew⟩, by simp [threadGot]⟩
  | getRun workspaceId runId =>
    obtain ⟨-, rfl⟩ := Prod.mk.inj (Except.ok.inj h)
    exact left_self _
  | answerChat report message =>
    obtain ⟨-, rfl⟩ := Prod.mk.inj (Except.ok.inj h)
    exact left_self _
  | listChatMessages workspaceId threadId =>
    obtain ⟨-, rfl⟩ := Prod.mk.inj (Except.ok.inj h)
    exact left_self _
  | writeRuns write =>
    obtain ⟨-, rfl⟩ := Prod.mk.inj (Except.ok.inj h)
    exact ⟨⟨[], (List.append_nil _).symm, rfl⟩, .inl rfl, by simp [threadGot]⟩

/-- A lost answer leaves the same message. -/
theorem saidBy_lost (c : ChatCall Report) (a : c.Result) (message : String) :
    saidBy ⟨c, .error (.failed true message)⟩ = saidBy ⟨c, .ok a⟩ := by
  cases c <;> rfl

/-- A call that was refused said nothing. -/
theorem saidBy_refused (c : ChatCall Report) (message : String) :
    saidBy ⟨c, .error (.failed false message)⟩ = none := by
  cases c <;> rfl

theorem threadGot_error (c : ChatCall Report) (e : ChatError) :
    threadGot ⟨c, .error e⟩ = none := by
  cases c <;> rfl

/-- **One call** leaves what its answer says. -/
theorem serveChat_left (c : ChatCall Report) (x : ChatChoice) (st : ChatStore Report) :
    Left st (serveChat c x st).2 (saidBy ⟨c, (serveChat c x st).1⟩)
      (threadGot ⟨c, (serveChat c x st).1⟩) := by
  unfold serveChat
  rcases chatTransaction_cases x st (st.effect x c) with
    ⟨a, t, hok, heq | ⟨message, heq⟩⟩ | ⟨message, heq⟩
  · rw [heq]
    exact effect_left hok
  · rw [heq, saidBy_lost c a, threadGot_error]
    obtain ⟨hmessages, hthreads, -⟩ := effect_left hok
    exact ⟨hmessages, hthreads, by simp⟩
  · rw [heq, saidBy_refused, threadGot_error]
    exact left_self st

end Calls

/-! ### The table -/

/-- A run has one thread, and a thread one id. -/
def ChatStore.Distinct (st : ChatStore Report) : Prop :=
  st.threads.Pairwise fun a b => a.rcaRunId ≠ b.rcaRunId ∧ a.id ≠ b.id

/-- What the record says of the store. -/
structure KeptBy (st : ChatStore Report) (trace : ChatTrace Report) (t : ChatStore Report) : Prop where
  messages : ∃ new, t.messages = st.messages ++ new ∧
    new.map ChatMessage.said = trace.filterMap fun e => saidBy e.2
  threads : st.threads <+: t.threads
  got : ∀ e ∈ trace, ∀ thread ∈ threadGot e.2, thread ∈ t.threads
  distinct : t.Distinct

/-- By induction on the trace, the store is what the calls have left. -/
theorem kept_of_replays {st t : ChatStore Report} {trace : ChatTrace Report} (hst : st.Distinct)
    (h : Replays serveChat st trace t) : KeptBy st trace t := by
  induction h with
  | start => exact ⟨⟨[], (List.append_nil _).symm, rfl⟩, List.prefix_rfl, by simp, hst⟩
  -- one call more: it adds its message behind the others, and a thread at most
  | @next trace u i c x h ih =>
    obtain ⟨⟨new, hnew, hsaid⟩, hthreads, hgot, hdistinct⟩ := ih
    obtain ⟨⟨more, hmore, hmoreSaid⟩, hcall, hcallGot⟩ := serveChat_left c x u
    have hgrow : u.threads <+: (serveChat c x u).2.threads := by
      rcases hcall with heq | ⟨thread, heq, -⟩
      · rw [heq]
      · rw [heq]
        exact List.prefix_append _ _
    refine ⟨⟨new ++ more, ?_, ?_⟩, hthreads.trans hgrow, fun e he thread hthread => ?_, ?_⟩
    · rw [hmore, hnew, List.append_assoc]
    · rw [List.map_append, hsaid, hmoreSaid, List.filterMap_append]
      congr 1
    · rcases List.mem_append.mp he with he | he
      · exact hgrow.subset (hgot e he thread hthread)
      · obtain rfl := List.mem_singleton.mp he
        exact hcallGot thread hthread
    · unfold ChatStore.Distinct
      -- a new thread is the only one of its run
      rcases hcall with heq | ⟨thread, heq, hfresh⟩
      · rw [heq]
        exact hdistinct
      · rw [heq, List.pairwise_append]
        refine ⟨hdistinct, List.pairwise_singleton _ _, fun a ha b hb => ?_⟩
        obtain rfl := List.mem_singleton.mp hb
        exact hfresh a ha

/-! ### The requests -/

/-- The messages that a request has left, in order. -/
def saidIn (own : List (ChatExchange Report)) : List Said := own.filterMap saidBy

def question (thread : ChatThread) (message : String) : Said :=
  ⟨thread.workspaceId, thread.id, "user", message⟩

def answer (thread : ChatThread) (message : String) : Said :=
  ⟨thread.workspaceId, thread.id, "assistant", message⟩

/-- A thread of the run that a request names, in the workspace of its token. -/
def Addresses (secret : String) (now : ℤ) (header : AuthorizationHeader) (runId : String)
    (thread : ChatThread) : Prop :=
  thread.rcaRunId = runId ∧ RcaAgent.chatScope secret now header runId = .ok thread.workspaceId

/-- How far a request has come: it has left nothing, its question, or both. -/
def Asked (P : ChatThread → Prop) (message : String) (said : List Said) : Prop :=
  said = [] ∨ ∃ thread, P thread ∧ (said = [question thread message] ∨
    ∃ text, said = [question thread message, answer thread text])

/-- A request may not go on with messages beyond `I`, and gets threads of `T`. -/
def chatContract (Report : Type) (T : ChatThread → Prop) (I : List Said → Prop) :
    Prog.Contract (ChatCall Report) ChatCall.Result ChatError (List Said) where
  pre _ said := I said
  post c said r said' :=
    said' = said ++ (saidBy ⟨c, r⟩).toList ∧ ∀ thread ∈ threadGot ⟨c, r⟩, T thread

section Requests

variable {T : ChatThread → Prop} {secret : String} {now : ℤ} {header : AuthorizationHeader}
  {runId message : String}

/-- A message that could not be written may have been written. -/
theorem saidBy_error (Report : Type) (workspaceId threadId role content : String) (e : ChatError) :
    saidBy (⟨.addChatMessage workspaceId threadId role content, .error e⟩ : ChatExchange Report) =
        none ∨
      saidBy (⟨.addChatMessage workspaceId threadId role content, .error e⟩ : ChatExchange Report) =
        some ⟨workspaceId, threadId, role, content⟩ := by
  cases e with
  | http error => exact .inl rfl
  | failed committed message =>
    cases committed with
    | false => exact .inl rfl
    | true => exact .inr rfl

/-- A request begins with its run, or fails. -/
theorem chatRun_meets {α : Type} {I : List Said → Prop} {Q : Except ChatError α → List Said → Prop}
    {f : String × ChatRun Report → ChatProg Report α} (hI : I [])
    (hQ : ∀ e, Q (.error e) [])
    (hf : ∀ workspaceId run, RcaAgent.chatScope secret now header runId = .ok workspaceId →
      (f (workspaceId, run)).Meets (chatContract Report T I) Q []) :
    (RcaAgent.chatRun secret now header runId >>= f).Meets (chatContract Report T I) Q [] := by
  unfold RcaAgent.chatRun
  cases hscope : RcaAgent.chatScope secret now header runId with
  | error e => exact hQ _
  | ok workspaceId =>
    refine ⟨hI, ?_⟩
    rintro (e | run) _ ⟨rfl, -⟩
    · exact hQ e
    · cases run with
      | none => exact hQ _
      | some run => exact hf workspaceId run hscope

theorem chat_meets :
    (RcaAgent.chat secret now header runId message : ChatProg Report ChatReply).Meets
      (chatContract Report T (Asked (fun t => T t ∧ Addresses secret now header runId t) message))
      (fun r said => Asked (fun t => T t ∧ Addresses secret now header runId t) message said ∧
        ∀ reply, r = .ok reply → reply.runId = runId ∧ ∃ thread, T thread ∧
          Addresses secret now header runId thread ∧
          said = [question thread message, answer thread reply.message]) [] := by
  apply chatRun_meets
  · exact .inl rfl
  · exact fun e => ⟨.inl rfl, by simp⟩
  · intro workspaceId run hscope
    refine ⟨.inl rfl, ?_⟩
    rintro (e | threadId) _ ⟨rfl, hgot⟩
    · exact ⟨.inl rfl, by simp⟩
    have hthread : T ⟨threadId, workspaceId, runId⟩ := hgot _ rfl
    have haddress : Addresses secret now header runId ⟨threadId, workspaceId, runId⟩ :=
      ⟨rfl, hscope⟩
    -- the question
    refine ⟨.inl rfl, ?_⟩
    have hasked : ∀ said, said = [] ∨ said = [question ⟨threadId, workspaceId, runId⟩ message] →
        Asked (fun t => T t ∧ Addresses secret now header runId t) message said := by
      rintro said (rfl | rfl)
      · exact .inl rfl
      · exact .inr ⟨_, ⟨hthread, haddress⟩, .inl rfl⟩
    rintro (e | ⟨⟩) _ ⟨rfl, -⟩
    · refine ⟨hasked _ ?_, by simp⟩
      rcases saidBy_error Report workspaceId threadId "user" message e with h | h
      · exact .inl (by rw [h]; rfl)
      · exact .inr (by rw [h]; rfl)
    have hquestion := hasked _ (.inr rfl)
    refine ⟨hquestion, ?_⟩
    rintro (e | text) _ ⟨rfl, -⟩
    · exact ⟨hquestion, by simp⟩
    -- the answer
    refine ⟨hquestion, ?_⟩
    have hanswered : Asked (fun t => T t ∧ Addresses secret now header runId t) message
        [question ⟨threadId, workspaceId, runId⟩ message,
          answer ⟨threadId, workspaceId, runId⟩ text] :=
      .inr ⟨_, ⟨hthread, haddress⟩, .inr ⟨text, rfl⟩⟩
    rintro (e | ⟨⟩) _ ⟨rfl, -⟩
    · refine ⟨?_, by simp⟩
      rcases saidBy_error Report workspaceId threadId "assistant" text e with h | h
      · rw [h]
        exact hquestion
      · rw [h]
        exact hanswered
    · refine ⟨hanswered, ?_⟩
      rintro reply ⟨⟩
      exact ⟨rfl, _, hthread, haddress, rfl⟩

/-- Where a request has come to, by its part of the record. -/
theorem meets_of_reaches {α : Type} {I : List Said → Prop}
    {Q : Except ChatError α → List Said → Prop} {p q : ChatProg Report α}
    {own : List (ChatExchange Report)} (hp : p.Meets (chatContract Report T I) Q [])
    (h : p.Reaches own q) (hown : ∀ e ∈ own, ∀ thread ∈ threadGot e, T thread) :
    q.Meets (chatContract Report T I) Q (saidIn own) := by
  have hfold : ∀ (own : List (ChatExchange Report)) (said : List Said),
      own.foldl (fun said e => said ++ (saidBy e).toList) said = said ++ saidIn own := by
    intro own
    induction own with
    | nil => exact fun said => (List.append_nil said).symm
    | cons e own ih =>
      intro said
      rw [List.foldl_cons, ih, List.append_assoc]
      unfold saidIn
      rw [List.filterMap_cons]
      cases saidBy e <;> rfl
  have hfollow : ∀ c said r, (∀ thread ∈ threadGot (⟨c, r⟩ : ChatExchange Report), T thread) →
      (chatContract Report T I).post c said r (said ++ (saidBy ⟨c, r⟩).toList) :=
    fun c said r hgot => ⟨rfl, hgot⟩
  have hreached := hp.reaches (A := fun e => ∀ thread ∈ threadGot e, T thread)
    (f := fun said e => said ++ (saidBy e).toList) hfollow h hown
  rwa [hfold, List.nil_append] at hreached

/-- What holds of the messages at every call and in the end holds all along. -/
theorem invariant_of_meets {α : Type} {I : List Said → Prop}
    {Q : Except ChatError α → List Said → Prop} {p : ChatProg Report α} {said : List Said}
    (hp : p.Meets (chatContract Report T I) Q said) (hQ : ∀ r said, Q r said → I said) : I said := by
  cases p with
  | ret a => exact hQ _ _ hp
  | throw e => exact hQ _ _ hp
  | call c k => exact hp.1

/-- A request that writes nothing. -/
def ChatCall.isQuiet : ChatCall Report → Bool
  | .addChatMessage _ _ _ _ => false
  | _ => true

theorem saidBy_quiet {c : ChatCall Report} (h : c.isQuiet = true) (r : Except ChatError c.Result) :
    saidBy ⟨c, r⟩ = none := by
  cases c with
  | addChatMessage workspaceId threadId role content => cases h
  | _ => rfl

theorem meets_of_quiet {α : Type} {p : ChatProg Report α} (hp : p.Calls (·.isQuiet = true)) :
    p.Meets (chatContract Report T fun said => said = []) (fun _ said => said = []) [] := by
  refine hp.keeps (I := fun said => said = []) ?_ rfl
  rintro c said hc rfl
  refine ⟨rfl, ?_⟩
  rintro r _ ⟨rfl, -⟩
  rw [saidBy_quiet hc]
  rfl

theorem askChat_quiet {c : ChatCall Report} (h : c.isQuiet = true) :
    (askChat c).Calls (·.isQuiet = true) :=
  Prog.calls_perform.mpr h

theorem listChat_quiet :
    (RcaAgent.listChat secret now header runId : ChatProg Report (List ChatMessage)).Calls
      (·.isQuiet = true) := by
  apply Prog.Calls.bind
  · apply Prog.Calls.bind Prog.calls_ofExcept
    intro workspaceId
    apply Prog.Calls.bind (askChat_quiet rfl)
    intro run
    cases run with
    | none => trivial
    | some run => trivial
  · rintro ⟨workspaceId, run⟩
    apply Prog.Calls.bind (askChat_quiet rfl)
    exact fun threadId => askChat_quiet rfl

end Requests

/-! ### Counting by requests -/

/-- What is counted in the whole is counted request by request. -/
theorem countP_saidIn (P : Said → Bool) (trace : ChatTrace Report) {n : ℕ}
    (h : ∀ e ∈ trace, e.1 < n) :
    (trace.filterMap fun e => saidBy e.2).countP P =
      ∑ i ∈ Finset.range n, (saidIn (ownTrace trace i)).countP P := by
  induction trace with
  | nil => simp [saidIn]
  | cons e trace ih =>
    obtain ⟨he, htrace⟩ := List.forall_mem_cons.mp h
    have hone : ∀ i, (saidIn (ownTrace (e :: trace) i)).countP P =
        (if e.1 = i then (saidBy e.2).toList.countP P else 0) +
          (saidIn (ownTrace trace i)).countP P := by
      intro i
      rw [ownTrace_cons]
      split
      · unfold saidIn
        rw [List.filterMap_cons]
        cases saidBy e.2 with
        | none => simp
        | some said => simp [List.countP_cons, add_comm]
      · rw [zero_add]
    rw [Finset.sum_congr rfl fun i _ => hone i, Finset.sum_add_distrib, ← ih htrace,
      Finset.sum_ite_eq, if_pos (Finset.mem_range.mpr he), List.filterMap_cons]
    cases saidBy e.2 with
    | none => simp
    | some said => simp [List.countP_cons, add_comm]

def Said.isFrom (role threadId : String) (said : Said) : Bool :=
  said.role = role && said.threadId = threadId

/-- A request has left no answer without its question. -/
theorem Asked.countP_le {P : ChatThread → Prop} {message : String} {said : List Said}
    (h : Asked P message said) (threadId : String) :
    said.countP (Said.isFrom "assistant" threadId) ≤ said.countP (Said.isFrom "user" threadId) := by
  rcases h with rfl | ⟨thread, -, rfl | ⟨text, rfl⟩⟩
  · exact le_rfl
  · simp [Said.isFrom, question]
  · simp [Said.isFrom, question, answer, List.countP_cons]

/-! ### The law -/

/-- What is kept of the chats. -/
structure Transcripts (secret : String) (st : ChatStore Report)
    (x : ChatPool Report × ChatTrace Report) : Prop where
  /-- messages are only added, by requests -/
  messages : ∃ new, x.1.state.messages = st.messages ++ new ∧
    new.map ChatMessage.said = x.2.filterMap fun e => saidBy e.2
  distinct : x.1.state.Distinct
  /-- a chat has left its question before its answer, in the thread of its run -/
  asked : ∀ i now header runId message p,
    x.1.tasks[i]? = some (.chat now header runId message, p) →
      Asked (fun t => t ∈ x.1.state.threads ∧ Addresses secret now header runId t) message
        (saidIn (ownTrace x.2 i))
  /-- and both when it has returned -/
  replied : ∀ i now header runId message reply,
    x.1.tasks[i]? = some (.chat now header runId message, .ret (.reply reply)) →
      reply.runId = runId ∧ ∃ thread ∈ x.1.state.threads, Addresses secret now header runId thread ∧
        saidIn (ownTrace x.2 i) = [question thread message, answer thread reply.message]
  /-- nobody else has left anything -/
  quiet : ∀ i q p, x.1.tasks[i]? = some (q, p) →
    (∀ now header runId message, q ≠ .chat now header runId message) →
      saidIn (ownTrace x.2 i) = []
  /-- no thread has more answers than questions -/
  balanced : ∀ threadId, (x.2.filterMap fun e => saidBy e.2).countP (Said.isFrom "assistant" threadId)
    ≤ (x.2.filterMap fun e => saidBy e.2).countP (Said.isFrom "user" threadId)
  /-- a listing is the thread of its run at the time of its call, in order of time -/
  listed : ∀ i now header runId rows,
    x.1.tasks[i]? = some (.list now header runId, .ret (.messages rows)) →
      ∃ before e after earlier, x.2 = before ++ (i, e) :: after ∧
        earlier <+: x.1.state.messages ∧
        earlier.length = st.messages.length + (before.filterMap fun e => saidBy e.2).length ∧
        (rows.Pairwise fun a b => a.createdAt ≤ b.createdAt) ∧
        ∃ thread ∈ x.1.state.threads, Addresses secret now header runId thread ∧
          rows.Perm (earlier.filter fun m =>
            m.threadId = thread.id ∧ m.workspaceId = thread.workspaceId)

section Runs

variable {secret : String} {st : ChatStore Report} {requests : List (ChatRequest Report)}
  {x : ChatPool Report × ChatTrace Report}

/-- A run so far. -/
structure ChatRecord (secret : String) (st : ChatStore Report)
    (requests : List (ChatRequest Report)) (x : ChatPool Report × ChatTrace Report) : Prop where
  recorded : Pool.Recorded serveChat st (chatTasks secret requests) x
  kept : KeptBy st x.2 x.1.state
  length : x.1.tasks.length = requests.length

theorem chatRecord (hst : st.Distinct) {ls : List (ℕ × ChatChoice)}
    (hrun : exec (Pool.traced serveChat) (Pool.start st (chatTasks secret requests), []) ls =
      some x) : ChatRecord secret st requests x := by
  have hrecorded := Pool.traced_sound hrun
  have hplain : (exec (Pool.traced serveChat) (Pool.start st (chatTasks secret requests), []) ls).map
      Prod.fst = exec (Pool.step serveChat) (Pool.start st (chatTasks secret requests)) ls :=
    exec_observed _ _ _ _
  rw [hrun] at hplain
  have hlength := congrArg List.length (Pool.exec_requests hplain.symm)
  refine ⟨hrecorded, kept_of_replays hst hrecorded.replays, ?_⟩
  simpa [Pool.start, chatTasks] using hlength

theorem ChatRecord.program (h : ChatRecord secret st requests x) {i : ℕ} {q : ChatRequest Report}
    {p : ChatProg Report ChatResponse} (hi : x.1.tasks[i]? = some (q, p)) :
    (q.program secret).Reaches (ownTrace x.2 i) p := by
  obtain ⟨p₀, htask, hreach⟩ := h.recorded.left i q p hi
  obtain ⟨q', -, heq⟩ := List.mem_map.mp (List.mem_of_getElem? htask)
  obtain ⟨rfl, rfl⟩ := Prod.mk.inj heq
  exact hreach

theorem ChatRecord.got (h : ChatRecord secret st requests x) (i : ℕ) :
    ∀ e ∈ ownTrace x.2 i, ∀ thread ∈ threadGot e, thread ∈ x.1.state.threads :=
  fun e he thread hthread => h.kept.got (i, e) (mem_ownTrace.mp he) thread hthread

theorem ChatRecord.chat (h : ChatRecord secret st requests x) {i : ℕ} {now : ℤ}
    {header : AuthorizationHeader} {runId message : String} {p : ChatProg Report ChatResponse}
    (hi : x.1.tasks[i]? = some (.chat now header runId message, p)) :
    Asked (fun t => t ∈ x.1.state.threads ∧ Addresses secret now header runId t) message
        (saidIn (ownTrace x.2 i)) ∧
      ∀ reply, p = .ret (.reply reply) → reply.runId = runId ∧ ∃ thread ∈ x.1.state.threads,
        Addresses secret now header runId thread ∧
          saidIn (ownTrace x.2 i) = [question thread message, answer thread reply.message] := by
  have hprogram : (ChatRequest.program secret (.chat now header runId message) :
      ChatProg Report ChatResponse).Meets (chatContract Report (· ∈ x.1.state.threads)
        (Asked (fun t => t ∈ x.1.state.threads ∧ Addresses secret now header runId t) message))
      (fun r said =>
        Asked (fun t => t ∈ x.1.state.threads ∧ Addresses secret now header runId t) message said ∧
        ∀ reply, r = .ok (.reply reply) → reply.runId = runId ∧ ∃ thread ∈ x.1.state.threads,
          Addresses secret now header runId thread ∧
            said = [question thread message, answer thread reply.message]) [] := by
    apply chat_meets.bind
    · rintro reply said ⟨hasked, hreply⟩
      refine ⟨hasked, ?_⟩
      rintro reply' ⟨⟩
      exact hreply reply rfl
    · rintro e said ⟨hasked, -⟩
      exact ⟨hasked, by simp⟩
  have hmeets := meets_of_reaches hprogram (h.program hi) (h.got i)
  refine ⟨invariant_of_meets hmeets fun _ _ hQ => hQ.1, ?_⟩
  rintro reply rfl
  exact hmeets.2 reply rfl

theorem ChatRecord.quiet (h : ChatRecord secret st requests x) {i : ℕ} {q : ChatRequest Report}
    {p : ChatProg Report ChatResponse} (hi : x.1.tasks[i]? = some (q, p))
    (hq : ∀ now header runId message, q ≠ .chat now header runId message) :
    saidIn (ownTrace x.2 i) = [] := by
  have hquiet : (q.program secret).Calls (·.isQuiet = true) := by
    cases q with
    | chat now header runId message => exact absurd rfl (hq now header runId message)
    | list now header runId => exact listChat_quiet.bind fun _ => trivial
    | other write => exact (askChat_quiet rfl).bind fun _ => trivial
  have hmeets := meets_of_reaches (meets_of_quiet hquiet) (h.program hi) (h.got i)
  exact invariant_of_meets (I := fun said => said = []) hmeets fun _ _ hQ => hQ

theorem ChatRecord.balanced (h : ChatRecord secret st requests x) (threadId : String) :
    (x.2.filterMap fun e => saidBy e.2).countP (Said.isFrom "assistant" threadId) ≤
      (x.2.filterMap fun e => saidBy e.2).countP (Said.isFrom "user" threadId) := by
  have hlength : ∀ e ∈ x.2, e.1 < x.1.tasks.length := by
    rintro ⟨i, e⟩ he
    obtain ⟨before, after, htrace⟩ := List.append_of_mem he
    obtain ⟨q, p, k, htask, -⟩ := h.recorded.justified before i e after htrace
    have hlt := (List.getElem?_eq_some_iff.mp htask).1
    rw [h.length]
    simpa [chatTasks] using hlt
  rw [countP_saidIn _ x.2 hlength, countP_saidIn _ x.2 hlength]
  apply Finset.sum_le_sum
  intro i hi
  have hlt := Finset.mem_range.mp hi
  obtain ⟨q, p, hget⟩ : ∃ q p, x.1.tasks[i]? = some (q, p) :=
    ⟨_, _, List.getElem?_eq_getElem hlt⟩
  cases q with
  | chat now header runId message => exact (h.chat hget).1.countP_le threadId
  | list now header runId =>
    rw [h.quiet hget (by simp)]
    exact le_rfl
  | other write =>
    rw [h.quiet hget (by simp)]
    exact le_rfl

/-- What a listing has done when it has returned. -/
theorem listChat_returned {now : ℤ} {header : AuthorizationHeader} {runId : String}
    {own : List (ChatExchange Report)} {rows : List ChatMessage}
    (h : (RcaAgent.listChat secret now header runId : ChatProg Report _).Reaches own (.ret rows)) :
    ∃ workspaceId threadId own₁,
      RcaAgent.chatScope secret now header runId = .ok workspaceId ∧
      own = own₁ ++ [⟨.getOrCreateThread workspaceId runId, .ok threadId⟩,
        ⟨.listChatMessages workspaceId threadId, .ok rows⟩] := by
  obtain ⟨⟨workspaceId, run⟩, own₁, own₂, rfl, hrun, hrest⟩ := Prog.reaches_bind_ret h
  have hscope : RcaAgent.chatScope secret now header runId = .ok workspaceId := by
    unfold RcaAgent.chatRun at hrun
    cases hscope : RcaAgent.chatScope secret now header runId with
    | error e =>
      rw [hscope] at hrun
      cases (Prog.reaches_throw hrun).2
    | ok scope =>
      rw [hscope] at hrun
      obtain ⟨found, rest, -, hfound⟩ := Prog.reaches_perform_ret hrun
      cases found with
      | none => cases (Prog.reaches_throw hfound).2
      | some run' =>
        obtain ⟨rfl, -⟩ := Prod.mk.inj (Prog.ret.inj (Prog.reaches_ret hfound).2)
        rfl
  obtain ⟨threadId, own₃, rfl, hlist⟩ := Prog.reaches_perform_ret hrest
  obtain rfl := Prog.reaches_last hlist
  exact ⟨workspaceId, threadId, own₁, hscope, rfl⟩

theorem ChatRecord.listed (hst : st.Distinct) (h : ChatRecord secret st requests x) {i : ℕ} {now : ℤ}
    {header : AuthorizationHeader} {runId : String} {rows : List ChatMessage}
    (hi : x.1.tasks[i]? = some (.list now header runId, .ret (.messages rows))) :
    ∃ before e after earlier, x.2 = before ++ (i, e) :: after ∧
      earlier <+: x.1.state.messages ∧
      earlier.length = st.messages.length + (before.filterMap fun e => saidBy e.2).length ∧
      (rows.Pairwise fun a b => a.createdAt ≤ b.createdAt) ∧
      ∃ thread ∈ x.1.state.threads, Addresses secret now header runId thread ∧
        rows.Perm (earlier.filter fun m =>
          m.threadId = thread.id ∧ m.workspaceId = thread.workspaceId) := by
  obtain ⟨rows', hreach, heq⟩ := Prog.reaches_map_ret (h.program hi)
  obtain rfl := ChatResponse.messages.inj heq
  obtain ⟨workspaceId, threadId, own₁, hscope, hown⟩ := listChat_returned hreach
  have hthread : (⟨threadId, workspaceId, runId⟩ : ChatThread) ∈ x.1.state.threads :=
    h.got i ⟨.getOrCreateThread workspaceId runId, .ok threadId⟩ (by simp [hown]) _ rfl
  have hsplit : ownTrace x.2 i = (own₁ ++ [⟨.getOrCreateThread workspaceId runId, .ok threadId⟩]) ++
      ⟨.listChatMessages workspaceId threadId, .ok rows⟩ :: [] := by
    rw [hown, List.append_assoc]
    rfl
  obtain ⟨before, after, htrace, -, -⟩ := ownTrace_split hsplit
  -- the store when the rows were read
  have hreplays := h.recorded.replays
  rw [htrace] at hreplays
  obtain ⟨v, hbefore, hlater⟩ := hreplays.split
  obtain ⟨⟨new, hnew, hsaid⟩, -, -, hdistinct⟩ := kept_of_replays hst hbefore
  obtain ⟨⟨more, hmore, -⟩, -⟩ := kept_of_replays hdistinct hlater
  obtain ⟨choice, hrows⟩ : ∃ choice : ChatChoice,
      rows = choice.order.order (v.threadMessages workspaceId threadId) := by
    obtain ⟨v', choice, hstart, hanswer⟩ := Replays.entry (show Replays serveChat v
      ([] ++ (i, ⟨.listChatMessages workspaceId threadId, .ok rows⟩) :: after) x.1.state from hlater)
    obtain rfl := replays_nil hstart
    refine ⟨choice, ?_⟩
    rcases chatTransaction_cases choice v' (v'.effect choice (.listChatMessages workspaceId threadId))
      with ⟨a, t, hok, heq | ⟨message, heq⟩⟩ | ⟨message, heq⟩
    · obtain ⟨rfl, -⟩ := Prod.mk.inj (Except.ok.inj hok)
      unfold serveChat at hanswer
      rw [heq] at hanswer
      exact Except.ok.inj hanswer
    · unfold serveChat at hanswer
      rw [heq] at hanswer
      cases hanswer
    · unfold serveChat at hanswer
      rw [heq] at hanswer
      cases hanswer
  refine ⟨before, _, after, v.messages, htrace, ?_, ?_, ?_, ⟨threadId, workspaceId, runId⟩, hthread,
    ⟨rfl, hscope⟩, ?_⟩
  · rw [hmore]
    exact List.prefix_append _ _
  · rw [hnew, List.length_append, ← hsaid, List.length_map]
  · rw [hrows]
    exact choice.order.sorted _
  · rw [hrows]
    exact choice.order.perm _

/-- **The transcripts are kept.**  In any interleaving of chats, listings and other code, with calls
that fail or whose answers are lost: messages are only added; each chat has left its question, and
then its answer, in the one thread of the run it was authorised for, both when it has returned, and
nobody else has left anything; so no thread has more answers than questions; and a listing is its
thread as it was at the time of its call. -/
theorem transcripts_kept (hst : st.Distinct) {ls : List (ℕ × ChatChoice)}
    (hrun : exec (Pool.traced serveChat) (Pool.start st (chatTasks secret requests), []) ls =
      some x) : Transcripts secret st x := by
  have h := chatRecord hst hrun
  exact {
    messages := h.kept.messages
    distinct := h.kept.distinct
    asked := fun i now header runId message p hi => (h.chat hi).1
    replied := fun i now header runId message reply hi => (h.chat hi).2 reply rfl
    quiet := fun i q p hi hq => h.quiet hi hq
    balanced := h.balanced
    listed := fun i now header runId rows hi => h.listed hst hi }

end Runs

/-- A token for a run. -/
def chatHeader (workspaceId runId : String) : AuthorizationHeader :=
  .bearer (.signed "key" "HS256"
    ⟨some "deployment-manager", ["rca-agent"], some 0, some 120, none, some workspaceId, some runId,
      none⟩)

/-- Rows as they were inserted, when they all have the same time. -/
def insertionOrder : CreationOrder where
  order rows := rows.insertionSort fun a b => a.createdAt ≤ b.createdAt
  perm rows := List.perm_insertionSort _ rows
  sorted rows := by
    have htotal : Std.Total fun a b : ChatMessage => a.createdAt ≤ b.createdAt :=
      ⟨fun a b => le_total _ _⟩
    have htrans : IsTrans ChatMessage fun a b => a.createdAt ≤ b.createdAt := ⟨fun _ _ _ => le_trans⟩
    exact List.pairwise_insertionSort _ rows

def chatTurn (i : ℕ) (id : String) : ℕ × ChatChoice := (i, ⟨none, 7, id, "Out of memory.", insertionOrder⟩)

/-- Two chats and a listing, of which the second chat loses the answer to its last call. -/
def sampleChats : List (ℕ × ChatChoice) :=
  [chatTurn 0 "", chatTurn 1 "", chatTurn 0 "thread", chatTurn 1 "thread-2", chatTurn 1 "m1",
   chatTurn 0 "m2", chatTurn 0 "", chatTurn 0 "m3", chatTurn 2 "", chatTurn 2 "", chatTurn 2 "",
   chatTurn 1 "", (1, ⟨some (true, "connection lost"), 8, "m4", "", insertionOrder⟩)]

def sampleChatStore : ChatStore String := ⟨[⟨"tenant", "run", "incident", none⟩], [], []⟩

def sampleChatRequests : List (ChatRequest String) :=
  [.chat 1 (chatHeader "tenant" "run") "run" "What happened?",
   .chat 1 (chatHeader "tenant" "run") "run" "Since when?",
   .list 1 (chatHeader "tenant" "run") "run"]

theorem sampleChats_kept : ∃ x, exec (Pool.traced serveChat)
      (Pool.start sampleChatStore (chatTasks "key" sampleChatRequests), []) sampleChats = some x ∧
    Transcripts "key" sampleChatStore x := by
  obtain ⟨x, hrun⟩ := Option.isSome_iff_exists.mp
    (show (exec (Pool.traced serveChat)
      (Pool.start sampleChatStore (chatTasks "key" sampleChatRequests), []) sampleChats).isSome = true
      by decide)
  exact ⟨x, hrun, transcripts_kept (by simp [ChatStore.Distinct, sampleChatStore]) hrun⟩

end NexCause
