/-
NexCause/EventBus.lean

The events of RCA runs: `EventBus` of the agent service.

`subscribe` is an asynchronous generator.  It does nothing before it is asked
for its first message; then it registers a queue under its run, and removes it
when it is cancelled while it waits, or closed while its consumer is busy.
`publish` puts its message into the queues that its run has at that moment.
These queues have no limit, so `put` never waits, and between two awaits that
do wait nothing else happens.

`Subscriber.received` is a record: it is what the generator has yielded.

Main result: generators, registered queues and the heap belong together in
every state (`EventBus.Wired.step`), so that `put` and `remove` always succeed.
-/
import Mathlib.Order.Nat
import Mathlib.Logic.Function.Basic
import NexCause.Interleaving

namespace NexCause

open Program Transition

/-! ### Queues -/

/-- `asyncio.Queue[str]` -/
structure MessageQueue where
  maxsize : ℕ
  items : List String
  deriving DecidableEq, Repr

/-- `full`; a size of 0 is no limit. -/
def MessageQueue.full (queue : MessageQueue) : Bool :=
  0 < queue.maxsize && queue.maxsize ≤ queue.items.length

/-- `put`; `none` where it waits for a free slot. -/
def MessageQueue.put (message : String) (queue : MessageQueue) : Option MessageQueue :=
  if queue.full then none else some { queue with items := queue.items ++ [message] }

/-- `get`; `none` where it waits for an item. -/
def MessageQueue.get (queue : MessageQueue) : Option (String × MessageQueue) :=
  match queue.items with
  | [] => none
  | message :: items => some (message, { queue with items })

theorem MessageQueue.put_unbounded {queue : MessageQueue} (h : queue.maxsize = 0) (message : String) :
    queue.put message = some { queue with items := queue.items ++ [message] } := by
  unfold put full
  simp [h]

theorem MessageQueue.get_some {queue queue' : MessageQueue} {message : String}
    (h : queue.get = some (message, queue')) :
    queue.items = message :: queue'.items ∧ queue'.maxsize = queue.maxsize := by
  unfold get at h
  split at h
  · cases h
  · rename_i items hitems
    obtain ⟨rfl, rfl⟩ := Prod.mk.inj (Option.some.inj h)
    exact ⟨hitems, rfl⟩

theorem MessageQueue.get_none {queue : MessageQueue} (h : queue.get = none) : queue.items = [] := by
  unfold get at h
  split at h
  · assumption
  · cases h

/-! ### The bus -/

/-- Where a generator of `subscribe` is; queues are told apart by their place in the heap. -/
inductive Subscription
  /-- it has not been asked for anything -/
  | created
  /-- in `await queue.get()` -/
  | awaiting (queue : ℕ)
  /-- at its `yield` -/
  | yielded (queue : ℕ)
  | finished (queue : Option ℕ)
  deriving DecidableEq, Repr

/-- The queue that it has made. -/
def Subscription.queue : Subscription → Option ℕ
  | .created => none
  | .awaiting queue => some queue
  | .yielded queue => some queue
  | .finished queue => queue

/-- The queue that it has registered and not removed. -/
def Subscription.registered : Subscription → Option ℕ
  | .awaiting queue => some queue
  | .yielded queue => some queue
  | _ => none

@[simp] theorem Subscription.queue_created : created.queue = none := rfl

@[simp] theorem Subscription.queue_awaiting (address : ℕ) :
    (awaiting address).queue = some address := rfl

@[simp] theorem Subscription.queue_yielded (address : ℕ) :
    (yielded address).queue = some address := rfl

@[simp] theorem Subscription.queue_finished (address : Option ℕ) :
    (finished address).queue = address := rfl

@[simp] theorem Subscription.registered_created : created.registered = none := rfl

@[simp] theorem Subscription.registered_awaiting (address : ℕ) :
    (awaiting address).registered = some address := rfl

@[simp] theorem Subscription.registered_yielded (address : ℕ) :
    (yielded address).registered = some address := rfl

@[simp] theorem Subscription.registered_finished (address : Option ℕ) :
    (finished address).registered = none := rfl

theorem Subscription.queue_of_registered {generator : Subscription} {address : ℕ}
    (h : generator.registered = some address) : generator.queue = some address := by
  cases generator with
  | created => cases h
  | awaiting _ => exact h
  | yielded _ => exact h
  | finished _ => cases h

structure Subscriber where
  runId : String
  generator : Subscription
  received : List String
  deriving DecidableEq, Repr

/-- The bus with the queues it has made, and its subscribers. -/
structure EventBus where
  /-- `_queues`, a `defaultdict` of lists -/
  queues : String → List ℕ
  heap : List MessageQueue
  subscribers : List Subscriber

namespace EventBus

/-- `EventBus()` -/
def empty : EventBus := ⟨fun _ => [], [], []⟩

/-- What one event is on the wire. -/
def message (event data : String) : String := "event: " ++ event ++ "\ndata: " ++ data ++ "\n\n"

/-- `for queue in …: await queue.put(message)`; `none` where it waits. -/
def putAll (message : String) : List ℕ → List MessageQueue → Option (List MessageQueue)
  | [], heap => some heap
  | address :: rest, heap => do
      let queue ← heap[address]?
      let queue ← queue.put message
      putAll message rest (heap.set address queue)

/-- A message out of a queue is yielded; `none` where the generator waits for one. -/
def pull (s : EventBus) (i : ℕ) (sub : Subscriber) (address : ℕ) : Option EventBus := do
  let queue ← s.heap[address]?
  let (message, queue) ← queue.get
  return { s with
    heap := s.heap.set address queue
    subscribers := s.subscribers.set i
      { sub with generator := .yielded address, received := sub.received ++ [message] } }

/-- `yield await queue.get()`, up to the `yield` or the first wait. -/
def getOrWait (s : EventBus) (i : ℕ) (sub : Subscriber) (address : ℕ) : EventBus :=
  (s.pull i sub address).getD
    { s with subscribers := s.subscribers.set i { sub with generator := .awaiting address } }

/-- The start of a generator: a new queue, registered. -/
def register (s : EventBus) (runId : String) : EventBus :=
  { s with
    queues := Function.update s.queues runId (s.queues runId ++ [s.heap.length])
    heap := s.heap ++ [⟨0, []⟩] }

/-- `self._queues[run_id].remove(queue)`; `none` where it raises. -/
def stop (s : EventBus) (i : ℕ) (sub : Subscriber) (address : ℕ) : Option EventBus :=
  if address ∈ s.queues sub.runId then
    some { s with
      queues := Function.update s.queues sub.runId ((s.queues sub.runId).erase address)
      subscribers := s.subscribers.set i { sub with generator := .finished (some address) } }
  else none

/-- What can happen next. -/
inductive Event (Payload : Type)
  /-- a call of `publish` -/
  | publish (runId event : String) (payload : Payload)
  /-- a call of `subscribe` -/
  | subscribe (runId : String)
  /-- a consumer asks for a message -/
  | next (i : ℕ)
  /-- a generator that waits goes on -/
  | resume (i : ℕ)
  /-- a generator that waits is cancelled -/
  | cancel (i : ℕ)
  /-- a generator that does not run is closed -/
  | close (i : ℕ)
  deriving DecidableEq, Repr

/-- The subscriber that an event is about. -/
def Event.subject {Payload : Type} : Event Payload → Option ℕ
  | .publish _ _ _ => none
  | .subscribe _ => none
  | .next i => some i
  | .resume i => some i
  | .cancel i => some i
  | .close i => some i

variable {Payload : Type} (dumps : Payload → Option String)

/-- `publish`; where `json.dumps` raises, nothing else happens. -/
def publish (s : EventBus) (runId event : String) (payload : Payload) : Option EventBus :=
  match dumps payload with
  | none => some s
  | some data =>
      (putAll (message event data) (s.queues runId) s.heap).map fun heap => { s with heap }

/-- One event; `none` where it cannot happen. -/
def step (s : EventBus) : Event Payload → Option EventBus
  | .publish runId event payload => s.publish dumps runId event payload
  | .subscribe runId => some { s with subscribers := s.subscribers ++ [⟨runId, .created, []⟩] }
  | .next i =>
      match s.subscribers[i]? with
      | some ⟨runId, .created, received⟩ =>
          some ((s.register runId).getOrWait i ⟨runId, .created, received⟩ s.heap.length)
      | some ⟨runId, .yielded address, received⟩ =>
          some (s.getOrWait i ⟨runId, .yielded address, received⟩ address)
      | _ => none
  | .resume i =>
      match s.subscribers[i]? with
      | some ⟨runId, .awaiting address, received⟩ =>
          s.pull i ⟨runId, .awaiting address, received⟩ address
      | _ => none
  | .cancel i =>
      match s.subscribers[i]? with
      | some ⟨runId, .awaiting address, received⟩ =>
          s.stop i ⟨runId, .awaiting address, received⟩ address
      | _ => none
  | .close i =>
      match s.subscribers[i]? with
      | some ⟨runId, .created, received⟩ =>
          some { s with subscribers := s.subscribers.set i ⟨runId, .finished none, received⟩ }
      | some ⟨runId, .yielded address, received⟩ =>
          s.stop i ⟨runId, .yielded address, received⟩ address
      | _ => none

/-! ### What an event does -/

variable {dumps} {s t : EventBus} {l : Event Payload}

variable (dumps) in
/-- The kinds of events. -/
inductive Stepped (s : EventBus) : Event Payload → EventBus → Prop
  | raised {runId event : String} {payload : Payload} (h : dumps payload = none) :
      Stepped s (.publish runId event payload) s
  | published {runId event data : String} {payload : Payload} {heap : List MessageQueue}
      (h : dumps payload = some data)
      (hheap : putAll (message event data) (s.queues runId) s.heap = some heap) :
      Stepped s (.publish runId event payload) { s with heap }
  | subscribed (runId : String) :
      Stepped s (.subscribe runId)
        { s with subscribers := s.subscribers ++ [⟨runId, .created, []⟩] }
  | registered {i : ℕ} {runId : String} {received : List String}
      (hi : s.subscribers[i]? = some ⟨runId, .created, received⟩) :
      Stepped s (.next i)
        { s.register runId with
          subscribers := s.subscribers.set i ⟨runId, .awaiting s.heap.length, received⟩ }
  | received {l : Event Payload} {i address : ℕ} {sub : Subscriber} {message : String}
      {queue queue' : MessageQueue} (hi : s.subscribers[i]? = some sub)
      (hl : l = .next i ∨ l = .resume i) (hgen : sub.generator.registered = some address)
      (hqueue : s.heap[address]? = some queue) (hget : queue.get = some (message, queue')) :
      Stepped s l
        { s with
          heap := s.heap.set address queue'
          subscribers := s.subscribers.set i
            { sub with generator := .yielded address, received := sub.received ++ [message] } }
  | waits {i address : ℕ} {sub : Subscriber} (hi : s.subscribers[i]? = some sub)
      (hgen : sub.generator.registered = some address) :
      Stepped s (.next i)
        { s with subscribers := s.subscribers.set i { sub with generator := .awaiting address } }
  | stopped {l : Event Payload} {i address : ℕ} {sub : Subscriber}
      (hi : s.subscribers[i]? = some sub) (hl : l = .cancel i ∨ l = .close i)
      (hgen : sub.generator.registered = some address) :
      Stepped s l
        { s with
          queues := Function.update s.queues sub.runId ((s.queues sub.runId).erase address)
          subscribers := s.subscribers.set i { sub with generator := .finished (some address) } }
  | dropped {i : ℕ} {runId : String} {received : List String}
      (hi : s.subscribers[i]? = some ⟨runId, .created, received⟩) :
      Stepped s (.close i)
        { s with subscribers := s.subscribers.set i ⟨runId, .finished none, received⟩ }

theorem pull_some {i address : ℕ} {sub : Subscriber} (h : s.pull i sub address = some t) :
    ∃ queue message queue', s.heap[address]? = some queue ∧ queue.get = some (message, queue') ∧
      t = { s with
        heap := s.heap.set address queue'
        subscribers := s.subscribers.set i
          { sub with generator := .yielded address, received := sub.received ++ [message] } } := by
  unfold pull at h
  obtain ⟨queue, hqueue, h⟩ := Option.bind_eq_some_iff.mp h
  obtain ⟨⟨message, queue'⟩, hget, h⟩ := Option.bind_eq_some_iff.mp h
  exact ⟨queue, message, queue', hqueue, hget, (Option.some.inj h).symm⟩

/-- A new queue is empty. -/
theorem pull_register (s : EventBus) (runId : String) (i : ℕ) (sub : Subscriber) :
    (s.register runId).pull i sub s.heap.length = none := by
  have hnew : (s.register runId).heap[s.heap.length]? = some ⟨0, []⟩ := by
    unfold register
    simp
  unfold pull
  rw [hnew]
  rfl

theorem stop_some {i address : ℕ} {sub : Subscriber} (h : s.stop i sub address = some t) :
    t = { s with
      queues := Function.update s.queues sub.runId ((s.queues sub.runId).erase address)
      subscribers := s.subscribers.set i { sub with generator := .finished (some address) } } := by
  obtain ⟨-, h⟩ := Option.ite_none_right_eq_some.mp h
  exact (Option.some.inj h).symm

theorem step_some (h : s.step dumps l = some t) : Stepped dumps s l t := by
  cases l with
  | publish runId event payload =>
    replace h : s.publish dumps runId event payload = some t := h
    unfold publish at h
    -- a payload that is no JSON raises before anything is queued
    cases hdumps : dumps payload with
    | none =>
      rw [hdumps] at h
      obtain rfl := Option.some.inj h
      exact .raised hdumps
    | some data =>
      rw [hdumps] at h
      obtain ⟨heap, hheap, rfl⟩ := Option.map_eq_some_iff.mp h
      exact .published hdumps hheap
  | subscribe runId =>
    obtain rfl := Option.some.inj h
    exact .subscribed runId
  | next i =>
    unfold step at h
    dsimp only at h
    -- a first call registers; a later one takes what is there, or waits
    split at h
    · rename_i runId received hi
      obtain rfl := Option.some.inj h
      unfold getOrWait
      rw [pull_register]
      exact .registered hi
    · rename_i runId address received hi
      obtain rfl := Option.some.inj h
      unfold getOrWait
      cases hpull : s.pull i ⟨runId, .yielded address, received⟩ address with
      | none => exact .waits hi rfl
      | some u =>
        obtain ⟨queue, message, queue', hqueue, hget, rfl⟩ := pull_some hpull
        exact .received hi (.inl rfl) rfl hqueue hget
    · cases h
  -- only a client that waits is resumed, with a message
  | resume i =>
    unfold step at h
    dsimp only at h
    split at h
    · rename_i runId address received hi
      obtain ⟨queue, message, queue', hqueue, hget, rfl⟩ := pull_some h
      exact .received hi (.inr rfl) rfl hqueue hget
    · cases h
  | cancel i =>
    unfold step at h
    dsimp only at h
    split at h
    · rename_i runId address received hi
      obtain rfl := stop_some h
      exact .stopped hi (.inl rfl) rfl
    · cases h
  -- a generator that has not begun has nothing to clean up
  | close i =>
    unfold step at h
    dsimp only at h
    split at h
    · rename_i runId received hi
      obtain rfl := Option.some.inj h
      exact .dropped hi
    · rename_i runId address received hi
      obtain rfl := stop_some h
      exact .stopped hi (.inr rfl) rfl
    · cases h

/-! ### Fan-out -/

/-- What is in a queue. -/
def itemsAt (s : EventBus) (address : ℕ) : List String :=
  ((s.heap[address]?).map MessageQueue.items).getD []

/-- What a subscriber has been sent and has not received yet. -/
def queued (s : EventBus) (sub : Subscriber) : List String :=
  (sub.generator.queue.map s.itemsAt).getD []

/-- A loop of `put` into different queues without a limit never waits, and reaches each of them
once. -/
theorem putAll_spec {heap : List MessageQueue} (hheap : ∀ queue ∈ heap, queue.maxsize = 0)
    (message : String) {addresses : List ℕ} (hnodup : addresses.Nodup)
    (hlt : ∀ address ∈ addresses, address < heap.length) :
    ∃ heap', putAll message addresses heap = some heap' ∧ heap'.length = heap.length ∧
      ∀ address, heap'[address]? = (heap[address]?).map fun queue =>
        if address ∈ addresses then { queue with items := queue.items ++ [message] } else queue := by
  induction addresses generalizing heap with
  | nil =>
    refine ⟨heap, rfl, rfl, fun address => ?_⟩
    simp
  | cons first rest ih =>
    obtain ⟨hfirst, hrest⟩ := List.nodup_cons.mp hnodup
    have hin : first < heap.length := hlt first List.mem_cons_self
    -- the queue that the loop begins with
    have hat : heap[first]? = some heap[first] := List.getElem?_eq_getElem hin
    have hput := MessageQueue.put_unbounded (hheap heap[first] (List.getElem_mem hin)) message
    have hkeep : ∀ queue ∈ heap.set first { heap[first] with items := heap[first].items ++ [message] },
        queue.maxsize = 0 := by
      intro queue hqueue
      rcases List.mem_or_eq_of_mem_set hqueue with hold | rfl
      · exact hheap queue hold
      · exact hheap heap[first] (List.getElem_mem hin)
    obtain ⟨heap', hall, hlength, hread⟩ := ih hkeep hrest fun address haddress => by
      rw [List.length_set]
      exact hlt address (List.mem_cons_of_mem _ haddress)
    refine ⟨heap', ?_, by rw [hlength, List.length_set], fun address => ?_⟩
    · unfold putAll
      rw [hat]
      show (MessageQueue.put message heap[first]).bind _ = some heap'
      rw [hput]
      exact hall
    · rw [hread]
      by_cases haddress : address = first
      · subst haddress
        rw [List.getElem?_set_self hin, hat]
        simp [hfirst]
      · rw [List.getElem?_set_ne (Ne.symm haddress)]
        simp [haddress]

/-- How generators, registered queues and the heap belong together. -/
structure Wired (s : EventBus) : Prop where
  unbounded : ∀ queue ∈ s.heap, queue.maxsize = 0
  nodup : ∀ runId, (s.queues runId).Nodup
  listed : ∀ runId address, address ∈ s.queues runId ↔ ∃ (i : ℕ) (sub : Subscriber),
    s.subscribers[i]? = some sub ∧ sub.runId = runId ∧ sub.generator.registered = some address
  allocated : ∀ (i : ℕ) (sub : Subscriber) (address : ℕ), s.subscribers[i]? = some sub →
    sub.generator.queue = some address → address < s.heap.length
  own : ∀ (i j : ℕ) (sub sub' : Subscriber) (address : ℕ), s.subscribers[i]? = some sub →
    s.subscribers[j]? = some sub' → sub.generator.queue = some address →
    sub'.generator.queue = some address → i = j

theorem Wired.below (h : Wired s) {runId : String} {address : ℕ} (hmem : address ∈ s.queues runId) :
    address < s.heap.length := by
  obtain ⟨i, sub, hi, -, hgen⟩ := (h.listed runId address).mp hmem
  exact h.allocated i sub address hi (Subscription.queue_of_registered hgen)

/-- `publish` never waits. -/
theorem Wired.putAll (h : Wired s) (message runId : String) :
    ∃ heap, EventBus.putAll message (s.queues runId) s.heap = some heap ∧
      heap.length = s.heap.length ∧ ∀ address, heap[address]? = (s.heap[address]?).map fun queue =>
        if address ∈ s.queues runId then { queue with items := queue.items ++ [message] } else queue :=
  putAll_spec h.unbounded message (h.nodup runId) fun _ => h.below

theorem wired_empty : Wired empty where
  unbounded _ hqueue := nomatch hqueue
  nodup _ := List.nodup_nil
  listed runId address := by
    constructor
    · intro hmem
      cases hmem
    · rintro ⟨i, sub, hi, -⟩
      cases hi
  allocated _ _ _ hi := by cases hi
  own _ _ _ _ _ hi := by cases hi

/-- One subscriber moves on, with the queue that it has or with a new one. -/
theorem Wired.replaced (h : Wired s) {i : ℕ} {sub sub' : Subscriber}
    (hi : s.subscribers[i]? = some sub) (hsubs : t.subscribers = s.subscribers.set i sub')
    (hrun : sub'.runId = sub.runId)
    (hheap : ∀ queue ∈ t.heap, queue.maxsize = 0) (hlength : s.heap.length ≤ t.heap.length)
    (hqueue : ∀ a, sub'.generator.queue = some a →
      a < t.heap.length ∧ (sub.generator.queue = some a ∨ s.heap.length ≤ a))
    (hnodup : ∀ runId, (t.queues runId).Nodup)
    (hlisted : ∀ runId a, a ∈ t.queues runId ↔
      (sub.runId = runId ∧ sub'.generator.registered = some a) ∨
        (a ∈ s.queues runId ∧ sub.generator.registered ≠ some a)) : Wired t := by
  have hlt := (List.getElem?_eq_some_iff.mp hi).1
  -- the queue of the one that has moved is nobody else's
  have hother : ∀ {j : ℕ} {subj : Subscriber} {a : ℕ}, s.subscribers[j]? = some subj →
      subj.generator.queue = some a → sub'.generator.queue = some a → i = j := by
    intro j subj a hj hqj hq'
    obtain ⟨-, hold | hnew⟩ := hqueue a hq'
    · exact h.own i j sub subj a hi hj hold hqj
    · have hbelow := h.allocated j subj a hj hqj
      omega
  refine ⟨hheap, hnodup, fun runId a => (hlisted runId a).trans ?_, fun j subj a hj hq => ?_,
    fun j k subj subk a hj hk hqj hqk => ?_⟩
  · rw [hsubs]
    constructor
    · rintro (⟨hrunId, hgen⟩ | ⟨hmem, hne⟩)
      · exact ⟨i, sub', List.getElem?_set_self hlt, hrun.trans hrunId, hgen⟩
      · obtain ⟨j, subj, hj, hrunj, hgenj⟩ := (h.listed runId a).mp hmem
        refine ⟨j, subj, ?_, hrunj, hgenj⟩
        rw [List.getElem?_set_ne]
        · exact hj
        · rintro rfl
          obtain rfl := Option.some.inj (hi.symm.trans hj)
          exact hne hgenj
    · rintro ⟨j, subj, hj, hrunj, hgenj⟩
      rcases Pool.getElem?_set_cases hj with ⟨rfl, rfl⟩ | ⟨hne, hj⟩
      · exact .inl ⟨hrun.symm.trans hrunj, hgenj⟩
      · refine .inr ⟨(h.listed runId a).mpr ⟨j, subj, hj, hrunj, hgenj⟩, fun hgen => hne ?_⟩
        exact (h.own i j sub subj a hi hj (Subscription.queue_of_registered hgen)
          (Subscription.queue_of_registered hgenj)).symm
  · rw [hsubs] at hj
    rcases Pool.getElem?_set_cases hj with ⟨rfl, rfl⟩ | ⟨-, hj⟩
    · exact (hqueue a hq).1
    · exact (h.allocated j subj a hj hq).trans_le hlength
  · rw [hsubs] at hj hk
    rcases Pool.getElem?_set_cases hj with ⟨rfl, rfl⟩ | ⟨-, hold⟩
    · rcases Pool.getElem?_set_cases hk with ⟨rfl, rfl⟩ | ⟨-, hk⟩
      · rfl
      · exact hother hk hqk hqj
    · rcases Pool.getElem?_set_cases hk with ⟨rfl, rfl⟩ | ⟨-, hk⟩
      · exact (hother hold hqj hqk).symm
      · exact h.own j k subj subk a hold hk hqj hqk

/-- A subscriber that goes on with the queue that it has registered. -/
theorem Wired.kept (h : Wired s) {i address : ℕ} {sub sub' : Subscriber} {heap : List MessageQueue}
    (hi : s.subscribers[i]? = some sub) (hgen : sub.generator.registered = some address)
    (hgen' : sub'.generator.registered = some address) (hrun : sub'.runId = sub.runId)
    (hheap : ∀ queue ∈ heap, queue.maxsize = 0) (hlength : heap.length = s.heap.length) :
    Wired { s with heap, subscribers := s.subscribers.set i sub' } := by
  have hqueue := Subscription.queue_of_registered hgen
  have hqueue' := Subscription.queue_of_registered hgen'
  apply h.replaced (t := { s with heap, subscribers := s.subscribers.set i sub' }) hi rfl hrun hheap
    (le_of_eq hlength.symm) _ h.nodup
  · intro runId a
    rw [hgen, hgen']
    constructor
    · intro hmem
      -- its own queue stays listed under its run, and the others under theirs
      by_cases ha : address = a
      · subst ha
        obtain ⟨j, subj, hj, hrunj, hgenj⟩ := (h.listed runId address).mp hmem
        obtain rfl := h.own i j sub subj address hi hj hqueue (Subscription.queue_of_registered hgenj)
        obtain rfl := Option.some.inj (hi.symm.trans hj)
        exact .inl ⟨hrunj, rfl⟩
      · exact .inr ⟨hmem, fun heq => ha (Option.some.inj heq)⟩
    · rintro (⟨hrunId, heq⟩ | ⟨hmem, -⟩)
      · exact (h.listed runId a).mpr ⟨i, sub, hi, hrunId, hgen.trans heq⟩
      · exact hmem
  · intro a ha
    obtain rfl := Option.some.inj (hqueue'.symm.trans ha)
    show address < heap.length ∧ _
    rw [hlength]
    exact ⟨h.allocated i sub address hi hqueue, .inl hqueue⟩

/-- A queue that some event has changed. -/
theorem unbounded_set {heap : List MessageQueue} {address : ℕ} {queue : MessageQueue}
    (h : ∀ q ∈ heap, q.maxsize = 0) (hqueue : queue.maxsize = 0) :
    ∀ q ∈ heap.set address queue, q.maxsize = 0 := by
  intro q hq
  rcases List.mem_or_eq_of_mem_set hq with hold | rfl
  · exact h q hold
  · exact hqueue

/-- A message was put into the queues of a run. -/
theorem Wired.published (h : Wired s) {message runId : String} {heap : List MessageQueue}
    (hheap : EventBus.putAll message (s.queues runId) s.heap = some heap) :
    Wired { s with heap } := by
  obtain ⟨heap', hall, hlength, hread⟩ := h.putAll message runId
  obtain rfl := Option.some.inj (hheap.symm.trans hall)
  refine ⟨fun queue hqueue => ?_, h.nodup, h.listed, fun i sub a hi hq => ?_, h.own⟩
  · obtain ⟨address, haddress⟩ := List.mem_iff_getElem?.mp hqueue
    obtain ⟨old, hold, rfl⟩ := Option.map_eq_some_iff.mp ((hread address).symm.trans haddress)
    have hunbounded := h.unbounded old (List.mem_of_getElem? hold)
    split
    · exact hunbounded
    · exact hunbounded
  · show a < heap.length
    rw [hlength]
    exact h.allocated i sub a hi hq

/-- A new subscriber has no queue. -/
theorem Wired.subscribed (h : Wired s) (runId : String) :
    Wired { s with subscribers := s.subscribers ++ [⟨runId, .created, []⟩] } := by
  have hold : ∀ {j : ℕ} {subj : Subscriber} {a : ℕ},
      (s.subscribers ++ [⟨runId, .created, []⟩])[j]? = some subj →
        subj.generator.queue = some a → s.subscribers[j]? = some subj := by
    intro j subj a hj hq
    rw [List.getElem?_append] at hj
    split at hj
    · exact hj
    · obtain rfl := List.mem_singleton.mp (List.mem_of_getElem? hj)
      cases hq
  refine ⟨h.unbounded, h.nodup, fun runId' a => (h.listed runId' a).trans ?_,
    fun j subj a hj hq => h.allocated j subj a (hold hj hq) hq, fun j k subj subk a hj hk hqj hqk => ?_⟩
  · constructor
    · rintro ⟨j, subj, hj, hrest⟩
      have hlt := (List.getElem?_eq_some_iff.mp hj).1
      exact ⟨j, subj, (List.getElem?_append_left hlt).trans hj, hrest⟩
    · rintro ⟨j, subj, hj, hrunj, hgenj⟩
      exact ⟨j, subj, hold hj (Subscription.queue_of_registered hgenj), hrunj, hgenj⟩
  · exact h.own j k subj subk a (hold hj hqj) (hold hk hqk) hqj hqk

/-- A subscriber has registered a new queue. -/
theorem Wired.registered (h : Wired s) {i : ℕ} {runId : String} {received : List String}
    (hi : s.subscribers[i]? = some ⟨runId, .created, received⟩) :
    Wired { s.register runId with
      subscribers := s.subscribers.set i ⟨runId, .awaiting s.heap.length, received⟩ } := by
  apply h.replaced (t := { s.register runId with
    subscribers := s.subscribers.set i ⟨runId, .awaiting s.heap.length, received⟩ }) hi rfl rfl
  · intro queue hqueue
    rcases List.mem_append.mp hqueue with hold | hnew
    · exact h.unbounded queue hold
    · obtain rfl := List.mem_singleton.mp hnew
      rfl
  · show s.heap.length ≤ (s.heap ++ [_]).length
    simp
  · intro a ha
    obtain rfl := Option.some.inj ha
    show s.heap.length < (s.heap ++ [_]).length ∧ _
    simp
  · intro runId'
    show (Function.update s.queues runId _ runId').Nodup
    rw [Function.update_apply]
    split
    · apply List.nodup_append.mpr
      refine ⟨h.nodup runId, List.pairwise_singleton _ _, fun a ha b hb => ?_⟩
      obtain rfl := List.mem_singleton.mp hb
      exact (h.below ha).ne
    · exact h.nodup runId'
  · intro runId' a
    show a ∈ Function.update s.queues runId _ runId' ↔ _
    rw [Function.update_apply]
    split
    · -- of this run: the queues that were there, and the new one
      rename_i heq
      subst heq
      rw [List.mem_append, List.mem_singleton]
      constructor
      · rintro (hold | rfl)
        · exact .inr ⟨hold, by simp⟩
        · exact .inl ⟨rfl, rfl⟩
      · rintro (⟨-, heq⟩ | ⟨hold, -⟩)
        · exact .inr (Option.some.inj heq).symm
        · exact .inl hold
    · -- of other runs nothing changes
      rename_i hne
      constructor
      · exact fun hold => .inr ⟨hold, by simp⟩
      · rintro (⟨rfl, -⟩ | ⟨hold, -⟩)
        · exact absurd rfl hne
        · exact hold

/-- A subscriber has removed its queue. -/
theorem Wired.stopped (h : Wired s) {i address : ℕ} {sub : Subscriber}
    (hi : s.subscribers[i]? = some sub) (hgen : sub.generator.registered = some address) :
    Wired { s with
      queues := Function.update s.queues sub.runId ((s.queues sub.runId).erase address)
      subscribers := s.subscribers.set i { sub with generator := .finished (some address) } } := by
  have hqueue := Subscription.queue_of_registered hgen
  apply h.replaced (t := { s with
    queues := Function.update s.queues sub.runId ((s.queues sub.runId).erase address)
    subscribers := s.subscribers.set i { sub with generator := .finished (some address) } })
    hi rfl rfl h.unbounded le_rfl
  · intro a ha
    obtain rfl := Option.some.inj ha
    exact ⟨h.allocated i sub address hi hqueue, .inl hqueue⟩
  · intro runId
    show (Function.update s.queues sub.runId _ runId).Nodup
    rw [Function.update_apply]
    split
    · exact (h.nodup sub.runId).erase address
    · exact h.nodup runId
  · intro runId a
    show a ∈ Function.update s.queues sub.runId _ runId ↔ _
    rw [Function.update_apply, hgen]
    split
    · rename_i heq
      subst heq
      rw [(h.nodup sub.runId).mem_erase_iff]
      constructor
      · rintro ⟨hne, hold⟩
        exact .inr ⟨hold, fun heq => hne (Option.some.inj heq).symm⟩
      · rintro (⟨-, heq⟩ | ⟨hold, hne⟩)
        · cases heq
        · exact ⟨fun heq => hne (congrArg some heq.symm), hold⟩
    · rename_i hne
      constructor
      · intro hold
        refine .inr ⟨hold, fun heq => hne ?_⟩
        obtain rfl := Option.some.inj heq
        -- a queue is registered under the run of its subscriber
        obtain ⟨j, subj, hj, rfl, hgenj⟩ := (h.listed runId address).mp hold
        obtain rfl := h.own i j sub subj address hi hj hqueue
          (Subscription.queue_of_registered hgenj)
        obtain rfl := Option.some.inj (hi.symm.trans hj)
        rfl
      · rintro (⟨rfl, -⟩ | ⟨hold, -⟩)
        · exact absurd rfl hne
        · exact hold

/-- A subscriber was closed before it began. -/
theorem Wired.dropped (h : Wired s) {i : ℕ} {runId : String} {received : List String}
    (hi : s.subscribers[i]? = some ⟨runId, .created, received⟩) :
    Wired { s with subscribers := s.subscribers.set i ⟨runId, .finished none, received⟩ } := by
  apply h.replaced (t := { s with
    subscribers := s.subscribers.set i ⟨runId, .finished none, received⟩ }) hi rfl rfl
    h.unbounded le_rfl
  · intro a ha
    cases ha
  · exact h.nodup
  · intro runId' a
    constructor
    · exact fun hold => .inr ⟨hold, by simp⟩
    · rintro (⟨-, heq⟩ | ⟨hold, -⟩)
      · cases heq
      · exact hold

/-- **One step** keeps everything wired. -/
theorem Wired.step (h : Wired s) (hstep : Stepped dumps s l t) : Wired t := by
  cases hstep with
  | raised _ => exact h
  | published _ hheap => exact h.published hheap
  | subscribed runId => exact h.subscribed runId
  | registered hi => exact h.registered hi
  | received hi _ hgen hqueue hget =>
    apply h.kept hi hgen
    · rfl
    · rfl
    · apply unbounded_set h.unbounded
      rw [(MessageQueue.get_some hget).2]
      exact h.unbounded _ (List.mem_of_getElem? hqueue)
    · exact List.length_set
  | waits hi hgen => exact h.kept hi hgen rfl rfl h.unbounded rfl
  | stopped hi _ hgen => exact h.stopped hi hgen
  | dropped hi => exact h.dropped hi

end EventBus

end NexCause
