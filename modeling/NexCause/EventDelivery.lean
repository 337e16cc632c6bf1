/-
NexCause/EventDelivery.lean

What the subscribers of an RCA run are sent.

Main result: whatever the order of publications, requests, cancellations and
closings, a subscriber has received, up to what is left in its queue, the
messages published to its run from its registration to its removal
(`EventBus.received_exactly`).
-/
import Mathlib.Data.List.Induction
import NexCause.EventBus
import NexCause.Stretches

namespace NexCause.EventBus

open Program Transition

variable {Payload : Type} {dumps : Payload → Option String} {s t : EventBus} {l : Event Payload}

/-! ### What a subscriber is owed -/

/-- Subscriber `i` begins. -/
def Event.begins (i : ℕ) : Event Payload → Bool
  | .next j => j == i
  | _ => false

/-- Subscriber `i` stops. -/
def Event.stops (i : ℕ) : Event Payload → Bool
  | .cancel j => j == i
  | .close j => j == i
  | _ => false

variable (dumps) in
/-- What an event publishes to a run. -/
def Event.messageTo (runId : String) : Event Payload → Option String
  | .publish runId' event payload =>
      if runId' = runId then (dumps payload).map (message event) else none
  | _ => none

theorem Event.messageTo_publish (runId runId' event : String) (payload : Payload) :
    (Event.publish runId event payload).messageTo dumps runId' =
      if runId = runId' then (dumps payload).map (message event) else none := rfl

variable (dumps) in
/-- The messages published to a run, in order. -/
def published (runId : String) (events : List (Event Payload)) : List String :=
  events.filterMap (Event.messageTo dumps runId)

/-- What happens between the registration of subscriber `i` and its removal. -/
def window (i : ℕ) (events : List (Event Payload)) : List (Event Payload) :=
  stretch (Event.begins i) (Event.stops i) events

/-- How far subscriber `i` has come, by the events so far. -/
structure Course (i : ℕ) (events : List (Event Payload)) (generator : Subscription) : Prop where
  begun : generator.queue ≠ none ↔ ∃ l ∈ events, l.begins i = true
  unregistered : generator.queue ≠ none →
    (generator.registered = none ↔ ∃ l ∈ afterFirst (Event.begins i) events, l.stops i = true)

section Course

variable {i : ℕ} {events : List (Event Payload)} {generator generator' : Subscription}

theorem Course.none_begins (h : Course i events generator) (hnone : generator.queue = none) :
    ∀ l ∈ events, l.begins i = false := by
  intro l hl
  by_contra hbegins
  exact h.begun.mpr ⟨l, hl, by simpa using hbegins⟩ hnone

theorem Course.snoc (h : Course i events generator) (l : Event Payload)
    (hbegun : generator'.queue ≠ none ↔ generator.queue ≠ none ∨ l.begins i = true)
    (hover : generator'.queue ≠ none → (generator'.registered = none ↔
      generator.queue ≠ none ∧ (generator.registered = none ∨ l.stops i = true))) :
    Course i (events ++ [l]) generator' := by
  constructor
  · rw [hbegun, h.begun]
    simp [or_and_right, exists_or]
  · intro hqueue
    rw [hover hqueue]
    by_cases hnone : generator.queue = none
    · rw [afterFirst_first (h.none_begins hnone)]
      simp [hnone]
    · rw [h.unregistered hnone, afterFirst_later (h.begun.mp hnone)]
      simp [hnone, or_and_right, exists_or]

/-- A subscriber is owed a message exactly while its queue is registered. -/
theorem Course.published_snoc (h : Course i events generator) (runId : String) (l : Event Payload) :
    published dumps runId (window i (events ++ [l])) =
      published dumps runId (window i events) ++
        if generator.registered ≠ none ∧ l.stops i = false then (l.messageTo dumps runId).toList
        else [] := by
  -- the subscriber has not begun
  by_cases hnone : generator.queue = none
  · have hnot : generator.registered = none := by
      by_contra hsome
      obtain ⟨a, ha⟩ := Option.ne_none_iff_exists'.mp hsome
      exact absurd (Subscription.queue_of_registered ha) (by simp [hnone])
    unfold window
    rw [stretch_first (h.none_begins hnone), stretch_none (h.none_begins hnone),
      if_neg (by simp [hnot])]
    rfl
  · -- it has begun: its window is open, or it was closed before
    have hbegun := h.begun.mp hnone
    by_cases hover : generator.registered = none
    · unfold window
      rw [stretch_over hbegun ((h.unregistered hnone).mp hover), if_neg (by simp [hover]),
        List.append_nil]
    · have hopen : ∀ l ∈ afterFirst (Event.begins i) events, l.stops i = false := by
        intro l' hl'
        by_contra hstops
        exact hover ((h.unregistered hnone).mpr ⟨l', hl', by simpa using hstops⟩)
      unfold window published
      rw [stretch_open hbegun hopen, List.filterMap_append]
      cases hstops : l.stops i with
      | true => simp
      | false =>
        cases hm : l.messageTo dumps runId <;> simp [hover, hm]

end Course

/-- What an event does to one subscriber. -/
structure Advanced (dumps : Payload → Option String) (s : EventBus) (l : Event Payload)
    (t : EventBus) (j : ℕ) (sub sub' : Subscriber) : Prop where
  runId : sub'.runId = sub.runId
  begun : sub'.generator.queue ≠ none ↔ sub.generator.queue ≠ none ∨ l.begins j = true
  unregistered : sub'.generator.queue ≠ none → (sub'.generator.registered = none ↔
    sub.generator.queue ≠ none ∧ (sub.generator.registered = none ∨ l.stops j = true))
  owed : sub'.received ++ t.queued sub' = sub.received ++ s.queued sub ++
    if sub.generator.registered ≠ none ∧ l.stops j = false then (l.messageTo dumps sub.runId).toList
    else []

theorem queued_none {sub : Subscriber} (s : EventBus) (h : sub.generator.queue = none) :
    s.queued sub = [] := by
  unfold queued
  rw [h]
  rfl

theorem queued_some {sub : Subscriber} {address : ℕ} (s : EventBus)
    (h : sub.generator.queue = some address) : s.queued sub = s.itemsAt address := by
  unfold queued
  rw [h]
  rfl

/-- A subscriber that an event is not about: what it is sent is in its queue. -/
theorem advanced_idle {j : ℕ} {sub : Subscriber} (hbegins : l.begins j = false)
    (hstops : l.stops j = false)
    (howed : ∀ address, sub.generator.queue = some address → t.itemsAt address = s.itemsAt address ++
      if sub.generator.registered ≠ none then (l.messageTo dumps sub.runId).toList else []) :
    Advanced dumps s l t j sub sub := by
  refine ⟨rfl, by simp [hbegins], fun hqueue => by simp [hqueue, hstops], ?_⟩
  rw [hstops]
  cases hqueue : sub.generator.queue with
  | none =>
    have hnot : sub.generator.registered = none := by
      by_contra hsome
      obtain ⟨a, ha⟩ := Option.ne_none_iff_exists'.mp hsome
      exact absurd (Subscription.queue_of_registered ha) (by simp [hqueue])
    rw [queued_none t hqueue, queued_none s hqueue]
    simp [hnot]
  | some address =>
    rw [queued_some t hqueue, queued_some s hqueue, howed address hqueue, List.append_assoc]
    simp

/-- What is in the queues after a message was published. -/
theorem itemsAt_published {heap : List MessageQueue} {message : String} {addresses : List ℕ}
    (hread : ∀ address, heap[address]? = (s.heap[address]?).map fun queue =>
      if address ∈ addresses then { queue with items := queue.items ++ [message] } else queue)
    {address : ℕ} (hlt : address < s.heap.length) :
    itemsAt { s with heap } address =
      s.itemsAt address ++ if address ∈ addresses then [message] else [] := by
  unfold itemsAt
  rw [hread address, List.getElem?_eq_getElem hlt]
  split
  · rfl
  · simp

/-- A subscriber when a message is published: it is sent the message exactly if its queue is
registered, and under that run. -/
theorem Wired.advanced_published (h : Wired s) {runId event data : String} {payload : Payload}
    {heap : List MessageQueue} (hdumps : dumps payload = some data)
    (hheap : EventBus.putAll (message event data) (s.queues runId) s.heap = some heap) {j : ℕ}
    {sub : Subscriber} (hj : s.subscribers[j]? = some sub) :
    Advanced dumps s (.publish runId event payload) { s with heap } j sub sub := by
  obtain ⟨heap', hall, -, hread⟩ := h.putAll (message event data) runId
  obtain rfl := Option.some.inj (hheap.symm.trans hall)
  refine advanced_idle rfl rfl fun address hqueue => ?_
  rw [itemsAt_published hread (h.allocated j sub address hj hqueue)]
  -- a queue is listed for its run, while its client is registered
  have hreached : address ∈ s.queues runId ↔
      sub.runId = runId ∧ sub.generator.registered = some address := by
    rw [h.listed]
    constructor
    · rintro ⟨k, subk, hk, hrunk, hgenk⟩
      obtain rfl := h.own j k sub subk address hj hk hqueue
        (Subscription.queue_of_registered hgenk)
      obtain rfl := Option.some.inj (hj.symm.trans hk)
      exact ⟨hrunk, hgenk⟩
    · rintro ⟨hrun, hgen⟩
      exact ⟨j, sub, hj, hrun, hgen⟩
  have hregistered : sub.generator.registered ≠ none ↔
      sub.generator.registered = some address := by
    constructor
    · intro hsome
      obtain ⟨a, ha⟩ := Option.ne_none_iff_exists'.mp hsome
      rw [ha, ← Subscription.queue_of_registered ha, hqueue]
    · rintro hsome hnone
      rw [hnone] at hsome
      cases hsome
  rw [Event.messageTo_publish, hdumps]
  -- the message is put in this queue, or is not for it
  by_cases hmem : address ∈ s.queues runId
  · obtain ⟨hrun, hgen⟩ := hreached.mp hmem
    rw [if_pos hmem, if_pos (hregistered.mpr hgen), if_pos hrun.symm]
    rfl
  · rw [if_neg hmem]
    by_cases hgen : sub.generator.registered = some address
    · rw [if_pos (hregistered.mpr hgen), if_neg fun hrun => hmem (hreached.mpr ⟨hrun.symm, hgen⟩)]
      rfl
    · rw [if_neg fun hsome => hgen (hregistered.mp hsome)]

/-- The subscriber that goes on with the queue that it has registered: what it has been sent is what
it has received and what is left. -/
theorem advanced_kept {j address : ℕ} {sub sub' : Subscriber} (hrun : sub'.runId = sub.runId)
    (hgen : sub.generator.registered = some address)
    (hgen' : sub'.generator.registered = some address) (hstops : l.stops j = false)
    (hmessage : ∀ runId, l.messageTo dumps runId = none)
    (howed : sub'.received ++ t.itemsAt address = sub.received ++ s.itemsAt address) :
    Advanced dumps s l t j sub sub' := by
  have hqueue := Subscription.queue_of_registered hgen
  have hqueue' := Subscription.queue_of_registered hgen'
  refine ⟨hrun, by simp [hqueue, hqueue'], fun _ => by simp [hqueue, hgen, hgen', hstops], ?_⟩
  rw [queued_some s hqueue, queued_some t hqueue', hmessage, howed]
  simp

/-- The subscriber that stops. -/
theorem advanced_stopped {j address : ℕ} {sub sub' : Subscriber} (hrun : sub'.runId = sub.runId)
    (hgen : sub.generator.registered = some address)
    (hgen' : sub'.generator = .finished (some address)) (hreceived : sub'.received = sub.received)
    (hstops : l.stops j = true) (hheap : t.heap = s.heap) : Advanced dumps s l t j sub sub' := by
  have hqueue := Subscription.queue_of_registered hgen
  have hqueue' : sub'.generator.queue = some address := by
    rw [hgen']
    rfl
  refine ⟨hrun, by simp [hqueue, hqueue'], fun _ => by simp [hqueue, hgen', hstops], ?_⟩
  rw [queued_some s hqueue, queued_some t hqueue', hreceived, hstops]
  simp [itemsAt, hheap]

/-- **One step** for a subscriber that is there. -/
theorem Wired.advanced (h : Wired s) (hstep : Stepped dumps s l t) {j : ℕ} {sub' : Subscriber}
    (hj : t.subscribers[j]? = some sub') (hlt : j < s.subscribers.length) :
    ∃ sub, s.subscribers[j]? = some sub ∧ Advanced dumps s l t j sub sub' := by
  have hne : ∀ {i : ℕ}, j ≠ i → (i == j) = false := fun hji => beq_eq_false_iff_ne.mpr (Ne.symm hji)
  -- a queue that the event has not touched
  have hrest : ∀ (address : ℕ) (sub : Subscriber), (∀ runId, l.messageTo dumps runId = none) →
      t.heap[address]? = s.heap[address]? → t.itemsAt address = s.itemsAt address ++
        if sub.generator.registered ≠ none then (l.messageTo dumps sub.runId).toList else [] := by
    intro address sub hmessage hheap
    unfold itemsAt
    rw [hmessage, hheap]
    simp
  cases hstep with
  | raised hdumps =>
    refine ⟨sub', hj, advanced_idle rfl rfl fun address _ => hrest address sub' (fun runId => ?_) rfl⟩
    rw [Event.messageTo_publish, hdumps]
    simp
  | published hdumps hheap => exact ⟨sub', hj, h.advanced_published hdumps hheap hj⟩
  | subscribed runId =>
    rw [List.getElem?_append_left hlt] at hj
    exact ⟨sub', hj, advanced_idle rfl rfl fun address _ => hrest address sub' (fun _ => rfl) rfl⟩
  | @registered i runId received hi =>
    rcases Pool.getElem?_set_cases hj with ⟨rfl, rfl⟩ | ⟨hji, hj⟩
    · refine ⟨_, hi, rfl, by simp [Event.begins], by simp, ?_⟩
      rw [queued_none s rfl, queued_some _ rfl]
      simp [itemsAt, register]
    · refine ⟨sub', hj, advanced_idle (hne hji) rfl fun address hqueue => ?_⟩
      apply hrest address sub' (fun _ => rfl)
      exact List.getElem?_append_left (h.allocated j sub' address hj hqueue)
  | @received l i address sub message queue queue' hi hl hgen hqueue hget =>
    have hstops : l.stops j = false := by
      rcases hl with rfl | rfl
      · rfl
      · rfl
    have hmessage : ∀ runId, l.messageTo dumps runId = none := by
      rcases hl with rfl | rfl
      · exact fun _ => rfl
      · exact fun _ => rfl
    rcases Pool.getElem?_set_cases hj with ⟨rfl, rfl⟩ | ⟨hji, hj⟩
    · refine ⟨sub, hi, advanced_kept rfl hgen rfl hstops hmessage ?_⟩
      unfold itemsAt
      rw [List.getElem?_set_self (List.getElem?_eq_some_iff.mp hqueue).1, hqueue]
      simp [(MessageQueue.get_some hget).1]
    · have hbegins : l.begins j = false := by
        rcases hl with rfl | rfl
        · exact hne hji
        · rfl
      refine ⟨sub', hj, advanced_idle hbegins hstops fun a hqueue' => ?_⟩
      apply hrest a sub' hmessage
      apply List.getElem?_set_ne
      rintro rfl
      exact hji (h.own j i sub' sub address hj hi hqueue' (Subscription.queue_of_registered hgen))
  | @waits i address sub hi hgen =>
    rcases Pool.getElem?_set_cases hj with ⟨rfl, rfl⟩ | ⟨hji, hj⟩
    · exact ⟨sub, hi, advanced_kept rfl hgen rfl rfl (fun _ => rfl) rfl⟩
    · refine ⟨sub', hj, advanced_idle (hne hji) rfl fun a _ => ?_⟩
      exact hrest a sub' (fun _ => rfl) rfl
  | @stopped l i address sub hi hl hgen =>
    rcases Pool.getElem?_set_cases hj with ⟨rfl, rfl⟩ | ⟨hji, hj⟩
    · refine ⟨sub, hi, advanced_stopped rfl hgen rfl rfl ?_ rfl⟩
      rcases hl with rfl | rfl
      · exact beq_self_eq_true j
      · exact beq_self_eq_true j
    · refine ⟨sub', hj, ?_⟩
      rcases hl with rfl | rfl
      · exact advanced_idle rfl (hne hji) fun a _ => hrest a sub' (fun _ => rfl) rfl
      · exact advanced_idle rfl (hne hji) fun a _ => hrest a sub' (fun _ => rfl) rfl
  | @dropped i runId received hi =>
    rcases Pool.getElem?_set_cases hj with ⟨rfl, rfl⟩ | ⟨hji, hj⟩
    · refine ⟨_, hi, rfl, by simp [Event.begins], by simp, ?_⟩
      rw [queued_none s rfl, queued_none _ rfl]
      simp
    · exact ⟨sub', hj, advanced_idle rfl (hne hji) fun a _ => hrest a sub' (fun _ => rfl) rfl⟩

/-- The account of the subscribers. -/
structure Accounted (dumps : Payload → Option String) (events : List (Event Payload))
    (s : EventBus) : Prop where
  wired : Wired s
  subjects : ∀ l ∈ events, ∀ i ∈ l.subject, i < s.subscribers.length
  course : ∀ (i : ℕ) (sub : Subscriber), s.subscribers[i]? = some sub →
    Course i events sub.generator
  owed : ∀ (i : ℕ) (sub : Subscriber), s.subscribers[i]? = some sub →
    sub.received ++ s.queued sub = published dumps sub.runId (window i events)

theorem accounted_empty : Accounted dumps [] empty where
  wired := wired_empty
  subjects _ hl := nomatch hl
  course _ _ hi := by cases hi
  owed _ _ hi := by cases hi

/-- What an event does to the list of subscribers. -/
theorem stepped_subscribers (hstep : Stepped dumps s l t) :
    (l.subject = none ∧ (t.subscribers = s.subscribers ∨
      ∃ runId, t.subscribers = s.subscribers ++ [⟨runId, .created, []⟩])) ∨
    ∃ i sub', l.subject = some i ∧ i < s.subscribers.length ∧
      t.subscribers = s.subscribers.set i sub' := by
  have hlt : ∀ {i : ℕ} {sub : Subscriber}, s.subscribers[i]? = some sub →
      i < s.subscribers.length := fun hi => (List.getElem?_eq_some_iff.mp hi).1
  cases hstep with
  | raised _ => exact .inl ⟨rfl, .inl rfl⟩
  | published _ _ => exact .inl ⟨rfl, .inl rfl⟩
  | subscribed runId => exact .inl ⟨rfl, .inr ⟨runId, rfl⟩⟩
  | registered hi => exact .inr ⟨_, _, rfl, hlt hi, rfl⟩
  | received hi hl _ _ _ =>
    rcases hl with rfl | rfl
    · exact .inr ⟨_, _, rfl, hlt hi, rfl⟩
    · exact .inr ⟨_, _, rfl, hlt hi, rfl⟩
  | waits hi _ => exact .inr ⟨_, _, rfl, hlt hi, rfl⟩
  | stopped hi hl _ =>
    rcases hl with rfl | rfl
    · exact .inr ⟨_, _, rfl, hlt hi, rfl⟩
    · exact .inr ⟨_, _, rfl, hlt hi, rfl⟩
  | dropped hi => exact .inr ⟨_, _, rfl, hlt hi, rfl⟩

theorem Event.begins_of_subject {j : ℕ} (h : l.subject ≠ some j) : l.begins j = false := by
  cases l with
  | next i =>
    apply beq_eq_false_iff_ne.mpr
    rintro rfl
    exact h rfl
  | _ => rfl

theorem Event.stops_of_subject {j : ℕ} (h : l.subject ≠ some j) : l.stops j = false := by
  have hne : ∀ {i : ℕ}, some i ≠ some j → (i == j) = false := by
    intro i hi
    apply beq_eq_false_iff_ne.mpr
    rintro rfl
    exact hi rfl
  cases l with
  | cancel i => exact hne h
  | close i => exact hne h
  | _ => rfl

theorem stepped_length (hstep : Stepped dumps s l t) :
    s.subscribers.length ≤ t.subscribers.length := by
  rcases stepped_subscribers hstep with ⟨-, hsame | ⟨runId, hnew⟩⟩ | ⟨i, sub', -, -, hset⟩
  · rw [hsame]
  · rw [hnew]
    simp
  · rw [hset]
    simp

/-- A subscriber that was not there before an event has begun nothing. -/
theorem stepped_new (hstep : Stepped dumps s l t) {j : ℕ} {sub : Subscriber}
    (hj : t.subscribers[j]? = some sub) (hge : s.subscribers.length ≤ j) :
    sub.generator = .created ∧ sub.received = [] ∧ l.subject = none := by
  have hlt := (List.getElem?_eq_some_iff.mp hj).1
  rcases stepped_subscribers hstep with ⟨hsubject, hsame | ⟨runId, hnew⟩⟩ | ⟨i, sub', -, -, hset⟩
  · rw [hsame] at hlt
    omega
  · rw [hnew, List.length_append, List.length_singleton] at hlt
    rw [hnew, List.getElem?_append_right hge] at hj
    obtain rfl := List.mem_singleton.mp (List.mem_of_getElem? hj)
    exact ⟨rfl, rfl, hsubject⟩
  · rw [hset, List.length_set] at hlt
    omega

/-- **One step** keeps the account. -/
theorem Accounted.step {events : List (Event Payload)} (h : Accounted dumps events s)
    (hstep : Stepped dumps s l t) : Accounted dumps (events ++ [l]) t := by
  have hlength := stepped_length hstep
  -- no event was about a subscriber that is new
  have hfresh : ∀ {j : ℕ}, s.subscribers.length ≤ j → ∀ l' ∈ events, l'.begins j = false := by
    intro j hge l' hl'
    apply Event.begins_of_subject
    intro hsubject
    have hlt := h.subjects l' hl' j hsubject
    omega
  refine ⟨h.wired.step hstep, fun l' hl' i hi => ?_, fun j sub' hj => ?_, fun j sub' hj => ?_⟩
  · rcases List.mem_append.mp hl' with hold | hnew
    · exact (h.subjects l' hold i hi).trans_le hlength
    · obtain rfl := List.mem_singleton.mp hnew
      rcases stepped_subscribers hstep with ⟨hsubject, -⟩ | ⟨k, -, hsubject, hlt, -⟩
      · rw [hsubject] at hi
        cases hi
      · rw [hsubject] at hi
        obtain rfl := Option.some.inj hi
        exact hlt.trans_le hlength
  · by_cases hlt : j < s.subscribers.length
    · obtain ⟨sub, hold, hadvanced⟩ := h.wired.advanced hstep hj hlt
      exact (h.course j sub hold).snoc l hadvanced.begun hadvanced.unregistered
    · obtain ⟨hgen, -, hsubject⟩ := stepped_new hstep hj (not_lt.mp hlt)
      rw [hgen]
      constructor
      · have hnone : ¬ ∃ l' ∈ events ++ [l], l'.begins j = true := by
          rintro ⟨l', hl', hbegins⟩
          rcases List.mem_append.mp hl' with hold | hnew
          · simp [hfresh (not_lt.mp hlt) l' hold] at hbegins
          · obtain rfl := List.mem_singleton.mp hnew
            simp [Event.begins_of_subject (j := j) (by simp [hsubject] : l'.subject ≠ some j)] at hbegins
        simp only [Subscription.queue_created, ne_eq, not_true_eq_false, false_iff]
        exact hnone
      · intro hqueue
        exact absurd rfl hqueue
  · by_cases hlt : j < s.subscribers.length
    · obtain ⟨sub, hold, hadvanced⟩ := h.wired.advanced hstep hj hlt
      rw [hadvanced.owed, h.owed j sub hold, hadvanced.runId,
        (h.course j sub hold).published_snoc sub.runId l]
    · obtain ⟨hgen, hreceived, -⟩ := stepped_new hstep hj (not_lt.mp hlt)
      unfold window
      rw [stretch_first (hfresh (not_lt.mp hlt)), hreceived, queued_none t (by rw [hgen]; rfl)]
      rfl

/-- **A run** keeps the account. -/
theorem accounted_run {events : List (Event Payload)} (hrun : exec (step dumps) empty events = some s) :
    Accounted dumps events s := by
  induction events using List.reverseRecOn generalizing s with
  | nil =>
    obtain rfl := Option.some.inj hrun
    exact accounted_empty
  | append_singleton events l ih =>
    rw [exec_append] at hrun
    obtain ⟨u, hu, hlast⟩ := Option.bind_eq_some_iff.mp hrun
    obtain ⟨v, hv, hend⟩ := exec_cons_some hlast
    obtain rfl := Option.some.inj hend
    exact (ih hu).step (step_some hv)

/-! ### The law -/

/-- What the consumers and the event loop may do next. -/
def Possible (s : EventBus) : Event Payload → Prop
  | .publish _ _ _ => True
  | .subscribe _ => True
  | .next i => ∃ sub, s.subscribers[i]? = some sub ∧
      (sub.generator = .created ∨ ∃ address, sub.generator = .yielded address)
  | .resume i => ∃ sub address, s.subscribers[i]? = some sub ∧ sub.generator = .awaiting address ∧
      s.queued sub ≠ []
  | .cancel i => ∃ sub address, s.subscribers[i]? = some sub ∧ sub.generator = .awaiting address
  | .close i => ∃ sub, s.subscribers[i]? = some sub ∧
      (sub.generator = .created ∨ ∃ address, sub.generator = .yielded address)

/-- A queue that a subscriber has registered can be removed. -/
theorem Wired.stop_isSome (h : Wired s) {i address : ℕ} {sub : Subscriber}
    (hi : s.subscribers[i]? = some sub) (hgen : sub.generator.registered = some address) :
    ∃ t, s.stop i sub address = some t := by
  have hmem : address ∈ s.queues sub.runId :=
    (h.listed sub.runId address).mpr ⟨i, sub, hi, rfl, hgen⟩
  unfold stop
  rw [if_pos hmem]
  exact ⟨_, rfl⟩

/-- Nothing that may happen raises or has to wait. -/
theorem Wired.step_isSome (h : Wired s) (hl : Possible s l) : ∃ t, s.step dumps l = some t := by
  cases l with
  -- every queue has room, whatever is in it
  | publish runId event payload =>
    show ∃ t, s.publish dumps runId event payload = some t
    unfold publish
    cases hdumps : dumps payload with
    | none => exact ⟨s, rfl⟩
    | some data =>
      obtain ⟨heap, hheap, -⟩ := h.putAll (message event data) runId
      refine ⟨{ s with heap }, ?_⟩
      show (EventBus.putAll (message event data) (s.queues runId) s.heap).map _ = _
      rw [hheap]
      rfl
  | subscribe runId => exact ⟨_, rfl⟩
  | next i =>
    obtain ⟨⟨runId, generator, received⟩, hi, rfl | ⟨address, rfl⟩⟩ := hl
    · unfold EventBus.step
      simp [hi]
    · unfold EventBus.step
      simp [hi]
  -- what the client waits for is in its queue
  | resume i =>
    obtain ⟨⟨runId, generator, received⟩, address, hi, rfl, hne⟩ := hl
    rw [queued_some s (Subscription.queue_awaiting address)] at hne
    unfold EventBus.step
    simp only [hi]
    cases hpull : s.pull i ⟨runId, .awaiting address, received⟩ address with
    | some t => exact ⟨t, rfl⟩
    | none =>
      have hlt := h.allocated i _ address hi rfl
      unfold pull at hpull
      rw [List.getElem?_eq_getElem hlt] at hpull
      -- an empty queue would have nothing for it
      cases hget : s.heap[address].get with
      | none =>
        refine absurd ?_ hne
        unfold itemsAt
        rw [List.getElem?_eq_getElem hlt]
        exact MessageQueue.get_none hget
      | some taken =>
        replace hpull : (s.heap[address].get.bind _ : Option EventBus) = none := hpull
        rw [hget] at hpull
        cases hpull
  | cancel i =>
    obtain ⟨⟨runId, generator, received⟩, address, hi, rfl⟩ := hl
    unfold EventBus.step
    simp only [hi]
    exact h.stop_isSome hi rfl
  -- closing before the first call cleans up nothing
  | close i =>
    obtain ⟨⟨runId, generator, received⟩, hi, rfl | ⟨address, rfl⟩⟩ := hl
    · unfold EventBus.step
      simp [hi]
    · unfold EventBus.step
      simp only [hi]
      exact h.stop_isSome hi rfl

/-- An event about nobody or about another subscriber: nothing is lost and nothing repeated. -/
theorem Wired.step_other (h : Wired s) (hstep : Stepped dumps s l t) {j : ℕ} {sub : Subscriber}
    (hj : s.subscribers[j]? = some sub) (hl : l.subject ≠ some j) :
    t.subscribers[j]? = some sub ∧ t.queued sub = s.queued sub ++
      if sub.generator.registered ≠ none then (l.messageTo dumps sub.runId).toList else [] := by
  have hlt := (List.getElem?_eq_some_iff.mp hj).1
  have hsame : t.subscribers[j]? = some sub := by
    rcases stepped_subscribers hstep with ⟨-, hsame | ⟨runId, hnew⟩⟩ | ⟨i, sub', hsubject, -, hset⟩
    · rw [hsame]
      exact hj
    · rw [hnew, List.getElem?_append_left hlt]
      exact hj
    · rw [hset, List.getElem?_set_ne]
      · exact hj
      · rintro rfl
        exact hl hsubject
  refine ⟨hsame, ?_⟩
  obtain ⟨old, hold, hadvanced⟩ := h.advanced hstep hsame hlt
  obtain rfl := Option.some.inj (hj.symm.trans hold)
  have howed := hadvanced.owed
  rw [Event.stops_of_subject hl, List.append_assoc] at howed
  simpa using List.append_cancel_left howed

/-- **Each subscriber sees exactly its run's events.**  After any events, in any order, a subscriber
has received, up to what is left in its queue, the messages published to its run between its
registration and its removal; whatever happens next to others leaves that to it, and adds what is
published to its run; and nothing that may happen next is held up. -/
theorem received_exactly {events : List (Event Payload)}
    (hrun : exec (step dumps) empty events = some s) :
    (∀ (i : ℕ) (sub : Subscriber), s.subscribers[i]? = some sub →
      sub.received ++ s.queued sub = published dumps sub.runId (window i events)) ∧
    (∀ (l : Event Payload) (t : EventBus), s.step dumps l = some t →
      ∀ (j : ℕ) (sub : Subscriber), s.subscribers[j]? = some sub → l.subject ≠ some j →
        t.subscribers[j]? = some sub ∧ t.queued sub = s.queued sub ++
          if sub.generator.registered ≠ none then (l.messageTo dumps sub.runId).toList else []) ∧
    ∀ l : Event Payload, Possible s l → ∃ t, s.step dumps l = some t := by
  have haccount := accounted_run hrun
  refine ⟨haccount.owed, fun l t hstep j sub hj hl => ?_, fun l hl => ?_⟩
  · exact haccount.wired.step_other (step_some hstep) hj hl
  · exact haccount.wired.step_isSome hl

/-- Two subscribers of one run, of which one is cancelled, and one of another run. -/
def sampleEvents : List (Event String) :=
  [.subscribe "run-a", .subscribe "run-a", .subscribe "run-b", .next 0,
   .publish "run-a" "run.running" "\x7b\x7d", .next 1, .resume 0, .next 2,
   .publish "run-b" "run.running" "\x7b\x7d", .publish "run-a" "run.completed" "\x7b\x7d",
   .cancel 1, .next 0, .publish "run-a" "run.failed" "\x7b\x7d"]

/-- The first one has received two messages of its run, and the third is in its queue. -/
theorem sampleEvents_received : ∃ s, exec (step some) empty sampleEvents = some s ∧
    ∀ sub, s.subscribers[0]? = some sub →
      sub.received ++ s.queued sub = published some sub.runId (window 0 sampleEvents) := by
  obtain ⟨s, hrun⟩ := Option.isSome_iff_exists.mp
    (show (exec (step some) empty sampleEvents).isSome = true by decide)
  exact ⟨s, hrun, (received_exactly hrun).1 0⟩

end NexCause.EventBus
