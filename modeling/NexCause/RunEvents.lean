/-
NexCause/RunEvents.lean

The events of RCA runs from the agent to the client of their stream.

`publish` writes an event as a block of an event stream, with its payload as
`json.dumps` writes it; `StreamingResponse` sends what `subscribe` yields.

Main result: whatever the order of publications, requests, cancellations and
closings, and in whatever parts the response arrives, a client has the events
published to its run from its registration on, up to those that have not
arrived whole (`client_has_events`).
-/
import NexCause.EventDelivery
import NexCause.EventStream
import NexCause.JsonText

namespace NexCause.EventBus

open Program Transition

variable {ν : Type}

/-! ### What is published -/

/-- The events that `run_rca` and the graph publish. -/
def eventNames : List String :=
  ["run.skipped", "run.running", "run.completed", "run.failed", "mcp.initialize",
   "mcp.validate_tools", "context.loaded", "supervisor.selected", "agent.started",
   "agent.completed", "verifier.completed", "report.completed"]

/-- `json.dumps` of a payload -/
def dumps (N : Json.Numerals ν) (payload : Json ν) : Option String :=
  some (String.ofList (Json.text Json.python N payload))

/-- What an event publishes to a run. -/
def Event.sentTo (runId : String) : Event (Json ν) → Option (String × Json ν)
  | .publish runId' event payload => if runId' = runId then some (event, payload) else none
  | _ => none

/-- What was published to a run, in order. -/
def sent (runId : String) (events : List (Event (Json ν))) : List (String × Json ν) :=
  events.filterMap (Event.sentTo runId)

/-- Only those names are published. -/
def Named (events : List (Event (Json ν))) : Prop :=
  ∀ (runId event : String) (payload : Json ν), Event.publish runId event payload ∈ events →
    event ∈ eventNames

variable {N : Json.Numerals ν}

theorem published_eq_sent (runId : String) (events : List (Event (Json ν))) :
    published (dumps N) runId events = (sent runId events).map fun e =>
      message e.1 (String.ofList (Json.text Json.python N e.2)) := by
  unfold published sent
  rw [List.map_filterMap]
  congr 1
  funext l
  cases l with
  | publish runId' event payload =>
    rw [Event.messageTo_publish]
    unfold Event.sentTo
    by_cases h : runId' = runId
    · simp [h, dumps]
    · simp [h]
  | _ => rfl

/-! ### Blocks -/

theorem isInline_of_isPrintable {c : Char} (h : Json.isPrintable c = true) :
    EventStream.isInline c = true := by
  have hne : ∀ d : Char, Json.isPrintable d = false → c ≠ d := by
    rintro d hd rfl
    rw [h] at hd
    cases hd
  simp [EventStream.isInline, hne '\n' rfl, hne '\r' rfl, hne '\uFEFF' rfl]

theorem eventNames_inline : ∀ event ∈ eventNames,
    event.toList ≠ [] ∧ event.toList.all EventStream.isInline = true := by
  decide

/-- A published event on the wire. -/
structure OnWire (N : Json.Numerals ν) (e : String × Json ν) (w : EventStream.Event) : Prop where
  type : w.type = e.1.toList
  data : w.data = Json.text Json.python N e.2

theorem OnWire.text {e : String × Json ν} {w : EventStream.Event} (h : OnWire N e w) :
    w.text = (message e.1 (String.ofList (Json.text Json.python N e.2))).toList := by
  unfold EventStream.Event.text EventStream.Event.lines message
  rw [h.type, h.data]
  simp

/-- What the client gets out of it. -/
theorem OnWire.read {e : String × Json ν} {w : EventStream.Event} (h : OnWire N e w)
    (lastEventId : List Char) :
    (String.ofList (w.message lastEventId).type, Json.parse N (w.message lastEventId).data) =
      (e.1, some e.2) := by
  unfold EventStream.Event.message
  rw [h.type, h.data, Json.parse_text, String.ofList_toList]

theorem exists_onWire (N : Json.Numerals ν) {e : String × Json ν} (h : e.1 ∈ eventNames) :
    ∃ w, OnWire N e w := by
  obtain ⟨hne, hinline⟩ := eventNames_inline e.1 h
  refine ⟨⟨e.1.toList, Json.text Json.python N e.2, hne, List.all_eq_true.mp hinline, ?_⟩, rfl, rfl⟩
  intro c hc
  exact isInline_of_isPrintable (Json.isPrintable_python N e.2 c hc)

theorem exists_wire (N : Json.Numerals ν) {es : List (String × Json ν)}
    (h : ∀ e ∈ es, e.1 ∈ eventNames) : ∃ ws, List.Forall₂ (OnWire N) es ws := by
  induction es with
  | nil => exact ⟨[], .nil⟩
  | cons e es ih =>
    obtain ⟨w, hw⟩ := exists_onWire N (h e List.mem_cons_self)
    obtain ⟨ws, hws⟩ := ih fun e' he' => h e' (List.mem_cons_of_mem e he')
    exact ⟨w :: ws, .cons hw hws⟩

/-- The response is the stream of the events. -/
theorem stream_eq {es : List (String × Json ν)} {ws : List EventStream.Event}
    (h : List.Forall₂ (OnWire N) es ws) :
    EventStream.stream ws = (es.map fun e =>
      (message e.1 (String.ofList (Json.text Json.python N e.2))).toList).flatten := by
  induction h with
  | nil => rfl
  | cons hw _ ih =>
    show EventStream.stream (_ :: _) = _
    rw [EventStream.stream, List.flatMap_cons, hw.text, List.map_cons, List.flatten_cons, ← ih]
    rfl

theorem read_eq {es : List (String × Json ν)} {ws : List EventStream.Event}
    (h : List.Forall₂ (OnWire N) es ws) (lastEventId : List Char) :
    (ws.map (EventStream.Event.message lastEventId)).map
        (fun m => (String.ofList m.type, Json.parse N m.data)) =
      es.map fun e => (e.1, some e.2) := by
  induction h with
  | nil => rfl
  | cons hw _ ih =>
    rw [List.map_cons, List.map_cons, List.map_cons, hw.read, ih]

/-! ### The client -/

/-- What a client has made of the response, as far as it has arrived. -/
def clientEvents (N : Json.Numerals ν) (parts : List (List Char)) :
    List (String × Option (Json ν)) :=
  (EventStream.receive parts).map fun m => (String.ofList m.type, Json.parse N m.data)

/-- What the server has sent of the response. -/
def response (sub : Subscriber) : List Char := (sub.received.map String.toList).flatten

theorem sent_named {events : List (Event (Json ν))} (h : Named events) (runId : String) :
    ∀ e ∈ sent runId events, e.1 ∈ eventNames := by
  intro e he
  obtain ⟨l, hl, hsent⟩ := List.mem_filterMap.mp he
  cases l with
  | publish runId' event payload =>
    obtain ⟨-, heq⟩ := Option.ite_none_right_eq_some.mp hsent
    obtain rfl := Option.some.inj heq
    exact h runId' event payload hl
  | _ => cases hsent

theorem Named.window {events : List (Event (Json ν))} (h : Named events) (i : ℕ) :
    Named (window i events) := by
  intro runId event payload hl
  apply h runId event payload
  have hafter := (List.takeWhile_sublist _).subset hl
  exact (List.dropWhile_sublist _).subset ((List.drop_sublist 1 _).subset hafter)

/-- A first part of what was published, as a stream. -/
theorem stream_take {es : List (String × Json ν)} {ws : List EventStream.Event}
    {received queued : List String} (h : List.Forall₂ (OnWire N) es ws)
    (howed : received ++ queued =
      es.map fun e => message e.1 (String.ofList (Json.text Json.python N e.2)))
    {k : ℕ} (hk : k ≤ received.length) :
    EventStream.stream (ws.take k) = ((received.take k).map String.toList).flatten := by
  have htake : received.take k =
      (es.take k).map fun e => message e.1 (String.ofList (Json.text Json.python N e.2)) := by
    rw [List.map_take, ← howed, List.take_append_of_le_length hk]
  rw [stream_eq (List.forall₂_take k h), htake, List.map_map]
  rfl

/-- **The client has its run's events.**  After any events on the bus, in any order, and whatever
part of the response has arrived, in whatever parts: the client has, name by name and payload by
payload, the first of the events published to its run from its registration to its removal, namely
those that have arrived whole; and what was sent to it and what is in its queue are together, in
order, the messages of these events. -/
theorem client_has_events {events : List (Event (Json ν))} {s : EventBus}
    (hrun : exec (step (dumps N)) empty events = some s) (hnamed : Named events) {i : ℕ}
    {sub : Subscriber} (hi : s.subscribers[i]? = some sub) {parts : List (List Char)}
    (harrived : parts.flatten <+: response sub) :
    (∃ n ≤ sub.received.length,
      clientEvents N parts =
        ((sent sub.runId (window i events)).take n).map (fun e => (e.1, some e.2)) ∧
      ((sub.received.take n).map String.toList).flatten <+: parts.flatten ∧
      (n < sub.received.length →
        ¬ ((sub.received.take (n + 1)).map String.toList).flatten <+: parts.flatten)) ∧
    sub.received ++ s.queued sub = (sent sub.runId (window i events)).map fun e =>
      message e.1 (String.ofList (Json.text Json.python N e.2)) := by
  have howed := (accounted_run hrun).owed i sub hi
  rw [published_eq_sent] at howed
  obtain ⟨ws, hws⟩ := exists_wire N (sent_named (hnamed.window i) sub.runId)
  have hlength := congrArg List.length howed
  rw [List.length_append, List.length_map] at hlength
  -- the response is the stream of the events that were yielded
  have hresponse : response sub = EventStream.stream (ws.take sub.received.length) := by
    rw [stream_take hws howed le_rfl, List.take_length]
    rfl
  rw [hresponse] at harrived
  obtain ⟨n, hn, hreceive, hwhole, hnext⟩ := EventStream.receive_stream harrived
  have hle : n ≤ sub.received.length :=
    hn.trans (List.length_take_le _ _)
  have hlengths := hws.length_eq
  rw [List.take_take, min_eq_left hle] at hreceive hwhole
  refine ⟨⟨n, hle, ?_, ?_, fun hlt => ?_⟩, howed⟩
  · unfold clientEvents
    rw [hreceive]
    exact read_eq (List.forall₂_take n hws) []
  · rwa [stream_take hws howed hle] at hwhole
  · have hmore := hnext (by rw [List.length_take]; omega)
    rwa [List.take_take, min_eq_left hlt, stream_take hws howed hlt] at hmore

/-- A subscriber that waits for the second message when the first is on its way. -/
def sampleRun : List (Event (Json ℤ)) :=
  [.subscribe "run-a", .next 0,
   .publish "run-a" "run.running" (.object [("runId", .string "run-a")]), .resume 0,
   .publish "run-b" "run.running" (.object [("runId", .string "run-b")]),
   .publish "run-a" "run.failed" (.object [("runId", .string "run-a"), ("error", .string "é\n")])]

theorem sampleRun_arrived : ∃ s sub, exec (step (dumps Json.decimal)) empty sampleRun = some s ∧
    s.subscribers[0]? = some sub ∧
    ∃ n ≤ sub.received.length,
      clientEvents Json.decimal [(response sub).take 20, ((response sub).drop 20).take 40] =
        ((sent sub.runId (window 0 sampleRun)).take n).map fun e => (e.1, some e.2) := by
  obtain ⟨sub, hsub⟩ := Option.isSome_iff_exists.mp
    (show ((exec (step (dumps Json.decimal)) empty sampleRun).bind
      fun s => s.subscribers[0]?).isSome = true by decide)
  obtain ⟨s, hrun, hsub⟩ := Option.bind_eq_some_iff.mp hsub
  have hparts : [(response sub).take 20, ((response sub).drop 20).take 40].flatten <+:
      response sub := by
    rw [List.flatten_cons, List.flatten_cons, List.flatten_nil, List.append_nil, ← List.take_add]
    exact List.take_prefix _ _
  have hnamed : Named sampleRun := by
    intro runId event payload h
    simp only [sampleRun, List.mem_cons, Event.publish.injEq, reduceCtorEq, List.not_mem_nil,
      false_or, or_false] at h
    rcases h with ⟨-, rfl, -⟩ | ⟨-, rfl, -⟩ | ⟨-, rfl, -⟩ <;> decide
  obtain ⟨⟨n, hn, hevents, -, -⟩, -⟩ := client_has_events hrun hnamed hsub hparts
  exact ⟨s, sub, hrun, hsub, n, hn, hevents⟩

end NexCause.EventBus
