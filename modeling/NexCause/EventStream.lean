/-
NexCause/EventStream.lean

Streams of server-sent events, as a client reads them.

A stream is lines, ended by a line feed, a carriage return or both.  A line
is a field and its value; an empty line dispatches the event that the fields
before it make up, if they gave it data.  The client reads character by
character, so that it does not matter how the stream was cut.

Main result: of the events that a server writes, each as one `event` line, one
`data` line and an empty line, a client has dispatched those that have arrived
whole, in whatever parts the stream arrived (`EventStream.receive_stream`,
`EventStream.receive_whole`).
-/
import Mathlib.Data.List.Basic

namespace EventStream

/-- An event that has been dispatched. -/
structure Message where
  type : List Char
  data : List Char
  lastEventId : List Char
  deriving DecidableEq, Repr

/-- A client in the middle of a stream. -/
structure Client where
  /-- nothing was read yet; a byte order mark may follow -/
  fresh : Bool
  /-- the last character was a carriage return -/
  returned : Bool
  line : List Char
  type : List Char
  data : List Char
  lastEventId : List Char
  dispatched : List Message
  deriving DecidableEq, Repr

/-- A client that has just connected. -/
def connected : Client := ⟨true, false, [], [], [], [], []⟩

namespace Client

/-- An empty line. -/
def dispatch (s : Client) : Client :=
  if s.data = [] then { s with type := [], data := [] }
  else { s with
    type := []
    data := []
    dispatched := s.dispatched ++
      [⟨if s.type = [] then "message".toList else s.type, s.data.dropLast, s.lastEventId⟩] }

/-- A field; of the others, `retry` only sets how soon to connect again. -/
def field (s : Client) (name value : List Char) : Client :=
  if name = "event".toList then { s with type := value }
  else if name = "data".toList then { s with data := s.data ++ value ++ ['\n'] }
  else if name = "id".toList then
    if '\x00' ∈ value then s else { s with lastEventId := value }
  else s

/-- One blank after the colon is no part of the value. -/
def fieldValue : List Char → List Char
  | [] => []
  | c :: value => if c = ' ' then value else c :: value

/-- A line that has ended. -/
def readLine (s : Client) (line : List Char) : Client :=
  if line = [] then s.dispatch
  else if line.head? = some ':' then s
  else s.field (line.takeWhile (· ≠ ':')) (fieldValue ((line.dropWhile (· ≠ ':')).drop 1))

/-- The line so far is a line. -/
def endLine (s : Client) : Client := { s with line := [] }.readLine s.line

/-- One character of the stream. -/
def read (s : Client) (c : Char) : Client :=
  if c = '\n' then
    if s.returned then { s with returned := false } else { s.endLine with fresh := false }
  else if c = '\r' then { s.endLine with fresh := false, returned := true }
  else if s.fresh ∧ c = '\uFEFF' then { s with fresh := false }
  else { s with fresh := false, returned := false, line := s.line ++ [c] }

/-- A part of the stream. -/
def readAll (s : Client) (cs : List Char) : Client := cs.foldl read s

end Client

/-- The events of a stream that has arrived in parts. -/
def receive (parts : List (List Char)) : List Message :=
  (parts.foldl Client.readAll connected).dispatched

/-! ### Lines -/

variable {s : Client} {cs : List Char}

/-- A character that ends no line, and is no mark. -/
def isInline (c : Char) : Bool := c ≠ '\n' && c ≠ '\r' && c ≠ '\uFEFF'

theorem Client.readAll_append (s : Client) (xs ys : List Char) :
    s.readAll (xs ++ ys) = (s.readAll xs).readAll ys := List.foldl_append

/-- However a stream is cut, it is the same stream. -/
theorem Client.foldl_readAll (s : Client) (parts : List (List Char)) :
    parts.foldl Client.readAll s = s.readAll parts.flatten := by
  induction parts generalizing s with
  | nil => rfl
  | cons part parts ih =>
    rw [List.foldl_cons, ih, List.flatten_cons, Client.readAll_append]

theorem Client.read_inline {c : Char} (h : isInline c = true) :
    s.read c = { s with fresh := false, returned := false, line := s.line ++ [c] } := by
  simp only [isInline, Bool.and_eq_true, decide_eq_true_eq] at h
  obtain ⟨⟨hfeed, hreturn⟩, hmark⟩ := h
  unfold Client.read
  rw [if_neg hfeed, if_neg hreturn, if_neg fun hboth => hmark hboth.2]

/-- A text without an end of line goes to the line. -/
theorem Client.readAll_inline (h : ∀ c ∈ cs, isInline c = true) (hfresh : s.fresh = false)
    (hreturned : s.returned = false) : s.readAll cs = { s with line := s.line ++ cs } := by
  induction cs generalizing s with
  | nil =>
    rw [List.append_nil]
    rfl
  | cons c cs ih =>
    show (s.read c).readAll cs = _
    rw [Client.read_inline (h c List.mem_cons_self),
      ih (fun d hd => h d (List.mem_cons_of_mem c hd)) rfl rfl]
    simp [hfresh, hreturned]

/-- Between two lines. -/
structure Client.AtLine (s : Client) : Prop where
  fresh : s.fresh = false
  returned : s.returned = false
  line : s.line = []

theorem Client.AtLine.readLine (h : s.AtLine) (line : List Char) : (s.readLine line).AtLine := by
  unfold Client.readLine Client.dispatch Client.field
  split_ifs <;> exact ⟨h.fresh, h.returned, h.line⟩

/-- A line and its line feed. -/
theorem Client.AtLine.readAll (h : s.AtLine) (hcs : ∀ c ∈ cs, isInline c = true) :
    s.readAll (cs ++ ['\n']) = s.readLine cs := by
  obtain ⟨fresh, returned, line, type, data, lastEventId, dispatched⟩ := s
  obtain ⟨hfresh, hreturned, hline⟩ := h
  obtain rfl : fresh = false := hfresh
  obtain rfl : returned = false := hreturned
  obtain rfl : line = [] := hline
  rw [Client.readAll_append, Client.readAll_inline hcs rfl rfl]
  show { Client.readLine _ cs with fresh := false } = _
  have hat : Client.AtLine ⟨false, false, [], type, data, lastEventId, dispatched⟩ :=
    ⟨rfl, rfl, rfl⟩
  have hfresh := (hat.readLine cs).fresh
  generalize Client.readLine ⟨false, false, [], type, data, lastEventId, dispatched⟩ cs = t at hfresh
  cases t
  obtain rfl := hfresh
  rfl

/-! ### Blocks -/

/-- Between two events. -/
structure Client.AtBlock (s : Client) : Prop extends s.AtLine where
  type : s.type = []
  data : s.data = []

theorem Client.readLine_field {name value : List Char} (hname : name ≠ [])
    (hcolon : ':' ∉ name) :
    s.readLine (name ++ ':' :: ' ' :: value) = s.field name value := by
  have hall : ∀ c ∈ name, decide (c ≠ ':') = true := by
    intro c hc
    apply decide_eq_true
    rintro rfl
    exact hcolon hc
  have hhead : (name ++ ':' :: ' ' :: value).head? ≠ some ':' := by
    cases name with
    | nil => exact absurd rfl hname
    | cons c name =>
      rintro heq
      obtain rfl := Option.some.inj heq
      exact hcolon List.mem_cons_self
  unfold Client.readLine
  rw [if_neg (by simp), if_neg hhead, List.takeWhile_append_of_pos hall,
    List.dropWhile_append_of_pos hall]
  simp [Client.fieldValue]

/-- An event as a server may write it. -/
structure Event where
  type : List Char
  data : List Char
  type_ne : type ≠ []
  type_inline : ∀ c ∈ type, isInline c = true
  data_inline : ∀ c ∈ data, isInline c = true

namespace Event

/-- The lines of an event, without the empty one that ends it. -/
def lines (e : Event) : List Char :=
  "event: ".toList ++ e.type ++ ['\n'] ++ ("data: ".toList ++ e.data ++ ['\n'])

def text (e : Event) : List Char := e.lines ++ ['\n']

def message (lastEventId : List Char) (e : Event) : Message := ⟨e.type, e.data, lastEventId⟩

theorem typeLine_inline (e : Event) : ∀ c ∈ "event: ".toList ++ e.type, isInline c = true := by
  have hname : "event: ".toList.all isInline = true := by decide
  intro c hc
  rcases List.mem_append.mp hc with hc | hc
  · exact List.all_eq_true.mp hname c hc
  · exact e.type_inline c hc

theorem dataLine_inline (e : Event) : ∀ c ∈ "data: ".toList ++ e.data, isInline c = true := by
  have hname : "data: ".toList.all isInline = true := by decide
  intro c hc
  rcases List.mem_append.mp hc with hc | hc
  · exact List.all_eq_true.mp hname c hc
  · exact e.data_inline c hc

end Event

/-- The lines of an event make it up, and dispatch nothing. -/
theorem Client.AtBlock.readAll_lines (h : s.AtBlock) (e : Event) :
    s.readAll e.lines = { s with type := e.type, data := e.data ++ ['\n'] } := by
  have hfirst := h.toAtLine.readLine ("event: ".toList ++ e.type)
  unfold Event.lines
  rw [Client.readAll_append, h.toAtLine.readAll e.typeLine_inline, hfirst.readAll e.dataLine_inline]
  show (s.readLine ("event".toList ++ ':' :: ' ' :: e.type)).readLine
    ("data".toList ++ ':' :: ' ' :: e.data) = _
  rw [Client.readLine_field (by decide) (by decide), Client.readLine_field (by decide) (by decide)]
  unfold Client.field
  simp [h.data]

/-- **A whole event** is dispatched. -/
theorem Client.AtBlock.readAll_text (h : s.AtBlock) (e : Event) :
    s.readAll e.text = { s with dispatched := s.dispatched ++ [e.message s.lastEventId] } := by
  have hat : Client.AtLine { s with type := e.type, data := e.data ++ ['\n'] } :=
    ⟨h.fresh, h.returned, h.line⟩
  have hempty := hat.readAll (show ∀ c ∈ ([] : List Char), isInline c = true by simp)
  rw [List.nil_append] at hempty
  unfold Event.text
  rw [Client.readAll_append, h.readAll_lines, hempty]
  unfold Client.readLine Client.dispatch Event.message
  simp [e.type_ne, h.type, h.data]

/-! ### Streams -/

/-- Nothing that was dispatched is taken back. -/
theorem Client.dispatched_readAll (s : Client) (cs : List Char) :
    s.dispatched <+: (s.readAll cs).dispatched := by
  have hline : ∀ (s : Client) (line : List Char), s.dispatched <+: (s.readLine line).dispatched := by
    intro s line
    unfold Client.readLine Client.dispatch Client.field
    split_ifs
    all_goals first | exact List.prefix_rfl | exact List.prefix_append _ _
  have hread : ∀ (s : Client) (c : Char), s.dispatched <+: (s.read c).dispatched := by
    intro s c
    unfold Client.read
    split_ifs
    · exact List.prefix_rfl
    · exact hline { s with line := [] } s.line
    · exact hline { s with line := [] } s.line
    · exact List.prefix_rfl
    · exact List.prefix_rfl
  induction cs generalizing s with
  | nil => exact List.prefix_rfl
  | cons c cs ih => exact (hread s c).trans (ih (s.read c))

/-- A part of an event that is not the whole dispatches nothing. -/
theorem Client.AtBlock.readAll_part (h : s.AtBlock) {e : Event} (hpart : cs <+: e.text)
    (hne : cs ≠ e.text) : (s.readAll cs).dispatched = s.dispatched := by
  have hlines : cs <+: e.lines := by
    rcases List.prefix_concat_iff.mp hpart with heq | hlines
    · exact absurd heq hne
    · exact hlines
  obtain ⟨more, hmore⟩ := hlines
  have hlast := Client.dispatched_readAll (s.readAll cs) more
  rw [← Client.readAll_append, hmore, h.readAll_lines] at hlast
  exact hlast.eq_of_length (Nat.le_antisymm hlast.length_le (Client.dispatched_readAll s cs).length_le)

/-- What a server sends for some events. -/
def stream (events : List Event) : List Char := events.flatMap Event.text

/-- **A stream** that has arrived up to some character: the events that have arrived whole are
dispatched, and no others. -/
theorem Client.AtBlock.readAll_stream (h : s.AtBlock) {events : List Event}
    (hpart : cs <+: stream events) :
    ∃ n ≤ events.length,
      (s.readAll cs).dispatched =
        s.dispatched ++ (events.take n).map (Event.message s.lastEventId) ∧
      stream (events.take n) <+: cs ∧
      (n < events.length → ¬ stream (events.take (n + 1)) <+: cs) := by
  induction events generalizing s cs with
  | nil =>
    obtain rfl := List.prefix_nil.mp hpart
    exact ⟨0, Nat.le_refl 0, by simp [Client.readAll], List.prefix_rfl, by simp⟩
  | cons e events ih =>
    have hcons : stream (e :: events) = e.text ++ stream events := List.flatMap_cons
    rw [hcons] at hpart
    by_cases hwhole : e.text <+: cs
    · -- the event has arrived whole, and the rest is read behind it
      obtain ⟨rest, rfl⟩ := hwhole
      have hat : Client.AtBlock
          { s with dispatched := s.dispatched ++ [e.message s.lastEventId] } :=
        ⟨⟨h.fresh, h.returned, h.line⟩, h.type, h.data⟩
      obtain ⟨n, hn, hdispatched, harrived, hmore⟩ :=
        ih hat ((List.prefix_append_right_inj e.text).mp hpart)
      refine ⟨n + 1, Nat.succ_le_succ hn, ?_, ?_, fun hlt => ?_⟩
      · rw [Client.readAll_append, h.readAll_text, hdispatched]
        simp
      · rw [List.take_succ_cons]
        exact (List.prefix_append_right_inj e.text).mpr harrived
      · rw [List.take_succ_cons]
        intro hall
        exact hmore (Nat.lt_of_succ_lt_succ hlt) ((List.prefix_append_right_inj e.text).mp hall)
    · -- of the event only a part has arrived, and nothing is dispatched
      have hpart : cs <+: e.text := by
        rcases List.prefix_or_prefix_of_prefix hpart (List.prefix_append e.text _) with hcs | htext
        · exact hcs
        · exact absurd htext hwhole
      refine ⟨0, Nat.zero_le _, ?_, List.nil_prefix, fun _ hall => hwhole ?_⟩
      · rw [h.readAll_part hpart fun heq => hwhole (heq ▸ List.prefix_rfl)]
        simp
      · simpa [stream] using hall

/-- The first character of a stream that has no mark. -/
theorem connected_readAll (h : ∀ c ∈ cs.head?, isInline c = true) :
    (connected.readAll cs).dispatched = ({ connected with fresh := false }.readAll cs).dispatched := by
  cases cs with
  | nil => rfl
  | cons c cs =>
    have hinline := h c rfl
    show (Client.readAll (connected.read c) cs).dispatched =
      (Client.readAll ({ connected with fresh := false }.read c) cs).dispatched
    rw [Client.read_inline hinline, Client.read_inline hinline]

/-- **Of what a client receives**, in whatever parts, the events that have arrived whole are
dispatched, and no others. -/
theorem receive_stream {parts : List (List Char)} {events : List Event}
    (hpart : parts.flatten <+: stream events) :
    ∃ n ≤ events.length, receive parts = (events.take n).map (Event.message []) ∧
      stream (events.take n) <+: parts.flatten ∧
      (n < events.length → ¬ stream (events.take (n + 1)) <+: parts.flatten) := by
  -- a part of a stream does not start with a line break
  have hhead : ∀ c ∈ parts.flatten.head?, isInline c = true := by
    intro c hc
    cases events with
    | nil =>
      rw [List.prefix_nil.mp hpart] at hc
      cases hc
    | cons e events =>
      obtain ⟨more, hmore⟩ := hpart
      cases hflat : parts.flatten with
      | nil =>
        rw [hflat] at hc
        cases hc
      | cons d ds =>
        rw [hflat] at hc hmore
        obtain rfl := Option.some.inj hc
        obtain ⟨rfl, -⟩ := List.cons.inj hmore
        rfl
  -- the client starts between two events
  have hat : Client.AtBlock { connected with fresh := false } := ⟨⟨rfl, rfl, rfl⟩, rfl, rfl⟩
  obtain ⟨n, hn, hdispatched, harrived, hmore⟩ := hat.readAll_stream hpart
  refine ⟨n, hn, ?_, harrived, hmore⟩
  unfold receive
  rw [Client.foldl_readAll, connected_readAll hhead, hdispatched]
  rfl

/-- A stream that has arrived whole. -/
theorem receive_whole {parts : List (List Char)} {events : List Event}
    (h : parts.flatten = stream events) : receive parts = events.map (Event.message []) := by
  have hpart : parts.flatten <+: stream events := h ▸ List.prefix_rfl
  obtain ⟨n, hn, hreceive, -, hmore⟩ := receive_stream hpart
  have hlast : n = events.length := by
    by_contra hne
    apply hmore (by omega)
    rw [h]
    exact ⟨stream (events.drop (n + 1)), by
      unfold stream
      rw [← List.flatMap_append, List.take_append_drop]⟩
  rw [hreceive, hlast, List.take_length]

end EventStream
