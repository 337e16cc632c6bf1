/-
NexCause/SessionService.lean

The sessions of the deployment manager: `SessionService`, each of whose calls
to the database is one atomic step.  `update` and `delete` of Prisma raise when
no row matches, `deleteMany` does not.  Any number of requests run at once,
and every call can take time.

`authenticate` reads the row of its cookie, and then updates or deletes it by
its id.  Another request that removes the row in between makes it raise, and
nothing else does (`authenticate_fails_closed_iff`).
-/
import Mathlib.Data.Rat.Floor
import NexCause.Interleaving
import NexCause.JavaScript

namespace NexCause

open Program Transition

/-! ### Dates -/

/-- `new Date(x)`: the time value in whole milliseconds. -/
def newDate (x : ℚ) : ℤ := if 0 ≤ x then ⌊x⌋ else ⌈x⌉

/-- A time before a date is before the number the date was made of. -/
theorem lt_of_lt_newDate {t : ℕ} {x : ℚ} (h : (t : ℤ) < newDate x) : (t : ℚ) < x := by
  unfold newDate at h
  split at h
  · rw [Int.lt_iff_add_one_le, Int.le_floor] at h
    push_cast at h
    exact (lt_add_one _).trans_le h
  · rename_i hx
    have hneg : ⌈x⌉ ≤ 0 := Int.ceil_le.mpr (by push_cast; exact (not_le.mp hx).le)
    omega

/-! ### Rows -/

/-- What a session is created with. -/
structure AuthSessionData where
  idHash : String
  userId : String
  workspaceId : String
  organizationId : String
  roles : List String
  scopes : List String
  csrfToken : String
  accessTokenEncrypted : Option String
  refreshTokenEncrypted : Option String
  idTokenEncrypted : Option String
  accessTokenExpiresAt : Option ℤ
  idleExpiresAt : ℤ
  absoluteExpiresAt : ℤ
  deriving DecidableEq, Repr

/-- A row of `AuthSession`. -/
structure AuthSession extends AuthSessionData where
  lastSeenAt : ℤ
  deriving DecidableEq, Repr

/-- The `data` of an update; a field that is `undefined` is left alone. -/
structure AuthSessionPatch where
  accessTokenEncrypted : Option String := none
  refreshTokenEncrypted : Option String := none
  idTokenEncrypted : Option String := none
  accessTokenExpiresAt : Option ℤ := none
  lastSeenAt : Option ℤ := none
  idleExpiresAt : Option ℤ := none
  deriving DecidableEq, Repr

/-- An updated row. -/
def AuthSession.patch (row : AuthSession) (data : AuthSessionPatch) : AuthSession :=
  { row with
    accessTokenEncrypted := data.accessTokenEncrypted <|> row.accessTokenEncrypted
    refreshTokenEncrypted := data.refreshTokenEncrypted <|> row.refreshTokenEncrypted
    idTokenEncrypted := data.idTokenEncrypted <|> row.idTokenEncrypted
    accessTokenExpiresAt := data.accessTokenExpiresAt <|> row.accessTokenExpiresAt
    lastSeenAt := data.lastSeenAt.getD row.lastSeenAt
    idleExpiresAt := data.idleExpiresAt.getD row.idleExpiresAt }

@[simp] theorem AuthSession.patch_idHash (row : AuthSession) (data : AuthSessionPatch) :
    (row.patch data).idHash = row.idHash := rfl

@[simp] theorem AuthSession.patch_absoluteExpiresAt (row : AuthSession) (data : AuthSessionPatch) :
    (row.patch data).absoluteExpiresAt = row.absoluteExpiresAt := rfl

/-- The user and the workspace that a session includes, as far as they are read. -/
structure SessionRelations where
  subject : String
  workspaceStatus : String
  deriving DecidableEq, Repr

structure AuthPrincipal where
  userId : String
  subject : String
  workspaceId : String
  organizationId : String
  sessionIdHash : String
  roles : List String
  scopes : List String
  csrfToken : String
  deriving DecidableEq, Repr

/-! ### Calls -/

/-- P2002 and P2025. -/
inductive PrismaError
  | uniqueConstraint
  | recordNotFound
  deriving DecidableEq, Repr

/-- What `SessionService` asks of its surroundings. -/
inductive SessionCall
  /-- `new Date()` and `Date.now()` -/
  | now
  /-- `crypto.randomToken()` -/
  | randomToken
  /-- `findUnique`, with user and workspace -/
  | findUnique (idHash : String)
  | create (data : AuthSessionData)
  /-- `$transaction([create, deleteMany])` -/
  | createAndDelete (data : AuthSessionData) (idHash : String)
  | update (idHash : String) (data : AuthSessionPatch)
  | delete (idHash : String)
  /-- `deleteMany` by the key -/
  | deleteMany (idHash : String)
  /-- `$transaction([deleteMany, deleteMany])` of login attempts and sessions past their time -/
  | deleteExpired (now : ℕ)
  deriving DecidableEq, Repr

/-- What a call returns. -/
abbrev SessionCall.Result : SessionCall → Type
  | .now => ℕ
  | .randomToken => String
  | .findUnique _ => Option (AuthSession × SessionRelations)
  | .create _ => Unit
  | .createAndDelete _ _ => Unit
  | .update _ _ => Unit
  | .delete _ => Unit
  | .deleteMany _ => Unit
  | .deleteExpired _ => ℕ × ℕ

abbrev SessionAction (α : Type) : Type := Prog SessionCall SessionCall.Result PrismaError α

/-- One call. -/
def askSession (c : SessionCall) : SessionAction c.Result := Prog.perform c

/-! ### The service -/

/-- The part of `CryptoService` that sessions use. -/
structure CryptoService where
  hash : String → String
  encrypt : String → String

/-- `auth.idleMinutes` and `auth.absoluteHours`. -/
structure SessionConfig where
  idleMinutes : Option ℚ
  absoluteHours : Option ℚ
  deriving DecidableEq, Repr

/-- `idleMs` -/
def SessionConfig.idleMs (config : SessionConfig) : ℚ := config.idleMinutes.getD 30 * 60000

/-- `absoluteMs` -/
def SessionConfig.absoluteMs (config : SessionConfig) : ℚ := config.absoluteHours.getD 8 * 3600000

structure CreateSessionInput where
  userId : String
  workspaceId : String
  organizationId : String
  roles : List String
  scopes : List String
  accessToken : Option String
  refreshToken : Option String
  idToken : Option String
  accessTokenExpiresAt : Option ℤ
  replaceSessionIdHash : Option String
  deriving DecidableEq, Repr

structure UpdateTokensInput where
  accessToken : Option String
  refreshToken : Option String
  idToken : Option String
  expiresAt : Option ℤ
  deriving DecidableEq, Repr

section Service

variable (crypto : CryptoService) (config : SessionConfig)

/-- The row of a session that is created at `now`. -/
def sessionData (input : CreateSessionInput) (sessionToken csrfToken : String) (now : ℕ) :
    AuthSessionData where
  idHash := crypto.hash sessionToken
  userId := input.userId
  workspaceId := input.workspaceId
  organizationId := input.organizationId
  roles := input.roles
  scopes := input.scopes
  csrfToken := csrfToken
  accessTokenEncrypted := (truthy input.accessToken).map crypto.encrypt
  refreshTokenEncrypted := (truthy input.refreshToken).map crypto.encrypt
  idTokenEncrypted := (truthy input.idToken).map crypto.encrypt
  accessTokenExpiresAt := input.accessTokenExpiresAt
  idleExpiresAt := newDate (now + config.idleMs)
  absoluteExpiresAt := newDate (now + config.absoluteMs)

/-- `createSession` -/
def createSession (input : CreateSessionInput) : SessionAction (String × String) := do
  let sessionToken ← askSession .randomToken
  let csrfToken ← askSession .randomToken
  let now ← askSession .now
  let data := sessionData crypto config input sessionToken csrfToken now
  match truthy input.replaceSessionIdHash with
  | some idHash => askSession (.createAndDelete data idHash)
  | none => askSession (.create data)
  return (sessionToken, csrfToken)

/-- The session may not be used any more. -/
def sessionLapsed (session : AuthSession) (relations : SessionRelations) : SessionAction Bool := do
  if session.idleExpiresAt ≤ (← askSession .now) then return true
  if session.absoluteExpiresAt ≤ (← askSession .now) then return true
  return relations.workspaceStatus ≠ "active"

/-- `toPrincipal` -/
def toPrincipal (session : AuthSession) (relations : SessionRelations) : AuthPrincipal where
  userId := session.userId
  subject := relations.subject
  workspaceId := session.workspaceId
  organizationId := session.organizationId
  sessionIdHash := session.idHash
  roles := session.roles
  scopes := session.scopes
  csrfToken := session.csrfToken

/-- The date to which a use at `now` moves the idle expiry. -/
def slidTo (session : AuthSession) (now : ℕ) : ℤ :=
  newDate (min (now + config.idleMs) session.absoluteExpiresAt)

/-- The rest of `authenticate`, when the session was found. -/
def authenticateFound (idHash : String) (session : AuthSession) (relations : SessionRelations) :
    SessionAction (Option AuthPrincipal) := do
  if ← sessionLapsed session relations then
    askSession (.delete idHash)
    return none
  let lastSeenAt ← askSession .now
  let now ← askSession .now
  askSession (.update idHash
    { lastSeenAt := some lastSeenAt, idleExpiresAt := some (slidTo config session now) })
  return some (toPrincipal session relations)

/-- `authenticate` -/
def authenticate (sessionToken : String) : SessionAction (Option AuthPrincipal) := do
  match ← askSession (.findUnique (crypto.hash sessionToken)) with
  | none => return none
  | some (session, relations) =>
      authenticateFound config (crypto.hash sessionToken) session relations

/-- `updateTokens` -/
def updateTokens (idHash : String) (input : UpdateTokensInput) : SessionAction Unit :=
  askSession (.update idHash
    { accessTokenEncrypted := (truthy input.accessToken).map crypto.encrypt
      refreshTokenEncrypted := (truthy input.refreshToken).map crypto.encrypt
      idTokenEncrypted := (truthy input.idToken).map crypto.encrypt
      accessTokenExpiresAt := input.expiresAt })

/-- `destroy` -/
def destroy (sessionIdHash : String) : SessionAction Unit :=
  askSession (.deleteMany sessionIdHash)

/-- `cleanup` -/
def cleanup : SessionAction ℕ := do
  let now ← askSession .now
  let (attempts, sessions) ← askSession (.deleteExpired now)
  return attempts + sessions

/-- The operations on sessions. -/
inductive SessionRequest
  | createSession (input : CreateSessionInput)
  | authenticate (sessionToken : String)
  | updateTokens (idHash : String) (input : UpdateTokensInput)
  | destroy (sessionIdHash : String)
  | cleanup
  deriving DecidableEq, Repr

/-- What they return. -/
inductive SessionResponse
  | tokens (sessionToken csrfToken : String)
  | principal (p : Option AuthPrincipal)
  | done
  | count (n : ℕ)
  deriving DecidableEq, Repr

/-- The program of a request. -/
def SessionRequest.program : SessionRequest → SessionAction SessionResponse
  | .createSession input => do
      let (sessionToken, csrfToken) ← NexCause.createSession crypto config input
      return .tokens sessionToken csrfToken
  | .authenticate sessionToken => do
      return .principal (← NexCause.authenticate crypto config sessionToken)
  | .updateTokens idHash input => do
      NexCause.updateTokens crypto idHash input
      return .done
  | .destroy sessionIdHash => do
      NexCause.destroy sessionIdHash
      return .done
  | .cleanup => do
      return .count (← NexCause.cleanup)

end Service

/-! ### The database -/

/-- The table of sessions, and the clock. -/
structure SessionWorld where
  now : ℕ
  sessions : List AuthSession
  deriving DecidableEq, Repr

/-- The keys of the table. -/
def SessionWorld.keys (s : SessionWorld) : List String := s.sessions.map (·.idHash)

/-- What the environment chooses at a call: the time that passes before it, and what comes from
outside the table. -/
structure SessionChoice where
  elapsed : ℕ
  token : String
  relations : SessionRelations
  attempts : ℕ
  deriving DecidableEq, Repr

/-- `create` -/
def SessionWorld.create (s : SessionWorld) (data : AuthSessionData) :
    Except PrismaError Unit × SessionWorld :=
  if data.idHash ∈ s.keys then (.error .uniqueConstraint, s)
  else (.ok (), { s with sessions := s.sessions ++ [{ data with lastSeenAt := s.now }] })

/-- `deleteMany` -/
def SessionWorld.deleteMany (s : SessionWorld) (cond : AuthSession → Bool) : SessionWorld :=
  { s with sessions := s.sessions.filter (!cond ·) }

/-- The idle or the absolute expiry has come. -/
def AuthSession.expired (now : ℕ) (row : AuthSession) : Bool :=
  row.idleExpiresAt ≤ now || row.absoluteExpiresAt ≤ now

/-- An operation that raises when there is no row. -/
def SessionWorld.onRow (s : SessionWorld) (idHash : String) (f : SessionWorld → SessionWorld) :
    Except PrismaError Unit × SessionWorld :=
  if idHash ∈ s.keys then (.ok (), f s) else (.error .recordNotFound, s)

/-- The row of a key, updated. -/
def SessionWorld.patch (s : SessionWorld) (idHash : String) (data : AuthSessionPatch) :
    SessionWorld :=
  { s with sessions := s.sessions.map fun row => if row.idHash = idHash then row.patch data else row }

/-- The answer to a call, in the state at the time of the call. -/
def SessionWorld.answer (s : SessionWorld) (x : SessionChoice) :
    (c : SessionCall) → Except PrismaError c.Result × SessionWorld
  | .now => (.ok s.now, s)
  | .randomToken => (.ok x.token, s)
  | .findUnique idHash =>
      (.ok ((s.sessions.find? (·.idHash = idHash)).map fun row => (row, x.relations)), s)
  | .create data => s.create data
  | .createAndDelete data idHash =>
      match s.create data with
      | (.ok (), t) => (.ok (), t.deleteMany (·.idHash = idHash))
      | (.error e, t) => (.error e, t)
  | .update idHash data => s.onRow idHash (·.patch idHash data)
  | .delete idHash => s.onRow idHash (·.deleteMany (·.idHash = idHash))
  | .deleteMany idHash => (.ok (), s.deleteMany (·.idHash = idHash))
  | .deleteExpired now =>
      (.ok (x.attempts, (s.sessions.filter (·.expired now)).length), s.deleteMany (·.expired now))

/-- The database. -/
def serveSession : Service SessionCall SessionCall.Result PrismaError SessionChoice SessionWorld :=
  fun c x s => SessionWorld.answer { s with now := s.now + x.elapsed } x c

/-- Requests in progress. -/
abbrev SessionPool : Type :=
  Pool SessionRequest SessionCall SessionCall.Result PrismaError SessionResponse SessionWorld

/-- Requests that have not begun. -/
def startSessions (crypto : CryptoService) (config : SessionConfig) (s : SessionWorld)
    (requests : List SessionRequest) : SessionPool :=
  .start s (requests.map fun q => (q, q.program crypto config))

/-! ### `authenticate` raises when a write finds no row -/

/-- The calls of `authenticate`. -/
def SessionCall.ofAuthenticate : SessionCall → Prop
  | .now => True
  | .findUnique _ => True
  | .update _ _ => True
  | .delete _ => True
  | _ => False

/-- The row that a call of `authenticate` writes. -/
def SessionCall.writes : SessionCall → Option String
  | .update idHash _ => some idHash
  | .delete idHash => some idHash
  | _ => none

theorem askSession_transparent (c : SessionCall) : (askSession c).Transparent :=
  Prog.transparent_perform c

theorem sessionLapsed_transparent (session : AuthSession) (relations : SessionRelations) :
    (sessionLapsed session relations).Transparent := by
  apply Prog.Transparent.bind (askSession_transparent _)
  intro idle
  show Prog.Transparent (if _ then _ else _)
  split
  · trivial
  · apply Prog.Transparent.bind (askSession_transparent _)
    intro absolute
    show Prog.Transparent (if _ then _ else _)
    split
    · trivial
    · trivial

theorem authenticate_transparent (crypto : CryptoService) (config : SessionConfig)
    (sessionToken : String) : (authenticate crypto config sessionToken).Transparent := by
  apply Prog.Transparent.bind (askSession_transparent _)
  intro found
  cases found with
  | none => trivial
  | some row =>
    obtain ⟨session, relations⟩ := row
    apply Prog.Transparent.bind (sessionLapsed_transparent session relations)
    intro lapsed
    cases lapsed with
    | true =>
      apply Prog.Transparent.bind (askSession_transparent _)
      exact fun _ => trivial
    | false =>
      apply Prog.Transparent.bind (askSession_transparent _)
      intro lastSeenAt
      apply Prog.Transparent.bind (askSession_transparent _)
      intro now
      apply Prog.Transparent.bind (askSession_transparent _)
      exact fun _ => trivial

theorem authenticateRequest_transparent (crypto : CryptoService) (config : SessionConfig)
    (sessionToken : String) :
    ((SessionRequest.authenticate sessionToken).program crypto config).Transparent := by
  apply Prog.Transparent.bind (authenticate_transparent crypto config sessionToken)
  exact fun _ => trivial

theorem sessionLapsed_calls (session : AuthSession) (relations : SessionRelations) :
    (sessionLapsed session relations).Calls (· = .now) := by
  have hnow : (askSession .now).Calls (· = SessionCall.now) := Prog.calls_perform.mpr rfl
  apply hnow.bind
  intro idle
  show Prog.Calls _ (if _ then _ else _)
  split
  · trivial
  · apply hnow.bind
    intro absolute
    show Prog.Calls _ (if _ then _ else _)
    split
    · trivial
    · trivial

/-- `authenticate` looks at the clock, and at one row, which it moves forward or deletes. -/
theorem authenticate_makes (crypto : CryptoService) (config : SessionConfig) (sessionToken : String)
    {P : SessionCall → Prop} (hnow : P .now) (hfind : P (.findUnique (crypto.hash sessionToken)))
    (hupdate : ∀ (lastSeenAt : ℕ) (idleExpiresAt : ℤ), P (.update (crypto.hash sessionToken)
      { lastSeenAt := some lastSeenAt, idleExpiresAt := some idleExpiresAt }))
    (hdelete : P (.delete (crypto.hash sessionToken))) :
    (authenticate crypto config sessionToken).Calls P := by
  apply Prog.Calls.bind (Prog.calls_perform.mpr hfind)
  intro found
  cases found with
  | none => trivial
  | some row =>
    obtain ⟨session, relations⟩ := row
    apply Prog.Calls.bind
    · exact (sessionLapsed_calls session relations).mono fun c hc => hc ▸ hnow
    intro lapsed
    cases lapsed with
    | true =>
      apply Prog.Calls.bind (Prog.calls_perform.mpr hdelete)
      exact fun _ => trivial
    | false =>
      apply Prog.Calls.bind (Prog.calls_perform.mpr hnow)
      intro lastSeenAt
      apply Prog.Calls.bind (Prog.calls_perform.mpr hnow)
      intro now
      apply Prog.Calls.bind (Prog.calls_perform.mpr (hupdate _ _))
      exact fun _ => trivial

theorem authenticate_calls (crypto : CryptoService) (config : SessionConfig)
    (sessionToken : String) :
    (authenticate crypto config sessionToken).Calls SessionCall.ofAuthenticate :=
  authenticate_makes crypto config sessionToken trivial trivial (fun _ _ => trivial) trivial

/-- Which calls of `authenticate` fail. -/
theorem serveSession_error {c : SessionCall} (hc : c.ofAuthenticate) (x : SessionChoice)
    (s : SessionWorld) :
    (∃ e, (serveSession c x s).1 = .error e) ↔ ∃ idHash, c.writes = some idHash ∧ idHash ∉ s.keys := by
  have hrow : ∀ (idHash : String) (f : SessionWorld → SessionWorld),
      (∃ e, (SessionWorld.onRow { s with now := s.now + x.elapsed } idHash f).1 = .error e) ↔
        idHash ∉ s.keys := by
    intro idHash f
    unfold SessionWorld.onRow
    rw [show SessionWorld.keys { s with now := s.now + x.elapsed } = s.keys from rfl]
    split
    · rename_i hmem
      simp [hmem]
    · rename_i hmem
      simp [hmem]
  cases c with
  | update idHash data =>
    apply (hrow idHash _).trans
    simp [SessionCall.writes]
  | delete idHash =>
    apply (hrow idHash _).trans
    simp [SessionCall.writes]
  | now => simp [serveSession, SessionWorld.answer, SessionCall.writes]
  | findUnique idHash => simp [serveSession, SessionWorld.answer, SessionCall.writes]
  | _ => exact hc.elim

/-- The request is one to authenticate. -/
def SessionRequest.isAuthenticate : SessionRequest → Bool
  | .authenticate _ => true
  | _ => false

/-- No call of `authenticate` has raised. -/
def FailsClosed (s : SessionPool) : Prop :=
  ∀ task ∈ s.tasks, task.1.isAuthenticate = true → ¬ task.2.Raised

/-- When the step is an update or a deletion of `authenticate`, its row is there. -/
def WritesFindRow (s : SessionPool) (l : ℕ × SessionChoice) : Prop :=
  match s.next l.1 with
  | some (q, c) => q.isAuthenticate = true → ∀ idHash ∈ c.writes, idHash ∈ s.state.keys
  | none => True

instance (s : SessionPool) (l : ℕ × SessionChoice) : Decidable (WritesFindRow s l) := by
  unfold WritesFindRow
  split <;> infer_instance

/-- What is left of every `authenticate` that has not raised. -/
def Authenticating (s : SessionPool) : Prop :=
  ∀ (i : ℕ) (q : SessionRequest) (p : SessionAction SessionResponse), s.tasks[i]? = some (q, p) →
    q.isAuthenticate = true → (p.Transparent ∨ p.Raised) ∧ p.Calls SessionCall.ofAuthenticate

theorem authenticating_start (crypto : CryptoService) (config : SessionConfig) (s : SessionWorld)
    (requests : List SessionRequest) : Authenticating (startSessions crypto config s requests) := by
  intro i q p hi hq
  obtain ⟨q', -, heq⟩ := Option.map_eq_some_iff.mp (List.getElem?_map .. ▸ hi)
  obtain ⟨rfl, rfl⟩ := Prod.mk.inj heq
  cases q' with
  | authenticate sessionToken =>
    constructor
    · left
      exact authenticateRequest_transparent crypto config sessionToken
    · apply Prog.Calls.bind (authenticate_calls crypto config sessionToken)
      exact fun _ => trivial
  | _ => cases hq

theorem failsClosed_start (crypto : CryptoService) (config : SessionConfig) (s : SessionWorld)
    (requests : List SessionRequest) : FailsClosed (startSessions crypto config s requests) := by
  intro task htask hauth
  obtain ⟨q, -, rfl⟩ := List.mem_map.mp htask
  cases q with
  | authenticate sessionToken =>
    exact (authenticateRequest_transparent crypto config sessionToken).not_raised
  | _ => cases hauth

/-- **One step** raises in a call of `authenticate` exactly if it is a write that
finds no row. -/
theorem session_step {s t : SessionPool} {l : ℕ × SessionChoice} (h : Authenticating s)
    (hclosed : FailsClosed s) (hstep : Pool.step serveSession s l = some t) :
    Authenticating t ∧ (FailsClosed t ↔ WritesFindRow s l) := by
  obtain ⟨q, c, k, hq, rfl⟩ := Pool.step_some hstep
  have hmem := List.mem_of_getElem? hq
  -- the program that moves, if it is one of `authenticate`
  have hmoves : q.isAuthenticate = true →
      (Prog.call c k).Transparent ∧ (Prog.call c k).Calls SessionCall.ofAuthenticate := by
    intro hauth
    obtain ⟨htransparent | hraised, hcalls⟩ := h _ _ _ hq hauth
    · exact ⟨htransparent, hcalls⟩
    · exact absurd hraised (hclosed _ hmem hauth)
  constructor
  · intro i q' p hi hauth
    rcases Pool.getElem?_set_cases hi with ⟨rfl, heq⟩ | ⟨-, hi⟩
    · obtain ⟨rfl, rfl⟩ := Prod.mk.inj heq
      obtain ⟨htransparent, hcalls⟩ := hmoves hauth
      refine ⟨?_, hcalls.2 _⟩
      cases hr : (serveSession c l.2 s.state).1 with
      | ok a => exact .inl (htransparent.1 a)
      | error e => exact .inr ((htransparent.raised_iff _).mpr ⟨e, rfl⟩)
    · exact h i q' p hi hauth
  · have hcondition : WritesFindRow s l ↔
        (q.isAuthenticate = true → ∀ idHash ∈ c.writes, idHash ∈ s.state.keys) := by
      unfold WritesFindRow
      rw [Pool.next_some.mpr ⟨k, hq⟩]
    rw [hcondition]
    constructor
    · intro hfails hauth idHash hwrites
      obtain ⟨htransparent, hcalls⟩ := hmoves hauth
      by_contra hnot
      have herror := (serveSession_error hcalls.1 l.2 s.state).mpr ⟨idHash, hwrites, hnot⟩
      refine hfails (q, k _) ?_ hauth ((htransparent.raised_iff _).mpr herror)
      exact List.mem_set (List.getElem?_eq_some_iff.mp hq).1 _
    · intro hrow task htask hauth hraised
      rcases List.mem_or_eq_of_mem_set htask with htask | rfl
      · exact hclosed task htask hauth hraised
      · obtain ⟨htransparent, hcalls⟩ := hmoves hauth
        have herror := (htransparent.raised_iff _).mp hraised
        obtain ⟨idHash, hwrites, hnot⟩ := (serveSession_error hcalls.1 l.2 s.state).mp herror
        exact hnot (hrow hauth idHash hwrites)

/-- **Authentication fails closed.**  In a run of any requests on sessions, no
call of `authenticate` ever raises exactly if each of their updates and
deletions finds its row. -/
theorem authenticate_fails_closed_iff {crypto : CryptoService} {config : SessionConfig}
    {s : SessionWorld} {requests : List SessionRequest} {ls : List (ℕ × SessionChoice)}
    {t : SessionPool}
    (hrun : exec (Pool.step serveSession) (startSessions crypto config s requests) ls = some t) :
    Along (Pool.step serveSession) WritesFindRow (startSessions crypto config s requests) ls ↔
      Always (Pool.step serveSession) FailsClosed (startSessions crypto config s requests) ls := by
  apply along_iff_always (J := Authenticating) _ (authenticating_start crypto config s requests)
    (failsClosed_start crypto config s requests) hrun
  exact fun s l t hs hclosed hstep => session_step hs hclosed hstep

/-- Two random tokens, and the SHA-256 hash on them. -/
def sampleCookie : String := "yLHFP1a-BtsGsNZGAisJhXNQ0G4dpf0oq2ksJ8PeVUE"

def sampleCsrfToken : String := "9P4jRKSag98DDh_SIOA0i8kUVQR0CcTsISWg0MeqMCA"

def sampleCrypto : CryptoService where
  hash s :=
    if s = sampleCookie then "xpBrSsZUfx8cqjAJkG4fm09ihHMiFAwGfc-wLlQgIdw"
    else if s = sampleCsrfToken then "V-vhCxRKVXW3mni8cuCe58yhGRl_b9VebTTow5OQbK8"
    else s
  encrypt s := s

/-- A table with one session of thirty minutes, created at time 0. -/
def oneSession : SessionWorld :=
  ⟨0, [⟨⟨sampleCrypto.hash sampleCookie, "user-a", "workspace-a", "organization-a", ["Viewer"],
    ["deployments:read"], sampleCsrfToken, none, none, none, none, 1800000, 28800000⟩, 0⟩]⟩

def sampleSessionConfig : SessionConfig := ⟨some 30, some 8⟩

/-- The next call of request `i`, after `elapsed` milliseconds, with the workspace active. -/
def sessionTurn (i elapsed : ℕ) : ℕ × SessionChoice :=
  (i, ⟨elapsed, "", ⟨"subject-a", "active"⟩, 0⟩)

/-- Two requests with one cookie, a minute after the login, one after the other. -/
theorem authenticate_twice :
    Always (Pool.step serveSession) FailsClosed
      (startSessions sampleCrypto sampleSessionConfig oneSession
        [.authenticate sampleCookie, .authenticate sampleCookie])
      ([60000, 0, 0, 0, 0, 1].map (sessionTurn 0) ++ [5, 0, 0, 0, 0, 1].map (sessionTurn 1)) := by
  obtain ⟨t, hrun⟩ := Option.isSome_iff_exists.mp
    (show (exec (Pool.step serveSession)
      (startSessions sampleCrypto sampleSessionConfig oneSession
        [.authenticate sampleCookie, .authenticate sampleCookie])
      ([60000, 0, 0, 0, 0, 1].map (sessionTurn 0) ++
        [5, 0, 0, 0, 0, 1].map (sessionTurn 1))).isSome = true by decide +kernel)
  exact (authenticate_fails_closed_iff hrun).mp (by decide +kernel)

/-- Two requests with one cookie, thirty minutes after the login: both read the
row, both delete it, and the second one raises. -/
theorem authenticate_expired_raises :
    ∃ t, exec (Pool.step serveSession)
        (startSessions sampleCrypto sampleSessionConfig oneSession
          [.authenticate sampleCookie, .authenticate sampleCookie])
        ([(0, 1800000), (1, 0), (0, 0), (1, 0), (0, 1), (1, 1)].map fun e => sessionTurn e.1 e.2) =
        some t ∧ ¬ FailsClosed t := by
  obtain ⟨t, hrun, ht⟩ := (Option.any_eq_true ..).mp
    (show (exec (Pool.step serveSession)
        (startSessions sampleCrypto sampleSessionConfig oneSession
          [.authenticate sampleCookie, .authenticate sampleCookie])
        ([(0, 1800000), (1, 0), (0, 0), (1, 0), (0, 1), (1, 1)].map fun e =>
          sessionTurn e.1 e.2)).any
      (fun t => t.tasks.any fun task => task.1.isAuthenticate && decide task.2.Raised) = true by decide)
  obtain ⟨task, hmem, htask⟩ := List.any_eq_true.mp ht
  rw [Bool.and_eq_true, decide_eq_true_eq] at htask
  exact ⟨t, hrun, fun hclosed => hclosed task hmem htask.1 htask.2⟩

end NexCause
