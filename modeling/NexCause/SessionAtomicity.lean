/-
NexCause/SessionAtomicity.lean

Login and organization switch, with a call that fails anywhere in between.

Both create the session in one statement, a switch in the transaction that
deletes the old one.  Before it nothing but tokens is written.  After it there
is an audit event to write, and a login still has to build its redirect; where
one of these fails, the function throws, and the new session stays.

Main result: both are all or nothing exactly if the audit event gets written
and the redirect can be built, where they are reached
(`sessions_all_or_nothing_iff`).
-/
import NexCause.LoginAttempts
import NexCause.LoginRedirect
import NexCause.OidcService
import NexCause.SessionLineage

namespace NexCause

open Program Prog

/-! ### `completeLogin` -/

/-- What `completeLogin` asks of its surroundings. -/
inductive LoginCall
  | consumeLoginAttempt (state : String)
  | completeCallback (params : Query) (state nonce codeVerifier : String)
  | auth (c : AuthCall)
  deriving DecidableEq, Repr

abbrev LoginCall.Result : LoginCall → Type
  | .consumeLoginAttempt _ => Option ConsumedLoginAttempt
  | .completeCallback _ _ _ _ => VerifiedIdentity × CallbackTokens
  | .auth c => c.Result

inductive CallbackError
  | auth (e : AuthError)
  /-- of `new URL` -/
  | typeError
  deriving DecidableEq, Repr

/-- The errors that the other services see. -/
def CallbackError.ofAuth : CallbackError → Option AuthError
  | .auth e => some e
  | .typeError => none

abbrev CallbackAction (α : Type) : Type := Prog LoginCall LoginCall.Result CallbackError α

/-- What `completeLogin` shares with `AuthService`. -/
def onAuth {α : Type} (p : AuthAction α) : CallbackAction α :=
  p.embed LoginCall.auth (fun _ a => a) CallbackError.ofAuth CallbackError.auth

section Login

variable {H : Type} (parseHost : List Char → Option H) (uiUrl : Option String)
variable (crypto : AuthCrypto) (config : SessionConfig)

/-- The expiry of the tokens of a callback. -/
def callbackExpiry (tokenSet : CallbackTokens) : Option ℤ :=
  (truthyNumber tokenSet.expiresAt).map fun t => newDate (t * 1000)

/-- `redirectUrl`, which may throw. -/
def redirectAfter (returnTo : Option String) : CallbackAction (Redirect H) :=
  match redirectUrl parseHost uiUrl returnTo with
  | some redirect => return redirect
  | none => Prog.throw .typeError

/-- The rest of `completeLogin`, with the attempt. -/
def loginWith (params : Query) (state : String) (attempt : ConsumedLoginAttempt) :
    CallbackAction ((String × String) × Redirect H) := do
  let (identity, tokenSet) ←
    perform (LoginCall.completeCallback params state attempt.nonce attempt.codeVerifier)
  let (workspaceId, userId) ← onAuth (askAuth (.resolveIdentity identity))
  let session ← onAuth (onSessions (createSession crypto.toCryptoService config
    { userId := userId
      workspaceId := workspaceId
      organizationId := identity.organizationId
      roles := identity.roles
      scopes := identity.scopes
      accessToken := tokenSet.accessToken
      refreshToken := tokenSet.refreshToken
      idToken := tokenSet.idToken
      accessTokenExpiresAt := callbackExpiry tokenSet
      replaceSessionIdHash := none }))
  onAuth (askAuth (.audit userId workspaceId "auth.login" "success"))
  let redirect ← redirectAfter parseHost uiUrl attempt.returnTo
  return (session, redirect)

/-- `query.state`, unless it is empty or a list. -/
def stateOf (params : Query) : Option String :=
  match params.lookup "state" with
  | some (.one state) => truthy (some state)
  | _ => none

/-- `completeLogin` -/
def completeLogin (params : Query) : CallbackAction ((String × String) × Redirect H) :=
  match stateOf params with
  | none => Prog.throw (.auth (.badRequest "OIDC state is missing"))
  | some state => do
      let consumed : Option ConsumedLoginAttempt ← perform (LoginCall.consumeLoginAttempt state)
      match consumed with
      | none => Prog.throw (.auth (.unauthorized "The login attempt is invalid or expired"))
      | some attempt => loginWith parseHost uiUrl crypto config params state attempt

end Login

/-- What the environment chooses at a call. -/
structure LoginChoice where
  auth : AuthChoice
  callback : VerifiedIdentity × CallbackTokens

/-- The services, where this attempt is stored for the state; any call may fail. -/
def serveLogin (attempt : Option ConsumedLoginAttempt) :
    Service LoginCall LoginCall.Result CallbackError LoginChoice SessionWorld
  | .consumeLoginAttempt _, x, s =>
      match x.auth.fault with
      | some e => (.error (.auth e), s)
      | none => (.ok attempt, s)
  | .completeCallback _ _ _ _, x, s =>
      match x.auth.fault with
      | some e => (.error (.auth e), s)
      | none => (.ok x.callback, s)
  | .auth c, x, s =>
      let answered := serveAuth c x.auth s
      (answered.1.mapError .auth, answered.2)

/-! ### Sessions but for their tokens -/

/-- A row without its tokens. -/
def AuthSession.untokened (row : AuthSession) : AuthSession :=
  { row with
    accessTokenEncrypted := none
    refreshTokenEncrypted := none
    idTokenEncrypted := none
    accessTokenExpiresAt := none }

@[simp] theorem AuthSession.untokened_idHash (row : AuthSession) :
    row.untokened.idHash = row.idHash := rfl

/-- A patch without tokens. -/
def AuthSessionPatch.untokened (data : AuthSessionPatch) : AuthSessionPatch :=
  { lastSeenAt := data.lastSeenAt, idleExpiresAt := data.idleExpiresAt }

theorem AuthSession.patch_untokened (row : AuthSession) (data : AuthSessionPatch) :
    (row.patch data).untokened = row.untokened.patch data.untokened := rfl

/-- The table without the tokens. -/
def SessionWorld.untokened (s : SessionWorld) : List AuthSession :=
  s.sessions.map AuthSession.untokened

theorem untokened_keys (s : SessionWorld) : s.untokened.map (·.idHash) = s.keys := by
  unfold SessionWorld.untokened SessionWorld.keys
  rw [List.map_map]
  rfl

theorem keys_eq_of_untokened {s t : SessionWorld} (h : s.untokened = t.untokened) :
    s.keys = t.keys := by
  rw [← untokened_keys, ← untokened_keys, h]

theorem untokened_patch (s : SessionWorld) (idHash : String) (data : AuthSessionPatch) :
    (s.patch idHash data).untokened =
      s.untokened.map fun row => if row.idHash = idHash then row.patch data.untokened else row := by
  unfold SessionWorld.untokened SessionWorld.patch
  rw [List.map_map, List.map_map]
  apply List.map_congr_left
  intro row _
  show AuthSession.untokened (if row.idHash = idHash then row.patch data else row) =
    if row.idHash = idHash then row.untokened.patch data.untokened else row.untokened
  split
  · exact row.patch_untokened data
  · rfl

theorem untokened_deleteMany (s : SessionWorld) (idHash : String) :
    (s.deleteMany (·.idHash = idHash)).untokened = s.untokened.filter (·.idHash ≠ idHash) := by
  unfold SessionWorld.untokened SessionWorld.deleteMany
  rw [List.filter_map]
  congr 1
  apply List.filter_congr
  intro row _
  exact (decide_not ..).symm

theorem untokened_find (s : SessionWorld) (idHash : String) :
    s.untokened.find? (·.idHash = idHash) =
      (s.sessions.find? (·.idHash = idHash)).map AuthSession.untokened := by
  unfold SessionWorld.untokened
  rw [List.find?_map]
  rfl

/-- A call of `authenticate` after the row was read. -/
def SessionCall.tokenless : SessionCall → Prop
  | .now => True
  | .update _ _ => True
  | .delete _ => True
  | _ => False

/-- Such a call does not see tokens. -/
theorem serveSession_tokenless {c : SessionCall} (hc : c.tokenless) (x : SessionChoice)
    {s t : SessionWorld} (hnow : s.now = t.now) (h : s.untokened = t.untokened) :
    (serveSession c x s).1 = (serveSession c x t).1 ∧
      (serveSession c x s).2.now = (serveSession c x t).2.now ∧
      (serveSession c x s).2.untokened = (serveSession c x t).2.untokened := by
  have hkeys : s.keys = t.keys := keys_eq_of_untokened h
  -- whether the row is there shows in the keys
  have hrow : ∀ (idHash : String) (f : SessionWorld → SessionWorld),
      (∀ s t : SessionWorld, s.now = t.now → s.untokened = t.untokened →
        (f s).now = (f t).now ∧ (f s).untokened = (f t).untokened) →
      (SessionWorld.onRow { s with now := s.now + x.elapsed } idHash f).1 =
          (SessionWorld.onRow { t with now := t.now + x.elapsed } idHash f).1 ∧
        (SessionWorld.onRow { s with now := s.now + x.elapsed } idHash f).2.now =
          (SessionWorld.onRow { t with now := t.now + x.elapsed } idHash f).2.now ∧
        (SessionWorld.onRow { s with now := s.now + x.elapsed } idHash f).2.untokened =
          (SessionWorld.onRow { t with now := t.now + x.elapsed } idHash f).2.untokened := by
    intro idHash f hf
    have hlater : s.now + x.elapsed = t.now + x.elapsed := congrArg (· + x.elapsed) hnow
    unfold SessionWorld.onRow
    rw [show SessionWorld.keys { s with now := s.now + x.elapsed } = s.keys from rfl,
      show SessionWorld.keys { t with now := t.now + x.elapsed } = t.keys from rfl, hkeys]
    split
    · exact ⟨rfl, hf _ _ hlater h⟩
    · exact ⟨rfl, hlater, h⟩
  cases c with
  | now =>
    refine ⟨?_, congrArg (· + x.elapsed) hnow, h⟩
    show Except.ok (s.now + x.elapsed) = Except.ok (t.now + x.elapsed)
    rw [hnow]
  -- no other call writes or compares tokens
  | update idHash data =>
    apply hrow idHash
    intro s t hnow h
    rw [untokened_patch, untokened_patch, h]
    exact ⟨hnow, rfl⟩
  | delete idHash =>
    apply hrow idHash
    intro s t hnow h
    rw [untokened_deleteMany, untokened_deleteMany, h]
    exact ⟨hnow, rfl⟩
  | _ => exact hc.elim

/-- A program of such calls ends the same way. -/
theorem run_tokenless {α : Type} {p : SessionAction α} (hp : p.Calls SessionCall.tokenless)
    (env : ℕ → SessionChoice) {s t : SessionWorld} (hnow : s.now = t.now)
    (h : s.untokened = t.untokened) :
    (p.run serveSession env s).outcome = (p.run serveSession env t).outcome := by
  induction p generalizing env s t with
  | ret a => rfl
  | throw e => rfl
  | call c k ih =>
    obtain ⟨hanswer, hnow', h'⟩ := serveSession_tokenless hp.1 (env 0) hnow h
    show ((k _).run serveSession _ _).outcome = ((k _).run serveSession _ _).outcome
    rw [hanswer]
    exact ih _ (hp.2 _) _ hnow' h'

theorem authenticateFound_tokenless (config : SessionConfig) (idHash : String) (row : AuthSession)
    (relations : SessionRelations) :
    (authenticateFound config idHash row relations).Calls SessionCall.tokenless := by
  have hnow : (askSession .now).Calls SessionCall.tokenless := calls_perform.mpr trivial
  apply Calls.bind
  · exact (sessionLapsed_calls row relations).mono fun c hc => hc ▸ trivial
  intro lapsed
  cases lapsed with
  | true =>
    apply Calls.bind (calls_perform.mpr trivial)
    exact fun _ => trivial
  | false =>
    apply hnow.bind
    intro lastSeenAt
    apply hnow.bind
    intro now
    apply Calls.bind (calls_perform.mpr trivial)
    exact fun _ => trivial

/-- Nor does it read the tokens of the row. -/
theorem authenticateFound_untokened (config : SessionConfig) (idHash : String) (row : AuthSession)
    (relations : SessionRelations) :
    authenticateFound config idHash row.untokened relations =
      authenticateFound config idHash row relations := rfl

/-- The rest of `authenticate`, with the row. -/
def authenticateRow (config : SessionConfig) (idHash : String) :
    Option (AuthSession × SessionRelations) → SessionAction (Option AuthPrincipal)
  | none => ret none
  | some (session, relations) => authenticateFound config idHash session relations

theorem authenticate_row (crypto : CryptoService) (config : SessionConfig) (cookie : String) :
    authenticate crypto config cookie = askSession (.findUnique (crypto.hash cookie)) >>=
      authenticateRow config (crypto.hash cookie) := by
  unfold authenticate
  congr 1
  funext found
  cases found with
  | none => rfl
  | some row => rfl

/-- **Authentication** does not depend on tokens. -/
theorem authenticate_untokened (crypto : CryptoService) (config : SessionConfig) (cookie : String)
    (env : ℕ → SessionChoice) {s t : SessionWorld} (hnow : s.now = t.now)
    (h : s.untokened = t.untokened) :
    ((authenticate crypto config cookie).run serveSession env s).outcome =
      ((authenticate crypto config cookie).run serveSession env t).outcome := by
  have hread : ∀ s : SessionWorld,
      ((authenticate crypto config cookie).run serveSession env s).outcome =
        ((authenticateRow config (crypto.hash cookie)
          ((s.sessions.find? (·.idHash = crypto.hash cookie)).map fun row =>
            (row, (env 0).relations))).run serveSession (fun n => env (n + 1))
          { s with now := s.now + (env 0).elapsed }).outcome := by
    intro s
    have hfind : (askSession (.findUnique (crypto.hash cookie))).run serveSession env s =
        ⟨.ok _, { s with now := s.now + (env 0).elapsed }, [_]⟩ := run_perform rfl
    rw [authenticate_row, run_bind_ok hfind]
    rfl
  -- the two clocks stay together
  have hlater : s.now + (env 0).elapsed = t.now + (env 0).elapsed := congrArg (· + _) hnow
  have hfound := congrArg (List.find? (·.idHash = crypto.hash cookie)) h
  rw [untokened_find, untokened_find] at hfound
  rw [hread, hread]
  cases hs : s.sessions.find? (·.idHash = crypto.hash cookie) with
  | none =>
    rw [hs] at hfound
    rw [Option.map_eq_none_iff.mp hfound.symm]
    rfl
  -- the two rows differ in what is not read
  | some row =>
    rw [hs] at hfound
    obtain ⟨row', ht, hrow⟩ := Option.map_eq_some_iff.mp hfound.symm
    rw [ht]
    show Ended.outcome (Prog.run serveSession (authenticateFound config _ row _) _ _) =
      Ended.outcome (Prog.run serveSession (authenticateFound config _ row' _) _ _)
    rw [← authenticateFound_untokened config _ row, ← authenticateFound_untokened config _ row',
      hrow]
    exact run_tokenless (authenticateFound_tokenless ..) _ hlater h

/-! ### All or nothing -/

section Atomic

variable (crypto : AuthCrypto) (config : SessionConfig)

/-- The sessions are as they were: there are the same, and they authenticate as at this time they
would have before. -/
structure Unharmed (s t : SessionWorld) : Prop where
  keys : t.keys = s.keys
  authenticates : ∀ (cookie : String) (env : ℕ → SessionChoice),
    ((authenticate crypto.toCryptoService config cookie).run serveSession env t).outcome =
      ((authenticate crypto.toCryptoService config cookie).run serveSession env
        { s with now := t.now }).outcome

/-- There is one more session, whose cookie is `token`. -/
structure SessionCreated (s : SessionWorld) (token : String) (t : SessionWorld) : Prop where
  fresh : crypto.hash token ∉ s.keys
  keys : t.keys = s.keys ++ [crypto.hash token]

/-- There is one more session, whose cookie is `token`, and the old one is gone. -/
structure SessionReplaced (s : SessionWorld) (old token : String) (t : SessionWorld) : Prop where
  fresh : crypto.hash token ∉ s.keys
  keys : t.keys = s.keys.filter (· ≠ old) ++ [crypto.hash token]

/-- What a switch may leave. -/
def SwitchAtomic (s : SessionWorld) (old : String) :
    Except AuthError (String × String) → SessionWorld → Prop
  | .ok (token, _), t => SessionReplaced crypto s old token t
  | .error _, t => Unharmed crypto config s t

/-- What a login may leave. -/
def LoginAtomic {H : Type} (s : SessionWorld) :
    Except CallbackError ((String × String) × Redirect H) → SessionWorld → Prop
  | .ok ((token, _), _), t => SessionCreated crypto s token t
  | .error _, t => t.keys = s.keys

theorem unharmed_of_untokened {s t : SessionWorld} (h : t.untokened = s.untokened) :
    Unharmed crypto config s t := by
  constructor
  · exact keys_eq_of_untokened h
  · intro cookie env
    apply authenticate_untokened
    · rfl
    · exact h

end Atomic

/-! ### What the calls do -/

/-- The calls that write the audit event. -/
def AuthCall.isAudit : AuthCall → Bool
  | .audit _ _ _ _ => true
  | _ => false

def LoginCall.isAudit : LoginCall → Bool
  | .auth c => c.isAudit
  | _ => false

/-- The calls that write tokens at most. -/
def AuthCall.quiet : AuthCall → Prop
  | .session .now => True
  | .session .randomToken => True
  | .session (.findUnique _) => True
  | .session (.update _ data) => data.untokened = {}
  | .session _ => False
  | .audit _ _ _ _ => False
  | _ => True

/-- Up to now only tokens were written. -/
def OnlyTokens (s : SessionWorld) (u : SessionWorld × List Bool) : Prop :=
  u.1.untokened = s.untokened ∧ u.2 = []

theorem serveAuth_quiet {c : AuthCall} (hc : c.quiet) (x : AuthChoice) (s : SessionWorld) :
    (serveAuth c x s).2.untokened = s.untokened := by
  unfold serveAuth
  dsimp only
  cases x.fault with
  | some e => rfl
  | none =>
    cases c with
    | session c =>
      cases c with
      | update idHash data =>
        show (SessionWorld.onRow _ idHash _).2.untokened = _
        unfold SessionWorld.onRow
        split
        · rw [untokened_patch, show data.untokened = {} from hc]
          show (s.untokened.map fun row => if row.idHash = idHash then row.patch {} else row) = _
          rw [show (fun row : AuthSession => if row.idHash = idHash then row.patch {} else row) = id
            from ?_, List.map_id]
          funext row
          show (if row.idHash = idHash then row else row) = row
          exact ite_self _
        · rfl
      | create data => exact hc.elim
      | createAndDelete data idHash => exact hc.elim
      | delete idHash => exact hc.elim
      | deleteMany idHash => exact hc.elim
      | deleteExpired now => exact hc.elim
      | _ => rfl
    | audit actorUserId workspaceId action outcome => exact hc.elim
    | _ => rfl

/-- The contract of `AuthService`. -/
abbrev auditing : Contract AuthCall AuthCall.Result AuthError (SessionWorld × List Bool) :=
  Contract.watching serveAuth AuthCall.isAudit

/-- A program of quiet calls. -/
theorem meets_onlyTokens {α : Type} {p : AuthAction α} (hp : p.Calls AuthCall.quiet)
    {s : SessionWorld} {u : SessionWorld × List Bool} (hu : OnlyTokens s u) :
    p.Meets auditing (fun _ v => OnlyTokens s v) u := by
  apply hp.keeps _ hu
  rintro c ⟨t, log⟩ hc ⟨hsame, hlog⟩
  refine ⟨trivial, ?_⟩
  rintro r ⟨t', log'⟩ ⟨⟨x, hserve⟩, hlog'⟩
  constructor
  · rw [← hsame, ← serveAuth_quiet hc x t, hserve]
  · have hnot : c.isAudit = false := by
      cases c with
      | audit actorUserId workspaceId action outcome => exact hc.elim
      | _ => rfl
    rw [hlog', hnot]
    exact hlog

/-! ### The creation of a session -/

/-- The keys once the session `new` is created, in the place of `old`. -/
def keysAfter (keys : List String) (new : String) : Option String → List String
  | some old => (keys ++ [new]).filter (· ≠ old)
  | none => keys ++ [new]

theorem keysAfter_replaced {keys : List String} {new old : String} (hne : old ≠ "")
    (hmem : old ∈ keys) (hfresh : new ∉ keys) :
    keysAfter keys new (truthy (some old)) = keys.filter (· ≠ old) ++ [new] := by
  have hnew : new ≠ old := fun heq => hfresh (heq ▸ hmem)
  rw [truthy_of_ne hne, keysAfter, List.filter_append]
  simp [hnew]

/-- A statement that creates a row does so, or leaves the sessions as they are. -/
def Wrote {α : Type} (s : SessionWorld) (new : String) (old : Option String)
    (r : Except AuthError α) (v : SessionWorld × List Bool) : Prop :=
  ((∃ a, r = .ok a) ∧ v.2 = [] ∧ new ∉ s.keys ∧ v.1.keys = keysAfter s.keys new old) ∨
    ∃ e, r = .error e ∧ OnlyTokens s v

/-- What such a statement answers. -/
def Creates (c : SessionCall) (new : String) (old : Option String) : Prop :=
  ∀ (x : SessionChoice) (t : SessionWorld), (∃ e, SessionWorld.answer t x c = (.error e, t)) ∨
    (new ∉ t.keys ∧ ∃ a w, SessionWorld.answer t x c = (.ok a, w) ∧
      w.keys = keysAfter t.keys new old)

theorem create_creates (data : AuthSessionData) : Creates (.create data) data.idHash none := by
  intro x t
  show (∃ e, t.create data = (.error e, t)) ∨
    (data.idHash ∉ t.keys ∧ ∃ a w, t.create data = (.ok a, w) ∧ _)
  unfold SessionWorld.create
  split
  · exact .inl ⟨.uniqueConstraint, rfl⟩
  · rename_i hfresh
    refine .inr ⟨hfresh, (), _, rfl, ?_⟩
    unfold SessionWorld.keys
    rw [List.map_append]
    rfl

theorem createAndDelete_creates (data : AuthSessionData) (old : String) :
    Creates (.createAndDelete data old) data.idHash (some old) := by
  intro x t
  rcases create_creates data x t with ⟨e, hcreate⟩ | ⟨hfresh, a, w, hcreate, hkeys⟩
  · refine .inl ⟨e, ?_⟩
    simp only [SessionWorld.answer, show t.create data = (.error e, t) from hcreate]
  · refine .inr ⟨hfresh, (), w.deleteMany (·.idHash = old), ?_, ?_⟩
    · simp only [SessionWorld.answer, show t.create data = (.ok a, w) from hcreate]
    · show _ = (t.keys ++ [data.idHash]).filter (· ≠ old)
      rw [← show w.keys = t.keys ++ [data.idHash] from hkeys, ← untokened_keys, ← untokened_keys,
        untokened_deleteMany, List.filter_map]
      rfl

theorem statement_meets {c : SessionCall} {new : String} {old : Option String}
    (hc : Creates c new old) {s : SessionWorld} {u : SessionWorld × List Bool}
    (hu : OnlyTokens s u) :
    (perform (AuthCall.session c)).Meets auditing (fun r v => Wrote s new old r v) u := by
  obtain ⟨t, log⟩ := u
  obtain ⟨hsame, rfl⟩ := hu
  apply meets_perform.mpr
  refine ⟨trivial, ?_⟩
  rintro r ⟨t', log'⟩ ⟨⟨x, hserve⟩, rfl⟩
  unfold serveAuth at hserve
  dsimp only at hserve
  cases hfault : x.fault with
  -- the statement fails and is rolled back
  | some e =>
    rw [hfault] at hserve
    obtain ⟨rfl, rfl⟩ := Prod.mk.inj hserve
    exact .inr ⟨e, rfl, hsame, rfl⟩
  | none =>
    rw [hfault] at hserve
    have hkeys : SessionWorld.keys { t with now := t.now + x.session.elapsed } = s.keys :=
      keys_eq_of_untokened hsame
    have hanswer := hc x.session { t with now := t.now + x.session.elapsed }
    rw [hkeys] at hanswer
    unfold AuthChoice.answer at hserve
    dsimp only at hserve
    -- the key was taken, or it is new
    rcases hanswer with ⟨e, hfails⟩ | ⟨hfresh, a, w, hcreated, hw⟩
    · rw [hfails] at hserve
      obtain ⟨rfl, rfl⟩ := Prod.mk.inj hserve
      exact .inr ⟨.prisma e, rfl, hsame, rfl⟩
    · rw [hcreated] at hserve
      obtain ⟨rfl, rfl⟩ := Prod.mk.inj hserve
      exact .inl ⟨⟨a, rfl⟩, rfl, hfresh, hw⟩

/-- The creation has returned a token whose session is there, or nothing has happened. -/
def CreatesOrNot (crypto : CryptoService) (s : SessionWorld) (old : Option String)
    (r : Except AuthError (String × String)) (v : SessionWorld × List Bool) : Prop :=
  (∃ token csrf, r = .ok (token, csrf) ∧ v.2 = [] ∧ crypto.hash token ∉ s.keys ∧
    v.1.keys = keysAfter s.keys (crypto.hash token) old) ∨ ∃ e, r = .error e ∧ OnlyTokens s v

/-- **The creation of a session** -/
theorem createSession_meets (crypto : CryptoService) (config : SessionConfig)
    (input : CreateSessionInput) {s : SessionWorld} {u : SessionWorld × List Bool}
    (hu : OnlyTokens s u) :
    (onSessions (createSession crypto config input)).Meets auditing
      (CreatesOrNot crypto s (truthy input.replaceSessionIdHash)) u := by
  -- the draws and the clock
  have hask : ∀ (c : SessionCall) (u : SessionWorld × List Bool), (AuthCall.session c).quiet →
      OnlyTokens s u →
      (onSessions (askSession c)).Meets auditing (fun _ v => OnlyTokens s v) u := by
    intro c u hc hu
    rw [onSessions_askSession]
    exact meets_onlyTokens (calls_perform.mpr hc) hu
  -- the statement
  have hwrite : ∀ (c : SessionCall) (token csrf : String) (u : SessionWorld × List Bool),
      OnlyTokens s u → Creates c (crypto.hash token) (truthy input.replaceSessionIdHash) →
      (onSessions (askSession c >>= fun _ => ret (token, csrf))).Meets auditing
        (CreatesOrNot crypto s (truthy input.replaceSessionIdHash)) u := by
    intro c token csrf u hu hc
    unfold onSessions
    rw [embed_bind]
    show Prog.Meets auditing (onSessions (askSession c) >>= _) _ _
    rw [onSessions_askSession]
    apply (statement_meets hc hu).bind
    · rintro a v (⟨-, hlog, hfresh, hkeys⟩ | ⟨e, he, -⟩)
      · exact .inl ⟨token, csrf, rfl, hlog, hfresh, hkeys⟩
      · cases he
    · rintro e v (⟨⟨a, ha⟩, -⟩ | ⟨-, -, honly⟩)
      · cases ha
      · exact .inr ⟨e, rfl, honly⟩
  have hfails : ∀ (e : AuthError) (v : SessionWorld × List Bool), OnlyTokens s v →
      CreatesOrNot crypto s (truthy input.replaceSessionIdHash) (.error e) v :=
    fun e v hv => .inr ⟨e, rfl, hv⟩
  unfold createSession onSessions
  rw [embed_bind]
  apply (hask .randomToken u trivial hu).bind _ hfails
  intro token u hu
  rw [embed_bind]
  apply (hask .randomToken u trivial hu).bind _ hfails
  intro csrf u hu
  rw [embed_bind]
  apply (hask .now u trivial hu).bind _ hfails
  intro now u hu
  have hdata : (sessionData crypto config input token csrf now).idHash = crypto.hash token := rfl
  dsimp only
  cases hold : truthy input.replaceSessionIdHash with
  | some old =>
    rw [hold] at hwrite
    apply hwrite _ token csrf u hu
    rw [← hdata]
    exact createAndDelete_creates _ old
  | none =>
    rw [hold] at hwrite
    apply hwrite _ token csrf u hu
    rw [← hdata]
    exact create_creates _

/-- The audit event: the sessions stay, and whether it was written is known. -/
theorem audit_meets (actorUserId workspaceId action outcome : String) (t : SessionWorld) :
    (askAuth (.audit actorUserId workspaceId action outcome)).Meets auditing
      (fun r v => v.1.keys = t.keys ∧ v.2 = [r.isOk]) (t, []) := by
  apply meets_perform.mpr
  refine ⟨trivial, ?_⟩
  rintro r ⟨t', log⟩ ⟨⟨x, hserve⟩, rfl⟩
  unfold serveAuth at hserve
  dsimp only at hserve
  cases hfault : x.fault with
  | some e =>
    rw [hfault] at hserve
    obtain ⟨rfl, rfl⟩ := Prod.mk.inj hserve
    exact ⟨rfl, rfl⟩
  | none =>
    rw [hfault] at hserve
    obtain ⟨rfl, rfl⟩ := Prod.mk.inj hserve
    exact ⟨rfl, rfl⟩

/-! ### The switch -/

section Switch

variable (crypto : AuthCrypto) (config : SessionConfig)

theorem decryptToken_quiet (encrypted : Option String) :
    (decryptToken crypto encrypted).Calls AuthCall.quiet := by
  unfold decryptToken
  cases truthy encrypted with
  | none => trivial
  | some value =>
    show Prog.Calls _ (match crypto.decrypt value with
      | some token => _
      | none => _)
    cases crypto.decrypt value with
    | some token => trivial
    | none => trivial

theorem refreshStored_quiet (stored : AuthSession) :
    (refreshStored crypto stored).Calls AuthCall.quiet := by
  apply (decryptToken_quiet crypto _).bind
  intro decrypted
  cases truthy decrypted with
  | none => trivial
  | some refreshToken =>
    apply Calls.bind (calls_perform.mpr trivial)
    intro refreshed
    apply Calls.bind
    · unfold updateTokens
      rw [onSessions_askSession]
      exact calls_perform.mpr rfl
    · exact fun _ => trivial

theorem accessTokenOf_quiet (stored : AuthSession) :
    (accessTokenOf crypto stored).Calls AuthCall.quiet := by
  apply (decryptToken_quiet crypto _).bind
  intro accessToken
  cases stored.accessTokenExpiresAt with
  | none => trivial
  | some expiresAt =>
    apply Calls.bind
    · rw [onSessions_askSession]
      exact calls_perform.mpr trivial
    · intro now
      show Prog.Calls _ (if _ then _ else _)
      split
      · exact refreshStored_quiet crypto stored
      · trivial

theorem switchedExpiry_quiet (payload : SwitchPayload) :
    (switchedExpiry payload).Calls AuthCall.quiet := by
  unfold switchedExpiry
  cases truthyNumber payload.expiresIn with
  | none => trivial
  | some seconds =>
    apply Calls.bind
    · rw [onSessions_askSession]
      exact calls_perform.mpr trivial
    · exact fun _ => trivial

variable {s : SessionWorld} {principal : AuthPrincipal}

/-- A switch has ended, and is all or nothing exactly if no audit event has failed. -/
def SwitchSettled (s : SessionWorld) (old : String) (r : Except AuthError (String × String))
    (v : SessionWorld × List Bool) : Prop :=
  SwitchAtomic crypto config s old r v.1 ↔ ∀ ok ∈ v.2, ok = true

theorem switchSettled_quiet {old : String} (e : AuthError) {v : SessionWorld × List Bool}
    (hv : OnlyTokens s v) : SwitchSettled crypto config s old (.error e) v := by
  apply iff_of_true
  · exact unharmed_of_untokened crypto config hv.1
  · rw [hv.2]
    exact fun ok hok => nomatch hok

theorem switchWith_meets (hne : principal.sessionIdHash ≠ "")
    (hmem : principal.sessionIdHash ∈ s.keys) (organizationId accessToken : String)
    {u : SessionWorld × List Bool} (hu : OnlyTokens s u) :
    (switchWith crypto config principal organizationId accessToken).Meets auditing
      (SwitchSettled crypto config s principal.sessionIdHash) u := by
  have hthrows : ∀ (e : AuthError) (v : SessionWorld × List Bool), OnlyTokens s v →
      SwitchSettled crypto config s principal.sessionIdHash (.error e) v :=
    fun e v hv => switchSettled_quiet crypto config e hv
  have hask : ∀ (c : AuthCall) (u : SessionWorld × List Bool), c.quiet → OnlyTokens s u →
      (askAuth c).Meets auditing (fun _ v => OnlyTokens s v) u :=
    fun c u hc hu => meets_onlyTokens (calls_perform.mpr hc) hu
  apply (hask (.switchOrganization accessToken organizationId principal.subject) u trivial
    hu).bind _ hthrows
  rintro ⟨payload, identity⟩ u hu
  apply (hask (.resolveIdentity identity) u trivial hu).bind _ hthrows
  rintro ⟨workspaceId, userId⟩ u hu
  apply (meets_onlyTokens (switchedExpiry_quiet payload) hu).bind _ hthrows
  intro expiresAt u hu
  apply (createSession_meets crypto.toCryptoService config _ hu).bind
  · rintro next ⟨t, log⟩ (⟨token, csrf, hnext, rfl, hfresh, hkeys⟩ | ⟨e, he, -⟩)
    · obtain rfl := Except.ok.inj hnext
      rw [keysAfter_replaced hne hmem hfresh] at hkeys
      apply (audit_meets userId workspaceId "auth.organization_switch" "success" t).bind
      · rintro a ⟨t', log⟩ ⟨hsame, rfl⟩
        have hreplaced : SessionReplaced crypto s principal.sessionIdHash token t' :=
          ⟨hfresh, hsame.trans hkeys⟩
        exact iff_of_true hreplaced fun ok hok => List.mem_singleton.mp hok
      · rintro e ⟨t', log⟩ ⟨hsame, rfl⟩
        -- the new session stays
        apply iff_of_false
        · intro hunharmed
          apply hfresh
          rw [← hunharmed.keys, hsame, hkeys]
          exact List.mem_append_right _ List.mem_cons_self
        · intro hok
          cases hok _ List.mem_cons_self
    · cases he
  · rintro e v (⟨token, csrf, hnext, -⟩ | ⟨e, he, honly⟩)
    · cases hnext
    · exact switchSettled_quiet crypto config _ honly

/-- The row of a session is read, and nothing else happens. -/
theorem getStored_meets (idHash : String) {u : SessionWorld × List Bool} (hu : OnlyTokens s u) :
    (onSessions (getStored idHash)).Meets auditing
      (fun r v => OnlyTokens s v ∧
        ∀ row relations, r = .ok (some (row, relations)) → idHash ∈ s.keys)
      u := by
  obtain ⟨t, log⟩ := u
  obtain ⟨hsame, rfl⟩ := hu
  unfold getStored
  rw [onSessions_askSession]
  apply meets_perform.mpr
  refine ⟨trivial, ?_⟩
  rintro r ⟨t', log⟩ ⟨⟨x, hserve⟩, rfl⟩
  unfold serveAuth at hserve
  dsimp only at hserve
  cases hfault : x.fault with
  -- a read that fails finds nothing
  | some e =>
    rw [hfault] at hserve
    obtain ⟨rfl, rfl⟩ := Prod.mk.inj hserve
    refine ⟨⟨hsame, rfl⟩, fun row relations h => ?_⟩
    cases h
  | none =>
    rw [hfault] at hserve
    obtain ⟨rfl, rfl⟩ := Prod.mk.inj hserve
    refine ⟨⟨hsame, rfl⟩, fun row relations h => ?_⟩
    obtain ⟨row', hrow, -⟩ := Option.map_eq_some_iff.mp (Except.ok.inj h)
    rw [← keys_eq_of_untokened hsame]
    -- a row that is found is there
    have hidHash : row'.idHash = idHash := by simpa using List.find?_some hrow
    exact hidHash ▸ List.mem_map_of_mem (List.mem_of_find?_eq_some hrow)

/-- **A switch** is all or nothing exactly if no audit event fails. -/
theorem switch_meets (hne : principal.sessionIdHash ≠ "") (organizationId : String) :
    (switchOrganization crypto config principal organizationId).Meets auditing
      (SwitchSettled crypto config s principal.sessionIdHash) (s, []) := by
  have honly : OnlyTokens s (s, []) := ⟨rfl, rfl⟩
  unfold switchOrganization
  split
  · exact switchSettled_quiet crypto config _ honly
  · apply (getStored_meets principal.sessionIdHash honly).bind
    · rintro found u ⟨hu, hmem⟩
      cases found with
      | none => exact switchSettled_quiet crypto config _ hu
      | some row =>
        obtain ⟨stored, relations⟩ := row
        apply (meets_onlyTokens (accessTokenOf_quiet crypto stored) hu).bind
        · intro accessToken v hv
          show Prog.Meets _ (match truthy accessToken with
            | none => _
            | some accessToken => _) _ _
          cases truthy accessToken with
          | none => exact switchSettled_quiet crypto config _ hv
          | some accessToken =>
            exact switchWith_meets crypto config hne (hmem _ _ rfl) organizationId accessToken hv
        · exact fun e v hv => switchSettled_quiet crypto config e hv
    · exact fun e v hv => switchSettled_quiet crypto config e hv.1

end Switch

/-! ### The login -/

section Callback

variable {H : Type} (parseHost : List Char → Option H) (uiUrl : Option String)
variable (crypto : AuthCrypto) (config : SessionConfig) (attempt : Option ConsumedLoginAttempt)

/-- The contract of `completeLogin`. -/
abbrev auditingLogin :
    Contract LoginCall LoginCall.Result CallbackError (SessionWorld × List Bool) :=
  Contract.watching (serveLogin attempt) LoginCall.isAudit

/-- What `AuthService` guarantees, it guarantees as a part. -/
theorem onAuth_meets {α : Type} {p : AuthAction α}
    {post : Except AuthError α → SessionWorld × List Bool → Prop} {u : SessionWorld × List Bool}
    (h : p.Meets auditing post u) :
    (onAuth p).Meets (auditingLogin attempt)
      (fun r v => ∃ r₀, r = r₀.mapError CallbackError.auth ∧ post r₀ v) u := by
  apply h.embed
  · exact fun _ _ _ => trivial
  · rintro c ⟨t, log⟩ r ⟨t', log'⟩ ⟨⟨x, hserve⟩, hlog⟩
    obtain ⟨rfl, rfl⟩ := Prod.mk.inj hserve
    cases hanswer : (serveAuth c x.auth t).1 with
    | ok a =>
      refine .inl ⟨a, rfl, ⟨x.auth, Prod.ext hanswer rfl⟩, ?_⟩
      rw [hlog, hanswer]
      rfl
    | error e =>
      refine .inr ⟨e, .auth e, rfl, rfl, ⟨x.auth, Prod.ext hanswer rfl⟩, ?_⟩
      rw [hlog, hanswer]
      rfl

/-- A step of a login that is one of `AuthService`. -/
theorem onAuth_bind {α β : Type} {p : AuthAction α} {f : α → CallbackAction β}
    {P : Except AuthError α → SessionWorld × List Bool → Prop}
    {post : Except CallbackError β → SessionWorld × List Bool → Prop} {u : SessionWorld × List Bool}
    (hp : p.Meets auditing P u)
    (hok : ∀ a v, P (.ok a) v → (f a).Meets (auditingLogin attempt) post v)
    (herror : ∀ e v, P (.error e) v → post (.error (.auth e)) v) :
    (onAuth p >>= f).Meets (auditingLogin attempt) post u := by
  apply (onAuth_meets attempt hp).bind
  · rintro a v ⟨r, hr, h⟩
    cases r with
    | ok a' =>
      obtain rfl := Except.ok.inj hr
      exact hok _ v h
    | error e => cases hr
  · rintro e v ⟨r, hr, h⟩
    cases r with
    | ok a => cases hr
    | error e' =>
      obtain rfl := Except.error.inj hr
      exact herror e' v h

/-- The redirect of the attempt can be built. -/
def Redirects : Prop :=
  ∀ found, attempt = some found → (redirectUrl parseHost uiUrl found.returnTo).isSome

/-- A login has ended, and is all or nothing exactly if the audit event was written and the redirect
can be built, where it came to that. -/
def LoginSettled (s : SessionWorld) (r : Except CallbackError ((String × String) × Redirect H))
    (v : SessionWorld × List Bool) : Prop :=
  LoginAtomic crypto s r v.1 ↔ ∀ ok ∈ v.2, ok = true ∧ Redirects parseHost uiUrl attempt

variable {s : SessionWorld}

theorem loginSettled_quiet (e : CallbackError) {v : SessionWorld × List Bool}
    (hv : OnlyTokens s v) :
    LoginSettled parseHost uiUrl crypto attempt s (.error e) v := by
  apply iff_of_true
  · exact keys_eq_of_untokened hv.1
  · rw [hv.2]
    exact fun ok hok => nomatch hok

/-- The two calls beside `AuthService`. -/
theorem perform_meets {c : LoginCall} (hc : ∀ x s, (serveLogin attempt c x s).2 = s)
    (hnot : c.isAudit = false) {u : SessionWorld × List Bool} (hu : OnlyTokens s u) :
    (perform c).Meets (auditingLogin attempt) (fun _ v => OnlyTokens s v) u := by
  obtain ⟨t, log⟩ := u
  apply meets_perform.mpr
  refine ⟨trivial, ?_⟩
  rintro r ⟨t', log'⟩ ⟨⟨x, hserve⟩, hlog⟩
  have hsame : t' = t := by
    rw [← hc x t, hserve]
  rw [hnot] at hlog
  exact ⟨hsame ▸ hu.1, hlog.trans hu.2⟩

/-- The session is created, and what is left may fail. -/
theorem afterCreate_meets (userId workspaceId token csrf : String) {found : ConsumedLoginAttempt}
    (hfound : attempt = some found) {t : SessionWorld} (hfresh : crypto.hash token ∉ s.keys)
    (hkeys : t.keys = s.keys ++ [crypto.hash token]) :
    (onAuth (askAuth (.audit userId workspaceId "auth.login" "success")) >>= fun _ =>
      redirectAfter parseHost uiUrl found.returnTo >>= fun redirect =>
        ret ((token, csrf), redirect)).Meets (auditingLogin attempt)
      (LoginSettled parseHost uiUrl crypto attempt s) (t, []) := by
  have hmore : ∀ {t' : SessionWorld}, t'.keys = t.keys → t'.keys ≠ s.keys := by
    intro t' hsame heq
    apply hfresh
    rw [← heq, hsame, hkeys]
    exact List.mem_append_right _ List.mem_cons_self
  apply onAuth_bind attempt (audit_meets userId workspaceId "auth.login" "success" t)
  · rintro a ⟨t', log⟩ ⟨hsame, rfl⟩
    unfold redirectAfter
    cases hredirect : redirectUrl parseHost uiUrl found.returnTo with
    -- the session is there, and the login succeeds
    | some redirect =>
      have hcreated : SessionCreated crypto s token t' := ⟨hfresh, hsame.trans hkeys⟩
      refine iff_of_true hcreated fun ok hok => ⟨List.mem_singleton.mp hok, ?_⟩
      intro found' hfound'
      obtain rfl := Option.some.inj (hfound.symm.trans hfound')
      rw [hredirect]
      rfl
    -- it is there although the login fails
    | none =>
      apply iff_of_false
      · exact hmore hsame
      · intro hok
        have hsome := (hok _ List.mem_cons_self).2 found hfound
        rw [hredirect] at hsome
        cases hsome
  · -- nor is it undone when the audit fails
    rintro e ⟨t', log⟩ ⟨hsame, rfl⟩
    apply iff_of_false
    · exact hmore hsame
    · intro hok
      cases (hok _ List.mem_cons_self).1

theorem loginWith_meets (params : Query) (state : String) {found : ConsumedLoginAttempt}
    (hfound : attempt = some found) {u : SessionWorld × List Bool} (hu : OnlyTokens s u) :
    (loginWith parseHost uiUrl crypto config params state found).Meets (auditingLogin attempt)
      (LoginSettled parseHost uiUrl crypto attempt s) u := by
  have hcallback : ∀ (x : LoginChoice) (t : SessionWorld),
      (serveLogin attempt (.completeCallback params state found.nonce found.codeVerifier) x t).2 =
        t := by
    intro x t
    unfold serveLogin
    dsimp only
    split
    · rfl
    · rfl
  apply (perform_meets attempt hcallback rfl hu).bind
  · rintro ⟨identity, tokenSet⟩ u hu
    have hresolve : (askAuth (.resolveIdentity identity)).Calls AuthCall.quiet :=
      calls_perform.mpr trivial
    apply onAuth_bind attempt (meets_onlyTokens hresolve hu)
    · rintro ⟨workspaceId, userId⟩ u hu
      apply onAuth_bind attempt (createSession_meets crypto.toCryptoService config _ hu)
      · rintro session ⟨t, log⟩ (⟨token, csrf, hsession, rfl, hfresh, hkeys⟩ | ⟨e, he, -⟩)
        · obtain rfl := Except.ok.inj hsession
          exact afterCreate_meets parseHost uiUrl crypto attempt userId workspaceId token csrf
            hfound hfresh hkeys
        · cases he
      · rintro e v (⟨token, csrf, hsession, -⟩ | ⟨e', -, honly⟩)
        · cases hsession
        · exact loginSettled_quiet parseHost uiUrl crypto attempt _ honly
    · exact fun e v hv => loginSettled_quiet parseHost uiUrl crypto attempt _ hv
  · exact fun e v hv => loginSettled_quiet parseHost uiUrl crypto attempt _ hv

/-- **A login** is all or nothing exactly if, where it gets that far, the audit event is written and
the redirect can be built. -/
theorem completeLogin_meets (params : Query) :
    (completeLogin parseHost uiUrl crypto config params).Meets (auditingLogin attempt)
      (LoginSettled parseHost uiUrl crypto attempt s) (s, []) := by
  have honly : OnlyTokens s (s, []) := ⟨rfl, rfl⟩
  unfold completeLogin
  cases stateOf params with
  | none => exact loginSettled_quiet parseHost uiUrl crypto attempt _ honly
  | some state =>
    have hconsumed : (perform (LoginCall.consumeLoginAttempt state) :
        CallbackAction (Option ConsumedLoginAttempt)).Meets (auditingLogin attempt)
        (fun r v => OnlyTokens s v ∧ ∀ found, r = .ok (some found) → attempt = some found)
        (s, []) := by
      apply meets_perform.mpr
      refine ⟨trivial, ?_⟩
      rintro r ⟨t, log⟩ ⟨⟨x, hserve⟩, rfl⟩
      unfold serveLogin at hserve
      dsimp only at hserve
      -- a failing transaction consumes nothing
      cases hfault : x.auth.fault with
      | some e =>
        rw [hfault] at hserve
        obtain ⟨rfl, rfl⟩ := Prod.mk.inj hserve
        refine ⟨honly, fun found h => ?_⟩
        cases h
      | none =>
        rw [hfault] at hserve
        obtain ⟨rfl, rfl⟩ := Prod.mk.inj hserve
        exact ⟨honly, fun found h => Except.ok.inj h⟩
    apply hconsumed.bind
    · rintro consumed u ⟨hu, hattempt⟩
      -- an unknown state ends the login before anything else
      cases consumed with
      | none => exact loginSettled_quiet parseHost uiUrl crypto attempt _ hu
      | some found =>
        exact loginWith_meets parseHost uiUrl crypto config attempt params state
          (hattempt found rfl) hu
    · exact fun e v hv => loginSettled_quiet parseHost uiUrl crypto attempt _ hv.1

end Callback

/-! ### Runs -/

/-- What was watched holds of the steps. -/
theorem forall_watched {C : Type} {R : C → Type} {ε σ : Type} (watched : C → Bool)
    (P : Bool → Prop) (steps : List (Step C R ε σ)) :
    (∀ ok ∈ [] ++ (steps.filter fun step => watched step.call).map (·.answer.isOk), P ok) ↔
      ∀ step ∈ steps, watched step.call = true → P step.answer.isOk := by
  simp only [List.nil_append, List.forall_mem_map, List.mem_filter, and_imp]

/-- **Sessions are all or nothing**, whichever calls fail, exactly if in the run the audit event,
where it comes to that, is written, and, in a login, the redirect can be built then. -/
theorem sessions_all_or_nothing_iff {H : Type} (parseHost : List Char → Option H)
    (uiUrl : Option String) (crypto : AuthCrypto) (config : SessionConfig)
    (attempt : Option ConsumedLoginAttempt) (params : Query) (principal : AuthPrincipal)
    (organizationId : String) (hprincipal : principal.sessionIdHash ≠ "") (s : SessionWorld) :
    (∀ env : ℕ → AuthChoice,
      let switch := switchOrganization crypto config principal organizationId
      SwitchAtomic crypto config s principal.sessionIdHash (switch.run serveAuth env s).outcome
          (switch.run serveAuth env s).state ↔
        ∀ step ∈ switch.steps serveAuth env s, step.call.isAudit = true →
          step.answer.isOk = true) ∧
    ∀ env : ℕ → LoginChoice,
      let login := completeLogin parseHost uiUrl crypto config params
      LoginAtomic crypto s (login.run (serveLogin attempt) env s).outcome
          (login.run (serveLogin attempt) env s).state ↔
        ∀ step ∈ login.steps (serveLogin attempt) env s, step.call.isAudit = true →
          step.answer.isOk = true ∧ Redirects parseHost uiUrl attempt := by
  constructor
  · intro env
    -- what the program has settled, said of its calls that were watched
    have hmeets : (switchOrganization crypto config principal organizationId).Meets auditing
        (SwitchSettled crypto config s principal.sessionIdHash) (s, []) :=
      switch_meets crypto config hprincipal organizationId
    exact (run_watching hmeets env).trans (forall_watched AuthCall.isAudit (· = true) _)
  · intro env
    have hmeets : (completeLogin parseHost uiUrl crypto config params).Meets (auditingLogin attempt)
        (LoginSettled parseHost uiUrl crypto attempt s) (s, []) :=
      completeLogin_meets parseHost uiUrl crypto config attempt params
    exact (run_watching hmeets env).trans
      (forall_watched LoginCall.isAudit (fun ok => ok = true ∧ Redirects parseHost uiUrl attempt) _)

/-- The switch of a session, and a login. -/
abbrev sampleSwitch : AuthAction (String × String) :=
  switchOrganization switchCrypto sampleSessionConfig loginPrincipal "organization-b"

abbrev sampleLogin : CallbackAction ((String × String) × Redirect (List Char)) :=
  completeLogin domainName (some "https://ui.nexcause.example/auth/me") switchCrypto
    sampleSessionConfig [("state", .one "state-a")]

abbrev sampleSessions : SessionWorld := ⟨0, [loginSession]⟩

/-- An attempt with a path of the user interface. -/
def storedAttempt : ConsumedLoginAttempt := ⟨"nonce-a", "verifier-a", some "/incidents?open=1"⟩

/-- Their environments, in which nothing fails. -/
def calmSwitch : AuthChoice := (switchTurn "k3Ytq0fXo9m1bJwDZC7RxU5LhVaP2nEiG8sTdM4yQwA" 0).2

def calmLogin : LoginChoice := ⟨calmSwitch, calmSwitch.switched.2, ⟨⟨none, none, none, none⟩, none⟩⟩

/-- Where nothing fails, they leave what they should. -/
theorem calm_sessions :
    SwitchAtomic switchCrypto sampleSessionConfig sampleSessions loginPrincipal.sessionIdHash
      (sampleSwitch.run serveAuth (fun _ => calmSwitch) sampleSessions).outcome
      (sampleSwitch.run serveAuth (fun _ => calmSwitch) sampleSessions).state ∧
    LoginAtomic switchCrypto sampleSessions
      (sampleLogin.run (serveLogin (some storedAttempt)) (fun _ => calmLogin)
        sampleSessions).outcome
      (sampleLogin.run (serveLogin (some storedAttempt)) (fun _ => calmLogin)
        sampleSessions).state := by
  have hboth := sessions_all_or_nothing_iff domainName (some "https://ui.nexcause.example/auth/me")
    switchCrypto sampleSessionConfig (some storedAttempt) [("state", .one "state-a")] loginPrincipal
    "organization-b" (by decide) sampleSessions
  constructor
  · apply (hboth.1 fun _ => calmSwitch).mpr
    decide +kernel
  · apply (hboth.2 fun _ => calmLogin).mpr
    have hredirects : Redirects domainName (some "https://ui.nexcause.example/auth/me")
        (some storedAttempt) := by
      intro found hfound
      obtain rfl := Option.some.inj hfound
      decide +kernel
    have hwritten : ∀ step ∈ sampleLogin.steps (serveLogin (some storedAttempt))
        (fun _ => calmLogin) sampleSessions, step.call.isAudit = true →
          step.answer.isOk = true := by decide +kernel
    exact fun step hstep haudit => ⟨hwritten step hstep haudit, hredirects⟩

/-- The audit event of the switch cannot be written. -/
def unaudited (n : ℕ) : AuthChoice :=
  if n = 7 then { calmSwitch with fault := some (.internal "Can't reach database server") }
  else calmSwitch

/-- The switch throws, and the session of the caller is gone. -/
theorem unaudited_switch :
    ¬ SwitchAtomic switchCrypto sampleSessionConfig sampleSessions loginPrincipal.sessionIdHash
      (sampleSwitch.run serveAuth unaudited sampleSessions).outcome
      (sampleSwitch.run serveAuth unaudited sampleSessions).state := by
  have houtcome : (sampleSwitch.run serveAuth unaudited sampleSessions).outcome =
      .error (.internal "Can't reach database server") := by decide +kernel
  have hkeys : (sampleSwitch.run serveAuth unaudited sampleSessions).state.keys ≠
      sampleSessions.keys := by decide +kernel
  rw [houtcome]
  exact fun hunharmed => hkeys hunharmed.keys

end NexCause
