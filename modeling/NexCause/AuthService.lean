/-
NexCause/AuthService.lean

Logout and organization switch of the deployment manager: `AuthService`, over
the sessions of `SessionService` and the answers of the identity provider.

A request is what runs behind the guards, with the principal they have found.
What `resolveIdentity` and the audit write are other tables than that of the
sessions, so their answers are up to the environment, and so are those of the
provider.  Any call may fail; then it changes nothing.
-/
import NexCause.Traces
import NexCause.WorkspaceService

namespace NexCause

open Program Prog Transition

/-! ### Tokens -/

/-- The tokens of a refresh; the expiry is in seconds. -/
structure TokenSet where
  accessToken : Option String
  refreshToken : Option String
  idToken : Option String
  expiresAt : Option ℚ
  deriving DecidableEq, Repr

/-- The tokens of a switch, which expire so many seconds from now. -/
structure SwitchPayload where
  accessToken : String
  refreshToken : Option String
  idToken : Option String
  expiresIn : Option ℚ
  deriving DecidableEq, Repr

/-- A number, unless it is missing or zero. -/
def truthyNumber (x : Option ℚ) : Option ℚ := x.filter fun n => decide (n ≠ 0)

/-! ### Calls -/

/-- What `AuthService` asks of its surroundings. -/
inductive AuthCall
  | session (c : SessionCall)
  | revokeTokens (accessToken refreshToken : Option String)
  | refresh (refreshToken : String)
  | switchOrganization (accessToken organizationId expectedSubject : String)
  | resolveIdentity (identity : VerifiedIdentity)
  | audit (actorUserId workspaceId action outcome : String)
  | logoutUrl (idToken : Option String)
  deriving DecidableEq, Repr

/-- What a call returns; of the workspace and the user, their ids. -/
abbrev AuthCall.Result : AuthCall → Type
  | .session c => c.Result
  | .revokeTokens _ _ => Unit
  | .refresh _ => TokenSet
  | .switchOrganization _ _ _ => SwitchPayload × VerifiedIdentity
  | .resolveIdentity _ => String × String
  | .audit _ _ _ _ => Unit
  | .logoutUrl _ => String

abbrev AuthAction (α : Type) : Type := Prog AuthCall AuthCall.Result AuthError α

/-- One call. -/
def askAuth (c : AuthCall) : AuthAction c.Result := perform c

/-- The errors of Prisma, which `SessionService` sees as well. -/
def AuthError.ofPrisma : AuthError → Option PrismaError
  | .prisma e => some e
  | _ => none

/-- What `SessionService` does, as a part of `AuthService`. -/
def onSessions {α : Type} (p : SessionAction α) : AuthAction α :=
  p.embed AuthCall.session (fun _ a => a) AuthError.ofPrisma AuthError.prisma

@[simp] theorem onSessions_askSession (c : SessionCall) :
    onSessions (askSession c) = perform (AuthCall.session c) := by
  rw [onSessions, askSession, perform, embed, perform]
  congr 1
  funext r
  cases r with
  | ok a => rfl
  | error e =>
    cases e with
    | prisma e => rfl
    | _ => rfl

/-! ### The service -/

/-- `CryptoService`, with what it decrypts; on other values it throws. -/
structure AuthCrypto extends CryptoService where
  decrypt : String → Option String

section Service

variable (crypto : AuthCrypto) (config : SessionConfig)

/-- `getStored` -/
def getStored (sessionIdHash : String) : SessionAction (Option (AuthSession × SessionRelations)) :=
  askSession (.findUnique sessionIdHash)

/-- `decryptAccessToken`, `decryptRefreshToken` and `decryptIdToken`, of their columns. -/
def decryptToken (encrypted : Option String) : AuthAction (Option String) :=
  match truthy encrypted with
  | none => return none
  | some value =>
      match crypto.decrypt value with
      | some token => return some token
      | none => Prog.throw (.internal "Encrypted session value is invalid")

/-- The tokens of a session that was found are revoked. -/
def revokeStored : Option (AuthSession × SessionRelations) → AuthAction Unit
  | none => return ()
  | some (stored, _) => do
      let accessToken ← decryptToken crypto stored.accessTokenEncrypted
      let refreshToken ← decryptToken crypto stored.refreshTokenEncrypted
      askAuth (.revokeTokens accessToken refreshToken)

/-- The id token of a session that was found. -/
def idTokenOf : Option (AuthSession × SessionRelations) → AuthAction (Option String)
  | none => return none
  | some (stored, _) => decryptToken crypto stored.idTokenEncrypted

/-- `logout` -/
def logout (principal : AuthPrincipal) : AuthAction String := do
  let stored ← onSessions (getStored principal.sessionIdHash)
  revokeStored crypto stored
  onSessions (destroy principal.sessionIdHash)
  askAuth (.audit principal.userId principal.workspaceId "auth.logout" "success")
  let idToken ← idTokenOf crypto stored
  askAuth (.logoutUrl idToken)

/-- The access token of a session whose own one has expired. -/
def refreshStored (stored : AuthSession) : AuthAction (Option String) := do
  match truthy (← decryptToken crypto stored.refreshTokenEncrypted) with
  | none => Prog.throw (.unauthorized "The Asgardeo access token has expired")
  | some refreshToken => do
      let refreshed : TokenSet ← askAuth (.refresh refreshToken)
      onSessions (updateTokens crypto.toCryptoService stored.idHash
        { accessToken := refreshed.accessToken
          refreshToken := refreshed.refreshToken
          idToken := refreshed.idToken
          expiresAt := (truthyNumber refreshed.expiresAt).map fun t => newDate (t * 1000) })
      return refreshed.accessToken

/-- The access token of a session, refreshed half a minute before it expires. -/
def accessTokenOf (stored : AuthSession) : AuthAction (Option String) := do
  let accessToken ← decryptToken crypto stored.accessTokenEncrypted
  match stored.accessTokenExpiresAt with
  | none => return accessToken
  | some expiresAt => do
      let now : ℕ ← onSessions (askSession .now)
      if expiresAt ≤ (now + 30000 : ℤ) then refreshStored crypto stored else return accessToken

/-- The expiry of the tokens of a switch. -/
def switchedExpiry (payload : SwitchPayload) : AuthAction (Option ℤ) :=
  match truthyNumber payload.expiresIn with
  | none => return none
  | some seconds => do
      let now : ℕ ← onSessions (askSession .now)
      return some (newDate (now + seconds * 1000))

/-- The rest of `switchOrganization`, with the access token. -/
def switchWith (principal : AuthPrincipal) (organizationId accessToken : String) :
    AuthAction (String × String) := do
  let (payload, identity) ← askAuth (.switchOrganization accessToken organizationId principal.subject)
  let (workspaceId, userId) ← askAuth (.resolveIdentity identity)
  let accessTokenExpiresAt ← switchedExpiry payload
  let next ← onSessions (createSession crypto.toCryptoService config
    { userId := userId
      workspaceId := workspaceId
      organizationId := organizationId
      roles := identity.roles
      scopes := identity.scopes
      accessToken := some payload.accessToken
      refreshToken := payload.refreshToken
      idToken := payload.idToken
      accessTokenExpiresAt := accessTokenExpiresAt
      replaceSessionIdHash := some principal.sessionIdHash })
  askAuth (.audit userId workspaceId "auth.organization_switch" "success")
  return next

/-- `switchOrganization` -/
def switchOrganization (principal : AuthPrincipal) (organizationId : String) :
    AuthAction (String × String) :=
  if organizationId = "" then Prog.throw (.badRequest "organizationId is required")
  else do
    let found : Option (AuthSession × SessionRelations) ←
      onSessions (getStored principal.sessionIdHash)
    match found with
    | none => Prog.throw (.unauthorized "The session no longer exists")
    | some (stored, _) => do
        match truthy (← accessTokenOf crypto stored) with
        | none => Prog.throw (.unauthorized "The session cannot switch organizations")
        | some accessToken => switchWith crypto config principal organizationId accessToken

/-- Requests: those of the two functions with their principals, and the authentication of any
other one. -/
inductive AuthRequest
  | switchOrganization (principal : AuthPrincipal) (organizationId : String)
  | logout (principal : AuthPrincipal)
  | authenticate (sessionToken : String)
  deriving DecidableEq, Repr

/-- What they return. -/
inductive AuthResponse
  | switched (sessionToken csrfToken : String)
  | redirect (url : String)
  | authenticated (principal : Option AuthPrincipal)
  deriving DecidableEq, Repr

/-- The program of a request. -/
def AuthRequest.program : AuthRequest → AuthAction AuthResponse
  | .switchOrganization principal organizationId => do
      let (sessionToken, csrfToken) ← NexCause.switchOrganization crypto config principal organizationId
      return .switched sessionToken csrfToken
  | .logout principal => do
      return .redirect (← NexCause.logout crypto principal)
  | .authenticate sessionToken => do
      return .authenticated (← onSessions (NexCause.authenticate crypto.toCryptoService config sessionToken))

end Service

/-! ### The surroundings -/

/-- What the environment chooses for a call: whether it fails, what `SessionService` leaves open, and
the answers of the provider and of the other tables. -/
structure AuthChoice where
  fault : Option AuthError
  session : SessionChoice
  tokens : TokenSet
  switched : SwitchPayload × VerifiedIdentity
  resolved : String × String
  url : String

/-- The answer to a call that does not fail by itself. -/
def AuthChoice.answer (x : AuthChoice) (s : SessionWorld) :
    (c : AuthCall) → Except AuthError c.Result × SessionWorld
  | .session c =>
      let answered := SessionWorld.answer s x.session c
      (answered.1.mapError AuthError.prisma, answered.2)
  | .revokeTokens _ _ => (.ok (), s)
  | .refresh _ => (.ok x.tokens, s)
  | .switchOrganization _ _ _ => (.ok x.switched, s)
  | .resolveIdentity _ => (.ok x.resolved, s)
  | .audit _ _ _ _ => (.ok (), s)
  | .logoutUrl _ => (.ok x.url, s)

/-- One call, after some time.  A call that fails changes nothing; one to the
database, with its commit, is rolled back. -/
def serveAuth : Service AuthCall AuthCall.Result AuthError AuthChoice SessionWorld :=
  fun c x s =>
    let later := { s with now := s.now + x.session.elapsed }
    match x.fault with
    | some e => (.error e, later)
    | none => x.answer later c

/-- Requests in progress. -/
abbrev AuthPool : Type :=
  Pool AuthRequest AuthCall AuthCall.Result AuthError AuthResponse SessionWorld

abbrev AuthTrace : Type := List (ℕ × Exchange AuthCall AuthCall.Result AuthError)

/-- Requests that have not begun. -/
def startAuth (crypto : AuthCrypto) (config : SessionConfig) (s : SessionWorld)
    (requests : List AuthRequest) : AuthPool :=
  .start s (requests.map fun q => (q, q.program crypto config))

end NexCause
