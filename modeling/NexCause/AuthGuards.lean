/-
NexCause/AuthGuards.lean

The way of a request of the deployment manager: the CORS middleware, the three
guards in the order of their registration, the two interceptors, and the
handler.

The middleware ends every request with an origin that is not allowed, whatever
its method, and answers each OPTIONS request itself.  The guards find the principal of the session that the cookie names, check the
CSRF token and the origin of a request that may write, and the permissions that
the handler or its class asks for.  Where a guard passes, it returns; where it
refuses, it throws.

Main results: what the check of a token and of an origin accepts
(`CsrfGuard.canActivate_iff`), who passes the guards (`guards_iff`), and which
way a request goes (`handleRequest_goes`).
-/
import NexCause.DeploymentsService
import NexCause.SessionService

namespace NexCause

open Program Prog

/-! ### Requests and handlers -/

/-- What the parser of cookies makes of `rca_session`: a text, or the value of a JSON cookie. -/
inductive SessionCookie
  | text (s : String)
  | json
  deriving DecidableEq, Repr

/-- A request; its method is in upper case, the names of its headers in lower
case. -/
structure HttpRequest where
  method : String
  path : String
  routePath : Option String
  params : Entries
  headers : Entries
  cookie : Option SessionCookie
  deriving DecidableEq, Repr

/-- `request.header(name)` -/
def HttpRequest.header (request : HttpRequest) (name : String) : Option String :=
  request.headers.lookup name

/-- The metadata of a handler and of its class. -/
structure RouteHandler where
  isPublic : Option Bool
  classIsPublic : Option Bool
  permissions : Option (List String)
  classPermissions : Option (List String)
  className : String
  deriving DecidableEq, Repr

/-- `getAllAndOverride(IS_PUBLIC_KEY, …)` -/
def RouteHandler.public (handler : RouteHandler) : Bool :=
  (handler.isPublic <|> handler.classIsPublic).getD false

/-- `getAllAndOverride(REQUIRED_PERMISSIONS_KEY, …) ?? []` -/
def RouteHandler.required (handler : RouteHandler) : List String :=
  (handler.permissions <|> handler.classPermissions).getD []

/-- `SAFE_METHODS` -/
def safeMethods : List String := ["GET", "HEAD", "OPTIONS"]

/-! ### Calls -/

inductive AuditMetadata
  | requiredPermissions (permissions : List String)
  | statusCode (n : ℕ)
  deriving DecidableEq, Repr

/-- The `data` of `auditEvent.create`. -/
structure AuditEvent where
  actorUserId : String
  workspaceId : String
  action : String
  resourceType : Option String
  resourceId : Option String
  outcome : String
  metadata : Option AuditMetadata
  deriving DecidableEq, Repr

inductive HttpCall
  | session (c : SessionCall)
  | audit (event : AuditEvent)
  | platform (c : Call)
  deriving DecidableEq, Repr

abbrev HttpCall.Result : HttpCall → Type
  | .session c => c.Result
  | .audit _ => Unit
  | .platform c => c.Result

abbrev HttpAction (α : Type) : Type := Prog HttpCall HttpCall.Result ApiError α

/-- One call. -/
def askHttp (c : HttpCall) : HttpAction c.Result := perform c

/-- The exceptions of Prisma. -/
def prismaError : PrismaError → ApiError
  | .uniqueConstraint => .database "Unique constraint failed"
  | .recordNotFound => .database "Record to update not found"

def ofPrismaError : ApiError → Option PrismaError
  | .database message =>
      if message = "Unique constraint failed" then some .uniqueConstraint
      else if message = "Record to update not found" then some .recordNotFound
      else none
  | _ => none

/-- What `SessionService` does, in a request. -/
def inSessions {α : Type} (p : SessionAction α) : HttpAction α :=
  p.embed HttpCall.session (fun _ a => a) ofPrismaError prismaError

/-- What the services of the platform do, in a request. -/
def inPlatform {α : Type} (p : Action α) : HttpAction α :=
  p.embed HttpCall.platform (fun _ a => a) some id

structure HttpConfig where
  session : SessionConfig
  allowedOrigins : Option (List String)
  callbackUrl : Option String
  deriving DecidableEq, Repr

/-! ### The CORS middleware -/

/-- The `origin` of `enableCors` in `bootstrap`. -/
def corsOrigin (config : HttpConfig) (origin : Option String) : Except ApiError Unit :=
  match truthy origin with
  | none => .ok ()
  | some origin =>
      if origin ∈ config.allowedOrigins.getD [] then .ok ()
      else .error (.error "Origin is not allowed")

/-- What a request gets: the middleware's own answer to a preflight, or the
value of the handler. -/
inductive HttpAnswer (α : Type)
  | preflight
  | handled (value : α)
  deriving DecidableEq, Repr

/-! ### The guards -/

section Guards

/- `new URL(…).origin`, which throws on what is no URL -/
variable (urlOrigin : String → Option String)
variable (crypto : CryptoService) (config : HttpConfig)

/-- `AuthenticationGuard`: the principal that it attaches to the request. -/
def AuthenticationGuard.canActivate (handler : RouteHandler) (request : HttpRequest) :
    HttpAction (Option AuthPrincipal) :=
  if handler.public then return none
  else
    match request.cookie with
    | none | some (.text "") => Prog.throw (.unauthorized "Authentication is required")
    | some .json => Prog.throw (.error "The \"data\" argument must be of type string")
    | some (.text token) => do
        match ← inSessions (authenticate crypto config.session token) with
        | none => Prog.throw (.unauthorized "The session is invalid or expired")
        | some principal => return some principal

/-- `equalHash` -/
def CryptoService.equalHash (value expectedHash : String) : Bool := crypto.hash value = expectedHash

/-- The origins that may write. -/
def CsrfGuard.allowed : Except ApiError (List String) :=
  match truthy config.callbackUrl with
  | none => .ok (config.allowedOrigins.getD [])
  | some callbackUrl =>
      match urlOrigin callbackUrl with
      | none => .error (.error "Invalid URL")
      | some origin => .ok (config.allowedOrigins.getD [] ++ [origin])

/-- The token of the request is that of the session. -/
def CsrfGuard.tokenMatches (request : HttpRequest) (principal : Option AuthPrincipal) : Bool :=
  match truthy (principal.map (·.csrfToken)) with
  | none => false
  | some csrfToken =>
      crypto.equalHash ((request.header "x-csrf-token").getD "") (crypto.hash csrfToken)

/-- `CsrfGuard` -/
def CsrfGuard.canActivate (handler : RouteHandler) (request : HttpRequest)
    (principal : Option AuthPrincipal) : Except ApiError Unit :=
  if request.method ∈ safeMethods ∨ handler.public = true then .ok ()
  else if CsrfGuard.tokenMatches crypto request principal = false then
    .error (.forbidden "The CSRF token is invalid")
  else do
    let allowed ← CsrfGuard.allowed urlOrigin config
    match truthy (request.header "origin") with
    | none => .error (.forbidden "The request origin is not allowed")
    | some origin =>
        if origin ∈ allowed then .ok () else .error (.forbidden "The request origin is not allowed")

/-- `PermissionGuard` -/
def PermissionGuard.canActivate (handler : RouteHandler) (request : HttpRequest)
    (principal : Option AuthPrincipal) : HttpAction Unit :=
  if handler.required = [] then return ()
  else
    match principal with
    | none => Prog.throw (.error "Cannot read properties of undefined (reading 'scopes')")
    | some principal =>
        if handler.required.all principal.scopes.contains then return ()
        else do
          (askHttp (.audit
            { actorUserId := principal.userId
              workspaceId := principal.workspaceId
              action := request.method ++ " " ++ request.path
              resourceType := none
              resourceId := none
              outcome := "forbidden"
              metadata := some (.requiredPermissions handler.required) })).tryCatch fun _ => return ()
          Prog.throw (.forbidden "The required permission is missing")

/-- The guards, in the order of their registration. -/
def guards (handler : RouteHandler) (request : HttpRequest) : HttpAction (Option AuthPrincipal) := do
  let principal ← AuthenticationGuard.canActivate crypto config handler request
  Prog.ofExcept (CsrfGuard.canActivate urlOrigin crypto config handler request principal)
  PermissionGuard.canActivate handler request principal
  return principal

/-! ### Interceptors -/

/-- `error.status ?? 500` -/
def ApiError.status : ApiError → ℕ
  | .badRequest _ => 400
  | .unauthorized _ => 401
  | .forbidden _ => 403
  | .notFound _ => 404
  | .serviceUnavailable _ => 503
  | _ => 500

/-- `record`, whose failures are ignored. -/
def recordAudit (handler : RouteHandler) (request : HttpRequest) (principal : AuthPrincipal)
    (outcome : String) (statusCode : Option ℕ) : HttpAction Unit :=
  (askHttp (.audit
    { actorUserId := principal.userId
      workspaceId := principal.workspaceId
      action := request.method ++ " " ++ request.routePath.getD request.path
      resourceType := some handler.className
      resourceId := request.params.lookup "id" <|> request.params.lookup "appId"
      outcome := outcome
      metadata := statusCode.map AuditMetadata.statusCode })).tryCatch fun _ => return ()

/-- `AuditInterceptor` -/
def audited {α : Type} (handler : RouteHandler) (request : HttpRequest)
    (principal : Option AuthPrincipal) (handle : HttpAction α) : HttpAction α :=
  match principal with
  | none => handle
  | some principal =>
      if request.method ∈ safeMethods then handle
      else
        (do
          let value ← handle
          recordAudit handler request principal "success" none
          return value).tryCatch fun error => do
            recordAudit handler request principal "failure" (some error.status)
            Prog.throw error

/-- What the middleware lets go on: the guards, and then the handler, in the
tenant context of the principal. -/
def handleGuarded {α : Type} (handler : RouteHandler) (request : HttpRequest)
    (handle : Option AuthPrincipal → HttpAction α) : HttpAction α := do
  let principal ← guards urlOrigin crypto config handler request
  audited handler request principal (handle principal)

/-- A request: the CORS middleware, which ends it or passes it on. -/
def handleRequest {α : Type} (handler : RouteHandler) (request : HttpRequest)
    (handle : Option AuthPrincipal → HttpAction α) : HttpAction (HttpAnswer α) := do
  Prog.ofExcept (corsOrigin config (request.header "origin"))
  if request.method = "OPTIONS" then return .preflight
  else do
    let value ← handleGuarded urlOrigin crypto config handler request handle
    return .handled value

end Guards

/-! ### The creation of a deployment -/

/-- `@RequirePermissions("deployments:write") create` -/
def createHandler : RouteHandler where
  isPublic := none
  classIsPublic := none
  permissions := some ["deployments:write"]
  classPermissions := none
  className := "DeploymentsController"

/-- `create`, with the body that the validation has let through. -/
def handleCreate (config : ServiceConfig) (appId deploymentId : String)
    (body : Except ApiError CreateDeploymentDto) (principal : Option AuthPrincipal) :
    HttpAction SanitizedDeployment := do
  let dto ← Prog.ofExcept body
  inPlatform (DeploymentsService.create config
    { workspaceId := principal.map (·.workspaceId)
      scopes := (principal.map (·.scopes)).getD []
      appId := appId
      deploymentId := deploymentId
      dto := dto })

/-! ### The surroundings -/

structure HttpWorld where
  sessions : SessionWorld
  audits : List AuditEvent
  platform : World

/-- What the environment chooses for a call: what `SessionService` leaves open, whether an audit event
is lost, and what the platform does. -/
structure HttpChoice where
  session : SessionChoice
  auditFault : Option ApiError
  platform : Environment

/-- One call. -/
def serveHttp : Service HttpCall HttpCall.Result ApiError HttpChoice HttpWorld
  | .session c, x, w =>
      let answered := serveSession c x.session w.sessions
      (answered.1.mapError prismaError, { w with sessions := answered.2 })
  | .audit event, x, w =>
      match x.auditFault with
      | some e => (.error e, w)
      | none => (.ok (), { w with audits := w.audits ++ [event] })
  | .platform c, x, w =>
      let answered := serve c x.platform w.platform
      (answered.1, { w with platform := answered.2 })

theorem serveHttp_embeds :
    Embeds HttpCall.session (fun _ a => a) ofPrismaError serveSession serveHttp
      HttpChoice.session HttpWorld.sessions := by
  refine ⟨?_, fun c x w => rfl⟩
  intro c x w
  cases hanswer : (serveSession c x.session w.sessions).1 with
  | ok a =>
    left
    refine ⟨a, ?_, rfl⟩
    show (serveSession c x.session w.sessions).1.mapError prismaError = .ok a
    rw [hanswer]
    rfl
  | error e =>
    right
    refine ⟨e, prismaError e, ?_, ?_, rfl⟩
    · show (serveSession c x.session w.sessions).1.mapError prismaError = _
      rw [hanswer]
      rfl
    · cases e with
      | uniqueConstraint => rfl
      | recordNotFound => rfl

/-- `SessionService` in a request runs as it does alone. -/
theorem inSessions_run {α : Type} (p : SessionAction α) (env : ℕ → HttpChoice) (w : HttpWorld) :
    ((inSessions p).run serveHttp env w).outcome =
        (p.run serveSession (fun n => (env n).session) w.sessions).outcome.mapError prismaError ∧
      ((inSessions p).run serveHttp env w).calls =
        (p.run serveSession (fun n => (env n).session) w.sessions).calls.map HttpCall.session := by
  apply And.imp_right And.right
  exact Prog.run_embed serveHttp_embeds p env w

/-! ### Who passes -/

/-- What a request that may write has to bring. -/
structure MayWrite (urlOrigin : String → Option String) (config : HttpConfig) (request : HttpRequest)
    (principal : AuthPrincipal) : Prop where
  token : principal.csrfToken ≠ "" ∧ request.header "x-csrf-token" = some principal.csrfToken
  callback : ∀ url, config.callbackUrl = some url → url ≠ "" → (urlOrigin url).isSome
  origin : ∃ origin, request.header "origin" = some origin ∧ origin ≠ "" ∧
    (origin ∈ config.allowedOrigins.getD [] ∨
      ∃ url, config.callbackUrl = some url ∧ url ≠ "" ∧ urlOrigin url = some origin)

/-- What the guards let through: the cookie names a session that `authenticate` accepts, the session
has the permissions of the handler, and the request may write where it is not a safe one. -/
structure Admitted (urlOrigin : String → Option String) (crypto : CryptoService)
    (config : HttpConfig) (handler : RouteHandler) (request : HttpRequest) (env : ℕ → HttpChoice)
    (w : HttpWorld) (principal : AuthPrincipal) : Prop where
  authenticated : ∃ token, request.cookie = some (.text token) ∧ token ≠ "" ∧
    ((authenticate crypto config.session token).run serveSession (fun n => (env n).session)
      w.sessions).outcome = .ok (some principal)
  permitted : ∀ scope ∈ handler.required, scope ∈ principal.scopes
  written : request.method ∉ safeMethods → MayWrite urlOrigin config request principal

section Guards

variable {urlOrigin : String → Option String} {crypto : CryptoService} {config : HttpConfig}
variable {handler : RouteHandler} {request : HttpRequest}

theorem AuthenticationGuard.canActivate_text (hpublic : handler.public = false) {token : String}
    (hcookie : request.cookie = some (.text token)) (hne : token ≠ "") :
    AuthenticationGuard.canActivate crypto config handler request = (do
      match ← inSessions (authenticate crypto config.session token) with
      | none => Prog.throw (.unauthorized "The session is invalid or expired")
      | some principal => return some principal) := by
  unfold AuthenticationGuard.canActivate
  rw [hpublic, if_neg Bool.false_ne_true]
  split
  · rename_i hcookie'
    cases hcookie.symm.trans hcookie'
  · rename_i hcookie'
    cases hcookie.symm.trans hcookie'
    exact absurd rfl hne
  · rename_i hcookie'
    cases hcookie.symm.trans hcookie'
  · rename_i token' _ hcookie'
    obtain rfl : token = token' := by simpa [hcookie] using hcookie'
    rfl

/-- The first guard returns the principal that `authenticate` returns. -/
theorem AuthenticationGuard.returns_iff (hpublic : handler.public = false) {env : ℕ → HttpChoice}
    {w : HttpWorld} {r : Option AuthPrincipal} :
    ((AuthenticationGuard.canActivate crypto config handler request).run serveHttp env w).outcome =
        .ok r ↔
      ∃ token principal, request.cookie = some (.text token) ∧ token ≠ "" ∧
        ((authenticate crypto config.session token).run serveSession (fun n => (env n).session)
          w.sessions).outcome = .ok (some principal) ∧ r = some principal := by
  unfold AuthenticationGuard.canActivate
  rw [hpublic, if_neg (by decide)]
  split
  · -- no cookie, several of the name, or an empty one
    rename_i hcookie
    simp [hcookie, Prog.run]
  · rename_i hcookie
    simp [hcookie, Prog.run]
  · rename_i hcookie
    simp [hcookie, Prog.run]
  · -- a token, which is looked up
    rename_i token hempty hcookie
    rw [Prog.run_bind_returns, (inSessions_run ..).1]
    constructor
    · rintro ⟨found, hfound, hreturned⟩
      cases found with
      | none => cases hreturned
      | some principal =>
        refine ⟨token, principal, hcookie, hempty, except_mapError_ok.mp hfound, ?_⟩
        exact (Except.ok.inj hreturned).symm
    · rintro ⟨token', principal, hcookie', -, hauthenticated, rfl⟩
      obtain rfl : token = token' := by simpa [hcookie] using hcookie'
      exact ⟨some principal, except_mapError_ok.mpr hauthenticated, rfl⟩

/-- The token of a request is that of the session. -/
theorem CsrfGuard.tokenMatches_iff (hhash : Function.Injective crypto.hash)
    (principal : AuthPrincipal) :
    CsrfGuard.tokenMatches crypto request (some principal) = true ↔
      principal.csrfToken ≠ "" ∧ request.header "x-csrf-token" = some principal.csrfToken := by
  unfold CsrfGuard.tokenMatches
  rw [Option.map_some]
  cases htoken : truthy (some principal.csrfToken) with
  -- an empty token matches nothing
  | none =>
    have hempty : principal.csrfToken = "" := by
      by_contra hne
      rw [truthy_eq_some.mpr ⟨rfl, hne⟩] at htoken
      cases htoken
    simp [hempty]
  | some csrfToken =>
    obtain ⟨hsome, hne⟩ := truthy_eq_some.mp htoken
    obtain rfl := Option.some.inj hsome
    show decide (crypto.hash _ = crypto.hash _) = true ↔ _
    rw [decide_eq_true_eq, hhash.eq_iff]
    constructor
    · intro hheader
      refine ⟨hne, ?_⟩
      -- no header reads as an empty one
      cases hgiven : request.header "x-csrf-token" with
      | none =>
        rw [hgiven] at hheader
        exact absurd hheader.symm hne
      | some given =>
        rw [hgiven] at hheader
        exact congrArg some hheader
    · rintro ⟨-, hheader⟩
      rw [hheader]
      rfl

/-- The origins that may write. -/
theorem CsrfGuard.allowed_ok {origins : List String} :
    CsrfGuard.allowed urlOrigin config = .ok origins →
      (∀ url, config.callbackUrl = some url → url ≠ "" → (urlOrigin url).isSome) ∧
        ∀ origin, origin ∈ origins ↔ origin ∈ config.allowedOrigins.getD [] ∨
          ∃ url, config.callbackUrl = some url ∧ url ≠ "" ∧ urlOrigin url = some origin := by
  unfold CsrfGuard.allowed
  intro hallowed
  split at hallowed
  · -- no callback is configured
    rename_i hnone
    have hno : ∀ url, config.callbackUrl = some url → url ≠ "" → False := by
      intro url hurl hne
      rw [truthy_eq_some.mpr ⟨hurl, hne⟩] at hnone
      cases hnone
    obtain rfl := Except.ok.inj hallowed
    refine ⟨fun url hurl hne => (hno url hurl hne).elim, fun origin => ?_⟩
    rw [or_iff_left]
    rintro ⟨url, hurl, hne, -⟩
    exact hno url hurl hne
  · rename_i url hurl
    obtain ⟨hurl, hne⟩ := truthy_eq_some.mp hurl
    -- one is, and it raises unless it is a URL
    cases horigin : urlOrigin url with
    | none =>
      rw [horigin] at hallowed
      cases hallowed
    | some callback =>
      rw [horigin] at hallowed
      obtain rfl := Except.ok.inj hallowed
      have hsame : ∀ url', config.callbackUrl = some url' → url' = url := by
        intro url' hurl'
        exact Option.some.inj (hurl'.symm.trans hurl)
      constructor
      · intro url' hurl' _
        rw [hsame url' hurl', horigin]
        rfl
      · intro origin
        rw [List.mem_append, List.mem_singleton]
        apply or_congr_right
        constructor
        · rintro rfl
          exact ⟨url, hurl, hne, horigin⟩
        · rintro ⟨url', hurl', -, horigin'⟩
          rw [hsame url' hurl', horigin] at horigin'
          exact (Option.some.inj horigin').symm

theorem CsrfGuard.allowed_isOk
    (hcallback : ∀ url, config.callbackUrl = some url → url ≠ "" → (urlOrigin url).isSome) :
    ∃ origins, CsrfGuard.allowed urlOrigin config = .ok origins := by
  unfold CsrfGuard.allowed
  split
  · exact ⟨_, rfl⟩
  · rename_i url hurl
    obtain ⟨hurl, hne⟩ := truthy_eq_some.mp hurl
    obtain ⟨origin, horigin⟩ := Option.isSome_iff_exists.mp (hcallback url hurl hne)
    rw [horigin]
    exact ⟨_, rfl⟩

/-- The second guard passes a request that is safe, and one that may write. -/
theorem CsrfGuard.canActivate_iff (hpublic : handler.public = false)
    (hhash : Function.Injective crypto.hash) (principal : AuthPrincipal) :
    CsrfGuard.canActivate urlOrigin crypto config handler request (some principal) = .ok () ↔
      (request.method ∉ safeMethods → MayWrite urlOrigin config request principal) := by
  unfold CsrfGuard.canActivate
  by_cases hsafe : request.method ∈ safeMethods
  · simp [hsafe]
  rw [if_neg (by simp [hsafe, hpublic])]
  -- the token is compared first, then the origin
  by_cases htoken : CsrfGuard.tokenMatches crypto request (some principal) = true
  · rw [if_neg (by simp [htoken])]
    rw [CsrfGuard.tokenMatches_iff hhash] at htoken
    constructor
    · intro hpasses _
      obtain ⟨origins, hallowed, horigin⟩ := except_bind_ok hpasses
      obtain ⟨hcallback, hmem⟩ := CsrfGuard.allowed_ok hallowed
      refine ⟨htoken, hcallback, ?_⟩
      split at horigin
      · cases horigin
      · rename_i origin hgiven
        obtain ⟨hgiven, hne⟩ := truthy_eq_some.mp hgiven
        split at horigin
        · rename_i hin
          exact ⟨origin, hgiven, hne, (hmem origin).mp hin⟩
        · cases horigin
    · intro hmay
      obtain ⟨-, hcallback, origin, hgiven, hne, horigin⟩ := hmay hsafe
      obtain ⟨origins, hallowed⟩ := CsrfGuard.allowed_isOk hcallback
      have hin := ((CsrfGuard.allowed_ok hallowed).2 origin).mpr horigin
      rw [hallowed, truthy_eq_some.mpr ⟨hgiven, hne⟩]
      exact if_pos hin
  · rw [if_pos (by simpa using htoken)]
    constructor
    · intro hpasses
      cases hpasses
    · intro hmay
      exact absurd ((CsrfGuard.tokenMatches_iff hhash principal).mpr (hmay hsafe).token) htoken

/-- The third guard passes a principal with the permissions of the handler. -/
theorem PermissionGuard.passes_iff {principal : AuthPrincipal} {env : ℕ → HttpChoice}
    {w : HttpWorld} :
    ((PermissionGuard.canActivate handler request (some principal)).run serveHttp env w).outcome =
        .ok () ↔ ∀ scope ∈ handler.required, scope ∈ principal.scopes := by
  unfold PermissionGuard.canActivate
  by_cases hnone : handler.required = []
  · rw [if_pos hnone]
    simp [hnone, Prog.run]
  rw [if_neg hnone]
  dsimp only
  by_cases hall : handler.required.all principal.scopes.contains = true
  · rw [if_pos hall]
    simpa [Prog.run] using hall
  · rw [if_neg hall, Prog.run_bind_returns]
    constructor
    · rintro ⟨-, -, hthrown⟩
      cases hthrown
    · intro hpermitted
      exact absurd (by simpa using hpermitted) hall

/-- **The guards.**  They pass the requests that are admitted, and no others. -/
theorem guards_iff (hpublic : handler.public = false) (hhash : Function.Injective crypto.hash)
    {env : ℕ → HttpChoice} {w : HttpWorld} {r : Option AuthPrincipal} :
    ((guards urlOrigin crypto config handler request).run serveHttp env w).outcome = .ok r ↔
      ∃ principal, r = some principal ∧
        Admitted urlOrigin crypto config handler request env w principal := by
  unfold guards
  rw [Prog.run_bind_returns]
  constructor
  · rintro ⟨found, hfound, hrest⟩
    rw [AuthenticationGuard.returns_iff hpublic] at hfound
    obtain ⟨token, principal, hcookie, hne, hauthenticated, rfl⟩ := hfound
    rw [Prog.run_bind_returns, Prog.run_ofExcept] at hrest
    obtain ⟨⟨⟩, hcsrf, hrest⟩ := hrest
    rw [Prog.run_bind_returns] at hrest
    obtain ⟨⟨⟩, hpermitted, hreturned⟩ := hrest
    refine ⟨principal, (Except.ok.inj hreturned).symm, ⟨token, hcookie, hne, hauthenticated⟩, ?_, ?_⟩
    · exact PermissionGuard.passes_iff.mp hpermitted
    · exact (CsrfGuard.canActivate_iff hpublic hhash principal).mp hcsrf
  · rintro ⟨principal, rfl, ⟨token, hcookie, hne, hauthenticated⟩, hpermitted, hwritten⟩
    refine ⟨some principal, ?_, ?_⟩
    · rw [AuthenticationGuard.returns_iff hpublic]
      exact ⟨token, principal, hcookie, hne, hauthenticated, rfl⟩
    · rw [(CsrfGuard.canActivate_iff hpublic hhash principal).mpr hwritten,
        Prog.ofExcept_ok_bind, Prog.run_bind_returns]
      exact ⟨(), PermissionGuard.passes_iff.mpr hpermitted, rfl⟩

/-! ### Which way a request goes -/

/-- The middleware passes the request on to the guards. -/
structure CorsPassed (config : HttpConfig) (request : HttpRequest) : Prop where
  origin : ∀ origin, request.header "origin" = some origin → origin ≠ "" →
    origin ∈ config.allowedOrigins.getD []
  method : request.method ≠ "OPTIONS"

theorem corsOrigin_ok_iff {origin : Option String} :
    corsOrigin config origin = .ok () ↔
      ∀ o, origin = some o → o ≠ "" → o ∈ config.allowedOrigins.getD [] := by
  unfold corsOrigin
  cases horigin : truthy origin with
  | none =>
    refine iff_of_true rfl fun o ho hne => ?_
    rw [truthy_eq_some.mpr ⟨ho, hne⟩] at horigin
    cases horigin
  | some o =>
    obtain ⟨ho, hne⟩ := truthy_eq_some.mp horigin
    dsimp only
    constructor
    · intro hok o' ho' _
      obtain rfl := Option.some.inj (ho.symm.trans ho')
      by_contra hnot
      rw [if_neg hnot] at hok
      cases hok
    · exact fun h => if_pos (h o ho hne)

section Goes

variable {α : Type} (urlOrigin) (crypto) (config) (handler) (request)

/-- The handler does not run: whatever it would do, the request ends in the same
way, at the middleware or after the guards. -/
def Unhandled (α : Type) (env : ℕ → HttpChoice) (w : HttpWorld) : Prop :=
  let guarded := (guards urlOrigin crypto config handler request).run serveHttp env w
  ∃ r t cs, ((t = w ∧ cs = []) ∨ (t = guarded.state ∧ cs = guarded.calls)) ∧
    ∀ handle : Option AuthPrincipal → HttpAction α,
      (handleRequest urlOrigin crypto config handler request handle).run serveHttp env w =
        ⟨r, t, cs⟩

/-- The handler runs for the principal, after the guards. -/
def HandledFor (α : Type) (env : ℕ → HttpChoice) (w : HttpWorld) (principal : AuthPrincipal) :
    Prop :=
  let guarded := (guards urlOrigin crypto config handler request).run serveHttp env w
  guarded.outcome = .ok (some principal) ∧ ∀ handle : Option AuthPrincipal → HttpAction α,
    (handleRequest urlOrigin crypto config handler request handle).run serveHttp env w =
      ((audited handler request (some principal) (handle (some principal)) >>=
        fun value => Prog.ret (.handled value)).run serveHttp
          (fun n => env (n + guarded.calls.length)) guarded.state).after guarded.calls

end Goes

/-- **The way of a request** to a handler that is not public: the handler runs if
the middleware and the guards pass it, and else it does not. -/
theorem handleRequest_goes (α : Type) (hpublic : handler.public = false)
    (hhash : Function.Injective crypto.hash) (env : ℕ → HttpChoice) (w : HttpWorld) :
    (∃ principal, CorsPassed config request ∧
        Admitted urlOrigin crypto config handler request env w principal ∧
        HandledFor urlOrigin crypto config handler request α env w principal) ∨
      (¬ (CorsPassed config request ∧
          ∃ principal, Admitted urlOrigin crypto config handler request env w principal) ∧
        Unhandled urlOrigin crypto config handler request α env w) := by
  cases hcors : corsOrigin config (request.header "origin") with
  | error e =>
    -- the middleware refuses the origin
    right
    constructor
    · rintro ⟨hpassed, -⟩
      rw [corsOrigin_ok_iff.mpr hpassed.origin] at hcors
      cases hcors
    · refine ⟨.error e, w, [], .inl ⟨rfl, rfl⟩, fun handle => ?_⟩
      unfold handleRequest
      rw [hcors, Prog.ofExcept_error_bind]
      rfl
  | ok =>
    by_cases hoptions : request.method = "OPTIONS"
    · -- the middleware answers the preflight itself
      right
      refine ⟨fun h => h.1.method hoptions, .ok .preflight, w, [], .inl ⟨rfl, rfl⟩,
        fun handle => ?_⟩
      unfold handleRequest
      rw [hcors, Prog.ofExcept_ok_bind, if_pos hoptions]
      rfl
    have hgoes : ∀ handle : Option AuthPrincipal → HttpAction α,
        handleRequest urlOrigin crypto config handler request handle =
          guards urlOrigin crypto config handler request >>= fun principal =>
            audited handler request principal (handle principal) >>= fun value =>
              Prog.ret (.handled value) := by
      intro handle
      unfold handleRequest handleGuarded
      rw [hcors, Prog.ofExcept_ok_bind, if_neg hoptions, Prog.bind_assoc]
      rfl
    have hpassed : CorsPassed config request := ⟨corsOrigin_ok_iff.mp hcors, hoptions⟩
    rcases hguarded : (guards urlOrigin crypto config handler request).run serveHttp env w with
      ⟨outcome, t, cs⟩
    cases outcome with
    | ok r =>
      obtain ⟨principal, rfl, hadmitted⟩ := (guards_iff hpublic hhash).mp
        (congrArg Ended.outcome hguarded)
      refine .inl ⟨principal, hpassed, hadmitted, ?_⟩
      unfold HandledFor
      rw [hguarded]
      refine ⟨rfl, fun handle => ?_⟩
      rw [hgoes, Prog.run_bind_ok hguarded]
    | error e =>
      right
      constructor
      · rintro ⟨-, principal, hadmitted⟩
        have hok := (guards_iff hpublic hhash).mpr ⟨principal, rfl, hadmitted⟩
        rw [hguarded] at hok
        cases hok
      · refine ⟨.error e, t, cs, .inr ?_, fun handle => ?_⟩
        · rw [hguarded]
          exact ⟨rfl, rfl⟩
        · rw [hgoes, Prog.run_bind_error hguarded]

end Guards

end NexCause
