/-
NexCause/RequestAdmission.lean

What the way of a request lets happen.  A handler that is not public runs only
for a request that is entitled to it, and the guards let such a request pass if
what it presents is not empty; and a body with secrets, from a session that may
not write secrets, leaves nothing behind but what is kept about the session and
about the request itself.

Main result: `access_control`.
-/
import Mathlib.Logic.Equiv.Basic
import NexCause.AuthGuards
import NexCause.DeploymentPrograms

namespace NexCause

open Program Prog

/-! ### What is kept about a request -/

/-- The key of the session that the cookie names. -/
def HttpRequest.sessionKey (crypto : CryptoService) (request : HttpRequest) : Option String :=
  match request.cookie with
  | some (.text token) => some (crypto.hash token)
  | _ => none

/-- The call reads the clock or a session, moves the expiry of the session `key` or deletes that
session, or writes an audit event. -/
def HttpCall.Bookkeeping (key : Option String) : HttpCall → Prop
  | .session .now => True
  | .session (.findUnique _) => True
  | .session (.update idHash data) => some idHash = key ∧
      ∃ lastSeenAt idleExpiresAt, data =
        { lastSeenAt := some lastSeenAt, idleExpiresAt := some idleExpiresAt }
  | .session (.delete idHash) => some idHash = key
  | .audit _ => True
  | _ => False

/-- The call deletes a session. -/
def HttpCall.Deletes : HttpCall → Prop
  | .session (.delete _) => True
  | _ => False

/-- Nothing is left of the request but what is kept about it; and the session is deleted only when it
was not `accepted`. -/
structure OnlyBookkeeping {α : Type} (key : Option String) (accepted : Prop) (w : HttpWorld)
    (run : Ended HttpCall ApiError α HttpWorld) : Prop where
  calls : ∀ c ∈ run.calls, c.Bookkeeping key
  deletes : accepted → ∀ c ∈ run.calls, ¬ c.Deletes
  platform : run.state.platform = w.platform

/-- The body has secrets. -/
def CreateDeploymentDto.holdsSecrets (dto : CreateDeploymentDto) : Prop :=
  (dto.secrets.getD []).length > 0 ∨ (dto.secretFiles.getD []).length > 0

/-! ### Who is entitled -/

/-- The cookie names a session that `authenticate` accepts. -/
def Authenticated (crypto : CryptoService) (config : HttpConfig) (request : HttpRequest)
    (env : ℕ → HttpChoice) (w : HttpWorld) (principal : AuthPrincipal) : Prop :=
  ∃ token, request.cookie = some (.text token) ∧
    ((authenticate crypto config.session token).run serveSession (fun n => (env n).session)
      w.sessions).outcome = .ok (some principal)

/-- The request is from a session with the permissions of the handler; and where
it may write, it has the token of the session and an origin that may write. -/
structure Entitled (urlOrigin : String → Option String) (crypto : CryptoService)
    (config : HttpConfig) (handler : RouteHandler) (request : HttpRequest) (env : ℕ → HttpChoice)
    (w : HttpWorld) (principal : AuthPrincipal) : Prop where
  authenticated : Authenticated crypto config request env w principal
  permitted : ∀ scope ∈ handler.required, scope ∈ principal.scopes
  token : request.method ∉ safeMethods →
    request.header "x-csrf-token" = some principal.csrfToken
  origin : request.method ∉ safeMethods → ∃ origin, request.header "origin" = some origin ∧
    (origin ∈ config.allowedOrigins.getD [] ∨
      ∃ url, config.callbackUrl = some url ∧ url ≠ "" ∧ urlOrigin url = some origin)

/-- The cookie is not empty; and where the request may write, neither are the
token of the session and the origin, and the callback URL is a URL. -/
structure Presentable (urlOrigin : String → Option String) (config : HttpConfig)
    (request : HttpRequest) (principal : AuthPrincipal) : Prop where
  cookie : request.cookie ≠ some (.text "")
  token : request.method ∉ safeMethods → principal.csrfToken ≠ ""
  origin : request.method ∉ safeMethods → request.header "origin" ≠ some ""
  callback : request.method ∉ safeMethods →
    ∀ url, config.callbackUrl = some url → url ≠ "" → (urlOrigin url).isSome

section Requests

variable {urlOrigin : String → Option String} {crypto : CryptoService} {config : HttpConfig}
variable {handler : RouteHandler} {request : HttpRequest}

/-- Who is admitted is entitled, and presents nothing that is empty; and the
other way round. -/
theorem admitted_iff {env : ℕ → HttpChoice} {w : HttpWorld} {principal : AuthPrincipal} :
    Admitted urlOrigin crypto config handler request env w principal ↔
      Entitled urlOrigin crypto config handler request env w principal ∧
        Presentable urlOrigin config request principal := by
  constructor
  · rintro ⟨⟨token, hcookie, hne, hauthenticated⟩, hpermitted, hwritten⟩
    refine ⟨⟨⟨token, hcookie, hauthenticated⟩, hpermitted, fun h => (hwritten h).token.2,
      fun h => ?_⟩, ⟨?_, fun h => (hwritten h).token.1, fun h => ?_, fun h => (hwritten h).callback⟩⟩
    · obtain ⟨origin, hgiven, -, horigin⟩ := (hwritten h).origin
      exact ⟨origin, hgiven, horigin⟩
    · rw [hcookie]
      exact fun hempty => hne (by simpa using hempty)
    · obtain ⟨origin, hgiven, horigin, -⟩ := (hwritten h).origin
      rw [hgiven]
      exact fun hempty => horigin (Option.some.inj hempty)
  · rintro ⟨⟨⟨token, hcookie, hauthenticated⟩, hpermitted, htoken, horigin⟩,
      hcookie', htoken', horigin', hcallback⟩
    refine ⟨⟨token, hcookie, ?_, hauthenticated⟩, hpermitted, fun h => ?_⟩
    · rintro rfl
      exact hcookie' hcookie
    · obtain ⟨origin, hgiven, hin⟩ := horigin h
      refine ⟨⟨htoken' h, htoken h⟩, hcallback h, origin, hgiven, ?_, hin⟩
      rintro rfl
      exact horigin' h hgiven

/-! ### Sessions -/

/-- A principal has the permissions of the row it was made of. -/
theorem authenticate_scopes {token : String} {env : ℕ → SessionChoice} {s : SessionWorld}
    {principal : AuthPrincipal}
    (h : ((authenticate crypto config.session token).run serveSession env s).outcome =
      .ok (some principal)) :
    ∃ row ∈ s.sessions, row.idHash = crypto.hash token ∧ principal.scopes = row.scopes := by
  rw [authenticate, Prog.run_bind_returns] at h
  obtain ⟨found, hfound, hrest⟩ := h
  have hrow : found = (s.sessions.find? (·.idHash = crypto.hash token)).map
      fun row => (row, (env 0).relations) := (Except.ok.inj hfound).symm
  cases hfind : s.sessions.find? (·.idHash = crypto.hash token) with
  -- without a row nobody is authenticated
  | none =>
    rw [hfind] at hrow
    subst hrow
    cases hrest
  | some row =>
    rw [hfind] at hrow
    subst hrow
    refine ⟨row, List.mem_of_find?_eq_some hfind, by simpa using List.find?_some hfind, ?_⟩
    have hreturns : (authenticateFound config.session (crypto.hash token) row
        (env 0).relations).Returns fun r => ∀ p, r = some p → p.scopes = row.scopes := by
      apply Prog.Returns.bind (P := fun _ => True) (Prog.Returns.of_forall (fun _ => trivial) _)
      intro lapsed _
      cases lapsed with
      -- a session that has lapsed is deleted
      | true =>
        apply Prog.Returns.bind (P := fun _ => True) (Prog.Returns.of_forall (fun _ => trivial) _)
        intro _ _ p hp
        cases hp
      | false =>
        apply Prog.Returns.bind (P := fun _ => True) (Prog.Returns.of_forall (fun _ => trivial) _)
        intro lastSeenAt _
        apply Prog.Returns.bind (P := fun _ => True) (Prog.Returns.of_forall (fun _ => trivial) _)
        intro now _
        apply Prog.Returns.bind (P := fun _ => True) (Prog.Returns.of_forall (fun _ => trivial) _)
        intro _ _ p hp
        obtain rfl := Option.some.inj hp
        rfl
    exact hreturns.run hrest principal rfl

/-- A program that deletes nothing, recorded. -/
theorem recorded_keeps {α : Type} {p : SessionAction α}
    (hp : p.Calls fun c => ¬ (HttpCall.session c).Deletes) {cs : List SessionCall}
    (hcs : ∀ c ∈ cs, ¬ (HttpCall.session c).Deletes) :
    p.Meets (Contract.recording id) (fun _ cs => ∀ c ∈ cs, ¬ (HttpCall.session c).Deletes) cs := by
  apply hp.keeps _ hcs
  intro c cs hc hcs
  refine ⟨trivial, ?_⟩
  rintro r t rfl
  exact List.forall_mem_append.mpr ⟨hcs, List.forall_mem_singleton.mpr hc⟩

/-- A session that `authenticate` accepts it does not delete. -/
theorem authenticate_keeps {token : String} {env : ℕ → SessionChoice} {s : SessionWorld}
    {principal : AuthPrincipal}
    (h : ((authenticate crypto config.session token).run serveSession env s).outcome =
      .ok (some principal)) :
    ∀ c ∈ ((authenticate crypto config.session token).run serveSession env s).calls,
      ¬ (HttpCall.session c).Deletes := by
  have hmeets : (authenticate crypto config.session token).Meets (Contract.recording id)
      (fun r cs => ∀ p, r = .ok (some p) → ∀ c ∈ cs, ¬ (HttpCall.session c).Deletes) [] := by
    apply (recorded_keeps (Prog.calls_perform.mpr id) (List.forall_mem_nil _)).bind
    · intro found cs hcs
      cases found with
      | none =>
        intro p hp
        cases hp
      | some row =>
        obtain ⟨session, relations⟩ := row
        have hlapsed : (sessionLapsed session relations).Calls
            fun c => ¬ (HttpCall.session c).Deletes :=
          (sessionLapsed_calls session relations).mono fun c hc => hc ▸ id
        apply (recorded_keeps hlapsed hcs).bind
        · intro lapsed cs hcs
          cases lapsed with
          | true =>
            -- the session is deleted, and no principal returned
            rw [if_pos rfl, Prog.meets_bind]
            apply Prog.meets_perform.mpr
            refine ⟨trivial, fun r t _ => ?_⟩
            cases r with
            | ok a =>
              intro p hp
              cases hp
            | error e =>
              intro p hp
              cases hp
          | false =>
            rw [if_neg Bool.false_ne_true]
            refine (recorded_keeps ?_ hcs).mono fun r cs hcs p _ => hcs
            apply Prog.Calls.bind (Prog.calls_perform.mpr id)
            intro lastSeenAt
            apply Prog.Calls.bind (Prog.calls_perform.mpr id)
            intro now
            apply Prog.Calls.bind (Prog.calls_perform.mpr id)
            exact fun _ => trivial
        · intro e cs _ p hp
          cases hp
    · intro e cs _ p hp
      cases hp
  have hrun := run_recording hmeets env s principal h
  rw [List.nil_append, List.map_id] at hrun
  exact hrun

/-! ### The calls of a request -/

theorem recordAudit_calls {P : HttpCall → Prop} (haudit : ∀ event, P (.audit event))
    (principal : AuthPrincipal) (outcome : String) (statusCode : Option ℕ) :
    (recordAudit handler request principal outcome statusCode).Calls P := by
  apply Prog.Calls.tryCatch (Prog.calls_perform.mpr (haudit _))
  exact fun _ => trivial

/-- The interceptor adds audit events. -/
theorem audited_calls {α : Type} {P : HttpCall → Prop} (haudit : ∀ event, P (.audit event))
    (principal : Option AuthPrincipal) {handle : HttpAction α} (hhandle : handle.Calls P) :
    (audited handler request principal handle).Calls P := by
  unfold audited
  cases principal with
  | none => exact hhandle
  | some principal =>
    dsimp only
    split
    · exact hhandle
    · apply Prog.Calls.tryCatch
      · apply hhandle.bind
        intro value
        apply (recordAudit_calls haudit principal _ _).bind
        exact fun _ => trivial
      · intro error
        apply (recordAudit_calls haudit principal _ _).bind
        exact fun _ => trivial

theorem PermissionGuard.calls {P : HttpCall → Prop} (haudit : ∀ event, P (.audit event))
    (principal : Option AuthPrincipal) :
    (PermissionGuard.canActivate handler request principal).Calls P := by
  unfold PermissionGuard.canActivate
  split
  · trivial
  · cases principal with
    | none => trivial
    | some principal =>
      dsimp only
      split
      · trivial
      · apply Prog.Calls.bind
        · apply Prog.Calls.tryCatch (Prog.calls_perform.mpr (haudit _))
          exact fun _ => trivial
        · exact fun _ => trivial

theorem AuthenticationGuard.calls :
    (AuthenticationGuard.canActivate crypto config handler request).Calls
      (·.Bookkeeping (request.sessionKey crypto)) := by
  unfold AuthenticationGuard.canActivate
  split
  · trivial
  · split
    · trivial
    · trivial
    · trivial
    · rename_i token hne hcookie
      have hkey : request.sessionKey crypto = some (crypto.hash token) := by
        simp [HttpRequest.sessionKey, hcookie]
      apply Prog.Calls.bind
      · rw [hkey]
        apply Prog.Calls.embed (P := fun c => (HttpCall.session c).Bookkeeping (some (crypto.hash token)))
        · apply authenticate_makes
          · trivial
          · trivial
          · exact fun lastSeenAt idleExpiresAt => ⟨rfl, lastSeenAt, idleExpiresAt, rfl⟩
          · rfl
        · exact fun c hc => hc
      · intro found
        cases found with
        | none => trivial
        | some principal => trivial

/-- What the guards do. -/
theorem guards_calls :
    (guards urlOrigin crypto config handler request).Calls
      (·.Bookkeeping (request.sessionKey crypto)) := by
  apply AuthenticationGuard.calls.bind
  intro principal
  apply Prog.calls_ofExcept.bind
  intro _
  apply (PermissionGuard.calls (fun _ => trivial) principal).bind
  exact fun _ => trivial

/-- What the guards do with a request from a session that `authenticate` accepts. -/
theorem guards_keep {env : ℕ → HttpChoice} {w : HttpWorld} {principal : AuthPrincipal}
    (hpublic : handler.public = false)
    (h : Authenticated crypto config request env w principal) :
    ∀ c ∈ ((guards urlOrigin crypto config handler request).run serveHttp env w).calls,
      ¬ c.Deletes := by
  obtain ⟨token, hcookie, hauthenticated⟩ := h
  apply Prog.run_bind_calls
  · by_cases hne : token = ""
    · -- the first guard refuses an empty cookie without a call
      subst hne
      unfold AuthenticationGuard.canActivate
      rw [hpublic, if_neg Bool.false_ne_true, hcookie]
      exact List.forall_mem_nil _
    rw [AuthenticationGuard.canActivate_text hpublic hcookie hne]
    apply Prog.run_bind_calls
    · rw [(inSessions_run ..).2]
      exact List.forall_mem_map.mpr (authenticate_keeps hauthenticated)
    · intro found _
      cases found with
      | none => trivial
      | some principal => trivial
  · intro found _
    apply Prog.calls_ofExcept.bind
    intro _
    apply (PermissionGuard.calls (fun _ => id) found).bind
    exact fun _ => trivial

/-- A creation with secrets, from one that may not write secrets. -/
theorem create_refused {service : ServiceConfig} {create : CreateRequest}
    (hsecrets : create.dto.holdsSecrets) (hscopes : "secrets:write" ∉ create.scopes) :
    DeploymentsService.create service create =
      Prog.throw (.forbidden "The required permission is missing") := by
  have hrequired : requirePermissions create.scopes ["secrets:write"] =
      .error (.forbidden "The required permission is missing") := by
    unfold requirePermissions
    rw [if_neg (by simpa using hscopes)]
  unfold CreateDeploymentDto.holdsSecrets at hsecrets
  unfold DeploymentsService.create planDeployment liftExcept
  simp only [if_pos hsecrets, hrequired]
  rfl

theorem handleCreate_calls {P : HttpCall → Prop} {service : ServiceConfig}
    {appId deploymentId : String} {body : Except ApiError CreateDeploymentDto}
    {principal : AuthPrincipal} (hsecrets : ∀ dto, body = .ok dto → dto.holdsSecrets)
    (hscopes : "secrets:write" ∉ principal.scopes) :
    (handleCreate service appId deploymentId body (some principal)).Calls P := by
  unfold handleCreate
  cases body with
  | error e => trivial
  | ok dto =>
    rw [Prog.ofExcept_ok_bind, create_refused (hsecrets dto rfl) hscopes]
    trivial

/-- The calls of a request to a handler that is not public, in one run: those of
its guards and, if they pass, those of its handler and the audit. -/
theorem handleRequest_run_calls {α : Type} {P : HttpCall → Prop}
    (hhash : Function.Injective crypto.hash) (hpublic : handler.public = false)
    {handle : Option AuthPrincipal → HttpAction α} {env : ℕ → HttpChoice} {w : HttpWorld}
    (hguards : ∀ c ∈ ((guards urlOrigin crypto config handler request).run serveHttp env w).calls, P c)
    (haudit : ∀ event, P (.audit event))
    (hhandle : ∀ principal, Admitted urlOrigin crypto config handler request env w principal →
      (handle (some principal)).Calls P) :
    ∀ c ∈ ((handleRequest urlOrigin crypto config handler request handle).run serveHttp env w).calls,
      P c := by
  rcases handleRequest_goes α hpublic hhash env w with
    ⟨principal, -, hadmitted, -, hrun⟩ | ⟨-, r, t, cs, hends, hrun⟩
  · rw [hrun]
    apply List.forall_mem_append.mpr ⟨hguards, ?_⟩
    apply Prog.Calls.run
    apply (audited_calls haudit (some principal) (hhandle principal hadmitted)).bind
    exact fun _ => trivial
  · rw [hrun]
    -- the handler does not run: no call, or only those of the guards
    rcases hends with ⟨-, rfl⟩ | ⟨-, rfl⟩
    · exact List.forall_mem_nil _
    · exact hguards

/-! ### The main result -/

/-- **Access control.**  A handler that is not public runs only for a request that is entitled to it,
with the principal of its session; the guards let such a request pass when what it presents is not
empty; and a creation with secrets from a session without `secrets:write` writes nothing but what is
kept about the session and about the request. -/
theorem access_control {α : Type} (urlOrigin : String → Option String) (crypto : CryptoService)
    (hhash : Function.Injective crypto.hash) (config : HttpConfig) (request : HttpRequest)
    (env : ℕ → HttpChoice) (w : HttpWorld) :
    (∀ handler : RouteHandler, handler.public = false →
      (Unhandled urlOrigin crypto config handler request α env w ∨
        ∃ principal, Entitled urlOrigin crypto config handler request env w principal ∧
          HandledFor urlOrigin crypto config handler request α env w principal) ∧
      ∀ principal, Entitled urlOrigin crypto config handler request env w principal →
        Presentable urlOrigin config request principal →
        ((guards urlOrigin crypto config handler request).run serveHttp env w).outcome =
          .ok (some principal)) ∧
      ∀ (service : ServiceConfig) (appId deploymentId : String)
        (body : Except ApiError CreateDeploymentDto),
        (∀ dto, body = .ok dto → dto.holdsSecrets) →
        (∀ row ∈ w.sessions.sessions, some row.idHash = request.sessionKey crypto →
          "secrets:write" ∉ row.scopes) →
        OnlyBookkeeping (request.sessionKey crypto)
          (∃ principal, Authenticated crypto config request env w principal) w
          ((handleRequest urlOrigin crypto config createHandler request
            (handleCreate service appId deploymentId body)).run serveHttp env w) := by
  constructor
  · intro handler hpublic
    constructor
    · -- whatever is not handled ends before the handler
      rcases handleRequest_goes α hpublic hhash env w with
        ⟨principal, -, hadmitted, hhandled⟩ | hnot
      · exact .inr ⟨principal, (admitted_iff.mp hadmitted).1, hhandled⟩
      · exact .inl hnot.2
    · -- what is left to check is the form of the request
      intro principal hentitled hpresentable
      exact (guards_iff hpublic hhash).mpr
        ⟨principal, rfl, admitted_iff.mpr ⟨hentitled, hpresentable⟩⟩
  · -- a creation that names secrets, by a session without the scope
    intro service appId deploymentId body hsecrets hscopes
    -- what the guards let through does not get past the check of the service
    have hhandler : ∀ (P : HttpCall → Prop) principal,
        Admitted urlOrigin crypto config createHandler request env w principal →
        (handleCreate service appId deploymentId body (some principal)).Calls P := by
      intro P principal hadmitted
      obtain ⟨token, hcookie, -, hauthenticated⟩ := hadmitted.authenticated
      obtain ⟨row, hrow, hkey, hrowScopes⟩ := authenticate_scopes hauthenticated
      apply handleCreate_calls hsecrets
      rw [hrowScopes]
      apply hscopes row hrow
      rw [HttpRequest.sessionKey, hcookie, hkey]
    have hcalls := handleRequest_run_calls hhash rfl (guards_calls.run env w) (fun _ => trivial)
      (hhandler (·.Bookkeeping (request.sessionKey crypto)))
    refine ⟨hcalls, ?_, ?_⟩
    · -- a session that is accepted is not deleted, whatever comes after
      rintro ⟨principal, hauthenticated⟩
      exact handleRequest_run_calls hhash rfl (guards_keep rfl hauthenticated) (fun _ => id)
        (hhandler _)
    · -- none of these calls writes a row or an object of the platform
      apply Prog.run_keeps (I := fun t => t.platform = w.platform) _ hcalls rfl
      intro c x t hc ht
      cases c with
      | session c => exact ht
      | audit event =>
        show (serveHttp (.audit event) x t).2.platform = _
        unfold serveHttp
        dsimp only
        split
        · exact ht
        · exact ht
      | platform c => exact hc.elim

end Requests

/-! ### Some requests -/

/-- SHA-256 on two random tokens and on the empty text; where another text would have the same hash,
the two are exchanged. -/
def swapCrypto : CryptoService where
  hash := Equiv.swap sampleCookie "xpBrSsZUfx8cqjAJkG4fm09ihHMiFAwGfc-wLlQgIdw" ∘
    Equiv.swap sampleCsrfToken "V-vhCxRKVXW3mni8cuCe58yhGRl_b9VebTTow5OQbK8" ∘
    Equiv.swap "" "47DEQpj8HBSa-_TImW-5JCeuQeRkm5NMpJWZG3hSuFU"
  encrypt s := s

theorem swapCrypto_injective : Function.Injective swapCrypto.hash := by
  apply (Equiv.injective _).comp
  apply (Equiv.injective _).comp
  exact Equiv.injective _

def sampleOrigin (url : String) : Option String :=
  if url = "http://localhost:3000/auth/callback" then some "http://localhost:3000" else none

def sampleHttpConfig : HttpConfig :=
  ⟨sampleSessionConfig, some ["https://ui.example.com"], some "http://localhost:3000/auth/callback"⟩

/-- A request to create a deployment. -/
def creationRequest (cookie csrfToken origin : String) : HttpRequest where
  method := "POST"
  path := "/apps/a/deployments"
  routePath := some "/apps/:appId/deployments"
  params := [("appId", "a")]
  headers := [("x-csrf-token", csrfToken), ("origin", origin)]
  cookie := some (.text cookie)

/-- A session that may write deployments, but no secrets. -/
def writerSession (cookie csrfToken : String) : AuthSession :=
  ⟨⟨swapCrypto.hash cookie, "user-a", "workspace-a", "organization-a", ["Developer"],
    ["deployments:write"], csrfToken, none, none, none, none, 1800000, 28800000⟩, 0⟩

def writerPrincipal (cookie csrfToken : String) : AuthPrincipal :=
  toPrincipal (writerSession cookie csrfToken) ⟨"subject-a", "active"⟩

def sampleHttpWorld (cookie csrfToken : String) : HttpWorld :=
  ⟨⟨0, [writerSession cookie csrfToken]⟩, [], sampleWorld⟩

/-- Every call takes so long, and the workspace is active. -/
def httpTurns (elapsed : ℕ) (_ : ℕ) : HttpChoice :=
  ⟨⟨elapsed, "", ⟨"subject-a", "active"⟩, 0⟩, none, healthy⟩

/-- A body with a secret. -/
def secretBody : CreateDeploymentDto := { sampleRequest.dto with secrets := some [("KEY", "value")] }

/-- A request that is admitted, and that fails in the service. -/
theorem creation_admitted :
    ((guards sampleOrigin swapCrypto sampleHttpConfig createHandler
      (creationRequest sampleCookie sampleCsrfToken "https://ui.example.com")).run serveHttp
        (httpTurns 1000) (sampleHttpWorld sampleCookie sampleCsrfToken)).outcome =
        .ok (some (writerPrincipal sampleCookie sampleCsrfToken)) ∧
      ((handleRequest sampleOrigin swapCrypto sampleHttpConfig createHandler
        (creationRequest sampleCookie sampleCsrfToken "https://ui.example.com")
        (handleCreate sampleConfig "a" "1" (.ok secretBody))).run serveHttp (httpTurns 1000)
          (sampleHttpWorld sampleCookie sampleCsrfToken)).state.platform = sampleWorld := by
  have hcontrol := access_control (α := Unit) sampleOrigin swapCrypto swapCrypto_injective
    sampleHttpConfig (creationRequest sampleCookie sampleCsrfToken "https://ui.example.com")
    (httpTurns 1000) (sampleHttpWorld sampleCookie sampleCsrfToken)
  constructor
  · apply (hcontrol.1 createHandler rfl).2 (writerPrincipal sampleCookie sampleCsrfToken)
    · refine ⟨⟨sampleCookie, rfl, by decide +kernel⟩, by decide, fun _ => rfl, fun _ => ?_⟩
      exact ⟨"https://ui.example.com", rfl, .inl (by decide)⟩
    · refine ⟨by decide, fun _ => by decide, fun _ => by decide, fun _ url hurl _ => ?_⟩
      obtain rfl := Option.some.inj hurl
      decide
  · refine (hcontrol.2 sampleConfig "a" "1" (.ok secretBody) ?_ ?_).platform
    · intro dto hdto
      obtain rfl := Except.ok.inj hdto
      exact .inl (by decide)
    · intro row hrow _
      obtain rfl := List.mem_singleton.mp hrow
      decide

/-- An empty cookie, token or origin is refused, even where it is the one of the session or of the
configuration; so is every origin where the callback URL is no URL.  And a session that has expired is
deleted. -/
theorem presented_requests_refused :
    let refused (config : HttpConfig) (cookie csrfToken origin : String) :=
      ((guards sampleOrigin swapCrypto config createHandler
        (creationRequest cookie csrfToken origin)).run serveHttp (httpTurns 1000)
          (sampleHttpWorld cookie csrfToken)).outcome
    (((authenticate swapCrypto sampleSessionConfig "").run serveSession
        (fun n => (httpTurns 1000 n).session) (sampleHttpWorld "" sampleCsrfToken).sessions).outcome =
        .ok (some (writerPrincipal "" sampleCsrfToken)) ∧
      refused sampleHttpConfig "" sampleCsrfToken "https://ui.example.com" =
        .error (.unauthorized "Authentication is required")) ∧
    refused sampleHttpConfig sampleCookie "" "https://ui.example.com" =
      .error (.forbidden "The CSRF token is invalid") ∧
    refused ⟨sampleSessionConfig, some [""], none⟩ sampleCookie sampleCsrfToken "" =
      .error (.forbidden "The request origin is not allowed") ∧
    refused ⟨sampleSessionConfig, some ["https://ui.example.com"], some "auth/callback"⟩ sampleCookie
      sampleCsrfToken "https://ui.example.com" = .error (.error "Invalid URL") ∧
    HttpCall.session (.delete (swapCrypto.hash sampleCookie)) ∈
      ((handleRequest sampleOrigin swapCrypto sampleHttpConfig createHandler
        (creationRequest sampleCookie sampleCsrfToken "https://ui.example.com")
        (handleCreate sampleConfig "a" "1" (.ok secretBody))).run serveHttp (httpTurns 1800000)
          (sampleHttpWorld sampleCookie sampleCsrfToken)).calls := by
  refine ⟨⟨?_, ?_⟩, ?_, ?_, ?_, ?_⟩
  · decide +kernel
  · decide +kernel
  · decide +kernel
  · decide +kernel
  · decide +kernel
  · decide +kernel

end NexCause
