/-
NexCause/LogoutSessions.lean

Logout, down to the services behind it: the calls of `AuthService` to
`OidcService` become the programs of that service.

`logout` reads the session, decrypts its tokens, revokes them at the provider,
and destroys the session after that.  A revocation that fails is absorbed; the
decryption is not, and neither is the client that the revocation awaits first.

Main result: with the database reachable, the session is gone after `logout`
exactly if its tokens decrypt and the provider was discovered
(`logout_ends_session_iff`).
-/
import NexCause.Expansion
import NexCause.OidcDiscovery

namespace NexCause

open Program Prog

/-! ### The services behind `AuthService` -/

inductive BackendCall
  | session (c : SessionCall)
  | oidc (c : Shared OidcCall)
  | resolveIdentity (identity : VerifiedIdentity)
  | audit (actorUserId workspaceId action outcome : String)
  deriving DecidableEq, Repr

abbrev BackendCall.Result : BackendCall → Type
  | .session c => c.Result
  | .oidc c => Shared.Result OidcClient OidcCall.Result c
  | .resolveIdentity _ => String × String
  | .audit _ _ _ _ => Unit

inductive BackendError
  | auth (e : AuthError)
  | oidc (e : OidcError)
  deriving DecidableEq, Repr

/-- The errors that `AuthService` can tell apart. -/
def BackendError.ofAuth : BackendError → Option AuthError
  | .auth e => some e
  | .oidc _ => none

/-- The errors that `OidcService` sees. -/
def BackendError.ofOidc : BackendError → Option OidcError
  | .oidc e => some e
  | .auth _ => none

abbrev BackendAction (α : Type) : Type := Prog BackendCall BackendCall.Result BackendError α

/-- What `OidcService` does, as a part of the whole. -/
def onOidc {α : Type} (p : OidcAction α) : BackendAction α :=
  p.embed BackendCall.oidc (fun _ a => a) BackendError.ofOidc BackendError.oidc

section Backend

variable (config : OidcConfig)

/-- What a call of `AuthService` does. -/
def backend : (c : AuthCall) → BackendAction c.Result
  | .session c => perform (BackendCall.session c)
  | .revokeTokens accessToken refreshToken =>
      onOidc (OidcService.revokeTokens accessToken refreshToken)
  | .refresh refreshToken => onOidc (OidcService.refresh refreshToken)
  | .switchOrganization accessToken organizationId expectedSubject => do
      let (payload, identity) ←
        onOidc (OidcService.switchOrganization config accessToken organizationId expectedSubject)
      -- a response without the token has thrown
      return (⟨payload.accessToken.getD "", payload.refreshToken, payload.idToken,
        payload.expiresIn⟩, identity)
  | .resolveIdentity identity => perform (BackendCall.resolveIdentity identity)
  | .audit actorUserId workspaceId action outcome =>
      perform (BackendCall.audit actorUserId workspaceId action outcome)
  | .logoutUrl idToken => onOidc (OidcService.logoutUrl config idToken)

/-- A program of `AuthService`, down to the services behind it. -/
def onBackend {α : Type} (p : AuthAction α) : BackendAction α :=
  p.expand (backend config) BackendError.ofAuth BackendError.auth

theorem onBackend_bind {α β : Type} (p : AuthAction α) (f : α → AuthAction β) :
    onBackend config (p >>= f) = onBackend config p >>= fun a => onBackend config (f a) :=
  expand_bind (backend config) BackendError.ofAuth BackendError.auth p f

theorem onBackend_perform (c : AuthCall) :
    onBackend config (perform c) = backend config c := by
  apply expand_perform
  intro e' e he
  cases e' with
  | auth e' => exact congrArg BackendError.auth (Option.some.inj he).symm
  | oidc e' => cases he

end Backend

/-- What the environment chooses at a call. -/
structure BackendChoice where
  session : SessionChoice
  provider : OidcAnswers
  resolved : String × String

/-- The services, with a database that can be reached, once the promise of the client is settled. -/
def serveBackend (client : Except OidcError OidcClient) :
    Service BackendCall BackendCall.Result BackendError BackendChoice SessionWorld
  | .session c, x, s =>
      let answered := serveSession c x.session s
      (answered.1.mapError fun e => .auth (.prisma e), answered.2)
  | .oidc .promise, _, s => (client.mapError .oidc, s)
  | .oidc (.own c), x, s => ((x.provider c).mapError .oidc, s)
  | .resolveIdentity _, x, s => (.ok x.resolved, s)
  | .audit _ _ _ _, _, s => (.ok (), s)

/-! ### Calls that leave the sessions alone -/

/-- The call is none to the table of sessions. -/
def BackendCall.besideSessions : BackendCall → Prop
  | .session _ => False
  | _ => True

theorem onOidc_besideSessions {α : Type} (p : OidcAction α) :
    (onOidc p).Calls BackendCall.besideSessions := by
  have hany : ∀ p : OidcAction α, p.Calls fun _ => True := by
    intro p
    induction p with
    | ret a => trivial
    | throw e => trivial
    | call c k ih => exact ⟨trivial, ih⟩
  apply (hany p).embed
  exact fun _ _ => trivial

section Runs

variable (client : Except OidcError OidcClient) (env : ℕ → BackendChoice) (s : SessionWorld)

theorem run_besideSessions {α : Type} {p : BackendAction α}
    (hp : p.Calls BackendCall.besideSessions) :
    (p.run (serveBackend client) env s).state.sessions = s.sessions := by
  have hkeep : ∀ (c : BackendCall) (x : BackendChoice) (t : SessionWorld), c.besideSessions →
      t.sessions = s.sessions → (serveBackend client c x t).2.sessions = s.sessions := by
    intro c x t hc ht
    cases c with
    | session c => exact hc.elim
    | oidc c =>
      cases c with
      | promise => exact ht
      | own c => exact ht
    | resolveIdentity identity => exact ht
    | audit actorUserId workspaceId action outcome => exact ht
  exact run_keeps (I := fun t => t.sessions = s.sessions) hkeep (hp.run env s) rfl

/-! ### Revocation -/

/-- The parts of `OidcService` that are answered as in the whole. -/
def serveShared (client : Except OidcError OidcClient) :
    Service (Shared OidcCall) (Shared.Result OidcClient OidcCall.Result) OidcError OidcAnswers Unit
  | .promise, _, _ => (client, ())
  | .own c, x, _ => (x c, ())

theorem embeds_oidc :
    Embeds BackendCall.oidc (fun _ a => a) BackendError.ofOidc (serveShared client)
      (serveBackend client) BackendChoice.provider fun _ => () := by
  have hanswer : ∀ {A : Type} (r : Except OidcError A),
      (∃ a, r.mapError BackendError.oidc = .ok a ∧ r = .ok a) ∨
        ∃ e e', r.mapError BackendError.oidc = .error e' ∧ BackendError.ofOidc e' = some e ∧
          r = .error e := by
    intro A r
    cases r with
    | ok a => exact .inl ⟨a, rfl, rfl⟩
    | error e => exact .inr ⟨e, _, rfl, rfl, rfl⟩
  constructor
  · intro c x s
    cases c with
    | promise => exact hanswer client
    | own c => exact hanswer (x.provider c)
  · intro c x s
    cases c with
    | promise => rfl
    | own c => rfl

/-- A revocation that fails is absorbed. -/
theorem revokeSettled_run (hint : String) (token : Option String) (env : ℕ → OidcAnswers) :
    ∃ cs, (OidcService.revokeSettled hint token).run (serveShared client) env () =
      ⟨.ok (), (), cs⟩ := by
  unfold OidcService.revokeSettled
  cases truthy token with
  | none => exact ⟨[], rfl⟩
  | some token =>
    refine ⟨[.own (.revoke token hint)], ?_⟩
    show (call (Shared.own (OidcCall.revoke token hint)) _).run (serveShared client) env () = _
    rw [run_call (show serveShared client (.own (.revoke token hint)) (env 0) () =
      (env 0 (.revoke token hint), ()) from rfl)]
    cases env 0 (.revoke token hint) with
    | ok a => rfl
    | error e => rfl

/-- The revocation needs the client, and nothing else. -/
theorem revokeTokens_outcome (accessToken refreshToken : Option String) (env : ℕ → OidcAnswers) :
    ((OidcService.revokeTokens accessToken refreshToken).run (serveShared client) env ()).outcome =
      client.map fun _ => () := by
  have hpromise : serveShared client .promise (env 0) () = (client, ()) := rfl
  have hclient : OidcService.client.run (serveShared client) env () =
      ⟨client, (), [.promise]⟩ := run_perform hpromise
  unfold OidcService.revokeTokens
  cases client with
  | error e =>
    rw [run_bind_error hclient]
    rfl
  | ok found =>
    obtain ⟨cs, hfirst⟩ := revokeSettled_run (.ok found) "refresh_token" refreshToken
      fun n => env (n + 1)
    obtain ⟨cs', hsecond⟩ := revokeSettled_run (.ok found) "access_token" accessToken
      fun n => env (n + cs.length + 1)
    rw [run_bind_ok hclient]
    show ((OidcService.revokeSettled "refresh_token" refreshToken >>= fun _ =>
      OidcService.revokeSettled "access_token" accessToken).run _
        (fun n => env (n + 1)) ()).outcome = _
    rw [run_bind_ok hfirst]
    show ((OidcService.revokeSettled "access_token" accessToken).run _
      (fun n => env (n + cs.length + 1)) ()).outcome = _
    rw [hsecond]
    rfl

/-- The encrypted value is missing, or it can be decrypted. -/
def Decrypts (crypto : AuthCrypto) (encrypted : Option String) : Prop :=
  ∀ value, truthy encrypted = some value → (crypto.decrypt value).isSome

instance (crypto : AuthCrypto) (encrypted : Option String) :
    Decidable (Decrypts crypto encrypted) :=
  decidable_of_iff (∀ value ∈ truthy encrypted, (crypto.decrypt value).isSome)
    ⟨fun h value hvalue => h value hvalue, fun h value hvalue => h value hvalue⟩

theorem decryptToken_returns {crypto : AuthCrypto} {encrypted : Option String}
    (h : Decrypts crypto encrypted) : ∃ token, decryptToken crypto encrypted = ret token := by
  unfold decryptToken
  cases hvalue : truthy encrypted with
  | none => exact ⟨none, rfl⟩
  | some value =>
    obtain ⟨token, htoken⟩ := Option.isSome_iff_exists.mp (h value hvalue)
    refine ⟨some token, ?_⟩
    simp only [htoken]
    rfl

theorem decryptToken_throws {crypto : AuthCrypto} {encrypted : Option String}
    (h : ¬ Decrypts crypto encrypted) : ∃ e, decryptToken crypto encrypted = throw e := by
  unfold Decrypts at h
  push Not at h
  obtain ⟨value, hvalue, hnone⟩ := h
  refine ⟨.internal "Encrypted session value is invalid", ?_⟩
  unfold decryptToken
  simp only [hvalue, Option.not_isSome_iff_eq_none.mp hnone]

/-- The tokens of a session, as far as `logout` decrypts them before it destroys the session. -/
def TokensDecrypt (crypto : AuthCrypto) (row : AuthSession) : Prop :=
  Decrypts crypto row.accessTokenEncrypted ∧ Decrypts crypto row.refreshTokenEncrypted

instance (crypto : AuthCrypto) (row : AuthSession) : Decidable (TokensDecrypt crypto row) :=
  inferInstanceAs (Decidable (_ ∧ _))

/-- What is revoked of a session whose tokens decrypt. -/
theorem revokeStored_returns {crypto : AuthCrypto} {row : AuthSession}
    (relations : SessionRelations) (h : TokensDecrypt crypto row) : ∃ accessToken refreshToken,
      revokeStored crypto (some (row, relations)) =
        perform (AuthCall.revokeTokens accessToken refreshToken) := by
  obtain ⟨accessToken, haccess⟩ := decryptToken_returns h.1
  obtain ⟨refreshToken, hrefresh⟩ := decryptToken_returns h.2
  refine ⟨accessToken, refreshToken, ?_⟩
  show (decryptToken crypto row.accessTokenEncrypted >>= fun accessToken =>
    decryptToken crypto row.refreshTokenEncrypted >>= fun refreshToken =>
      askAuth (.revokeTokens accessToken refreshToken)) = _
  rw [haccess, hrefresh]
  rfl

theorem revokeStored_throws {crypto : AuthCrypto} {row : AuthSession}
    (relations : SessionRelations) (h : ¬ TokensDecrypt crypto row) :
    ∃ e, revokeStored crypto (some (row, relations)) = throw e := by
  by_cases haccess : Decrypts crypto row.accessTokenEncrypted
  · obtain ⟨accessToken, haccess'⟩ := decryptToken_returns haccess
    obtain ⟨e, hrefresh⟩ := decryptToken_throws fun hrefresh => h ⟨haccess, hrefresh⟩
    refine ⟨e, ?_⟩
    show (decryptToken crypto row.accessTokenEncrypted >>= fun accessToken =>
      decryptToken crypto row.refreshTokenEncrypted >>= fun refreshToken =>
        askAuth (.revokeTokens accessToken refreshToken)) = _
    rw [haccess', hrefresh]
    rfl
  · obtain ⟨e, haccess'⟩ := decryptToken_throws haccess
    refine ⟨e, ?_⟩
    show (decryptToken crypto row.accessTokenEncrypted >>= fun accessToken =>
      decryptToken crypto row.refreshTokenEncrypted >>= fun refreshToken =>
        askAuth (.revokeTokens accessToken refreshToken)) = _
    rw [haccess']
    rfl

/-- **The revocation of a session** returns exactly if its tokens decrypt and the client is
there. -/
theorem revokeStored_outcome (crypto : AuthCrypto) (config : OidcConfig) (row : AuthSession)
    (relations : SessionRelations) :
    (∃ u, ((onBackend config (revokeStored crypto (some (row, relations)))).run
      (serveBackend client) env s).outcome = .ok u) ↔
      TokensDecrypt crypto row ∧ ∃ found, client = .ok found := by
  by_cases h : TokensDecrypt crypto row
  · obtain ⟨accessToken, refreshToken, hrevokes⟩ := revokeStored_returns relations h
    rw [hrevokes, onBackend_perform]
    have hrun : ((onOidc (OidcService.revokeTokens accessToken refreshToken)).run
        (serveBackend client) env s).outcome = _ := (run_embed (embeds_oidc client) _ env s).1
    rw [revokeTokens_outcome] at hrun
    show (∃ u, ((onOidc (OidcService.revokeTokens accessToken refreshToken)).run _ env s).outcome =
      .ok u) ↔ _
    rw [hrun]
    cases client with
    | ok found => simp [h, Except.map, Except.mapError]
    | error e => simp [Except.map, Except.mapError]
  · obtain ⟨e, hthrows⟩ := revokeStored_throws relations h
    rw [hthrows]
    simp [onBackend, h, run]

theorem revokeStored_besideSessions (crypto : AuthCrypto) (config : OidcConfig)
    (stored : Option (AuthSession × SessionRelations)) :
    (onBackend config (revokeStored crypto stored)).Calls BackendCall.besideSessions := by
  cases stored with
  | none => trivial
  | some found =>
    obtain ⟨row, relations⟩ := found
    by_cases h : TokensDecrypt crypto row
    · obtain ⟨accessToken, refreshToken, hrevokes⟩ := revokeStored_returns relations h
      rw [hrevokes, onBackend_perform]
      exact onOidc_besideSessions _
    · obtain ⟨e, hthrows⟩ := revokeStored_throws relations h
      rw [hthrows]
      trivial

/-! ### Logout -/

/-- What follows the destruction of the session leaves the sessions alone. -/
theorem afterDestroy_besideSessions (crypto : AuthCrypto) (config : OidcConfig)
    (principal : AuthPrincipal) (stored : Option (AuthSession × SessionRelations)) :
    (onBackend config (do
      askAuth (.audit principal.userId principal.workspaceId "auth.logout" "success")
      let idToken ← idTokenOf crypto stored
      askAuth (.logoutUrl idToken))).Calls BackendCall.besideSessions := by
  have haudit : (onBackend config (askAuth (.audit principal.userId principal.workspaceId
      "auth.logout" "success"))).Calls BackendCall.besideSessions := by
    rw [askAuth, onBackend_perform]
    exact calls_perform.mpr trivial
  have hurl : ∀ idToken, (onBackend config (askAuth (.logoutUrl idToken))).Calls
      BackendCall.besideSessions := by
    intro idToken
    rw [askAuth, onBackend_perform]
    exact onOidc_besideSessions _
  have hidToken : (onBackend config (idTokenOf crypto stored)).Calls
      BackendCall.besideSessions := by
    cases stored with
    | none => trivial
    | some found =>
      show (onBackend config (decryptToken crypto found.1.idTokenEncrypted)).Calls _
      -- reading the token calls nothing, whether it succeeds or throws
      by_cases h : Decrypts crypto found.1.idTokenEncrypted
      · obtain ⟨token, htoken⟩ := decryptToken_returns h
        rw [htoken]
        trivial
      · obtain ⟨e, hthrows⟩ := decryptToken_throws h
        rw [hthrows]
        trivial
  rw [onBackend_bind]
  apply haudit.bind
  intro _
  rw [onBackend_bind]
  exact hidToken.bind hurl

/-- `logout`, with the calls to the sessions made plain. -/
theorem onBackend_logout (crypto : AuthCrypto) (config : OidcConfig) (principal : AuthPrincipal) :
    onBackend config (logout crypto principal) =
      perform (BackendCall.session (.findUnique principal.sessionIdHash)) >>= fun stored =>
        onBackend config (revokeStored crypto stored) >>= fun _ =>
          perform (BackendCall.session (.deleteMany principal.sessionIdHash)) >>= fun _ =>
            onBackend config (do
              askAuth (.audit principal.userId principal.workspaceId "auth.logout" "success")
              let idToken ← idTokenOf crypto stored
              askAuth (.logoutUrl idToken)) := by
  unfold logout getStored destroy
  rw [onSessions_askSession, onSessions_askSession, onBackend_bind, onBackend_perform]
  show (perform (BackendCall.session _) >>= _) = _
  congr 1
  funext stored
  rw [onBackend_bind]
  congr 1
  funext _
  rw [onBackend_bind, onBackend_perform]
  rfl

/-- The row that a cookie with this hash is looked up in. -/
def SessionWorld.stored (s : SessionWorld) (idHash : String) : Option AuthSession :=
  s.sessions.find? (·.idHash = idHash)

/-- No session with this hash is left. -/
def SessionWorld.Ended (s : SessionWorld) (idHash : String) : Prop :=
  ∀ row ∈ s.sessions, row.idHash ≠ idHash

theorem ended_iff_stored {s : SessionWorld} {idHash : String} :
    s.Ended idHash ↔ s.stored idHash = none := by
  simp [SessionWorld.Ended, SessionWorld.stored, List.find?_eq_none]

/-- **Logout ends the session** exactly if none is stored, or its tokens decrypt and the provider
was discovered. -/
theorem logout_ends_session_iff (crypto : AuthCrypto) (config : OidcConfig)
    (principal : AuthPrincipal) (client : Except OidcError OidcClient) (env : ℕ → BackendChoice)
    (s : SessionWorld) :
    ((onBackend config (logout crypto principal)).run (serveBackend client) env s).state.Ended
        principal.sessionIdHash ↔
      ∀ row, s.stored principal.sessionIdHash = some row →
        TokensDecrypt crypto row ∧ ∃ found, client = .ok found := by
  let later : SessionWorld := { s with now := s.now + (env 0).session.elapsed }
  let stored := (s.stored principal.sessionIdHash).map fun row => (row, (env 0).session.relations)
  have hread : (perform (BackendCall.session (.findUnique principal.sessionIdHash))).run
      (serveBackend client) env s = ⟨.ok stored, later, [_]⟩ := run_perform rfl
  rw [onBackend_logout, run_bind_ok hread]
  show SessionWorld.Ended (Prog.run _ (_ >>= _) (fun n => env (n + 1)) later).state _ ↔ _
  -- what revokes the tokens leaves the rows alone, whether or not it raises
  rcases hrevoked : (onBackend config (revokeStored crypto stored)).run (serveBackend client)
    (fun n => env (n + 1)) later with ⟨outcome, revoked, cs⟩
  have hsame : revoked.sessions = s.sessions := by
    have hsessions := run_besideSessions client (fun n => env (n + 1)) later
      (revokeStored_besideSessions crypto config stored)
    rw [hrevoked] at hsessions
    exact hsessions
  cases outcome with
  -- the row is deleted, and nothing behind that brings it back
  | ok u =>
    have hdestroyed : (perform (BackendCall.session (.deleteMany principal.sessionIdHash))).run
        (serveBackend client) (fun n => env (n + cs.length + 1)) revoked =
        ⟨.ok (), _, [_]⟩ := run_perform rfl
    have hended : ((onBackend config (revokeStored crypto stored) >>= fun _ =>
        perform (BackendCall.session (.deleteMany principal.sessionIdHash)) >>= fun _ =>
          onBackend config (do
            askAuth (.audit principal.userId principal.workspaceId "auth.logout" "success")
            let idToken ← idTokenOf crypto stored
            askAuth (.logoutUrl idToken))).run (serveBackend client) (fun n => env (n + 1))
        later).state.Ended principal.sessionIdHash := by
      rw [run_bind_ok hrevoked]
      show SessionWorld.Ended (Prog.run _ _ (fun n => env (n + cs.length + 1)) revoked).state _
      rw [run_bind_ok hdestroyed]
      intro row hrow
      have hsessions := run_besideSessions client _ _
        (afterDestroy_besideSessions crypto config principal stored) ▸ hrow
      simpa using (List.mem_filter.mp hsessions).2
    refine iff_of_true hended fun row hrow => ?_
    have hfound : stored = some (row, (env 0).session.relations) := by
      show Option.map _ (s.stored _) = _
      rw [hrow]
      rfl
    rw [hfound] at hrevoked
    apply (revokeStored_outcome client _ later crypto config row (env 0).session.relations).mp
    exact ⟨u, congrArg Ended.outcome hrevoked⟩
  -- the row is not reached: it is still there, if it ever was
  | error e =>
    rw [run_bind_error hrevoked]
    show revoked.Ended _ ↔ _
    rw [ended_iff_stored, SessionWorld.stored, hsame]
    constructor
    · intro hnone row hrow
      cases hnone.symm.trans hrow
    · intro h
      by_contra hsome
      obtain ⟨row, hrow⟩ := Option.ne_none_iff_exists'.mp hsome
      have hfound : stored = some (row, (env 0).session.relations) := by
        show Option.map _ (s.stored _) = _
        rw [show s.stored principal.sessionIdHash = some row from hrow]
        rfl
      rw [hfound] at hrevoked
      obtain ⟨u, hu⟩ := (revokeStored_outcome client (fun n => env (n + 1)) later crypto config row
        (env 0).session.relations).mpr (h row hrow)
      rw [hrevoked] at hu
      cases hu

end Runs

instance (s : SessionWorld) (idHash : String) : Decidable (s.Ended idHash) :=
  inferInstanceAs (Decidable (∀ row ∈ s.sessions, _))

/-- The principal of the session of `oneSession`. -/
def logoutPrincipal : AuthPrincipal where
  userId := "user-a"
  subject := "subject-a"
  workspaceId := "workspace-a"
  organizationId := "organization-a"
  sessionIdHash := sampleCrypto.hash sampleCookie
  roles := ["Viewer"]
  scopes := ["deployments:read"]
  csrfToken := sampleCsrfToken

/-- While the provider cannot be reached, `logout` throws, and the session stays. -/
theorem logout_leaves_session :
    ¬ ((onBackend sampleOidcConfig
        (logout { sampleCrypto with decrypt := some } logoutPrincipal)).run
      (serveBackend ((OidcService.discoverClient sampleOidcConfig).eval unreachable))
      (fun _ => ⟨⟨0, "", ⟨"subject-a", "active"⟩, 0⟩, unreachable, ("", "")⟩)
      oneSession).state.Ended logoutPrincipal.sessionIdHash := by
  decide +kernel

end NexCause
