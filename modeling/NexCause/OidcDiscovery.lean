/-
NexCause/OidcDiscovery.lean

The operations of `OidcService` in any overlap, and the one discovery behind
them.

`client` keeps the promise of the first discovery, whatever becomes of it.  A
success is shared by all operations; a failure is, too, and nothing but a
restart of the service ends it.

Main result: once the provider can be reached, the operations that begin from
then on get a client exactly if no discovery had failed before
(`discovery_recovers_iff`).
-/
import NexCause.OidcService

namespace NexCause

open Program Transition

/-- The operations, with their arguments. -/
inductive OidcRequest
  | authorizationRequest
  | completeCallback (params : Query) (state nonce codeVerifier : String)
  | switchOrganization (accessToken organizationId expectedSubject : String)
  | refresh (refreshToken : String)
  | logoutUrl (idToken : Option String)
  | revokeTokens (accessToken refreshToken : Option String)
  deriving DecidableEq, Repr

/-- What they return. -/
inductive OidcResponse
  | authorization (request : AuthorizationRequest)
  | callback (identity : VerifiedIdentity) (tokens : CallbackTokens)
  | switched (payload : SwitchResponse) (identity : VerifiedIdentity)
  | refreshed (tokens : TokenSet)
  | url (url : String)
  | revoked
  deriving DecidableEq, Repr

/-- The program of an operation. -/
def OidcRequest.program (config : OidcConfig) : OidcRequest → OidcAction OidcResponse
  | .authorizationRequest => do
      return .authorization (← OidcService.authorizationRequest config)
  | .completeCallback params state nonce codeVerifier => do
      let (identity, tokens) ←
        OidcService.completeCallback config params state nonce codeVerifier
      return .callback identity tokens
  | .switchOrganization accessToken organizationId expectedSubject => do
      let (payload, identity) ←
        OidcService.switchOrganization config accessToken organizationId expectedSubject
      return .switched payload identity
  | .refresh refreshToken => do
      return .refreshed (← OidcService.refresh refreshToken)
  | .logoutUrl idToken => do
      return .url (← OidcService.logoutUrl config idToken)
  | .revokeTokens accessToken refreshToken => do
      OidcService.revokeTokens accessToken refreshToken
      return .revoked

/-- The answers of the provider and of the libraries. -/
abbrev OidcAnswers : Type := (c : OidcCall) → Except OidcError c.Result

/-- The service with its operations in progress. -/
abbrev OidcRun : Type :=
  SharedRun OidcRequest OidcCall OidcCall.Result OidcError OidcClient OidcResponse

abbrev OidcTurn : Type := Turn OidcRequest OidcAnswers

/-- One turn of the service. -/
def OidcRun.step (config : OidcConfig) : OidcRun → OidcTurn → Option OidcRun :=
  SharedRun.step (OidcRequest.program config) (OidcService.discoverClient config) fun c x => x c

/-- A program that begins with the client, and does not catch its failure. -/
theorem needs_client {β : Type} (f : OidcClient → OidcAction β) :
    SharedRun.Needs (OidcService.client >>= f) :=
  ⟨_, rfl, fun _ => trivial⟩

/-- No operation can do without the client. -/
theorem OidcRequest.needs (config : OidcConfig) (q : OidcRequest) :
    SharedRun.Needs (q.program config) := by
  cases q with
  | authorizationRequest => exact SharedRun.Needs.bind (needs_client _) _
  | completeCallback params state nonce codeVerifier => exact SharedRun.Needs.bind (needs_client _) _
  | switchOrganization accessToken organizationId expectedSubject =>
    exact SharedRun.Needs.bind (needs_client _) _
  | refresh refreshToken =>
    have hcaught : SharedRun.Needs (OidcService.refresh refreshToken) := by
      apply SharedRun.Needs.tryCatch (needs_client _)
      exact fun _ => trivial
    exact hcaught.bind _
  | logoutUrl idToken => exact SharedRun.Needs.bind (needs_client _) _
  | revokeTokens accessToken refreshToken => exact SharedRun.Needs.bind (needs_client _) _

/-- **A failed discovery is kept.**  In any overlap of operations, once no discovery fails any more,
the operations that begin from then on get a client exactly if none had failed before, or none of
them gets that far.  All that get a client share one, and one that gets an error raises. -/
theorem discovery_recovers_iff {config : OidcConfig} {ls ls' : List OidcTurn} {s t : OidcRun}
    (hbefore : exec (OidcRun.step config) SharedRun.initial ls = some s)
    (hafter : exec (OidcRun.step config) s ls' = some t)
    (hreachable : ∀ (k : ℕ) (e : OidcError),
      t.started[k]? = some (.throw e) → s.started[k]? = some (.throw e)) :
    ((∀ i c, s.callers.length ≤ i → t.callers[i]? = some c →
        ∀ r ∈ c.answers, ∃ client, r = .ok client) ↔
      ¬ s.Failed ∨
        ∀ i c, s.callers.length ≤ i → t.callers[i]? = some c → c.answers = []) ∧
    (∀ c ∈ t.callers, ∀ c' ∈ t.callers, ∀ client client', .ok client ∈ c.answers →
      .ok client' ∈ c'.answers → client = client') ∧
    ∀ c ∈ t.callers, ∀ e, .error e ∈ c.answers → c.prog.Raised := by
  have hrun : exec (OidcRun.step config) SharedRun.initial (ls ++ ls') = some t := by
    rw [exec_append, hbefore]
    exact hafter
  refine ⟨SharedRun.recovers_iff hbefore hafter hreachable, ?_, ?_⟩
  · intro c hc c' hc' client client' hclient hclient'
    have hone := SharedRun.one_run SharedRun.one_initial hrun
    exact Except.ok.inj (hone.answers_agree hc hc' hclient hclient')
  · intro c hc e he
    exact SharedRun.raised_of_error (OidcRequest.needs config) hrun hc he

/-! ### Two runs -/

def sampleOidcConfig : OidcConfig where
  issuer := some "https://id.nexcause.example/oauth2/token"
  clientId := some "client-a"
  clientSecret := some "secret-a"
  audience := none
  callbackUrl := some "http://localhost:3000/auth/callback"
  postLogoutUrl := some "http://localhost:3000/auth/me"
  scopes := none

def sampleClient : OidcClient where
  tokenEndpoint := some "https://id.nexcause.example/oauth2/token"
  jwksUri := some "https://id.nexcause.example/oauth2/jwks"

/-- A provider that cannot be reached. -/
def unreachable : OidcAnswers := fun _ => .error (.thrown "connect ECONNREFUSED")

/-- A provider that answers the discovery. -/
def reachable : OidcAnswers
  | .discover _ => .ok sampleClient
  | .newClient _ _ _ => .ok ()
  | _ => .error (.thrown "connect ECONNREFUSED")

/-- Two logouts overlap in one discovery, and share its client. -/
theorem overlapping_share : ∃ t, exec (OidcRun.step sampleOidcConfig) SharedRun.initial
      [.begins (.logoutUrl none), .goes 0 reachable, .begins (.logoutUrl none), .goes 1 reachable,
       .works 0 reachable, .works 0 reachable, .resumes 1, .resumes 0] = some t ∧
    ∀ i c, 0 ≤ i → t.callers[i]? = some c → ∀ r ∈ c.answers, ∃ client, r = .ok client := by
  obtain ⟨t, hrun⟩ := Option.isSome_iff_exists.mp
    (show (exec (OidcRun.step sampleOidcConfig) SharedRun.initial
      [.begins (.logoutUrl none), .goes 0 reachable, .begins (.logoutUrl none), .goes 1 reachable,
       .works 0 reachable, .works 0 reachable, .resumes 1, .resumes 0]).isSome = true by rfl)
  have hstart : exec (OidcRun.step sampleOidcConfig) SharedRun.initial [] =
      some SharedRun.initial := rfl
  refine ⟨t, hrun, (discovery_recovers_iff hstart hrun ?_).1.mpr (.inl ?_)⟩
  · intro k e hk
    obtain rfl := Option.some.inj hrun.symm
    cases k with
    | zero => cases hk
    | succ k => cases hk
  · rintro ⟨p, hp, -⟩
    cases hp

/-- The provider is back, and the next login fails as the first one did. -/
theorem failure_is_kept : ∃ s t, exec (OidcRun.step sampleOidcConfig) SharedRun.initial
      [.begins .authorizationRequest, .goes 0 unreachable, .works 0 unreachable, .resumes 0] = some s ∧
    exec (OidcRun.step sampleOidcConfig) s
      [.begins .authorizationRequest, .goes 1 reachable, .resumes 1] = some t ∧
    (∀ (k : ℕ) (e : OidcError), t.started[k]? = some (.throw e) → s.started[k]? = some (.throw e)) ∧
    ∃ c, t.callers[1]? = some c ∧ c.answers = [.error (.badGateway "Asgardeo discovery failed")] ∧
      c.prog.Raised :=
  ⟨_, _, rfl, rfl, fun _ _ h => h, _, rfl, rfl, trivial⟩

end NexCause
