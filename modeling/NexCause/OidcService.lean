/-
NexCause/OidcService.lean

The client of the identity provider: `OidcService`.

Every operation first awaits the promise of the discovered client, which is
kept, and then makes its calls to the provider.  What `openid-client`, `jose`
and `fetch` do is up to the environment; any call may fail.
-/
import NexCause.AuthService
import NexCause.Json
import NexCause.SharedPromise

namespace NexCause

open Program

/-! ### Values -/

/-- The claims of a token. -/
abbrev TokenClaims : Type := List (String × Json ℚ)

structure OidcConfig where
  issuer : Option String
  clientId : Option String
  clientSecret : Option String
  audience : Option String
  callbackUrl : Option String
  postLogoutUrl : Option String
  scopes : Option (List String)
  deriving DecidableEq, Repr

inductive OidcError
  | unauthorized (message : String)
  | internal (message : String)
  | badGateway (message : String)
  /-- what a library has thrown -/
  | thrown (message : String)
  deriving DecidableEq, Repr

/-- What is read of `client.issuer.metadata`. -/
structure OidcClient where
  tokenEndpoint : Option String
  jwksUri : Option String
  deriving DecidableEq, Repr

/-- A parameter of a query. -/
inductive QueryValue
  | one (value : String)
  | many (values : List String)
  deriving DecidableEq, Repr

abbrev Query : Type := List (String × QueryValue)

/-- The tokens of a callback. -/
structure CallbackTokens extends TokenSet where
  scope : Option String
  deriving DecidableEq, Repr

/-- The body of the answer to a switch; the access token is missing where it is no string. -/
structure SwitchResponse where
  accessToken : Option String
  refreshToken : Option String
  idToken : Option String
  expiresIn : Option ℚ
  scope : Option String
  deriving DecidableEq, Repr

structure AuthorizationRequest where
  url : String
  state : String
  nonce : String
  codeVerifier : String
  deriving DecidableEq, Repr

/-! ### Claims -/

/-- `stringClaim` -/
def stringClaim : Option (Json ℚ) → String
  | some (.string s) => s
  | _ => ""

/-- `optionalString` -/
def optionalString (value : Option (Json ℚ)) : Option String := truthy (some (stringClaim value))

/-- `a ?? b ?? …` -/
def coalesce : List (Option (Json ℚ)) → Option (Json ℚ)
  | [] => none
  | none :: values => coalesce values
  | some .null :: values => coalesce values
  | some value :: _ => some value

/-- `value.split(…).filter(Boolean)`, at the characters with `p`. -/
def splitWords (p : Char → Bool) (value : String) : List String :=
  ((value.toList.splitOnP p).map String.ofList).filter (· ≠ "")

/-- `stringArray` -/
def stringArray : Option (Json ℚ) → List String
  | some (.array items) => items.filterMap fun
      | .string s => some s
      | _ => none
  | some (.string s) => splitWords (fun c => c = ',' || isWhiteSpace c) s
  | _ => []

/-- The first match of `/\/o\/([^/]+)/`, of which the group. -/
def issuerOrganization : List Char → Option (List Char)
  | [] => none
  | c :: rest =>
      let organization := (rest.drop 2).takeWhile (· ≠ '/')
      if c = '/' ∧ rest.take 2 = "o/".toList ∧ organization ≠ [] then some organization
      else issuerOrganization rest

/-- `identityFromClaims` -/
def identityFromClaims (claims : TokenClaims) (responseScope : Option String) : VerifiedIdentity :=
  let claim key := Json.lookup key claims
  let organizationId :=
    stringClaim (coalesce [claim "org_id", claim "organization_id", claim "organizationId"])
  let issuerOrganization :=
    (issuerOrganization (stringClaim (claim "iss")).toList).map String.ofList
  let resolvedOrganizationId :=
    ((truthy (some organizationId)).or (truthy issuerOrganization)).getD ""
  { subject := stringClaim (claim "sub")
    organizationId := resolvedOrganizationId
    organizationName :=
      (truthy (some (stringClaim (coalesce [claim "org_name", claim "organization_name"])))).getD
        resolvedOrganizationId
    email := optionalString (claim "email")
    displayName := (optionalString (claim "name")).or (optionalString (claim "preferred_username"))
    roles := stringArray (claim "roles")
    scopes :=
      (splitWords isWhiteSpace (responseScope.getD "" ++ " " ++ stringClaim (claim "scope"))).eraseDups }

/-! ### Calls -/

inductive OidcCall
  /-- `Issuer.discover` -/
  | discover (issuer : String)
  /-- `new issuer.Client` -/
  | newClient (clientId clientSecret callbackUrl : String)
  /-- `generators.state()`, `.nonce()` and `.codeVerifier()` -/
  | generate (name : String)
  | codeChallenge (codeVerifier : String)
  | authorizationUrl (scope redirectUri state nonce codeChallenge : String)
  | callback (redirectUri : String) (params : Query) (state nonce codeVerifier : String)
  /-- `tokenSet.claims()` -/
  | idClaims (idToken : Option String)
  /-- `fetch`, of which `ok`; the credentials as they are before `base64` -/
  | post (url credentials : String) (body : Entries)
  /-- `response.json()` -/
  | json
  | refresh (refreshToken : String)
  /-- of which `active`, and the claims -/
  | introspect (token : String)
  | jwtVerify (token jwksUri audience : String)
  | endSessionUrl (idToken : Option String) (postLogoutRedirectUri : String)
  | revoke (token hint : String)
  deriving DecidableEq, Repr

/-- What a call returns. -/
abbrev OidcCall.Result : OidcCall → Type
  | .discover _ => OidcClient
  | .newClient _ _ _ => Unit
  | .generate _ => String
  | .codeChallenge _ => String
  | .authorizationUrl _ _ _ _ _ => String
  | .callback _ _ _ _ _ => CallbackTokens
  | .idClaims _ => TokenClaims
  | .post _ _ _ => Bool
  | .json => SwitchResponse
  | .refresh _ => TokenSet
  | .introspect _ => Bool × TokenClaims
  | .jwtVerify _ _ _ => TokenClaims
  | .endSessionUrl _ _ => String
  | .revoke _ _ => Unit

/-- An operation: it awaits the client, and calls of its own. -/
abbrev OidcAction (α : Type) : Type :=
  Prog (Shared OidcCall) (Shared.Result OidcClient OidcCall.Result) OidcError α

namespace OidcService

/-- `await this.client()` -/
def client : OidcAction OidcClient := Prog.perform (Shared.promise : Shared OidcCall)

/-- One call of its own. -/
def askProvider (c : OidcCall) : OidcAction c.Result := Prog.perform (Shared.own c)

/-- `required` -/
def required (key : String) (value : Option String) : Except OidcError String :=
  match truthy value with
  | some value => .ok value
  | none => .error (.internal (key ++ " is not configured"))

/-! ### The service -/

section Service

variable (config : OidcConfig)

/-- `scopes().join(" ")` -/
def scopeText : String := " ".intercalate (config.scopes.getD ["openid"])

/-- What the promise of `client` is made of. -/
def discoverClient : Prog OidcCall OidcCall.Result OidcError OidcClient :=
  (do
    let issuer ← Prog.ofExcept (required "auth.issuer" config.issuer)
    let client ← Prog.perform (OidcCall.discover issuer)
    let clientId ← Prog.ofExcept (required "auth.clientId" config.clientId)
    let clientSecret ← Prog.ofExcept (required "auth.clientSecret" config.clientSecret)
    let callbackUrl ← Prog.ofExcept (required "auth.callbackUrl" config.callbackUrl)
    Prog.perform (OidcCall.newClient clientId clientSecret callbackUrl)
    return client).tryCatch fun
      | .internal message => Prog.throw (.internal message)
      | _ => Prog.throw (.badGateway "Asgardeo discovery failed")

/-- `authorizationRequest` -/
def authorizationRequest : OidcAction AuthorizationRequest := do
  let _ ← client
  let state ← askProvider (.generate "state")
  let nonce ← askProvider (.generate "nonce")
  let codeVerifier ← askProvider (.generate "codeVerifier")
  let codeChallenge ← askProvider (.codeChallenge codeVerifier)
  let callbackUrl ← Prog.ofExcept (required "auth.callbackUrl" config.callbackUrl)
  let url ← askProvider
    (.authorizationUrl (scopeText config) callbackUrl state nonce codeChallenge)
  return { url, state, nonce, codeVerifier }

/-- `auth.audience`, or else `auth.clientId` -/
def audienceOf : OidcAction String :=
  match truthy config.audience with
  | some audience => return audience
  | none => Prog.ofExcept (required "auth.clientId" config.clientId)

/-- `verifyAccessToken` -/
def verifyAccessToken (token : String) : OidcAction TokenClaims := do
  let client ← client
  match truthy client.jwksUri with
  | none => Prog.throw (.internal "OIDC JWKS endpoint is unavailable")
  | some jwksUri =>
      (do
        let audience ← audienceOf config
        askProvider (.jwtVerify token jwksUri audience)).tryCatch
          fun _ => Prog.throw (.unauthorized "The access token is invalid")

/-- `introspectAccessToken` -/
def introspectAccessToken (token : String) : OidcAction TokenClaims :=
  (do
    let _ ← client
    let (active, claims) ← askProvider (.introspect token)
    if active then return claims
    else Prog.throw (.unauthorized "The access token is inactive")).tryCatch fun
      | .unauthorized message => Prog.throw (.unauthorized message)
      | _ => Prog.throw (.unauthorized "The access token is invalid")

/-- The claims of the access token of a callback, if it is a JWT. -/
def accessClaimsOf : Option String → OidcAction TokenClaims
  | none => return []
  | some accessToken =>
      if '.' ∈ accessToken.toList then verifyAccessToken config accessToken else return []

/-- `identityFromTokenSet` -/
def identityFromTokenSet (tokenSet : CallbackTokens) : OidcAction VerifiedIdentity := do
  let idClaims ← askProvider (.idClaims tokenSet.idToken)
  let accessClaims ← accessClaimsOf config tokenSet.accessToken
  return identityFromClaims (idClaims ++ accessClaims) tokenSet.scope

/-- `completeCallback` -/
def completeCallback (params : Query) (state nonce codeVerifier : String) :
    OidcAction (VerifiedIdentity × CallbackTokens) := do
  let _ ← client
  let tokenSet ← (do
    let callbackUrl ← Prog.ofExcept (required "auth.callbackUrl" config.callbackUrl)
    askProvider (.callback callbackUrl params state nonce codeVerifier)).tryCatch
      fun _ => Prog.throw (.unauthorized "The OIDC callback could not be validated")
  let identity ← identityFromTokenSet config tokenSet
  return (identity, tokenSet)

/-- The identity of a switch: what its claims leave out is filled in, and then compared. -/
def switchedIdentity (claims : TokenClaims) (scope : Option String)
    (organizationId expectedSubject : String) :
    Except OidcError VerifiedIdentity :=
  let identity := identityFromClaims claims scope
  let identity :=
    { identity with
      subject := (truthy (some identity.subject)).getD expectedSubject
      organizationId := (truthy (some identity.organizationId)).getD organizationId
      organizationName := (truthy (some identity.organizationName)).getD organizationId }
  if identity.subject ≠ expectedSubject ∨ identity.organizationId ≠ organizationId then
    .error (.unauthorized "The switched token identity does not match the request")
  else .ok identity

/-- The claims of the token of a switch. -/
def switchedClaims (token : String) : OidcAction TokenClaims :=
  if '.' ∈ token.toList then verifyAccessToken config token else introspectAccessToken token

/-- `switchOrganization` -/
def switchOrganization (accessToken organizationId expectedSubject : String) :
    OidcAction (SwitchResponse × VerifiedIdentity) := do
  let client ← client
  match truthy client.tokenEndpoint with
  | none => Prog.throw (.internal "OIDC token endpoint is unavailable")
  | some tokenEndpoint => do
      let clientId ← Prog.ofExcept (required "auth.clientId" config.clientId)
      let clientSecret ← Prog.ofExcept (required "auth.clientSecret" config.clientSecret)
      let ok ← askProvider (.post tokenEndpoint (clientId ++ ":" ++ clientSecret)
        [("grant_type", "organization_switch"), ("token", accessToken),
         ("switching_organization", organizationId), ("scope", scopeText config)])
      if !ok then Prog.throw (.unauthorized "Organization switch was rejected")
      else do
        let payload : SwitchResponse ← askProvider .json
        match payload.accessToken with
        | none => Prog.throw (.thrown "TypeError")
        | some token => do
            let claims ← switchedClaims config token
            let identity ← ofExcept
              (switchedIdentity claims payload.scope organizationId expectedSubject)
            return (payload, identity)

/-- `refresh` -/
def refresh (refreshToken : String) : OidcAction TokenSet :=
  (do
    let _ ← client
    askProvider (.refresh refreshToken)).tryCatch
      fun _ => Prog.throw (.unauthorized "The Asgardeo session could not be refreshed")

/-- `logoutUrl` -/
def logoutUrl (idToken : Option String) : OidcAction String := do
  let _ ← client
  let postLogoutUrl ← Prog.ofExcept (required "auth.postLogoutUrl" config.postLogoutUrl)
  askProvider (.endSessionUrl idToken postLogoutUrl)

/-- One of the requests of `Promise.allSettled`; its failure is absorbed. -/
def revokeSettled (hint : String) (token : Option String) : OidcAction Unit :=
  match truthy token with
  | none => return ()
  | some token => (askProvider (.revoke token hint)).tryCatch fun _ => return ()

/-- `revokeTokens` -/
def revokeTokens (accessToken refreshToken : Option String) : OidcAction Unit := do
  let _ ← client
  revokeSettled "refresh_token" refreshToken
  revokeSettled "access_token" accessToken

end Service

end OidcService

end NexCause
