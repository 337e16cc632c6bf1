/-
NexCause/SwitchedIdentity.lean

What the token of an organization switch says of its holder.

`OidcService.switchOrganization` fills in the requested subject and organization
where the claims of the new token leave them out, and compares afterwards.  So
claims that contradict the request are refused, and claims that say nothing are
taken for the requested ones.

Main result: what is returned is attested by the claims exactly if they name
both, or contradict the request (`switched_attested_iff`).
-/
import NexCause.OidcService
import NexCause.Traces

namespace NexCause

open Program

/-! ### What claims assert -/

/-- The claims name the organization: in one of three claims, or in their issuer. -/
def NamesOrganization (claims : TokenClaims) (organizationId : String) : Prop :=
  organizationId ≠ "" ∧
    (Json.lookup "org_id" claims = some (.string organizationId) ∨
      Json.lookup "organization_id" claims = some (.string organizationId) ∨
      Json.lookup "organizationId" claims = some (.string organizationId) ∨
      (issuerOrganization (stringClaim (Json.lookup "iss" claims)).toList).map String.ofList =
        some organizationId)

/-- The claims assert this subject and this organization. -/
def Attested (claims : TokenClaims) (subject organizationId : String) : Prop :=
  subject ≠ "" ∧ Json.lookup "sub" claims = some (.string subject) ∧
    NamesOrganization claims organizationId

/-- The first of the organization claims that is there and not `null`, or else what the issuer names;
empty where neither is a string with something in it. -/
def claimedOrganization (claims : TokenClaims) : String :=
  let organizationId := stringClaim (coalesce [Json.lookup "org_id" claims,
    Json.lookup "organization_id" claims, Json.lookup "organizationId" claims])
  if organizationId ≠ "" then organizationId
  else ((issuerOrganization (stringClaim (Json.lookup "iss" claims)).toList).map String.ofList).getD ""

theorem stringClaim_eq {value : Option (Json ℚ)} {s : String} (h : stringClaim value = s)
    (hs : s ≠ "") : value = some (.string s) := by
  unfold stringClaim at h
  split at h
  · rw [h]
  · exact absurd h.symm hs

/-- What `??` picks is one of its operands. -/
theorem mem_of_coalesce {values : List (Option (Json ℚ))} {value : Json ℚ}
    (h : coalesce values = some value) : some value ∈ values := by
  induction values with
  | nil => cases h
  | cons first rest ih =>
    cases first with
    | none => exact List.mem_cons_of_mem _ (ih h)
    | some v =>
      cases v with
      | null => exact List.mem_cons_of_mem _ (ih h)
      | _ =>
        obtain rfl := Option.some.inj h
        exact List.mem_cons_self

theorem namesOrganization_claimed {claims : TokenClaims} (h : claimedOrganization claims ≠ "") :
    NamesOrganization claims (claimedOrganization claims) := by
  refine ⟨h, ?_⟩
  unfold claimedOrganization at h ⊢
  dsimp only at h ⊢
  split at h
  · rename_i hne
    rw [if_pos hne]
    have hmem := mem_of_coalesce (stringClaim_eq rfl hne)
    simp only [List.mem_cons, List.not_mem_nil, or_false] at hmem
    rcases hmem with hfirst | hsecond | hthird
    · exact .inl hfirst.symm
    · exact .inr (.inl hsecond.symm)
    · exact .inr (.inr (.inl hthird.symm))
  · rename_i hempty
    rw [if_neg hempty]
    cases hissuer : (issuerOrganization (stringClaim (Json.lookup "iss" claims)).toList).map
        String.ofList with
    | none =>
      rw [hissuer] at h
      exact absurd rfl h
    | some organization => exact .inr (.inr (.inr rfl))

/-- The organization of an identity is the one that its claims name. -/
theorem identityFromClaims_organizationId (claims : TokenClaims) (scope : Option String) :
    (identityFromClaims claims scope).organizationId = claimedOrganization claims := by
  unfold identityFromClaims claimedOrganization
  dsimp only
  generalize stringClaim (coalesce [Json.lookup "org_id" claims,
    Json.lookup "organization_id" claims, Json.lookup "organizationId" claims]) = organizationId
  generalize (issuerOrganization (stringClaim (Json.lookup "iss" claims)).toList).map String.ofList =
    issuer
  by_cases hempty : organizationId = ""
  · subst hempty
    cases issuer with
    | none => rfl
    | some organization =>
      by_cases horganization : organization = ""
      · subst horganization
        rfl
      · rw [truthy_empty, truthy_of_ne horganization]
        rfl
  · rw [truthy_of_ne hempty, if_pos hempty]
    rfl

theorem identityFromClaims_subject (claims : TokenClaims) (scope : Option String) :
    (identityFromClaims claims scope).subject = stringClaim (Json.lookup "sub" claims) := rfl

/-! ### The comparison -/

/-- What is left out is filled in. -/
theorem filled_eq {value given : String} :
    (truthy (some value)).getD given = given ↔ value = "" ∨ value = given := by
  by_cases hempty : value = ""
  · subst hempty
    simp
  · rw [truthy_of_ne hempty]
    simp [hempty]

/-- **The comparison** refuses only what contradicts the request. -/
theorem switchedIdentity_ok_iff (claims : TokenClaims) (scope : Option String)
    (organizationId expectedSubject : String) :
    (∃ identity,
      OidcService.switchedIdentity claims scope organizationId expectedSubject = .ok identity) ↔
      (stringClaim (Json.lookup "sub" claims) = "" ∨
        stringClaim (Json.lookup "sub" claims) = expectedSubject) ∧
      (claimedOrganization claims = "" ∨ claimedOrganization claims = organizationId) := by
  rw [← identityFromClaims_organizationId claims scope, ← identityFromClaims_subject claims scope,
    ← filled_eq, ← filled_eq]
  unfold OidcService.switchedIdentity
  dsimp only
  split
  · rename_i hdiffers
    simp only [reduceCtorEq, exists_false, false_iff, not_and_or]
    exact hdiffers
  · rename_i hsame
    obtain ⟨hsubject, horganization⟩ := not_or.mp hsame
    simp only [Except.ok.injEq, exists_eq', true_iff]
    exact ⟨not_not.mp hsubject, not_not.mp horganization⟩

/-! ### Runs -/

/-- A call with its answer, of an operation. -/
abbrev OidcExchange : Type :=
  Exchange (Shared OidcCall) (Shared.Result OidcClient OidcCall.Result) OidcError

/-- The claims were verified, or the provider has returned them for an active token. -/
def Obtained (claims : TokenClaims) (own : List OidcExchange) : Prop :=
  (∃ token jwksUri audience, ⟨.own (.jwtVerify token jwksUri audience), .ok claims⟩ ∈ own) ∨
    ∃ token, ⟨.own (.introspect token), .ok (true, claims)⟩ ∈ own

/-- The claims that an operation has obtained, after one more answer. -/
def gathered (g : List TokenClaims) : OidcExchange → List TokenClaims
  | ⟨.own (.jwtVerify _ _ _), .ok claims⟩ => g ++ [claims]
  | ⟨.own (.introspect _), .ok (true, claims)⟩ => g ++ [claims]
  | _ => g

/-- What an operation obtains, whatever it is answered. -/
def gathering : Prog.Contract (Shared OidcCall) (Shared.Result OidcClient OidcCall.Result) OidcError
    (List TokenClaims) where
  pre _ _ := True
  post c g r g' := g' = gathered g ⟨c, r⟩

theorem mem_gathered {claims : TokenClaims} {g : List TokenClaims} (h : claims ∈ g) (e : OidcExchange) :
    claims ∈ gathered g e := by
  unfold gathered
  split
  · exact List.mem_append_left _ h
  · exact List.mem_append_left _ h
  · exact h

/-- What was obtained has been gathered. -/
theorem Obtained.mem_gathered {claims : TokenClaims} {own : List OidcExchange}
    (h : Obtained claims own) (g : List TokenClaims) : claims ∈ own.foldl gathered g := by
  have hstays : ∀ (own : List OidcExchange) (g : List TokenClaims), claims ∈ g →
      claims ∈ own.foldl gathered g := by
    intro own
    induction own with
    | nil => exact fun g hg => hg
    | cons e own ih => exact fun g hg => ih _ (NexCause.mem_gathered hg e)
  have hnew : ∀ e : OidcExchange, claims ∈ gathered [] e → e ∈ own →
      claims ∈ own.foldl gathered g := by
    intro e he hmem
    obtain ⟨before, after, rfl⟩ := List.append_of_mem hmem
    rw [List.foldl_append, List.foldl_cons]
    apply hstays
    revert he
    unfold gathered
    split
    · exact fun he => List.mem_append_right _ he
    · exact fun he => List.mem_append_right _ he
    · exact fun he => nomatch he
  rcases h with ⟨token, jwksUri, audience, hmem⟩ | ⟨token, hmem⟩
  · exact hnew _ List.mem_cons_self hmem
  · exact hnew _ List.mem_cons_self hmem

section Contracts

variable {config : OidcConfig} {g : List TokenClaims}

/-- What gathers nothing. -/
def Idle {α : Type} (p : OidcAction α) : Prop := ∀ g, p.Meets gathering (fun _ g' => g' = g) g

theorem idle_ofExcept {α : Type} (r : Except OidcError α) : Idle (Prog.ofExcept r) := by
  intro g
  exact Prog.meets_ofExcept.mpr rfl

theorem idle_perform {c : Shared OidcCall} (h : ∀ g r, gathered g ⟨c, r⟩ = g) :
    Idle (Prog.perform c) := by
  intro g
  apply Prog.meets_perform.mpr
  refine ⟨trivial, ?_⟩
  rintro r g' rfl
  exact h g r

/-- After what gathers nothing. -/
theorem Idle.onto {α β : Type} {p : OidcAction α} {f : α → OidcAction β}
    {post : Except OidcError β → List TokenClaims → Prop} (hp : Idle p)
    (hf : ∀ a, (f a).Meets gathering post g) (herror : ∀ e, post (.error e) g) :
    (p >>= f).Meets gathering post g := by
  apply (hp g).bind
  · rintro a _ rfl
    exact hf a
  · rintro e _ rfl
    exact herror e

/-- What has returned claims has gathered these. -/
def Returned (g : List TokenClaims) (r : Except OidcError TokenClaims) (g' : List TokenClaims) : Prop :=
  ∀ claims, r = .ok claims → g' = g ++ [claims]

theorem returned_error (g g' : List TokenClaims) (e : OidcError) : Returned g (.error e) g' := by
  intro claims h
  cases h

theorem idle_audienceOf (config : OidcConfig) : Idle (OidcService.audienceOf config) := by
  unfold OidcService.audienceOf
  cases truthy config.audience with
  | some audience => exact idle_ofExcept (.ok audience)
  | none => exact idle_ofExcept _

theorem verifyAccessToken_meets (token : String) :
    (OidcService.verifyAccessToken config token).Meets gathering (Returned g) g := by
  apply (idle_perform fun _ _ => rfl).onto _ (returned_error g g)
  intro client
  cases truthy client.jwksUri with
  | none => exact returned_error g g _
  | some jwksUri =>
    apply Prog.Meets.tryCatch (P := Returned g) _ (fun _ _ h => h)
    · exact fun e g' _ => returned_error g g' _
    · apply (idle_audienceOf config).onto _ (returned_error g g)
      intro audience
      apply Prog.meets_perform.mpr
      refine ⟨trivial, ?_⟩
      rintro r g' rfl claims rfl
      rfl

theorem introspectAccessToken_meets (token : String) :
    (OidcService.introspectAccessToken token).Meets gathering (Returned g) g := by
  apply Prog.Meets.tryCatch (P := Returned g) _ (fun _ _ h => h)
  · intro e g' _
    cases e with
    | unauthorized message => exact returned_error g g' _
    | _ => exact returned_error g g' _
  · apply (idle_perform fun _ _ => rfl).onto _ (returned_error g g)
    intro client
    have hanswer : (OidcService.askProvider (.introspect token)).Meets gathering
        (fun r g' => ∀ claims, r = .ok (true, claims) → g' = g ++ [claims]) g := by
      apply Prog.meets_perform.mpr
      refine ⟨trivial, ?_⟩
      rintro r g' rfl claims rfl
      rfl
    apply hanswer.bind
    · rintro ⟨active, claims⟩ g' hclaims
      cases active with
      | false => exact returned_error g g' _
      | true =>
        rintro found hfound
        obtain rfl := Except.ok.inj hfound
        exact hclaims claims rfl
    · exact fun e g' _ => returned_error g g' e

theorem switchedClaims_meets (token : String) :
    (OidcService.switchedClaims config token).Meets gathering (Returned g) g := by
  unfold OidcService.switchedClaims
  split
  · exact verifyAccessToken_meets token
  · exact introspectAccessToken_meets token

/-- **What a switch returns** is the identity of the claims that it has obtained. -/
theorem switchOrganization_meets (accessToken organizationId expectedSubject : String) :
    (OidcService.switchOrganization config accessToken organizationId expectedSubject).Meets gathering
      (fun r g => ∀ payload identity, r = .ok (payload, identity) → ∃ claims, g = [claims] ∧
        OidcService.switchedIdentity claims payload.scope organizationId expectedSubject =
          .ok identity) [] := by
  have hthrows : ∀ (e : OidcError) (payload : SwitchResponse) (identity : VerifiedIdentity),
      (Except.error e : Except OidcError (SwitchResponse × VerifiedIdentity)) =
        .ok (payload, identity) → ∃ claims, ([] : List TokenClaims) = [claims] ∧
        OidcService.switchedIdentity claims payload.scope organizationId expectedSubject =
          .ok identity := by
    intro e payload identity h
    cases h
  apply (idle_perform fun _ _ => rfl).onto _ hthrows
  intro client
  -- whatever is missing on the way raises, and gathers no claims
  cases truthy client.tokenEndpoint with
  | none => exact hthrows _
  | some tokenEndpoint =>
    apply (idle_ofExcept _).onto _ hthrows
    intro clientId
    apply (idle_ofExcept _).onto _ hthrows
    intro clientSecret
    apply (idle_perform fun _ _ => rfl).onto _ hthrows
    intro ok
    cases ok with
    | false => exact hthrows _
    | true =>
      apply (idle_perform fun _ _ => rfl).onto _ hthrows
      intro payload
      cases payload.accessToken with
      | none => exact hthrows _
      | some token =>
        -- the claims of the token that came back are compared
        apply (switchedClaims_meets token).bind
        · intro claims g hg
          obtain rfl := hg claims rfl
          show Prog.Meets gathering (Prog.ofExcept (OidcService.switchedIdentity claims payload.scope
            organizationId expectedSubject) >>= fun identity => Prog.ret (payload, identity)) _ _
          cases hidentity : OidcService.switchedIdentity claims payload.scope organizationId
              expectedSubject with
          | error e =>
            intro payload' identity' heq
            cases heq
          | ok identity =>
            intro payload' identity' heq
            obtain ⟨rfl, rfl⟩ := Prod.mk.inj (Except.ok.inj heq)
            exact ⟨claims, rfl, hidentity⟩
        · rintro e g - payload' identity' heq
          cases heq

end Contracts

/-- An operation that has returned an identity has taken it from the claims that it has obtained. -/
theorem switched_reaches {config : OidcConfig} {accessToken organizationId expectedSubject : String}
    {own : List OidcExchange} {payload : SwitchResponse} {identity : VerifiedIdentity}
    (h : (OidcService.switchOrganization config accessToken organizationId expectedSubject).Reaches own
      (.ret (payload, identity))) {claims : TokenClaims} (hclaims : Obtained claims own) :
    OidcService.switchedIdentity claims payload.scope organizationId expectedSubject =
      .ok identity := by
  have hend := (switchOrganization_meets accessToken organizationId expectedSubject).reaches
    (f := gathered) (A := fun _ => True) (fun _ _ _ _ => rfl) h fun _ _ => trivial
  obtain ⟨claims', hown, hidentity⟩ := hend payload identity rfl
  have hmem := hclaims.mem_gathered []
  rw [hown, List.mem_singleton] at hmem
  exact hmem ▸ hidentity

/-- A service and a token with which a switch gets as far as its claims. -/
def switchConfig : OidcConfig where
  issuer := some "https://id.nexcause.example/oauth2/token"
  clientId := some "client-a"
  clientSecret := some "secret-a"
  audience := none
  callbackUrl := some "http://localhost:3000/auth/callback"
  postLogoutUrl := some "http://localhost:3000/auth/me"
  scopes := none

def switchClient : OidcClient where
  tokenEndpoint := some "https://id.nexcause.example/oauth2/token"
  jwksUri := some "https://id.nexcause.example/oauth2/jwks"

def switchToken : SwitchResponse where
  accessToken := some "e30.e30.c2ln"
  refreshToken := none
  idToken := none
  expiresIn := none
  scope := none

/-- Claims that pass the comparison are returned with. -/
theorem switch_returns {claims : TokenClaims} {organizationId expectedSubject : String}
    {identity : VerifiedIdentity}
    (h : OidcService.switchedIdentity claims none organizationId expectedSubject = .ok identity) :
    ∃ own, (OidcService.switchOrganization switchConfig "token-a" organizationId
      expectedSubject).Reaches own (.ret (switchToken, identity)) ∧ Obtained claims own := by
  have hend : (Prog.ofExcept (OidcService.switchedIdentity claims none organizationId
      expectedSubject) >>= fun identity => Prog.ret (switchToken, identity) :
      OidcAction (SwitchResponse × VerifiedIdentity)).Reaches [] (.ret (switchToken, identity)) := by
    rw [h]
    exact .start _
  refine ⟨[⟨.promise, .ok switchClient⟩,
    ⟨.own (.post "https://id.nexcause.example/oauth2/token" "client-a:secret-a"
      [("grant_type", "organization_switch"), ("token", "token-a"),
       ("switching_organization", organizationId), ("scope", OidcService.scopeText switchConfig)]),
      .ok true⟩,
    ⟨.own .json, .ok switchToken⟩, ⟨.promise, .ok switchClient⟩,
    ⟨.own (.jwtVerify "e30.e30.c2ln" "https://id.nexcause.example/oauth2/jwks" "client-a"),
      .ok claims⟩], ?_, ?_⟩
  · exact .next (.next (.next (.next (.next hend))))
  · left
    exact ⟨"e30.e30.c2ln", "https://id.nexcause.example/oauth2/jwks", "client-a", by simp⟩

/-- The claims name a subject and an organization, or contradict the request. -/
def Telling (claims : TokenClaims) (subject organizationId : String) : Prop :=
  (stringClaim (Json.lookup "sub" claims) ≠ "" ∧
    (claimedOrganization claims ≠ "" ∨ NamesOrganization claims organizationId)) ∨
  (stringClaim (Json.lookup "sub" claims) ≠ "" ∧ stringClaim (Json.lookup "sub" claims) ≠ subject) ∨
  (claimedOrganization claims ≠ "" ∧ claimedOrganization claims ≠ organizationId)

/-- **A switched identity is attested by its token** exactly if the claims name a subject and an
organization, or contradict the request. -/
theorem switched_attested_iff (claims : TokenClaims) (subject organizationId : String) :
    (∀ config accessToken own payload identity,
      (OidcService.switchOrganization config accessToken organizationId subject).Reaches own
        (.ret (payload, identity)) →
      Obtained claims own → Attested claims subject organizationId) ↔
    Telling claims subject organizationId := by
  constructor
  · intro h
    by_contra hnot
    unfold Telling at hnot
    obtain ⟨hsilent, hnot⟩ := not_or.mp hnot
    obtain ⟨hsubject, horganization⟩ := not_or.mp hnot
    have haccepted : (stringClaim (Json.lookup "sub" claims) = "" ∨
        stringClaim (Json.lookup "sub" claims) = subject) ∧
        (claimedOrganization claims = "" ∨ claimedOrganization claims = organizationId) := by
      constructor
      · by_contra hdiffers
        exact hsubject (not_or.mp hdiffers)
      · by_contra hdiffers
        exact horganization (not_or.mp hdiffers)
    -- a token that says too little is accepted
    obtain ⟨identity, hidentity⟩ := (switchedIdentity_ok_iff claims none _ _).mpr haccepted
    obtain ⟨own, hreaches, hobtained⟩ := switch_returns hidentity
    obtain ⟨hne, hsub, hnames⟩ := h _ _ own _ _ hreaches hobtained
    refine hsilent ⟨?_, .inr hnames⟩
    rw [hsub]
    exact hne
  · intro htelling config accessToken own payload identity hreaches hobtained
    have hidentity := switched_reaches hreaches hobtained
    obtain ⟨hsubject, horganization⟩ := (switchedIdentity_ok_iff ..).mp ⟨identity, hidentity⟩
    -- a token that tells the identity is compared, and one that differs is refused
    rcases htelling with ⟨hne, horg⟩ | ⟨hne, hdiffers⟩ | ⟨hne, hdiffers⟩
    · have hsame := hsubject.resolve_left hne
      refine ⟨hsame ▸ hne, stringClaim_eq hsame (hsame ▸ hne), ?_⟩
      rcases horg with hclaimed | hnames
      · rw [← horganization.resolve_left hclaimed]
        exact namesOrganization_claimed hclaimed
      · exact hnames
    · exact absurd (hsubject.resolve_left hne) hdiffers
    · exact absurd (horganization.resolve_left hne) hdiffers

/-- A token that says nothing is taken for one of the requested user and organization. -/
theorem silent_token_accepted : ∃ own identity,
    (OidcService.switchOrganization switchConfig "token-a" "organization-b" "subject-a").Reaches own
      (.ret (switchToken, identity)) ∧ Obtained [] own ∧ ¬ Attested [] "subject-a" "organization-b" := by
  have hfilled : OidcService.switchedIdentity [] none "organization-b" "subject-a" =
      .ok ⟨"subject-a", "organization-b", "organization-b", none, none, [], []⟩ := rfl
  obtain ⟨own, hreaches, hobtained⟩ := switch_returns hfilled
  refine ⟨own, _, hreaches, hobtained, ?_⟩
  rintro ⟨-, hsub, -⟩
  cases hsub

end NexCause
