/-
NexCause/LoginRedirect.lean

Where a login leads: `safeReturnTo` and `redirectUrl` of `AuthService`.

`beginLogin` refuses a `returnTo` that does not begin with one slash, or begins
with two; `completeLogin` builds the URL of what was accepted against the URL of
the user interface.  A backslash, and a tab or a newline between two slashes, is
no slash to the first and as good as one to the second.

Main result: the redirect stays at the origin of the user interface exactly if
the URL parser finds no authority in what was accepted, or none that it can
read, or the one of the user interface (`redirect_origin_iff`).
-/
import NexCause.UrlOrigins
import NexCause.WorkspaceService

namespace NexCause

open Url

/-! ### The service -/

/-- `safeReturnTo` -/
def safeReturnTo (returnTo : Option String) : Except AuthError (Option String) :=
  match truthy returnTo with
  | none => .ok none
  | some returnTo =>
      if !"/".toList.isPrefixOf returnTo.toList || "//".toList.isPrefixOf returnTo.toList then
        .error (.badRequest "returnTo must be a relative application path")
      else .ok (some returnTo)

/-- What `redirectUrl` returns: the configured URL as it stands, or one that it has built. -/
inductive Redirect (H : Type)
  | configured (uiUrl : String)
  | built (url : Record H)
  deriving DecidableEq, Repr

variable {H : Type} (parseHost : List Char → Option H)

/-- `new URL(input, base)` for an input that begins with a slash; `none` where it throws. -/
def newUrl (input base : String) : Option (Record H) := do
  let base ← parse parseHost base.toList
  resolve parseHost base input.toList

/-- `redirectUrl`; `none` where it throws. -/
def redirectUrl (uiUrl : Option String) (returnTo : Option String) : Option (Redirect H) :=
  let configured := uiUrl.getD ""
  match truthy returnTo with
  | none => some (.configured configured)
  | some returnTo => (newUrl parseHost returnTo configured).map .built

/-- The origin that the browser is sent to. -/
def Redirect.origin : Redirect H → Option (Scheme × Authority H)
  | .configured uiUrl => (parse parseHost uiUrl.toList).map Record.origin
  | .built url => some url.origin

/-! ### What is accepted -/

/-- What is accepted is taken over as it is. -/
theorem safeReturnTo_ok {returnTo accepted : Option String}
    (h : safeReturnTo returnTo = .ok accepted) : accepted = truthy returnTo := by
  unfold safeReturnTo at h
  cases htruthy : truthy returnTo with
  | none =>
    rw [htruthy] at h
    exact (Except.ok.inj h).symm
  | some r =>
    rw [htruthy] at h
    dsimp only at h
    split at h
    · cases h
    · exact (Except.ok.inj h).symm

/-- An empty string names no authority. -/
theorem namedAuthority_of_not_truthy {s : Option String} (h : truthy s = none) {r : String}
    (hr : s = some r) : namedAuthority r.toList = none := by
  subst hr
  by_cases hempty : r = ""
  · subst hempty
    rfl
  · rw [truthy_of_ne hempty] at h
    cases h

/-- **The redirect stays at the user interface** exactly if the authority that the URL parser finds in
`returnTo` is unreadable or the one of the user interface. -/
theorem redirect_origin_iff {uiUrl : String} {ui : Record H} {returnTo accepted : Option String}
    (hui : parse parseHost uiUrl.toList = some ui) (hsafe : safeReturnTo returnTo = .ok accepted) :
    (∀ redirect, redirectUrl parseHost (some uiUrl) accepted = some redirect →
      redirect.origin parseHost = some ui.origin) ↔
    ∀ r, returnTo = some r → ∀ text, namedAuthority r.toList = some text →
      ∀ authority, authorityState parseHost ui.scheme text = some authority →
        authority = ui.authority := by
  obtain rfl := safeReturnTo_ok hsafe
  unfold redirectUrl
  rw [truthy_truthy]
  cases htruthy : truthy returnTo with
  -- without a target the redirect is to the page itself
  | none =>
    constructor
    · intro _ r hr text htext
      rw [namedAuthority_of_not_truthy htruthy hr] at htext
      cases htext
    · intro _ redirect hredirect
      obtain rfl := Option.some.inj hredirect
      show (parse parseHost uiUrl.toList).map Record.origin = _
      rw [hui]
      rfl
  | some r =>
    obtain ⟨rfl, -⟩ := truthy_eq_some.mp htruthy
    -- the target is resolved against the page
    have hnew : newUrl parseHost r uiUrl = resolve parseHost ui r.toList := by
      unfold newUrl
      rw [hui]
      rfl
    show (∀ redirect, (newUrl parseHost r uiUrl).map Redirect.built = some redirect → _) ↔ _
    rw [hnew]
    constructor
    · intro h r' hr'
      obtain rfl := Option.some.inj hr'
      apply (resolve_origin_iff parseHost ui r.toList).mp
      intro url hurl
      have horigin := h (.built url) (by rw [hurl]; rfl)
      exact Option.some.inj horigin
    · intro h redirect hredirect
      obtain ⟨url, hurl, rfl⟩ := Option.map_eq_some_iff.mp hredirect
      exact congrArg some ((resolve_origin_iff parseHost ui r.toList).mpr (h r rfl) url hurl)

/-! ### Two runs -/

/-- The host parser on names of lower-case letters, hyphens and dots. -/
def domainName (text : List Char) : Option (List Char) :=
  if text.all fun c => c.isLower || c = '-' || c = '.' then some text else none

/-- A path of the user interface. -/
theorem redirect_to_incidents :
    (redirectUrl domainName (some "https://ui.nexcause.example/auth/me")
      (some "/incidents?open=1")).isSome ∧
    ∀ redirect, redirectUrl domainName (some "https://ui.nexcause.example/auth/me")
      (some "/incidents?open=1") = some redirect →
    redirect.origin domainName = some (.https, "ui.nexcause.example".toList, none) := by
  have hui : parse domainName "https://ui.nexcause.example/auth/me".toList =
      some ⟨.https, ("ui.nexcause.example".toList, none), "/auth/me".toList⟩ := by decide
  have hsafe : safeReturnTo (some "/incidents?open=1") = .ok (some "/incidents?open=1") := by rfl
  refine ⟨by decide, (redirect_origin_iff domainName hui hsafe).mpr ?_⟩
  intro r hr text htext
  obtain rfl := Option.some.inj hr
  cases htext

/-- A backslash leads to another host. -/
theorem backslash_leaves : ∃ accepted redirect,
    safeReturnTo (some "/\\evil.example/login") = .ok accepted ∧
    redirectUrl domainName (some "https://ui.nexcause.example/auth/me") accepted = some redirect ∧
    redirect.origin domainName = some (.https, "evil.example".toList, none) ∧
    redirect.origin domainName ≠
      (parse domainName "https://ui.nexcause.example/auth/me".toList).map Record.origin := by
  refine ⟨some "/\\evil.example/login", .built ⟨.https, ("evil.example".toList, none), "/login".toList⟩,
    rfl, ?_, rfl, ?_⟩
  · decide
  · decide

end NexCause
