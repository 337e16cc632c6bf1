/-
NexCause/ServiceTokens.lean

The tokens with which the services call one another: signed by the deployment
manager for the agent (`internal-token.service.ts`), checked by the agent and
signed anew for the evidence server (`main.py`, `graph/rca_graph.py`), checked
by the evidence server (`serviceauth/middleware.go`).

A signature is a symbol: a token carries the secret it was signed with, and
verification compares that secret with the verifier's.  Times are in seconds.
-/
import NexCause.Adapters

namespace NexCause

/-! ### Tokens -/

/-- The claims of a token. -/
structure JwtClaims where
  issuer : Option String
  audience : List String
  issuedAt : Option ℤ
  expiresAt : Option ℤ
  notBefore : Option ℤ
  workspaceId : Option String
  runId : Option String
  incidentId : Option String
  deriving DecidableEq, Repr

/-- What stands behind `Bearer` in a header: a token signed with a secret under
an algorithm, or some other text. -/
inductive BearerToken
  | signed (secret algorithm : String) (claims : JwtClaims)
  | other (text : String)
  deriving DecidableEq, Repr

/-- The `Authorization` header: missing, of another scheme, or a bearer token. -/
inductive AuthorizationHeader
  | missing
  | otherScheme (text : String)
  | bearer (token : BearerToken)
  deriving DecidableEq, Repr

/-- An HTTP error. -/
structure HttpError where
  status : ℕ
  detail : String
  deriving DecidableEq, Repr

/-- A run with its tenant, as a job of the agent. -/
structure RunJob where
  workspaceId : String
  runId : String
  incidentId : String
  deriving DecidableEq, Repr

/-! ### The deployment manager -/

/-- `InternalTokenService.sign`. -/
def InternalTokenService.sign (secret : String) (now : ℤ) (audience workspaceId : String)
    (runId incidentId : Option String) : Except HttpError BearerToken :=
  if secret.utf8ByteSize < 32 then
    .error ⟨500, "INTERNAL_SERVICE_JWT_SECRET must contain at least 32 bytes"⟩
  else
    .ok (.signed secret "HS256"
      { issuer := some "deployment-manager"
        audience := [audience]
        issuedAt := some now
        expiresAt := some (now + 120)
        notBefore := none
        workspaceId := some workspaceId
        runId
        incidentId })

/-! ### The agent -/

namespace RcaAgent

/-- `jwt.decode` with the options of `verify_internal_token`: the signature,
the required claims, the times, the issuer and the audience. -/
def decodeToken (secret : String) (now : ℤ) (audience : String) : BearerToken → Option JwtClaims
  | .other _ => none
  | .signed key algorithm claims =>
      if key = secret ∧ algorithm = "HS256" ∧
          (claims.expiresAt.any fun exp => now < exp) ∧ (claims.issuedAt.any fun iat => iat ≤ now) ∧
          (claims.notBefore.all fun nbf => nbf ≤ now) ∧
          claims.issuer = some "deployment-manager" ∧ audience ∈ claims.audience ∧
          claims.workspaceId.isSome then some claims
      else none

/-- `verify_internal_token`. -/
def verifyInternalToken (secret : String) (now : ℤ) (header : AuthorizationHeader)
    (audience : String) : Except HttpError JwtClaims :=
  match header with
  | .bearer token =>
      match decodeToken secret now audience token with
      | some claims => .ok claims
      | none => .error ⟨401, "Invalid service token"⟩
  | _ => .error ⟨401, "Service authentication required"⟩

/-- `require_scope`: an empty argument, as a missing one, is not compared. -/
def requireScope (claims : JwtClaims) (workspaceId runId incidentId : String) :
    Except HttpError String :=
  let claimedWorkspace := claims.workspaceId.getD ""
  if claimedWorkspace = "" ∨ (workspaceId ≠ "" ∧ claimedWorkspace ≠ workspaceId) then
    .error ⟨403, "Workspace scope mismatch"⟩
  else if runId ≠ "" ∧ claims.runId ≠ some runId then .error ⟨403, "Run scope mismatch"⟩
  else if incidentId ≠ "" ∧ claims.incidentId ≠ some incidentId then
    .error ⟨403, "Incident scope mismatch"⟩
  else .ok claimedWorkspace

/-- The runs and the incidents of the database, whose ids the manager generates
and which are not empty. -/
structure Database where
  runs : List RcaRunRow
  incidents : List IncidentRow
  runIds : ∀ r ∈ runs, r.id ≠ "" ∧ r.workspaceId ≠ ""
  incidentIds : ∀ i ∈ incidents, i.id ≠ ""

/-- `get_run`, in a transaction of the workspace: the run, and the id of its
incident. -/
def getRun (db : Database) (workspaceId runId : String) : Option (RcaRunRow × String) :=
  db.runs.findSome? fun r =>
    if r.id = runId ∧ r.workspaceId = workspaceId then
      (db.incidents.find? fun i => i.id = r.incidentId ∧ i.workspaceId = workspaceId).map
        fun i => (r, i.id)
    else none

/-- `RunRequest`. -/
structure RunRequest where
  workspaceId : String
  runId : String
  incidentId : String
  deriving DecidableEq, Repr

/-- `start_run`: the job that it leaves to the background. -/
def startRun (secret : String) (now : ℤ) (db : Database) (header : AuthorizationHeader)
    (request : RunRequest) : Except HttpError RunJob := do
  let claims ← verifyInternalToken secret now header "rca-agent"
  let _ ← requireScope claims request.workspaceId request.runId request.incidentId
  match getRun db request.workspaceId request.runId with
  | none => .error ⟨404, "RCA run was not found"⟩
  | some (_, incidentId) =>
      if incidentId ≠ request.incidentId then .error ⟨404, "RCA run was not found"⟩
      else .ok ⟨request.workspaceId, request.runId, request.incidentId⟩

/-- The token that `RCAGraphRunner.run` signs for a job. -/
def mintToken (secret : String) (now : ℤ) (job : RunJob) : BearerToken :=
  .signed secret "HS256"
    { issuer := some "rca-agent"
      audience := ["rca-mcp"]
      issuedAt := some now
      expiresAt := some (now + 120)
      notBefore := none
      workspaceId := some job.workspaceId
      runId := some job.runId
      incidentId := some job.incidentId }

end RcaAgent

/-! ### The evidence server -/

/-- `ParseWithClaims` with the options of the middleware. -/
def ServiceAuth.parseToken (secret : String) (now : ℤ) : BearerToken → Option JwtClaims
  | .other _ => none
  | .signed key algorithm claims =>
      if key = secret ∧ algorithm = "HS256" ∧ (claims.expiresAt.any fun exp => now < exp) ∧
          (claims.notBefore.all fun nbf => nbf ≤ now) ∧ claims.issuer = some "rca-agent" ∧
          "rca-mcp" ∈ claims.audience then some claims
      else none

/-- `Middleware`: the claims that it puts into the context of the request. -/
def ServiceAuth.middleware (secret : String) (now : ℤ) (header : AuthorizationHeader) :
    Except HttpError Claims :=
  match header with
  | .bearer token =>
      if secret.utf8ByteSize < 32 then .error ⟨401, "service authentication required"⟩
      else
        match parseToken secret now token with
        | some claims =>
            let ids : Claims :=
              ⟨claims.workspaceId.getD "", claims.runId.getD "", claims.incidentId.getD ""⟩
            if ids.workspaceId = "" ∨ ids.runId = "" ∨ ids.incidentId = "" then
              .error ⟨401, "invalid service token"⟩
            else .ok ids
        | none => .error ⟨401, "invalid service token"⟩
  | _ => .error ⟨401, "service authentication required"⟩

/-! ### What the checks establish -/

theorem RcaAgent.decodeToken_some {secret audience : String} {now : ℤ} {token : BearerToken}
    {claims : JwtClaims} (h : decodeToken secret now audience token = some claims) :
    token = .signed secret "HS256" claims ∧ claims.issuer = some "deployment-manager" ∧
      audience ∈ claims.audience := by
  cases token with
  | other text => cases h
  | signed key algorithm claims' =>
    simp only [decodeToken, Option.ite_none_right_eq_some] at h
    obtain ⟨⟨hkey, halg, -, -, -, hissuer, haudience, -⟩, h⟩ := h
    obtain rfl := Option.some.inj h
    rw [hkey, halg]
    exact ⟨rfl, hissuer, haudience⟩

/-- What `require_scope` lets pass: each argument is empty or that of the
claims, and the claims have a workspace. -/
theorem RcaAgent.requireScope_ok {claims : JwtClaims} {workspaceId runId incidentId scope : String}
    (h : requireScope claims workspaceId runId incidentId = .ok scope) :
    (workspaceId = "" ∨ claims.workspaceId = some workspaceId) ∧
      (runId = "" ∨ claims.runId = some runId) ∧
      (incidentId = "" ∨ claims.incidentId = some incidentId) := by
  unfold requireScope at h
  dsimp only at h
  split at h
  · cases h
  · rename_i hworkspace
    split at h
    · cases h
    · rename_i hrun
      split at h
      · cases h
      · rename_i hincident
        -- no check has refused: the workspace has to be claimed, the others only if they are
        rw [not_or, not_and, not_not] at hworkspace
        rw [not_and, not_not] at hrun hincident
        refine ⟨?_, or_iff_not_imp_left.mpr hrun, or_iff_not_imp_left.mpr hincident⟩
        refine or_iff_not_imp_left.mpr ?_
        intro hne
        have heq := hworkspace.2 hne
        cases hclaim : claims.workspaceId with
        -- a token without a workspace was refused
        | none =>
          rw [hclaim] at hworkspace
          exact absurd rfl hworkspace.1
        | some w =>
          rw [hclaim] at heq
          exact congrArg some heq

/-- A run that is found has the ids it is looked for under, and these are not
empty. -/
theorem RcaAgent.getRun_some {db : Database} {workspaceId runId incidentId : String} {r : RcaRunRow}
    (h : getRun db workspaceId runId = some (r, incidentId)) :
    workspaceId ≠ "" ∧ runId ≠ "" ∧ incidentId ≠ "" := by
  obtain ⟨row, hrow, hfound⟩ := List.exists_of_findSome?_eq_some h
  split at hfound
  · rename_i hids
    obtain ⟨i, hi, hpair⟩ := Option.map_eq_some_iff.mp hfound
    have hne := db.runIds row hrow
    rw [hids.1, hids.2] at hne
    have hincident := db.incidentIds i (List.mem_of_find?_eq_some hi)
    rw [(Prod.mk.inj hpair).2] at hincident
    exact ⟨hne.2, hne.1, hincident⟩
  · cases hfound

/-- The claims name exactly this job. -/
def JwtClaims.Name (claims : JwtClaims) (job : RunJob) : Prop :=
  claims.workspaceId = some job.workspaceId ∧ claims.runId = some job.runId ∧
    claims.incidentId = some job.incidentId

/-- **A run that the agent accepts is the one of its token**: the token was
signed with the shared secret, for the agent, by the manager, and carries the
three ids of the job. -/
theorem RcaAgent.startRun_ok {secret : String} {now : ℤ} {db : Database} {header : AuthorizationHeader}
    {request : RunRequest} {job : RunJob} (h : startRun secret now db header request = .ok job) :
    ∃ claims, header = .bearer (.signed secret "HS256" claims) ∧
      claims.issuer = some "deployment-manager" ∧ "rca-agent" ∈ claims.audience ∧
      claims.Name job := by
  unfold startRun at h
  obtain ⟨claims, hverify, h⟩ := Program.except_bind_ok h
  obtain ⟨scope, hscope, h⟩ := Program.except_bind_ok h
  split at h
  · cases h
  · rename_i r incidentId hrun
    split at h
    · cases h
    · rename_i hincident
      obtain rfl := Except.ok.inj h
      rw [not_not] at hincident
      subst hincident
      -- the check skips empty ids, but no stored run has one
      obtain ⟨hworkspaceNe, hrunNe, hincidentNe⟩ := getRun_some hrun
      obtain ⟨hw, hr, hi⟩ := requireScope_ok hscope
      unfold verifyInternalToken at hverify
      split at hverify
      · rename_i token
        split at hverify
        · rename_i claims' hdecode
          obtain rfl := Except.ok.inj hverify
          obtain ⟨rfl, hissuer, haudience⟩ := decodeToken_some hdecode
          exact ⟨claims', rfl, hissuer, haudience, hw.resolve_left hworkspaceNe,
            hr.resolve_left hrunNe, hi.resolve_left hincidentNe⟩
        · cases hverify
      · cases hverify

/-- The evidence server validates a token that the agent signed, until it
expires, and reads from it the ids of the job. -/
theorem ServiceAuth.middleware_mintToken {secret : String} (hsecret : 32 ≤ secret.utf8ByteSize)
    {signedAt now : ℤ} (hnow : now < signedAt + 120) {job : RunJob} (hworkspace : job.workspaceId ≠ "")
    (hrun : job.runId ≠ "") (hincident : job.incidentId ≠ "") :
    middleware secret now (.bearer (RcaAgent.mintToken secret signedAt job)) =
      .ok ⟨job.workspaceId, job.runId, job.incidentId⟩ := by
  have hsize : ¬ secret.utf8ByteSize < 32 := by omega
  simp [middleware, parseToken, RcaAgent.mintToken, hsize, hnow, hworkspace, hrun, hincident]

end NexCause
