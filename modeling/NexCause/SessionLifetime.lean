/-
NexCause/SessionLifetime.lean

How long a session lives.  The statement is about the record of a run of any
requests on sessions: what each call of `SessionService` asked and was told.

The sliding expiry is computed from a row read earlier and written back
unconditionally, so it may even go back in time; but whoever wrote it last had
read the clock less than the idle duration before it (`Origin.used`).  That
nobody destroys the session before `authenticate` has written its row follows
from the update itself, which raises when the row is gone: the row that is
there is the one that was read, because a key is created once
(`creation_unique`).
-/
import Mathlib.Data.List.Nodup
import Mathlib.Order.Basic
import NexCause.SessionService
import NexCause.Traces

namespace NexCause

open Program Transition

/-! ### Reading a record -/

/-- A call of `SessionService` with its answer. -/
abbrev SessionExchange : Type := Exchange SessionCall SessionCall.Result PrismaError

abbrev SessionTrace : Type := List (ℕ × SessionExchange)

namespace SessionExchange

/-- The time that was read. -/
def reading : SessionExchange → Option ℕ
  | ⟨.now, .ok t⟩ => some t
  | _ => none

/-- The token that was drawn. -/
def token : SessionExchange → Option String
  | ⟨.randomToken, .ok token⟩ => some token
  | _ => none

/-- The session that was created. -/
def created : SessionExchange → Option AuthSessionData
  | ⟨.create data, .ok _⟩ => some data
  | ⟨.createAndDelete data _, .ok _⟩ => some data
  | _ => none

/-- The session that was given a new idle expiry, which only `authenticate` does. -/
def slid : SessionExchange → Option (String × ℤ)
  | ⟨.update idHash data, .ok _⟩ => data.idleExpiresAt.map fun d => (idHash, d)
  | _ => none

/-- The session is created, or used: `authenticate` updates it. -/
def Uses (e : SessionExchange) (idHash : String) : Prop :=
  (∃ data, e.created = some data ∧ data.idHash = idHash) ∨ ∃ d, e.slid = some (idHash, d)

/-- The session is destroyed, replaced, or deleted by `authenticate`. -/
def Removes (e : SessionExchange) (idHash : String) : Prop :=
  match e with
  | ⟨.deleteMany h, .ok _⟩ => h = idHash
  | ⟨.createAndDelete _ h, .ok _⟩ => h = idHash
  | ⟨.delete h, .ok _⟩ => h = idHash
  | _ => False

end SessionExchange

/-- The last time that request `i` read. -/
def lastReading (trace : SessionTrace) (i : ℕ) : Option ℕ :=
  ((ownTrace trace i).filterMap SessionExchange.reading).getLast?

/-- The times that were read, in order. -/
def readings (trace : SessionTrace) : List ℕ := trace.filterMap fun e => e.2.reading

/-- The tokens that were drawn. -/
def drawnTokens (trace : SessionTrace) : List String := trace.filterMap fun e => e.2.token

/-- The session was created by a request that had read `t`; `since` is what happened then. -/
def CreatedAt (trace : SessionTrace) (idHash : String) (t : ℕ) (since : SessionTrace) : Prop :=
  ∃ before i e data, trace = before ++ (i, e) :: since ∧ e.created = some data ∧
    data.idHash = idHash ∧ lastReading before i = some t

/-- The last creation or successful `authenticate` of the session in the record
is of a request that had read `t`. -/
def LastUsedAt (trace : SessionTrace) (idHash : String) (t : ℕ) : Prop :=
  ∃ before i e after, trace = before ++ (i, e) :: after ∧ e.Uses idHash ∧
    lastReading before i = some t ∧ ∀ x ∈ after, ¬ x.2.Uses idHash

/-! ### Dates -/

theorem newDate_mono {x y : ℚ} (h : x ≤ y) : newDate x ≤ newDate y := by
  unfold newDate
  split <;> split
  · exact Int.floor_le_floor h
  · rename_i hx hy
    exact absurd (hx.trans h) hy
  · rename_i hx hy
    have hneg : ⌈x⌉ ≤ 0 := Int.ceil_le.mpr (by push_cast; exact (not_le.mp hx).le)
    exact hneg.trans (Int.floor_nonneg.mpr hy)
  · exact Int.ceil_le_ceil h

theorem slidTo_le (config : SessionConfig) (session : AuthSession) (now : ℕ) :
    slidTo config session now ≤ newDate (now + config.idleMs) :=
  newDate_mono (min_le_left _ _)

/-! ### What a request has done before a call -/

section Requests

variable {crypto : CryptoService} {config : SessionConfig}

/-- What `createSession` has done when it creates the session. -/
def CreationTrace (crypto : CryptoService) (config : SessionConfig) (own : List SessionExchange)
    (data : AuthSessionData) : Prop :=
  ∃ input sessionToken csrfToken now,
    own = [⟨.randomToken, .ok sessionToken⟩, ⟨.randomToken, .ok csrfToken⟩, ⟨.now, .ok now⟩] ∧
    data = sessionData crypto config input sessionToken csrfToken now

/-- What `authenticate` has done when it updates the session. -/
def UseTrace (config : SessionConfig) (own : List SessionExchange) (idHash : String)
    (data : AuthSessionPatch) (session : AuthSession) (relations : SessionRelations) (t t' : ℕ) :
    Prop :=
  ∃ lastSeenAt now,
    own = [⟨.findUnique idHash, .ok (some (session, relations))⟩, ⟨.now, .ok t⟩, ⟨.now, .ok t'⟩,
      ⟨.now, .ok lastSeenAt⟩, ⟨.now, .ok now⟩] ∧
    (t : ℤ) < session.idleExpiresAt ∧ (t' : ℤ) < session.absoluteExpiresAt ∧
    relations.workspaceStatus = "active" ∧
    data = { lastSeenAt := some lastSeenAt, idleExpiresAt := some (slidTo config session now) }

/-- What a request has done before one of its calls. -/
def SessionCall.Prepared (crypto : CryptoService) (config : SessionConfig)
    (own : List SessionExchange) : SessionCall → Prop
  | .create data => CreationTrace crypto config own data
  | .createAndDelete data _ => CreationTrace crypto config own data
  | .update idHash data =>
      data.idleExpiresAt = none ∨
        ∃ session relations t t', UseTrace config own idHash data session relations t t'
  | _ => True

theorem createSession_prepared {input : CreateSessionInput} {own : List SessionExchange}
    {c : SessionCall} {k : Except PrismaError c.Result → SessionAction (String × String)}
    (h : (createSession crypto config input).Reaches own (.call c k)) :
    c.Prepared crypto config own := by
  obtain ⟨rfl, rfl⟩ | ⟨sessionToken, own₁, rfl, h₁⟩ := Prog.reaches_perform_call h
  · trivial
  obtain ⟨rfl, rfl⟩ | ⟨csrfToken, own₂, rfl, h₂⟩ := Prog.reaches_perform_call h₁
  · trivial
  obtain ⟨rfl, rfl⟩ | ⟨now, own₃, rfl, h₃⟩ := Prog.reaches_perform_call h₂
  · trivial
  have hcreation : CreationTrace crypto config
      [⟨.randomToken, .ok sessionToken⟩, ⟨.randomToken, .ok csrfToken⟩, ⟨.now, .ok now⟩]
      (sessionData crypto config input sessionToken csrfToken now) :=
    ⟨input, sessionToken, csrfToken, now, rfl, rfl⟩
  cases hreplace : truthy input.replaceSessionIdHash with
  | some idHash =>
    simp only [hreplace] at h₃
    obtain ⟨rfl, rfl⟩ | ⟨-, own₄, -, h₄⟩ := Prog.reaches_perform_call h₃
    · exact hcreation
    · cases (Prog.reaches_ret h₄).2
  | none =>
    simp only [hreplace] at h₃
    obtain ⟨rfl, rfl⟩ | ⟨-, own₄, -, h₄⟩ := Prog.reaches_perform_call h₃
    · exact hcreation
    · cases (Prog.reaches_ret h₄).2

/-- The check of a session, up to its verdict. -/
theorem sessionLapsed_then {session : AuthSession} {relations : SessionRelations}
    {f : Bool → SessionAction (Option AuthPrincipal)} {own : List SessionExchange}
    {q : SessionAction (Option AuthPrincipal)}
    (h : (sessionLapsed session relations >>= f).Reaches own q) :
    (∃ c k, q = .call c k ∧ c = .now) ∨ (∃ e, q = .throw e) ∨
    (∃ own₁ own₂, own = own₁ ++ own₂ ∧ (f true).Reaches own₂ q) ∨
    ∃ t t' own₂, own = ⟨.now, .ok t⟩ :: ⟨.now, .ok t'⟩ :: own₂ ∧
      (t : ℤ) < session.idleExpiresAt ∧ (t' : ℤ) < session.absoluteExpiresAt ∧
      relations.workspaceStatus = "active" ∧ (f false).Reaches own₂ q := by
  unfold sessionLapsed at h
  rw [Prog.bind_assoc] at h
  obtain ⟨-, rfl⟩ | ⟨e, -, rfl⟩ | ⟨t, own₁, rfl, h₁⟩ := Prog.reaches_perform h
  · exact .inl ⟨_, _, rfl, rfl⟩
  · exact .inr (.inl ⟨e, rfl⟩)
  by_cases hidle : session.idleExpiresAt ≤ (t : ℤ)
  · rw [if_pos hidle] at h₁
    exact .inr (.inr (.inl ⟨[⟨.now, .ok t⟩], own₁, rfl, h₁⟩))
  rw [if_neg hidle] at h₁
  replace h₁ : Prog.Reaches ((askSession .now >>= _) >>= f) own₁ q := h₁
  rw [Prog.bind_assoc] at h₁
  obtain ⟨-, rfl⟩ | ⟨e, -, rfl⟩ | ⟨t', own₂, rfl, h₂⟩ := Prog.reaches_perform h₁
  · exact .inl ⟨_, _, rfl, rfl⟩
  · exact .inr (.inl ⟨e, rfl⟩)
  -- the clock is read once more for the second limit
  by_cases habsolute : session.absoluteExpiresAt ≤ (t' : ℤ)
  · rw [if_pos habsolute] at h₂
    exact .inr (.inr (.inl ⟨[⟨.now, .ok t⟩, ⟨.now, .ok t'⟩], own₂, rfl, h₂⟩))
  rw [if_neg habsolute] at h₂
  replace h₂ : Prog.Reaches (f (decide (relations.workspaceStatus ≠ "active"))) own₂ q := h₂
  -- neither limit is passed: what is left is the workspace
  by_cases hstatus : relations.workspaceStatus = "active"
  · rw [decide_eq_false (by simpa using hstatus)] at h₂
    exact .inr (.inr (.inr ⟨t, t', own₂, rfl, not_le.mp hidle, not_le.mp habsolute, hstatus, h₂⟩))
  · rw [decide_eq_true hstatus] at h₂
    exact .inr (.inr (.inl ⟨[⟨.now, .ok t⟩, ⟨.now, .ok t'⟩], own₂, rfl, h₂⟩))

theorem authenticate_prepared {sessionToken : String} {own : List SessionExchange}
    {c : SessionCall} {k : Except PrismaError c.Result → SessionAction (Option AuthPrincipal)}
    (h : (authenticate crypto config sessionToken).Reaches own (.call c k)) :
    c.Prepared crypto config own := by
  obtain ⟨rfl, rfl⟩ | ⟨found, own₁, rfl, h₁⟩ := Prog.reaches_perform_call h
  · trivial
  cases found with
  | none => cases (Prog.reaches_ret h₁).2
  | some row =>
    obtain ⟨session, relations⟩ := row
    obtain ⟨c', k', hq, hc⟩ | ⟨e, hq⟩ | ⟨own₂, own₃, rfl, h₂⟩ |
      ⟨t, t', own₂, rfl, hidle, habsolute, hstatus, h₂⟩ := sessionLapsed_then h₁
    · obtain ⟨rfl, -⟩ := Prog.call.inj hq
      subst hc
      trivial
    · cases hq
    · obtain ⟨rfl, rfl⟩ | ⟨-, own₄, rfl, h₃⟩ := Prog.reaches_perform_call h₂
      · trivial
      · cases (Prog.reaches_ret h₃).2
    · obtain ⟨rfl, rfl⟩ | ⟨lastSeenAt, own₃, rfl, h₃⟩ := Prog.reaches_perform_call h₂
      · trivial
      obtain ⟨rfl, rfl⟩ | ⟨now, own₄, rfl, h₄⟩ := Prog.reaches_perform_call h₃
      · trivial
      obtain ⟨rfl, rfl⟩ | ⟨-, own₅, rfl, h₅⟩ := Prog.reaches_perform_call h₄
      · exact .inr ⟨session, relations, t, t', lastSeenAt, now, rfl, hidle, habsolute, hstatus, rfl⟩
      · cases (Prog.reaches_ret h₅).2

/-- What `authenticate` has done when it has returned a principal. -/
theorem authenticate_returned {sessionToken : String} {own : List SessionExchange}
    {principal : AuthPrincipal}
    (h : (authenticate crypto config sessionToken).Reaches own (.ret (some principal))) :
    ∃ session relations data t t' own', principal = toPrincipal session relations ∧
      own = own' ++ [⟨.update (crypto.hash sessionToken) data, .ok ()⟩] ∧
      UseTrace config own' (crypto.hash sessionToken) data session relations t t' := by
  obtain ⟨found, own₁, rfl, h₁⟩ := Prog.reaches_perform_ret h
  cases found with
  | none => cases (Prog.reaches_ret h₁).2
  | some row =>
    obtain ⟨session, relations⟩ := row
    obtain ⟨c', k', hq, -⟩ | ⟨e, hq⟩ | ⟨own₂, own₃, rfl, h₂⟩ |
      ⟨t, t', own₂, rfl, hidle, habsolute, hstatus, h₂⟩ := sessionLapsed_then h₁
    · cases hq
    · cases hq
    · obtain ⟨-, own₄, rfl, h₃⟩ := Prog.reaches_perform_ret h₂
      cases (Prog.reaches_ret h₃).2
    · obtain ⟨lastSeenAt, own₃, rfl, h₃⟩ := Prog.reaches_perform_ret h₂
      obtain ⟨now, own₄, rfl, h₄⟩ := Prog.reaches_perform_ret h₃
      obtain ⟨⟨⟩, own₅, rfl, h₅⟩ := Prog.reaches_perform_ret h₄
      obtain ⟨rfl, hret⟩ := Prog.reaches_ret h₅
      obtain rfl := Option.some.inj (Prog.ret.inj hret)
      exact ⟨session, relations, _, t, t', _, rfl, rfl, lastSeenAt, now, rfl, hidle, habsolute,
        hstatus, rfl⟩

/-- **Preparation.**  Before each of its calls a request has done what its
program says. -/
theorem request_prepared {request : SessionRequest} {own : List SessionExchange} {c : SessionCall}
    {k : Except PrismaError c.Result → SessionAction SessionResponse}
    (h : (request.program crypto config).Reaches own (.call c k)) : c.Prepared crypto config own := by
  cases request with
  | createSession input =>
    obtain ⟨k', h'⟩ := Prog.reaches_map_call
      (g := fun r : String × String => SessionResponse.tokens r.1 r.2) h
    exact createSession_prepared h'
  | authenticate sessionToken =>
    obtain ⟨k', h'⟩ := Prog.reaches_map_call h
    exact authenticate_prepared h'
  | updateTokens idHash input =>
    obtain ⟨rfl, rfl⟩ | ⟨-, own₁, rfl, h₁⟩ := Prog.reaches_perform_call h
    · exact .inl rfl
    · cases (Prog.reaches_ret h₁).2
  | destroy sessionIdHash =>
    obtain ⟨rfl, rfl⟩ | ⟨-, own₁, rfl, h₁⟩ := Prog.reaches_perform_call h
    · trivial
    · cases (Prog.reaches_ret h₁).2
  | cleanup =>
    obtain ⟨k', h'⟩ := Prog.reaches_map_call h
    obtain ⟨rfl, rfl⟩ | ⟨now, own₁, rfl, h₁⟩ := Prog.reaches_perform_call h'
    · trivial
    obtain ⟨rfl, rfl⟩ | ⟨counts, own₂, rfl, h₂⟩ := Prog.reaches_perform_call h₁
    · trivial
    · cases (Prog.reaches_ret h₂).2

end Requests

/-! ### Where a row comes from -/

/-- The row was created, nobody has removed it since, and its idle expiry is that
of its last use. -/
structure Origin (config : SessionConfig) (trace : SessionTrace) (row : AuthSession) : Prop where
  created : ∃ t since, CreatedAt trace row.idHash t since ∧
    row.absoluteExpiresAt = newDate (t + config.absoluteMs) ∧
    ∀ x ∈ since, ¬ x.2.Removes row.idHash
  used : ∃ t, LastUsedAt trace row.idHash t ∧ row.idleExpiresAt ≤ newDate (t + config.idleMs)

section Rows

variable {crypto : CryptoService} {config : SessionConfig} {trace : SessionTrace}
  {row : AuthSession} {i : ℕ} {e : SessionExchange}

theorem CreatedAt.append {idHash : String} {t : ℕ} {since : SessionTrace}
    (h : CreatedAt trace idHash t since) (later : SessionTrace) :
    CreatedAt (trace ++ later) idHash t (since ++ later) := by
  obtain ⟨before, j, f, data, rfl, hcreated, hid, hread⟩ := h
  exact ⟨before, j, f, data, by simp, hcreated, hid, hread⟩

/-- A call that neither uses nor removes the session. -/
theorem Origin.extend (h : Origin config trace row) (huses : ¬ e.Uses row.idHash)
    (hremoves : ¬ e.Removes row.idHash) : Origin config (trace ++ [(i, e)]) row := by
  obtain ⟨⟨t, since, hcreated, habsolute, hsince⟩, ⟨t', hused, hidle⟩⟩ := h
  refine ⟨⟨t, since ++ [(i, e)], hcreated.append _, habsolute, ?_⟩, ⟨t', ?_, hidle⟩⟩
  · intro x hx
    rcases List.mem_append.mp hx with hx | hx
    · exact hsince x hx
    · rw [List.mem_singleton] at hx
      exact hx ▸ hremoves
  · obtain ⟨before, j, f, after, rfl, hf, hread, hafter⟩ := hused
    refine ⟨before, j, f, after ++ [(i, e)], by simp, hf, hread, fun x hx => ?_⟩
    rcases List.mem_append.mp hx with hx | hx
    · exact hafter x hx
    · rw [List.mem_singleton] at hx
      exact hx ▸ huses

/-- A call that does not concern sessions at all. -/
theorem Origin.frame (h : Origin config trace row) (hcreated : e.created = none)
    (hslid : e.slid = none) (hremoves : ¬ e.Removes row.idHash) :
    Origin config (trace ++ [(i, e)]) row := by
  apply h.extend _ hremoves
  rintro (⟨data, hdata, -⟩ | ⟨d, hd⟩)
  · rw [hcreated] at hdata
    cases hdata
  · rw [hslid] at hd
    cases hd

/-- A new row. -/
theorem origin_created {data : AuthSessionData} {n : ℤ}
    (hprepared : CreationTrace crypto config (ownTrace trace i) data) (he : e.created = some data) :
    Origin config (trace ++ [(i, e)]) { data with lastSeenAt := n } := by
  obtain ⟨input, sessionToken, csrfToken, now, hown, rfl⟩ := hprepared
  have hread : lastReading trace i = some now := by
    unfold lastReading
    rw [hown]
    rfl
  constructor
  · exact ⟨now, [], ⟨trace, i, e, _, rfl, he, rfl, hread⟩, rfl, fun x hx => (nomatch hx)⟩
  · exact ⟨now, ⟨trace, i, e, [], rfl, .inl ⟨_, he, rfl⟩, hread, fun x hx => (nomatch hx)⟩, le_rfl⟩

/-- A row that `authenticate` updates. -/
theorem Origin.slide (h : Origin config trace row) {data : AuthSessionPatch} {session : AuthSession}
    {relations : SessionRelations} {t t' : ℕ}
    (hprepared : UseTrace config (ownTrace trace i) row.idHash data session relations t t') :
    Origin config (trace ++ [(i, ⟨.update row.idHash data, .ok ()⟩)]) (row.patch data) := by
  obtain ⟨lastSeenAt, now, hown, -, -, -, rfl⟩ := hprepared
  have hread : lastReading trace i = some now := by
    unfold lastReading
    rw [hown]
    rfl
  obtain ⟨t, since, hcreated, habsolute, hsince⟩ := h.created
  constructor
  · refine ⟨t, since ++ [_], hcreated.append _, habsolute, fun x hx => ?_⟩
    rcases List.mem_append.mp hx with hx | hx
    · exact hsince x hx
    · rw [List.mem_singleton] at hx
      exact hx ▸ id
  · exact ⟨now, ⟨trace, i, _, [], rfl, .inr ⟨_, rfl⟩, hread, fun x hx => (nomatch hx)⟩,
      slidTo_le config session now⟩

/-- A row whose tokens are updated. -/
theorem Origin.keep (h : Origin config trace row) {data : AuthSessionPatch}
    (hdata : data.idleExpiresAt = none) : Origin config trace (row.patch data) := by
  obtain ⟨t, hused, hidle⟩ := h.used
  refine ⟨h.created, t, hused, ?_⟩
  show data.idleExpiresAt.getD row.idleExpiresAt ≤ _
  rw [hdata]
  exact hidle

/-- The answer to a creation, and the rows after it. -/
theorem create_cases (s : SessionWorld) (data : AuthSessionData) :
    (s.create data = (.error .uniqueConstraint, s)) ∨
    (data.idHash ∉ s.keys ∧ s.create data =
      (.ok (), { s with sessions := s.sessions ++ [{ data with lastSeenAt := s.now }] })) := by
  unfold SessionWorld.create
  split
  · exact .inl rfl
  · rename_i h
    exact .inr ⟨h, rfl⟩

theorem onRow_cases (s : SessionWorld) (idHash : String) (f : SessionWorld → SessionWorld) :
    (s.onRow idHash f = (.error .recordNotFound, s)) ∨
    (idHash ∈ s.keys ∧ s.onRow idHash f = (.ok (), f s)) := by
  unfold SessionWorld.onRow
  split
  · rename_i h
    exact .inr ⟨h, rfl⟩
  · exact .inl rfl

theorem mem_keys {s : SessionWorld} {idHash : String} :
    idHash ∈ s.keys ↔ ∃ row ∈ s.sessions, row.idHash = idHash := by
  unfold SessionWorld.keys
  rw [List.mem_map]

theorem mem_deleteMany {s : SessionWorld} {cond : AuthSession → Bool} :
    row ∈ (s.deleteMany cond).sessions ↔ row ∈ s.sessions ∧ cond row = false := by
  unfold SessionWorld.deleteMany
  rw [List.mem_filter, Bool.not_eq_true']

/-- **One call** keeps what is known of the rows. -/
theorem origin_step {s : SessionWorld} {c : SessionCall} {x : SessionChoice}
    (h : ∀ row ∈ s.sessions, Origin config trace row)
    (hprepared : c.Prepared crypto config (ownTrace trace i)) :
    ∀ row ∈ (serveSession c x s).2.sessions,
      Origin config (trace ++ [(i, ⟨c, (serveSession c x s).1⟩)]) row := by
  intro row hrow
  have hframe : ∀ e : SessionExchange, e.created = none → e.slid = none → row ∈ s.sessions →
      ¬ e.Removes row.idHash → Origin config (trace ++ [(i, e)]) row :=
    fun e hcreated hslid hmem hremoves => (h row hmem).frame hcreated hslid hremoves
  -- a row that was there when another one was created
  have hother : ∀ (data : AuthSessionData) (e : SessionExchange), e.created = some data →
      e.slid = none → row ∈ s.sessions → data.idHash ∉ s.keys → ¬ e.Removes row.idHash →
        Origin config (trace ++ [(i, e)]) row := by
    intro data e hcreated hslid hmem hfresh hremoves
    refine (h row hmem).extend ?_ hremoves
    rintro (⟨data', hdata', hid⟩ | ⟨d, hd⟩)
    · obtain rfl := Option.some.inj (hcreated.symm.trans hdata')
      exact hfresh (mem_keys.mpr ⟨row, hmem, hid.symm⟩)
    · rw [hslid] at hd
      cases hd
  generalize hs : ({ s with now := s.now + x.elapsed } : SessionWorld) = s'
  have hkeys : s'.keys = s.keys := hs ▸ rfl
  have hsessions : s'.sessions = s.sessions := hs ▸ rfl
  have hserve : serveSession c x s = s'.answer x c := hs ▸ rfl
  rw [hserve] at hrow ⊢
  cases c with
  | now => exact hframe _ rfl rfl (hsessions ▸ hrow) id
  | randomToken => exact hframe _ rfl rfl (hsessions ▸ hrow) id
  | findUnique idHash => exact hframe _ rfl rfl (hsessions ▸ hrow) id
  | create data =>
    rw [show s'.answer x (.create data) = s'.create data from rfl] at hrow ⊢
    rcases create_cases s' data with hcreate | ⟨hfresh, hcreate⟩
    · rw [hcreate] at hrow ⊢
      exact hframe _ rfl rfl (hsessions ▸ hrow) id
    · rw [hcreate] at hrow ⊢
      rcases List.mem_append.mp hrow with hold | hnew
      · exact hother data _ rfl rfl (hsessions ▸ hold) (hkeys ▸ hfresh) id
      · obtain rfl := List.mem_singleton.mp hnew
        exact origin_created hprepared rfl
  | createAndDelete data idHash =>
    simp only [SessionWorld.answer] at hrow ⊢
    rcases create_cases s' data with hcreate | ⟨hfresh, hcreate⟩
    · rw [hcreate] at hrow ⊢
      exact hframe _ rfl rfl (hsessions ▸ hrow) id
    · rw [hcreate] at hrow ⊢
      obtain ⟨hmem, hne⟩ := mem_deleteMany.mp hrow
      rcases List.mem_append.mp hmem with hold | hnew
      · refine hother data _ rfl rfl (hsessions ▸ hold) (hkeys ▸ hfresh) fun heq => ?_
        exact of_decide_eq_false hne heq.symm
      · obtain rfl := List.mem_singleton.mp hnew
        exact origin_created hprepared rfl
  | update idHash data =>
    rw [show s'.answer x (.update idHash data) = s'.onRow idHash (·.patch idHash data) from rfl]
      at hrow ⊢
    rcases onRow_cases s' idHash (·.patch idHash data) with hupdate | ⟨-, hupdate⟩
    · rw [hupdate] at hrow ⊢
      exact hframe _ rfl rfl (hsessions ▸ hrow) id
    · rw [hupdate] at hrow ⊢
      obtain ⟨old, hmem, rfl⟩ := List.mem_map.mp hrow
      rw [hsessions] at hmem
      by_cases hid : old.idHash = idHash
      · subst hid
        rw [if_pos rfl]
        rcases hprepared with hnone | ⟨session, relations, t, t', hprepared⟩
        · exact ((h old hmem).keep hnone).frame rfl (by simp [SessionExchange.slid, hnone]) id
        · exact (h old hmem).slide hprepared
      · rw [if_neg hid]
        refine (h old hmem).extend ?_ id
        rintro (⟨data', hdata, -⟩ | ⟨d, hd⟩)
        · cases hdata
        · obtain ⟨d', -, heq⟩ := Option.map_eq_some_iff.mp hd
          exact hid (Prod.mk.inj heq).1.symm
  | delete idHash =>
    rw [show s'.answer x (.delete idHash) =
      s'.onRow idHash (·.deleteMany (·.idHash = idHash)) from rfl] at hrow ⊢
    rcases onRow_cases s' idHash (·.deleteMany (·.idHash = idHash)) with hdelete | ⟨-, hdelete⟩
    · rw [hdelete] at hrow ⊢
      exact hframe _ rfl rfl (hsessions ▸ hrow) id
    · rw [hdelete] at hrow ⊢
      obtain ⟨hmem, hne⟩ := mem_deleteMany.mp hrow
      refine hframe _ rfl rfl (hsessions ▸ hmem) fun heq => ?_
      exact of_decide_eq_false hne heq.symm
  | deleteMany idHash =>
    obtain ⟨hmem, hne⟩ := mem_deleteMany.mp hrow
    refine hframe _ rfl rfl (hsessions ▸ hmem) fun heq => ?_
    exact of_decide_eq_false hne heq.symm
  | deleteExpired now =>
    obtain ⟨hmem, -⟩ := mem_deleteMany.mp hrow
    exact hframe _ rfl rfl (hsessions ▸ hmem) id

/-- Every call in the record comes after what its program does before it. -/
theorem prepared_of_justified {requests : List SessionRequest}
    (h : Justified (requests.map fun q => (q, q.program crypto config)) trace)
    {before after : SessionTrace} (htrace : trace = before ++ (i, e) :: after) :
    e.call.Prepared crypto config (ownTrace before i) := by
  obtain ⟨q, p, k, hi, hreach⟩ := h before i e after htrace
  obtain ⟨q', -, heq⟩ := Option.map_eq_some_iff.mp (List.getElem?_map .. ▸ hi)
  obtain ⟨rfl, rfl⟩ := Prod.mk.inj heq
  exact request_prepared hreach

/-- Every row of the table has an origin in the record. -/
theorem rows_origin {requests : List SessionRequest} {now₀ : ℕ} {s : SessionWorld}
    (hjustified : Justified (requests.map fun q => (q, q.program crypto config)) trace)
    (h : Replays serveSession ⟨now₀, []⟩ trace s) : ∀ row ∈ s.sessions, Origin config trace row := by
  induction h with
  | start => exact fun row hrow => (nomatch hrow)
  | next i c x _ ih =>
    exact origin_step (ih hjustified.before) (prepared_of_justified hjustified rfl)

/-! ### Keys are created once -/

theorem drawnTokens_append (trace later : SessionTrace) :
    drawnTokens (trace ++ later) = drawnTokens trace ++ drawnTokens later :=
  List.filterMap_append

/-- The tokens that were drawn, each with the request that drew it. -/
def drawnBy (trace : SessionTrace) : List (ℕ × String) :=
  trace.filterMap fun e => e.2.token.map fun token => (e.1, token)

theorem drawnBy_snd (trace : SessionTrace) : (drawnBy trace).map Prod.snd = drawnTokens trace := by
  unfold drawnBy drawnTokens
  rw [List.map_filterMap]
  congr 1
  funext e
  cases e.2.token <;> rfl

theorem mem_drawnBy {token : String} (h : (i, ⟨.randomToken, .ok token⟩) ∈ trace) :
    (i, token) ∈ drawnBy trace :=
  List.mem_filterMap.mpr ⟨_, h, rfl⟩

/-- A creation has drawn the token of its session. -/
theorem CreationTrace.token {own : List SessionExchange} {data : AuthSessionData}
    (h : CreationTrace crypto config own data) :
    ∃ token, ⟨.randomToken, .ok token⟩ ∈ own ∧ crypto.hash token = data.idHash := by
  obtain ⟨input, sessionToken, csrfToken, now, rfl, rfl⟩ := h
  exact ⟨sessionToken, List.mem_cons_self, rfl⟩

/-- A creation comes after no other one of its request. -/
theorem CreationTrace.first {own : List SessionExchange} {data : AuthSessionData}
    (h : CreationTrace crypto config own data) (he : e ∈ own) : e.created = none := by
  obtain ⟨input, sessionToken, csrfToken, now, rfl, rfl⟩ := h
  simp only [List.mem_cons, List.not_mem_nil, or_false] at he
  rcases he with rfl | rfl | rfl <;> rfl

theorem prepared_creation {own : List SessionExchange} {data : AuthSessionData}
    (h : e.call.Prepared crypto config own) (he : e.created = some data) :
    CreationTrace crypto config own data := by
  obtain ⟨c, r⟩ := e
  cases c with
  | create data' =>
    cases r with
    | error e => cases he
    | ok a => exact Option.some.inj he ▸ h
  | createAndDelete data' idHash =>
    cases r with
    | error e => cases he
    | ok a => exact Option.some.inj he ▸ h
  | _ => cases he

/-- **A key is created once**, when the tokens have different hashes. -/
theorem creation_unique {requests : List SessionRequest}
    (hjustified : Justified (requests.map fun q => (q, q.program crypto config)) trace)
    (hfresh : ((drawnTokens trace).map crypto.hash).Nodup) {idHash : String} {t t' : ℕ}
    {since since' : SessionTrace} (h : CreatedAt trace idHash t since)
    (h' : CreatedAt trace idHash t' since') : t = t' ∧ since = since' := by
  obtain ⟨before, i, e, data, htrace, hcreated, hid, hread⟩ := h
  obtain ⟨before', i', e', data', htrace', hcreated', hid', hread'⟩ := h'
  have hown := prepared_creation (prepared_of_justified hjustified htrace) hcreated
  have hown' := prepared_creation (prepared_of_justified hjustified htrace') hcreated'
  -- the two requests have drawn the same token, so they are one
  obtain rfl : i = i' := by
    obtain ⟨token, hmem, hhash⟩ := hown.token
    obtain ⟨token', hmem', hhash'⟩ := hown'.token
    have hdrawn : (i, token) ∈ drawnBy trace := by
      apply mem_drawnBy
      rw [htrace]
      exact List.mem_append_left _ (mem_ownTrace.mp hmem)
    have hdrawn' : (i', token') ∈ drawnBy trace := by
      apply mem_drawnBy
      rw [htrace']
      exact List.mem_append_left _ (mem_ownTrace.mp hmem')
    rw [← drawnBy_snd, List.map_map] at hfresh
    have heq := List.inj_on_of_nodup_map hfresh hdrawn hdrawn'
      (hhash.trans ((hid.trans hid'.symm).trans hhash'.symm))
    exact (Prod.mk.inj heq).1
  -- and that one creates a session once
  rcases append_cons_cases (htrace.symm.trans htrace') with ⟨rfl, -, rfl⟩ | hmem | hmem
  · exact ⟨Option.some.inj (hread.symm.trans hread'), rfl⟩
  · have hnone := hown'.first (mem_ownTrace.mpr hmem)
    rw [hcreated] at hnone
    cases hnone
  · have hnone := hown.first (mem_ownTrace.mpr hmem)
    rw [hcreated'] at hnone
    cases hnone

end Rows

/-! ### The clock -/

theorem serveSession_now (c : SessionCall) (x : SessionChoice) (s : SessionWorld) :
    (serveSession c x s).2.now = s.now + x.elapsed := by
  unfold serveSession
  generalize hs : ({ s with now := s.now + x.elapsed } : SessionWorld) = s'
  have hnow : s'.now = s.now + x.elapsed := hs ▸ rfl
  cases c with
  | create data =>
    rcases create_cases s' data with h | ⟨-, h⟩
    · exact (congrArg (·.2.now) h).trans hnow
    · exact (congrArg (·.2.now) h).trans hnow
  | createAndDelete data idHash =>
    simp only [SessionWorld.answer]
    rcases create_cases s' data with h | ⟨-, h⟩
    · rw [h]
      exact hnow
    · rw [h]
      exact hnow
  | update idHash data =>
    rcases onRow_cases s' idHash (·.patch idHash data) with h | ⟨-, h⟩
    · exact (congrArg (·.2.now) h).trans hnow
    · exact (congrArg (·.2.now) h).trans hnow
  | delete idHash =>
    rcases onRow_cases s' idHash (·.deleteMany (·.idHash = idHash)) with h | ⟨-, h⟩
    · exact (congrArg (·.2.now) h).trans hnow
    · exact (congrArg (·.2.now) h).trans hnow
  | _ => exact hnow

/-- What is read is the time. -/
theorem reading_eq {c : SessionCall} {x : SessionChoice} {s : SessionWorld} {t : ℕ}
    (h : SessionExchange.reading ⟨c, (serveSession c x s).1⟩ = some t) : t = s.now + x.elapsed := by
  cases c with
  | now => exact (Option.some.inj h).symm
  | _ => cases h

/-- Readings come in order. -/
theorem readings_sorted {trace : SessionTrace} {s₀ s : SessionWorld}
    (h : Replays serveSession s₀ trace s) :
    (readings trace).Pairwise (· ≤ ·) ∧ ∀ t ∈ readings trace, t ≤ s.now := by
  induction h with
  | start => exact ⟨List.Pairwise.nil, fun t ht => (nomatch ht)⟩
  | @next trace s i c x _ ih =>
    rw [serveSession_now]
    unfold readings at ih ⊢
    rw [List.filterMap_append, List.filterMap_cons, List.filterMap_nil]
    cases hr : SessionExchange.reading ⟨c, (serveSession c x s).1⟩ with
    | none =>
      rw [List.append_nil]
      exact ⟨ih.1, fun t ht => (ih.2 t ht).trans (Nat.le_add_right _ _)⟩
    | some t =>
      obtain rfl := reading_eq hr
      refine ⟨List.pairwise_append.mpr ⟨ih.1, List.pairwise_singleton _ _, ?_⟩, ?_⟩
      · intro a ha b hb
        rw [List.mem_singleton.mp hb]
        exact (ih.2 a ha).trans (Nat.le_add_right _ _)
      · intro a ha
        rcases List.mem_append.mp ha with ha | ha
        · exact (ih.2 a ha).trans (Nat.le_add_right _ _)
        · exact (List.mem_singleton.mp ha).le

/-- The readings of one request are readings. -/
theorem own_readings (trace : SessionTrace) (i : ℕ) :
    ((ownTrace trace i).filterMap SessionExchange.reading).Sublist (readings trace) := by
  induction trace with
  | nil => exact List.Sublist.refl _
  | cons e trace ih =>
    unfold readings at ih ⊢
    rw [ownTrace_cons]
    split
    · rw [List.filterMap_cons, List.filterMap_cons]
      cases e.2.reading with
      | none => exact ih
      | some t => exact ih.cons_cons t
    · rw [List.filterMap_cons]
      cases e.2.reading with
      | none => exact ih
      | some t => exact ih.cons t

/-! ### The lifetime of a session -/

/-- How `authenticate` came to return a principal: it found the session, read
the clock at `t` and `t'` for the two expiries, and updated the row. -/
structure InTime (crypto : CryptoService) (config : SessionConfig) (trace : SessionTrace) (i : ℕ)
    (sessionToken : String) (principal : AuthPrincipal) (t t' : ℕ) : Prop where
  steps : ∃ past between later session relations data lastSeenAt now,
    trace = past ++ (i, ⟨.findUnique (crypto.hash sessionToken), .ok (some (session, relations))⟩) ::
      between ++ (i, ⟨.update (crypto.hash sessionToken) data, .ok ()⟩) :: later ∧
    ownTrace between i = [⟨.now, .ok t⟩, ⟨.now, .ok t'⟩, ⟨.now, .ok lastSeenAt⟩, ⟨.now, .ok now⟩] ∧
    principal = toPrincipal session relations ∧
    -- the workspace was active when read
    relations.workspaceStatus = "active" ∧
    -- the last use before the session was read is recent
    (∃ used, LastUsedAt past (crypto.hash sessionToken) used ∧ (t : ℚ) < used + config.idleMs) ∧
    -- so is its creation, after which nothing has removed the session up to the update
    ∃ created since, CreatedAt (past ++ (i, ⟨.findUnique (crypto.hash sessionToken),
        .ok (some (session, relations))⟩) :: between) (crypto.hash sessionToken) created since ∧
      (t' : ℚ) < created + config.absoluteMs ∧
      ∀ x ∈ since, ¬ x.2.Removes (crypto.hash sessionToken)
  ordered : t ≤ t'

section Lifetime

variable {crypto : CryptoService} {config : SessionConfig} {requests : List SessionRequest}
  {now₀ : ℕ} {trace : SessionTrace}

/-- A session that was found is a row of the table. -/
theorem found_origin {s : SessionWorld} {before after : SessionTrace} {i : ℕ} {idHash : String}
    {session : AuthSession} {relations : SessionRelations}
    (hjustified : Justified (requests.map fun q => (q, q.program crypto config)) trace)
    (hreplays : Replays serveSession ⟨now₀, []⟩ trace s)
    (htrace : trace =
      before ++ (i, ⟨.findUnique idHash, .ok (some (session, relations))⟩) :: after) :
    session.idHash = idHash ∧ Origin config before session := by
  subst htrace
  obtain ⟨v, x, hv, hanswer⟩ := hreplays.entry
  obtain ⟨row, hfind, heq⟩ := Option.map_eq_some_iff.mp (Except.ok.inj hanswer).symm
  obtain ⟨rfl, -⟩ := Prod.mk.inj heq
  have hid := List.find?_some hfind
  refine ⟨of_decide_eq_true hid, ?_⟩
  exact rows_origin hjustified.before hv row (List.mem_of_find?_eq_some hfind)

/-- A row that was updated is a row of the table. -/
theorem updated_origin {s : SessionWorld} {before after : SessionTrace} {i : ℕ} {idHash : String}
    {data : AuthSessionPatch}
    (hjustified : Justified (requests.map fun q => (q, q.program crypto config)) trace)
    (hreplays : Replays serveSession ⟨now₀, []⟩ trace s)
    (htrace : trace = before ++ (i, ⟨.update idHash data, .ok ()⟩) :: after) :
    ∃ row, row.idHash = idHash ∧ Origin config before row := by
  subst htrace
  obtain ⟨v, x, hv, hanswer⟩ := hreplays.entry
  rcases onRow_cases { v with now := v.now + x.elapsed } idHash (·.patch idHash data) with
    herror | ⟨hmem, -⟩
  · rw [show (serveSession (.update idHash data) x v) = _ from herror] at hanswer
    cases hanswer
  · obtain ⟨row, hrow, hid⟩ := mem_keys.mp hmem
    exact ⟨row, hid, rows_origin hjustified.before hv row hrow⟩

/-- A call of `authenticate` that returned a principal did so in time. -/
theorem authenticated_in_time {s : SessionWorld}
    (hjustified : Justified (requests.map fun q => (q, q.program crypto config)) trace)
    (hreplays : Replays serveSession ⟨now₀, []⟩ trace s)
    (hfresh : ((drawnTokens trace).map crypto.hash).Nodup) {i : ℕ} {sessionToken : String}
    {principal : AuthPrincipal}
    (hreach : (authenticate crypto config sessionToken).Reaches (ownTrace trace i)
      (.ret (some principal))) :
    ∃ t t', InTime crypto config trace i sessionToken principal t t' := by
  obtain ⟨session, relations, data, t, t', own, rfl, hown, lastSeenAt, now, rfl, hidle, habsolute,
    hactive, hdata⟩ := authenticate_returned hreach
  -- the read and the update, in the record
  obtain ⟨before, later, htrace, hbefore, -⟩ := ownTrace_split hown
  obtain ⟨past, between, rfl, -, hbetween⟩ := ownTrace_split
    (hbefore.trans (List.nil_append _).symm)
  refine ⟨t, t', ⟨past, between, later, session, relations, data, lastSeenAt, now, ?_, hbetween, rfl,
    hactive, ?_, ?_⟩, ?_⟩
  · rw [htrace]
  · -- the row that was read
    obtain ⟨hid, horigin⟩ := found_origin hjustified hreplays
      (htrace.trans (List.append_assoc past _ _))
    obtain ⟨used, hused, hle⟩ := horigin.used
    rw [hid] at hused
    exact ⟨used, hused, lt_of_lt_newDate (hidle.trans_le hle)⟩
  · -- the row that was updated is the same
    obtain ⟨hid, horigin⟩ := found_origin hjustified hreplays
      (htrace.trans (List.append_assoc past _ _))
    obtain ⟨created, since, hcreated, hexpires, -⟩ := horigin.created
    obtain ⟨row, hid', horigin'⟩ := updated_origin hjustified hreplays htrace
    obtain ⟨created', since', hcreated', -, hsince'⟩ := horigin'.created
    rw [hid] at hcreated
    rw [hid'] at hcreated' hsince'
    have hfresh' : ((drawnTokens (past ++ (i, ⟨.findUnique (crypto.hash sessionToken),
        .ok (some (session, relations))⟩) :: between)).map crypto.hash).Nodup := by
      rw [htrace, drawnTokens_append, List.map_append] at hfresh
      exact hfresh.of_append_left
    have hjustified' := (htrace ▸ hjustified).before
    obtain ⟨rfl, -⟩ := creation_unique hjustified' hfresh' (hcreated.append _) hcreated'
    refine ⟨created, since', hcreated', ?_, hsince'⟩
    rw [hexpires] at habsolute
    exact lt_of_lt_newDate habsolute
  · have hsorted := (readings_sorted hreplays).1.sublist (own_readings trace i)
    rw [hown] at hsorted
    replace hsorted : [t, t', lastSeenAt, now].Pairwise (· ≤ ·) := hsorted
    exact List.rel_of_pairwise_cons hsorted List.mem_cons_self

/-- **Session lifetime.**  In a run of any requests on sessions in which the
tokens drawn have different hashes, `authenticate` returns a principal only in
time, and the absolute expiry of a session never changes. -/
theorem session_lifetime_bounded {ls : List (ℕ × SessionChoice)} {s : SessionPool}
    (hrun : exec (Pool.traced serveSession) (startSessions crypto config ⟨now₀, []⟩ requests, []) ls =
      some (s, trace))
    (hfresh : ((drawnTokens trace).map crypto.hash).Nodup) :
    (∀ i sessionToken principal,
      s.tasks[i]? = some (.authenticate sessionToken, .ret (.principal (some principal))) →
        ∃ t t', InTime crypto config trace i sessionToken principal t t') ∧
    (∀ ls₁ ls₂ x, ls = ls₁ ++ ls₂ →
      exec (Pool.traced serveSession) (startSessions crypto config ⟨now₀, []⟩ requests, []) ls₁ =
        some x →
      ∀ row₁ ∈ x.1.state.sessions, ∀ row ∈ s.state.sessions, row.idHash = row₁.idHash →
        row.absoluteExpiresAt = row₁.absoluteExpiresAt) := by
  have hrecorded := Pool.traced_sound hrun
  constructor
  · intro i sessionToken principal hi
    -- an answer is the end of a run of its program, whose calls the trace has
    obtain ⟨p, hp, hreach⟩ := hrecorded.left i _ _ hi
    obtain ⟨request, -, heq⟩ := Option.map_eq_some_iff.mp (List.getElem?_map .. ▸ hp)
    obtain ⟨rfl, rfl⟩ := Prod.mk.inj heq
    obtain ⟨found, hreach', hfound⟩ := Prog.reaches_map_ret hreach
    obtain rfl := SessionResponse.principal.inj hfound
    exact authenticated_in_time hrecorded.justified hrecorded.replays hfresh hreach'
  · rintro ls₁ ls₂ ⟨s₁, trace₁⟩ rfl hrun₁ row₁ hrow₁ row hrow hid
    have hrecorded₁ := Pool.traced_sound hrun₁
    rw [exec_append, hrun₁] at hrun
    obtain ⟨later, rfl⟩ : ∃ later, trace = trace₁ ++ later := Pool.traced_prefix hrun
    -- both rows come from one creation, as a token is drawn once
    obtain ⟨t₁, since₁, hcreated₁, hexpires₁, -⟩ :=
      (rows_origin hrecorded₁.justified hrecorded₁.replays row₁ hrow₁).created
    obtain ⟨t, since, hcreated, hexpires, -⟩ :=
      (rows_origin hrecorded.justified hrecorded.replays row hrow).created
    rw [hid] at hcreated
    obtain ⟨rfl, -⟩ := creation_unique hrecorded.justified hfresh hcreated (hcreated₁.append later)
    rw [hexpires, hexpires₁]

end Lifetime

/-- A login, and a request with its cookie ten minutes later. -/
def loginRequests : List SessionRequest :=
  [.createSession ⟨"user-a", "workspace-a", "organization-a", ["Viewer"], ["deployments:read"], none,
    none, none, none, none⟩, .authenticate sampleCookie]

def loginTurns : List (ℕ × SessionChoice) :=
  [(0, ⟨0, sampleCookie, ⟨"", ""⟩, 0⟩), (0, ⟨0, sampleCsrfToken, ⟨"", ""⟩, 0⟩)] ++
    [0, 2].map (sessionTurn 0) ++ [600000, 0, 0, 0, 0, 3].map (sessionTurn 1)

def samplePrincipal : AuthPrincipal :=
  ⟨"user-a", "subject-a", "workspace-a", "organization-a", sampleCrypto.hash sampleCookie, ["Viewer"],
    ["deployments:read"], sampleCsrfToken⟩

/-- The request is let in, in time. -/
theorem session_lifetime_login :
    ∃ trace t t', InTime sampleCrypto sampleSessionConfig trace 1 sampleCookie samplePrincipal t t' := by
  obtain ⟨⟨s, trace⟩, hrun, hx⟩ := (Option.any_eq_true ..).mp
    (show (exec (Pool.traced serveSession)
        (startSessions sampleCrypto sampleSessionConfig ⟨0, []⟩ loginRequests, []) loginTurns).any
      (fun x => decide (((drawnTokens x.2).map sampleCrypto.hash).Nodup ∧
        (x.1.tasks[1]?.map fun task => (task.1, task.2.returned)) =
          some (.authenticate sampleCookie, some (.principal (some samplePrincipal))))) = true by
      decide +kernel)
  obtain ⟨hfresh, htask⟩ := of_decide_eq_true hx
  obtain ⟨⟨q, p⟩, hi, heq⟩ := Option.map_eq_some_iff.mp htask
  obtain ⟨rfl, hret⟩ := Prod.mk.inj heq
  obtain rfl : p = _ := Prog.returned_eq.mp hret
  obtain ⟨t, t', h⟩ := (session_lifetime_bounded hrun hfresh).1 1 _ _ hi
  exact ⟨trace, t, t', h⟩

end NexCause
