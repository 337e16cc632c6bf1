/-
NexCause/LoginAttempts.lean

Login attempts of the deployment manager: the row of one state, in any number
of callbacks with that state and runs of the cleanup job.

`consumeLoginAttempt` reads the row and then deletes it.  That it returns an
attempt once rests on the deletion alone: it waits for whoever deletes the row
at the same time, finds nothing once that one has committed, and Prisma then
raises.  So the call that returns the attempt is the one that has published the
deletion (`login_attempt_consumed_once`).
-/
import Mathlib.Data.Int.Notation
import NexCause.ReadCommitted

namespace NexCause

open Program Transition ReadCommitted

/-! ### Programs -/

/-- A row of `AuthLoginAttempt`. -/
structure AuthLoginAttempt where
  stateHash : String
  nonce : String
  codeVerifierEncrypted : String
  returnTo : Option String
  expiresAt : ℤ
  deriving DecidableEq, Repr

/-- What the callback gets. -/
structure ConsumedLoginAttempt where
  nonce : String
  codeVerifier : String
  returnTo : Option String
  deriving DecidableEq, Repr

inductive LoginError
  /-- P2025 -/
  | recordNotFound
  /-- P2002 -/
  | uniqueConstraint
  /-- `crypto.decrypt` throws -/
  | decryption
  deriving DecidableEq, Repr

/-- `new Date()` -/
inductive ClockCall
  | now
  deriving DecidableEq, Repr

abbrev ClockCall.Result : ClockCall → Type
  | .now => ℕ

abbrev LoginAction (α : Type) : Type :=
  Client AuthLoginAttempt ClockCall ClockCall.Result LoginError α

/-- `tx.authLoginAttempt.delete({ where: { stateHash } })` -/
def deleteLoginAttempt (tx : ℕ) : LoginAction Unit := do
  if !(← ask (.delete tx fun _ => true)) then
    throw .recordNotFound

section Programs

variable (decrypt : String → Option String)

/-- `consumeLoginAttempt`, within its transaction. -/
def consumeLoginAttemptBody (tx : ℕ) : LoginAction (Option ConsumedLoginAttempt) := do
  match ← ask (.select tx) with
  | none => return none
  | some attempt =>
      if attempt.expiresAt ≤ (← ask (.outside .now)) then
        deleteLoginAttempt tx
        return none
      deleteLoginAttempt tx
      match decrypt attempt.codeVerifierEncrypted with
      | none => throw .decryption
      | some codeVerifier => return some ⟨attempt.nonce, codeVerifier, attempt.returnTo⟩

/-- `consumeLoginAttempt`, for the state of the row. -/
def consumeLoginAttempt : LoginAction (Option ConsumedLoginAttempt) :=
  transaction (consumeLoginAttemptBody decrypt)

/-- `cleanup`: the transaction deletes the attempts past their time, and then
sessions. -/
def cleanupLoginAttempts : LoginAction Bool := do
  let now : ℕ ← ask (.outside .now)
  transaction fun tx => do
    let deleted ← ask (.delete tx fun attempt => attempt.expiresAt ≤ (now : ℤ))
    ask (.other tx)
    return deleted

inductive LoginRequest
  | consumeLoginAttempt
  | cleanup
  deriving DecidableEq, Repr

inductive LoginResponse
  | attempt (a : Option ConsumedLoginAttempt)
  | cleaned (deleted : Bool)
  deriving DecidableEq, Repr

/-- The program of a request. -/
def LoginRequest.program : LoginRequest → LoginAction LoginResponse
  | .consumeLoginAttempt => do
      return .attempt (← NexCause.consumeLoginAttempt decrypt)
  | .cleanup => do
      return .cleaned (← cleanupLoginAttempts)

end Programs

/-- A clock, and the time that passes before it is read. -/
def serveClock : Service ClockCall ClockCall.Result LoginError ℕ ℕ
  | .now, elapsed, now => (.ok (now + elapsed), now + elapsed)

/-- Requests in progress. -/
abbrev LoginPool : Type :=
  Pool LoginRequest (Statement AuthLoginAttempt ClockCall) (Statement.Result ClockCall.Result)
    LoginError LoginResponse (Db AuthLoginAttempt × ℕ)

abbrev LoginTrace : Type := Record AuthLoginAttempt ClockCall ClockCall.Result LoginError

/-- The step function. -/
def loginStep : LoginPool × LoginTrace → ℕ × ℕ → Option (LoginPool × LoginTrace) :=
  Pool.guarded Statement.free (ReadCommitted.serve .uniqueConstraint serveClock)

/-- Requests with their programs. -/
def loginTasks (decrypt : String → Option String) (requests : List LoginRequest) :
    List (LoginRequest × LoginAction LoginResponse) :=
  requests.map fun q => (q, q.program decrypt)

/-- Requests that have not begun, with the row of their state. -/
def startLogins (decrypt : String → Option String) (row : Option AuthLoginAttempt) (now : ℕ)
    (requests : List LoginRequest) : LoginPool × LoginTrace :=
  (.start (Db.quiet row, now) (loginTasks decrypt requests), [])

/-! ### Discipline -/

theorem deleteLoginAttempt_disciplined (tx : ℕ) :
    (deleteLoginAttempt tx).Meets (discipline _ _ false) (fun _ o => o.map Open.tx = some tx)
      (some ⟨tx, none⟩) := by
  have hdelete : (ask (.delete tx fun _ => true) : LoginAction Bool).Meets (discipline _ _ false)
      (fun _ o => o.map Open.tx = some tx) (some ⟨tx, none⟩) := by
    apply ask_disciplined
    · exact ⟨rfl, rfl⟩
    · rintro (e | _ | _) <;> rfl
  apply hdelete.bind
  · intro deleted o ho
    cases deleted
    · exact ho
    · exact ho
  · exact fun _ _ ho => ho

variable {decrypt : String → Option String}

theorem consumeLoginAttempt_disciplined :
    (consumeLoginAttempt decrypt).Meets (discipline _ _ false) (fun _ o => o = none) none := by
  apply transaction_disciplined
  intro tx
  have hselect : (ask (.select tx) : LoginAction (Option AuthLoginAttempt)).Meets
      (discipline _ _ false) (fun _ o => o = some ⟨tx, none⟩) (some ⟨tx, none⟩) :=
    ask_disciplined rfl fun _ => rfl
  apply hselect.bind
  · rintro found _ rfl
    cases found with
    -- no such attempt
    | none => rfl
    | some attempt =>
      have hnow : (ask (.outside .now) : LoginAction ℕ).Meets (discipline _ _ false)
          (fun _ o => o = some ⟨tx, none⟩) (some ⟨tx, none⟩) :=
        ask_disciplined trivial fun _ => rfl
      apply hnow.bind
      · rintro now _ rfl
        show Prog.Meets _ (if _ then _ else _) _ _
        -- lapsed or not, the row is deleted before anything else is done
        split
        · apply (deleteLoginAttempt_disciplined tx).bind
          · exact fun _ o ho => ho
          · exact fun _ o ho => ho
        · apply (deleteLoginAttempt_disciplined tx).bind
          · intro _ o ho
            cases decrypt attempt.codeVerifierEncrypted
            · exact ho
            · exact ho
          · exact fun _ o ho => ho
      · rintro e _ rfl
        rfl
  · rintro e _ rfl
    rfl

theorem cleanupLoginAttempts_disciplined :
    cleanupLoginAttempts.Meets (discipline _ _ false) (fun _ o => o = none) none := by
  have hnow : (ask (.outside .now) : LoginAction ℕ).Meets (discipline _ _ false)
      (fun _ o => o = none) none := ask_disciplined trivial fun _ => rfl
  apply hnow.bind
  · rintro now _ rfl
    apply transaction_disciplined
    intro tx
    have hdelete : (ask (.delete tx fun a => a.expiresAt ≤ (now : ℤ)) : LoginAction Bool).Meets
        (discipline _ _ false) (fun _ o => o.map Open.tx = some tx) (some ⟨tx, none⟩) := by
      apply ask_disciplined
      · exact ⟨rfl, rfl⟩
      · rintro (e | _ | _) <;> rfl
    apply hdelete.bind
    · intro deleted o ho
      have hother : (ask (.other tx) : LoginAction Unit).Meets (discipline _ _ false)
          (fun _ o => o.map Open.tx = some tx) o := ask_disciplined ho fun _ => ho
      exact hother.bind (fun _ _ h => h) (fun _ _ h => h)
    · exact fun _ _ ho => ho
  · exact fun _ _ ho => ho

theorem loginTasks_disciplined (requests : List LoginRequest) :
    ∀ task ∈ loginTasks decrypt requests, Disciplined false task.2 := by
  intro task htask
  obtain ⟨q, -, rfl⟩ := List.mem_map.mp htask
  cases q with
  | consumeLoginAttempt =>
    exact consumeLoginAttempt_disciplined.bind (fun _ _ _ => trivial) (fun _ _ _ => trivial)
  | cleanup =>
    exact cleanupLoginAttempts_disciplined.bind (fun _ _ _ => trivial) (fun _ _ _ => trivial)

/-! ### What a call has done when it returns an attempt -/

theorem deleteLoginAttempt_then {tx : ℕ} {f : Unit → LoginAction (Option ConsumedLoginAttempt)}
    {own : List (Exchange (Statement AuthLoginAttempt ClockCall)
      (Statement.Result ClockCall.Result) LoginError)} {a : Option ConsumedLoginAttempt}
    (h : (deleteLoginAttempt tx >>= f).Reaches own (.ret a)) :
    ∃ own', own = ⟨.delete tx fun _ => true, .ok true⟩ :: own' ∧ (f ()).Reaches own' (.ret a) := by
  unfold deleteLoginAttempt at h
  rw [Prog.bind_assoc] at h
  obtain ⟨deleted, own', rfl, h'⟩ := Prog.reaches_perform_ret h
  cases deleted with
  | true => exact ⟨own', rfl, h'⟩
  | false => cases (Prog.reaches_throw h').2

/-- It has read the attempt, and deleted it before its time. -/
theorem consumeLoginAttempt_returned {a : ConsumedLoginAttempt}
    {own : List (Exchange (Statement AuthLoginAttempt ClockCall)
      (Statement.Result ClockCall.Result) LoginError)}
    (h : (consumeLoginAttempt decrypt).Reaches own (.ret (some a))) :
    ∃ tx attempt t codeVerifier,
      own = [⟨.begin, .ok tx⟩, ⟨.select tx, .ok (some attempt)⟩, ⟨.outside .now, .ok t⟩,
        ⟨.delete tx fun _ => true, .ok true⟩, ⟨.commit tx, .ok ()⟩] ∧
      (t : ℤ) < attempt.expiresAt ∧ decrypt attempt.codeVerifierEncrypted = some codeVerifier ∧
      a = ⟨attempt.nonce, codeVerifier, attempt.returnTo⟩ := by
  obtain ⟨tx, own, rfl, h₁⟩ := transaction_returned h
  obtain ⟨found, own₁, rfl, h₂⟩ := Prog.reaches_perform_ret h₁
  cases found with
  | none => cases (Prog.reaches_ret h₂).2
  | some attempt =>
    obtain ⟨t, own₂, rfl, h₃⟩ := Prog.reaches_perform_ret h₂
    by_cases hexpired : attempt.expiresAt ≤ (t : ℤ)
    · rw [if_pos hexpired] at h₃
      obtain ⟨own₃, rfl, h₄⟩ := deleteLoginAttempt_then h₃
      cases (Prog.reaches_ret h₄).2
    · rw [if_neg hexpired] at h₃
      obtain ⟨own₃, rfl, h₄⟩ := deleteLoginAttempt_then h₃
      cases hdecrypt : decrypt attempt.codeVerifierEncrypted with
      | none =>
        rw [hdecrypt] at h₄
        cases (Prog.reaches_throw h₄).2
      | some codeVerifier =>
        rw [hdecrypt] at h₄
        obtain ⟨rfl, hret⟩ := Prog.reaches_ret h₄
        obtain rfl := Option.some.inj (Prog.ret.inj hret)
        exact ⟨tx, attempt, t, codeVerifier, rfl, Int.not_le.mp hexpired, hdecrypt, rfl⟩

/-! ### Runs -/

section Runs

variable {row : Option AuthLoginAttempt} {now : ℕ} {requests : List LoginRequest}
  {ls : List (ℕ × ℕ)} {x : LoginPool × LoginTrace}

/-- Whoever selects the row finds it as it was in the beginning, or not at all. -/
theorem selected_attempt (hrun : exec loginStep (startLogins decrypt row now requests) ls = some x) :
    ∀ i tx attempt, (i, ⟨.select tx, .ok (some attempt)⟩) ∈ x.2 → row = some attempt := by
  have hkeep : ∀ x l y,
      (Orderly false row now .uniqueConstraint serveClock (loginTasks decrypt requests) x ∧
        ∀ i tx attempt, (i, ⟨.select tx, .ok (some attempt)⟩) ∈ x.2 → row = some attempt) →
      True → loginStep x l = some y →
      (Orderly false row now .uniqueConstraint serveClock (loginTasks decrypt requests) y ∧
        ∀ i tx attempt, (i, ⟨.select tx, .ok (some attempt)⟩) ∈ y.2 → row = some attempt) := by
    rintro ⟨x, trace⟩ l ⟨y, trace'⟩ ⟨hx, hselected⟩ - hstep
    refine ⟨hx.step (loginTasks_disciplined requests) hstep, fun i tx attempt hmem => ?_⟩
    obtain ⟨q, c, k, hq, -, -, rfl⟩ := Pool.traced_some (Pool.guarded_some hstep).1
    rcases List.mem_append.mp hmem with hmem | hmem
    · exact hselected i tx attempt hmem
    · -- a selection sees the committed row, because its transaction has not written
      obtain ⟨rfl, heq⟩ := Prod.mk.inj (List.mem_singleton.mp hmem)
      obtain ⟨rfl, hanswer⟩ := Exchange.mk.inj heq
      have hversion := hx.serial.sound.version (hx.pre (loginTasks_disciplined requests) hq)
      have hfound : x.state.1.row = some attempt :=
        hversion.symm.trans (Except.ok.inj (eq_of_heq hanswer)).symm
      rcases hx.serial.row_deleting with hrow | hrow
      · exact hrow.symm.trans hfound
      · rw [hrow] at hfound
        cases hfound
  refine (exec_invariant hkeep ?_ (along_true _ _) hrun).2
  exact ⟨orderly_start _ _ _ _ _ _, fun i tx attempt hmem => (nomatch hmem)⟩

/-- A call that has returned an attempt. -/
theorem returned_attempt (hrun : exec loginStep (startLogins decrypt row now requests) ls = some x)
    {i : ℕ} {a : ConsumedLoginAttempt}
    (hi : x.1.tasks[i]? = some (.consumeLoginAttempt, .ret (.attempt (some a)))) :
    Published x.2 i none ∧
      ∃ (attempt : AuthLoginAttempt) (t : ℕ) (codeVerifier : String), row = some attempt ∧
      (i, ⟨.outside .now, .ok t⟩) ∈ x.2 ∧ (t : ℤ) < attempt.expiresAt ∧
      decrypt attempt.codeVerifierEncrypted = some codeVerifier ∧
      a = ⟨attempt.nonce, codeVerifier, attempt.returnTo⟩ := by
  have horderly := published_once (loginTasks_disciplined requests) hrun
  obtain ⟨p, hp, hreach⟩ := horderly.recorded.left i _ _ hi
  obtain ⟨request, -, heq⟩ := Option.map_eq_some_iff.mp (List.getElem?_map .. ▸ hp)
  obtain ⟨rfl, rfl⟩ := Prod.mk.inj heq
  obtain ⟨found, hreach', hfound⟩ := Prog.reaches_map_ret hreach
  obtain rfl := LoginResponse.attempt.inj hfound
  obtain ⟨tx, attempt, t, codeVerifier, hown, ht, hdecrypt, ha⟩ :=
    consumeLoginAttempt_returned hreach'
  constructor
  · -- its commit publishes the deletion
    obtain ⟨before, after, htrace, hbefore, -⟩ :=
      ownTrace_split (show ownTrace x.2 i = [_, _, _, _] ++ _ :: [] from hown)
    refine ⟨before, tx, after, htrace, ?_⟩
    rw [hbefore]
    rfl
  · have hmem : ∀ e, e ∈ ownTrace x.2 i → (i, e) ∈ x.2 := fun e he => mem_ownTrace.mp he
    refine ⟨attempt, t, codeVerifier, ?_, hmem _ ?_, ht, hdecrypt, ha⟩
    · apply selected_attempt hrun i tx
      apply hmem
      rw [hown]
      exact List.mem_cons_of_mem _ List.mem_cons_self
    · rw [hown]
      exact List.mem_cons_of_mem _ (List.mem_cons_of_mem _ List.mem_cons_self)

/-- **A login attempt is consumed once.**  In a run of any callbacks with one
state and any runs of the cleanup job, at most one call returns an attempt.  It
is the row as it was in the beginning, its time had not come when the call read
the clock, and it is gone. -/
theorem login_attempt_consumed_once
    (hrun : exec loginStep (startLogins decrypt row now requests) ls = some x) :
    (∀ (i j : ℕ) (a b : ConsumedLoginAttempt),
      x.1.tasks[i]? = some (.consumeLoginAttempt, .ret (.attempt (some a))) →
      x.1.tasks[j]? = some (.consumeLoginAttempt, .ret (.attempt (some b))) → i = j) ∧
    ∀ (i : ℕ) (a : ConsumedLoginAttempt),
      x.1.tasks[i]? = some (.consumeLoginAttempt, .ret (.attempt (some a))) →
      x.1.state.1.row = none ∧
      ∃ (attempt : AuthLoginAttempt) (t : ℕ) (codeVerifier : String), row = some attempt ∧
        (i, ⟨.outside .now, .ok t⟩) ∈ x.2 ∧
        (t : ℤ) < attempt.expiresAt ∧
        decrypt attempt.codeVerifierEncrypted = some codeVerifier ∧
        a = ⟨attempt.nonce, codeVerifier, attempt.returnTo⟩ := by
  have horderly := published_once (loginTasks_disciplined requests) hrun
  constructor
  · intro i j a b hi hj
    exact horderly.serial.unique i j _ _ (returned_attempt hrun hi).1 (returned_attempt hrun hj).1
  · intro i a hi
    obtain ⟨hpublished, hread⟩ := returned_attempt hrun hi
    exact ⟨(horderly.serial.published i none hpublished).1, hread⟩

end Runs

/-- A login attempt, and a cipher that knows its code verifier. -/
def sampleAttempt : AuthLoginAttempt :=
  ⟨"state-hash", "nonce-a", "v1.iv.tag.verifier-a", some "/deployments", 600000⟩

def sampleDecrypt : String → Option String :=
  fun s => if s = "v1.iv.tag.verifier-a" then some "verifier-a" else none

/-- Two callbacks that both read the attempt.  The second one waits for the
first one to commit, and then raises. -/
def twoCallbacks : List (ℕ × ℕ) :=
  [(0, 0), (1, 0), (0, 0), (1, 0), (0, 1000), (1, 2), (0, 0), (0, 0), (1, 0), (1, 0)]

/-- The first callback has the attempt, the row is gone, and no other one has it. -/
theorem login_attempt_two_callbacks :
    ∃ x, exec loginStep (startLogins sampleDecrypt (some sampleAttempt) 0
        [.consumeLoginAttempt, .consumeLoginAttempt]) twoCallbacks = some x ∧
      x.1.tasks[0]? = some (.consumeLoginAttempt,
        .ret (.attempt (some ⟨"nonce-a", "verifier-a", some "/deployments"⟩))) ∧
      x.1.state.1.row = none ∧
      ∀ (j : ℕ) (b : ConsumedLoginAttempt),
        x.1.tasks[j]? = some (.consumeLoginAttempt, .ret (.attempt (some b))) → 0 = j := by
  obtain ⟨x, hrun, hx⟩ := (Option.any_eq_true ..).mp
    (show (exec loginStep (startLogins sampleDecrypt (some sampleAttempt) 0
        [.consumeLoginAttempt, .consumeLoginAttempt]) twoCallbacks).any (fun x => decide
      ((x.1.tasks[0]?.map fun task => (task.1, task.2.returned)) = some (.consumeLoginAttempt,
        some (.attempt (some ⟨"nonce-a", "verifier-a", some "/deployments"⟩))))) = true by decide)
  obtain ⟨⟨q, p⟩, hi, heq⟩ := Option.map_eq_some_iff.mp (of_decide_eq_true hx)
  obtain ⟨rfl, hret⟩ := Prod.mk.inj heq
  obtain rfl : p = _ := Prog.returned_eq.mp hret
  obtain ⟨honce, hgone⟩ := login_attempt_consumed_once hrun
  exact ⟨x, hrun, hi, (hgone 0 _ hi).1, fun j b hj => honce 0 j _ b hi hj⟩

end NexCause
