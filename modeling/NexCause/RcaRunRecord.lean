/-
NexCause/RcaRunRecord.lean

Is the record of an RCA run coherent?  The service is that of `RcaLedger`, with
a clock, and no call of the repository raises.  A task issues a call at one
instant and goes on at a later one; `NOW()`, the time at which its transaction
began, lies between.

`mark_running` of a failed run takes back the error message, but not the time
of completion, so a run that is retried is running and completed at once.  This
is the only defect: the record is coherent along a run exactly if no failed run
is claimed (`record_coherent_iff`).  The invariant `Dated` says what every
record satisfies, retried or not: the task at work claimed the run before it
issued the call it awaits.
-/
import Mathlib.Data.List.GetD
import Mathlib.Order.Nat
import NexCause.RcaOrphans

namespace NexCause

open Transition

variable {Report : Type}

/-! ### The service with a clock -/

/-- The task awaits a call of `RCARepository`. -/
def RunRcaPc.callsRepository : RunRcaPc Report → Bool
  | .markRunning => true
  | .getOrCreateThread => true
  | .completeRun _ => true
  | .failRun _ => true
  | _ => false

/-- The instant of the last step, and for each task the one at which it issued
the call it awaits. -/
structure RunClock where
  now : ℕ
  issued : List ℕ
  deriving DecidableEq, Repr

/-- What a step at an instant leaves of the clock. -/
def RunClock.tick (c : RunClock) (instant : ℕ) : ServiceLabel Report → RunClock
  | .agent .startRun => ⟨instant, c.issued ++ [instant]⟩
  | .agent .pollSchedule => ⟨instant, c.issued ++ [instant]⟩
  | .agent (.task i _) => ⟨instant, c.issued.set i instant⟩
  | _ => ⟨instant, c.issued⟩

/-- The step comes after the last one; a call of the repository returns, and
its transaction began after the call was issued. -/
def timely (x : AgentState Report × RunClock) (l : ℕ × ServiceLabel Report) : Bool :=
  decide (x.2.now ≤ l.1) &&
    match l.2 with
    | .agent (.task i o) =>
        match x.1.tasks[i]?, o with
        | some pc, .returns now _ =>
            !pc.callsRepository || (decide (x.2.issued.getD i 0 ≤ now) && decide (now ≤ l.1))
        | some pc, _ => !pc.callsRepository
        | none, _ => true
    | _ => true

/-- The step function. -/
def recordStep (x : AgentState Report × RunClock) (l : ℕ × ServiceLabel Report) :
    Option (AgentState Report × RunClock) :=
  if timely x l then (serviceStep x.1 l.2).map fun t => (t, x.2.tick l.1 l.2) else none

/-- A run as it is created, with its events, maybe a thread, and no task yet. -/
def createdRun (id : String) (events : List RcaRunEvent) (thread : Option RcaAgentThread) (now : ℕ) :
    AgentState Report × RunClock :=
  (⟨⟨⟨id, .pending, none, none, none, none⟩, events, thread⟩, [], 0⟩, ⟨now, []⟩)

/-! ### Coherent records -/

/-- The columns agree with the status. -/
structure RcaRun.Coherent (run : RcaRun Report) : Prop where
  pending : run.status = .pending →
    run.startedAt = none ∧ run.completedAt = none ∧ run.result = none ∧ run.errorMessage = none
  running : run.status = .running →
    run.startedAt.isSome ∧ run.completedAt = none ∧ run.errorMessage = none ∧ run.result = none
  completed : run.status = .completed →
    run.startedAt.isSome ∧ run.completedAt.isSome ∧ run.result.isSome ∧ run.errorMessage = none
  failed : run.status = .failed →
    run.startedAt.isSome ∧ run.completedAt.isSome ∧ run.errorMessage.isSome
  ordered : ∀ started completed, run.startedAt = some started →
    run.completedAt = some completed → started ≤ completed

/-- What holds of retried runs as well. -/
structure RcaRun.Recorded (run : RcaRun Report) : Prop where
  pending : run.status = .pending →
    run.startedAt = none ∧ run.completedAt = none ∧ run.result = none ∧ run.errorMessage = none
  running : run.status = .running →
    run.startedAt.isSome ∧ run.errorMessage = none ∧ run.result = none
  completed : run.status = .completed →
    run.startedAt.isSome ∧ run.completedAt.isSome ∧ run.result.isSome ∧ run.errorMessage = none
  failed : run.status = .failed →
    run.startedAt.isSome ∧ run.completedAt.isSome ∧ run.errorMessage.isSome ∧ run.result = none
  ordered : ∀ started completed, run.startedAt = some started →
    run.completedAt = some completed → started ≤ completed

/-- A record is coherent unless a run is running and completed. -/
theorem RcaRun.Recorded.coherent_iff {run : RcaRun Report} (h : run.Recorded) :
    run.Coherent ↔ (run.status = .running → run.completedAt = none) := by
  constructor
  · intro hc hrunning
    exact (hc.running hrunning).2.1
  · intro hnone
    refine ⟨h.pending, ?_, h.completed, ?_, h.ordered⟩
    · intro hrunning
      obtain ⟨hstarted, herror, hresult⟩ := h.running hrunning
      exact ⟨hstarted, hnone hrunning, herror, hresult⟩
    · intro hfailed
      obtain ⟨hstarted, hcompleted, herror, -⟩ := h.failed hfailed
      exact ⟨hstarted, hcompleted, herror⟩

/-! ### What a step does to the record -/

/-- A claim. -/
def RcaRun.claim (run : RcaRun Report) (now : ℕ) : RcaRun Report :=
  { run with status := .running, startedAt := some (run.startedAt.getD now), errorMessage := none }

/-- One resumption of a task whose repository call returns: it leaves the row
alone, claims it, completes it, or fails it. -/
theorem runRca_record {pc pc' : RunRcaPc Report} {o : Outcome Report} {st st' : RunStore Report}
    (h : runRca pc o st = some (st', pc'))
    (hreturns : pc.callsRepository = true → ∃ now newId, o = .returns now newId) :
    (st'.run = st.run ∧ (pc'.AtWork → pc.AtWork) ∧ (pc = .markRunning → ¬ Claimable st)) ∨
    (∃ now newId, pc = .markRunning ∧ o = .returns now newId ∧ Claimable st ∧
      st'.run = st.run.claim now ∧ pc' = .publishRunning) ∨
    (∃ report now newId, pc = .completeRun report ∧ o = .returns now newId ∧
      st' = completeRun now report st ∧ ¬ pc'.AtWork) ∨
    (∃ e now newId, pc = .failRun e ∧ o = .returns now newId ∧
      st' = failRun now e st ∧ ¬ pc'.AtWork) := by
  cases pc with
  | markRunning =>
    obtain ⟨now, newId, rfl⟩ := hreturns rfl
    by_cases hst : st.run.status = .pending ∨ st.run.status = .failed
    · right; left
      simp only [runRca, markRunning, if_pos hst, Option.some.injEq, Prod.mk.injEq] at h
      obtain ⟨rfl, rfl⟩ := h
      exact ⟨now, newId, rfl, rfl, hst, rfl, rfl⟩
    · left
      simp only [runRca, markRunning_skips hst, Option.some.injEq, Prod.mk.injEq] at h
      obtain ⟨rfl, rfl⟩ := h
      exact ⟨rfl, id, fun _ => hst⟩
  | completeRun report =>
    obtain ⟨now, newId, rfl⟩ := hreturns rfl
    obtain ⟨rfl, rfl⟩ := Prod.mk.inj (Option.some.inj h)
    exact .inr (.inr (.inl ⟨report, now, newId, rfl, rfl, rfl, id⟩))
  | failRun e =>
    obtain ⟨now, newId, rfl⟩ := hreturns rfl
    obtain ⟨rfl, rfl⟩ := Prod.mk.inj (Option.some.inj h)
    exact .inr (.inr (.inr ⟨e, now, newId, rfl, rfl, rfl, id⟩))
  | getOrCreateThread =>
    obtain ⟨now, newId, rfl⟩ := hreturns rfl
    obtain ⟨rfl, rfl⟩ := Prod.mk.inj (Option.some.inj h)
    exact .inl ⟨getOrCreateThread_run newId st, fun _ => trivial, by rintro ⟨⟩⟩
  | _ =>
    -- no other await has to do with the row
    left
    cases o <;> simp only [runRca, Option.some.injEq, Prod.mk.injEq, reduceCtorEq] at h
    all_goals
      obtain ⟨rfl, rfl⟩ := h
      exact ⟨rfl, by simp [RunRcaPc.AtWork], by rintro ⟨⟩⟩

/-! ### The invariant -/

/-- The record is one of a run that may have been retried; at most one task is
at work, on a running run, and issued its call after the start. -/
structure Dated (x : AgentState Report × RunClock) : Prop where
  length : x.2.issued.length = x.1.tasks.length
  issued : ∀ i, x.2.issued.getD i 0 ≤ x.2.now
  unique : ∀ {i j : ℕ} {p q : RunRcaPc Report}, x.1.tasks[i]? = some p → x.1.tasks[j]? = some q →
    p.AtWork → q.AtWork → i = j
  working : ∀ {i : ℕ} {p : RunRcaPc Report}, x.1.tasks[i]? = some p → p.AtWork →
    x.1.store.run.status = .running ∧
      ∀ started, x.1.store.run.startedAt = some started → started ≤ x.2.issued.getD i 0
  past : ∀ started, x.1.store.run.startedAt = some started → started ≤ x.2.now
  recorded : x.1.store.run.Recorded

theorem dated_created (id : String) (events : List RcaRunEvent) (thread : Option RcaAgentThread)
    (now : ℕ) : Dated (createdRun id events thread now : AgentState Report × RunClock) := by
  refine ⟨rfl, ?_, ?_, ?_, ?_, ?_⟩
  · intro i
    simp [createdRun]
  · intro i j p q hp
    simp [createdRun] at hp
  · intro i p hp
    simp [createdRun] at hp
  · intro started h
    cases h
  · constructor <;> simp [createdRun]

variable {x y : AgentState Report × RunClock}

/-- A step that leaves the row alone, and after which only those are at work who
were. -/
theorem Dated.same_row (h : Dated x) (hlength : y.2.issued.length = y.1.tasks.length)
    (hissued : ∀ i, y.2.issued.getD i 0 ≤ y.2.now) (hrow : y.1.store.run = x.1.store.run)
    (hnow : x.2.now ≤ y.2.now)
    (hold : ∀ i p, y.1.tasks[i]? = some p → p.AtWork →
      ∃ q, x.1.tasks[i]? = some q ∧ q.AtWork ∧ x.2.issued.getD i 0 ≤ y.2.issued.getD i 0) :
    Dated y := by
  refine ⟨hlength, hissued, ?_, ?_, ?_, hrow ▸ h.recorded⟩
  · intro i j p q hp hq hpw hqw
    obtain ⟨p', hp', hpw', -⟩ := hold i p hp hpw
    obtain ⟨q', hq', hqw', -⟩ := hold j q hq hqw
    exact h.unique hp' hq' hpw' hqw'
  · intro i p hp hpw
    obtain ⟨p', hp', hpw', hle⟩ := hold i p hp hpw
    obtain ⟨hrunning, hstart⟩ := h.working hp' hpw'
    rw [hrow]
    exact ⟨hrunning, fun started hs => (hstart started hs).trans hle⟩
  · intro started hs
    rw [hrow] at hs
    exact (h.past started hs).trans hnow

/-- A new task is not at work. -/
theorem Dated.spawn (h : Dated x) {instant : ℕ} (hnow : x.2.now ≤ instant) (polled : ℕ) :
    Dated (⟨x.1.store, x.1.tasks ++ [.markRunning], polled⟩, ⟨instant, x.2.issued ++ [instant]⟩) := by
  have hget : ∀ i, (x.2.issued ++ [instant]).getD i 0 ≤ instant := by
    intro i
    rw [List.getD_eq_getElem?_getD]
    cases hi : (x.2.issued ++ [instant])[i]? with
    | none => exact Nat.zero_le _
    | some n =>
      rcases getElem?_concat_some hi with ⟨-, rfl⟩ | hi
      · exact le_rfl
      · have := h.issued i
        rw [List.getD_eq_getElem?_getD, hi] at this
        exact this.trans hnow
  apply h.same_row
  · simp [h.length]
  · exact hget
  · rfl
  · exact hnow
  · intro i p hp hw
    rcases getElem?_concat_some hp with ⟨-, rfl⟩ | hp
    · exact hw.elim
    · have hlt : i < x.2.issued.length := by
        rw [h.length]
        exact (List.getElem?_eq_some_iff.mp hp).1
      refine ⟨p, hp, hw, ?_⟩
      rw [List.getD_append _ _ _ _ hlt]

/-- The instants of a task that goes on. -/
theorem Dated.issued_set (h : Dated x) {instant : ℕ} (hnow : x.2.now ≤ instant) (i j : ℕ) :
    x.2.issued.getD j 0 ≤ (x.2.issued.set i instant).getD j 0 ∧
      (x.2.issued.set i instant).getD j 0 ≤ instant := by
  have hj := (h.issued j).trans hnow
  rw [List.getD_eq_getElem?_getD, List.getD_eq_getElem?_getD] at *
  rw [List.getElem?_set]
  by_cases hij : i = j
  · subst hij
    rw [if_pos rfl]
    split
    · exact ⟨hj, le_rfl⟩
    · rename_i hlt
      rw [List.getElem?_eq_none (by omega)]
      exact ⟨le_rfl, Nat.zero_le _⟩
  · rw [if_neg hij]
    exact ⟨le_rfl, hj⟩

/-- A claim takes a run that nobody works on. -/
theorem Dated.claim (h : Dated x) {i now instant : ℕ} {st : RunStore Report}
    (hi : x.1.tasks[i]? = some .markRunning) (hfree : Claimable x.1.store)
    (hst : st.run = x.1.store.run.claim now) (hnow : x.2.now ≤ instant) (hle : now ≤ instant) :
    Dated (⟨st, x.1.tasks.set i .publishRunning, x.1.polled⟩,
      ⟨instant, x.2.issued.set i instant⟩) := by
  have hnobody : ∀ {j : ℕ} {p : RunRcaPc Report}, x.1.tasks[j]? = some p → ¬ p.AtWork := by
    intro j p hp hw
    have hrunning := (h.working hp hw).1
    rcases hfree with hst | hst <;> rw [hrunning] at hst <;> cases hst
  have honly : ∀ {j : ℕ} {p : RunRcaPc Report},
      (x.1.tasks.set i .publishRunning)[j]? = some p → p.AtWork → j = i := by
    intro j p hp hw
    rcases getElem?_set_some hp with ⟨hj, -⟩ | ⟨-, hp⟩
    · exact hj
    · exact absurd hw (hnobody hp)
  have hstarted : ∀ started, st.run.startedAt = some started → started ≤ instant := by
    intro started hs
    rw [hst] at hs
    obtain rfl := Option.some.inj hs
    cases hold : x.1.store.run.startedAt with
    | none => exact hle
    | some old => exact (h.past old hold).trans hnow
  have hself : (x.2.issued.set i instant).getD i 0 = instant := by
    have hlt : i < x.2.issued.length := by
      rw [h.length]
      exact (List.getElem?_eq_some_iff.mp hi).1
    rw [List.getD_eq_getElem?_getD, List.getElem?_set_self hlt]
    rfl
  refine ⟨by simp [h.length], fun j => (h.issued_set hnow i j).2, ?_, ?_, hstarted, ?_⟩
  · intro j k p q hp hq hpw hqw
    rw [honly hp hpw, honly hq hqw]
  · intro j p hp hw
    obtain rfl := honly hp hw
    show st.run.status = .running ∧ ∀ started, st.run.startedAt = some started →
      started ≤ (x.2.issued.set j instant).getD j 0
    rw [hself]
    exact ⟨by rw [hst]; rfl, hstarted⟩
  · -- what the run was before
    show st.run.Recorded
    rw [hst]
    have hold := h.recorded
    rcases hfree with hpending | hfailed
    · obtain ⟨hstart, hcompleted, hresult, -⟩ := hold.pending hpending
      refine ⟨nofun, fun _ => ⟨rfl, rfl, hresult⟩, nofun, nofun, ?_⟩
      intro started completed _ hc
      rw [show (x.1.store.run.claim now).completedAt = x.1.store.run.completedAt from rfl,
        hcompleted] at hc
      cases hc
    · obtain ⟨hstart, -, -, hresult⟩ := hold.failed hfailed
      refine ⟨nofun, fun _ => ⟨rfl, rfl, hresult⟩, nofun, nofun, ?_⟩
      intro started completed hs hc
      obtain ⟨old, hold'⟩ := Option.isSome_iff_exists.mp hstart
      rw [RcaRun.claim, hold'] at hs
      exact hold.ordered started completed (hold'.trans hs) hc

/-- The task at work records an outcome, at a time after it issued the call. -/
theorem Dated.record (h : Dated x) {i instant : ℕ} {pc pc' : RunRcaPc Report} {st : RunStore Report}
    (hi : x.1.tasks[i]? = some pc) (hw : pc.AtWork) (hw' : ¬ pc'.AtWork)
    (hstart : st.run.startedAt = x.1.store.run.startedAt) (hst : st.run.Recorded)
    (hnow : x.2.now ≤ instant) :
    Dated (⟨st, x.1.tasks.set i pc', x.1.polled⟩, ⟨instant, x.2.issued.set i instant⟩) := by
  have hnobody : ∀ {j : ℕ} {p : RunRcaPc Report},
      (x.1.tasks.set i pc')[j]? = some p → ¬ p.AtWork := by
    intro j p hp hpw
    rcases getElem?_set_some hp with ⟨-, rfl⟩ | ⟨hj, hp⟩
    · exact hw' hpw
    · exact hj (h.unique hp hi hpw hw)
  refine ⟨by simp [h.length], fun j => (h.issued_set hnow i j).2, ?_, ?_, ?_, hst⟩
  · intro j k p q hp _ hpw
    exact absurd hpw (hnobody hp)
  · intro j p hp hpw
    exact absurd hpw (hnobody hp)
  · intro started hs
    exact (h.past started (hstart ▸ hs)).trans hnow

/-! ### Steps -/

/-- A task's call of the repository returns, and its transaction began between
the call and the step. -/
theorem timely_returns {i : ℕ} {o : Outcome Report} {pc : RunRcaPc Report} {instant : ℕ}
    (h : timely x (instant, .agent (.task i o)) = true) (hi : x.1.tasks[i]? = some pc)
    (hpc : pc.callsRepository = true) :
    ∃ now newId, o = .returns now newId ∧ x.2.issued.getD i 0 ≤ now ∧ now ≤ instant := by
  unfold timely at h
  simp only [hi, Bool.and_eq_true] at h
  obtain ⟨-, h⟩ := h
  cases o with
  | returns now newId =>
    simp only [hpc, Bool.not_true, Bool.false_or, Bool.and_eq_true, decide_eq_true_eq] at h
    exact ⟨now, newId, rfl, h.1, h.2⟩
  | _ => simp [hpc] at h

/-- What a step of the service with its clock is. -/
theorem recordStep_some {l : ℕ × ServiceLabel Report} (h : recordStep x l = some y) :
    timely x l = true ∧ x.2.now ≤ l.1 ∧ serviceStep x.1 l.2 = some y.1 ∧ y.2 = x.2.tick l.1 l.2 := by
  obtain ⟨htimely, hmap⟩ := Option.ite_none_right_eq_some.mp h
  obtain ⟨t, ht, rfl⟩ := Option.map_eq_some_iff.mp hmap
  refine ⟨htimely, ?_, ht, rfl⟩
  unfold timely at htimely
  rw [Bool.and_eq_true, decide_eq_true_eq] at htimely
  exact htimely.1

/-- No failed run is claimed. -/
def ClaimsFresh (x : AgentState Report × RunClock) (l : ℕ × ServiceLabel Report) : Prop :=
  match l.2 with
  | .agent (.task i _) => x.1.tasks[i]? = some .markRunning → x.1.store.run.status ≠ .failed
  | _ => True

instance [DecidableEq Report] (x : AgentState Report × RunClock) (l : ℕ × ServiceLabel Report) :
    Decidable (ClaimsFresh x l) := by
  unfold ClaimsFresh
  split <;> infer_instance

/-- A step that leaves the row alone. -/
theorem record_same {l : ℕ × ServiceLabel Report} (hrow : y.1.store.run = x.1.store.run)
    (hcoherent : x.1.store.run.Coherent) (hfresh : ClaimsFresh x l) :
    y.1.store.run.Coherent ↔ ClaimsFresh x l := by
  rw [hrow]
  exact iff_of_true hcoherent hfresh

/-- One resumption of a task. -/
theorem task_record {i instant : ℕ} {o : Outcome Report} (h : Dated x)
    (hcoherent : x.1.store.run.Coherent)
    (hstep : recordStep x (instant, .agent (.task i o)) = some y) :
    Dated y ∧ (y.1.store.run.Coherent ↔ ClaimsFresh x (instant, .agent (.task i o))) := by
  obtain ⟨htimely, hnow, hservice, hclock⟩ := recordStep_some hstep
  simp only [serviceStep, agentStep, Option.bind_eq_some_iff, Option.map_eq_some_iff] at hservice
  obtain ⟨pc, hi, ⟨st, pc'⟩, hrun, heq⟩ := hservice
  obtain ⟨y₁, y₂⟩ := y
  obtain rfl : _ = y₁ := heq
  obtain rfl : y₂ = ⟨instant, x.2.issued.set i instant⟩ := hclock
  have hreturns : pc.callsRepository = true → ∃ now newId, o = .returns now newId := by
    intro hpc
    obtain ⟨now, newId, ho, -⟩ := timely_returns htimely hi hpc
    exact ⟨now, newId, ho⟩
  rcases runRca_record hrun hreturns with ⟨hrow, hwork, hclaim⟩ |
    ⟨now, newId, rfl, rfl, hfree, hrow, rfl⟩ | ⟨report, now, newId, rfl, rfl, rfl, hended⟩ |
    ⟨e, now, newId, rfl, rfl, rfl, hended⟩
  · refine ⟨?_, record_same hrow hcoherent ?_⟩
    · apply h.same_row
      · simp [h.length]
      · exact fun j => (h.issued_set hnow i j).2
      · exact hrow
      · exact hnow
      · intro j p hp hw
        have hle := (h.issued_set hnow i j).1
        rcases getElem?_set_some hp with ⟨rfl, rfl⟩ | ⟨-, hp⟩
        · exact ⟨pc, hi, hwork hw, hle⟩
        · exact ⟨p, hp, hw, hle⟩
    · intro hmark
      obtain rfl := Option.some.inj (hi.symm.trans hmark)
      exact fun hfailed => hclaim rfl (.inr hfailed)
  · -- a claim: the time of completion stays what it was
    obtain ⟨_, _, ho, -, hle⟩ := timely_returns htimely hi rfl
    obtain ⟨rfl, -⟩ := Outcome.returns.inj ho
    have hdated := h.claim hi hfree hrow hnow hle
    refine ⟨hdated, ?_⟩
    rw [hdated.recorded.coherent_iff]
    show (st.run.status = .running → st.run.completedAt = none) ↔ _
    rw [hrow]
    show (RcaRunStatus.running = .running → x.1.store.run.completedAt = none) ↔
      (x.1.tasks[i]? = some .markRunning → x.1.store.run.status ≠ .failed)
    constructor
    · intro hnone _ hfailed
      have hcompleted := (hcoherent.failed hfailed).2.1
      rw [hnone rfl] at hcompleted
      cases hcompleted
    · intro hfresh _
      rcases hfree with hpending | hfailed
      · exact (hcoherent.pending hpending).2.1
      · exact absurd hfailed (hfresh hi)
  · -- a completion, by the task at work
    obtain ⟨hrunning, hstart⟩ := h.working hi trivial
    obtain ⟨_, _, ho, hissued, -⟩ := timely_returns htimely hi rfl
    obtain ⟨rfl, -⟩ := Outcome.returns.inj ho
    have hrecorded : (completeRun now report x.1.store).run.Recorded := by
      refine ⟨by rintro ⟨⟩, by rintro ⟨⟩, fun _ => ⟨(h.recorded.running hrunning).1, rfl, rfl, rfl⟩,
        by rintro ⟨⟩, ?_⟩
      intro started completed hs hc
      obtain rfl := Option.some.inj hc
      exact (hstart started hs).trans hissued
    refine ⟨h.record hi trivial hended rfl hrecorded hnow, ?_⟩
    apply iff_of_true (hrecorded.coherent_iff.mpr (by rintro ⟨⟩))
    intro hmark
    cases hi.symm.trans hmark
  · -- a failure, by the task at work
    obtain ⟨hrunning, hstart⟩ := h.working hi trivial
    obtain ⟨_, _, ho, hissued, -⟩ := timely_returns htimely hi rfl
    obtain ⟨rfl, -⟩ := Outcome.returns.inj ho
    have hrecorded : (failRun now e x.1.store).run.Recorded := by
      obtain ⟨hstarted, -, hresult⟩ := h.recorded.running hrunning
      refine ⟨by rintro ⟨⟩, by rintro ⟨⟩, by rintro ⟨⟩, fun _ => ⟨hstarted, rfl, rfl, hresult⟩, ?_⟩
      intro started completed hs hc
      obtain rfl := Option.some.inj hc
      exact (hstart started hs).trans hissued
    refine ⟨h.record hi trivial hended rfl hrecorded hnow, ?_⟩
    apply iff_of_true (hrecorded.coherent_iff.mpr (by rintro ⟨⟩))
    intro hmark
    cases hi.symm.trans hmark

/-- A step that ends tasks. -/
theorem Dated.ended (h : Dated x) {tasks : List (RunRcaPc Report)} {polled instant : ℕ}
    (hlength : tasks.length = x.1.tasks.length) (hnow : x.2.now ≤ instant)
    (hold : ∀ (i : ℕ) (p : RunRcaPc Report), tasks[i]? = some p → p.AtWork →
      x.1.tasks[i]? = some p) :
    Dated (⟨x.1.store, tasks, polled⟩, ⟨instant, x.2.issued⟩) := by
  apply h.same_row
  · exact h.length.trans hlength.symm
  · exact fun i => (h.issued i).trans hnow
  · rfl
  · exact hnow
  · exact fun i p hp hw => ⟨p, hold i p hp hw, hw, le_rfl⟩

/-- **One step** keeps a coherent record coherent exactly if it does not claim a
failed run. -/
theorem recordStep_coherent {l : ℕ × ServiceLabel Report} (h : Dated x)
    (hcoherent : x.1.store.run.Coherent) (hstep : recordStep x l = some y) :
    Dated y ∧ (y.1.store.run.Coherent ↔ ClaimsFresh x l) := by
  obtain ⟨instant, l⟩ := l
  obtain ⟨-, hnow, hservice, hclock⟩ := recordStep_some hstep
  obtain ⟨y₁, y₂⟩ := y
  cases l with
  | crash =>
    obtain rfl := Option.some.inj hservice
    obtain rfl : y₂ = ⟨instant, x.2.issued⟩ := hclock
    refine ⟨h.ended (by simp) hnow ?_, record_same rfl hcoherent trivial⟩
    intro i p hp hw
    obtain ⟨q, -, rfl⟩ := Option.map_eq_some_iff.mp (List.getElem?_map .. ▸ hp)
    exact hw.elim
  | agent l =>
    cases l with
    -- only a task writes the record
    | task i o => exact task_record h hcoherent hstep
    | startRun =>
      obtain rfl := Option.some.inj hservice
      obtain rfl : y₂ = ⟨instant, x.2.issued ++ [instant]⟩ := hclock
      exact ⟨h.spawn hnow x.1.polled, record_same rfl hcoherent trivial⟩
    | pollRead =>
      obtain ⟨-, rfl⟩ := Option.ite_none_right_eq_some.mp hservice |>.imp_right Option.some.inj
      obtain rfl : y₂ = ⟨instant, x.2.issued⟩ := hclock
      exact ⟨h.ended rfl hnow fun _ _ hp _ => hp, record_same rfl hcoherent trivial⟩
    | pollSchedule =>
      obtain ⟨-, rfl⟩ := Option.ite_none_right_eq_some.mp hservice |>.imp_right Option.some.inj
      obtain rfl : y₂ = ⟨instant, x.2.issued ++ [instant]⟩ := hclock
      exact ⟨h.spawn hnow (x.1.polled - 1), record_same rfl hcoherent trivial⟩
    | cancel i =>
      obtain rfl := Option.some.inj hservice
      obtain rfl : y₂ = ⟨instant, x.2.issued⟩ := hclock
      refine ⟨h.ended (by simp) hnow ?_, record_same rfl hcoherent trivial⟩
      intro j p hp hw
      rcases getElem?_set_some hp with ⟨-, rfl⟩ | ⟨-, hp⟩
      · exact hw.elim
      · exact hp

/-- **Coherent records.**  Along every run of the service on a new RCA run, no
call of the repository raising, the record is coherent in every state exactly
if no step claims a failed run. -/
theorem record_coherent_iff {id : String} {events : List RcaRunEvent}
    {thread : Option RcaAgentThread} {now : ℕ} {ls : List (ℕ × ServiceLabel Report)}
    (hrun : exec recordStep (createdRun id events thread now) ls = some y) :
    Along recordStep ClaimsFresh (createdRun id events thread now) ls ↔
      Always recordStep (fun x => x.1.store.run.Coherent) (createdRun id events thread now) ls := by
  have hdated : Dated (createdRun id events thread now : AgentState Report × RunClock) :=
    dated_created id events thread now
  have hnew : (createdRun id events thread now : AgentState Report × RunClock).1.store.run.Coherent := by
    rw [hdated.recorded.coherent_iff]
    exact nofun
  apply along_iff_always (J := Dated) _ hdated hnew hrun
  exact fun x l y hx hI hstep => recordStep_coherent hx hI hstep

/-- A run that is claimed once and completed. -/
def completedOnce : List (ℕ × ServiceLabel String) :=
  [(1, .agent .startRun), (3, .agent (.task 0 (.returns 2 ""))), (3, .agent (.task 0 (.returns 0 ""))),
   (5, .agent (.task 0 (.returns 4 "thread"))), (9, .agent (.task 0 (.reports "report"))),
   (12, .agent (.task 0 (.returns 10 "")))]

/-- The condition holds along `completedOnce`, so its record is coherent
throughout. -/
theorem record_coherent_completed :
    Always recordStep (fun x => x.1.store.run.Coherent) (createdRun "run" [] none 0) completedOnce := by
  obtain ⟨x, hrun⟩ := Option.isSome_iff_exists.mp
    (show (exec recordStep (createdRun "run" [] none 0) completedOnce).isSome = true by decide)
  exact (record_coherent_iff hrun).mp (by decide)

/-- A run with two start requests.  The graph of the first task raises, and the
second task claims the failed run. -/
def retried : List (ℕ × ServiceLabel String) :=
  [(1, .agent .startRun), (2, .agent .startRun), (3, .agent (.task 0 (.returns 3 ""))),
   (3, .agent (.task 0 (.returns 0 ""))), (5, .agent (.task 0 (.returns 4 "thread"))),
   (6, .agent (.task 0 (.raises "model overloaded"))), (8, .agent (.task 0 (.returns 7 ""))),
   (9, .agent (.task 1 (.returns 8 "")))]

/-- It is running with the time at which it failed as its time of completion. -/
theorem retried_completed :
    ∃ x, exec recordStep (createdRun "run" [] none 0) retried = some x ∧
      x.1.store.run.status = .running ∧ x.1.store.run.completedAt = some 7 ∧
      ¬ x.1.store.run.Coherent := by
  obtain ⟨x, hrun, hx⟩ := (Option.any_eq_true ..).mp
    (show (exec recordStep (createdRun "run" [] none 0) retried).any (fun x =>
      decide (x.1.store.run.status = .running ∧ x.1.store.run.completedAt = some 7)) = true by decide)
  obtain ⟨hrunning, hcompleted⟩ := of_decide_eq_true hx
  refine ⟨x, hrun, hrunning, hcompleted, fun h => ?_⟩
  rw [(h.running hrunning).2.1] at hcompleted
  cases hcompleted

end NexCause
