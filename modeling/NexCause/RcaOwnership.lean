/-
NexCause/RcaOwnership.lean

Single ownership of an RCA run.  `mark_running` claims under a status
predicate, so the code means at most one task to investigate a run, and a
completed run to stay as it is.  Both hold as long as the handler of
`run_rca` writes `failed` only over a run nobody else is investigating and
which is not completed (`FailRunHarmless`).  The handler itself does not
check this: a task whose own `mark_running` raised reaches `fail_run` without
having claimed anything.

The invariant `Owned` says that at most one task owns the run and that the
row is `running` while one does.  Every step under the condition preserves
it (`agentStep_owned`), and freezes a completed row (`agentStep_frozen`).
-/
import NexCause.RcaRun

namespace NexCause

open Transition

variable {Report : Type}

/-! ### The two properties -/

/-- Task `i` is executing `RCAGraphRunner.run`. -/
def AgentState.Executing (s : AgentState Report) (i : ℕ) : Prop :=
  s.tasks[i]? = some .graph

/-- At most one task executes the graph. -/
def AgentState.SingleExecution (s : AgentState Report) : Prop :=
  ∀ i j, s.Executing i → s.Executing j → i = j

/-- If the run is completed in `s`, its status, result and error message are
the same in `t`. -/
def CompletedFrozen (s t : AgentState Report) : Prop :=
  s.store.run.status = .completed →
    t.store.run.status = .completed ∧ t.store.run.result = s.store.run.result ∧
      t.store.run.errorMessage = s.store.run.errorMessage

theorem CompletedFrozen.refl (s : AgentState Report) : CompletedFrozen s s :=
  fun h => ⟨h, rfl, rfl⟩

theorem CompletedFrozen.trans {s t u : AgentState Report} (h : CompletedFrozen s t)
    (h' : CompletedFrozen t u) : CompletedFrozen s u := by
  intro hs
  obtain ⟨ht, hr, he⟩ := h hs
  obtain ⟨hu, hr', he'⟩ := h' ht
  exact ⟨hu, hr'.trans hr, he'.trans he⟩

/-! ### The condition on a step -/

/-- A `fail_run` that takes effect does so over a run that is not completed
and that no task owns. -/
def FailRunHarmless (s : AgentState Report) : AgentLabel Report → Prop
  | .task i o => ∀ e, s.tasks[i]? = some (.failRun e) → o.commits →
      s.store.run.status ≠ .completed ∧
        ∀ (j : ℕ) (pc : RunRcaPc Report), s.tasks[j]? = some pc → ¬ pc.OwnsRun
  | _ => True

/-! ### Ownership is exclusive -/

/-- At most one task owns the run, and the run is `running` while one does. -/
structure AgentState.Owned (s : AgentState Report) : Prop where
  unique : ∀ {i j : ℕ} {p q : RunRcaPc Report}, s.tasks[i]? = some p → s.tasks[j]? = some q →
    p.OwnsRun → q.OwnsRun → i = j
  running : ∀ {i : ℕ} {p : RunRcaPc Report}, s.tasks[i]? = some p → p.OwnsRun →
    s.store.run.status = .running

/-- A task found after replacing task `i` is the new one or an old one. -/
theorem getElem?_set_some {α : Type*} {l : List α} {i j : ℕ} {a b : α}
    (h : (l.set i a)[j]? = some b) : (j = i ∧ b = a) ∨ (j ≠ i ∧ l[j]? = some b) := by
  rw [List.getElem?_set] at h
  by_cases hij : i = j
  · rw [if_pos hij] at h
    split at h
    · exact .inl ⟨hij.symm, (Option.some.inj h).symm⟩
    · cases h
  · rw [if_neg hij] at h
    exact .inr ⟨fun e => hij e.symm, h⟩

/-- A task found after adding one is the new one or an old one. -/
theorem getElem?_concat_some {α : Type*} {l : List α} {j : ℕ} {a b : α}
    (h : (l ++ [a])[j]? = some b) : (j = l.length ∧ b = a) ∨ l[j]? = some b := by
  rcases Nat.lt_or_ge j l.length with hj | hj
  · rw [List.getElem?_append_left hj] at h
    exact .inr h
  · rw [List.getElem?_append_right hj, List.getElem?_singleton] at h
    split at h
    · exact .inl ⟨by omega, (Option.some.inj h).symm⟩
    · cases h

/-- Adding a task that waits for its claim changes no owner. -/
theorem AgentState.Owned.spawn {s : AgentState Report} (h : s.Owned) (n : ℕ) :
    AgentState.Owned { s with tasks := s.tasks ++ [.markRunning], polled := n } := by
  have old : ∀ {j : ℕ} {p : RunRcaPc Report}, (s.tasks ++ [.markRunning])[j]? = some p →
      p.OwnsRun → s.tasks[j]? = some p := by
    intro j p hp ho
    rcases getElem?_concat_some hp with ⟨-, rfl⟩ | hp
    · exact ho.elim
    · exact hp
  exact ⟨fun hp hq op oq => h.unique (old hp op) (old hq oq) op oq,
    fun hp op => h.running (old hp op) op⟩

/-- Replacing a task by one that does not own the run, over a row whose
status is unchanged, keeps ownership exclusive. -/
theorem AgentState.Owned.release {s : AgentState Report} (h : s.Owned) {i : ℕ} {pc : RunRcaPc Report}
    {st : RunStore Report} (hpc : ¬ pc.OwnsRun) (hst : st.run.status = s.store.run.status) :
    AgentState.Owned { s with store := st, tasks := s.tasks.set i pc } := by
  have old : ∀ {j : ℕ} {p : RunRcaPc Report}, (s.tasks.set i pc)[j]? = some p →
      p.OwnsRun → s.tasks[j]? = some p := by
    intro j p hp ho
    rcases getElem?_set_some hp with ⟨-, rfl⟩ | ⟨-, hp⟩
    · exact absurd ho hpc
    · exact hp
  refine ⟨fun hp hq op oq => h.unique (old hp op) (old hq oq) op oq, fun hp op => ?_⟩
  exact hst.trans (h.running (old hp op) op)

/-- A state in which only task `i` can own the run, and in which the row is
`running` if it does. -/
theorem AgentState.Owned.of_only {s : AgentState Report} (i : ℕ)
    (honly : ∀ {j : ℕ} {p : RunRcaPc Report}, s.tasks[j]? = some p → p.OwnsRun →
      j = i ∧ s.store.run.status = .running) : s.Owned :=
  ⟨fun hp hq op oq => (honly hp op).1.trans (honly hq oq).1.symm,
    fun hp op => (honly hp op).2⟩

/-- One resumption of a task keeps ownership exclusive. -/
theorem task_owned {s : AgentState Report} (h : s.Owned) {i : ℕ} {o : Outcome Report}
    {pc pc' : RunRcaPc Report} {st' : RunStore Report} (hpc : s.tasks[i]? = some pc)
    (hC : FailRunHarmless s (.task i o)) (hrun : runRca pc o s.store = some (st', pc')) :
    AgentState.Owned { s with store := st', tasks := s.tasks.set i pc' } := by
  rcases runRca_cases hrun with ⟨hrow, hown⟩ | ⟨-, hfree, hnew⟩ | ⟨hown, hrel, -⟩ |
    ⟨e, rfl, hcom, hrel, -⟩
  · -- the row is untouched; the task owns the run only if it did before
    by_cases hpc' : pc'.OwnsRun
    · have hr := h.running hpc (hown hpc')
      refine AgentState.Owned.of_only i fun {j p} hp op => ?_
      refine ⟨?_, (congrArg RcaRun.status hrow).trans hr⟩
      rcases getElem?_set_some hp with ⟨rfl, -⟩ | ⟨-, hp⟩
      · rfl
      · exact h.unique hp hpc op (hown hpc')
    · exact h.release hpc' (congrArg RcaRun.status hrow)
  · -- a claim: the row was claimable, so nobody owned the run
    have nobody : ∀ {j : ℕ} {p : RunRcaPc Report}, s.tasks[j]? = some p → ¬ p.OwnsRun := by
      intro j p hp op
      have hr := h.running hp op
      rcases hfree with hf | hf <;> rw [hr] at hf <;> cases hf
    refine AgentState.Owned.of_only i fun {j p} hp op => ?_
    rcases getElem?_set_some hp with ⟨rfl, -⟩ | ⟨-, hp⟩
    · exact ⟨rfl, hnew⟩
    · exact absurd op (nobody hp)
  · -- the owner records its result and lets go
    refine AgentState.Owned.of_only i fun {j p} hp op => ?_
    rcases getElem?_set_some hp with ⟨-, rfl⟩ | ⟨hj, hp⟩
    · exact absurd op hrel
    · exact absurd (h.unique hp hpc op hown) hj
  · -- a failure is written: by the condition nobody owns the run
    obtain ⟨-, nobody⟩ := hC e hpc hcom
    refine AgentState.Owned.of_only i fun {j p} hp op => ?_
    rcases getElem?_set_some hp with ⟨-, rfl⟩ | ⟨-, hp⟩
    · exact absurd op hrel
    · exact absurd op (nobody j p hp)

/-- Every step under the condition keeps ownership exclusive. -/
theorem agentStep_owned {s t : AgentState Report} {l : AgentLabel Report} (h : s.Owned)
    (hC : FailRunHarmless s l) (hstep : agentStep s l = some t) : t.Owned := by
  cases l with
  | startRun =>
    obtain rfl := Option.some.inj hstep
    exact h.spawn s.polled
  | pollRead =>
    simp only [agentStep, Option.ite_none_right_eq_some, Option.some.injEq] at hstep
    obtain ⟨-, rfl⟩ := hstep
    exact ⟨h.unique, h.running⟩
  | pollSchedule =>
    simp only [agentStep, Option.ite_none_right_eq_some, Option.some.injEq] at hstep
    obtain ⟨-, rfl⟩ := hstep
    exact h.spawn (s.polled - 1)
  | task i o =>
    simp only [agentStep, Option.bind_eq_some_iff, Option.map_eq_some_iff] at hstep
    obtain ⟨pc, hpc, ⟨st', pc'⟩, hrun, rfl⟩ := hstep
    exact task_owned h hpc hC hrun
  | cancel i =>
    obtain rfl := Option.some.inj hstep
    exact h.release id rfl

/-! ### A completed run is frozen -/

/-- Every step under the condition leaves a completed row as it is. -/
theorem agentStep_frozen {s t : AgentState Report} {l : AgentLabel Report} (h : s.Owned)
    (hC : FailRunHarmless s l) (hstep : agentStep s l = some t) : CompletedFrozen s t := by
  have same : t.store.run = s.store.run → CompletedFrozen s t := by
    intro e hs
    rw [e]
    exact ⟨hs, rfl, rfl⟩
  cases l with
  | startRun => exact same (Option.some.inj hstep ▸ rfl)
  | pollRead =>
    simp only [agentStep, Option.ite_none_right_eq_some, Option.some.injEq] at hstep
    exact same (hstep.2 ▸ rfl)
  | pollSchedule =>
    simp only [agentStep, Option.ite_none_right_eq_some, Option.some.injEq] at hstep
    exact same (hstep.2 ▸ rfl)
  | cancel i => exact same (Option.some.inj hstep ▸ rfl)
  | task i o =>
    simp only [agentStep, Option.bind_eq_some_iff, Option.map_eq_some_iff] at hstep
    obtain ⟨pc, hpc, ⟨st', pc'⟩, hrun, rfl⟩ := hstep
    rcases runRca_cases hrun with ⟨hrow, -⟩ | ⟨-, hfree, -⟩ | ⟨hown, -, -⟩ | ⟨e, rfl, hcom, -, -⟩
    · exact same hrow
    · -- a completed run cannot be claimed
      intro hs
      rcases hfree with hf | hf <;> rw [hs] at hf <;> cases hf
    · -- an owner implies that the run is running
      intro hs
      rw [h.running hpc hown] at hs
      cases hs
    · exact fun hs => absurd hs (hC e hpc hcom).1

/-! ### Runs of the service -/

/-- A service without tasks trivially owns nothing. -/
theorem owned_of_no_tasks {s : AgentState Report} (h : s.tasks = []) : s.Owned :=
  AgentState.Owned.of_only 0 fun hp _ => by simp [h] at hp

theorem exec_owned {s t : AgentState Report} {ls : List (AgentLabel Report)} (h : s.Owned)
    (hC : Along agentStep FailRunHarmless s ls) (hrun : exec agentStep s ls = some t) :
    t.Owned :=
  exec_invariant (fun _ _ _ hs hc hst => agentStep_owned hs hc hst) h hC hrun

/-- **Single ownership of an RCA run.**  From a service without tasks, along
every schedule whose `fail_run`s are harmless: at most one task executes the
graph, and from then on a completed run keeps its status, result and error
message. -/
theorem single_ownership {s₀ s : AgentState Report} {ls : List (AgentLabel Report)}
    (h₀ : s₀.tasks = []) (hC : Along agentStep FailRunHarmless s₀ ls)
    (hrun : exec agentStep s₀ ls = some s) :
    s.SingleExecution ∧
      ∀ ls' t, Along agentStep FailRunHarmless s ls' → exec agentStep s ls' = some t →
        CompletedFrozen s t := by
  have hown := exec_owned (owned_of_no_tasks h₀) hC hrun
  refine ⟨fun i j hi hj => hown.unique hi hj trivial trivial, fun ls' t hC' hrun' => ?_⟩
  exact exec_relation CompletedFrozen.refl (fun _ _ _ => CompletedFrozen.trans)
    (fun _ _ _ hI hc hst => ⟨agentStep_owned hI hc hst, agentStep_frozen hI hc hst⟩)
    hown hC' hrun'

/-! ### Concrete schedules -/

/-- A run as `startForIncident` leaves it, and no task yet. -/
def freshRun : AgentState String where
  store := ⟨⟨"run", .pending, none, none, none, none⟩, [⟨"run.created", [("source", "manual")]⟩], none⟩
  tasks := []
  polled := 0

/-- One task runs to its `complete_run`; a second one finds the run taken. -/
def quietSchedule : List (AgentLabel String) :=
  [.startRun, .startRun, .task 0 (.returns 1 ""), .task 1 (.returns 2 ""),
   .task 0 (.returns 3 ""), .task 0 (.returns 4 "thread"), .task 0 (.reports "report"),
   .task 0 (.returns 5 "")]

/-- The condition holds along `quietSchedule`: the theorem applies to it. -/
theorem single_ownership_quiet :
    ∃ s, exec agentStep freshRun quietSchedule = some s ∧ s.SingleExecution ∧
      ∀ ls' t, Along agentStep FailRunHarmless s ls' → exec agentStep s ls' = some t →
        CompletedFrozen s t := by
  refine ⟨_, rfl, @single_ownership _ freshRun _ quietSchedule rfl ?_ rfl⟩
  simp [Along, quietSchedule, freshRun, agentStep, runRca, markRunning, getOrCreateThread,
    completeRun, FailRunHarmless, RunStore.addRunEvent]

/-- Task 0 claims the run and executes the graph.  The claim of task 1 raises
(a pool timeout), so its handler writes `failed`, and task 2 claims again. -/
def twoOwners : List (AgentLabel String) :=
  [.startRun, .startRun, .startRun, .task 0 (.returns 1 ""), .task 0 (.returns 2 ""),
   .task 0 (.returns 3 "thread"), .task 1 (.raises "pool timeout"), .task 1 (.returns 4 ""),
   .task 2 (.returns 5 ""), .task 2 (.returns 6 ""), .task 2 (.returns 7 "thread")]

/-- Task 0 completes the run.  Then the claim of task 1 raises, and its
handler writes `failed` over the completed run. -/
def failedAfterCompletion : List (AgentLabel String) :=
  quietSchedule ++ [.startRun, .task 2 (.raises "connection lost"), .task 2 (.returns 9 "")]

/-- Without the condition both properties fail, from a fresh run. -/
theorem single_ownership_fails :
    (∃ s, exec agentStep freshRun twoOwners = some s ∧ s.Executing 0 ∧ s.Executing 2 ∧
      ¬ s.SingleExecution) ∧
    (∃ s t, exec agentStep freshRun quietSchedule = some s ∧
      exec agentStep freshRun failedAfterCompletion = some t ∧
      s.store.run.status = .completed ∧ s.store.run.result = some "report" ∧
      t.store.run.status = .failed ∧ ¬ CompletedFrozen s t) := by
  constructor
  · refine ⟨_, rfl, rfl, rfl, fun h => ?_⟩
    exact absurd (h 0 2 rfl rfl) (by decide)
  · refine ⟨_, _, rfl, rfl, rfl, rfl, rfl, fun h => ?_⟩
    exact absurd (h rfl).1 (by decide)

end NexCause
