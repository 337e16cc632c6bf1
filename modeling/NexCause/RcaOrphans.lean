/-
NexCause/RcaOrphans.lean

Orphaned runs.  A claim is durable (`status = 'running'`), but the task that
made it lives in the process, and the poller looks at pending runs only.  So a
running run is finished only by a live task that claimed it.

`KeepsWorker` says which steps leave such a task: a crash while the run is
running does not, nor does the end without a record (a cancellation, or a
`fail_run` that raises) of the last task at work on it.  The condition is
exact, step by step (`notOrphaned_iff`), so the runs all of whose steps meet
it are exactly those in which the run is never orphaned
(`never_orphaned_iff`).
-/
import NexCause.RcaLedger

namespace NexCause

open Transition

variable {Report : Type} {s t : AgentState Report} {g g' : Ledger}

/-! ### Workers -/

/-- The task is between its claim and the record of its outcome, if it claimed the run at all. -/
def RunRcaPc.AtWork : RunRcaPc Report → Prop
  | .publishRunning => True
  | .getOrCreateThread => True
  | .graph => True
  | .completeRun _ => True
  | .failRun _ => True
  | _ => False

instance : DecidablePred (@RunRcaPc.AtWork Report) := fun pc => by
  cases pc <;> unfold RunRcaPc.AtWork <;> infer_instance

/-- Task `i` claimed the run and will still record an outcome. -/
def Worker (s : AgentState Report) (g : Ledger) (i : ℕ) : Prop :=
  i ∈ g.claims ∧ ∃ pc, s.tasks[i]? = some pc ∧ pc.AtWork

/-- The run is completed, can be claimed, or is being executed by a live task that claimed it. -/
def NotOrphaned (x : AgentState Report × Ledger) : Prop :=
  x.1.store.run.status ≠ .completed →
    (∃ i, Worker x.1 x.2 i) ∨ x.1.store.run.status = .pending ∨ x.1.store.run.status = .failed

/-- The step leaves a worker when the run is running: it is no crash, and the task that ends
without a record is not the only worker. -/
def KeepsWorker (x : AgentState Report × Ledger) : ServiceLabel Report → Prop
  | .crash => x.1.store.run.status ≠ .running
  | .agent (.cancel i) => x.1.store.run.status = .running → ∃ j, j ≠ i ∧ Worker x.1 x.2 j
  | .agent (.task i (.raises _)) => x.1.store.run.status = .running →
      ∀ e, x.1.tasks[i]? = some (.failRun e) → ∃ j, j ≠ i ∧ Worker x.1 x.2 j
  | _ => True

/-- Only a running run can be orphaned. -/
theorem notOrphaned_iff_running {x : AgentState Report × Ledger} :
    NotOrphaned x ↔ (x.1.store.run.status = .running → ∃ i, Worker x.1 x.2 i) := by
  unfold NotOrphaned
  cases x.1.store.run.status with
  | pending => simp
  | running => simp
  | completed => simp
  | failed => simp

/-! ### Where a worker goes -/

/-- A resumption that leaves the row alone leaves a task at work, unless its `fail_run` raises. -/
theorem runRca_atWork {pc pc' : RunRcaPc Report} {o : Outcome Report} {st st' : RunStore Report}
    (h : runRca pc o st = some (st', pc')) (hw : pc.AtWork)
    (hst : st'.run.status = .running) :
    pc'.AtWork ∨ ∃ e e', pc = .failRun e ∧ o = .raises e' := by
  cases pc with
  | failRun e =>
    cases o with
    | raises e' => exact .inr ⟨e, e', rfl, rfl⟩
    | returns now newId =>
      -- the failure is recorded
      obtain ⟨rfl, -⟩ := Prod.mk.inj (Option.some.inj h)
      cases hst
    | commitsThenRaises now newId e' =>
      obtain ⟨rfl, -⟩ := Prod.mk.inj (Option.some.inj h)
      cases hst
    | reports report => cases h
  | completeRun report =>
    left
    cases o with
    | raises e =>
      obtain ⟨-, rfl⟩ := Prod.mk.inj (Option.some.inj h)
      trivial
    | returns now newId =>
      obtain ⟨rfl, -⟩ := Prod.mk.inj (Option.some.inj h)
      cases hst
    | commitsThenRaises now newId e =>
      obtain ⟨-, rfl⟩ := Prod.mk.inj (Option.some.inj h)
      trivial
    | reports report => cases h
  | publishRunning =>
    left
    cases o <;> simp only [runRca, Option.some.injEq, Prod.mk.injEq, reduceCtorEq] at h
    obtain ⟨-, rfl⟩ := h
    trivial
  | getOrCreateThread =>
    left
    cases o <;> simp only [runRca, Option.some.injEq, Prod.mk.injEq, reduceCtorEq] at h
    all_goals
      obtain ⟨-, rfl⟩ := h
      trivial
  | graph =>
    left
    cases o <;> simp only [runRca, Option.some.injEq, Prod.mk.injEq, reduceCtorEq] at h
    all_goals
      obtain ⟨-, rfl⟩ := h
      trivial
  | _ => exact hw.elim

/-- A task that claims is at work. -/
theorem runRca_claim_atWork {pc' : RunRcaPc Report} {o : Outcome Report} {st st' : RunStore Report}
    (h : runRca .markRunning o st = some (st', pc')) (ho : o.commits) (hst : Claimable st) :
    pc'.AtWork := by
  have hc := fun now => (markRunning_claims now hst).1
  cases o with
  | returns now newId =>
    simp only [runRca, hc now, if_true, Option.some.injEq, Prod.mk.injEq] at h
    obtain ⟨-, rfl⟩ := h
    trivial
  | commitsThenRaises now newId e =>
    obtain ⟨-, rfl⟩ := Prod.mk.inj (Option.some.inj h)
    trivial
  | reports report => exact ho.elim
  | raises e => exact ho.elim

/-- Without a claim that takes effect, a running run was running before. -/
theorem runRca_running {pc pc' : RunRcaPc Report} {o : Outcome Report} {st st' : RunStore Report}
    (h : runRca pc o st = some (st', pc')) (hst : st'.run.status = .running) :
    st.run.status = .running ∨ (pc = .markRunning ∧ o.commits ∧ Claimable st) := by
  rcases runRca_cases h with ⟨hrow, -⟩ | ⟨rfl, hclaim, -⟩ | ⟨-, -, hc⟩ | ⟨e, -, -, -, hf⟩
  · left
    rw [← hrow]
    exact hst
  · by_cases ho : o.commits
    · exact .inr ⟨rfl, ho, hclaim⟩
    · -- a claim that raised left the row alone
      left
      cases o with
      | raises e =>
        obtain ⟨rfl, -⟩ := Prod.mk.inj (Option.some.inj h)
        exact hst
      | reports report => cases h
      | returns now newId => exact absurd trivial ho
      | commitsThenRaises now newId e => exact absurd trivial ho
  · rw [hst] at hc; cases hc
  · rw [hst] at hf; cases hf

/-- Claims are never forgotten. -/
theorem note_claims {i : ℕ} {o : Outcome Report} {pc pc' : RunRcaPc Report} {st : RunStore Report}
    (hpc : s.tasks[i]? = some pc) (hrun : runRca pc o s.store = some (st, pc')) :
    ∀ j ∈ g.claims, j ∈ (g.note s (.agent (.task i o))).claims := by
  intro j hj
  rcases note_task (g := g) hpc hrun with ⟨-, -, -, hg⟩ | ⟨-, -, hg⟩ | ⟨e, -, -, hg⟩ | ⟨-, -, hg⟩
  · rw [hg]
    exact List.mem_append_left _ hj
  · rw [hg]; exact hj
  · rw [hg]; exact hj
  · rw [hg]; exact hj

/-! ### One step -/

/-- Another task stays the worker it is. -/
theorem Worker.other {i j : ℕ} {pc : RunRcaPc Report} {st : RunStore Report} {n : ℕ}
    (h : Worker s g j) (hji : j ≠ i) (hclaims : ∀ k ∈ g.claims, k ∈ g'.claims) :
    Worker ⟨st, s.tasks.set i pc, n⟩ g' j := by
  obtain ⟨hj, q, hq, hw⟩ := h
  refine ⟨hclaims j hj, q, ?_, hw⟩
  show (s.tasks.set i pc)[j]? = some q
  rw [List.getElem?_set_ne (Ne.symm hji)]
  exact hq

/-- When a task ends without a record, the workers are the other ones. -/
theorem worker_of_ended {i j : ℕ} {pc : RunRcaPc Report} {st : RunStore Report} {n : ℕ}
    (hpc : ¬ pc.AtWork) : Worker ⟨st, s.tasks.set i pc, n⟩ g j ↔ j ≠ i ∧ Worker s g j := by
  constructor
  · rintro ⟨hj, q, hq, hw⟩
    rcases getElem?_set_some hq with ⟨-, rfl⟩ | ⟨hji, hq⟩
    · exact absurd hw hpc
    · exact ⟨hji, hj, q, hq, hw⟩
  · rintro ⟨hji, hw⟩
    exact hw.other hji fun _ => id

/-- The run is not orphaned by the end of a task exactly if another one is at work. -/
theorem notOrphaned_ended {i : ℕ} {pc : RunRcaPc Report} {n : ℕ} (hpc : ¬ pc.AtWork) :
    NotOrphaned (⟨s.store, s.tasks.set i pc, n⟩, g) ↔
      (s.store.run.status = .running → ∃ j, j ≠ i ∧ Worker s g j) := by
  rw [notOrphaned_iff_running]
  show (s.store.run.status = .running → ∃ j, Worker ⟨s.store, s.tasks.set i pc, n⟩ g j) ↔ _
  simp only [worker_of_ended hpc]

/-- A new task changes nothing. -/
theorem NotOrphaned.spawn (h : NotOrphaned (s, g)) {n : ℕ} (hclaims : g'.claims = g.claims) :
    NotOrphaned ({ s with tasks := s.tasks ++ [.markRunning], polled := n }, g') := by
  rw [notOrphaned_iff_running] at h ⊢
  intro hst
  obtain ⟨i, hi, pc, hpc, hw⟩ := h hst
  refine ⟨i, hclaims ▸ hi, pc, ?_, hw⟩
  show (s.tasks ++ [RunRcaPc.markRunning])[i]? = some pc
  rw [List.getElem?_append_left (List.getElem?_eq_some_iff.mp hpc).1]
  exact hpc

/-- A resumption that is not a raising `fail_run` leaves a worker. -/
theorem NotOrphaned.resume (h : NotOrphaned (s, g)) {i : ℕ} {o : Outcome Report}
    {pc pc' : RunRcaPc Report} {st : RunStore Report} (hpc : s.tasks[i]? = some pc)
    (hrun : runRca pc o s.store = some (st, pc'))
    (hraise : ¬ ∃ e e', pc = .failRun e ∧ o = .raises e') :
    NotOrphaned ({ s with store := st, tasks := s.tasks.set i pc' },
      g.note s (.agent (.task i o))) := by
  have hself : (s.tasks.set i pc')[i]? = some pc' :=
    List.getElem?_set_self (List.getElem?_eq_some_iff.mp hpc).1
  rw [notOrphaned_iff_running] at h ⊢
  intro hst
  rcases runRca_running hrun hst with hbefore | ⟨rfl, ho, hclaim⟩
  · obtain ⟨j, hw⟩ := h hbefore
    refine ⟨j, ?_⟩
    by_cases hji : j = i
    · -- the worker itself goes on
      subst hji
      obtain ⟨hj, q, hq, hat⟩ := hw
      obtain rfl := Option.some.inj (hq.symm.trans hpc)
      refine ⟨note_claims hpc hrun j hj, pc', hself, ?_⟩
      exact (runRca_atWork hrun hat hst).resolve_right hraise
    · exact hw.other hji (note_claims hpc hrun)
  · -- the run has just been claimed
    refine ⟨i, ?_, pc', hself, runRca_claim_atWork hrun ho hclaim⟩
    have hnote : g.note s (.agent (.task i o)) = g.claim i := by
      simp only [Ledger.note, hpc, if_pos (And.intro ho hclaim)]
    rw [hnote]
    exact List.mem_append_right _ (List.mem_singleton_self i)

/-- **One step.**  A step orphans the run exactly if it does not keep a worker. -/
theorem notOrphaned_iff {l : ServiceLabel Report} (h : NotOrphaned (s, g))
    (hstep : ledgerStep (s, g) l = some (t, g')) :
    NotOrphaned (t, g') ↔ KeepsWorker (s, g) l := by
  obtain ⟨hs, rfl⟩ := observed_some hstep
  cases l with
  | crash =>
    obtain rfl := Option.some.inj hs
    rw [notOrphaned_iff_running]
    show (s.store.run.status = .running → ∃ i, _) ↔ s.store.run.status ≠ .running
    constructor
    · intro hw hst
      obtain ⟨i, -, pc, hpc, hat⟩ := hw hst
      obtain ⟨q, -, rfl⟩ := Option.map_eq_some_iff.mp ((List.getElem?_map ..).symm.trans hpc)
      exact hat.elim
    · exact fun hne hst => absurd hst hne
  | agent l =>
    cases l with
    | startRun =>
      obtain rfl := Option.some.inj hs
      exact iff_of_true (h.spawn rfl) trivial
    | pollRead =>
      obtain ⟨-, heq⟩ := Option.ite_none_right_eq_some.mp hs
      obtain rfl := Option.some.inj heq
      exact iff_of_true h trivial
    | pollSchedule =>
      obtain ⟨-, heq⟩ := Option.ite_none_right_eq_some.mp hs
      obtain rfl := Option.some.inj heq
      exact iff_of_true (h.spawn rfl) trivial
    | cancel i =>
      obtain rfl := Option.some.inj hs
      exact notOrphaned_ended id
    | task i o =>
      obtain ⟨pc, hpc, hmap⟩ := Option.bind_eq_some_iff.mp hs
      obtain ⟨⟨st, pc'⟩, hrun, rfl⟩ := Option.map_eq_some_iff.mp hmap
      by_cases hraise : ∃ e e', pc = .failRun e ∧ o = .raises e'
      · -- the handler itself raises: the task ends and nothing is written
        obtain ⟨e, e', rfl, rfl⟩ := hraise
        obtain ⟨rfl, rfl⟩ := Prod.mk.inj (Option.some.inj hrun)
        have hnote : g.note s (.agent (.task i (.raises e'))) = g := by
          simp only [Ledger.note, hpc]
          exact if_neg id
        rw [hnote]
        refine (notOrphaned_ended id).trans ⟨fun hw hst _ _ => hw hst, fun hw hst => hw hst e hpc⟩
      · refine iff_of_true (h.resume hpc hrun hraise) ?_
        cases o with
        | raises e' =>
          intro _ e hpc'
          obtain rfl := Option.some.inj (hpc.symm.trans hpc')
          exact absurd ⟨e, e', rfl, rfl⟩ hraise
        | _ => trivial

/-! ### Runs of the service -/

/-- **When no run is orphaned.**  Of a run that the manager has created, and along every schedule
of the service: all steps keep a worker exactly if in every state the run is completed, or pending
or failed, or executed by a live task that claimed it. -/
theorem never_orphaned_iff {s₀ : AgentState Report} {ls : List (ServiceLabel Report)}
    {x : AgentState Report × Ledger} (hpending : s₀.store.run.status = .pending)
    (hrun : exec ledgerStep (s₀, .blank) ls = some x) :
    Along ledgerStep KeepsWorker (s₀, .blank) ls ↔
      Always ledgerStep NotOrphaned (s₀, .blank) ls := by
  apply along_iff_always (J := fun _ => True) ?_ trivial ?_ hrun
  · exact fun _ _ _ _ h hstep => ⟨trivial, notOrphaned_iff h hstep⟩
  · exact fun _ => .inr (.inl hpending)

/-! ### Concrete schedules -/

/-- A task runs to its end, and a crash finds the run completed. -/
def lateCrash : List (ServiceLabel String) :=
  [.agent .startRun, .agent (.task 0 (.returns 1 "")), .agent (.task 0 (.returns 2 "")),
   .agent (.task 0 (.returns 3 "thread")), .agent (.task 0 (.reports "report")),
   .agent (.task 0 (.returns 4 "")), .crash]

/-- The theorem at `lateCrash`: no state of it orphans the run. -/
theorem never_orphaned_lateCrash :
    (exec ledgerStep (freshRun, .blank) lateCrash).isSome ∧
      Always ledgerStep NotOrphaned (freshRun, .blank) lateCrash := by
  obtain ⟨x, hrun⟩ := Option.isSome_iff_exists.mp
    (show (exec ledgerStep (freshRun, .blank) lateCrash).isSome = true by decide)
  refine ⟨by rw [hrun]; rfl, (never_orphaned_iff rfl hrun).mp ?_⟩
  simp [Along, lateCrash, KeepsWorker, observed, serviceStep, agentStep, runRca, freshRun,
    markRunning, getOrCreateThread, completeRun, RunStore.addRunEvent]

/-- A task has claimed the run and executes the graph. -/
def atTheGraph : List (ServiceLabel String) :=
  [.agent .startRun, .agent (.task 0 (.returns 1 "")), .agent (.task 0 (.returns 2 "")),
   .agent (.task 0 (.returns 3 "thread"))]

/-- Three ways to end it there: the process crashes, the task is cancelled, or the graph raises
and then `fail_run` does. -/
def endings : List (List (ServiceLabel String)) :=
  [[.crash], [.agent (.cancel 0)],
   [.agent (.task 0 (.raises "model overloaded")), .agent (.task 0 (.raises "pool timeout"))]]

/-- Each of them leaves a running run that nobody executes and nobody can claim. -/
theorem run_orphaned : endings.Forall fun ending => ∃ x,
    exec ledgerStep (freshRun, .blank) (atTheGraph ++ ending) = some x ∧
      x.1.store.run.status = .running ∧ ¬ NotOrphaned x := by
  apply List.forall_iff_forall_mem.mpr
  intro ending hmem
  have hend : (exec ledgerStep (freshRun, .blank) (atTheGraph ++ ending)).any (fun x =>
      decide (x.1.store.run.status = .running ∧
        ∀ pc ∈ x.1.tasks, ¬ pc.AtWork)) = true := by
    revert ending
    decide
  obtain ⟨x, hrun, hx⟩ := (Option.any_eq_true ..).mp hend
  obtain ⟨hst, hidle⟩ := of_decide_eq_true hx
  refine ⟨x, hrun, hst, fun h => ?_⟩
  obtain ⟨i, -, pc, hpc, hat⟩ := notOrphaned_iff_running.mp h hst
  exact hidle pc (List.mem_of_getElem? hpc) hat

end NexCause
