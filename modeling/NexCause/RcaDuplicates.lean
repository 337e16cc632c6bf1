/-
NexCause/RcaDuplicates.lean

How often a run is investigated.  A run may be scheduled many times: by
explicit start requests, and by every round of the poller that reads it as
pending before some task claims it.  `mark_running` skips the duplicates as
long as the run is running or completed, but it accepts a failed run from any
task, also from one that was scheduled before the failure.

If every claim of a failed run is made by a task of a start request that came
after the failure (`RetriedOnRequest`), then the graph is executed at most
once for each start request and once for the pending state the run was created
in (`no_stale_rerun`).  Without it two rounds of the poller are enough to
investigate a failed run again (`duplicate_reruns_failed`).
-/
import NexCause.RcaLedger

namespace NexCause

open Transition

variable {Report : Type} {s t : AgentState Report} {g g' : Ledger}

/-- The run is not investigated more often than it was asked for, and no task claims it after a
failure that came after the task was scheduled. -/
def Ledger.NoStaleRerun (g : Ledger) : Prop :=
  g.executions.length ≤ g.explicit.length + 1 ∧ g.stale = []

instance (g : Ledger) : Decidable g.NoStaleRerun := inferInstanceAs (Decidable (_ ∧ _))

/-- A claim of a failed run is made by the task of a start request that came after the failure. -/
def RetriedOnRequest (x : AgentState Report × Ledger) : ServiceLabel Report → Prop
  | .agent (.task i o) => x.1.tasks[i]? = some .markRunning → o.commits →
      x.1.store.run.status = .failed → i ∈ x.2.explicit ∧ ¬ x.2.Stale i
  | _ => True

instance (x : AgentState Report × Ledger) (l : ServiceLabel Report) [DecidableEq Report] :
    Decidable (RetriedOnRequest x l) := by
  unfold RetriedOnRequest
  split <;> infer_instance

/-! ### Who has claimed -/

/-- The claims of a run: nobody before the run leaves its pending state, and after the first claim
only tasks of start requests. -/
structure Requested (s : AgentState Report) (g : Ledger) : Prop where
  pending : s.store.run.status = .pending → g.claims = [] ∧ g.failures = 0
  retries : ∀ i ∈ g.claims.tail, i ∈ g.explicit
  stale : g.stale = []

/-- A step that adds no claim, no failure, and does not make the run pending. -/
theorem Requested.same (h : Requested s g) {s' : AgentState Report} {g' : Ledger}
    (hst : s'.store.run.status = .pending → s.store.run.status = .pending)
    (hclaims : g'.claims = g.claims) (hfailures : g'.failures = g.failures)
    (hstale : g'.stale = g.stale) (hexplicit : ∀ i ∈ g.explicit, i ∈ g'.explicit) :
    Requested s' g' := by
  constructor
  · intro hp
    rw [hclaims, hfailures]
    exact h.pending (hst hp)
  · rw [hclaims]
    intro i hi
    exact hexplicit i (h.retries i hi)
  · rw [hstale]
    exact h.stale

/-- A task never makes the run pending. -/
theorem runRca_pending {pc pc' : RunRcaPc Report} {o : Outcome Report} {st st' : RunStore Report}
    (h : runRca pc o st = some (st', pc')) (hp : st'.run.status = .pending) :
    st'.run = st.run := by
  rcases runRca_cases h with ⟨hrow, -⟩ | ⟨-, -, hst⟩ | ⟨-, -, hst⟩ | ⟨e, -, -, -, hst⟩
  · exact hrow
  · rw [hst] at hp; cases hp
  · rw [hst] at hp; cases hp
  · rw [hst] at hp; cases hp

/-- After a claim that takes effect the run is running. -/
theorem runRca_claims {pc' : RunRcaPc Report} {o : Outcome Report} {st st' : RunStore Report}
    (h : runRca .markRunning o st = some (st', pc')) (ho : o.commits) (hst : Claimable st) :
    st'.run.status = .running := by
  have hc := fun now => (markRunning_claims now hst).2
  cases o with
  | returns now newId =>
    obtain ⟨rfl, -⟩ := Prod.mk.inj (Option.some.inj h)
    exact hc now
  | commitsThenRaises now newId e =>
    obtain ⟨rfl, -⟩ := Prod.mk.inj (Option.some.inj h)
    exact hc now
  | reports report => exact ho.elim
  | raises e => exact ho.elim

/-- A claim of a pending run is the first one, and a claim of a failed run a retry. -/
theorem Requested.claims (h : Requested s g) {i : ℕ} {s' : AgentState Report}
    (hst : Claimable s.store) (hs' : s'.store.run.status = .running)
    (hC : s.store.run.status = .failed → i ∈ g.explicit ∧ ¬ g.Stale i) :
    Requested s' (g.claim i) := by
  -- a stale request would have met a claim before it
  have hfresh : ¬ g.Stale i := by
    rcases hst with hp | hf
    · rintro ⟨n, -, hn⟩
      rw [(h.pending hp).2] at hn
      exact Nat.not_lt_zero n hn
    · exact (hC hf).2
  constructor
  · intro hp
    rw [hs'] at hp
    cases hp
  · show ∀ j ∈ (g.claims ++ [i]).tail, j ∈ g.explicit
    -- the first claim needs no retry, a later one is by an explicit request
    rcases hst with hp | hf
    · rw [(h.pending hp).1]
      exact fun j hj => (nomatch hj)
    · intro j hj
      cases hcl : g.claims with
      | nil =>
        rw [hcl] at hj
        cases hj
      | cons a as =>
        have hret := h.retries
        rw [hcl] at hj hret
        rcases List.mem_append.mp hj with hj | hj
        · exact hret j hj
        · obtain rfl := List.mem_singleton.mp hj
          exact (hC hf).1
  · show (if g.Stale i then g.stale ++ [i] else g.stale) = []
    rw [if_neg hfresh]
    exact h.stale

/-- Every step under the condition keeps the claims in order. -/
theorem Requested.step {l : ServiceLabel Report} (h : Requested s g)
    (hC : RetriedOnRequest (s, g) l) (hstep : ledgerStep (s, g) l = some (t, g')) :
    Requested t g' := by
  obtain ⟨hs, rfl⟩ := observed_some hstep
  cases l with
  | crash =>
    obtain rfl := Option.some.inj hs
    exact h.same id rfl rfl rfl fun _ => id
  | agent l =>
    cases l with
    | startRun =>
      obtain rfl := Option.some.inj hs
      exact h.same id rfl rfl rfl fun _ => List.mem_append_left _
    | pollRead =>
      obtain ⟨-, heq⟩ := Option.ite_none_right_eq_some.mp hs
      obtain rfl := Option.some.inj heq
      exact h.same id rfl rfl rfl fun _ => id
    | pollSchedule =>
      obtain ⟨-, heq⟩ := Option.ite_none_right_eq_some.mp hs
      obtain rfl := Option.some.inj heq
      exact h.same id rfl rfl rfl fun _ => id
    | cancel i =>
      obtain rfl := Option.some.inj hs
      exact h.same id rfl rfl rfl fun _ => id
    | task i o =>
      obtain ⟨pc, hpc, hmap⟩ := Option.bind_eq_some_iff.mp hs
      obtain ⟨⟨st, pc'⟩, hrun, rfl⟩ := Option.map_eq_some_iff.mp hmap
      have hpending : st.run.status = .pending → s.store.run.status = .pending := by
        intro hp
        rw [← runRca_pending hrun hp]
        exact hp
      rcases note_task (g := g) hpc hrun with ⟨rfl, ho, hst, hg⟩ | ⟨-, -, hg⟩ | ⟨e, rfl, ho, hg⟩ |
        ⟨-, -, hg⟩
      · rw [hg]
        exact h.claims hst (runRca_claims hrun ho hst) fun hf => hC hpc ho hf
      · rw [hg]
        exact h.same hpending rfl rfl rfl fun _ => id
      · -- a failure: the run is not pending any more
        rw [hg]
        refine ⟨fun hp => ?_, h.retries, h.stale⟩
        cases o with
        | returns now newId =>
          obtain ⟨rfl, -⟩ := Prod.mk.inj (Option.some.inj hrun)
          cases hp
        | commitsThenRaises now newId e' =>
          obtain ⟨rfl, -⟩ := Prod.mk.inj (Option.some.inj hrun)
          cases hp
        | reports report => exact ho.elim
        | raises e' => exact ho.elim
      · rw [hg]
        exact h.same hpending rfl rfl rfl fun _ => id

/-- Executions are paid for by claims, and claims by the pending state and start requests. -/
theorem Requested.bound (h : Requested s g) (hk : Kept s g) : g.NoStaleRerun := by
  refine ⟨?_, h.stale⟩
  have hexec : g.executions.length ≤ g.claims.length :=
    hk.executedOnce.length_le_of_subset fun i hi => (hk.executed i hi).1
  have htail : g.claims.tail.length ≤ g.explicit.length :=
    (hk.claimedOnce.sublist (List.tail_sublist _)).length_le_of_subset h.retries
  rw [List.length_tail] at htail
  omega

/-! ### Runs of the service -/

/-- **A failed run is investigated again only on request.**  From a run without tasks, along every
schedule in which a failed run is claimed only by tasks of later start requests: the graph is
executed at most once for each start request and once more, and no task claims the run after a
failure that came after the task was scheduled. -/
theorem no_stale_rerun {s₀ : AgentState Report} {ls : List (ServiceLabel Report)}
    (h₀ : s₀.tasks = [])
    (hC : Along ledgerStep RetriedOnRequest (s₀, .blank) ls)
    (hrun : exec ledgerStep (s₀, .blank) ls = some (s, g)) : g.NoStaleRerun := by
  have hinv : Requested s g ∧ Kept s g := by
    apply exec_invariant (I := fun x => Requested x.1 x.2 ∧ Kept x.1 x.2) ?_ ?_ hC hrun
    · exact fun _ _ _ hx hc hstep => ⟨hx.1.step hc hstep, hx.2.step hstep⟩
    · exact ⟨⟨fun _ => ⟨rfl, rfl⟩, fun i hi => (nomatch hi), rfl⟩, kept_blank h₀⟩
  exact hinv.1.bound hinv.2

/-! ### Concrete schedules -/

/-- A start request whose graph raises, and a second start request after the failure. -/
def retrySchedule : List (ServiceLabel String) :=
  [.agent .startRun, .agent (.task 0 (.returns 1 "")), .agent (.task 0 (.returns 2 "")),
   .agent (.task 0 (.returns 3 "thread")), .agent (.task 0 (.raises "model overloaded")),
   .agent (.task 0 (.returns 4 "")), .agent .startRun, .agent (.task 1 (.returns 5 "")),
   .agent (.task 1 (.returns 6 "")), .agent (.task 1 (.returns 7 "")),
   .agent (.task 1 (.reports "report"))]

/-- The condition holds along `retrySchedule`: two requests, two executions. -/
theorem no_stale_rerun_retry :
    ∃ s g, exec ledgerStep (freshRun, .blank) retrySchedule = some (s, g) ∧
      g.executions = [0, 1] ∧ g.explicit = [0, 1] ∧ g.NoStaleRerun := by
  obtain ⟨⟨s, g⟩, hrun, hg⟩ := (Option.any_eq_true ..).mp
    (show (exec ledgerStep (freshRun, .blank) retrySchedule).any (fun x =>
      decide (x.2.executions = [0, 1] ∧ x.2.explicit = [0, 1])) = true by decide)
  obtain ⟨hexec, hexp⟩ := of_decide_eq_true hg
  have hC : Along ledgerStep RetriedOnRequest (freshRun, .blank) retrySchedule := by decide
  exact ⟨s, g, hrun, hexec, hexp, no_stale_rerun rfl hC hrun⟩

/-- The poller reads the pending run twice before a task claims it.  The first task's graph raises
and it writes `failed`; the second task then claims the failed run and executes the graph again,
without any start request. -/
def duplicateSchedule : List (ServiceLabel String) :=
  [.agent .pollRead, .agent .pollSchedule, .agent .pollRead, .agent .pollSchedule,
   .agent (.task 0 (.returns 1 "")), .agent (.task 0 (.returns 2 "")),
   .agent (.task 0 (.returns 3 "thread")), .agent (.task 0 (.raises "model overloaded")),
   .agent (.task 0 (.returns 4 "")), .agent (.task 1 (.returns 5 "")),
   .agent (.task 1 (.returns 6 "")), .agent (.task 1 (.returns 7 ""))]

/-- Without the condition both parts fail, although no repository call raises: every call of the
two tasks returns, except the graph of the first. -/
theorem duplicate_reruns_failed :
    ∃ s g, exec ledgerStep (freshRun, .blank) duplicateSchedule = some (s, g) ∧
      g.explicit = [] ∧ g.executions = [0, 1] ∧ g.stale = [1] ∧
      ¬ g.executions.length ≤ g.explicit.length + 1 := by
  obtain ⟨⟨s, g⟩, hrun, hg⟩ := (Option.any_eq_true ..).mp
    (show (exec ledgerStep (freshRun, .blank) duplicateSchedule).any (fun x =>
      decide (x.2.explicit = [] ∧ x.2.executions = [0, 1] ∧ x.2.stale = [1])) = true by decide)
  obtain ⟨hexp, hexec, hstale⟩ := of_decide_eq_true hg
  refine ⟨s, g, hrun, hexp, hexec, hstale, ?_⟩
  rw [hexec, hexp]
  decide

end NexCause
