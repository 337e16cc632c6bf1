/-
NexCause/RcaLedger.lean

What happens to an RCA run in the agent service, written down.  The service is
that of `RcaRun`, which may also crash: its tasks and what its poller has read
are gone, the database stays.

The `Ledger` records, for the tasks in the order of their creation, how often
the run had failed when the task was scheduled, which tasks come from an
explicit start request, which of them claimed the run, and which executed the
RCA graph.  It is a record only (`Transition.exec_observed`): nothing in the
service reads it.

Main result: the ledger and the tasks agree along every run (`exec_kept`): a
task that claimed is past its claim, whoever owns the run has claimed it, and
no task claims or executes the graph twice.
-/
import NexCause.RcaOwnership
import Mathlib.Data.List.Nodup

namespace NexCause

open Transition

variable {Report : Type}

/-! ### The service with crashes -/

/-- One step of the service, or a crash of its process. -/
inductive ServiceLabel (Report : Type)
  | agent (l : AgentLabel Report)
  | crash
  deriving DecidableEq, Repr

/-- The step function.  After a crash nothing runs; a restarted process goes on
with the steps of the service. -/
def serviceStep (s : AgentState Report) : ServiceLabel Report → Option (AgentState Report)
  | .agent l => agentStep s l
  | .crash => some { s with tasks := s.tasks.map fun _ => .cancelled, polled := 0 }

/-! ### The ledger -/

/-- `mark_running` accepts the run. -/
def Claimable (st : RunStore Report) : Prop :=
  st.run.status = .pending ∨ st.run.status = .failed

instance (st : RunStore Report) : Decidable (Claimable st) :=
  inferInstanceAs (Decidable (_ ∨ _))

/-- The record of a run.  Tasks are named by their position. -/
structure Ledger where
  /-- for each task, how often the run had failed when the task was scheduled -/
  scheduled : List ℕ
  /-- the tasks of explicit start requests -/
  explicit : List ℕ
  /-- how often the run has become failed -/
  failures : ℕ
  /-- the tasks that claimed the run, in the order of their claims -/
  claims : List ℕ
  /-- those of them that had been scheduled before the run last failed -/
  stale : List ℕ
  /-- the tasks that executed the graph -/
  executions : List ℕ
  deriving DecidableEq, Repr

namespace Ledger

/-- Nothing has happened yet. -/
def blank : Ledger := ⟨[], [], 0, [], [], []⟩

/-- Task `i` was scheduled before the run last failed. -/
def Stale (g : Ledger) (i : ℕ) : Prop := ∃ n, g.scheduled[i]? = some n ∧ n < g.failures

instance (g : Ledger) (i : ℕ) : Decidable (g.Stale i) :=
  decidable_of_iff (g.scheduled[i]?.any fun n => decide (n < g.failures)) (by
    rw [Option.any_eq_true]
    simp only [decide_eq_true_eq]
    rfl)

/-- Task `i` claims the run. -/
def claim (g : Ledger) (i : ℕ) : Ledger :=
  { g with
      claims := g.claims ++ [i]
      stale := if g.Stale i then g.stale ++ [i] else g.stale }

/-- What is written down about one step. -/
def note (s : AgentState Report) (l : ServiceLabel Report) (g : Ledger) : Ledger :=
  match l with
  | .agent .startRun =>
      { g with
          scheduled := g.scheduled ++ [g.failures]
          explicit := g.explicit ++ [s.tasks.length] }
  | .agent .pollSchedule => { g with scheduled := g.scheduled ++ [g.failures] }
  | .agent (.task i o) =>
      match s.tasks[i]? with
      | some .markRunning => if o.commits ∧ Claimable s.store then g.claim i else g
      | some .getOrCreateThread =>
          match o with
          | .returns _ _ => { g with executions := g.executions ++ [i] }
          | _ => g
      | some (.failRun _) => if o.commits then { g with failures := g.failures + 1 } else g
      | _ => g
  | _ => g

end Ledger

/-- The service with its ledger. -/
abbrev ledgerStep : AgentState Report × Ledger → ServiceLabel Report →
    Option (AgentState Report × Ledger) :=
  observed serviceStep Ledger.note

/-! ### Where a task can go -/

/-- The task has not yet started the graph. -/
def RunRcaPc.BeforeGraph : RunRcaPc Report → Prop
  | .markRunning => True
  | .publishRunning => True
  | .getOrCreateThread => True
  | _ => False

/-- No task waits for its claim again. -/
theorem runRca_not_markRunning {pc pc' : RunRcaPc Report} {o : Outcome Report}
    {st st' : RunStore Report} (h : runRca pc o st = some (st', pc')) : pc' ≠ .markRunning := by
  rintro rfl
  cases pc <;> cases o <;>
    simp only [runRca, Option.some.injEq, Prod.mk.injEq, reduceCtorEq, and_false] at h
  obtain ⟨-, hpc⟩ := h
  split at hpc <;> cases hpc

/-- The graph starts once, right after the thread is there. -/
theorem runRca_beforeGraph {pc pc' : RunRcaPc Report} {o : Outcome Report}
    {st st' : RunStore Report} (h : runRca pc o st = some (st', pc')) (h' : pc'.BeforeGraph) :
    pc = .markRunning ∨ pc = .publishRunning := by
  cases pc with
  | markRunning => exact .inl rfl
  | publishRunning => exact .inr rfl
  | _ =>
    cases o <;> simp only [runRca, Option.some.injEq, Prod.mk.injEq, reduceCtorEq] at h
    all_goals
      obtain ⟨-, rfl⟩ := h
      exact h'.elim

/-- A task that owns the run owned it, or claims it now. -/
theorem runRca_owns {pc pc' : RunRcaPc Report} {o : Outcome Report} {st st' : RunStore Report}
    (h : runRca pc o st = some (st', pc')) (h' : pc'.OwnsRun) :
    pc.OwnsRun ∨ (pc = .markRunning ∧ o.commits ∧ Claimable st) := by
  cases pc with
  | markRunning =>
    right
    by_cases hst : Claimable st
    · cases o <;> simp only [runRca, Option.some.injEq, Prod.mk.injEq, reduceCtorEq] at h
      · exact ⟨rfl, trivial, hst⟩
      · obtain ⟨-, rfl⟩ := h
        exact h'.elim
      · exact ⟨rfl, trivial, hst⟩
    · cases o <;> simp only [runRca, markRunning_skips hst, Option.some.injEq, Prod.mk.injEq,
        reduceCtorEq] at h
      all_goals
        obtain ⟨-, rfl⟩ := h
        exact h'.elim
  | publishRunning => exact .inl trivial
  | getOrCreateThread => exact .inl trivial
  | graph => exact .inl trivial
  | completeRun report => exact .inl trivial
  | _ =>
    cases o <;> simp only [runRca, Option.some.injEq, Prod.mk.injEq, reduceCtorEq] at h
    all_goals
      obtain ⟨-, rfl⟩ := h
      exact h'.elim

/-! ### What is written down about a task -/

/-- The entry for one resumption: a claim, the start of the graph, a failure, or nothing. -/
theorem note_task {s : AgentState Report} {g : Ledger} {i : ℕ} {o : Outcome Report}
    {pc pc' : RunRcaPc Report} {st : RunStore Report} (hpc : s.tasks[i]? = some pc)
    (hrun : runRca pc o s.store = some (st, pc')) :
    (pc = .markRunning ∧ o.commits ∧ Claimable s.store ∧
      g.note s (.agent (.task i o)) = g.claim i) ∨
    (pc = .getOrCreateThread ∧ pc' = .graph ∧
      g.note s (.agent (.task i o)) = { g with executions := g.executions ++ [i] }) ∨
    (∃ e, pc = .failRun e ∧ o.commits ∧
      g.note s (.agent (.task i o)) = { g with failures := g.failures + 1 }) ∨
    ((pc = .markRunning → ¬ (o.commits ∧ Claimable s.store)) ∧
      (∀ e, pc = .failRun e → ¬ o.commits) ∧ g.note s (.agent (.task i o)) = g) := by
  simp only [Ledger.note, hpc]
  cases pc with
  | markRunning =>
    by_cases hc : o.commits ∧ Claimable s.store
    · exact .inl ⟨rfl, hc.1, hc.2, if_pos hc⟩
    · exact .inr (.inr (.inr ⟨fun _ => hc, fun e he => (nomatch he), if_neg hc⟩))
  | getOrCreateThread =>
    cases o with
    | returns now newId =>
      obtain ⟨-, rfl⟩ := Prod.mk.inj (Option.some.inj hrun)
      exact .inr (.inl ⟨rfl, rfl, rfl⟩)
    | _ => exact .inr (.inr (.inr ⟨fun he => (nomatch he), fun e he => (nomatch he), rfl⟩))
  | failRun e =>
    by_cases hc : o.commits
    · exact .inr (.inr (.inl ⟨e, rfl, hc, if_pos hc⟩))
    · exact .inr (.inr (.inr ⟨fun he => (nomatch he), fun _ _ => hc, if_neg hc⟩))
  | _ => exact .inr (.inr (.inr ⟨fun he => (nomatch he), fun e he => (nomatch he), rfl⟩))

/-! ### The ledger is kept -/

/-- The ledger and the tasks agree. -/
structure Kept (s : AgentState Report) (g : Ledger) : Prop where
  scheduled : g.scheduled.length = s.tasks.length
  /-- who claimed is past its claim -/
  claimed : ∀ i ∈ g.claims, ∃ pc, s.tasks[i]? = some pc ∧ pc ≠ .markRunning
  claimedOnce : g.claims.Nodup
  /-- who owns the run has claimed it -/
  owner : ∀ i pc, s.tasks[i]? = some pc → pc.OwnsRun → i ∈ g.claims
  /-- who executed the graph had claimed the run, and does not come back to the graph -/
  executed : ∀ i ∈ g.executions, i ∈ g.claims ∧ ∃ pc, s.tasks[i]? = some pc ∧ ¬ pc.BeforeGraph
  executedOnce : g.executions.Nodup

variable {s t : AgentState Report} {g g' : Ledger}

theorem kept_blank (h : s.tasks = []) : Kept s .blank where
  scheduled := by rw [h]; rfl
  claimed := fun i hi => (nomatch hi)
  claimedOnce := List.nodup_nil
  owner := fun i pc hi => by rw [h] at hi; cases hi
  executed := fun i hi => (nomatch hi)
  executedOnce := List.nodup_nil

/-- A new task has done nothing. -/
theorem Kept.spawn (h : Kept s g) (n : ℕ) (explicit : List ℕ) :
    Kept { s with tasks := s.tasks ++ [.markRunning], polled := n }
      { g with scheduled := g.scheduled ++ [g.failures], explicit := explicit } := by
  have old : ∀ {i : ℕ} {pc : RunRcaPc Report}, s.tasks[i]? = some pc →
      (s.tasks ++ [.markRunning])[i]? = some pc := by
    intro i pc hi
    rw [List.getElem?_append_left (List.getElem?_eq_some_iff.mp hi).1]
    exact hi
  constructor
  · show (g.scheduled ++ [g.failures]).length = (s.tasks ++ [RunRcaPc.markRunning]).length
    rw [List.length_append, List.length_append, h.scheduled]
    rfl
  · intro i hi
    obtain ⟨pc, hpc, hne⟩ := h.claimed i hi
    exact ⟨pc, old hpc, hne⟩
  · exact h.claimedOnce
  · intro i pc hi ho
    -- the new task owns nothing
    rcases getElem?_concat_some hi with ⟨-, rfl⟩ | hi
    · exact ho.elim
    · exact h.owner i pc hi ho
  · intro i hi
    obtain ⟨hc, pc, hpc, hb⟩ := h.executed i hi
    exact ⟨hc, pc, old hpc, hb⟩
  · exact h.executedOnce

/-- Tasks that move on without touching the run: each is where it was, or at a place that is past
the claim and the start of the graph and owns no more than before. -/
theorem Kept.move (h : Kept s g) {st : RunStore Report} {tasks : List (RunRcaPc Report)} {n m : ℕ}
    (hlen : tasks.length = s.tasks.length)
    (hmove : ∀ (i : ℕ) (pc' : RunRcaPc Report), tasks[i]? = some pc' → ∃ pc, s.tasks[i]? = some pc ∧
      (pc' = .markRunning → pc = .markRunning) ∧ (pc'.BeforeGraph → pc.BeforeGraph) ∧
      (pc'.OwnsRun → pc.OwnsRun)) :
    Kept ⟨st, tasks, n⟩ { g with failures := m } := by
  have new : ∀ {i : ℕ} {pc : RunRcaPc Report}, s.tasks[i]? = some pc → ∃ pc', tasks[i]? = some pc' ∧
      (pc' = .markRunning → pc = .markRunning) ∧ (pc'.BeforeGraph → pc.BeforeGraph) := by
    intro i pc hi
    have hlt : i < tasks.length := hlen ▸ (List.getElem?_eq_some_iff.mp hi).1
    obtain ⟨pc₀, hpc₀, hm, hb, -⟩ := hmove i tasks[i] (List.getElem?_eq_getElem hlt)
    obtain rfl := Option.some.inj (hpc₀.symm.trans hi)
    exact ⟨_, List.getElem?_eq_getElem hlt, hm, hb⟩
  constructor
  · exact h.scheduled.trans hlen.symm
  · intro i hi
    obtain ⟨pc, hpc, hne⟩ := h.claimed i hi
    obtain ⟨pc', hpc', hm, -⟩ := new hpc
    exact ⟨pc', hpc', fun he => hne (hm he)⟩
  · exact h.claimedOnce
  · intro i pc' hi ho
    obtain ⟨pc, hpc, -, -, hown⟩ := hmove i pc' hi
    exact h.owner i pc hpc (hown ho)
  · intro i hi
    obtain ⟨hc, pc, hpc, hb⟩ := h.executed i hi
    obtain ⟨pc', hpc', -, hb'⟩ := new hpc
    exact ⟨hc, pc', hpc', fun hbefore => hb (hb' hbefore)⟩
  · exact h.executedOnce

/-- One task moves on without a claim. -/
theorem Kept.advance (h : Kept s g) {i : ℕ} {pc pc' : RunRcaPc Report} {st : RunStore Report}
    {n m : ℕ} (hpc : s.tasks[i]? = some pc) (hm : pc' ≠ .markRunning)
    (hb : pc'.BeforeGraph → pc.BeforeGraph) (ho : pc'.OwnsRun → pc.OwnsRun) :
    Kept ⟨st, s.tasks.set i pc', n⟩ { g with failures := m } := by
  apply h.move (List.length_set ..)
  intro j q hj
  rcases getElem?_set_some hj with ⟨rfl, rfl⟩ | ⟨-, hj⟩
  · exact ⟨pc, hpc, fun he => absurd he hm, hb, ho⟩
  · exact ⟨q, hj, id, id, id⟩

/-- A task claims the run. -/
theorem Kept.claims (h : Kept s g) {i : ℕ} {pc' : RunRcaPc Report} {st : RunStore Report} {n : ℕ}
    (hpc : s.tasks[i]? = some .markRunning) (hm : pc' ≠ .markRunning) :
    Kept ⟨st, s.tasks.set i pc', n⟩ (g.claim i) := by
  have hlt := (List.getElem?_eq_some_iff.mp hpc).1
  -- it waited for its claim, so it is not in the ledger yet
  have hnew : i ∉ g.claims := by
    intro hi
    obtain ⟨pc, hpc', hne⟩ := h.claimed i hi
    exact hne (Option.some.inj (hpc'.symm.trans hpc))
  have hself : (s.tasks.set i pc')[i]? = some pc' := List.getElem?_set_self hlt
  have hother : ∀ {j : ℕ}, j ≠ i → (s.tasks.set i pc')[j]? = s.tasks[j]? :=
    fun hji => List.getElem?_set_ne (Ne.symm hji)
  constructor
  · exact h.scheduled.trans (List.length_set ..).symm
  · intro j hj
    rcases List.mem_append.mp hj with hj | hj
    · have hji : j ≠ i := fun e => hnew (e ▸ hj)
      obtain ⟨pc, hpc', hne⟩ := h.claimed j hj
      exact ⟨pc, (hother hji).trans hpc', hne⟩
    · obtain rfl := List.mem_singleton.mp hj
      exact ⟨pc', hself, hm⟩
  · show (g.claims ++ [i]).Nodup
    rw [List.nodup_append]
    refine ⟨h.claimedOnce, List.nodup_singleton i, fun a ha b hb hab => hnew ?_⟩
    rw [← List.mem_singleton.mp hb, ← hab]
    exact ha
  · intro j pc hj ho
    rcases getElem?_set_some hj with ⟨rfl, -⟩ | ⟨-, hj⟩
    · exact List.mem_append_right _ (List.mem_singleton_self j)
    · exact List.mem_append_left _ (h.owner j pc hj ho)
  · intro j hj
    obtain ⟨hc, pc, hpc', hb⟩ := h.executed j hj
    have hji : j ≠ i := fun e => hnew (e ▸ hc)
    exact ⟨List.mem_append_left _ hc, pc, (hother hji).trans hpc', hb⟩
  · exact h.executedOnce

/-- The owner of the run starts the graph. -/
theorem Kept.executes (h : Kept s g) {i : ℕ} {st : RunStore Report} {n : ℕ}
    (hpc : s.tasks[i]? = some .getOrCreateThread) :
    Kept ⟨st, s.tasks.set i .graph, n⟩ { g with executions := g.executions ++ [i] } := by
  have hlt := (List.getElem?_eq_some_iff.mp hpc).1
  have hmoved : Kept ⟨st, s.tasks.set i .graph, n⟩ { g with failures := g.failures } :=
    h.advance hpc (fun he => (nomatch he)) (fun hb => hb.elim) fun _ => trivial
  -- before the graph it had not executed it
  have hnew : i ∉ g.executions := by
    intro hi
    obtain ⟨-, pc, hpc', hb⟩ := h.executed i hi
    obtain rfl := Option.some.inj (hpc'.symm.trans hpc)
    exact hb trivial
  refine ⟨hmoved.scheduled, hmoved.claimed, hmoved.claimedOnce, hmoved.owner, fun j hj => ?_, ?_⟩
  · rcases List.mem_append.mp hj with hj | hj
    · exact hmoved.executed j hj
    · obtain rfl := List.mem_singleton.mp hj
      refine ⟨h.owner j _ hpc trivial, .graph, ?_, id⟩
      show (s.tasks.set j .graph)[j]? = some .graph
      exact List.getElem?_set_self hlt
  · show (g.executions ++ [i]).Nodup
    rw [List.nodup_append]
    refine ⟨h.executedOnce, List.nodup_singleton i, fun a ha b hb hab => hnew ?_⟩
    rw [← List.mem_singleton.mp hb, ← hab]
    exact ha

/-- Every step keeps the ledger. -/
theorem Kept.step {l : ServiceLabel Report} (h : Kept s g)
    (hstep : ledgerStep (s, g) l = some (t, g')) : Kept t g' := by
  obtain ⟨hs, rfl⟩ := observed_some hstep
  cases l with
  -- a crash ends the tasks; what they had claimed stays claimed
  | crash =>
    obtain rfl := Option.some.inj hs
    apply h.move (List.length_map ..)
    intro i pc' hi
    obtain ⟨pc, hpc, rfl⟩ := Option.map_eq_some_iff.mp ((List.getElem?_map ..).symm.trans hi)
    exact ⟨pc, hpc, fun he => (nomatch he), fun hb => hb.elim, fun ho => ho.elim⟩
  | agent l =>
    cases l with
    -- a new task has claimed nothing yet
    | startRun =>
      obtain rfl := Option.some.inj hs
      exact h.spawn s.polled _
    | pollRead =>
      obtain ⟨-, heq⟩ := Option.ite_none_right_eq_some.mp hs
      obtain rfl := Option.some.inj heq
      exact ⟨h.scheduled, h.claimed, h.claimedOnce, h.owner, h.executed, h.executedOnce⟩
    -- nor has one that the poller starts
    | pollSchedule =>
      obtain ⟨-, heq⟩ := Option.ite_none_right_eq_some.mp hs
      obtain rfl := Option.some.inj heq
      exact h.spawn (s.polled - 1) _
    | cancel i =>
      obtain rfl := Option.some.inj hs
      apply h.move (List.length_set ..)
      intro j q hj
      rcases getElem?_set_some hj with ⟨rfl, rfl⟩ | ⟨-, hj⟩
      · have hlt : j < s.tasks.length := by
          have hj' := (List.getElem?_eq_some_iff.mp hj).1
          rwa [List.length_set] at hj'
        exact ⟨_, List.getElem?_eq_getElem hlt, fun he => (nomatch he), fun hb => hb.elim,
          fun ho => ho.elim⟩
      · exact ⟨q, hj, id, id, id⟩
    -- a step of the task is noted if it claims, executes the graph, or fails the run
    | task i o =>
      obtain ⟨pc, hpc, hmap⟩ := Option.bind_eq_some_iff.mp hs
      obtain ⟨⟨st, pc'⟩, hrun, rfl⟩ := Option.map_eq_some_iff.mp hmap
      have hm := runRca_not_markRunning hrun
      have hb : pc'.BeforeGraph → pc.BeforeGraph := by
        intro hb
        rcases runRca_beforeGraph hrun hb with rfl | rfl <;> trivial
      rcases note_task (g := g) hpc hrun with ⟨rfl, -, -, hg⟩ | ⟨rfl, rfl, hg⟩ | ⟨e, rfl, -, hg⟩ |
        ⟨hnot, -, hg⟩
      · rw [hg]
        exact h.claims hpc hm
      · rw [hg]
        exact h.executes hpc
      · rw [hg]
        apply h.advance hpc hm hb
        intro ho
        rcases runRca_owns hrun ho with ho | ⟨he, -⟩
        · exact ho
        · cases he
      · rw [hg]
        apply h.advance (m := g.failures) hpc hm hb
        intro ho
        rcases runRca_owns hrun ho with ho | ⟨rfl, hc⟩
        · exact ho
        · exact absurd hc (hnot rfl)

/-- The ledger is kept along every run. -/
theorem exec_kept {ls : List (ServiceLabel Report)} (h : Kept s g)
    (hrun : exec ledgerStep (s, g) ls = some (t, g')) : Kept t g' :=
  exec_invariant (I := fun x => Kept x.1 x.2) (fun _ _ _ hx _ hstep => hx.step hstep) h
    (along_true _ ls) hrun

end NexCause
