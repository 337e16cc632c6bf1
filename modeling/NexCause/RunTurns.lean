/-
NexCause/RunTurns.lean

The order in which `poll_pending_runs` takes up the pending runs of a
workspace.

`pending_runs` returns the three oldest.  It returns them again as long as they
are pending, so a run can wait for ever behind three that nobody claims; the
condition `Taken` on a read says that what was read before has been claimed
since.

Main result: a pending run is never passed over for a later one, and under the
condition it is read after at most a third as many reads as there are runs not
later than it (`read_in_turn`).
-/
import NexCause.RunQueue

namespace NexCause

open Transition

variable {Report : Type} {key : RunKey} {s t : QueueState Report}

/-! ### What is read -/

/-- The run is stored, and pending. -/
def RunTables.Pending (db : RunTables Report) (key : RunKey) : Prop :=
  (db.store key).map (fun st => st.run.status) = some .pending

instance (db : RunTables Report) (key : RunKey) : Decidable (db.Pending key) :=
  inferInstanceAs (Decidable (_ = _))

/-- The reads of a workspace, each with the runs it returned. -/
def noteReads (workspaceId : String) (s : QueueState Report) (l : QueueLabel Report)
    (reads : List (List RunKey)) : List (List RunKey) :=
  match l, s.poller with
  | .pollRead order, .asking asked _ =>
      if asked = workspaceId then reads ++ [(order.take 3).map Prod.fst] else reads
  | _, _ => reads

/-- The step reads the workspace. -/
def readsWorkspace (workspaceId : String) (s : QueueState Report) (l : QueueLabel Report) : Bool :=
  match l, s.poller with
  | .pollRead _, .asking asked _ => asked = workspaceId
  | _, _ => false

/-- When the workspace is read, what was read before is no longer pending. -/
def Taken (workspaceId : String) (x : QueueState Report × List (List RunKey))
    (l : QueueLabel Report) : Prop :=
  readsWorkspace workspaceId x.1 l = true → ∀ key ∈ x.2.flatten, ¬ x.1.db.Pending key

instance (workspaceId : String) (x : QueueState Report × List (List RunKey))
    (l : QueueLabel Report) : Decidable (Taken workspaceId x l) :=
  inferInstanceAs (Decidable (_ → _))

/-- The service with the reads of a workspace. -/
abbrev turnStep (workspaceId : String) : QueueState Report × List (List RunKey) →
    QueueLabel Report → Option (QueueState Report × List (List RunKey)) :=
  observed queueStep (noteReads workspaceId)

/-- The runs of a workspace, but for one, that are not later than a time. -/
def earlier (key : RunKey) (createdAt : ℕ) (db : RunTables Report) : List RunKey :=
  (db.creations.filter fun run =>
    run.1.workspaceId = key.workspaceId ∧ run.2 ≤ createdAt ∧ run.1 ≠ key).map Prod.fst

/-! ### What the tables keep -/

theorem creations_step {l : QueueLabel Report} (hstep : queueStep s l = some t) :
    s.db.creations ⊆ t.db.creations := by
  obtain heq | ⟨other, createdAt, source, hunused, rfl⟩ | ⟨other, pc, o, pc', hmove⟩ :=
    queueStep_db hstep
  · rw [heq]
    exact List.Subset.refl _
  · intro run hmem
    show run ∈ List.map _ (s.db.runs ++ [_])
    rw [List.map_append]
    exact List.mem_append_left _ hmem
  · rw [(runTask_store hmove).1.creations_eq]
    exact List.Subset.refl _

theorem runRca_not_pending {pc pc' : RunRcaPc Report} {o : Outcome Report}
    {st st' : RunStore Report} (h : runRca pc o st = some (st', pc'))
    (hst : st.run.status ≠ .pending) : st'.run.status ≠ .pending := by
  rcases runRca_cases h with ⟨heq, -⟩ | ⟨-, -, heq⟩ | ⟨-, -, heq⟩ | ⟨_, -, -, -, heq⟩
  · rwa [heq]
  all_goals
    rw [heq]
    decide

/-- A run that is stored and is not pending does not become pending. -/
theorem pending_step {l : QueueLabel Report} (hstep : queueStep s l = some t)
    (hst : (s.db.store key).isSome) (h : t.db.Pending key) : s.db.Pending key := by
  obtain ⟨st, hst⟩ := Option.isSome_iff_exists.mp hst
  obtain heq | ⟨other, createdAt, source, hunused, rfl⟩ | ⟨other, pc, o, pc', hmove⟩ :=
    queueStep_db hstep
  · rwa [heq] at h
  · have hother : key ≠ other := by
      rintro rfl
      cases (store_none_of_unused hunused.1).symm.trans hst
    unfold RunTables.Pending at h ⊢
    rwa [store_insertRun hunused.1 hother] at h
  · obtain ⟨hkeeps, hown⟩ := runTask_store hmove
    unfold RunTables.Pending at h ⊢
    by_cases hother : key = other
    · subst hother
      obtain ⟨st', hrun, hst'⟩ := hown st hst
      rw [hst'] at h
      rw [hst]
      by_contra hnot
      exact runRca_not_pending hrun (fun heq => hnot (congrArg some heq)) (Option.some.inj h)
    · rwa [hkeeps.other key hother] at h

/-- The runs of the tables have different keys. -/
theorem creations_nodup (db : RunTables Report) : (db.creations.map Prod.fst).Nodup := by
  have hids : db.runs.map (fun row => row.run.id) =
      (db.creations.map Prod.fst).map RunKey.runId := by
    unfold RunTables.creations
    rw [List.map_map, List.map_map]
    rfl
  exact List.Nodup.of_map RunKey.runId (hids ▸ db.primaryKey)

/-- A run is among the pending rows of its workspace exactly while it is pending. -/
theorem mem_pendingRows_iff {db : RunTables Report} {workspaceId : String} {createdAt : ℕ} :
    (key, createdAt) ∈ db.pendingRows workspaceId ↔
      (key, createdAt) ∈ db.creations ∧ key.workspaceId = workspaceId ∧ db.Pending key := by
  unfold RunTables.pendingRows RunTables.creations RunTables.Pending
  simp only [List.mem_map, List.mem_filter, decide_eq_true_eq, Prod.mk.injEq]
  constructor
  · rintro ⟨row, ⟨hmem, hstatus, hworkspace⟩, rfl, rfl⟩
    obtain ⟨st, hst, hrun⟩ := RunTables.store_of_row hmem
    refine ⟨⟨row, hmem, rfl, rfl⟩, hworkspace, ?_⟩
    rw [hst, Option.map_some, hrun, hstatus]
  · rintro ⟨⟨row, hmem, rfl, rfl⟩, hworkspace, hpending⟩
    obtain ⟨st, hst, hrun⟩ := RunTables.store_of_row hmem
    refine ⟨row, ⟨hmem, ?_, hworkspace⟩, rfl, rfl⟩
    rw [hst, Option.map_some] at hpending
    rw [← hrun]
    exact Option.some.inj hpending

theorem pendingRows_nodup (db : RunTables Report) (workspaceId : String) :
    ((db.pendingRows workspaceId).map Prod.fst).Nodup := by
  refine List.Nodup.sublist ?_ (creations_nodup db)
  unfold RunTables.pendingRows RunTables.creations
  exact (List.filter_sublist.map _).map _

/-! ### One read -/

/-- **One read.**  A pending run is read, or three others are that are not later. -/
theorem read_oldest {rows order : List (RunKey × ℕ)} {createdAt : ℕ} (h : Ordered rows order)
    (hmem : (key, createdAt) ∈ rows) :
    key ∈ (order.take 3).map Prod.fst ∨
      (order.take 3).length = 3 ∧ ∀ run ∈ order.take 3, run.2 ≤ createdAt := by
  -- in the order, what is left out comes after what is returned
  have hsplit : (key, createdAt) ∈ order.take 3 ++ order.drop 3 := by
    rw [List.take_append_drop]
    exact h.1.mem_iff.mpr hmem
  rcases List.mem_append.mp hsplit with htake | hdrop
  · exact .inl (List.mem_map_of_mem htake)
  · right
    constructor
    · have hlong : 0 < (order.drop 3).length := List.length_pos_of_mem hdrop
      rw [List.length_drop] at hlong
      rw [List.length_take]
      omega
    · intro run hrun
      have hsorted := h.2
      rw [← List.take_append_drop 3 order, List.pairwise_append] at hsorted
      exact hsorted.2.2 run hrun _ hdrop

/-! ### Turns -/

/-- A step reads nothing of the workspace, or it returns the first three of its
pending runs and changes no table. -/
theorem turnStep_cases {workspaceId : String} {l : QueueLabel Report}
    {reads reads' : List (List RunKey)}
    (hturn : turnStep workspaceId (s, reads) l = some (t, reads')) :
    (queueStep s l = some t ∧ reads' = reads) ∨
    ∃ order, readsWorkspace workspaceId s l = true ∧
      Ordered (s.db.pendingRows workspaceId) order ∧ t.db = s.db ∧
      reads' = reads ++ [(order.take 3).map Prod.fst] := by
  obtain ⟨hstep, rfl⟩ := observed_some hturn
  unfold noteReads
  split
  · rename_i order asked rest hpoller
    by_cases h : asked = workspaceId
    · subst h
      simp only [queueStep, hpoller] at hstep
      split at hstep
      · rename_i hordered
        obtain rfl := Option.some.inj hstep
        refine .inr ⟨order, ?_, hordered, rfl, if_pos rfl⟩
        unfold readsWorkspace
        rw [hpoller]
        exact decide_eq_true rfl
      · cases hstep
    · exact .inl ⟨hstep, if_neg h⟩
  · exact .inl ⟨hstep, rfl⟩

/-- What a read returns are pending runs of the workspace. -/
theorem pending_of_ordered {db : RunTables Report} {workspaceId : String}
    {order : List (RunKey × ℕ)} (h : Ordered (db.pendingRows workspaceId) order)
    {run : RunKey × ℕ} (hrun : run ∈ order.take 3) :
    run ∈ db.creations ∧ run.1.workspaceId = workspaceId ∧ db.Pending run.1 :=
  mem_pendingRows_iff.mp (h.1.mem_iff.mp (List.mem_of_mem_take hrun))

/-- While a run is pending and has not been read, each read has returned three
runs that are not later. -/
structure Waits (key : RunKey) (createdAt : ℕ) (x : QueueState Report × List (List RunKey)) :
    Prop where
  stored : (key, createdAt) ∈ x.1.db.creations
  turns : x.1.db.Pending key → key ∉ x.2.flatten →
    x.2.flatten.length = 3 * x.2.length ∧ x.2.flatten ⊆ earlier key createdAt x.1.db

theorem earlier_step {l : QueueLabel Report} {createdAt : ℕ} (hstep : queueStep s l = some t) :
    earlier key createdAt s.db ⊆ earlier key createdAt t.db := by
  unfold earlier
  intro run hmem
  obtain ⟨x, hx, rfl⟩ := List.mem_map.mp hmem
  obtain ⟨hold, hcond⟩ := List.mem_filter.mp hx
  exact List.mem_map_of_mem (List.mem_filter.mpr ⟨creations_step hstep hold, hcond⟩)

theorem isSome_of_creations {db : RunTables Report} {createdAt : ℕ}
    (h : (key, createdAt) ∈ db.creations) : (db.store key).isSome := by
  obtain ⟨row, hmem, heq⟩ := List.mem_map.mp h
  obtain ⟨rfl, -⟩ := Prod.mk.inj heq
  obtain ⟨st, hst, -⟩ := RunTables.store_of_row hmem
  rw [hst]
  rfl

theorem waits_step {l : QueueLabel Report} {createdAt : ℕ} {reads reads' : List (List RunKey)}
    (h : Waits key createdAt (s, reads))
    (hturn : turnStep key.workspaceId (s, reads) l = some (t, reads')) :
    Waits key createdAt (t, reads') := by
  rcases turnStep_cases hturn with ⟨hstep, rfl⟩ | ⟨order, -, hordered, hdb, rfl⟩
  · refine ⟨creations_step hstep h.stored, fun hpending hunread => ?_⟩
    have hbefore : s.db.Pending key := pending_step hstep (isSome_of_creations h.stored) hpending
    obtain ⟨hlength, hsub⟩ := h.turns hbefore hunread
    exact ⟨hlength, List.Subset.trans hsub (earlier_step hstep)⟩
  · refine ⟨hdb ▸ h.stored, fun hpending hunread => ?_⟩
    have hbefore : s.db.Pending key := hdb ▸ hpending
    rw [List.flatten_append, List.flatten_singleton] at hunread ⊢
    rw [hdb]
    obtain ⟨hearlier, hnew⟩ := not_or.mp (mt List.mem_append.mpr hunread)
    obtain ⟨hlength, hsub⟩ : reads.flatten.length = 3 * reads.length ∧
        reads.flatten ⊆ earlier key createdAt s.db := h.turns hbefore hearlier
    have hrow : (key, createdAt) ∈ s.db.pendingRows key.workspaceId :=
      mem_pendingRows_iff.mpr ⟨h.stored, rfl, hbefore⟩
    -- the run is pending and is passed over, so the read is full of others
    obtain ⟨hthree, hold⟩ := (read_oldest hordered hrow).resolve_left hnew
    constructor
    · rw [List.length_append, List.length_append, List.length_map, hlength, hthree,
        List.length_singleton]
      omega
    · refine List.append_subset.mpr ⟨hsub, fun other hother => ?_⟩
      obtain ⟨run, hrun, rfl⟩ := List.mem_map.mp hother
      obtain ⟨hmem, hworkspace, -⟩ := pending_of_ordered hordered hrun
      refine List.mem_map_of_mem (List.mem_filter.mpr ⟨hmem, ?_⟩)
      exact decide_eq_true ⟨hworkspace, hold run hrun, fun heq => hnew (heq ▸ hother)⟩

/-- What was read before and has been taken is not read again. -/
theorem once_step {workspaceId : String} {l : QueueLabel Report} {reads reads' : List (List RunKey)}
    (h : reads.flatten.Nodup) (htaken : Taken workspaceId (s, reads) l)
    (hturn : turnStep workspaceId (s, reads) l = some (t, reads')) : reads'.flatten.Nodup := by
  rcases turnStep_cases hturn with ⟨-, rfl⟩ | ⟨order, hread, hordered, -, rfl⟩
  · exact h
  · rw [List.flatten_append, List.flatten_singleton]
    refine List.nodup_append.mpr ⟨h, ?_, ?_⟩
    · refine List.Nodup.sublist ((List.take_sublist 3 order).map _) ?_
      exact (hordered.1.map Prod.fst).nodup_iff.mpr (pendingRows_nodup _ _)
    · -- each of the new ones is pending, none of the old ones is
      rintro other hmem _ hother rfl
      obtain ⟨run, hrun, rfl⟩ := List.mem_map.mp hother
      exact htaken hread _ hmem (pending_of_ordered hordered hrun).2.2

/-- **Turns.**  From any state on, a run that is still pending in the end has
been read, or all that has been read are other runs of its workspace not later
than it, three by each read.  If each read also finds what was read before
taken, none of them is read twice, so `n` reads reach the run unless `3 * n`
others are not later than it. -/
theorem read_in_turn {createdAt : ℕ} {reads : List (List RunKey)} {ls : List (QueueLabel Report)}
    (hrun : exec (turnStep key.workspaceId) (s, []) ls = some (t, reads))
    (hstored : (key, createdAt) ∈ s.db.creations) (hpending : t.db.Pending key) :
    key ∈ reads.flatten ∨
      (reads.flatten ⊆ earlier key createdAt t.db ∧ reads.flatten.length = 3 * reads.length) ∧
        (Along (turnStep key.workspaceId) (Taken key.workspaceId) (s, []) ls →
          reads.flatten.Nodup ∧ 3 * reads.length ≤ (earlier key createdAt t.db).length) := by
  have hwaits : Waits key createdAt (t, reads) := by
    refine exec_invariant (C := fun _ _ => True) (fun _ _ _ h _ hturn => waits_step h hturn) ?_
      (along_true ..) hrun
    exact ⟨hstored, fun _ _ => ⟨rfl, List.nil_subset _⟩⟩
  by_cases hread : key ∈ reads.flatten
  · exact .inl hread
  · obtain ⟨hlength, hsub⟩ := hwaits.turns hpending hread
    refine .inr ⟨⟨hsub, hlength⟩, fun htaken => ?_⟩
    have hnodup : reads.flatten.Nodup := by
      have honce := exec_invariant (I := fun x => x.2.flatten.Nodup)
        (fun _ _ _ h hC hturn => once_step h hC hturn) List.nodup_nil htaken hrun
      exact honce
    refine ⟨hnodup, ?_⟩
    rw [← hlength]
    exact (hnodup.subperm hsub).length_le

/-- Four pending runs of one workspace. -/
def crowded : QueueState String where
  db := {
    runs := [("a", 1), ("b", 2), ("c", 3), ("d", 4)].map fun run =>
      ⟨"shop", run.2, ⟨run.1, .pending, none, none, none, none⟩⟩
    events := []
    threads := []
    primaryKey := by decide }
  active := ["shop"]
  tasks := []
  poller := .sleeping

/-- The oldest three are read and claimed, then the last one is read. -/
def twoRounds : List (QueueLabel String) :=
  [.pollWake,
   .pollRead [(⟨"shop", "a"⟩, 1), (⟨"shop", "b"⟩, 2), (⟨"shop", "c"⟩, 3), (⟨"shop", "d"⟩, 4)],
   .pollSchedule, .task 0 (.returns 5 ""), .task 1 (.returns 6 ""), .task 2 (.returns 7 ""),
   .pollWake, .pollRead [(⟨"shop", "d"⟩, 4)]]

theorem read_in_turn_twoRounds : ∃ t reads,
    exec (turnStep "shop") (crowded, []) twoRounds = some (t, reads) ∧
      (⟨"shop", "d"⟩ ∈ reads.flatten ∨
        (reads.flatten ⊆ earlier ⟨"shop", "d"⟩ 4 t.db ∧
            reads.flatten.length = 3 * reads.length) ∧
          (Along (turnStep "shop") (Taken "shop") (crowded, []) twoRounds →
            reads.flatten.Nodup ∧ 3 * reads.length ≤ (earlier ⟨"shop", "d"⟩ 4 t.db).length)) ∧
      Along (turnStep "shop") (Taken "shop") (crowded, []) twoRounds := by
  have hend : (exec (turnStep "shop") (crowded, []) twoRounds).any (fun x =>
      decide (x.1.db.Pending ⟨"shop", "d"⟩)) = true := by decide +kernel
  obtain ⟨⟨t, reads⟩, hrun, hpending⟩ := (Option.any_eq_true ..).mp hend
  refine ⟨t, reads, hrun, ?_, by decide +kernel⟩
  exact read_in_turn (s := crowded) hrun (by decide +kernel) (of_decide_eq_true hpending)

end NexCause
