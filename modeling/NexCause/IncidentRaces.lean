/-
NexCause/IncidentRaces.lean

Open incidents of the detector, one for each deployment and rule.  It looks
for one and creates one if there is none; no unique index stands behind that.
Two tasks that have both found none create one each.  They may be of passes of
two instances, or of one instance: a pass ends with the first signal of a
deployment that fails, and the other signals go on beside the next pass.

Without two such tasks there is never more than one, and with them there can
be (`open_incident_unique_unless_racing`).
-/
import Mathlib.Data.Fintype.EquivFin
import NexCause.IncidentTasks

namespace NexCause.Incidents

open Program Prog Transition

/-! ### Open incidents -/

/-- An incident of the detector that is open, for the deployment and the rule. -/
def OpenAutomatic (deploymentId ruleKey : String) (i : Incident) : Prop :=
  i.status = .«open» ∧ i.source = .automatic ∧ i.deploymentId = deploymentId ∧
    i.ruleKey = some ruleKey

instance (deploymentId ruleKey : String) : DecidablePred (OpenAutomatic deploymentId ruleKey) :=
  fun i => by unfold OpenAutomatic; infer_instance

/-- How many there are. -/
def Database.openAutomatic (db : Database) (deploymentId ruleKey : String) : ℕ :=
  db.incidents.countP fun i => OpenAutomatic deploymentId ruleKey i

/-- At most one for each deployment and rule. -/
def OneOpenIncident (db : Database) : Prop :=
  ∀ deploymentId ruleKey, db.openAutomatic deploymentId ruleKey ≤ 1

/-- The deployment and rule for which a fiber has found no open incident and is
about to create one. -/
def Manager.opening (x : Manager) (i : ℕ) : Option (String × String) :=
  match x.next i with
  | some (.call (.statement _ (.createIncident data))) =>
      match data.source, data.ruleKey with
      | .automatic, some ruleKey => some (data.deploymentId, ruleKey)
      | _, _ => none
  | _ => none

/-- Two tasks are about to create an incident for one deployment and rule. -/
def Racing (x : Manager) : Prop :=
  ∃ i < x.fibers.length, ∃ j < x.fibers.length, i ≠ j ∧ (x.opening i).isSome ∧
    x.opening i = x.opening j

instance : DecidablePred Racing := fun x => by unfold Racing; infer_instance

theorem opening_some {x : Manager} {i : ℕ} {deploymentId ruleKey : String} :
    x.opening i = some (deploymentId, ruleKey) ↔
      ∃ ws data, x.next i = some (.call (.statement ws (.createIncident data))) ∧
        data.source = .automatic ∧ data.deploymentId = deploymentId ∧
          data.ruleKey = some ruleKey := by
  unfold Manager.opening
  constructor
  · intro h
    split at h
    · rename_i ws data hnext
      split at h
      · rename_i key hsource hrule
        obtain ⟨rfl, rfl⟩ := Prod.mk.inj (Option.some.inj h)
        exact ⟨ws, data, hnext, hsource, rfl, hrule⟩
      · cases h
    · cases h
  · rintro ⟨ws, data, hnext, hsource, rfl, hrule⟩
    rw [hnext]
    simp only [hsource, hrule]

theorem opening_lt {x : Manager} {i : ℕ} {key : String × String} (h : x.opening i = some key) :
    i < x.fibers.length := by
  obtain ⟨ws, data, hnext, -⟩ := opening_some.mp h
  obtain ⟨f, k, hf, -⟩ := Fibers.next_some.mp hnext
  exact (List.getElem?_eq_some_iff.mp hf).1

/-! ### What a call does to them -/

theorem openAutomatic_withIncident (db : Database) (incident : Incident)
    (deploymentId ruleKey : String) :
    (db.withIncident incident).openAutomatic deploymentId ruleKey =
      db.openAutomatic deploymentId ruleKey +
        if OpenAutomatic deploymentId ruleKey incident then 1 else 0 := by
  unfold Database.openAutomatic Database.withIncident
  rw [List.countP_append, List.countP_singleton]
  simp only [decide_eq_true_eq]

theorem openAutomatic_updated (db : Database) (ws id : String) (f : Incident → Incident)
    (deploymentId ruleKey : String)
    (hf : ∀ i, OpenAutomatic deploymentId ruleKey (f i) → OpenAutomatic deploymentId ruleKey i) :
    (db.updated ws id f).openAutomatic deploymentId ruleKey ≤
      db.openAutomatic deploymentId ruleKey := by
  unfold Database.openAutomatic Database.updated
  rw [List.countP_map]
  apply List.countP_mono_left
  intro i _ hi
  rw [decide_eq_true_eq]
  have hi' : OpenAutomatic deploymentId ruleKey
      (if i.id = id ∧ i.workspaceId = ws then f i else i) := of_decide_eq_true hi
  split at hi'
  · exact hf i hi'
  · exact hi'

/-- No update opens an incident. -/
theorem openAutomatic_of_apply {now : ℕ} {change : IncidentChange} {deploymentId ruleKey : String}
    (i : Incident) (h : OpenAutomatic deploymentId ruleKey (change.apply now i)) :
    OpenAutomatic deploymentId ruleKey i := by
  cases change with
  | detected severity summary sampleId metadata => exact h
  | resolved => cases h.1

/-- Only a creation by the detector adds one. -/
theorem Effect.openAutomatic {db db' : Database} {c : Call} {r : Except IncidentError c.Result}
    (h : Effect db c r db') (deploymentId ruleKey : String) :
    db'.openAutomatic deploymentId ruleKey ≤ db.openAutomatic deploymentId ruleKey ∨
      (∃ ws data, c = .statement ws (.createIncident data) ∧ data.source = .automatic ∧
        data.deploymentId = deploymentId ∧ data.ruleKey = some ruleKey) ∧
      db'.openAutomatic deploymentId ruleKey = db.openAutomatic deploymentId ruleKey + 1 := by
  cases h with
  | nothing => exact .inl le_rfl
  -- a row more, counted if it is open and automatic
  | @created ws data x hinsert =>
    rw [openAutomatic_withIncident]
    split
    · rename_i hopen
      exact .inr ⟨⟨ws, data, rfl, hopen.2.1, hopen.2.2.1, hopen.2.2.2⟩, rfl⟩
    · exact .inl le_rfl
  | updated now hrow =>
    left
    apply openAutomatic_updated
    exact openAutomatic_of_apply
  | started x hincident => exact .inl le_rfl
  -- a request opens an incident, but no automatic one
  | @requested ws id deployment data x y hdeployment happ hid hsource hrule hinsert =>
    left
    show (db.withIncident (data.row ws x)).openAutomatic deploymentId ruleKey ≤ _
    rw [openAutomatic_withIncident, if_neg]
    · exact le_rfl
    · intro hopen
      have hautomatic : data.source = .automatic := hopen.2.1
      rw [hsource] at hautomatic
      cases hautomatic

/-! ### Without races -/

/-- Whoever is about to create an incident has found none, and there is none. -/
structure Single (x : Manager) : Prop where
  one : OneOpenIncident x.state.db
  none : ∀ i deploymentId ruleKey, x.opening i = some (deploymentId, ruleKey) →
    x.state.db.openAutomatic deploymentId ruleKey = 0

section Run

variable {autoRcaEnabled : Bool} {db₀ : Database} {s t : Manager} {l : ℕ × (ℕ → Choice)}

/-- The policy has been kept. -/
abbrev Regular (autoRcaEnabled : Bool) (db₀ : Database) (s : Manager) : Prop :=
  (incidentPolicy db₀.deployments).Kept (Job.task autoRcaEnabled) (Steady db₀) s

/-- A fiber that is about to create an incident has just found none. -/
theorem Regular.opening (h : Regular autoRcaEnabled db₀ s) {i : ℕ} {deploymentId ruleKey : String}
    (hi : s.opening i = some (deploymentId, ruleKey)) :
    ∃ ws, (incidentPolicy db₀.deployments).phase s i = .absent ws deploymentId ruleKey ∧
      ∃ d ∈ db₀.deployments, d.id = deploymentId ∧ d.workspaceId = ws := by
  obtain ⟨ws, data, hnext, hsource, rfl, hrule⟩ := opening_some.mp hi
  obtain ⟨⟨d, hd, hid, hws, -⟩, ⟨hmanual, -⟩ | ⟨-, ruleKey', hrule', hphase⟩⟩ :=
    h.pre (incidentPolicy_lawful autoRcaEnabled db₀) hnext
  · rw [hsource] at hmanual
    cases hmanual
  · obtain rfl := Option.some.inj (hrule.symm.trans hrule')
    exact ⟨ws, hphase, d, hd, hid, hws⟩

/-- The deployment's workspace sees all its open incidents. -/
theorem Consistent.mem_openIncidents {db : Database} (h : Consistent db)
    {ws deploymentId ruleKey : String}
    (hd : ∃ d ∈ db.deployments, d.id = deploymentId ∧ d.workspaceId = ws) {i : Incident}
    (hi : i ∈ db.incidents) (hstatus : i.status = .«open») (hdeployment : i.deploymentId = deploymentId)
    (hrule : i.ruleKey = some ruleKey) : i ∈ db.openIncidents ws deploymentId ruleKey := by
  obtain ⟨d, hd, hid, hws⟩ := hd
  obtain ⟨d', hd', hid', hws'⟩ := h.incidentDeployment i hi
  obtain rfl := h.deployment_eq hd hd' (hid.trans (hdeployment.symm.trans hid'.symm))
  apply Database.mem_openIncidents.mpr
  exact ⟨hi, hws'.symm.trans hws, hdeployment, hstatus, hrule⟩

theorem openAutomatic_eq_zero {db : Database} (h : Consistent db) {ws deploymentId ruleKey : String}
    (hd : ∃ d ∈ db.deployments, d.id = deploymentId ∧ d.workspaceId = ws)
    (hnone : db.openIncidents ws deploymentId ruleKey = []) :
    db.openAutomatic deploymentId ruleKey = 0 := by
  apply List.countP_eq_zero.mpr
  intro i hi hopen
  obtain ⟨hstatus, -, hdeployment, hrule⟩ := of_decide_eq_true hopen
  have hmem := h.mem_openIncidents hd hi hstatus hdeployment hrule
  rw [hnone] at hmem
  cases hmem

/-- Who remembers that there was none has just asked. -/
theorem seen_absent {c : Call} {env : ℕ → Choice} {s : System} {ws deploymentId ruleKey : String}
    (h : seen (.call c) (serve c env s).1 = .absent ws deploymentId ruleKey) :
    c = .statement ws (.findOpenIncident deploymentId ruleKey) ∧
      s.db.openIncidents ws deploymentId ruleKey = [] := by
  have hholds := seen_holds c env s
  rwa [h] at hholds

/-- A fiber that is about to create an incident was so before the step, or has
found none in this very step. -/
theorem Regular.opening_step (h : Regular autoRcaEnabled db₀ s)
    (hstep : managerStep autoRcaEnabled s l = some t) {j : ℕ} {deploymentId ruleKey : String}
    (hj : t.opening j = some (deploymentId, ruleKey)) :
    (j ≠ l.1 ∧ s.opening j = some (deploymentId, ruleKey)) ∨
      j = l.1 ∧ t.state.db = s.state.db ∧
        ∃ ws, s.state.db.openIncidents ws deploymentId ruleKey = [] ∧
          ∃ d ∈ s.state.db.deployments, d.id = deploymentId ∧ d.workspaceId = ws := by
  have hstepped := Fibers.step_some hstep
  have hregular : Regular autoRcaEnabled db₀ t :=
    h.step (incidentPolicy_lawful autoRcaEnabled db₀) hstepped
  obtain ⟨ws, habsent, hd⟩ := hregular.opening hj
  -- whoever is about to open an incident now either was before, or is the one that moved
  by_cases hne : j = l.1
  · subst hne
    refine .inr ⟨rfl, ?_⟩
    rcases Policy.stepped_state (incidentPolicy db₀.deployments) hstepped with
      ⟨c, -, hstate, hphase⟩ | ⟨-, ⟨qs, hnext, -⟩ | ⟨qs, r, hphase⟩⟩
    · rw [hphase] at habsent
      obtain ⟨rfl, hnone⟩ := seen_absent habsent
      -- it has just found none open, which writes nothing
      have hdb : t.state.db = s.state.db := by
        rw [hstate]
        exact statement_keeps trivial
      rw [← h.state.deployments] at hd
      exact ⟨hdb, ws, hnone, hd⟩
    · obtain ⟨ws', data, hnext', -⟩ := opening_some.mp hj
      rw [hnext] at hnext'
      cases hnext'
    · rw [hphase] at habsent
      cases habsent
  · left
    refine ⟨hne, ?_⟩
    rcases Policy.stepped_others (P := incidentPolicy db₀.deployments) hstepped h.formed hne
      with ⟨hnext, -⟩ | ⟨-, hphase⟩
    · unfold Manager.opening at hj ⊢
      rw [← hnext]
      exact hj
    · rw [hphase] at habsent
      cases habsent

/-- **One step**, where no two tasks race. -/
theorem Single.step (h : Single s) (hregular : Regular autoRcaEnabled db₀ s) (hrace : ¬ Racing s)
    (hstep : managerStep autoRcaEnabled s l = some t) : Single t := by
  have hlaw := incidentPolicy_lawful autoRcaEnabled db₀
  -- what the step does to the counts
  have hcount : ∀ d k, t.state.db.openAutomatic d k ≤ s.state.db.openAutomatic d k ∨
      s.opening l.1 = some (d, k) ∧
        t.state.db.openAutomatic d k = s.state.db.openAutomatic d k + 1 := by
    intro d k
    rcases Policy.stepped_state (incidentPolicy db₀.deployments) (Fibers.step_some hstep) with
      ⟨c, hnext, hstate, -⟩ | ⟨hstate, -⟩
    · have heffect := serve_effect (issued_of_allowed (hregular.pre hlaw hnext)) l.2 s.state
      rw [← hstate] at heffect
      rcases heffect.openAutomatic d k with hle | ⟨⟨ws, data, rfl, hsource, hd, hk⟩, heq⟩
      · exact .inl hle
      · exact .inr ⟨opening_some.mpr ⟨ws, data, hnext, hsource, hd, hk⟩, heq⟩
    · rw [hstate]
      exact .inl le_rfl
  refine ⟨fun d k => ?_, fun j d k hj => ?_⟩
  · rcases hcount d k with hle | ⟨hopening, heq⟩
    · exact hle.trans (h.one d k)
    · rw [heq, h.none l.1 d k hopening]
  · rcases hregular.opening_step hstep hj with ⟨hne, hold⟩ | ⟨rfl, hdb, ws, hnone, hd⟩
    · have hzero := h.none j d k hold
      rcases hcount d k with hle | ⟨hopening, -⟩
      · omega
      · -- the other fiber creates for the same deployment and rule
        refine absurd ⟨l.1, opening_lt hopening, j, opening_lt hold, Ne.symm hne, ?_, ?_⟩ hrace
        · rw [hopening]
          rfl
        · rw [hopening, hold]
    · rw [hdb]
      exact openAutomatic_eq_zero hregular.state.consistent hd hnone

theorem regular_start {requests : List Request} (hdb : Consistent db₀) (hscope : OneScope db₀) :
    Regular autoRcaEnabled db₀ (startManager autoRcaEnabled db₀ requests) := by
  apply Policy.kept_start
  · exact ⟨hdb, hscope, rfl, rfl⟩
  · intro job hjob
    obtain ⟨r, -, rfl⟩ := List.mem_map.mp hjob
    trivial

theorem regular_run {requests : List Request} {ls : List (ℕ × (ℕ → Choice))} (hdb : Consistent db₀)
    (hscope : OneScope db₀)
    (hrun : exec (managerStep autoRcaEnabled) (startManager autoRcaEnabled db₀ requests) ls = some t) :
    Regular autoRcaEnabled db₀ t := by
  have hkeep : ∀ s l t, Regular autoRcaEnabled db₀ s → True →
      managerStep autoRcaEnabled s l = some t → Regular autoRcaEnabled db₀ t :=
    fun s l t hs _ hstep =>
      hs.step (incidentPolicy_lawful autoRcaEnabled db₀) (Fibers.step_some hstep)
  exact exec_invariant hkeep (regular_start hdb hscope) (along_true _ _) hrun

theorem single_start {requests : List Request} (hdb : Consistent db₀) (hscope : OneScope db₀)
    (hone : OneOpenIncident db₀) : Single (startManager autoRcaEnabled db₀ requests) := by
  refine ⟨hone, fun i d k hi => ?_⟩
  obtain ⟨ws, habsent, -⟩ := (regular_start hdb hscope).opening hi
  cases habsent

/-- **A run**, in no state of which two tasks race. -/
theorem single_run {requests : List Request} {ls : List (ℕ × (ℕ → Choice))} (hdb : Consistent db₀)
    (hscope : OneScope db₀) (hone : OneOpenIncident db₀)
    (halong : Along (managerStep autoRcaEnabled) (fun s _ => ¬ Racing s)
      (startManager autoRcaEnabled db₀ requests) ls)
    (hrun : exec (managerStep autoRcaEnabled) (startManager autoRcaEnabled db₀ requests) ls = some t) :
    Single t := by
  have hkeep : ∀ s l t, Regular autoRcaEnabled db₀ s ∧ Single s → ¬ Racing s →
      managerStep autoRcaEnabled s l = some t → Regular autoRcaEnabled db₀ t ∧ Single t :=
    fun s l t hs hrace hstep =>
      ⟨hs.1.step (incidentPolicy_lawful autoRcaEnabled db₀) (Fibers.step_some hstep),
        hs.2.step hs.1 hrace hstep⟩
  exact (exec_invariant hkeep
    ⟨regular_start hdb hscope, single_start hdb hscope hone⟩ halong hrun).2

/-! ### With a race -/

/-- There is always an id that is not taken. -/
theorem exists_fresh (db : Database) : ∃ id, ∀ i ∈ db.incidents, i.id ≠ id := by
  obtain ⟨id, hid⟩ :=
    Infinite.exists_notMem_finset (db.incidents.map fun i => i.id).toFinset
  refine ⟨id, fun i hi heq => hid ?_⟩
  rw [List.mem_toFinset]
  exact List.mem_map.mpr ⟨i, hi, heq⟩

/-- A task that is about to create an incident can do so, whatever the others
have done; the others stay where they are. -/
theorem Regular.opens (h : Regular autoRcaEnabled db₀ s) {i : ℕ} {deploymentId ruleKey : String}
    (hi : s.opening i = some (deploymentId, ruleKey)) :
    ∃ env t, managerStep autoRcaEnabled s (i, env) = some t ∧
      t.state.db.openAutomatic deploymentId ruleKey =
        s.state.db.openAutomatic deploymentId ruleKey + 1 ∧
      ∀ j < s.fibers.length, j ≠ i → t.opening j = s.opening j := by
  obtain ⟨ws, data, hnext, hsource, hdeployment, hrule⟩ := opening_some.mp hi
  obtain ⟨⟨d, hd, hid, hws, happ⟩, -⟩ := h.pre (incidentPolicy_lawful autoRcaEnabled db₀) hnext
  obtain ⟨id, hfresh⟩ := exists_fresh s.state.db
  -- the insert succeeds in an environment without faults, under a fresh id
  let env : ℕ → Choice := fun _ => ⟨none, 0, id, [], [], 0⟩
  have hserve : (serve (.statement ws (.createIncident data)) env s.state).2.db =
      s.state.db.withIncident (data.row ws (env 0)) := by
    rw [← h.state.deployments] at hd
    obtain ⟨a, ha, haid, haws⟩ := h.state.consistent.deploymentApp d hd
    have hnotaken : ¬ (s.state.db.incidents.any fun i => i.id = id) = true := by
      intro hany
      obtain ⟨i, hi, heq⟩ := List.any_eq_true.mp hany
      exact hfresh i hi (of_decide_eq_true heq)
    -- the rows that it refers to are there
    have hkeys : (s.state.db.apps.any fun a => a.id = data.appId ∧ a.workspaceId = ws) ∧
        (s.state.db.deployments.any fun d => d.id = data.deploymentId ∧ d.workspaceId = ws) := by
      refine ⟨List.any_eq_true.mpr ⟨a, ha, ?_⟩, List.any_eq_true.mpr ⟨d, hd, ?_⟩⟩
      · exact decide_eq_true ⟨haid.trans happ, haws.trans hws⟩
      · exact decide_eq_true ⟨hid, hws⟩
    show (statement ws (.createIncident data) (env 0) s.state.db).2 = _
    unfold statement
    simp only [env, answer, if_neg hnotaken, if_pos hkeys]
    rfl
  obtain ⟨⟨q, root, parent, prog, awaits⟩, k, hf, rfl⟩ := Fibers.next_some.mp hnext
  refine ⟨env, _, Fibers.step_called hf env, ?_, fun j hj hne => ?_⟩
  · show Database.openAutomatic (serve (.statement ws (.createIncident data)) env s.state).2.db _ _ = _
    rw [hserve, openAutomatic_withIncident, if_pos]
    exact ⟨rfl, hsource, hdeployment, hrule⟩
  · -- the other fibers have not moved
    unfold Manager.opening Fibers.next
    rw [List.getElem?_set_ne (Ne.symm hne)]

/-- **Two tasks that race** can open an incident each. -/
theorem racing_opens_two (h : Regular autoRcaEnabled db₀ s) (hrace : Racing s) :
    ∃ ls t, exec (managerStep autoRcaEnabled) s ls = some t ∧ ¬ OneOpenIncident t.state.db := by
  obtain ⟨i, hi, j, hj, hne, hsome, heq⟩ := hrace
  obtain ⟨⟨d, k⟩, hkey⟩ := Option.isSome_iff_exists.mp hsome
  obtain ⟨env₁, t₁, hstep₁, hcount₁, hothers⟩ := h.opens hkey
  have hregular₁ : Regular autoRcaEnabled db₀ t₁ :=
    h.step (incidentPolicy_lawful autoRcaEnabled db₀) (Fibers.step_some hstep₁)
  have hkey₁ : t₁.opening j = some (d, k) := by
    rw [hothers j hj (Ne.symm hne), ← heq, hkey]
  obtain ⟨env₂, t₂, hstep₂, hcount₂, -⟩ := hregular₁.opens hkey₁
  refine ⟨[(i, env₁), (j, env₂)], t₂, ?_, fun hone => ?_⟩
  · rw [exec_cons, hstep₁, Option.bind_some, exec_cons, hstep₂]
    rfl
  · have := hone d k
    omega

end Run

/-- **One open incident for each deployment and rule, unless two tasks race.**
In a run of any requests, in no state of which two detector tasks have both
found none and are about to create one, there is never more than one.  From
every state in which two are, there is a run to a state with two incidents. -/
theorem open_incident_unique_unless_racing {autoRcaEnabled : Bool} {db : Database}
    {requests : List Request} (hdb : Consistent db) (hscope : OneScope db)
    (hone : OneOpenIncident db) {ls : List (ℕ × (ℕ → Choice))} {x : Manager}
    (hrun : exec (managerStep autoRcaEnabled) (startManager autoRcaEnabled db requests) ls = some x) :
    (Along (managerStep autoRcaEnabled) (fun s _ => ¬ Racing s)
        (startManager autoRcaEnabled db requests) ls → OneOpenIncident x.state.db) ∧
    (Racing x → ∃ ls' y, exec (managerStep autoRcaEnabled) x ls' = some y ∧
      ¬ OneOpenIncident y.state.db) :=
  ⟨fun halong => (single_run hdb hscope hone halong hrun).one,
    racing_opens_two (regular_run hdb hscope hrun)⟩

/-! ### Two instances -/

/-- A sample of a deployment that has failed. -/
def failedSample : HealthSample where
  id := "sample"
  workspaceId := "ws"
  collectedAt := 1000
  deploymentId := "dep"
  status := "failed"
  desiredReplicas := 1
  readyReplicas := 1
  availableReplicas := 1
  podCount := 1
  warningEventCount := 0
  restartCount := 0

/-- No fault; the table holds that sample. -/
def calm (id : String) : ℕ → Choice := fun _ => ⟨none, 2000, id, ["ws"], [failedSample], 0⟩

/-- The sample has a warning event as well. -/
def noisy (fault : Option String) : ℕ → Choice := fun _ =>
  ⟨fault, 2000, "a", ["ws"], [{ failedSample with warningEventCount := 1 }], 0⟩

/-- A pass of one instance, and then one of another. -/
def onePassAfterTheOther : List (ℕ × (ℕ → Choice)) :=
  [0, 0, 0, 0, 2, 2, 3, 3, 3, 2, 0, 0, 1, 1, 1, 1, 4, 4, 5, 5, 4, 1, 1].map fun i => (i, calm "a")

/-- The passes of the two instances side by side, as in a rolling update. -/
def overlappingPasses : List (ℕ × (ℕ → Choice)) :=
  [0, 0, 0, 0, 2, 2, 3, 1, 1, 1, 1, 4, 4, 5, 3, 5].map fun i => (i, calm (if i = 3 then "a" else "b"))

/-- The second pass finds the incident of the first. -/
theorem two_passes_open_one : ∃ x,
    exec (managerStep true) (startManager true shop [.detect 1, .detect 2]) onePassAfterTheOther =
      some x ∧
    x.state.db.openAutomatic "dep" "health-status-failed" = 1 ∧ OneOpenIncident x.state.db := by
  have hcount : (exec (managerStep true) (startManager true shop [.detect 1, .detect 2])
      onePassAfterTheOther).map (fun x => x.state.db.openAutomatic "dep" "health-status-failed") =
      some 1 := by decide
  obtain ⟨x, hx, hone⟩ := Option.map_eq_some_iff.mp hcount
  have hshop : OneOpenIncident shop := fun _ _ => Nat.zero_le 1
  refine ⟨x, hx, hone, ?_⟩
  apply (open_incident_unique_unless_racing shop_consistent shop_scope hshop hx).1
  decide

/-- Side by side, each of them opens an incident. -/
theorem overlapping_passes_open_two : ∃ x,
    exec (managerStep true) (startManager true shop [.detect 1, .detect 2]) overlappingPasses =
      some x ∧
    x.state.db.openAutomatic "dep" "health-status-failed" = 2 ∧ ¬ OneOpenIncident x.state.db := by
  have hcount : (exec (managerStep true) (startManager true shop [.detect 1, .detect 2])
      overlappingPasses).map (fun x => x.state.db.openAutomatic "dep" "health-status-failed") =
      some 2 := by decide
  obtain ⟨x, hx, htwo⟩ := Option.map_eq_some_iff.mp hcount
  refine ⟨x, hx, htwo, fun hone => ?_⟩
  have := hone "dep" "health-status-failed"
  omega

/-- Two passes of one instance: a statement of the first fails, the pass ends,
and its other signal goes on beside the second pass. -/
example : ((exec (managerStep true) (startManager true shop [.detect 1, .detect 1])
    ([0, 0, 0, 0, 2, 2, 4].map (fun i => (i, noisy none)) ++ [(3, noisy (some "timeout"))] ++
      [2, 0, 0, 1, 1, 1, 1, 5, 5, 7, 7].map (fun i => (i, noisy none)) ++
      [(4, calm "b")])).map
        fun x => x.state.db.openAutomatic "dep" "health-status-failed") = some 2 := by decide

end NexCause.Incidents
