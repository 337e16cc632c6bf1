/-
NexCause/ResolvedIncidents.lean

Is a resolved incident left alone?  `resolve` updates the row whatever its
status is, and the detector updates by its id an incident that it has found
open some time before.  So a second resolution writes another `resolvedAt`,
and a resolution between the two statements of the detector is followed by an
update of the resolved row.

If each resolution writes an open incident that no detector task is about to
update, then a resolved incident stays as it is, and the signals of later
passes are recorded on other, open incidents
(`resolved_incident_frozen_when_resolved_alone`).
-/
import NexCause.IncidentRaces

namespace NexCause.Incidents

open Program Prog Transition

/-! ### Updates to come -/

/-- The incident that a detector task has found and is about to update. -/
def Manager.updating (x : Manager) (i : ℕ) : Option String :=
  match x.next i with
  | some (.call (.statement _ (.updateIncident id (.detected _ _ _ _)))) => some id
  | _ => none

/-- The incident that a resolution is about to update, with its workspace. -/
def Manager.resolving (x : Manager) (i : ℕ) : Option (String × String) :=
  match x.next i with
  | some (.call (.statement ws (.updateIncident id .resolved))) => some (ws, id)
  | _ => none

/-- If the step is the update of a resolution, then the incident is open, and
no detector task is about to update it. -/
def ResolvesAlone (x : Manager) (l : ℕ × (ℕ → Choice)) : Prop :=
  ∀ key ∈ x.resolving l.1, (∀ row ∈ x.state.db.incident key.1 key.2, row.status = .«open») ∧
    ∀ j < x.fibers.length, x.updating j ≠ some key.2

instance (x : Manager) (l : ℕ × (ℕ → Choice)) : Decidable (ResolvesAlone x l) := by
  unfold ResolvesAlone
  infer_instance

theorem updating_some {x : Manager} {i : ℕ} {id : String} :
    x.updating i = some id ↔ ∃ ws severity summary sampleId metadata,
      x.next i = some (.call (.statement ws
        (.updateIncident id (.detected severity summary sampleId metadata)))) := by
  unfold Manager.updating
  constructor
  · intro h
    split at h
    · rename_i hnext
      obtain rfl := Option.some.inj h
      exact ⟨_, _, _, _, _, hnext⟩
    · cases h
  · rintro ⟨ws, severity, summary, sampleId, metadata, hnext⟩
    rw [hnext]

theorem updating_lt {x : Manager} {i : ℕ} {id : String} (h : x.updating i = some id) :
    i < x.fibers.length := by
  obtain ⟨ws, severity, summary, sampleId, metadata, hnext⟩ := updating_some.mp h
  obtain ⟨f, k, hf, -⟩ := Fibers.next_some.mp hnext
  exact (List.getElem?_eq_some_iff.mp hf).1

/-- What the detector has found is still open when it comes to update it. -/
def Held (deployments : List Deployment) (x : Manager) : Prop :=
  ∀ j id, x.updating j = some id → ∃ found, (incidentPolicy deployments).phase x j = .found found ∧
    ∃ row ∈ x.state.db.incidents, row.id = id ∧ row.identity = found.identity ∧ row.status = .«open»

section Step

variable {autoRcaEnabled : Bool} {db₀ : Database} {s t : Manager} {l : ℕ × (ℕ → Choice)}

/-- What happens to an open row when a call is answered. -/
theorem Effect.keeps_open {db db' : Database} {c : Call} {r : Except IncidentError c.Result}
    (h : Effect db c r db') {row : Incident} (hrow : row ∈ db.incidents) (hopen : row.status = .«open»)
    (hresolve : ∀ ws, c ≠ .statement ws (.updateIncident row.id .resolved)) :
    ∃ row' ∈ db'.incidents, row'.identity = row.identity ∧ row'.status = .«open» := by
  cases h with
  | nothing => exact ⟨row, hrow, rfl, hopen⟩
  | created x hinsert => exact ⟨row, List.mem_append_left _ hrow, rfl, hopen⟩
  | started x hincident => exact ⟨row, hrow, rfl, hopen⟩
  | requested x y hdeployment happ hid hsource hrule hinsert =>
    exact ⟨row, List.mem_append_left _ hrow, rfl, hopen⟩
  | @updated ws id change row₀ now h₀ =>
    refine ⟨_, List.mem_map_of_mem hrow, ?_, ?_⟩
    · split
      · exact IncidentChange.apply_identity now change row
      · rfl
    · split
      · rename_i hkey
        cases change with
        | detected severity summary sampleId metadata => exact hopen
        | resolved =>
          rw [hkey.1] at hresolve
          exact absurd rfl (hresolve ws)
      · exact hopen

/-- Who remembers a row has just found it. -/
theorem seen_found {c : Call} {env : ℕ → Choice} {s : System} {row : Incident}
    (h : seen (.call c) (serve c env s).1 = .found row) :
    ∃ ws deploymentId ruleKey, c = .statement ws (.findOpenIncident deploymentId ruleKey) ∧
      row ∈ s.db.openIncidents ws deploymentId ruleKey := by
  have hholds := seen_holds c env s
  rwa [h] at hholds

/-- A fiber that is about to update an incident has just found it. -/
theorem Regular.updating (h : Regular autoRcaEnabled db₀ s) {i : ℕ} {id : String}
    (hi : s.updating i = some id) :
    ∃ found, (incidentPolicy db₀.deployments).phase s i = .found found ∧ found.id = id := by
  obtain ⟨ws, severity, summary, sampleId, metadata, hnext⟩ := updating_some.mp hi
  obtain ⟨found, hphase, hid, -⟩ := h.pre (incidentPolicy_lawful autoRcaEnabled db₀) hnext
  exact ⟨found, hphase, hid⟩

/-- **One step**, if a resolution comes alone, keeps open what the detector has
found. -/
theorem Held.step (h : Held db₀.deployments s) (hregular : Regular autoRcaEnabled db₀ s)
    (halone : ResolvesAlone s l) (hstep : managerStep autoRcaEnabled s l = some t) :
    Held db₀.deployments t := by
  have hlaw := incidentPolicy_lawful autoRcaEnabled db₀
  have hstepped := Fibers.step_some hstep
  have hregular' : Regular autoRcaEnabled db₀ t := hregular.step hlaw hstepped
  intro j id hj
  obtain ⟨found, hfound, hid⟩ := hregular'.updating hj
  refine ⟨found, hfound, ?_⟩
  have hstate := Policy.stepped_state (incidentPolicy db₀.deployments) hstepped
  by_cases hne : j = l.1
  · -- it has found the incident in this very step
    subst hne
    rcases hstate with ⟨c, hnext, hstate, hphase⟩ | ⟨-, ⟨qs, hnext, -⟩ | ⟨qs, r, hphase⟩⟩
    · rw [hphase] at hfound
      obtain ⟨ws, deploymentId, ruleKey, rfl, hmem⟩ := seen_found hfound
      obtain ⟨hrow, -, -, hopen, -⟩ := Database.mem_openIncidents.mp hmem
      have hdb : t.state.db = s.state.db := by
        rw [hstate]
        exact statement_keeps trivial
      rw [hdb]
      exact ⟨found, hrow, hid, rfl, hopen⟩
    · obtain ⟨ws, severity, summary, sampleId, metadata, hnext'⟩ := updating_some.mp hj
      rw [hnext] at hnext'
      cases hnext'
    · rw [hphase] at hfound
      cases hfound
  · rcases Policy.stepped_others (P := incidentPolicy db₀.deployments) hstepped hregular.formed hne
      with ⟨hnext, hphase⟩ | ⟨-, hphase⟩
    · have hj' : s.updating j = some id := by
        unfold Manager.updating at hj ⊢
        rw [← hnext]
        exact hj
      obtain ⟨found', hfound', row, hrow, hrid, hidentity, hopen⟩ := h j id hj'
      rw [hphase, hfound'] at hfound
      obtain rfl := Seen.found.inj hfound
      rcases hstate with ⟨c, hnext, hstate, -⟩ | ⟨hstate, -⟩
      · have heffect := serve_effect (issued_of_allowed (hregular.pre hlaw hnext)) l.2 s.state
        rw [← hstate] at heffect
        have hresolve : ∀ ws, c ≠ .statement ws (.updateIncident row.id .resolved) := by
          rintro ws rfl
          have hresolving : s.resolving l.1 = some (ws, row.id) := by
            unfold Manager.resolving
            rw [hnext]
          have hnot := (halone _ hresolving).2 j (updating_lt hj')
          rw [hrid] at hnot
          exact hnot hj'
        obtain ⟨row', hrow', hidentity', hopen'⟩ := heffect.keeps_open hrow hopen hresolve
        refine ⟨row', hrow', ?_, hidentity'.trans hidentity, hopen'⟩
        exact (congrArg Prod.fst hidentity').trans hrid
      · rw [hstate]
        exact ⟨row, hrow, hrid, hidentity, hopen⟩
    · rw [hphase] at hfound
      cases hfound

/-- **One step**, if a resolution comes alone, leaves a resolved incident as it
is. -/
theorem Held.frozen (h : Held db₀.deployments s) (hregular : Regular autoRcaEnabled db₀ s)
    (halone : ResolvesAlone s l) (hstep : managerStep autoRcaEnabled s l = some t) {i : Incident}
    (hi : i ∈ s.state.db.incidents) (hresolved : i.status = .resolved) :
    i ∈ t.state.db.incidents := by
  have hlaw := incidentPolicy_lawful autoRcaEnabled db₀
  rcases Policy.stepped_state (incidentPolicy db₀.deployments) (Fibers.step_some hstep) with
    ⟨c, hnext, hstate, -⟩ | ⟨hstate, -⟩
  · have heffect := serve_effect (issued_of_allowed (hregular.pre hlaw hnext)) l.2 s.state
    rw [← hstate] at heffect
    generalize t.state.db = db' at heffect
    generalize (serve c l.2 s.state).1 = r at heffect
    cases heffect with
    | nothing => exact hi
    | created x hinsert => exact List.mem_append_left _ hi
    | started x hincident => exact hi
    | requested x y hdeployment happ hid hsource hrule hinsert => exact List.mem_append_left _ hi
    | @updated ws id change row now hrow =>
      -- the row that is updated is open, so it is another one
      obtain ⟨hmem, hrid, hrws⟩ := Database.incident_some hrow
      have hopen : row.status = .«open» := by
        cases change with
        | resolved =>
          have hresolving : s.resolving l.1 = some (ws, id) := by
            unfold Manager.resolving
            rw [hnext]
          exact (halone _ hresolving).1 row hrow
        | detected severity summary sampleId metadata =>
          obtain ⟨found, -, row', hrow', hrid', -, hopen'⟩ :=
            h l.1 id (updating_some.mpr ⟨ws, severity, summary, sampleId, metadata, hnext⟩)
          rw [hregular.state.consistent.incident_eq hmem hrow' (hrid.trans hrid'.symm)]
          exact hopen'
      have hne : ¬ (i.id = id ∧ i.workspaceId = ws) := by
        rintro ⟨hiid, -⟩
        obtain rfl := hregular.state.consistent.incident_eq hi hmem (hiid.trans hrid.symm)
        rw [hresolved] at hopen
        cases hopen
      apply List.mem_map.mpr
      exact ⟨i, hi, if_neg hne⟩
  · rw [hstate]
    exact hi

theorem held_start {requests : List Request} (hdb : Consistent db₀) (hscope : OneScope db₀) :
    Held db₀.deployments (startManager autoRcaEnabled db₀ requests) := by
  intro j id hj
  obtain ⟨found, hfound, -⟩ := (regular_start hdb hscope).updating hj
  cases hfound

/-- A run from a regular state, each of whose resolutions comes alone. -/
theorem held_run {ls : List (ℕ × (ℕ → Choice))} (hregular : Regular autoRcaEnabled db₀ s)
    (h : Held db₀.deployments s) (halone : Along (managerStep autoRcaEnabled) ResolvesAlone s ls)
    (hrun : exec (managerStep autoRcaEnabled) s ls = some t) :
    Regular autoRcaEnabled db₀ t ∧ Held db₀.deployments t ∧
      ∀ i ∈ s.state.db.incidents, i.status = .resolved → i ∈ t.state.db.incidents := by
  have hkeep : ∀ u l v, (Regular autoRcaEnabled db₀ u ∧ Held db₀.deployments u ∧
      ∀ i ∈ s.state.db.incidents, i.status = .resolved → i ∈ u.state.db.incidents) →
      ResolvesAlone u l → managerStep autoRcaEnabled u l = some v →
      Regular autoRcaEnabled db₀ v ∧ Held db₀.deployments v ∧
        ∀ i ∈ s.state.db.incidents, i.status = .resolved → i ∈ v.state.db.incidents := by
    rintro u l v ⟨hu, hheld, hfrozen⟩ hl hstep
    refine ⟨hu.step (incidentPolicy_lawful autoRcaEnabled db₀) (Fibers.step_some hstep),
      hheld.step hu hl hstep, fun i hi hresolved => ?_⟩
    exact hheld.frozen hu hl hstep (hfrozen i hi hresolved) hresolved
  exact exec_invariant hkeep ⟨hregular, h, fun _ hi _ => hi⟩ halone hrun

/-! ### Where a signal is recorded -/

/-- The incident carries the signal of the sample. -/
structure Carries (ws : String) (sample : Sample) (signal : IncidentSignal) (i : Incident) :
    Prop where
  workspace : i.workspaceId = ws
  deployment : i.deploymentId = sample.deploymentId
  rule : i.ruleKey = some signal.ruleKey
  severity : i.severity = signal.severity
  summary : i.summary = some signal.summary
  latest : i.latestHealthSampleId = some sample.id
  metadata : i.metadata = some (buildIncidentMetadata sample signal)

/-- In this run from `x`, fiber `g` has written its signal to an open incident,
which was not resolved before. -/
def RecordsOpen (autoRcaEnabled : Bool) (x : Manager) (ls : List (ℕ × (ℕ → Choice))) (g : ℕ)
    (ws : String) (sample : Sample) (signal : IncidentSignal) : Prop :=
  ∃ ls₁ l ls₂ u v, ls = ls₁ ++ l :: ls₂ ∧ exec (managerStep autoRcaEnabled) x ls₁ = some u ∧
    managerStep autoRcaEnabled u l = some v ∧ l.1 = g ∧
    ∃ i ∈ v.state.db.incidents, Carries ws sample signal i ∧ i.status = .«open» ∧
      ∀ i₀ ∈ u.state.db.incidents, i₀.status = .resolved → i.id ≠ i₀.id

/-- The update of a detector task records its signal. -/
theorem Held.records_update (h : Held db₀.deployments s) (hregular : Regular autoRcaEnabled db₀ s)
    {env : ℕ → Choice} {i : ℕ} {f : Fiber Job Call Call.Result IncidentError} {ws id : String}
    {sample : Sample} {signal : IncidentSignal} {r : Incident}
    (hf : s.At i f) (hrequest : f.request = .openAutomatic ws sample signal)
    (hnext : s.next i = some (.call (.statement ws (.updateIncident id (detectedChange sample signal)))))
    (hserve : serve (.statement ws (.updateIncident id (detectedChange sample signal))) env s.state =
      (.ok r, t.state)) :
    ∃ j ∈ t.state.db.incidents, Carries ws sample signal j ∧ j.status = .«open» ∧
      ∀ i₀ ∈ s.state.db.incidents, i₀.status = .resolved → j.id ≠ i₀.id := by
  obtain ⟨found, hphase, row, hrow, hrid, hidentity, hopen⟩ :=
    h i id (updating_some.mpr ⟨_, _, _, _, _, hnext⟩)
  -- what it has found is of the deployment and rule of the signal
  have hfound : found.workspaceId = ws ∧ found.deploymentId = sample.deploymentId ∧
      found.ruleKey = some signal.ruleKey := by
    obtain ⟨f', k, hf', hprog⟩ := Fibers.next_some.mp hnext
    obtain rfl := Option.some.inj (hf.symm.trans hf')
    have hreach := hregular.formed.left i f hf
    rw [hrequest, hprog] at hreach
    rcases openAutomaticIncident_at hreach with ⟨-, hc⟩ | ⟨row', hown, -⟩ | ⟨-, hc⟩ | ⟨r', -, hc⟩
    · cases hc
    · unfold Policy.phase at hphase
      rw [hown] at hphase
      obtain rfl := Seen.found.inj hphase
      have hmem : (i, asked ws sample signal (some row')) ∈ s.trace := by
        apply mem_ownTrace.mp
        rw [hown]
        exact List.mem_singleton.mpr rfl
      exact hregular.allowed _ hmem row' rfl
    · cases hc
    · cases hc
  have hanswer : (statement ws (.updateIncident id (detectedChange sample signal)) (env 0)
      s.state.db).1 = .ok r := congrArg Prod.fst hserve
  have hdb : t.state.db = (statement ws (.updateIncident id (detectedChange sample signal)) (env 0)
      s.state.db).2 := congrArg (fun p => p.2.db) hserve.symm
  rcases statement_updateIncident ws id (detectedChange sample signal) (env 0) s.state.db with
    ⟨e, herror⟩ | ⟨row₀, hrow₀, hok⟩
  · rw [herror] at hanswer
    cases hanswer
  · obtain ⟨hmem, hid₀, hws₀⟩ := Database.incident_some hrow₀
    obtain rfl := hregular.state.consistent.incident_eq hrow hmem (hrid.trans hid₀.symm)
    simp only [Incident.identity, Prod.mk.injEq] at hidentity
    obtain ⟨-, -, -, hdeployment, -, hrule⟩ := hidentity
    rw [hdb, hok]
    refine ⟨(detectedChange sample signal).apply (env 0).now row, ?_, ?_, hopen, ?_⟩
    · exact List.mem_map.mpr ⟨row, hrow, if_pos ⟨hrid, hws₀⟩⟩
    · exact ⟨hws₀, hdeployment.trans hfound.2.1, hrule.trans hfound.2.2, rfl, rfl, rfl, rfl⟩
    · intro i₀ hi₀ hresolved heq
      obtain rfl := hregular.state.consistent.incident_eq hi₀ hrow heq.symm
      rw [hopen] at hresolved
      cases hresolved

/-- The creation of a detector task records its signal. -/
theorem records_creation {env : ℕ → Choice} {ws : String} {sample : Sample}
    {signal : IncidentSignal} {r : Incident}
    (hserve : serve (.statement ws (.createIncident (automaticIncident sample signal))) env s.state =
      (.ok r, t.state)) :
    ∃ j ∈ t.state.db.incidents, Carries ws sample signal j ∧ j.status = .«open» ∧
      ∀ i₀ ∈ s.state.db.incidents, i₀.status = .resolved → j.id ≠ i₀.id := by
  have hanswer : (statement ws (.createIncident (automaticIncident sample signal)) (env 0)
      s.state.db).1 = .ok r := congrArg Prod.fst hserve
  have hdb : t.state.db = (statement ws (.createIncident (automaticIncident sample signal)) (env 0)
      s.state.db).2 := congrArg (fun p => p.2.db) hserve.symm
  rcases statement_createIncident ws (automaticIncident sample signal) (env 0) s.state.db with
    ⟨e, herror⟩ | ⟨hinsert, hok⟩
  · rw [herror] at hanswer
    cases hanswer
  · rw [hdb, hok]
    refine ⟨(automaticIncident sample signal).row ws (env 0), ?_, ?_, rfl, ?_⟩
    · exact List.mem_append_right _ (List.mem_singleton.mpr rfl)
    · exact ⟨rfl, rfl, rfl, rfl, rfl, rfl, rfl⟩
    · exact fun i₀ hi₀ _ heq => hinsert.fresh i₀ hi₀ heq.symm

/-- **Every signal is recorded** on an open incident, if its task starts after
`s` and returns. -/
theorem Held.records (h : Held db₀.deployments s) (hregular : Regular autoRcaEnabled db₀ s)
    {ls : List (ℕ × (ℕ → Choice))} (halone : Along (managerStep autoRcaEnabled) ResolvesAlone s ls)
    (hrun : exec (managerStep autoRcaEnabled) s ls = some t) {g : ℕ}
    {f : Fiber Job Call Call.Result IncidentError} {ws : String} {sample : Sample}
    {signal : IncidentSignal} (hf : t.At g f) (hrequest : f.request = .openAutomatic ws sample signal)
    (hlater : s.fibers.length ≤ g) (hreturned : f.prog = ret ()) :
    RecordsOpen autoRcaEnabled s ls g ws sample signal := by
  obtain ⟨hregular', -, -⟩ := held_run hregular h halone hrun
  have hreach := hregular'.formed.left g f hf
  rw [hrequest, hreturned] at hreach
  -- the step of the run that has made an entry of the task's record
  have hentry : ∀ e ∈ ownTrace t.trace g, ∃ ls₁ l ls₂ u v, ls = ls₁ ++ l :: ls₂ ∧
      exec (managerStep autoRcaEnabled) s ls₁ = some u ∧
      managerStep autoRcaEnabled u l = some v ∧ l.1 = g ∧ v.trace = u.trace ++ [(g, e)] ∧
      Regular autoRcaEnabled db₀ u ∧ Held db₀.deployments u ∧
      ∀ f', u.At g f' → f'.request = f.request := by
    intro e he
    have hold : (g, e) ∉ s.trace := by
      intro hmem
      have := hregular.formed.recorded _ hmem
      omega
    obtain ⟨ls₁, l, ls₂, u, v, rfl, hu, hv, hend, hl, htrace⟩ :=
      Fibers.trace_entry hrun (mem_ownTrace.mp he) hold
    obtain ⟨hregular₁, hheld₁, -⟩ := held_run hregular h (along_append halone hu).1 hu
    refine ⟨ls₁, l, ls₂, u, v, rfl, hu, hv, hl, htrace, hregular₁, hheld₁, fun f' hf' => ?_⟩
    have hrest : exec (managerStep autoRcaEnabled) u (l :: ls₂) = some t :=
      Option.bind_eq_some_iff.mpr ⟨v, hv, hend⟩
    obtain ⟨f₂, hf₂, hrequest₂, -⟩ := Fibers.exec_stays hrest hf'
    obtain rfl := Option.some.inj (hf.symm.trans hf₂)
    exact hrequest₂.symm
  rcases openAutomaticIncident_returned hreach with ⟨row, r, hown⟩ | ⟨r, rest, hown, -⟩
  · obtain ⟨ls₁, l, ls₂, u, v, rfl, hu, hv, rfl, htrace, hregular₁, hheld₁, hsame⟩ :=
      hentry (changed ws row.id sample signal r) (by rw [hown]; simp)
    obtain ⟨⟨f', k, hf', hprog⟩, hserve⟩ := Fibers.called_of_trace (Fibers.step_some hv) htrace
    refine ⟨ls₁, l, ls₂, u, v, rfl, hu, hv, rfl, ?_⟩
    exact hheld₁.records_update hregular₁ hf' ((hsame f' hf').trans hrequest)
      (Fibers.next_some.mpr ⟨f', k, hf', hprog⟩) hserve
  · obtain ⟨ls₁, l, ls₂, u, v, rfl, hu, hv, rfl, htrace, -, -, -⟩ :=
      hentry (opened ws sample signal r) (by rw [hown]; simp)
    obtain ⟨-, hserve⟩ := Fibers.called_of_trace (Fibers.step_some hv) htrace
    exact ⟨ls₁, l, ls₂, u, v, rfl, hu, hv, rfl, records_creation hserve⟩

end Step

/-- **A resolved incident is frozen, if resolutions come alone.**  In a run each
of whose resolutions writes an open incident that no detector task is about to
update, a resolved incident stays as it is, and a signal that a pass sees
afterwards is recorded on an open incident, and not on the resolved one. -/
theorem resolved_incident_frozen_when_resolved_alone {autoRcaEnabled : Bool} {db : Database}
    {requests : List Request} (hdb : Consistent db) (hscope : OneScope db)
    {ls ls' : List (ℕ × (ℕ → Choice))} {x y : Manager}
    (hx : exec (managerStep autoRcaEnabled) (startManager autoRcaEnabled db requests) ls = some x)
    (hy : exec (managerStep autoRcaEnabled) x ls' = some y)
    (halone : Along (managerStep autoRcaEnabled) ResolvesAlone
      (startManager autoRcaEnabled db requests) (ls ++ ls'))
    {i : Incident} (hi : i ∈ x.state.db.incidents) (hresolved : i.status = .resolved) :
    i ∈ y.state.db.incidents ∧
    ∀ g f ws sample signal, y.At g f → f.request = .openAutomatic ws sample signal →
      x.fibers.length ≤ g → f.prog = ret () →
        ∃ ls₁ l ls₂ u v, ls' = ls₁ ++ l :: ls₂ ∧
          exec (managerStep autoRcaEnabled) x ls₁ = some u ∧
          managerStep autoRcaEnabled u l = some v ∧ l.1 = g ∧
          ∃ j ∈ v.state.db.incidents,
            Carries ws sample signal j ∧ j.status = .«open» ∧ j.id ≠ i.id := by
  obtain ⟨halone₁, halone₂⟩ := along_append halone hx
  obtain ⟨hregular, hheld, -⟩ := held_run (regular_start hdb hscope) (held_start hdb hscope) halone₁ hx
  obtain ⟨-, -, hfrozen⟩ := held_run hregular hheld halone₂ hy
  refine ⟨hfrozen i hi hresolved, fun g f ws sample signal hf hrequest hlater hreturned => ?_⟩
  obtain ⟨ls₁, l, ls₂, u, v, rfl, hu, hv, hl, j, hj, hcarries, hopen, hother⟩ :=
    hheld.records hregular halone₂ hy hf hrequest hlater hreturned
  obtain ⟨-, -, hfrozen₁⟩ := held_run hregular hheld (along_append halone₂ hu).1 hu
  exact ⟨ls₁, l, ls₂, u, v, rfl, hu, hv, hl, j, hj, hcarries, hopen,
    hother i (hfrozen₁ i hi hresolved) hresolved⟩

/-! ### One incident -/

/-- A later sample of the deployment that has failed. -/
def laterSample : HealthSample := { failedSample with id := "later", collectedAt := 2500 }

def calmLater : ℕ → Choice := fun _ => ⟨none, 3000, "b", ["ws"], [laterSample, failedSample], 0⟩

/-- A pass opens the incident `a`. -/
def firstPass : List (ℕ × (ℕ → Choice)) :=
  [0, 0, 0, 0, 3, 3, 4, 4, 4, 3, 0, 0].map fun i => (i, calm "a")

/-- Two passes and a resolution of `a`. -/
def passesAndResolution : List Request := [.detect 1, .resolve "ws" "a", .detect 1]

/-- The incident is resolved between the passes; the second one opens another. -/
theorem resolved_between_passes : ∃ x y,
    exec (managerStep true) (startManager true shop passesAndResolution)
      (firstPass ++ [(1, calm "a"), (1, calm "a")]) = some x ∧
    exec (managerStep true) x ([2, 2, 2, 2, 5, 5, 6, 6, 6, 5, 2, 2].map fun i => (i, calmLater)) =
      some y ∧
    ∃ i ∈ x.state.db.incidents, i.status = .resolved ∧ i ∈ y.state.db.incidents := by
  have hfirst : (exec (managerStep true) (startManager true shop passesAndResolution)
      (firstPass ++ [(1, calm "a"), (1, calm "a")])).map
        (fun x => x.state.db.incidents.map fun i => i.status) = some [.resolved] := by decide
  have hwhole : (exec (managerStep true) (startManager true shop passesAndResolution)
      ((firstPass ++ [(1, calm "a"), (1, calm "a")]) ++
        ([2, 2, 2, 2, 5, 5, 6, 6, 6, 5, 2, 2].map fun i => (i, calmLater)))).map
        (fun x => x.state.db.incidents.length) = some 2 := by decide
  obtain ⟨x, y, hx, hy, hstatus, -⟩ := exec_parts hfirst hwhole
  obtain ⟨i, hrows, hresolved⟩ := List.map_eq_singleton_iff.mp hstatus
  have hi : i ∈ x.state.db.incidents := hrows ▸ List.mem_singleton.mpr rfl
  refine ⟨x, y, hx, hy, i, hi, hresolved, ?_⟩
  have halone : Along (managerStep true) ResolvesAlone (startManager true shop passesAndResolution)
      ((firstPass ++ [(1, calm "a"), (1, calm "a")]) ++
        ([2, 2, 2, 2, 5, 5, 6, 6, 6, 5, 2, 2].map fun i => (i, calmLater))) := by decide
  exact (resolved_incident_frozen_when_resolved_alone shop_consistent shop_scope hx hy halone hi
    hresolved).1

/-- The second pass has found the incident; it is resolved, and then the pass
updates it. -/
theorem detector_updates_resolved_incident : ∃ x y,
    exec (managerStep true) (startManager true shop passesAndResolution)
      (firstPass ++ ([2, 2, 2, 2, 5, 5, 6, 1, 1].map fun i => (i, calmLater))) = some x ∧
    exec (managerStep true) x [(6, calmLater)] = some y ∧
    ∃ i ∈ x.state.db.incidents, ∃ j ∈ y.state.db.incidents, j.id = i.id ∧ i.status = .resolved ∧
      i.latestHealthSampleId = some "sample" ∧ j.latestHealthSampleId = some "later" := by
  have hfirst : (exec (managerStep true) (startManager true shop passesAndResolution)
      (firstPass ++ ([2, 2, 2, 2, 5, 5, 6, 1, 1].map fun i => (i, calmLater)))).map
        (fun x => x.state.db.incidents.map fun i => (i.id, i.status, i.latestHealthSampleId)) =
      some [("a", .resolved, some "sample")] := by decide
  have hwhole : (exec (managerStep true) (startManager true shop passesAndResolution)
      ((firstPass ++ ([2, 2, 2, 2, 5, 5, 6, 1, 1].map fun i => (i, calmLater))) ++
        [(6, calmLater)])).map
        (fun x => x.state.db.incidents.map fun i => (i.id, i.latestHealthSampleId)) =
      some [("a", some "later")] := by decide
  obtain ⟨x, y, hx, hy, hbefore, hafter⟩ := exec_parts hfirst hwhole
  obtain ⟨i, hrows, hi⟩ := List.map_eq_singleton_iff.mp hbefore
  obtain ⟨j, hrows', hj⟩ := List.map_eq_singleton_iff.mp hafter
  simp only [Prod.mk.injEq] at hi hj
  obtain ⟨hid, hstatus, hsample⟩ := hi
  obtain ⟨hjid, hjsample⟩ := hj
  refine ⟨x, y, hx, hy, i, ?_, j, ?_, hjid.trans hid.symm, hstatus, hsample, hjsample⟩
  · rw [hrows]
    exact List.mem_singleton.mpr rfl
  · rw [hrows']
    exact List.mem_singleton.mpr rfl

/-- Two resolutions, one after the other, write two times. -/
example : ((exec (managerStep true)
    (startManager true shop [.detect 1, .resolve "ws" "a", .resolve "ws" "a"])
    (firstPass ++ [(1, calm "a"), (1, calm "a"), (2, calmLater), (2, calmLater)])).map
      fun x => x.state.db.incidents.map fun i => i.resolvedAt) = some [some 3000] := by decide

end NexCause.Incidents
