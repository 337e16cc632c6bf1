/-
NexCause/IncidentWindow.lean

Does the window of an incident hold its trigger?  The window ends at the call at
the latest.  Its start and its end are written in whole seconds, so both are
rounded down when they are read back; the trigger is not, and is compared with
the precision of its row.

Main result: a window around a trigger that is not after the call holds it
exactly if the first whole second from the trigger on has come at the call and
lies within the lookahead (`window_holds_trigger_iff`).
-/
import NexCause.Truncation

namespace NexCause

open Program

/-! ### Whole seconds -/

namespace Go

/-- The first whole second that is not before the instant. -/
def secondFrom (t : Time) : Time := -(-t / second) * second

/-- An instant that is rounded down is not before `t` exactly if the second from `t` on has come. -/
theorem le_wholeSecond_iff (t u : Time) : t ≤ u / second * second ↔ secondFrom t ≤ u := by
  have hpos : 0 < second := by decide
  calc t ≤ u / second * second
    _ ↔ -(u / second) * second ≤ -t := by rw [neg_mul, neg_le_neg_iff]
    _ ↔ -(u / second) ≤ -t / second := (Int.le_ediv_iff_mul_le hpos).symm
    _ ↔ -(-t / second) ≤ u / second := neg_le
    _ ↔ secondFrom t ≤ u := Int.le_ediv_iff_mul_le hpos

theorem wholeSecond_le (t : Time) : t / second * second ≤ t := Int.ediv_mul_le _ (by decide)

/-- The years from 0 to 9999, for an instant that is rounded down. -/
theorem isJsonYear_wholeSecond (t : Time) :
    isJsonYear (t / second) ↔ -62167219200 * second ≤ t ∧ t < 253402300800 * second := by
  have hpos : 0 < second := by decide
  unfold isJsonYear
  rw [Bool.and_eq_true, decide_eq_true_eq, decide_eq_true_eq]
  exact (Int.le_ediv_iff_mul_le hpos).and
    (Int.lt_add_one_iff.symm.trans (Int.ediv_lt_iff_lt_mul hpos))

end Go

/-! ### The window -/

/-- What the window of a run is around. -/
def RCAContextRecord.triggeredAt (record : RCAContextRecord) : Go.Time :=
  match record.latestHealthSampleCollectedAt with
  | some t => t
  | none => record.incident.openedAt

/-- The end of the window, before it is written. -/
def windowEnd (cfg : Config) (record : RCAContextRecord) (now : Go.Time) : Go.Time :=
  min now (record.triggeredAt + cfg.defaultLookahead)

/-- The window is read back as whole seconds, if their years can be. -/
theorem windowTimes_iff {cfg : Config} {record : RCAContextRecord} {now start stop : Go.Time} :
    (buildContext cfg record now).windowTimes = .ok (start, stop) ↔
      (Go.isJsonYear ((record.triggeredAt - cfg.defaultLookback) / Go.second) ∧
        Go.isJsonYear (windowEnd cfg record now / Go.second)) ∧
      start = (record.triggeredAt - cfg.defaultLookback) / Go.second * Go.second ∧
      stop = windowEnd cfg record now / Go.second * Go.second := by
  -- the end of the window is not after now
  have hend : (buildContext cfg record now).window.windowEnd =
      windowEnd cfg record now / Go.second := by
    show (if now < record.triggeredAt + cfg.defaultLookahead then now
      else record.triggeredAt + cfg.defaultLookahead) / Go.second = _
    rw [windowEnd, min_def_lt]
  unfold RCAContext.windowTimes
  rw [hend]
  show (Go.parseRFC3339 ((record.triggeredAt - cfg.defaultLookback) / Go.second) >>= fun start =>
    Go.parseRFC3339 (windowEnd cfg record now / Go.second) >>= fun stop =>
      Except.ok (start, stop)) = _ ↔ _
  unfold Go.parseRFC3339
  constructor
  · -- both ends are written and read back, or neither is
    intro h
    obtain ⟨start', hstart, h⟩ := except_bind_ok h
    obtain ⟨stop', hstop, h⟩ := except_bind_ok h
    obtain ⟨rfl, rfl⟩ := Prod.mk.inj (Except.ok.inj h)
    split at hstart
    · split at hstop
      · rename_i hyear hyear'
        exact ⟨⟨hyear, hyear'⟩, (Except.ok.inj hstart).symm, (Except.ok.inj hstop).symm⟩
      · cases hstop
    · cases hstart
  · rintro ⟨⟨hyear, hyear'⟩, rfl, rfl⟩
    rw [if_pos hyear, if_pos hyear']
    rfl

/-! ### Samples -/

/-- A row of the window is returned, if the limit leaves room for all rows. -/
theorem listHealthSamples_mem {b : Backend} {claims : Claims} {deploymentId : String}
    {start stop : Go.Time} {rows : List HealthSample} (sample : HealthSample) {limit : ℤ}
    (hrows : b.healthSamples = .ok rows) (hlimit : rows.length ≤ limit) :
    ∃ returned,
      (PostgresStore.listHealthSamples (some claims) deploymentId start stop limit).eval b.answer =
        .ok returned ∧
      (sample ∈ returned ↔
        sample ∈ rows ∧ start ≤ sample.collectedAt ∧ sample.collectedAt ≤ stop) := by
  refine ⟨windowRows HealthSample.collectedAt start stop rows, ?_, ?_⟩
  · have hlength : (windowRows HealthSample.collectedAt start stop rows).length ≤ limit.toNat := by
      have hfilter := List.length_filter_le
        (fun r : HealthSample => start ≤ r.collectedAt ∧ r.collectedAt ≤ stop) rows
      unfold windowRows
      rw [List.length_insertionSort]
      omega
    refine tenantTx_eval.trans ?_
    show b.healthSamples.map _ = _
    rw [hrows, ← List.take_of_length_le hlength]
    rfl
  · unfold windowRows
    rw [List.mem_insertionSort, List.mem_filter, decide_eq_true_eq]

/-- The window of the context is read back and holds the trigger, does not end after the call, and
of the health samples of the deployment one that was collected at the trigger is among those that
are returned, where the limit leaves room for all. -/
def WindowHoldsTrigger (cfg : Config) (record : RCAContextRecord) (now : Go.Time) : Prop :=
  ∃ start stop, (buildContext cfg record now).windowTimes = .ok (start, stop) ∧
    start ≤ record.triggeredAt ∧ record.triggeredAt ≤ stop ∧ stop ≤ now ∧
    ∀ (b : Backend) (claims : Claims) (rows : List HealthSample), b.healthSamples = .ok rows →
      ∀ sample ∈ rows, sample.collectedAt = record.triggeredAt → ∀ limit : ℤ, rows.length ≤ limit →
        ∃ returned,
          (PostgresStore.listHealthSamples (some claims) record.deployment.id start stop
            limit).eval b.answer = .ok returned ∧ sample ∈ returned

/-! ### The trigger -/

/-- The first whole second from the trigger on has come at the call and lies within the lookahead,
and the window lies in the years from 0 to 9999. -/
structure TriggerCovered (cfg : Config) (record : RCAContextRecord) (now : Go.Time) : Prop where
  call : Go.secondFrom record.triggeredAt ≤ now
  lookahead : Go.secondFrom record.triggeredAt ≤ record.triggeredAt + cfg.defaultLookahead
  firstYear : -62167219200 * Go.second ≤ record.triggeredAt - cfg.defaultLookback
  lastYear : now < 253402300800 * Go.second ∨
    record.triggeredAt + cfg.defaultLookahead < 253402300800 * Go.second

/-- **The window holds its trigger exactly if the second from the trigger on is covered.** -/
theorem window_holds_trigger_iff {cfg : Config} {record : RCAContextRecord} {now : Go.Time}
    (hlookback : 0 ≤ cfg.defaultLookback) (hlookahead : 0 ≤ cfg.defaultLookahead)
    (hnow : record.triggeredAt ≤ now) :
    WindowHoldsTrigger cfg record now ↔ TriggerCovered cfg record now := by
  have hend : Go.secondFrom record.triggeredAt ≤ windowEnd cfg record now ↔
      Go.secondFrom record.triggeredAt ≤ now ∧
        Go.secondFrom record.triggeredAt ≤ record.triggeredAt + cfg.defaultLookahead := le_min_iff
  constructor
  · rintro ⟨start, stop, hwindow, -, hstop, -⟩
    obtain ⟨⟨hstartYear, hstopYear⟩, rfl, rfl⟩ := windowTimes_iff.mp hwindow
    obtain ⟨hcall, hahead⟩ := hend.mp ((Go.le_wholeSecond_iff _ _).mp hstop)
    exact ⟨hcall, hahead, ((Go.isJsonYear_wholeSecond _).mp hstartYear).1,
      min_lt_iff.mp ((Go.isJsonYear_wholeSecond _).mp hstopYear).2⟩
  · rintro ⟨hcall, hahead, hfirst, hlast⟩
    have hstop := (Go.le_wholeSecond_iff _ _).mpr (hend.mpr ⟨hcall, hahead⟩)
    have hbefore : record.triggeredAt - cfg.defaultLookback ≤ record.triggeredAt :=
      sub_le_self _ hlookback
    have hafter : record.triggeredAt ≤ windowEnd cfg record now :=
      le_min hnow (le_add_of_nonneg_right hlookahead)
    have hstart := (Go.wholeSecond_le _).trans hbefore
    -- the end is not before the start, so each of the two has a year between the bounds
    have hlast' : windowEnd cfg record now < 253402300800 * Go.second := min_lt_iff.mpr hlast
    have hstartYear := (Go.isJsonYear_wholeSecond _).mpr
      ⟨hfirst, (hbefore.trans hafter).trans_lt hlast'⟩
    have hstopYear := (Go.isJsonYear_wholeSecond _).mpr
      ⟨hfirst.trans (hbefore.trans hafter), hlast'⟩
    refine ⟨_, _, windowTimes_iff.mpr ⟨⟨hstartYear, hstopYear⟩, rfl, rfl⟩, hstart, hstop, ?_, ?_⟩
    · exact (Go.wholeSecond_le _).trans (min_le_left _ _)
    · intro b claims rows hrows sample hsample hcollected limit hlimit
      obtain ⟨returned, heval, hmem⟩ := listHealthSamples_mem sample hrows hlimit
      exact ⟨returned, heval, hmem.mpr ⟨hsample, by rw [hcollected]; exact ⟨hstart, hstop⟩⟩⟩

/-- A run with a sample that was collected in the middle of a second. -/
def sampledRecord : RCAContextRecord :=
  { sampleRecord with latestHealthSampleCollectedAt := some 1500000000 }

/-- Two seconds later the window holds the sample. -/
theorem window_holds_trigger : WindowHoldsTrigger defaultConfig sampledRecord 3500000000 :=
  (window_holds_trigger_iff (by decide) (by decide) (by decide)).mpr
    ⟨by decide, by decide, by decide, .inl (by decide)⟩

/-- In the same second it ends before it. -/
theorem window_ends_before_trigger :
    ¬ ∀ cfg record now, 0 ≤ cfg.defaultLookback → 0 ≤ cfg.defaultLookahead →
      record.triggeredAt ≤ now → WindowHoldsTrigger cfg record now := by
  intro h
  obtain ⟨start, stop, hwindow, -, hstop, -⟩ := h defaultConfig sampledRecord 1900000000 (by decide)
    (by decide) (by decide)
  obtain ⟨-, -, rfl⟩ := windowTimes_iff.mp hwindow
  exact absurd hstop (by decide)

end NexCause
