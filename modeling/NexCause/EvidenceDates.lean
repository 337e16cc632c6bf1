/-
NexCause/EvidenceDates.lean

The window of a request for evidence, in the numbers and dates of the language:
`buildEvidenceWindowOptions` of the controller with its parsers, and
`buildEvidenceWindow` and `secondsBetween` of the service.

Main result: the window of a request is well formed exactly if trigger and
minutes stay within the range of dates, the lookback reaches back from the
trigger to the collection time or before, and the time from the start to the
collection is not one that is rounded below itself (`evidence_window_iff`).
-/
import NexCause.JavaScriptDates
import NexCause.ManagerEvidence

namespace NexCause.EvidenceController

open Float64 (one signed ofInt sub add lt Is IntRepresentable)

/-! ### Requests -/

/-- The query of the evidence endpoints. -/
structure EvidenceQuery where
  triggeredAt : Option String
  lookbackMinutes : Option String
  lookaheadMinutes : Option String
  deriving DecidableEq, Repr

/-- `EvidenceWindowOptions` -/
structure EvidenceWindowOptions where
  triggeredAt : Option Date
  windowStart : Option Date
  windowEnd : Option Date
  lookbackMinutes : Option Float64
  lookaheadMinutes : Option Float64
  reason : Option String

/-- `EvidenceWindow` -/
structure EvidenceWindow where
  triggeredAt : Date
  start : Date
  stop : Date
  lookbackMinutes : Float64
  lookaheadMinutes : Float64
  reason : String

/-- `parseOptionalDate`; `parse` is `new Date(value)` of a text. -/
def parseOptionalDate (parse : String → Date) (value : Option String) : Option Date :=
  match truthy value with
  | none => none
  | some value =>
      let date := parse value
      if date.getTime = .nan then none else some date

def parseOptionalPositiveInt (value : Option String) : Option Float64 :=
  match truthy value with
  | none => none
  | some value =>
      let parsed := stringToNumber value.toList
      if !isInteger parsed || lessEqual parsed .zero then none else some parsed

def buildEvidenceWindowOptions (parse : String → Date) (query : EvidenceQuery) :
    EvidenceWindowOptions where
  triggeredAt := parseOptionalDate parse query.triggeredAt
  windowStart := none
  windowEnd := none
  lookbackMinutes := parseOptionalPositiveInt query.lookbackMinutes
  lookaheadMinutes := parseOptionalPositiveInt query.lookaheadMinutes
  reason := none

/-! ### The window -/

/-- `new Date(date.getTime() - minutes * 60 * 1000)` -/
def minutesBefore (date : Date) (minutes : Float64) : Date :=
  dateOf (sub date.getTime ((minutes.mulNat 60).mulNat 1000))

/-- `new Date(date.getTime() + minutes * 60 * 1000)` -/
def minutesAfter (date : Date) (minutes : Float64) : Date :=
  dateOf (add date.getTime ((minutes.mulNat 60).mulNat 1000))

/-- The end, unless it is after the collection. -/
def notAfter (collectedAt requestedEnd : Date) : Date :=
  if lt collectedAt.getTime requestedEnd.getTime then collectedAt else requestedEnd

def buildEvidenceWindow (options : EvidenceWindowOptions) (collectedAt : Date) : EvidenceWindow :=
  let lookbackMinutes := options.lookbackMinutes.getD (ofInt 10)
  let lookaheadMinutes := options.lookaheadMinutes.getD (ofInt 2)
  let triggeredAt := options.triggeredAt.getD collectedAt
  let start := options.windowStart.getD (minutesBefore triggeredAt lookbackMinutes)
  let requestedEnd := options.windowEnd.getD (minutesAfter triggeredAt lookaheadMinutes)
  { triggeredAt, start
    stop := notAfter collectedAt requestedEnd
    lookbackMinutes, lookaheadMinutes
    reason := options.reason.getD "manual-or-current-evidence" }

def secondsBetween (start stop : Date) : Float64 :=
  mathMax (ofInt 1) (mathCeil ((sub stop.getTime start.getTime).divNat 1000))

/-- The times of `incidentWindow` in what `collectLive` returns. -/
def incidentWindow (window : EvidenceWindow) :
    Except String (TimeValue × TimeValue × TimeValue) := do
  let triggeredAt ← window.triggeredAt.toISOString
  let start ← window.start.toISOString
  let stop ← window.stop.toISOString
  return (triggeredAt, start, stop)

/-! ### What a request asks for -/

/-- The trigger: the time of the collection unless the query has a date. -/
def EvidenceQuery.trigger (parse : String → Date) (query : EvidenceQuery)
    (collectedAt : TimeValue) : TimeValue :=
  ((parseOptionalDate parse query.triggeredAt).getD (some collectedAt)).getD collectedAt

/-- The minutes before the trigger. -/
def EvidenceQuery.lookback (query : EvidenceQuery) : ℤ :=
  ((parseOptionalPositiveInt query.lookbackMinutes).map Float64.trunc).getD 10

/-- The minutes after the trigger. -/
def EvidenceQuery.lookahead (query : EvidenceQuery) : ℤ :=
  ((parseOptionalPositiveInt query.lookaheadMinutes).map Float64.trunc).getD 2

theorem parseOptionalPositiveInt_is {value : Option String} {x : Float64}
    (h : parseOptionalPositiveInt value = some x) : x.Is x.trunc ∧ 0 < x.trunc := by
  unfold parseOptionalPositiveInt at h
  split at h
  · cases h
  · dsimp only at h
    split at h
    · cases h
    · rename_i hparsed
      cases h
      rw [Bool.or_eq_true, Bool.not_eq_true', not_or, Bool.not_eq_false] at hparsed
      obtain ⟨hinteger, hpositive⟩ := hparsed
      obtain ⟨i, hi⟩ := isInteger_iff.mp hinteger
      have hzero : Float64.zero.Is 0 := ⟨_, rfl, by rw [zero_mul]; rfl⟩
      rw [lessEqual_of_is hi hzero, decide_eq_true_eq, not_le] at hpositive
      rw [trunc_of_is hi]
      exact ⟨hi, hpositive⟩

/-- The minutes of a query, or a number of minutes instead. -/
theorem minutes_is (value : Option String) {default : ℤ} (hpos : 0 < default)
    (hdefault : default.natAbs ≤ 2 ^ 53) :
    ((parseOptionalPositiveInt value).getD (ofInt default)).Is
        (((parseOptionalPositiveInt value).map Float64.trunc).getD default) ∧
      0 < ((parseOptionalPositiveInt value).map Float64.trunc).getD default := by
  cases h : parseOptionalPositiveInt value with
  | none =>
    rw [Option.getD_none, Option.map_none, Option.getD_none]
    exact ⟨Float64.is_ofInt (Float64.intRepresentable_of_le hdefault), hpos⟩
  | some x =>
    rw [Option.getD_some, Option.map_some, Option.getD_some]
    exact parseOptionalPositiveInt_is h

theorem trigger_eq (parse : String → Date) (query : EvidenceQuery) (collectedAt : TimeValue) :
    (parseOptionalDate parse query.triggeredAt).getD (some collectedAt) =
      some (query.trigger parse collectedAt) := by
  unfold EvidenceQuery.trigger
  cases h : parseOptionalDate parse query.triggeredAt with
  | none => rfl
  | some date =>
    cases date with
    | some t => rfl
    | none =>
      -- an invalid date is not let through
      unfold parseOptionalDate at h
      split at h
      · cases h
      · dsimp only at h
        split at h
        · cases h
        · rename_i hvalid
          rw [Option.some.inj h] at hvalid
          exact absurd rfl hvalid

theorem getTime_is (t : TimeValue) : (Date.getTime (some t)).Is t.1 :=
  Float64.is_ofInt (Float64.intRepresentable_of_le (t.2.trans (by decide)))

theorem parseOptionalDate_eq {parse : String → Date} {value : String} {t : TimeValue}
    (hvalue : value ≠ "") (hparse : parse value = some t) :
    parseOptionalDate parse (some value) = some (some t) := by
  unfold parseOptionalDate
  rw [truthy_of_ne hvalue]
  show (if (parse value).getTime = .nan then none else some (parse value)) = _
  rw [hparse, if_neg (ne_nan_of_is (getTime_is t))]

variable (parse : String → Date) (query : EvidenceQuery) (collectedAt : TimeValue)

/-- The window of a request. -/
def EvidenceQuery.window : EvidenceWindow :=
  buildEvidenceWindow (buildEvidenceWindowOptions parse query) (some collectedAt)

theorem window_triggeredAt :
    (query.window parse collectedAt).triggeredAt = some (query.trigger parse collectedAt) :=
  trigger_eq parse query collectedAt

theorem window_start : (query.window parse collectedAt).start =
    dateAt ((query.trigger parse collectedAt).1 - query.lookback * 60000) := by
  obtain ⟨hminutes, hpos⟩ := minutes_is query.lookbackMinutes (by decide : (0 : ℤ) < 10) (by decide)
  have hstart : (query.window parse collectedAt).start =
      minutesBefore ((parseOptionalDate parse query.triggeredAt).getD (some collectedAt))
        ((parseOptionalPositiveInt query.lookbackMinutes).getD (ofInt 10)) := rfl
  rw [hstart, trigger_eq, sub_eq_add_neg]
  exact dateOf_add _ (offset_minutes hminutes hpos).neg

theorem notAfter_eq (requested : Date) :
    notAfter (some collectedAt) requested = requested.map (min collectedAt) := by
  unfold notAfter
  cases requested with
  | none =>
    -- no time is before an invalid date
    obtain ⟨f, hf, -⟩ := getTime_is collectedAt
    rw [hf]
    rfl
  | some requested =>
    rw [lt_of_is (getTime_is _) (getTime_is _), Option.map_some, min_def_lt]
    simp only [decide_eq_true_eq, Subtype.coe_lt_coe]
    split
    · rfl
    · rfl

/-- The end of the window: the end that is asked for, and the collection at the latest. -/
theorem window_stop : (query.window parse collectedAt).stop =
    (dateAt ((query.trigger parse collectedAt).1 + query.lookahead * 60000)).map
      (min collectedAt) := by
  obtain ⟨hminutes, hpos⟩ := minutes_is query.lookaheadMinutes (by decide : (0 : ℤ) < 2) (by decide)
  have hrequested : minutesAfter (some (query.trigger parse collectedAt))
      ((parseOptionalPositiveInt query.lookaheadMinutes).getD (ofInt 2)) =
      dateAt ((query.trigger parse collectedAt).1 + query.lookahead * 60000) :=
    dateOf_add _ (offset_minutes hminutes hpos)
  have hstop : (query.window parse collectedAt).stop = notAfter (some collectedAt)
      (minutesAfter ((parseOptionalDate parse query.triggeredAt).getD (some collectedAt))
        ((parseOptionalPositiveInt query.lookaheadMinutes).getD (ofInt 2))) := by
    -- (unfolded by hand: no number is computed here)
    unfold EvidenceQuery.window buildEvidenceWindow buildEvidenceWindowOptions
    dsimp only [Option.getD_none]
  rw [hstop, trigger_eq, hrequested, notAfter_eq]

/-! ### Seconds -/

/-- The time between two dates, between bounds that are numbers. -/
theorem elapsed_bounds {start stop : TimeValue} {l u : ℤ} (hl : IntRepresentable l)
    (hu : IntRepresentable u) (hlow : l ≤ stop.1 - start.1) (hhigh : stop.1 - start.1 ≤ u) :
    ∃ f, sub (Date.getTime (some stop)) (Date.getTime (some start)) = .finite f ∧
      l * one ≤ signed f ∧ signed f ≤ u * one := by
  obtain ⟨hstop, hstop'⟩ := Float64.is_iff.mp (getTime_is stop)
  obtain ⟨hstart, hstart'⟩ := Float64.is_iff.mp (getTime_is start).neg
  have hsum : ∀ i j : ℤ, i * one + -j * one = (i - j) * one := fun i j => by ring
  have hleast := Float64.add_atLeast hstop hstart hl.units.1 hl.units.2
    ((mul_unit_le hlow).trans (hsum _ _).ge)
  have hmost := Float64.add_atMost hstop' hstart' hu.units.1 hu.units.2
    ((hsum _ _).le.trans (mul_unit_le hhigh))
  obtain h | ⟨f, hf, hlow'⟩ := hleast
  · obtain h' | ⟨f, hf, -⟩ := hmost
    · cases h.symm.trans h'
    · cases h.symm.trans hf
  · obtain h' | ⟨g, hg, hhigh'⟩ := hmost
    · cases hf.symm.trans h'
    · cases hf.symm.trans hg
      exact ⟨f, hf, hlow', hhigh'⟩

/-- The seconds: the quotient, rounded up, and one at least. -/
theorem secondsBetween_is {start stop : TimeValue} {f : FiniteFloat64}
    (hf : sub (Date.getTime (some stop)) (Date.getTime (some start)) = .finite f)
    (hpos : 0 ≤ signed f) (hmax : f.units ≤ 2 ^ 53 * one * 1000) :
    ∃ k : ℤ, (secondsBetween (some start) (some stop)).Is (max 1 k) ∧
      (Binary64.nearest f.units 1000 : ℤ) ≤ k * one ∧
      k * one < (Binary64.nearest f.units 1000 : ℤ) + one := by
  obtain ⟨g, hg, hsigned⟩ := Float64.divNat_eq (by decide : 0 < 1000) hpos
  have hle :=
    Binary64.nearest_le_of_le (Float64.representable_mul_unit (le_refl _)) (by decide) hmax
  obtain ⟨k, hk, hlow, hhigh⟩ := mathCeil_is (f := g) (by rw [hsigned]; exact Int.natCast_nonneg _)
    (by rw [hsigned]; exact Int.ofNat_le.mpr hle)
  rw [hsigned] at hlow hhigh
  refine ⟨k, ?_, hlow, hhigh⟩
  unfold secondsBetween
  rw [hf, hg]
  exact mathMax_of_is (Float64.is_ofInt (Float64.intRepresentable_of_le (by decide))) hk

/-- An elapsed time lies between integers that are numbers: itself up to 2^53 or if it is even,
else its neighbours. -/
theorem elapsed_between {y : ℤ} (hpos : 0 ≤ y) (hmax : y ≤ 2 * maxTime)
    (hexact : y ≤ 2 ^ 53 ∨ y % 1000 ≠ 1) :
    ∃ l u, IntRepresentable l ∧ IntRepresentable u ∧ l ≤ y ∧ y ≤ u ∧ 0 ≤ l ∧
      (l = y ∨ l + 1 = y ∧ y % 1000 ≠ 1) ∧ u ≤ 2 * maxTime + 1 := by
  have heven : ∀ i : ℤ, 0 ≤ i → i ≤ 2 ^ 53 → IntRepresentable (2 * i) := fun i hi hi' =>
    ⟨i.natAbs, 1, by omega, by decide, by omega⟩
  unfold maxTime at hmax ⊢
  by_cases hsmall : y ≤ 2 ^ 53
  · have hy : IntRepresentable y := Float64.intRepresentable_of_le (by omega)
    exact ⟨y, y, hy, hy, le_refl _, le_refl _, hpos, .inl rfl, by omega⟩
  · rcases Int.even_or_odd' y with ⟨i, rfl | rfl⟩
    · have hy := heven i (by omega) (by omega)
      exact ⟨2 * i, 2 * i, hy, hy, le_refl _, le_refl _, hpos, .inl rfl, by omega⟩
    · refine ⟨2 * i, 2 * (i + 1), heven i (by omega) (by omega),
        heven (i + 1) (by omega) (by omega), by omega, by omega, by omega,
        .inr ⟨rfl, hexact.resolve_left hsmall⟩, by omega⟩

/-- A time after a whole number of seconds has a quotient after it: a thousandth is more than half a
step of 1/512. -/
theorem wholeSeconds_lt {j l u n e : ℕ} (hl : 1000 * j + 1 ≤ l) (hlow : l * (512 * 2 ^ e) ≤ n)
    (hhigh : n ≤ u * (512 * 2 ^ e)) (hu : u * 512 < 2 ^ 53 * 1000) :
    j * (512 * 2 ^ e) < Binary64.nearest n 1000 := by
  have hstep : 0 < 2 ^ e := Nat.two_pow_pos e
  have hhalf : (2 * (j * 512) + 1) * 2 ^ e * 1000 < 2 * n := by nlinarith
  have hrange : n < 2 ^ (53 + e) * 1000 := by
    rw [pow_add]
    nlinarith
  rw [← mul_assoc]
  exact Binary64.lt_nearest (by decide) hhalf hrange

/-- The seconds cover the time, unless that is rounded down to a whole second. -/
theorem secondsBetween_covers (start stop : TimeValue) (hle : start.1 ≤ stop.1)
    (hexact : stop.1 - start.1 ≤ 2 ^ 53 ∨ (stop.1 - start.1) % 1000 ≠ 1) :
    ∃ k : ℤ, (secondsBetween (some start) (some stop)).Is k ∧ stop.1 - start.1 ≤ k * 1000 := by
  have hmax : stop.1 - start.1 ≤ 2 * maxTime := by
    have hstart := start.2
    have hstop := stop.2
    omega
  obtain ⟨l, u, hl, hu, hlow, hhigh, hl0, hodd, hu'⟩ :=
    elapsed_between (sub_nonneg.mpr hle) hmax hexact
  obtain ⟨f, hf, hflow, hfhigh⟩ := elapsed_bounds hl hu hlow hhigh
  have hfpos : 0 ≤ signed f := (mul_nonneg hl0 (Int.natCast_nonneg one)).trans hflow
  obtain ⟨l, rfl⟩ := Int.eq_ofNat_of_zero_le hl0
  obtain ⟨u, rfl⟩ := Int.eq_ofNat_of_zero_le ((sub_nonneg.mpr hle).trans hhigh)
  rw [Float64.signed_eq_units hfpos] at hflow hfhigh
  have hflow' : l * one ≤ f.units := by exact_mod_cast hflow
  have hfhigh' : f.units ≤ u * one := by exact_mod_cast hfhigh
  have hu'' : u * 512 < 2 ^ 53 * 1000 := by
    unfold maxTime at hu'
    omega
  have hunits : f.units ≤ 2 ^ 53 * one * 1000 := by
    have hle' : u ≤ 2 ^ 53 * 1000 := by omega
    calc f.units ≤ u * one := hfhigh'
      _ ≤ 2 ^ 53 * 1000 * one := Nat.mul_le_mul_right _ hle'
      _ = 2 ^ 53 * one * 1000 := Nat.mul_right_comm _ _ _
  obtain ⟨k, hk, hup, -⟩ := secondsBetween_is hf hfpos hunits
  refine ⟨max 1 k, hk, ?_⟩
  rcases hle.eq_or_lt with heq | hlt
  · rw [heq, sub_self]
    omega
  · -- the whole seconds before the end are fewer than the seconds asked for
    obtain ⟨j, hj⟩ := Int.eq_ofNat_of_zero_le (show 0 ≤ (stop.1 - start.1 - 1) / 1000 by omega)
    have hlt' : j * one < Binary64.nearest f.units 1000 := by
      rw [Float64.unit_eq] at hflow' hfhigh' ⊢
      exact wholeSeconds_lt (by omega) hflow' hfhigh' hu''
    have hjk : (j : ℤ) < k := by
      have hunit : (0 : ℤ) < one := Int.natCast_pos.mpr Float64.unit_pos
      have h : (j : ℤ) * one < k * one := lt_of_lt_of_le (by exact_mod_cast hlt') hup
      exact lt_of_mul_lt_mul_right h hunit.le
    omega

/-- A time of more than 2^53 milliseconds that is rounded down to a whole second. -/
theorem secondsBetween_short (start stop : TimeValue) (hlong : 2 ^ 53 < stop.1 - start.1)
    (hone : (stop.1 - start.1) % 1000 = 1) :
    (secondsBetween (some start) (some stop)).Is ((stop.1 - start.1) / 1000) := by
  have hmax : stop.1 - start.1 ≤ 2 * 8640000000000000 := by
    have hstart := start.2
    have hstop := stop.2
    unfold maxTime at hstart hstop
    omega
  obtain ⟨k, hk⟩ := Int.eq_ofNat_of_zero_le (show 0 ≤ (stop.1 - start.1) / 1000 by omega)
  have hrep : Binary64.Representable (k * one) := Float64.representable_mul_unit (by omega)
  -- the odd millisecond is a tie, which is rounded to even
  obtain ⟨f, hf, hsigned⟩ : (sub (Date.getTime (some stop)) (Date.getTime (some start))).Is
      (2 * (500 * k : ℕ)) :=
    (getTime_is stop).add_tie (getTime_is start).neg (by omega) (by omega) (by omega) (by omega)
  have hpos : 0 ≤ signed f := by
    rw [hsigned]
    exact mul_nonneg (by omega) (Int.natCast_nonneg one)
  have hunits : f.units = k * one * 1000 := by
    rw [Float64.signed_eq_units hpos] at hsigned
    have h : f.units = 2 * (500 * k) * one := by exact_mod_cast hsigned
    rw [h]
    ring
  -- the division is exact
  have hnearest : Binary64.nearest f.units 1000 = k * one :=
    le_antisymm (Binary64.nearest_le_of_le hrep (by decide) hunits.le)
      (Binary64.le_nearest hrep (by decide) hunits.ge)
  -- so that the ceiling adds nothing
  obtain ⟨s, hs, hlow, hhigh⟩ := secondsBetween_is hf hpos
    (hunits.trans_le (Nat.mul_le_mul_right _ (Nat.mul_le_mul_right _ (by omega))))
  rw [hnearest, Nat.cast_mul] at hlow hhigh
  have hunit : (0 : ℤ) < one := Int.natCast_pos.mpr Float64.unit_pos
  have hle : (k : ℤ) ≤ s := le_of_mul_le_mul_right hlow hunit
  have hlt : s < (k : ℤ) + 1 :=
    lt_of_mul_lt_mul_right (hhigh.trans_eq (by rw [add_mul, one_mul])) hunit.le
  rw [hk]
  have heq : max 1 s = (k : ℤ) := by omega
  rwa [heq] at hs

/-! ### Well-formed windows -/

/-- The window has valid dates, in order and not after the collection, and has the trigger in it if
that is not after the collection; what is returned can be written; and the seconds that Kubernetes
is asked for reach back to its start. -/
def WindowWellFormed (window : EvidenceWindow) (collectedAt : TimeValue) : Prop :=
  ∃ triggeredAt start stop : TimeValue, incidentWindow window = .ok (triggeredAt, start, stop) ∧
    start ≤ stop ∧ stop ≤ collectedAt ∧
    (triggeredAt ≤ collectedAt → start ≤ triggeredAt ∧ triggeredAt ≤ stop) ∧
    ∃ seconds : ℤ, (secondsBetween window.start (some collectedAt)).Is seconds ∧
      collectedAt.1 - seconds * 1000 ≤ start.1

/-- What the query has to be for that, at the time of the collection. -/
structure EvidenceQuery.Fits : Prop where
  /-- the lookback does not reach before the first date -/
  start : -maxTime ≤ (query.trigger parse collectedAt).1 - query.lookback * 60000
  /-- the lookahead does not reach beyond the last date -/
  stop : (query.trigger parse collectedAt).1 + query.lookahead * 60000 ≤ maxTime
  /-- the trigger is not further in the future than the lookback -/
  past : (query.trigger parse collectedAt).1 - query.lookback * 60000 ≤ collectedAt.1
  /-- the time from the start to the collection is not rounded down to a whole second -/
  exact : collectedAt.1 - ((query.trigger parse collectedAt).1 - query.lookback * 60000) ≤ 2 ^ 53 ∨
    (collectedAt.1 - (query.trigger parse collectedAt).1) % 1000 ≠ 1

theorem incidentWindow_iff {window : EvidenceWindow} {triggeredAt start stop : TimeValue} :
    incidentWindow window = .ok (triggeredAt, start, stop) ↔
      window.triggeredAt = some triggeredAt ∧ window.start = some start ∧
        window.stop = some stop := by
  constructor
  · intro h
    obtain ⟨t, ht, h⟩ := Date.toISOString_bind.mp h
    obtain ⟨s, hs, h⟩ := Date.toISOString_bind.mp h
    obtain ⟨e, he, h⟩ := Date.toISOString_bind.mp h
    cases h
    exact ⟨ht, hs, he⟩
  · rintro ⟨ht, hs, he⟩
    unfold incidentWindow
    rw [ht, hs, he]
    rfl

/-- **The window of a request is well formed exactly if the request fits.** -/
theorem evidence_window_iff :
    WindowWellFormed (query.window parse collectedAt) collectedAt ↔
      query.Fits parse collectedAt := by
  have hlookback := (minutes_is query.lookbackMinutes (by decide : (0 : ℤ) < 10) (by decide)).2
  have hlookahead := (minutes_is query.lookaheadMinutes (by decide : (0 : ℤ) < 2) (by decide)).2
  change 0 < query.lookback at hlookback
  change 0 < query.lookahead at hlookahead
  have hcollected := collectedAt.2
  constructor
  · rintro ⟨t, s, e, hwindow, hse, hec, -, k, hk, hseconds⟩
    obtain ⟨ht, hs, he⟩ := incidentWindow_iff.mp hwindow
    rw [window_start] at hs
    rw [window_start, hs] at hk
    rw [window_stop, Option.map_eq_some_iff] at he
    obtain ⟨r, hr, rfl⟩ := he
    have hstart := dateAt_eq_some.mp hs
    have hstop := dateAt_eq_some.mp hr
    have hsrange := s.2
    have hrrange := r.2
    have hsc : s.1 ≤ collectedAt.1 := hse.trans hec
    refine ⟨by omega, by omega, by omega, ?_⟩
    by_contra hnot
    obtain ⟨hlong, hone⟩ := not_or.mp hnot
    -- then the seconds come out one too short
    have hshort := secondsBetween_short s collectedAt (by omega) (by omega)
    have hseconds' := hk.unique hshort
    omega
  · rintro ⟨hstart, hstop, hpast, hexact⟩
    have htrange := (query.trigger parse collectedAt).2
    have hsrange :
        ((query.trigger parse collectedAt).1 - query.lookback * 60000).natAbs ≤ maxTime := by omega
    have herange :
        ((query.trigger parse collectedAt).1 + query.lookahead * 60000).natAbs ≤ maxTime := by omega
    have hexact' :
        collectedAt.1 - ((query.trigger parse collectedAt).1 - query.lookback * 60000) ≤ 2 ^ 53 ∨
          (collectedAt.1 - ((query.trigger parse collectedAt).1 - query.lookback * 60000)) % 1000 ≠
            1 := by
      omega
    obtain ⟨k, hk, hcovers⟩ := secondsBetween_covers ⟨_, hsrange⟩ collectedAt hpast hexact'
    -- the window, and the seconds that cover it
    refine ⟨query.trigger parse collectedAt, ⟨_, hsrange⟩, min collectedAt ⟨_, herange⟩,
      incidentWindow_iff.mpr ⟨window_triggeredAt .., ?_, ?_⟩, le_min hpast ?_, min_le_left _ _, ?_,
      k, ?_, ?_⟩
    · rw [window_start, dateAt_in hsrange]
    · rw [window_stop, dateAt_in herange]
      rfl
    · show (query.trigger parse collectedAt).1 - _ ≤ (query.trigger parse collectedAt).1 + _
      omega
    · intro hbefore
      constructor
      · show (query.trigger parse collectedAt).1 - _ ≤ (query.trigger parse collectedAt).1
        omega
      · apply le_min hbefore
        show (query.trigger parse collectedAt).1 ≤ (query.trigger parse collectedAt).1 + _
        omega
    · rw [window_start, dateAt_in hsrange]
      exact hk
    · show collectedAt.1 - k * 1000 ≤ (query.trigger parse collectedAt).1 - _
      have h : collectedAt.1 - ((query.trigger parse collectedAt).1 - query.lookback * 60000) ≤
        k * 1000 := hcovers
      omega

/-- While the end that is asked for is a date, the dates of the window are those of the window in
integers. -/
theorem window_eq_integers (hstop : ((query.trigger parse collectedAt).1 +
      query.lookahead * 60000).natAbs ≤ maxTime) :
    let window := EvidenceService.buildEvidenceWindow
      ⟨some (query.trigger parse collectedAt).1, none, none, some query.lookback,
        some query.lookahead, none⟩ collectedAt.1
    (query.window parse collectedAt).triggeredAt = dateAt window.triggeredAt ∧
      (query.window parse collectedAt).start = dateAt window.start ∧
      (query.window parse collectedAt).stop = dateAt window.stop := by
  refine ⟨?_, ?_, ?_⟩
  · rw [window_triggeredAt]
    exact (dateAt_in (query.trigger parse collectedAt).2).symm
  · rw [window_start]
    show _ = dateAt (_ - query.lookback * 60 * 1000)
    rw [mul_assoc]
    rfl
  · rw [window_stop, dateAt_in hstop, Option.map_some]
    symm
    rw [dateAt_eq_some]
    show (if collectedAt.1 < (query.trigger parse collectedAt).1 + query.lookahead * 60 * 1000
      then collectedAt.1
      else (query.trigger parse collectedAt).1 + query.lookahead * 60 * 1000) = _
    rw [mul_assoc, show (60 : ℤ) * 1000 = 60000 from rfl, min_def_lt]
    by_cases hafter : collectedAt.1 < (query.trigger parse collectedAt).1 + query.lookahead * 60000
    · rw [if_pos hafter, if_pos (show collectedAt < ⟨_, hstop⟩ from hafter)]
    · rw [if_neg hafter, if_neg (show ¬ collectedAt < ⟨_, hstop⟩ from hafter)]

/-- `new Date` of the start of a century. -/
def sampleParse (value : String) : Date :=
  if value = "2100-01-01T00:00:00Z" then dateAt 4102444800000 else none

/-- A trigger in the future leaves a window that ends before it starts. -/
theorem future_window : ¬ ∀ parse query collectedAt,
    WindowWellFormed (EvidenceQuery.window parse query collectedAt) collectedAt := by
  intro h
  obtain ⟨t, s, e, hwindow, hse, hec, -⟩ := h sampleParse ⟨some "2100-01-01T00:00:00Z", none, none⟩
    ⟨1767225600000, by decide⟩
  obtain ⟨-, hs, -⟩ := incidentWindow_iff.mp hwindow
  rw [window_start, dateAt_eq_some] at hs
  have htrigger : (EvidenceQuery.trigger sampleParse ⟨some "2100-01-01T00:00:00Z", none, none⟩
      ⟨1767225600000, by decide⟩).1 = 4102444800000 := by
    unfold EvidenceQuery.trigger
    have hparse : sampleParse "2100-01-01T00:00:00Z" = some ⟨4102444800000, by decide⟩ := by
      unfold sampleParse
      rw [if_pos rfl]
      exact dateAt_in (by decide)
    rw [parseOptionalDate_eq (by decide) hparse]
    rfl
  have hle : s.1 ≤ 1767225600000 := hse.trans hec
  rw [htrigger] at hs
  change 4102444800000 - 10 * 60000 = s.1 at hs
  omega

end NexCause.EvidenceController
