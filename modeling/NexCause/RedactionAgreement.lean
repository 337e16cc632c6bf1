/-
NexCause/RedactionAgreement.lean

Do the two redactions agree on printable ASCII?  There the two languages read the
patterns alike, but the evidence server replaces the equals sign of a credential
`key=value` with its value, and the Loki client keeps it.

So they agree exactly on the lines in whose scan every value of a key belongs to
a bearer credential, which is replaced as a whole (`redact_eq_iff`).
-/
import NexCause.RedactionScan

namespace NexCause

open Regex Dialect

/-- A printable ASCII character. -/
def isPrintable (c : Char) : Bool := 32 ≤ c.toNat && c.toNat ≤ 126

/-! ### The dialects on ASCII -/

section Printable

variable {line : List Char}

/-- The characters that only Go folds are not printable. -/
theorem ne_of_isPrintable {c : Char} (hc : isPrintable c = true) :
    decide (c = '\u017f') = false ∧ decide (c = '\u212a') = false := by
  constructor
  · rw [decide_eq_false_iff_not]
    rintro rfl
    exact absurd hc (by decide)
  · rw [decide_eq_false_iff_not]
    rintro rfl
    exact absurd hc (by decide)

theorem goFoldEq_eq (a : Char) {c : Char} (hc : isPrintable c = true) :
    goFoldEq a c = jsFoldEq a c := by
  obtain ⟨hlong, hkelvin⟩ := ne_of_isPrintable hc
  rw [goFoldEq, jsFoldEq, hlong, hkelvin, Bool.and_false, Bool.and_false, Bool.or_false, Bool.or_false]

theorem goTokenChar_eq {c : Char} (hc : isPrintable c = true) : goTokenChar c = isTokenChar c := by
  obtain ⟨hlong, hkelvin⟩ := ne_of_isPrintable hc
  rw [goTokenChar, hlong, hkelvin, Bool.or_false, Bool.or_false]

theorem goSpace_eq {c : Char} (hc : isPrintable c = true) : goSpace c = isWhiteSpace c := by
  have hall : ∀ n < 128, isPrintable (Char.ofNat n) = true →
      goSpace (Char.ofNat n) = isWhiteSpace (Char.ofNat n) := by decide
  have hlt : c.toNat < 128 := by
    simp only [isPrintable, Bool.and_eq_true, decide_eq_true_eq] at hc
    omega
  exact forall_ascii (P := fun c => isPrintable c = true → goSpace c = isWhiteSpace c) hall hlt hc

theorem sameOn_secretKeyWord : SameOn (fun c => isPrintable c = true) (secretKeyWord goFoldEq)
    (secretKeyWord jsFoldEq) :=
  have hword : ∀ w, SameOn (fun c => isPrintable c = true) (word goFoldEq w) (word jsFoldEq w) :=
    sameOn_word fun a _ hc => goFoldEq_eq a hc
  ⟨hword _, hword _, hword _, hword _, sameOn_refl _, hword _⟩

/-- On printable lines the dialects redact alike. -/
theorem redactLine_eq (hline : ∀ c ∈ line, isPrintable c = true) (keep : Bool) :
    goDialect.redactLine keep line = jsDialect.redactLine keep line := by
  have hword : ∀ w, SameOn (fun c => isPrintable c = true) (word goFoldEq w) (word jsFoldEq w) :=
    sameOn_word fun a _ hc => goFoldEq_eq a hc
  have hspace : ∀ c, isPrintable c = true → goSpace c = isWhiteSpace c := fun c hc => goSpace_eq hc
  have hvisible : ∀ c, isPrintable c = true → (!goSpace c) = !isWhiteSpace c := fun c hc => by
    rw [goSpace_eq hc]
  have htoken : ∀ c, isPrintable c = true → goTokenChar c = isTokenChar c := fun c hc =>
    goTokenChar_eq hc
  have hkeyed : (goDialect.keyedPattern keep).replaceAll redactedMark line =
      (jsDialect.keyedPattern keep).replaceAll redactedMark line := by
    cases keep with
    | true =>
      apply Pattern.replaceAll_congr _ _ hline
      · exact ⟨sameOn_secretKeyWord, sameOn_refl _⟩
      · exact ⟨hvisible, hvisible⟩
    | false =>
      apply Pattern.replaceAll_congr _ _ hline
      · exact sameOn_secretKeyWord
      · exact ⟨sameOn_refl _, hvisible, hvisible⟩
  -- the first pass leaves a printable line
  have hmasked : ∀ c ∈ (jsDialect.keyedPattern keep).replaceAll redactedMark line,
      isPrintable c = true := by
    have hmark : ∀ c ∈ redactedMark, isPrintable c = true := forall_mem_of_all (by decide)
    intro c hc
    rcases Pattern.mem_replaceAll hc with hc | hc
    · exact hline c hc
    · exact hmark c hc
  rw [redactLine, redactLine, hkeyed]
  apply Pattern.replaceAll_congr _ _ hmasked
  · exact ⟨hword _, hspace, hword _, hspace, hspace⟩
  · exact ⟨⟨htoken, htoken⟩, sameOn_refl _⟩

end Printable

/-! ### The equals signs -/

/-- The credential is one of a key alone. -/
def Segment.isKeyed : Segment → Bool
  | .keyed _ _ => true
  | _ => false

/-- Every such credential is longer by its sign where that is kept. -/
theorem length_redacted (ss : List Segment) :
    (ss.flatMap (Segment.redacted true)).length =
      (ss.flatMap (Segment.redacted false)).length + (ss.filter Segment.isKeyed).length := by
  induction ss with
  | nil => rfl
  | cons s ss ih =>
    rw [List.flatMap_cons, List.flatMap_cons, List.length_append, List.length_append, ih]
    cases s with
    | keyed key value =>
      have hone : (Segment.redacted true (.keyed key value)).length =
          (Segment.redacted false (.keyed key value)).length + 1 := by
        simp [Segment.redacted, sign]
        omega
      have hfilter : (Segment.keyed key value :: ss).filter Segment.isKeyed =
          .keyed key value :: ss.filter Segment.isKeyed := List.filter_cons_of_pos rfl
      rw [hfilter, List.length_cons, hone]
      omega
    | kept c => exact (Nat.add_assoc _ _ _).symm
    | bearer anchor token equals => exact (Nat.add_assoc _ _ _).symm
    | bearerKeyed anchor token value => exact (Nat.add_assoc _ _ _).symm

/-- Other segments become the same, whether the sign is kept or not. -/
theorem redacted_eq_of_not_isKeyed {s : Segment} (h : s.isKeyed = false) :
    s.redacted true = s.redacted false := by
  cases s with
  | keyed key value => exact absurd (show true = false from h) (by decide)
  | kept c => rfl
  | bearer anchor token equals => rfl
  | bearerKeyed anchor token value => rfl

theorem redacted_eq_iff (ss : List Segment) :
    ss.flatMap (Segment.redacted false) = ss.flatMap (Segment.redacted true) ↔
      ∀ s ∈ ss, s.isKeyed = false := by
  constructor
  · intro h s hs
    have hlength := length_redacted ss
    rw [h] at hlength
    apply Bool.eq_false_iff.mpr
    intro hkeyed
    have hpos := List.length_pos_of_mem (List.mem_filter.mpr ⟨hs, hkeyed⟩)
    omega
  · intro h
    exact List.flatMap_congr fun s hs => (redacted_eq_of_not_isKeyed (h s hs)).symm

/-! ### Agreement -/

/-- Every value of a key in the scan of the line belongs to a bearer credential. -/
def KeysInTokens (line : List Char) : Prop :=
  ∃ ss, jsDialect.Scan ss ∧ ss.flatMap Segment.text = line ∧ ∀ s ∈ ss, s.isKeyed = false

/-- **Agreement.**  On a printable line the two redactions return the same exactly if
every value of a key belongs to a bearer credential. -/
theorem redact_eq_iff {line : List Char} (hline : ∀ c ∈ line, isPrintable c = true) :
    redact line = LokiTelemetryClient.redact line ↔ KeysInTokens line := by
  rw [redact_eq, LokiTelemetryClient.redact_eq, redactLine_eq hline]
  have hscan : ∀ ss, jsDialect.Scan ss → ss.flatMap Segment.text = line →
      (jsDialect.redactLine false line = jsDialect.redactLine true line ↔
        ∀ s ∈ ss, s.isKeyed = false) := by
    rintro ss hss rfl
    rw [redact_scan hss, redact_scan hss, redacted_eq_iff]
  constructor
  · intro h
    obtain ⟨ss, hss, htext⟩ := exists_scan jsDialect line
    exact ⟨ss, hss, htext, (hscan ss hss htext).mp h⟩
  · rintro ⟨ss, hss, htext, hkeys⟩
    exact (hscan ss hss htext).mpr hkeys

/-- A key in a bearer token. -/
theorem redact_key_in_token : redact "authorization: bearer mytoken=abc".toList =
    LokiTelemetryClient.redact "authorization: bearer mytoken=abc".toList := by
  have hline : ∀ c ∈ "authorization: bearer mytoken=abc".toList, isPrintable c = true :=
    forall_mem_of_all (by decide)
  have hkeyed : jsDialect.BearerKeyed "authorization: bearer ".toList "mytoken".toList "abc".toList [] := by
    refine ⟨?_, forall_mem_of_all (by decide), "token".toList, ⟨"my".toList, by decide⟩, ?_⟩
    · apply isAnchor_iff.mpr
      exact ⟨"authorization:".toList, [' '], "bearer".toList, [' '], matches_word.mpr (by decide),
        forall_mem_of_all (by decide), matches_word.mpr (by decide), by decide,
        forall_mem_of_all (by decide), by decide⟩
    · exact ⟨matches_alt.mpr (.inr (matches_alt.mpr (.inr (matches_alt.mpr
        (.inl (matches_word.mpr (by decide))))))), by decide, forall_mem_of_all (by decide),
        fun c hc => by cases hc⟩
  have hscan : jsDialect.Scan
      [.bearerKeyed "authorization: bearer ".toList "mytoken".toList "abc".toList] := .cons hkeyed .nil
  exact (redact_eq_iff hline).mpr ⟨_, hscan, by decide, by decide⟩

/-- The evidence server drops the equals sign behind a key. -/
theorem redact_drops_sign :
    redact "token=abc".toList = "token[REDACTED]".toList ∧
      LokiTelemetryClient.redact "token=abc".toList = "token=[REDACTED]".toList ∧
      redact "token=abc".toList ≠ LokiTelemetryClient.redact "token=abc".toList := by
  decide

end NexCause
