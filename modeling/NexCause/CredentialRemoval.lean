/-
NexCause/CredentialRemoval.lean

Does redaction remove the credentials that its patterns describe?  A credential
is the value of a key, or the token of a bearer anchor, wherever it stands in the
line and whatever it overlaps.

Main result: a redaction removes the credentials of a line exactly if every bearer
anchor begins a match of its own, and no value reads across the edge of a mark
(`redact_removes_iff`).  A value without brackets does not
(`value_not_across`).
-/
import NexCause.CredentialPlaces

namespace NexCause

open Regex

/-- The text stands at one place of the line. -/
def OccursOnce (text line : List Char) : Prop :=
  ∃ n, text <+: line.drop n ∧ ∀ m, text <+: line.drop m → m = n

theorem OccursOnce.eq {text line : List Char} {n m : ℕ} (h : OccursOnce text line)
    (hn : text <+: line.drop n) (hm : text <+: line.drop m) : m = n := by
  obtain ⟨k, -, hk⟩ := h
  rw [hk m hm, hk n hn]

theorem occursOnce_of_lt {text line : List Char} (hne : text ≠ []) (n : ℕ)
    (hn : text <+: line.drop n) (hall : ∀ m < line.length, text <+: line.drop m → m = n) :
    OccursOnce text line := by
  refine ⟨n, hn, fun m hm => ?_⟩
  by_cases hlt : m < line.length
  · exact hall m hlt hm
  · rw [List.drop_eq_nil_of_le (by omega)] at hm
    exact absurd (List.prefix_nil.mp hm) hne

namespace Dialect

/-! ### Credentials -/

/-- The line has a key with this value. -/
def HasValue (δ : Dialect) (line value : List Char) : Prop :=
  ∃ before key after, δ.Keyed key value after ∧
    line = before ++ (key ++ '=' :: (value ++ after))

/-- The line has an anchor behind `before`, and then this token. -/
def HasToken (δ : Dialect) (line before token : List Char) : Prop :=
  ∃ anchor after, δ.IsAnchor anchor ∧ token ≠ [] ∧ (∀ c ∈ token, δ.token c = true) ∧
    Stops δ.token after ∧ line = before ++ (anchor ++ (token ++ after))

/-- No credential of the line is read again, if it stood at one place and is not
part of the mark. -/
def RemovesCredentials (δ : Dialect) (redact : List Char → List Char) (line : List Char) : Prop :=
  ∀ text, (δ.HasValue line text ∨ ∃ before, δ.HasToken line before text) →
    OccursOnce text line → ¬text <:+: redactedMark → ¬text <:+: redact line

/-- In the scan of the line every anchor begins a match, and no value reads across
the edge of a mark; as far as they stand at one place and are not part of the mark. -/
def StandsClear (δ : Dialect) (keep : Bool) (line : List Char) : Prop :=
  ∃ ss, δ.Scan ss ∧ ss.flatMap Segment.text = line ∧
    (∀ before token, δ.HasToken line before token → OccursOnce token line →
      ¬token <:+: redactedMark → ScannedAt ss before) ∧
    ∀ value, δ.HasValue line value → OccursOnce value line → ¬value <:+: redactedMark →
      ¬Holed.Crosses value ((holes keep ss).blocks redactedMark)

variable {δ : Dialect} {keep : Bool} {ss : List Segment} {line before text : List Char}

/-! ### What is read again -/

/-- What has no brackets does not read across the edge of a mark. -/
theorem value_not_across (t : Holed Char) (hopen : '[' ∉ text) (hclose : ']' ∉ text) :
    ¬Holed.Crosses text (t.blocks redactedMark) := by
  have hfirst : redactedMark = '[' :: "REDACTED]".toList := by decide
  have hfinal : redactedMark = "[REDACTED".toList ++ [']'] := by decide
  exact Holed.not_crosses hfirst hfinal hopen hclose

theorem redactLine_scan (h : δ.Scan ss) (hline : ss.flatMap Segment.text = line) :
    δ.redactLine keep line = (holes keep ss).filled redactedMark := by
  rw [filled_holes, ← hline, redact_scan h]

theorem value_removed_iff (h : δ.Scan ss) (hline : ss.flatMap Segment.text = line)
    (hvalue : δ.HasValue line text) (honce : OccursOnce text line) (hmark : ¬text <:+: redactedMark) :
    ¬text <:+: δ.redactLine keep line ↔
      ¬Holed.Crosses text ((holes keep ss).blocks redactedMark) := by
  obtain ⟨before, key, after, hkeyed, htext⟩ := hvalue
  have hplace : text <+: line.drop (before.length + key.length + 1) := by
    have hlength : before.length + key.length + 1 = (before ++ (key ++ ['='])).length := by
      simp only [List.length_append, List.length_cons, List.length_nil]
      omega
    rw [hlength]
    apply Holed.prefix_drop_of_eq (b := after)
    rw [htext]
    simp only [List.append_assoc, List.cons_append, List.nil_append]
  rw [redactLine_scan h hline, not_iff_not]
  refine Holed.infix_filled_iff hkeyed.value_ne (value_in_hole h hkeyed (hline.trans htext)) ?_ hmark
  intro m hm
  rw [text_holes, hline] at hm
  exact honce.eq hplace hm

theorem token_removed_iff (h : δ.Scan ss) (hline : ss.flatMap Segment.text = line)
    (htoken : δ.HasToken line before text) (honce : OccursOnce text line)
    (hmark : ¬text <:+: redactedMark) :
    ¬text <:+: δ.redactLine keep line ↔ ScannedAt ss before := by
  obtain ⟨anchor, after, hanchor, hne, hchars, hstops, htext⟩ := htoken
  constructor
  · intro hremoved
    rcases scanned_or_kept h hanchor hne hchars hstops (hline.trans htext) with hscanned | hkept
    · exact hscanned
    · rw [redactLine_scan h hline, filled_holes] at hremoved
      exact absurd hkept hremoved
  · intro hscanned
    have hplace : text <+: line.drop (before.length + anchor.length) := by
      rw [← List.length_append]
      apply Holed.prefix_drop_of_eq (b := after)
      rw [htext]
      simp only [List.append_assoc]
    -- a token has no brackets
    have hbracket : ∀ c, isReserved c = true → c ∉ text := by
      intro c hc hin
      rw [not_reserved_of_token (hchars c hin)] at hc
      cases hc
    rw [redactLine_scan h hline, Holed.infix_filled_iff hne
      (token_in_hole h hscanned hanchor hne hchars hstops (hline.trans htext)) _ hmark]
    · exact value_not_across _ (hbracket '[' (by decide)) (hbracket ']' (by decide))
    · intro m hm
      rw [text_holes, hline] at hm
      exact honce.eq hplace hm

theorem removes_iff (δ : Dialect) (keep : Bool) (line : List Char) :
    δ.RemovesCredentials (δ.redactLine keep) line ↔ δ.StandsClear keep line := by
  constructor
  · intro hremoves
    obtain ⟨ss, hss, hline⟩ := exists_scan δ line
    refine ⟨ss, hss, hline, fun before token htoken honce hmark => ?_,
      fun value hvalue honce hmark => ?_⟩
    · exact (token_removed_iff hss hline htoken honce hmark).mp
        (hremoves token (.inr ⟨before, htoken⟩) honce hmark)
    · exact (value_removed_iff hss hline hvalue honce hmark).mp
        (hremoves value (.inl hvalue) honce hmark)
  · rintro ⟨ss, hss, hline, htokens, hvalues⟩ text hcredential honce hmark
    rcases hcredential with hvalue | ⟨before, htoken⟩
    · exact (value_removed_iff hss hline hvalue honce hmark).mpr (hvalues text hvalue honce hmark)
    · exact (token_removed_iff hss hline htoken honce hmark).mpr
        (htokens before text htoken honce hmark)

end Dialect

/-! ### The two redactions -/

/-- **Removal.**  Each redaction removes the credentials of a line exactly if they stand
clear of one another and of the marks. -/
theorem redact_removes_iff (line : List Char) :
    (goDialect.RemovesCredentials redact line ↔ goDialect.StandsClear false line) ∧
      (jsDialect.RemovesCredentials LokiTelemetryClient.redact line ↔
        jsDialect.StandsClear true line) :=
  ⟨Dialect.removes_iff goDialect false line, Dialect.removes_iff jsDialect true line⟩

-- a value is read again in the mark and what stands beside it
example : "n[REDACTED]".toList <:+: redact "token=n[REDACTED]".toList := by decide
example : "=[REDACTED]".toList <:+: LokiTelemetryClient.redact "token==[REDACTED]".toList := by decide

/-- The value of a key takes the first word of an anchor, and the token stays. -/
theorem anchor_in_value :
    (¬∀ line, goDialect.RemovesCredentials redact line) ∧
      ¬∀ line, jsDialect.RemovesCredentials LokiTelemetryClient.redact line := by
  have hanchor : ∀ δ : Dialect,
      (word δ.eq "authorization:".toList).Matches "authorization:".toList →
      (word δ.eq "bearer".toList).Matches "bearer".toList → δ.space ' ' = true →
      (∀ c ∈ "abc123".toList, δ.token c = true) →
      δ.HasToken "token=authorization: bearer abc123".toList "token=".toList "abc123".toList := by
    intro δ hauthorization hbearer hspace htoken
    have hspaces : ∀ c ∈ [' '], δ.space c = true := fun c hc => List.mem_singleton.mp hc ▸ hspace
    have hends : Stops δ.token [] := fun c hc => absurd hc (Option.not_mem_none c)
    refine ⟨"authorization: bearer ".toList, [], ?_, by decide, htoken, hends, by decide⟩
    apply Dialect.isAnchor_iff.mpr
    exact ⟨"authorization:".toList, [' '], "bearer".toList, [' '], hauthorization, hspaces, hbearer,
      by decide, hspaces, by decide⟩
  have honce : OccursOnce "abc123".toList "token=authorization: bearer abc123".toList :=
    occursOnce_of_lt (by decide) 28 (by decide) (by decide)
  constructor
  · intro h
    refine h _ _ (.inr ⟨_, hanchor goDialect (matches_word.mpr (by decide))
      (matches_word.mpr (by decide)) (by decide) (forall_mem_of_all (by decide))⟩) honce (by decide) ?_
    decide
  · intro h
    refine h _ _ (.inr ⟨_, hanchor jsDialect (matches_word.mpr (by decide))
      (matches_word.mpr (by decide)) (by decide) (forall_mem_of_all (by decide))⟩) honce (by decide) ?_
    decide

end NexCause
