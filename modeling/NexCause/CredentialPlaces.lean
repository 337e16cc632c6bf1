/-
NexCause/CredentialPlaces.lean

Where the credentials of a line stand in its scan.  The scan leaves the line with
holes, one for each text that is replaced (`holes`).

Main results: the value of a key always stands in a hole (`value_in_hole`); a
bearer token stands in a hole if its anchor begins a segment (`token_in_hole`),
and is kept if it does not (`scanned_or_kept`).
-/
import NexCause.Holes
import NexCause.RedactionScan

namespace NexCause

open Regex

/-- The line with a hole in place of each text that is replaced. -/
def holes (keep : Bool) : List Segment → Holed Char
  | [] => ⟨[], []⟩
  | .kept c :: ss => (holes keep ss).prepend [c]
  | .keyed key value :: ss =>
      (holes keep ss).cut (key ++ Dialect.sign keep) (Dialect.noSign keep ++ value)
  | .bearer anchor token equals :: ss => (holes keep ss).cut anchor (token ++ equals)
  | .bearerKeyed anchor token value :: ss =>
      ((holes keep ss).cut [] (Dialect.noSign keep ++ value)).cut anchor (token ++ Dialect.sign keep)

theorem text_holes (keep : Bool) (ss : List Segment) :
    (holes keep ss).text = ss.flatMap Segment.text := by
  induction ss with
  | nil => rfl
  | cons s ss ih =>
    cases s with
    | kept c => simp [holes, ih, Segment.text]
    | keyed key value => simp [holes, ih, Segment.text, Dialect.sign_append_noSign]
    | bearer anchor token equals => simp [holes, ih, Segment.text]
    | bearerKeyed anchor token value => simp [holes, ih, Segment.text, Dialect.sign_append_noSign]

theorem filled_holes (keep : Bool) (ss : List Segment) :
    (holes keep ss).filled redactedMark = ss.flatMap (Segment.redacted keep) := by
  induction ss with
  | nil => rfl
  | cons s ss ih =>
    cases s with
    | kept c => simp [holes, ih, Segment.redacted]
    | keyed key value => simp [holes, ih, Segment.redacted]
    | bearer anchor token equals => simp [holes, ih, Segment.redacted]
    | bearerKeyed anchor token value => simp [holes, ih, Segment.redacted]

namespace Dialect

variable {δ : Dialect} {keep : Bool} {ss : List Segment}

/-! ### The parts of an anchor -/

/-- What stands behind the letters of an anchor. -/
def IsTail (δ : Dialect) (tail : List Char) : Prop :=
  ∃ between bearer spaces, tail = ':' :: (between ++ (bearer ++ spaces)) ∧
    (∀ c ∈ between, δ.space c = true) ∧ (∀ c ∈ bearer, δ.token c = true) ∧
    spaces ≠ [] ∧ ∀ c ∈ spaces, δ.space c = true

theorem forall₂_append_left {eq : Char → Char → Bool} {w w' found : List Char}
    (h : List.Forall₂ (fun a c => eq a c = true) (w ++ w') found) :
    ∃ first second, found = first ++ second ∧ List.Forall₂ (fun a c => eq a c = true) w first ∧
      List.Forall₂ (fun a c => eq a c = true) w' second := by
  induction w generalizing found with
  | nil => exact ⟨[], found, rfl, .nil, h⟩
  | cons a w ih =>
    cases h with
    | @cons _ c _ found hac h =>
      obtain ⟨first, second, rfl, hfirst, hsecond⟩ := ih h
      exact ⟨c :: first, second, rfl, .cons hac hfirst, hsecond⟩

/-- An anchor is thirteen letters and a tail. -/
theorem IsAnchor.split {anchor : List Char} (h : δ.IsAnchor anchor) :
    ∃ letters tail, anchor = letters ++ tail ∧ letters.length = 13 ∧
      (∀ c ∈ letters, δ.token c = true) ∧ δ.IsTail tail := by
  obtain ⟨authorization, between, bearer, spaces, hauthorization, hbetween, hbearer, hne, hspaces,
    rfl⟩ := isAnchor_iff.mp h
  have hword : "authorization:".toList = "authorization".toList ++ [':'] := by decide
  obtain ⟨letters, colon, rfl, hletters, hcolon⟩ :=
    forall₂_append_left (hword ▸ matches_word.mp hauthorization)
  obtain ⟨c, rfl, hc⟩ : ∃ c, colon = [c] ∧ δ.eq ':' c = true := by
    cases hcolon with
    | cons hc hnil =>
      cases hnil
      exact ⟨_, rfl, hc⟩
  obtain rfl := δ.colon_of_eq c hc
  refine ⟨letters, ':' :: (between ++ (bearer ++ spaces)), ?_, hletters.length_eq.symm,
    token_of_word (forall_mem_of_all (by decide)) (matches_word.mpr hletters), between, bearer,
    spaces, rfl, hbetween, token_of_word (forall_mem_of_all (by decide)) hbearer, hne, hspaces⟩
  simp only [List.append_assoc, List.cons_append, List.nil_append]

theorem stops_token_space {c : Char} {cs : List Char} (h : δ.space c = true) :
    Stops δ.token (c :: cs) := by
  intro d hd
  obtain rfl := Option.some.inj hd
  exact δ.token_space c h

theorem stops_token_reserved {c : Char} {cs : List Char} (h : isReserved c = true) :
    Stops δ.token (c :: cs) := by
  intro d hd
  obtain rfl := Option.some.inj hd
  exact δ.token_reserved c h

theorem ne_of_space {c d : Char} (h : δ.space c = true) (hd : isReserved d = true) : d ≠ c := by
  rintro rfl
  exact absurd hd (Bool.eq_false_iff.mp (not_reserved_of_space h))

/-- The letters of an anchor are the run of token characters that it starts with. -/
theorem letters_unique {letters tail run cs ys : List Char} {c : Char}
    (hletters : ∀ d ∈ letters, δ.token d = true) (htail : δ.IsTail tail)
    (hrun : ∀ d ∈ run, δ.token d = true) (hc : Stops δ.token (c :: cs))
    (h : letters ++ tail ++ ys = run ++ c :: cs) :
    letters = run ∧ c = ':' ∧ tail ++ ys = c :: cs := by
  obtain ⟨between, bearer, spaces, rfl, -⟩ := htail
  rw [List.append_assoc] at h
  obtain ⟨rfl, hrest⟩ := run_unique hletters (stops_token_reserved (by decide)) hrun hc h
  exact ⟨rfl, (List.cons.inj hrest).1.symm, hrest⟩

theorem letters_ne {letters tail cs ys : List Char} {c : Char} (hne : letters ≠ [])
    (hletters : ∀ d ∈ letters, δ.token d = true) (hc : isReserved c = true) :
    letters ++ tail ++ ys ≠ c :: cs := by
  intro h
  cases letters with
  | nil => exact hne rfl
  | cons d letters =>
    obtain ⟨rfl, -⟩ := List.cons.inj h
    have htoken := hletters d List.mem_cons_self
    rw [δ.token_reserved d hc] at htoken
    cases htoken

/-- No credential starts with token characters before a space, or with a colon. -/
theorem not_starts_of_run {run cs : List Char} {c : Char} (hrun : ∀ d ∈ run, δ.token d = true)
    (hc : δ.space c = true ∨ run = [] ∧ c = ':') :
    ¬δ.StartsKeyed (run ++ c :: cs) ∧ ¬δ.StartsBearer (run ++ c :: cs) := by
  have hstops : Stops δ.token (c :: cs) := by
    rcases hc with hspace | ⟨-, rfl⟩
    · exact stops_token_space hspace
    · exact stops_token_reserved (by decide)
  constructor
  · rintro ⟨key, value, left, hkeyed, htext⟩
    obtain ⟨-, hrest⟩ := run_unique hkeyed.key.token (stops_token_reserved (by decide)) hrun hstops
      htext.symm
    have hequals := (List.cons.inj hrest).1
    rcases hc with hspace | ⟨-, rfl⟩
    · exact ne_of_space hspace (by decide) hequals
    · exact absurd hequals (by decide)
  · rintro ⟨anchor, token, equals, left, hbearer, htext⟩
    obtain ⟨letters, tail, rfl, hlength, hletters, htail⟩ := hbearer.anchor.split
    obtain ⟨rfl, hcolon, -⟩ := letters_unique hletters htail hrun hstops htext.symm
    rcases hc with hspace | ⟨rfl, -⟩
    · exact ne_of_space hspace (by decide) hcolon.symm
    · exact absurd hlength (by decide)

/-- No credential starts in the tail of an anchor. -/
theorem IsTail.not_starts {tail r ys : List Char} (h : δ.IsTail tail) (hne : r ≠ [])
    (hsuffix : r <:+ tail) : ¬δ.StartsKeyed (r ++ ys) ∧ ¬δ.StartsBearer (r ++ ys) := by
  obtain ⟨between, bearer, spaces, rfl, hbetween, hbearer, hspaces, hspace⟩ := h
  -- token characters, and then a space
  have hrun : ∀ {run rest : List Char}, (∀ d ∈ run, δ.token d = true) →
      rest ≠ [] → (∀ d ∈ rest, δ.space d = true) → ∀ {zs},
      ¬δ.StartsKeyed (run ++ (rest ++ zs)) ∧ ¬δ.StartsBearer (run ++ (rest ++ zs)) := by
    intro run rest hrun hne hrest zs
    cases rest with
    | nil => exact absurd rfl hne
    | cons c rest => exact not_starts_of_run hrun (.inl (hrest c List.mem_cons_self))
  have hnone : ∀ d ∈ ([] : List Char), δ.token d = true := fun d hd => absurd hd List.not_mem_nil
  rcases List.suffix_cons_iff.mp hsuffix with rfl | hsuffix
  · exact not_starts_of_run hnone (.inr ⟨rfl, rfl⟩)
  obtain ⟨before, hbefore⟩ := hsuffix
  rcases List.append_eq_append_iff.mp hbefore with ⟨m, hm, rfl⟩ | ⟨m, -, hm⟩
  · by_cases hnil : m = []
    · subst hnil
      rw [List.nil_append, List.append_assoc]
      exact hrun hbearer hspaces hspace
    · rw [List.append_assoc]
      exact hrun hnone hnil fun d hd => hbetween d (hm ▸ List.mem_append_right _ hd)
  · rcases List.append_eq_append_iff.mp hm.symm with ⟨m', hm', rfl⟩ | ⟨m', -, hm'⟩
    · rw [List.append_assoc]
      exact hrun (fun d hd => hbearer d (hm' ▸ List.mem_append_right _ hd)) hspaces hspace
    · exact hrun hnone hne fun d hd => hspace d (hm' ▸ List.mem_append_right _ hd)

/-! ### What stands behind another match -/

theorem Scan.kept_cons {c : Char} {s : Segment} {cs : List Char} (h : δ.Scan (s :: ss))
    (htext : (s :: ss).flatMap Segment.text = c :: cs)
    (hnone : ¬δ.StartsKeyed (c :: cs) ∧ ¬δ.StartsBearer (c :: cs)) :
    s = .kept c ∧ δ.Scan ss ∧ ss.flatMap Segment.text = cs := by
  cases h with
  | cons hfits hss =>
    rw [List.flatMap_cons] at htext
    cases s with
    | kept d =>
      obtain ⟨rfl, rfl⟩ := List.cons.inj htext
      exact ⟨rfl, hss, rfl⟩
    | keyed key value =>
      refine absurd ⟨key, value, _, hfits, ?_⟩ hnone.1
      rw [← htext, Segment.text, List.append_assoc]
      rfl
    | bearer anchor token equals =>
      refine absurd ⟨anchor, token, equals, _, hfits.1, ?_⟩ hnone.2
      rw [← htext, Segment.text, List.append_assoc, List.append_assoc]
    | bearerKeyed anchor token value =>
      obtain ⟨hanchor, htoken, key, hsuffix, hkeyed⟩ := hfits
      cases token with
      | nil => exact absurd (List.suffix_nil.mp hsuffix) hkeyed.key.ne_nil
      | cons d token =>
        refine absurd ?_ hnone.2
        rw [← htext, Segment.text, List.append_assoc]
        exact startsBearer_of_anchor hanchor (htoken d List.mem_cons_self)

/-- What is left of the tail of an anchor is kept. -/
theorem Scan.kept_tail {tail r ys : List Char} (h : δ.Scan ss) (keep : Bool) (htail : δ.IsTail tail)
    (hsuffix : r <:+ tail) (htext : ss.flatMap Segment.text = r ++ ys) :
    ∃ back, δ.Scan back ∧ back.flatMap Segment.text = ys ∧
      ss.flatMap (Segment.redacted keep) = r ++ back.flatMap (Segment.redacted keep) := by
  induction r generalizing ss with
  | nil => exact ⟨ss, h, htext, rfl⟩
  | cons c r ih =>
    cases ss with
    | nil => cases htext
    | cons s ss =>
      obtain ⟨rfl, hss, hrest⟩ := h.kept_cons htext (htail.not_starts (List.cons_ne_nil c r) hsuffix)
      obtain ⟨back, hback, hys, hredacted⟩ := ih hss ((List.suffix_cons c r).trans hsuffix) hrest
      refine ⟨back, hback, hys, ?_⟩
      rw [List.flatMap_cons, hredacted]
      rfl

/-- The token characters that a line starts with are the letters of its anchor. -/
theorem IsAnchor.starts_with {anchor token ys after : List Char} (h : δ.IsAnchor anchor)
    (htoken : ∀ c ∈ token, δ.token c = true) (hstops : Stops δ.token after)
    (htext : anchor ++ ys = token ++ after) : token <+: anchor := by
  obtain ⟨letters, tail, rfl, -, hletters, between, bearer, spaces, rfl, -⟩ := h.split
  rw [List.append_assoc, List.cons_append] at htext
  obtain ⟨rfl, -⟩ := run_unique hletters (stops_token_reserved (by decide)) htoken hstops htext
  exact List.prefix_append _ _

/-- Token characters that a line starts with are kept. -/
theorem Scan.token_kept {token after : List Char} (h : δ.Scan ss)
    (htoken : ∀ c ∈ token, δ.token c = true) (hstops : Stops δ.token after)
    (htext : ss.flatMap Segment.text = token ++ after) :
    token <+: ss.flatMap (Segment.redacted keep) := by
  -- induction on the token, over the segment that its first character stands in
  induction token generalizing ss with
  | nil => exact List.nil_prefix
  | cons c token ih =>
    cases h with
    | nil => cases htext
    | @cons s ss hfits hss =>
      rw [List.flatMap_cons] at htext ⊢
      cases s with
      | kept d =>
        obtain ⟨rfl, hrest⟩ := List.cons.inj htext
        exact List.cons_prefix_cons.mpr ⟨rfl, ih hss (List.forall_mem_cons.mp htoken).2 hrest⟩
      -- the token is the key, which is kept
      | keyed key value =>
        have hkeyed : δ.Keyed key value _ := hfits
        rw [Segment.text, List.append_assoc, List.cons_append] at htext
        obtain ⟨rfl, -⟩ := run_unique hkeyed.key.token (stops_token_reserved (by decide)) htoken
          hstops htext
        rw [Segment.redacted, List.append_assoc, List.append_assoc]
        exact List.prefix_append _ _
      -- the token is the first of the anchor, kept too
      | bearer anchor token' equals =>
        rw [Segment.text, List.append_assoc] at htext
        rw [Segment.redacted, List.append_assoc]
        exact (hfits.1.anchor.starts_with htoken hstops htext).trans (List.prefix_append _ _)
      | bearerKeyed anchor token' value =>
        rw [Segment.text, List.append_assoc] at htext
        rw [Segment.redacted, List.append_assoc, List.append_assoc]
        exact (hfits.isAnchor.starts_with htoken hstops htext).trans (List.prefix_append _ _)

/-! ### The values of keys -/

/-- Two splittings of a text: one begins in the first part of the other, or
behind it. -/
theorem append_cases {α : Type} {a b c d : List α} (h : a ++ b = c ++ d) :
    (∃ m, m ≠ [] ∧ c = a ++ m ∧ b = m ++ d) ∨ ∃ m, a = c ++ m ∧ d = m ++ b := by
  rcases List.append_eq_append_iff.mp h with ⟨m, rfl, rfl⟩ | h
  · by_cases hm : m = []
    · subst hm
      exact .inr ⟨[], by simp, rfl⟩
    · exact .inl ⟨m, hm, rfl, rfl⟩
  · exact .inr h

theorem inHole_cons {text : List Char} {n : ℕ} (s : Segment)
    (h : Holed.InHole text n (holes keep ss).parts) :
    Holed.InHole text (s.text.length + n) (holes keep (s :: ss)).parts := by
  cases s with
  | kept c => exact h.prepend
  | keyed key value =>
    have hlength : (Segment.keyed key value).text.length =
        (key ++ sign keep).length + (noSign keep ++ value).length := by
      rw [← List.length_append, List.append_assoc, sign_append_noSign]
      rfl
    rw [hlength]
    exact h.cut
  | bearer anchor token equals =>
    have hlength : (Segment.bearer anchor token equals).text.length =
        anchor.length + (token ++ equals).length := List.length_append
    rw [hlength]
    exact h.cut
  | bearerKeyed anchor token value =>
    have hlength : (Segment.bearerKeyed anchor token value).text.length + n =
        anchor.length + (token ++ sign keep).length +
          (([] : List Char).length + (noSign keep ++ value).length + n) := by
      have hsign := congrArg List.length (sign_append_noSign keep value)
      simp only [Segment.text, List.length_append, List.length_cons, List.length_nil] at hsign ⊢
      omega
    rw [hlength]
    exact h.cut.cut

theorem visible_of_token {c : Char} (h : δ.token c = true) : δ.visible c = true := by
  rw [visible, not_space_of_token h]
  rfl

theorem visible_equals : δ.visible '=' = true := by
  rw [visible, δ.space_reserved _ (by decide)]
  rfl

/-- A key that starts in `token=value₀` has the end of `value₀` as its value. -/
theorem Keyed.behind {before found token value₀ rest key value after : List Char}
    (h : δ.Keyed key value after) (htoken : ∀ c ∈ token, δ.token c = true)
    (hvalue₀ : ∀ c ∈ value₀, δ.visible c = true) (hrest : Stops δ.visible rest)
    (hsplit : before ++ found = token ++ '=' :: value₀)
    (htext : found ++ rest = key ++ '=' :: (value ++ after)) :
    ∃ m, value₀ = m ++ value ∧ before.length + key.length = token.length + m.length := by
  rcases append_cases hsplit with ⟨m, -, rfl, rfl⟩ | ⟨m, rfl, hm⟩
  · rw [List.append_assoc, List.cons_append] at htext
    obtain ⟨rfl, hvalues⟩ := run_unique (fun c hc => htoken c (List.mem_append_right _ hc))
      (stops_token_reserved (by decide)) h.key.token (stops_token_reserved (by decide)) htext
    obtain ⟨rfl, -⟩ := run_unique hvalue₀ hrest h.value h.left (List.cons.inj hvalues).2
    exact ⟨[], rfl, List.length_append.symm⟩
  · cases m with
    | nil =>
      -- a key does not start with the equals sign
      obtain rfl : found = '=' :: value₀ := hm.symm
      exact absurd ⟨key, value, after, h, htext⟩ not_startsKeyed_equals
    | cons d m =>
      obtain ⟨rfl, rfl⟩ := List.cons.inj hm
      have hrun : ∀ c ∈ key ++ '=' :: value, δ.visible c = true := by
        intro c hc
        rcases List.mem_append.mp hc with hc | hc
        · exact visible_of_token (h.key.token c hc)
        · rcases List.mem_cons.mp hc with rfl | hc
          · exact visible_equals
          · exact h.value c hc
      have htext' : found ++ rest = key ++ '=' :: value ++ after := by
        rw [htext, List.append_assoc]
        rfl
      obtain ⟨rfl, -⟩ := run_unique (fun c hc => hvalue₀ c (List.mem_append_right _ hc)) hrest hrun
        h.left htext'
      refine ⟨m ++ (key ++ ['=']), by simp, ?_⟩
      simp only [List.length_append, List.length_cons, List.length_nil]
      omega

/-- No key starts in a bearer credential without one. -/
theorem Bearer.not_startsKeyed {anchor token equals left before found : List Char}
    (h : δ.Bearer anchor token equals left)
    (hend : ∀ end', end' ≠ [] → end' <:+ token → ¬δ.StartsKeyed (end' ++ (equals ++ left)))
    (hne : found ≠ []) (hsplit : before ++ found = anchor ++ (token ++ equals)) :
    ¬δ.StartsKeyed (found ++ left) := by
  rcases append_cases hsplit with ⟨m, hm, rfl, rfl⟩ | ⟨m, rfl, hrest⟩
  · rw [List.append_assoc]
    exact h.anchor.not_startsKeyed hm (List.suffix_append _ _)
  rcases append_cases hrest.symm with ⟨m', hm', rfl, rfl⟩ | ⟨m', rfl, hequals⟩
  · rw [List.append_assoc]
    exact hend m' hm' (List.suffix_append _ _)
  · cases found with
    | nil => exact absurd rfl hne
    | cons c found =>
      have hc : c ∈ equals := hequals ▸ List.mem_append_right _ List.mem_cons_self
      obtain rfl : c = '=' := of_decide_eq_true (h.equals c hc)
      exact not_startsKeyed_equals

/-- **Values.**  The value of a key stands in a hole. -/
theorem value_in_hole {before key value after : List Char} (h : δ.Scan ss)
    (hkeyed : δ.Keyed key value after)
    (htext : ss.flatMap Segment.text = before ++ (key ++ '=' :: (value ++ after))) :
    Holed.InHole value (before.length + key.length + 1) (holes keep ss).parts := by
  induction h generalizing before with
  | nil => simp at htext
  | @cons s ss hfits hss ih =>
    rw [List.flatMap_cons] at htext
    -- the credential starts in the first segment, or behind it
    rcases append_cases htext.symm with ⟨found, hne, hsplit, hfound⟩ | ⟨m, rfl, hm⟩
    · have hstarts : δ.StartsKeyed (found ++ ss.flatMap Segment.text) :=
        ⟨key, value, after, hkeyed, hfound.symm⟩
      cases s with
      -- a kept character starts no credential
      | kept c =>
        obtain ⟨rfl, rfl⟩ : before = [] ∧ found = [c] := by
          cases before with
          | nil => exact ⟨rfl, hsplit.symm⟩
          | cons d before =>
            have hnil := (List.cons.inj hsplit).2
            exact absurd (List.append_eq_nil_iff.mp hnil.symm).2 hne
        exact absurd hstarts hfits.1
      -- the segment is cut where the credential ends, or later
      | keyed key₀ value₀ =>
        have hkeyed₀ : δ.Keyed key₀ value₀ (ss.flatMap Segment.text) := hfits
        obtain ⟨m, rfl, hlength⟩ := hkeyed.behind hkeyed₀.key.token hkeyed₀.value hkeyed₀.left
          hsplit.symm hfound.symm
        have hplace : before.length + key.length + 1 =
            (key₀ ++ sign keep).length + (noSign keep ++ m).length := by
          have hsign := congrArg List.length (sign_append_noSign keep m)
          simp only [List.length_append, List.length_cons] at hsign ⊢
          omega
        rw [hplace]
        exact Holed.inHole_cut (b := []) (by simp)
      -- what a bearer pattern takes starts no credential
      | bearer anchor token equals =>
        exact absurd hstarts (hfits.1.not_startsKeyed hfits.2 hne hsplit.symm)
      -- unless the token has a key of its own
      | bearerKeyed anchor token value₀ =>
        obtain ⟨hanchor, htoken, key₀, -, hkeyed₀⟩ := hfits
        rcases append_cases hsplit.symm with ⟨m, hm, rfl, rfl⟩ | ⟨m, rfl, hm⟩
        · rw [List.append_assoc] at hstarts
          exact absurd hstarts (hanchor.not_startsKeyed hm (List.suffix_append _ _))
        · obtain ⟨m', rfl, hlength⟩ := hkeyed.behind htoken hkeyed₀.value hkeyed₀.left hm.symm
            hfound.symm
          have hplace : (anchor ++ m).length + key.length + 1 =
              anchor.length + (token ++ sign keep).length +
                (([] : List Char).length + (noSign keep ++ m').length) := by
            have hsign := congrArg List.length (sign_append_noSign keep m')
            simp only [List.length_append, List.length_cons, List.length_nil] at hsign ⊢
            omega
          rw [hplace]
          exact (Holed.inHole_cut (b := []) (by simp)).cut
    · have hplace : (s.text ++ m).length + key.length + 1 =
          s.text.length + (m.length + key.length + 1) := by
        rw [List.length_append]
        omega
      rw [hplace]
      exact inHole_cons s (ih hm)

/-! ### Bearer tokens -/

end Dialect

def Segment.isBearer : Segment → Bool
  | .bearer _ _ _ => true
  | .bearerKeyed _ _ _ => true
  | _ => false

/-- A bearer credential of the scan begins behind the text. -/
def ScannedAt (ss : List Segment) (before : List Char) : Prop :=
  ∃ front s back, ss = front ++ s :: back ∧ front.flatMap Segment.text = before ∧
    s.isBearer = true

namespace Dialect

variable {δ : Dialect} {keep : Bool} {ss : List Segment}

/-- An anchor that starts in `token₀=value₀` ends behind it. -/
theorem IsTail.behind {letters tail ys before found token₀ value₀ rest : List Char}
    (htail : δ.IsTail tail) (hletters : ∀ c ∈ letters, δ.token c = true) (hne : letters ≠ [])
    (htoken₀ : ∀ c ∈ token₀, δ.token c = true) (hvalue₀ : ∀ c ∈ value₀, δ.visible c = true)
    (hrest : Stops δ.visible rest) (hsplit : before ++ found = token₀ ++ '=' :: value₀)
    (htext : letters ++ tail ++ ys = found ++ rest) : ∃ r, r <:+ tail ∧ rest = r ++ ys := by
  rcases append_cases hsplit with ⟨m, -, rfl, rfl⟩ | ⟨m, rfl, hm⟩
  · rw [List.append_assoc m, List.cons_append] at htext
    obtain ⟨-, hcolon, -⟩ := letters_unique hletters htail
      (fun c hc => htoken₀ c (List.mem_append_right _ hc)) (stops_token_reserved (by decide)) htext
    exact absurd hcolon (by decide)
  cases m with
  | nil =>
    obtain rfl : found = '=' :: value₀ := hm.symm
    exact absurd htext (letters_ne hne hletters (by decide))
  | cons d m =>
    obtain ⟨rfl, rfl⟩ := List.cons.inj hm
    have hfound : ∀ c ∈ found, δ.visible c = true := fun c hc =>
      hvalue₀ c (List.mem_append_right _ hc)
    rw [List.append_assoc] at htext
    rcases append_cases htext with ⟨n, -, rfl, hbehind⟩ | ⟨n, rfl, hbehind⟩
    · rcases append_cases hbehind.symm with ⟨r, -, rfl, rfl⟩ | ⟨r, rfl, -⟩
      · exact ⟨r, List.suffix_append _ _, rfl⟩
      · -- the tail has a space
        obtain ⟨between, bearer, spaces, rfl, -, -, hspaces, hspace⟩ := htail
        obtain ⟨c, hc⟩ := List.exists_mem_of_ne_nil _ hspaces
        have hvisible := hfound c (by simp [hc])
        rw [visible, hspace c hc] at hvisible
        cases hvisible
    · cases n with
      | nil => exact ⟨tail, List.suffix_refl _, hbehind⟩
      | cons c n =>
        -- what is left does not start with a letter
        have hvisible := visible_of_token (hletters c (List.mem_append_right _ List.mem_cons_self))
        rw [hrest c (by rw [hbehind]; rfl)] at hvisible
        cases hvisible

/-- No anchor starts inside another one. -/
theorem IsAnchor.not_startsBearer {anchor before found ys : List Char} (h : δ.IsAnchor anchor)
    (hbefore : before ≠ []) (hfound : found ≠ []) (hsplit : anchor = before ++ found) :
    ¬δ.StartsBearer (found ++ ys) := by
  obtain ⟨letters, tail, rfl, hlength, hletters, htail⟩ := h.split
  rcases append_cases hsplit.symm with ⟨m, -, rfl, rfl⟩ | ⟨m, rfl, hm⟩
  · rintro ⟨anchor', token, equals, left, hbearer, htext⟩
    obtain ⟨letters', tail', rfl, hlength', hletters', htail'⟩ := hbearer.anchor.split
    obtain ⟨between, bearer, spaces, rfl, -⟩ := htail
    rw [List.append_assoc m, List.cons_append] at htext
    obtain ⟨rfl, -, -⟩ := letters_unique hletters' htail'
      (fun c hc => hletters c (List.mem_append_right _ hc)) (stops_token_reserved (by decide))
      htext.symm
    -- there would be more than thirteen letters
    have hpos := List.length_pos_of_ne_nil hbefore
    rw [List.length_append] at hlength
    omega
  · exact (htail.not_starts hfound ⟨m, hm.symm⟩).2

/-- An anchor that starts in a bearer credential starts with it, or ends behind it. -/
theorem Bearer.behind {letters tail ys before found anchor₀ token₀ equals₀ rest : List Char}
    (h : δ.Bearer anchor₀ token₀ equals₀ rest) (htail : δ.IsTail tail)
    (hletters : ∀ c ∈ letters, δ.token c = true) (hne : letters ≠ [])
    (hstarts : δ.StartsBearer (letters ++ tail ++ ys)) (hbefore : before ≠ []) (hfound : found ≠ [])
    (hsplit : before ++ found = anchor₀ ++ (token₀ ++ equals₀))
    (htext : letters ++ tail ++ ys = found ++ rest) : rest = tail ++ ys := by
  rcases append_cases hsplit with ⟨m, hm, hanchor, rfl⟩ | ⟨m, rfl, hm⟩
  · rw [htext, List.append_assoc] at hstarts
    exact absurd hstarts (h.anchor.not_startsBearer hbefore hm hanchor)
  rcases append_cases hm.symm with ⟨n, -, rfl, rfl⟩ | ⟨n, rfl, rfl⟩
  · obtain ⟨between, bearer, spaces, rfl, -⟩ := htail
    rw [List.append_assoc, List.append_assoc, List.cons_append] at htext
    obtain ⟨-, hrest⟩ := run_unique hletters (stops_token_reserved (by decide))
      (fun c hc => h.token c (List.mem_append_right _ hc)) h.token_stops htext
    cases equals₀ with
    | nil => exact hrest.symm
    | cons c equals₀ =>
      obtain rfl : c = '=' := of_decide_eq_true (h.equals c List.mem_cons_self)
      exact absurd (List.cons.inj hrest).1 (by decide)
  · cases found with
    | nil => exact absurd rfl hfound
    | cons c found =>
      obtain rfl : c = '=' :=
        of_decide_eq_true (h.equals c (List.mem_append_right _ List.mem_cons_self))
      exact absurd htext (letters_ne hne hletters (by decide))

theorem scannedAt_cons {before : List Char} (h : ScannedAt ss before) (s : Segment) :
    ScannedAt (s :: ss) (s.text ++ before) := by
  obtain ⟨front, t, back, rfl, rfl, ht⟩ := h
  exact ⟨s :: front, t, back, rfl, rfl, ht⟩

/-- **Tokens.**  An anchor begins a segment of the scan, or its token is kept. -/
theorem scanned_or_kept {before anchor token after : List Char} (h : δ.Scan ss)
    (hanchor : δ.IsAnchor anchor) (hne : token ≠ []) (htoken : ∀ c ∈ token, δ.token c = true)
    (hstops : Stops δ.token after)
    (htext : ss.flatMap Segment.text = before ++ (anchor ++ (token ++ after))) :
    ScannedAt ss before ∨ token <:+: ss.flatMap (Segment.redacted keep) := by
  induction h generalizing before with
  | nil => simp [hne] at htext
  | @cons s ss hfits hss ih =>
    rw [List.flatMap_cons] at htext ⊢
    rcases append_cases htext.symm with ⟨found, hfound, hsplit, hbehind⟩ | ⟨m, rfl, hm⟩
    · obtain ⟨letters, tail, rfl, hlength, hletters, htail⟩ := hanchor.split
      have hnil : letters ≠ [] := List.ne_nil_of_length_pos (by omega)
      have hstarts : δ.StartsBearer (letters ++ tail ++ (token ++ after)) := by
        cases token with
        | nil => exact absurd rfl hne
        | cons c token => exact startsBearer_of_anchor hanchor (htoken c List.mem_cons_self)
      -- an anchor that ends behind the segment is kept, and its token too
      have hkept : ∀ r, r <:+ tail → ss.flatMap Segment.text = r ++ (token ++ after) →
          token <:+: s.redacted keep ++ ss.flatMap (Segment.redacted keep) := by
        intro r hr hrest
        obtain ⟨back, hback, hys, hredacted⟩ := hss.kept_tail keep htail hr hrest
        rw [hredacted]
        exact ((hback.token_kept htoken hstops hys).isInfix.trans List.infix_append_right).trans
          List.infix_append_right
      have hfirst : before = [] → s.isBearer = true → ScannedAt (s :: ss) before := by
        rintro rfl hs
        exact ⟨[], s, ss, rfl, rfl, hs⟩
      cases s with
      | kept c =>
        obtain ⟨rfl, rfl⟩ : before = [] ∧ found = [c] := by
          cases before with
          | nil => exact ⟨rfl, hsplit.symm⟩
          | cons d before =>
            have hnone := (List.cons.inj hsplit).2
            exact absurd (List.append_eq_nil_iff.mp hnone.symm).2 hfound
        rw [hbehind] at hstarts
        exact absurd hstarts hfits.2
      | keyed key₀ value₀ =>
        have hkeyed₀ : δ.Keyed key₀ value₀ (ss.flatMap Segment.text) := hfits
        obtain ⟨r, hr, hrest⟩ := htail.behind hletters hnil hkeyed₀.key.token hkeyed₀.value
          hkeyed₀.left hsplit.symm hbehind
        exact .inr (hkept r hr hrest)
      | bearer anchor₀ token₀ equals₀ =>
        by_cases hbefore : before = []
        · exact .inl (hfirst hbefore rfl)
        · have hrest := hfits.1.behind htail hletters hnil hstarts hbefore hfound hsplit.symm hbehind
          exact .inr (hkept tail (List.suffix_refl _) hrest)
      | bearerKeyed anchor₀ token₀ value₀ =>
        obtain ⟨hanchor₀, htoken₀, key₀, -, hkeyed₀⟩ := hfits
        by_cases hbefore : before = []
        · exact .inl (hfirst hbefore rfl)
        rcases append_cases hsplit.symm with ⟨m, hm, heq, rfl⟩ | ⟨m, rfl, hm⟩
        · rw [hbehind, List.append_assoc] at hstarts
          exact absurd hstarts (hanchor₀.not_startsBearer hbefore hm heq)
        · obtain ⟨r, hr, hrest⟩ := htail.behind hletters hnil htoken₀ hkeyed₀.value hkeyed₀.left
            hm.symm hbehind
          exact .inr (hkept r hr hrest)
    · exact (ih hm).imp (fun hscanned => scannedAt_cons hscanned s) fun hin =>
        hin.trans List.infix_append_right

/-- The token behind an anchor that begins a segment stands in a hole. -/
theorem token_in_hole {before anchor token after : List Char} (h : δ.Scan ss)
    (hscanned : ScannedAt ss before) (hanchor : δ.IsAnchor anchor) (hne : token ≠ [])
    (htoken : ∀ c ∈ token, δ.token c = true) (hstops : Stops δ.token after)
    (htext : ss.flatMap Segment.text = before ++ (anchor ++ (token ++ after))) :
    Holed.InHole token (before.length + anchor.length) (holes keep ss).parts := by
  obtain ⟨front, s, back, rfl, rfl, hs⟩ := hscanned
  induction front with
  | cons f front ih =>
    cases h with
    | cons hfits hss =>
      rw [List.cons_append, List.flatMap_cons, List.flatMap_cons, List.append_assoc] at htext
      rw [List.flatMap_cons, List.length_append, Nat.add_assoc]
      exact inHole_cons f (ih hss (List.append_cancel_left htext))
  | nil =>
    -- where the token begins, and where it ends, is determined
    have hsame : ∀ {anchor₀ token₀ rest : List Char}, δ.IsAnchor anchor₀ → token₀ ≠ [] →
        (∀ c ∈ token₀, δ.token c = true) → Stops δ.token rest →
        anchor₀ ++ (token₀ ++ rest) = anchor ++ (token ++ after) →
        token₀ = token ∧ anchor₀ = anchor := by
      intro anchor₀ token₀ rest hanchor₀ hne₀ htoken₀ hrest heq
      have hbehind := anchor_unique hanchor₀ hne₀ htoken₀ hanchor hne htoken heq
      rw [hbehind] at heq
      exact ⟨(run_unique htoken₀ hrest htoken hstops hbehind).1, List.append_cancel_right heq⟩
    have hzero : (([] : List Segment).flatMap Segment.text).length + anchor.length =
        anchor.length + ([] : List Char).length := Nat.add_comm _ _
    rw [hzero]
    cases h with
    | cons hfits hss =>
      rw [List.nil_append, List.flatMap_cons] at htext
      cases s with
      | kept c => cases hs
      | keyed key value => cases hs
      | bearer anchor₀ token₀ equals₀ =>
        obtain ⟨hbearer, -⟩ := hfits
        rw [Segment.text, List.append_assoc, List.append_assoc] at htext
        obtain ⟨rfl, rfl⟩ := hsame hbearer.anchor hbearer.token_ne hbearer.token
          hbearer.token_stops htext
        exact Holed.inHole_cut rfl
      | bearerKeyed anchor₀ token₀ value₀ =>
        obtain ⟨hanchor₀, htoken₀, key₀, hsuffix, hkeyed₀⟩ := hfits
        have hne₀ : token₀ ≠ [] := by
          rintro rfl
          exact hkeyed₀.key.ne_nil (List.suffix_nil.mp hsuffix)
        rw [Segment.text, List.append_assoc, List.append_assoc, List.cons_append] at htext
        obtain ⟨rfl, rfl⟩ := hsame hanchor₀ hne₀ htoken₀ (stops_token_reserved (by decide)) htext
        exact Holed.inHole_cut rfl

end Dialect

end NexCause
