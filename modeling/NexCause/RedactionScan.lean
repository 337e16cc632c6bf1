/-
NexCause/RedactionScan.lean

The two passes of a redaction as one scan of the line.  A `Segment` of a line is
a character that is kept, a credential `key=value`, a bearer credential, or a
bearer credential with a key at the end of its token, whose value is replaced
too.

Main results: a line is a sequence of segments, each where it fits
(`exists_scan`), and the two passes replace each of them by itself
(`redact_scan`).
-/
import NexCause.RedactionPatterns

namespace NexCause

open Regex

/-! ### Segments -/

inductive Segment
  | kept (c : Char)
  | keyed (key value : List Char)
  | bearer (anchor token equals : List Char)
  | bearerKeyed (anchor token value : List Char)
  deriving DecidableEq, Repr

namespace Segment

def text : Segment → List Char
  | kept c => [c]
  | keyed key value => key ++ '=' :: value
  | bearer anchor token equals => anchor ++ (token ++ equals)
  | bearerKeyed anchor token value => anchor ++ (token ++ '=' :: value)

/-- What the first pass leaves of it. -/
def masked (keep : Bool) : Segment → List Char
  | kept c => [c]
  | keyed key _ => key ++ Dialect.sign keep ++ redactedMark
  | bearer anchor token equals => anchor ++ (token ++ equals)
  | bearerKeyed anchor token _ => anchor ++ (token ++ (Dialect.sign keep ++ redactedMark))

/-- What both passes leave of it. -/
def redacted (keep : Bool) : Segment → List Char
  | kept c => [c]
  | keyed key _ => key ++ Dialect.sign keep ++ redactedMark
  | bearer anchor _ _ => anchor ++ redactedMark
  | bearerKeyed anchor _ _ => anchor ++ redactedMark ++ redactedMark

end Segment

namespace Dialect

/-- A credential with a key starts the text. -/
def StartsKeyed (δ : Dialect) (cs : List Char) : Prop :=
  ∃ key value left, δ.Keyed key value left ∧ cs = key ++ '=' :: (value ++ left)

/-- A bearer credential starts the text. -/
def StartsBearer (δ : Dialect) (cs : List Char) : Prop :=
  ∃ anchor token equals left, δ.Bearer anchor token equals left ∧
    cs = anchor ++ (token ++ (equals ++ left))

/-- A bearer credential with a key at the end of its token. -/
structure BearerKeyed (δ : Dialect) (anchor token value left : List Char) : Prop where
  isAnchor : δ.IsAnchor anchor
  chars : ∀ c ∈ token, δ.token c = true
  keyed : ∃ key, key <:+ token ∧ δ.Keyed key value left

/-- The segment may stand before the text. -/
def Fits (δ : Dialect) (left : List Char) : Segment → Prop
  | .kept c => ¬ δ.StartsKeyed (c :: left) ∧ ¬ δ.StartsBearer (c :: left)
  | .keyed key value => δ.Keyed key value left
  | .bearer anchor token equals => δ.Bearer anchor token equals left ∧
      ∀ end', end' ≠ [] → end' <:+ token → ¬ δ.StartsKeyed (end' ++ (equals ++ left))
  | .bearerKeyed anchor token value => δ.BearerKeyed anchor token value left

/-- The segments of a line, each where it fits. -/
inductive Scan (δ : Dialect) : List Segment → Prop
  | nil : Scan δ []
  | cons {s : Segment} {ss : List Segment} (h : δ.Fits (ss.flatMap Segment.text) s) (hs : Scan δ ss) :
      Scan δ (s :: ss)

variable {δ : Dialect}

/-! ### Every line is scanned -/

theorem first_keyed_eq_none {keep : Bool} {cs : List Char} (h : ¬ δ.StartsKeyed cs) :
    (δ.keyedPattern keep).first cs = none := by
  by_contra hsome
  exact h (of_keyed_first hsome)

theorem first_bearer_eq_none {cs : List Char} (h : ¬ δ.StartsBearer cs) :
    δ.bearerPattern.first cs = none := by
  by_contra hsome
  exact h (of_bearer_first hsome)

/-- A credential whose key starts in a token has the rest of the token as its
key. -/
theorem keyed_of_startsKeyed {end' rest : List Char} (hend : ∀ c ∈ end', δ.token c = true)
    (hrest : Stops δ.token rest) (h : δ.StartsKeyed (end' ++ rest)) :
    ∃ value left, δ.Keyed end' value left ∧ rest = '=' :: (value ++ left) := by
  obtain ⟨key, value, left, hkeyed, htext⟩ := h
  have hstops : Stops δ.token ('=' :: (value ++ left)) := by
    intro c hc
    obtain rfl := Option.some.inj hc
    exact δ.token_reserved _ (by decide)
  obtain ⟨rfl, rfl⟩ := run_unique hend hrest hkeyed.key.token hstops htext
  exact ⟨value, left, hkeyed, rfl⟩

/-- **Scanning.**  Every line is a sequence of segments. -/
theorem exists_scan (δ : Dialect) (line : List Char) :
    ∃ ss, δ.Scan ss ∧ ss.flatMap Segment.text = line := by
  induction hlength : line.length using Nat.strongRecOn generalizing line with
  | ind n ih =>
    subst hlength
    have hrest : ∀ (s : Segment) (left : List Char), s.text ≠ [] → line = s.text ++ left →
        δ.Fits left s → ∃ ss, δ.Scan ss ∧ ss.flatMap Segment.text = line := by
      rintro s left hne rfl hfits
      have hlt : left.length < (s.text ++ left).length := by
        have := List.length_pos_of_ne_nil hne
        rw [List.length_append]
        omega
      obtain ⟨ss, hss, rfl⟩ := ih left.length hlt left rfl
      exact ⟨s :: ss, .cons hfits hss, rfl⟩
    cases line with
    | nil => exact ⟨[], .nil, rfl⟩
    | cons c cs =>
      by_cases hkeyed : δ.StartsKeyed (c :: cs)
      · obtain ⟨key, value, left, h, htext⟩ := hkeyed
        apply hrest (.keyed key value) left _ _ h
        · simp [Segment.text]
        · rw [htext, Segment.text, List.append_assoc]
          rfl
      by_cases hbearer : δ.StartsBearer (c :: cs)
      · obtain ⟨anchor, token, equals, left, h, htext⟩ := hbearer
        by_cases hend : ∃ end', end' ≠ [] ∧ end' <:+ token ∧ δ.StartsKeyed (end' ++ (equals ++ left))
        · -- the token ends with a key, whose value is replaced as well
          obtain ⟨end', -, hsuffix, hstarts⟩ := hend
          have htoken : ∀ c ∈ end', δ.token c = true := fun c hc => h.token c (hsuffix.subset hc)
          obtain ⟨value, left', hkeyed, hequals⟩ := keyed_of_startsKeyed htoken h.token_stops hstarts
          apply hrest (.bearerKeyed anchor token value) left' _ _
            ⟨h.anchor, h.token, end', hsuffix, hkeyed⟩
          · simp [Segment.text]
          · rw [htext, hequals, Segment.text, List.append_assoc, List.append_assoc]
            rfl
        · have hfits : δ.Fits left (.bearer anchor token equals) :=
            ⟨h, fun end' hne hsuffix hstarts => hend ⟨end', hne, hsuffix, hstarts⟩⟩
          apply hrest (.bearer anchor token equals) left _ _ hfits
          · simp [Segment.text, h.token_ne]
          · rw [htext, Segment.text, List.append_assoc, List.append_assoc]
      · exact hrest (.kept c) cs (List.cons_ne_nil _ _) rfl ⟨hkeyed, hbearer⟩

/-! ### The first pass -/

/-- No key starts in an anchor: it would have to go beyond a space. -/
theorem IsAnchor.not_startsKeyed {anchor end' ys : List Char} (h : δ.IsAnchor anchor) (hne : end' ≠ [])
    (hsuffix : end' <:+ anchor) : ¬ δ.StartsKeyed (end' ++ ys) := by
  rintro ⟨key, value, left, hkeyed, htext⟩
  obtain ⟨before, last, rfl, hlast⟩ := h.space
  have hmem : ∀ c ∈ end', c ∈ before ++ [last] := fun c hc => hsuffix.subset hc
  have hend : last ∈ end' := by
    obtain ⟨front, hfront⟩ := hsuffix
    have hgetLast := congrArg List.getLast? hfront
    rw [List.getLast?_append_of_ne_nil _ hne, List.getLast?_concat] at hgetLast
    exact List.mem_of_getLast? hgetLast
  rcases List.append_eq_append_iff.mp htext with ⟨more, hkey, -⟩ | ⟨more, hend', hmore⟩
  · -- the key would have the space
    have hspace : last ∈ key := hkey ▸ List.mem_append_left _ hend
    have := not_space_of_token (hkeyed.key.token last hspace)
    rw [hlast] at this
    cases this
  · cases more with
    | nil =>
      rw [List.append_nil] at hend'
      have := not_space_of_token (hkeyed.key.token last (hend' ▸ hend))
      rw [hlast] at this
      cases this
    | cons c more =>
      -- the equals sign would be in the anchor
      obtain ⟨rfl, -⟩ := List.cons.inj hmore
      have hequals : '=' ∈ end' := hend' ▸ List.mem_append_right _ List.mem_cons_self
      exact absurd (h.reserved '=' (hmem _ hequals) (by decide)) (by decide)

/-- The value of a key is replaced, and what stands before the key is kept. -/
theorem mask_value {token key value left : List Char} (keep : Bool)
    (htoken : ∀ c ∈ token, δ.token c = true) (hsuffix : key <:+ token)
    (h : δ.Keyed key value left) :
    (δ.keyedPattern keep).replaceAll redactedMark (token ++ '=' :: (value ++ left)) =
      token ++ (sign keep ++ redactedMark) ++
        (δ.keyedPattern keep).replaceAll redactedMark left := by
  induction token with
  | nil => exact absurd (List.suffix_nil.mp hsuffix) h.key.ne_nil
  | cons c token ih =>
    by_cases hkey : δ.IsKey (c :: token)
    · -- the whole token is a key
      have hkeyed : δ.Keyed (c :: token) value left := ⟨hkey, h.value_ne, h.value, h.left⟩
      have htext : c :: token ++ '=' :: (value ++ left) =
          c :: token ++ sign keep ++ (noSign keep ++ value) ++ left := by
        rw [List.append_assoc _ (noSign keep ++ value), List.append_assoc (noSign keep),
          List.append_assoc, sign_append_noSign]
      have hfirst := hkeyed.first keep
      rw [List.append_assoc (noSign keep)] at hfirst
      rw [htext, Pattern.replaceAll_match (by simp) (by rw [hfirst, List.append_assoc]),
        List.append_assoc (c :: token)]
    · have hsuffix' : key <:+ token := by
        rcases List.suffix_cons_iff.mp hsuffix with rfl | hsuffix
        · exact absurd h.key hkey
        · exact hsuffix
      have hstops : Stops δ.token ('=' :: (value ++ left)) := by
        intro d hd
        obtain rfl := Option.some.inj hd
        exact δ.token_reserved _ (by decide)
      have hnone : ¬ δ.StartsKeyed (c :: token ++ '=' :: (value ++ left)) := by
        intro hstarts
        obtain ⟨value', left', hkeyed, -⟩ := keyed_of_startsKeyed htoken hstops hstarts
        exact hkey hkeyed.key
      have hfirst : (δ.keyedPattern keep).first (c :: (token ++ '=' :: (value ++ left))) = none :=
        first_keyed_eq_none hnone
      rw [List.cons_append, Pattern.replaceAll_cons hfirst,
        ih (List.forall_mem_cons.mp htoken).2 hsuffix']
      rfl

/-- A text in which no credential with a key starts is kept. -/
theorem mask_append {keep : Bool} {xs ys : List Char}
    (h : ∀ end', end' ≠ [] → end' <:+ xs → ¬ δ.StartsKeyed (end' ++ ys)) :
    (δ.keyedPattern keep).replaceAll redactedMark (xs ++ ys) =
      xs ++ (δ.keyedPattern keep).replaceAll redactedMark ys :=
  Pattern.replaceAll_append fun end' hne hsuffix => first_keyed_eq_none (h end' hne hsuffix)

theorem not_startsKeyed_equals {cs : List Char} : ¬ δ.StartsKeyed ('=' :: cs) := by
  rintro ⟨key, value, left, hkeyed, htext⟩
  cases key with
  | nil => exact hkeyed.key.ne_nil rfl
  | cons c key =>
    obtain ⟨rfl, -⟩ := List.cons.inj htext
    exact absurd (hkeyed.key.not_equals '=' List.mem_cons_self) (by decide)

/-- The first pass, segment by segment. -/
theorem mask_scan {ss : List Segment} (h : δ.Scan ss) (keep : Bool) :
    (δ.keyedPattern keep).replaceAll redactedMark (ss.flatMap Segment.text) =
      ss.flatMap (Segment.masked keep) := by
  induction h with
  | nil => rfl
  | @cons s ss hfits _ ih =>
    rw [List.flatMap_cons, List.flatMap_cons, ← ih]
    cases s with
    | kept c => exact Pattern.replaceAll_cons (first_keyed_eq_none hfits.1)
    | keyed key value =>
      have hkeyed : δ.Keyed key value (ss.flatMap Segment.text) := hfits
      show (δ.keyedPattern keep).replaceAll redactedMark (key ++ '=' :: value ++ _) = _
      rw [List.append_assoc, List.cons_append,
        mask_value keep hkeyed.key.token (List.suffix_refl _) hkeyed]
      simp only [Segment.masked, List.append_assoc]
    | bearer anchor token equals =>
      obtain ⟨hbearer, hend⟩ := hfits
      show (δ.keyedPattern keep).replaceAll redactedMark (anchor ++ (token ++ equals) ++ _) =
        anchor ++ (token ++ equals) ++ _
      rw [List.append_assoc, List.append_assoc,
        mask_append fun end' hne hsuffix => hbearer.anchor.not_startsKeyed hne hsuffix,
        mask_append hend, mask_append, List.append_assoc, List.append_assoc]
      -- no key starts with an equals sign
      intro end' hne hsuffix
      cases end' with
      | nil => exact absurd rfl hne
      | cons c end' =>
        obtain rfl := of_decide_eq_true (hbearer.equals c (hsuffix.subset List.mem_cons_self))
        exact not_startsKeyed_equals
    | bearerKeyed anchor token value =>
      obtain ⟨hanchor, htoken, key, hsuffix, hkeyed⟩ := hfits
      show (δ.keyedPattern keep).replaceAll redactedMark (anchor ++ (token ++ '=' :: value) ++ _) =
        anchor ++ (token ++ (sign keep ++ redactedMark)) ++ _
      rw [List.append_assoc, List.append_assoc, List.cons_append,
        mask_append fun end' hne hsuffix => hanchor.not_startsKeyed hne hsuffix,
        mask_value keep htoken hsuffix hkeyed]
      simp only [List.append_assoc]

/-! ### The second pass -/

/-- No anchor goes beyond a closing bracket. -/
theorem not_startsBearer_bracket {word ys : List Char} (hword : ∀ c ∈ word, δ.visible c = true) :
    ¬ δ.StartsBearer (word ++ ']' :: ys) := by
  rintro ⟨anchor, token, equals, left, h, htext⟩
  obtain ⟨before, last, hanchor, hlast⟩ := h.anchor.space
  have hmem : last ∈ anchor := hanchor ▸ List.mem_append_right _ (List.mem_singleton_self _)
  have hnotIn : last ∉ word := by
    intro hin
    have hvisible := hword last hin
    rw [visible, hlast] at hvisible
    cases hvisible
  rcases List.append_eq_append_iff.mp htext with ⟨more, hword', hmore⟩ | ⟨more, hword', -⟩
  · cases more with
    | nil =>
      rw [List.append_nil] at hword'
      exact hnotIn (hword' ▸ hmem)
    | cons c more =>
      obtain ⟨rfl, -⟩ := List.cons.inj hmore
      have hbracket : ']' ∈ anchor := hword' ▸ List.mem_append_right _ List.mem_cons_self
      exact absurd (h.anchor.reserved ']' hbracket (by decide)) (by decide)
  · exact hnotIn (hword' ▸ List.mem_append_left _ hmem)

/-- The second pass keeps a mark with what stands before it. -/
theorem unmask_mark {word ys : List Char} (hword : ∀ c ∈ word, δ.visible c = true) :
    δ.bearerPattern.replaceAll redactedMark (word ++ redactedMark ++ ys) =
      word ++ redactedMark ++ δ.bearerPattern.replaceAll redactedMark ys := by
  have hmark : redactedMark = "[REDACTED".toList ++ [']'] := by decide
  have hvisible : ∀ c ∈ word ++ "[REDACTED".toList, δ.visible c = true := by
    intro c hc
    rcases List.mem_append.mp hc with hc | hc
    · exact hword c hc
    · have := δ.mark_space c (hmark ▸ List.mem_append_left _ hc)
      rw [visible, this]
      rfl
  apply Pattern.replaceAll_append
  intro end' hne hsuffix
  rw [hmark, ← List.append_assoc] at hsuffix
  rcases List.suffix_concat_iff.mp hsuffix with h | ⟨front, rfl, hfront⟩
  · exact absurd h hne
  · rw [List.append_assoc]
    apply first_bearer_eq_none
    exact not_startsBearer_bracket fun c hc => hvisible c (hfront.subset hc)

/-- An anchor before a character of a token starts a bearer credential. -/
theorem startsBearer_of_anchor {anchor rest : List Char} {c : Char} (h : δ.IsAnchor anchor)
    (hc : δ.token c = true) : δ.StartsBearer (anchor ++ c :: rest) := by
  let token := (c :: rest).takeWhile δ.token
  let behind := (c :: rest).dropWhile δ.token
  have htext : c :: rest = token ++ (behind.takeWhile isEquals ++ behind.dropWhile isEquals) := by
    rw [List.takeWhile_append_dropWhile, List.takeWhile_append_dropWhile]
  refine ⟨anchor, token, behind.takeWhile isEquals, behind.dropWhile isEquals, ?_, by rw [← htext]⟩
  refine ⟨h, ?_, fun d hd => List.all_eq_true.mp List.all_takeWhile d hd, ?_,
    fun d hd => List.all_eq_true.mp List.all_takeWhile d hd, stops_dropWhile⟩
  · show (c :: rest).takeWhile δ.token ≠ []
    rw [List.takeWhile_cons_of_pos hc]
    exact List.cons_ne_nil _ _
  · rw [List.takeWhile_append_dropWhile]
    exact stops_dropWhile

theorem prefix_append_cases {ys xs zs : List Char} (h : ys <+: xs ++ zs) :
    ys <+: xs ∨ ∃ more, ys = xs ++ more ∧ more <+: zs := by
  obtain ⟨rest, hrest⟩ := h
  rcases List.append_eq_append_iff.mp hrest with ⟨more, rfl, -⟩ | ⟨more, rfl, rfl⟩
  · exact .inl (List.prefix_append _ _)
  · exact .inr ⟨more, rfl, List.prefix_append _ _⟩

/-- A text without a character ends before it. -/
theorem prefix_of_not_mem {ys xs zs : List Char} {c : Char} (h : ys <+: xs ++ c :: zs) (hc : c ∉ ys) :
    ys <+: xs := by
  rcases prefix_append_cases h with h | ⟨more, rfl, hmore⟩
  · exact h
  · cases more with
    | nil => exact ⟨[], by simp⟩
    | cons d more =>
      obtain ⟨rfl, -⟩ := List.cons_prefix_cons.mp hmore
      exact absurd (List.mem_append_right _ List.mem_cons_self) hc

theorem sign_append_mark (keep : Bool) : ∃ c rest, sign keep ++ redactedMark = c :: rest ∧
    (c = '=' ∨ c = '[') := by
  cases keep with
  | true => exact ⟨'=', redactedMark, rfl, .inl rfl⟩
  | false => exact ⟨'[', "REDACTED]".toList, rfl, .inr rfl⟩

/-- What starts the masked line, up to a sign or a mark, starts the line. -/
theorem prefix_of_masked {ss : List Segment} {keep : Bool} {ys : List Char}
    (h : ys <+: ss.flatMap (Segment.masked keep)) (hys : ∀ c ∈ ys, c ≠ '=' ∧ c ≠ '[') :
    ys <+: ss.flatMap Segment.text := by
  obtain ⟨sign, rest, hsign, hreserved⟩ := sign_append_mark keep
  have hnot : sign ∉ ys := by
    intro hin
    rcases hreserved with rfl | rfl
    · exact (hys _ hin).1 rfl
    · exact (hys _ hin).2 rfl
  induction ss generalizing ys with
  | nil => exact h
  | cons s ss ih =>
    rw [List.flatMap_cons] at h ⊢
    -- a segment that keeps its text is passed, another one stops at its sign
    have hkept : s.masked keep = s.text → ys <+: s.text ++ ss.flatMap Segment.text := by
      intro hsame
      rw [hsame] at h
      rcases prefix_append_cases h with h | ⟨more, rfl, hmore⟩
      · exact h.trans (List.prefix_append _ _)
      · have hmore' := ih hmore (fun c hc => hys c (List.mem_append_right _ hc))
          fun hin => hnot (List.mem_append_right _ hin)
        exact List.prefix_append_right_inj _ |>.mpr hmore'
    cases s with
    | kept c => exact hkept rfl
    | keyed key value =>
      rw [Segment.masked, List.append_assoc key, hsign, List.append_assoc] at h
      rw [Segment.text, List.append_assoc]
      exact (prefix_of_not_mem h hnot).trans (List.prefix_append _ _)
    | bearer anchor token equals => exact hkept rfl
    | bearerKeyed anchor token value =>
      rw [Segment.masked, hsign, ← List.append_assoc anchor, List.append_assoc (anchor ++ token)] at h
      rw [Segment.text, ← List.append_assoc anchor, List.append_assoc (anchor ++ token)]
      exact (prefix_of_not_mem h hnot).trans (List.prefix_append _ _)

/-- The masked line starts as the line does. -/
theorem head?_masked {ss : List Segment} (h : δ.Scan ss) (keep : Bool) :
    (ss.flatMap (Segment.masked keep)).head? = (ss.flatMap Segment.text).head? := by
  have hhead : ∀ {xs ys zs : List Char}, xs ≠ [] → (xs ++ ys).head? = (xs ++ zs).head? := by
    intro xs ys zs hne
    cases xs with
    | nil => exact absurd rfl hne
    | cons x xs => rfl
  cases h with
  | nil => rfl
  | @cons s ss hfits hs =>
    rw [List.flatMap_cons, List.flatMap_cons]
    cases s with
    | kept c => rfl
    | keyed key value =>
      have hkeyed : δ.Keyed key value (ss.flatMap Segment.text) := hfits
      rw [Segment.masked, Segment.text, List.append_assoc, List.append_assoc, List.append_assoc]
      exact hhead hkeyed.key.ne_nil
    | bearer anchor token equals =>
      apply hhead
      simp [Segment.masked, hfits.1.token_ne]
    | bearerKeyed anchor token value =>
      obtain ⟨before, last, hanchor, -⟩ := hfits.isAnchor.space
      simp only [Segment.masked, Segment.text, List.append_assoc]
      apply hhead
      rw [hanchor]
      simp

/-- **One scan.**  The two passes replace every segment of a line by itself. -/
theorem redact_scan {ss : List Segment} (h : δ.Scan ss) (keep : Bool) :
    δ.redactLine keep (ss.flatMap Segment.text) = ss.flatMap (Segment.redacted keep) := by
  rw [redactLine, mask_scan h]
  induction h with
  | nil => rfl
  | @cons s ss hfits hs ih =>
    rw [List.flatMap_cons, List.flatMap_cons, ← ih]
    cases s with
    | kept c =>
      -- an anchor of the masked line would be one of the line
      have hnone : ¬ δ.StartsBearer (c :: ss.flatMap (Segment.masked keep)) := by
        rintro ⟨anchor, token, equals, left, h, htext⟩
        cases token with
        | nil => exact h.token_ne rfl
        | cons d token =>
          have hd : δ.token d = true := h.token d List.mem_cons_self
          have hmasked : anchor ++ [d] <+:
              (Segment.kept c :: ss).flatMap (Segment.masked keep) := by
            refine ⟨token ++ (equals ++ left), ?_⟩
            rw [List.append_assoc]
            exact htext.symm
          have hplain : ∀ b ∈ anchor ++ [d], b ≠ '=' ∧ b ≠ '[' := by
            intro b hb
            have hreserved : isReserved b = true → b = ':' := by
              rcases List.mem_append.mp hb with hb | hb
              · exact h.anchor.reserved b hb
              · rw [List.mem_singleton.mp hb]
                exact fun hr => absurd hr (Bool.eq_false_iff.mp (not_reserved_of_token hd))
            constructor
            · rintro rfl
              exact absurd (hreserved (by decide)) (by decide)
            · rintro rfl
              exact absurd (hreserved (by decide)) (by decide)
          obtain ⟨rest, hrest⟩ := prefix_of_masked hmasked hplain
          rw [List.append_assoc] at hrest
          have hline : c :: ss.flatMap Segment.text = anchor ++ d :: rest := hrest.symm
          apply hfits.2
          rw [hline]
          exact startsBearer_of_anchor h.anchor hd
      exact Pattern.replaceAll_cons (first_bearer_eq_none hnone)
    | keyed key value =>
      have hkeyed : δ.Keyed key value (ss.flatMap Segment.text) := hfits
      apply unmask_mark
      intro c hc
      rcases List.mem_append.mp hc with hc | hc
      · rw [visible, not_space_of_token (hkeyed.key.token c hc)]
        rfl
      · -- the sign is no space
        cases keep with
        | true =>
          rw [List.mem_singleton.mp hc, visible, δ.space_reserved _ (by decide)]
          rfl
        | false => cases hc
    | bearer anchor token equals =>
      obtain ⟨hbearer, -⟩ := hfits
      have hhead := head?_masked hs keep
      have hmasked : δ.Bearer anchor token equals (ss.flatMap (Segment.masked keep)) := by
        refine ⟨hbearer.anchor, hbearer.token_ne, hbearer.token, hbearer.token_stops.congr ?_,
          hbearer.equals, hbearer.left.congr hhead⟩
        rw [List.head?_append, List.head?_append, hhead]
      exact Pattern.replaceAll_match (by simp [hbearer.token_ne]) hmasked.first
    | bearerKeyed anchor token value =>
      obtain ⟨hanchor, htoken, key, hsuffix, hkeyed⟩ := hfits
      have hne : token ≠ [] := by
        rintro rfl
        exact hkeyed.key.ne_nil (List.suffix_nil.mp hsuffix)
      obtain ⟨c, rest, hsign, hc⟩ := sign_append_mark keep
      have hmasked : δ.Bearer anchor token (sign keep)
          (redactedMark ++ ss.flatMap (Segment.masked keep)) := by
        refine ⟨hanchor, hne, htoken, ?_, ?_, ?_⟩
        · rw [← List.append_assoc, hsign]
          intro d hd
          obtain rfl := Option.some.inj hd
          apply δ.token_reserved
          rcases hc with rfl | rfl
          · decide
          · decide
        · cases keep with
          | true => exact fun d hd => decide_eq_true (List.mem_singleton.mp hd)
          | false => exact fun d hd => absurd hd List.not_mem_nil
        · intro d hd
          obtain rfl := Option.some.inj hd
          decide
      have hmark : δ.bearerPattern.replaceAll redactedMark
          ([] ++ redactedMark ++ ss.flatMap (Segment.masked keep)) =
          redactedMark ++ δ.bearerPattern.replaceAll redactedMark (ss.flatMap (Segment.masked keep)) :=
        unmask_mark fun c hc => absurd hc List.not_mem_nil
      rw [List.nil_append] at hmark
      have hreplaced : δ.bearerPattern.replaceAll redactedMark
          (anchor ++ (token ++ sign keep) ++ (redactedMark ++ ss.flatMap (Segment.masked keep))) = _ :=
        Pattern.replaceAll_match (by simp [hne]) hmasked.first
      rw [hmark] at hreplaced
      simp only [Segment.masked, Segment.redacted, List.append_assoc] at hreplaced ⊢
      exact hreplaced

end Dialect

end NexCause
