/-
NexCause/RedactionPatterns.lean

What the patterns of the redaction match: credentials `key=value`, and bearer
tokens behind an anchor.  The two languages differ in how they fold letters and
in what a space is; what they have in common is a `Dialect`.

Main results: a credential is the match at its start (`Keyed.first`,
`Bearer.first`), and nothing else is (`of_keyed_first`, `of_bearer_first`).
-/
import NexCause.Redaction
import NexCause.RegexRules

namespace NexCause

open Regex

/-! ### Dialects -/

/-- The characters with a meaning of their own in the patterns and the mark. -/
def isReserved (c : Char) : Bool := c ∈ ['=', ':', '[', ']']

/-- How a language compares letters, and what its spaces and the characters of a
token are. -/
structure Dialect where
  eq : Char → Char → Bool
  space : Char → Bool
  token : Char → Bool
  token_of_eq : ∀ a c, a.isLower = true → eq a c = true → token c = true
  colon_of_eq : ∀ c, eq ':' c = true → c = ':'
  token_reserved : ∀ c, isReserved c = true → token c = false
  token_space : ∀ c, space c = true → token c = false
  space_reserved : ∀ c, isReserved c = true → space c = false
  token_separator : token '_' = true ∧ token '-' = true
  mark_space : ∀ c ∈ redactedMark, space c = false

theorem toLower_of_not_isUpper {c : Char} (h : ¬ c.isUpper = true) : c.toLower = c := by
  unfold Char.toLower
  apply dif_neg
  exact fun hmem => h (decide_eq_true hmem)

theorem isAlphanum_of_toLower {c : Char} (h : c.toLower.isLower = true) : c.isAlphanum = true := by
  by_cases hupper : c.isUpper = true
  · simp [isAlphanum_eq, hupper]
  · rw [toLower_of_not_isUpper hupper] at h
    simp [isAlphanum_eq, h]

theorem eq_of_toLower_eq_colon {c : Char} (h : c.toLower = ':') : c = ':' := by
  by_cases hupper : c.isUpper = true
  · have hall : ∀ n < 128, (Char.ofNat n).isUpper = true → (Char.ofNat n).toLower ≠ ':' := by decide
    have hlt : c.toNat < 128 := toNat_lt_of_isAlphanum (by simp [isAlphanum_eq, hupper])
    exact absurd h (forall_ascii (P := fun c => c.isUpper = true → c.toLower ≠ ':') hall hlt hupper)
  · rwa [toLower_of_not_isUpper hupper] at h

/-- The characters of a token are ASCII. -/
theorem toNat_lt_of_isTokenChar {c : Char} (h : isTokenChar c = true) : c.toNat < 128 := by
  simp only [isTokenChar, Bool.or_eq_true, decide_eq_true_eq] at h
  rcases h with h | h
  · exact toNat_lt_of_isAlphanum h
  · have hall : ∀ c ∈ ['.', '_', '~', '+', '/', '-'], c.toNat < 128 := forall_mem_of_all (by decide)
    exact hall c h

/-- Go's patterns: `(?i)` folds by Unicode, so that the long s and the Kelvin sign are
letters of a key. -/
def goDialect : Dialect where
  eq := goFoldEq
  space := goSpace
  token := goTokenChar
  token_of_eq := by
    intro a c ha h
    simp only [goFoldEq, Bool.or_eq_true, Bool.and_eq_true, decide_eq_true_eq] at h
    simp only [goTokenChar, isTokenChar, Bool.or_eq_true, decide_eq_true_eq]
    rcases h with (rfl | ⟨-, rfl⟩) | ⟨-, rfl⟩
    · exact .inl (.inl (.inl (isAlphanum_of_toLower ha)))
    · exact .inl (.inr rfl)
    · exact .inr rfl
  colon_of_eq := by
    intro c h
    simp only [goFoldEq, Bool.or_eq_true, Bool.and_eq_true, decide_eq_true_eq] at h
    rcases h with (h | ⟨h, -⟩) | ⟨h, -⟩
    · exact eq_of_toLower_eq_colon h
    · exact absurd h (by decide)
    · exact absurd h (by decide)
  token_reserved := by
    have hall : ∀ c ∈ ['=', ':', '[', ']'], goTokenChar c = false := forall_mem_of_all (by decide)
    exact fun c h => hall c (of_decide_eq_true h)
  token_space := by
    have hall : ∀ c ∈ ['\t', '\n', '\u000c', '\r', ' '], goTokenChar c = false :=
      forall_mem_of_all (by decide)
    exact fun c h => hall c (of_decide_eq_true h)
  space_reserved := by
    have hall : ∀ c ∈ ['=', ':', '[', ']'], goSpace c = false := forall_mem_of_all (by decide)
    exact fun c h => hall c (of_decide_eq_true h)
  token_separator := by decide
  mark_space := forall_mem_of_all (by decide)

/-- JavaScript's patterns: the letters are compared in lower case, and the spaces are
Unicode's. -/
def jsDialect : Dialect where
  eq := jsFoldEq
  space := isWhiteSpace
  token := isTokenChar
  token_of_eq := by
    intro a c ha h
    have hlower : c.toLower = a := of_decide_eq_true h
    rw [isTokenChar, isAlphanum_of_toLower (hlower ▸ ha), Bool.true_or]
  colon_of_eq := fun c h => eq_of_toLower_eq_colon (of_decide_eq_true h)
  token_reserved := by
    have hall : ∀ c ∈ ['=', ':', '[', ']'], isTokenChar c = false := forall_mem_of_all (by decide)
    exact fun c h => hall c (of_decide_eq_true h)
  token_space := by
    intro c h
    rw [Bool.eq_false_iff]
    intro htoken
    have hlt := toNat_lt_of_isTokenChar htoken
    simp only [isWhiteSpace, Bool.or_eq_true, Bool.and_eq_true, decide_eq_true_eq] at h
    rcases h with h | ⟨h, -⟩
    · have hall : ∀ c ∈ ['\t', '\n', '\u000b', '\u000c', '\r', ' ', '\u00a0', '\u1680', '\u2028',
          '\u2029', '\u202f', '\u205f', '\u3000', '\ufeff'], isTokenChar c = false :=
        forall_mem_of_all (by decide)
      exact absurd htoken (Bool.eq_false_iff.mp (hall c h))
    · -- the other spaces are far from ASCII
      have hle : (8192 : ℕ) ≤ c.toNat := h
      omega
  space_reserved := by
    have hall : ∀ c ∈ ['=', ':', '[', ']'], isWhiteSpace c = false := forall_mem_of_all (by decide)
    exact fun c h => hall c (of_decide_eq_true h)
  token_separator := by decide
  mark_space := forall_mem_of_all (by decide)

namespace Dialect

variable (δ : Dialect)

/-! ### The patterns -/

/-- The first pattern: keys with their values.  The equals sign is kept or not. -/
def keyedPattern (keep : Bool) : Pattern :=
  if keep then
    { captured := seq (secretKeyWord δ.eq) (char fun c => c = '=')
      rest := many1 fun c => !δ.space c }
  else
    { captured := secretKeyWord δ.eq
      rest := seq (char fun c => c = '=') (many1 fun c => !δ.space c) }

/-- The second: bearer tokens. -/
def bearerPattern : Pattern :=
  { captured := bearerPrefix δ.eq δ.space, rest := bearerToken δ.token }

/-- The passes, one after the other. -/
def redactLine (keep : Bool) (line : List Char) : List Char :=
  δ.bearerPattern.replaceAll redactedMark ((δ.keyedPattern keep).replaceAll redactedMark line)

end Dialect

/-- The evidence server's redaction is Go's dialect, without the equals sign in the
replacement. -/
theorem redact_eq (line : List Char) : redact line = goDialect.redactLine false line := rfl

/-- The manager's is JavaScript's, with it. -/
theorem LokiTelemetryClient.redact_eq (line : List Char) :
    LokiTelemetryClient.redact line = jsDialect.redactLine true line := rfl

namespace Dialect

variable {δ : Dialect}

/-! ### Keys -/

/-- A word behind whose equals sign a value is hidden. -/
def IsKey (δ : Dialect) (key : List Char) : Prop := (secretKeyWord δ.eq).Matches key

/-- A character of a matched word compares to one of the word. -/
theorem exists_of_mem_word {w found : List Char} (h : (word δ.eq w).Matches found) {c : Char}
    (hc : c ∈ found) : ∃ a ∈ w, δ.eq a c = true := by
  have hfound := matches_word.mp h
  clear h
  induction hfound with
  | nil => cases hc
  | @cons a d w found had _ ih =>
    rcases List.mem_cons.mp hc with rfl | hc
    · exact ⟨a, List.mem_cons_self, had⟩
    · obtain ⟨b, hb, hbc⟩ := ih hc
      exact ⟨b, List.mem_cons_of_mem _ hb, hbc⟩

/-- What matches a word of letters could stand in a token. -/
theorem token_of_word {w found : List Char} (hw : ∀ a ∈ w, a.isLower = true)
    (h : (word δ.eq w).Matches found) : ∀ c ∈ found, δ.token c = true := by
  intro c hc
  obtain ⟨a, ha, hac⟩ := exists_of_mem_word h hc
  exact δ.token_of_eq a c (hw a ha) hac

theorem ne_nil_of_word {w found : List Char} (hw : w ≠ []) (h : (word δ.eq w).Matches found) :
    found ≠ [] := by
  have hfound := matches_word.mp h
  rintro rfl
  cases hfound
  exact hw rfl

/-- A key could stand in a token. -/
theorem IsKey.token {key : List Char} (h : δ.IsKey key) : ∀ c ∈ key, δ.token c = true := by
  rcases matches_alt.mp h with h | h
  · exact token_of_word (forall_mem_of_all (by decide)) h
  rcases matches_alt.mp h with h | h
  · exact token_of_word (forall_mem_of_all (by decide)) h
  rcases matches_alt.mp h with h | h
  · exact token_of_word (forall_mem_of_all (by decide)) h
  obtain ⟨api, rest, hapi, hrest, rfl⟩ := matches_seq.mp h
  obtain ⟨separator, word, hseparator, hword, rfl⟩ := matches_seq.mp hrest
  intro c hc
  rcases List.mem_append.mp hc with hc | hc
  · exact token_of_word (forall_mem_of_all (by decide)) hapi c hc
  rcases List.mem_append.mp hc with hc | hc
  · rcases matches_alt.mp hseparator with hone | hnone
    · obtain ⟨d, hd, rfl⟩ := matches_char.mp hone
      rw [List.mem_singleton.mp hc]
      simp only [Bool.or_eq_true, decide_eq_true_eq] at hd
      rcases hd with rfl | rfl
      · exact δ.token_separator.1
      · exact δ.token_separator.2
    · rw [← List.mem_singleton.mp hnone] at hc
      cases hc
  · exact token_of_word (forall_mem_of_all (by decide)) hword c hc

theorem IsKey.ne_nil {key : List Char} (h : δ.IsKey key) : key ≠ [] := by
  rcases matches_alt.mp h with h | h
  · exact ne_nil_of_word (by decide) h
  rcases matches_alt.mp h with h | h
  · exact ne_nil_of_word (by decide) h
  rcases matches_alt.mp h with h | h
  · exact ne_nil_of_word (by decide) h
  obtain ⟨api, rest, hapi, -, rfl⟩ := matches_seq.mp h
  exact List.append_ne_nil_of_left_ne_nil (ne_nil_of_word (by decide) hapi) _

/-! ### Anchors -/

/-- What stands before a bearer token. -/
def IsAnchor (δ : Dialect) (anchor : List Char) : Prop :=
  (bearerPrefix δ.eq δ.space).Matches anchor

/-- An anchor taken apart: `authorization:`, spaces, `bearer`, spaces. -/
theorem isAnchor_iff {anchor : List Char} : δ.IsAnchor anchor ↔
    ∃ authorization between bearer spaces,
      (word δ.eq "authorization:".toList).Matches authorization ∧
      (∀ c ∈ between, δ.space c = true) ∧ (word δ.eq "bearer".toList).Matches bearer ∧
      spaces ≠ [] ∧ (∀ c ∈ spaces, δ.space c = true) ∧
      anchor = authorization ++ between ++ bearer ++ spaces := by
  constructor
  · intro h
    obtain ⟨authorization, rest, hauthorization, hrest, rfl⟩ := matches_seq.mp h
    obtain ⟨between, rest', hbetween, hrest', hmiddle⟩ := matches_seq.mp hrest
    obtain ⟨bearer, spaces, hbearer, hspaces, hend⟩ := matches_seq.mp hrest'
    obtain ⟨hne, hspaces⟩ := matches_many1.mp hspaces
    refine ⟨authorization, between, bearer, spaces, hauthorization, matches_many.mp hbetween, hbearer,
      hne, hspaces, ?_⟩
    rw [hmiddle, hend, List.append_assoc, List.append_assoc]
  · rintro ⟨authorization, between, bearer, spaces, hauthorization, hbetween, hbearer, hne, hspaces,
      rfl⟩
    rw [List.append_assoc, List.append_assoc]
    apply matches_seq.mpr
    refine ⟨authorization, between ++ (bearer ++ spaces), hauthorization, ?_, rfl⟩
    apply matches_seq.mpr
    refine ⟨between, bearer ++ spaces, matches_many.mpr hbetween, ?_, rfl⟩
    exact matches_seq.mpr ⟨bearer, spaces, hbearer, matches_many1.mpr ⟨hne, hspaces⟩, rfl⟩

/-- Equals sign, colon and brackets stand in no token. -/
theorem not_reserved_of_token {c : Char} (h : δ.token c = true) : isReserved c = false := by
  rw [Bool.eq_false_iff]
  intro hreserved
  rw [δ.token_reserved c hreserved] at h
  cases h

theorem not_reserved_of_space {c : Char} (h : δ.space c = true) : isReserved c = false := by
  rw [Bool.eq_false_iff]
  intro hreserved
  rw [δ.space_reserved c hreserved] at h
  cases h

theorem not_space_of_token {c : Char} (h : δ.token c = true) : δ.space c = false := by
  rw [Bool.eq_false_iff]
  intro hspace
  rw [δ.token_space c hspace] at h
  cases h

/-- Of the reserved characters an anchor has only the colon. -/
theorem IsAnchor.reserved {anchor : List Char} (h : δ.IsAnchor anchor) :
    ∀ c ∈ anchor, isReserved c = true → c = ':' := by
  obtain ⟨authorization, between, bearer, spaces, hauthorization, hbetween, hbearer, -, hspaces, rfl⟩ :=
    isAnchor_iff.mp h
  have hspace : ∀ c, δ.space c = true → isReserved c = true → c = ':' := fun c hc hreserved =>
    absurd hreserved (Bool.eq_false_iff.mp (not_reserved_of_space hc))
  have htoken : ∀ c, δ.token c = true → isReserved c = true → c = ':' := fun c hc hreserved =>
    absurd hreserved (Bool.eq_false_iff.mp (not_reserved_of_token hc))
  have hword : ∀ a ∈ "authorization:".toList, a.isLower = true ∨ a = ':' :=
    forall_mem_of_all (by decide)
  intro c hc
  rcases List.mem_append.mp hc with hc | hc
  · rcases List.mem_append.mp hc with hc | hc
    · rcases List.mem_append.mp hc with hc | hc
      · -- a letter, or the colon
        obtain ⟨a, ha, hac⟩ := exists_of_mem_word hauthorization hc
        rcases hword a ha with hlower | rfl
        · exact htoken c (δ.token_of_eq a c hlower hac)
        · exact fun _ => δ.colon_of_eq c hac
      · exact hspace c (hbetween c hc)
    · exact htoken c (token_of_word (forall_mem_of_all (by decide)) hbearer c hc)
  · exact hspace c (hspaces c hc)

/-- An anchor ends with a space. -/
theorem IsAnchor.space {anchor : List Char} (h : δ.IsAnchor anchor) :
    ∃ before last, anchor = before ++ [last] ∧ δ.space last = true := by
  obtain ⟨authorization, between, bearer, spaces, -, -, -, hne, hspaces, rfl⟩ := isAnchor_iff.mp h
  refine ⟨authorization ++ between ++ bearer ++ spaces.dropLast, spaces.getLast hne, ?_,
    hspaces _ (List.getLast_mem hne)⟩
  rw [List.append_assoc _ spaces.dropLast, List.dropLast_append_getLast]

/-! ### Matches -/

/-- The equals sign, where the first pattern keeps it. -/
def sign (keep : Bool) : List Char := if keep then ['='] else []

/-- The equals sign, where the first pattern replaces it. -/
def noSign (keep : Bool) : List Char := if keep then [] else ['=']

theorem sign_append_noSign (keep : Bool) (cs : List Char) :
    sign keep ++ (noSign keep ++ cs) = '=' :: cs := by
  cases keep <;> rfl

def isEquals (c : Char) : Bool := c = '='

/-- No space. -/
def visible (δ : Dialect) (c : Char) : Bool := !δ.space c

/-- A credential with a key: its value goes on to the next space. -/
structure Keyed (δ : Dialect) (key value left : List Char) : Prop where
  key : δ.IsKey key
  value_ne : value ≠ []
  value : ∀ c ∈ value, δ.visible c = true
  left : Stops δ.visible left

/-- What the first pattern can match. -/
theorem keyed_iff {keep : Bool} {cs after left : List Char} :
    (after ∈ (δ.keyedPattern keep).captured.rests cs ∧
      ((δ.keyedPattern keep).rest.rests after).head? = some left) ↔
    ∃ key value, δ.Keyed key value left ∧ cs = key ++ '=' :: (value ++ left) ∧
      after = noSign keep ++ (value ++ left) := by
  cases keep with
  -- the sign belongs to what is kept
  | true =>
    show (after ∈ (seq (secretKeyWord δ.eq) (char fun c => c = '=')).rests cs ∧
      ((many1 δ.visible).rests after).head? = some left) ↔ _
    rw [head?_rests_many1_iff, mem_rests_seq]
    constructor
    · rintro ⟨⟨middle, hmiddle, hafter⟩, value, hne, hvalue, hleft, rfl⟩
      obtain ⟨key, hkey, rfl⟩ := mem_rests_iff.mp hmiddle
      obtain ⟨c, hc, rfl⟩ := mem_rests_char.mp hafter
      obtain rfl := of_decide_eq_true hc
      exact ⟨key, value, ⟨hkey, hne, hvalue, hleft⟩, rfl, rfl⟩
    · rintro ⟨key, value, ⟨hkey, hne, hvalue, hleft⟩, rfl, rfl⟩
      exact ⟨⟨_, mem_rests_iff.mpr ⟨key, hkey, rfl⟩, mem_rests_char.mpr ⟨'=', by decide, rfl⟩⟩,
        value, hne, hvalue, hleft, rfl⟩
  -- the sign goes with the value
  | false =>
    show (after ∈ (secretKeyWord δ.eq).rests cs ∧
      ((seq (char fun c => c = '=') (many1 δ.visible)).rests after).head? = some left) ↔ _
    rw [mem_rests_iff]
    constructor
    · rintro ⟨⟨key, hkey, rfl⟩, hhead⟩
      rw [rests] at hhead
      cases after with
      | nil => cases hhead
      | cons c after =>
        rw [rests] at hhead
        split at hhead
        · rename_i hc
          obtain rfl := of_decide_eq_true hc
          rw [List.flatMap_singleton, head?_rests_many1_iff] at hhead
          obtain ⟨value, hne, hvalue, hleft, rfl⟩ := hhead
          exact ⟨key, value, ⟨hkey, hne, hvalue, hleft⟩, rfl, rfl⟩
        · cases hhead
    · rintro ⟨key, value, ⟨hkey, hne, hvalue, hleft⟩, rfl, rfl⟩
      refine ⟨⟨key, hkey, rfl⟩, ?_⟩
      show (([value ++ left]).flatMap (many1 δ.visible).rests).head? = some left
      rw [List.flatMap_singleton, head?_rests_many1_iff]
      exact ⟨value, hne, hvalue, hleft, rfl⟩

theorem IsKey.not_equals {key : List Char} (h : δ.IsKey key) : ∀ c ∈ key, (c != '=') = true := by
  intro c hc
  rw [bne_iff_ne]
  rintro rfl
  exact absurd (not_reserved_of_token (h.token _ hc)) (by decide)

theorem stops_equals (cs : List Char) : Stops (· != '=') ('=' :: cs) := by
  intro c hc
  obtain rfl := Option.some.inj hc
  rfl

/-- A credential with a key is the match at its start. -/
theorem Keyed.first {key value left : List Char} (h : δ.Keyed key value left) (keep : Bool) :
    (δ.keyedPattern keep).first (key ++ sign keep ++ (noSign keep ++ value) ++ left) =
      some (noSign keep ++ value ++ left, left) := by
  have htext : key ++ sign keep ++ (noSign keep ++ value) ++ left = key ++ '=' :: (value ++ left) := by
    rw [List.append_assoc, List.append_assoc, List.append_assoc, sign_append_noSign]
  have hafter : noSign keep ++ value ++ left = noSign keep ++ (value ++ left) := List.append_assoc ..
  rw [htext, hafter]
  obtain ⟨hmem, hleft⟩ := keyed_iff.mpr ⟨key, value, h, rfl, rfl⟩
  apply Pattern.first_eq_some hmem hleft
  intro other hother hsome
  obtain ⟨left', hleft'⟩ := Option.isSome_iff_exists.mp hsome
  obtain ⟨key', value', h', htext', rfl⟩ := keyed_iff.mp ⟨hother, hleft'⟩
  -- the first equals sign ends the key
  obtain ⟨-, hrest⟩ := run_unique h.key.not_equals (stops_equals _) h'.key.not_equals (stops_equals _)
    htext'
  rw [(List.cons.inj hrest).2]

/-- Where the first pattern matches, there is a key with its value. -/
theorem of_keyed_first {keep : Bool} {cs : List Char} (h : (δ.keyedPattern keep).first cs ≠ none) :
    ∃ key value left, δ.Keyed key value left ∧ cs = key ++ '=' :: (value ++ left) := by
  obtain ⟨⟨after, left⟩, hfirst⟩ := Option.ne_none_iff_exists'.mp h
  obtain ⟨key, value, hkeyed, htext, -⟩ := keyed_iff.mp (Pattern.of_first_eq_some hfirst)
  exact ⟨key, value, left, hkeyed, htext⟩

/-- A bearer credential: its token is as long as it can be, and so are the equals
signs behind it. -/
structure Bearer (δ : Dialect) (anchor token equals left : List Char) : Prop where
  anchor : δ.IsAnchor anchor
  token_ne : token ≠ []
  token : ∀ c ∈ token, δ.token c = true
  token_stops : Stops δ.token (equals ++ left)
  equals : ∀ c ∈ equals, isEquals c = true
  left : Stops isEquals left

/-- The token is taken as long as it goes, with the equals signs behind it. -/
theorem head?_rests_bearerToken {cs : List Char} : ((bearerToken δ.token).rests cs).head? =
    ((many1 δ.token).rests cs).head?.map fun middle => middle.dropWhile isEquals := by
  have hsome : ∀ middle, ((many isEquals).rests middle).head?.isSome := by
    intro middle
    rw [head?_rests_many]
    rfl
  show ((seq (many1 δ.token) (many isEquals)).rests cs).head? = _
  rw [head?_rests_seq hsome]
  cases ((many1 δ.token).rests cs).head? with
  | none => rfl
  | some middle => exact head?_rests_many

/-- What the second pattern can match. -/
theorem bearer_iff {cs after left : List Char} :
    (after ∈ δ.bearerPattern.captured.rests cs ∧
      (δ.bearerPattern.rest.rests after).head? = some left) ↔
    ∃ anchor token equals, δ.Bearer anchor token equals left ∧
      cs = anchor ++ (token ++ (equals ++ left)) ∧ after = token ++ (equals ++ left) := by
  show (after ∈ (bearerPrefix δ.eq δ.space).rests cs ∧
    ((bearerToken δ.token).rests after).head? = some left) ↔ _
  rw [head?_rests_bearerToken, Option.map_eq_some_iff, mem_rests_iff]
  constructor
  · rintro ⟨⟨anchor, hanchor, rfl⟩, middle, hmiddle, rfl⟩
    obtain ⟨token, hne, htoken, hstops, rfl⟩ := head?_rests_many1_iff.mp hmiddle
    have hsplit : middle = middle.takeWhile isEquals ++ middle.dropWhile isEquals :=
      (List.takeWhile_append_dropWhile).symm
    refine ⟨anchor, token, middle.takeWhile isEquals, ⟨hanchor, hne, htoken, hsplit ▸ hstops,
      fun c hc => List.all_eq_true.mp List.all_takeWhile c hc, stops_dropWhile⟩, ?_, ?_⟩
    · rw [← hsplit]
    · rw [← hsplit]
  · rintro ⟨anchor, token, equals, h, rfl, rfl⟩
    refine ⟨⟨anchor, h.anchor, rfl⟩, equals ++ left, ?_, dropWhile_of_stops h.equals h.left⟩
    exact head?_rests_many1_iff.mpr ⟨token, h.token_ne, h.token, h.token_stops, rfl⟩

/-- What starts with characters of a token has no space at its start. -/
theorem stops_space_of_token {token cs : List Char} (hne : token ≠ [])
    (htoken : ∀ c ∈ token, δ.token c = true) : Stops δ.space (token ++ cs) := by
  cases token with
  | nil => exact absurd rfl hne
  | cons c token =>
    intro d hd
    obtain rfl := Option.some.inj hd
    exact not_space_of_token (htoken c List.mem_cons_self)

/-- Where a token begins behind an anchor is determined. -/
theorem anchor_unique {anchor anchor' token token' cs cs' : List Char} (h : δ.IsAnchor anchor)
    (hne : token ≠ []) (htoken : ∀ c ∈ token, δ.token c = true) (h' : δ.IsAnchor anchor')
    (hne' : token' ≠ []) (htoken' : ∀ c ∈ token', δ.token c = true)
    (htext : anchor ++ (token ++ cs) = anchor' ++ (token' ++ cs')) :
    token ++ cs = token' ++ cs' := by
  obtain ⟨a, s, b, t, ha, hs, hb, -, ht, rfl⟩ := isAnchor_iff.mp h
  obtain ⟨a', s', b', t', ha', hs', hb', -, ht', rfl⟩ := isAnchor_iff.mp h'
  have hlength : ∀ {w found found' : List Char}, (word δ.eq w).Matches found →
      (word δ.eq w).Matches found' → found.length = found'.length := fun hw hw' =>
    (matches_word.mp hw).length_eq.symm.trans (matches_word.mp hw').length_eq
  have hbearer : ∀ {found cs : List Char}, (word δ.eq "bearer".toList).Matches found →
      Stops δ.space (found ++ cs) := fun hfound =>
    stops_space_of_token (ne_nil_of_word (by decide) hfound)
      (token_of_word (forall_mem_of_all (by decide)) hfound)
  simp only [List.append_assoc] at htext
  -- the first word, the spaces, the second word, and the spaces again
  obtain ⟨-, htext⟩ := List.append_inj htext (hlength ha ha')
  obtain ⟨-, htext⟩ := run_unique hs (hbearer hb) hs' (hbearer hb') htext
  obtain ⟨-, htext⟩ := List.append_inj htext (hlength hb hb')
  exact (run_unique ht (stops_space_of_token hne htoken) ht' (stops_space_of_token hne' htoken')
    htext).2

/-- A bearer credential is the match at its start. -/
theorem Bearer.first {anchor token equals left : List Char} (h : δ.Bearer anchor token equals left) :
    δ.bearerPattern.first (anchor ++ (token ++ equals) ++ left) =
      some (token ++ equals ++ left, left) := by
  rw [List.append_assoc, List.append_assoc]
  obtain ⟨hmem, hleft⟩ := bearer_iff.mpr ⟨anchor, token, equals, h, rfl, rfl⟩
  apply Pattern.first_eq_some hmem hleft
  intro other hother hsome
  obtain ⟨left', hleft'⟩ := Option.isSome_iff_exists.mp hsome
  obtain ⟨anchor', token', equals', h', htext, rfl⟩ := bearer_iff.mp ⟨hother, hleft'⟩
  exact (anchor_unique h.anchor h.token_ne h.token h'.anchor h'.token_ne h'.token htext).symm

/-- Where the second pattern matches, there is an anchor with its token. -/
theorem of_bearer_first {cs : List Char} (h : δ.bearerPattern.first cs ≠ none) :
    ∃ anchor token equals left, δ.Bearer anchor token equals left ∧
      cs = anchor ++ (token ++ (equals ++ left)) := by
  obtain ⟨⟨after, left⟩, hfirst⟩ := Option.ne_none_iff_exists'.mp h
  obtain ⟨anchor, token, equals, hbearer, htext, -⟩ :=
    bearer_iff.mp (Pattern.of_first_eq_some hfirst)
  exact ⟨anchor, token, equals, left, hbearer, htext⟩

end Dialect

end NexCause
