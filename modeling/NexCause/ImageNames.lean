/-
NexCause/ImageNames.lean

Is the repository of a build's image one that Docker takes?  `toImageRepository`
keeps dots and underscores wherever they are, and cuts after it has trimmed.

Main result: the repository is a path component, and every name made of it is an
image reference, exactly if the app's name is, between what becomes dashes, made
of words with one separator each between them, up to the cut
(`image_names_valid_iff`).
-/
import NexCause.BuildContainment
import NexCause.Grammars
import NexCause.GeneratedNames

namespace NexCause

open scoped Computability

/-! ### References -/

namespace Docker

/-- `[a-z0-9]+` -/
def alphaNumeric : Language Char := Grammar.many1 (Grammar.oneOf isLetterOrDigit)

/-- `\.|_|__|-+` -/
def separator : Language Char :=
  {['.']} + ({['_']} + ({['_', '_']} + Grammar.many1 (Grammar.oneOf (· = '-'))))

def pathComponent : Language Char := Grammar.listOf alphaNumeric separator

/-- `[a-zA-Z0-9](?:[a-zA-Z0-9-]*[a-zA-Z0-9])?` -/
def domainComponent : Language Char :=
  Grammar.oneOf Char.isAlphanum *
    Grammar.optional ((Grammar.oneOf fun c => c.isAlphanum || c = '-')∗ *
      Grammar.oneOf Char.isAlphanum)

/-- `\[[a-fA-F0-9:]+\]` -/
def ipv6Address : Language Char :=
  {['[']} * (Grammar.many1 (Grammar.oneOf fun c => isHexDigit c || c = ':') * {[']']})

/-- A host, and perhaps a port. -/
def domain : Language Char :=
  (Grammar.listOf domainComponent {['.']} + ipv6Address) *
    Grammar.optional ({[':']} * Grammar.many1 (Grammar.oneOf Char.isDigit))

/-- `\w` -/
def isWordChar (c : Char) : Bool := c.isAlphanum || c = '_'

/-- `\w[\w.-]{0,127}` -/
def tag : Language Char :=
  Grammar.oneOf isWordChar * Grammar.atMost 127 fun c => isWordChar c || c = '.' || c = '-'

def reference : Language Char :=
  Grammar.optional (domain * {['/']}) *
    (Grammar.listOf pathComponent {['/']} * Grammar.optional ({[':']} * tag))

theorem mem_reference {host path version : List Char} (hhost : host ∈ domain)
    (hpath : path ∈ pathComponent) (hversion : version ∈ tag) :
    host ++ '/' :: path ++ ':' :: version ∈ reference := by
  have hname : host ++ ['/'] ∈ Grammar.optional (domain * {['/']}) :=
    Grammar.mem_optional.mpr (.inr (Language.append_mem_mul hhost rfl))
  have htag : ':' :: version ∈ Grammar.optional ({[':']} * tag) :=
    Grammar.mem_optional.mpr (.inr (Language.append_mem_mul (a := [':']) rfl hversion))
  have hpaths : path ∈ Grammar.listOf pathComponent {['/']} := Grammar.mem_listOf_item hpath
  have hall := Language.append_mem_mul hname (Language.append_mem_mul hpaths htag)
  rw [List.append_assoc] at hall
  rw [List.append_assoc]
  exact hall

/-- A UUID is a tag. -/
theorem id_mem_tag (id : DeploymentId) : id.text.toList ∈ tag := by
  have hchar : ∀ c, isHexDigit c = true → isWordChar c = true := by
    intro c h
    have hall : ∀ n < 128, isHexDigit (Char.ofNat n) = true → isWordChar (Char.ofNat n) = true := by
      decide
    exact forall_ascii (P := fun c => isHexDigit c = true → isWordChar c = true) hall
      (isHexDigit_lt h) h
  have htext : ['-'].intercalate (id.text.toList.splitOn '-') = id.text.toList :=
    List.intercalate_splitOn _
  have hlength := Grammar.length_intercalate_singleton '-' (List.splitOn_ne_nil '-' id.text.toList)
  rw [htext, id.groups, ← List.length_map (f := List.length), id.groups] at hlength
  -- a character of the id is a dash or stands in a group
  have htagChars : ∀ c ∈ id.text.toList, (isWordChar c || c = '.' || c = '-') = true := by
    intro c hc
    rw [← htext] at hc
    rcases mem_intercalate hc with hc | ⟨group, hgroup, hc⟩
    · rw [List.mem_singleton.mp hc]
      decide
    · simp [hchar c (id.digits group hgroup c hc)]
  obtain ⟨group, htake, hgroup, hdigits⟩ := id.take_eight
  cases htoList : id.text.toList with
  | nil =>
    rw [htoList] at hlength
    cases hlength
  | cons c rest =>
    rw [htoList] at hlength htagChars htake
    have hc : c ∈ group := by
      rw [← htake]
      exact List.mem_cons_self
    refine ⟨[c], ⟨c, hchar c (hdigits c hc), rfl⟩, rest, ⟨?_, ?_⟩, rfl⟩
    · -- the length is that of the groups with their dashes
      simp only [List.length_cons, List.sum_cons, List.sum_nil, List.length_nil] at hlength
      omega
    · exact fun x hx => htagChars x (List.mem_cons_of_mem _ hx)

end Docker

/-! ### What the rewriting leaves -/

/-- The character becomes a dash, or is one. -/
def becomesDash (c : Char) : Bool := !isRepositoryChar c || c = '-'

/-- The rewriting of a name that does not begin with a dash, before it is cut. -/
def squeeze (s : List Char) : List Char :=
  collapseDashes ((s.map fun c => if isRepositoryChar c then c else '-').rdropWhile (· = '-'))

theorem toImageRepository_eq (appName : String) :
    toImageRepository appName =
      if (squeeze ((toLowerCase appName.toList).dropWhile becomesDash)).take 80 = [] then "app".toList
      else (squeeze ((toLowerCase appName.toList).dropWhile becomesDash)).take 80 := by
  have hdash : ((fun c => decide (c = '-')) ∘ fun c => if isRepositoryChar c then c else '-') =
      becomesDash := by
    funext c
    show decide ((if isRepositoryChar c then c else '-') = '-') = becomesDash c
    unfold becomesDash
    cases isRepositoryChar c <;> simp
  have htrim : trimDashes ((toLowerCase appName.toList).map fun c =>
        if isRepositoryChar c then c else '-') =
      (((toLowerCase appName.toList).dropWhile becomesDash).map fun c =>
        if isRepositoryChar c then c else '-').rdropWhile (· = '-') := by
    rw [← hdash, ← List.dropWhile_map]
    rfl
  unfold toImageRepository
  rw [htrim]
  rfl

/-- The last of the dropped elements stands before a list that is kept. -/
theorem rdropWhile_cons {α : Type} (p : α → Bool) (a : α) (s : List α) :
    (a :: s).rdropWhile p =
      if s.rdropWhile p = [] ∧ p a = true then [] else a :: s.rdropWhile p := by
  rcases List.eq_nil_or_concat (s.rdropWhile p) with hs | ⟨rest, last, hs⟩
  · have hall := List.rdropWhile_eq_nil_iff.mp hs
    rw [hs]
    by_cases ha : p a = true
    · rw [if_pos ⟨rfl, ha⟩]
      exact List.rdropWhile_eq_nil_iff.mpr (List.forall_mem_cons.mpr ⟨ha, hall⟩)
    · rw [if_neg fun h => ha h.2, List.rdropWhile, List.reverse_cons,
        List.dropWhile_append_of_pos (by simpa using hall), List.dropWhile_cons_of_neg ha]
      rfl
  · have hne : s.rdropWhile p ≠ [] := by simp [hs]
    have hne' : s.reverse.dropWhile p ≠ [] := fun h => hne (by rw [List.rdropWhile, h, List.reverse_nil])
    rw [if_neg fun h => hne h.1, List.rdropWhile, List.reverse_cons, List.dropWhile_append,
      if_neg (by simpa using hne'), List.reverse_append]
    rfl

theorem collapseDashes_cons {c : Char} (hc : c ≠ '-') (s : List Char) :
    collapseDashes (c :: s) = c :: collapseDashes s := by
  cases s with
  | nil => rfl
  | cons d s => rw [collapseDashes, if_neg fun h => hc h.1]

theorem collapseDashes_dash {c : Char} (hc : c ≠ '-') (s : List Char) :
    collapseDashes ('-' :: c :: s) = '-' :: collapseDashes (c :: s) := by
  rw [collapseDashes, if_neg fun h => hc h.2]

section Squeeze

variable {c : Char} {s word gap : List Char}

/-- The rewriting of the characters, without the dashes at the end. -/
def rewritten (s : List Char) : List Char :=
  (s.map fun c => if isRepositoryChar c then c else '-').rdropWhile (· = '-')

theorem squeeze_eq (s : List Char) : squeeze s = collapseDashes (rewritten s) := rfl

theorem rewritten_eq_nil_iff : rewritten s = [] ↔ ∀ c ∈ s, becomesDash c = true := by
  rw [rewritten, List.rdropWhile_eq_nil_iff, List.forall_mem_map]
  refine forall₂_congr fun c _ => ?_
  unfold becomesDash
  cases isRepositoryChar c <;> simp

theorem rewritten_cons (hc : becomesDash c = false) : rewritten (c :: s) = c :: rewritten s := by
  obtain ⟨hchar, hne⟩ : isRepositoryChar c = true ∧ c ≠ '-' := by simpa [becomesDash] using hc
  show List.rdropWhile _ ((if isRepositoryChar c then c else '-') :: _) = _
  rw [if_pos hchar, rdropWhile_cons, if_neg fun h => hne (of_decide_eq_true h.2)]
  rfl

theorem rewritten_dash (hc : becomesDash c = true) (hs : rewritten s ≠ []) :
    rewritten (c :: s) = '-' :: rewritten s := by
  have hdash : (if isRepositoryChar c then c else '-') = '-' := by
    unfold becomesDash at hc
    cases h : isRepositoryChar c <;> simp_all
  show List.rdropWhile _ ((if isRepositoryChar c then c else '-') :: _) = _
  rw [hdash, rdropWhile_cons, if_neg fun h => hs h.1]
  rfl

theorem squeeze_eq_nil_iff : squeeze s = [] ↔ ∀ c ∈ s, becomesDash c = true := by
  rw [← rewritten_eq_nil_iff, squeeze_eq, ← List.head?_eq_none_iff, head?_collapseDashes,
    List.head?_eq_none_iff]

/-- A character that stays. -/
theorem squeeze_cons (hc : becomesDash c = false) : squeeze (c :: s) = c :: squeeze s := by
  have hne : c ≠ '-' := by
    rintro rfl
    exact absurd hc (by decide)
  rw [squeeze_eq, rewritten_cons hc, collapseDashes_cons hne, squeeze_eq]

theorem squeeze_append (hword : ∀ c ∈ word, becomesDash c = false) :
    squeeze (word ++ s) = word ++ squeeze s := by
  induction word with
  | nil => rfl
  | cons c word ih =>
    obtain ⟨hc, hword⟩ := List.forall_mem_cons.mp hword
    rw [List.cons_append, squeeze_cons hc, ih hword, List.cons_append]

/-- A run of dashes before a character that stays. -/
theorem squeeze_gap (hne : gap ≠ []) (hgap : ∀ c ∈ gap, becomesDash c = true)
    (hc : becomesDash c = false) : squeeze (gap ++ c :: s) = '-' :: squeeze (c :: s) := by
  have hrewritten := rewritten_cons (s := s) hc
  have hdash : c ≠ '-' := by
    rintro rfl
    exact absurd hc (by decide)
  induction gap with
  | nil => exact absurd rfl hne
  | cons d gap ih =>
    obtain ⟨hd, hgap⟩ := List.forall_mem_cons.mp hgap
    cases gap with
    | nil =>
      rw [List.cons_append, List.nil_append, squeeze_eq, rewritten_dash hd (by simp [hrewritten]),
        hrewritten, collapseDashes_dash hdash, squeeze_eq, hrewritten]
    | cons e gap =>
      -- two dashes in a row are one
      have hstays : rewritten (gap ++ c :: s) ≠ [] := by
        rw [Ne, rewritten_eq_nil_iff]
        intro hall
        exact absurd (hall c (by simp)) (by simp [hc])
      have he := rewritten_dash (hgap e List.mem_cons_self) hstays
      rw [← ih (List.cons_ne_nil _ _) hgap, List.cons_append, List.cons_append, squeeze_eq,
        rewritten_dash hd (by simp [he]), he, collapseDashes, if_pos ⟨rfl, rfl⟩, squeeze_eq, he]

/-- What becomes a dash is a dash, or gone. -/
theorem squeeze_of_becomesDash (hc : becomesDash c = true) :
    squeeze (c :: s) = [] ∨ (squeeze (c :: s)).head? = some '-' := by
  by_cases hs : rewritten s = []
  · left
    exact squeeze_eq_nil_iff.mpr (List.forall_mem_cons.mpr ⟨hc, rewritten_eq_nil_iff.mp hs⟩)
  · right
    rw [squeeze_eq, head?_collapseDashes, rewritten_dash hc hs]
    rfl

variable {r : List Char}

/-- Only characters that stay give characters other than dashes. -/
theorem of_squeeze_append (hword : ∀ c ∈ word, c ≠ '-') (h : squeeze s = word ++ r) :
    ∃ t, s = word ++ t ∧ squeeze t = r := by
  induction word generalizing s with
  | nil => exact ⟨s, rfl, h⟩
  | cons c word ih =>
    obtain ⟨hc, htail⟩ := List.forall_mem_cons.mp hword
    cases s with
    | nil => cases h
    | cons d s =>
      cases hd : becomesDash d with
      | true =>
        rcases squeeze_of_becomesDash (s := s) hd with hnil | hhead
        · rw [hnil] at h
          cases h
        · rw [h] at hhead
          exact absurd (Option.some.inj hhead) hc
      | false =>
        rw [squeeze_cons hd, List.cons_append, List.cons.injEq] at h
        obtain ⟨rfl, h⟩ := h
        obtain ⟨t, rfl, ht⟩ := ih htail h
        exact ⟨t, rfl, ht⟩

/-- A dash stands for a run of characters that become dashes. -/
theorem of_squeeze_dash (h : squeeze s = '-' :: r) :
    ∃ gap c t, gap ≠ [] ∧ (∀ d ∈ gap, becomesDash d = true) ∧ becomesDash c = false ∧
      s = gap ++ c :: t ∧ squeeze (c :: t) = r := by
  have hsplit : s.takeWhile becomesDash ++ s.dropWhile becomesDash = s :=
    List.takeWhile_append_dropWhile
  have hgap : ∀ d ∈ s.takeWhile becomesDash, becomesDash d = true := fun d => List.mem_takeWhile_imp
  have hstays := List.head?_dropWhile_not becomesDash s
  cases hrest : s.dropWhile becomesDash with
  | nil =>
    have hall : ∀ d ∈ s, becomesDash d = true := by
      rwa [← hsplit, hrest, List.append_nil]
    rw [squeeze_eq_nil_iff.mpr hall] at h
    cases h
  | cons c t =>
    rw [hrest] at hsplit
    have hc : becomesDash c = false := by simpa [hrest] using hstays
    by_cases hne : s.takeWhile becomesDash = []
    · rw [hne, List.nil_append] at hsplit
      rw [← hsplit, squeeze_cons hc] at h
      obtain rfl := (List.cons.inj h).1
      exact absurd hc (by decide)
    · refine ⟨_, c, t, hne, hgap, hc, hsplit.symm, ?_⟩
      rw [← hsplit, squeeze_gap hne hgap hc] at h
      exact (List.cons.inj h).2

end Squeeze

/-! ### Names that spell a component -/

/-- What may stand between two words of a name: a dot, one or two underscores, or characters that
become dashes. -/
def gapPattern : Language Char :=
  {['.']} + ({['_']} + ({['_', '_']} + Grammar.many1 (Grammar.oneOf becomesDash)))

/-- Words of letters and digits. -/
def spelledComponent : Language Char := Grammar.listOf Docker.alphaNumeric gapPattern

/-- The length of a text, if a run of characters that become dashes counts as one. -/
def shownLength : List Char → ℕ
  | [] => 0
  | c :: s => (if becomesDash c && s.head?.any becomesDash then 0 else 1) + shownLength s

/-- The name, in lower case, has nothing but what becomes dashes; or, after what becomes dashes,
words with one separator each between them, up to its end or up to the cut at 80 characters. -/
def SpellsComponent (appName : String) : Prop :=
  (∀ c ∈ toLowerCase appName.toList, becomesDash c = true) ∨
    ∃ lead shown rest, toLowerCase appName.toList = lead ++ (shown ++ rest) ∧
      (∀ c ∈ lead, becomesDash c = true) ∧ shown ∈ spelledComponent ∧
      (shownLength shown ≤ 80 ∧ (∀ c ∈ rest, becomesDash c = true) ∨ shownLength shown = 80)

section Spelled

variable {c : Char} {s word gap : List Char}

theorem stays_of_isLetterOrDigit (h : isLetterOrDigit c = true) : becomesDash c = false := by
  have hne := ne_dash_of_isLetterOrDigit h
  simp [becomesDash, isRepositoryChar, isDnsChar_of_isLetterOrDigit h, hne]

theorem ne_dash_of_stays (h : becomesDash c = false) : c ≠ '-' := by
  rintro rfl
  exact absurd h (by decide)

theorem shownLength_append (hword : ∀ c ∈ word, becomesDash c = false) :
    shownLength (word ++ s) = word.length + shownLength s := by
  induction word with
  | nil => simp
  | cons c word ih =>
    obtain ⟨hc, hword⟩ := List.forall_mem_cons.mp hword
    rw [List.cons_append, shownLength, hc, ih hword, List.length_cons]
    show 1 + (word.length + shownLength s) = _
    omega

theorem shownLength_gap (hne : gap ≠ []) (hgap : ∀ c ∈ gap, becomesDash c = true)
    (hc : becomesDash c = false) : shownLength (gap ++ c :: s) = 1 + shownLength (c :: s) := by
  induction gap with
  | nil => exact absurd rfl hne
  | cons d gap ih =>
    obtain ⟨hd, hgap⟩ := List.forall_mem_cons.mp hgap
    cases gap with
    | nil => simp [shownLength, hc]
    | cons e gap =>
      have he := hgap e List.mem_cons_self
      rw [List.cons_append, shownLength, ih (List.cons_ne_nil _ _) hgap]
      simp [hd, he]

/-- A word of letters and digits stays, whatever comes after it. -/
theorem alphaNumeric_stays (h : word ∈ Docker.alphaNumeric) : ∀ c ∈ word, becomesDash c = false :=
  fun c hc => stays_of_isLetterOrDigit ((Grammar.mem_many1_oneOf.mp h).2 c hc)

theorem head_of_spelled (h : s ∈ spelledComponent) :
    ∃ c t, s = c :: t ∧ becomesDash c = false := by
  have hword : ∀ word ∈ Docker.alphaNumeric, ∀ rest, ∃ c t, word ++ rest = c :: t ∧
      becomesDash c = false := by
    intro word hword rest
    have hstays := alphaNumeric_stays hword
    cases word with
    | nil => exact absurd rfl (Grammar.mem_many1_oneOf.mp hword).1
    | cons c t => exact ⟨c, t ++ rest, rfl, hstays c List.mem_cons_self⟩
  rcases Grammar.mem_listOf.mp h with h | ⟨first, hfirst, gap, -, rest, -, rfl⟩
  · have h' := hword s h []
    rwa [List.append_nil] at h'
  · exact hword first hfirst _

/-- The separators that are no dashes. -/
def plainGaps : List (List Char) := [['.'], ['_'], ['_', '_']]

theorem plainGaps_stay : ∀ gap ∈ plainGaps, ∀ c ∈ gap, becomesDash c = false :=
  forall_mem_mem_of_all (by decide)

theorem mem_separator : gap ∈ Docker.separator ↔ gap ∈ plainGaps ∨ gap ≠ [] ∧ ∀ c ∈ gap, c = '-' := by
  have hdashes := Grammar.mem_many1_oneOf (p := fun c => decide (c = '-')) (s := gap)
  simp only [decide_eq_true_eq] at hdashes
  rw [Docker.separator, Language.mem_add, Language.mem_add, Language.mem_add, hdashes, plainGaps,
    List.mem_cons, List.mem_cons, List.mem_singleton, or_assoc, or_assoc]
  rfl

theorem mem_gapPattern : gap ∈ gapPattern ↔
    gap ∈ plainGaps ∨ gap ≠ [] ∧ ∀ c ∈ gap, becomesDash c = true := by
  rw [gapPattern, Language.mem_add, Language.mem_add, Language.mem_add, Grammar.mem_many1_oneOf,
    plainGaps, List.mem_cons, List.mem_cons, List.mem_singleton, or_assoc, or_assoc]
  rfl

/-- What is spelled is squeezed to a component, whatever comes after it. -/
theorem squeeze_spelled (h : s ∈ spelledComponent) :
    ∃ path ∈ Docker.pathComponent, path.length = shownLength s ∧
      ∀ rest, squeeze (s ++ rest) = path ++ squeeze rest := by
  refine Grammar.listOf_induction (P := fun s => ∃ path ∈ Docker.pathComponent,
    path.length = shownLength s ∧ ∀ rest, squeeze (s ++ rest) = path ++ squeeze rest) ?_ ?_ h
  · intro word hword
    have hstays := alphaNumeric_stays hword
    have hlength := shownLength_append (s := []) hstays
    rw [List.append_nil] at hlength
    exact ⟨word, Grammar.mem_listOf_item hword, hlength.symm, fun rest => squeeze_append hstays⟩
  · rintro word hword gap hgap tail htail ⟨path, hpath, hlength, hsqueeze⟩
    have hstays := alphaNumeric_stays hword
    rcases mem_gapPattern.mp hgap with hplain | ⟨hne, hdashes⟩
    · -- the separator is one of the component
      have hgap := plainGaps_stay gap hplain
      refine ⟨word ++ (gap ++ path),
        Grammar.mem_listOf_cons hword (mem_separator.mpr (.inl hplain)) hpath, ?_, fun rest => ?_⟩
      · rw [shownLength_append hstays, shownLength_append hgap, ← hlength, List.length_append,
          List.length_append]
      · simp only [List.append_assoc]
        rw [squeeze_append hstays, squeeze_append hgap, hsqueeze]
    · -- the separator becomes one dash
      obtain ⟨c, t, rfl, hc⟩ := head_of_spelled htail
      refine ⟨word ++ (['-'] ++ path),
        Grammar.mem_listOf_cons hword (mem_separator.mpr (.inr ⟨List.cons_ne_nil _ _, by simp⟩)) hpath,
        ?_, fun rest => ?_⟩
      · rw [shownLength_append hstays, shownLength_gap hne hdashes hc, ← hlength, List.length_append,
          List.length_append, List.length_singleton]
      · have hrest := hsqueeze rest
        simp only [List.append_assoc, List.cons_append, List.nil_append] at hrest ⊢
        rw [squeeze_append hstays, squeeze_gap hne hdashes hc, hrest]

/-- Where a component is squeezed from, it is spelled. -/
theorem spelled_of_squeeze {path : List Char} (h : path ∈ Docker.pathComponent) :
    ∀ s r, squeeze s = path ++ r → ∃ shown rest, s = shown ++ rest ∧ shown ∈ spelledComponent ∧
      shownLength shown = path.length ∧ squeeze rest = r := by
  refine Grammar.listOf_induction (P := fun path => ∀ s r, squeeze s = path ++ r →
    ∃ shown rest, s = shown ++ rest ∧ shown ∈ spelledComponent ∧
      shownLength shown = path.length ∧ squeeze rest = r) ?_ ?_ h
  · intro word hword s r hs
    have hstays := alphaNumeric_stays hword
    have hlength := shownLength_append (s := []) hstays
    rw [List.append_nil] at hlength
    obtain ⟨t, rfl, ht⟩ := of_squeeze_append (fun c hc => ne_dash_of_stays (hstays c hc)) hs
    exact ⟨word, t, rfl, Grammar.mem_listOf_item hword, hlength, ht⟩
  · rintro word hword gap hgap tail htail ih s r hs
    have hstays := alphaNumeric_stays hword
    rw [List.append_assoc, List.append_assoc] at hs
    obtain ⟨t, rfl, ht⟩ := of_squeeze_append (fun c hc => ne_dash_of_stays (hstays c hc)) hs
    rcases mem_separator.mp hgap with hplain | ⟨hne, hdashes⟩
    · have hgapStays := plainGaps_stay gap hplain
      obtain ⟨u, rfl, hu⟩ := of_squeeze_append (fun c hc => ne_dash_of_stays (hgapStays c hc)) ht
      obtain ⟨shown, rest, rfl, hshown, hlength, hrest⟩ := ih u r hu
      refine ⟨word ++ (gap ++ shown), rest, ?_, Grammar.mem_listOf_cons hword
        (mem_gapPattern.mpr (.inl hplain)) hshown, ?_, hrest⟩
      · simp only [List.append_assoc]
      · rw [shownLength_append hstays, shownLength_append hgapStays, hlength, List.length_append,
          List.length_append]
    · -- of the dashes there is one only, as what is left of the rest begins with no dash
      cases gap with
      | nil => exact absurd rfl hne
      | cons d gap =>
        obtain ⟨rfl, hmore⟩ := List.forall_mem_cons.mp hdashes
        obtain ⟨run, c, u, hrun, hbecomes, hc, rfl, hu⟩ := of_squeeze_dash ht
        have hgap : gap = [] := by
          cases gap with
          | nil => rfl
          | cons e gap =>
            rw [squeeze_cons hc] at hu
            obtain rfl := (List.cons.inj hu).1
            exact absurd (hmore c List.mem_cons_self) (ne_dash_of_stays hc)
        subst hgap
        obtain ⟨shown, rest, hsplit, hshown, hlength, hrest⟩ := ih (c :: u) r hu
        obtain ⟨c', shown', rfl, hc'⟩ := head_of_spelled hshown
        refine ⟨word ++ (run ++ c' :: shown'), rest, ?_, Grammar.mem_listOf_cons hword
          (mem_gapPattern.mpr (.inr ⟨hrun, hbecomes⟩)) hshown, ?_, hrest⟩
        · rw [hsplit]
          simp only [List.append_assoc]
        · rw [shownLength_append hstays, shownLength_gap hrun hbecomes hc', hlength,
            List.length_append, List.length_append, List.length_singleton]

end Spelled

/-! ### The images of an app -/

/-- The name of an image, `${registry}/${repository}:${buildId}`. -/
def imageName (registry appName : String) (buildId : DeploymentId) : String :=
  registry ++ "/" ++ String.ofList (toImageRepository appName) ++ ":" ++ buildId.text

structure ImageNamesValid (appName : String) : Prop where
  component : toImageRepository appName ∈ Docker.pathComponent
  short : (toImageRepository appName).length ≤ 80
  references : ∀ (registry : String) (buildId : DeploymentId), registry.toList ∈ Docker.domain →
    (imageName registry appName buildId).toList ∈ Docker.reference

/-- **The repository of an app is a valid one exactly if the app's name spells a component.** -/
theorem image_names_valid_iff (appName : String) :
    ImageNamesValid appName ↔ SpellsComponent appName := by
  have hsplit : (toLowerCase appName.toList).takeWhile becomesDash ++
      (toLowerCase appName.toList).dropWhile becomesDash = toLowerCase appName.toList :=
    List.takeWhile_append_dropWhile
  have hlead : ∀ c ∈ (toLowerCase appName.toList).takeWhile becomesDash, becomesDash c = true :=
    fun c => List.mem_takeWhile_imp
  constructor
  · rintro ⟨hcomponent, -, -⟩
    rw [toImageRepository_eq] at hcomponent
    split at hcomponent
    next hnil =>
      -- nothing is left, as there is nothing but what becomes dashes
      left
      have hcore : squeeze ((toLowerCase appName.toList).dropWhile becomesDash) = [] := by
        simpa using hnil
      rw [← hsplit]
      exact List.forall_mem_append.mpr ⟨hlead, squeeze_eq_nil_iff.mp hcore⟩
    next =>
      right
      obtain ⟨shown, rest, hcore, hshown, hlength, hrest⟩ := spelled_of_squeeze hcomponent _ _
        (List.take_append_drop 80 _).symm
      refine ⟨_, shown, rest, by rw [← hcore, hsplit], hlead, hshown, ?_⟩
      rw [hlength, List.length_take]
      by_cases hcut : 80 ≤ (squeeze ((toLowerCase appName.toList).dropWhile becomesDash)).length
      · exact .inr (Nat.min_eq_left hcut)
      · left
        refine ⟨Nat.min_le_left _ _, squeeze_eq_nil_iff.mp ?_⟩
        rw [hrest]
        exact List.drop_eq_nil_of_le (Nat.le_of_not_le hcut)
  · intro h
    have hshort : (toImageRepository appName).length ≤ 80 := by
      rw [toImageRepository_eq]
      split
      · decide
      · exact List.length_take_le _ _
    have hcomponent : toImageRepository appName ∈ Docker.pathComponent := by
      rw [toImageRepository_eq]
      rcases h with hall | ⟨lead, shown, rest, heq, hlead, hshown, hend⟩
      · have hcore : squeeze ((toLowerCase appName.toList).dropWhile becomesDash) = [] :=
          squeeze_eq_nil_iff.mpr fun c hc => hall c ((List.dropWhile_sublist _).mem hc)
        rw [hcore, List.take_nil, if_pos rfl]
        exact Grammar.mem_listOf_item (Grammar.mem_many1_oneOf.mpr
          ⟨by decide, forall_mem_of_all (by decide)⟩)
      · obtain ⟨path, hpath, hlength, hsqueeze⟩ := squeeze_spelled hshown
        obtain ⟨c, t, rfl, hc⟩ := head_of_spelled hshown
        have hcore : (toLowerCase appName.toList).dropWhile becomesDash = (c :: t) ++ rest := by
          rw [heq, List.dropWhile_append_of_pos hlead, List.cons_append,
            List.dropWhile_cons_of_neg (by simp [hc])]
        have htake : (squeeze ((toLowerCase appName.toList).dropWhile becomesDash)).take 80 = path := by
          rw [hcore, hsqueeze]
          rcases hend with ⟨hle, hrest⟩ | hcut
          · rw [squeeze_eq_nil_iff.mpr hrest, List.append_nil, List.take_of_length_le (hlength ▸ hle)]
          · exact List.take_left' (hlength.trans hcut)
        have hne : path ≠ [] := by
          rintro rfl
          have hpos : 0 < shownLength (c :: t) := by simp [shownLength, hc]
          rw [← hlength] at hpos
          cases hpos
        rw [htake, if_neg hne]
        exact hpath
    refine ⟨hcomponent, hshort, fun registry buildId hregistry => ?_⟩
    have hmem := Docker.mem_reference hregistry hcomponent (Docker.id_mem_tag buildId)
    have hslash : "/".toList = ['/'] := rfl
    have hcolon : ":".toList = [':'] := rfl
    simp only [imageName, String.toList_append, String.toList_ofList, hslash, hcolon,
      List.append_assoc, List.singleton_append] at hmem ⊢
    exact hmem

/-- A component ends with a letter or digit. -/
theorem getLast?_pathComponent {s : List Char} (h : s ∈ Docker.pathComponent) :
    ∃ c, s.getLast? = some c ∧ isLetterOrDigit c = true := by
  refine Grammar.listOf_induction (P := fun s => ∃ c, s.getLast? = some c ∧
    isLetterOrDigit c = true) ?_ ?_ h
  · intro word hword
    obtain ⟨hne, hall⟩ := Grammar.mem_many1_oneOf.mp hword
    exact ⟨_, List.getLast?_eq_some_getLast hne, hall _ (List.getLast_mem hne)⟩
  · rintro word - gap - rest - ⟨c, hc, hletter⟩
    refine ⟨c, ?_, hletter⟩
    rw [List.getLast?_append, List.getLast?_append, hc]
    rfl

/-- A name that ends with a dot. -/
theorem image_repository_ends_with_dot : ¬∀ appName : String, ImageNamesValid appName := by
  intro h
  obtain ⟨c, hlast, hc⟩ := getLast?_pathComponent (h "Acme Inc.").component
  have hdot : (toImageRepository "Acme Inc.").getLast? = some '.' := by decide +kernel
  rw [hdot] at hlast
  obtain rfl := Option.some.inj hlast
  exact absurd hc (by decide)

end NexCause
