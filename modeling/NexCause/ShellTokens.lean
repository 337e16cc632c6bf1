/-
NexCause/ShellTokens.lean

How a POSIX shell cuts its input into tokens.

Every character of a word carries the way it is read (`Mark`): as itself, as
part of a quotation, of an expansion or of a pattern.  A word all of whose
characters are plain is the argument that the command gets.  Bodies of
here-documents are not set apart, and neither are comments within a command
substitution.

Main results: a character that is not special continues a word, plainly
(`feed_ordinary`), and no other one does (`lex_sound`).
-/
import Mathlib.Data.List.Basic

namespace Shell

/-! ### Characters -/

def isBlank (c : Char) : Bool := c = ' ' || c = '\t'

/-- The control and the redirection operators. -/
def operators : List (List Char) :=
  [['&'], ['|'], [';'], ['<'], ['>'], ['('], [')'], ['&', '&'], ['|', '|'], [';', ';'], ['<', '<'],
   ['>', '>'], ['<', '&'], ['>', '&'], ['<', '>'], ['>', '|'], ['<', '<', '-']]

/-- A text that is an operator as a whole. -/
def isOperator (text : List Char) : Bool := operators.contains text

/-- What ends a word. -/
def isDelimiter (c : Char) : Bool := c = '\n' || isBlank c || isOperator [c]

/-- The characters that quote or begin an expansion, and those of patterns. -/
def isSpecial (c : Char) : Bool := ['\\', '\'', '"', '$', '`', '*', '?', '['].contains c

/-- A character that stands for itself everywhere in a word but at its beginning. -/
def isOrdinary (c : Char) : Bool := !isDelimiter c && !isSpecial c && c != '\x00'

/-- A character that stands for itself at the beginning of a word. -/
def beginsWord (c : Char) : Bool := isOrdinary c && c != '#' && c != '~'

/-- What a name of a variable can start with. -/
def isNameStart (c : Char) : Bool := c.isAlpha || c = '_'

def isNameChar (c : Char) : Bool := c.isAlphanum || c = '_'

/-- `$@`, `$*`, … -/
def isSpecialParameter (c : Char) : Bool := c.isDigit || ['@', '*', '#', '?', '-', '$', '!'].contains c

/-! ### Tokens -/

/-- How the shell reads a character of a word. -/
inductive Mark
  | plain
  | quoted
  | expanded
  | pattern
  | foreign
  deriving DecidableEq, Repr

abbrev Piece := Char × Mark

/-- A word, character by character. -/
abbrev Word := List Piece

/-- The word that is the given text and nothing else. -/
def plainWord (text : List Char) : Word := text.map (·, .plain)

inductive Token
  | word (pieces : Word)
  | operator (text : List Char)
  | ioNumber (digits : Word)
  | newline
  deriving DecidableEq, Repr

/-! ### Quotations and expansions -/

/-- What encloses a character. -/
inductive Context
  | single
  | double
  | backquote
  | paren
  | brace
  deriving DecidableEq, Repr

def quote (contexts : List Context) (c : Char) : List Context :=
  if c = '\'' then .single :: contexts
  else if c = '"' then .double :: contexts
  else if c = '`' then .backquote :: contexts
  else contexts

/-- The contexts after a character. -/
def enter (contexts : List Context) (c : Char) : List Context :=
  match contexts with
  | [] => quote [] c
  | .single :: outer => if c = '\'' then outer else contexts
  | .double :: outer =>
    if c = '"' then outer else if c = '`' then .backquote :: contexts else contexts
  | .backquote :: outer => if c = '`' then outer else contexts
  | .paren :: outer =>
    if c = ')' then outer else if c = '(' then .paren :: contexts else quote contexts c
  | .brace :: outer => if c = '}' then outer else quote contexts c

/-- These are expansions; the other two are quotations. -/
def Context.expands : Context → Bool
  | .single | .double => false
  | .backquote | .paren | .brace => true

/-- The mark of a character that stands in contexts. -/
def enclosed (contexts : List Context) : Mark :=
  if contexts.any Context.expands then .expanded else .quoted

/-- The mark of a character that stands in none, `first` at the beginning of a word. -/
def bare (first : Bool) (c : Char) : Mark :=
  if first && c = '~' then .expanded
  else if ['*', '?', '['].contains c then .pattern
  else if c = '\x00' then .foreign
  else .plain

/-! ### Reading a word -/

/-- What is left of a `$`. -/
inductive Pending
  | none
  | dollar
  | name
  deriving DecidableEq, Repr

inductive Current
  | between
  | comment
  | operator (text : List Char)
  | word (pieces : Word) (contexts : List Context) (pending : Pending)
  deriving DecidableEq, Repr

/-- Whether a `$` begins an expansion here. -/
def dollarExpands : List Context → Bool
  | .single :: _ | .backquote :: _ => false
  | _ => true

/-- A further character of a word. -/
def inWord (pieces : Word) (contexts : List Context) (c : Char) : Current :=
  if c = '$' ∧ dollarExpands contexts then .word ((c, .expanded) :: pieces) contexts .dollar
  else
    let next := enter contexts c
    let mark :=
      if contexts = [] ∧ next = [] then bare pieces.isEmpty c else enclosed (contexts ++ next)
    .word ((c, mark) :: pieces) next .none

/-- What follows the `$` of an expansion, if `c` does. -/
def expansion (pieces : Word) (contexts : List Context) (pending : Pending) (c : Char) :
    Option Current :=
  match pending with
  | .none => none
  | .dollar =>
    if c = '(' then some (.word ((c, .expanded) :: pieces) (.paren :: contexts) .none)
    else if c = '{' then some (.word ((c, .expanded) :: pieces) (.brace :: contexts) .none)
    else if isNameStart c then some (.word ((c, .expanded) :: pieces) contexts .name)
    else if isSpecialParameter c then some (.word ((c, .expanded) :: pieces) contexts .none)
    else none
  | .name =>
    if isNameChar c then some (.word ((c, .expanded) :: pieces) contexts .name) else none

/-! ### Reading the input -/

/-- The tokens that were read, the last one first, and what is being read;
`escaped` after a backslash. -/
structure LexState where
  tokens : List Token
  current : Current
  escaped : Bool
  deriving DecidableEq, Repr

/-- A character where no token is being read. -/
def start (tokens : List Token) (c : Char) : LexState :=
  if c = '\n' then ⟨.newline :: tokens, .between, false⟩
  else if isBlank c then ⟨tokens, .between, false⟩
  else if c = '#' then ⟨tokens, .comment, false⟩
  else if isOperator [c] then ⟨tokens, .operator [c], false⟩
  else ⟨tokens, inWord [] [] c, false⟩

/-- The token of a word that `c` delimits: digits before a redirection are
the number of a file descriptor. -/
def delimited (pieces : Word) (c : Char) : Token :=
  if (c = '<' || c = '>') && pieces.all fun piece => piece.1.isDigit && piece.2 = .plain then
    .ioNumber pieces.reverse
  else .word pieces.reverse

/-- Whether a backslash escapes what follows it. -/
def escapes : Current → Bool
  | .comment => false
  | .word _ (.single :: _) _ => false
  | _ => true

/-- A character after a backslash. -/
def escape (tokens : List Token) (current : Current) (c : Char) : LexState :=
  match current with
  | .between | .comment => ⟨tokens, .word [(c, .quoted), ('\\', .quoted)] [] .none, false⟩
  | .operator text =>
    ⟨.operator text :: tokens, .word [(c, .quoted), ('\\', .quoted)] [] .none, false⟩
  | .word pieces contexts _ =>
    ⟨tokens,
      .word ((c, enclosed contexts) :: ('\\', enclosed contexts) :: pieces) contexts .none, false⟩

/-- A character that is neither escaped nor escapes. -/
def read (tokens : List Token) (current : Current) (c : Char) : LexState :=
  match current with
  | .between => start tokens c
  | .comment => if c = '\n' then start tokens c else ⟨tokens, .comment, false⟩
  | .operator text =>
    if isOperator (text ++ [c]) then ⟨tokens, .operator (text ++ [c]), false⟩
    else start (.operator text :: tokens) c
  | .word pieces contexts pending =>
    match expansion pieces contexts pending c with
    | some current => ⟨tokens, current, false⟩
    | none =>
      if contexts = [] ∧ isDelimiter c then start (delimited pieces c :: tokens) c
      else ⟨tokens, inWord pieces contexts c, false⟩

/-- The next character. -/
def feed (s : LexState) (c : Char) : LexState :=
  if s.escaped then
    -- A line that ends in a backslash goes on in the next one.
    if c = '\n' then { s with escaped := false } else escape s.tokens s.current c
  else if c = '\\' ∧ escapes s.current then { s with escaped := true }
  else read s.tokens s.current c

/-- A text, character by character. -/
def feedAll (s : LexState) (text : List Char) : LexState := text.foldl feed s

/-- The tokens at the end of the input, unless a quotation is left open. -/
def finish (s : LexState) : Option (List Token) :=
  if s.escaped then none
  else
    match s.current with
    | .between | .comment => some s.tokens.reverse
    | .operator text => some (.operator text :: s.tokens).reverse
    | .word pieces [] _ => some (.word pieces.reverse :: s.tokens).reverse
    | .word _ (_ :: _) _ => none

/-- The tokens of a text; none if a quote or an expansion is left open. -/
def lex (text : List Char) : Option (List Token) := finish (feedAll ⟨[], .between, false⟩ text)

/-! ### Plain text -/

/-- An ordinary character is none of those with a meaning. -/
theorem ordinary_ne {c d : Char} (hc : isOrdinary c = true) (hd : isOrdinary d = false) : c ≠ d := by
  rintro rfl
  rw [hc] at hd
  contradiction

theorem ordinary_delimiter {c : Char} (hc : isOrdinary c = true) : isDelimiter c = false := by
  simp only [isOrdinary, Bool.and_eq_true, Bool.not_eq_true'] at hc
  exact hc.1.1

theorem beginsWord_ordinary {c : Char} (hc : beginsWord c = true) : isOrdinary c = true := by
  simp only [beginsWord, Bool.and_eq_true] at hc
  exact hc.1.1

/-- An ordinary character opens no quotation. -/
theorem enter_ordinary {c : Char} (hc : isOrdinary c = true) : enter [] c = [] := by
  show quote [] c = []
  rw [quote, if_neg (ordinary_ne hc (by decide)), if_neg (ordinary_ne hc (by decide)),
    if_neg (ordinary_ne hc (by decide))]

/-- An ordinary character stands for itself, but for a tilde in front. -/
theorem bare_ordinary {first : Bool} {c : Char} (hc : isOrdinary c = true)
    (hfirst : first = true → c ≠ '~') : bare first c = .plain := by
  have htilde : ¬(first && decide (c = '~')) = true := by
    simpa using hfirst
  have hpattern : ¬['*', '?', '['].contains c = true := by
    simpa using ⟨ordinary_ne hc (d := '*') (by decide), ordinary_ne hc (d := '?') (by decide),
      ordinary_ne hc (d := '[') (by decide)⟩
  rw [bare, if_neg htilde, if_neg hpattern, if_neg (ordinary_ne hc (by decide))]

/-- An ordinary character is added to its word. -/
theorem inWord_ordinary {pieces : Word} {c : Char} (hc : isOrdinary c = true)
    (hfirst : pieces = [] → c ≠ '~') : inWord pieces [] c = .word ((c, .plain) :: pieces) [] .none := by
  have hdollar : ¬(c = '$' ∧ dollarExpands [] = true) := fun h => ordinary_ne hc (by decide) h.1
  have hbare : bare pieces.isEmpty c = .plain :=
    bare_ordinary hc fun hempty => hfirst (List.isEmpty_iff.mp hempty)
  rw [inWord, if_neg hdollar]
  simp [enter_ordinary hc, hbare]

/-- A character that is no backslash is read as it is. -/
theorem feed_read {tokens : List Token} {current : Current} {c : Char} (hc : c ≠ '\\') :
    feed ⟨tokens, current, false⟩ c = read tokens current c := by
  simp [feed, hc]

/-- **An ordinary character continues a word, plainly.** -/
theorem feed_ordinary (tokens : List Token) (piece : Piece) (pieces : Word) {c : Char}
    (hc : isOrdinary c = true) :
    feed ⟨tokens, .word (piece :: pieces) [] .none, false⟩ c =
      ⟨tokens, .word ((c, .plain) :: piece :: pieces) [] .none, false⟩ := by
  rw [feed_read (ordinary_ne hc (by decide))]
  simp only [read, expansion, ordinary_delimiter hc, Bool.false_eq_true, and_false, if_false]
  rw [inWord_ordinary hc (by simp)]

/-- And one that may begin a word does so. -/
theorem feed_begins (tokens : List Token) {c : Char} (hc : beginsWord c = true) :
    feed ⟨tokens, .between, false⟩ c = ⟨tokens, .word [(c, .plain)] [] .none, false⟩ := by
  have hord := beginsWord_ordinary hc
  have hdelim := ordinary_delimiter hord
  simp only [beginsWord, Bool.and_eq_true, bne_iff_ne, ne_eq] at hc
  simp only [isDelimiter, Bool.or_eq_false_iff, decide_eq_false_iff_not] at hdelim
  obtain ⟨⟨hnewline, hblank⟩, hop⟩ := hdelim
  rw [feed_read (ordinary_ne hord (by decide))]
  simp only [read, start, if_neg hnewline, hblank, hop, Bool.false_eq_true, if_false, if_neg hc.1.2]
  rw [inWord_ordinary hord fun _ => hc.2]

/-- A run of ordinary characters. -/
theorem feedAll_ordinary (tokens : List Token) {text : List Char}
    (htext : ∀ c ∈ text, isOrdinary c = true) (piece : Piece) (pieces : Word) :
    feedAll ⟨tokens, .word (piece :: pieces) [] .none, false⟩ text =
      ⟨tokens, .word ((plainWord text).reverse ++ piece :: pieces) [] .none, false⟩ := by
  induction text generalizing piece pieces with
  | nil => rfl
  | cons c text ih =>
    have hrest := ih (fun d hd => htext d (List.mem_cons_of_mem c hd)) (c, .plain) (piece :: pieces)
    show feedAll (feed _ c) text = _
    rw [feed_ordinary tokens piece pieces (htext c List.mem_cons_self), hrest]
    simp [plainWord]

/-- A text is fed part by part. -/
theorem feedAll_append (s : LexState) (first second : List Char) :
    feedAll s (first ++ second) = feedAll (feedAll s first) second :=
  List.foldl_append

/-- A word ends at a delimiter that begins no redirection. -/
theorem feed_delimiter (tokens : List Token) (pieces : Word) {c : Char}
    (hc : isDelimiter c = true) (hless : c ≠ '<') (hgreater : c ≠ '>') (hback : c ≠ '\\') :
    feed ⟨tokens, .word pieces [] .none, false⟩ c = start (.word pieces.reverse :: tokens) c := by
  rw [feed_read hback]
  simp [read, expansion, hc, delimited, hless, hgreater]

/-! ### What was read before -/

/-- The same, after some tokens. -/
def LexState.after (s : LexState) (before : List Token) : LexState :=
  { s with tokens := s.tokens ++ before }

theorem start_after (tokens before : List Token) (c : Char) :
    start (tokens ++ before) c = (start tokens c).after before := by
  simp only [start, LexState.after]
  split_ifs <;> rfl

theorem escape_after (tokens before : List Token) (current : Current) (c : Char) :
    escape (tokens ++ before) current c = (escape tokens current c).after before := by
  cases current <;> rfl

/-- What was read before a character does not matter to it. -/
theorem read_after (tokens before : List Token) (current : Current) (c : Char) :
    read (tokens ++ before) current c = (read tokens current c).after before := by
  cases current with
  | between => exact start_after tokens before c
  | comment =>
    by_cases hc : c = '\n'
    · simpa [read, hc] using start_after tokens before '\n'
    · simp [read, LexState.after, hc]
  | operator text =>
    by_cases hop : isOperator (text ++ [c]) = true
    · simp [read, LexState.after, hop]
    · simpa [read, hop] using start_after (.operator text :: tokens) before c
  | word pieces contexts pending =>
    simp only [read]
    cases expansion pieces contexts pending c with
    | some current => rfl
    | none =>
      by_cases hend : contexts = [] ∧ isDelimiter c = true
      · simpa [hend] using start_after (delimited pieces c :: tokens) before c
      · simp only [if_neg hend, LexState.after]

/-- **What was read before makes no difference.** -/
theorem feed_after (s : LexState) (before : List Token) (c : Char) :
    feed (s.after before) c = (feed s c).after before := by
  obtain ⟨tokens, current, escaped⟩ := s
  cases escaped with
  | true =>
    by_cases hc : c = '\n'
    · simp [feed, LexState.after, hc]
    · simpa [feed, LexState.after, hc] using escape_after tokens before current c
  | false =>
    by_cases hback : c = '\\' ∧ escapes current = true
    · simp [feed, LexState.after, hback]
    · simpa [feed, LexState.after, hback] using read_after tokens before current c

/-- Nor does it to a text. -/
theorem feedAll_after (s : LexState) (before : List Token) (text : List Char) :
    feedAll (s.after before) text = (feedAll s text).after before := by
  induction text generalizing s with
  | nil => rfl
  | cons c text ih =>
    show feedAll (feed (s.after before) c) text = _
    rw [feed_after, ih]
    rfl

/-! ### Splicing -/

/-- A text that is a word of its own: every character stands for itself. -/
def isArgument : List Char → Bool
  | [] => false
  | c :: text => beginsWord c && text.all isOrdinary

/-- An argument leaves the shell inside one plain word. -/
theorem feedAll_argument (before : List Token) {text : List Char} (htext : isArgument text = true) :
    feedAll ⟨before, .between, false⟩ text =
      ⟨before, .word (plainWord text).reverse [] .none, false⟩ := by
  cases text with
  | nil => cases htext
  | cons c text =>
    simp only [isArgument, Bool.and_eq_true, List.all_eq_true] at htext
    show feedAll (feed _ c) text = _
    rw [feed_begins before htext.1, feedAll_ordinary before htext.2]
    simp [plainWord]

/-- A text goes on a word. -/
theorem feedAll_word (before : List Token) {head text : List Char} (hhead : head ≠ [])
    (htext : ∀ c ∈ text, isOrdinary c = true) :
    feedAll ⟨before, .word (plainWord head).reverse [] .none, false⟩ text =
      ⟨before, .word (plainWord (head ++ text)).reverse [] .none, false⟩ := by
  obtain ⟨piece, pieces, hpieces⟩ := List.exists_cons_of_ne_nil
    (show (plainWord head).reverse ≠ [] by simpa [plainWord] using hhead)
  rw [hpieces, feedAll_ordinary before htext, ← hpieces]
  simp [plainWord]

/-- The end of the text ends the word. -/
theorem finish_word (before : List Token) (text : List Char) :
    finish ⟨before, .word (plainWord text).reverse [] .none, false⟩ =
      some (before.reverse ++ [.word (plainWord text)]) := by
  simp [finish]

/-- **A text between two pieces of the input whose tokens are known.** -/
theorem feedAll_splice (before : List Token) {head text fixed : List Char} {s : LexState}
    (hhead : head ≠ []) (htext : ∀ c ∈ text, isOrdinary c = true)
    (hfixed : feedAll ⟨[], .between, false⟩ fixed = s) (rest : List Char) :
    feedAll ⟨before, .word (plainWord head).reverse [] .none, false⟩
        (text ++ ' ' :: (fixed ++ rest)) =
      feedAll (s.after (.word (plainWord (head ++ text)) :: before)) rest := by
  have hblank : feed ⟨before, .word (plainWord (head ++ text)).reverse [] .none, false⟩ ' ' =
      LexState.after ⟨[], .between, false⟩ (.word (plainWord (head ++ text)) :: before) := by
    rw [feed_delimiter before _ (by decide) (by decide) (by decide) (by decide),
      List.reverse_reverse]
    rfl
  rw [feedAll_append, feedAll_word before hhead htext]
  show feedAll (feed _ ' ') (fixed ++ rest) = _
  rw [hblank, feedAll_append, feedAll_after, hfixed]

/-- The same of a text that is a word of its own. -/
theorem feedAll_own (before : List Token) {text fixed : List Char} {s : LexState}
    (htext : isArgument text = true) (hfixed : feedAll ⟨[], .between, false⟩ fixed = s)
    (rest : List Char) :
    feedAll ⟨before, .between, false⟩ (text ++ ' ' :: (fixed ++ rest)) =
      feedAll (s.after (.word (plainWord text) :: before)) rest := by
  have hne : text ≠ [] := by
    rintro rfl
    cases htext
  have hsplice := feedAll_splice before hne (List.forall_mem_nil _) hfixed rest
  rw [List.append_nil, List.nil_append] at hsplice
  rw [feedAll_append, feedAll_argument before htext, hsplice]

/-! ### Plain characters are ordinary -/

/-- A word whose plain characters stand for themselves. -/
structure Word.Sound (w : Word) : Prop where
  nonempty : w ≠ []
  ordinary : ∀ piece ∈ w, piece.2 = .plain → isOrdinary piece.1 = true
  begins : ∀ c, w.head? = some (c, .plain) → beginsWord c = true

/-- A token whose plain characters are ordinary. -/
def Token.Sound : Token → Prop
  | .word w => Word.Sound w
  | _ => True

def Current.Sound : Current → Prop
  | .word pieces _ _ => Word.Sound pieces.reverse
  | _ => True

structure LexState.Sound (s : LexState) : Prop where
  tokens : ∀ token ∈ s.tokens, token.Sound
  current : s.current.Sound

theorem Word.Sound.single {c : Char} {mark : Mark} (hc : mark = .plain → beginsWord c = true) :
    Word.Sound [(c, mark)] where
  nonempty := List.cons_ne_nil _ _
  ordinary := by
    intro piece hpiece hplain
    cases List.mem_singleton.mp hpiece
    exact beginsWord_ordinary (hc hplain)
  begins := by
    intro d hd
    obtain ⟨rfl, rfl⟩ : c = d ∧ mark = .plain := by simpa using hd
    exact hc rfl

/-- A sound word stays so with an ordinary character, or a quoted one. -/
theorem Word.Sound.push {w : Word} (hw : Word.Sound w) {c : Char} {mark : Mark}
    (hc : mark = .plain → isOrdinary c = true) : Word.Sound (w ++ [(c, mark)]) where
  nonempty := by simp
  ordinary := by
    intro piece hpiece hplain
    rcases List.mem_append.mp hpiece with hpiece | hpiece
    · exact hw.ordinary piece hpiece hplain
    · cases List.mem_singleton.mp hpiece
      exact hc hplain
  begins := by
    intro d hd
    rw [List.head?_append_of_ne_nil w hw.nonempty] at hd
    exact hw.begins d hd

theorem ordinary_of_sound {text : List Char} (h : Word.Sound (plainWord text)) :
    ∀ c ∈ text, isOrdinary c = true :=
  fun c hc => h.ordinary (c, .plain) (List.mem_map_of_mem hc) rfl

/-- A sound word of plain characters only is an argument. -/
theorem isArgument_of_sound {text : List Char} (h : Word.Sound (plainWord text)) :
    isArgument text = true := by
  cases text with
  | nil => exact absurd rfl h.nonempty
  | cons c text =>
    simp only [isArgument, Bool.and_eq_true, List.all_eq_true]
    exact ⟨h.begins c rfl, fun d hd => ordinary_of_sound h d (List.mem_cons_of_mem c hd)⟩

theorem LexState.Sound.tokensCons {tokens : List Token} {token : Token} (ht : token.Sound)
    (hs : ∀ t ∈ tokens, t.Sound) : ∀ t ∈ token :: tokens, t.Sound := by
  simpa using ⟨ht, hs⟩

theorem enclosed_ne_plain (contexts : List Context) : enclosed contexts ≠ .plain := by
  rw [enclosed]
  split <;> simp

/-- What is left plain outside of quotations is ordinary. -/
theorem bare_plain {first : Bool} {c : Char} (hbare : bare first c = .plain)
    (hquote : enter [] c = []) (hdelim : isDelimiter c = false) (hback : c ≠ '\\')
    (hdollar : c ≠ '$') : isOrdinary c = true ∧ (first = true → c ≠ '~') := by
  have hquotes : c ≠ '\'' ∧ c ≠ '"' ∧ c ≠ '`' := by
    refine ⟨?_, ?_, ?_⟩ <;> rintro rfl <;> contradiction
  simp only [bare] at hbare
  split_ifs at hbare with htilde hpattern hnul
  have hspecial : isSpecial c = false := by
    simpa [isSpecial, hquotes, hback, hdollar] using hpattern
  refine ⟨?_, by simpa using htilde⟩
  simp [isOrdinary, hdelim, hspecial, hnul]

/-- A character inside a word leaves a sound state. -/
theorem inWord_sound {pieces : Word} {contexts : List Context} {c : Char}
    (hback : contexts = [] → c ≠ '\\') (hdelim : contexts = [] → isDelimiter c = false)
    (hpieces : pieces = [] ∧ c ≠ '#' ∨ Word.Sound pieces.reverse) :
    (inWord pieces contexts c).Sound := by
  have key : ∀ mark, (mark = .plain → isOrdinary c = true ∧ (pieces.isEmpty = true → c ≠ '~')) →
      Word.Sound ((c, mark) :: pieces).reverse := by
    intro mark hmark
    rw [List.reverse_cons]
    rcases hpieces with ⟨rfl, hhash⟩ | hpieces
    · refine Word.Sound.single fun hplain => ?_
      obtain ⟨hord, htilde⟩ := hmark hplain
      simp [beginsWord, hord, hhash, htilde rfl]
    · exact hpieces.push fun hplain => (hmark hplain).1
  rw [inWord]
  split
  next => exact key .expanded (fun h => by contradiction)
  next hdollar =>
    refine key _ fun hplain => ?_
    split at hplain
    next hnone =>
      obtain ⟨rfl, hnext⟩ := hnone
      exact bare_plain hplain hnext (hdelim rfl) (hback rfl) fun h => hdollar ⟨h, rfl⟩
    next => exact absurd hplain (enclosed_ne_plain _)

/-- So does one that may continue an expansion, -/
theorem expansion_sound {pieces : Word} {contexts : List Context} {pending : Pending} {c : Char}
    {current : Current} (h : expansion pieces contexts pending c = some current)
    (hpieces : Word.Sound pieces.reverse) : current.Sound := by
  have key : ∀ contexts pending, Current.Sound (.word ((c, .expanded) :: pieces) contexts pending) := by
    intro contexts pending
    show Word.Sound (List.reverse _)
    rw [List.reverse_cons]
    exact hpieces.push fun h => by contradiction
  cases pending with
  | none => cases h
  | dollar =>
    simp only [expansion] at h
    split_ifs at h <;> cases h <;> exact key _ _
  | name =>
    simp only [expansion] at h
    split_ifs at h
    cases h
    exact key _ _

/-- one that starts a token, -/
theorem start_sound {tokens : List Token} {c : Char} (htokens : ∀ t ∈ tokens, t.Sound)
    (hback : c ≠ '\\') : (start tokens c).Sound := by
  rw [start]
  split_ifs with hnewline hblank hhash hop
  · exact ⟨LexState.Sound.tokensCons trivial htokens, trivial⟩
  · exact ⟨htokens, trivial⟩
  · exact ⟨htokens, trivial⟩
  · exact ⟨htokens, trivial⟩
  · refine ⟨htokens, inWord_sound (fun _ => hback) (fun _ => ?_) (.inl ⟨rfl, hhash⟩)⟩
    simp [isDelimiter, hnewline, hblank, hop]

/-- one that ends a word, -/
theorem delimited_sound {pieces : Word} (hpieces : Word.Sound pieces.reverse) (c : Char) :
    (delimited pieces c).Sound := by
  rw [delimited]
  split
  next => exact trivial
  next => exact hpieces

/-- one behind a backslash, -/
theorem escape_sound {tokens : List Token} {current : Current} {c : Char}
    (htokens : ∀ t ∈ tokens, t.Sound) (hcurrent : current.Sound) :
    (escape tokens current c).Sound := by
  have hfresh : Word.Sound [('\\', .quoted), (c, .quoted)] :=
    (Word.Sound.single (fun h => by contradiction)).push fun h => by contradiction
  cases current with
  | between => exact ⟨htokens, hfresh⟩
  | comment => exact ⟨htokens, hfresh⟩
  | operator text => exact ⟨LexState.Sound.tokensCons trivial htokens, hfresh⟩
  | word pieces contexts pending =>
    refine ⟨htokens, ?_⟩
    show Word.Sound (List.reverse _)
    rw [List.reverse_cons, List.reverse_cons]
    have hnot : enclosed contexts = .plain → isOrdinary '\\' = true := fun h =>
      absurd h (enclosed_ne_plain contexts)
    exact (Word.Sound.push hcurrent hnot).push fun h => absurd h (enclosed_ne_plain contexts)

/-- and so any that is read. -/
theorem read_sound {tokens : List Token} {current : Current} {c : Char}
    (htokens : ∀ t ∈ tokens, t.Sound) (hcurrent : current.Sound)
    (hback : ¬(c = '\\' ∧ escapes current = true)) : (read tokens current c).Sound := by
  cases current with
  | between => exact start_sound htokens fun h => hback ⟨h, rfl⟩
  | comment =>
    simp only [read]
    split
    next hc => exact start_sound htokens (hc ▸ by decide)
    next => exact ⟨htokens, trivial⟩
  | operator text =>
    simp only [read]
    split
    next => exact ⟨htokens, trivial⟩
    next => exact start_sound (LexState.Sound.tokensCons trivial htokens) fun h => hback ⟨h, rfl⟩
  | word pieces contexts pending =>
    have hbare : contexts = [] → c ≠ '\\' := by
      rintro rfl h
      exact hback ⟨h, rfl⟩
    simp only [read]
    split
    next current hexp => exact ⟨htokens, expansion_sound hexp hcurrent⟩
    next =>
      split
      next hend =>
        exact start_sound (LexState.Sound.tokensCons (delimited_sound hcurrent c) htokens)
          (hbare hend.1)
      next hend =>
        refine ⟨htokens, inWord_sound hbare (fun h => ?_) (.inr hcurrent)⟩
        simpa [h] using hend

/-- One character. -/
theorem feed_sound {s : LexState} (hs : s.Sound) (c : Char) : (feed s c).Sound := by
  rw [feed]
  split
  next =>
    split
    next => exact ⟨hs.tokens, hs.current⟩
    next => exact escape_sound hs.tokens hs.current
  next =>
    split
    next => exact ⟨hs.tokens, hs.current⟩
    next hback => exact read_sound hs.tokens hs.current hback

/-- The whole input. -/
theorem feedAll_sound {s : LexState} (hs : s.Sound) (text : List Char) : (feedAll s text).Sound := by
  induction text generalizing s with
  | nil => exact hs
  | cons c text ih => exact ih (feed_sound hs c)

/-- The tokens of a sound state are sound. -/
theorem finish_sound {s : LexState} (hs : s.Sound) {tokens : List Token}
    (h : finish s = some tokens) : ∀ token ∈ tokens, token.Sound := by
  obtain ⟨read, current, escaped⟩ := s
  obtain ⟨htokens, hcurrent⟩ := hs
  simp only [finish] at h
  split at h
  next => cases h
  next =>
    have hall : ∀ token, token.Sound → ∀ t ∈ (token :: read).reverse, t.Sound := by
      intro token htoken t ht
      exact LexState.Sound.tokensCons htoken htokens t (List.mem_reverse.mp ht)
    cases current with
    | between | comment =>
      cases h
      exact fun t ht => htokens t (List.mem_reverse.mp ht)
    | operator text =>
      cases h
      exact hall _ trivial
    | word pieces contexts pending =>
      cases contexts with
      | nil =>
        cases h
        exact hall _ hcurrent
      | cons context contexts => cases h

/-- **The plain characters of every word are ordinary.** -/
theorem lex_sound {text : List Char} {tokens : List Token} (h : lex text = some tokens) :
    ∀ token ∈ tokens, token.Sound := by
  have hinitial : LexState.Sound ⟨[], .between, false⟩ := ⟨by simp, trivial⟩
  exact finish_sound (feedAll_sound hinitial text) h

end Shell
