/-
NexCause/ShellGrammar.lean

The part of the grammar of the POSIX shell that makes commands of tokens:
lists, and-or lists, pipelines, simple commands with redirections, and `for`.
A program with another compound command is not accepted; assignments are words
of their command.

Main results: what a known command is read from (`readCommand_simple`,
`readCommand_forEach`, `readList_next`), and that the words of a program are
among the tokens it was read from (`parse_words`).
-/
import NexCause.ShellTokens

namespace Shell

/-! ### Commands -/

structure Redirect where
  descriptor : Option Word
  operator : List Char
  target : Word
  deriving DecidableEq, Repr

inductive Command
  | simple (words : List Word) (redirects : List Redirect)
  | forEach (name : Word) (items : List Word) (body : Command)
  | pipe (first second : Command)
  | and (first second : Command)
  | or (first second : Command)
  | sequence (first second : Command)
  | background (command : Command)
  deriving DecidableEq, Repr

/-- Every word that stands in a command. -/
def Command.words : Command → List Word
  | .simple words redirects => words ++ redirects.map Redirect.target
  | .forEach name items body => name :: items ++ body.words
  | .pipe first second | .and first second | .or first second | .sequence first second =>
    first.words ++ second.words
  | .background command => command.words

/-! ### Reserved words -/

def keyword (text : List Char) : Token := .word (plainWord text)

/-- The reserved words that end a list. -/
def closers : List Token :=
  [['d', 'o', 'n', 'e'], ['d', 'o'], ['t', 'h', 'e', 'n'], ['e', 'l', 's', 'e'],
   ['e', 'l', 'i', 'f'], ['f', 'i'], ['e', 's', 'a', 'c'], ['}']].map keyword

/-- The reserved words that begin something which is not read here. -/
def openers : List Token :=
  [['i', 'f'], ['w', 'h', 'i', 'l', 'e'], ['u', 'n', 't', 'i', 'l'], ['c', 'a', 's', 'e'], ['{'],
   ['!']].map keyword

def isRedirection (operator : List Char) : Bool :=
  [['<'], ['>'], ['<', '&'], ['>', '&'], ['<', '>'], ['>', '>'], ['>', '|']].contains operator

/-! ### Simple commands -/

/-- Words and redirections, up to what is neither. -/
def readSimple (words : List Word) (redirects : List Redirect) :
    List Token → Command × List Token
  | .word w :: rest => readSimple (w :: words) redirects rest
  | .ioNumber n :: .operator o :: .word target :: rest =>
    if isRedirection o then readSimple words (⟨some n, o, target⟩ :: redirects) rest
    else (.simple words.reverse redirects.reverse, .ioNumber n :: .operator o :: .word target :: rest)
  | .operator o :: .word target :: rest =>
    if isRedirection o then readSimple words (⟨none, o, target⟩ :: redirects) rest
    else (.simple words.reverse redirects.reverse, .operator o :: .word target :: rest)
  | rest => (.simple words.reverse redirects.reverse, rest)

/-- The words up to what is none. -/
def readItems (words : List Word) : List Token → List Word × List Token
  | .word w :: rest => readItems (w :: words) rest
  | rest => (words.reverse, rest)

def skipNewlines : List Token → List Token
  | .newline :: rest => skipNewlines rest
  | rest => rest

/-- What separates two commands of a list, if anything does: whether the
first one runs in the background, and what comes next. -/
def readSeparator : List Token → Option (Bool × List Token)
  | .newline :: rest => some (false, skipNewlines rest)
  | .operator [';'] :: rest => some (false, skipNewlines rest)
  | .operator ['&'] :: rest => some (true, skipNewlines rest)
  | _ => none

/-- Expect a token. -/
def expect (token : Token) : List Token → Option (List Token)
  | next :: rest => if next = token then some rest else none
  | [] => none

/-! ### Compound commands -/

/-- Whether a list ends here. -/
def listEnds : List Token → Bool
  | [] => true
  | next :: _ => closers.contains next

mutual

/-- A simple command or a loop. -/
def readCommand : ℕ → List Token → Option (Command × List Token)
  | 0, _ => none
  | fuel + 1, tokens =>
    match tokens with
    | [] => none
    | next :: rest =>
      if next = keyword ['f', 'o', 'r'] then readFor fuel rest
      else if closers.contains next ∨ openers.contains next then none
      else
        match readSimple [] [] (next :: rest) with
        | (.simple [] [], _) => none
        | result => some result

/-- What follows a `for`. -/
def readFor : ℕ → List Token → Option (Command × List Token)
  | 0, _ => none
  | fuel + 1, tokens =>
    match tokens with
    | .word name :: rest => do
      let rest ← expect (keyword ['i', 'n']) (skipNewlines rest)
      let items := readItems [] rest
      let (_, rest) ← readSeparator items.2
      let rest ← expect (keyword ['d', 'o']) rest
      let (body, rest) ← readList fuel (skipNewlines rest)
      let rest ← expect (keyword ['d', 'o', 'n', 'e']) rest
      return (.forEach name items.1 body, rest)
    | _ => none

/-- Commands with `|` between them. -/
def readPipeline : ℕ → List Token → Option (Command × List Token)
  | 0, _ => none
  | fuel + 1, tokens => do
    let (first, rest) ← readCommand fuel tokens
    match rest with
    | .operator ['|'] :: rest =>
      let (second, rest) ← readPipeline fuel (skipNewlines rest)
      return (.pipe first second, rest)
    | rest => return (first, rest)

/-- Pipelines with `&&` and `||` between them, after the command `first`. -/
def readAndOr : ℕ → Command → List Token → Option (Command × List Token)
  | 0, _, _ => none
  | fuel + 1, first, tokens =>
    match tokens with
    | .operator ['&', '&'] :: rest => do
      let (second, rest) ← readPipeline fuel (skipNewlines rest)
      readAndOr fuel (.and first second) rest
    | .operator ['|', '|'] :: rest => do
      let (second, rest) ← readPipeline fuel (skipNewlines rest)
      readAndOr fuel (.or first second) rest
    | rest => some (first, rest)

/-- And-or lists with separators between them. -/
def readList : ℕ → List Token → Option (Command × List Token)
  | 0, _ => none
  | fuel + 1, tokens => do
    let (first, rest) ← readPipeline fuel tokens
    let (first, rest) ← readAndOr fuel first rest
    match readSeparator rest with
    | none => return (first, rest)
    | some (inBackground, rest) =>
      let first := if inBackground then .background first else first
      if listEnds rest then return (first, rest)
      else
        let (second, rest) ← readList fuel rest
        return (.sequence first second, rest)

end

/-- The program that the tokens are. -/
def parse (tokens : List Token) : Option Command := do
  let (program, rest) ← readList (4 * tokens.length + 32) (skipNewlines tokens)
  if rest = [] then some program else none

/-- The program that a text is. -/
def readProgram (text : List Char) : Option Command := lex text >>= parse

/-! ### Reading known commands -/

/-- A command whose words are the given texts and nothing else. -/
def call (words : List (List Char)) : Command := .simple (words.map plainWord) []

/-- The tokens of plain words. -/
def textTokens (words : List (List Char)) : List Token := words.map fun w => .word (plainWord w)

def Redirect.tokens (redirect : Redirect) : List Token :=
  redirect.descriptor.toList.map .ioNumber ++ [.operator redirect.operator, .word redirect.target]

/-- Whether a simple command ends here. -/
def simpleEnds : List Token → Bool
  | [] | .newline :: _ => true
  | .operator o :: _ => !isRedirection o
  | _ => false

/-- Whether a word does not begin a compound command, nor end one. -/
def isCommandName (name : List Char) : Bool :=
  keyword name ≠ keyword ['f', 'o', 'r'] && !closers.contains (keyword name) &&
    !openers.contains (keyword name)

theorem readSimple_text (words : List Word) (redirects : List Redirect) (text : List (List Char))
    (rest : List Token) :
    readSimple words redirects (textTokens text ++ rest) =
      readSimple ((text.map plainWord).reverse ++ words) redirects rest := by
  induction text generalizing words with
  | nil => rfl
  | cons w text ih =>
    show readSimple (plainWord w :: words) redirects (textTokens text ++ rest) = _
    rw [ih]
    simp

theorem readSimple_redirect (words : List Word) (redirects : List Redirect) {r : Redirect}
    (hr : isRedirection r.operator = true) (rest : List Token) :
    readSimple words redirects (r.tokens ++ rest) = readSimple words (r :: redirects) rest := by
  obtain ⟨descriptor, operator, target⟩ := r
  cases descriptor <;> exact if_pos hr

theorem readSimple_redirects (words : List Word) (redirects more : List Redirect)
    (hmore : ∀ r ∈ more, isRedirection r.operator = true) (rest : List Token) :
    readSimple words redirects (more.flatMap Redirect.tokens ++ rest) =
      readSimple words (more.reverse ++ redirects) rest := by
  induction more generalizing redirects with
  | nil => rfl
  | cons r more ih =>
    rw [List.flatMap_cons, List.append_assoc, readSimple_redirect words redirects
      (hmore r List.mem_cons_self), ih _ fun q hq => hmore q (List.mem_cons_of_mem r hq)]
    simp

theorem readSimple_end (words : List Word) (redirects : List Redirect) {rest : List Token}
    (hrest : simpleEnds rest = true) :
    readSimple words redirects rest = (.simple words.reverse redirects.reverse, rest) := by
  unfold simpleEnds at hrest
  split at hrest
  case h_4 => cases hrest
  case h_3 rest o =>
    unfold readSimple
    split <;> simp_all
  all_goals rfl

/-- **A simple command is read from its tokens.** -/
theorem readCommand_simple (fuel : ℕ) {name : List Char} (arguments : List (List Char))
    (redirects : List Redirect) {rest : List Token} (hname : isCommandName name = true)
    (hredirects : ∀ r ∈ redirects, isRedirection r.operator = true)
    (hrest : simpleEnds rest = true) :
    readCommand (fuel + 1)
        (textTokens (name :: arguments) ++ (redirects.flatMap Redirect.tokens ++ rest)) =
      some (.simple ((name :: arguments).map plainWord) redirects, rest) := by
  have hsimple := readSimple_text [] [] (name :: arguments)
    (redirects.flatMap Redirect.tokens ++ rest)
  rw [readSimple_redirects _ _ _ hredirects, readSimple_end _ _ hrest] at hsimple
  simp only [List.append_nil, List.reverse_reverse] at hsimple
  simp only [isCommandName, Bool.and_eq_true, decide_eq_true_eq, Bool.not_eq_true', ne_eq] at hname
  obtain ⟨⟨hfor, hcloser⟩, hopener⟩ := hname
  have htokens : textTokens (name :: arguments) ++ (redirects.flatMap Redirect.tokens ++ rest) =
      keyword name :: (textTokens arguments ++ (redirects.flatMap Redirect.tokens ++ rest)) := rfl
  rw [htokens] at hsimple ⊢
  have hread : ¬(closers.contains (keyword name) = true ∨ openers.contains (keyword name) = true) := by
    rw [hcloser, hopener]
    decide
  rw [readCommand, if_neg hfor, if_neg hread, hsimple]
  rfl

theorem readCommand_call (fuel : ℕ) {words : List (List Char)} {rest : List Token}
    (hname : words.head?.any isCommandName = true) (hrest : simpleEnds rest = true) :
    readCommand (fuel + 1) (textTokens words ++ rest) = some (call words, rest) := by
  cases words with
  | nil => cases hname
  | cons name arguments => exact readCommand_simple fuel arguments [] hname (by simp) hrest

/-- Whether what follows a command does not go on with it. -/
def pipelineEnds : List Token → Bool
  | .operator o :: _ => o ≠ ['|'] && o ≠ ['&', '&'] && o ≠ ['|', '|']
  | _ => true

/-- The first and-or list. -/
def readFirst (fuel : ℕ) (tokens : List Token) : Option (Command × List Token) := do
  let (first, rest) ← readPipeline fuel tokens
  readAndOr fuel first rest

section

variable {fuel : ℕ} {tokens rest next : List Token} {command first second : Command}

theorem readPipeline_command (hcommand : readCommand fuel tokens = some (command, rest))
    (hrest : ∀ next, rest ≠ .operator ['|'] :: next) :
    readPipeline (fuel + 1) tokens = some (command, rest) := by
  simp only [readPipeline, hcommand, Option.bind_eq_bind, Option.bind_some]
  rfl

theorem ne_pipe (hrest : pipelineEnds rest = true) : ∀ next, rest ≠ .operator ['|'] :: next := by
  rintro next rfl
  cases hrest

theorem readAndOr_end (hrest : pipelineEnds rest = true) :
    readAndOr (fuel + 1) first rest = some (first, rest) := by
  unfold readAndOr
  split
  · cases hrest
  · cases hrest
  · rfl

theorem readFirst_command (hcommand : readCommand fuel tokens = some (command, rest))
    (hrest : pipelineEnds rest = true) : readFirst (fuel + 1) tokens = some (command, rest) := by
  rw [readFirst, readPipeline_command hcommand (ne_pipe hrest)]
  exact readAndOr_end hrest

theorem readFirst_and
    (hfirst : readCommand (fuel + 1) tokens = some (first, .operator ['&', '&'] :: next))
    (hsecond : readCommand fuel (skipNewlines next) = some (second, rest))
    (hrest : pipelineEnds rest = true) :
    readFirst (fuel + 2) tokens = some (.and first second, rest) := by
  have hpipeline := readPipeline_command hfirst (by simp)
  have hnext := readPipeline_command hsecond (ne_pipe hrest)
  have hend : readAndOr (fuel + 1) (.and first second) rest = some (.and first second, rest) :=
    readAndOr_end hrest
  rw [readFirst, hpipeline]
  show (readPipeline (fuel + 1) (skipNewlines next) >>= fun r =>
    readAndOr (fuel + 1) (.and first r.1) r.2) = _
  rw [hnext]
  exact hend

/-- **A list goes on after a separator.** -/
theorem readList_next {inBackground : Bool}
    (hfirst : readFirst fuel tokens = some (command, rest))
    (hseparator : readSeparator rest = some (inBackground, next)) (hnext : listEnds next = false) :
    readList (fuel + 1) tokens =
      (readList fuel next).map fun second =>
        (.sequence (if inBackground then .background command else command) second.1, second.2) := by
  obtain ⟨pipeline, hpipeline, handOr⟩ := Option.bind_eq_some_iff.mp hfirst
  rw [readList, hpipeline]
  simp only [handOr, hseparator, hnext, Option.bind_eq_bind, Option.bind_some, Bool.false_eq_true,
    if_false]
  cases readList fuel next <;> rfl

/-- Unless nothing but the end of a loop follows. -/
theorem readList_closed {inBackground : Bool}
    (hfirst : readFirst fuel tokens = some (command, rest))
    (hseparator : readSeparator rest = some (inBackground, next)) (hnext : listEnds next = true) :
    readList (fuel + 1) tokens =
      some (if inBackground then .background command else command, next) := by
  obtain ⟨pipeline, hpipeline, handOr⟩ := Option.bind_eq_some_iff.mp hfirst
  rw [readList, hpipeline]
  simp only [handOr, hseparator, hnext, Option.bind_eq_bind, Option.bind_some, if_true]
  rfl

/-- It ends where no separator is. -/
theorem readList_last (hfirst : readFirst fuel tokens = some (command, rest))
    (hseparator : readSeparator rest = none) :
    readList (fuel + 1) tokens = some (command, rest) := by
  obtain ⟨pipeline, hpipeline, handOr⟩ := Option.bind_eq_some_iff.mp hfirst
  rw [readList, hpipeline]
  simp only [handOr, hseparator, Option.bind_eq_bind, Option.bind_some]
  rfl

end

theorem readItems_end (words items : List Word) (rest : List Token) :
    readItems words (items.map .word ++ .operator [';'] :: rest) =
      (words.reverse ++ items, .operator [';'] :: rest) := by
  induction items generalizing words with
  | nil => rw [List.append_nil]; rfl
  | cons item items ih =>
    rw [List.map_cons, List.cons_append, readItems, ih]
    simp

/-- **A loop is read from its header and its body.** -/
theorem readCommand_forEach {fuel : ℕ} {tokens rest : List Token} {body : Command} (name : Word)
    (items : List Word)
    (hbody : readList fuel (skipNewlines tokens) =
      some (body, keyword ['d', 'o', 'n', 'e'] :: rest)) :
    readCommand (fuel + 2) (keyword ['f', 'o', 'r'] :: .word name :: keyword ['i', 'n'] ::
        (items.map .word ++ .operator [';'] :: keyword ['d', 'o'] :: tokens)) =
      some (.forEach name items body, rest) := by
  have hin : ∀ rest, skipNewlines (keyword ['i', 'n'] :: rest) = keyword ['i', 'n'] :: rest :=
    fun _ => rfl
  have hdo : readSeparator (.operator [';'] :: keyword ['d', 'o'] :: tokens) =
      some (false, keyword ['d', 'o'] :: tokens) := rfl
  have hexpect : ∀ token rest, expect token (token :: rest) = some rest := fun _ _ => if_pos rfl
  rw [readCommand, if_pos rfl, readFor]
  simp only [hin, hexpect, readItems_end, hdo, hbody, Option.bind_eq_bind, Option.bind_some]
  rfl

/-- A line of plain words, and the ones after it. -/
theorem readList_line (fuel : ℕ) {words : List (List Char)} {next : List Token}
    (hname : words.head?.any isCommandName = true) (hnext : listEnds next = false)
    (hskip : skipNewlines next = next) :
    readList (fuel + 3) (textTokens words ++ .newline :: next) =
      (readList (fuel + 2) next).map fun second => (.sequence (call words) second.1, second.2) := by
  have hcommand : readCommand (fuel + 1) (textTokens words ++ .newline :: next) =
      some (call words, .newline :: next) := readCommand_call fuel hname rfl
  have hseparator : readSeparator (.newline :: next) = some (false, next) :=
    congrArg (fun rest => some (false, rest)) hskip
  exact readList_next (readFirst_command hcommand rfl) hseparator hnext

/-- The last line. -/
theorem readList_call (fuel : ℕ) {words : List (List Char)}
    (hname : words.head?.any isCommandName = true) :
    readList (fuel + 3) (textTokens words) = some (call words, []) := by
  have hcommand : readCommand (fuel + 1) (textTokens words ++ []) = some (call words, []) :=
    readCommand_call fuel hname rfl
  rw [List.append_nil] at hcommand
  exact readList_last (readFirst_command hcommand rfl) rfl

/-- Any fuel from 32 on is enough for what 32 is. -/
theorem parse_of_readList {tokens : List Token} {program : Command}
    (hskip : skipNewlines tokens = tokens)
    (h : ∀ fuel, readList (fuel + 32) tokens = some (program, [])) : parse tokens = some program := by
  rw [parse, hskip, h]
  rfl

/-! ### The words of a program -/

/-- The words of the command and the tokens that are left are all among `whole`. -/
structure From (whole : List Token) (result : Command × List Token) : Prop where
  words : ∀ w ∈ result.1.words, .word w ∈ whole
  rest : result.2 ⊆ whole

theorem skipNewlines_subset (tokens : List Token) : skipNewlines tokens ⊆ tokens := by
  fun_induction skipNewlines tokens with
  | case1 rest ih => exact List.Subset.trans ih (List.subset_cons_self _ _)
  | case2 rest => exact List.Subset.refl _

theorem expect_subset {token : Token} {tokens rest : List Token}
    (h : expect token tokens = some rest) : rest ⊆ tokens := by
  cases tokens with
  | nil => cases h
  | cons next tokens =>
    simp only [expect] at h
    split at h <;> cases h
    exact List.subset_cons_self _ _

theorem readSeparator_subset {tokens : List Token} {result : Bool × List Token}
    (h : readSeparator tokens = some result) : result.2 ⊆ tokens := by
  have key : ∀ (token : Token) (rest : List Token), skipNewlines rest ⊆ token :: rest :=
    fun token rest => List.Subset.trans (skipNewlines_subset rest) (List.subset_cons_self _ _)
  unfold readSeparator at h
  split at h <;> cases h
  all_goals exact key _ _

section

variable {whole : List Token}

theorem readSimple_from (words : List Word) (redirects : List Redirect) (tokens : List Token)
    (hwords : ∀ w ∈ words, .word w ∈ whole) (hredirects : ∀ r ∈ redirects, .word r.target ∈ whole)
    (htokens : tokens ⊆ whole) : From whole (readSimple words redirects tokens) := by
  have stop : ∀ (words : List Word) (redirects : List Redirect) (rest : List Token),
      (∀ w ∈ words, .word w ∈ whole) → (∀ r ∈ redirects, .word r.target ∈ whole) →
      rest ⊆ whole → From whole (.simple words.reverse redirects.reverse, rest) := by
    intro words redirects rest hwords hredirects hrest
    refine ⟨fun w hw => ?_, hrest⟩
    rcases List.mem_append.mp hw with hw | hw
    · exact hwords w (List.mem_reverse.mp hw)
    · obtain ⟨r, hr, rfl⟩ := List.mem_map.mp hw
      exact hredirects r (List.mem_reverse.mp hr)
  fun_induction readSimple words redirects tokens with
  | case1 words redirects w rest ih =>
    obtain ⟨hw, hrest⟩ := List.cons_subset.mp htokens
    exact ih (List.forall_mem_cons.mpr ⟨hw, hwords⟩) hredirects hrest
  | case2 words redirects n o target rest hop ih =>
    simp only [List.cons_subset] at htokens
    exact ih hwords (List.forall_mem_cons.mpr ⟨htokens.2.2.1, hredirects⟩) htokens.2.2.2
  | case3 words redirects n o target rest hop => exact stop _ _ _ hwords hredirects htokens
  | case4 words redirects o target rest hop ih =>
    simp only [List.cons_subset] at htokens
    exact ih hwords (List.forall_mem_cons.mpr ⟨htokens.2.1, hredirects⟩) htokens.2.2
  | case5 words redirects o target rest hop => exact stop _ _ _ hwords hredirects htokens
  | case6 words redirects rest => exact stop _ _ _ hwords hredirects htokens

theorem readItems_from (words : List Word) (tokens : List Token)
    (hwords : ∀ w ∈ words, .word w ∈ whole) (htokens : tokens ⊆ whole) :
    (∀ w ∈ (readItems words tokens).1, .word w ∈ whole) ∧ (readItems words tokens).2 ⊆ whole := by
  fun_induction readItems words tokens with
  | case1 words w rest ih =>
    obtain ⟨hw, hrest⟩ := List.cons_subset.mp htokens
    exact ih (List.forall_mem_cons.mpr ⟨hw, hwords⟩) hrest
  | case2 words rest => exact ⟨fun w hw => hwords w (List.mem_reverse.mp hw), htokens⟩

/-- Whatever is read with this fuel comes from `whole`. -/
structure ReadsFrom (whole : List Token) (fuel : ℕ) : Prop where
  command : ∀ {tokens result}, tokens ⊆ whole → readCommand fuel tokens = some result →
    From whole result
  loop : ∀ {tokens result}, tokens ⊆ whole → readFor fuel tokens = some result → From whole result
  pipeline : ∀ {tokens result}, tokens ⊆ whole → readPipeline fuel tokens = some result →
    From whole result
  andOr : ∀ {first tokens result}, From whole (first, tokens) →
    readAndOr fuel first tokens = some result → From whole result
  list : ∀ {tokens result}, tokens ⊆ whole → readList fuel tokens = some result → From whole result

theorem readsFrom_zero : ReadsFrom whole 0 := by
  constructor <;> intros <;> contradiction

variable {fuel : ℕ} (ih : ReadsFrom whole fuel)

include ih

theorem readCommand_from {tokens : List Token} {result : Command × List Token}
    (htokens : tokens ⊆ whole) (h : readCommand (fuel + 1) tokens = some result) :
    From whole result := by
  cases tokens with
  | nil => cases h
  | cons next rest =>
    have hsimple := readSimple_from [] [] (next :: rest) (by simp) (by simp) htokens
    simp only [readCommand] at h
    split at h
    next => exact ih.loop (List.cons_subset.mp htokens).2 h
    next =>
      split at h
      next => cases h
      next =>
        split at h
        next => cases h
        next => cases h; exact hsimple

theorem readFor_from {tokens : List Token} {result : Command × List Token}
    (htokens : tokens ⊆ whole) (h : readFor (fuel + 1) tokens = some result) :
    From whole result := by
  unfold readFor at h
  split at h
  next name rest =>
    obtain ⟨hname, hrest⟩ := List.cons_subset.mp htokens
    simp only [Option.bind_eq_bind, Option.bind_eq_some_iff] at h
    obtain ⟨afterIn, hin, separated, hsep, afterDo, hdo, body, hbody, afterDone, hdone, h⟩ := h
    have hafterIn := List.Subset.trans (expect_subset hin)
      (List.Subset.trans (skipNewlines_subset rest) hrest)
    obtain ⟨hitems, hafterItems⟩ := readItems_from [] afterIn (by simp) hafterIn
    have hseparated := List.Subset.trans (readSeparator_subset hsep) hafterItems
    have hafterDo := List.Subset.trans (expect_subset hdo) hseparated
    have hfrom := ih.list (List.Subset.trans (skipNewlines_subset afterDo) hafterDo) hbody
    cases h
    refine ⟨fun w hw => ?_, List.Subset.trans (expect_subset hdone) hfrom.rest⟩
    simp only [Command.words, List.mem_append, List.mem_cons] at hw
    rcases hw with (rfl | hw) | hw
    · exact hname
    · exact hitems w hw
    · exact hfrom.words w hw
  next => cases h

omit ih in
/-- Two commands, with the connective `join` between them. -/
theorem from_join {first second : Command} {rest rest' : List Token} {join : Command → Command → Command}
    (hjoin : (join first second).words = first.words ++ second.words)
    (hfirst : From whole (first, rest')) (hsecond : From whole (second, rest)) :
    From whole (join first second, rest) := by
  refine ⟨fun w hw => ?_, hsecond.rest⟩
  rcases List.mem_append.mp (hjoin ▸ hw) with hw | hw
  · exact hfirst.words w hw
  · exact hsecond.words w hw

theorem readPipeline_from {tokens : List Token} {result : Command × List Token}
    (htokens : tokens ⊆ whole) (h : readPipeline (fuel + 1) tokens = some result) :
    From whole result := by
  simp only [readPipeline, Option.bind_eq_bind, Option.bind_eq_some_iff] at h
  obtain ⟨⟨first, rest⟩, hfirst, h⟩ := h
  have hfrom := ih.command htokens hfirst
  dsimp only at h
  split at h
  next rest =>
    obtain ⟨second, hsecond, h⟩ := Option.bind_eq_some_iff.mp h
    have hnext := List.Subset.trans (skipNewlines_subset rest) (List.cons_subset.mp hfrom.rest).2
    cases h
    exact from_join rfl hfrom (ih.pipeline hnext hsecond)
  next => cases h; exact hfrom

theorem readAndOr_from {first : Command} {tokens : List Token} {result : Command × List Token}
    (hfirst : From whole (first, tokens)) (h : readAndOr (fuel + 1) first tokens = some result) :
    From whole result := by
  unfold readAndOr at h
  split at h
  case h_3 => cases h; exact hfirst
  -- The two connectives differ in the command they make.
  all_goals
    obtain ⟨second, hsecond, h⟩ := Option.bind_eq_some_iff.mp h
    have hnext := List.Subset.trans (skipNewlines_subset _) (List.cons_subset.mp hfirst.rest).2
    exact ih.andOr (from_join rfl hfirst (ih.pipeline hnext hsecond)) h

theorem readList_from {tokens : List Token} {result : Command × List Token}
    (htokens : tokens ⊆ whole) (h : readList (fuel + 1) tokens = some result) :
    From whole result := by
  simp only [readList, Option.bind_eq_bind, Option.bind_eq_some_iff] at h
  obtain ⟨pipeline, hpipeline, ⟨first, rest⟩, handOr, h⟩ := h
  have hfirst := ih.andOr (ih.pipeline htokens hpipeline) handOr
  dsimp only at h
  split at h
  next => cases h; exact hfirst
  next inBackground rest hsep =>
    have hrest : rest ⊆ whole := List.Subset.trans (readSeparator_subset hsep) hfirst.rest
    have hterm : From whole (if inBackground then .background first else first, rest) := by
      refine ⟨?_, hrest⟩
      cases inBackground <;> exact hfirst.words
    split at h
    next => cases h; exact hterm
    next =>
      obtain ⟨second, hsecond, h⟩ := Option.bind_eq_some_iff.mp h
      cases h
      exact from_join rfl hterm (ih.list hrest hsecond)

end

theorem readsFrom (whole : List Token) (fuel : ℕ) : ReadsFrom whole fuel := by
  induction fuel with
  | zero => exact readsFrom_zero
  | succ fuel ih =>
    exact ⟨readCommand_from ih, readFor_from ih, readPipeline_from ih, readAndOr_from ih,
      readList_from ih⟩

/-- **The words of a program are among the tokens it was read from.** -/
theorem parse_words {tokens : List Token} {program : Command} (h : parse tokens = some program) :
    ∀ w ∈ program.words, .word w ∈ tokens := by
  simp only [parse, Option.bind_eq_bind, Option.bind_eq_some_iff] at h
  obtain ⟨result, hresult, h⟩ := h
  have hfrom := (readsFrom tokens _).list (skipNewlines_subset tokens) hresult
  split at h <;> cases h
  exact hfrom.words

theorem call_words (words : List (List Char)) : (call words).words = words.map plainWord :=
  List.append_nil _

/-- And so their plain characters are ordinary. -/
theorem readProgram_sound {text : List Char} {program : Command}
    (h : readProgram text = some program) : ∀ w ∈ program.words, Word.Sound w := by
  obtain ⟨tokens, hlex, hparse⟩ := Option.bind_eq_some_iff.mp h
  exact fun w hw => lex_sound hlex _ (parse_words hparse w hw)

end Shell
