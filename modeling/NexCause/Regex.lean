/-
NexCause/Regex.lean

Regular expressions as a backtracking matcher reads them: an expression gives,
for a text, all that can be left of it after a match, in the order in which
the matcher tries them.  The first one is the match.

Repetition is repetition of a class of characters, longest first, which keeps
every definition structural.  A `Pattern` matches its captured part and then
the rest; `replaceAll` puts, for every match from left to right, the captured
part and a mark in its place, and goes on behind the match.
-/
import Mathlib.Data.List.Basic

/-- A regular expression. -/
inductive Regex
  | empty
  | char (p : Char → Bool)
  | seq (r s : Regex)
  | alt (r s : Regex)
  | many (p : Char → Bool)

namespace Regex

/-- What is left after characters of a class, the longest run first. -/
def manyRests (p : Char → Bool) : List Char → List (List Char)
  | [] => [[]]
  | c :: cs => if p c then manyRests p cs ++ [c :: cs] else [c :: cs]

/-- What is left of a text after a match of the expression, in the order in
which the matcher tries them. -/
def rests : Regex → List Char → List (List Char)
  | empty, cs => [cs]
  | char _, [] => []
  | char p, c :: cs => if p c then [cs] else []
  | seq r s, cs => (r.rests cs).flatMap s.rests
  | alt r s, cs => r.rests cs ++ s.rests cs
  | many p, cs => manyRests p cs

/-- One character of a class or more. -/
def many1 (p : Char → Bool) : Regex := seq (char p) (many p)

/-- At most one character of a class. -/
def optional (p : Char → Bool) : Regex := alt (char p) empty

/-- The characters of a word, each as `eq` compares it. -/
def word (eq : Char → Char → Bool) : List Char → Regex
  | [] => empty
  | c :: cs => seq (char (eq c)) (word eq cs)

/-- An expression whose first part is captured. -/
structure Pattern where
  captured : Regex
  rest : Regex

/-- The match at the start of a text: what is left after the captured part,
and what is left after all. -/
def Pattern.first (p : Pattern) (cs : List Char) : Option (List Char × List Char) :=
  (p.captured.rests cs).findSome? fun after => (p.rest.rests after).head?.map fun left => (after, left)

/-- Replace every match, from left to right, by its captured part and the
mark; `skip` is how much of the text the last match still covers. -/
def Pattern.replaceFrom (p : Pattern) (mark : List Char) : ℕ → List Char → List Char
  | _, [] => []
  | skip + 1, _ :: cs => p.replaceFrom mark skip cs
  | 0, c :: cs =>
      match p.first (c :: cs) with
      | some (after, left) =>
          (c :: cs).take ((c :: cs).length - after.length) ++ mark ++
            p.replaceFrom mark (cs.length - left.length) cs
      | none => c :: p.replaceFrom mark 0 cs

/-- Replace every match. -/
def Pattern.replaceAll (p : Pattern) (mark : List Char) (cs : List Char) : List Char :=
  p.replaceFrom mark 0 cs

end Regex
