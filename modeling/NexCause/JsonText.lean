/-
NexCause/JsonText.lean

JSON values as texts.

A `Style` says how a writer escapes characters and where it puts blanks; a
`Numerals` says how it writes numbers.  Both carry the proof that what they
write can be read.  The reader is that of every such text: it passes blanks
over, and knows all escapes.  An escape of half a surrogate pair is refused,
since it stands for no character.

Main results: a reader gets back the value that was written, in any style
(`Json.parse_text`), and a text has no character but those of the style, of
the numerals and of the notation itself (`Json.mem_text`).
-/
import Mathlib
import NexCause.Json

namespace Json

/-! ### Characters of a string -/

def hexDigit (n : ℕ) : Char := Char.ofNat (if n < 10 then 48 + n else 87 + n)

def hexValue (c : Char) : Option ℕ :=
  if '0' ≤ c ∧ c ≤ '9' then some (c.toNat - 48)
  else if 'a' ≤ c ∧ c ≤ 'f' then some (c.toNat - 87)
  else if 'A' ≤ c ∧ c ≤ 'F' then some (c.toNat - 55)
  else none

/-- A number below 2¹⁶ in four digits. -/
def hex4 (n : ℕ) : List Char :=
  [hexDigit (n / 4096 % 16), hexDigit (n / 256 % 16), hexDigit (n / 16 % 16), hexDigit (n % 16)]

def readHex4 : List Char → Option (ℕ × List Char)
  | a :: b :: c :: d :: rest => do
      let a ← hexValue a
      let b ← hexValue b
      let c ← hexValue c
      let d ← hexValue d
      return (4096 * a + 256 * b + 16 * c + d, rest)
  | _ => none

/-- The escape of a UTF-16 code unit. -/
def unicodeEscape (n : ℕ) : List Char := '\\' :: 'u' :: hex4 n

/-- The second half of a surrogate pair. -/
def readLowSurrogate (high : ℕ) : List Char → Option (Char × List Char)
  | '\\' :: 'u' :: rest => do
      let (low, rest) ← readHex4 rest
      if 0xDC00 ≤ low ∧ low < 0xE000 then
        return (Char.ofNat (0x10000 + 1024 * (high - 0xD800) + (low - 0xDC00)), rest)
      else none
  | _ => none

/-- What follows the letter of a Unicode escape. -/
def readUnicode (cs : List Char) : Option (Char × List Char) := do
  let (n, rest) ← readHex4 cs
  if 0xD800 ≤ n ∧ n < 0xDC00 then readLowSurrogate n rest
  else if 0xDC00 ≤ n ∧ n < 0xE000 then none
  else return (Char.ofNat n, rest)

/-- What a letter after a backslash stands for. -/
def simpleEscape (c : Char) : Option Char :=
  if c = '"' ∨ c = '\\' ∨ c = '/' then some c
  else if c = 'b' then some '\x08'
  else if c = 'f' then some '\x0c'
  else if c = 'n' then some '\n'
  else if c = 'r' then some '\r'
  else if c = 't' then some '\t'
  else none

/-- One character of a string, and what follows it. -/
def readChar : List Char → Option (Char × List Char)
  | [] => none
  | c :: rest =>
      if c = '\\' then
        match rest with
        | [] => none
        | e :: rest =>
            if e = 'u' then readUnicode rest
            else (simpleEscape e).map fun c => (c, rest)
      else if c = '"' ∨ c.toNat < 0x20 then none
      else some (c, rest)

/-- A digit is read as it was written. -/
theorem hexValue_hexDigit {n : ℕ} (h : n < 16) : hexValue (hexDigit n) = some n := by
  have hall : ∀ n < 16, hexValue (hexDigit n) = some n := by decide
  exact hall n h

/-- So are four. -/
theorem readHex4_hex4 {n : ℕ} (h : n < 65536) (rest : List Char) :
    readHex4 (hex4 n ++ rest) = some (n, rest) := by
  have hmod : ∀ m : ℕ, m % 16 < 16 := fun m => Nat.mod_lt m (by decide)
  show (hexValue (hexDigit (n / 4096 % 16))).bind _ = _
  rw [hexValue_hexDigit (hmod _)]
  show (hexValue (hexDigit (n / 256 % 16))).bind _ = _
  rw [hexValue_hexDigit (hmod _)]
  show (hexValue (hexDigit (n / 16 % 16))).bind _ = _
  rw [hexValue_hexDigit (hmod _)]
  show (hexValue (hexDigit (n % 16))).bind _ = _
  rw [hexValue_hexDigit (hmod _)]
  show some (4096 * (n / 4096 % 16) + 256 * (n / 256 % 16) + 16 * (n / 16 % 16) + n % 16, rest) = _
  have hsum : 4096 * (n / 4096 % 16) + 256 * (n / 256 % 16) + 16 * (n / 16 % 16) + n % 16 = n := by
    omega
  rw [hsum]

/-- A character is no half of a surrogate pair. -/
theorem not_surrogate (c : Char) : ¬ (0xD800 ≤ c.toNat ∧ c.toNat < 0xE000) := by
  have hvalid : c.toNat < 0xD800 ∨ 0xDFFF < c.toNat ∧ c.toNat < 0x110000 := c.valid
  omega

/-- A character of the basic plane is read from its four digits. -/
theorem readUnicode_hex4 {c : Char} (h : c.toNat < 65536) (rest : List Char) :
    readUnicode (hex4 c.toNat ++ rest) = some (c, rest) := by
  have hnot := not_surrogate c
  unfold readUnicode
  rw [readHex4_hex4 h]
  show (if _ then _ else if _ then _ else _) = _
  rw [if_neg (by omega), if_neg (by omega), Char.ofNat_toNat]
  rfl

/-- The two escapes of a character that one code unit does not hold. -/
def surrogateEscape (c : Char) : List Char :=
  unicodeEscape (0xD800 + (c.toNat - 0x10000) / 1024) ++
    unicodeEscape (0xDC00 + (c.toNat - 0x10000) % 1024)

theorem readLowSurrogate_escape {high low : ℕ} (h : 0xDC00 ≤ low ∧ low < 0xE000) (rest : List Char) :
    readLowSurrogate high (unicodeEscape low ++ rest) =
      some (Char.ofNat (0x10000 + 1024 * (high - 0xD800) + (low - 0xDC00)), rest) := by
  have hread := readHex4_hex4 (n := low) (by omega) rest
  unfold unicodeEscape readLowSurrogate
  simp only [List.cons_append, hread, Option.bind_eq_bind, Option.bind_some, if_pos h]
  rfl

/-- Behind a high surrogate the low one is read. -/
theorem readUnicode_high {high : ℕ} (h : 0xD800 ≤ high ∧ high < 0xDC00) (rest : List Char) :
    readUnicode (hex4 high ++ rest) = readLowSurrogate high rest := by
  unfold readUnicode
  simp only [readHex4_hex4 (n := high) (by omega), Option.bind_eq_bind, Option.bind_some, if_pos h]

/-- Any other character is read from its two surrogates. -/
theorem readUnicode_surrogates {c : Char} (h : 65536 ≤ c.toNat) (rest : List Char) :
    readUnicode (hex4 (0xD800 + (c.toNat - 0x10000) / 1024) ++
      (unicodeEscape (0xDC00 + (c.toNat - 0x10000) % 1024) ++ rest)) = some (c, rest) := by
  have hmax : c.toNat < 0xD800 ∨ 0xDFFF < c.toNat ∧ c.toNat < 0x110000 := c.valid
  have hlow : (c.toNat - 0x10000) % 1024 < 1024 := Nat.mod_lt _ (by decide)
  have hhigh : (c.toNat - 0x10000) / 1024 < 1024 := by omega
  rw [readUnicode_high (by omega), readLowSurrogate_escape (by omega)]
  have hvalue : 0x10000 + 1024 * (0xD800 + (c.toNat - 0x10000) / 1024 - 0xD800) +
      (0xDC00 + (c.toNat - 0x10000) % 1024 - 0xDC00) = c.toNat := by omega
  rw [hvalue, Char.ofNat_toNat]

/-! ### Strings -/

/-- How a writer escapes characters, and the blanks it leaves after commas and colons. -/
structure Style where
  escape : Char → List Char
  afterComma : List Char
  afterColon : List Char
  read_escape : ∀ c rest, readChar (escape c ++ rest) = some (c, rest)
  afterComma_blank : ∀ c ∈ afterComma, c = ' '
  afterColon_blank : ∀ c ∈ afterColon, c = ' '

/-- The characters of a string up to its closing quote, and what follows it. -/
def readString : ℕ → List Char → Option (List Char × List Char)
  | 0, _ => none
  | _ + 1, [] => none
  | fuel + 1, c :: cs =>
      if c = '"' then some ([], cs)
      else do
        let (c, rest) ← readChar (c :: cs)
        let (s, rest) ← readString fuel rest
        return (c :: s, rest)

namespace Style

variable (S : Style)

/-- The characters of a string, and its closing quote. -/
def stringText (s : List Char) : List Char := s.flatMap S.escape ++ ['"']

/-- An escape is a text, and does not close the string. -/
theorem escape_cons (c : Char) : ∃ d ds, S.escape c = d :: ds ∧ d ≠ '"' := by
  have hread := S.read_escape c []
  rw [List.append_nil] at hread
  cases hescape : S.escape c with
  | nil =>
    rw [hescape] at hread
    cases hread
  | cons d ds =>
    refine ⟨d, ds, rfl, ?_⟩
    rintro rfl
    rw [hescape] at hread
    cases hread

/-- The text of a string is longer than the string, which bounds what reading it takes. -/
theorem length_stringText (s : List Char) : s.length < (S.stringText s).length := by
  induction s with
  | nil => simp [stringText]
  | cons c s ih =>
    obtain ⟨d, ds, hescape, -⟩ := S.escape_cons c
    simp only [stringText, List.length_append, List.length_singleton] at ih
    simp only [stringText, List.flatMap_cons, hescape, List.length_append, List.length_cons,
      List.length_nil]
    omega

/-- A string is read back, however much follows it. -/
theorem readString_stringText {fuel : ℕ} {s : List Char} (h : s.length < fuel) (rest : List Char) :
    readString fuel (S.stringText s ++ rest) = some (s, rest) := by
  induction s generalizing fuel with
  | nil =>
    obtain ⟨fuel, rfl⟩ := Nat.exists_eq_add_of_lt h
    rfl
  | cons c s ih =>
    obtain ⟨n, rfl⟩ : ∃ n, fuel = n + 1 := ⟨fuel - 1, by simp at h; omega⟩
    obtain ⟨d, ds, hescape, hd⟩ := S.escape_cons c
    have htext : S.stringText (c :: s) ++ rest =
        S.escape c ++ (S.stringText s ++ rest) := by
      simp [stringText]
    have hread := S.read_escape c (S.stringText s ++ rest)
    rw [htext]
    rw [hescape] at hread ⊢
    show (if d = '"' then _ else _) = _
    rw [if_neg hd]
    show (readChar (d :: ds ++ (S.stringText s ++ rest))).bind _ = _
    rw [hread]
    show (readString n (S.stringText s ++ rest)).bind _ = _
    rw [ih (by simpa using h)]
    rfl

end Style

/-! ### Numbers -/

/-- The characters that numbers are made of. -/
def isNumeral (c : Char) : Bool :=
  ('0' ≤ c && c ≤ '9') || c = '+' || c = '-' || c = '.' || c = 'e' || c = 'E'

/-- How numbers are written, and read. -/
structure Numerals (ν : Type) where
  write : ν → List Char
  read : List Char → Option ν
  read_write : ∀ n, read (write n) = some n
  write_ne : ∀ n, write n ≠ []
  isNumeral_write : ∀ n, ∀ c ∈ write n, isNumeral c = true

/-! ### Values -/

def isBlank (c : Char) : Bool := c = ' ' || c = '\t' || c = '\n' || c = '\r'

/-- The next character that is no blank, and what follows it. -/
def next (cs : List Char) : Option (Char × List Char) :=
  match cs.dropWhile isBlank with
  | [] => none
  | c :: rest => some (c, rest)

variable {ν : Type}

/-- The rest of a word after its first letter. -/
def readWord (word : String) (v : Json ν) (cs : List Char) : Option (Json ν × List Char) :=
  if word.toList <+: cs then some (v, cs.drop word.length) else none

/-- As many characters as a number can have, if they are one. -/
def readNumber (N : Numerals ν) (cs : List Char) : Option (Json ν × List Char) :=
  (N.read (cs.takeWhile isNumeral)).map fun n => (number n, cs.dropWhile isNumeral)

/-- The name of a field, with its colon. -/
def readName (cs : List Char) : Option (String × List Char) := do
  let (c, rest) ← next cs
  if c = '"' then
    let (k, rest) ← readString (rest.length + 1) rest
    let (c, rest) ← next rest
    if c = ':' then return (String.ofList k, rest) else none
  else none

mutual

/-- A value and what follows it; `none` where there is none, or where the fuel does not reach. -/
def readValue (N : Numerals ν) : ℕ → List Char → Option (Json ν × List Char)
  | 0, _ => none
  | fuel + 1, cs => do
      let (c, rest) ← next cs
      if c = 'n' then readWord "ull" null rest
      else if c = 't' then readWord "rue" (bool true) rest
      else if c = 'f' then readWord "alse" (bool false) rest
      else if c = '"' then
        let (s, rest) ← readString (rest.length + 1) rest
        return (string (String.ofList s), rest)
      else if c = '[' then
        let (c, inner) ← next rest
        if c = ']' then return (array [], inner)
        else
          let (items, rest) ← readItems N fuel rest
          return (array items, rest)
      else if c = '{' then
        let (c, inner) ← next rest
        if c = '}' then return (object [], inner)
        else
          let (fields, rest) ← readFields N fuel rest
          return (object fields, rest)
      else readNumber N (c :: rest)

/-- The items of an array that has some, and what follows it. -/
def readItems (N : Numerals ν) : ℕ → List Char → Option (List (Json ν) × List Char)
  | 0, _ => none
  | fuel + 1, cs => do
      let (v, rest) ← readValue N fuel cs
      let (c, rest) ← next rest
      if c = ',' then
        let (items, rest) ← readItems N fuel rest
        return (v :: items, rest)
      else if c = ']' then return ([v], rest)
      else none

/-- The fields of an object that has some, and what follows it. -/
def readFields (N : Numerals ν) : ℕ → List Char → Option (List (String × Json ν) × List Char)
  | 0, _ => none
  | fuel + 1, cs => do
      let (k, rest) ← readName cs
      let (v, rest) ← readValue N fuel rest
      let (c, rest) ← next rest
      if c = ',' then
        let (fields, rest) ← readFields N fuel rest
        return ((k, v) :: fields, rest)
      else if c = '}' then return ([(k, v)], rest)
      else none

end

/-- The value of a text. -/
def parse (N : Numerals ν) (text : List Char) : Option (Json ν) := do
  let (v, rest) ← readValue N (text.length + 1) text
  if (next rest).isNone then return v else none

mutual

/-- The text of a value. -/
def text (S : Style) (N : Numerals ν) : Json ν → List Char
  | null => "null".toList
  | bool true => "true".toList
  | bool false => "false".toList
  | number n => N.write n
  | string s => '"' :: S.stringText s.toList
  | array [] => ['[', ']']
  | array (v :: vs) => '[' :: (text S N v ++ moreItems S N vs)
  | object [] => ['{', '}']
  | object ((k, v) :: fs) =>
      '{' :: '"' :: (S.stringText k.toList ++ ':' :: (S.afterColon ++ (text S N v ++ moreFields S N fs)))

/-- The items after the first one. -/
def moreItems (S : Style) (N : Numerals ν) : List (Json ν) → List Char
  | [] => [']']
  | v :: vs => ',' :: (S.afterComma ++ (text S N v ++ moreItems S N vs))

/-- The fields after the first one. -/
def moreFields (S : Style) (N : Numerals ν) : List (String × Json ν) → List Char
  | [] => ['}']
  | (k, v) :: fs =>
      ',' :: (S.afterComma ++ '"' :: (S.stringText k.toList ++
        ':' :: (S.afterColon ++ (text S N v ++ moreFields S N fs))))

end

/-! ### What was written is read back -/

theorem isBlank_numeral {c : Char} (h : isNumeral c = true) : isBlank c = false := by
  unfold isBlank
  simp only [Bool.or_eq_false_iff, decide_eq_false_iff_not]
  refine ⟨⟨⟨?_, ?_⟩, ?_⟩, ?_⟩ <;>
    · rintro rfl
      revert h
      decide

/-- The next character, where no blank stands in front of it. -/
theorem next_cons {c : Char} (h : isBlank c = false) (cs : List Char) :
    next (c :: cs) = some (c, cs) := by
  unfold next
  rw [List.dropWhile_cons_of_neg (by simp [h])]

/-- Blanks are passed over. -/
theorem next_blanks {blanks : List Char} (h : ∀ c ∈ blanks, c = ' ') (cs : List Char) :
    next (blanks ++ cs) = next cs := by
  induction blanks with
  | nil => rfl
  | cons c blanks ih =>
    obtain rfl := h c List.mem_cons_self
    exact ih fun d hd => h d (List.mem_cons_of_mem _ hd)

theorem readWord_append (word : String) (v : Json ν) (rest : List Char) :
    readWord word v (word.toList ++ rest) = some (v, rest) := by
  unfold readWord
  rw [if_pos (List.prefix_append _ _), ← String.length_toList, List.drop_left]

variable (S : Style) (N : Numerals ν)

/-- What a value begins with. -/
theorem text_cons (v : Json ν) :
    ∃ c cs, text S N v = c :: cs ∧ isBlank c = false ∧ c ≠ ']' ∧ c ≠ '}' := by
  cases v with
  | null => exact ⟨'n', _, rfl, rfl, by decide, by decide⟩
  | bool b =>
    cases b with
    | true => exact ⟨'t', _, rfl, rfl, by decide, by decide⟩
    | false => exact ⟨'f', _, rfl, rfl, by decide, by decide⟩
  | number n =>
    cases hn : N.write n with
    | nil => exact absurd hn (N.write_ne n)
    | cons c cs =>
      have hnumeral : isNumeral c = true := N.isNumeral_write n c (by simp [hn])
      refine ⟨c, cs, hn, isBlank_numeral hnumeral, ?_, ?_⟩
      · rintro rfl
        cases hnumeral
      · rintro rfl
        cases hnumeral
  | string s => exact ⟨'"', _, rfl, rfl, by decide, by decide⟩
  | array items =>
    cases items with
    | nil => exact ⟨'[', _, rfl, rfl, by decide, by decide⟩
    | cons v vs => exact ⟨'[', _, rfl, rfl, by decide, by decide⟩
  | object fields =>
    cases fields with
    | nil => exact ⟨'{', _, rfl, rfl, by decide, by decide⟩
    | cons f fs => exact ⟨'{', _, rfl, rfl, by decide, by decide⟩

/-- The number that a text begins with ends where no more numerals follow. -/
theorem readNumber_write (n : ν) {rest : List Char} (h : ∀ c ∈ rest.head?, isNumeral c = false) :
    readNumber N (N.write n ++ rest) = some (number n, rest) := by
  have hall : ∀ c ∈ N.write n, isNumeral c = true := N.isNumeral_write n
  have hstop : rest.takeWhile isNumeral = [] ∧ rest.dropWhile isNumeral = rest := by
    cases rest with
    | nil => exact ⟨rfl, rfl⟩
    | cons c cs =>
      have hc := h c rfl
      exact ⟨List.takeWhile_cons_of_neg (by simp [hc]), List.dropWhile_cons_of_neg (by simp [hc])⟩
  unfold readNumber
  rw [List.takeWhile_append_of_pos hall, List.dropWhile_append_of_pos hall, hstop.1, hstop.2,
    List.append_nil, N.read_write]
  rfl

/-- The fields of an object that has some. -/
def fieldsText (k : String) (v : Json ν) (fs : List (String × Json ν)) : List Char :=
  '"' :: (S.stringText k.toList ++ ':' :: (S.afterColon ++ (text S N v ++ moreFields S N fs)))

variable {S N} {fuel : ℕ}

/-- A number is read up to the first character that is none of a number's. -/
theorem readValue_number (n : ν) {rest : List Char} (h : ∀ c ∈ rest.head?, isNumeral c = false) :
    readValue N (fuel + 1) (N.write n ++ rest) = some (number n, rest) := by
  have hread := readNumber_write N n h
  cases hn : N.write n with
  | nil => exact absurd hn (N.write_ne n)
  | cons c cs =>
    have hnumeral : isNumeral c = true := N.isNumeral_write n c (by simp [hn])
    -- no other value begins with a numeral
    have hne : ∀ d : Char, isNumeral d = false → c ≠ d := by
      rintro d hd rfl
      rw [hnumeral] at hd
      cases hd
    rw [hn] at hread
    rw [readValue, List.cons_append, next_cons (isBlank_numeral hnumeral)]
    simp only [Option.bind_eq_bind, Option.bind_some, if_neg (hne 'n' rfl), if_neg (hne 't' rfl),
      if_neg (hne 'f' rfl), if_neg (hne '"' rfl), if_neg (hne '[' rfl), if_neg (hne '{' rfl)]
    exact hread

/-- A string is read up to its closing quote. -/
theorem readString_text (s : String) (rest : List Char) :
    readString ((S.stringText s.toList ++ rest).length + 1) (S.stringText s.toList ++ rest) =
      some (s.toList, rest) := by
  apply S.readString_stringText
  have hlt := S.length_stringText s.toList
  rw [List.length_append]
  omega

theorem readValue_string (s : String) (rest : List Char) :
    readValue N (fuel + 1) ('"' :: (S.stringText s.toList ++ rest)) = some (string s, rest) := by
  rw [readValue, next_cons rfl]
  show (readString _ (S.stringText s.toList ++ rest)).bind _ = _
  rw [readString_text]
  simp

/-- An array is read item by item. -/
theorem readValue_array {c : Char} {cs : List Char} (hblank : isBlank c = false) (hc : c ≠ ']') :
    readValue N (fuel + 1) ('[' :: c :: cs) =
      (readItems N fuel (c :: cs)).map fun r => (array r.1, r.2) := by
  rw [readValue, next_cons rfl]
  show (next (c :: cs)).bind _ = _
  rw [next_cons hblank]
  show (if c = ']' then _ else _) = _
  rw [if_neg hc]
  cases readItems N fuel (c :: cs) with
  | none => rfl
  | some r => rfl

/-- An object is read field by field. -/
theorem readValue_object (cs : List Char) :
    readValue N (fuel + 1) ('{' :: '"' :: cs) =
      (readFields N fuel ('"' :: cs)).map fun r => (object r.1, r.2) := by
  rw [readValue, next_cons rfl]
  simp only [Option.bind_eq_bind, Option.bind_some]
  rw [if_neg (by decide), if_neg (by decide), if_neg (by decide), if_neg (by decide),
    if_neg (by decide), if_pos trivial, next_cons rfl]
  cases readFields N fuel ('"' :: cs) with
  | none => rfl
  | some r => rfl

theorem readValue_null (rest : List Char) :
    readValue N (fuel + 1) ("null".toList ++ rest) = some (null, rest) := by
  show readValue N (fuel + 1) ('n' :: ("ull".toList ++ rest)) = _
  rw [readValue, next_cons rfl]
  exact readWord_append "ull" null rest

theorem readValue_bool (b : Bool) (rest : List Char) :
    readValue N (fuel + 1) (text S N (bool b) ++ rest) = some (bool b, rest) := by
  cases b with
  | true =>
    show readValue N (fuel + 1) ('t' :: ("rue".toList ++ rest)) = _
    rw [readValue, next_cons rfl]
    exact readWord_append "rue" (bool true) rest
  | false =>
    show readValue N (fuel + 1) ('f' :: ("alse".toList ++ rest)) = _
    rw [readValue, next_cons rfl]
    exact readWord_append "alse" (bool false) rest

theorem readValue_empty_array (rest : List Char) :
    readValue N (fuel + 1) ('[' :: ']' :: rest) = some (array [], rest) := by
  rw [readValue, next_cons rfl]
  simp only [Option.bind_eq_bind, Option.bind_some]
  rw [if_neg (by decide), if_neg (by decide), if_neg (by decide), if_neg (by decide),
    if_pos trivial, next_cons rfl]
  rfl

theorem readValue_empty_object (rest : List Char) :
    readValue N (fuel + 1) ('{' :: '}' :: rest) = some (object [], rest) := by
  rw [readValue, next_cons rfl]
  simp only [Option.bind_eq_bind, Option.bind_some]
  rw [if_neg (by decide), if_neg (by decide), if_neg (by decide), if_neg (by decide),
    if_neg (by decide), if_pos trivial, next_cons rfl]
  rfl

section Blanks

variable {blanks : List Char}

theorem readValue_blanks (h : ∀ c ∈ blanks, c = ' ') (cs : List Char) :
    readValue N fuel (blanks ++ cs) = readValue N fuel cs := by
  cases fuel with
  | zero => rfl
  | succ fuel => rw [readValue, readValue, next_blanks h]

theorem readItems_blanks (h : ∀ c ∈ blanks, c = ' ') (cs : List Char) :
    readItems N fuel (blanks ++ cs) = readItems N fuel cs := by
  cases fuel with
  | zero => rfl
  | succ fuel => rw [readItems, readItems, readValue_blanks h]

theorem readFields_blanks (h : ∀ c ∈ blanks, c = ' ') (cs : List Char) :
    readFields N fuel (blanks ++ cs) = readFields N fuel cs := by
  cases fuel with
  | zero => rfl
  | succ fuel =>
    have hname : readName (blanks ++ cs) = readName cs := by
      unfold readName
      rw [next_blanks h]
    rw [readFields, readFields, hname]

end Blanks

/-- The name of a field, with its colon. -/
theorem readName_text (k : String) (rest : List Char) :
    readName ('"' :: (S.stringText k.toList ++ ':' :: rest)) = some (k, rest) := by
  unfold readName
  rw [next_cons rfl]
  show (readString _ (S.stringText k.toList ++ ':' :: rest)).bind _ = _
  rw [readString_text]
  simp only [Option.bind_eq_bind, Option.bind_some, next_cons (c := ':') rfl, String.ofList_toList]
  rfl

/-- What a field begins with: its name, and its value if that can be read. -/
theorem readFields_field {k : String} {v : Json ν} {rest : List Char}
    (hread : readValue N fuel (text S N v ++ rest) = some (v, rest)) :
    readFields N (fuel + 1)
        ('"' :: (S.stringText k.toList ++ ':' :: (S.afterColon ++ (text S N v ++ rest)))) =
      (next rest).bind fun r =>
        if r.1 = ',' then
          (readFields N fuel r.2).bind fun r => some ((k, v) :: r.1, r.2)
        else if r.1 = '}' then some ([(k, v)], r.2)
        else none := by
  rw [readFields, readName_text]
  show (readValue N fuel (S.afterColon ++ (text S N v ++ rest))).bind _ = _
  rw [readValue_blanks S.afterColon_blank, hread]
  rfl

mutual

/-- **A value is read back**, however much follows it. -/
theorem readValue_text : ∀ (v : Json ν) (fuel : ℕ) (rest : List Char),
    (text S N v).length < fuel → (∀ c ∈ rest.head?, isNumeral c = false) →
      readValue N fuel (text S N v ++ rest) = some (v, rest)
  | null, fuel + 1, rest, _, _ => readValue_null rest
  | bool b, fuel + 1, rest, _, _ => readValue_bool b rest
  | number n, fuel + 1, rest, _, hrest => readValue_number n hrest
  | string s, fuel + 1, rest, _, _ => readValue_string s rest
  | array [], fuel + 1, rest, _, _ => readValue_empty_array rest
  | array (v :: vs), fuel + 1, rest, hfuel, _ => by
      have hitems := readItems_text (v :: vs) fuel rest v vs rfl (by simpa [text] using hfuel)
      obtain ⟨c, cs, htext, hblank, hc, -⟩ := text_cons S N v
      rw [text]
      rw [htext] at hitems ⊢
      show readValue N (fuel + 1) ('[' :: c :: (cs ++ moreItems S N vs ++ rest)) = _
      rw [readValue_array hblank hc]
      show (readItems N fuel (c :: cs ++ moreItems S N vs ++ rest)).map _ = _
      rw [hitems]
      rfl
  | object [], fuel + 1, rest, _, _ => readValue_empty_object rest
  | object ((k, v) :: fs), fuel + 1, rest, hfuel, _ => by
      have hfields := readFields_text ((k, v) :: fs) fuel rest k v fs rfl
        (by simpa [text, fieldsText] using hfuel)
      show readValue N (fuel + 1) ('{' :: '"' :: _) = _
      rw [readValue_object]
      show (readFields N fuel (fieldsText S N k v fs ++ rest)).map _ = _
      rw [hfields]
      rfl

/-- The items of an array. -/
theorem readItems_text : ∀ (items : List (Json ν)) (fuel : ℕ) (rest : List Char) (v : Json ν)
    (vs : List (Json ν)), items = v :: vs →
      (text S N v ++ moreItems S N vs).length < fuel →
        readItems N fuel (text S N v ++ moreItems S N vs ++ rest) = some (v :: vs, rest)
  | v :: [], fuel + 1, rest, _, _, rfl, hfuel => by
      rw [List.length_append, moreItems, List.length_singleton] at hfuel
      have hread := readValue_text v fuel (']' :: rest) (by omega) (by simp; rfl)
      rw [readItems, moreItems, List.append_assoc]
      show (readValue N fuel (text S N v ++ ']' :: rest)).bind _ = _
      rw [hread]
      rfl
  | v :: v' :: vs, fuel + 1, rest, _, _, rfl, hfuel => by
      rw [moreItems] at hfuel
      simp only [List.length_append, List.length_cons] at hfuel
      have hread := readValue_text v fuel
        (',' :: (S.afterComma ++ (text S N v' ++ moreItems S N vs ++ rest))) (by omega) (by simp; rfl)
      have hitems := readItems_text (v' :: vs) fuel rest v' vs rfl
        (by rw [List.length_append]; omega)
      rw [readItems, moreItems, List.append_assoc]
      show (readValue N fuel (text S N v ++ ',' :: (S.afterComma ++ _ ++ rest))).bind _ = _
      rw [List.append_assoc S.afterComma, hread]
      show (readItems N fuel (S.afterComma ++ _)).bind _ = _
      rw [readItems_blanks S.afterComma_blank, hitems]
      rfl

/-- The fields of an object. -/
theorem readFields_text : ∀ (fields : List (String × Json ν)) (fuel : ℕ) (rest : List Char)
    (k : String) (v : Json ν) (fs : List (String × Json ν)), fields = (k, v) :: fs →
      (fieldsText S N k v fs).length < fuel →
        readFields N fuel (fieldsText S N k v fs ++ rest) = some ((k, v) :: fs, rest)
  | (k, v) :: [], fuel + 1, rest, _, _, _, rfl, hfuel => by
      simp only [fieldsText, moreFields, List.length_append, List.length_cons] at hfuel
      have hread := readValue_text v fuel ('}' :: rest) (by omega) (by simp; rfl)
      have hfield := readFields_field (k := k) hread
      simp only [fieldsText, moreFields, List.cons_append, List.append_assoc, List.nil_append]
      rw [hfield]
      rfl
  | (k, v) :: (k', v') :: fs, fuel + 1, rest, _, _, _, rfl, hfuel => by
      simp only [fieldsText, moreFields, List.length_append, List.length_cons] at hfuel
      have hread := readValue_text v fuel
        (',' :: (S.afterComma ++ (fieldsText S N k' v' fs ++ rest))) (by omega) (by simp; rfl)
      have hfield := readFields_field (k := k) hread
      have hfields := readFields_text ((k', v') :: fs) fuel rest k' v' fs rfl
        (by simp only [fieldsText, List.length_append, List.length_cons]; omega)
      have htext : fieldsText S N k v ((k', v') :: fs) ++ rest =
          '"' :: (S.stringText k.toList ++ ':' :: (S.afterColon ++ (text S N v ++
            ',' :: (S.afterComma ++ (fieldsText S N k' v' fs ++ rest))))) := by
        simp [fieldsText, moreFields]
      rw [htext, hfield, next_cons rfl]
      show (readFields N fuel (S.afterComma ++ _)).bind _ = _
      rw [readFields_blanks S.afterComma_blank, hfields]
      rfl

end

/-- **What was written is read back.** -/
theorem parse_text (S : Style) (N : Numerals ν) (v : Json ν) : parse N (text S N v) = some v := by
  have hread := readValue_text v ((text S N v).length + 1) [] (Nat.lt_succ_self _) (by simp)
    (S := S) (N := N)
  rw [List.append_nil] at hread
  unfold parse
  rw [hread]
  rfl

/-! ### The characters of a text -/

/-- The characters of the notation. -/
def marks : List Char :=
  ['"', '[', ']', '{', '}', ',', ':', ' ', 'n', 'u', 'l', 't', 'r', 'e', 'f', 'a', 's']

section Characters

variable {P : Char → Prop}

theorem forall_append {xs ys : List Char} (hx : ∀ d ∈ xs, P d) (hy : ∀ d ∈ ys, P d) :
    ∀ d ∈ xs ++ ys, P d := by
  intro d hd
  rcases List.mem_append.mp hd with hd | hd
  · exact hx d hd
  · exact hy d hd

theorem forall_cons {c : Char} {cs : List Char} (hc : P c) (hcs : ∀ d ∈ cs, P d) :
    ∀ d ∈ c :: cs, P d :=
  List.forall_mem_cons.mpr ⟨hc, hcs⟩

theorem forall_blanks {blanks : List Char} (hmark : ∀ d ∈ marks, P d)
    (h : ∀ c ∈ blanks, c = ' ') : ∀ d ∈ blanks, P d := by
  intro d hd
  rw [h d hd]
  exact hmark ' ' (by simp [marks])

variable (S N P) in
/-- All that a text may be made of. -/
structure Allowed : Prop where
  escape : ∀ c, ∀ d ∈ S.escape c, P d
  numeral : ∀ n, ∀ d ∈ N.write n, P d
  mark : ∀ d ∈ marks, P d

/-- What is allowed covers the text of a string, -/
theorem Allowed.stringText (h : Allowed S N P) (s : List Char) : ∀ d ∈ S.stringText s, P d := by
  apply forall_append
  · intro d hd
    obtain ⟨c, -, hd⟩ := List.mem_flatMap.mp hd
    exact h.escape c d hd
  · exact forall_cons (h.mark '"' (by simp [marks])) (by simp)

mutual

/-- **A text** has no character but those of the style, of the numerals and of the notation. -/
theorem Allowed.text (h : Allowed S N P) : ∀ v : Json ν, ∀ d ∈ text S N v, P d
  | null => fun d hd => h.mark d (by revert d; simp [Json.text, marks])
  | bool true => fun d hd => h.mark d (by revert d; simp [Json.text, marks])
  | bool false => fun d hd => h.mark d (by revert d; simp [Json.text, marks])
  | number n => h.numeral n
  | string s => forall_cons (h.mark '"' (by simp [marks])) (h.stringText s.toList)
  | array [] => fun d hd => h.mark d (by revert d; simp [Json.text, marks])
  | array (v :: vs) =>
      forall_cons (h.mark '[' (by simp [marks])) (forall_append (h.text v) (h.moreItems vs))
  | object [] => fun d hd => h.mark d (by revert d; simp [Json.text, marks])
  | object ((k, v) :: fs) =>
      forall_cons (h.mark '{' (by simp [marks])) <| forall_cons (h.mark '"' (by simp [marks])) <|
        forall_append (h.stringText k.toList) <| forall_cons (h.mark ':' (by simp [marks])) <|
          forall_append (forall_blanks h.mark S.afterColon_blank)
            (forall_append (h.text v) (h.moreFields fs))

/-- the items that follow a first one, -/
theorem Allowed.moreItems (h : Allowed S N P) : ∀ vs : List (Json ν), ∀ d ∈ moreItems S N vs, P d
  | [] => forall_cons (h.mark ']' (by simp [marks])) (by simp)
  | v :: vs =>
      forall_cons (h.mark ',' (by simp [marks])) <|
        forall_append (forall_blanks h.mark S.afterComma_blank)
          (forall_append (h.text v) (h.moreItems vs))

/-- and the fields. -/
theorem Allowed.moreFields (h : Allowed S N P) :
    ∀ fs : List (String × Json ν), ∀ d ∈ moreFields S N fs, P d
  | [] => forall_cons (h.mark '}' (by simp [marks])) (by simp)
  | (k, v) :: fs =>
      forall_cons (h.mark ',' (by simp [marks])) <|
        forall_append (forall_blanks h.mark S.afterComma_blank) <|
          forall_cons (h.mark '"' (by simp [marks])) <| forall_append (h.stringText k.toList) <|
            forall_cons (h.mark ':' (by simp [marks])) <|
              forall_append (forall_blanks h.mark S.afterColon_blank)
                (forall_append (h.text v) (h.moreFields fs))

end

end Characters

/-! ### Whole numbers -/

theorem isNumeral_of_isDigit {c : Char} (h : c.isDigit = true) : isNumeral c = true := by
  obtain ⟨hzero, hnine⟩ := Char.isDigit_iff_toNat.mp h
  have hlow : '0' ≤ c := hzero
  have hhigh : c ≤ '9' := hnine
  simp [isNumeral, hlow, hhigh]

theorem isNumeral_repr (n : ℕ) : ∀ c ∈ n.repr.toList, isNumeral c = true := by
  intro c hc
  apply isNumeral_of_isDigit
  apply Nat.isDigit_of_mem_toDigits (b := 10) (n := n) (by decide) le_rfl
  simpa [Nat.repr] using hc

/-- Whole numbers in decimal. -/
def decimal : Numerals ℤ where
  write n := n.repr.toList
  read cs := (String.ofList cs).toInt?
  read_write n := by rw [String.ofList_toList, Int.toInt?_repr]
  write_ne n := by
    intro hnil
    cases n with
    | ofNat n => exact Nat.repr_ne_empty (String.toList_eq_nil_iff.mp hnil)
    | negSucc n =>
      replace hnil : ("-" ++ n.succ.repr).toList = [] := hnil
      simp at hnil
  isNumeral_write n := by
    cases n with
    | ofNat n => exact isNumeral_repr n
    | negSucc n =>
      intro c hc
      replace hc : c ∈ ("-" ++ n.succ.repr).toList := hc
      rw [String.toList_append] at hc
      rcases List.mem_append.mp hc with hsign | hdigit
      · obtain rfl : c = '-' := by simpa using hsign
        rfl
      · exact isNumeral_repr n.succ c hdigit

/-! ### Two writers -/

/-- The escapes that both writers have. -/
def shortEscape (c : Char) : Option (List Char) :=
  if c = '"' then some ['\\', '"']
  else if c = '\\' then some ['\\', '\\']
  else if c = '\n' then some ['\\', 'n']
  else if c = '\r' then some ['\\', 'r']
  else if c = '\t' then some ['\\', 't']
  else if c = '\x0c' then some ['\\', 'f']
  else if c = '\x08' then some ['\\', 'b']
  else none

/-- An escape of one letter is read back. -/
theorem read_shortEscape {c : Char} {ds : List Char} (h : shortEscape c = some ds)
    (rest : List Char) : readChar (ds ++ rest) = some (c, rest) := by
  unfold shortEscape at h
  split_ifs at h <;>
    · obtain rfl := Option.some.inj h
      subst c
      rfl

theorem shortEscape_none {c : Char} (h : shortEscape c = none) : c ≠ '"' ∧ c ≠ '\\' := by
  constructor
  · rintro rfl
    cases h
  · rintro rfl
    cases h

/-- A character as it is. -/
theorem readChar_plain {c : Char} (hquote : c ≠ '"') (hslash : c ≠ '\\') (hcontrol : ' ' ≤ c)
    (rest : List Char) : readChar (c :: rest) = some (c, rest) := by
  have hlow : ¬ c.toNat < 0x20 := Nat.not_lt.mpr hcontrol
  show (if c = '\\' then _ else if c = '"' ∨ c.toNat < 0x20 then none else some (c, rest)) = _
  rw [if_neg hslash, if_neg (by simp [hquote, hlow])]

theorem readChar_unicodeEscape {c : Char} (h : c.toNat < 65536) (rest : List Char) :
    readChar (unicodeEscape c.toNat ++ rest) = some (c, rest) :=
  readUnicode_hex4 h rest

theorem readChar_surrogateEscape {c : Char} (h : 65536 ≤ c.toNat) (rest : List Char) :
    readChar (surrogateEscape c ++ rest) = some (c, rest) := by
  unfold surrogateEscape
  rw [List.append_assoc]
  exact readUnicode_surrogates h rest

/-- `ensure_ascii`: all but the printable ASCII characters is escaped. -/
def escapeAscii (c : Char) : List Char :=
  (shortEscape c).getD <|
    if ' ' ≤ c ∧ c ≤ '~' then [c]
    else if c.toNat < 0x10000 then unicodeEscape c.toNat
    else surrogateEscape c

/-- A character that was escaped is read back. -/
theorem read_escapeAscii (c : Char) (rest : List Char) :
    readChar (escapeAscii c ++ rest) = some (c, rest) := by
  unfold escapeAscii
  cases hshort : shortEscape c with
  | some ds => exact read_shortEscape hshort rest
  | none =>
    obtain ⟨hquote, hslash⟩ := shortEscape_none hshort
    rw [Option.getD_none]
    split_ifs with hplain hsmall
    · exact readChar_plain hquote hslash hplain.1 rest
    · exact readChar_unicodeEscape hsmall rest
    · exact readChar_surrogateEscape (Nat.not_lt.mp hsmall) rest

/-- A printable ASCII character. -/
def isPrintable (c : Char) : Bool := 0x20 ≤ c.toNat && c.toNat ≤ 0x7E

theorem isPrintable_hex4 (n : ℕ) : ∀ d ∈ hex4 n, isPrintable d = true := by
  have hdigit : ∀ m < 16, isPrintable (hexDigit m) = true := by decide
  have hmod : ∀ m : ℕ, isPrintable (hexDigit (m % 16)) = true := fun m =>
    hdigit (m % 16) (Nat.mod_lt m (by decide))
  intro d hd
  simp only [hex4, List.mem_cons, List.not_mem_nil, or_false] at hd
  rcases hd with rfl | rfl | rfl | rfl
  all_goals exact hmod _

theorem isPrintable_unicodeEscape (n : ℕ) : ∀ d ∈ unicodeEscape n, isPrintable d = true :=
  forall_cons rfl (forall_cons rfl (isPrintable_hex4 n))

/-- What is escaped is printable. -/
theorem isPrintable_escapeAscii (c : Char) : ∀ d ∈ escapeAscii c, isPrintable d = true := by
  unfold escapeAscii
  cases hshort : shortEscape c with
  | some ds =>
    unfold shortEscape at hshort
    rw [Option.getD_some]
    split_ifs at hshort <;>
      · obtain rfl := Option.some.inj hshort
        exact forall_cons rfl (forall_cons rfl (by simp))
  | none =>
    rw [Option.getD_none]
    split_ifs with hplain
    · intro d hd
      obtain rfl := List.mem_singleton.mp hd
      have hlow : 0x20 ≤ d.toNat := hplain.1
      have hhigh : d.toNat ≤ 0x7E := hplain.2
      simp [isPrintable, hlow, hhigh]
    · exact isPrintable_unicodeEscape _
    · exact forall_append (isPrintable_unicodeEscape _) (isPrintable_unicodeEscape _)

/-- `json.dumps` -/
def python : Style where
  escape := escapeAscii
  afterComma := [' ']
  afterColon := [' ']
  read_escape := read_escapeAscii
  afterComma_blank := by simp
  afterColon_blank := by simp

theorem isPrintable_numeral {c : Char} (h : isNumeral c = true) : isPrintable c = true := by
  unfold isNumeral at h
  simp only [Bool.or_eq_true, Bool.and_eq_true, decide_eq_true_eq] at h
  rcases h with ((((⟨hzero, hnine⟩ | rfl) | rfl) | rfl) | rfl) | rfl
  · replace hzero : 48 ≤ c.toNat := hzero
    replace hnine : c.toNat ≤ 57 := hnine
    simp only [isPrintable, Bool.and_eq_true, decide_eq_true_eq]
    omega
  all_goals rfl

/-- **What `json.dumps` writes** is printable ASCII, on one line. -/
theorem isPrintable_python (N : Numerals ν) (v : Json ν) :
    ∀ d ∈ text python N v, isPrintable d = true := by
  have hallowed : Allowed python N fun d => isPrintable d = true :=
    ⟨isPrintable_escapeAscii, fun n d hd => isPrintable_numeral (N.isNumeral_write n d hd),
      List.all_eq_true.mp (by decide)⟩
  exact hallowed.text v

end Json
