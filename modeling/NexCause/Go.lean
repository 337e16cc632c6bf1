/-
NexCause/Go.lean

The few notions of Go that the evidence server leans on: white space and lower
case as `strings` knows them, the folding of field names in `encoding/json`,
instants and durations, and `strconv.ParseFloat`.
-/
import NexCause.Float64

namespace NexCause.Go

/-! ### Strings -/

/-- `unicode.IsSpace`. -/
def isSpace (c : Char) : Bool :=
  c ∈ ['\t', '\n', '\u000b', '\u000c', '\r', ' ', '\u0085', '\u00a0', '\u1680', '\u2028', '\u2029',
    '\u202f', '\u205f', '\u3000'] || ('\u2000' ≤ c && c ≤ '\u200a')

/-- `strings.TrimSpace`. -/
def trimSpace (s : List Char) : List Char :=
  ((s.dropWhile isSpace).reverse.dropWhile isSpace).reverse

/-- A text with a character that is no space is not blank. -/
theorem trimSpace_ne_nil {s : List Char} {c : Char} (hc : c ∈ s) (hspace : ¬ isSpace c) :
    trimSpace s ≠ [] := by
  have keep : ∀ {l : List Char}, c ∈ l → c ∈ l.dropWhile isSpace := by
    intro l hl
    induction l with
    | nil => cases hl
    | cons d l ih =>
      rw [List.dropWhile_cons]
      split
      · rename_i hd
        rcases List.mem_cons.mp hl with rfl | hl
        · exact absurd hd hspace
        · exact ih hl
      · exact hl
  have hmem : c ∈ trimSpace s :=
    List.mem_reverse.mpr (keep (List.mem_reverse.mpr (keep hc)))
  exact List.ne_nil_of_mem hmem

/-- `strings.ToLower` of one character, as far as ASCII letters come out of it. -/
def toLowerChar (c : Char) : Char :=
  if c = '\u212a' then 'k' else if c = '\u0130' then 'i' else c.toLower

def toLower (s : List Char) : List Char := s.map toLowerChar

/-- The folding under which `encoding/json` compares a key with a field name
of ASCII letters. -/
def foldName (s : String) : List Char :=
  s.toList.map fun c => if c = '\u017f' then 's' else if c = '\u212a' then 'k' else c.toLower

/-- `strconv.IsPrint`, as far as Latin-1 goes; what lies beyond is printable here. -/
def isPrint (c : Char) : Bool :=
  if c.toNat ≤ 0xff then
    (0x20 ≤ c.toNat && c.toNat ≤ 0x7e) || (0xa1 ≤ c.toNat && c.toNat ≠ 0xad)
  else true

/-- The escape of a character that is not printable. -/
def escape (c : Char) : List Char :=
  let hex (width n : ℕ) : List Char :=
    let digits := Nat.toDigits 16 n
    List.replicate (width - digits.length) '0' ++ digits
  match c with
  | '\u0007' => ['\\', 'a']
  | '\u0008' => ['\\', 'b']
  | '\u000c' => ['\\', 'f']
  | '\n' => ['\\', 'n']
  | '\r' => ['\\', 'r']
  | '\t' => ['\\', 't']
  | '\u000b' => ['\\', 'v']
  | c =>
      if c.toNat < 0x20 ∨ c.toNat = 0x7f then '\\' :: 'x' :: hex 2 c.toNat
      else '\\' :: 'u' :: hex 4 c.toNat

/-- `strconv.Quote`, which `%q` writes. -/
def quote (s : String) : String :=
  let text := s.toList.flatMap fun c =>
    if c = '"' ∨ c = '\\' then ['\\', c] else if isPrint c then [c] else escape c
  String.ofList ('"' :: text ++ ['"'])

/-! ### Time -/

/-- An instant or a duration, in nanoseconds; an instant counts from 1970. -/
abbrev Time : Type := ℤ

def second : Time := 1000000000

def minute : Time := 60 * second

/-- The year of the instant is one that `time.Time` writes as JSON and reads
back from RFC 3339: 0 to 9999.  The argument is in seconds. -/
def isJsonYear (seconds : ℤ) : Bool := -62167219200 ≤ seconds && seconds ≤ 253402300799

/-- `Format(time.RFC3339)`: the text keeps the whole seconds, and stands for them
here. -/
def formatRFC3339 (t : Time) : ℤ := t / second

/-- `time.Parse(time.RFC3339, _)`. -/
def parseRFC3339 (seconds : ℤ) : Except String Time :=
  if isJsonYear seconds then .ok (seconds * second) else .error "parsing time: year out of range"

theorem parseRFC3339_ok {seconds : ℤ} {t : Time} (h : parseRFC3339 seconds = .ok t) :
    t = seconds * second := by
  unfold parseRFC3339 at h
  split at h
  · exact (Except.ok.inj h).symm
  · cases h

/-! ### `strconv.ParseFloat` -/

/-- A mantissa as far as it is read. -/
structure Mantissa where
  value : ℕ := 0
  fractionDigits : ℕ := 0
  sawDot : Bool := false
  sawDigits : Bool := false
  underscores : Bool := false

def digitValue (hex : Bool) (c : Char) : Option ℕ :=
  if '0' ≤ c ∧ c ≤ '9' then some (c.toNat - '0'.toNat)
  else if hex ∧ 'a' ≤ c.toLower ∧ c.toLower ≤ 'f' then some (c.toLower.toNat - 'a'.toNat + 10)
  else none

/-- The loop over the mantissa, and what follows it. -/
def readMantissa (hex : Bool) (m : Mantissa) : List Char → Mantissa × List Char
  | [] => (m, [])
  | c :: cs =>
      if c = '_' then readMantissa hex { m with underscores := true } cs
      else if c = '.' then
        if m.sawDot then (m, c :: cs) else readMantissa hex { m with sawDot := true } cs
      else
        match digitValue hex c with
        | some d =>
            readMantissa hex
              { m with
                value := m.value * (if hex then 16 else 10) + d
                fractionDigits := m.fractionDigits + if m.sawDot then 1 else 0
                sawDigits := true } cs
        | none => (m, c :: cs)

/-- The digits of an exponent, which stops growing at five digits. -/
def readExponent (e : ℕ) (underscores : Bool) : List Char → ℕ × Bool × List Char
  | [] => (e, underscores, [])
  | c :: cs =>
      if c = '_' then readExponent e true cs
      else
        match digitValue false c with
        | some d => readExponent (if e < 10000 then e * 10 + d else e) underscores cs
        | none => (e, underscores, c :: cs)

/-- What `underscoreOK` has last seen. -/
inductive Saw
  | start | digit | underscore | other
  deriving DecidableEq

def underscoresSeparate (hex : Bool) (saw : Saw) : List Char → Bool
  | [] => saw ≠ .underscore
  | c :: cs =>
      if (digitValue hex c).isSome then underscoresSeparate hex .digit cs
      else if c = '_' then saw = .digit && underscoresSeparate hex .underscore cs
      else saw ≠ .underscore && underscoresSeparate hex .other cs

def isSign (c : Char) : Bool := c = '+' || c = '-'

/-- The text without its sign. -/
def unsigned (s : List Char) : List Char := if s.head?.any isSign then s.tail else s

/-- `underscoreOK`. -/
def underscoreOK (s : List Char) : Bool :=
  match unsigned s with
  | '0' :: c :: cs =>
      if c.toLower ∈ ['b', 'o', 'x'] then underscoresSeparate (c.toLower = 'x') .digit cs
      else underscoresSeparate false .start ('0' :: c :: cs)
  | cs => underscoresSeparate false .start cs

/-- `± mantissa * base ^ exponent`, rounded, with `none` where it overflows. -/
def scaled (negative : Bool) (mantissa base : ℕ) (exponent : ℤ) : Option Float64 :=
  let x := if 0 ≤ exponent then
      Float64.ofRatio negative (mantissa * base ^ exponent.toNat * Float64.one) 1
    else Float64.ofRatio negative (mantissa * Float64.one) (base ^ (-exponent).toNat)
  if x.isFinite then some x else none

/-- A number in decimal or hexadecimal digits. -/
def readFloat (s : List Char) : Option Float64 :=
  let negative := s.head? = some '-'
  let number := unsigned s
  let hex := number.length > 2 && number.head? = some '0' &&
    (number.tail.head?.map Char.toLower) = some 'x'
  let (m, rest) := readMantissa hex {} (if hex then number.drop 2 else number)
  if ¬ m.sawDigits then none
  else
    let fraction : ℤ := if hex then 4 * m.fractionDigits else m.fractionDigits
    match rest with
    | [] =>
        if hex || (m.underscores && !underscoreOK s) then none
        else scaled negative m.value 10 (-fraction)
    | c :: cs =>
        if c.toLower ≠ (if hex then 'p' else 'e') then none
        else
          let digits := unsigned cs
          if ¬ digits.head?.any fun d => (digitValue false d).isSome then none
          else
            match readExponent 0 m.underscores digits with
            | (e, underscores, []) =>
                if underscores && !underscoreOK s then none
                else
                  let exponent : ℤ := if cs.head? = some '-' then -e else e
                  scaled negative m.value (if hex then 2 else 10) (exponent - fraction)
            | (_, _, _ :: _) => none

/-- `strconv.ParseFloat(s, 64)`, with `none` for an error. -/
def parseFloat (s : List Char) : Option Float64 :=
  let lower := s.map Char.toLower
  if lower = "nan".toList then some .nan
  else if lower ∈ ["inf".toList, "infinity".toList, "+inf".toList, "+infinity".toList] then
    some (.infinite false)
  else if lower ∈ ["-inf".toList, "-infinity".toList] then some (.infinite true)
  else readFloat s

example : parseFloat "+Inf".toList = some (.infinite false) ∧ parseFloat "1__0".toList = none ∧
    parseFloat "nano".toList = none := by decide

end NexCause.Go
