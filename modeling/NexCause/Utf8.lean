/-
NexCause/Utf8.lean

UTF-8, as a `Buffer` writes and reads it.

Reading never fails.  It is the decoder of the encoding standard: a state with
the bytes that are still needed, the range that the next one has to be in, and
the code point so far.  A byte out of range ends the sequence with a
replacement character, and is read once more as the first of the next one.

Main results: what was written is read back (`decode_encode`), and no byte gives
more than one character (`length_decode_le`).
-/
import Mathlib.Data.List.Basic

namespace Utf8

/-! ### Writing -/

/-- The bytes of a character. -/
def encodeChar (c : Char) : List UInt8 :=
  let n := c.toNat
  if n < 0x80 then [UInt8.ofNat n]
  else if n < 0x800 then [UInt8.ofNat (0xC0 + n / 64), UInt8.ofNat (0x80 + n % 64)]
  else if n < 0x10000 then
    [UInt8.ofNat (0xE0 + n / 4096), UInt8.ofNat (0x80 + n / 64 % 64), UInt8.ofNat (0x80 + n % 64)]
  else
    [UInt8.ofNat (0xF0 + n / 262144), UInt8.ofNat (0x80 + n / 4096 % 64),
      UInt8.ofNat (0x80 + n / 64 % 64), UInt8.ofNat (0x80 + n % 64)]

def encode (text : List Char) : List UInt8 := text.flatMap encodeChar

/-! ### Reading -/

/-- A sequence that is not complete. -/
structure Pending where
  needed : ℕ
  lower : ℕ
  upper : ℕ
  codePoint : ℕ
  deriving DecidableEq, Repr

def replacement : Char := Char.ofNat 0xFFFD

/-- The first byte of a sequence. -/
def first (b : ℕ) : Char ⊕ Pending :=
  if b < 0x80 then .inl (Char.ofNat b)
  else if b < 0xC2 then .inl replacement
  else if b < 0xE0 then .inr ⟨1, 0x80, 0xBF, b - 0xC0⟩
  else if b < 0xF0 then
    .inr ⟨2, if b = 0xE0 then 0xA0 else 0x80, if b = 0xED then 0x9F else 0xBF, b - 0xE0⟩
  else if b < 0xF5 then
    .inr ⟨3, if b = 0xF0 then 0x90 else 0x80, if b = 0xF4 then 0x8F else 0xBF, b - 0xF0⟩
  else .inl replacement

/-- One more byte, which is in its range. -/
def Pending.next (p : Pending) (b : ℕ) : Char ⊕ Pending :=
  let codePoint := p.codePoint * 64 + (b - 0x80)
  if p.needed ≤ 1 then .inl (Char.ofNat codePoint)
  else .inr ⟨p.needed - 1, 0x80, 0xBF, codePoint⟩

/-- The rest of the text. -/
def decodeFrom : Option Pending → List UInt8 → List Char
  | none, [] => []
  | some _, [] => [replacement]
  | none, b :: rest =>
      match first b.toNat with
      | .inl c => c :: decodeFrom none rest
      | .inr p => decodeFrom (some p) rest
  | some p, b :: rest =>
      if p.lower ≤ b.toNat ∧ b.toNat ≤ p.upper then
        match p.next b.toNat with
        | .inl c => c :: decodeFrom none rest
        | .inr p => decodeFrom (some p) rest
      else
        replacement :: match first b.toNat with
          | .inl c => c :: decodeFrom none rest
          | .inr p => decodeFrom (some p) rest

/-- `toString("utf8")` -/
def decode (bytes : List UInt8) : List Char := decodeFrom none bytes

/-! ### Steps -/

variable {rest : List UInt8} {b : ℕ}

theorem toNat_ofNat_of_lt {n : ℕ} (h : n < 256) : (UInt8.ofNat n).toNat = n := by
  rw [UInt8.toNat_ofNat']
  exact Nat.mod_eq_of_lt h

theorem decodeFrom_single (hb : b < 256) {c : Char} (h : first b = .inl c) :
    decodeFrom none (UInt8.ofNat b :: rest) = c :: decodeFrom none rest := by
  rw [decodeFrom, toNat_ofNat_of_lt hb, h]

theorem decodeFrom_begin (hb : b < 256) {p : Pending} (h : first b = .inr p) :
    decodeFrom none (UInt8.ofNat b :: rest) = decodeFrom (some p) rest := by
  rw [decodeFrom, toNat_ofNat_of_lt hb, h]

/-- The last byte of a sequence. -/
theorem decodeFrom_last {lower upper codePoint m : ℕ} (hlower : lower ≤ 0x80 + m)
    (hupper : 0x80 + m ≤ upper) (hm : m < 64) :
    decodeFrom (some ⟨1, lower, upper, codePoint⟩) (UInt8.ofNat (0x80 + m) :: rest) =
      Char.ofNat (codePoint * 64 + m) :: decodeFrom none rest := by
  rw [decodeFrom, toNat_ofNat_of_lt (by omega), if_pos ⟨hlower, hupper⟩]
  simp [Pending.next]

/-- One before it. -/
theorem decodeFrom_go {k lower upper codePoint m : ℕ} (hlower : lower ≤ 0x80 + m)
    (hupper : 0x80 + m ≤ upper) (hm : m < 64) :
    decodeFrom (some ⟨k + 2, lower, upper, codePoint⟩) (UInt8.ofNat (0x80 + m) :: rest) =
      decodeFrom (some ⟨k + 1, 0x80, 0xBF, codePoint * 64 + m⟩) rest := by
  rw [decodeFrom, toNat_ofNat_of_lt (by omega), if_pos ⟨hlower, hupper⟩]
  simp [Pending.next]

/-! ### What was written is read back -/

/-- A character is no surrogate. -/
theorem toNat_valid (c : Char) : c.toNat < 0xD800 ∨ 0xDFFF < c.toNat ∧ c.toNat < 0x110000 := c.valid

section Sequences

variable {n : ℕ}

theorem first_two (hlow : 0x80 ≤ n) (hhigh : n < 0x800) :
    first (0xC0 + n / 64) = .inr ⟨1, 0x80, 0xBF, n / 64⟩ := by
  unfold first
  rw [if_neg (by omega), if_neg (by omega), if_pos (by omega), Nat.add_sub_cancel_left]

theorem first_three (hhigh : n < 0x10000) :
    first (0xE0 + n / 4096) = .inr ⟨2, if n / 4096 = 0 then 0xA0 else 0x80,
      if n / 4096 = 13 then 0x9F else 0xBF, n / 4096⟩ := by
  have hzero : 0xE0 + n / 4096 = 0xE0 ↔ n / 4096 = 0 := by omega
  have hsurrogate : 0xE0 + n / 4096 = 0xED ↔ n / 4096 = 13 := by omega
  unfold first
  rw [if_neg (by omega), if_neg (by omega), if_neg (by omega), if_pos (by omega),
    Nat.add_sub_cancel_left]
  simp only [hzero, hsurrogate]

theorem first_four (hhigh : n < 0x110000) :
    first (0xF0 + n / 262144) = .inr ⟨3, if n / 262144 = 0 then 0x90 else 0x80,
      if n / 262144 = 4 then 0x8F else 0xBF, n / 262144⟩ := by
  have hzero : 0xF0 + n / 262144 = 0xF0 ↔ n / 262144 = 0 := by omega
  have hlast : 0xF0 + n / 262144 = 0xF4 ↔ n / 262144 = 4 := by omega
  unfold first
  rw [if_neg (by omega), if_neg (by omega), if_neg (by omega), if_neg (by omega),
    if_pos (by omega), Nat.add_sub_cancel_left]
  simp only [hzero, hlast]

end Sequences

/-- **The bytes of a character** are read as it. -/
theorem decodeFrom_encodeChar (c : Char) (rest : List UInt8) :
    decodeFrom none (encodeChar c ++ rest) = c :: decodeFrom none rest := by
  have hvalid := toNat_valid c
  have hc : Char.ofNat c.toNat = c := Char.ofNat_toNat c
  unfold encodeChar
  dsimp only
  generalize c.toNat = n at hvalid hc
  split
  · rename_i hn
    have hfirst : first n = .inl c := by
      unfold first
      rw [if_pos hn, hc]
    exact decodeFrom_single (by omega) hfirst
  split
  · rename_i hlow hhigh
    have hpoint : n / 64 * 64 + n % 64 = n := by omega
    have hm : n % 64 < 64 := by omega
    show decodeFrom none (_ :: _ :: rest) = _
    rw [decodeFrom_begin (by omega) (first_two (by omega) hhigh),
      decodeFrom_last (by omega) (by omega) hm, hpoint, hc]
  split
  · rename_i hlow hhigh
    have hpoint : (n / 4096 * 64 + n / 64 % 64) * 64 + n % 64 = n := by omega
    have hm : n % 64 < 64 := by omega
    have hm' : n / 64 % 64 < 64 := by omega
    -- no overlong form, and no surrogate
    have hlower : (if n / 4096 = 0 then 0xA0 else 0x80) ≤ 0x80 + n / 64 % 64 := by
      split <;> omega
    have hupper : 0x80 + n / 64 % 64 ≤ if n / 4096 = 13 then 0x9F else 0xBF := by
      split <;> omega
    show decodeFrom none (_ :: _ :: _ :: rest) = _
    rw [decodeFrom_begin (by omega) (first_three hhigh), decodeFrom_go hlower hupper hm',
      decodeFrom_last (by omega) (by omega) hm, hpoint, hc]
  · rename_i hlow
    have hpoint : ((n / 262144 * 64 + n / 4096 % 64) * 64 + n / 64 % 64) * 64 + n % 64 = n := by
      omega
    have hm : n % 64 < 64 := by omega
    have hm' : n / 64 % 64 < 64 := by omega
    have hm'' : n / 4096 % 64 < 64 := by omega
    -- no overlong form, and no code point past the last one
    have hlower : (if n / 262144 = 0 then 0x90 else 0x80) ≤ 0x80 + n / 4096 % 64 := by
      split <;> omega
    have hupper : 0x80 + n / 4096 % 64 ≤ if n / 262144 = 4 then 0x8F else 0xBF := by
      split <;> omega
    show decodeFrom none (_ :: _ :: _ :: _ :: rest) = _
    rw [decodeFrom_begin (by omega) (first_four (by omega)), decodeFrom_go hlower hupper hm'',
      decodeFrom_go (by omega) (by omega) hm', decodeFrom_last (by omega) (by omega) hm, hpoint, hc]

/-- **What was written is read back.** -/
theorem decode_encode (text : List Char) : decode (encode text) = text := by
  unfold decode
  induction text with
  | nil => rfl
  | cons c text ih =>
    show decodeFrom none (encodeChar c ++ encode text) = _
    rw [decodeFrom_encodeChar, ih]

theorem encode_injective {text text' : List Char} (h : encode text = encode text') :
    text = text' := by
  rw [← decode_encode text, h, decode_encode]

theorem encode_eq_nil {text : List Char} : encode text = [] ↔ text = [] := by
  constructor
  · intro h
    have hnil : encode text = encode [] := h
    exact encode_injective hnil
  · rintro rfl
    rfl

/-! ### Lengths -/

theorem length_decodeFrom_le (state : Option Pending) (bytes : List UInt8) :
    (decodeFrom state bytes).length ≤ bytes.length + if state.isSome then 1 else 0 := by
  induction bytes generalizing state with
  | nil =>
    cases state with
    | none => exact Nat.zero_le _
    | some p => exact Nat.le_refl _
  | cons b rest ih =>
    have hnone : (decodeFrom none rest).length ≤ rest.length := ih none
    have hsome : ∀ p, (decodeFrom (some p) rest).length ≤ rest.length + 1 := fun p => ih (some p)
    -- a first byte gives one character, now or later
    have hfirst : (match first b.toNat with
        | .inl c => c :: decodeFrom none rest
        | .inr p => decodeFrom (some p) rest).length ≤ rest.length + 1 := by
      cases first b.toNat with
      | inl c => exact Nat.succ_le_succ hnone
      | inr p => exact hsome p
    cases state with
    | none =>
      rw [decodeFrom]
      exact hfirst
    | some p =>
      rw [decodeFrom]
      split
      · cases p.next b.toNat with
        | inl c => exact Nat.le_succ_of_le (Nat.succ_le_succ hnone)
        | inr p => exact Nat.le_succ_of_le (hsome p)
      · exact Nat.succ_le_succ hfirst

/-- No byte gives more than one character. -/
theorem length_decode_le (bytes : List UInt8) : (decode bytes).length ≤ bytes.length :=
  length_decodeFrom_le none bytes

end Utf8
