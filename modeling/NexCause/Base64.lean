/-
NexCause/Base64.lean

Base64 with the alphabet for URLs, as a `Buffer` writes and reads it.

Writing puts three bytes into four digits, without padding.  Reading takes the
digits of either alphabet, passes over what is none, and stops at a padding
character; bits that are left over are dropped.

Main result: what was written is read back (`decode_encode`).
-/
import Mathlib.Data.List.TakeWhile

namespace Base64

/-! ### Digits -/

/-- The digit of a value below 64. -/
def digitChar (n : ℕ) : Char :=
  if n < 26 then Char.ofNat (65 + n)
  else if n < 52 then Char.ofNat (71 + n)
  else if n < 62 then Char.ofNat (n - 4)
  else if n = 62 then '-'
  else '_'

/-- The value of a digit of either alphabet. -/
def digitValue (c : Char) : Option ℕ :=
  if c.isUpper then some (c.toNat - 65)
  else if c.isLower then some (c.toNat - 71)
  else if c.isDigit then some (c.toNat + 4)
  else if c = '-' ∨ c = '+' then some 62
  else if c = '_' ∨ c = '/' then some 63
  else none

/-- A digit is read as the value it was written for. -/
theorem digitValue_digitChar : ∀ n < 64, digitValue (digitChar n) = some n := by decide

/-- No digit is a padding character, and none a dot. -/
theorem digitChar_ne : ∀ n < 64, digitChar n ≠ '=' ∧ digitChar n ≠ '.' := by decide

theorem values_of_digits {values : List ℕ} (h : ∀ s ∈ values, s < 64) :
    (values.map digitChar).filterMap digitValue = values := by
  induction values with
  | nil => rfl
  | cons s values ih =>
    obtain ⟨hs, hrest⟩ := List.forall_mem_cons.mp h
    rw [List.map_cons, List.filterMap_cons_some (digitValue_digitChar s hs), ih hrest]

/-! ### Bytes and groups of six bits -/

/-- The bits of the bytes, by six. -/
def sextets : List UInt8 → List ℕ
  | [] => []
  | [a] => [a.toNat / 4, a.toNat % 4 * 16]
  | [a, b] => [a.toNat / 4, a.toNat % 4 * 16 + b.toNat / 16, b.toNat % 16 * 4]
  | a :: b :: c :: rest =>
      a.toNat / 4 :: (a.toNat % 4 * 16 + b.toNat / 16) :: (b.toNat % 16 * 4 + c.toNat / 64) ::
        c.toNat % 64 :: sextets rest

/-- The bits by eight, but for a last group that is too short. -/
def octets : List ℕ → List UInt8
  | s :: t :: u :: v :: rest =>
      UInt8.ofNat (s * 4 + t / 16) :: UInt8.ofNat (t % 16 * 16 + u / 4) ::
        UInt8.ofNat (u % 4 * 64 + v) :: octets rest
  | [s, t, u] => [UInt8.ofNat (s * 4 + t / 16), UInt8.ofNat (t % 16 * 16 + u / 4)]
  | [s, t] => [UInt8.ofNat (s * 4 + t / 16)]
  | _ => []

/-- A sextet has six bits. -/
theorem sextets_lt (bytes : List UInt8) : ∀ s ∈ sextets bytes, s < 64 := by
  induction bytes using sextets.induct with
  | case1 => simp [sextets]
  | case2 a =>
    have ha := a.toNat_lt
    simp only [sextets, List.mem_cons, List.not_mem_nil, or_false, forall_eq_or_imp, forall_eq]
    omega
  | case3 a b =>
    have ha := a.toNat_lt
    have hb := b.toNat_lt
    simp only [sextets, List.mem_cons, List.not_mem_nil, or_false, forall_eq_or_imp, forall_eq]
    omega
  | case4 a b c rest ih =>
    have ha := a.toNat_lt
    have hb := b.toNat_lt
    have hc := c.toNat_lt
    simp only [sextets, List.mem_cons, forall_eq_or_imp]
    refine ⟨?_, ?_, ?_, ?_, ih⟩
    · omega
    · omega
    · omega
    · omega

/-- A byte from its number. -/
theorem ofNat_of_eq {n : ℕ} {b : UInt8} (h : n = b.toNat) : UInt8.ofNat n = b := by
  rw [h]
  exact UInt8.ofNat_toNat

/-- The sextets of some bytes give the bytes back. -/
theorem octets_sextets (bytes : List UInt8) : octets (sextets bytes) = bytes := by
  induction bytes using sextets.induct with
  | case1 => rfl
  | case2 a =>
    have ha := a.toNat_lt
    have hfirst : a.toNat / 4 * 4 + a.toNat % 4 * 16 / 16 = a.toNat := by omega
    rw [sextets, octets, ofNat_of_eq hfirst]
  | case3 a b =>
    have ha := a.toNat_lt
    have hb := b.toNat_lt
    have hfirst : a.toNat / 4 * 4 + (a.toNat % 4 * 16 + b.toNat / 16) / 16 = a.toNat := by omega
    have hsecond : (a.toNat % 4 * 16 + b.toNat / 16) % 16 * 16 + b.toNat % 16 * 4 / 4 =
        b.toNat := by omega
    rw [sextets, octets, ofNat_of_eq hfirst, ofNat_of_eq hsecond]
  | case4 a b c rest ih =>
    have ha := a.toNat_lt
    have hb := b.toNat_lt
    have hc := c.toNat_lt
    have hfirst : a.toNat / 4 * 4 + (a.toNat % 4 * 16 + b.toNat / 16) / 16 = a.toNat := by omega
    have hsecond : (a.toNat % 4 * 16 + b.toNat / 16) % 16 * 16 +
        (b.toNat % 16 * 4 + c.toNat / 64) / 4 = b.toNat := by omega
    have hthird : (b.toNat % 16 * 4 + c.toNat / 64) % 4 * 64 + c.toNat % 64 = c.toNat := by omega
    rw [sextets, octets, ofNat_of_eq hfirst, ofNat_of_eq hsecond, ofNat_of_eq hthird, ih]

/-! ### Texts -/

/-- `toString("base64url")` -/
def encode (bytes : List UInt8) : List Char := (sextets bytes).map digitChar

/-- `Buffer.from(text, "base64url")`, which is the same as with `"base64"`. -/
def decode (text : List Char) : List UInt8 :=
  octets ((text.takeWhile (· ≠ '=')).filterMap digitValue)

/-- **What was written is read back.** -/
theorem decode_encode (bytes : List UInt8) : decode (encode bytes) = bytes := by
  unfold decode encode
  have hall : ((sextets bytes).map digitChar).takeWhile (· ≠ '=') =
      (sextets bytes).map digitChar := by
    apply List.takeWhile_eq_self_iff.mpr
    intro c hc
    obtain ⟨s, hs, rfl⟩ := List.mem_map.mp hc
    exact decide_eq_true (digitChar_ne s (sextets_lt bytes s hs)).1
  rw [hall, values_of_digits (sextets_lt bytes), octets_sextets]

theorem dot_not_mem_encode (bytes : List UInt8) : '.' ∉ encode bytes := by
  intro hmem
  obtain ⟨s, hs, hdot⟩ := List.mem_map.mp hmem
  exact (digitChar_ne s (sextets_lt bytes s hs)).2 hdot

/-- Different bytes have different texts. -/
theorem encode_injective {bytes bytes' : List UInt8} (h : encode bytes = encode bytes') :
    bytes = bytes' := by
  rw [← decode_encode bytes, h, decode_encode]

@[simp] theorem encode_nil : encode [] = [] := rfl

theorem encode_eq_nil {bytes : List UInt8} : encode bytes = [] ↔ bytes = [] := by
  constructor
  · intro h
    exact encode_injective (h.trans encode_nil.symm)
  · rintro rfl
    rfl

/-- The text is the one that is written for what is read from it. -/
def Canonical (text : List Char) : Prop := encode (decode text) = text

instance (text : List Char) : Decidable (Canonical text) :=
  inferInstanceAs (Decidable (_ = _))

/-- What is written is canonical. -/
theorem canonical_encode (bytes : List UInt8) : Canonical (encode bytes) := by
  unfold Canonical
  rw [decode_encode]

end Base64
