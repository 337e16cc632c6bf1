/-
NexCause/TokenEncryption.lean

Encryption of what a session stores: `encrypt` and `decrypt` of `CryptoService`.

`encrypt` joins the key version, the IV, the tag and the ciphertext with dots.
`decrypt` splits at the dots and reads the second, the third and the fourth part,
whatever comes before and after; it decodes them leniently, and takes a tag that
is cut off for a shorter one.

Main result: the round trip works exactly if the key version has no dot, and what
is accepted is an output of `encrypt` exactly if it has four parts, each written
as `encrypt` writes it (`token_encryption_iff`).
-/
import Mathlib
import NexCause.Base64
import NexCause.Grammars
import NexCause.Utf8

namespace NexCause

/-! ### AES-256-GCM -/

/-- The cipher without associated data: a key and an IV give a stream of bytes, and, with a
ciphertext, a tag. -/
structure AesGcm where
  keystream : (key iv : List UInt8) → ℕ → UInt8
  authTag : (key iv ciphertext : List UInt8) → List UInt8
  /-- the lengths of an IV that are accepted -/
  acceptsIv : ℕ → Bool
  length_authTag : ∀ key iv ciphertext, (authTag key iv ciphertext).length = 16
  acceptsIv_twelve : acceptsIv 12 = true

/-- The lengths of a tag that `setAuthTag` accepts. -/
def tagLengths : List ℕ := [4, 8, 12, 13, 14, 15, 16]

namespace AesGcm

variable (gcm : AesGcm) (key iv : List UInt8)

/-- A text and the stream. -/
def crypt (text : List UInt8) : List UInt8 :=
  text.mapIdx fun i b => b ^^^ gcm.keystream key iv i

@[simp] theorem length_crypt (text : List UInt8) : (gcm.crypt key iv text).length = text.length :=
  List.length_mapIdx

/-- The stream once more gives the text back. -/
theorem crypt_crypt (text : List UInt8) : gcm.crypt key iv (gcm.crypt key iv text) = text := by
  unfold crypt
  rw [List.mapIdx_mapIdx]
  apply List.ext_getElem
  · simp
  · intro i hi hi'
    simp

/-- The tag belongs to the ciphertext, as far as it goes. -/
def Authentic (tag ciphertext : List UInt8) : Prop :=
  (gcm.authTag key iv ciphertext).take tag.length = tag

instance (tag ciphertext : List UInt8) : Decidable (gcm.Authentic key iv tag ciphertext) :=
  inferInstanceAs (Decidable (_ = _))

theorem authentic_authTag (ciphertext : List UInt8) :
    gcm.Authentic key iv (gcm.authTag key iv ciphertext) ciphertext := List.take_length

/-- A whole tag is the one of the ciphertext. -/
theorem Authentic.eq {gcm : AesGcm} {key iv tag ciphertext : List UInt8}
    (h : gcm.Authentic key iv tag ciphertext) (hlength : tag.length = 16) :
    tag = gcm.authTag key iv ciphertext := by
  unfold Authentic at h
  rw [hlength, ← gcm.length_authTag key iv ciphertext, List.take_length] at h
  exact h.symm

end AesGcm

/-! ### The service -/

structure CryptoConfig where
  encryptionKey : Option String
  encryptionKeyVersion : Option String
  deriving DecidableEq, Repr

inductive CryptoError
  | internal (message : String)
  /-- what `crypto` has thrown -/
  | thrown (message : String)
  deriving DecidableEq, Repr

/-- `key` -/
def CryptoConfig.key (config : CryptoConfig) : Except CryptoError (List UInt8) :=
  let key := Base64.decode (config.encryptionKey.getD "").toList
  if key.length ≠ 32 then
    .error (.internal "AUTH_SESSION_ENCRYPTION_KEY must be a base64-encoded 32-byte key")
  else .ok key

/-- `auth.encryptionKeyVersion` -/
def CryptoConfig.version (config : CryptoConfig) : List Char :=
  (config.encryptionKeyVersion.getD "v1").toList

section Service

variable (gcm : AesGcm) (config : CryptoConfig)

/-- The parts of a container, joined. -/
def container (version : List Char) (iv tag ciphertext : List UInt8) : String :=
  String.ofList (['.'].intercalate
    [version, Base64.encode iv, Base64.encode tag, Base64.encode ciphertext])

/-- `encrypt`, with the IV that is drawn. -/
def encrypt (iv : List UInt8) (value : String) : Except CryptoError String := do
  let key ← config.key
  let encrypted := gcm.crypt key iv (Utf8.encode value.toList)
  return container config.version iv (gcm.authTag key iv encrypted) encrypted

/-- What `decrypt` does with the three parts. -/
def decipher (ivValue tagValue encryptedValue : List Char) : Except CryptoError String := do
  let key ← config.key
  let iv := Base64.decode ivValue
  let tag := Base64.decode tagValue
  let encrypted := Base64.decode encryptedValue
  if gcm.acceptsIv iv.length = false then .error (.thrown "Invalid initialization vector")
  else if tag.length ∉ tagLengths then
    .error (.thrown ("Invalid authentication tag length: " ++ toString tag.length))
  else if gcm.Authentic key iv tag encrypted then
    return String.ofList (Utf8.decode (gcm.crypt key iv encrypted))
  else .error (.thrown "Unsupported state or unable to authenticate data")

/-- `decrypt` -/
def decrypt (value : String) : Except CryptoError String :=
  match value.toList.splitOn '.' with
  | _ :: ivValue :: tagValue :: encryptedValue :: _ =>
      if ivValue = [] ∨ tagValue = [] ∨ encryptedValue = [] then
        .error (.internal "Encrypted session value is invalid")
      else decipher gcm config ivValue tagValue encryptedValue
  | _ => .error (.internal "Encrypted session value is invalid")

end Service

/-! ### Parts -/

/-- A text with a dot has two parts at least. -/
theorem splitOn_of_mem {text : List Char} (h : '.' ∈ text) :
    ∃ first second rest, text.splitOn '.' = first :: second :: rest := by
  obtain ⟨before, after, rfl, hbefore⟩ := List.eq_append_cons_of_mem h
  obtain ⟨second, rest, hrest⟩ := List.exists_cons_of_ne_nil (List.splitOn_ne_nil '.' after)
  refine ⟨before, second, rest, ?_⟩
  rw [List.splitOn_append_cons_self_of_not_mem hbefore, hrest]

/-- The parts of a container are those of its version, and three more. -/
theorem split_container (version : List Char) (iv tag ciphertext : List UInt8) :
    (container version iv tag ciphertext).toList.splitOn '.' =
      version.splitOn '.' ++ [Base64.encode iv, Base64.encode tag, Base64.encode ciphertext] := by
  have htext : (container version iv tag ciphertext).toList =
      version ++ '.' :: (Base64.encode iv ++ '.' :: (Base64.encode tag ++ '.' ::
        Base64.encode ciphertext)) := by
    unfold container
    rw [String.toList_ofList]
    simp [List.intercalate]
  have hparts : ∀ bytes, (Base64.encode bytes).splitOn '.' = [Base64.encode bytes] :=
    fun bytes => List.splitOn_eq_singleton (Base64.dot_not_mem_encode bytes)
  rw [htext, List.splitOn_append_cons_self, List.splitOn_append_cons_self,
    List.splitOn_append_cons_self, hparts, hparts, hparts]
  rfl

section Properties

variable {gcm : AesGcm} {config : CryptoConfig} {key : List UInt8}

/-! ### What is accepted -/

theorem decipher_ok (hkey : config.key = .ok key) {ivValue tagValue encryptedValue : List Char}
    {q : String} :
    decipher gcm config ivValue tagValue encryptedValue = .ok q ↔
      gcm.acceptsIv (Base64.decode ivValue).length = true ∧
      (Base64.decode tagValue).length ∈ tagLengths ∧
      gcm.Authentic key (Base64.decode ivValue) (Base64.decode tagValue)
        (Base64.decode encryptedValue) ∧
      String.ofList (Utf8.decode
        (gcm.crypt key (Base64.decode ivValue) (Base64.decode encryptedValue))) = q := by
  unfold decipher
  rw [hkey]
  show (if _ then _ else if _ then _ else if _ then _ else _ : Except CryptoError String) = _ ↔ _
  split
  · rename_i hiv
    simp [hiv]
  split
  · rename_i htag
    simp [htag]
  split
  · rename_i hiv htag hauthentic
    rw [Bool.not_eq_false] at hiv
    rw [not_not] at htag
    simp [hiv, htag, hauthentic, pure, Except.pure]
  · rename_i hauthentic
    simp [hauthentic]

/-- What `decrypt` reads of a value that it accepts. -/
theorem decrypt_ok {value q : String} :
    decrypt gcm config value = .ok q ↔
      ∃ first ivValue tagValue encryptedValue rest,
        value.toList.splitOn '.' = first :: ivValue :: tagValue :: encryptedValue :: rest ∧
        ivValue ≠ [] ∧ tagValue ≠ [] ∧ encryptedValue ≠ [] ∧
        decipher gcm config ivValue tagValue encryptedValue = .ok q := by
  unfold decrypt
  constructor
  · intro h
    split at h
    · rename_i first ivValue tagValue encryptedValue rest hparts
      split at h
      · cases h
      · rename_i hparts'
        rw [not_or, not_or] at hparts'
        exact ⟨first, ivValue, tagValue, encryptedValue, rest, hparts, hparts'.1, hparts'.2.1,
          hparts'.2.2, h⟩
    · cases h
  · rintro ⟨first, ivValue, tagValue, encryptedValue, rest, hparts, hiv, htag, hencrypted, h⟩
    rw [hparts]
    show (if _ then _ else _) = _
    rw [if_neg (by simp [hiv, htag, hencrypted]), h]

theorem encrypt_eq (hkey : config.key = .ok key) (iv : List UInt8) (value : String) :
    encrypt gcm config iv value = .ok (container config.version iv
      (gcm.authTag key iv (gcm.crypt key iv (Utf8.encode value.toList)))
      (gcm.crypt key iv (Utf8.encode value.toList))) := by
  unfold encrypt
  rw [hkey]
  rfl

/-! ### The round trip -/

theorem crypt_ne_nil {iv text : List UInt8} (h : text ≠ []) : gcm.crypt key iv text ≠ [] := by
  rw [← List.length_pos_iff] at h ⊢
  rw [AesGcm.length_crypt]
  exact h

/-- Without a dot in the version, the parts are read as they were written. -/
theorem decrypt_encrypt (hkey : config.key = .ok key) (hversion : '.' ∉ config.version)
    {iv : List UInt8} (hiv : iv.length = 12) {value : String} (hvalue : value ≠ "") :
    (encrypt gcm config iv value).bind (decrypt gcm config) = .ok value := by
  rw [encrypt_eq hkey]
  apply decrypt_ok.mpr
  rw [split_container, List.splitOn_eq_singleton hversion]
  refine ⟨_, _, _, _, _, rfl, ?_, ?_, ?_, ?_⟩
  · rw [ne_eq, Base64.encode_eq_nil]
    exact List.ne_nil_of_length_pos (hiv ▸ Nat.succ_pos _)
  · rw [ne_eq, Base64.encode_eq_nil]
    exact List.ne_nil_of_length_pos (gcm.length_authTag .. ▸ Nat.succ_pos _)
  · rw [ne_eq, Base64.encode_eq_nil]
    apply crypt_ne_nil
    rw [ne_eq, Utf8.encode_eq_nil, String.toList_eq_nil_iff]
    exact hvalue
  · apply (decipher_ok hkey).mpr
    rw [Base64.decode_encode, Base64.decode_encode, Base64.decode_encode]
    refine ⟨hiv ▸ gcm.acceptsIv_twelve, ?_, gcm.authentic_authTag _ _ _, ?_⟩
    · rw [gcm.length_authTag]
      decide
    · rw [AesGcm.crypt_crypt, Utf8.decode_encode]
      exact String.ofList_toList

/-- What is decrypted is no longer than what was decoded. -/
theorem length_deciphered (hkey : config.key = .ok key)
    {ivValue tagValue encryptedValue : List Char} {q : String}
    (h : decipher gcm config ivValue tagValue encryptedValue = .ok q) :
    q.toList.length ≤ (Base64.decode encryptedValue).length := by
  obtain ⟨-, -, -, rfl⟩ := (decipher_ok hkey).mp h
  rw [String.toList_ofList, ← gcm.length_crypt key (Base64.decode ivValue)
    (Base64.decode encryptedValue)]
  exact Utf8.length_decode_le _

/-- The bytes that the parts of the version stand for, and those of a tag. -/
def versionBytes (version : List Char) : ℕ :=
  16 + ((version.splitOn '.').map fun part => (Base64.decode part).length).sum

/-- With a dot in the version, another part is taken for the ciphertext. -/
theorem length_decrypted (hkey : config.key = .ok key) (hversion : '.' ∈ config.version)
    {iv : List UInt8} (hiv : iv.length = 12) {value q : String}
    (h : (encrypt gcm config iv value).bind (decrypt gcm config) = .ok q) :
    q.toList.length ≤ versionBytes config.version := by
  rw [encrypt_eq hkey] at h
  obtain ⟨first, ivValue, tagValue, encryptedValue, rest, hparts, -, -, -, hdecipher⟩ :=
    decrypt_ok.mp h
  apply (length_deciphered hkey hdecipher).trans
  rw [split_container] at hparts
  obtain ⟨v, w, more, hsplit⟩ := splitOn_of_mem hversion
  unfold versionBytes
  rw [hsplit] at hparts ⊢
  cases more with
  | nil =>
    -- the tag is read
    obtain ⟨-, -, -, rfl, -⟩ : _ ∧ _ ∧ _ ∧ Base64.encode _ = encryptedValue ∧ _ := by
      simpa using hparts
    rw [Base64.decode_encode, gcm.length_authTag]
    exact Nat.le_add_right _ _
  | cons x more =>
    cases more with
    | nil =>
      -- the IV is read
      obtain ⟨-, -, -, rfl, -⟩ : _ ∧ _ ∧ _ ∧ Base64.encode _ = encryptedValue ∧ _ := by
        simpa using hparts
      rw [Base64.decode_encode, hiv]
      omega
    | cons y more =>
      -- a part of the version is read
      obtain ⟨-, -, -, rfl, -⟩ : _ ∧ _ ∧ _ ∧ y = encryptedValue ∧ _ := by
        simpa using hparts
      simp only [List.map_cons, List.sum_cons]
      omega

/-- **The round trip** works for every IV and value exactly if the version has no dot. -/
theorem round_trip_iff (hkey : config.key = .ok key) :
    (∀ (iv : List UInt8) (value : String), iv.length = 12 → value ≠ "" →
      (encrypt gcm config iv value).bind (decrypt gcm config) = .ok value) ↔
    '.' ∉ config.version := by
  constructor
  · intro hround hversion
    -- a value that is longer than all that could be read instead
    let value := String.ofList (List.replicate (versionBytes config.version + 1) 'a')
    have hlength : value.toList.length = versionBytes config.version + 1 := by
      show (String.toList (String.ofList _)).length = _
      rw [String.toList_ofList, List.length_replicate]
    have hiv : (List.replicate 12 (0 : UInt8)).length = 12 := List.length_replicate
    have hvalue : value ≠ "" := by
      intro hempty
      rw [hempty] at hlength
      cases hlength
    have hle := length_decrypted hkey hversion hiv (hround _ value hiv hvalue)
    omega
  · intro hversion iv value hiv hvalue
    exact decrypt_encrypt hkey hversion hiv hvalue

/-! ### Its own output -/

/-- An output of `encrypt` under the key: of a service with some version without a dot. -/
def Produced (gcm : AesGcm) (key : List UInt8) (x : String) : Prop :=
  ∃ (config : CryptoConfig) (iv : List UInt8) (value : String), config.key = .ok key ∧
    '.' ∉ config.version ∧ iv.length = 12 ∧ value ≠ "" ∧ encrypt gcm config iv value = .ok x

/-- Four parts, of which the last three are written as `encrypt` writes an IV, a tag and a
ciphertext of a text. -/
def Exact (gcm : AesGcm) (key : List UInt8) (x : String) : Prop :=
  ∃ (version ivValue tagValue encryptedValue : List Char) (text : List Char),
    x.toList.splitOn '.' = [version, ivValue, tagValue, encryptedValue] ∧
    Base64.Canonical ivValue ∧ (Base64.decode ivValue).length = 12 ∧
    Base64.Canonical tagValue ∧ (Base64.decode tagValue).length = 16 ∧
    Base64.Canonical encryptedValue ∧
    gcm.crypt key (Base64.decode ivValue) (Base64.decode encryptedValue) = Utf8.encode text

theorem Produced.exact {x : String} (h : Produced gcm key x) : Exact gcm key x := by
  obtain ⟨config, iv, value, hkey, hversion, hiv, -, hencrypt⟩ := h
  rw [encrypt_eq hkey] at hencrypt
  obtain rfl := Except.ok.inj hencrypt
  have hparts := split_container config.version iv
    (gcm.authTag key iv (gcm.crypt key iv (Utf8.encode value.toList)))
    (gcm.crypt key iv (Utf8.encode value.toList))
  rw [List.splitOn_eq_singleton hversion] at hparts
  refine ⟨_, _, _, _, value.toList, hparts, Base64.canonical_encode _, ?_,
    Base64.canonical_encode _, ?_, Base64.canonical_encode _, ?_⟩
  · rw [Base64.decode_encode, hiv]
  · rw [Base64.decode_encode, gcm.length_authTag]
  · rw [Base64.decode_encode, Base64.decode_encode, AesGcm.crypt_crypt]

/-- **What is accepted** is an output exactly if it is written like one. -/
theorem produced_iff {x q : String} (hkey : config.key = .ok key)
    (h : decrypt gcm config x = .ok q) : Produced gcm key x ↔ Exact gcm key x := by
  refine ⟨Produced.exact, ?_⟩
  rintro ⟨version, ivValue, tagValue, encryptedValue, text, hparts, hiv, hivLength, htag,
    htagLength, hencrypted, htext⟩
  obtain ⟨first, ivValue', tagValue', encryptedValue', rest, hparts', -, -, hne, hdecipher⟩ :=
    decrypt_ok.mp h
  obtain ⟨rfl, rfl, rfl, rfl, rfl⟩ : version = first ∧ ivValue = ivValue' ∧ tagValue = tagValue' ∧
      encryptedValue = encryptedValue' ∧ [] = rest := by
    simpa using hparts.symm.trans hparts'
  obtain ⟨-, -, hauthentic, -⟩ := (decipher_ok hkey).mp hdecipher
  have hmem : version ∈ x.toList.splitOn '.' := by
    rw [hparts]
    exact List.mem_cons_self
  have hversion : '.' ∉ version := Grammar.not_mem_of_mem_splitOn hmem
  have hcrypt : gcm.crypt key (Base64.decode ivValue) (Utf8.encode text) =
      Base64.decode encryptedValue := by
    rw [← htext, AesGcm.crypt_crypt]
  -- the version is that of the container, with the key of this one
  refine ⟨⟨config.encryptionKey, some (String.ofList version)⟩, Base64.decode ivValue,
    String.ofList text, hkey, ?_, hivLength, ?_, ?_⟩
  · show '.' ∉ (String.ofList version).toList
    rw [String.toList_ofList]
    exact hversion
  · -- an empty text would have an empty part
    intro hempty
    have hnil : text = [] := by
      have htoList := congrArg String.toList hempty
      rw [String.toList_ofList] at htoList
      exact htoList
    rw [hnil] at hcrypt
    have hbytes : Base64.decode encryptedValue = [] := hcrypt.symm
    apply hne
    rw [← hencrypted, hbytes]
    rfl
  · have hkey' : CryptoConfig.key ⟨config.encryptionKey, some (String.ofList version)⟩ = .ok key :=
      hkey
    have hjoined : ['.'].intercalate (x.toList.splitOn '.') = x.toList :=
      List.intercalate_splitOn '.'
    rw [hparts] at hjoined
    rw [encrypt_eq hkey', String.toList_ofList, hcrypt, ← hauthentic.eq htagLength]
    unfold container
    rw [show Base64.encode (Base64.decode ivValue) = ivValue from hiv,
      show Base64.encode (Base64.decode tagValue) = tagValue from htag,
      show Base64.encode (Base64.decode encryptedValue) = encryptedValue from hencrypted]
    show Except.ok (String.ofList (['.'].intercalate [(String.ofList version).toList, _, _, _])) = _
    rw [String.toList_ofList, hjoined, String.ofList_toList]

end Properties

/-- **Token encryption**: under a valid key the round trip works exactly if the key version has no
dot, and what is accepted is an output of `encrypt` exactly if it is written like one. -/
theorem token_encryption_iff (gcm : AesGcm) {config : CryptoConfig} {key : List UInt8}
    (hkey : config.key = .ok key) :
    ((∀ (iv : List UInt8) (value : String), iv.length = 12 → value ≠ "" →
        (encrypt gcm config iv value).bind (decrypt gcm config) = .ok value) ↔
      '.' ∉ config.version) ∧
    ∀ x q, decrypt gcm config x = .ok q → (Produced gcm key x ↔ Exact gcm key x) :=
  ⟨round_trip_iff hkey, fun _ _ h => produced_iff hkey h⟩

/-! ### One key and one IV -/

def sampleKey : List UInt8 := List.replicate 32 7

def sampleIv : List UInt8 := [0, 1, 2, 3, 4, 5, 6, 7, 8, 9, 10, 11]

/-- The cipher with them, on the value `refresh-token-value`. -/
def sampleGcm : AesGcm where
  keystream key iv i :=
    if key = sampleKey ∧ iv = sampleIv then
      [24, 129, 233, 112, 29, 9, 217, 73, 119, 178, 229, 156, 226, 88, 108, 250, 225, 60,
        182].getD i 0
    else 0
  authTag key iv ciphertext :=
    if key = sampleKey ∧ iv = sampleIv ∧ ciphertext = [106, 228, 143, 2, 120, 122, 177, 100, 3, 221,
        142, 249, 140, 117, 26, 155, 141, 73, 211] then
      [76, 49, 75, 114, 153, 136, 78, 251, 48, 197, 23, 126, 92, 162, 39, 107]
    else List.replicate 16 0
  acceptsIv n := 1 ≤ n && n ≤ 128
  length_authTag key iv ciphertext := by
    split
    · rfl
    · rfl
  acceptsIv_twelve := rfl

def sampleCryptoConfig : CryptoConfig :=
  ⟨some "BwcHBwcHBwcHBwcHBwcHBwcHBwcHBwcHBwcHBwcHBwc=", some "v1"⟩

/-- An output of `encrypt`. -/
def sampleContainer : String :=
  "v1.AAECAwQFBgcICQoL.TDFLcpmITvswxRd-XKInaw.auSPAnh6sWQD3Y75jHUam41J0w"

theorem sample_round_trip :
    (encrypt sampleGcm sampleCryptoConfig sampleIv "refresh-token-value").bind
        (decrypt sampleGcm sampleCryptoConfig) = .ok "refresh-token-value" ∧
      Produced sampleGcm sampleKey sampleContainer := by
  have hkey : sampleCryptoConfig.key = .ok sampleKey := by decide +kernel
  have hboth := token_encryption_iff sampleGcm hkey
  constructor
  · apply hboth.1.mpr
    · decide +kernel
    · rfl
    · decide
  · have haccepted : decrypt sampleGcm sampleCryptoConfig sampleContainer =
        .ok "refresh-token-value" := by decide +kernel
    apply (hboth.2 _ _ haccepted).mpr
    refine ⟨"v1".toList, "AAECAwQFBgcICQoL".toList, "TDFLcpmITvswxRd-XKInaw".toList,
      "auSPAnh6sWQD3Y75jHUam41J0w".toList, "refresh-token-value".toList, ?_⟩
    decide +kernel

/-- With a dot in the version nothing is read back, and a tag that is cut off is accepted. -/
theorem dotted_version_and_short_tag :
    (encrypt sampleGcm ⟨sampleCryptoConfig.encryptionKey, some "v1.2"⟩ sampleIv
        "refresh-token-value").bind
      (decrypt sampleGcm ⟨sampleCryptoConfig.encryptionKey, some "v1.2"⟩) ≠
        .ok "refresh-token-value" ∧
    decrypt sampleGcm sampleCryptoConfig "v1.AAECAwQFBgcICQoL.TDFLcg.auSPAnh6sWQD3Y75jHUam41J0w" =
      .ok "refresh-token-value" ∧
    ¬ Produced sampleGcm sampleKey "v1.AAECAwQFBgcICQoL.TDFLcg.auSPAnh6sWQD3Y75jHUam41J0w" := by
  refine ⟨by decide +kernel, by decide +kernel, fun hproduced => ?_⟩
  obtain ⟨version, ivValue, tagValue, encryptedValue, text, hparts, -, -, -, hlength, -⟩ :=
    hproduced.exact
  have hsplit : "v1.AAECAwQFBgcICQoL.TDFLcg.auSPAnh6sWQD3Y75jHUam41J0w".toList.splitOn '.' =
      ["v1".toList, "AAECAwQFBgcICQoL".toList, "TDFLcg".toList,
        "auSPAnh6sWQD3Y75jHUam41J0w".toList] := by decide +kernel
  obtain ⟨-, -, rfl, -⟩ : _ ∧ _ ∧ "TDFLcg".toList = tagValue ∧ _ := by
    simpa using hsplit.symm.trans hparts
  revert hlength
  decide +kernel

end NexCause
