import MyOwnMesh.Lib.Base32
import MyOwnMesh.Lib.Text

/-!
# Device ids and the primitives they rest on

`crates/myownmesh-core/src/identity.rs` and `signing.rs`. A device is named by the
lowercase base32 text of its Ed25519 public key; `normalizeDeviceId` collapses the
spellings a user may hand back, `pubkeyPart` only strips a display suffix.
Ed25519, SHA-256 and the Unicode case table are outside the repository: they are
the fields of `Primitives`, with the documented laws the code relies on.
-/

namespace MyOwnMesh

open Lib

/-- The crate's error type; `error.rs:10–77`, the variants the modelled code returns. -/
inductive Error where
  | identity (message : String)
  | roster (message : String)
  | signing (message : String)
  | protocol (message : String)
  | network (message : String)
  | transport (message : String)
  | custody (message : String)
  | signatureInvalid
  | other (message : String)
  deriving DecidableEq, Repr

/-- The `Display` text of an error; the `#[error(...)]` attributes of `error.rs`. -/
def Error.display : Error → String
  | .identity m => "identity: " ++ m
  | .roster m => "roster: " ++ m
  | .signing m => "signing: " ++ m
  | .protocol m => "protocol: " ++ m
  | .network m => "network: " ++ m
  | .transport m => "transport: " ++ m
  | .custody m => "custody: " ++ m
  | .signatureInvalid => "signature did not verify"
  | .other m => m

/-- Third-party code as a parameter: `ed25519_dalek` (keys, signing and verification over
byte strings), `sha2`, and the Unicode uppercase table of the standard library. The laws
say that a key of this library is well formed, that its signatures have the fixed length
and verify under it, that a digest has 32 bytes, and that the case table extends ASCII. -/
structure Primitives where
  SigningKey : Type
  verifyingKey : SigningKey → List UInt8
  sign : SigningKey → List UInt8 → List UInt8
  isVerifyingKey : List UInt8 → Bool
  verifySignature : List UInt8 → List UInt8 → List UInt8 → Bool
  sha256 : List UInt8 → List UInt8
  uppercase : Char → List Char
  length_verifyingKey : ∀ k, (verifyingKey k).length = 32
  isVerifyingKey_verifyingKey : ∀ k, isVerifyingKey (verifyingKey k) = true
  length_sign : ∀ k m, (sign k m).length = 64
  length_sha256 : ∀ m, (sha256 m).length = 32
  verifySignature_sign : ∀ k m, verifySignature (verifyingKey k) m (sign k m) = true
  uppercase_ascii : ∀ c : Char, c.toNat < 128 → uppercase c = [c.toUpper]

variable (P : Primitives)

/-- `BASE32_NOPAD.encode(bytes).to_lowercase()`; the encoder's output is ASCII. -/
def base32Lower (bytes : List UInt8) : String :=
  Text.asciiLower (String.ofList (Base32.encode bytes))

/-- `str::to_uppercase` over the platform's case table. -/
def toUppercase (s : String) : String := String.ofList (s.toList.flatMap P.uppercase)

/-- The wire identity of a signing key; `identity.rs:71–80`. -/
def publicId (key : P.SigningKey) : String := base32Lower (P.verifyingKey key)

/-- One byte in uppercase hexadecimal, two digits. -/
def hexUpper (b : UInt8) : List Char :=
  [Char.toUpper (Nat.digitChar (b.toNat / 16)), Char.toUpper (Nat.digitChar (b.toNat % 16))]

/-- Five uppercase hex digits of the SHA-256 of the id text; `identity.rs:139–158`. -/
def displaySuffix (pubkey : String) : String :=
  String.ofList ((((P.sha256 (Text.utf8 pubkey)).take 3).flatMap hexUpper).take 5)

/-- The display form of a device id; `identity.rs:101–115`. -/
def displayId (pubkey : String) : String := pubkey ++ "-" ++ displaySuffix P pubkey

/-- Split a trimmed id into its body and a five-byte suffix, if it has one. -/
def splitSuffix (trimmed : String) : String × Option String :=
  match Text.rsplitOnce '-' trimmed with
  | some (body, suffix) =>
    if suffix.utf8ByteSize = 5 then (body, some suffix) else (trimmed, none)
  | none => (trimmed, none)

/-- Collapse every accepted spelling of a device id to the wire identity;
`identity.rs:160–203`. The texts of third-party decoding errors are not reproduced. -/
def normalizeDeviceId (input : String) : Except Error String :=
  let trimmed := Text.trim input
  if trimmed = "" then .error (.identity "device id is empty")
  else
    let (body, suppliedSuffix) := splitSuffix trimmed
    let canonical := Text.asciiLower body
    match Base32.decode (Text.asciiUpper canonical).toList with
    | none => .error (.identity "device id is not valid base32")
    | some decoded =>
      if decoded.length ≠ 32 then
        .error (.identity ("device id decodes to " ++ toString decoded.length ++
          " bytes; expected 32"))
      else if P.isVerifyingKey decoded = false then
        .error (.identity "device id is not an Ed25519 public key")
      else
        match suppliedSuffix with
        | none => .ok canonical
        | some supplied =>
          let expected := displaySuffix P canonical
          if Text.eqIgnoreAsciiCase supplied expected then .ok canonical
          else .error (.identity ("device id display suffix does not match (expected " ++
            expected ++ ")"))

/-- Strip a trailing five-character alphanumeric display suffix; `signing.rs:124–131`.
Neither case nor blanks are touched. -/
def pubkeyPart (deviceId : String) : String :=
  match Text.rsplitOnce '-' deviceId with
  | some (body, suffix) =>
    if suffix.utf8ByteSize = 5 ∧ suffix.toList.all Char.isAlphanum then body else deviceId
  | none => deviceId

/-! ### Laws of base32 device ids -/

private theorem mem_base32Lower {bytes : List UInt8} {c : Char}
    (h : c ∈ (base32Lower bytes).toList) : c.isAlphanum = true ∧ c.toLower = c := by
  simp only [base32Lower, Text.asciiLower, String.toList_ofList, List.mem_map] at h
  obtain ⟨x, hx, rfl⟩ := h
  obtain ⟨a, b, d, e, f, rfl⟩ := Base32.mem_encodeBits hx
  exact Base32.isAlphanum_toLower_symbol a b d e f

private theorem toUpper_base32Lower (bytes : List UInt8) :
    (base32Lower bytes).toList.map Char.toUpper = Base32.encode bytes := by
  simp only [base32Lower, Text.asciiLower, String.toList_ofList, List.map_map]
  conv_rhs => rw [← List.map_id (Base32.encode bytes)]
  apply List.map_congr_left
  intro c hc
  obtain ⟨a, b, d, e, f, rfl⟩ := Base32.mem_encodeBits hc
  exact Base32.toUpper_toLower_symbol a b d e f

theorem isAlphanum_ascii {c : Char} (h : c.isAlphanum = true) : c.toNat < 128 := by
  delta Char.isAlphanum Char.isAlpha Char.isUpper Char.isLower Char.isDigit at h
  simp only [Bool.or_eq_true, Bool.and_eq_true, decide_eq_true_eq] at h
  have hv : c.toNat = c.val.toNat := rfl
  rcases h with (⟨_, h⟩ | ⟨_, h⟩) | ⟨_, h⟩ <;>
    · rw [UInt32.le_iff_toNat_le] at h
      rw [hv]
      exact lt_of_le_of_lt h (by decide)

/-- Letters and digits are no white space. -/
theorem isAlphanum_not_whitespace {c : Char} (h : c.isAlphanum = true) :
    Text.isWhitespace c = false := by
  have hlt := isAlphanum_ascii h
  have hall : ∀ n : Fin 128, (Char.ofNat n.val).isAlphanum = true →
      Text.isWhitespace (Char.ofNat n.val) = false := by decide
  have := hall ⟨c.toNat, hlt⟩
  simp only [Char.ofNat_toNat] at this
  exact this h

/-- Uppercasing a lowercase base32 text gives the encoder's output back. -/
theorem toUppercase_base32Lower (bytes : List UInt8) :
    (toUppercase P (base32Lower bytes)).toList = Base32.encode bytes := by
  have h : ∀ c ∈ (base32Lower bytes).toList, P.uppercase c = [c.toUpper] :=
    fun c hc ↦ P.uppercase_ascii c (isAlphanum_ascii (mem_base32Lower hc).1)
  rw [toUppercase, String.toList_ofList, List.flatMap_congr h, ← List.map_eq_flatMap,
    toUpper_base32Lower]

/-- A lowercase base32 text has no separator, so it does not split. -/
theorem rsplitOnce_base32Lower (bytes : List UInt8) :
    Text.rsplitOnce '-' (base32Lower bytes) = none := by
  have h : '-' ∉ (base32Lower bytes).toList := fun hc ↦
    absurd (mem_base32Lower hc).1 (by decide)
  rw [Text.rsplitOnce, Text.rsplitOnceChars_of_notMem h]
  rfl

/-- A wire identity has letters and digits only. -/
theorem isAlphanum_publicId (key : P.SigningKey) {c : Char} (h : c ∈ (publicId P key).toList) :
    c.isAlphanum = true := (mem_base32Lower h).1

/-- Lowercase base32 texts of different bytes differ. -/
theorem base32Lower_inj {a b : List UInt8} : base32Lower a = base32Lower b ↔ a = b := by
  constructor
  · intro h
    have hd := congrArg (fun s : String ↦ Base32.decode (s.toList.map Char.toUpper)) h
    simp only [toUpper_base32Lower, Base32.decode_encode, Option.some.injEq] at hd
    exact hd
  · exact congrArg base32Lower

/-- A wire identity carries no display suffix. -/
theorem pubkeyPart_publicId (key : P.SigningKey) :
    pubkeyPart (publicId P key) = publicId P key := by
  rw [pubkeyPart, publicId, rsplitOnce_base32Lower]

private theorem trim_base32Lower (bytes : List UInt8) :
    Text.trim (base32Lower bytes) = base32Lower bytes :=
  Text.trim_of_forall fun _ hc ↦ isAlphanum_not_whitespace (mem_base32Lower hc).1

private theorem asciiLower_base32Lower (bytes : List UInt8) :
    Text.asciiLower (base32Lower bytes) = base32Lower bytes := by
  apply String.toList_inj.mp
  rw [Text.asciiLower, String.toList_ofList]
  have h := List.map_congr_left (l := (base32Lower bytes).toList) (f := Char.toLower) (g := id)
    fun c hc ↦ (mem_base32Lower hc).2
  rw [h, List.map_id]

private theorem publicId_ne_empty (key : P.SigningKey) : publicId P key ≠ "" := by
  intro he
  have hup := toUppercase_base32Lower P (P.verifyingKey key)
  rw [publicId] at he
  rw [he] at hup
  have hd := Base32.decode_encode (P.verifyingKey key)
  rw [← hup] at hd
  have hl := P.length_verifyingKey key
  rw [← Option.some.inj hd] at hl
  exact absurd hl (by decide)

private theorem decode_publicId (key : P.SigningKey) :
    Base32.decode (Text.asciiUpper (publicId P key)).toList = some (P.verifyingKey key) := by
  rw [publicId, Text.asciiUpper, String.toList_ofList, toUpper_base32Lower,
    Base32.decode_encode]

/-- The wire identity of every key is its own normal form. -/
theorem normalizeDeviceId_publicId (key : P.SigningKey) :
    normalizeDeviceId P (publicId P key) = .ok (publicId P key) := by
  have htrim : Text.trim (publicId P key) = publicId P key := trim_base32Lower _
  have hsplit : splitSuffix (publicId P key) = (publicId P key, none) := by
    rw [splitSuffix, publicId, rsplitOnce_base32Lower]
  have hlower : Text.asciiLower (publicId P key) = publicId P key := asciiLower_base32Lower _
  simp only [normalizeDeviceId, htrim, if_neg (publicId_ne_empty P key), hsplit, decode_publicId,
    P.length_verifyingKey, P.isVerifyingKey_verifyingKey, ne_eq, not_true_eq_false, ↓reduceIte,
    Bool.true_eq_false, hlower]

/-! ### Canonical ids -/

private theorem toUpper_of_not_ascii {c : Char} (h : 128 ≤ c.toNat) : c.toUpper = c := by
  unfold Char.toUpper
  rw [dif_neg]
  intro hlow
  have hle := UInt32.le_iff_toNat_le.mp hlow.2
  have hv : c.toNat = c.val.toNat := rfl
  rw [hv] at h
  exact absurd (lt_of_lt_of_le (by decide) (h.trans hle)) (lt_irrefl 122)

/-- A canonical id is ASCII and has no separator. -/
theorem ascii_of_normalizeDeviceId {d : String} (h : normalizeDeviceId P d = .ok d) {c : Char}
    (hc : c ∈ d.toList) : c.toNat < 128 ∧ c ≠ '-' := by
  have hdecode : ∃ bytes, Base32.decode (Text.asciiUpper d).toList = some bytes := by
    unfold normalizeDeviceId at h
    simp only at h
    split at h
    · cases h
    · split at h
      · cases h
      · next decoded hdec =>
        split at h
        · cases h
        · split at h
          · cases h
          · have hcanonical : Text.asciiLower (splitSuffix (Text.trim d)).1 = d := by
              split at h
              · exact Except.ok.inj h
              · split at h
                · exact Except.ok.inj h
                · cases h
            rw [hcanonical] at hdec
            exact ⟨decoded, hdec⟩
  obtain ⟨bytes, hdecode⟩ := hdecode
  have hmem : c.toUpper ∈ (Text.asciiUpper d).toList := by
    rw [Text.asciiUpper, String.toList_ofList]
    exact List.mem_map_of_mem hc
  have hsymbol := Base32.symbol_of_decode hdecode hmem
  constructor
  · by_contra hbig
    rw [toUpper_of_not_ascii (by omega)] at hsymbol
    omega
  · rintro rfl
    exact absurd hsymbol (by decide)

/-- A canonical id is its own key. -/
theorem pubkeyPart_of_normalizeDeviceId {d : String} (h : normalizeDeviceId P d = .ok d) :
    pubkeyPart d = d := by
  have hsep : '-' ∉ d.toList := fun hc ↦ (ascii_of_normalizeDeviceId P h hc).2 rfl
  rw [pubkeyPart, Text.rsplitOnce, Text.rsplitOnceChars_of_notMem hsep]
  rfl

/-! ### The display form -/

private theorem isAlphanum_hexUpper {b : UInt8} {c : Char} (h : c ∈ hexUpper b) :
    c.isAlphanum = true := by
  have hall : ∀ n : Fin 16, (Char.toUpper (Nat.digitChar n.val)).isAlphanum = true := by decide
  have hb : b.toNat < 256 := b.toNat_lt
  simp only [hexUpper, List.mem_cons, List.not_mem_nil, or_false] at h
  rcases h with rfl | rfl
  · exact hall ⟨b.toNat / 16, by omega⟩
  · exact hall ⟨b.toNat % 16, by omega⟩

private theorem mem_displaySuffix (pubkey : String) {c : Char}
    (h : c ∈ (displaySuffix P pubkey).toList) : c.isAlphanum = true := by
  rw [displaySuffix, String.toList_ofList] at h
  obtain ⟨b, _, hb⟩ := List.mem_flatMap.mp (List.mem_of_mem_take h)
  exact isAlphanum_hexUpper hb

private theorem utf8ByteSize_displaySuffix (pubkey : String) :
    (displaySuffix P pubkey).utf8ByteSize = 5 := by
  have hlen : (((P.sha256 (Text.utf8 pubkey)).take 3).flatMap hexUpper).length = 6 := by
    have h3 : ((P.sha256 (Text.utf8 pubkey)).take 3).length = 3 := by
      rw [List.length_take, P.length_sha256]
      rfl
    obtain ⟨a, b, c, habc⟩ := List.length_eq_three.mp h3
    rw [habc]
    rfl
  rw [displaySuffix, Text.utf8ByteSize_ofList, List.length_take, hlen]
  · rfl
  · intro c hc
    refine isAlphanum_ascii (mem_displaySuffix P pubkey ?_)
    rwa [displaySuffix, String.toList_ofList]

private theorem rsplitOnce_displayId (pubkey : String) :
    Text.rsplitOnce '-' (displayId P pubkey) = some (pubkey, displaySuffix P pubkey) :=
  Text.rsplitOnce_append fun h ↦ absurd (mem_displaySuffix P _ h) (by decide)

/-- The display form is longer than the key it shows. -/
theorem displayId_ne (pubkey : String) : displayId P pubkey ≠ pubkey := by
  intro h
  have hl := congrArg (fun s : String ↦ s.toList.length) h
  simp [displayId] at hl

/-- The display form strips to the bare key. -/
theorem pubkeyPart_displayId (pubkey : String) :
    pubkeyPart (displayId P pubkey) = pubkey := by
  have hall : (displaySuffix P pubkey).toList.all Char.isAlphanum = true :=
    List.all_eq_true.mpr fun _ hc ↦ mem_displaySuffix P _ hc
  simp only [pubkeyPart, rsplitOnce_displayId, utf8ByteSize_displaySuffix, hall, and_self,
    ↓reduceIte]

/-- The display form of a device normalizes to its wire identity. -/
theorem normalizeDeviceId_displayId (key : P.SigningKey) :
    normalizeDeviceId P (displayId P (publicId P key)) = .ok (publicId P key) := by
  have htrim : Text.trim (displayId P (publicId P key)) = displayId P (publicId P key) := by
    apply Text.trim_of_forall
    intro c hc
    have hl : (displayId P (publicId P key)).toList =
        (publicId P key).toList ++ '-' :: (displaySuffix P (publicId P key)).toList := by
      simp [displayId]
    rw [hl, List.mem_append, List.mem_cons] at hc
    rcases hc with hc | rfl | hc
    · exact isAlphanum_not_whitespace (mem_base32Lower hc).1
    · decide
    · exact isAlphanum_not_whitespace (mem_displaySuffix P _ hc)
  have hne : displayId P (publicId P key) ≠ "" := by
    intro h
    have hs := rsplitOnce_displayId P (publicId P key)
    rw [h] at hs
    cases hs
  have hsplit : splitSuffix (displayId P (publicId P key)) =
      (publicId P key, some (displaySuffix P (publicId P key))) := by
    simp only [splitSuffix, rsplitOnce_displayId, utf8ByteSize_displaySuffix, ↓reduceIte]
  have hlower : Text.asciiLower (publicId P key) = publicId P key := asciiLower_base32Lower _
  have hsame : Text.eqIgnoreAsciiCase (displaySuffix P (publicId P key))
      (displaySuffix P (publicId P key)) = true := beq_self_eq_true _
  simp only [normalizeDeviceId, htrim, if_neg hne, hsplit, decode_publicId,
    P.length_verifyingKey, P.isVerifyingKey_verifyingKey, ne_eq, not_true_eq_false, ↓reduceIte,
    Bool.true_eq_false, hlower, hsame]

end MyOwnMesh
