import MyOwnMesh.Identity.DeviceId

/-!
# Signatures under device ids

`crates/myownmesh-core/src/signing.rs`. A signature is checked against the public key
that a device id normalizes to, so any accepted spelling of a signer verifies; the
text of the id is otherwise never compared here. `seeded` is an executable instance
of the primitives on which concrete runs can be evaluated.
-/

namespace MyOwnMesh

open Lib

variable (P : Primitives)

/-- Sign with a device's private key; `signing.rs:68–71`. -/
def signWith (key : P.SigningKey) (message : List UInt8) : String :=
  base32Lower (P.sign key message)

/-- Verify a signature against a claimed device id; `signing.rs:78–113`. An id or a
signature that does not decode is an error, a well-formed wrong signature is `false`. -/
def verify (deviceId : String) (message : List UInt8) (signature : String) :
    Except Error Bool :=
  match normalizeDeviceId P deviceId with
  | .error e => .error (.signing e.display)
  | .ok pubkey =>
    match Base32.decode (toUppercase P pubkey).toList with
    | none => .error (.signing "device_id is not valid base32")
    | some key =>
      if key.length ≠ 32 then
        .error (.signing ("device_id decodes to " ++ toString key.length ++
          " bytes; expected 32"))
      else if P.isVerifyingKey key = false then
        .error (.signing "device_id is not a valid ed25519 public key")
      else
        match Base32.decode (toUppercase P signature).toList with
        | none => .error (.signing "signature is not valid base32")
        | some sig =>
          if sig.length ≠ 64 then
            .error (.signing ("signature decodes to " ++ toString sig.length ++
              " bytes; expected 64"))
          else .ok (P.verifySignature key message sig)

/-- A signature is checked over the bytes of the message, whatever was signed. -/
theorem verify_signWith_eq (key : P.SigningKey) (message signed : List UInt8) :
    verify P (publicId P key) message (signWith P key signed) =
      .ok (P.verifySignature (P.verifyingKey key) message (P.sign key signed)) := by
  have hkey : Base32.decode (toUppercase P (publicId P key)).toList =
      some (P.verifyingKey key) := by
    rw [publicId, toUppercase_base32Lower, Base32.decode_encode]
  have hsig : Base32.decode (toUppercase P (signWith P key signed)).toList =
      some (P.sign key signed) := by
    rw [signWith, toUppercase_base32Lower, Base32.decode_encode]
  simp only [verify, normalizeDeviceId_publicId, hkey, hsig, P.length_verifyingKey,
    P.isVerifyingKey_verifyingKey, P.length_sign, ne_eq, not_true_eq_false, ↓reduceIte,
    Bool.true_eq_false]

/-- Every signature a key produces verifies under that key's wire identity. -/
theorem verify_signWith (key : P.SigningKey) (message : List UInt8) :
    verify P (publicId P key) message (signWith P key message) = .ok true := by
  rw [verify_signWith_eq, P.verifySignature_sign]

/-! ### An executable instance -/

/-- A polynomial digest of a byte string, in 32 bytes of which the last eight vary. -/
def seededDigest (message : List UInt8) : List UInt8 :=
  let h := message.foldl (fun acc b ↦ (acc * 257 + b.toNat + 1) % 2 ^ 64) 7
  List.replicate 24 0 ++ (List.range 8).map fun i ↦ UInt8.ofNat (h / 256 ^ i)

/-- Primitives over one-byte seeds: a key signs a message with its own bytes and the
message digest, and a signature verifies exactly when it is that one. -/
def seeded : Primitives where
  SigningKey := UInt8
  verifyingKey seed := List.replicate 32 seed
  sign seed message := List.replicate 32 seed ++ seededDigest message
  isVerifyingKey _ := true
  verifySignature key message sig := sig == key ++ seededDigest message
  sha256 := seededDigest
  uppercase c := [c.toUpper]
  length_verifyingKey _ := List.length_replicate
  isVerifyingKey_verifyingKey _ := rfl
  length_sign _ _ := by simp [seededDigest]
  length_sha256 _ := by simp [seededDigest]
  verifySignature_sign _ _ := by simp
  uppercase_ascii _ _ := rfl

/-- Different seeds have different wire identities. -/
@[simp] theorem publicId_seeded_inj (a b : UInt8) :
    publicId seeded a = publicId seeded b ↔ a = b := by
  unfold publicId
  rw [base32Lower_inj]
  exact List.replicate_right_inj (by decide)

end MyOwnMesh
