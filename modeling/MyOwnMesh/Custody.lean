import Std.Data.ExtTreeMap
import Mathlib.Data.List.Perm.Basic
import MyOwnMesh.Identity.Signing
import MyOwnMesh.Lib.Replay

/-!
# The custody lock of a device

`crates/myownmesh-core/src/custody.rs`. A network may be enrolled with an authenticator; from then
on a change needs one of its codes or a recovery code, which is used up. The store is a file that
every call loads whole and saves whole, and both can fail. Of the two primitives, SHA-256 is that of
the identity code; HMAC-SHA1 is a function to twenty bytes.
-/

namespace MyOwnMesh.Custody

open Lib Lib.Replay

/-- HMAC-SHA1 of a key and a message. -/
abbrev Hmac := List UInt8 → List UInt8 → Fin 20 → UInt8

variable (P : Primitives) (hmacSha1 : Hmac)

/-! ### Codes -/

/-- `custody.rs:38`. -/
def digits : Nat := 6

/-- `custody.rs:40`. -/
def period : UInt64 := 30

/-- `custody.rs:43`. -/
def skewSteps : Int := 1

/-- `custody.rs:47`. -/
def recoveryCodes : Nat := 10

/-- `custody.rs:49`. -/
def issuer : String := "MyOwnMesh"

/-- `u64::to_be_bytes`. -/
def toBeBytes (n : UInt64) : List UInt8 :=
  [56, 48, 40, 32, 24, 16, 8, 0].map fun shift : UInt64 ↦ (n >>> shift).toUInt8

/-- The one-time password of a counter; `custody.rs:195–206`. -/
def hotp (secret : List UInt8) (counter : UInt64) : UInt32 :=
  let digest := hmacSha1 secret (toBeBytes counter)
  let offset := (digest 19 &&& 0x0f).toNat
  let bin := (digest (.ofNat 20 offset) &&& 0x7f).toUInt32 <<< 24 |||
    (digest (.ofNat 20 (offset + 1))).toUInt32 <<< 16 |||
    (digest (.ofNat 20 (offset + 2))).toUInt32 <<< 8 |||
    (digest (.ofNat 20 (offset + 3))).toUInt32
  bin % 1000000

/-- `format!("{:06}", ..)`. -/
def sixDigits (n : UInt32) : String :=
  String.ofList ((Nat.toDigits 10 n.toNat).leftpad digits '0')

/-- What the authenticator shows in a time step; `custody.rs:213–219`. -/
def totp (secret : List UInt8) (step : UInt64) : String := sixDigits (hotp hmacSha1 secret step)

/-- Equality of bytes, without an early exit; `custody.rs:296–305`. -/
def constantEq (a b : List UInt8) : Bool :=
  a.length == b.length && (a.zip b).foldl (fun diff p ↦ diff ||| (p.1 ^^^ p.2)) 0 == 0

/-- `custody.rs:221–235`. -/
def verifyTotpAt (secret : List UInt8) (code : String) (unix : UInt64) : Bool :=
  let code := Text.trim code
  if code.utf8ByteSize ≠ digits ∨ ¬ (Text.utf8 code).all (fun b ↦ 48 ≤ b && b ≤ 57) then false
  else
    let step : Int := (unix / period).toNat
    [-skewSteps, 0, skewSteps].any fun d ↦
      let counter := (max (step + d) 0).toNat.toUInt64
      constantEq (Text.utf8 (totp hmacSha1 secret counter)) (Text.utf8 code)

/-- A code without separators and case; `custody.rs:286–290`. -/
def normalized (code : String) : String :=
  String.ofList ((code.toList.filter Char.isAlphanum).map Char.toLower)

/-- `custody.rs:285–294`. -/
def hashCode (code : String) : String :=
  Text.hexEncode (P.sha256 (Text.utf8 (normalized code)))

/-- One code of `gen_recovery_codes`; `custody.rs:275–279`. -/
def recoveryCode (random : List UInt8) : String :=
  let c := (base32Lower random).toList.take 10
  String.ofList (c.take 5) ++ "-" ++ String.ofList (c.drop 5)

/-- Percent-encoding; `custody.rs:250–261`. -/
def pct (s : String) : String :=
  String.ofList ((Text.utf8 s).flatMap fun b ↦
    let c := Char.ofNat b.toNat
    if b < 128 && (c.isAlphanum || c == '-' || c == '.' || c == '_' || c == '~') then [c]
    else '%' :: hexUpper b)

/-- `custody.rs:237–243`. -/
def provisioningUri (secretB32 account : String) : String :=
  "otpauth://totp/" ++ pct issuer ++ ":" ++ pct account ++ "?secret=" ++ secretB32 ++ "&issuer=" ++
    pct issuer ++ "&algorithm=SHA1&digits=6&period=30"

/-! ### The store -/

/-- `custody.rs:61–69`. -/
structure Enrollment where
  secretB32 : String
  recoveryHashes : List String
  createdAt : UInt64
  deriving DecidableEq

/-- `custody.rs:55–59`; a missing file is an empty store. -/
abbrev CustodyStore := Std.ExtTreeMap String Enrollment

/-- `custody.rs:75–80`. -/
structure Enrolled where
  secretB32 : String
  otpauthUri : String
  recoveryCodes : List String

/-- What one load and one save meet, and the clock. -/
structure Disk where
  now : UInt64
  load : Except Error Unit
  save : Except Error Unit

/-- The random bytes an enrollment draws. -/
structure Draws where
  secret : List UInt8
  codes : Fin recoveryCodes → List UInt8

/-- `custody.rs:272–281`. -/
def genRecoveryCodes (draws : Draws) : List String :=
  List.ofFn fun i ↦ recoveryCode (draws.codes i)

/-- `custody.rs:124–150`, with the store afterwards. -/
def enrollAt (disk : Disk) (draws : Draws) (store : CustodyStore) (networkId account : String) :
    Except Error Enrolled × CustodyStore :=
  match disk.load with
  | .error e => (.error e, store)
  | .ok () =>
    if store.contains networkId then
      (.error (.custody ("network " ++ networkId ++
        " already has MFA enrolled on this device; disable it first")), store)
    else
      let secretB32 := String.ofList (Base32.encode draws.secret)
      let codes := genRecoveryCodes draws
      let enrollment : Enrollment := ⟨secretB32, codes.map (hashCode P), disk.now⟩
      match disk.save with
      | .error e => (.error e, store)
      | .ok () =>
        (.ok ⟨secretB32, provisioningUri secretB32 account, codes⟩,
          store.insert networkId enrollment)

/-- `custody.rs:152–181`, with the store afterwards. The text of the decoding error is not
reproduced. -/
def requireAt (disk : Disk) (store : CustodyStore) (networkId : String) (code : Option String) :
    Except Error Unit × CustodyStore :=
  match disk.load with
  | .error e => (.error e, store)
  | .ok () =>
    match store[networkId]? with
    | none => (.ok (), store)
    | some enr =>
      match (code.map Text.trim).filter (· ≠ "") with
      | none => (.error (.custody "this change requires your authenticator code"), store)
      | some code =>
        match Base32.decode enr.secretB32.toList with
        | none => (.error (.custody "stored secret is not valid base32"), store)
        | some secret =>
          if verifyTotpAt hmacSha1 secret code disk.now then (.ok (), store)
          else
            let h := hashCode P code
            let same (x : String) := constantEq (Text.utf8 x) (Text.utf8 h)
            if enr.recoveryHashes.any same then
              match disk.save with
              | .error e => (.error e, store)
              | .ok () =>
                (.ok (), store.insert networkId
                  { enr with recoveryHashes := enr.recoveryHashes.eraseP same })
            else (.error (.custody "invalid authenticator code"), store)

/-- `custody.rs:183–189`, with the store afterwards. The gate and the removal each load and save. -/
def disableAt (gate removal : Disk) (store : CustodyStore) (networkId code : String) :
    Except Error Unit × CustodyStore :=
  match requireAt P hmacSha1 gate store networkId (some code) with
  | (.error e, store) => (.error e, store)
  | (.ok (), store) =>
    match removal.load with
    | .error e => (.error e, store)
    | .ok () =>
      match removal.save with
      | .error e => (.error e, store)
      | .ok () => (.ok (), store.erase networkId)

/-- A call on the store. -/
inductive Op where
  | enroll (disk : Disk) (draws : Draws) (networkId account : String)
  | require (disk : Disk) (networkId : String) (code : Option String)
  | disable (gate removal : Disk) (networkId code : String)

/-- The network a call is for. -/
def Op.networkId : Op → String
  | .enroll _ _ networkId _ => networkId
  | .require _ networkId _ => networkId
  | .disable _ _ networkId _ => networkId

/-- The codes a call mints or presents. -/
def Op.codes : Op → List String
  | .enroll _ draws _ _ => genRecoveryCodes draws
  | .require _ _ code => code.toList
  | .disable _ _ _ code => [code]

/-- What a call returns, and the store afterwards. -/
def call (store : CustodyStore) : Op → Except Error Unit × CustodyStore
  | .enroll disk draws networkId account =>
    let r := enrollAt P disk draws store networkId account
    (r.1.map fun _ ↦ (), r.2)
  | .require disk networkId code => requireAt P hmacSha1 disk store networkId code
  | .disable gate removal networkId code => disableAt P hmacSha1 gate removal store networkId code

/-! ### What a call can do -/

private theorem foldl_diff_eq_zero (pairs : List (UInt8 × UInt8)) (diff : UInt8) :
    pairs.foldl (fun diff p ↦ diff ||| (p.1 ^^^ p.2)) diff = 0 ↔
      diff = 0 ∧ ∀ p ∈ pairs, p.1 = p.2 := by
  induction pairs generalizing diff with
  | nil => simp
  | cons p rest ih =>
    rw [List.foldl_cons, ih, UInt8.or_eq_zero_iff, UInt8.xor_eq_zero_iff, and_assoc,
      List.forall_mem_cons]

/-- The comparison is equality. -/
theorem constantEq_iff {a b : List UInt8} : constantEq a b = true ↔ a = b := by
  rw [constantEq, Bool.and_eq_true, beq_iff_eq, beq_iff_eq, foldl_diff_eq_zero]
  constructor
  · rintro ⟨hlen, -, hall⟩
    refine List.ext_getElem hlen fun i ha hb ↦ ?_
    have hmem : (a[i], b[i]) ∈ a.zip b := by
      rw [← List.getElem_zip (i := i) (h := by rw [List.length_zip]; omega)]
      exact List.getElem_mem _
    exact hall _ hmem
  · rintro rfl
    refine ⟨rfl, rfl, fun p hp ↦ ?_⟩
    obtain ⟨i, hi, rfl⟩ := List.getElem_of_mem hp
    rw [List.getElem_zip]

private theorem constantEq_utf8 (a b : String) :
    constantEq (Text.utf8 a) (Text.utf8 b) = (b == a) := by
  rw [Bool.eq_iff_iff, constantEq_iff, Text.utf8_inj, beq_iff_eq, eq_comm]

/-- The current time step, the one before it and the one after it. -/
def Window (unix step : UInt64) : Prop :=
  step.toNat = (unix / period).toNat ∨ step.toNat = (unix / period).toNat + 1 ∨
    step.toNat + 1 = (unix / period).toNat

/-- A code that verifies is what the authenticator shows in one of three time steps. -/
theorem verifyTotpAt_spec {secret : List UInt8} {code : String} {unix : UInt64}
    (h : verifyTotpAt hmacSha1 secret code unix = true) :
    ∃ step, Window unix step ∧ Text.trim code = totp hmacSha1 secret step := by
  unfold verifyTotpAt at h
  simp only at h
  split at h
  · cases h
  · rw [List.any_eq_true] at h
    obtain ⟨d, hd, heq⟩ := h
    rw [constantEq_iff, Text.utf8_inj] at heq
    refine ⟨_, ?_, heq.symm⟩
    have hsmall : (unix / period).toNat < 2 ^ 63 := by
      have hlt := unix.toNat_lt
      have hperiod : period.toNat = 30 := rfl
      rw [UInt64.toNat_div, hperiod]
      omega
    have hstep : ∀ n : Nat, n < 2 ^ 64 → n.toUInt64.toNat = n := fun n hn ↦ by
      rw [Nat.toUInt64, UInt64.toNat_ofNat', Nat.mod_eq_of_lt hn]
    rw [Window, hstep _ (by simp [skewSteps] at hd; omega)]
    simp only [List.mem_cons, List.not_mem_nil, or_false, skewSteps] at hd
    omega

/-- The code is, blanks aside, what the authenticator shows now or a step away. -/
def FromAuthenticator (enr : Enrollment) (now : UInt64) (code : String) : Prop :=
  ∃ secret step, Base32.decode enr.secretB32.toList = some secret ∧ Window now step ∧
    Text.trim code = totp hmacSha1 secret step

/-- The code verifies as one of the authenticator. -/
def byAuthenticator (enr : Enrollment) (now : UInt64) (code : String) : Bool :=
  (Base32.decode enr.secretB32.toList).any fun secret ↦ verifyTotpAt hmacSha1 secret code now

theorem fromAuthenticator_of_byAuthenticator {enr : Enrollment} {now : UInt64} {code : String}
    (h : byAuthenticator hmacSha1 enr now code = true) :
    FromAuthenticator hmacSha1 enr now code := by
  rw [byAuthenticator, Option.any_eq_true] at h
  obtain ⟨secret, hdecode, hverify⟩ := h
  obtain ⟨step, hwindow, heq⟩ := verifyTotpAt_spec hmacSha1 hverify
  exact ⟨secret, step, hdecode, hwindow, heq⟩

private theorem normalized_trim (code : String) :
    normalized (Text.trim code) = normalized code := by
  rw [normalized, normalized, Text.filter_trim fun c hc ↦ isAlphanum_not_whitespace hc]

@[simp] theorem hashCode_trim (code : String) : hashCode P (Text.trim code) = hashCode P code := by
  rw [hashCode, hashCode, normalized_trim]

/-- The gate refuses, is open, lets a code of the authenticator through, or takes a recovery
code. -/
theorem requireAt_cases (disk : Disk) (store : CustodyStore) (networkId : String)
    (code : Option String) :
    (∃ e, requireAt P hmacSha1 disk store networkId code = (.error e, store)) ∨
      (store[networkId]? = none ∧
        requireAt P hmacSha1 disk store networkId code = (.ok (), store)) ∨
      (∃ enr c, store[networkId]? = some enr ∧ code = some c ∧
        byAuthenticator hmacSha1 enr disk.now c = true ∧
        requireAt P hmacSha1 disk store networkId code = (.ok (), store)) ∨
      ∃ enr c, store[networkId]? = some enr ∧ code = some c ∧
        byAuthenticator hmacSha1 enr disk.now c = false ∧ hashCode P c ∈ enr.recoveryHashes ∧
        requireAt P hmacSha1 disk store networkId code = (.ok (), store.insert networkId
          { enr with recoveryHashes := enr.recoveryHashes.erase (hashCode P c) }) := by
  unfold requireAt
  cases hload : disk.load with
  | error e => exact .inl ⟨e, rfl⟩
  | ok u =>
    cases hget : store[networkId]? with
    | none => exact .inr (.inl ⟨rfl, rfl⟩)
    | some enr =>
      cases hcode : (code.map Text.trim).filter (· ≠ "") with
      | none => exact .inl ⟨_, rfl⟩
      | some trimmed =>
        obtain ⟨c, rfl, rfl⟩ : ∃ c, code = some c ∧ Text.trim c = trimmed := by
          rw [Option.filter_eq_some_iff, Option.map_eq_some_iff] at hcode
          exact hcode.1
        simp only
        cases hdecode : Base32.decode enr.secretB32.toList with
        | none => exact .inl ⟨_, rfl⟩
        | some secret =>
          have hby : byAuthenticator hmacSha1 enr disk.now c =
              verifyTotpAt hmacSha1 secret (Text.trim c) disk.now := by
            rw [byAuthenticator, hdecode, Option.any_some, verifyTotpAt, verifyTotpAt,
              Text.trim_trim]
          simp only
          split
          · next hverify =>
            exact .inr (.inr (.inl ⟨enr, c, rfl, rfl, hby.trans hverify, rfl⟩))
          · next hverify =>
            split
            · next hany =>
              cases hsave : disk.save with
              | error e => exact .inl ⟨e, rfl⟩
              | ok u =>
                refine .inr (.inr (.inr ⟨enr, c, rfl, rfl, ?_, ?_, ?_⟩))
                · rw [hby, Bool.eq_false_iff]
                  exact hverify
                · simpa [constantEq_iff, Text.utf8_inj] using hany
                · simp only [constantEq_utf8, hashCode_trim, List.erase_eq_eraseP]
            · exact .inl ⟨_, rfl⟩

/-- The gate writes only to take a recovery code. -/
theorem requireAt_store (disk : Disk) (store : CustodyStore) (networkId : String)
    (code : Option String) :
    (requireAt P hmacSha1 disk store networkId code).2 = store ∨
      ∃ enr c, store[networkId]? = some enr ∧ code = some c ∧
        hashCode P c ∈ enr.recoveryHashes ∧
        requireAt P hmacSha1 disk store networkId code = (.ok (), store.insert networkId
          { enr with recoveryHashes := enr.recoveryHashes.erase (hashCode P c) }) := by
  rcases requireAt_cases P hmacSha1 disk store networkId code with
    ⟨e, hr⟩ | ⟨-, hr⟩ | ⟨_, _, -, -, -, hr⟩ | ⟨enr, c, hget, hc, -, h⟩
  · exact .inl (by rw [hr])
  · exact .inl (by rw [hr])
  · exact .inl (by rw [hr])
  · exact .inr ⟨enr, c, hget, hc, h⟩

/-- The gate keeps the enrollment. -/
theorem requireAt_kept (disk : Disk) {store : CustodyStore} {networkId : String}
    (code : Option String) {enr : Enrollment} (hget : store[networkId]? = some enr) :
    ∃ hashes, (requireAt P hmacSha1 disk store networkId code).2[networkId]? =
      some { enr with recoveryHashes := hashes } := by
  rcases requireAt_store P hmacSha1 disk store networkId code with hr | ⟨enr', c, hget', -, -, hr⟩
  · exact ⟨enr.recoveryHashes, by rw [hr, hget]⟩
  · rw [hget] at hget'
    cases hget'
    exact ⟨_, by rw [hr, Std.ExtTreeMap.getElem?_insert_self]⟩

/-- An enrollment fails without a trace, or is new. -/
theorem enrollAt_cases (disk : Disk) (draws : Draws) (store : CustodyStore)
    (networkId account : String) :
    (∃ e, enrollAt P disk draws store networkId account = (.error e, store)) ∨
      (store[networkId]? = none ∧ ∃ enrolled, enrolled.recoveryCodes = genRecoveryCodes draws ∧
        enrollAt P disk draws store networkId account =
          (.ok enrolled, store.insert networkId ⟨String.ofList (Base32.encode draws.secret),
            (genRecoveryCodes draws).map (hashCode P), disk.now⟩)) := by
  unfold enrollAt
  cases hload : disk.load with
  | error e => exact .inl ⟨e, rfl⟩
  | ok u =>
    simp only
    split
    · exact .inl ⟨_, rfl⟩
    · next hnew =>
      cases hsave : disk.save with
      | error e => exact .inl ⟨e, rfl⟩
      | ok u =>
        refine .inr ⟨?_, _, rfl, rfl⟩
        refine Std.ExtTreeMap.getElem?_eq_none ?_
        rwa [Std.ExtTreeMap.mem_iff_contains]

/-- A removal fails where its gate left the store, or removes. -/
theorem disableAt_cases (gate removal : Disk) (store : CustodyStore) (networkId code : String) :
    (∃ e, requireAt P hmacSha1 gate store networkId (some code) = (.error e, store) ∧
        disableAt P hmacSha1 gate removal store networkId code = (.error e, store)) ∨
      ∃ passed, requireAt P hmacSha1 gate store networkId (some code) = (.ok (), passed) ∧
        ((∃ e, disableAt P hmacSha1 gate removal store networkId code = (.error e, passed)) ∨
          disableAt P hmacSha1 gate removal store networkId code =
            (.ok (), passed.erase networkId)) := by
  have hpassed : ∀ passed,
      requireAt P hmacSha1 gate store networkId (some code) = (.ok (), passed) →
      ((∃ e, disableAt P hmacSha1 gate removal store networkId code = (.error e, passed)) ∨
        disableAt P hmacSha1 gate removal store networkId code =
          (.ok (), passed.erase networkId)) := by
    intro passed hgate
    rw [disableAt, hgate]
    simp only
    cases removal.load with
    | error e => exact .inl ⟨e, rfl⟩
    | ok u =>
      cases removal.save with
      | error e => exact .inl ⟨e, rfl⟩
      | ok u => exact .inr rfl
  rcases requireAt_cases P hmacSha1 gate store networkId (some code) with
    ⟨e, h⟩ | ⟨-, h⟩ | ⟨_, _, -, -, -, h⟩ | ⟨_, _, -, -, -, -, h⟩
  · refine .inl ⟨e, h, ?_⟩
    rw [disableAt, h]
  · exact .inr ⟨_, h, hpassed _ h⟩
  · exact .inr ⟨_, h, hpassed _ h⟩
  · exact .inr ⟨_, h, hpassed _ h⟩

/-! ### Histories -/

/-- The store, and per network the codes its current enrollment minted and the codes, other than
those of the authenticator, for which the gate has opened since. -/
structure History where
  store : CustodyStore
  minted : String → List String
  accepted : String → List String

/-- Nothing is enrolled. -/
def History.start : History := ⟨∅, fun _ ↦ [], fun _ ↦ []⟩

/-- How many recovery codes a network has left. -/
def codesLeft (store : CustodyStore) (networkId : String) : Option Nat :=
  store[networkId]?.map (·.recoveryHashes.length)

/-- A code is accepted if the gate of an enrolled network opens for it and it is none of the
authenticator's. -/
def History.take (h : History) (disk : Disk) (gate : Except Error Unit) (networkId : String)
    (code : Option String) : String → List String :=
  match gate, h.store[networkId]?, code with
  | .ok (), some enr, some c =>
    if byAuthenticator hmacSha1 enr disk.now c then h.accepted
    else Function.update h.accepted networkId (c :: h.accepted networkId)
  | _, _, _ => h.accepted

/-- One call in a history. -/
def step (h : History) : Op → History
  | .enroll disk draws networkId account =>
    match enrollAt P disk draws h.store networkId account with
    | (.ok enrolled, after) =>
      ⟨after, Function.update h.minted networkId enrolled.recoveryCodes,
        Function.update h.accepted networkId []⟩
    | (.error _, after) => { h with store := after }
  | .require disk networkId code =>
    let r := requireAt P hmacSha1 disk h.store networkId code
    { h with store := r.2, accepted := h.take hmacSha1 disk r.1 networkId code }
  | .disable gate removal networkId code =>
    let r := requireAt P hmacSha1 gate h.store networkId (some code)
    { h with
      store := (disableAt P hmacSha1 gate removal h.store networkId code).2
      accepted := h.take hmacSha1 gate r.1 networkId (some code) }

/-- The books of every network: where it is enrolled, what was minted is unused or was accepted;
anyhow no more was accepted than was minted. -/
structure Booked (h : History) : Prop where
  balanced : ∀ networkId enr, h.store[networkId]? = some enr →
    ((h.minted networkId).map (hashCode P)).Perm
      (enr.recoveryHashes ++ (h.accepted networkId).map (hashCode P))
  covered : ∀ networkId, ((h.accepted networkId).map (hashCode P)).Subperm
    ((h.minted networkId).map (hashCode P))

variable {P hmacSha1}

variable (P hmacSha1) in
/-- The gate leaves the store and accepts nothing, or uses up the code that it accepts. -/
private theorem take_cases (h : History) (disk : Disk) (networkId : String)
    (code : Option String) :
    ((requireAt P hmacSha1 disk h.store networkId code).2 = h.store ∧
        h.take hmacSha1 disk (requireAt P hmacSha1 disk h.store networkId code).1 networkId code =
          h.accepted) ∨
      ∃ enr c, h.store[networkId]? = some enr ∧ code = some c ∧
        hashCode P c ∈ enr.recoveryHashes ∧
        (requireAt P hmacSha1 disk h.store networkId code).2 = h.store.insert networkId
          { enr with recoveryHashes := enr.recoveryHashes.erase (hashCode P c) } ∧
        h.take hmacSha1 disk (requireAt P hmacSha1 disk h.store networkId code).1 networkId code =
          Function.update h.accepted networkId (c :: h.accepted networkId) := by
  rcases requireAt_cases P hmacSha1 disk h.store networkId code with
    ⟨e, hr⟩ | ⟨hnone, hr⟩ | ⟨enr, c, hget, rfl, hby, hr⟩ | ⟨enr, c, hget, rfl, hby, hmem, hr⟩
  · exact .inl (by rw [hr]; exact ⟨rfl, rfl⟩)
  · exact .inl ⟨by rw [hr], by simp [hr, History.take, hnone]⟩
  · exact .inl ⟨by rw [hr], by simp [hr, History.take, hget, hby]⟩
  · exact .inr ⟨enr, c, hget, rfl, hmem, by rw [hr], by simp [hr, History.take, hget, hby]⟩

variable (hmacSha1) in
/-- The gate keeps the books. -/
private theorem Booked.gate {h : History} (hb : Booked P h) (disk : Disk) (networkId : String)
    (code : Option String) :
    Booked P ⟨(requireAt P hmacSha1 disk h.store networkId code).2, h.minted,
      h.take hmacSha1 disk (requireAt P hmacSha1 disk h.store networkId code).1 networkId
        code⟩ := by
  rcases take_cases P hmacSha1 h disk networkId code with
    ⟨hstore, htake⟩ | ⟨enr, c, hget, rfl, hmem, hstore, htake⟩
  · rw [hstore, htake]
    exact hb
  rw [hstore, htake]
  have hbooks : ((h.minted networkId).map (hashCode P)).Perm
      (enr.recoveryHashes.erase (hashCode P c) ++
        (c :: h.accepted networkId).map (hashCode P)) := by
    have hspent := (List.perm_cons_erase hmem).append_right
      ((h.accepted networkId).map (hashCode P))
    exact ((hb.balanced networkId enr hget).trans hspent).trans List.perm_middle.symm
  refine ⟨fun n enr' hn ↦ ?_, fun n ↦ ?_⟩
  · simp only at hn ⊢
    rw [Std.ExtTreeMap.getElem?_insert] at hn
    split at hn
    · next heq =>
      obtain rfl : networkId = n := by simpa using heq
      cases hn
      rw [Function.update_self]
      exact hbooks
    · next hne =>
      have hne' : n ≠ networkId := fun heq ↦ hne (by simp [heq])
      rw [Function.update_of_ne hne']
      exact hb.balanced n enr' hn
  · by_cases heq : n = networkId
    · subst heq
      simp only [Function.update_self]
      exact (List.sublist_append_right _ _).subperm.trans hbooks.symm.subperm
    · simp only [Function.update_of_ne heq]
      exact hb.covered n

/-- Every call keeps the books. -/
theorem Booked.step {h : History} (hb : Booked P h) (o : Op) : Booked P (step P hmacSha1 h o) := by
  cases o with
  | enroll disk draws networkId account =>
    simp only [Custody.step]
    rcases enrollAt_cases P disk draws h.store networkId account with
      ⟨e, hr⟩ | ⟨-, enrolled, hcodes, hr⟩
    · rw [hr]
      exact hb
    · rw [hr]
      refine ⟨fun n enr hn ↦ ?_, fun n ↦ ?_⟩
      · simp only [hcodes] at hn ⊢
        rw [Std.ExtTreeMap.getElem?_insert] at hn
        split at hn
        · next heq =>
          obtain rfl : networkId = n := by simpa using heq
          cases hn
          rw [Function.update_self, Function.update_self, List.map_nil, List.append_nil]
        · next hne =>
          have hne' : n ≠ networkId := fun heq ↦ hne (by simp [heq])
          rw [Function.update_of_ne hne', Function.update_of_ne hne']
          exact hb.balanced n enr hn
      · by_cases heq : n = networkId
        · subst heq
          simp only [Function.update_self, List.map_nil]
          exact List.nil_subperm
        · simp only [Function.update_of_ne heq]
          exact hb.covered n
  | require disk networkId code => exact hb.gate hmacSha1 disk networkId code
  | disable gate removal networkId code =>
    have hgate := hb.gate hmacSha1 gate networkId (some code)
    refine ⟨fun n enr hn ↦ ?_, hgate.covered⟩
    simp only [Custody.step] at hn ⊢
    rcases disableAt_cases P hmacSha1 gate removal h.store networkId code with
      ⟨e, hreq, hr⟩ | ⟨passed, hreq, ⟨e, hr⟩ | hr⟩
    · rw [hreq] at hgate ⊢
      rw [hr] at hn
      exact hgate.balanced n enr hn
    · rw [hreq] at hgate ⊢
      rw [hr] at hn
      exact hgate.balanced n enr hn
    · rw [hreq] at hgate ⊢
      rw [hr, Std.ExtTreeMap.getElem?_erase] at hn
      split at hn
      · cases hn
      · exact hgate.balanced n enr hn

/-- A call for one network leaves the others alone. -/
theorem getElem?_call_of_ne {store : CustodyStore} {o : Op} {n : String} (h : o.networkId ≠ n) :
    (call P hmacSha1 store o).2[n]? = store[n]? := by
  have hgate : ∀ disk networkId code, networkId ≠ n →
      (requireAt P hmacSha1 disk store networkId code).2[n]? = store[n]? := by
    intro disk networkId code hne
    rcases requireAt_store P hmacSha1 disk store networkId code with hr | ⟨_, _, -, -, -, hr⟩
    · rw [hr]
    · rw [hr, Std.ExtTreeMap.getElem?_insert, if_neg (by simpa using hne)]
  cases o with
  | enroll disk draws networkId account =>
    have hne : networkId ≠ n := h
    simp only [call]
    rcases enrollAt_cases P disk draws store networkId account with
      ⟨e, hr⟩ | ⟨-, enrolled, -, hr⟩
    · rw [hr]
    · rw [hr, Std.ExtTreeMap.getElem?_insert, if_neg (by simpa using hne)]
  | require disk networkId code => exact hgate disk networkId code h
  | disable gate removal networkId code =>
    have hne : networkId ≠ n := h
    simp only [call]
    have hsame := hgate gate networkId (some code) hne
    rcases disableAt_cases P hmacSha1 gate removal store networkId code with
      ⟨e, hreq, hr⟩ | ⟨passed, hreq, ⟨e, hr⟩ | hr⟩
    · rw [hr]
    · rw [hr]
      rwa [hreq] at hsame
    · rw [hr, Std.ExtTreeMap.getElem?_erase, if_neg (by simpa using hne)]
      rwa [hreq] at hsame

/-! ### What is accepted -/

/-- Two spellings of one code. -/
def sameCode (a b : String) : Bool := normalized a == normalized b

variable (P) in
/-- SHA-256 tells these codes apart. -/
def CollisionFree (codes : List String) : Prop :=
  ∀ a ∈ codes, ∀ b ∈ codes, P.sha256 (Text.utf8 (normalized a)) =
    P.sha256 (Text.utf8 (normalized b)) → normalized a = normalized b

/-- The code was minted more often than it was taken. -/
def History.Unused (h : History) (networkId code : String) : Prop :=
  (h.accepted networkId).countP (sameCode code) < (h.minted networkId).countP (sameCode code)

/-- The codes of a history are among those SHA-256 tells apart. -/
def History.Among (h : History) (codes : List String) : Prop :=
  ∀ networkId, (∀ c ∈ h.minted networkId, c ∈ codes) ∧ ∀ c ∈ h.accepted networkId, c ∈ codes

variable {codes : List String}

private theorem count_hashCode (hsha : CollisionFree P codes) {code : String} (hcode : code ∈ codes)
    {minted : List String} (h : ∀ c ∈ minted, c ∈ codes) :
    (minted.map (hashCode P)).count (hashCode P code) = minted.countP (sameCode code) := by
  rw [List.count, List.countP_map]
  refine List.countP_congr fun c hc ↦ ?_
  have hiff : hashCode P c = hashCode P code ↔ normalized code = normalized c := by
    rw [hashCode, hashCode, Text.hexEncode_inj]
    constructor
    · exact fun heq ↦ (hsha c (h c hc) code hcode heq).symm
    · exact fun heq ↦ by rw [heq]
  simpa [sameCode] using hiff

private theorem Among.take {h : History} (ha : h.Among codes) (disk : Disk) (networkId : String)
    (code : Option String) (hcode : ∀ c ∈ code, c ∈ codes) (n : String) :
    ∀ c ∈ h.take hmacSha1 disk (requireAt P hmacSha1 disk h.store networkId code).1 networkId
      code n, c ∈ codes := by
  rcases take_cases P hmacSha1 h disk networkId code with
    ⟨-, htake⟩ | ⟨_, presented, -, rfl, -, -, htake⟩
  · rw [htake]
    exact (ha n).2
  · intro c hc
    rw [htake] at hc
    by_cases heq : n = networkId
    · rw [heq, Function.update_self, List.mem_cons] at hc
      rcases hc with rfl | hc
      · exact hcode c rfl
      · exact (ha networkId).2 c hc
    · rw [Function.update_of_ne heq] at hc
      exact (ha n).2 c hc

private theorem History.Among.step {h : History} (ha : h.Among codes) {o : Op}
    (ho : ∀ c ∈ o.codes, c ∈ codes) : (step P hmacSha1 h o).Among codes := by
  intro n
  cases o with
  | enroll disk draws networkId account =>
    simp only [Custody.step]
    rcases enrollAt_cases P disk draws h.store networkId account with
      ⟨e, hr⟩ | ⟨-, enrolled, hcodes, hr⟩
    · rw [hr]
      exact ha n
    · rw [hr]
      by_cases heq : n = networkId
      · subst heq
        simp only [Function.update_self, hcodes]
        exact ⟨ho, nofun⟩
      · simp only [Function.update_of_ne heq]
        exact ha n
  | require disk networkId code =>
    refine ⟨(ha n).1, Among.take ha disk networkId code (fun c hc ↦ ho c ?_) n⟩
    simpa [Op.codes] using hc
  | disable gate removal networkId code =>
    refine ⟨(ha n).1, Among.take ha gate networkId (some code) (fun c hc ↦ ho c ?_) n⟩
    simpa [Op.codes, eq_comm] using hc

/-- The books of one code: as often as it was minted, it is still there or was taken. -/
private theorem countP_minted (hsha : CollisionFree P codes) {h : History} (hb : Booked P h)
    (ha : h.Among codes) {networkId code : String} {enr : Enrollment}
    (hget : h.store[networkId]? = some enr) (hcode : code ∈ codes) :
    (h.minted networkId).countP (sameCode code) =
      enr.recoveryHashes.count (hashCode P code) +
        (h.accepted networkId).countP (sameCode code) := by
  have hcount := (hb.balanced networkId enr hget).count_eq (hashCode P code)
  rwa [List.count_append, count_hashCode hsha hcode (ha networkId).1,
    count_hashCode hsha hcode (ha networkId).2] at hcount

/-- No code is accepted more often than it was minted. -/
private theorem accepted_le_minted (hsha : CollisionFree P codes) {h : History} (hb : Booked P h)
    (ha : h.Among codes) (networkId : String) {code : String} (hcode : code ∈ codes) :
    (h.accepted networkId).countP (sameCode code) ≤
      (h.minted networkId).countP (sameCode code) := by
  have hcount := (hb.covered networkId).count_le (hashCode P code)
  rwa [count_hashCode hsha hcode (ha networkId).1,
    count_hashCode hsha hcode (ha networkId).2] at hcount

/-- On an enrolled network the gate opens for the authenticator and for unused codes only. -/
private theorem accepted_of_ok (hsha : CollisionFree P codes) {h : History} (hb : Booked P h)
    (ha : h.Among codes) {disk : Disk} {networkId : String} {code : Option String}
    {enr : Enrollment} (hget : h.store[networkId]? = some enr) (hcode : ∀ c ∈ code, c ∈ codes)
    (hok : (requireAt P hmacSha1 disk h.store networkId code).1 = .ok ()) :
    ∃ c, code = some c ∧
      (FromAuthenticator hmacSha1 enr disk.now c ∨ h.Unused networkId c) := by
  rcases requireAt_cases P hmacSha1 disk h.store networkId code with
    ⟨e, hr⟩ | ⟨hnone, -⟩ | ⟨enr', c, hget', rfl, hby, -⟩ | ⟨enr', c, hget', rfl, -, hmem, -⟩
  · rw [hr] at hok
    cases hok
  · rw [hnone] at hget
    cases hget
  · rw [hget'] at hget
    cases hget
    exact ⟨c, rfl, .inl (fromAuthenticator_of_byAuthenticator hmacSha1 hby)⟩
  · rw [hget'] at hget
    cases hget
    have hcount := countP_minted hsha hb ha hget' (hcode c rfl)
    have hpos := List.count_pos_iff.mpr hmem
    refine ⟨c, rfl, .inr ?_⟩
    unfold History.Unused
    omega

/-- Only a removal that presents a good code ends an enrollment. -/
private theorem kept_or_disabled (hsha : CollisionFree P codes) {h : History} (hb : Booked P h)
    (ha : h.Among codes) {networkId : String} {enr : Enrollment}
    (hget : h.store[networkId]? = some enr) {o : Op} (ho : ∀ c ∈ o.codes, c ∈ codes) :
    (∃ hashes, (call P hmacSha1 h.store o).2[networkId]? =
        some { enr with recoveryHashes := hashes }) ∨
      ∃ gate removal c, o = .disable gate removal networkId c ∧
        (call P hmacSha1 h.store o).1 = .ok () ∧
        (FromAuthenticator hmacSha1 enr gate.now c ∨ h.Unused networkId c) := by
  by_cases hne : o.networkId = networkId
  · cases o with
    | enroll disk draws n account =>
      obtain rfl : n = networkId := hne
      simp only [call]
      rcases enrollAt_cases P disk draws h.store n account with ⟨e, hr⟩ | ⟨hnone, -⟩
      · exact .inl ⟨enr.recoveryHashes, by rw [hr, hget]⟩
      · rw [hget] at hnone
        cases hnone
    | require disk n code =>
      obtain rfl : n = networkId := hne
      exact .inl (requireAt_kept P hmacSha1 disk code hget)
    | disable gate removal n code =>
      obtain rfl : n = networkId := hne
      simp only [call]
      have hkept := requireAt_kept P hmacSha1 gate (some code) hget
      rcases disableAt_cases P hmacSha1 gate removal h.store n code with
        ⟨e, -, hr⟩ | ⟨passed, hreq, ⟨e, hr⟩ | hr⟩
      · exact .inl ⟨enr.recoveryHashes, by rw [hr, hget]⟩
      · rw [hreq] at hkept
        exact .inl (by rwa [hr])
      · have hok : (requireAt P hmacSha1 gate h.store n (some code)).1 = .ok () := by rw [hreq]
        have hcode : ∀ c ∈ some code, c ∈ codes := fun c hc ↦ ho c (by
          simpa [Op.codes, eq_comm] using hc)
        obtain ⟨c, hc, hgood⟩ := accepted_of_ok hsha hb ha hget hcode hok
        cases hc
        exact .inr ⟨gate, removal, code, rfl, by rw [hr], hgood⟩
  · exact .inl ⟨enr.recoveryHashes, (getElem?_call_of_ne hne).trans hget⟩

/-- A call that fails leaves the store as it was, or as the gate of a removal left it. -/
private theorem call_error {store : CustodyStore} {o : Op} {e : Error}
    (herr : (call P hmacSha1 store o).1 = .error e) :
    (call P hmacSha1 store o).2 = store ∨
      ∃ gate removal networkId c, o = .disable gate removal networkId c ∧
        requireAt P hmacSha1 gate store networkId (some c) =
          (.ok (), (call P hmacSha1 store o).2) := by
  cases o with
  | enroll disk draws networkId account =>
    simp only [call] at herr ⊢
    rcases enrollAt_cases P disk draws store networkId account with
      ⟨e', hr⟩ | ⟨-, enrolled, -, hr⟩
    · exact .inl (by rw [hr])
    · rw [hr] at herr
      cases herr
  | require disk networkId code =>
    simp only [call] at herr ⊢
    rcases requireAt_store P hmacSha1 disk store networkId code with hr | ⟨_, _, -, -, -, hr⟩
    · exact .inl hr
    · rw [hr] at herr
      cases herr
  | disable gate removal networkId code =>
    simp only [call] at herr ⊢
    rcases disableAt_cases P hmacSha1 gate removal store networkId code with
      ⟨e', -, hr⟩ | ⟨passed, hreq, ⟨e', hr⟩ | hr⟩
    · exact .inl (by rw [hr])
    · exact .inr ⟨gate, removal, networkId, code, rfl, by rw [hreq, hr]⟩
    · rw [hr] at herr
      cases herr

/-! ### The lock -/

variable (P hmacSha1) in
/-- The lock of every enrolled network holds: what its gate opens for, how often it takes a code,
what ends it, and what a failed call and a call for another network leave alone. -/
structure Locked (codes : List String) (h : History) : Prop where
  opens {networkId : String} {enr : Enrollment} (hget : h.store[networkId]? = some enr)
    (disk : Disk) (code : Option String) (hcode : ∀ c ∈ code, c ∈ codes)
    (hok : (requireAt P hmacSha1 disk h.store networkId code).1 = .ok ()) :
    ∃ c, code = some c ∧ (FromAuthenticator hmacSha1 enr disk.now c ∨ h.Unused networkId c)
  spends (networkId : String) :
    ∀ c ∈ codes, (h.accepted networkId).countP (sameCode c) ≤
      (h.minted networkId).countP (sameCode c)
  ends {networkId : String} {enr : Enrollment} (hget : h.store[networkId]? = some enr) (o : Op)
    (ho : ∀ c ∈ o.codes, c ∈ codes) :
    (∃ hashes, (call P hmacSha1 h.store o).2[networkId]? =
        some { enr with recoveryHashes := hashes }) ∨
      ∃ gate removal c, o = .disable gate removal networkId c ∧
        (call P hmacSha1 h.store o).1 = .ok () ∧
        (FromAuthenticator hmacSha1 enr gate.now c ∨ h.Unused networkId c)
  fails (o : Op) (e : Error) (herr : (call P hmacSha1 h.store o).1 = .error e) :
    (call P hmacSha1 h.store o).2 = h.store ∨
      ∃ gate removal networkId c, o = .disable gate removal networkId c ∧
        requireAt P hmacSha1 gate h.store networkId (some c) =
          (.ok (), (call P hmacSha1 h.store o).2)
  separates (o : Op) (networkId : String) (hne : o.networkId ≠ networkId) :
    (call P hmacSha1 h.store o).2[networkId]? = h.store[networkId]?

/-- A history's store is what its calls leave. -/
theorem store_step (h : History) (o : Op) :
    (step P hmacSha1 h o).store = (call P hmacSha1 h.store o).2 := by
  cases o with
  | enroll disk draws networkId account =>
    simp only [step, call]
    split
    · next hr => rw [hr]
    · next hr => rw [hr]
  | require disk networkId code => rfl
  | disable gate removal networkId code => rfl

/-- The lock holds after every history of enrollments, checks and removals, whatever is drawn,
presented and however loads and saves go, as long as SHA-256 tells the codes of the history
apart. -/
theorem custody_lock_holds (hsha : CollisionFree P codes) {ops : List Op}
    (hops : ∀ o ∈ ops, ∀ c ∈ o.codes, c ∈ codes) :
    Locked P hmacSha1 codes (run (step P hmacSha1) .start ops) := by
  obtain ⟨hb, ha⟩ : Booked P (run (step P hmacSha1) .start ops) ∧
      (run (step P hmacSha1) .start ops).Among codes := by
    refine run_invariant_of_mem (I := fun h ↦ Booked P h ∧ h.Among codes) ?_ ⟨?_, ?_⟩
    · exact fun h o ho hh ↦ ⟨hh.1.step o, hh.2.step (hops o ho)⟩
    · refine ⟨fun n enr hn ↦ ?_, fun n ↦ List.nil_subperm⟩
      rw [History.start, Std.ExtTreeMap.getElem?_empty] at hn
      cases hn
    · exact fun n ↦ ⟨nofun, nofun⟩
  exact {
    opens hget _ _ hcode hok := accepted_of_ok hsha hb ha hget hcode hok
    spends networkId _ hc := accepted_le_minted hsha hb ha networkId hc
    ends hget _ ho := kept_or_disabled hsha hb ha hget ho
    fails _ _ herr := call_error herr
    separates _ _ hne := getElem?_call_of_ne hne }

/-! ### A history -/

/-- The key of the published test values. -/
def testKey : List UInt8 := Text.utf8 "12345678901234567890"

/-- HMAC-SHA1 on the first three published test values. -/
def testHmac : Hmac := fun key message i ↦
  let digest : List UInt8 :=
    if key ≠ testKey then []
    else if message = toBeBytes 0 then
      [0xcc, 0x93, 0xcf, 0x18, 0x50, 0x8d, 0x94, 0x93, 0x4c, 0x64, 0xb6, 0x5d, 0x8b, 0xa7, 0x66,
        0x7f, 0xb7, 0xcd, 0xe4, 0xb0]
    else if message = toBeBytes 1 then
      [0x75, 0xa4, 0x8a, 0x19, 0xd4, 0xcb, 0xe1, 0x00, 0x64, 0x4e, 0x8a, 0xc1, 0x39, 0x7e, 0xea,
        0x74, 0x7a, 0x2d, 0x33, 0xab]
    else if message = toBeBytes 2 then
      [0x0b, 0xac, 0xb7, 0xfa, 0x08, 0x2f, 0xef, 0x30, 0x78, 0x22, 0x11, 0x93, 0x8b, 0xc1, 0xc5,
        0xe7, 0x04, 0x16, 0xff, 0x44]
    else []
  digest.getD i 0

example : totp testHmac testKey 0 = "755224" ∧ totp testHmac testKey 1 = "287082" ∧
    totp testHmac testKey 2 = "359152" := by decide +kernel

/-- A disk that works, at 59 seconds. -/
def sound : Disk := ⟨59, .ok (), .ok ()⟩

/-- Ten different draws, and the published key. -/
def testDraws : Draws := ⟨testKey, fun i ↦ List.replicate 8 (.ofNat i)⟩

example : (genRecoveryCodes testDraws).take 2 = ["aaaaa-aaaaa", "aeaqc-aibae"] := by decide +kernel

/-- One network is enrolled. -/
def testOps : List Op := [.enroll sound testDraws "home" "laptop"]

/-- What it leaves on disk. -/
def testStore : CustodyStore :=
  (∅ : CustodyStore).insert "home" ⟨String.ofList (Base32.encode testKey),
    (genRecoveryCodes testDraws).map (hashCode seeded), 59⟩

private theorem store_testOps : (run (step seeded testHmac) .start testOps).store = testStore := rfl

/-- The lock holds after a recovery code was typed in capitals and without its dash, which used it
up. -/
theorem custody_lock_holds_after_recovery :
    let codes := "AEAQCAIBAE" :: genRecoveryCodes testDraws
    let h := run (step seeded testHmac) .start
      (testOps ++ [.require sound "home" (some "AEAQCAIBAE")])
    Locked seeded testHmac codes h ∧ h.accepted "home" = ["AEAQCAIBAE"] ∧
      codesLeft h.store "home" = some 9 := by
  refine ⟨custody_lock_holds ?_ ?_, ?_, ?_⟩
  · unfold CollisionFree
    decide +kernel
  · unfold testOps
    decide +kernel
  · decide +kernel
  · decide +kernel

/-- A code of the authenticator is accepted with a blank before it, though that text is no code of
any step and was not minted; and a removal whose own save fails has used up the code it presented,
though it returns an error. -/
theorem padded_code_accepted_and_failed_removal_spends :
    let h := run (step seeded testHmac) .start testOps
    let failing : Disk := ⟨59, .ok (), .error (.custody "disk full")⟩
    let removal : Op := .disable sound failing "home" "aaaaa-aaaaa"
    ((requireAt seeded testHmac sound h.store "home" (some " 287082")).1 = .ok () ∧
        (∀ t, Window 59 t → totp testHmac testKey t ≠ " 287082") ∧
        " 287082" ∉ h.minted "home") ∧
      (call seeded testHmac h.store removal).1 = .error (.custody "disk full") ∧
      (call seeded testHmac h.store removal).2["home"]? ≠ h.store["home"]? := by
  intro h failing removal
  have hstore : h.store = testStore := store_testOps
  rw [hstore]
  refine ⟨⟨?_, ?_, ?_⟩, ?_, ?_⟩
  · decide +kernel
  · intro t ht
    have hstep : ((59 : UInt64) / period).toNat = 1 := by decide
    have hcases : t = 0 ∨ t = 1 ∨ t = 2 := by
      simp only [Window, hstep, ← UInt64.toNat_inj] at ht ⊢
      have h0 : (0 : UInt64).toNat = 0 := rfl
      have h1 : (1 : UInt64).toNat = 1 := rfl
      have h2 : (2 : UInt64).toNat = 2 := rfl
      omega
    rcases hcases with rfl | rfl | rfl
    · decide +kernel
    · decide +kernel
    · decide +kernel
  · decide +kernel
  · decide +kernel
  · decide +kernel

end MyOwnMesh.Custody
