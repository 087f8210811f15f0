import Std.Data.ExtTreeMap
import MyOwnMesh.Identity.Signing

/-!
# Governance data and signed transitions

`crates/myownmesh-core/src/network_state.rs:44–468`. Kinds, roles, transitions,
proposals and the per-network state, the canonical payload a signer signs, and the
check of a transition's whole signature list. `roles` is the source's `BTreeMap`
keyed by raw id text.
-/

namespace MyOwnMesh

open Lib

/-- Domain-separation tag of every state-transition payload; `network_state.rs:35`. -/
def signDomainTagState : String := "myownmesh-network-state-v1:"

/-- File-format schema version of the state log; `network_state.rs:42`. -/
def networkStateVersion : UInt32 := 2

/-- The greatest timestamp, `u64::MAX`. -/
def u64Max : UInt64 := 18446744073709551615

theorem le_u64Max (a : UInt64) : a ≤ u64Max := by
  rw [UInt64.le_iff_toNat_le]
  have hmax : u64Max.toNat = 18446744073709551615 := by decide
  have hlt := a.toNat_lt
  omega

/-- Governance kind of a network; `network_state.rs:59–66`. -/
inductive NetworkKind where
  | «open»
  | closed
  | silent
  deriving DecidableEq, Repr

/-- The kinds whose governance is permissionless; `network_state.rs:73–75`. -/
def NetworkKind.isOpenGovernance : NetworkKind → Bool
  | .open | .silent => true
  | .closed => false

/-- Authority tier within a closed network; `network_state.rs:84–97`. -/
inductive Role where
  | member
  | controller
  | owner
  deriving DecidableEq, Repr

/-- Connection topology of a network; `config.rs:26–68`. -/
inductive TopologyMode where
  | ring (nPreferred : Option UInt32)
  | star (hub : String)
  | hubs (hubs : List String) (spokeRedundancy : Option UInt32)
  | fullMesh
  deriving DecidableEq, Repr

/-- The shape of a transition; `network_state.rs:147–196`. -/
inductive TransitionVariant where
  | kindChange (to_ : NetworkKind)
  | roleGrant (target : String) (role : Role)
  | roleRevoke (target : String)
  | evict (target : String)
  | split (newNetworkId : String) (members : List String)
  | topologyChange (to_ : TopologyMode)
  | unknown
  deriving DecidableEq, Repr

/-- A ratified change with its signer set; `network_state.rs:127–140`. The source's
fields `at` and `to` are `at_` and `to_` here. -/
structure Transition where
  at_ : UInt64
  variant : TransitionVariant
  signers : List String
  signatures : List String
  deriving DecidableEq, Repr

/-- An in-flight transition awaiting signatures; `network_state.rs:286–307`. -/
structure Proposal where
  id : String
  createdAt : UInt64
  proposer : String
  variant : TransitionVariant
  signers : List String
  signatures : List String
  deniers : List String
  splitSpawned : Bool
  deriving DecidableEq, Repr

/-- A split this network has spawned; `network_state.rs:312–318`. -/
structure SplitRecord where
  newNetworkId : String
  spawnedAt : UInt64
  spawnedBy : String
  members : List String
  deriving DecidableEq, Repr

/-- Role assignments by raw id text. -/
abbrev RoleMap := Std.ExtTreeMap String Role

/-- The per-network governance state; `network_state.rs:322–364`. -/
structure NetworkState where
  version : UInt32
  networkId : String
  kind : NetworkKind
  roles : RoleMap
  transitions : List Transition
  memberLog : List Transition
  pending : List Proposal
  splits : List SplitRecord
  topology : Option TopologyMode

/-- A fresh open state; `network_state.rs:373–385`. -/
def NetworkState.emptyFor (networkId : String) : NetworkState where
  version := networkStateVersion
  networkId := networkId
  kind := .open
  roles := ∅
  transitions := []
  memberLog := []
  pending := []
  splits := []
  topology := none

/-- Role of a device, `member` when the map does not name it; `network_state.rs:390–392`. -/
def NetworkState.roleOf (s : NetworkState) (pubkey : String) : Role :=
  (s.roles[pubkey]?).getD .member

/-- The id of the network a split spawns, from the parent and its signer set;
`network_state.rs:404–415`. -/
def deriveSplitNetworkId (P : Primitives) (parentId : String) (signers : List String) : String :=
  base32Lower (P.sha256 (Text.utf8 ("myownmesh-split-v1:" ++ parentId ++ "|" ++
    "|".intercalate (Text.sortStrings signers))))

/-! ### Canonical payload -/

/-- Payload word of a kind. -/
def kindWord : NetworkKind → String
  | .open => "open"
  | .closed => "closed"
  | .silent => "silent"

/-- Payload word of a role. -/
def roleWord : Role → String
  | .member => "member"
  | .controller => "controller"
  | .owner => "owner"

/-- The words of two kinds differ. -/
theorem kindWord_inj {a b : NetworkKind} (h : kindWord a = kindWord b) : a = b := by
  cases a <;> cases b <;> first | rfl | simp [kindWord] at h

/-- The words of two roles differ. -/
theorem roleWord_inj {a b : Role} (h : roleWord a = roleWord b) : a = b := by
  cases a <;> cases b <;> first | rfl | simp [roleWord] at h

/-- An optional count in a payload, `none` when absent. -/
def countWord : Option UInt32 → String
  | none => "none"
  | some n => toString n.toNat

/-- The variant part of a payload; `network_state.rs:213–276`. Split members and hub
lists are sorted, so their order is not signed. -/
def variantWord : TransitionVariant → String
  | .kindChange to_ => "kind_change|to=" ++ kindWord to_
  | .roleGrant target role => "role_grant|target=" ++ target ++ "|role=" ++ roleWord role
  | .roleRevoke target => "role_revoke|target=" ++ target
  | .evict target => "evict|target=" ++ target
  | .split newNetworkId members =>
    "split|new_id=" ++ newNetworkId ++ "|members=" ++
      ",".intercalate (Text.sortStrings members)
  | .topologyChange .fullMesh => "topology|full_mesh"
  | .topologyChange (.ring nPreferred) => "topology|ring|n=" ++ countWord nPreferred
  | .topologyChange (.star hub) => "topology|star|hub=" ++ hub
  | .topologyChange (.hubs hubs spokeRedundancy) =>
    "topology|hubs|hubs=" ++ ",".intercalate (Text.sortStrings hubs) ++
      "|r=" ++ countWord spokeRedundancy
  | .unknown => "unknown"

/-- Canonical signed bytes of a transition; `network_state.rs:207–278`. Neither the
position in a log nor the timestamp is part of them. -/
def transitionPayload (networkId : String) (variant : TransitionVariant) : List UInt8 :=
  Text.utf8 (signDomainTagState ++ networkId ++ "|" ++ variantWord variant)

/-- The bytes a denier signs: network, proposal and denier; `governance.rs:273–284`. -/
def denyPayload (networkId proposalId signer : String) : List UInt8 :=
  Text.utf8 (signDomainTagState ++ "deny|" ++ networkId ++ "|" ++ proposalId ++ "|" ++ signer)

/-! ### Signatures of a transition -/

variable (P : Primitives)

/-- Sign a transition payload; `network_state.rs:428–435`. -/
def signTransition (networkId : String) (variant : TransitionVariant)
    (key : P.SigningKey) : String :=
  signWith P key (transitionPayload networkId variant)

/-- The loop over signer and signature pairs; `network_state.rs:461–466`. -/
def checkSignatures (payload : List UInt8) : List (String × String) → Except Error Unit
  | [] => .ok ()
  | (signer, sig) :: rest =>
    match verify P signer payload sig with
    | .error e => .error e
    | .ok false => .error .signatureInvalid
    | .ok true => checkSignatures payload rest

/-- Verify every signature of a transition; `network_state.rs:449–468`. -/
def verifyTransitionSignatures (networkId : String) (t : Transition) : Except Error Unit :=
  if t.signers.length ≠ t.signatures.length then
    .error (.protocol ("transition has " ++ toString t.signers.length ++ " signers but " ++
      toString t.signatures.length ++ " signatures"))
  else if t.signers = [] then .error (.protocol "transition has no signers")
  else checkSignatures P (transitionPayload networkId t.variant) (t.signers.zip t.signatures)

/-- The signature loop succeeds exactly when every pair verifies. -/
theorem checkSignatures_ok_iff (payload : List UInt8) (pairs : List (String × String)) :
    checkSignatures P payload pairs = .ok () ↔
      ∀ p ∈ pairs, verify P p.1 payload p.2 = .ok true := by
  induction pairs with
  | nil => simp [checkSignatures]
  | cons p rest ih =>
    obtain ⟨signer, sig⟩ := p
    cases h : verify P signer payload sig with
    | error e => simp [checkSignatures, h]
    | ok b =>
      cases b with
      | false => simp [checkSignatures, h]
      | true => simp [checkSignatures, h, ih]

/-- A transition's signatures are accepted exactly when both lists match, are not empty
and every pair verifies over the payload of its variant. -/
theorem verifyTransitionSignatures_ok_iff (networkId : String) (t : Transition) :
    verifyTransitionSignatures P networkId t = .ok () ↔
      t.signers.length = t.signatures.length ∧ t.signers ≠ [] ∧
        ∀ p ∈ t.signers.zip t.signatures,
          verify P p.1 (transitionPayload networkId t.variant) p.2 = .ok true := by
  unfold verifyTransitionSignatures
  split
  · next h => simp [h]
  · next h =>
    split
    · next he => simp [he]
    · next he => simp only [checkSignatures_ok_iff, not_not.mp h, ne_eq, he, not_false_eq_true,
        true_and]

/-- An entry a single key signs for itself. -/
def signedBy (networkId : String) (key : P.SigningKey) (stamp : UInt64)
    (variant : TransitionVariant) : Transition where
  at_ := stamp
  variant := variant
  signers := [publicId P key]
  signatures := [signTransition P networkId variant key]

/-- The signature of a self-signed entry is checked over the payload of the network that reads
it. -/
theorem verifyTransitionSignatures_signedBy_iff (networkId signedFor : String)
    (key : P.SigningKey) (stamp : UInt64) (variant : TransitionVariant) :
    verifyTransitionSignatures P networkId (signedBy P signedFor key stamp variant) = .ok () ↔
      P.verifySignature (P.verifyingKey key) (transitionPayload networkId variant)
        (P.sign key (transitionPayload signedFor variant)) = true := by
  simp [verifyTransitionSignatures_ok_iff, signedBy, signTransition, verify_signWith_eq]

/-- A self-signed entry carries valid signatures. -/
@[simp] theorem verifyTransitionSignatures_signedBy (networkId : String) (key : P.SigningKey)
    (stamp : UInt64) (variant : TransitionVariant) :
    verifyTransitionSignatures P networkId (signedBy P networkId key stamp variant) = .ok () := by
  rw [verifyTransitionSignatures_signedBy_iff, P.verifySignature_sign]

end MyOwnMesh
