import MyOwnMesh.Engine.Canonical
import MyOwnMesh.Engine.Steps

/-!
# The life of a pending proposal

A proposal whose signatures verify is ratified by the first call that finds its quorum met
(`governance.rs:1541–1722`). Until then an answer of a peer adds a signer, and afterwards
answers find nothing to add to. A proposal with a single signature is the common case.
-/

namespace MyOwnMesh

open Lib Lib.Replay

variable {P : Primitives}

variable (P) in
/-- A proposal that one key signed. -/
def signedProposal (networkId : String) (key : P.SigningKey) (id : String) (stamp : UInt64)
    (v : TransitionVariant) : Proposal where
  id := id
  createdAt := stamp
  proposer := publicId P key
  variant := v
  signers := [publicId P key]
  signatures := [signTransition P networkId v key]
  deniers := []
  splitSpawned := false

/-- The state with one more pending proposal. -/
def EngineState.floating (s : EngineState P) (p : Proposal) : EngineState P :=
  { s with governance := { s.governance with pending := s.governance.pending ++ [p] } }

/-- Floating a proposal touches the pending list only. -/
theorem floating_frame (s : EngineState P) (p : Proposal) :
    (s.floating p).networkId = s.networkId ∧ (s.floating p).selfId = s.selfId ∧
      (s.floating p).roster = s.roster := ⟨rfl, rfl, rfl⟩

/-! ### Proposals whose signatures verify -/

variable (P) in
/-- Every signer of the proposal signed it and nobody denied it. -/
structure Proposal.Sound (networkId : String) (p : Proposal) : Prop where
  paired : p.signers.length = p.signatures.length
  signed : p.signers ≠ []
  verified : ∀ e ∈ p.signers.zip p.signatures,
    verify P e.1 (transitionPayload networkId p.variant) e.2 = .ok true
  undenied : p.deniers = []

/-- The canonical order lists the same signers. -/
theorem perm_signers_candidate {p : Proposal} (h : p.signers.length = p.signatures.length) :
    (candidate p).signers.Perm p.signers := perm_canonicalizeSigners p.proposer h

/-- The entry of a sound proposal passes the signature check. -/
theorem Proposal.Sound.verifySignatures {networkId : String} {p : Proposal}
    (h : p.Sound P networkId) :
    verifyTransitionSignatures P networkId (candidate p) = .ok () := by
  have hcheck := verifyTransitionSignatures_canonicalizeSigners P networkId
    ⟨p.createdAt, p.variant, p.signers, p.signatures⟩ p.proposer
  refine hcheck.mpr ((verifyTransitionSignatures_ok_iff P networkId _).mpr ?_)
  exact ⟨h.paired, h.signed, h.verified⟩

private theorem find?_floating {s : EngineState P} {p : Proposal}
    (hfresh : ∀ q ∈ s.governance.pending, q.id ≠ p.id) :
    (s.floating p).governance.pending.find? (·.id == p.id) = some p := by
  have hnone : s.governance.pending.find? (·.id == p.id) = none := by
    rw [List.find?_eq_none]
    exact fun q hq ↦ by simpa using hfresh q hq
  simp [EngineState.floating, List.find?_append, hnone]

/-- A sound proposal is ratified exactly when its quorum is met. -/
theorem ratifies_floating {s : EngineState P} {p : Proposal}
    (hfresh : ∀ q ∈ s.governance.pending, q.id ≠ p.id) (hp : p.Sound P s.networkId) :
    ratifies P s.networkId (s.floating p).governance p.id =
      if QuorumMet s.governance (candidate p) then some (candidate p) else none := by
  have hden : ¬ p.deniers ≠ [] := fun h ↦ h hp.undenied
  have hquorum : verifyQuorum (s.floating p).governance (candidate p) =
    verifyQuorum s.governance (candidate p) := rfl
  simp only [ratifies, find?_floating hfresh, hden, ↓reduceIte, hp.verifySignatures, hquorum]
  by_cases hq : QuorumMet s.governance (candidate p)
  · rw [(verifyQuorum_ok_iff _ _).mpr hq, if_pos hq]
  · rw [if_neg hq]
    rw [← verifyQuorum_ok_iff] at hq
    split
    · rfl
    · next h => exact absurd h hq

/-- A sound proposal without its quorum stays pending. -/
theorem tryRatify_floating_of_not (env : Env) {s : EngineState P} {p : Proposal}
    (hfresh : ∀ q ∈ s.governance.pending, q.id ≠ p.id) (hp : p.Sound P s.networkId)
    (hq : ¬ QuorumMet s.governance (candidate p)) :
    (tryRatify env (s.floating p) p.id).1 = s.floating p := by
  have hden : ¬ p.deniers ≠ [] := fun h ↦ h hp.undenied
  have hsig : verifyTransitionSignatures P (s.floating p).networkId (candidate p) = .ok () :=
    hp.verifySignatures
  have hquorum : ¬ verifyQuorum (s.floating p).governance (candidate p) = .ok () := by
    intro h
    exact hq ((verifyQuorum_ok_iff s.governance _).mp h)
  simp only [tryRatify, find?_floating hfresh, hden, ↓reduceIte, hsig]
  split
  · rfl
  · next h => exact absurd h hquorum

private theorem sound_signedProposal (networkId : String) (key : P.SigningKey) (id : String)
    (stamp : UInt64) (v : TransitionVariant) :
    (signedProposal P networkId key id stamp v).Sound P networkId := by
  constructor
  · simp [signedProposal]
  · exact List.cons_ne_nil _ _
  · intro e he
    simp only [signedProposal, List.zip_cons_cons, List.zip_nil_left, List.mem_singleton] at he
    rw [he]
    exact verify_signWith P key _
  · rfl

/-- A proposal with one signature is ratified exactly when its quorum is met. -/
theorem ratifies_signedProposal {s : EngineState P} {id : String}
    (hfresh : ∀ p ∈ s.governance.pending, p.id ≠ id) (key : P.SigningKey) (stamp : UInt64)
    (v : TransitionVariant) :
    ratifies P s.networkId (s.floating (signedProposal P s.networkId key id stamp v)).governance
        id =
      if QuorumMet s.governance (signedBy P s.networkId key stamp v) then
        some (signedBy P s.networkId key stamp v)
      else none :=
  ratifies_floating (p := signedProposal P s.networkId key id stamp v) hfresh
    (sound_signedProposal s.networkId key id stamp v)

/-- Nothing outside the governance state stands in the way of a call. -/
structure Env.Clear (env : Env) : Prop where
  custody : env.custody = .ok ()
  saveState : ∀ gov, env.saveState gov = .ok ()

/-- The entry a lone proposer would author. -/
def ownEntry (env : Env) (s : EngineState P) (v : TransitionVariant) : Transition :=
  signedBy P s.networkId s.signingKey (memberTierTimestamp env.now s.governance v) v

/-- A proposal whose author alone meets the quorum is ratified by the call that floats it. -/
theorem propose_eq_commit {env : Env} {s : EngineState P} {v : TransitionVariant}
    (henv : env.Clear) (hnew : alreadyGranted s.governance v = false)
    (hfresh : ∀ p ∈ s.governance.pending, p.id ≠ env.proposalId)
    (hq : QuorumMet s.governance (ownEntry env s v)) :
    (propose env s v).1 =
      (commit env (s.floating (ownProposal env s v)) env.proposalId (ownEntry env s v)).1 := by
  have hr := (ratifies_signedProposal hfresh s.signingKey
    (memberTierTimestamp env.now s.governance v) v).trans (if_pos hq)
  have ht := tryRatify_of_ratifies env (s := s.floating (ownProposal env s v)) hr
  simp only [propose, proposeIntake, hnew, Bool.false_eq_true, ↓reduceIte, henv.custody,
    henv.saveState, settle]
  exact congrArg Prod.fst ht

/-- Committing a floating proposal routes its entry and leaves the other proposals. -/
theorem governance_commit_floating (env : Env) {s : EngineState P} {p : Proposal}
    (hfresh : ∀ q ∈ s.governance.pending, q.id ≠ p.id) (t : Transition) :
    (commit env (s.floating p) p.id t).1.governance =
      { routed P s.networkId s.governance t with pending := s.governance.pending } := by
  rw [(commit_frame env _ _ _).1, EngineState.floating, routed_pending]
  have hkeep : (s.governance.pending ++ [p]).filter (fun q ↦ decide (q.id ≠ p.id)) =
      s.governance.pending := by
    rw [List.filter_append, List.filter_eq_self.mpr (fun q hq ↦ by simpa using hfresh q hq)]
    simp
  rw [hkeep]

/-- The governance state after such a proposal. -/
theorem governance_propose {env : Env} {s : EngineState P} {v : TransitionVariant}
    (henv : env.Clear) (hnew : alreadyGranted s.governance v = false)
    (hfresh : ∀ p ∈ s.governance.pending, p.id ≠ env.proposalId)
    (hq : QuorumMet s.governance (ownEntry env s v)) :
    (propose env s v).1.governance =
      { routed P s.networkId s.governance (ownEntry env s v) with
        pending := s.governance.pending } := by
  rw [propose_eq_commit henv hnew hfresh hq]
  exact governance_commit_floating env (p := ownProposal env s v) hfresh _

/-- A call of this device is ratified at once when it grants nothing that is held already
and this device alone meets the quorum. -/
theorem ratifiedBy_propose {env : Env} {s : EngineState P} {v : TransitionVariant}
    (henv : env.Clear) (hfresh : ∀ p ∈ s.governance.pending, p.id ≠ env.proposalId) :
    ratifiedBy s (env, .propose v) =
      if alreadyGranted s.governance v = false ∧ QuorumMet s.governance (ownEntry env s v) then
        some (ownEntry env s v)
      else none := by
  have hr := ratifies_signedProposal hfresh s.signingKey
    (memberTierTimestamp env.now s.governance v) v
  cases hnew : alreadyGranted s.governance v with
  | true => simp [ratifiedBy, intake, proposeIntake, hnew]
  | false =>
    simp only [ratifiedBy, intake, proposeIntake, hnew, Bool.false_eq_true, ↓reduceIte,
      henv.custody, henv.saveState, true_and]
    exact hr

/-! ### Messages of peers -/

/-- The proposal a peer's message floats; `governance.rs:468–477`. -/
def ProposeMessage.proposal (msg : ProposeMessage) : Proposal where
  id := msg.proposalId
  createdAt := msg.createdAt
  proposer := msg.proposer
  variant := msg.variant
  signers := [msg.proposer]
  signatures := [msg.signature]
  deniers := []
  splitSpawned := false

/-- A new message of the peer that signed it floats its proposal. -/
theorem onProposeIntake_of_new {s : EngineState P} {peerId : String} {msg : ProposeMessage}
    (hpeer : pubkeyPart peerId = msg.proposer)
    (hsig : verify P msg.proposer (transitionPayload s.networkId msg.variant) msg.signature =
      .ok true)
    (hfresh : ∀ p ∈ s.governance.pending, p.id ≠ msg.proposalId) :
    onProposeIntake s peerId msg =
      ((s.floating msg.proposal).governance, .ok (some msg.proposalId)) := by
  have hnew : s.governance.pending.any (·.id == msg.proposalId) = false := by
    rw [List.any_eq_false]
    exact fun p hp ↦ by simpa using hfresh p hp
  simp only [onProposeIntake, hpeer, ne_eq, not_true_eq_false, ↓reduceIte, hsig, hnew,
    Bool.false_eq_true]
  rfl

variable (P) in
/-- A proposal message that one key signed. -/
def signedMessage (networkId : String) (key : P.SigningKey) (proposalId : String)
    (createdAt : UInt64) (v : TransitionVariant) : ProposeMessage where
  proposalId := proposalId
  variant := v
  proposer := publicId P key
  createdAt := createdAt
  signature := signTransition P networkId v key

private theorem onProposeIntake_signedMessage {s : EngineState P} {peerId : String}
    {key : P.SigningKey} {proposalId : String} (hpeer : pubkeyPart peerId = publicId P key)
    (hfresh : ∀ p ∈ s.governance.pending, p.id ≠ proposalId) (createdAt : UInt64)
    (v : TransitionVariant) :
    onProposeIntake s peerId (signedMessage P s.networkId key proposalId createdAt v) =
      ((s.floating (signedProposal P s.networkId key proposalId createdAt v)).governance,
        .ok (some proposalId)) :=
  onProposeIntake_of_new hpeer (verify_signWith P key _) hfresh

/-- A peer's message is ratified at once when its key alone meets the quorum. -/
theorem ratifiedBy_onPropose (env : Env) {s : EngineState P} {peerId : String}
    {key : P.SigningKey} {proposalId : String} (hpeer : pubkeyPart peerId = publicId P key)
    (hfresh : ∀ p ∈ s.governance.pending, p.id ≠ proposalId) (createdAt : UInt64)
    (v : TransitionVariant) :
    ratifiedBy s
        (env, .onPropose peerId (signedMessage P s.networkId key proposalId createdAt v)) =
      if QuorumMet s.governance (signedBy P s.networkId key createdAt v) then
        some (signedBy P s.networkId key createdAt v)
      else none := by
  simp only [ratifiedBy, intake, onProposeIntake_signedMessage hpeer hfresh]
  exact ratifies_signedProposal hfresh key createdAt v

/-- The governance state after such a message. -/
theorem governance_onPropose (env : Env) {s : EngineState P} {peerId : String}
    {key : P.SigningKey} {proposalId : String} (hpeer : pubkeyPart peerId = publicId P key)
    (hfresh : ∀ p ∈ s.governance.pending, p.id ≠ proposalId) {createdAt : UInt64}
    {v : TransitionVariant} (hq : QuorumMet s.governance (signedBy P s.networkId key createdAt v)) :
    (onPropose env s peerId
        (signedMessage P s.networkId key proposalId createdAt v)).governance =
      { routed P s.networkId s.governance (signedBy P s.networkId key createdAt v) with
        pending := s.governance.pending } := by
  have hr := (ratifies_signedProposal hfresh key createdAt v).trans (if_pos hq)
  have ht := tryRatify_of_ratifies env
    (s := s.floating (signedProposal P s.networkId key proposalId createdAt v)) hr
  rw [onPropose, onProposeIntake_signedMessage hpeer hfresh]
  have hc := governance_commit_floating env
    (p := signedProposal P s.networkId key proposalId createdAt v) hfresh
    (signedBy P s.networkId key createdAt v)
  rw [← hc]
  exact congrArg (fun r ↦ r.1.governance) ht

/-! ### Answers of peers -/

private theorem modifyPending_snoc {pending : List Proposal} {p : Proposal}
    (hfresh : ∀ q ∈ pending, q.id ≠ p.id) (f : Proposal → Proposal) :
    modifyPending p.id f (pending ++ [p]) = pending ++ [f p] := by
  induction pending with
  | nil => simp [modifyPending]
  | cons q rest ih =>
    have hq : q.id ≠ p.id := hfresh q (by simp)
    rw [List.cons_append, modifyPending, if_neg hq, ih fun x hx ↦ hfresh x (by simp [hx]),
      List.cons_append]

/-- A valid answer to a floating proposal is folded into it before the next attempt. -/
theorem onAck_floating (env : Env) {s : EngineState P} {p : Proposal} {peerId : String}
    {m : AckMessage} (hfresh : ∀ q ∈ s.governance.pending, q.id ≠ p.id)
    (hpeer : pubkeyPart peerId = m.signer) (hid : m.proposalId = p.id)
    (hsig : verify P m.signer (ackPayload s.networkId p.variant m) m.signature = .ok true) :
    onAck env (s.floating p) peerId m = (tryRatify env (s.floating (foldAck m p)) p.id).1 := by
  have hn : (s.floating p).networkId = s.networkId := rfl
  have hpend : (s.floating p).governance.pending = s.governance.pending ++ [p] := rfl
  have hfind := find?_floating hfresh
  rw [hpend] at hfind
  simp only [onAck, onAckIntake, hpeer, ne_eq, not_true_eq_false, ↓reduceIte, hid, hn, hpend,
    hfind, hsig, modifyPending_snoc hfresh, settle]
  rfl

/-- An answer to a proposal nobody floated, or that is settled already, is dropped. -/
theorem onAck_unknown (env : Env) {s : EngineState P} {m : AckMessage} (peerId : String)
    (hnone : ∀ q ∈ s.governance.pending, q.id ≠ m.proposalId) : onAck env s peerId m = s := by
  have hfind : s.governance.pending.find? (·.id == m.proposalId) = none := by
    rw [List.find?_eq_none]
    exact fun q hq ↦ by simpa using hnone q hq
  unfold onAck onAckIntake
  rw [hfind]
  split <;> rfl

end MyOwnMesh
