import MyOwnMesh.Engine.Coherence
import MyOwnMesh.Engine.Stamps

/-!
# The author of an entry and a receiver of it

`propose` stamps its own pending record through `memberTierTimestamp` and the broadcast
message with a second reading of the clock (`governance.rs:166–194`). A receiver stamps
its record from the message. The two entries differ in the timestamp at most, and the
condition under which they do not is stated over the clock readings and the member log.
-/

namespace MyOwnMesh

open Lib Lib.Replay

variable {P : Primitives}

/-- The message `propose` broadcasts, stamped by its own clock reading;
`governance.rs:188–194`. -/
def proposeMessage (env : Env) (wireNow : UInt64) (s : EngineState P) (v : TransitionVariant) :
    ProposeMessage :=
  signedMessage P s.networkId s.signingKey env.proposalId wireNow v

/-! ### The two stamps -/

/-- The device whose member-log entries a new entry has to follow, if any. -/
def stampedTarget (gov : NetworkState) : TransitionVariant → Option String
  | .roleGrant target .member => some target
  | .roleRevoke target => if gov.roleOf target = .member then some target else none
  | .evict target => some target
  | _ => none

/-- The broadcast carries the author's stamp: the same clock reading when no member-log
entry about the target is as late as the author's clock, else one past the newest. -/
def WireStampAgrees (gov : NetworkState) (v : TransitionVariant) (now wireNow : UInt64) :
    Prop :=
  match stampedTarget gov v with
  | none => wireNow = now
  | some target =>
    newestStamp gov.memberLog target < now ∧ wireNow = now ∨
      now ≤ newestStamp gov.memberLog target ∧
        wireNow = saturatingSucc (newestStamp gov.memberLog target)

private theorem memberTierTimestamp_eq (now : UInt64) (gov : NetworkState)
    (v : TransitionVariant) :
    memberTierTimestamp now gov v =
      (stampedTarget gov v).elim now
        fun target ↦ max now (saturatingSucc (newestStamp gov.memberLog target)) := by
  unfold memberTierTimestamp stampedTarget
  cases v with
  | roleGrant target role => cases role <;> rfl
  | roleRevoke target =>
    simp only
    split <;> rfl
  | evict target => rfl
  | kindChange k => rfl
  | split n ms => rfl
  | topologyChange m => rfl
  | unknown => rfl

private theorem max_saturatingSucc (now newest : UInt64) :
    max now (saturatingSucc newest) =
      if newest < now then now else saturatingSucc newest := by
  have hmax : max now (saturatingSucc newest) =
    if now ≤ saturatingSucc newest then saturatingSucc newest else now := rfl
  have hs := toNat_saturatingSucc newest
  have hnow := now.toNat_lt
  rw [hmax]
  simp only [UInt64.lt_iff_toNat_lt, UInt64.le_iff_toNat_le, ← UInt64.toNat_inj, hs]
  split <;> split <;> omega

/-- The condition says exactly that the author's stamp is the one on the wire. -/
theorem wireStampAgrees_iff (gov : NetworkState) (v : TransitionVariant)
    (now wireNow : UInt64) :
    WireStampAgrees gov v now wireNow ↔ wireNow = memberTierTimestamp now gov v := by
  rw [memberTierTimestamp_eq, WireStampAgrees]
  cases stampedTarget gov v with
  | none => rfl
  | some target =>
    simp only [Option.elim_some]
    rw [max_saturatingSucc]
    by_cases h : newestStamp gov.memberLog target < now
    · have hle : ¬ now ≤ newestStamp gov.memberLog target := UInt64.not_le.mpr h
      simp [h, hle]
    · have hle : now ≤ newestStamp gov.memberLog target := UInt64.not_lt.mp h
      simp [h, hle]

/-! ### The two entries -/

/-- What the author's call has to get past before it tries to ratify. -/
private theorem ratifies_of_propose {env : Env} {s : EngineState P} {v : TransitionVariant}
    {t : Transition} (h : ratifiedBy s (env, .propose v) = some t) :
    ratifies P s.networkId (s.floating (ownProposal env s v)).governance env.proposalId =
      some t := by
  cases hnew : alreadyGranted s.governance v with
  | true => simp [ratifiedBy, intake, proposeIntake, hnew] at h
  | false =>
    cases hcust : env.custody with
    | error e => simp [ratifiedBy, intake, proposeIntake, hnew, hcust] at h
    | ok _ =>
      cases hsave : env.saveState
          { s.governance with pending := s.governance.pending ++ [ownProposal env s v] } with
      | error e => simp [ratifiedBy, intake, proposeIntake, hnew, hcust, hsave] at h
      | ok _ =>
        simp only [ratifiedBy, intake, proposeIntake, hnew, hcust, hsave, Bool.false_eq_true,
          ↓reduceIte] at h
        exact h

private theorem peer_of_ratified {env : Env} {s : EngineState P} {peerId : String}
    {msg : ProposeMessage} {t : Transition}
    (h : ratifiedBy s (env, .onPropose peerId msg) = some t) :
    pubkeyPart peerId = msg.proposer := by
  by_contra hne
  have hpeer : ¬ msg.proposer = pubkeyPart peerId := fun he ↦ hne he.symm
  simp [ratifiedBy, intake, onProposeIntake, hpeer] at h

private theorem onProposeIntake_of_taken {s : EngineState P} {peerId : String}
    {msg : ProposeMessage} (hpeer : pubkeyPart peerId = msg.proposer)
    (hsig : verify P msg.proposer (transitionPayload s.networkId msg.variant) msg.signature =
      .ok true)
    (htaken : ∃ q ∈ s.governance.pending, q.id = msg.proposalId) :
    onProposeIntake s peerId msg = (s.governance, .ok (some msg.proposalId)) := by
  have hany : s.governance.pending.any (·.id == msg.proposalId) = true := by
    simpa using htaken
  simp only [onProposeIntake, hpeer, ne_eq, not_true_eq_false, ↓reduceIte, hsig, hany]

/-- A proposal whose id is taken is never looked at: the older record answers for it. -/
private theorem ratifies_snoc_of_taken {networkId : String} {gov : NetworkState} {p : Proposal}
    {id : String} (h : ∃ q ∈ gov.pending, q.id = id) :
    ratifies P networkId { gov with pending := gov.pending ++ [p] } id =
      ratifies P networkId gov id := by
  have hfind : (gov.pending ++ [p]).find? (·.id == id) = gov.pending.find? (·.id == id) := by
    obtain ⟨q, hq, hid⟩ := h
    have hsome : (gov.pending.find? (·.id == id)).isSome := by
      rw [List.find?_isSome]
      exact ⟨q, hq, by simp [hid]⟩
    obtain ⟨x, hx⟩ := Option.isSome_iff_exists.mp hsome
    rw [List.find?_append, hx]
    rfl
  simp only [ratifies, hfind]
  rfl

private theorem signedBy_inj_stamp {networkId : String} {key : P.SigningKey}
    {stamp stamp' : UInt64} {v : TransitionVariant} :
    signedBy P networkId key stamp v = signedBy P networkId key stamp' v ↔ stamp = stamp' := by
  simp [signedBy]

/-- Under a fresh id the author ratifies its own record. -/
private theorem entry_of_fresh_author {s : EngineState P} {env : Env} {v : TransitionVariant}
    {t : Transition} (hfresh : ∀ p ∈ s.governance.pending, p.id ≠ env.proposalId)
    (h : ratifiedBy s (env, .propose v) = some t) : t = ownEntry env s v := by
  have hq := (ratifies_signedProposal hfresh s.signingKey
    (memberTierTimestamp env.now s.governance v) v).symm.trans (ratifies_of_propose h)
  split at hq
  · exact (Option.some.inj hq).symm
  · cases hq

/-- And the receiver the record of the message. -/
private theorem entry_of_fresh_receiver {s r : EngineState P} {env env' : Env}
    {wireNow : UInt64} {v : TransitionVariant} {peerId : String} {t : Transition}
    (hn : r.networkId = s.networkId)
    (hfresh : ∀ p ∈ r.governance.pending, p.id ≠ env.proposalId)
    (hpeer : pubkeyPart peerId = publicId P s.signingKey)
    (h : ratifiedBy r (env', .onPropose peerId (proposeMessage env wireNow s v)) = some t) :
    t = signedBy P s.networkId s.signingKey wireNow v := by
  have hby := ratifiedBy_onPropose env' hpeer hfresh wireNow v
  rw [hn] at hby
  have hq := hby.symm.trans h
  split at hq
  · exact (Option.some.inj hq).symm
  · cases hq

/-- The receiver's entry is the author's when the message carries the author's stamp, or when an
older record under the same id stands in for both. -/
private theorem received_entry_eq_iff {s r : EngineState P} {env env' : Env} {wireNow : UInt64}
    {v : TransitionVariant} {peerId : String} {t t' : Transition}
    (hn : r.networkId = s.networkId) (hg : r.governance = s.governance)
    (hauthor : ratifiedBy s (env, .propose v) = some t)
    (hreceiver : ratifiedBy r (env', .onPropose peerId (proposeMessage env wireNow s v)) =
      some t') :
    t' = t ↔ WireStampAgrees s.governance v env.now wireNow ∨
      ∃ p ∈ s.governance.pending, p.id = env.proposalId := by
  have hproposer : (proposeMessage env wireNow s v).proposer = publicId P s.signingKey := rfl
  have hpeer := (peer_of_ratified hreceiver).trans hproposer
  by_cases htaken : ∃ p ∈ s.governance.pending, p.id = env.proposalId
  · -- Both calls look at the older record.
    have hsig : verify P (proposeMessage env wireNow s v).proposer
        (transitionPayload r.networkId v) (proposeMessage env wireNow s v).signature =
        .ok true := by
      rw [hn]
      exact verify_signWith P s.signingKey _
    have hi : onProposeIntake r peerId (proposeMessage env wireNow s v) =
        (r.governance, .ok (some env.proposalId)) :=
      onProposeIntake_of_taken hpeer hsig (by rw [hg]; exact htaken)
    have hr : ratifies P s.networkId s.governance env.proposalId = some t' := by
      simp only [ratifiedBy, intake, hi] at hreceiver
      rw [← hn, ← hg]
      exact hreceiver
    have hold := (ratifies_snoc_of_taken (p := ownProposal env s v) htaken).symm.trans
      (ratifies_of_propose hauthor)
    rw [hr, Option.some.injEq] at hold
    exact iff_of_true hold (.inr htaken)
  · have hfresh : ∀ p ∈ s.governance.pending, p.id ≠ env.proposalId := fun p hp he ↦
      htaken ⟨p, hp, he⟩
    have hfresh' : ∀ p ∈ r.governance.pending, p.id ≠ env.proposalId := by
      rw [hg]
      exact hfresh
    rw [entry_of_fresh_author hfresh hauthor, entry_of_fresh_receiver hn hfresh' hpeer hreceiver,
      ownEntry, signedBy_inj_stamp, ← wireStampAgrees_iff]
    simp [htaken]

/-- An author and a receiver in one governance state that both ratify a proposal, the one
from its own call and the other from the broadcast, hold the same entry and the same logs
afterwards exactly when the message carries the author's stamp, or an older record under
the same id stands in for both. -/
theorem author_and_receiver_agree_iff {s r : EngineState P} {env env' : Env} {wireNow : UInt64}
    {v : TransitionVariant} {peerId : String} {t t' : Transition}
    (hn : r.networkId = s.networkId) (hg : r.governance = s.governance)
    (hauthor : ratifiedBy s (env, .propose v) = some t)
    (hreceiver : ratifiedBy r (env', .onPropose peerId (proposeMessage env wireNow s v)) =
      some t') :
    (t' = t ∧
        (step r (env', .onPropose peerId (proposeMessage env wireNow s v))).governance.transitions =
          (step s (env, .propose v)).governance.transitions ∧
        (step r (env', .onPropose peerId (proposeMessage env wireNow s v))).governance.memberLog =
          (step s (env, .propose v)).governance.memberLog) ↔
      WireStampAgrees s.governance v env.now wireNow ∨
        ∃ p ∈ s.governance.pending, p.id = env.proposalId := by
  rw [← received_entry_eq_iff hn hg hauthor hreceiver]
  obtain ⟨-, -, pending, hs⟩ := governance_step_of_ratified hauthor
  obtain ⟨-, -, pending', hr⟩ := governance_step_of_ratified hreceiver
  constructor
  · exact And.left
  · intro h
    rw [hs, hr, hn, hg, h]
    exact ⟨rfl, rfl, rfl⟩

/-! ### An evict within the second of the admission -/

/-- The owner of the concrete network removes device 3. -/
def evictThird : TransitionVariant := .evict (seededDevice 3)

/-- The owner and another node both ratify the owner's removal of device 3. -/
private theorem fleet_evictThird (members : List Transition) :
    ratifiedBy (fleetNode 1 members) (clearEnv 4 "q", .propose evictThird) =
        some (ownEntry (clearEnv 4 "q") (fleetNode 1 members) evictThird) ∧
      ratifiedBy (fleetNode 4 members) (clearEnv 0 "", .onPropose (seededDevice 1)
          (proposeMessage (clearEnv 4 "q") 4 (fleetNode 1 members) evictThird)) =
        some (seededEntry 1 4 evictThird) := by
  obtain ⟨hn, hk, -⟩ := fleetNode_frame 1 members
  have hn' := (fleetNode_frame 4 members).1
  have hfresh : ∀ seed, ∀ p ∈ (fleetNode seed members).governance.pending, p.id ≠ "q" := by
    intro seed
    rw [(fleetIdle_fleetNode seed members).pending]
    simp
  have hq : ∀ seed stamp, QuorumMet (fleetNode seed members).governance
      (seededEntry 1 stamp evictThird) := fun seed stamp ↦
    (ownerSigned_fleetNode seed members stamp evictThird).quorumMet rfl
  constructor
  · rw [ratifiedBy_propose (clear_clearEnv 4 "q") (hfresh 1), if_pos]
    refine ⟨rfl, ?_⟩
    rw [ownEntry, hn, hk]
    exact hq 1 _
  · have hpeer : pubkeyPart (seededDevice 1) = publicId seeded (1 : UInt8) :=
      pubkeyPart_publicId seeded (1 : UInt8)
    have hby := ratifiedBy_onPropose (clearEnv 0 "") hpeer (hfresh 4) 4 evictThird
    rw [hn'] at hby
    rw [proposeMessage, hn, hk]
    exact hby.trans (if_pos (hq 4 4))

/-- Without an earlier entry about device 3 the owner and the receiver hold one entry. -/
theorem evict_of_stranger_agrees :
    ∃ t t', ratifiedBy (fleetNode 1 []) (clearEnv 4 "q", .propose evictThird) = some t ∧
      ratifiedBy (fleetNode 4 []) (clearEnv 0 "", .onPropose (seededDevice 1)
        (proposeMessage (clearEnv 4 "q") 4 (fleetNode 1 []) evictThird)) = some t' ∧ t' = t := by
  obtain ⟨ha, hr⟩ := fleet_evictThird []
  have hn : (fleetNode 4 []).networkId = (fleetNode 1 []).networkId :=
    (fleetNode_frame 4 []).1.trans (fleetNode_frame 1 []).1.symm
  have hagree : WireStampAgrees (fleetNode 1 []).governance evictThird 4 4 := by
    obtain ⟨memberLog, hmem, hg, -⟩ := fleetNode_spec 1 []
    have hnil : memberLog = [] := List.eq_nil_iff_forall_not_mem.mpr fun t ht ↦ by
      simpa using (hmem t).mp ht
    rw [hg, hnil]
    exact .inl ⟨by decide, rfl⟩
  exact ⟨_, _, ha, hr, ((author_and_receiver_agree_iff hn (governance_fleetNode 4 1 []) ha
    hr).mpr (.inl hagree)).1⟩

/-- Device 3 is admitted and evicted within one second: the owner stamps its evict past the
admission and broadcasts a message that is not. -/
theorem same_second_evict_differs :
    (fleetNode 4 [seededEntry 1 4 (.roleGrant (seededDevice 3) .member)]).networkId =
        (fleetNode 1 [seededEntry 1 4 (.roleGrant (seededDevice 3) .member)]).networkId ∧
      (fleetNode 4 [seededEntry 1 4 (.roleGrant (seededDevice 3) .member)]).governance =
        (fleetNode 1 [seededEntry 1 4 (.roleGrant (seededDevice 3) .member)]).governance ∧
      ∃ t t', ratifiedBy (fleetNode 1 [seededEntry 1 4 (.roleGrant (seededDevice 3) .member)])
          (clearEnv 4 "q", .propose evictThird) = some t ∧
        ratifiedBy (fleetNode 4 [seededEntry 1 4 (.roleGrant (seededDevice 3) .member)])
          (clearEnv 0 "", .onPropose (seededDevice 1) (proposeMessage (clearEnv 4 "q") 4
            (fleetNode 1 [seededEntry 1 4 (.roleGrant (seededDevice 3) .member)])
            evictThird)) = some t' ∧
        t'.at_ ≠ t.at_ := by
  obtain ⟨ha, hr⟩ := fleet_evictThird [seededEntry 1 4 (.roleGrant (seededDevice 3) .member)]
  refine ⟨(fleetNode_frame 4 _).1.trans (fleetNode_frame 1 _).1.symm, governance_fleetNode 4 1 _,
    _, _, ha, hr, fun he ↦ ?_⟩
  obtain ⟨memberLog, hmem, hg, -⟩ :=
    fleetNode_spec 1 [seededEntry 1 4 (.roleGrant (seededDevice 3) .member)]
  have hagree := (wireStampAgrees_iff _ evictThird 4 4).mpr he
  rw [hg] at hagree
  have hle : (seededEntry 1 4 (.roleGrant (seededDevice 3) .member)).at_ ≤
      newestStamp memberLog (seededDevice 3) :=
    le_newestStamp ((hmem _).mpr (by simp)) rfl
  rcases hagree with ⟨hlt, -⟩ | ⟨-, hsucc⟩
  · exact UInt64.not_le.mpr hlt hle
  · have hnat := congrArg UInt64.toNat hsucc
    rw [toNat_saturatingSucc] at hnat
    rw [UInt64.le_iff_toNat_le] at hle
    have hfour : (4 : UInt64).toNat = 4 := rfl
    have hstamp : (seededEntry 1 4 (.roleGrant (seededDevice 3) .member)).at_.toNat = 4 := rfl
    rw [hstamp] at hle
    rw [hfour] at hnat
    have hnat' : 4 = min ((newestStamp memberLog (seededDevice 3)).toNat + 1) (2 ^ 64 - 1) := hnat
    omega

end MyOwnMesh
