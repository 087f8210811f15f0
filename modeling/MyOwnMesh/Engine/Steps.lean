import MyOwnMesh.Engine.Operations

/-!
# What one governance operation does

The step inversion of the engine: every local call and every inbound frame either moves
proposals only, folds one ratified entry into the signed logs, appends a signed split, or
adopts a peer's logs. Invariants of whole runs are proved against these four effects and
never against the operations.
-/

namespace MyOwnMesh

open Lib Lib.Replay

variable {P : Primitives}

private theorem applyTransition_pending (gov : NetworkState) (pending : List Proposal)
    (t : Transition) :
    applyTransition { gov with pending := pending } t =
      { applyTransition gov t with pending := pending } := by
  unfold applyTransition
  cases hv : t.variant with
  | kindChange k => cases k <;> cases t.signers.head? <;> rfl
  | roleGrant x r => rfl
  | roleRevoke x => rfl
  | evict x => rfl
  | split n ms => rfl
  | topologyChange m => rfl
  | unknown => rfl

variable (P) in
/-- Routing an entry does not read the pending list. -/
theorem routed_pending (networkId : String) (gov : NetworkState) (pending : List Proposal)
    (t : Transition) :
    routed P networkId { gov with pending := pending } t =
      { routed P networkId gov t with pending := pending } := by
  unfold routed
  rw [applyTransition_pending]
  have htier : memberTier { gov with pending := pending } t.variant =
    memberTier gov t.variant := rfl
  rw [htier]
  split
  · rfl
  · split <;> rfl

variable (P) in
/-- A member-tier entry goes to the member log and the role map is re-projected. -/
theorem routed_member {networkId : String} {gov : NetworkState} {t : Transition}
    (h : memberTier gov t.variant = true) :
    routed P networkId gov t =
      { gov with
        memberLog := gov.memberLog ++ [t]
        roles := projectRoles P networkId gov.transitions (gov.memberLog ++ [t]) } := by
  rw [routed, if_pos h]

variable (P) in
/-- A governance-tier entry that is not an evict is applied and nothing else. -/
theorem routed_governance {networkId : String} {gov : NetworkState} {t : Transition}
    (h : memberTier gov t.variant = false) (he : ∀ x, t.variant ≠ .evict x) :
    routed P networkId gov t = applyTransition gov t := by
  rw [routed, if_neg (by simp [h])]
  split
  · next x hx => exact absurd hx (he x)
  · rfl

variable (P) in
/-- A governance-tier evict is also recorded in the member log. -/
theorem routed_evict {networkId : String} {gov : NetworkState} {t : Transition} {x : String}
    (h : memberTier gov t.variant = false) (he : t.variant = .evict x) :
    routed P networkId gov t =
      { applyTransition gov t with
        memberLog := gov.memberLog ++ [t]
        roles := projectRoles P networkId (gov.transitions ++ [t]) (gov.memberLog ++ [t]) } := by
  rw [routed, if_neg (by simp [h])]
  simp only [he, memberLog_applyTransition, transitions_applyTransition]

/-- Only a kind change of the governance tier moves the kind. -/
theorem kind_routed (networkId : String) (gov : NetworkState) (t : Transition) :
    (routed P networkId gov t).kind = kindAfter gov.kind t := by
  unfold routed
  split
  · next htier =>
    unfold memberTier at htier
    unfold kindAfter
    split
    · next hv => simp [hv] at htier
    · rfl
  · simp only
    split <;> exact kind_applyTransition gov t

variable (P) in
/-- What `tryRatify` folds in has valid signatures and its quorum. -/
theorem ratifies_eq_some {networkId : String} {gov : NetworkState} {proposalId : String}
    {t : Transition} (h : ratifies P networkId gov proposalId = some t) :
    verifyTransitionSignatures P networkId t = .ok () ∧ QuorumMet gov t := by
  unfold ratifies at h
  split at h
  · cases h
  · split at h
    · cases h
    · split at h
      · cases h
      · next hsig =>
        split at h
        · cases h
        · next hq =>
          cases h
          exact ⟨hsig, (verifyQuorum_ok_iff _ _).mp hq⟩

/-- An owner's signature meets the quorum of every grant, revoke and evict. -/
theorem OwnerSigned.quorumMet {s : NetworkState} {t : Transition} {x : String}
    (h : OwnerSigned s t) (ht : memberEntryTarget t = some x) : QuorumMet s t := by
  unfold memberEntryTarget at ht
  unfold QuorumMet
  cases hv : t.variant with
  | roleGrant y r =>
    cases r with
    | owner => exact fun _ ↦ h
    | controller => exact fun _ ↦ h.authoritySigned
    | member => exact fun _ ↦ h.authoritySigned
  | roleRevoke y => exact fun _ ↦ ⟨h.authoritySigned, fun _ ↦ h⟩
  | evict y => exact fun _ ↦ ⟨h.authoritySigned, fun _ ↦ h⟩
  | _ => simp [hv] at ht

private theorem mirrorRatified_frame (env : Env) (s : EngineState P) (t : Transition) :
    (mirrorRatified env s t).1.governance = s.governance ∧
      (mirrorRatified env s t).1.networkId = s.networkId ∧
      (mirrorRatified env s t).1.signingKey = s.signingKey := by
  unfold mirrorRatified
  split
  · exact ⟨rfl, rfl, rfl⟩
  · exact ⟨rfl, rfl, rfl⟩
  · exact ⟨rfl, rfl, rfl⟩
  · split <;> exact ⟨rfl, rfl, rfl⟩
  · exact ⟨rfl, rfl, rfl⟩
  · exact ⟨rfl, rfl, rfl⟩

/-- A ratification routes its entry and drops the proposal. -/
theorem commit_frame (env : Env) (s : EngineState P) (id : String) (t : Transition) :
    (commit env s id t).1.governance =
        { routed P s.networkId s.governance t with
          pending := (routed P s.networkId s.governance t).pending.filter (·.id ≠ id) } ∧
      (commit env s id t).1.networkId = s.networkId ∧
      (commit env s id t).1.signingKey = s.signingKey := by
  unfold commit
  simp only
  split
  · exact ⟨rfl, rfl, rfl⟩
  · have hm := mirrorRatified_frame env
      { s with governance :=
        { routed P s.networkId s.governance t with
          pending := (routed P s.networkId s.governance t).pending.filter (·.id ≠ id) } } t
    split
    · next heq =>
      rw [heq] at hm
      exact hm
    · next heq =>
      rw [heq] at hm
      exact hm

/-- When `ratifies` names an entry, `tryRatify` commits it. -/
theorem tryRatify_of_ratifies (env : Env) {s : EngineState P} {id : String} {t : Transition}
    (h : ratifies P s.networkId s.governance id = some t) :
    tryRatify env s id = commit env s id t := by
  unfold ratifies at h
  unfold tryRatify
  split at h
  · cases h
  · split at h
    · cases h
    · next hd =>
      split at h
      · cases h
      · split at h
        · cases h
        · cases h
          simp only [hd, ↓reduceIte]

/-- `tryRatify` folds in the entry `ratifies` names, and otherwise moves only proposals. -/
theorem governance_tryRatify (env : Env) (s : EngineState P) (id : String) :
    ∃ pending, (tryRatify env s id).1.governance =
      { (match ratifies P s.networkId s.governance id with
          | some t => routed P s.networkId s.governance t
          | none => s.governance) with pending := pending } := by
  unfold tryRatify ratifies
  split
  · exact ⟨_, rfl⟩
  · split
    · exact ⟨_, rfl⟩
    · split
      · exact ⟨_, rfl⟩
      · split
        · exact ⟨_, rfl⟩
        · exact ⟨_, (commit_frame env s id _).1⟩

theorem tryRatify_frame (env : Env) (s : EngineState P) (id : String) :
    (tryRatify env s id).1.networkId = s.networkId ∧
      (tryRatify env s id).1.signingKey = s.signingKey := by
  unfold tryRatify
  split
  · exact ⟨rfl, rfl⟩
  · split
    · exact ⟨rfl, rfl⟩
    · split
      · exact ⟨rfl, rfl⟩
      · split
        · exact ⟨rfl, rfl⟩
        · exact (commit_frame env s id _).2

private theorem intake_pending (s : EngineState P) (o : Env × GovOp) :
    ∃ pending, (intake s o).1 = { s.governance with pending := pending } := by
  unfold intake
  split
  · unfold proposeIntake
    split
    · exact ⟨_, rfl⟩
    · split
      · exact ⟨_, rfl⟩
      · simp only
        split <;> exact ⟨_, rfl⟩
  · unfold signIntake
    split
    · exact ⟨_, rfl⟩
    · split
      · exact ⟨_, rfl⟩
      · split
        · exact ⟨_, rfl⟩
        · split
          · exact ⟨_, rfl⟩
          · simp only
            split <;> exact ⟨_, rfl⟩
  · unfold denyIntake
    split
    · exact ⟨_, rfl⟩
    · split
      · exact ⟨_, rfl⟩
      · simp only
        split <;> exact ⟨_, rfl⟩
  · unfold onProposeIntake
    split
    · exact ⟨_, rfl⟩
    · split
      · split <;> exact ⟨_, rfl⟩
      · exact ⟨_, rfl⟩
  · unfold onAckIntake
    split
    · exact ⟨_, rfl⟩
    · split
      · exact ⟨_, rfl⟩
      · split <;> exact ⟨_, rfl⟩
  · exact ⟨_, rfl⟩

/-- A log that passes the fork guard is longer than ours. -/
theorem length_lt_of_extendsLog {ours incoming : List Transition}
    (h : extendsLog ours incoming = true) : ours.length < incoming.length := by
  unfold extendsLog at h
  rw [Bool.and_eq_true, decide_eq_true_eq] at h
  exact h.1

/-- The governance state after an adoption. -/
def adoptedGovernance (s : EngineState P) (incomingGov incomingMembers : List Transition) :
    NetworkState :=
  let merged :=
    adoptMemberLog (adoptGovernanceLog P s.networkId s.governance incomingGov) incomingMembers
  match verifiedProjection P s.networkId merged with
  | .error _ => merged
  | .ok (projected, _) => { merged with roles := projected }

/-- Everything one operation can do to the governance state. -/
inductive StepEffect (s : EngineState P) (o : Env × GovOp) : NetworkState → Prop where
  /-- Only proposals moved. -/
  | quiet (pending : List Proposal) (hby : ratifiedBy s o = none) :
      StepEffect s o { s.governance with pending := pending }
  /-- A proposal with its quorum was folded into the signed logs. -/
  | ratify (t : Transition) (pending : List Proposal) (hby : ratifiedBy s o = some t)
      (hsig : verifyTransitionSignatures P s.networkId t = .ok ())
      (hq : QuorumMet s.governance t) :
      StepEffect s o { routed P s.networkId s.governance t with pending := pending }
  /-- A signed one-party split was appended to the governance log. -/
  | split (t : Transition) (pending : List Proposal) (newNetworkId : String)
      (members : List String) (hby : ratifiedBy s o = none)
      (hv : t.variant = .split newNetworkId members)
      (hsig : verifyTransitionSignatures P s.networkId t = .ok ())
      (hone : t.signers.dedup.length = 1) :
      StepEffect s o { applyTransition s.governance t with pending := pending }
  /-- A peer's logs were adopted and the role map re-projected. -/
  | adopt (incomingGov incomingMembers : List Transition) (hby : ratifiedBy s o = none) :
      StepEffect s o (adoptedGovernance s incomingGov incomingMembers)

/-- Everything an operation other than an adoption can do to it. -/
inductive LocalEffect (s : EngineState P) (o : Env × GovOp) : NetworkState → Prop where
  /-- Only proposals moved. -/
  | quiet (pending : List Proposal) (hby : ratifiedBy s o = none) :
      LocalEffect s o { s.governance with pending := pending }
  /-- A proposal with its quorum was folded into the signed logs. -/
  | ratify (t : Transition) (pending : List Proposal) (hby : ratifiedBy s o = some t)
      (hsig : verifyTransitionSignatures P s.networkId t = .ok ())
      (hq : QuorumMet s.governance t) :
      LocalEffect s o { routed P s.networkId s.governance t with pending := pending }
  /-- A signed one-party split was appended to the governance log. -/
  | split (t : Transition) (pending : List Proposal) (newNetworkId : String)
      (members : List String) (hby : ratifiedBy s o = none)
      (hv : t.variant = .split newNetworkId members)
      (hsig : verifyTransitionSignatures P s.networkId t = .ok ())
      (hone : t.signers.dedup.length = 1) :
      LocalEffect s o { applyTransition s.governance t with pending := pending }

/-- The effects of local operations are effects of operations. -/
theorem LocalEffect.stepEffect {s : EngineState P} {o : Env × GovOp} {g : NetworkState}
    (h : LocalEffect s o g) : StepEffect s o g := by
  cases h with
  | quiet pending hby => exact .quiet pending hby
  | ratify t pending hby hsig hq => exact .ratify t pending hby hsig hq
  | split t pending n ms hby hv hsig hone => exact .split t pending n ms hby hv hsig hone

private theorem ratifies_pending (networkId : String) (gov : NetworkState)
    (pending : List Proposal) {id : String} {t : Transition}
    (h : ratifies P networkId { gov with pending := pending } id = some t) :
    verifyTransitionSignatures P networkId t = .ok () ∧ QuorumMet gov t := by
  obtain ⟨hsig, hq⟩ := ratifies_eq_some P h
  refine ⟨hsig, ?_⟩
  rw [← verifyQuorum_ok_iff] at hq ⊢
  exact hq

/-- A call that touches a proposal folds in the entry it ratifies, and otherwise moves only
proposals. -/
theorem governance_settle (s : EngineState P) (o : Env × GovOp) :
    ∃ pending, (settle o.1 s (intake s o)).1.governance =
      { (match ratifiedBy s o with
          | some t => routed P s.networkId s.governance t
          | none => s.governance) with pending := pending } := by
  obtain ⟨pending, hi⟩ := intake_pending s o
  unfold settle
  simp only
  split
  · next he =>
    refine ⟨pending, ?_⟩
    rw [ratifiedBy, he, hi]
  · next he =>
    refine ⟨pending, ?_⟩
    rw [ratifiedBy, he, hi]
  · next id hid =>
    obtain ⟨pending', hg⟩ :=
      governance_tryRatify o.1 { s with governance := (intake s o).1 } id
    refine ⟨pending', ?_⟩
    have hby : ratifiedBy s o = ratifies P s.networkId (intake s o).1 id := by
      rw [ratifiedBy, hid]
    rw [hg, hby]
    simp only [hi]
    cases ratifies P s.networkId { s.governance with pending := pending } id with
    | none => rfl
    | some t => simp only [routed_pending]

/-- An operation ratifies an entry exactly when its intake names a proposal that carries it. -/
theorem ratifiedBy_eq_some_iff {s : EngineState P} {o : Env × GovOp} {t : Transition} :
    ratifiedBy s o = some t ↔ ∃ id, (intake s o).2 = .ok (some id) ∧
      ratifies P s.networkId (intake s o).1 id = some t := by
  unfold ratifiedBy
  cases hr : (intake s o).2 with
  | error e => simp
  | ok r => cases r with
    | none => simp
    | some id => simp

/-- What an operation ratifies has valid signatures and its quorum in the state before. -/
theorem ratifiedBy_eq_some {s : EngineState P} {o : Env × GovOp} {t : Transition}
    (h : ratifiedBy s o = some t) :
    verifyTransitionSignatures P s.networkId t = .ok () ∧ QuorumMet s.governance t := by
  obtain ⟨pending, hi⟩ := intake_pending s o
  obtain ⟨id, -, hid⟩ := ratifiedBy_eq_some_iff.mp h
  rw [hi] at hid
  exact ratifies_pending s.networkId s.governance pending hid

private theorem localEffect_settle (s : EngineState P) (o : Env × GovOp) :
    LocalEffect s o (settle o.1 s (intake s o)).1.governance := by
  obtain ⟨pending, hg⟩ := governance_settle s o
  rw [hg]
  cases hby : ratifiedBy s o with
  | none => exact .quiet pending hby
  | some t =>
    obtain ⟨hsig, hq⟩ := ratifiedBy_eq_some hby
    exact .ratify t pending hby hsig hq

private theorem verifySignatures_splitEntry {networkId : String} {stamp : UInt64}
    {newNetworkId : String} {members : List String} {signer signature : String}
    (h : verify P signer (transitionPayload networkId (.split newNetworkId members)) signature =
      .ok true) :
    verifyTransitionSignatures P networkId
      (splitEntry stamp newNetworkId members signer signature) = .ok () := by
  simp [verifyTransitionSignatures_ok_iff, splitEntry, h]

private theorem localEffect_withdraw (env : Env) (s : EngineState P) (id : String) :
    LocalEffect s (env, .withdrawProposal id) (withdrawProposal env s id).1.governance := by
  unfold withdrawProposal
  split
  · exact .quiet s.governance.pending rfl
  · split
    · exact .quiet s.governance.pending rfl
    · exact .quiet _ rfl

private theorem localEffect_spawnSplit (env : Env) (s : EngineState P) (id : String) :
    LocalEffect s (env, .spawnSplit id) (spawnSplit env s id).1.governance := by
  unfold spawnSplit
  split
  · exact .quiet s.governance.pending rfl
  · next p _ =>
    split
    · exact .quiet s.governance.pending rfl
    · split
      · exact .quiet s.governance.pending rfl
      · split
        · exact .quiet s.governance.pending rfl
        · exact .split _ _ _ _ rfl rfl
            (verifySignatures_splitEntry (verify_signWith P s.signingKey _)) rfl

private theorem localEffect_onSplit (env : Env) (s : EngineState P) (peerId : String)
    (msg : SplitMessage) :
    LocalEffect s (env, .onSplit peerId msg) (onSplit s peerId msg).governance := by
  unfold onSplit
  split
  · exact .quiet s.governance.pending rfl
  · split
    · next hver =>
      split
      · exact .quiet s.governance.pending rfl
      · exact .split _ _ _ _ rfl rfl (verifySignatures_splitEntry hver) rfl
    · exact .quiet s.governance.pending rfl

/-- An adoption leaves exactly `adoptedGovernance`. -/
theorem governance_adoptTransitionLog (env : Env) (s : EngineState P)
    (incomingGov incomingMembers : List Transition) :
    (adoptTransitionLog env s incomingGov incomingMembers).governance =
      adoptedGovernance s incomingGov incomingMembers := by
  simp only [adoptTransitionLog, adoptedGovernance]
  cases verifiedProjection P s.networkId
      (adoptMemberLog (adoptGovernanceLog P s.networkId s.governance incomingGov)
        incomingMembers) with
  | error e => rfl
  | ok r => rfl

/-- The step inversion for the operations other than an adoption. -/
theorem localEffect_step (s : EngineState P) (env : Env) {op : GovOp}
    (hop : ∀ gov members, op ≠ .adoptTransitionLog gov members) :
    LocalEffect s (env, op) (step s (env, op)).governance := by
  cases op with
  | propose variant => exact localEffect_settle s (env, .propose variant)
  | signProposal id => exact localEffect_settle s (env, .signProposal id)
  | denyProposal id => exact localEffect_settle s (env, .denyProposal id)
  | onPropose peerId msg => exact localEffect_settle s (env, .onPropose peerId msg)
  | onAck peerId msg => exact localEffect_settle s (env, .onAck peerId msg)
  | withdrawProposal id => exact localEffect_withdraw env s id
  | spawnSplit id => exact localEffect_spawnSplit env s id
  | onSplit peerId msg => exact localEffect_onSplit env s peerId msg
  | adoptTransitionLog gov members => exact absurd rfl (hop gov members)

/-- The step inversion: every operation has one of the four effects. -/
theorem stepEffect_step (s : EngineState P) (o : Env × GovOp) :
    StepEffect s o (step s o).governance := by
  obtain ⟨env, op⟩ := o
  by_cases hop : ∃ gov members, op = .adoptTransitionLog gov members
  · obtain ⟨gov, members, rfl⟩ := hop
    have h := governance_adoptTransitionLog env s gov members
    simp only [step, h]
    exact .adopt gov members rfl
  · refine (localEffect_step s env fun gov members heq ↦ hop ?_).stepEffect
    exact ⟨gov, members, heq⟩

/-- An operation that ratifies an entry routes it, and otherwise moves only proposals. -/
theorem governance_step_of_ratified {s : EngineState P} {o : Env × GovOp} {t : Transition}
    (h : ratifiedBy s o = some t) :
    verifyTransitionSignatures P s.networkId t = .ok () ∧ QuorumMet s.governance t ∧
      ∃ pending, (step s o).governance =
        { routed P s.networkId s.governance t with pending := pending } := by
  have heff := stepEffect_step s o
  generalize (step s o).governance = g at heff
  cases heff with
  | quiet pending hby =>
    rw [h] at hby
    cases hby
  | ratify t' pending hby hsig hq =>
    rw [h, Option.some.injEq] at hby
    subst hby
    exact ⟨hsig, hq, pending, rfl⟩
  | split t' pending n ms hby =>
    rw [h] at hby
    cases hby
  | adopt incomingGov incomingMembers hby =>
    rw [h] at hby
    cases hby

private theorem settle_frame (env : Env) (s : EngineState P) (i : Intake) :
    (settle env s i).1.networkId = s.networkId ∧
      (settle env s i).1.signingKey = s.signingKey := by
  unfold settle
  simp only
  split
  · exact ⟨rfl, rfl⟩
  · exact ⟨rfl, rfl⟩
  · exact tryRatify_frame env _ _

/-- No operation renames the network or changes this device's key. -/
theorem step_frame (s : EngineState P) (o : Env × GovOp) :
    (step s o).networkId = s.networkId ∧ (step s o).signingKey = s.signingKey := by
  obtain ⟨env, op⟩ := o
  cases op with
  | propose variant => exact settle_frame env s _
  | signProposal id => exact settle_frame env s _
  | denyProposal id => exact settle_frame env s _
  | onPropose peerId msg => exact settle_frame env s _
  | onAck peerId msg => exact settle_frame env s _
  | withdrawProposal id =>
    simp only [step, withdrawProposal]
    split
    · exact ⟨rfl, rfl⟩
    · split <;> exact ⟨rfl, rfl⟩
  | spawnSplit id =>
    simp only [step, spawnSplit]
    repeat' split
    all_goals exact ⟨rfl, rfl⟩
  | onSplit peerId msg =>
    simp only [step, onSplit]
    repeat' split
    all_goals exact ⟨rfl, rfl⟩
  | adoptTransitionLog gov members =>
    simp only [step, adoptTransitionLog]
    split <;> exact ⟨rfl, rfl⟩

/-! ### The roster after a ratification -/

/-- What the per-variant mirror of a ratified entry makes of a row. -/
def localRow (selfId : String) (t : Transition) (k : String) (before : Option Role) :
    Option Role :=
  match t.variant with
  | .roleGrant target role => if k = pubkeyPart target then some role else before
  | .roleRevoke target =>
    if k = pubkeyPart target then before.map fun _ ↦ .member else before
  | .kindChange .closed => if k = pubkeyPart selfId then some .owner else before
  | .evict target => if k = pubkeyPart target then none else before
  | _ => before

/-- The per-variant mirror acts on each row by itself. -/
theorem row_mirrorRatified (env : Env) (s : EngineState P) (t : Transition) (k : String) :
    (mirrorRatified env s t).1.roster.row k = localRow s.selfId t k (s.roster.row k) := by
  unfold mirrorRatified localRow
  cases hv : t.variant with
  | kindChange to_ =>
    cases to_ with
    | closed => exact row_grantIn _ _ _ _ _ _
    | «open» => rfl
    | silent => rfl
  | roleGrant target role => exact row_grantIn _ _ _ _ _ _
  | roleRevoke target => exact row_setRoleIn _ _ _ _
  | evict target =>
    simp only
    split
    · exact row_removePeerIn _ _ _
    · next hn =>
      -- A device without a row has nothing to remove.
      rw [isAuthorized_eq_isSome_row, Bool.not_eq_true, Option.isSome_eq_false_iff,
        Option.isNone_iff_eq_none] at hn
      split
      · next hk => rw [hk, hn]
      · rfl
  | split n ms => rfl
  | topologyChange to_ => rfl
  | unknown => rfl

/-- The governance state a ratification writes to disk. -/
def committed (P : Primitives) (networkId : String) (gov : NetworkState) (id : String)
    (t : Transition) : NetworkState :=
  { routed P networkId gov t with
    pending := (routed P networkId gov t).pending.filter (·.id ≠ id) }

/-- The mirror of an entry reads nothing of the governance state. -/
private theorem roster_mirrorRatified (env : Env) (s : EngineState P) (gov : NetworkState)
    (t : Transition) :
    (mirrorRatified env { s with governance := gov } t).1.roster =
      (mirrorRatified env s t).1.roster := by
  unfold mirrorRatified
  cases hv : t.variant with
  | kindChange to_ => cases to_ <;> rfl
  | evict target =>
    simp only
    split <;> rfl
  | _ => rfl

/-- A ratification whose state was saved leaves the mirrored roster, whether or not the
roster itself was saved; a failed save leaves the roster as it was. -/
theorem roster_commit (env : Env) (s : EngineState P) (id : String) (t : Transition) :
    (env.saveState (committed P s.networkId s.governance id t) = .ok () →
        (commit env s id t).1.roster = (mirrorRatified env s t).1.roster) ∧
      (env.saveState (committed P s.networkId s.governance id t) ≠ .ok () →
        (commit env s id t).1.roster = s.roster) := by
  unfold commit committed
  simp only
  constructor
  · intro hsave
    have hm := roster_mirrorRatified env s (committed P s.networkId s.governance id t) t
    unfold committed at hm
    simp only [hsave]
    split
    · next heq => rw [← hm, heq]
    · next heq =>
      rw [← hm, heq]
      rfl
  · intro hsave
    split
    · rfl
    · next heq => exact absurd heq hsave

/-- Where every save succeeds, a ratification mirrors its entry row by row. -/
theorem row_commit (env : Env) (s : EngineState P) (id : String) (t : Transition) (k : String)
    (hsave : ∀ gov, env.saveState gov = .ok ()) :
    (commit env s id t).1.roster.row k = localRow s.selfId t k (s.roster.row k) := by
  rw [(roster_commit env s id t).1 (hsave _), row_mirrorRatified]

private theorem settle_of_ratified {s : EngineState P} {o : Env × GovOp} {t : Transition}
    (h : ratifiedBy s o = some t) :
    ∃ id, (intake s o).2 = .ok (some id) ∧ (settle o.1 s (intake s o)).1 =
      (commit o.1 { s with governance := (intake s o).1 } id t).1 := by
  obtain ⟨id, hid, ht⟩ := ratifiedBy_eq_some_iff.mp h
  have hr := tryRatify_of_ratifies o.1 (s := { s with governance := (intake s o).1 }) ht
  exact ⟨id, hid, by simp only [settle, hid, hr]⟩

/-- The state file is written once the operation has folded its entry in. -/
def StateSaved (s : EngineState P) (o : Env × GovOp) (t : Transition) : Prop :=
  ∃ id, (intake s o).2 = .ok (some id) ∧
    o.1.saveState (committed P s.networkId (intake s o).1 id t) = .ok ()

/-- An operation that ratifies an entry is an intake and a ratification attempt. -/
private theorem step_eq_settle {s : EngineState P} {o : Env × GovOp} {t : Transition}
    (h : ratifiedBy s o = some t) : step s o = (settle o.1 s (intake s o)).1 := by
  obtain ⟨env, op⟩ := o
  cases op with
  | propose variant => rfl
  | signProposal id => rfl
  | denyProposal id => rfl
  | onPropose peerId msg => rfl
  | onAck peerId msg => rfl
  | withdrawProposal id => cases h
  | spawnSplit id => cases h
  | onSplit peerId msg => cases h
  | adoptTransitionLog gov members => cases h

/-- An operation that ratifies an entry mirrors it into the roster if its state was saved. -/
theorem roster_step_of_ratified {s : EngineState P} {o : Env × GovOp} {t : Transition}
    (h : ratifiedBy s o = some t) :
    (StateSaved s o t → (step s o).roster = (mirrorRatified o.1 s t).1.roster) ∧
      (¬ StateSaved s o t → (step s o).roster = s.roster) := by
  obtain ⟨id, hid, hcommit⟩ := settle_of_ratified h
  obtain ⟨hsaved, hunsaved⟩ := roster_commit o.1 { s with governance := (intake s o).1 } id t
  rw [step_eq_settle h, hcommit]
  constructor
  · rintro ⟨id', hid', hsave⟩
    rw [hid, Except.ok.injEq, Option.some.injEq] at hid'
    subst hid'
    rw [hsaved hsave]
    exact roster_mirrorRatified o.1 s (intake s o).1 t
  · intro hnot
    exact hunsaved fun hsave ↦ hnot ⟨id, hid, hsave⟩

/-- An operation that ratifies an entry, with its state saved, mirrors it into the roster. -/
theorem row_step_of_ratified {s : EngineState P} {o : Env × GovOp} {t : Transition}
    (h : ratifiedBy s o = some t) (hsave : ∀ gov, o.1.saveState gov = .ok ()) (k : String) :
    (step s o).roster.row k = localRow s.selfId t k (s.roster.row k) := by
  obtain ⟨id, hid, -⟩ := ratifiedBy_eq_some_iff.mp h
  rw [(roster_step_of_ratified h).1 ⟨id, hid, hsave _⟩, row_mirrorRatified]

private theorem roster_tryRatify_of_not (env : Env) {s : EngineState P} {id : String}
    (h : ratifies P s.networkId s.governance id = none) :
    (tryRatify env s id).1.roster = s.roster := by
  unfold ratifies at h
  unfold tryRatify
  cases hp : s.governance.pending.find? (·.id == id) with
  | none => rfl
  | some p =>
    simp only [hp] at h ⊢
    split
    · rfl
    · next hd =>
      rw [if_neg hd] at h
      cases hs : verifyTransitionSignatures P s.networkId (candidate p) with
      | error e => rfl
      | ok u =>
        cases hq : verifyQuorum s.governance (candidate p) with
        | error e => rfl
        | ok u' => simp [hs, hq] at h

private theorem roster_settle_of_not {s : EngineState P} {o : Env × GovOp}
    (h : ratifiedBy s o = none) : (settle o.1 s (intake s o)).1.roster = s.roster := by
  unfold ratifiedBy at h
  unfold settle
  cases hi : (intake s o).2 with
  | error e => rfl
  | ok r =>
    cases r with
    | none => rfl
    | some id =>
      rw [hi] at h
      exact roster_tryRatify_of_not o.1 (s := { s with governance := (intake s o).1 }) h

/-- An operation that neither ratifies nor adopts leaves the roster alone. -/
theorem roster_step_of_not {s : EngineState P} {env : Env} {op : GovOp}
    (h : ratifiedBy s (env, op) = none)
    (hop : ∀ gov members, op ≠ .adoptTransitionLog gov members) :
    (step s (env, op)).roster = s.roster := by
  cases op with
  | propose variant => exact roster_settle_of_not h
  | signProposal id => exact roster_settle_of_not h
  | denyProposal id => exact roster_settle_of_not h
  | onPropose peerId msg => exact roster_settle_of_not h
  | onAck peerId msg => exact roster_settle_of_not h
  | withdrawProposal id =>
    simp only [step, withdrawProposal]
    split
    · rfl
    · split <;> rfl
  | spawnSplit id =>
    simp only [step, spawnSplit]
    repeat' split
    all_goals rfl
  | onSplit peerId msg =>
    simp only [step, onSplit]
    repeat' split
    all_goals rfl
  | adoptTransitionLog gov members => exact absurd rfl (hop gov members)

end MyOwnMesh
