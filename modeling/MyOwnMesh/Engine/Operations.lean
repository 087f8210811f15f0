import MyOwnMesh.Engine.Projection

/-!
# The governance operations of the engine

`crates/myownmesh-core/src/engine/governance.rs`. The local calls and the inbound frames
that move a node's governance state, with their error texts. The calls that touch a
proposal share one shape: an intake edits the pending list, then `tryRatify` folds the
proposal into the signed logs if it can. A failed save leaves the edit in memory, as in
the source. Frames sent to peers, sessions and diagnostics are outside this model.
-/

namespace MyOwnMesh

open Lib Lib.Replay

/-- What one call reads from outside the governance state: the clocks that stamp an entry
and a roster row, a fresh proposal id, the verdict of the custody gate, and whether each
file write succeeds. -/
structure Env where
  now : UInt64
  rosterNow : UInt64
  proposalId : String
  custody : Except Error Unit
  saveState : NetworkState → Except Error Unit
  saveRoster : Roster → Except Error Unit

/-- The part of a running network the governance code reads and writes;
`engine/state.rs`. -/
structure EngineState (P : Primitives) where
  networkId : String
  signingKey : P.SigningKey
  label : String
  governance : NetworkState
  roster : Roster
  topology : TopologyMode
  selfEvicted : Bool

/-- A peer's proposal; `protocol/governance.rs:70–86`. -/
structure ProposeMessage where
  proposalId : String
  variant : TransitionVariant
  proposer : String
  createdAt : UInt64
  signature : String

/-- Sign or deny; `protocol/governance.rs:105–112`. -/
inductive AckDecision where
  | sign
  | deny
  deriving DecidableEq, Repr

/-- A peer's answer to a proposal; `protocol/governance.rs:92–103`. -/
structure AckMessage where
  proposalId : String
  signer : String
  decision : AckDecision
  signature : String

/-- A peer's split announcement; `protocol/governance.rs:120–141`. -/
structure SplitMessage where
  parentProposalId : String
  newNetworkId : String
  members : List String
  proposer : String
  at_ : UInt64
  signature : String

/-! ### Stamping and routing an entry -/

/-- Sort key of a signer: the proposer first, then by id; `governance.rs:1451–1454`. -/
def signerRank (proposer signer : String) : ℕ ×ₗ String :=
  toLex (if signer = proposer then 0 else 1, signer)

/-- The canonical order of signer and signature pairs; `governance.rs:1439–1460`. -/
def canonicalizeSigners (proposer : String) (signers signatures : List String) :
    List String × List String :=
  if signers.length ≠ signatures.length then (signers, signatures)
  else
    ((signers.zip signatures).insertionSort fun a b ↦
      signerRank proposer a.1 ≤ signerRank proposer b.1).unzip

/-- The id a member-tier entry acts on; `governance.rs:1463–1470`. -/
def memberEntryTarget (t : Transition) : Option String :=
  match t.variant with
  | .roleGrant target _ | .roleRevoke target | .evict target => some target
  | _ => none

/-- `u64::saturating_add(1)`. -/
def saturatingSucc (n : UInt64) : UInt64 := if n = u64Max then u64Max else n + 1

/-- One past the newest member-log entry of a target, never before the clock. -/
def stampPast (now : UInt64) (memberLog : List Transition) (target : String) : UInt64 :=
  let newest := ((memberLog.filter fun t ↦ memberEntryTarget t = some target).map
    Transition.at_).foldl max 0
  max now (saturatingSucc newest)

/-- The timestamp of a newly authored transition; `governance.rs:1482–1520`. -/
def memberTierTimestamp (now : UInt64) (gov : NetworkState) (variant : TransitionVariant) :
    UInt64 :=
  match variant with
  | .roleGrant target .member => stampPast now gov.memberLog target
  | .roleRevoke target =>
    if gov.roleOf target = .member then stampPast now gov.memberLog target else now
  | .evict target => stampPast now gov.memberLog target
  | _ => now

/-- The entry rides the member log; `governance.rs:1591–1599`. -/
def memberTier (gov : NetworkState) (variant : TransitionVariant) : Bool :=
  match variant with
  | .roleGrant _ .member => true
  | .roleRevoke target | .evict target => gov.roleOf target == .member
  | _ => false

/-- Same signer set, in any order; `governance.rs:1528–1535`. -/
def sameSignerSet (a b : Transition) : Bool :=
  a.signers.length == b.signers.length &&
    (a.signers.all (b.signers.contains ·) && b.signers.all (a.signers.contains ·))

/-- Edit the first pending proposal with an id. -/
def modifyPending (id : String) (f : Proposal → Proposal) : List Proposal → List Proposal
  | [] => []
  | p :: rest => if p.id = id then f p :: rest else p :: modifyPending id f rest

/-- The transition a pending proposal would become; `governance.rs:1561–1567`. -/
def candidate (p : Proposal) : Transition :=
  let (signers, signatures) := canonicalizeSigners p.proposer p.signers p.signatures
  { at_ := p.createdAt, variant := p.variant, signers := signers, signatures := signatures }

variable (P : Primitives)

/-- A ratified entry folded into the signed logs; `governance.rs:1600–1622`. -/
def routed (networkId : String) (gov : NetworkState) (t : Transition) : NetworkState :=
  if memberTier gov t.variant then
    { gov with
      memberLog := gov.memberLog ++ [t]
      roles := projectRoles P networkId gov.transitions (gov.memberLog ++ [t]) }
  else
    let after := applyTransition gov t
    match t.variant with
    | .evict _ =>
      { after with
        memberLog := after.memberLog ++ [t]
        roles := projectRoles P networkId after.transitions (after.memberLog ++ [t]) }
    | _ => after

/-- The entry `tryRatify` will fold in for this proposal, if any: found, not denied, every
signature valid and the quorum met. -/
def ratifies (networkId : String) (gov : NetworkState) (proposalId : String) :
    Option Transition :=
  match gov.pending.find? (·.id == proposalId) with
  | none => none
  | some p =>
    if p.deniers ≠ [] then none
    else
      match verifyTransitionSignatures P networkId (candidate p) with
      | .error _ => none
      | .ok () =>
        match verifyQuorum gov (candidate p) with
        | .error _ => none
        | .ok () => some (candidate p)

/-! ### Eviction verdict and roster mirror -/

variable {P}

/-- This device's wire identity. -/
def EngineState.selfId (s : EngineState P) : String := publicId P s.signingKey

/-- The signed state of a closed network removed this device; `governance.rs:923–936`. -/
def logEvicted (s : EngineState P) (deviceId : String) : Bool :=
  let pubkey := pubkeyPart deviceId
  if s.governance.kind.isOpenGovernance then false
  else
    match s.governance.roles[pubkey]? with
    | some .owner | some .controller => false
    | _ => (memberLogRemoved P s.governance s.governance.memberLog s.networkId).contains pubkey

/-- Recompute the cached verdict about this device; `governance.rs:950–978`. -/
def refreshSelfEvicted (s : EngineState P) : EngineState P :=
  { s with selfEvicted := logEvicted s s.selfId }

/-- The per-variant roster and topology mirror of a ratified entry;
`governance.rs:1632–1703`. -/
def mirrorRatified (env : Env) (s : EngineState P) (t : Transition) :
    EngineState P × Except Error Unit :=
  match t.variant with
  | .roleGrant target role =>
    let roster := (grantIn env.rosterNow s.roster target "" role).1
    ({ s with roster := roster }, env.saveRoster roster)
  | .roleRevoke target =>
    let (roster, changed) := setRoleIn s.roster target .member
    ({ s with roster := roster }, if changed then env.saveRoster roster else .ok ())
  | .kindChange .closed =>
    let roster := (grantIn env.rosterNow s.roster s.selfId s.label .owner).1
    ({ s with roster := roster }, env.saveRoster roster)
  | .evict target =>
    if isAuthorized s.roster target then
      let roster := removePeerIn s.roster target
      ({ s with roster := roster }, env.saveRoster roster)
    else (s, .ok ())
  | .topologyChange to_ => ({ s with topology := to_ }, .ok ())
  | _ => (s, .ok ())

/-- Fold a ratified entry in, persist, mirror and settle the eviction verdict;
`governance.rs:1586–1719`. -/
def commit (env : Env) (s : EngineState P) (proposalId : String) (t : Transition) :
    EngineState P × Except Error Unit :=
  let after := routed P s.networkId s.governance t
  let gov := { after with pending := after.pending.filter (·.id ≠ proposalId) }
  match env.saveState gov with
  | .error e => ({ s with governance := gov }, .error e)
  | .ok () =>
    match mirrorRatified env { s with governance := gov } t with
    | (s', .error e) => (s', .error e)
    | (s', .ok ()) => (refreshSelfEvicted s', .ok ())

/-- Ratify a pending proposal that has its quorum, or drop a denied one;
`governance.rs:1541–1722`. -/
def tryRatify (env : Env) (s : EngineState P) (proposalId : String) :
    EngineState P × Except Error Unit :=
  match s.governance.pending.find? (·.id == proposalId) with
  | none => (s, .ok ())
  | some p =>
    if p.deniers ≠ [] then
      let gov :=
        { s.governance with pending := s.governance.pending.eraseP (·.id == proposalId) }
      ({ s with governance := gov }, env.saveState gov)
    else
      match verifyTransitionSignatures P s.networkId (candidate p) with
      | .error _ => (s, .ok ())
      | .ok () =>
        match verifyQuorum s.governance (candidate p) with
        | .error _ => (s, .ok ())
        | .ok () => commit env s proposalId (candidate p)

/-! ### Intakes: edits of the pending list -/

/-- A grant of the exact role the map already holds; `governance.rs:155–159`. -/
def alreadyGranted (gov : NetworkState) (variant : TransitionVariant) : Bool :=
  match variant with
  | .roleGrant target role => gov.roles[target]? == some role
  | _ => false

/-- An intake's outcome: the governance state it leaves, and an error, an early return or
the proposal to ratify. -/
abbrev Intake := NetworkState × Except Error (Option String)

/-- The proposal this device signs and floats; `governance.rs:166–180`. -/
def ownProposal (env : Env) (s : EngineState P) (variant : TransitionVariant) : Proposal where
  id := env.proposalId
  createdAt := memberTierTimestamp env.now s.governance variant
  proposer := s.selfId
  variant := variant
  signers := [s.selfId]
  signatures := [signTransition P s.networkId variant s.signingKey]
  deniers := []
  splitSpawned := false

/-- The intake of `propose`; `governance.rs:138–186`. -/
def proposeIntake (env : Env) (s : EngineState P) (variant : TransitionVariant) : Intake :=
  if alreadyGranted s.governance variant then (s.governance, .ok none)
  else
    match env.custody with
    | .error e => (s.governance, .error e)
    | .ok () =>
      let gov :=
        { s.governance with pending := s.governance.pending ++ [ownProposal env s variant] }
      match env.saveState gov with
      | .error e => (gov, .error e)
      | .ok () => (gov, .ok (some env.proposalId))

/-- The refusal of an id no proposal has. -/
def proposalNotFound (proposalId : String) : Error :=
  .other ("proposal not found: " ++ proposalId)

/-- The intake of `sign_proposal`; `governance.rs:218–251`. -/
def signIntake (env : Env) (s : EngineState P) (proposalId : String) : Intake :=
  match s.governance.pending.find? (·.id == proposalId) with
  | none => (s.governance, .error (proposalNotFound proposalId))
  | some p =>
    if p.deniers ≠ [] then (s.governance, .error (.other "proposal has been denied"))
    else if s.selfId ∈ p.signers then (s.governance, .error (.other "already signed"))
    else
      match env.custody with
      | .error e => (s.governance, .error e)
      | .ok () =>
        let signature := signTransition P s.networkId p.variant s.signingKey
        let gov :=
          { s.governance with
            pending := modifyPending proposalId
              (fun q ↦ { q with
                signers := q.signers ++ [s.selfId]
                signatures := q.signatures ++ [signature] }) s.governance.pending }
        match env.saveState gov with
        | .error e => (gov, .error e)
        | .ok () => (gov, .ok (some proposalId))

/-- The intake of `deny_proposal`; `governance.rs:259–290`. -/
def denyIntake (env : Env) (s : EngineState P) (proposalId : String) : Intake :=
  match s.governance.pending.find? (·.id == proposalId) with
  | none => (s.governance, .error (proposalNotFound proposalId))
  | some p =>
    if s.selfId ∈ p.deniers then (s.governance, .error (.other "already denied"))
    else
      let gov :=
        { s.governance with
          pending := modifyPending proposalId
            (fun q ↦ { q with deniers := q.deniers ++ [s.selfId] }) s.governance.pending }
      match env.saveState gov with
      | .error e => (gov, .error e)
      | .ok () => (gov, .ok (some proposalId))

/-- The intake of a peer's proposal; `governance.rs:427–488`. -/
def onProposeIntake (s : EngineState P) (peerId : String) (msg : ProposeMessage) : Intake :=
  if msg.proposer ≠ pubkeyPart peerId then (s.governance, .ok none)
  else
    match verify P msg.proposer (transitionPayload s.networkId msg.variant) msg.signature with
    | .ok true =>
      if s.governance.pending.any (·.id == msg.proposalId) then
        (s.governance, .ok (some msg.proposalId))
      else
        let proposal : Proposal :=
          { id := msg.proposalId
            createdAt := msg.createdAt
            proposer := msg.proposer
            variant := msg.variant
            signers := [msg.proposer]
            signatures := [msg.signature]
            deniers := []
            splitSpawned := false }
        ({ s.governance with pending := s.governance.pending ++ [proposal] },
          .ok (some msg.proposalId))
    | _ => (s.governance, .ok none)

/-- The bytes an answer to a proposal signs; `governance.rs:528–539`. -/
def ackPayload (networkId : String) (variant : TransitionVariant) (msg : AckMessage) :
    List UInt8 :=
  match msg.decision with
  | .sign => transitionPayload networkId variant
  | .deny => denyPayload networkId msg.proposalId msg.signer

/-- An answer folded into a proposal; `governance.rs:555–567`. -/
def foldAck (msg : AckMessage) (p : Proposal) : Proposal :=
  match msg.decision with
  | .sign =>
    if msg.signer ∈ p.signers then p
    else
      { p with
        signers := p.signers ++ [msg.signer]
        signatures := p.signatures ++ [msg.signature] }
  | .deny =>
    if msg.signer ∈ p.deniers then p else { p with deniers := p.deniers ++ [msg.signer] }

/-- The intake of a peer's answer; `governance.rs:498–577`. -/
def onAckIntake (s : EngineState P) (peerId : String) (msg : AckMessage) : Intake :=
  if msg.signer ≠ pubkeyPart peerId then (s.governance, .ok none)
  else
    match s.governance.pending.find? (·.id == msg.proposalId) with
    | none => (s.governance, .ok none)
    | some p =>
      match verify P msg.signer (ackPayload s.networkId p.variant msg) msg.signature with
      | .ok true =>
        ({ s.governance with
          pending := modifyPending msg.proposalId (foldAck msg) s.governance.pending },
          .ok (some msg.proposalId))
      | _ => (s.governance, .ok none)

/-- Keep an intake's state and, unless it returned early, try to ratify. The outcome of
the ratification itself is discarded. -/
def settle (env : Env) (s : EngineState P) (i : Intake) :
    EngineState P × Except Error (Option String) :=
  let s' := { s with governance := i.1 }
  match i.2 with
  | .error e => (s', .error e)
  | .ok none => (s', .ok none)
  | .ok (some id) => ((tryRatify env s' id).1, .ok (some id))

/-! ### The operations -/

/-- Float a signed transition from this device; `governance.rs:138–207`. An idempotent
grant returns the empty id. -/
def propose (env : Env) (s : EngineState P) (variant : TransitionVariant) :
    EngineState P × Except Error String :=
  let r := settle env s (proposeIntake env s variant)
  (r.1, r.2.map (·.getD ""))

/-- Co-sign a pending proposal; `governance.rs:213–265`. -/
def signProposal (env : Env) (s : EngineState P) (proposalId : String) :
    EngineState P × Except Error Unit :=
  let r := settle env s (signIntake env s proposalId)
  (r.1, r.2.map fun _ ↦ ())

/-- Deny a pending proposal; `governance.rs:269–316`. -/
def denyProposal (env : Env) (s : EngineState P) (proposalId : String) :
    EngineState P × Except Error Unit :=
  let r := settle env s (denyIntake env s proposalId)
  (r.1, r.2.map fun _ ↦ ())

/-- Withdraw a proposal of this device; `governance.rs:320–341`. -/
def withdrawProposal (env : Env) (s : EngineState P) (proposalId : String) :
    EngineState P × Except Error Unit :=
  match s.governance.pending.find? (·.id == proposalId) with
  | none => (s, .error (proposalNotFound proposalId))
  | some p =>
    if p.proposer ≠ s.selfId then
      (s, .error (.other "only the proposer can withdraw a proposal"))
    else
      let gov :=
        { s.governance with pending := s.governance.pending.eraseP (·.id == proposalId) }
      ({ s with governance := gov }, env.saveState gov)

/-- A one-party split entry. -/
def splitEntry (stamp : UInt64) (newNetworkId : String) (members : List String)
    (signer signature : String) : Transition where
  at_ := stamp
  variant := .split newNetworkId members
  signers := [signer]
  signatures := [signature]

/-- Spawn a derived network from a stuck close; `governance.rs:346–420`. -/
def spawnSplit (env : Env) (s : EngineState P) (proposalId : String) :
    EngineState P × Except Error String :=
  match s.governance.pending.find? (·.id == proposalId) with
  | none => (s, .error (proposalNotFound proposalId))
  | some p =>
    if p.proposer ≠ s.selfId then (s, .error (.other "only the proposer can spawn a split"))
    else if p.splitSpawned then (s, .error (.other "split already spawned"))
    else if p.variant ≠ .kindChange .closed then
      (s, .error (.other "splits only apply to stuck open→closed proposals"))
    else
      let newNetworkId := deriveSplitNetworkId P s.networkId p.signers
      let signature :=
        signTransition P s.networkId (.split newNetworkId p.signers) s.signingKey
      let after := applyTransition s.governance
        (splitEntry env.now newNetworkId p.signers s.selfId signature)
      let gov :=
        { after with
          pending := modifyPending proposalId (fun q ↦ { q with splitSpawned := true })
            after.pending }
      ({ s with governance := gov }, (env.saveState gov).map fun _ ↦ newNetworkId)

/-- A peer's proposal arrives; `governance.rs:427–490`. -/
def onPropose (env : Env) (s : EngineState P) (peerId : String) (msg : ProposeMessage) :
    EngineState P :=
  (settle env s (onProposeIntake s peerId msg)).1

/-- A peer's answer arrives; `governance.rs:495–579`. -/
def onAck (env : Env) (s : EngineState P) (peerId : String) (msg : AckMessage) :
    EngineState P :=
  (settle env s (onAckIntake s peerId msg)).1

/-- A peer's split arrives; `governance.rs:584–655`. -/
def onSplit (s : EngineState P) (peerId : String) (msg : SplitMessage) : EngineState P :=
  if msg.proposer ≠ pubkeyPart peerId then s
  else
    match verify P msg.proposer
      (transitionPayload s.networkId (.split msg.newNetworkId msg.members)) msg.signature with
    | .ok true =>
      if s.governance.splits.any (·.newNetworkId == msg.newNetworkId) then s
      else
        let after := applyTransition s.governance
          (splitEntry msg.at_ msg.newNetworkId msg.members msg.proposer msg.signature)
        { s with
          governance :=
            { after with
              pending := modifyPending msg.parentProposalId
                (fun q ↦ { q with splitSpawned := true }) after.pending } }
    | _ => s

/-- The fork guard: longer, and equal to ours entry by entry up to signer order and
timestamps; `governance.rs:1161–1180`. -/
def extendsLog (transitions incoming : List Transition) : Bool :=
  decide (transitions.length < incoming.length) &&
    (incoming.zip transitions).all fun e ↦
      e.1.variant == e.2.variant && sameSignerSet e.1 e.2

variable (P)

/-- The governance half of an adoption; `governance.rs:1160–1221`. -/
def adoptGovernanceLog (networkId : String) (gov : NetworkState)
    (incoming : List Transition) : NetworkState :=
  if extendsLog gov.transitions incoming then
    match verifyLog P networkId incoming with
    | .error _ => gov
    | .ok rebuilt =>
      if gov.transitions.length < rebuilt.transitions.length then
        { gov with
          kind := rebuilt.kind
          transitions := rebuilt.transitions
          splits := rebuilt.splits
          topology := rebuilt.topology }
      else gov
  else gov

/-- The member half of an adoption; `governance.rs:1223–1230`. -/
def adoptMemberLog (gov : NetworkState) (incoming : List Transition) : NetworkState :=
  if incoming = [] then gov
  else
    let merged := mergeMemberLogs gov.memberLog incoming
    if gov.memberLog.length < merged.length then { gov with memberLog := merged } else gov

variable {P}

/-- Adopt a peer's two signed logs; `governance.rs:1151–1353`. Failed saves are only
reported there, so they do not appear here. -/
def adoptTransitionLog (env : Env) (s : EngineState P)
    (incomingGov incomingMembers : List Transition) : EngineState P :=
  let adopted := adoptGovernanceLog P s.networkId s.governance incomingGov
  let merged := adoptMemberLog adopted incomingMembers
  match verifiedProjection P s.networkId merged with
  | .error _ => { s with governance := merged }
  | .ok (projected, removed) =>
    let topology :=
      if adopted.topology ≠ s.governance.topology then adopted.topology.getD s.topology
      else s.topology
    refreshSelfEvicted
      { s with
        governance := { merged with roles := projected }
        topology := topology
        roster := (mirrorRolesToRoster env.rosterNow projected s.roster removed s.selfId).1 }

/-! ### Runs -/

/-- One governance operation with its arguments. -/
inductive GovOp where
  | propose (variant : TransitionVariant)
  | signProposal (proposalId : String)
  | denyProposal (proposalId : String)
  | withdrawProposal (proposalId : String)
  | spawnSplit (proposalId : String)
  | onPropose (peerId : String) (msg : ProposeMessage)
  | onAck (peerId : String) (msg : AckMessage)
  | onSplit (peerId : String) (msg : SplitMessage)
  | adoptTransitionLog (incomingGov incomingMembers : List Transition)

/-- The state after one operation. -/
def step (s : EngineState P) (o : Env × GovOp) : EngineState P :=
  match o.2 with
  | .propose variant => (propose o.1 s variant).1
  | .signProposal id => (signProposal o.1 s id).1
  | .denyProposal id => (denyProposal o.1 s id).1
  | .withdrawProposal id => (withdrawProposal o.1 s id).1
  | .spawnSplit id => (spawnSplit o.1 s id).1
  | .onPropose peerId msg => onPropose o.1 s peerId msg
  | .onAck peerId msg => onAck o.1 s peerId msg
  | .onSplit peerId msg => onSplit s peerId msg
  | .adoptTransitionLog incomingGov incomingMembers =>
    adoptTransitionLog o.1 s incomingGov incomingMembers

/-- A node that has just joined a network: an empty governance state. -/
def EngineState.start (networkId : String) (signingKey : P.SigningKey) (label : String)
    (roster : Roster) (topology : TopologyMode) : EngineState P where
  networkId := networkId
  signingKey := signingKey
  label := label
  governance := .emptyFor networkId
  roster := roster
  topology := topology
  selfEvicted := false

/-- The intake of an operation that ends in a ratification attempt. -/
def intake (s : EngineState P) (o : Env × GovOp) : Intake :=
  match o.2 with
  | .propose variant => proposeIntake o.1 s variant
  | .signProposal id => signIntake o.1 s id
  | .denyProposal id => denyIntake o.1 s id
  | .onPropose peerId msg => onProposeIntake s peerId msg
  | .onAck peerId msg => onAckIntake s peerId msg
  | _ => (s.governance, .ok none)

/-- The entry an operation will ratify in this state, if any. -/
def ratifiedBy (s : EngineState P) (o : Env × GovOp) : Option Transition :=
  match (intake s o).2 with
  | .ok (some id) => ratifies P s.networkId (intake s o).1 id
  | _ => none

end MyOwnMesh
