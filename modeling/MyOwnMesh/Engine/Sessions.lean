import MyOwnMesh.Engine.Readmission

/-!
# Peer sessions and the handshake

`crates/myownmesh-core/src/engine/handshake.rs`, `engine/connection.rs`, the session half of
`engine/governance.rs`, `approve_roster` of `engine/state.rs` and `drop_peer` of
`engine/mod.rs`. A session authenticates, is approved by both sides and becomes active; the
governance state denies evicted devices at the handshake and cuts sessions when it learns of
an eviction, through the command queue or through a delayed janitor. What the transport, the
topology selector and the file writes answer is part of each call.
-/

namespace MyOwnMesh

open Lib Lib.Replay

/-! ### Data -/

/-- Where a peer stands; `connection.rs:22–45`. -/
inductive PeerStatus where
  | sighted
  | handshaking
  | pendingApproval
  | active
  | shelved
  | reconnecting
  | offline
  | error
  deriving DecidableEq, Repr

/-- What the transport reports of its channel: the fingerprint of the certificate it presents
and of the one it observes. -/
structure TransportSession where
  localFingerprint : Option String
  remoteFingerprint : Option String
  deriving DecidableEq, Repr

/-- The state of one peer, as far as the handshake reads it; `connection.rs:47–66`. -/
structure PeerState where
  status : PeerStatus
  authenticated : Bool
  localApproveSent : Bool
  remoteApproveSeen : Bool
  localShelved : Bool
  label : String
  nonceSent : Option String
  nonceReceived : Option String
  session : Option TransportSession
  deriving DecidableEq, Repr

/-- A peer that was just discovered or dialed; `connection.rs:228–250`. -/
def PeerState.fresh (session : Option TransportSession) : PeerState where
  status := .sighted
  authenticated := false
  localApproveSent := false
  remoteApproveSeen := false
  localShelved := false
  label := ""
  nonceSent := none
  nonceReceived := none
  session := session

/-- The statuses `Active | Shelved` that carry a live link. -/
def PeerState.established (p : PeerState) : Bool := p.status == .active || p.status == .shelved

/-- The peers of a network by connection id. -/
abbrev PeerMap := Std.ExtTreeMap String PeerState

/-- Editing one entry of the peer map. -/
theorem getElem?_modify_peer (m : PeerMap) (k d : String) (f : PeerState → PeerState) :
    (m.modify k f)[d]? = if k = d then m[d]?.map f else m[d]? := by
  rw [Std.ExtTreeMap.getElem?_modify]
  simp only [Std.LawfulEqOrd.compare_eq_iff_eq]
  by_cases h : k = d
  · subst h
    simp
  · simp [h]

/-- Removing one entry. -/
theorem getElem?_erase_peer (m : PeerMap) (k d : String) :
    (m.erase k)[d]? = if k = d then none else m[d]? := by
  simp only [Std.ExtTreeMap.getElem?_erase, Std.LawfulEqOrd.compare_eq_iff_eq]

/-- Writing one entry. -/
theorem getElem?_insert_peer (m : PeerMap) (k d : String) (p : PeerState) :
    (m.insert k p)[d]? = if k = d then some p else m[d]? := by
  simp only [Std.ExtTreeMap.getElem?_insert, Std.LawfulEqOrd.compare_eq_iff_eq]

/-- A running network with its sessions: the peers, the ids whose close has not finished, the
queued `DropPeer` commands and the armed janitors. -/
structure SessionState (P : Primitives) where
  engine : EngineState P
  peers : PeerMap
  closing : List String
  queuedDrops : List String
  janitors : List String
  autoApprove : Bool

/-- What one call reads from outside: the governance environment, whether a frame to a peer
leaves, which of the connected peers the topology selector shelves, and whether the close of
a session times out. -/
structure SessionEnv extends Env where
  sends : String → Bool
  shelves : List String → String → Bool
  closeTimesOut : String → Bool

/-- The fields of a hello that the handshake reads; `protocol/handshake.rs:17–66`. -/
structure HelloMessage where
  deviceId : String
  label : String
  nonce : String

/-- Domain-separation tag of the handshake; `lib.rs:145`. -/
def signDomainTag : String := "myownmesh-mesh-auth-v1:"

/-- The bytes an auth response signs; `signing.rs:43–58`. -/
def handshakePayload (nonce myDeviceId theirDeviceId channelBinding : String) : List UInt8 :=
  Text.utf8 (signDomainTag ++ nonce ++ "|" ++ myDeviceId ++ "|" ++ theirDeviceId ++ "|" ++
    channelBinding)

variable {P : Primitives}

/-- A network that has just been joined: no peer is known yet. -/
def SessionState.join (engine : EngineState P) (autoApprove : Bool) : SessionState P where
  engine := engine
  peers := ∅
  closing := []
  queuedDrops := []
  janitors := []
  autoApprove := autoApprove

/-- Edit the state of a peer, if it is known. -/
def SessionState.modifyPeer (s : SessionState P) (deviceId : String)
    (f : PeerState → PeerState) : SessionState P :=
  { s with peers := s.peers.modify deviceId f }

/-! ### Topology, drops and denials -/

/-- The verdict of the topology selector applied to one connected peer; `ladder.rs:112–126`. -/
def shelve (shouldBeShelved : Bool) (p : PeerState) : PeerState :=
  { p with
    localShelved := shouldBeShelved
    status :=
      if shouldBeShelved && p.status == .active then .shelved
      else if !shouldBeShelved && p.status == .shelved then .active
      else p.status }

/-- Re-run the topology selector; `ladder.rs:75–131`. -/
def reevaluateTopology (env : SessionEnv) (s : SessionState P) : SessionState P :=
  if s.engine.selfEvicted then s
  else
    let activePeers := (s.peers.toList.filter fun e ↦ e.2.established).map Prod.fst
    { s with
      peers := s.peers.map fun deviceId p ↦
        if p.established then shelve (env.shelves activePeers deviceId) p else p }

/-- Tear a peer down; `mod.rs:3432–3575`. A close that is still going on swallows the call,
and a close that times out keeps its gate shut. -/
def dropPeer (env : SessionEnv) (s : SessionState P) (deviceId : String) : SessionState P :=
  if deviceId ∈ s.closing then s
  else
    match s.peers[deviceId]? with
    | none => s
    | some p =>
      reevaluateTopology env
        { s with
          peers := s.peers.erase deviceId
          closing :=
            if p.session.isSome && env.closeTimesOut deviceId then s.closing ++ [deviceId]
            else s.closing }

/-- Deny an evicted device and arm its janitor; `governance.rs:976–1021`. -/
def denyIfEvicted (s : SessionState P) (deviceId : String) : SessionState P :=
  if logEvicted s.engine deviceId then { s with janitors := s.janitors ++ [deviceId] } else s

/-! ### Approval -/

/-- Persist a device into the roster; `state.rs:1369–1402`. -/
def approveRoster (env : SessionEnv) (s : SessionState P) (deviceId label : String) :
    SessionState P × Except Error Unit :=
  if logEvicted s.engine deviceId then
    (s, .error (.network ("this device was evicted by the network's signed governance — " ++
      "re-admit it by signing it back in (re-claim), not by approving")))
  else
    let roster := addPeerIn env.rosterNow s.engine.roster deviceId label
    ({ s with engine := { s.engine with roster := roster } }, env.saveRoster roster)

/-- Both approvals of an authenticated peer make it active; `handshake.rs:438–520`. -/
def settleActivation (env : SessionEnv) (s : SessionState P) (deviceId : String) :
    SessionState P :=
  match s.peers[deviceId]? with
  | none => s
  | some p =>
    if (p.authenticated && p.localApproveSent && p.remoteApproveSeen) && p.status != .active then
      let promoted := s.modifyPeer deviceId fun q ↦ { q with status := .active }
      reevaluateTopology env (approveRoster env promoted deviceId p.label).1
    else s

/-- Send the local approve frame, unlatched when it did not leave; `handshake.rs:545–583`. -/
def sendLocalApprove (env : SessionEnv) (s : SessionState P) (deviceId : String) :
    SessionState P :=
  match s.peers[deviceId]? with
  | none => s
  | some p =>
    if p.localApproveSent then s
    else
      let latched := s.modifyPeer deviceId fun q ↦ { q with localApproveSent := true }
      if env.sends deviceId then settleActivation env latched deviceId
      else latched.modifyPeer deviceId fun q ↦ { q with localApproveSent := false }

/-! ### Inbound handshake frames -/

/-- The data channel opened: send a hello; `handshake.rs:58–107`. -/
def initiate (s : SessionState P) (deviceId nonce : String) : SessionState P :=
  s.modifyPeer deviceId fun p ↦ { p with status := .handshaking, nonceSent := some nonce }

/-- A hello arrives; `handshake.rs:169–279`. -/
def onHello (env : SessionEnv) (s : SessionState P) (deviceId : String) (hello : HelloMessage) :
    SessionState P :=
  if pubkeyPart hello.deviceId ≠ pubkeyPart deviceId then dropPeer env s deviceId
  else
    let noted := s.modifyPeer deviceId fun p ↦
      { p with nonceReceived := some hello.nonce, label := hello.label }
    match (noted.peers[deviceId]?).bind PeerState.session with
    | none => dropPeer env noted deviceId
    | some session =>
      match session.localFingerprint with
      | none => dropPeer env noted deviceId
      | some _ => noted

/-- An auth response arrives; `handshake.rs:281–408`. -/
def onAuthResponse (env : SessionEnv) (s : SessionState P) (deviceId signature : String) :
    SessionState P :=
  match s.peers[deviceId]? with
  | none => s
  | some p =>
    match p.nonceSent with
    | none => s
    | some nonce =>
      match p.session.bind TransportSession.remoteFingerprint with
      | none => dropPeer env s deviceId
      | some channelBinding =>
        match verify P deviceId
          (handshakePayload nonce (pubkeyPart deviceId) s.engine.selfId channelBinding)
          signature with
        | .ok true =>
          if logEvicted s.engine deviceId then denyIfEvicted s deviceId
          else
            let authenticated := s.modifyPeer deviceId fun q ↦
              { q with authenticated := true, status := .pendingApproval }
            if s.autoApprove || isAuthorized s.engine.roster deviceId then
              sendLocalApprove env authenticated deviceId
            else authenticated
        | _ => dropPeer env s deviceId

/-- An approve arrives; `handshake.rs:428–433`. -/
def onApprove (env : SessionEnv) (s : SessionState P) (deviceId : String) : SessionState P :=
  settleActivation env
    (s.modifyPeer deviceId fun p ↦ { p with remoteApproveSeen := true }) deviceId

/-! ### Governance steps and the sessions they cut -/

/-- The entry an operation ratifies with every file write done, if any. -/
def ratifiedCleanly (s : EngineState P) (o : Env × GovOp) : Option Transition :=
  match (intake s o).2 with
  | .ok (some id) =>
    match ratifies P s.networkId (intake s o).1 id,
        (tryRatify o.1 { s with governance := (intake s o).1 } id).2 with
    | some t, .ok () => some t
    | _, _ => none
  | _ => none

/-- A governance call or frame with what its ratification does to the sessions: an evict of a
rostered device queues a drop of its target, a topology change re-runs the selector;
`governance.rs:1666–1703`. -/
def govern (env : SessionEnv) (s : SessionState P) (o : GovOp) : SessionState P :=
  let engine := step s.engine (env.toEnv, o)
  let after := { s with engine := engine }
  match ratifiedCleanly s.engine (env.toEnv, o) with
  | none => after
  | some t =>
    match t.variant with
    | .evict target =>
      if isAuthorized s.engine.roster target then
        { after with queuedDrops := after.queuedDrops ++ [target] }
      else after
    | .topologyChange _ =>
      -- The selector runs before the verdict about this device is settled.
      let shaped := reevaluateTopology env
        { s with engine := { engine with selfEvicted := s.engine.selfEvicted } }
      { shaped with engine := engine }
    | _ => after

/-- The flag `changed` of an adoption: either log grew; `governance.rs:1199–1230`. -/
def adoptionChanged (P : Primitives) (networkId : String) (gov : NetworkState)
    (incomingGov incomingMembers : List Transition) : Bool :=
  let adopted := adoptGovernanceLog P networkId gov incomingGov
  decide (gov.transitions.length < adopted.transitions.length) ||
    decide (adopted.memberLog.length < (adoptMemberLog adopted incomingMembers).memberLog.length)

/-- Adopt a peer's logs, complete the handshakes of signed members that wait for our approval
and deny the sessions of tombstoned devices; `governance.rs:1151–1353`. -/
def adoptLogs (env : SessionEnv) (s : SessionState P)
    (incomingGov incomingMembers : List Transition) : SessionState P :=
  let before := s.engine
  let adopted := adoptGovernanceLog P before.networkId before.governance incomingGov
  let engine := adoptTransitionLog env.toEnv before incomingGov incomingMembers
  match verifiedProjection P before.networkId (adoptMemberLog adopted incomingMembers) with
  | .error _ => { s with engine := engine }
  | .ok (projected, removed) =>
    let repair :=
      (mirrorRolesToRoster env.rosterNow projected before.roster removed before.selfId).2
    let merged := { s with engine := { engine with selfEvicted := before.selfEvicted } }
    let shaped :=
      if adopted.topology ≠ before.governance.topology ∧ adopted.topology.isSome then
        reevaluateTopology env merged
      else merged
    let approved := projected.keys.foldl (sendLocalApprove env) shaped
    let denied :=
      if adoptionChanged P before.networkId before.governance incomingGov incomingMembers ||
          repair.rosterChanged then
        (approved.peers.keys.filter fun k ↦ removed.contains (pubkeyPart k)).foldl denyIfEvicted
          approved
      else approved
    { denied with engine := refreshSelfEvicted denied.engine }

/-- A deny arrives: its proof is adopted and the session dropped; `handshake.rs:521–541`. -/
def SessionState.onDeny (env : SessionEnv) (s : SessionState P) (deviceId : String)
    (transitions memberLog : List Transition) : SessionState P :=
  let adopted :=
    if transitions = [] ∧ memberLog = [] then s
    else
      let merged := adoptLogs env s transitions memberLog
      { merged with engine := refreshSelfEvicted merged.engine }
  dropPeer env adopted deviceId

/-- Remove a device from the roster by hand and queue its drop; `state.rs:1411–1435` and
`handle.rs:292–309`. A signed member of a closed network stays. -/
def rosterRemove (env : SessionEnv) (s : SessionState P) (deviceId : String) :
    SessionState P × Except Error Unit :=
  let signed : Except Error Bool :=
    if s.engine.governance.kind.isOpenGovernance then .ok false
    else (verifiedProjection P s.engine.networkId s.engine.governance).map
      fun r ↦ r.1.contains (pubkeyPart deviceId)
  match signed with
  | .error e => (s, .error e)
  | .ok true =>
    (s, .error (.network ("cannot remove an active signed member from a closed network's " ++
      "local roster; record a signed membership removal instead")))
  | .ok false =>
    let roster := removePeerIn s.engine.roster deviceId
    let removed := { s with engine := { s.engine with roster := roster } }
    match env.saveRoster roster with
    | .error e => (removed, .error e)
    | .ok () => ({ removed with queuedDrops := removed.queuedDrops ++ [deviceId] }, .ok ())

/-! ### Runs -/

/-- One step of the network: a governance call or frame, a transport event, a handshake
frame, a local call, or the processing of a queued drop or of a janitor. -/
inductive SessionOp where
  | govern (o : GovOp)
  | sighted (deviceId : String)
  | connect (deviceId : String) (session : TransportSession)
  | dataChannelOpen (deviceId nonce : String)
  | hello (deviceId : String) (msg : HelloMessage)
  | authResponse (deviceId signature : String)
  | approve (deviceId : String)
  | deny (deviceId : String) (transitions memberLog : List Transition)
  | sendLocalApprove (deviceId : String)
  | approveRoster (deviceId label : String)
  | rosterRemove (deviceId : String)
  | reevaluateTopology
  | dropPeer (deviceId : String)
  | queuedDrop
  | janitor (deviceId : String)
  | closeFinished (deviceId : String)

/-- The state after one step. A sighting leaves a known peer alone (`mod.rs:1564–1590`), and a
session is opened only where there is none and no close is going on (`mod.rs:1634–1699`). -/
def sessionStep (s : SessionState P) (o : SessionEnv × SessionOp) : SessionState P :=
  match o.2 with
  | .govern (.adoptTransitionLog incomingGov incomingMembers) =>
    adoptLogs o.1 s incomingGov incomingMembers
  | .govern op => govern o.1 s op
  | .sighted deviceId =>
    if s.peers.contains deviceId then s
    else { s with peers := s.peers.insert deviceId (.fresh none) }
  | .connect deviceId session =>
    if deviceId ∈ s.closing then s
    else if ((s.peers[deviceId]?).bind PeerState.session).isSome then s
    else { s with peers := s.peers.insert deviceId (.fresh (some session)) }
  | .dataChannelOpen deviceId nonce => initiate s deviceId nonce
  | .hello deviceId msg => onHello o.1 s deviceId msg
  | .authResponse deviceId signature => onAuthResponse o.1 s deviceId signature
  | .approve deviceId => onApprove o.1 s deviceId
  | .deny deviceId transitions memberLog => s.onDeny o.1 deviceId transitions memberLog
  | .sendLocalApprove deviceId => sendLocalApprove o.1 s deviceId
  | .approveRoster deviceId label => (approveRoster o.1 s deviceId label).1
  | .rosterRemove deviceId => (rosterRemove o.1 s deviceId).1
  | .reevaluateTopology => reevaluateTopology o.1 s
  | .dropPeer deviceId => dropPeer o.1 s deviceId
  | .queuedDrop =>
    match s.queuedDrops with
    | [] => s
    | deviceId :: rest => dropPeer o.1 { s with queuedDrops := rest } deviceId
  | .janitor deviceId =>
    if deviceId ∈ s.janitors then
      dropPeer o.1 { s with janitors := s.janitors.erase deviceId } deviceId
    else s
  | .closeFinished deviceId => { s with closing := s.closing.filter (· ≠ deviceId) }

end MyOwnMesh
