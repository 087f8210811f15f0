import MyOwnMesh.Engine.Handshake
import MyOwnMesh.Engine.Reliable
import MyOwnMesh.Engine.Routing
import MyOwnMesh.Engine.Tags

/-!
# Inbound frames

`handle_inbound_frame` and the handlers behind it: `crates/myownmesh-core/src/engine/mod.rs:2666`
to `:3048`, `handshake.rs`, `heartbeat.rs`, `reliable.rs`, `routing.rs` and the frame half of
`governance.rs`. A frame passes the admission gate and reaches the handler of its kind. The
handlers write diagnostics that shorten ids; a cut inside a character ends the driver, and so
does an index past the end of a list. Both are `none` here. Frames that the handlers send and
the traffic counters are outside this model.
-/

namespace MyOwnMesh

open Lib Lib.Replay Reliable

/-! ### Frames -/

/-- What a peer says it can do; `protocol/rpc.rs:15–40`. The engine only stores it. -/
structure CapabilityAdvert where
  tags : List String
  appVersion : Option String
  maxConnections : Option UInt32
  extra : Value

/-- A hello with the fields the engine stores; `protocol/handshake.rs:17–66`. -/
structure HelloFrame extends HelloMessage where
  verificationCode : String
  capabilities : Option CapabilityAdvert
  features : List String

/-- Every kind of frame; `protocol/mod.rs:66–149`. -/
inductive MeshMessage where
  | hello (msg : HelloFrame)
  | authResponse (signature : String)
  | approve
  | deny (reason : Option String) (transitions memberLog : List Transition)
  | ping (t : Int64)
  | pong (t : Int64)
  | capabilitiesUpdate (capabilities : CapabilityAdvert)
  | shelve (reason : Option String)
  | unshelve
  | rpcRequest (requestId method : String) (payload : Value) (streaming : Bool)
  | rpcResponse (requestId : String) (ok : Option Value) (error : Option String)
  | rpcStreamChunk (requestId : String) (seq : UInt64) (payload : Value)
  | rpcStreamEnd (requestId : String) (error : Option String)
  | networkState (msg : StateBroadcast)
  | networkStatePropose (msg : ProposeMessage)
  | networkStateAck (msg : AckMessage)
  | networkStateSplit (msg : SplitMessage)
  | rosterSummary (root : String)
  | rosterRequest
  | rosterEntries (entries : List RosterEntry) (transitions memberLog : List Transition)
  | channel (channel : String) (payload : Value)
  | channelSeq (stream seq : UInt64) (channel : String) (payload : Value)
  | channelAck (stream upTo : UInt64)
  | unknown

/-- Which frames a peer may send before it is admitted; `mod.rs:2670–2699`. -/
inductive Admission where
  | protocol
  | application
  deriving DecidableEq, Repr

/-- The admission phase of a frame; `mod.rs:2690–2699`. -/
def inboundAdmission : MeshMessage → Admission
  | .hello _ => .protocol
  | .authResponse _ => .protocol
  | .approve => .protocol
  | .deny _ _ _ => .protocol
  | _ => .application

/-- The peer finished authenticating and approving; `connection.rs:194–197`. -/
def PeerState.admitted (p : PeerState) : Bool := p.authenticated && p.established

/-! ### State -/

/-- The rest of a peer's entry, as far as frames read or write it; `connection.rs:47–190`. -/
structure LinkData where
  admissionRejected : UInt64
  remoteShelved : Bool
  capabilities : Option CapabilityAdvert
  features : List String
  verificationCodeReceived : Option String
  rttMs : Option UInt32
  lastPingT : Option Int64
  clockSkewSamples : List Int64
  clockSkewMs : Option Int64

/-- The entry of a peer nothing was heard of. -/
def LinkData.fresh : LinkData where
  admissionRejected := 0
  remoteShelved := false
  capabilities := none
  features := []
  verificationCodeReceived := none
  rttMs := none
  lastPingT := none
  clockSkewSamples := []
  clockSkewMs := none

/-- A call of this device that waits for answers; `rpc.rs`, `PendingEntry`. -/
inductive PendingCall where
  | single
  | stream
  deriving DecidableEq, Repr

/-- What the engine hands to the program that embeds it: a frame of a channel, a call of a
peer, the answer or a piece of the answer to a call of this device, and the outcome of a
reliable send. -/
inductive Delivery where
  | channelFrame (sender channel : String) (payload : Value)
  | rpcCall (sender requestId method : String) (payload : Value) (streaming : Bool)
  | rpcResult (requestId : String) (result : Except String Value)
  | rpcChunk (requestId : String) (chunk : Except String Value)
  | reply (peer : String) (call : Nat) (result : Except Error Unit)

/-- The engine as its driver sees it when a frame arrives; the last two fields collect what was
handed to the embedding program and what was sent on for others. -/
structure FrameState (P : Primitives) where
  session : SessionState P
  links : Std.ExtTreeMap String LinkData
  reliableOut : Std.ExtTreeMap String (Outbox Value)
  reliableIn : Std.ExtTreeMap String InboundMark
  rpcPending : Std.ExtTreeMap String PendingCall
  routingSeen : List (String × UInt64)
  stableGovernanceDrifts : List (String × NetworkKind × NetworkKind)
  deliveries : List Delivery
  forwarded : List (String × RelayEnvelope)

/-- What one frame reads from outside: the environment of the session code, the wall clock, the
decoder of relay envelopes, whether diagnostics of the two low levels are recorded, which
channels have subscribers, which methods have handlers if RPC is bound at all, which data
channels are open and which frames the transport takes. -/
structure FrameEnv extends SessionEnv where
  nowMs : Int64
  decode : Value → Option RelayEnvelope
  debugOn : Bool
  traceOn : Bool
  subscribed : String → Bool
  rpcHandlers : Option (String → Bool)
  channelOpen : String → Bool
  takes : String → ChannelFrame Value → Bool

variable {P : Primitives}

/-- A diagnostic is written if the flag is set, and needs the name cut for it. -/
def note (written : Bool) (name : Option String) : Option Unit :=
  if written then name.map fun _ ↦ () else some ()

/-- Replace the session half. -/
def FrameState.withSession (s : FrameState P) (session : SessionState P) : FrameState P :=
  { s with session := session }

/-- Hand something to the embedding program. -/
def FrameState.deliver (s : FrameState P) (ds : List Delivery) : FrameState P :=
  { s with deliveries := s.deliveries ++ ds }

/-- The link data of a peer. -/
def FrameState.link (s : FrameState P) (deviceId : String) : LinkData :=
  (s.links[deviceId]?).getD .fresh

/-- Edit the link data of a peer, if it is known. -/
def FrameState.modifyLink (s : FrameState P) (deviceId : String) (f : LinkData → LinkData) :
    FrameState P :=
  if s.session.peers.contains deviceId then
    { s with links := s.links.insert deviceId (f (s.link deviceId)) }
  else s

/-- The reliable slots of a peer. -/
def FrameState.slots (s : FrameState P) (deviceId : String) : PeerSlots Value :=
  ⟨deviceId, s.reliableOut[deviceId]?, s.reliableIn[deviceId]?⟩

/-- The outcome of a call on the reliable slots of a peer; what it hands to the channel layer is
the caller's. -/
def FrameState.withSlots (s : FrameState P) (deviceId : String)
    (r : PeerSlots Value × Effects Value) : FrameState P :=
  { s with
    reliableOut := s.reliableOut.alter deviceId fun _ ↦ r.1.out
    reliableIn := s.reliableIn.alter deviceId fun _ ↦ r.1.inMark
    deliveries := s.deliveries ++ r.2.replies.map fun e ↦ .reply deviceId e.1 e.2 }

/-- What the reliable queue reads about the link to a peer; `reliable.rs:145–158`. -/
def FrameEnv.link (env : FrameEnv) (s : FrameState P) (deviceId : String) : LinkEnv Value where
  now := 0
  up := (s.session.peers[deviceId]?).any PeerState.established && env.channelOpen deviceId
  sends := env.takes deviceId

/-! ### Topology, drops and approvals -/

/-- The peers whose link is live. -/
def SessionState.activePeers (s : SessionState P) : List String :=
  (s.peers.toList.filter fun e ↦ e.2.established).map Prod.fst

/-- Re-run the topology selector; `ladder.rs:75–131`. -/
def FrameState.reevaluateTopology (env : FrameEnv) (s : FrameState P) : Option (FrameState P) :=
  if s.session.engine.selfEvicted then some s
  else do
    let _ ← selectPreferred P s.session.engine.topology s.session.engine.selfId
      s.session.activePeers
    return s.withSession (MyOwnMesh.reevaluateTopology env.toSessionEnv s.session)

/-- Tear a peer down for good; `mod.rs:3432–3575` with a reason that is not retried. -/
def FrameState.dropPeer (env : FrameEnv) (s : FrameState P) (deviceId reason : String) :
    Option (FrameState P) :=
  if deviceId ∈ s.session.closing then some s
  else
    match s.session.peers[deviceId]? with
    | none => some s
    | some p => do
      note true (shortPeer deviceId)
      let removed : SessionState P :=
        { s.session with
          peers := s.session.peers.erase deviceId
          closing :=
            if p.session.isSome && env.closeTimesOut deviceId then s.session.closing ++ [deviceId]
            else s.session.closing }
      let failed := FrameState.withSlots
        { s with session := removed, links := s.links.erase deviceId } deviceId
        (failPeer (s.slots deviceId) reason)
      failed.reevaluateTopology env

/-- Deny an evicted device; `governance.rs:976–1021`. -/
def FrameState.denyIfEvicted (s : FrameState P) (deviceId : String) : Option (FrameState P) := do
  note (logEvicted s.session.engine deviceId) (clip deviceId)
  return s.withSession (MyOwnMesh.denyIfEvicted s.session deviceId)

/-- Both approvals of an authenticated peer make it active and flush what is queued for it;
`handshake.rs:438–520`. -/
def FrameState.settleActivation (env : FrameEnv) (s : FrameState P) (deviceId : String) :
    Option (FrameState P) :=
  match s.session.peers[deviceId]? with
  | none => some s
  | some p =>
    if (p.authenticated && p.localApproveSent && p.remoteApproveSeen) && p.status != .active then do
      let promoted := s.session.modifyPeer deviceId fun q ↦ { q with status := .active }
      let rostered := s.withSession
        (approveRoster env.toSessionEnv promoted deviceId p.label).1
      note true (shortPeer deviceId)
      let shaped ← rostered.reevaluateTopology env
      return shaped.withSlots deviceId
        (flushPeer (env.link shaped deviceId) (shaped.link deviceId).features
          (shaped.slots deviceId))
    else some s

/-- Send the local approve frame; `handshake.rs:545–583`. -/
def FrameState.sendLocalApprove (env : FrameEnv) (s : FrameState P) (deviceId : String) :
    Option (FrameState P) :=
  match s.session.peers[deviceId]? with
  | none => some s
  | some p =>
    if p.localApproveSent then some s
    else
      let latched := s.session.modifyPeer deviceId fun q ↦ { q with localApproveSent := true }
      if env.sends deviceId then (s.withSession latched).settleActivation env deviceId
      else some (s.withSession
        (latched.modifyPeer deviceId fun q ↦ { q with localApproveSent := false }))

/-! ### Logs -/

variable (P) in
/-- A longer governance log that is refused, because it forks from ours or does not verify;
`governance.rs:1160–1196`. -/
def logRefused (networkId : String) (gov : NetworkState) (incoming : List Transition) : Bool :=
  decide (gov.transitions.length < incoming.length) &&
    (!extendsLog gov.transitions incoming ||
      match verifyLog P networkId incoming with
      | .ok _ => false
      | .error _ => true)

/-- Follow an adopted topology; `governance.rs:1262–1275`. -/
def FrameState.reshape (env : FrameEnv) (s : FrameState P) (moved : Bool) :
    Option (FrameState P) :=
  if moved then s.reevaluateTopology env else some s

/-- Deny the sessions of tombstoned devices; `governance.rs:1316–1332`. -/
def FrameState.denyTombstoned (s : FrameState P) (learned : Bool) (removed : List String) :
    Option (FrameState P) :=
  if learned then
    (s.session.peers.keys.filter fun k ↦ removed.contains (pubkeyPart k)).foldlM
      FrameState.denyIfEvicted s
  else some s

/-- Adopt a peer's logs; `governance.rs:1151–1353`. -/
def FrameState.adoptLogs (env : FrameEnv) (s : FrameState P) (peerId : String)
    (incomingGov incomingMembers : List Transition) : Option (FrameState P) := do
  let before := s.session.engine
  note (logRefused P before.networkId before.governance incomingGov) (clip peerId)
  let adopted := adoptGovernanceLog P before.networkId before.governance incomingGov
  let engine := adoptTransitionLog env.toEnv before incomingGov incomingMembers
  match verifiedProjection P before.networkId (adoptMemberLog adopted incomingMembers) with
  | .error _ => return s.withSession { s.session with engine := engine }
  | .ok (projected, removed) =>
    let repair :=
      (mirrorRolesToRoster env.rosterNow projected before.roster removed before.selfId).2
    let changed := adoptionChanged P before.networkId before.governance incomingGov incomingMembers
    let merged := s.withSession
      { s.session with engine := { engine with selfEvicted := before.selfEvicted } }
    let shaped ← merged.reshape env
      (decide (adopted.topology ≠ before.governance.topology ∧ adopted.topology.isSome))
    let approved ← projected.keys.foldlM (FrameState.sendLocalApprove env) shaped
    let denied ← approved.denyTombstoned (changed || repair.rosterChanged) removed
    note changed (clip peerId)
    return denied.withSession
      { denied.session with engine := refreshSelfEvicted denied.session.engine }

/-! ### Handshake frames -/

/-- A hello arrives; `handshake.rs:169–279`. -/
def FrameState.onHello (env : FrameEnv) (s : FrameState P) (deviceId : String)
    (hello : HelloFrame) : Option (FrameState P) :=
  if pubkeyPart hello.deviceId ≠ pubkeyPart deviceId then do
    note true (shortPeer deviceId)
    note true (shortPeer hello.deviceId)
    s.dropPeer env deviceId "AuthFailed"
  else do
    let noted := (s.modifyLink deviceId fun d ↦
      { d with
        verificationCodeReceived := some hello.verificationCode
        features := hello.features
        capabilities := hello.capabilities.orElse fun _ ↦ d.capabilities }).withSession
      (s.session.modifyPeer deviceId fun p ↦
        { p with nonceReceived := some hello.nonce, label := hello.label })
    note true (shortPeer deviceId)
    match (noted.session.peers[deviceId]?).bind PeerState.session with
    | none => noted.dropPeer env deviceId "AuthFailed"
    | some session =>
      match session.localFingerprint with
      | none => noted.dropPeer env deviceId "AuthFailed"
      | some _ => return noted

/-- An auth response arrives; `handshake.rs:281–408`. -/
def FrameState.onAuthResponse (env : FrameEnv) (s : FrameState P) (deviceId signature : String) :
    Option (FrameState P) :=
  match s.session.peers[deviceId]? with
  | none => some s
  | some p =>
    match p.nonceSent with
    | none => some s
    | some nonce =>
      match p.session.bind TransportSession.remoteFingerprint with
      | none => s.dropPeer env deviceId "AuthFailed"
      | some channelBinding =>
        match verify P deviceId
          (handshakePayload nonce (pubkeyPart deviceId) s.session.engine.selfId channelBinding)
          signature with
        | .ok true =>
          if logEvicted s.session.engine deviceId then s.denyIfEvicted deviceId
          else do
            let authenticated := s.withSession (s.session.modifyPeer deviceId fun q ↦
              { q with authenticated := true, status := .pendingApproval })
            note true (shortPeer deviceId)
            if s.session.autoApprove || isAuthorized s.session.engine.roster deviceId then
              authenticated.sendLocalApprove env deviceId
            else return authenticated
        | _ => s.dropPeer env deviceId "AuthFailed"

/-- An approve arrives; `handshake.rs:428–433`. -/
def FrameState.onApprove (env : FrameEnv) (s : FrameState P) (deviceId : String) :
    Option (FrameState P) :=
  (s.withSession (s.session.modifyPeer deviceId fun p ↦
    { p with remoteApproveSeen := true })).settleActivation env deviceId

/-- Adopt the proof of a deny; `governance.rs:1024–1035`. -/
def FrameState.adoptDenyProof (env : FrameEnv) (s : FrameState P) (peerId : String)
    (transitions memberLog : List Transition) : Option (FrameState P) := do
  let merged ← s.adoptLogs env peerId transitions memberLog
  return merged.withSession
    { merged.session with engine := refreshSelfEvicted merged.session.engine }

/-- A deny arrives; `handshake.rs:521–541`. -/
def FrameState.onDeny (env : FrameEnv) (s : FrameState P) (deviceId : String)
    (transitions memberLog : List Transition) : Option (FrameState P) :=
  if transitions = [] ∧ memberLog = [] then s.dropPeer env deviceId "Denied"
  else do
    let adopted ← s.adoptDenyProof env deviceId transitions memberLog
    adopted.dropPeer env deviceId "Denied"

/-! ### Heartbeats -/

/-- Per-peer sample window; `heartbeat.rs:181`. -/
def skewWindow : Nat := 5

/-- The median, of two middles the smaller; `heartbeat.rs:198–209`. The outer `none` is an
index past the end. -/
def median (samples : List Int64) : Option (Option Int64) :=
  if samples = [] then some none
  else
    let sorted := samples.mergeSort fun a b ↦ decide (a ≤ b)
    let n := sorted.length
    if n % 2 = 1 then do
      let middle ← sorted[n / 2]?
      return some middle
    else do
      let a ← sorted[n / 2 - 1]?
      let b ← sorted[n / 2]?
      return some (if a.abs ≤ b.abs then a else b)

/-- Add a sample, removing the oldest once the window is full; `heartbeat.rs:128–131`. -/
def pushSample (samples : List Int64) (sample : Int64) : Option (List Int64) :=
  let pushed := samples ++ [sample]
  if skewWindow < pushed.length then pushed.tail? else some pushed

/-- A ping arrives: a sample of the peer's clock; `heartbeat.rs:111–149`. -/
def FrameState.onPing (env : FrameEnv) (s : FrameState P) (deviceId : String) (t : Int64) :
    Option (FrameState P) :=
  if 0 < t ∧ s.session.peers.contains deviceId = true then do
    let data := s.link deviceId
    let halfRtt : Int64 := (data.rttMs.getD 0).toUInt64.toInt64 / 2
    let samples ← pushSample data.clockSkewSamples (t + halfRtt - env.nowMs)
    let skew ← median samples
    return s.modifyLink deviceId fun d ↦
      { d with clockSkewSamples := samples, clockSkewMs := skew }
  else some s

/-- A pong arrives: the round-trip time; `heartbeat.rs:151–161`. -/
def FrameState.onPong (env : FrameEnv) (s : FrameState P) (deviceId : String) (t : Int64) :
    FrameState P :=
  s.modifyLink deviceId fun d ↦
    if d.lastPingT = some t then
      { d with rttMs := some (max (env.nowMs - t) 0).toUInt64.toUInt32 }
    else d

/-! ### Application frames -/

/-- A frame for the subscribers of a channel; `state.rs:1172–1182`. -/
def FrameState.dispatchChannelFrame (env : FrameEnv) (s : FrameState P)
    (name sender : String) (payload : Value) : FrameState P :=
  if env.subscribed name then s.deliver [.channelFrame sender name payload] else s

/-- What routing knows of this engine; `routing.rs:111–122`. -/
def FrameState.router (env : FrameEnv) (s : FrameState P) : Router where
  me := s.session.engine.selfId
  mode := s.session.engine.topology
  connected := s.session.activePeers.filter env.channelOpen
  seen := s.routingSeen

/-- What routing reads from outside. -/
def FrameEnv.relay (env : FrameEnv) : RelayEnv where
  decode := env.decode
  debugOn := env.debugOn
  traceOn := env.traceOn
  accepts := env.sends

/-- A channel frame arrives; `mod.rs:3032–3048`. A wrapper never names the relay channel, so
what it carries goes straight to the subscribers. -/
def FrameState.onChannelFrame (env : FrameEnv) (s : FrameState P) (deviceId channel : String)
    (payload : Value) : Option (FrameState P) :=
  if channel = relayChannel then do
    match ← onRelayFrame P env.relay (s.router env) deviceId payload with
    | none => return s.dispatchChannelFrame env channel deviceId payload
    | some effects =>
      let routed :=
        { s with routingSeen := effects.seen, forwarded := s.forwarded ++ effects.onward }
      match effects.delivered with
      | none => return routed
      | some (origin, name, body) => return routed.dispatchChannelFrame env name origin body
  else some (s.dispatchChannelFrame env channel deviceId payload)

/-- A reliable channel frame arrives; `reliable.rs:236–278`. -/
def FrameState.onChannelSeq (env : FrameEnv) (s : FrameState P) (deviceId : String)
    (stream seq : UInt64) (channel : String) (payload : Value) : Option (FrameState P) := do
  let r := Reliable.onChannelSeq (env.link s deviceId) (s.slots deviceId) stream seq.toNat channel
    payload
  let marked := s.withSlots deviceId r
  let handed ←
    if r.2.handed.isEmpty then some marked
    else marked.onChannelFrame env deviceId channel payload
  note (r.2.sent.isEmpty && env.traceOn) (shortPeer deviceId)
  return handed

/-- A call of a peer; `mod.rs:2863–2970`. Without a handler the peer is told so. -/
def FrameState.onRpcRequest (env : FrameEnv) (s : FrameState P) (deviceId requestId method : String)
    (payload : Value) (streaming : Bool) : FrameState P :=
  match env.rpcHandlers with
  | none => s
  | some handles =>
    if handles method then s.deliver [.rpcCall deviceId requestId method payload streaming] else s

/-- The answer to a call of this device; `mod.rs:2972–2992`. -/
def FrameState.onRpcResponse (env : FrameEnv) (s : FrameState P) (requestId : String)
    (ok : Option Value) (error : Option String) : FrameState P :=
  if env.rpcHandlers.isNone then s
  else
    match s.rpcPending[requestId]? with
    | none => s
    | some entry =>
      let removed := { s with rpcPending := s.rpcPending.erase requestId }
      match entry, error with
      | .single, some e => removed.deliver [.rpcResult requestId (.error e)]
      | .single, none => removed.deliver [.rpcResult requestId (.ok (ok.getD .null))]
      | .stream, _ => removed

/-- A piece of a streamed answer; `mod.rs:2994–3017`. -/
def FrameState.onRpcStreamChunk (env : FrameEnv) (s : FrameState P) (requestId : String)
    (payload : Value) : FrameState P :=
  if env.rpcHandlers.isNone then s
  else
    match s.rpcPending[requestId]? with
    | some .stream => s.deliver [.rpcChunk requestId (.ok payload)]
    | _ => s

/-- The end of a streamed answer; `mod.rs:3019–3030`. -/
def FrameState.onRpcStreamEnd (env : FrameEnv) (s : FrameState P) (requestId : String)
    (error : Option String) : FrameState P :=
  if env.rpcHandlers.isNone then s
  else
    match s.rpcPending[requestId]?, error with
    | some .stream, some e =>
      FrameState.deliver { s with rpcPending := s.rpcPending.erase requestId }
        [.rpcChunk requestId (.error e)]
    | _, _ => { s with rpcPending := s.rpcPending.erase requestId }

/-! ### Governance frames -/

/-- A governance frame moves the signed state; a ratified topology change re-runs the selector;
`governance.rs:1666–1703`. -/
def FrameState.govern (env : FrameEnv) (s : FrameState P) (op : GovOp) :
    Option (FrameState P) := do
  let after := MyOwnMesh.govern env.toSessionEnv s.session op
  match (ratifiedCleanly s.session.engine (env.toEnv, op)).map Transition.variant with
  | some (.topologyChange _) =>
    let _ ← selectPreferred P after.engine.topology after.engine.selfId s.session.activePeers
    return s.withSession after
  | _ => return s.withSession after

/-- `verify(..).unwrap_or(false)`. -/
def passes : Except Error Bool → Bool
  | .ok b => b
  | .error _ => false

/-- A proposal arrives; `governance.rs:429–492`. -/
def FrameState.onPropose (env : FrameEnv) (s : FrameState P) (peerId : String)
    (msg : ProposeMessage) : Option (FrameState P) := do
  note (msg.proposer != pubkeyPart peerId) (clip msg.proposer)
  note (msg.proposer != pubkeyPart peerId) (clip (pubkeyPart peerId))
  -- A signed proposal that was not pending before is reported with its proposer.
  let signed := verify P msg.proposer
    (transitionPayload s.session.engine.networkId msg.variant) msg.signature
  let pending := s.session.engine.governance.pending.any (·.id == msg.proposalId)
  note (msg.proposer == pubkeyPart peerId && passes signed && !pending) (clip msg.proposer)
  s.govern env (.onPropose peerId msg)

/-- An answer to a proposal arrives; `governance.rs:497–579`. -/
def FrameState.onAck (env : FrameEnv) (s : FrameState P) (peerId : String) (msg : AckMessage) :
    Option (FrameState P) := do
  note (msg.signer != pubkeyPart peerId) (clip msg.signer)
  note (msg.signer != pubkeyPart peerId) (clip (pubkeyPart peerId))
  s.govern env (.onAck peerId msg)

/-- A split arrives; `governance.rs:584–655`. -/
def FrameState.onSplit (env : FrameEnv) (s : FrameState P) (peerId : String)
    (msg : SplitMessage) : Option (FrameState P) := do
  let signed := verify P msg.proposer
    (transitionPayload s.session.engine.networkId (.split msg.newNetworkId msg.members))
    msg.signature
  let known := s.session.engine.governance.splits.any (·.newNetworkId == msg.newNetworkId)
  note (msg.proposer == pubkeyPart peerId && passes signed && !known) (clip msg.proposer)
  s.govern env (.onSplit peerId msg)

/-- Open and silent networks without a log differ for good; `governance.rs:79–91`. -/
def stableOpenSilentDrift (localKind : NetworkKind) (localCount : UInt32)
    (remoteKind : NetworkKind) (remoteCount : UInt32) : Bool :=
  localCount == 0 && remoteCount == 0 &&
    match localKind, remoteKind with
    | .open, .silent => true
    | .silent, .open => true
    | _, _ => false

/-- A peer's summary arrives; `governance.rs:663–713`. Only the drift report is kept here, the
request it may lead to is a frame of ours. -/
def FrameState.onStateBroadcast (s : FrameState P) (peerId : String) (msg : StateBroadcast) :
    Option (FrameState P) :=
  let gov := s.session.engine.governance
  let localCount := gov.transitions.length.toUInt32
  if gov.kind ≠ msg.kind ∨ localCount ≠ msg.transitionsCount then
    let drift := (peerId, gov.kind, msg.kind)
    let stable := stableOpenSilentDrift gov.kind localCount msg.kind msg.transitionsCount
    let known := s.stableGovernanceDrifts.contains drift
    let noted :=
      if stable && !known then
        { s with stableGovernanceDrifts := s.stableGovernanceDrifts ++ [drift] }
      else s
    do
      note (!stable || !known) (clip peerId)
      return noted
  else some s

/-- A peer's roster and logs arrive; `governance.rs:803–895`. -/
def FrameState.onRosterEntries (env : FrameEnv) (s : FrameState P) (peerId : String)
    (entries : List RosterEntry) (transitions memberLog : List Transition) :
    Option (FrameState P) := do
  let merged := gossiped env.toEnv s.session.engine entries
  let added := merged.roster.authorizedDevices.length ≠
    s.session.engine.roster.authorizedDevices.length
  let ignored := !s.session.engine.governance.kind.isOpenGovernance && !entries.isEmpty
  note (decide added || ignored) (clip peerId)
  (s.withSession { s.session with engine := merged }).adoptLogs env peerId transitions memberLog

/-! ### The dispatcher -/

/-- The handler of each kind; the match of `mod.rs:2776–2816`. -/
def FrameState.handle (env : FrameEnv) (s : FrameState P) (deviceId : String) :
    MeshMessage → Option (FrameState P)
  | .hello hello => s.onHello env deviceId hello
  | .authResponse signature => s.onAuthResponse env deviceId signature
  | .approve => s.onApprove env deviceId
  | .deny _ transitions memberLog => s.onDeny env deviceId transitions memberLog
  | .ping t => s.onPing env deviceId t
  | .pong t => some (s.onPong env deviceId t)
  | .shelve _ => some (s.modifyLink deviceId fun d ↦ { d with remoteShelved := true })
  | .unshelve => some (s.modifyLink deviceId fun d ↦ { d with remoteShelved := false })
  | .capabilitiesUpdate capabilities =>
    some (s.modifyLink deviceId fun d ↦ { d with capabilities := some capabilities })
  | .rpcRequest requestId method payload streaming =>
    some (s.onRpcRequest env deviceId requestId method payload streaming)
  | .rpcResponse requestId ok error => some (s.onRpcResponse env requestId ok error)
  | .rpcStreamChunk requestId _ payload => some (s.onRpcStreamChunk env requestId payload)
  | .rpcStreamEnd requestId error => some (s.onRpcStreamEnd env requestId error)
  | .channel channel payload => s.onChannelFrame env deviceId channel payload
  | .channelSeq stream seq channel payload =>
    s.onChannelSeq env deviceId stream seq channel payload
  | .channelAck stream upTo =>
    some (s.withSlots deviceId (onChannelAck (s.slots deviceId) stream upTo.toNat))
  | .networkState msg => s.onStateBroadcast deviceId msg
  | .networkStatePropose msg => s.onPropose env deviceId msg
  | .networkStateAck msg => s.onAck env deviceId msg
  | .networkStateSplit msg => s.onSplit env deviceId msg
  | .rosterSummary _ => some s
  | .rosterRequest => some s
  | .rosterEntries entries transitions memberLog =>
    s.onRosterEntries env deviceId entries transitions memberLog
  | .unknown => some s

/-- A frame arrives from a connected device; `mod.rs:2701–2817`. -/
def handleInboundFrame (env : FrameEnv) (s : FrameState P) (deviceId : String)
    (msg : MeshMessage) : Option (FrameState P) :=
  let application := inboundAdmission msg == .application
  match s.session.peers[deviceId]? with
  | some p =>
    if application && !p.admitted then
      some (s.modifyLink deviceId fun d ↦
        { d with admissionRejected := saturatingSucc d.admissionRejected })
    else s.handle env deviceId msg
  | none => if application then some s else s.handle env deviceId msg

/-! ### The sessions behind the frames

Where a handler finishes, its session half is the step of the session model. -/

theorem of_note {written : Bool} {name : Option String} {α : Type} {x : Option α} {t : α}
    (h : ((note written name).bind fun _ ↦ x) = some t) : x = some t := by
  cases hn : note written name with
  | none => simp [hn] at h
  | some u => simpa [hn] using h

/-- The selector. -/
theorem FrameState.session_reevaluateTopology {env : FrameEnv} {s t : FrameState P}
    (h : s.reevaluateTopology env = some t) :
    t.session = MyOwnMesh.reevaluateTopology env.toSessionEnv s.session := by
  unfold FrameState.reevaluateTopology at h
  split at h
  · next hev =>
    cases h
    simp [MyOwnMesh.reevaluateTopology, hev]
  · simp only [Option.bind_eq_bind, Option.bind_eq_some_iff, Option.pure_def,
      Option.some.injEq] at h
    obtain ⟨_, _, rfl⟩ := h
    rfl

/-- A drop. -/
theorem FrameState.session_dropPeer {env : FrameEnv} {s t : FrameState P} {k reason : String}
    (h : s.dropPeer env k reason = some t) :
    t.session = MyOwnMesh.dropPeer env.toSessionEnv s.session k := by
  unfold FrameState.dropPeer at h
  unfold MyOwnMesh.dropPeer
  split at h
  · next hclosing =>
    cases h
    rw [if_pos hclosing]
  · next hclosing =>
    rw [if_neg hclosing]
    cases hp : s.session.peers[k]? with
    | none =>
      simp only [hp] at h
      cases h
      rfl
    | some p =>
      simp only [hp] at h
      exact session_reevaluateTopology (of_note h)

/-- A denial. -/
theorem FrameState.session_denyIfEvicted {s t : FrameState P} {k : String}
    (h : s.denyIfEvicted k = some t) : t.session = MyOwnMesh.denyIfEvicted s.session k := by
  have hdone := of_note h
  cases hdone
  rfl

/-- An activation. -/
theorem FrameState.session_settleActivation {env : FrameEnv} {s t : FrameState P} {k : String}
    (h : s.settleActivation env k = some t) :
    t.session = MyOwnMesh.settleActivation env.toSessionEnv s.session k := by
  unfold FrameState.settleActivation at h
  unfold MyOwnMesh.settleActivation
  cases hp : s.session.peers[k]? with
  | none =>
    simp only [hp] at h
    cases h
    rfl
  | some p =>
    simp only [hp] at h ⊢
    split at h
    · next hready =>
      rw [if_pos hready]
      have hshape := of_note h
      simp only [Option.bind_eq_bind, Option.bind_eq_some_iff, Option.pure_def,
        Option.some.injEq] at hshape
      obtain ⟨shaped, hshaped, rfl⟩ := hshape
      exact session_reevaluateTopology hshaped
    · next hready =>
      cases h
      rw [if_neg hready]

/-- An approval. -/
theorem FrameState.session_sendLocalApprove {env : FrameEnv} {s t : FrameState P} {k : String}
    (h : s.sendLocalApprove env k = some t) :
    t.session = MyOwnMesh.sendLocalApprove env.toSessionEnv s.session k := by
  unfold FrameState.sendLocalApprove at h
  unfold MyOwnMesh.sendLocalApprove
  cases hp : s.session.peers[k]? with
  | none =>
    simp only [hp] at h
    cases h
    rfl
  | some p =>
    simp only [hp] at h ⊢
    split at h
    · next hsent =>
      cases h
      rw [if_pos hsent]
    · next hsent =>
      rw [if_neg hsent]
      split at h
      · next hsends =>
        rw [if_pos hsends]
        exact session_settleActivation h
      · next hsends =>
        rw [if_neg hsends]
        cases h
        rfl

/-- A loop over peers. -/
theorem FrameState.session_foldlM {f : FrameState P → String → Option (FrameState P)}
    {g : SessionState P → String → SessionState P}
    (hf : ∀ s t k, f s k = some t → t.session = g s.session k) (keys : List String)
    {s t : FrameState P} (h : keys.foldlM f s = some t) :
    t.session = keys.foldl g s.session := by
  induction keys generalizing s with
  | nil =>
    cases h
    rfl
  | cons k rest ih =>
    simp only [List.foldlM_cons, Option.bind_eq_bind, Option.bind_eq_some_iff] at h
    obtain ⟨u, hu, hrest⟩ := h
    rw [List.foldl_cons, ← hf s u k hu]
    exact ih hrest

/-- The selector after an adoption. -/
theorem FrameState.session_reshape {env : FrameEnv} {s t : FrameState P} {moved : Bool}
    (h : s.reshape env moved = some t) :
    t.session = if moved then MyOwnMesh.reevaluateTopology env.toSessionEnv s.session
      else s.session := by
  unfold FrameState.reshape at h
  cases moved with
  | true => exact session_reevaluateTopology h
  | false =>
    cases h
    rfl

/-- The denials after an adoption. -/
theorem FrameState.session_denyTombstoned {s t : FrameState P} {learned : Bool}
    {removed : List String} (h : s.denyTombstoned learned removed = some t) :
    t.session = if learned then
      (s.session.peers.keys.filter fun k ↦ removed.contains (pubkeyPart k)).foldl
        MyOwnMesh.denyIfEvicted s.session
      else s.session := by
  unfold FrameState.denyTombstoned at h
  cases learned with
  | true => exact session_foldlM (fun _ _ _ hk ↦ session_denyIfEvicted hk) _ h
  | false =>
    cases h
    rfl

/-- An adoption. -/
theorem FrameState.session_adoptLogs {env : FrameEnv} {s t : FrameState P} {peerId : String}
    {incomingGov incomingMembers : List Transition}
    (h : s.adoptLogs env peerId incomingGov incomingMembers = some t) :
    t.session = MyOwnMesh.adoptLogs env.toSessionEnv s.session incomingGov incomingMembers := by
  have hadopt := of_note h
  unfold MyOwnMesh.adoptLogs
  simp only at hadopt ⊢
  generalize verifiedProjection P s.session.engine.networkId _ = projection at hadopt ⊢
  cases projection with
  | error e =>
    cases hadopt
    rfl
  | ok projection =>
    obtain ⟨projected, removed⟩ := projection
    simp only [Option.bind_eq_bind, Option.bind_eq_some_iff] at hadopt
    obtain ⟨shaped, hshaped, approved, happroved, denied, hdenied, u, -, hlast⟩ := hadopt
    cases hlast
    have hshape := session_reshape hshaped
    have happrove := session_foldlM (fun _ _ _ hk ↦ session_sendLocalApprove hk) _ happroved
    have hdeny := session_denyTombstoned hdenied
    simp only [withSession, decide_eq_true_eq] at hshape hdeny happrove ⊢
    rw [hdeny, happrove, hshape]

/-- A hello. -/
theorem FrameState.session_onHello {env : FrameEnv} {s t : FrameState P} {k : String}
    {hello : HelloFrame} (h : s.onHello env k hello = some t) :
    t.session = MyOwnMesh.onHello env.toSessionEnv s.session k hello.toHelloMessage := by
  unfold FrameState.onHello at h
  unfold MyOwnMesh.onHello
  split at h
  · next hid =>
    rw [if_pos hid]
    exact session_dropPeer (of_note (of_note h))
  · next hid =>
    rw [if_neg hid]
    have hrest := of_note h
    simp only [withSession] at hrest ⊢
    generalize hnoted : s.session.modifyPeer k _ = noted at hrest ⊢
    cases hs : noted.peers[k]?.bind (·.session) with
    | none =>
      simp only [hs] at hrest
      exact session_dropPeer hrest
    | some session =>
      simp only [hs] at hrest ⊢
      cases hf : session.localFingerprint with
      | none =>
        simp only [hf] at hrest
        exact session_dropPeer hrest
      | some fingerprint =>
        simp only [hf] at hrest
        cases hrest
        rfl

/-- An auth response. -/
theorem FrameState.session_onAuthResponse {env : FrameEnv} {s t : FrameState P}
    {k signature : String} (h : s.onAuthResponse env k signature = some t) :
    t.session = MyOwnMesh.onAuthResponse env.toSessionEnv s.session k signature := by
  unfold FrameState.onAuthResponse at h
  unfold MyOwnMesh.onAuthResponse
  cases hp : s.session.peers[k]? with
  | none =>
    simp only [hp] at h
    cases h
    rfl
  | some p =>
    simp only [hp] at h ⊢
    cases hn : p.nonceSent with
    | none =>
      simp only [hn] at h
      cases h
      rfl
    | some nonce =>
      simp only [hn] at h ⊢
      cases hb : p.session.bind (·.remoteFingerprint) with
      | none =>
        simp only [hb] at h
        exact session_dropPeer h
      | some binding =>
        simp only [hb] at h ⊢
        generalize verify P k _ signature = verdict at h ⊢
        cases verdict with
        | error e => exact session_dropPeer h
        | ok valid =>
          cases valid with
          | false => exact session_dropPeer h
          | true =>
            simp only at h ⊢
            split at h
            · next hev =>
              rw [if_pos hev]
              exact session_denyIfEvicted h
            · next hev =>
              rw [if_neg hev]
              have hrest := of_note h
              split at hrest
              · next hauto =>
                rw [if_pos hauto]
                exact session_sendLocalApprove hrest
              · next hauto =>
                rw [if_neg hauto]
                cases hrest
                rfl

/-- An approve. -/
theorem FrameState.session_onApprove {env : FrameEnv} {s t : FrameState P} {k : String}
    (h : s.onApprove env k = some t) :
    t.session = MyOwnMesh.onApprove env.toSessionEnv s.session k := session_settleActivation h

/-- The proof of a deny. -/
theorem FrameState.session_adoptDenyProof {env : FrameEnv} {s t : FrameState P} {peerId : String}
    {transitions memberLog : List Transition}
    (h : s.adoptDenyProof env peerId transitions memberLog = some t) :
    t.session =
      { MyOwnMesh.adoptLogs env.toSessionEnv s.session transitions memberLog with
        engine := refreshSelfEvicted
          (MyOwnMesh.adoptLogs env.toSessionEnv s.session transitions memberLog).engine } := by
  simp only [FrameState.adoptDenyProof, Option.bind_eq_bind, Option.bind_eq_some_iff,
    Option.pure_def, Option.some.injEq] at h
  obtain ⟨merged, hmerged, rfl⟩ := h
  rw [← session_adoptLogs hmerged]
  rfl

/-- A deny. -/
theorem FrameState.session_onDeny {env : FrameEnv} {s t : FrameState P} {k : String}
    {transitions memberLog : List Transition}
    (h : s.onDeny env k transitions memberLog = some t) :
    t.session = s.session.onDeny env.toSessionEnv k transitions memberLog := by
  unfold FrameState.onDeny at h
  unfold SessionState.onDeny
  split at h
  · next hnone =>
    simp only [if_pos hnone]
    exact session_dropPeer h
  · next hnone =>
    simp only [if_neg hnone]
    simp only [Option.bind_eq_bind, Option.bind_eq_some_iff] at h
    obtain ⟨adopted, hadopted, hdrop⟩ := h
    rw [session_dropPeer hdrop, session_adoptDenyProof hadopted]

end MyOwnMesh
