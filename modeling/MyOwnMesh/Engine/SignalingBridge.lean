import MyOwnMesh.Lib.SeenRing
import MyOwnMesh.Mdns.Exchange
import MyOwnMesh.Transport

/-!
# Between the engine and its signaling drivers

`crates/myownmesh-core/src/engine/signaling_bridge.rs` with both drivers attached. Each driver has
a pump of its own that takes what the driver tells, in order, translates it and asks the shared
gate. The gate decides under its lock and the pump sends afterwards, so that the other pump may
run in between. The engine's end of the channel is open. The content hash is a parameter.
-/

namespace MyOwnMesh

open Lib

/-- What signaling tells the engine; `state.rs:331–356`. -/
inductive SignalingInbound where
  | discoveryLost (deviceId : String)
  | peerAnnounced (deviceId : String)
  | offer (deviceId offerId sdp : String)
  | answer (deviceId offerId sdp : String)
  | candidate (deviceId : String) (candidate : LocalIceCandidate)
  | peerLeft (deviceId : String)
deriving DecidableEq

/-- What the engine asks signaling to send; `state.rs:376–404`. -/
inductive SignalingOutbound where
  | announce
  | leave
  | offer (deviceId offerId sdp : String)
  | answer (deviceId offerId sdp : String)
  | candidate (deviceId : String) (candidate : LocalIceCandidate)
deriving DecidableEq

/-! ### Translating -/

section Translate

variable (P : Primitives)

/-- A device id in the one spelling that the wire knows; `signaling_bridge.rs:300–316`. -/
def canonicalWireDeviceId (deviceId : String) : Option String :=
  match normalizeDeviceId P deviceId with
  | .ok canonical => if canonical = deviceId then some canonical else none
  | .error _ => none

/-- A message of a driver as the engine takes it; `signaling_bridge.rs:253–294`. -/
def translateMessage (sender : String) (msg : Nostr.SignalingMessage) :
    Option SignalingInbound :=
  if msg.peerId ≠ sender then none
  else
    match canonicalWireDeviceId P sender with
    | none => none
    | some deviceId =>
      match msg with
      | .announce _ _ => some (.peerAnnounced deviceId)
      | .leave _ => some (.peerLeft deviceId)
      | .offer _ offerId sdp => some (.offer deviceId offerId sdp)
      | .answer _ offerId sdp => some (.answer deviceId offerId sdp)
      | .candidate _ candidate sdpMid sdpMlineIndex usernameFragment =>
        some (.candidate deviceId ⟨candidate, sdpMid, sdpMlineIndex, usernameFragment⟩)

/-- What a pump takes from its driver. -/
inductive DriverInbound where
  | nostr (i : Nostr.NostrInbound)
  | browse (i : Mdns.MdnsInbound)
  | exchange (i : Mdns.ExchangeInbound)

/-- The translation of both inbound pumps; `signaling_bridge.rs:451–460,591–599`. -/
def DriverInbound.translate : DriverInbound → Option SignalingInbound
  | .nostr (.peerAnnounced deviceId) => (canonicalWireDeviceId P deviceId).map .peerAnnounced
  | .nostr (.peerLeft deviceId) => (canonicalWireDeviceId P deviceId).map .peerLeft
  | .nostr (.message sender msg) => translateMessage P sender msg
  | .browse (.peerAnnounced deviceId) => (canonicalWireDeviceId P deviceId).map .peerAnnounced
  | .browse (.discoveryLost deviceId) => (canonicalWireDeviceId P deviceId).map .discoveryLost
  | .exchange (.peerAnnounced deviceId) => (canonicalWireDeviceId P deviceId).map .peerAnnounced
  | .exchange (.peerLeft deviceId) => (canonicalWireDeviceId P deviceId).map .peerLeft
  | .exchange (.message sender msg) => translateMessage P sender msg

end Translate

/-- The message of a directed emission, in the name of this device;
`signaling_bridge.rs:402–438`. -/
def SignalingOutbound.directed (deviceId : String) :
    SignalingOutbound → Option (String × Nostr.SignalingMessage)
  | .announce => none
  | .leave => none
  | .offer recipient offerId sdp => some (recipient, .offer deviceId offerId sdp)
  | .answer recipient offerId sdp => some (recipient, .answer deviceId offerId sdp)
  | .candidate recipient c =>
    some (recipient,
      .candidate deviceId c.candidate c.sdpMid c.sdpMlineIndex c.usernameFragment)

/-! ### The gate -/

/-- What the gate hashes of a message. -/
inductive GateContent where
  | description (tag : UInt8) (deviceId offerId sdp : String)
  | candidate (tag : UInt8) (deviceId candidate : String) (sdpMid : Option String)
      (sdpMlineIndex : Option UInt16) (usernameFragment : Option String)
deriving DecidableEq

/-- Announces and departures are not deduplicated; `signaling_bridge.rs:214–245`. -/
def SignalingInbound.content : SignalingInbound → Option GateContent
  | .offer deviceId offerId sdp => some (.description 1 deviceId offerId sdp)
  | .answer deviceId offerId sdp => some (.description 2 deviceId offerId sdp)
  | .candidate deviceId c =>
    some (.candidate 3 deviceId c.candidate c.sdpMid c.sdpMlineIndex c.usernameFragment)
  | .peerAnnounced _ | .discoveryLost _ | .peerLeft _ => none

/-- `signaling_bridge.rs:168`. -/
def gateSeenCapacity : ℕ := 2048

/-- The key under which the gate remembers a message; `signaling_bridge.rs:212–248`. -/
def dedupKey (hash : GateContent → UInt64) (m : SignalingInbound) : Option UInt64 :=
  m.content.map hash

/-- What `deliver` decides under its lock; `signaling_bridge.rs:195–206`. -/
def gateDecide (hash : GateContent → UInt64) (seen : List UInt64) (m : SignalingInbound) :
    List UInt64 × Bool :=
  match dedupKey hash m with
  | none => (seen, true)
  | some key =>
    if key ∈ seen then (seen, false)
    else (SeenRing.remember gateSeenCapacity seen key, true)

/-! ### Two drivers and one engine -/

/-- The two inbound pumps. -/
inductive Pump where
  | nostr
  | mdns
deriving DecidableEq

/-- What a network's signaling rests on. The Nostr and the mDNS driver share the room and the
device. -/
structure BridgeContext where
  primitives : Primitives
  externals : SignalingServer.Externals
  envelopes : Nostr.Serde
  frames : Mdns.FrameSerde
  hash : GateContent → UInt64
  shared : Nostr.Shared

/-- The room and the device as the mDNS driver holds them. -/
def BridgeContext.mdnsShared (c : BridgeContext) : Mdns.Shared :=
  ⟨c.shared.roomHandle, c.shared.deviceId⟩

/-- The receiving side of a network's signaling. `told` and `taken` count what each driver has
told and how much of it its pump took; `decided` and `passed` are what was asked of the gate and
what it let pass, in the order in which the lock was held; `engine` is what the engine receives. -/
structure Inlets where
  driver : Nostr.Driver
  tables : Mdns.Tables
  told : Pump → List DriverInbound
  taken : Pump → ℕ
  seen : List UInt64
  held : Pump → Option SignalingInbound
  decided : List (Pump × SignalingInbound)
  passed : List (Pump × SignalingInbound)
  engine : List (Pump × SignalingInbound)

/-- Both drivers have just been attached. -/
def Inlets.new : Inlets where
  driver := Nostr.Driver.new
  tables := {}
  told := fun _ ↦ []
  taken := fun _ ↦ 0
  seen := []
  held := fun _ ↦ none
  decided := []
  passed := []
  engine := []

/-- One event of the outside, or one step of a pump. -/
inductive BridgeEvent where
  | relayFrame (frame : String)
  | browse (e : Mdns.DiscoveryEvent)
  | reannounce
  | line (line : String)
  | take (p : Pump)
  | send (p : Pump)

namespace Inlets

/-- A driver tells its pump something. -/
def tell (s : Inlets) (p : Pump) (is : List DriverInbound) : Inlets :=
  { s with told := Function.update s.told p (s.told p ++ is) }

/-- The gate decides on a message of a pump. -/
def decide (hash : GateContent → UInt64) (s : Inlets) (p : Pump) (m : SignalingInbound) :
    Inlets :=
  let (seen, pass) := gateDecide hash s.seen m
  let s := { s with seen := seen, decided := s.decided ++ [(p, m)] }
  if pass then
    { s with held := Function.update s.held p (some m), passed := s.passed ++ [(p, m)] }
  else s

/-- A pump that holds nothing takes what its driver told next;
`signaling_bridge.rs:450–467,590–606`. -/
def take (c : BridgeContext) (s : Inlets) (p : Pump) : Inlets :=
  match s.held p with
  | some _ => s
  | none =>
    match (s.told p)[s.taken p]? with
    | none => s
    | some i =>
      let s := { s with taken := Function.update s.taken p (s.taken p + 1) }
      match i.translate c.primitives with
      | none => s
      | some m => s.decide c.hash p m

/-- A pump sends what the gate let pass; `signaling_bridge.rs:207`. -/
def send (s : Inlets) (p : Pump) : Inlets :=
  match s.held p with
  | none => s
  | some m =>
    { s with held := Function.update s.held p none, engine := s.engine ++ [(p, m)] }

/-- One event. -/
def step (c : BridgeContext) (s : Inlets) : BridgeEvent → Inlets
  | .relayFrame frame =>
    match s.driver.handleInboundFrame c.envelopes c.externals c.shared frame with
    | (driver, .ok (some i)) => { s with driver := driver }.tell .nostr [.nostr i]
    | (driver, _) => { s with driver := driver }
  | .browse e =>
    { s with tables := Mdns.browsed c.mdnsShared s.tables e }.tell .mdns
      ((Mdns.told c.mdnsShared s.tables e).map .browse)
  | .reannounce => s.tell .mdns ((Mdns.runReannounce s.tables).map .browse)
  | .line line =>
    match Mdns.readLine c.frames c.mdnsShared line with
    | .tell i => s.tell .mdns [.exchange i]
    | .close | .skip => s
  | .take p => s.take c p
  | .send p => s.send p

end Inlets

end MyOwnMesh
