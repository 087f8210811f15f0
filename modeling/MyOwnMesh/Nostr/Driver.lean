import MyOwnMesh.Identity.DeviceId
import MyOwnMesh.Lib.SeenRing
import MyOwnMesh.SignalingServer.Hub

/-!
# The Nostr signaling driver

`crates/myownmesh-signaling/src/nostr/driver.rs`, the side of a device: the events it publishes,
the filters it subscribes with and what it does with a frame from a relay. Sessions with several
relays feed one handler; frames are taken in the order in which they are handled. The driver's
identity is that of the `Externals`; `serde` is a parameter.
-/

namespace MyOwnMesh.Nostr

open Lib SignalingServer

/-- What a signaling event carries; `lib.rs:47–90`. -/
inductive SignalingMessage where
  | announce (peerId : String) (caps : List String)
  | offer (peerId offerId sdp : String)
  | answer (peerId offerId sdp : String)
  | candidate (peerId candidate : String) (sdpMid : Option String)
      (sdpMlineIndex : Option UInt16) (usernameFragment : Option String)
  | leave (peerId : String)
deriving DecidableEq

/-- The device that a message claims to be of; `lib.rs:96–105`. -/
def SignalingMessage.peerId : SignalingMessage → String
  | .announce peerId _ | .offer peerId _ _ | .answer peerId _ _ | .candidate peerId _ _ _ _
  | .leave peerId => peerId

/-- `driver.rs:1250–1258`. -/
structure SignalingEnvelope where
  sender : String
  recipient : Option String
  msg : SignalingMessage
deriving DecidableEq

/-- `serde_json` on envelopes. -/
structure Serde where
  toString : SignalingEnvelope → String
  fromStr : String → Option SignalingEnvelope

/-- What a driver is started with, of `DriverShared`. -/
structure Shared where
  deviceId : String
  roomHandle : String

/-- `data_encoding::HEXLOWER`. -/
def hexLower (bytes : List UInt8) : String :=
  String.ofList (bytes.flatMap fun b ↦ [(b.toNat / 16).digitChar, (b.toNat % 16).digitChar])

/-- The wire name of a room; `handle.rs:18–24`. -/
def deriveRoomHandle (P : Primitives) (appId networkId : String) : String :=
  hexLower (P.sha256 (Text.utf8 appId ++ Text.utf8 ":" ++ Text.utf8 networkId))

/-- The capability of tagging directed events with their recipient. -/
def sigCapPtag : String := "ptag"

/-! ### Publishing -/

/-- What the engine asks to publish. -/
inductive NostrOutbound where
  | announce
  | leave
  | directedToPeer (recipient : String) (msg : SignalingMessage)

/-- The one announce builder; `driver.rs:1264–1280`. -/
def buildAnnounceEvent (S : Serde) (X : Externals) (shared : Shared) (now : UInt64) :
    NostrEvent :=
  makeEvent X signalingEventKind [["r", shared.roomHandle]]
    (S.toString ⟨shared.deviceId, none, .announce shared.deviceId [sigCapPtag]⟩) now

/-- The event of an outbound message; `driver.rs:1336–1394`. -/
def outboundEvent (S : Serde) (X : Externals) (shared : Shared) (now : UInt64) :
    NostrOutbound → NostrEvent
  | .announce => buildAnnounceEvent S X shared now
  | .leave =>
    makeEvent X signalingEphemeralKind [["r", shared.roomHandle], ["p", shared.roomHandle]]
      (S.toString ⟨shared.deviceId, none, .leave shared.deviceId⟩) now
  | .directedToPeer recipient msg =>
    makeEvent X signalingEphemeralKind [["r", shared.roomHandle], ["p", recipient]]
      (S.toString ⟨shared.deviceId, some recipient, msg⟩) now

/-! ### Subscribing -/

/-- How far back presence is replayed, in seconds. -/
def presenceReplayWindowSecs : Nat := 120

/-- The filters of the room subscription; `driver.rs:405–431`. -/
def desiredFilters (shared : Shared) (now : UInt64) (compat : Bool) : List Value :=
  let since := UInt64.ofNat (now.toNat - presenceReplayWindowSecs)
  [.object [("kinds", .array [.posInt signalingEventKind.toUInt64]),
      ("#r", .array [.string shared.roomHandle]), ("since", .posInt since)],
    .object [("kinds", .array [.posInt signalingEphemeralKind.toUInt64]),
      ("#r", .array [.string shared.roomHandle]),
      ("#p", .array [.string shared.deviceId, .string shared.roomHandle])]] ++
    if compat then
      [.object [("kinds", .array [.posInt signalingEphemeralKind.toUInt64]),
        ("#r", .array [.string shared.roomHandle])]]
    else []

/-! ### Receiving -/

/-- What the handler of inbound frames changes, of `DriverShared`. -/
structure Driver where
  seenEventIds : List String
  roomCaps : AList (fun _ : String ↦ Bool)
  compatDirected : Bool

/-- A fresh driver; `driver.rs:170–187`. -/
def Driver.new : Driver := ⟨[], ∅, true⟩

/-- What the driver tells the engine. -/
inductive NostrInbound where
  | peerAnnounced (deviceId : String)
  | peerLeft (deviceId : String)
  | message (sender : String) (msg : SignalingMessage)

/-- How a frame fails to be read. -/
inductive FrameError where
  | notJson
  | notAnArray
  | missingEventBody
  | badEvent
  | badEnvelope

/-- How many event ids are remembered. -/
def seenEventCapacity : Nat := 2048

/-- Whether the room still needs the filter that catches untagged events, as the votes say;
counted under their lock, which is dropped then; `driver.rs:376–379`. -/
def Driver.needCompat (d : Driver) : Bool :=
  d.roomCaps.entries.isEmpty || d.roomCaps.entries.any (!·.2)

/-- What was counted is published to the sessions; `driver.rs:380–393`. -/
def Driver.publishCompat (d : Driver) (needCompat : Bool) : Driver :=
  { d with compatDirected := needCompat }

/-- Whether an envelope names its sender twice alike, and is addressed as its kind must be;
`driver.rs:1148–1166`. -/
def envelopeShape (shared : Shared) (e : SignalingEnvelope) : Bool :=
  let broadcast := match e.msg with
    | .announce _ _ | .leave _ => true
    | _ => false
  e.msg.peerId == e.sender &&
    !((broadcast && e.recipient.isSome) || (!broadcast && e.recipient != some shared.deviceId))

/-- What a frame brings after every check of its event: a kind and an envelope. The event's id
is remembered before the envelope is read, the oldest one forgotten; `driver.rs:1086–1166`. -/
def Driver.readEvent (d : Driver) (S : Serde) (X : Externals) (shared : Shared)
    (event : NostrEvent) : Driver × Except FrameError (Option (UInt16 × SignalingEnvelope)) :=
  if ¬ event.verify X then (d, .ok none)
  else if ¬ event.tags.any fun t ↦ t[0]? == some "r" && t[1]? == some shared.roomHandle then
    (d, .ok none)
  else if event.pubkey = X.pubkey then (d, .ok none)
  else if event.id ∈ d.seenEventIds then (d, .ok none)
  else
    let d' :=
      { d with seenEventIds := SeenRing.remember seenEventCapacity d.seenEventIds event.id }
    match S.fromStr event.content with
    | none => (d', .error .badEnvelope)
    | some envelope =>
      if envelopeShape shared envelope then (d', .ok (some (event.kind, envelope)))
      else (d', .ok none)

/-- A frame up to its envelope; `driver.rs:1086–1166` and `1235–1244`. -/
def Driver.readFrame (d : Driver) (S : Serde) (X : Externals) (shared : Shared)
    (frame : String) : Driver × Except FrameError (Option (UInt16 × SignalingEnvelope)) :=
  match X.parse frame with
  | none => (d, .error .notJson)
  | some (.array arr) =>
    if arr.head?.bind Value.asStr = some "EVENT" then
      match arr[2]? with
      | none => (d, .error .missingEventBody)
      | some value =>
        match X.decodeEvent value with
        | none => (d, .error .badEvent)
        | some event => d.readEvent S X shared event
    else (d, .ok none)
  | some _ => (d, .error .notAnArray)

/-- Act on an envelope: the vote of an announce is cast and that of a departed device taken away,
and the engine is told. What the votes mean for the subscription is counted and published in
steps of their own, `RelayTasks`; `driver.rs:1175–1233`. -/
def Driver.act (d : Driver) (shared : Shared) (kind : UInt16) (e : SignalingEnvelope) :
    Driver × Option NostrInbound :=
  match e.msg with
  | .announce peerId caps =>
    if kind ≠ signalingEventKind ∨ peerId = shared.deviceId then (d, none)
    else
      ({ d with roomCaps := d.roomCaps.insert peerId (caps.any (· == sigCapPtag)) },
        some (.peerAnnounced peerId))
  | .leave peerId =>
    if kind ≠ signalingEphemeralKind ∨ peerId = shared.deviceId then (d, none)
    else ({ d with roomCaps := d.roomCaps.erase peerId }, some (.peerLeft peerId))
  | other =>
    if kind ≠ signalingEphemeralKind then (d, none) else (d, some (.message e.sender other))

/-- A frame from a relay, up to what the engine is told; `driver.rs:1080–1247`. -/
def Driver.handleInboundFrame (d : Driver) (S : Serde) (X : Externals) (shared : Shared)
    (frame : String) : Driver × Except FrameError (Option NostrInbound) :=
  match d.readFrame S X shared frame with
  | (d', .error e) => (d', .error e)
  | (d', .ok none) => (d', .ok none)
  | (d', .ok (some (kind, envelope))) =>
    ((d'.act shared kind envelope).1, .ok (d'.act shared kind envelope).2)

/-- The driver after a frame. -/
def Driver.step (S : Serde) (X : Externals) (shared : Shared) (d : Driver) (frame : String) :
    Driver := (d.handleInboundFrame S X shared frame).1

end MyOwnMesh.Nostr
