import MyOwnMesh.Mdns.Browse
import MyOwnMesh.Nostr.Driver

/-!
# The exchange between mDNS peers

`crates/myownmesh-signaling/src/mdns/wire.rs:98–135` and `mdns/driver.rs:391–398,676–733`.
Directed messages travel as lines over TCP connections between two devices. Each connection has a
reader of its own; which lines reach a reader, and in which order the readers report, is not
decided here. `serde` is a parameter.
-/

namespace MyOwnMesh.Mdns

open Lib Nostr

/-- A line of the exchange; `wire.rs:106–115`. -/
structure Frame where
  v : UInt8
  room : String
  sender : String
  recipient : String
  msg : SignalingMessage
deriving DecidableEq

/-- `serde_json` on frames; `wire.rs:117–127`. -/
structure FrameSerde where
  encodeFrame : Frame → String
  decodeFrame : String → Option Frame

/-- The version, the room and the recipient are ours; `wire.rs:131–133`. -/
def frameIsForUs (frame : Frame) (ourRoom ourDeviceId : String) : Bool :=
  frame.v.toNat = protocolVersion && frame.room = ourRoom && frame.recipient = ourDeviceId

/-- What a reader of the exchange tells the engine, of `MdnsInbound`. -/
inductive ExchangeInbound where
  | peerAnnounced (deviceId : String)
  | peerLeft (deviceId : String)
  | message (sender : String) (msg : SignalingMessage)
deriving DecidableEq

/-- What the engine asks the driver to send; `driver.rs:79–91`. -/
inductive MdnsOutbound where
  | announce
  | leave
  | directedToPeer (recipient : String) (msg : SignalingMessage)

/-- The frame of a directed message; `driver.rs:392–398`. -/
def directedFrame (shared : Shared) (recipient : String) (msg : SignalingMessage) : Frame :=
  ⟨1, shared.roomHandle, shared.deviceId, recipient, msg⟩

/-- What a line does to its connection. -/
inductive LineOutcome where
  | close
  | skip
  | tell (inbound : ExchangeInbound)
deriving DecidableEq

/-- What a frame for us says; `driver.rs:724–728`. -/
def Frame.inbound (frame : Frame) : ExchangeInbound :=
  match frame.msg with
  | .announce _ _ => .peerAnnounced frame.sender
  | .leave _ => .peerLeft frame.sender
  | other => .message frame.sender other

/-- One line that is UTF-8; `driver.rs:698–731`. -/
def readLine (F : FrameSerde) (shared : Shared) (line : String) : LineOutcome :=
  if Text.trim line = "" then .skip
  else
    match F.decodeFrame line with
    | none => .close
    | some frame =>
      if ¬ frameIsForUs frame shared.roomHandle shared.deviceId then .skip
      else if frame.msg.peerId ≠ frame.sender then .skip
      else .tell frame.inbound

variable {F : FrameSerde} {shared : Shared} {line : String} {i : ExchangeInbound}

/-- A line is told exactly when it is a frame for us that names its sender twice alike. -/
theorem readLine_eq_tell_iff :
    readLine F shared line = .tell i ↔
      Text.trim line ≠ "" ∧ ∃ frame, F.decodeFrame line = some frame ∧
        frameIsForUs frame shared.roomHandle shared.deviceId = true ∧
        frame.msg.peerId = frame.sender ∧ i = frame.inbound := by
  unfold readLine
  by_cases hblank : Text.trim line = ""
  · simp [hblank]
  cases hframe : F.decodeFrame line with
  | none => simp [hblank]
  | some frame =>
    by_cases hours : frameIsForUs frame shared.roomHandle shared.deviceId = true
    · by_cases hsender : frame.msg.peerId = frame.sender
      · simp [hblank, hours, hsender, eq_comm (a := frame.inbound)]
      · simp [hblank, hours, hsender]
    · simp [hblank, hours]

end MyOwnMesh.Mdns
