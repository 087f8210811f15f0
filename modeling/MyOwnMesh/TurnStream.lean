import MyOwnMesh.Lib.Framing

/-!
# TURN over a byte stream

The two bridges between TURN datagrams and a TCP stream:
`crates/myownmesh-core/src/transport/turn_stream.rs` (`bridge_client`) on the client and
`crates/myownmesh-services/src/turn_stream.rs` (`bridge_connection`) on the server. Each crate
has its own codec. Either loop selects between a datagram to write and a frame to read; the
future that reads is made anew in every turn and dropped when the datagram is first. The ends
of a loop (a closed channel, a cancellation, the idle timeout) end a run.
-/

namespace MyOwnMesh.TurnStream

open Lib.Framing
open Lib.Replay

/-- The longest frame either codec takes; `MAX_TURN_FRAME` of both crates. -/
def maxTurnFrame : Nat := 65556

/-! ### The client's codec -/

/-- What `read_frame` makes of a header: how long the message is, and how long with its padding;
`core/transport/turn_stream.rs:260–283`. -/
def readFrameSizes : List UInt8 → Option (Nat × Nat)
  | [b₀, _, b₂, b₃] =>
    let body := b₂.toNat * 256 + b₃.toNat
    let channel := b₀ &&& 0xc0 == 0x40
    let len := if channel then 4 + body else if b₀ &&& 0xc0 == 0 then 20 + body else 0
    if 4 ≤ len ∧ len ≤ maxTurnFrame then
      some (len, if channel then (len + 3) / 4 * 4 else len)
    else none
  | _ => none

/-- What `write_frame` puts on the stream; `core/transport/turn_stream.rs:285–292`. -/
def writeFrame (frame : List UInt8) : List UInt8 :=
  frame ++
    if frame.head?.any fun b ↦ b &&& 0xc0 == 0x40 then
      List.replicate ((4 - frame.length % 4) % 4) 0
    else []

/-! ### The server's codec -/

/-- What `read_turn_stream_frame` makes of a header; `services/turn_stream.rs:97–123`. -/
def readTurnStreamFrameSizes : List UInt8 → Option (Nat × Nat)
  | [b₀, _, b₂, b₃] =>
    let bodyLen := b₂.toNat * 256 + b₃.toNat
    let channelData := b₀ &&& 0b11000000 == 0b01000000
    let messageLen :=
      (if channelData then some (4 + bodyLen)
      else if b₀ &&& 0b11000000 == 0 then some (20 + bodyLen)
      else none).filter fun len ↦ 4 ≤ len ∧ len ≤ maxTurnFrame
    messageLen.map fun len ↦ (len, if channelData then (len + 3) / 4 * 4 else len)
  | _ => none

/-- What `write_turn_stream_frame` puts on the stream; `services/turn_stream.rs:125–142`. -/
def writeTurnStreamFrame (frame : List UInt8) : List UInt8 :=
  frame ++
    if frame.head?.any fun b ↦ b &&& 0b11000000 == 0b01000000 then
      let padding := (4 - frame.length % 4) % 4
      if padding ≠ 0 then List.replicate padding 0 else []
    else []

/-- The two crates read a header alike. -/
theorem readTurnStreamFrameSizes_eq (header : List UInt8) :
    readTurnStreamFrameSizes header = readFrameSizes header := by
  unfold readTurnStreamFrameSizes readFrameSizes
  split
  · next b₀ b₁ b₂ b₃ =>
    by_cases hchannel : b₀ &&& 0xc0 == 0x40
    · simp only [hchannel, ↓reduceIte, Option.filter_some]
      split <;> simp_all
    · by_cases hstun : b₀ &&& 0xc0 == 0
      · simp only [hchannel, hstun, Bool.false_eq_true, ↓reduceIte, Option.filter_some]
        split <;> simp_all
      · simp [hchannel, hstun]
  · rfl

/-- The two crates write a frame alike. -/
theorem writeTurnStreamFrame_eq (frame : List UInt8) :
    writeTurnStreamFrame frame = writeFrame frame := by
  unfold writeTurnStreamFrame writeFrame
  by_cases hpad : (4 - frame.length % 4) % 4 = 0
  · simp [hpad]
  · simp [hpad]

/-- The sizes of a header that is taken. -/
theorem readFrameSizes_le (header : List UInt8) (n m : Nat)
    (h : readFrameSizes header = some (n, m)) : 4 ≤ n ∧ n ≤ m := by
  unfold readFrameSizes at h
  split at h
  · next b₀ b₁ b₂ b₃ =>
    simp only at h
    split_ifs at h <;> simp only [Option.some.injEq, Prod.mk.injEq] at h <;> omega
  · simp at h

/-! ### The two bridges -/

/-- The two ends of a stream. -/
inductive End where
  | client
  | server
deriving DecidableEq, Repr

/-- How an end delimits the frames it reads: a header of four bytes, then the rest. -/
def End.format : End → Format UInt8
  | .client => ⟨4, readFrameSizes, by decide, readFrameSizes_le⟩
  | .server => ⟨4, readTurnStreamFrameSizes, by decide, fun header n m h ↦
      readFrameSizes_le header n m (readTurnStreamFrameSizes_eq header ▸ h)⟩

/-- How an end writes a datagram to the stream. -/
def End.write : End → List UInt8 → List UInt8
  | .client => writeFrame
  | .server => writeTurnStreamFrame

/-- The end at the other side of the stream. -/
def End.peer : End → End
  | .client => .server
  | .server => .client

/-- One turn of `bridge_client` or of `bridge_connection`. -/
def End.bridge (e : End) : Bridge UInt8 → Event UInt8 → Bridge UInt8 := Bridge.step e.format e.write

/-! ### Messages -/

/-- A TURN message: a STUN message or channel data, as long as its header says. -/
def WellFormed : List UInt8 → Prop
  | b₀ :: _ :: b₂ :: b₃ :: rest =>
    (b₀ &&& 0xc0 = 0 ∧ rest.length = 16 + (b₂.toNat * 256 + b₃.toNat)) ∨
    (b₀ &&& 0xc0 = 0x40 ∧ rest.length = b₂.toNat * 256 + b₃.toNat)
  | _ => False

instance : DecidablePred WellFormed
  | [] | [_] | [_, _] | [_, _, _] => inferInstanceAs (Decidable False)
  | _ :: _ :: _ :: _ :: _ => inferInstanceAs (Decidable (_ ∧ _ ∨ _ ∧ _))

/-- What `write_frame` makes of a message, `read_frame` takes for the message. -/
theorem framed_writeFrame {message : List UInt8} (h : WellFormed message) :
    Framed (End.format .client) message (writeFrame message) := by
  refine ⟨?_, List.prefix_append _ _⟩
  match message, h with
  | b₀ :: b₁ :: b₂ :: b₃ :: rest, h =>
    have h₂ := b₂.toNat_lt
    have h₃ := b₃.toNat_lt
    rcases h with ⟨hbits, hlen⟩ | ⟨hbits, hlen⟩
    · simp [End.format, readFrameSizes, writeFrame, hbits, hlen, maxTurnFrame]
      omega
    · simp [End.format, readFrameSizes, writeFrame, hbits, hlen, maxTurnFrame]
      omega

/-- What either end writes, the other end takes for what it was. -/
theorem framed_peer (e : End) {message : List UInt8} (h : WellFormed message) :
    Framed e.format message (e.peer.write message) := by
  have hframed := framed_writeFrame h
  cases e with
  | client =>
    rw [show End.peer .client = .server from rfl, End.write, writeTurnStreamFrame_eq]
    exact hframed
  | server =>
    refine ⟨?_, hframed.starts⟩
    exact (readTurnStreamFrameSizes_eq _).trans hframed.sizes

/-! ### What comes out of a bridge -/

/-- The peer writes messages; their bytes arrive in any chunks, among polls of the reader and
datagrams the other way, and all that arrived is read. The bridge forwards those messages,
unmodified and in order, and gives the stream up for nothing, exactly when no datagram was
written while the reader already held a part of a frame. -/
theorem forwarded_iff (e : End) (messages : List (List UInt8))
    (hmessages : ∀ m ∈ messages, WellFormed m) (events : List (Event UInt8))
    (hbytes : incoming events = messages.flatMap e.peer.write)
    (hread : (run e.bridge .start events).failed = true ∨
      (run e.bridge .start events).unread = []) :
    ((run e.bridge .start events).forwarded = messages ∧
      (run e.bridge .start events).failed = false) ↔
      AllSteps e.bridge KeepsReader .start events :=
  forwarded_iff_keepsReader (fun m hm ↦ framed_peer e (hmessages m hm)) hbytes hread

/-- A binding request without attributes. -/
def bindingRequest : List UInt8 :=
  [0x00, 0x01, 0x00, 0x00, 0x21, 0x12, 0xa4, 0x42, 0, 0, 0, 0, 0, 0, 0, 0, 0, 0, 0, 1]

/-- Three bytes of channel data. -/
def channelData : List UInt8 := [0x40, 0x01, 0x00, 0x03, 7, 8, 9]

/-- Two messages in three chunks with a datagram written between the frames. -/
def calmEvents : List (Event UInt8) :=
  [.arrive (bindingRequest.take 7), .poll, .arrive (bindingRequest.drop 7), .poll,
    .outbound bindingRequest, .arrive (channelData ++ [0]), .poll]

/-- Datagrams between frames leave the messages as they are. -/
theorem calmEvents_forwarded :
    (run (End.bridge .server) .start calmEvents).forwarded = [bindingRequest, channelData] ∧
      (run (End.bridge .server) .start calmEvents).failed = false :=
  (forwarded_iff .server [bindingRequest, channelData] (by decide) calmEvents (by decide)
    (.inr (by decide))).mpr
    ⟨trivial, trivial, trivial, trivial, show _ = _ by decide, trivial, trivial, trivial⟩

/-- A datagram goes out between the header of a message and the rest of it. -/
def tornEvents : List (Event UInt8) :=
  [.arrive (bindingRequest.take 4), .poll, .outbound channelData, .arrive (bindingRequest.drop 4),
    .poll]

/-- The bytes of the header are gone with the reader, and the message is never forwarded. -/
theorem datagram_tears_frame :
    ¬ ∀ (e : End) (messages : List (List UInt8)) (events : List (Event UInt8)),
      (∀ m ∈ messages, WellFormed m) → incoming events = messages.flatMap e.peer.write →
      ((run e.bridge .start events).failed = true ∨ (run e.bridge .start events).unread = []) →
      (run e.bridge .start events).forwarded = messages ∧
        (run e.bridge .start events).failed = false := by
  intro h
  have hclaim := (h .client [bindingRequest] tornEvents (by decide) (by decide)
    (.inr (by decide))).1
  revert hclaim
  decide

end MyOwnMesh.TurnStream
