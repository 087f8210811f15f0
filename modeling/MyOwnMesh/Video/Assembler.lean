import Mathlib.Algebra.GroupWithZero.Nat
import Mathlib.Data.List.Basic

/-!
# The access unit assembler

`crates/myownmesh-core/src/transport/webrtc.rs:875–1319`. Packets of a video track are collected
per timestamp and marker, keyed by their sequence number on an unbounded line, and a unit is
released when its packets are whole from the end of the unit before it to its own marker. A hole
waits for a retransmission, for a while.

The type of timestamps is a parameter, with the relation that says which of two is newer: on the
wire they are 32 bits wide and wrap. A time is a number of nanoseconds. The depacketizer is a
library; it is a function from the payloads of a unit to its bytes, which may refuse.
-/

namespace MyOwnMesh.Video

/-- The bytes of a payload or of a unit. -/
abbrev Bytes := List UInt8

/-- A packet of the track, as far as it is read. -/
structure RtpPacket (T : Type) where
  sequenceNumber : UInt16
  timestamp : T
  marker : Bool
  payload : Bytes

/-- A unit that is released; `webrtc.rs:233–242`. -/
structure VideoSample (T : Type) where
  rtpTimestamp : T
  key : Bool
  lane : UInt8
  sequence : UInt64
  data : Bytes
deriving DecidableEq

/-- Why and when a unit was given up; `webrtc.rs:217–226`. -/
structure VideoRecoveryDiagnostic where
  observedAt : Nat
  reason : String
  pendingSamples : Nat
  pendingFrames : Nat
  pendingPackets : Nat
  blockedMs : Nat
deriving DecidableEq

/-- What the assembler reports; `webrtc.rs:922–928`. -/
inductive AssemblyEvent (T : Type) where
  | sample (sample : VideoSample T)
  | discontinuity (rtpTimestamp : T) (diagnostic : VideoRecoveryDiagnostic)
deriving DecidableEq

/-- A unit that is being collected; `webrtc.rs:912–920`. The parts are ordered by their sequence
numbers. -/
structure PendingAu (T : Type) where
  timestamp : T
  parts : List (Int × Bytes)
  markerSeq : Option Int
  blockedSince : Option Nat
  overflowed : Bool
deriving DecidableEq

/-- `H264AuAssembler`, over timestamps of any type; `webrtc.rs:892–910`. -/
structure Assembler (T : Type) where
  pending : List (PendingAu T) := []
  prevEnd : Option Int := none
  lastSeq : Option (UInt16 × Int) := none
  newestTimestamp : Option T := none
  gapOpen : Bool := false
deriving DecidableEq

/-- Most packets of one unit; `webrtc.rs:931`. -/
def maxAuParts : Nat := 2048

/-- Most timestamps that are being collected; `webrtc.rs:937`. -/
def maxPendingFrames : Nat := 15

/-- Most packets that are being collected; `webrtc.rs:944`. -/
def maxPendingParts : Nat := 4096

/-- How long a hole waits, 150 ms; `webrtc.rs:948`. -/
def retransmitGrace : Nat := 150000000

/-! ### Payloads -/

/-- The payload can be the first packet of a unit; `webrtc.rs:1306–1319`. -/
def payloadStartsAu : Bytes → Bool
  | [] => false
  | b0 :: rest =>
    let kind := b0 &&& 0x1F
    if 1 ≤ kind ∧ kind ≤ 23 then true
    else if kind = 24 then true
    else if kind = 28 ∨ kind = 29 then rest.head?.any fun b1 ↦ b1 &&& 0x80 != 0
    else false

/-- The types of the units in an Annex-B stream, after start codes of three or four bytes;
`webrtc.rs:1330–1357`. -/
def annexbNalTypes : Bytes → List UInt8
  | a :: b :: c :: rest =>
    if a = 0 ∧ b = 0 ∧ c = 1 then
      match rest with
      | [] => []
      | t :: rest => (t &&& 0x1F) :: annexbNalTypes rest
    else if a = 0 ∧ b = 0 ∧ c = 0 ∧ rest.head? = some 1 then
      match rest with
      | _ :: t :: rest => (t &&& 0x1F) :: annexbNalTypes rest
      | _ => []
    else annexbNalTypes (b :: c :: rest)
  | _ => []

/-- The unit has an IDR slice; `webrtc.rs:1324–1326`. -/
def auHasIdr (data : Bytes) : Bool := (annexbNalTypes data).any (· == 5)

/-! ### One unit -/

section Unit

variable {T : Type}

/-- `BTreeMap::insert` for a key that is not there. -/
def insertPart (seq : Int) (payload : Bytes) : List (Int × Bytes) → List (Int × Bytes)
  | [] => [(seq, payload)]
  | e :: rest => if seq < e.1 then (seq, payload) :: e :: rest else e :: insertPart seq payload rest

/-- A packet is kept, unless it is there or the unit is full; `webrtc.rs:1057–1063`. -/
def PendingAu.store (au : PendingAu T) (seq : Int) (payload : Bytes) : PendingAu T :=
  if au.parts.any (·.1 == seq) then au
  else if maxAuParts ≤ au.parts.length then { au with overflowed := true }
  else { au with parts := insertPart seq payload au.parts }

/-- The packet is the last of its sample; what was collected behind it is a unit of its own;
`webrtc.rs:1064–1090`. -/
def PendingAu.split (au : PendingAu T) (seq : Int) : List (PendingAu T) :=
  let tail := au.parts.filter fun e ↦ decide (seq < e.1)
  { au with markerSeq := some seq, parts := au.parts.filter fun e ↦ decide (e.1 ≤ seq) } ::
    if tail.isEmpty then []
    else
      [{ timestamp := au.timestamp
         parts := tail
         markerSeq := au.markerSeq.filter fun e ↦ decide (seq < e)
         blockedSince := au.blockedSince
         overflowed := false }]

/-- The clock of a hole starts. -/
def PendingAu.block (now : Nat) (au : PendingAu T) : PendingAu T :=
  { au with blockedSince := some (au.blockedSince.getD now) }

/-- Where a unit starts: behind the last one, or at a packet that looks like a start. -/
def PendingAu.start (prevEnd : Option Int) (au : PendingAu T) : Option Int :=
  match prevEnd with
  | some prev => some (prev + 1)
  | none => (au.parts.head?.filter fun e ↦ payloadStartsAu e.2).map Prod.fst

/-- The bytes of the unit and its end, if it is whole; `webrtc.rs:1212–1277`. An outer `none` is a
payload that was refused. -/
def PendingAu.depacketizeIfComplete (depacketize : List Bytes → Option Bytes)
    (prevEnd : Option Int) (au : PendingAu T) : Option (Option (VideoSample T × Int)) :=
  match au.markerSeq, au.start prevEnd with
  | some endSeq, some start =>
    let held := au.parts.filter fun e ↦ decide (start ≤ e.1 ∧ e.1 ≤ endSeq)
    if endSeq < start then some none
    else if held.length < (endSeq - start + 1).toNat then some none
    else
      match depacketize (held.map Prod.snd) with
      | none => none
      | some data =>
        if data.isEmpty then some none
        else
          some (some ({ rtpTimestamp := au.timestamp, key := auHasIdr data, lane := 0,
                        sequence := 0, data := data }, endSeq))
  | _, _ => some none

end Unit

/-- A hole in a unit can be seen: its marker or a later unit is there. -/
def PendingAu.observable {T : Type} (au : PendingAu T) (rest : List (PendingAu T)) : Bool :=
  au.markerSeq.isSome || !rest.isEmpty

/-- The clocks of all holes that can be seen start; `webrtc.rs:1122–1127`. -/
def startClocks {T : Type} (now : Nat) : List (PendingAu T) → List (PendingAu T)
  | [] => []
  | au :: rest => (if au.observable rest then au.block now else au) :: startClocks now rest

/-! ### Releasing -/

section Collect

variable {T : Type} [DecidableEq T] (depacketize : List Bytes → Option Bytes) (now : Nat)

/-- How often the timestamp changes along the queue; `webrtc.rs:1133–1140`. -/
def pendingFrames (previous : Option T) : List (PendingAu T) → Nat
  | [] => 0
  | au :: rest =>
    if previous = some au.timestamp then pendingFrames previous rest
    else pendingFrames (some au.timestamp) rest + 1

/-- What happens to the front of the queue. -/
inductive Verdict (T : Type) where
  | release (sample : VideoSample T) (endSeq : Int)
  | wait
  | abandon (reason : String)

/-- Which bound the queue is over; `webrtc.rs:1141–1150`. -/
def limitOf (au : PendingAu T) (rest : List (PendingAu T)) : Option String :=
  if au.overflowed then some "sample_packet_limit"
  else if maxPendingParts < ((au :: rest).map fun u ↦ u.parts.length).sum then
    some "pending_packet_limit"
  else if maxPendingFrames < pendingFrames none (au :: rest) then some "pending_frame_limit"
  else none

/-- One turn of the loop of `collect_ready`; `webrtc.rs:1128–1190`. -/
def verdict (prevEnd : Option Int) (au : PendingAu T) (rest : List (PendingAu T)) : Verdict T :=
  let patience : Verdict T :=
    if au.observable rest ∧ retransmitGrace ≤ now - au.blockedSince.getD now then
      .abandon "retransmit_deadline"
    else .wait
  let held : Verdict T :=
    match limitOf au rest with
    | some reason => .abandon reason
    | none => patience
  if au.overflowed then held
  else
    match au.depacketizeIfComplete depacketize prevEnd with
    | none => .abandon "invalid_payload"
    | some none => held
    | some (some (sample, endSeq)) => .release sample endSeq

/-- What `collect_ready` leaves and reports. -/
structure Collected (T : Type) where
  pending : List (PendingAu T)
  prevEnd : Option Int
  gapOpen : Bool
  events : List (AssemblyEvent T)

/-- The report that a unit was given up. -/
def discontinuityOf (reason : String) (au : PendingAu T) (rest : List (PendingAu T)) :
    AssemblyEvent T :=
  let blockedSince :=
    if au.observable rest then some (au.blockedSince.getD now) else au.blockedSince
  .discontinuity au.timestamp
    { observedAt := now
      reason := reason
      pendingSamples := (au :: rest).length
      pendingFrames := pendingFrames none (au :: rest)
      pendingPackets := ((au :: rest).map fun u ↦ u.parts.length).sum
      blockedMs := (blockedSince.map fun at_ ↦ (now - at_) / 1000000).getD 0 }

/-- The loop of `collect_ready`: every turn but the last takes the front of the queue;
`webrtc.rs:1127–1209`. -/
def collectLoop : List (PendingAu T) → Option Int → Bool → Collected T
  | [], prevEnd, gapOpen => ⟨[], prevEnd, gapOpen, []⟩
  | au :: rest, prevEnd, gapOpen =>
    match verdict depacketize now prevEnd au rest with
    | .release sample endSeq =>
      let r := collectLoop rest (some endSeq) false
      { r with events := .sample sample :: r.events }
    | .wait => ⟨(if au.observable rest then au.block now else au) :: rest, prevEnd, gapOpen, []⟩
    | .abandon reason =>
      let r := collectLoop rest au.markerSeq true
      { r with
        events := (if gapOpen then [] else [discontinuityOf now reason au rest]) ++ r.events }

/-- `collect_ready`; `webrtc.rs:1117–1210`. -/
def Assembler.collectReady (s : Assembler T) : Assembler T × List (AssemblyEvent T) :=
  let r := collectLoop depacketize now (startClocks now s.pending) s.prevEnd s.gapOpen
  ({ s with pending := r.pending, prevEnd := r.prevEnd, gapOpen := r.gapOpen }, r.events)

end Collect

/-! ### Receiving -/

section Push

variable {T : Type} [DecidableEq T] (newer : T → T → Bool)
  (depacketize : List Bytes → Option Bytes)

/-- The unit that owns a sequence number; `webrtc.rs:1098–1115`. The first argument is the end of
the unit before. -/
def pendingPosition (timestamp : T) (seq : Int) : Option Int → List (PendingAu T) → Option Nat
  | _, [] => none
  | lower, au :: rest =>
    if au.timestamp = timestamp then
      if (∀ e ∈ lower, e < seq) ∧ (∀ e ∈ au.markerSeq, seq ≤ e) then some 0
      else (pendingPosition timestamp seq (au.markerSeq.or lower) rest).map (· + 1)
    else (pendingPosition timestamp seq lower rest).map (· + 1)

/-- Where a unit for a packet that no unit owns goes, and since when it is blocked; `none` if the
packet is stale; `webrtc.rs:985–1038`. -/
def Assembler.slot (s : Assembler T) (seq : Int) (ts : T) (now : Nat) :
    Option (Nat × Option Nat) :=
  match s.newestTimestamp with
  | none => some (s.pending.length, none)
  | some newest =>
    if ts = newest then
      match s.prevEnd with
      | none => none
      | some endSeq => if seq ≤ endSeq then none else some (s.pending.length, none)
    else if newer ts newest then some (s.pending.length, none)
    else do
      let endSeq ← s.prevEnd
      let next ← s.pending.findIdx? fun au ↦ newer au.timestamp ts
      let right ← s.pending[next]?
      let left := if next = 0 then none else s.pending[next - 1]?
      if seq ≤ endSeq ∨ (∀ e ∈ right.parts.head?, e.1 ≤ seq) ∨
          (∃ au ∈ left, (ts ≠ au.timestamp ∧ newer ts au.timestamp = false) ∨
            ∃ e ∈ au.parts.getLast?, seq ≤ e.1) then none
      else return (next, right.blockedSince.or (some now))

/-- The unit of a packet, with a new one if none owns it; `webrtc.rs:977–1054`. -/
def Assembler.enter (s : Assembler T) (seq : Int) (ts : T) (now : Nat) :
    Option (Assembler T × Nat) :=
  match pendingPosition ts seq s.prevEnd s.pending with
  | some pos => some (s, pos)
  | none => do
    let (insertAt, blockedSince) ← s.slot newer seq ts now
    let au : PendingAu T :=
      { timestamp := ts, parts := [], markerSeq := none, blockedSince := blockedSince,
        overflowed := false }
    let newest := if ∀ n ∈ s.newestTimestamp, newer ts n then some ts else s.newestTimestamp
    return ({ s with newestTimestamp := newest, pending := s.pending.insertIdx insertAt au },
      insertAt)

/-- The packet goes into its unit; `webrtc.rs:1056–1094`. -/
def Assembler.put (s : Assembler T) (pos : Nat) (seq : Int) (marker : Bool) (payload : Bytes) :
    Assembler T :=
  match s.pending[pos]? with
  | none => s
  | some au =>
    let stored := au.store seq payload
    let units := if marker then stored.split seq else [stored]
    { s with pending := s.pending.take pos ++ units ++ s.pending.drop (pos + 1) }

/-- A packet at its place on the sequence line, before anything is released. -/
def Assembler.place (s : Assembler T) (seq : Int) (ts : T) (marker : Bool) (payload : Bytes)
    (now : Nat) : Assembler T :=
  match s.enter newer seq ts now with
  | none => s
  | some (s, pos) => s.put pos seq marker payload

/-- A packet at its place on the sequence line; `webrtc.rs:975–1096`. -/
def Assembler.push (s : Assembler T) (seq : Int) (ts : T) (marker : Bool) (payload : Bytes)
    (now : Nat) : Assembler T × List (AssemblyEvent T) :=
  (s.place newer seq ts marker payload now).collectReady depacketize now

/-- A sequence number on the unbounded line; `webrtc.rs:1279–1299`. -/
def unwrapSeq (s : Assembler T) (raw : UInt16) : Assembler T × Int :=
  match s.lastSeq with
  | none => ({ s with lastSeq := some (raw, raw.toNat) }, raw.toNat)
  | some (lastRaw, lastUnwrapped) =>
    let delta := (raw - lastRaw).toInt16.toInt
    let unwrapped := lastUnwrapped + delta
    if 0 < delta then ({ s with lastSeq := some (raw, unwrapped) }, unwrapped)
    else (s, unwrapped)

/-- `push_at`; `webrtc.rs:967–1096`. -/
def Assembler.pushAt (s : Assembler T) (pkt : RtpPacket T) (now : Nat) :
    Assembler T × List (AssemblyEvent T) :=
  if pkt.payload.isEmpty then s.collectReady depacketize now
  else
    let r := unwrapSeq s pkt.sequenceNumber
    r.1.push newer depacketize r.2 pkt.timestamp pkt.marker pkt.payload now

end Push

/-! ### On the wire -/

/-- A timestamp is newer than another, the shorter way round; `webrtc.rs:1301–1304`. -/
def newerRtpTs (a b : UInt32) : Bool := a != b && decide (a - b < 0xFFFFFFFF / 2)

/-- `H264AuAssembler`; `webrtc.rs:892–910`. -/
abbrev H264AuAssembler := Assembler UInt32

/-- `push_at` of an assembler of a track; `webrtc.rs:967–1096`. -/
def H264AuAssembler.pushAt (depacketize : List Bytes → Option Bytes) (s : H264AuAssembler)
    (pkt : RtpPacket UInt32) (now : Nat) : H264AuAssembler × List (AssemblyEvent UInt32) :=
  Assembler.pushAt newerRtpTs depacketize s pkt now

end MyOwnMesh.Video
