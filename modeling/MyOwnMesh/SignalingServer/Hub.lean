import Mathlib.Data.List.AList
import MyOwnMesh.Engine.Routing
import MyOwnMesh.Lib.Replay

/-!
# The signaling relay

`HubInner` of `crates/myownmesh-signaling/src/server.rs`: who is connected and from where, what
is subscribed, which events are kept for replay, and which device is present in which room.
Every handler runs under one lock. Hash maps are association lists with distinct keys; the order
in which a map is walked is the list's. Counters do not overflow. The JSON parser, the
deserializer of events, hashes and signatures and the floating-point token buckets are
parameters; time is an argument.
-/

namespace MyOwnMesh.SignalingServer

/-- `std::net::IpAddr`. -/
inductive IpAddr where
  | v4 (bits : BitVec 32)
  | v6 (bits : BitVec 128)
deriving DecidableEq, Repr

/-- A NIP-01 event; `nostr/event.rs:49–58`. -/
structure NostrEvent where
  id : String
  pubkey : String
  createdAt : UInt64
  kind : UInt16
  tags : List (List String)
  content : String
  sig : String
deriving DecidableEq

/-- What the relay takes from libraries. `eventId` is the digest that an event's fields commit
to, `pubkey` and `signDigest` are those of the relay's own identity. -/
structure Externals where
  parse : String → Option Value
  print : Value → String
  decodeEvent : Value → Option NostrEvent
  eventId : String → UInt64 → UInt16 → List (List String) → String → String
  verifySchnorr : String → String → String → Bool
  pubkey : String
  signDigest : String → String
  Bucket : Type
  newBucket : Nat → Nat → Bucket
  allow : Bucket → Nat → Bool × Bucket

variable (X : Externals)

/-! ### Events -/

/-- Build and sign an event; `nostr/event.rs:103–138`. -/
def makeEvent (kind : UInt16) (tags : List (List String)) (content : String)
    (createdAt : UInt64) : NostrEvent :=
  let id := X.eventId X.pubkey createdAt kind tags content
  { id := id
    pubkey := X.pubkey
    createdAt := createdAt
    kind := kind
    tags := tags
    content := content
    sig := X.signDigest id }

/-- The id binds the fields and the signature is the key's; `nostr/event.rs:147–180`. -/
def NostrEvent.verify (ev : NostrEvent) : Bool :=
  X.eventId ev.pubkey ev.createdAt ev.kind ev.tags ev.content == ev.id &&
    X.verifySchnorr ev.pubkey ev.id ev.sig

/-- `serde_json::to_value` of an event. -/
def NostrEvent.toValue (ev : NostrEvent) : Value :=
  .object [("id", .string ev.id), ("pubkey", .string ev.pubkey),
    ("created_at", .posInt ev.createdAt), ("kind", .posInt ev.kind.toUInt64),
    ("tags", .array (ev.tags.map fun t ↦ .array (t.map .string))),
    ("content", .string ev.content), ("sig", .string ev.sig)]

/-- The stored kind of announces. -/
def signalingEventKind : UInt16 := 1077

/-- The ephemeral kind of negotiation and departures. -/
def signalingEphemeralKind : UInt16 := 21077

/-- The room and device that an announce is about; `server.rs:739–753`. -/
def presenceOf (ev : NostrEvent) : Option (String × String) :=
  if ev.kind ≠ signalingEventKind then none
  else do
    let tag ← ev.tags.find? fun t ↦ 2 ≤ t.length ∧ t[0]? = some "r"
    let room ← tag[1]?
    let content ← X.parse ev.content
    if (content.get? "kind").bind Value.asStr ≠ some "announce" then none
    else do
      let device ← (← content.get? "from").asStr
      return (room, device)

/-- The departure of a device from a room; `server.rs:762–774`. -/
def buildLeaveEvent (room device : String) (now : UInt64) : NostrEvent :=
  let envelope : Value :=
    .object [("from", .string device), ("kind", .string "leave"), ("peer_id", .string device)]
  makeEvent X signalingEphemeralKind [["r", room], ["p", room]] (X.print envelope) now

/-- Kinds that are kept for replay; `server.rs:886–888`. -/
def isStoredKind (kind : UInt16) : Bool := ¬ (20000 ≤ kind ∧ kind ≤ 29999)

/-! ### Filters -/

/-- `server.rs:878–882`. -/
def strListContains (val : Value) (needle : String) : Bool :=
  match val with
  | .array items => items.any fun x ↦ x.asStr == some needle
  | _ => false

/-- One constraint of a filter; the arms of `server.rs:826–873`. -/
def constraintHolds (ev : NostrEvent) (key : String) (val : Value) : Bool :=
  if key = "ids" then strListContains val ev.id
  else if key = "authors" then strListContains val ev.pubkey
  else if key = "kinds" then
    match val with
    | .array items => items.any fun k ↦ k.asU64 == some ev.kind.toUInt64
    | _ => false
  else if key = "since" then
    match val.asU64 with
    | some s => s ≤ ev.createdAt
    | none => true
  else if key = "until" then
    match val.asU64 with
    | some u => ev.createdAt ≤ u
    | none => true
  else if key.utf8ByteSize = 2 ∧ key.toList.head? = some '#' then
    ev.tags.any fun t ↦
      match t with
      | name :: value :: _ => name == String.ofList (key.toList.drop 1) && strListContains val value
      | _ => false
  else true

/-- `server.rs:822–876`. -/
def filterMatches (filter : Value) (ev : NostrEvent) : Bool :=
  match filter with
  | .object fields => fields.all fun f ↦ constraintHolds ev f.1 f.2
  | _ => false

/-- `server.rs:816–818`. -/
def matchesAny (filters : List Value) (ev : NostrEvent) : Bool :=
  filters.isEmpty || filters.any fun f ↦ filterMatches f ev

/-! ### The state -/

/-- Flood protection; zero is no limit. `server.rs:85–113`. -/
structure Limits where
  maxEventRate : Nat := 50
  maxReqRate : Nat := 20
  maxSubscriptions : Nat := 64
  maxFiltersPerReq : Nat := 16
  maxMessageBytes : Nat := 65536
  maxConnectionsPerIp : Nat := 64

/-- One connection; `server.rs:355–366`. -/
structure ConnEntry where
  subs : AList (fun _ : String ↦ List Value)
  ip : IpAddr
  present : List (String × String)
  eventBucket : X.Bucket
  reqBucket : X.Bucket
  strikes : Nat

/-- An event kept for replay. -/
structure StoredEvent where
  receivedAt : Nat
  event : NostrEvent

/-- A live member: the connection that owns it and its latest announce. -/
structure Presence where
  connId : Nat
  announce : NostrEvent

/-- `HubInner`, without its activity counters; `server.rs:336–353`. -/
structure Hub where
  nextId : Nat
  conns : AList (fun _ : Nat ↦ ConnEntry X)
  stored : List StoredEvent
  presence : AList (fun _ : String ↦ AList (fun _ : String ↦ Presence))
  ipCounts : AList (fun _ : IpAddr ↦ Nat)
  limits : Limits

/-- What is queued for a connection. -/
inductive Frame where
  | event (subid : String) (ev : Value)
  | ok (id : String) (accepted : Bool) (text : String)
  | eose (subid : String)
  | closed (subid text : String)
  | notice (text : String)

/-- A fresh hub; `server.rs:381–395`. -/
def Hub.new (limits : Limits) : Hub X :=
  { nextId := 1
    conns := ∅
    stored := []
    presence := ∅
    ipCounts := ∅
    limits := limits }

variable {X}

/-- The live presence of a device in a room. -/
def Hub.presenceAt (s : Hub X) (room device : String) : Option Presence :=
  (s.presence.lookup room).bind (AList.lookup device)

/-- Whether a connection is the live owner of a pair; `server.rs:466–471`. -/
def Hub.owns (s : Hub X) (id : Nat) (pair : String × String) : Bool :=
  ((s.presenceAt pair.1 pair.2).map fun p ↦ p.connId == id).getD false

/-- How many live connections were registered from an address. -/
def Hub.connsFrom (s : Hub X) (ip : IpAddr) : Nat := s.conns.entries.countP (·.2.ip = ip)

/-- Change a live connection in place. -/
def Hub.modifyConn (s : Hub X) (id : Nat) (f : ConnEntry X → ConnEntry X) : Hub X :=
  match s.conns.lookup id with
  | none => s
  | some conn => { s with conns := s.conns.insert id (f conn) }

/-! ### Connections -/

/-- Admit a connection, unless its address has too many; `server.rs:421–449`. -/
def Hub.register (s : Hub X) (ip : IpAddr) (now : Nat) : Hub X × Option Nat :=
  let n := (s.ipCounts.lookup ip).getD 0
  if 0 < s.limits.maxConnectionsPerIp ∧ s.limits.maxConnectionsPerIp ≤ n then (s, none)
  else
    let entry : ConnEntry X :=
      { subs := ∅
        ip := ip
        present := []
        eventBucket := X.newBucket s.limits.maxEventRate now
        reqBucket := X.newBucket s.limits.maxReqRate now
        strikes := 0 }
    ({ s with
        ipCounts := s.ipCounts.insert ip (n + 1)
        nextId := s.nextId + 1
        conns := s.conns.insert s.nextId entry }, some s.nextId)

/-- Queue an event for every subscription that matches it; `server.rs:712–733`. -/
def fanout (conns : AList (fun _ : Nat ↦ ConnEntry X)) (value : Value) (ev : NostrEvent) :
    List (Nat × Frame) :=
  conns.entries.flatMap fun c ↦
    (c.2.subs.entries.filter fun sub ↦ matchesAny sub.2 ev).map fun sub ↦
      (c.1, .event sub.1 value)

/-- One address has a connection less; `server.rs:456–461`. -/
def releaseIp (counts : AList (fun _ : IpAddr ↦ Nat)) (ip : IpAddr) :
    AList (fun _ : IpAddr ↦ Nat) :=
  match counts.lookup ip with
  | none => counts
  | some c => if c - 1 = 0 then counts.erase ip else counts.insert ip (c - 1)

/-- Put a device into a room; `server.rs:668–674`. -/
def insertPresence (presence : AList (fun _ : String ↦ AList (fun _ : String ↦ Presence)))
    (room device : String) (p : Presence) :
    AList (fun _ : String ↦ AList (fun _ : String ↦ Presence)) :=
  presence.insert room (((presence.lookup room).getD ∅).insert device p)

/-- Take a device out of a room, and the room away with its last one; `server.rs:476–481`. -/
def removePresence (presence : AList (fun _ : String ↦ AList (fun _ : String ↦ Presence)))
    (room device : String) : AList (fun _ : String ↦ AList (fun _ : String ↦ Presence)) :=
  match presence.lookup room with
  | none => presence
  | some m =>
    if (m.erase device).entries.isEmpty then presence.erase room
    else presence.insert room (m.erase device)

/-- One pair of the connection that closes; the body of the loop in `server.rs:466–493`. -/
def departStep (id : Nat) (now : UInt64) (acc : Hub X × List (Nat × Frame))
    (pair : String × String) : Hub X × List (Nat × Frame) :=
  let (s, sent) := acc
  if ¬ s.owns id pair then (s, sent)
  else
    let leave := buildLeaveEvent X pair.1 pair.2 now
    ({ s with
        presence := removePresence s.presence pair.1 pair.2
        stored := s.stored.filter fun e ↦ presenceOf X e.event ≠ some pair },
      sent ++ fanout s.conns leave.toValue leave)

/-- A connection closes; `server.rs:452–494`. -/
def Hub.unregister (s : Hub X) (id : Nat) (now : UInt64) : Hub X × List (Nat × Frame) :=
  match s.conns.lookup id with
  | none => (s, [])
  | some entry =>
    let s' := { s with conns := s.conns.erase id, ipCounts := releaseIp s.ipCounts entry.ip }
    entry.present.foldl (departStep id now) (s', [])

/-! ### Messages -/

/-- Strikes that close a connection. -/
def strikeLimit : Nat := 50

/-- The connection broke a limit; `server.rs:551–562`. Whether it may stay. -/
def Hub.strike (s : Hub X) (id : Nat) : Hub X × List (Nat × Frame) × Bool :=
  match s.conns.lookup id with
  | none => (s, [], true)
  | some conn =>
    let s' := s.modifyConn id fun c ↦ { c with strikes := c.strikes + 1 }
    if strikeLimit < conn.strikes + 1 then
      (s', [(id, .notice "rate limit exceeded — closing")], false)
    else (s', [], true)

/-- Ask one of the buckets of a connection; `server.rs:537–549`. -/
def Hub.takeToken (s : Hub X) (id : Nat) (isReq : Bool) (now : Nat) : Hub X × Bool :=
  match s.conns.lookup id with
  | none => (s, false)
  | some conn =>
    if isReq then
      let (allowed, bucket) := X.allow conn.reqBucket now
      (s.modifyConn id fun c ↦ { c with reqBucket := bucket }, allowed)
    else
      let (allowed, bucket) := X.allow conn.eventBucket now
      (s.modifyConn id fun c ↦ { c with eventBucket := bucket }, allowed)

/-- Replay cap of one subscription. -/
def maxReplayPerReq : Nat := 500

/-- Keep an event for replay that matches and whose id was not seen. -/
def replayStep (filters : List Value) (replay : List NostrEvent) (ev : NostrEvent) :
    List NostrEvent :=
  if matchesAny filters ev ∧ ¬ replay.any (·.id == ev.id) then replay ++ [ev] else replay

/-- What a new subscription is replayed: stored events and live announces, once per id, the
latest of them; `server.rs:594–614`. -/
def Hub.replay (s : Hub X) (filters : List Value) : List NostrEvent :=
  let announces := s.presence.entries.flatMap fun room ↦ room.2.entries.map fun p ↦ p.2.announce
  let all := (s.stored.map StoredEvent.event ++ announces).foldl (replayStep filters) []
  all.drop (all.length - maxReplayPerReq)

/-- `["REQ", subid, filter, …]`; `server.rs:567–630`. -/
def Hub.handleReq (s : Hub X) (id : Nat) (arr : List Value) : Hub X × List (Nat × Frame) :=
  match arr[1]?.bind Value.asStr with
  | none => (s, [])
  | some subid =>
    let filters :=
      if 0 < s.limits.maxFiltersPerReq then (arr.drop 2).take s.limits.maxFiltersPerReq
      else arr.drop 2
    match s.conns.lookup id with
    | none => (s, [])
    | some conn =>
      if 0 < s.limits.maxSubscriptions ∧ subid ∉ conn.subs ∧
          s.limits.maxSubscriptions ≤ conn.subs.entries.length then
        (s, [(id, .closed subid "rate-limited: too many subscriptions")])
      else
        (s.modifyConn id fun c ↦ { c with subs := c.subs.insert subid filters },
          (s.replay filters).map (fun ev ↦ (id, .event subid ev.toValue)) ++
            [(id, .eose subid)])

/-- How long an event is kept, in nanoseconds. -/
def storedRetention : Nat := 15 * 60 * 1000000000

/-- How many events are kept. -/
def maxStoredEvents : Nat := 8192

/-- Forget the old and the many; `server.rs:890–902`. -/
def prune (stored : List StoredEvent) (now : Nat) : List StoredEvent :=
  let kept := stored.dropWhile fun e ↦ storedRetention < now - e.receivedAt
  kept.drop (kept.length - maxStoredEvents)

/-- An announce makes the connection the owner of its pair; `server.rs:667–680`. -/
def Hub.trackPresence (s : Hub X) (id : Nat) (event : NostrEvent) : Hub X :=
  match presenceOf X event with
  | none => s
  | some (room, device) =>
    let s' := { s with presence := insertPresence s.presence room device ⟨id, event⟩ }
    s'.modifyConn id fun c ↦
      if (room, device) ∈ c.present then c
      else { c with present := c.present ++ [(room, device)] }

/-- `["EVENT", event]`; `server.rs:634–708`. -/
def Hub.handleEvent (s : Hub X) (id : Nat) (arr : List Value) (now : Nat) :
    Hub X × List (Nat × Frame) :=
  match arr[1]? with
  | none => (s, [])
  | some value =>
    match X.decodeEvent value with
    | none => (s, [])
    | some event =>
      let answer (accepted : Bool) (text : String) : List (Nat × Frame) :=
        if id ∈ s.conns then [(id, .ok event.id accepted text)] else []
      if ¬ event.verify X then (s, answer false "invalid: bad signature")
      else
        let s₁ := s.trackPresence id event
        let s₂ :=
          if isStoredKind event.kind then
            { s₁ with stored := prune (s₁.stored ++ [⟨now, event⟩]) now }
          else s₁
        (s₂, fanout s₂.conns value event ++ answer true "")

/-- `["CLOSE", subid]`; `server.rs:700–708`. -/
def Hub.handleClose (s : Hub X) (id : Nat) (arr : List Value) : Hub X :=
  match arr[1]?.bind Value.asStr with
  | none => s
  | some subid => s.modifyConn id fun c ↦ { c with subs := c.subs.erase subid }

/-- A text from a connection; `server.rs:497–535`. Whether the connection may stay. -/
def Hub.onClientMessage (s : Hub X) (id : Nat) (txt : String) (now : Nat) :
    Hub X × List (Nat × Frame) × Bool :=
  if 0 < s.limits.maxMessageBytes ∧ s.limits.maxMessageBytes < txt.utf8ByteSize % 2 ^ 32 then
    s.strike id
  else
    match X.parse txt with
    | some (.array arr) =>
      match arr.head?.bind Value.asStr with
      | some "REQ" =>
        let (s', allowed) := s.takeToken id true now
        if ¬ allowed then s'.strike id
        else ((s'.handleReq id arr).1, (s'.handleReq id arr).2, true)
      | some "EVENT" =>
        let (s', allowed) := s.takeToken id false now
        if ¬ allowed then s'.strike id
        else ((s'.handleEvent id arr now).1, (s'.handleEvent id arr now).2, true)
      | some "CLOSE" => (s.handleClose id arr, [], true)
      | _ => (s, [], true)
    | _ => (s, [], true)

/-! ### Runs -/

/-- What happens at the hub. -/
inductive Op where
  | register (ip : IpAddr) (now : Nat)
  | message (id : Nat) (txt : String) (now : Nat)
  | unregister (id : Nat) (now : UInt64)

/-- One call into the hub. -/
def Hub.step (s : Hub X) : Op → Hub X
  | .register ip now => (s.register ip now).1
  | .message id txt now => (s.onClientMessage id txt now).1
  | .unregister id now => (s.unregister id now).1

end MyOwnMesh.SignalingServer
