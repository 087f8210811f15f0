import MyOwnMesh.Identity.DeviceId
import MyOwnMesh.Lib.Delivery
import MyOwnMesh.Lib.Replay

/-!
# Acknowledged channel delivery

`crates/myownmesh-core/src/engine/reliable.rs` with the feature gate of `protocol/features.rs`
and the end of a session in `engine/mod.rs`. Frames for a peer wait in its outbox until they
are acknowledged; the receiver keeps one high-water mark for the peer. Two engines joined by
sessions are two such sides and the frames on their way between them. In every run each
direction of the pair moves as a line of acknowledged delivery does, which gives the contract
of the queue.
-/

namespace MyOwnMesh.Reliable

open Lib Lib.Replay Lib.Delivery

variable {α : Type}

/-! ### Data -/

/-- The frames of the channel plane; `protocol/mod.rs:100–142`. -/
inductive ChannelFrame (α : Type) where
  | channel (channel : String) (payload : α)
  | channelSeq (stream : UInt64) (seq : Nat) (channel : String) (payload : α)
  | channelAck (stream : UInt64) (upTo : Nat)
  deriving DecidableEq, Repr

/-- Default time an entry may wait; `reliable.rs:53`. -/
def defaultTtlMs : Nat := 60000

/-- Per-peer outbox ceiling; `reliable.rs:57`. -/
def outboxCap : Nat := 256

/-- One queued frame; `reliable.rs:60–73`. The reply handle is the number of the call that
waits on it. -/
structure Pending (α : Type) where
  seq : Nat
  channel : String
  payload : α
  expiresAt : Nat
  sent : Bool
  reply : Nat
  deriving DecidableEq, Repr

/-- The send side for one peer; `reliable.rs:77–81`. -/
structure Outbox (α : Type) where
  stream : UInt64
  nextSeq : Nat
  entries : List (Pending α)
  deriving DecidableEq, Repr

/-- A new outbox with the stream id drawn for it; `reliable.rs:84–94`. -/
def Outbox.new (random : UInt64) : Outbox α where
  stream := random ||| 1
  nextSeq := 0
  entries := []

/-- Receiver-side high-water mark; `reliable.rs:103–107`. -/
structure InboundMark where
  stream : UInt64
  lastSeq : Nat
  deriving DecidableEq, Repr

/-- What an engine keeps for one peer: the entries of `reliable_out` and `reliable_in` under
its id. -/
structure PeerSlots (α : Type) where
  peer : String
  out : Option (Outbox α)
  inMark : Option InboundMark

/-- What a call reads from outside: the clock, whether the link is up, and which frames the
transport takes. -/
structure LinkEnv (α : Type) where
  now : Nat
  up : Bool
  sends : ChannelFrame α → Bool

/-- What a call does beside changing the slots: the streams it opens, the frames it queues for
a caller, those it puts on the wire, those it hands to the channel layer and the waits it
resolves. -/
structure Effects (α : Type) where
  opened : List UInt64 := []
  queued : List (Packet UInt64 (String × α) × Nat) := []
  sent : List (ChannelFrame α) := []
  handed : List (Packet UInt64 (String × α)) := []
  replies : List (Nat × Except Error Unit) := []

/-- A call without effects. -/
def Effects.none : Effects α := {}

/-- The effects of two calls in a row. -/
def Effects.append (x y : Effects α) : Effects α where
  opened := x.opened ++ y.opened
  queued := x.queued ++ y.queued
  sent := x.sent ++ y.sent
  handed := x.handed ++ y.handed
  replies := x.replies ++ y.replies

/-- The feature flag of the acked contract; `features.rs:48`. -/
def reliableChannels : String := "reliable_channels_v1"

/-- What this build advertises in its hello; `features.rs:54–61`. -/
def advertisedFeatures : List String :=
  ["ring_topology", "generic_rpc", "typed_channels", "capabilities_update", "network_state_v1",
    reliableChannels]

/-- Whether a peer advertised a feature; `features.rs:67–69`. -/
def peerSupports (peerFeatures : List String) (feature : String) : Bool :=
  peerFeatures.any (· == feature)

/-! ### The calls -/

/-- Whether the link carries frames, and whether the peer speaks the acked contract;
`reliable.rs:145–158`. -/
def linkReady (env : LinkEnv α) (features : List String) : Option Bool :=
  if env.up then some (peerSupports features reliableChannels) else none

/-- Set `sent` on the first entry with this number. -/
def markSent (seq : Nat) : List (Pending α) → List (Pending α)
  | [] => []
  | e :: rest => if e.seq = seq then { e with sent := true } :: rest else e :: markSent seq rest

/-- The sending loop; `reliable.rs:187–231`. It stops at the first frame that does not leave. -/
def flushLoop (env : LinkEnv α) (ackedPeer : Bool) (stream : UInt64) :
    List (Nat × String × α) → PeerSlots α → PeerSlots α × Effects α
  | [], s => (s, .none)
  | (seq, channel, payload) :: rest, s =>
    let msg : ChannelFrame α :=
      if ackedPeer then .channelSeq stream seq channel payload else .channel channel payload
    if env.sends msg then
      match s.out with
      | none => (s, { sent := [msg] })
      | some outbox =>
        if ackedPeer then
          let marked := { s with
            out := some { outbox with entries := markSent seq outbox.entries } }
          let (s', eff) := flushLoop env ackedPeer stream rest marked
          (s', .append { sent := [msg] } eff)
        else
          -- Best-effort degradation: sent counts as delivered.
          let resolved := { s with
            out := some { outbox with entries := outbox.entries.eraseP (·.seq == seq) } }
          let replies :=
            ((outbox.entries.find? (·.seq == seq)).map fun e ↦ (e.reply, .ok ())).toList
          let (s', eff) := flushLoop env ackedPeer stream rest resolved
          (s', .append { sent := [msg], replies := replies } eff)
    else (s, .none)

/-- Drain the unsent entries onto the wire, in order; `reliable.rs:164–233`. -/
def flushPeer (env : LinkEnv α) (features : List String) (s : PeerSlots α) :
    PeerSlots α × Effects α :=
  match linkReady env features with
  | none => (s, .none)
  | some ackedPeer =>
    match s.out with
    | none => (s, .none)
    | some outbox =>
      let toSend := (outbox.entries.filter (!·.sent)).map fun e ↦ (e.seq, e.channel, e.payload)
      flushLoop env ackedPeer outbox.stream toSend s

/-- Queue a frame for acknowledged delivery and try to flush; `reliable.rs:112–141`. `random`
is what a new outbox would draw its stream from, `reply` the call that waits. -/
def enqueue (env : LinkEnv α) (features : List String) (s : PeerSlots α) (random : UInt64)
    (channel : String) (payload : α) (ttlMs : Option Nat) (reply : Nat) :
    PeerSlots α × Effects α :=
  let opened := if s.out.isNone then [(Outbox.new (α := α) random).stream] else []
  let outbox := s.out.getD (Outbox.new random)
  if outboxCap ≤ outbox.entries.length then
    ({ s with out := some outbox },
      { opened := opened
        replies := [(reply, .error (.transport ("reliable outbox for " ++ s.peer ++ " is full (" ++
          toString outboxCap ++ " frames pending)")))] })
  else
    let seq := outbox.nextSeq + 1
    let entry : Pending α :=
      { seq := seq, channel := channel, payload := payload,
        expiresAt := env.now + ttlMs.getD defaultTtlMs, sent := false, reply := reply }
    let queued := { s with
      out := some { outbox with nextSeq := seq, entries := outbox.entries ++ [entry] } }
    let (s', eff) := flushPeer env features queued
    (s', .append
      { opened := opened
        queued := [(⟨outbox.stream, seq, (channel, payload)⟩, reply)] } eff)

/-- Inbound `channel_seq`: deliver exactly once, ack cumulatively; `reliable.rs:236–278`. -/
def onChannelSeq (env : LinkEnv α) (s : PeerSlots α) (stream : UInt64) (seq : Nat)
    (channel : String) (payload : α) : PeerSlots α × Effects α :=
  let known := s.inMark.getD ⟨0, 0⟩
  let mark : InboundMark := if known.stream ≠ stream then ⟨stream, 0⟩ else known
  let deliver := !decide (seq ≤ mark.lastSeq)
  let mark := if deliver then { mark with lastSeq := seq } else mark
  let ack : ChannelFrame α := .channelAck stream mark.lastSeq
  ({ s with inMark := some mark },
    { handed := if deliver then [⟨stream, seq, (channel, payload)⟩] else []
      sent := if env.sends ack then [ack] else [] })

/-- Inbound cumulative ack; `reliable.rs:282–309`. -/
def onChannelAck (s : PeerSlots α) (stream : UInt64) (upTo : Nat) : PeerSlots α × Effects α :=
  match s.out with
  | none => (s, .none)
  | some outbox =>
    if outbox.stream ≠ stream then (s, .none)
    else
      let done := outbox.entries.takeWhile (·.seq ≤ upTo)
      let rest := outbox.entries.dropWhile (·.seq ≤ upTo)
      ({ s with out := if rest.isEmpty then none else some { outbox with entries := rest } },
        { replies := done.map fun e ↦ (e.reply, .ok ()) })

/-- Session rebuild; `reliable.rs:315–322`. -/
def markUnsent (s : PeerSlots α) : PeerSlots α × Effects α :=
  ({ s with out := s.out.map fun outbox ↦
      { outbox with entries := outbox.entries.map ({ · with sent := false }) } }, .none)

/-- Terminal failure; `reliable.rs:327–346`. -/
def failPeer (s : PeerSlots α) (reason : String) : PeerSlots α × Effects α :=
  match s.out with
  | none => (s, .none)
  | some outbox =>
    ({ s with out := none },
      { replies := outbox.entries.map fun e ↦
          (e.reply, .error (.transport ("reliable send to " ++ s.peer ++ " abandoned: " ++
            reason))) })

/-- State-watch tick for one outbox; `reliable.rs:350–386`. -/
def tick (env : LinkEnv α) (features : List String) (s : PeerSlots α) :
    PeerSlots α × Effects α :=
  match s.out with
  | none => (s, .none)
  | some outbox =>
    let expired := outbox.entries.filter (·.expiresAt ≤ env.now)
    let kept := outbox.entries.filter fun e ↦ !decide (e.expiresAt ≤ env.now)
    let swept := { s with
      out := if kept.isEmpty then none else some { outbox with entries := kept } }
    let replies := expired.map fun e ↦
      (e.reply, .error (.transport ("reliable send to " ++ s.peer ++ " expired before delivery")))
    let (s', eff) := if kept.any (!·.sent) then flushPeer env features swept else (swept, .none)
    (s', .append { replies := replies } eff)

/-! ### Two engines -/

/-- One engine of the pair: its slots for the other, its frames that are still on their way,
how many calls queued a frame, and what happened so far. -/
structure Side (α : Type) where
  slots : PeerSlots α
  wire : List (ChannelFrame α)
  calls : Nat
  streams : List UInt64
  queued : List (Packet UInt64 (String × α) × Nat)
  handed : List (Packet UInt64 (String × α))
  plain : List (String × α)
  replies : List (Nat × Except Error Unit)

/-- An engine that has not sent anything to the other. -/
def Side.start (peer : String) : Side α where
  slots := ⟨peer, none, none⟩
  wire := []
  calls := 0
  streams := []
  queued := []
  handed := []
  plain := []
  replies := []

/-- The outcome of a call. -/
def Side.after (x : Side α) (r : PeerSlots α × Effects α) : Side α :=
  { x with
    slots := r.1
    wire := x.wire ++ r.2.sent
    streams := x.streams ++ r.2.opened
    queued := x.queued ++ r.2.queued
    handed := x.handed ++ r.2.handed
    replies := x.replies ++ r.2.replies }

/-- The two engines. -/
abbrev Pair (α : Type) := Bool → Side α

/-- Replace one of the two. -/
def Pair.set (s : Pair α) (i : Bool) (x : Side α) : Pair α := Function.update s i x

/-- Two engines that have not met. -/
def Pair.start (peers : Bool → String) : Pair α := fun i ↦ .start (peers i)

/-- One step of the pair: a call on one side, the arrival there of the next frame, or the end
of the session as that side sees it, with the tail of its frames that is lost. The reason of a
terminal end is given, a recoverable one has none (`mod.rs:3543–3565`). -/
inductive PairOp (α : Type) where
  | enqueue (i : Bool) (random : UInt64) (channel : String) (payload : α) (ttlMs : Option Nat)
  | flushPeer (i : Bool)
  | tick (i : Bool)
  | arrive (i : Bool)
  | sessionEnd (i : Bool) (reason : Option String) (kept : Nat)

/-- A frame arrives; `mod.rs:2794–2805`. -/
def Side.onFrame (env : LinkEnv α) (x : Side α) : ChannelFrame α → Side α
  | .channel channel payload => { x with plain := x.plain ++ [(channel, payload)] }
  | .channelSeq stream seq channel payload =>
    x.after (onChannelSeq env x.slots stream seq channel payload)
  | .channelAck stream upTo => x.after (onChannelAck x.slots stream upTo)

/-- The state after one step. Both engines advertise what this build advertises. -/
def pairStep (s : Pair α) (o : LinkEnv α × PairOp α) : Pair α :=
  match o.2 with
  | .enqueue i random channel payload ttlMs =>
    let x := s i
    s.set i (Side.after { x with calls := x.calls + 1 }
      (enqueue o.1 advertisedFeatures x.slots random channel payload ttlMs x.calls))
  | .flushPeer i => s.set i ((s i).after (flushPeer o.1 advertisedFeatures (s i).slots))
  | .tick i => s.set i ((s i).after (tick o.1 advertisedFeatures (s i).slots))
  | .arrive i =>
    match (s !i).wire with
    | [] => s
    | f :: rest => (s.set (!i) { s !i with wire := rest }).set i ((s i).onFrame o.1 f)
  | .sessionEnd i reason kept =>
    let x := { s i with wire := (s i).wire.take kept }
    match reason with
    | none => s.set i (x.after (markUnsent x.slots))
    | some why => s.set i (x.after (failPeer x.slots why))

/-- The stream a new outbox draws was never drawn before on that side. -/
def FreshStream (s : Pair α) (o : LinkEnv α × PairOp α) : Prop :=
  match o.2 with
  | .enqueue i random _ _ _ =>
    (s i).slots.out = none → (Outbox.new (α := α) random).stream ∉ (s i).streams
  | _ => True

/-! ### The two directions as lines -/

/-- The slot of an entry. -/
def Pending.slot (e : Pending α) : Slot Nat (String × α) :=
  ⟨e.seq, (e.channel, e.payload), e.reply, e.sent⟩

/-- The box of an outbox. -/
def Outbox.box (b : Outbox α) : Box UInt64 Nat (String × α) :=
  ⟨b.stream, b.nextSeq, b.entries.map Pending.slot⟩

/-- The packet of a sequenced frame. -/
def ChannelFrame.packet : ChannelFrame α → Option (Packet UInt64 (String × α))
  | .channelSeq stream seq name payload => some ⟨stream, seq, (name, payload)⟩
  | _ => none

/-- The content of an acknowledgement. -/
def ChannelFrame.ack : ChannelFrame α → Option (UInt64 × Nat)
  | .channelAck stream upTo => some (stream, upTo)
  | _ => none

/-- The direction from one engine to the other. -/
def line (x y : Side α) : Line UInt64 Nat (String × α) where
  box := x.slots.out.map Outbox.box
  flight := x.wire.filterMap ChannelFrame.packet
  mark := y.slots.inMark.map fun m ↦ (m.stream, m.lastSeq)
  acks := y.wire.filterMap ChannelFrame.ack
  streams := x.streams
  queued := x.queued
  seen := y.handed
  callers := List.range x.calls
  verdicts := x.replies.map fun r ↦ (r.1, r.2.isOk)

/-! ### Flushing -/

/-- The first entry with a number that no entry before it has. -/
private theorem markSent_append {seq : Nat} {before after : List (Pending α)} {e : Pending α}
    (hne : ∀ x ∈ before, x.seq ≠ seq) (he : e.seq = seq) :
    markSent seq (before ++ e :: after) = before ++ { e with sent := true } :: after := by
  induction before with
  | nil => simp [markSent, he]
  | cons x rest ih =>
    have hx : x.seq ≠ seq := hne x (by simp)
    rw [List.cons_append, markSent, if_neg hx, ih fun y hy ↦ hne y (by simp [hy])]
    rfl

/-- The loop over the unsent entries sends some of them, in order. -/
private theorem flushLoop_spec (env : LinkEnv α) (s : PeerSlots α) (stream : UInt64) (n : Nat)
    {before after : List (Pending α)}
    (horder : (before ++ after).Pairwise fun x y ↦ x.seq < y.seq) :
    ∃ k, flushLoop env true stream (after.map fun e ↦ (e.seq, e.channel, e.payload))
        { s with out := some ⟨stream, n, before ++ after⟩ } =
      ({ s with out := some ⟨stream, n,
          before ++ (after.take k).map ({ · with sent := true }) ++ after.drop k⟩ },
        { sent := (after.take k).map fun e ↦ .channelSeq stream e.seq e.channel e.payload }) := by
  induction after generalizing before with
  | nil => exact ⟨0, by simp [flushLoop, Effects.none]⟩
  | cons e rest ih =>
    by_cases hsend : env.sends (.channelSeq stream e.seq e.channel e.payload) = true
    · have hne : ∀ x ∈ before, x.seq ≠ e.seq := by
        intro x hx
        exact Nat.ne_of_lt ((List.pairwise_append.mp horder).2.2 x hx e (by simp))
      have hnext : ((before ++ [{ e with sent := true }]) ++ rest).Pairwise
          fun x y : Pending α ↦ x.seq < y.seq := by
        simp only [List.append_assoc, List.singleton_append]
        simp only [List.pairwise_append, List.pairwise_cons, List.mem_cons] at horder ⊢
        obtain ⟨hbefore, hrest, hcross⟩ := horder
        refine ⟨hbefore, hrest, fun x hx y hy ↦ ?_⟩
        rcases hy with rfl | hy
        · exact hcross x hx e (.inl rfl)
        · exact hcross x hx y (.inr hy)
      obtain ⟨k, hk⟩ := ih hnext
      refine ⟨k + 1, ?_⟩
      simp only [List.append_assoc, List.singleton_append] at hk
      simp only [List.map_cons, flushLoop, hsend, ↓reduceIte, markSent_append hne rfl, hk,
        List.take_succ_cons, List.drop_succ_cons, Effects.append, List.nil_append,
        List.append_assoc, List.cons_append]
    · refine ⟨0, ?_⟩
      simp [flushLoop, hsend, Effects.none]

/-- Where the unsent entries come last, they are the tail of the queue. -/
private theorem split_unsent {entries : List (Pending α)}
    (h : entries.Pairwise fun x y ↦ y.sent = true → x.sent = true) :
    ∃ before after, entries = before ++ after ∧ (∀ e ∈ before, e.sent = true) ∧
      (∀ e ∈ after, e.sent = false) ∧ entries.filter (!·.sent) = after := by
  induction entries with
  | nil => exact ⟨[], [], rfl, by simp, by simp, rfl⟩
  | cons e rest ih =>
    rw [List.pairwise_cons] at h
    cases hsent : e.sent with
    | true =>
      obtain ⟨before, after, rfl, hbefore, hafter, hfilter⟩ := ih h.2
      refine ⟨e :: before, after, rfl, ?_, hafter, ?_⟩
      · intro x hx
        rcases List.mem_cons.mp hx with rfl | hx
        · exact hsent
        · exact hbefore x hx
      · rw [List.filter_cons_of_neg (by simp [hsent]), hfilter]
    | false =>
      have hall : ∀ x ∈ e :: rest, x.sent = false := by
        intro x hx
        rcases List.mem_cons.mp hx with rfl | hx
        · exact hsent
        · refine Bool.eq_false_iff.mpr fun hx' ↦ ?_
          rw [h.1 x hx hx'] at hsent
          cases hsent
      refine ⟨[], e :: rest, rfl, by simp, hall, ?_⟩
      exact List.filter_eq_self.mpr fun x hx ↦ by simp [hall x hx]

/-- Both engines speak the acked contract. -/
theorem peerSupports_advertised : peerSupports advertisedFeatures reliableChannels = true := by
  decide

/-- What a flush does to an outbox whose entries are in order with the unsent ones last. -/
private theorem flushPeer_spec (env : LinkEnv α) (s : PeerSlots α) :
    (s.out = none → flushPeer env advertisedFeatures s = (s, .none)) ∧
      ∀ b, s.out = some b → b.entries.Pairwise (fun x y ↦ x.seq < y.seq) →
        b.entries.Pairwise (fun x y ↦ y.sent = true → x.sent = true) →
        ∃ before after k, b.entries = before ++ after ∧ (∀ e ∈ before, e.sent = true) ∧
          (∀ e ∈ after, e.sent = false) ∧
          flushPeer env advertisedFeatures s =
            ({ s with out := some ⟨b.stream, b.nextSeq,
                before ++ (after.take k).map ({ · with sent := true }) ++ after.drop k⟩ },
              { sent := (after.take k).map fun e ↦
                  .channelSeq b.stream e.seq e.channel e.payload }) := by
  refine ⟨fun hout ↦ ?_, fun b hout horder hsent ↦ ?_⟩
  · cases hup : env.up <;> simp [flushPeer, linkReady, hup, hout]
  · obtain ⟨before, after, heq, hbefore, hafter, hfilter⟩ := split_unsent hsent
    cases hup : env.up with
    | false =>
      refine ⟨before, after, 0, heq, hbefore, hafter, ?_⟩
      simp only [flushPeer, linkReady, hup, Bool.false_eq_true, ↓reduceIte, List.take_zero,
        List.map_nil, List.append_nil, List.drop_zero, ← heq]
      rw [← hout]
      rfl
    | true =>
      rw [heq] at horder
      obtain ⟨k, hk⟩ := flushLoop_spec env s b.stream b.nextSeq horder
      refine ⟨before, after, k, heq, hbefore, hafter, ?_⟩
      have hs : { s with out := some ⟨b.stream, b.nextSeq, before ++ after⟩ } = s := by
        rw [← heq, ← hout]
      rw [hs] at hk
      simp only [flushPeer, linkReady, hup, ↓reduceIte, peerSupports_advertised, hout, hfilter, hk]

/-- A call of the send side: the mark stays, nothing is handed on, and every frame it sends
is sequenced. -/
structure SendsOnly (s : PeerSlots α) (r : PeerSlots α × Effects α) : Prop where
  inMark : r.1.inMark = s.inMark
  handed : r.2.handed = []
  sent : ∀ f ∈ r.2.sent, f.packet.isSome = true

/-- Doing nothing sends nothing. -/
theorem SendsOnly.none (s : PeerSlots α) : SendsOnly s (s, .none) :=
  ⟨rfl, rfl, fun f hf ↦ by cases hf⟩

/-- A first half that sends nothing itself. -/
theorem SendsOnly.append {s t : PeerSlots α} {r : PeerSlots α × Effects α} (h : SendsOnly t r)
    (hmark : t.inMark = s.inMark) {d : Effects α} (hhanded : d.handed = [])
    (hsent : ∀ f ∈ d.sent, f.packet.isSome = true) : SendsOnly s (r.1, d.append r.2) := by
  refine ⟨h.inMark.trans hmark, ?_, fun f hf ↦ ?_⟩
  · simp [Effects.append, hhanded, h.handed]
  · rcases List.mem_append.mp hf with hf | hf
    · exact hsent f hf
    · exact h.sent f hf

private theorem sendsOnly_flushLoop (env : LinkEnv α) (stream : UInt64)
    (batch : List (Nat × String × α)) (s : PeerSlots α) :
    SendsOnly s (flushLoop env true stream batch s) := by
  induction batch generalizing s with
  | nil => exact .none s
  | cons m rest ih =>
    obtain ⟨seq, channel, payload⟩ := m
    simp only [flushLoop, ↓reduceIte]
    split
    · split
      · exact ⟨rfl, rfl, by simp [ChannelFrame.packet]⟩
      · apply (ih _).append
        · rfl
        · rfl
        · simp [ChannelFrame.packet]
    · exact .none s

/-- A flush only sends. -/
theorem sendsOnly_flushPeer (env : LinkEnv α) (s : PeerSlots α) :
    SendsOnly s (flushPeer env advertisedFeatures s) := by
  unfold flushPeer linkReady
  rw [peerSupports_advertised]
  cases env.up with
  | false => exact .none s
  | true =>
    simp only [↓reduceIte]
    split
    · exact .none s
    · exact sendsOnly_flushLoop env _ _ s

/-- So does a call that queues a frame. -/
theorem sendsOnly_enqueue (env : LinkEnv α) (s : PeerSlots α) (random : UInt64)
    (channel : String) (payload : α) (ttlMs : Option Nat) (reply : Nat) :
    SendsOnly s (enqueue env advertisedFeatures s random channel payload ttlMs reply) := by
  unfold enqueue
  simp only
  split
  · exact ⟨rfl, rfl, fun f hf ↦ by cases hf⟩
  · apply (sendsOnly_flushPeer env _).append
    · rfl
    · rfl
    · exact fun f hf ↦ by cases hf

/-- And the tick. -/
theorem sendsOnly_tick (env : LinkEnv α) (s : PeerSlots α) :
    SendsOnly s (tick env advertisedFeatures s) := by
  unfold tick
  split
  · exact .none s
  · simp only
    split
    · apply (sendsOnly_flushPeer env _).append
      · rfl
      · rfl
      · exact fun f hf ↦ by cases hf
    · apply (SendsOnly.none _).append
      · rfl
      · rfl
      · exact fun f hf ↦ by cases hf

/-- An acknowledgement sends nothing, and neither does the end of a session. -/
theorem sendsOnly_onChannelAck (s : PeerSlots α) (stream : UInt64) (upTo : Nat) :
    SendsOnly s (onChannelAck s stream upTo) := by
  unfold onChannelAck
  split
  · exact .none s
  · split
    · exact .none s
    · exact ⟨rfl, rfl, fun f hf ↦ by cases hf⟩

theorem sendsOnly_markUnsent (s : PeerSlots α) : SendsOnly s (markUnsent s) :=
  ⟨rfl, rfl, fun f hf ↦ by cases hf⟩

theorem sendsOnly_failPeer (s : PeerSlots α) (why : String) : SendsOnly s (failPeer s why) := by
  unfold failPeer
  split
  · exact .none s
  · exact ⟨rfl, rfl, fun f hf ↦ by cases hf⟩

/-- The direction towards a side does not see its sending calls. -/
theorem SendsOnly.line_eq {y : Side α} {r : PeerSlots α × Effects α} (h : SendsOnly y.slots r)
    (x : Side α) : line x (y.after r) = line x y := by
  have hacks : r.2.sent.filterMap ChannelFrame.ack = [] := by
    rw [List.filterMap_eq_nil_iff]
    intro f hf
    have hp := h.sent f hf
    cases f with
    | channel name payload => cases hp
    | channelSeq stream seq name payload => rfl
    | channelAck stream upTo => cases hp
  simp [line, Side.after, h.inMark, h.handed, hacks]

/-! ### The moves of the sending side -/

/-- A call without effects changes nothing. -/
theorem after_none (x : Side α) : x.after (x.slots, .none) = x := by
  simp [Side.after, Effects.none]

/-- The packets of the frames that a flush sends. -/
private theorem packets_frames (stream : UInt64) (entries : List (Pending α)) :
    (entries.map fun e ↦ ChannelFrame.channelSeq stream e.seq e.channel e.payload).filterMap
      ChannelFrame.packet = (entries.map Pending.slot).map (Slot.packet stream) := by
  induction entries with
  | nil => rfl
  | cons e rest ih => simpa [ChannelFrame.packet, Pending.slot, Slot.packet] using ih

/-- A flush puts some packets on the line. -/
theorem moves_flushPeer (env : LinkEnv α) {x y : Side α} (h : Inv (line x y)) :
    Moves (line x y) (line (x.after (flushPeer env advertisedFeatures x.slots)) y) := by
  obtain ⟨hnone, hsome⟩ := flushPeer_spec env x.slots
  cases hout : x.slots.out with
  | none =>
    rw [hnone hout, after_none]
  | some b =>
    have hbox : (line x y).box = some b.box := by simp [line, hout]
    have hb := h.box b.box hbox
    have horder : b.entries.Pairwise fun e f ↦ e.seq < f.seq := by
      have := hb.order
      rwa [Outbox.box, List.pairwise_map] at this
    have hsent : b.entries.Pairwise fun e f ↦ f.sent = true → e.sent = true := by
      have := hb.sentFirst
      rwa [Outbox.box, List.pairwise_map] at this
    obtain ⟨before, after, k, heq, hbefore, hafter, hflush⟩ := hsome b hout horder hsent
    have hmoves := moves_transmit (l := line x y) (s := b.stream) (n := b.nextSeq) k
      (before.map Pending.slot) (after.map Pending.slot)
      (by rw [hbox, Outbox.box, heq, List.map_append])
      (by
        intro e he
        obtain ⟨a, ha, rfl⟩ := List.mem_map.mp he
        exact hbefore a ha)
      (by
        intro e he
        obtain ⟨a, ha, rfl⟩ := List.mem_map.mp he
        exact hafter a ha)
    rw [hflush]
    convert hmoves using 1
    simp only [line, Side.after, List.filterMap_append, packets_frames, List.append_nil,
      ← List.map_take, ← List.map_drop, Option.map_some, Outbox.box, List.map_append, List.map_map]
    rfl

/-- Queueing a frame in an open outbox queues the packet or turns the caller away, and
flushes. -/
private theorem moves_enqueue_open (env : LinkEnv α) {x y : Side α} (h : Inv (line x y))
    {b : Outbox α} (hout : x.slots.out = some b) (random : UInt64) (channel : String) (payload : α)
    (ttlMs : Option Nat) :
    Moves (line x y) (line (Side.after { x with calls := x.calls + 1 }
      (enqueue env advertisedFeatures x.slots random channel payload ttlMs x.calls)) y) := by
  have hnew : x.calls ∉ (line x y).callers := by simp [line]
  by_cases hcap : outboxCap ≤ b.entries.length
  · convert Relation.ReflTransGen.single (Move.refuse (l := line x y) x.calls hnew) using 1
    simp [enqueue, hout, hcap, line, Side.after, List.range_succ, Except.isOk, Except.toBool]
  · let queued : Side α := { x with
      slots := { x.slots with out := some ⟨b.stream, b.nextSeq + 1, b.entries ++
        [⟨b.nextSeq + 1, channel, payload, env.now + ttlMs.getD defaultTtlMs, false, x.calls⟩]⟩ }
      queued := x.queued ++ [(⟨b.stream, b.nextSeq + 1, (channel, payload)⟩, x.calls)]
      calls := x.calls + 1 }
    have hpush : Move (line x y) (line queued y) := by
      convert Move.push (l := line x y) b.box x.calls (channel, payload) (by simp [line, hout])
        hnew using 1
      simp [queued, line, Outbox.box, Pending.slot, List.range_succ]
    have hflush := moves_flushPeer env (h.move hpush)
    have heq : Side.after { x with calls := x.calls + 1 }
        (enqueue env advertisedFeatures x.slots random channel payload ttlMs x.calls) =
        queued.after (flushPeer env advertisedFeatures queued.slots) := by
      simp [queued, enqueue, hout, hcap, Side.after, Effects.append]
    rw [heq]
    exact .head hpush hflush

/-- Queueing a frame opens a box where there is none, queues the packet or turns the caller
away, and flushes. -/
theorem moves_enqueue (env : LinkEnv α) {x y : Side α} (h : Inv (line x y)) (random : UInt64)
    (channel : String) (payload : α) (ttlMs : Option Nat)
    (hfresh : x.slots.out = none → (Outbox.new (α := α) random).stream ∉ x.streams) :
    Moves (line x y) (line (Side.after { x with calls := x.calls + 1 }
      (enqueue env advertisedFeatures x.slots random channel payload ttlMs x.calls)) y) := by
  -- The side with an outbox in place.
  obtain ⟨b, x₁, hx₁, hopen, hstep⟩ : ∃ (b : Outbox α) (x₁ : Side α),
      x₁.slots.out = some b ∧ Moves (line x y) (line x₁ y) ∧
      Side.after { x with calls := x.calls + 1 }
        (enqueue env advertisedFeatures x.slots random channel payload ttlMs x.calls) =
      Side.after { x₁ with calls := x₁.calls + 1 }
        (enqueue env advertisedFeatures x₁.slots random channel payload ttlMs x₁.calls) := by
    cases hout : x.slots.out with
    | some b => exact ⟨b, x, hout, .refl, rfl⟩
    | none =>
      refine ⟨.new random, { x with
        slots := { x.slots with out := some (.new random) }
        streams := x.streams ++ [(Outbox.new (α := α) random).stream] }, rfl, ?_, ?_⟩
      · have hmove := Move.openBox (l := line x y) (Outbox.new (α := α) random).stream
          (by simp [line, hout]) (hfresh hout)
        exact .single hmove
      · have hcap : ¬ outboxCap ≤ (Outbox.new (α := α) random).entries.length := by
          simp [Outbox.new, outboxCap]
        simp only [enqueue, hout, Option.isNone_none, Option.isNone_some, ↓reduceIte,
          Option.getD_none, Option.getD_some, hcap, Side.after, Effects.append,
          Bool.false_eq_true, List.append_assoc, List.nil_append]
  have hinv : Inv (line x₁ y) := h.moves hopen
  rw [hstep]
  exact hopen.trans (moves_enqueue_open env hinv hx₁ random channel payload ttlMs)

/-- The end of an outbox whose entries are gone. -/
private theorem moves_close {x y : Side α} {b : Outbox α} (hout : x.slots.out = some b) :
    Moves (line x y) (line { x with slots := { x.slots with
      out := if b.entries.isEmpty then none else some b } } y) := by
  cases hempty : b.entries with
  | nil =>
    convert Relation.ReflTransGen.single (Move.closeBox (l := line x y) b.box
      (by simp [line, hout]) (by simp [Outbox.box, hempty])) using 1
    rfl
  | cons e rest =>
    have hsame : { x with slots := { x.slots with out := some b } } = x := by rw [← hout]
    simp only [List.isEmpty_cons, Bool.false_eq_true, ↓reduceIte, hsame]
    exact .refl

/-- Some entries are given up and leave the outbox. -/
private theorem move_abandon {x y : Side α} {b : Outbox α} (hout : x.slots.out = some b)
    (gone kept : List (Pending α)) (hperm : (gone ++ kept).Perm b.entries)
    (hkept : kept.Sublist b.entries) (e : Error) :
    Move (line x y) (line { x with
      slots := { x.slots with out := some { b with entries := kept } }
      replies := x.replies ++ gone.map fun g ↦ (g.reply, .error e) } y) := by
  have hslots : (gone.map Pending.slot ++ kept.map Pending.slot).Perm b.box.slots := by
    rw [← List.map_append]
    exact hperm.map Pending.slot
  convert Move.abandon (l := line x y) b.box (gone.map Pending.slot) (kept.map Pending.slot)
    (by simp [line, hout]) hslots (hkept.map Pending.slot) using 1
  simp [line, Outbox.box, Pending.slot, Function.comp_def, Except.isOk, Except.toBool]

/-- The tick gives up what has lapsed and flushes the rest. -/
theorem moves_tick (env : LinkEnv α) {x y : Side α} (h : Inv (line x y)) :
    Moves (line x y) (line (x.after (tick env advertisedFeatures x.slots)) y) := by
  cases hout : x.slots.out with
  | none =>
    have hnone : tick env advertisedFeatures x.slots = (x.slots, .none) := by simp [tick, hout]
    rw [hnone, after_none]
  | some b =>
    let kept := b.entries.filter fun e ↦ !decide (e.expiresAt ≤ env.now)
    let expired := b.entries.filter (·.expiresAt ≤ env.now)
    let lapsed : Error :=
      .transport ("reliable send to " ++ x.slots.peer ++ " expired before delivery")
    let replied : Side α := { x with
      slots := { x.slots with out := some { b with entries := kept } }
      replies := x.replies ++ expired.map fun e ↦ (e.reply, .error lapsed) }
    let swept : Side α := { replied with slots := { replied.slots with
      out := if kept.isEmpty then none else some { b with entries := kept } } }
    have hperm : (expired ++ kept).Perm b.entries := List.filter_append_perm _ b.entries
    have habandon : Move (line x y) (line replied y) :=
      move_abandon hout _ kept hperm List.filter_sublist lapsed
    have hclose : Moves (line replied y) (line swept y) :=
      moves_close (x := replied) (b := { b with entries := kept }) rfl
    have hsweep : Moves (line x y) (line swept y) := .head habandon hclose
    refine hsweep.trans ?_
    by_cases hany : kept.any (!·.sent) = true
    · have heq : x.after (tick env advertisedFeatures x.slots) =
          swept.after (flushPeer env advertisedFeatures swept.slots) := by
        simp only [tick, hout, kept, hany, ↓reduceIte] at hany ⊢
        simp only [swept, replied, kept, expired, lapsed, Side.after, Effects.append,
          List.append_assoc, List.nil_append]
      rw [heq]
      exact moves_flushPeer env (h.moves hsweep)
    · have heq : x.after (tick env advertisedFeatures x.slots) = swept := by
        simp only [tick, hout, kept] at hany ⊢
        simp only [hany, Bool.false_eq_true, ↓reduceIte, swept, replied, kept, expired, lapsed,
          Side.after, Effects.append, Effects.none, List.append_nil]
      rw [heq]

/-- An acknowledgement settles the packets it names and is used up. -/
theorem moves_onChannelAck {x y : Side α} {stream : UInt64} {upTo : Nat}
    {rest : List (ChannelFrame α)} (hwire : y.wire = .channelAck stream upTo :: rest) :
    Moves (line x y)
      (line (x.after (onChannelAck x.slots stream upTo)) { y with wire := rest }) := by
  have hforget : ∀ z : Side α, Move (line z y) (line z { y with wire := rest }) := by
    intro z
    refine Move.forget (l := line z y) (rest.filterMap ChannelFrame.ack) ?_
    simp [line, hwire, ChannelFrame.ack]
  suffices hmain : Moves (line x y) (line (x.after (onChannelAck x.slots stream upTo)) y) from
    hmain.tail (hforget _)
  cases hout : x.slots.out with
  | none =>
    have hnone : onChannelAck x.slots stream upTo = (x.slots, .none) := by
      simp [onChannelAck, hout]
    rw [hnone, after_none]
  | some b =>
    by_cases hstream : b.stream = stream
    · let settled : Side α := { x with
        slots := { x.slots with
          out := some { b with entries := b.entries.dropWhile (·.seq ≤ upTo) } }
        replies := x.replies ++ (b.entries.takeWhile (·.seq ≤ upTo)).map fun e ↦
          (e.reply, .ok ()) }
      have hsettle : Move (line x y) (line settled y) := by
        convert Move.settle (l := line x y) b.box upTo (by simp [line, hout])
          (by simp [line, hwire, ChannelFrame.ack, Outbox.box, hstream]) using 1
        simp [settled, line, Outbox.box, List.takeWhile_map, List.dropWhile_map, Pending.slot,
          Function.comp_def, Except.isOk, Except.toBool]
        exact ⟨rfl, rfl⟩
      refine .head hsettle ?_
      have hclose := moves_close (x := settled) (y := y)
        (b := { b with entries := b.entries.dropWhile (·.seq ≤ upTo) }) rfl
      convert hclose using 2
      simp [onChannelAck, hout, hstream, Side.after, settled]
    · have hnone : onChannelAck x.slots stream upTo = (x.slots, .none) := by
        simp [onChannelAck, hout, hstream]
      rw [hnone, after_none]

/-- Losing the tail of the frames loses a tail of the packets. -/
private theorem filterMap_take_prefix {β : Type} (f : ChannelFrame α → Option β)
    (wire : List (ChannelFrame α)) (kept : Nat) :
    ∃ k, (wire.take kept).filterMap f = (wire.filterMap f).take k := by
  refine ⟨((wire.take kept).filterMap f).length, ?_⟩
  have hprefix : (wire.take kept).filterMap f <+: wire.filterMap f :=
    (List.take_prefix kept wire).filterMap f
  exact List.prefix_iff_eq_take.mp hprefix

/-- A recoverable end. -/
theorem moves_markUnsent (x y : Side α) (kept : Nat) :
    Moves (line x y)
      (line (Side.after { x with wire := x.wire.take kept } (markUnsent x.slots)) y) := by
  obtain ⟨k, hk⟩ := filterMap_take_prefix ChannelFrame.packet x.wire kept
  convert Relation.ReflTransGen.single (Move.rewind (l := line x y) k) using 1
  simp [line, Side.after, markUnsent, Effects.none, hk, Outbox.box, Pending.slot,
    Function.comp_def]

/-- A terminal end. -/
theorem moves_failPeer (x y : Side α) (why : String) (kept : Nat) :
    Moves (line x y)
      (line (Side.after { x with wire := x.wire.take kept } (failPeer x.slots why)) y) := by
  cases hout : x.slots.out with
  | none =>
    have hsame : failPeer x.slots why = markUnsent x.slots := by
      simp only [failPeer, markUnsent, hout, Option.map_none]
      rw [← hout]
    rw [hsame]
    exact moves_markUnsent x y kept
  | some b =>
    let failed : Side α := { x with
      slots := { x.slots with out := none }
      replies := x.replies ++ b.entries.map fun e ↦ (e.reply, .error (.transport
        ("reliable send to " ++ x.slots.peer ++ " abandoned: " ++ why))) }
    have habandon := move_abandon (y := y) hout b.entries [] (by simp)
      (List.nil_sublist _) (.transport
        ("reliable send to " ++ x.slots.peer ++ " abandoned: " ++ why))
    have hclose : Moves _ (line failed y) := moves_close (y := y) (x := { x with
      slots := { x.slots with out := some { b with entries := [] } }
      replies := failed.replies }) (b := { b with entries := [] }) rfl
    have hlose := moves_markUnsent failed y kept
    refine .head habandon (hclose.trans ?_)
    convert hlose using 2
    simp [failPeer, markUnsent, hout, failed, Side.after, Effects.none]

/-! ### The moves of the receiving side -/

/-- What a sequenced frame does to the mark and the hand-overs. -/
private theorem onChannelSeq_spec (env : LinkEnv α) (s : PeerSlots α) (stream : UInt64)
    (seq : Nat) (channel : String) (payload : α) {last : Nat}
    (hlast : lastSeen (s.inMark.map fun m ↦ (m.stream, m.lastSeq)) stream = last) :
    onChannelSeq env s stream seq channel payload =
      ({ s with inMark := some ⟨stream, max last seq⟩ },
        { handed := if seq ≤ last then [] else [⟨stream, seq, (channel, payload)⟩]
          sent := if env.sends (.channelAck stream (max last seq)) then
            [.channelAck stream (max last seq)] else [] }) := by
  have hmark : (if (s.inMark.getD ⟨0, 0⟩).stream ≠ stream then (⟨stream, 0⟩ : InboundMark)
      else s.inMark.getD ⟨0, 0⟩) = ⟨stream, last⟩ := by
    subst hlast
    cases s.inMark with
    | none =>
      by_cases h0 : (0 : UInt64) = stream
      · simp [lastSeen, h0]
      · simp [lastSeen, h0]
    | some m =>
      by_cases hs : m.stream = stream
      · simp [lastSeen, ← hs]
      · simp [lastSeen, hs]
  by_cases hle : seq ≤ last
  · simp [onChannelSeq, hmark, hle]
  · have hmax : max last seq = seq := by omega
    simp [onChannelSeq, hmark, hle, hmax]

/-- A sequenced frame arrives: the packet leaves the line, and it may be acknowledged. -/
theorem moves_onChannelSeq (env : LinkEnv α) {x y : Side α} {stream : UInt64} {seq : Nat}
    {channel : String} {payload : α} {rest : List (ChannelFrame α)}
    (hwire : y.wire = .channelSeq stream seq channel payload :: rest) :
    Moves (line y x) (line { y with wire := rest }
      (x.after (onChannelSeq env x.slots stream seq channel payload))) := by
  obtain ⟨last, hlast⟩ : ∃ last,
      lastSeen (x.slots.inMark.map fun m ↦ (m.stream, m.lastSeq)) stream = last := ⟨_, rfl⟩
  rw [onChannelSeq_spec env x.slots stream seq channel payload hlast]
  let received : Side α := { x with
    slots := { x.slots with inMark := some ⟨stream, max last seq⟩ }
    handed := x.handed ++ if seq ≤ last then [] else [⟨stream, seq, (channel, payload)⟩] }
  have hreceive : Move (line y x) (line { y with wire := rest } received) := by
    convert Move.receive (l := line y x) ⟨stream, seq, (channel, payload)⟩
      (rest.filterMap ChannelFrame.packet) (by simp [line, hwire, ChannelFrame.packet]) using 1
    by_cases hle : seq ≤ last
    · simp [line, received, hlast, hle]
    · simp [line, received, hlast, hle]
  refine .head hreceive ?_
  by_cases hsend : env.sends (.channelAck stream (max last seq)) = true
  · convert Relation.ReflTransGen.single (Move.acknowledge
      (l := line { y with wire := rest } received) (stream, max last seq)
      (by simp [line, received])) using 1
    simp [line, Side.after, received, hsend, ChannelFrame.ack]
  · have hsame : line { y with wire := rest } (x.after
        ({ x.slots with inMark := some ⟨stream, max last seq⟩ },
          { handed := if seq ≤ last then [] else [⟨stream, seq, (channel, payload)⟩]
            sent := if env.sends (.channelAck stream (max last seq)) then
              [.channelAck stream (max last seq)] else [] })) =
        line { y with wire := rest } received := by
      simp [line, Side.after, received, hsend]
    rw [hsame]

/-- The direction from a side does not see a sequenced frame arrive there. -/
theorem line_onChannelSeq (env : LinkEnv α) {x y : Side α} {stream : UInt64} {seq : Nat}
    {channel : String} {payload : α} {rest : List (ChannelFrame α)}
    (hwire : y.wire = .channelSeq stream seq channel payload :: rest) :
    line (x.after (onChannelSeq env x.slots stream seq channel payload)) { y with wire := rest } =
      line x y := by
  have hacks : rest.filterMap ChannelFrame.ack = y.wire.filterMap ChannelFrame.ack := by
    rw [hwire]
    rfl
  rw [onChannelSeq_spec env x.slots stream seq channel payload rfl]
  split
  · simp [line, Side.after, hacks, ChannelFrame.packet]
  · simp [line, Side.after, hacks]

/-- The direction towards a side does not see an acknowledgement arrive there. -/
theorem line_onChannelAck {x y : Side α} {stream : UInt64} {upTo : Nat}
    {rest : List (ChannelFrame α)} (hwire : y.wire = .channelAck stream upTo :: rest) :
    line { y with wire := rest } (x.after (onChannelAck x.slots stream upTo)) = line y x := by
  rw [(sendsOnly_onChannelAck x.slots stream upTo).line_eq]
  have hpackets : rest.filterMap ChannelFrame.packet = y.wire.filterMap ChannelFrame.packet := by
    rw [hwire]
    rfl
  simp [line, hpackets]

/-! ### Runs of the pair -/

/-- Both directions keep the invariant of a line, and nothing but sequenced frames and
acknowledgements is ever sent. -/
structure PairInv (s : Pair α) : Prop where
  line : ∀ i, Inv (line (s i) (s !i))
  wire : ∀ i, ∀ f ∈ (s i).wire, f.packet.isSome = true ∨ f.ack.isSome = true
  plain : ∀ i, (s i).plain = []

/-- Two engines that have not met. -/
theorem pairInv_start (peers : Bool → String) : PairInv (Pair.start peers : Pair α) := by
  refine ⟨fun i ↦ ?_, fun i f hf ↦ ?_, fun i ↦ rfl⟩
  · have hempty : Reliable.line (Pair.start peers i : Side α) (Pair.start peers !i) = .empty := by
      simp [Reliable.line, Pair.start, Side.start, Line.empty]
    rw [hempty]
    exact inv_empty
  · simp [Pair.start, Side.start] at hf

/-- It is enough to look at the pair from one side. -/
theorem PairInv.of_sides {s : Pair α} (i : Bool) (hout : Inv (Reliable.line (s i) (s !i)))
    (hin : Inv (Reliable.line (s !i) (s i)))
    (hwire : ∀ j, ∀ f ∈ (s j).wire, f.packet.isSome = true ∨ f.ack.isSome = true)
    (hplain : ∀ j, (s j).plain = []) : PairInv s := by
  refine ⟨fun j ↦ ?_, hwire, hplain⟩
  by_cases hj : j = i
  · rw [hj]
    exact hout
  · rw [Bool.eq_not.mpr hj, Bool.not_not]
    exact hin

/-- A call of the send side on one of the two. -/
private theorem PairInv.call {s : Pair α} (h : PairInv s) (i : Bool) {x : Side α}
    {r : PeerSlots α × Effects α} (hsends : SendsOnly x.slots r)
    (hmoves : Moves (Reliable.line (s i) (s !i)) (Reliable.line (x.after r) (s !i)))
    (hback : Inv (Reliable.line (s !i) x)) (hwire : x.wire ⊆ (s i).wire)
    (hplain : x.plain = (s i).plain) : PairInv (s.set i (x.after r)) := by
  have hself : s.set i (x.after r) i = x.after r := Function.update_self i _ s
  have hother : s.set i (x.after r) (!i) = s !i := Function.update_of_ne (Bool.not_ne_self i) _ s
  refine .of_sides i ?_ ?_ (fun j f hf ↦ ?_) fun j ↦ ?_
  · rw [hself, hother]
    exact (h.line i).moves hmoves
  · rw [hself, hother, hsends.line_eq]
    exact hback
  · by_cases hj : j = i
    · subst hj
      rw [hself] at hf
      rcases List.mem_append.mp hf with hf | hf
      · exact h.wire j f (hwire hf)
      · exact .inl (hsends.sent f hf)
    · rw [Bool.eq_not.mpr hj, hother] at hf
      exact h.wire _ f hf
  · by_cases hj : j = i
    · subst hj
      rw [hself]
      exact hplain.trans (h.plain j)
    · rw [Bool.eq_not.mpr hj, hother]
      exact h.plain _

/-- Losing the tail of what one side sent loses some of its acknowledgements. -/
private theorem PairInv.truncated {s : Pair α} (h : PairInv s) (i : Bool) (kept : Nat) :
    Inv (Reliable.line (s !i) { s i with wire := (s i).wire.take kept }) := by
  have hback := h.line !i
  rw [Bool.not_not] at hback
  refine hback.move (Move.forget (l := Reliable.line (s !i) (s i)) _ ?_)
  exact ((List.take_sublist kept (s i).wire).filterMap ChannelFrame.ack).subset

/-- What a frame that arrives does to both directions of the line: the side it arrives at sends
nothing but acknowledgements for it. -/
private theorem PairInv.onFrame_sides {s : Pair α} (h : PairInv s) (env : LinkEnv α) (i : Bool)
    {f : ChannelFrame α} {rest : List (ChannelFrame α)} (hwire : (s !i).wire = f :: rest) :
    Inv (Reliable.line ((s i).onFrame env f) { s !i with wire := rest }) ∧
      Inv (Reliable.line { s !i with wire := rest } ((s i).onFrame env f)) ∧
      (∀ g ∈ ((s i).onFrame env f).wire, g ∈ (s i).wire ∨ g.ack.isSome = true) ∧
      ((s i).onFrame env f).plain = (s i).plain := by
  have hback := h.line !i
  rw [Bool.not_not] at hback
  have hf : f.packet.isSome = true ∨ f.ack.isSome = true := h.wire (!i) f (by simp [hwire])
  -- The frame has been sequenced or acknowledges: no plain frame is on the wire.
  cases f with
  | channel name payload => simp [ChannelFrame.packet, ChannelFrame.ack] at hf
  | channelSeq stream seq name payload =>
    refine ⟨?_, hback.moves (moves_onChannelSeq env hwire), fun g hg ↦ ?_, rfl⟩
    · rw [Side.onFrame, line_onChannelSeq env hwire]
      exact h.line i
    · rcases List.mem_append.mp hg with hg | hg
      · exact .inl hg
      · rw [onChannelSeq_spec env (s i).slots stream seq name payload rfl] at hg
        simp only at hg
        split at hg
        · rw [List.mem_singleton.mp hg]
          exact .inr rfl
        · cases hg
  | channelAck stream upTo =>
    refine ⟨(h.line i).moves (moves_onChannelAck hwire), ?_, fun g hg ↦ ?_, rfl⟩
    · rw [Side.onFrame, line_onChannelAck hwire]
      exact hback
    · rcases List.mem_append.mp hg with hg | hg
      · exact .inl hg
      · have hnone : (onChannelAck (s i).slots stream upTo).2.sent = [] := by
          unfold onChannelAck
          split
          · rfl
          · split <;> rfl
        rw [hnone] at hg
        cases hg

/-- A frame arrives at one of the two. -/
private theorem PairInv.arrive {s : Pair α} (h : PairInv s) (env : LinkEnv α) (i : Bool)
    {f : ChannelFrame α} {rest : List (ChannelFrame α)} (hwire : (s !i).wire = f :: rest) :
    PairInv ((s.set (!i) { s !i with wire := rest }).set i ((s i).onFrame env f)) := by
  have hself : ((s.set (!i) { s !i with wire := rest }).set i ((s i).onFrame env f)) i =
      (s i).onFrame env f := Function.update_self i _ _
  have hother : ((s.set (!i) { s !i with wire := rest }).set i ((s i).onFrame env f)) (!i) =
      { s !i with wire := rest } := by
    rw [Pair.set, Function.update_of_ne (Bool.not_ne_self i), Pair.set, Function.update_self]
  obtain ⟨hout, hin, hsent, hplain⟩ := h.onFrame_sides env i hwire
  refine .of_sides i ?_ ?_ (fun j g hg ↦ ?_) fun j ↦ ?_
  · rw [hself, hother]
    exact hout
  · rw [hself, hother]
    exact hin
  · by_cases hj : j = i
    · subst hj
      rw [hself] at hg
      rcases hsent g hg with hg | hg
      · exact h.wire j g hg
      · exact .inr hg
    · rw [Bool.eq_not.mpr hj, hother] at hg
      refine h.wire (!i) g ?_
      rw [hwire]
      exact List.mem_cons_of_mem f hg
  · by_cases hj : j = i
    · subst hj
      rw [hself]
      exact hplain.trans (h.plain j)
    · rw [Bool.eq_not.mpr hj, hother]
      exact h.plain _

/-- Every step with fresh stream ids keeps the invariant of the pair. -/
theorem pairInv_step {s : Pair α} (h : PairInv s) (o : LinkEnv α × PairOp α)
    (hfresh : FreshStream s o) : PairInv (pairStep s o) := by
  obtain ⟨env, op⟩ := o
  have hback : ∀ i, Inv (Reliable.line (s !i) (s i)) := by
    intro i
    have := h.line !i
    rwa [Bool.not_not] at this
  cases op with
  | enqueue i random channel payload ttlMs =>
    have hmoves := moves_enqueue env (h.line i) random channel payload ttlMs hfresh
    exact h.call i (x := { s i with calls := (s i).calls + 1 })
      (sendsOnly_enqueue env _ random channel payload ttlMs _) hmoves (hback i)
      (fun _ hf ↦ hf) rfl
  | flushPeer i =>
    exact h.call i (sendsOnly_flushPeer env _) (moves_flushPeer env (h.line i)) (hback i)
      (fun _ hf ↦ hf) rfl
  | tick i =>
    exact h.call i (sendsOnly_tick env _) (moves_tick env (h.line i)) (hback i)
      (fun _ hf ↦ hf) rfl
  | arrive i =>
    simp only [pairStep]
    split
    · exact h
    · next f rest hwire => exact h.arrive env i hwire
  | sessionEnd i reason kept =>
    have hwire : (s i).wire.take kept ⊆ (s i).wire := (List.take_sublist kept _).subset
    cases reason with
    | none =>
      exact h.call i (x := { s i with wire := (s i).wire.take kept })
        (sendsOnly_markUnsent _) (moves_markUnsent (s i) (s !i) kept) (h.truncated i kept)
        hwire rfl
    | some why =>
      exact h.call i (x := { s i with wire := (s i).wire.take kept })
        (sendsOnly_failPeer _ why) (moves_failPeer (s i) (s !i) why kept) (h.truncated i kept)
        hwire rfl

/-- The contract of the queue from one engine to the other. -/
structure ExactlyOnce (s : Pair α) (i : Bool) : Prop where
  /-- Of each outbox lifetime, the frames handed to the channel layer are a sublist of those
  queued. -/
  inOrder : ∀ stream, ((s !i).handed.filter fun p ↦ p.stream = stream).Sublist
    (((s i).queued.map Prod.fst).filter fun p ↦ p.stream = stream)
  /-- No frame is queued twice and each is queued for one call. -/
  distinct : ((s i).queued.map Prod.fst).Nodup ∧ ((s i).queued.map Prod.snd).Nodup
  /-- Nothing of the queue reaches the channel layer by another way. -/
  nothingElse : (s !i).plain = []
  /-- A wait that resolves well had its frame delivered. -/
  delivered : ∀ call, (call, .ok ()) ∈ (s i).replies →
    ∃ p, (p, call) ∈ (s i).queued ∧ p ∈ (s !i).handed
  /-- No wait resolves twice. -/
  resolvedOnce : ((s i).replies.map Prod.fst).Nodup

private theorem PairInv.exactlyOnce {s : Pair α} (h : PairInv s) (i : Bool) : ExactlyOnce s i where
  inOrder := (h.line i).inOrder
  distinct := ⟨(h.line i).queued_nodup, (h.line i).askedOnce⟩
  nothingElse := h.plain !i
  delivered := by
    intro call hcall
    refine (h.line i).truthful call ?_
    exact List.mem_map.mpr ⟨(call, .ok ()), hcall, rfl⟩
  resolvedOnce := by
    have honce := (h.line i).judged_once
    simpa [Reliable.line, Function.comp_def] using honce

/-- In every run of two engines whose new outboxes draw fresh stream ids, both queues keep their
contract. -/
theorem reliable_exactly_once (peers : Bool → String) {ops : List (LinkEnv α × PairOp α)}
    (hfresh : AllSteps pairStep FreshStream (.start peers) ops) (i : Bool) :
    ExactlyOnce (run pairStep (.start peers) ops) i := by
  have hinv := forall_run_of_allSteps (I := fun s : Pair α ↦ PairInv s)
    (fun _ o h hc ↦ pairInv_step h o hc) (pairInv_start peers) hfresh
  exact (hinv ops [] (List.append_nil ops).symm).exactlyOnce i

/-- Two frames are queued, the session ends with the second one lost, both are sent again, and
three frames and three acknowledgements arrive. -/
def lostTail : List (LinkEnv Nat × PairOp Nat) :=
  let env : LinkEnv Nat := ⟨0, true, fun _ ↦ true⟩
  [.enqueue false 8 "chat" 10 none, .enqueue false 8 "chat" 11 none, .sessionEnd false none 1,
    .flushPeer false, .arrive true, .arrive true, .arrive true, .arrive false, .arrive false,
    .arrive false].map fun op ↦ (env, op)

/-- Each frame is delivered once. -/
theorem lostTail_exactly_once :
    ((run pairStep (.start fun _ ↦ "peer") lostTail true).handed.map Packet.body =
      [("chat", 10), ("chat", 11)]) ∧
    ExactlyOnce (run pairStep (.start fun _ ↦ "peer") lostTail) false := by
  refine ⟨by decide, reliable_exactly_once _ ?_ false⟩
  refine ⟨fun _ ↦ ?_, fun hout ↦ ?_, trivial, trivial, trivial, trivial, trivial, trivial, trivial,
    trivial, trivial⟩
  · simp [Pair.start, Side.start]
  · cases hout

end MyOwnMesh.Reliable
