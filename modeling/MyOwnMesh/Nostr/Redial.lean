import MyOwnMesh.Lib.Replay
import MyOwnMesh.SignalingServer.Hub

/-!
# Directed events across a relay redial

The outbound pump, the announcer and the sessions of a driver share a broadcast bus and a replay
buffer (`crates/myownmesh-signaling/src/nostr/driver.rs`). The pump looks at the number of
subscribers and then buffers or publishes; a session subscribes, drains the buffer, publishes
what it drained and only then reads the bus. A step is what one task does between two points at
which another can run; times are milliseconds. An event carries the number of its emission, so
that two equal events can be told apart.
-/

namespace MyOwnMesh.Nostr

open Lib.Replay SignalingServer

/-- An event on its way to the relays. -/
structure Item where
  seq : Nat
  event : NostrEvent

/-- Where a relay's session stands. -/
inductive Phase where
  | closed
  | subscribed
  | replaying (fresh : List Item)
  | reading

/-- A relay: its session, what waits for it on the bus and what was written to its socket. -/
structure Relay where
  phase : Phase
  queue : List Item
  socket : List Item

/-- Where the pump stands with the event it took: whether it found no subscriber. -/
inductive Pump where
  | idle
  | buffering (x : Item)
  | publishing (x : Item)

/-- What the tasks of a driver share. -/
structure Bus where
  emitted : Nat
  outboundReplay : List (Nat × Item)
  pump : Pump
  relays : List Relay

/-- What the bus holds for one subscriber; `driver.rs:151`. -/
def busCapacity : Nat := 64

/-- `driver.rs:1286`. -/
def outboundReplayCap : Nat := 256

/-- `driver.rs:1293`. -/
def outboundReplayTtlMs : Nat := 10000

/-- Whether a relay's session has subscribed. -/
def Relay.isOpen (r : Relay) : Bool :=
  match r.phase with
  | .closed => false
  | _ => true

/-- What a session has drained and not yet published. -/
def Relay.fresh (r : Relay) : List Item :=
  match r.phase with
  | .replaying fresh => fresh
  | _ => []

/-- `receiver_count` of the bus. -/
def Bus.receiverCount (s : Bus) : Nat := s.relays.countP Relay.isOpen

/-- An event arrives on the bus for one relay; the oldest goes when there are too many. -/
def Relay.receive (r : Relay) (x : Item) : Relay :=
  if r.isOpen then
    { r with queue := (r.queue ++ [x]).drop ((r.queue ++ [x]).length - busCapacity) }
  else r

/-- `publish_tx.send`. -/
def Bus.send (s : Bus) (x : Item) : Bus :=
  { s with relays := s.relays.map fun r ↦ r.receive x }

/-- `driver.rs:1297–1306`. -/
def pushOutboundReplay (buf : List (Nat × Item)) (now : Nat) (x : Item) : List (Nat × Item) :=
  (buf ++ [(now, x)]).drop ((buf ++ [(now, x)]).length - outboundReplayCap)

/-- `driver.rs:1312–1321`; the buffer is emptied either way. -/
def drainFreshOutbound (buf : List (Nat × Item)) (now : Nat) : List Item :=
  (buf.filter fun entry ↦ now - entry.1 ≤ outboundReplayTtlMs).map Prod.snd

/-- What one of the tasks does next. -/
inductive Step where
  /-- The pump takes an event and looks for subscribers. -/
  | take (ev : NostrEvent)
  /-- The pump buffers or publishes the event it took. -/
  | put (now : Nat)
  /-- The announcer publishes. -/
  | tick (ev : NostrEvent)
  | subscribe (i : Nat)
  | drain (i now : Nat)
  /-- A session publishes the next event that it drained. -/
  | republish (i : Nat)
  /-- A session has published all of them, and greets the relay if it may. -/
  | greet (i : Nat) (ev : Option NostrEvent)
  /-- A session writes the next event of the bus to its socket. -/
  | read (i : Nat)
  | close (i : Nat)

/-- The pump looks for subscribers; `driver.rs:1400–1421`. -/
def Bus.take (s : Bus) (ev : NostrEvent) : Bus :=
  match s.pump with
  | .idle =>
    if s.receiverCount = 0 then
      if ev.kind = signalingEphemeralKind then
        { s with emitted := s.emitted + 1, pump := .buffering ⟨s.emitted, ev⟩ }
      else { s with emitted := s.emitted + 1 }
    else { s with emitted := s.emitted + 1, pump := .publishing ⟨s.emitted, ev⟩ }
  | _ => s

/-- The pump goes on; `driver.rs:1410–1412` and `1421`. -/
def Bus.put (s : Bus) (now : Nat) : Bus :=
  match s.pump with
  | .idle => s
  | .buffering x =>
    { s with pump := .idle, outboundReplay := pushOutboundReplay s.outboundReplay now x }
  | .publishing x => { s.send x with pump := .idle }

/-- Change one relay in place. -/
def Bus.setRelay (s : Bus) (i : Nat) (r : Relay) : Bus := { s with relays := s.relays.set i r }

/-- One step. A step that its task is not ready for changes nothing. -/
def Bus.step (s : Bus) : Step → Bus
  | .take ev => s.take ev
  | .put now => s.put now
  | .tick ev => { s.send ⟨s.emitted, ev⟩ with emitted := s.emitted + 1 }
  | .subscribe i =>
    match s.relays[i]? with
    | some ⟨.closed, _, _⟩ => s.setRelay i ⟨.subscribed, [], []⟩
    | _ => s
  | .drain i now =>
    match s.relays[i]? with
    | some ⟨.subscribed, queue, socket⟩ =>
      { s.setRelay i ⟨.replaying (drainFreshOutbound s.outboundReplay now), queue, socket⟩ with
        outboundReplay := [] }
    | _ => s
  | .republish i =>
    match s.relays[i]? with
    | some ⟨.replaying (x :: fresh), queue, socket⟩ =>
      (s.setRelay i ⟨.replaying fresh, queue, socket⟩).send x
    | _ => s
  | .greet i ev =>
    match s.relays[i]? with
    | some ⟨.replaying [], queue, socket⟩ =>
      { s.setRelay i ⟨.reading, queue, socket ++ (ev.map (Item.mk s.emitted)).toList⟩ with
        emitted := s.emitted + 1 }
    | _ => s
  | .read i =>
    match s.relays[i]? with
    | some ⟨.reading, x :: queue, socket⟩ => s.setRelay i ⟨.reading, queue, socket ++ [x]⟩
    | _ => s
  | .close i =>
    match s.relays[i]? with
    | some ⟨.reading, _, socket⟩ => s.setRelay i ⟨.closed, [], socket⟩
    | some ⟨.replaying [], _, socket⟩ => s.setRelay i ⟨.closed, [], socket⟩
    | _ => s

/-! ### The bus -/

section Bus

variable {r : Relay} {x : Item} {T : Item → Bool}

@[simp] theorem isOpen_receive (r : Relay) (x : Item) : (r.receive x).isOpen = r.isOpen := by
  unfold Relay.receive
  split <;> rfl

@[simp] theorem fresh_receive (r : Relay) (x : Item) : (r.receive x).fresh = r.fresh := by
  unfold Relay.receive
  split <;> rfl

@[simp] theorem phase_receive (r : Relay) (x : Item) : (r.receive x).phase = r.phase := by
  unfold Relay.receive
  split <;> rfl

@[simp] theorem socket_receive (r : Relay) (x : Item) : (r.receive x).socket = r.socket := by
  unfold Relay.receive
  split <;> rfl

theorem getElem?_send (s : Bus) (x : Item) (i : Nat) :
    (s.send x).relays[i]? = (s.relays[i]?).map fun r ↦ r.receive x := by
  rw [Bus.send, List.getElem?_map]

/-- One more event for the relay does not push out a tracked one. -/
def Relay.Room (T : Item → Bool) (r : Relay) : Prop :=
  ∀ x queue, r.queue = x :: queue → busCapacity ≤ r.queue.length → T x = false

/-- An event that finds room comes after what waits already. -/
theorem queue_receive (hopen : r.isOpen = true) (hlen : r.queue.length ≤ busCapacity)
    (hroom : r.Room T) (x : Item) :
    (r.receive x).queue.filter T = r.queue.filter T ++ [x].filter T ∧
      (r.receive x).queue.length ≤ busCapacity := by
  rw [Relay.receive, if_pos hopen]
  refine ⟨?_, by simp only [List.length_drop]; omega⟩
  by_cases hfull : r.queue.length < busCapacity
  · have hzero : (r.queue ++ [x]).length - busCapacity = 0 := by
      rw [List.length_append, List.length_singleton]
      omega
    rw [hzero, List.drop_zero, List.filter_append]
  · have hone : (r.queue ++ [x]).length - busCapacity = 1 := by
      rw [List.length_append, List.length_singleton]
      omega
    rw [hone]
    cases hqueue : r.queue with
    | nil =>
      rw [hqueue] at hfull
      simp [busCapacity] at hfull
    | cons y queue =>
      have hy : T y = false := hroom y queue hqueue (Nat.le_of_not_lt hfull)
      have hskip : (y :: queue).filter T = queue.filter T :=
        List.filter_cons_of_neg (by simp [hy])
      rw [List.cons_append, List.drop_one, List.tail_cons, List.filter_append, hskip]

end Bus

/-! ### What was emitted into the outage -/

/-- The item that the pump is about to buffer. -/
def Pump.buffered : Pump → List Item
  | .buffering x => [x]
  | _ => []

/-- What waits for a session to come back. -/
def Bus.waiting (s : Bus) : List Item := s.outboundReplay.map Prod.snd ++ s.pump.buffered

/-- Pushing an event forgets none that is tracked, as long as tracked ones come last and are not
too many. -/
theorem filter_pushOutboundReplay {T : Item → Bool} {buf : List (Nat × Item)} (now : Nat)
    {x : Item} (horder : (buf.map Prod.snd ++ [x]).Pairwise fun a b ↦ T a = true → T b = true)
    (hbuf : buf.length ≤ outboundReplayCap)
    (hfew : ((buf.map Prod.snd ++ [x]).filter T).length ≤ outboundReplayCap) :
    ((pushOutboundReplay buf now x).map Prod.snd).filter T = (buf.map Prod.snd ++ [x]).filter T ∧
      ((pushOutboundReplay buf now x).map Prod.snd).Pairwise (fun a b ↦ T a = true → T b = true) ∧
      (pushOutboundReplay buf now x).length ≤ outboundReplayCap := by
  have hmap : (pushOutboundReplay buf now x).map Prod.snd =
      (buf.map Prod.snd ++ [x]).drop ((buf ++ [(now, x)]).length - outboundReplayCap) := by
    rw [pushOutboundReplay, List.map_drop, List.map_append, List.map_singleton]
  refine ⟨?_, ?_, by simp only [pushOutboundReplay, List.length_drop]; omega⟩
  · rw [hmap]
    by_cases hfull : buf.length < outboundReplayCap
    · have hzero : (buf ++ [(now, x)]).length - outboundReplayCap = 0 := by
        rw [List.length_append, List.length_singleton]
        omega
      rw [hzero, List.drop_zero]
    · have hone : (buf ++ [(now, x)]).length - outboundReplayCap = 1 := by
        rw [List.length_append, List.length_singleton]
        omega
      rw [hone]
      generalize hall : buf.map Prod.snd ++ [x] = all at horder hfew ⊢
      cases all with
      | nil => rfl
      | cons y rest =>
        -- Were the oldest tracked, all of them would be, and they are one too many.
        have hy : T y = false := by
          rw [← Bool.not_eq_true]
          intro hy
          have htracked : (y :: rest).filter T = y :: rest := by
            rw [List.filter_eq_self]
            intro z hz
            rcases List.mem_cons.mp hz with rfl | hz
            · exact hy
            · exact (List.pairwise_cons.mp horder).1 z hz hy
          have hlen : (y :: rest).length = buf.length + 1 := by
            rw [← hall, List.length_append, List.length_map, List.length_singleton]
          rw [htracked, hlen] at hfew
          omega
        rw [List.drop_one, List.tail_cons, List.filter_cons_of_neg (by simp [hy])]
  · rw [hmap]
    exact horder.sublist (List.drop_sublist _ _)

/-! ### While a session is there -/

/-- The tracked items that a relay's session still has to publish. -/
def Bus.freshAt (s : Bus) (T : Item → Bool) (k : Nat) : List Item :=
  ((s.relays[k]?).elim [] Relay.fresh).filter T

/-- Where the tracked items `E` are, seen from relay `i`: written, queued, drained by one
session, or waiting, in this order. -/
structure Carried (T : Item → Bool) (E : List Item) (i : Nat) (r : Relay) (s : Bus) : Prop where
  relay : s.relays[i]? = some r
  isOpen : r.isOpen = true
  queue : r.queue.length ≤ busCapacity
  later : ∀ x, T x = true → x.seq < s.emitted
  publishing : ∀ x, s.pump = .publishing x → T x = false
  buffer : s.outboundReplay.length ≤ outboundReplayCap
  order : s.waiting.Pairwise fun a b ↦ T a = true → T b = true
  drained : r.phase = .subscribed ∨ s.waiting.filter T = []
  located : ∃ k, (∀ j, j ≠ k → s.freshAt T j = []) ∧
    (s.freshAt T k = [] ∨ s.waiting.filter T = []) ∧
    (r.socket ++ r.queue).filter T ++ s.freshAt T k ++ s.waiting.filter T = E

section Steps

variable {T : Item → Bool} {E : List Item} {i : Nat} {r : Relay} {s : Bus}

theorem freshAt_setRelay {r' : Relay} {j : Nat} {old : Relay} (hj : s.relays[j]? = some old)
    (hfresh : r'.fresh.filter T = old.fresh.filter T) (k : Nat) :
    (s.setRelay j r').freshAt T k = s.freshAt T k := by
  unfold Bus.freshAt Bus.setRelay
  by_cases hk : k = j
  · subst hk
    obtain ⟨hlt, -⟩ := List.getElem?_eq_some_iff.mp hj
    simp [List.getElem?_set_self hlt, hj, hfresh]
  · simp [List.getElem?_set_ne (Ne.symm hk)]

/-- A step of another session that drains and publishes nothing. -/
theorem Carried.setRelay_other (h : Carried T E i r s) (r' : Relay) {j : Nat} {old : Relay}
    (hne : j ≠ i) (hj : s.relays[j]? = some old) (hfresh : r'.fresh.filter T = old.fresh.filter T) :
    Carried T E i r (s.setRelay j r') := by
  have hat := freshAt_setRelay (T := T) hj hfresh
  obtain ⟨k, hothers, hone, heq⟩ := h.located
  refine ⟨?_, h.isOpen, h.queue, h.later, h.publishing, h.buffer, h.order, h.drained,
    k, fun l hl ↦ ?_, ?_, ?_⟩
  · rw [Bus.setRelay, List.getElem?_set_ne hne]
    exact h.relay
  · rw [hat]
    exact hothers l hl
  · rw [hat]
    exact hone
  · rw [hat]
    exact heq

/-- A step of the session itself that drains and publishes nothing. -/
theorem Carried.setRelay_self (h : Carried T E i r s) (r' : Relay) (hopen : r'.isOpen = true)
    (hqueue : r'.queue.length ≤ busCapacity) (hfresh : r'.fresh.filter T = r.fresh.filter T)
    (hphase : r.phase = .subscribed → r'.phase = .subscribed)
    (hwritten : (r'.socket ++ r'.queue).filter T = (r.socket ++ r.queue).filter T) :
    Carried T E i r' (s.setRelay i r') := by
  have hat := freshAt_setRelay (T := T) h.relay hfresh
  obtain ⟨hlt, -⟩ := List.getElem?_eq_some_iff.mp h.relay
  obtain ⟨k, hothers, hone, heq⟩ := h.located
  refine ⟨?_, hopen, hqueue, h.later, h.publishing, h.buffer, h.order,
    h.drained.imp_left hphase, k, fun l hl ↦ ?_, ?_, ?_⟩
  · rw [Bus.setRelay, List.getElem?_set_self hlt]
  · rw [hat]
    exact hothers l hl
  · rw [hat]
    exact hone
  · rw [hat, hwritten]
    exact heq

/-- Emission numbers only grow. -/
theorem Carried.emitted (h : Carried T E i r s) {n : Nat} (hn : s.emitted ≤ n) :
    Carried T E i r { s with emitted := n } :=
  ⟨h.relay, h.isOpen, h.queue, fun x hx ↦ Nat.lt_of_lt_of_le (h.later x hx) hn, h.publishing,
    h.buffer, h.order, h.drained, h.located⟩

theorem freshAt_send (s : Bus) (T : Item → Bool) (x : Item) (k : Nat) :
    (s.send x).freshAt T k = s.freshAt T k := by
  unfold Bus.freshAt
  rw [getElem?_send]
  cases s.relays[k]? with
  | none => rfl
  | some r' => simp

/-- An event that is not tracked goes over the bus. -/
theorem Carried.send (h : Carried T E i r s) (hroom : r.Room T) {x : Item} (hx : T x = false) :
    Carried T E i (r.receive x) (s.send x) := by
  obtain ⟨hfilter, hlen⟩ := queue_receive h.isOpen h.queue hroom x
  obtain ⟨k, hothers, hone, heq⟩ := h.located
  refine ⟨?_, by rw [isOpen_receive]; exact h.isOpen, hlen, h.later, h.publishing, h.buffer,
    h.order, by rw [phase_receive]; exact h.drained, k, fun l hl ↦ ?_, ?_, ?_⟩
  · rw [getElem?_send, h.relay, Option.map_some]
  · rw [freshAt_send]
    exact hothers l hl
  · rw [freshAt_send]
    exact hone
  · rw [freshAt_send, List.filter_append, socket_receive, hfilter,
      List.filter_cons_of_neg (by simp [hx]), List.filter_nil, List.append_nil,
      ← List.filter_append]
    exact heq

/-- With a session there, the pump publishes what it takes. -/
theorem Carried.take (h : Carried T E i r s) (ev : NostrEvent) :
    Carried T E i r (s.take ev) := by
  have hcount : s.receiverCount ≠ 0 := by
    rw [Bus.receiverCount, Nat.ne_zero_iff_zero_lt, List.countP_pos_iff]
    exact ⟨r, List.mem_of_getElem? h.relay, h.isOpen⟩
  unfold Bus.take
  cases hpump : s.pump with
  | idle =>
    simp only [hcount, ↓reduceIte]
    have hwaiting : Bus.waiting { s with
        emitted := s.emitted + 1, pump := .publishing ⟨s.emitted, ev⟩ } = s.waiting := by
      simp [Bus.waiting, Pump.buffered, hpump]
    refine ⟨h.relay, h.isOpen, h.queue, fun x hx ↦ Nat.lt_succ_of_lt (h.later x hx),
      fun x hx ↦ ?_, h.buffer, hwaiting ▸ h.order, hwaiting ▸ h.drained, ?_⟩
    · -- What is emitted from now on is not tracked.
      cases hx
      rw [← Bool.not_eq_true]
      exact fun htracked ↦ Nat.lt_irrefl _ (h.later _ htracked)
    · rw [hwaiting]
      exact h.located
  | buffering x => exact h
  | publishing x => exact h

/-- The pump buffers the last event of the outage, or publishes one that is not tracked. -/
theorem Carried.put (h : Carried T E i r s) (hfew : E.length ≤ outboundReplayCap)
    (hroom : ∀ x, s.pump = .publishing x → r.Room T) (now : Nat) :
    ∃ r', Carried T E i r' (s.put now) := by
  unfold Bus.put
  cases hpump : s.pump with
  | idle => exact ⟨r, h⟩
  | buffering x =>
    simp only
    have hbefore : s.waiting = s.outboundReplay.map Prod.snd ++ [x] := by
      rw [Bus.waiting, hpump, Pump.buffered]
    obtain ⟨k, hothers, hone, heq⟩ := h.located
    have hcount : ((s.outboundReplay.map Prod.snd ++ [x]).filter T).length ≤
        outboundReplayCap := by
      rw [← hbefore]
      refine Nat.le_trans ?_ hfew
      rw [← heq, List.length_append]
      omega
    obtain ⟨hfilter, horder, hlen⟩ := filter_pushOutboundReplay now
      (hbefore ▸ h.order) h.buffer hcount
    rw [← hbefore] at hfilter
    generalize pushOutboundReplay s.outboundReplay now x = buf at hfilter horder hlen ⊢
    have hafter : Bus.waiting { s with pump := .idle, outboundReplay := buf } =
        buf.map Prod.snd := by simp [Bus.waiting, Pump.buffered]
    refine ⟨r, h.relay, h.isOpen, h.queue, h.later, fun y hy ↦ ?_, hlen, ?_, ?_, k, hothers, ?_, ?_⟩
    · cases hy
    · rw [hafter]
      exact horder
    · rw [hafter, hfilter]
      exact h.drained
    · rw [hafter, hfilter]
      exact hone
    · rw [hafter, hfilter]
      exact heq
  | publishing x =>
    have hsend := h.send (hroom x hpump) (h.publishing x hpump)
    have hwaiting : Bus.waiting { s.send x with pump := .idle } = (s.send x).waiting := by
      simp [Bus.waiting, Bus.send, Pump.buffered, hpump]
    refine ⟨r.receive x, hsend.relay, hsend.isOpen, hsend.queue, hsend.later,
      nofun, hsend.buffer, hwaiting ▸ hsend.order, hwaiting ▸ hsend.drained, ?_⟩
    rw [hwaiting]
    exact hsend.located

/-- What a session drains in time, with the pump not in between, is all that waits. -/
theorem waiting_filter_of_drain {now : Nat} (hpump : ∀ x, s.pump = .buffering x → T x = false)
    (hfresh : ∀ entry ∈ s.outboundReplay, T entry.2 = true →
      now - entry.1 ≤ outboundReplayTtlMs) :
    (drainFreshOutbound s.outboundReplay now).filter T = s.waiting.filter T := by
  have hbuffered : s.pump.buffered.filter T = [] := by
    cases hp : s.pump with
    | idle => rfl
    | buffering x => simp [Pump.buffered, hpump x hp]
    | publishing x => rfl
  rw [Bus.waiting, List.filter_append, hbuffered, List.append_nil, drainFreshOutbound,
    List.filter_map, List.filter_map, List.filter_filter]
  congr 1
  refine List.filter_congr fun entry hentry ↦ ?_
  by_cases ht : T entry.2 = true
  · simp [ht, hfresh entry hentry ht]
  · simp [ht]

theorem freshAt_drained {j : Nat} {old r' : Relay} (hj : s.relays[j]? = some old) (l : Nat) :
    Bus.freshAt { s.setRelay j r' with outboundReplay := [] } T l =
      if l = j then r'.fresh.filter T else s.freshAt T l := by
  unfold Bus.freshAt Bus.setRelay
  by_cases hl : l = j
  · subst hl
    obtain ⟨hlt, -⟩ := List.getElem?_eq_some_iff.mp hj
    simp [List.getElem?_set_self hlt]
  · simp [List.getElem?_set_ne (Ne.symm hl), hl]

/-- A session drains all that waits. -/
theorem Carried.drain (h : Carried T E i r s) {j now : Nat}
    (hpump : ∀ x, s.pump = .buffering x → T x = false)
    (hfresh : ∀ entry ∈ s.outboundReplay, T entry.2 = true →
      now - entry.1 ≤ outboundReplayTtlMs) :
    ∃ r', Carried T E i r' (s.step (.drain j now)) := by
  have hall := waiting_filter_of_drain hpump hfresh
  unfold Bus.step
  simp only
  split
  · next queue socket hj =>
    generalize hfr : drainFreshOutbound s.outboundReplay now = fresh at hall
    obtain ⟨r', hr'⟩ : ∃ r' : Relay, r' = ⟨.replaying fresh, queue, socket⟩ := ⟨_, rfl⟩
    rw [← hr']
    have hat : ∀ l, Bus.freshAt { s.setRelay j r' with outboundReplay := [] } T l =
        if l = j then s.waiting.filter T else s.freshAt T l := by
      intro l
      rw [freshAt_drained hj, hr', ← hall]
      rfl
    have hold : s.freshAt T j = [] := by
      rw [Bus.freshAt, hj]
      rfl
    have hwaiting : (Bus.waiting { s.setRelay j r' with outboundReplay := [] }).filter T = [] := by
      cases hp : s.pump with
      | idle => simp [Bus.waiting, Bus.setRelay, Pump.buffered, hp]
      | buffering x => simp [Bus.waiting, Bus.setRelay, Pump.buffered, hp, hpump x hp]
      | publishing x => simp [Bus.waiting, Bus.setRelay, Pump.buffered, hp]
    have horder : (Bus.waiting { s.setRelay j r' with outboundReplay := [] }).Pairwise
        fun a b ↦ T a = true → T b = true :=
      h.order.sublist (by simp [Bus.waiting, Bus.setRelay])
    have hlocated : ∃ k, (∀ l, l ≠ k →
          Bus.freshAt { s.setRelay j r' with outboundReplay := [] } T l = []) ∧
        (r.socket ++ r.queue).filter T ++
          Bus.freshAt { s.setRelay j r' with outboundReplay := [] } T k = E := by
      obtain ⟨k, hothers, hone, heq⟩ := h.located
      rcases hone with hnone | hnone
      · -- Nobody had drained yet: this session carries them all.
        refine ⟨j, fun l hl ↦ ?_, ?_⟩
        · rw [hat, if_neg hl]
          by_cases hlk : l = k
          · rw [hlk, hnone]
          · exact hothers l hlk
        · rw [hat, if_pos rfl, ← heq, hnone, List.append_nil]
      · refine ⟨k, fun l hl ↦ ?_, ?_⟩
        · rw [hat, hnone, hothers l hl, ite_self]
        · rw [hat, hnone, ← heq, hnone, List.append_nil]
          by_cases hk : k = j
          · rw [if_pos hk, hk, hold]
          · rw [if_neg hk]
    obtain ⟨k, hothers, heq⟩ := hlocated
    by_cases hij : i = j
    · subst hij
      rw [h.relay] at hj
      cases hj
      obtain ⟨hlt, -⟩ := List.getElem?_eq_some_iff.mp h.relay
      refine ⟨r', ?_, by rw [hr']; rfl, by rw [hr']; exact h.queue, h.later, h.publishing,
        Nat.zero_le _, horder, .inr hwaiting, k, hothers, .inr hwaiting, ?_⟩
      · exact List.getElem?_set_self hlt
      · rw [hwaiting, List.append_nil, ← heq, hr']
    · refine ⟨r, ?_, h.isOpen, h.queue, h.later, h.publishing, Nat.zero_le _, horder,
        .inr hwaiting, k, hothers, .inr hwaiting, ?_⟩
      · exact (List.getElem?_set_ne (Ne.symm hij)).trans h.relay
      · rw [hwaiting, List.append_nil]
        exact heq
  · exact ⟨r, h⟩

/-- A tracked event goes over the bus from the session that drained it. -/
theorem Carried.republish_tracked (h : Carried T E i r s) (hroom : r.Room T) {j : Nat} {x : Item}
    {fresh queue socket : List Item} (hx : T x = true)
    (hj : s.relays[j]? = some ⟨.replaying (x :: fresh), queue, socket⟩) :
    ∃ r', Carried T E i r' ((s.setRelay j ⟨.replaying fresh, queue, socket⟩).send x) := by
  obtain ⟨hltj, -⟩ := List.getElem?_eq_some_iff.mp hj
  obtain ⟨hlti, -⟩ := List.getElem?_eq_some_iff.mp h.relay
  have hfreshj : s.freshAt T j = x :: fresh.filter T := by
    rw [Bus.freshAt, hj]
    exact List.filter_cons_of_pos hx
  obtain ⟨k, hothers, hone, heq⟩ := h.located
  have hjk : j = k := by
    by_contra hne
    rw [hothers j hne] at hfreshj
    cases hfreshj
  subst hjk
  have hwaiting : s.waiting.filter T = [] := by
    rcases hone with hnone | hnone
    · rw [hfreshj] at hnone
      cases hnone
    · exact hnone
  have hat : ∀ l, ((s.setRelay j ⟨.replaying fresh, queue, socket⟩).send x).freshAt T l =
      if l = j then fresh.filter T else s.freshAt T l := by
    intro l
    rw [freshAt_send, Bus.freshAt, Bus.setRelay]
    by_cases hl : l = j
    · subst hl
      simp only [List.getElem?_set_self hltj, ↓reduceIte]
      rfl
    · simp only [List.getElem?_set_ne (Ne.symm hl), if_neg hl]
      rfl
  -- The tracked relay itself may be the one that publishes.
  obtain ⟨r₁, hr₁, hopen, hqueue, hsocket⟩ : ∃ r₁ : Relay,
      (s.setRelay j ⟨.replaying fresh, queue, socket⟩).relays[i]? = some r₁ ∧
        r₁.isOpen = true ∧ r₁.queue = r.queue ∧ r₁.socket = r.socket := by
    by_cases hij : j = i
    · subst hij
      rw [h.relay] at hj
      cases hj
      exact ⟨_, List.getElem?_set_self hlti, rfl, rfl, rfl⟩
    · exact ⟨r, (List.getElem?_set_ne hij).trans h.relay, h.isOpen, rfl, rfl⟩
  have hroom₁ : r₁.Room T := by
    rw [Relay.Room, hqueue]
    exact hroom
  obtain ⟨hfilter, hlen⟩ := queue_receive hopen (hqueue ▸ h.queue) hroom₁ x
  refine ⟨r₁.receive x, ?_, ?_, hlen, h.later, h.publishing, h.buffer, h.order, .inr hwaiting, j,
    fun l hl ↦ ?_, .inr hwaiting, ?_⟩
  · rw [getElem?_send, hr₁, Option.map_some]
  · rw [isOpen_receive]
    exact hopen
  · rw [hat, if_neg hl]
    exact hothers l hl
  · have hafter : ((s.setRelay j ⟨.replaying fresh, queue, socket⟩).send x).waiting =
        s.waiting := rfl
    rw [hat, if_pos rfl, hafter, hwaiting, List.append_nil, List.filter_append, socket_receive,
      hfilter, hqueue, hsocket, ← heq, hwaiting, List.append_nil, hfreshj, List.filter_append,
      List.filter_cons_of_pos hx, List.filter_nil]
    simp

/-- A session publishes the next event that it drained. -/
theorem Carried.republish (h : Carried T E i r s) (hroom : r.Room T) (j : Nat) :
    ∃ r', Carried T E i r' (s.step (.republish j)) := by
  unfold Bus.step
  simp only
  split
  · next x fresh queue socket hj =>
    by_cases hx : T x = true
    · exact h.republish_tracked hroom hx hj
    · rw [Bool.not_eq_true] at hx
      have hfresh : (Relay.mk (.replaying fresh) queue socket).fresh.filter T =
          (Relay.mk (.replaying (x :: fresh)) queue socket).fresh.filter T := by
        simp [Relay.fresh, hx]
      by_cases hij : j = i
      · subst hij
        have hr : r = ⟨.replaying (x :: fresh), queue, socket⟩ := by
          rw [h.relay] at hj
          exact Option.some.inj hj
        subst hr
        have hset := h.setRelay_self ⟨.replaying fresh, queue, socket⟩ rfl h.queue hfresh
          (fun hp ↦ by cases hp) rfl
        exact ⟨_, hset.send hroom hx⟩
      · exact ⟨_, (h.setRelay_other _ hij hj hfresh).send hroom hx⟩
  · exact ⟨r, h⟩

/-- What is emitted now is not tracked. -/
theorem Carried.untracked (h : Carried T E i r s) (ev : NostrEvent) :
    T ⟨s.emitted, ev⟩ = false := by
  rw [← Bool.not_eq_true]
  exact fun htracked ↦ Nat.lt_irrefl _ (h.later _ htracked)

theorem Carried.tick (h : Carried T E i r s) (hroom : r.Room T) (ev : NostrEvent) :
    Carried T E i (r.receive ⟨s.emitted, ev⟩) (s.step (.tick ev)) :=
  (h.send hroom (h.untracked ev)).emitted (Nat.le_succ _)

/-- Another session begins. -/
theorem Carried.subscribe (h : Carried T E i r s) (j : Nat) :
    Carried T E i r (s.step (.subscribe j)) := by
  unfold Bus.step
  simp only
  split
  · next queue socket hj =>
    have hne : j ≠ i := by
      rintro rfl
      have hopen := h.isOpen
      rw [h.relay] at hj
      cases hj
      cases hopen
    exact h.setRelay_other _ hne hj rfl
  · exact h

/-- A session greets its relay. -/
theorem Carried.greet (h : Carried T E i r s) (j : Nat) (ev : Option NostrEvent) :
    ∃ r', Carried T E i r' (s.step (.greet j ev)) := by
  unfold Bus.step
  simp only
  split
  · next queue socket hj =>
    by_cases hij : j = i
    · subst hij
      rw [h.relay] at hj
      cases hj
      have hnew : (ev.map (Item.mk s.emitted)).toList.filter T = [] := by
        cases ev with
        | none => rfl
        | some ev => simp [h.untracked ev]
      obtain ⟨r', hr'⟩ : ∃ r' : Relay, r' = ⟨.reading, queue,
        socket ++ (ev.map (Item.mk s.emitted)).toList⟩ := ⟨_, rfl⟩
      have hset : Carried T E j r' (s.setRelay j r') := by
        refine h.setRelay_self r' (by rw [hr']; rfl) (by rw [hr']; exact h.queue)
          (by rw [hr']; rfl) (fun hp ↦ by cases hp) ?_
        simp only [hr', List.filter_append, hnew, List.append_nil]
      rw [← hr']
      exact ⟨r', hset.emitted (Nat.le_succ _)⟩
    · exact ⟨r, (h.setRelay_other ⟨.reading, queue, _⟩ hij hj rfl).emitted (Nat.le_succ _)⟩
  · exact ⟨r, h⟩

/-- A session writes what it reads. -/
theorem Carried.read (h : Carried T E i r s) (j : Nat) :
    ∃ r', Carried T E i r' (s.step (.read j)) := by
  unfold Bus.step
  simp only
  split
  · next x queue socket hj =>
    by_cases hij : j = i
    · subst hij
      have hqueue := h.queue
      rw [h.relay] at hj
      cases hj
      refine ⟨_, h.setRelay_self _ rfl ?_ rfl (fun hp ↦ by cases hp) ?_⟩
      · simp only [List.length_cons] at hqueue
        exact Nat.le_of_succ_le hqueue
      · rw [List.append_assoc, List.singleton_append]
    · exact ⟨r, h.setRelay_other _ hij hj rfl⟩
  · exact ⟨r, h⟩

/-- Another session ends. -/
theorem Carried.close (h : Carried T E i r s) {j : Nat} (hne : j ≠ i) :
    Carried T E i r (s.step (.close j)) := by
  unfold Bus.step
  simp only
  split
  · next queue socket hj => exact h.setRelay_other _ hne hj rfl
  · next queue socket hj => exact h.setRelay_other _ hne hj rfl
  · exact h

/-- A step that loses nothing: no session drains while the pump holds a tracked event that it
found no subscriber for, what is drained is not stale, no event is sent while the oldest of a full
queue is tracked, and the session stays. -/
def Careful (T : Item → Bool) (i : Nat) (s : Bus) : Step → Prop
  | .drain _ now => (∀ x, s.pump = .buffering x → T x = false) ∧
      ∀ entry ∈ s.outboundReplay, T entry.2 = true → now - entry.1 ≤ outboundReplayTtlMs
  | .put _ => ∀ x, s.pump = .publishing x → ∀ r, s.relays[i]? = some r → r.Room T
  | .tick _ | .republish _ => ∀ r, s.relays[i]? = some r → r.Room T
  | .close j => j ≠ i
  | _ => True

/-- What a careful step preserves. -/
theorem Carried.step (h : Carried T E i r s) (hfew : E.length ≤ outboundReplayCap) {o : Step}
    (ho : Careful T i s o) : ∃ r', Carried T E i r' (s.step o) := by
  cases o with
  | take ev => exact ⟨r, h.take ev⟩
  | put now => exact h.put hfew (fun x hx ↦ ho x hx r h.relay) now
  | tick ev => exact ⟨_, h.tick (ho r h.relay) ev⟩
  | subscribe j => exact ⟨r, h.subscribe j⟩
  | drain j now => exact h.drain ho.1 ho.2
  | republish j => exact h.republish (ho r h.relay) j
  | greet j ev => exact h.greet j ev
  | read j => exact h.read j
  | close j => exact ⟨r, h.close ho⟩

/-- The socket has the first of the tracked items, in order. -/
theorem Carried.written (h : Carried T E i r s) : r.socket.filter T <+: E := by
  obtain ⟨k, -, -, heq⟩ := h.located
  refine ⟨r.queue.filter T ++ s.freshAt T k ++ s.waiting.filter T, ?_⟩
  rw [← List.append_assoc, ← List.append_assoc, ← List.filter_append]
  exact heq

/-- A session that reads the bus has all of them there or written, once nobody publishes what it
drained. -/
theorem Carried.arrived (h : Carried T E i r s) (hreading : r.phase = .reading)
    (hdone : ∀ r' ∈ s.relays, r'.fresh = []) : (r.socket ++ r.queue).filter T = E := by
  have hfresh : ∀ k, s.freshAt T k = [] := by
    intro k
    unfold Bus.freshAt
    cases hr : s.relays[k]? with
    | none => rfl
    | some r' => simp [hdone r' (List.mem_of_getElem? hr)]
  have hwaiting : s.waiting.filter T = [] := by
    rcases h.drained with hphase | hnone
    · rw [hreading] at hphase
      cases hphase
    · exact hnone
  obtain ⟨k, -, -, heq⟩ := h.located
  rw [hfresh, hwaiting, List.append_nil, List.append_nil] at heq
  exact heq

end Steps

/-! ### While no session is there -/

/-- What the pump emits in a step that finds no subscriber, and is to be buffered. -/
def Bus.misses (s : Bus) : Step → List Item
  | .take ev =>
    match s.pump with
    | .idle =>
      if s.receiverCount = 0 ∧ ev.kind = signalingEphemeralKind then [⟨s.emitted, ev⟩] else []
    | _ => []
  | _ => []

/-- The directed events that are emitted in a run while no session is subscribed. -/
def missed : Bus → List Step → List Item
  | _, [] => []
  | s, o :: ops => s.misses o ++ missed (s.step o) ops

/-- Items are numbered as they are emitted, and the buffer keeps to its limit. -/
structure Numbered (s : Bus) : Prop where
  waiting : ∀ x ∈ s.waiting, x.seq < s.emitted
  publishing : ∀ x, s.pump = .publishing x → x.seq < s.emitted
  buffer : s.outboundReplay.length ≤ outboundReplayCap

/-- No session is subscribed, and `E` is what waits of the events from number `lo` on. -/
structure Outage (lo : Nat) (E : List Item) (s : Bus) : Prop where
  numbered : Numbered s
  closed : ∀ r ∈ s.relays, r.isOpen = false
  since : lo ≤ s.emitted
  publishing : ∀ x, s.pump = .publishing x → x.seq < lo
  order : s.waiting.Pairwise fun a b ↦ lo ≤ a.seq → lo ≤ b.seq
  waiting : s.waiting.filter (lo ≤ ·.seq) = E

section Outage

variable {s : Bus}

theorem mem_pushOutboundReplay {buf : List (Nat × Item)} {now : Nat} {x y : Item}
    (h : y ∈ (pushOutboundReplay buf now x).map Prod.snd) : y ∈ buf.map Prod.snd ++ [x] := by
  rw [pushOutboundReplay, List.map_drop, List.map_append, List.map_singleton] at h
  exact List.mem_of_mem_drop h

/-- A step that leaves the buffer and the pump alone. -/
theorem Numbered.of_eq {t : Bus} (h : Numbered s) (hreplay : t.outboundReplay = s.outboundReplay)
    (hpump : t.pump = s.pump) (hemitted : s.emitted ≤ t.emitted) : Numbered t := by
  have hwaiting : t.waiting = s.waiting := by rw [Bus.waiting, Bus.waiting, hreplay, hpump]
  refine ⟨fun x hx ↦ ?_, fun x hx ↦ ?_, by rw [hreplay]; exact h.buffer⟩
  · exact Nat.lt_of_lt_of_le (h.waiting x (hwaiting ▸ hx)) hemitted
  · exact Nat.lt_of_lt_of_le (h.publishing x (hpump ▸ hx)) hemitted

theorem Numbered.take (h : Numbered s) (ev : NostrEvent) : Numbered (s.take ev) := by
  unfold Bus.take
  cases hpump : s.pump with
  | idle =>
    have hold : ∀ x ∈ s.outboundReplay.map Prod.snd, x.seq < s.emitted + 1 := fun x hx ↦
      Nat.lt_succ_of_lt (h.waiting x (List.mem_append_left _ hx))
    simp only
    split
    · split
      · refine ⟨fun x hx ↦ ?_, nofun, h.buffer⟩
        rcases List.mem_append.mp hx with hx | hx
        · exact hold x hx
        · rw [List.mem_singleton.mp hx]
          exact Nat.lt_succ_self _
      · exact h.of_eq rfl hpump.symm (Nat.le_succ _)
    · refine ⟨fun x hx ↦ ?_, fun x hx ↦ ?_, h.buffer⟩
      · rcases List.mem_append.mp hx with hx | hx
        · exact hold x hx
        · cases hx
      · cases hx
        exact Nat.lt_succ_self _
  | buffering x => exact h
  | publishing x => exact h

theorem Numbered.put (h : Numbered s) (now : Nat) : Numbered (s.put now) := by
  unfold Bus.put
  cases hpump : s.pump with
  | idle => exact h
  | buffering x =>
    simp only
    refine ⟨fun y hy ↦ ?_, nofun, ?_⟩
    · simp only [Bus.waiting, Pump.buffered, List.append_nil] at hy
      apply h.waiting
      rw [Bus.waiting, hpump]
      exact mem_pushOutboundReplay hy
    · simp only [pushOutboundReplay, List.length_drop]
      omega
  | publishing x =>
    refine ⟨fun y hy ↦ h.waiting y ?_, nofun, h.buffer⟩
    exact List.mem_append_left _ (by simpa [Bus.waiting, Bus.send, Pump.buffered] using hy)

theorem Numbered.step (h : Numbered s) (o : Step) : Numbered (s.step o) := by
  cases o with
  | take ev => exact h.take ev
  | put now => exact h.put now
  | tick ev => exact h.of_eq rfl rfl (Nat.le_succ _)
  | subscribe j | republish j | read j | close j =>
    unfold Bus.step
    simp only
    split <;> first | exact h | exact h.of_eq rfl rfl (Nat.le_refl _)
  | greet j ev =>
    unfold Bus.step
    simp only
    split
    · exact h.of_eq rfl rfl (Nat.le_succ _)
    · exact h
  | drain j now =>
    unfold Bus.step
    simp only
    split
    · exact ⟨fun x hx ↦ h.waiting x (List.mem_append_right _ hx), h.publishing, Nat.zero_le _⟩
    · exact h

variable {lo : Nat} {E : List Item}

theorem Outage.receiverCount (h : Outage lo E s) : s.receiverCount = 0 := by
  rw [Bus.receiverCount, List.countP_eq_zero]
  intro r hr hopen
  rw [h.closed r hr] at hopen
  cases hopen

/-- Nothing reaches a relay without a session. -/
theorem Outage.send (h : Outage lo E s) (x : Item) : s.send x = s := by
  have hmap : s.relays.map (fun r ↦ r.receive x) = s.relays := by
    refine (List.map_congr_left fun r hr ↦ ?_).trans (List.map_id _)
    rw [Relay.receive, h.closed r hr]
    rfl
  rw [Bus.send, hmap]

/-- A session that is not there does nothing. -/
theorem Outage.phase (h : Outage lo E s) {j : Nat} {r : Relay} (hj : s.relays[j]? = some r) :
    r.phase = .closed := by
  have hclosed := h.closed r (List.mem_of_getElem? hj)
  obtain ⟨phase, queue, socket⟩ := r
  cases phase with
  | closed => rfl
  | subscribed | replaying | reading => cases hclosed

/-- The pump takes an event into the outage. -/
theorem Outage.take (h : Outage lo E s) (ev : NostrEvent) :
    Outage lo (E ++ s.misses (.take ev)) (s.step (.take ev)) := by
  have hnumbered := h.numbered.take ev
  have hcount := h.receiverCount
  change Outage lo _ (s.take ev)
  unfold Bus.misses
  unfold Bus.take at hnumbered ⊢
  cases hpump : s.pump with
  | idle =>
    have hwaiting : s.waiting = s.outboundReplay.map Prod.snd := by
      simp [Bus.waiting, hpump, Pump.buffered]
    simp only [hpump, hcount, ↓reduceIte, true_and] at hnumbered ⊢
    by_cases hkind : ev.kind = signalingEphemeralKind
    · simp only [hkind, ↓reduceIte] at hnumbered ⊢
      have hafter : Bus.waiting { s with
          emitted := s.emitted + 1, pump := .buffering ⟨s.emitted, ev⟩ } =
          s.waiting ++ [⟨s.emitted, ev⟩] := by
        rw [hwaiting, Bus.waiting, Pump.buffered]
      refine ⟨hnumbered, h.closed, Nat.le_succ_of_le h.since, nofun, ?_, ?_⟩
      · rw [hafter, List.pairwise_append]
        refine ⟨h.order, List.pairwise_singleton _ _, fun a _ b hb _ ↦ ?_⟩
        rw [List.mem_singleton.mp hb]
        exact h.since
      · rw [hafter, List.filter_append, h.waiting,
          List.filter_cons_of_pos (by simpa using h.since), List.filter_nil]
    · simp only [hkind, ↓reduceIte, List.append_nil] at hnumbered ⊢
      have hafter : Bus.waiting { s with emitted := s.emitted + 1, pump := .idle } =
          s.waiting := by simp [Bus.waiting, Pump.buffered, hpump]
      refine ⟨hnumbered, h.closed, Nat.le_succ_of_le h.since, nofun, ?_, ?_⟩
      · rw [hafter]
        exact h.order
      · rw [hafter]
        exact h.waiting
  | buffering x =>
    simp only [List.append_nil]
    exact h
  | publishing x =>
    simp only [List.append_nil]
    exact h

/-- The pump buffers what it took, or publishes to nobody. -/
theorem Outage.put (h : Outage lo E s) (hfew : E.length ≤ outboundReplayCap) (now : Nat) :
    Outage lo E (s.step (.put now)) := by
  have hnumbered := h.numbered.put now
  change Outage lo E (s.put now)
  unfold Bus.put at hnumbered ⊢
  cases hpump : s.pump with
  | idle => exact h
  | buffering x =>
    simp only [hpump] at hnumbered ⊢
    have hbefore : s.waiting = s.outboundReplay.map Prod.snd ++ [x] := by
      rw [Bus.waiting, hpump, Pump.buffered]
    have horder : (s.outboundReplay.map Prod.snd ++ [x]).Pairwise
        fun a b ↦ decide (lo ≤ a.seq) = true → decide (lo ≤ b.seq) = true := by
      rw [← hbefore]
      exact h.order.imp fun hab ha ↦ decide_eq_true (hab (of_decide_eq_true ha))
    obtain ⟨hfilter, hpairs, -⟩ := filter_pushOutboundReplay (T := fun y ↦ decide (lo ≤ y.seq)) now
      horder h.numbered.buffer (by rw [← hbefore, h.waiting]; exact hfew)
    rw [← hbefore, h.waiting] at hfilter
    generalize pushOutboundReplay s.outboundReplay now x = buf at hfilter hpairs hnumbered ⊢
    have hafter : Bus.waiting { s with pump := .idle, outboundReplay := buf } =
        buf.map Prod.snd := by simp [Bus.waiting, Pump.buffered]
    refine ⟨hnumbered, h.closed, h.since, nofun, ?_, ?_⟩
    · rw [hafter]
      exact hpairs.imp fun hab ha ↦ of_decide_eq_true (hab (decide_eq_true ha))
    · rw [hafter]
      exact hfilter
  | publishing x =>
    simp only [hpump, h.send x] at hnumbered ⊢
    have hafter : Bus.waiting { s with pump := .idle } = s.waiting := by
      simp [Bus.waiting, Pump.buffered, hpump]
    refine ⟨hnumbered, h.closed, h.since, nofun, ?_, ?_⟩
    · rw [hafter]
      exact h.order
    · rw [hafter]
      exact h.waiting

/-- A session that is not there takes no step. -/
theorem Outage.step_absent (h : Outage lo E s) {o : Step} (ho : ∀ j, o ≠ .subscribe j)
    (htake : ∀ ev, o ≠ .take ev) (hput : ∀ now, o ≠ .put now) (htick : ∀ ev, o ≠ .tick ev) :
    s.step o = s := by
  cases o with
  | take ev => exact absurd rfl (htake ev)
  | put now => exact absurd rfl (hput now)
  | tick ev => exact absurd rfl (htick ev)
  | subscribe j => exact absurd rfl (ho j)
  | drain j now =>
    unfold Bus.step
    simp only
    split
    · next hj => exact absurd (h.phase hj) nofun
    · rfl
  | republish j =>
    unfold Bus.step
    simp only
    split
    · next hj => exact absurd (h.phase hj) nofun
    · rfl
  | greet j ev =>
    unfold Bus.step
    simp only
    split
    · next hj => exact absurd (h.phase hj) nofun
    · rfl
  | read j =>
    unfold Bus.step
    simp only
    split
    · next hj => exact absurd (h.phase hj) nofun
    · rfl
  | close j =>
    unfold Bus.step
    simp only
    split
    · next hj => exact absurd (h.phase hj) nofun
    · next hj => exact absurd (h.phase hj) nofun
    · rfl

/-- What a step without a new session preserves. -/
theorem Outage.step (h : Outage lo E s) {o : Step} (ho : ∀ j, o ≠ .subscribe j)
    (hfew : E.length ≤ outboundReplayCap) : Outage lo (E ++ s.misses o) (s.step o) := by
  cases o with
  | take ev => exact h.take ev
  | put now =>
    change Outage lo (E ++ []) _
    rw [List.append_nil]
    exact h.put hfew now
  | tick ev =>
    change Outage lo (E ++ []) { s.send ⟨s.emitted, ev⟩ with emitted := s.emitted + 1 }
    rw [List.append_nil, h.send]
    exact ⟨h.numbered.of_eq rfl rfl (Nat.le_succ _), h.closed, Nat.le_succ_of_le h.since,
      h.publishing, h.order, h.waiting⟩
  | subscribe j => exact absurd rfl (ho j)
  | drain j now | republish j | greet j ev | read j | close j =>
    change Outage lo (E ++ []) _
    rw [List.append_nil, h.step_absent ho nofun nofun nofun]
    exact h

/-- The whole outage. -/
theorem Outage.run (h : Outage lo E s) {ops : List Step} (hops : ∀ o ∈ ops, ∀ j, o ≠ .subscribe j)
    (hfew : (E ++ missed s ops).length ≤ outboundReplayCap) :
    Outage lo (E ++ missed s ops) (run Bus.step s ops) := by
  induction ops generalizing s E with
  | nil =>
    rw [missed, List.append_nil]
    exact h
  | cons o ops ih =>
    rw [missed, ← List.append_assoc] at hfew ⊢
    have hprefix : E.length ≤ outboundReplayCap := by
      simp only [List.length_append] at hfew
      omega
    exact ih (h.step (hops o List.mem_cons_self) hprefix)
      (fun o' ho' ↦ hops o' (List.mem_cons_of_mem _ ho')) hfew

/-- The events that were emitted in an outage, by their numbers. -/
def emittedIn (lo hi : Nat) (x : Item) : Bool := lo ≤ x.seq ∧ x.seq < hi

/-- The first session to come back finds all of them waiting. -/
theorem Outage.subscribe (h : Outage lo E s) {i : Nat} (hi : i < s.relays.length) :
    Carried (emittedIn lo s.emitted) E i ⟨.subscribed, [], []⟩ (s.step (.subscribe i)) := by
  have hstep : s.step (.subscribe i) = s.setRelay i ⟨.subscribed, [], []⟩ := by
    have hi' : s.relays[i]? = some s.relays[i] := List.getElem?_eq_getElem hi
    have hphase := h.phase hi'
    unfold Bus.step
    simp only
    split
    · rfl
    · next hother =>
      generalize s.relays[i] = r at hi' hphase
      obtain ⟨phase, queue, socket⟩ := r
      subst hphase
      exact absurd hi' (hother queue socket)
  have hfresh : ∀ l, (s.setRelay i ⟨.subscribed, [], []⟩).freshAt (emittedIn lo s.emitted) l =
      [] := by
    intro l
    unfold Bus.freshAt Bus.setRelay
    by_cases hl : l = i
    · subst hl
      simp only [List.getElem?_set_self hi]
      rfl
    · simp only [List.getElem?_set_ne (Ne.symm hl)]
      cases hr : s.relays[l]? with
      | none => rfl
      | some r =>
        have hphase := h.phase hr
        simp [Relay.fresh, hphase]
  have htracked : ∀ x ∈ s.waiting, emittedIn lo s.emitted x = decide (lo ≤ x.seq) := by
    intro x hx
    simp [emittedIn, h.numbered.waiting x hx]
  rw [hstep]
  refine ⟨List.getElem?_set_self hi, rfl, Nat.zero_le _, fun x hx ↦ (of_decide_eq_true hx).2,
    fun x hx ↦ ?_, h.numbered.buffer, ?_, .inl rfl, i, fun l _ ↦ hfresh l, .inl (hfresh i), ?_⟩
  · have hlt := h.publishing x hx
    simp only [emittedIn, decide_eq_false_iff_not]
    omega
  · refine h.order.imp_of_mem fun {a b} ha hb hab hat ↦ ?_
    rw [htracked a ha, decide_eq_true_eq] at hat
    rw [htracked b hb, decide_eq_true_eq]
    exact hab hat
  · rw [hfresh]
    exact (List.filter_congr htracked).trans h.waiting

end Outage

/-! ### Every run -/

/-- A driver that starts with so many relays. -/
def Bus.new (n : Nat) : Bus := ⟨0, [], .idle, List.replicate n ⟨.closed, [], []⟩⟩

theorem numbered_new (n : Nat) : Numbered (Bus.new n) :=
  ⟨fun _ hx ↦ absurd hx List.not_mem_nil, nofun, Nat.zero_le _⟩

theorem length_relays_step (s : Bus) (o : Step) :
    (s.step o).relays.length = s.relays.length := by
  cases o with
  | take ev =>
    simp only [Bus.step, Bus.take]
    split
    · split
      · split <;> rfl
      · rfl
    · rfl
  | put now =>
    simp only [Bus.step, Bus.put]
    split
    · rfl
    · rfl
    · simp [Bus.send]
  | tick ev => simp [Bus.step, Bus.send]
  | subscribe j | drain j now | republish j | greet j ev | read j | close j =>
    simp only [Bus.step]
    split <;> simp [Bus.setRelay, Bus.send]

/-- A session that reads the bus writes all that waits for it there. -/
theorem run_reads {i : Nat} {s : Bus} {queue socket : List Item}
    (h : s.relays[i]? = some ⟨.reading, queue, socket⟩) :
    (run Bus.step s (List.replicate queue.length (.read i))).relays[i]? =
      some ⟨.reading, [], socket ++ queue⟩ := by
  induction queue generalizing s socket with
  | nil =>
    rw [List.append_nil]
    exact h
  | cons x queue ih =>
    obtain ⟨hlt, -⟩ := List.getElem?_eq_some_iff.mp h
    have hstep : s.step (.read i) = s.setRelay i ⟨.reading, queue, socket ++ [x]⟩ := by
      simp only [Bus.step, h]
    rw [List.length_cons, List.replicate_succ, run_cons, hstep,
      ih (List.getElem?_set_self hlt), List.append_assoc, List.singleton_append]

/-- A driver has been running, and no session is left. Directed events are emitted into the
outage, no more than the buffer holds. Then a session subscribes, and from there on every step is
careful. In every state that follows, the session's socket has the first of them, in order and
once each; and as soon as the session reads the bus and nobody is still publishing what it drained,
the socket and the bus together have all of them, and the session's next reads write the rest. -/
theorem directed_events_survive_redial (n : Nat) (history outage after : List Step) {i : Nat}
    (hi : i < n) (hdown : ∀ r ∈ (run Bus.step (Bus.new n) history).relays, r.isOpen = false)
    (houtage : ∀ o ∈ outage, ∀ j, o ≠ .subscribe j)
    (hfew : (missed (run Bus.step (Bus.new n) history) outage).length ≤ outboundReplayCap)
    (hafter : AllSteps Bus.step
      (Careful (emittedIn (run Bus.step (Bus.new n) history).emitted
        (run Bus.step (Bus.new n) (history ++ outage)).emitted) i)
      ((run Bus.step (Bus.new n) (history ++ outage)).step (.subscribe i)) after) :
    let E := missed (run Bus.step (Bus.new n) history) outage
    let T := emittedIn (run Bus.step (Bus.new n) history).emitted
      (run Bus.step (Bus.new n) (history ++ outage)).emitted
    ∀ pre post, after = pre ++ post →
      ∃ r, (run Bus.step (Bus.new n) (history ++ outage ++ .subscribe i :: pre)).relays[i]? =
          some r ∧ r.socket.filter T <+: E ∧
        (r.phase = .reading →
          (∀ r' ∈ (run Bus.step (Bus.new n) (history ++ outage ++ .subscribe i :: pre)).relays,
            r'.fresh = []) →
          (r.socket ++ r.queue).filter T = E ∧
            ((run Bus.step (Bus.new n) (history ++ outage ++ .subscribe i :: pre ++
              List.replicate r.queue.length (.read i))).relays[i]?).map
                (fun r' ↦ r'.socket.filter T) = some E) := by
  intro E T pre post hsplit
  have hnumbered : Numbered (run Bus.step (Bus.new n) history) :=
    run_invariant (I := Numbered) (fun _ o h ↦ h.step o) (numbered_new n) history
  have hlength : ∀ ops, (run Bus.step (Bus.new n) ops).relays.length = n := fun ops ↦
    run_invariant (I := fun s ↦ s.relays.length = n)
      (fun s o h ↦ (length_relays_step s o).trans h) (by simp [Bus.new]) ops
  have hstart : Outage (run Bus.step (Bus.new n) history).emitted []
      (run Bus.step (Bus.new n) history) := by
    have hold : ∀ x ∈ (run Bus.step (Bus.new n) history).waiting,
        ¬ (run Bus.step (Bus.new n) history).emitted ≤ x.seq := fun x hx ↦
      Nat.not_le.mpr (hnumbered.waiting x hx)
    refine ⟨hnumbered, hdown, Nat.le_refl _, hnumbered.publishing, ?_, ?_⟩
    · exact (List.pairwise_of_forall_mem_list fun a ha b _ hle ↦ absurd hle (hold a ha))
    · rw [List.filter_eq_nil_iff]
      exact fun x hx hle ↦ hold x hx (of_decide_eq_true hle)
  have hend := hstart.run houtage (by simpa using hfew)
  rw [List.nil_append, ← run_append] at hend
  have hcarried := hend.subscribe (i := i) (by rw [hlength]; exact hi)
  have hall := forall_run_of_allSteps (I := fun s ↦ ∃ r, Carried T E i r s)
    (fun s o hs ho ↦ hs.elim fun r h ↦ h.step hfew ho) ⟨_, hcarried⟩ hafter
  obtain ⟨r, h⟩ := hall pre post hsplit
  have hrun : run Bus.step (Bus.new n) (history ++ outage ++ .subscribe i :: pre) =
      run Bus.step ((run Bus.step (Bus.new n) (history ++ outage)).step (.subscribe i)) pre := by
    rw [run_append, run_cons]
  rw [hrun]
  refine ⟨r, h.relay, h.written, fun hreading hdone ↦ ?_⟩
  have harrived := h.arrived hreading hdone
  refine ⟨harrived, ?_⟩
  obtain ⟨phase, queue, socket⟩ := r
  subst hreading
  rw [run_append, hrun, run_reads h.relay, Option.map_some]
  exact congrArg some harrived

/-- A directed event. -/
def offerEvent : NostrEvent :=
  { id := "o", pubkey := "k", createdAt := 7, kind := signalingEphemeralKind
    tags := [["r", "room"], ["p", "dev"]], content := "offer", sig := "s" }

/-- Two offers wait for a session, which replays and writes them. -/
theorem two_offers_written :
    ((run Bus.step (Bus.new 1) [.take offerEvent, .put 0, .take offerEvent, .put 1,
        .subscribe 0, .drain 0 5, .republish 0, .republish 0, .greet 0 none, .read 0,
        .read 0]).relays[0]?).map (fun r ↦ r.socket.filter (emittedIn 0 2)) =
      some [⟨0, offerEvent⟩, ⟨1, offerEvent⟩] := by
  have hroom : ∀ {s : Bus} {r' : Relay}, r'.queue.length < busCapacity →
      s.relays[0]? = some r' → ∀ r, s.relays[0]? = some r → r.Room (emittedIn 0 2) := by
    intro s r' hshort hr' r hr x queue _ hfull
    rw [hr'] at hr
    cases hr
    exact absurd hfull (Nat.not_le.mpr hshort)
  obtain ⟨r, hr, -, hall⟩ := directed_events_survive_redial 1 []
    [.take offerEvent, .put 0, .take offerEvent, .put 1]
    [.drain 0 5, .republish 0, .republish 0, .greet 0 none] (i := 0) (Nat.zero_lt_one)
    (by decide) (fun o ho j heq ↦ by subst heq; simp at ho) (by decide)
    ⟨⟨nofun, fun entry he _ ↦ by revert entry; decide⟩,
      hroom (by decide) rfl, hroom (by decide) rfl, trivial, trivial⟩
    [.drain 0 5, .republish 0, .republish 0, .greet 0 none] [] rfl
  cases hr
  exact (hall rfl (by decide)).2

/-- An offer whose pump found no subscriber just before a session began is still in the buffer
after that session drained it. And of sixty-five offers that a session replays, the bus has
dropped the first when the session begins to read. -/
theorem offers_lost :
    (missed (Bus.new 1) [.take offerEvent] = [⟨0, offerEvent⟩] ∧
      run Bus.step (Bus.new 1) [.take offerEvent, .subscribe 0, .drain 0 0, .put 0,
          .greet 0 none, .read 0] =
        ⟨2, [(0, ⟨0, offerEvent⟩)], .idle, [⟨.reading, [], []⟩]⟩) ∧
    ((run Bus.step (Bus.new 1) ((List.replicate 65 [.take offerEvent, .put 0]).flatten ++
        [.subscribe 0, .drain 0 0] ++ List.replicate 65 (.republish 0) ++
        [.greet 0 none] ++ List.replicate 65 (.read 0))).relays[0]?).map
      (fun r ↦ (r.socket.map Item.seq, r.queue.length)) = some (List.range' 1 64, 0) := by
  refine ⟨⟨rfl, rfl⟩, ?_⟩
  decide +kernel

end MyOwnMesh.Nostr
