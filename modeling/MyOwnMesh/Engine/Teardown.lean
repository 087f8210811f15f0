import MyOwnMesh.Engine.Reliable

/-!
# A flush against the teardown of its session

`flush_peer` of `crates/myownmesh-core/src/engine/reliable.rs` and a recoverable
`drop_peer_inner` of `engine/mod.rs`, as two tasks that share the peer map and the outbox. The
flush lets go of the outbox around each send and takes it again to record the outcome, so the
reset of the teardown can fall in between. A step is what one of the tasks does under one lock
or in one await.
-/

namespace MyOwnMesh.Reliable

open Lib Lib.Replay

variable {α : Type}

/-! ### The two tasks -/

/-- What the flush reads of a peer; `reliable.rs:145–158`, `mod.rs:3059–3066`. -/
structure PeerLink where
  up : Bool
  features : List String
  session : Bool

/-- Where a `flush_peer` stands; `reliable.rs:164–233`. -/
inductive FlushTask (α : Type) where
  | start
  | linked (ackedPeer : Bool)
  | sending (ackedPeer : Bool) (stream : UInt64) (toSend : List (Nat × String × α))
  /-- `send_to_peer` has the session in hand. -/
  | writing (ackedPeer : Bool) (stream : UInt64) (frame : Nat × String × α)
    (toSend : List (Nat × String × α))
  /-- The send returned, the outbox does not say so yet. -/
  | recording (ackedPeer : Bool) (stream : UInt64) (seq : Nat)
    (toSend : List (Nat × String × α))
  | finished
  deriving DecidableEq

/-- Where a recoverable `drop_peer_inner` stands; `mod.rs:3445–3575`. -/
inductive DropTask where
  | start
  | removed
  | closed
  | finished
  deriving DecidableEq

/-- The state the tasks share, where each of them stands, the frames the session took and the
waits that were resolved. -/
structure Race (α : Type) where
  peer : Option PeerLink
  slots : PeerSlots α
  flush : FlushTask α
  drop : DropTask
  wire : List (ChannelFrame α)
  replies : List (Nat × Except Error Unit)

/-- Neither task has begun. -/
def Race.start (peer : Option PeerLink) (slots : PeerSlots α) : Race α where
  peer := peer
  slots := slots
  flush := .start
  drop := .start
  wire := []
  replies := []

/-- The next step of the flush; `reliable.rs:164–233` with `send_to_peer`, `mod.rs:3054–3088`.
`took` is whether the session takes the frame. -/
def Race.flushStep (s : Race α) (took : Bool) : Race α :=
  match s.flush with
  | .start =>
    match s.peer with
    | none => { s with flush := .finished }
    | some link =>
      if link.up then { s with flush := .linked (peerSupports link.features reliableChannels) }
      else { s with flush := .finished }
  | .linked ackedPeer =>
    match s.slots.out with
    | none => { s with flush := .finished }
    | some outbox =>
      let toSend := (outbox.entries.filter (!·.sent)).map fun e ↦ (e.seq, e.channel, e.payload)
      { s with flush := .sending ackedPeer outbox.stream toSend }
  | .sending _ _ [] => { s with flush := .finished }
  | .sending ackedPeer stream (frame :: rest) =>
    if s.peer.any (·.session) then { s with flush := .writing ackedPeer stream frame rest }
    else { s with flush := .finished }
  | .writing ackedPeer stream (seq, channel, payload) rest =>
    let msg : ChannelFrame α :=
      if ackedPeer then .channelSeq stream seq channel payload else .channel channel payload
    if took then
      { s with flush := .recording ackedPeer stream seq rest, wire := s.wire ++ [msg] }
    else { s with flush := .finished }
  | .recording ackedPeer stream seq rest =>
    match s.slots.out with
    | none => { s with flush := .finished }
    | some outbox =>
      if ackedPeer then
        { s with
          slots := { s.slots with
            out := some { outbox with entries := markSent seq outbox.entries } }
          flush := .sending ackedPeer stream rest }
      else
        { s with
          slots := { s.slots with
            out := some { outbox with entries := outbox.entries.eraseP (·.seq == seq) } }
          flush := .sending ackedPeer stream rest
          replies := s.replies ++
            ((outbox.entries.find? (·.seq == seq)).map fun e ↦ (e.reply, .ok ())).toList }
  | .finished => s

/-- The next step of the teardown: the peer leaves the map, its session closes, the outbox is
reset; `mod.rs:3454–3457`, `3463–3503`, `3551–3559`. -/
def Race.dropStep (s : Race α) : Race α :=
  match s.drop with
  | .start => { s with peer := none, drop := .removed }
  | .removed => { s with drop := .closed }
  | .closed => { s with slots := (markUnsent s.slots).1, drop := .finished }
  | .finished => s

/-- Which of the two goes next. -/
inductive RaceOp where
  | flush (took : Bool)
  | drop

/-- One step of an interleaving. -/
def raceStep (s : Race α) : RaceOp → Race α
  | .flush took => s.flushStep took
  | .drop => s.dropStep

/-- Every entry of the outbox will be sent again. -/
def AllUnsent (slots : PeerSlots α) : Prop :=
  ∀ outbox, slots.out = some outbox → ∀ e ∈ outbox.entries, e.sent = false

/-- The step does not record a frame as sent once the outbox was reset: the flush is not at the
bookkeeping of a send to a peer that acknowledges, or the teardown has not come to its reset. -/
def RecordsInTime (s : Race α) (o : RaceOp) : Prop :=
  match o, s.flush with
  | .flush _, .recording true _ _ _ => s.drop ≠ .finished
  | _, _ => True

/-! ### What a step can do -/

/-- The numbers a flush to an acknowledging peer may still record. -/
def FlushTask.seqs : FlushTask α → List Nat
  | .sending true _ toSend => toSend.map Prod.fst
  | .writing true _ frame toSend => frame.1 :: toSend.map Prod.fst
  | .recording true _ seq toSend => seq :: toSend.map Prod.fst
  | _ => []

/-- The flush knows that the peer acknowledges, or is over. -/
def FlushTask.acks : FlushTask α → Bool
  | .start => false
  | .linked _ => false
  | .sending ackedPeer _ _ => ackedPeer
  | .writing ackedPeer _ _ _ => ackedPeer
  | .recording ackedPeer _ _ _ => ackedPeer
  | .finished => true

/-- A step of the flush records a frame, or leaves the outbox alone and sets out to send frames
that are in it. -/
theorem Race.flushStep_cases (s : Race α) (took : Bool) :
    (s.flushStep took).drop = s.drop ∧
    (s.flush.acks = true → (s.flushStep took).flush.acks = true) ∧
    ((∃ ackedPeer stream seq rest outbox, s.flush = .recording ackedPeer stream seq rest ∧
        s.slots.out = some outbox ∧ (s.flushStep took).flush = .sending ackedPeer stream rest ∧
        (s.flushStep took).slots.out = some { outbox with
          entries := if ackedPeer then markSent seq outbox.entries
            else outbox.entries.eraseP (·.seq == seq) }) ∨
      ((s.flushStep took).slots = s.slots ∧
        ((s.flushStep took).flush.seqs ⊆ s.flush.seqs ∨
          ∃ outbox, s.slots.out = some outbox ∧
            (s.flushStep took).flush.seqs ⊆ outbox.entries.map Pending.seq))) := by
  unfold Race.flushStep
  cases hflush : s.flush with
  | start =>
    cases s.peer with
    | none => simp [FlushTask.seqs, FlushTask.acks]
    | some link => cases hup : link.up <;> simp [FlushTask.seqs, FlushTask.acks, hup]
  | linked ackedPeer =>
    cases hout : s.slots.out with
    | none => simp [FlushTask.seqs, FlushTask.acks]
    | some outbox =>
      dsimp only
      refine ⟨rfl, by simp [FlushTask.acks], .inr ⟨rfl, .inr ⟨outbox, rfl, ?_⟩⟩⟩
      cases ackedPeer with
      | false => simp [FlushTask.seqs]
      | true =>
        -- The snapshot consists of entries of the outbox.
        intro seq hseq
        simp only [FlushTask.seqs, List.map_map, List.mem_map, Function.comp_apply,
          List.mem_filter] at hseq
        obtain ⟨e, ⟨he, -⟩, rfl⟩ := hseq
        exact List.mem_map.mpr ⟨e, he, rfl⟩
  | sending ackedPeer stream toSend =>
    cases toSend with
    | nil => simp [FlushTask.seqs, FlushTask.acks]
    | cons frame rest =>
      dsimp only
      split
      · refine ⟨rfl, id, .inr ⟨rfl, .inl ?_⟩⟩
        cases ackedPeer <;> simp [FlushTask.seqs]
      · simp [FlushTask.seqs, FlushTask.acks]
  | writing ackedPeer stream frame rest =>
    dsimp only
    split
    · refine ⟨rfl, id, .inr ⟨rfl, .inl ?_⟩⟩
      cases ackedPeer <;> simp [FlushTask.seqs]
    · simp [FlushTask.seqs, FlushTask.acks]
  | recording ackedPeer stream seq rest =>
    cases hout : s.slots.out with
    | none => simp [FlushTask.seqs, FlushTask.acks]
    | some outbox =>
      cases ackedPeer with
      | true => exact ⟨rfl, id, .inl ⟨true, stream, seq, rest, outbox, rfl, rfl, rfl, rfl⟩⟩
      | false => exact ⟨rfl, id, .inl ⟨false, stream, seq, rest, outbox, rfl, rfl, rfl, rfl⟩⟩
  | finished => simp [hflush, FlushTask.acks]

/-- A step of the teardown leaves the flush alone; the last one resets the outbox. -/
theorem Race.dropStep_cases (s : Race α) :
    s.dropStep.flush = s.flush ∧
    (s.dropStep.slots = s.slots ∧ (s.dropStep.drop = .finished → s.drop = .finished) ∧
        (s.drop = .finished → s.dropStep.drop = .finished) ∨
      s.drop = .closed ∧ s.dropStep.drop = .finished ∧
        s.dropStep.slots = (markUnsent s.slots).1) := by
  unfold Race.dropStep
  cases hdrop : s.drop <;> simp [hdrop]

/-! ### What the flush still has to record is in the outbox -/

/-- The frame of every number still to record is held. -/
def Race.Held (s : Race α) : Prop :=
  ∀ seq ∈ s.flush.seqs, ∃ outbox, s.slots.out = some outbox ∧ seq ∈ outbox.entries.map Pending.seq

private theorem map_seq_markSent (seq : Nat) (es : List (Pending α)) :
    (markSent seq es).map Pending.seq = es.map Pending.seq := by
  induction es with
  | nil => rfl
  | cons e rest ih =>
    rw [markSent]
    split
    · rfl
    · rw [List.map_cons, List.map_cons, ih]

private theorem mem_markSent_of_mem {seq : Nat} {es : List (Pending α)}
    (h : seq ∈ es.map Pending.seq) : ∃ e ∈ markSent seq es, e.sent = true := by
  induction es with
  | nil => cases h
  | cons e rest ih =>
    rw [markSent]
    split
    · exact ⟨_, List.mem_cons_self, rfl⟩
    · next hne =>
      rw [List.map_cons, List.mem_cons] at h
      obtain ⟨x, hx, hsent⟩ := ih (h.resolve_left (Ne.symm hne))
      exact ⟨x, List.mem_cons_of_mem e hx, hsent⟩

private theorem sent_markSent {seq : Nat} {es : List (Pending α)}
    (h : ∃ e ∈ es, e.sent = true) : ∃ e ∈ markSent seq es, e.sent = true := by
  induction es with
  | nil => simp at h
  | cons a rest ih =>
    rw [markSent]
    split
    · exact ⟨_, List.mem_cons_self, rfl⟩
    · obtain ⟨e, he, hsent⟩ := h
      rcases List.mem_cons.mp he with rfl | he
      · exact ⟨e, List.mem_cons_self, hsent⟩
      · obtain ⟨x, hx, hx'⟩ := ih ⟨e, he, hsent⟩
        exact ⟨x, List.mem_cons_of_mem a hx, hx'⟩

/-- No step drops a frame that the flush still has to record. -/
theorem Race.Held.step {s : Race α} (h : s.Held) (o : RaceOp) : (raceStep s o).Held := by
  intro n hn
  cases o with
  | drop =>
    obtain ⟨hflush, ⟨hslots, -⟩ | ⟨-, -, hslots⟩⟩ := s.dropStep_cases
    · obtain ⟨outbox, hout, hmem⟩ := h n (by rwa [raceStep, hflush] at hn)
      exact ⟨outbox, by rwa [raceStep, hslots], hmem⟩
    · obtain ⟨outbox, hout, hmem⟩ := h n (by rwa [raceStep, hflush] at hn)
      refine ⟨_, by rw [raceStep, hslots, markUnsent, hout]; rfl, ?_⟩
      simpa [Function.comp_def] using hmem
  | flush took =>
    obtain ⟨-, -, ⟨ackedPeer, stream, seq, rest, outbox, hflush, hout, hflush', hout'⟩ |
      ⟨hslots, hsub | ⟨outbox, hout, hsub⟩⟩⟩ := s.flushStep_cases took
    · refine ⟨_, hout', ?_⟩
      rw [raceStep, hflush'] at hn
      cases ackedPeer with
      | false => cases hn
      | true =>
        obtain ⟨outbox', hout'', hmem⟩ := h n (by
          rw [hflush]
          exact List.mem_cons_of_mem seq hn)
        obtain rfl : outbox = outbox' := Option.some.inj (hout.symm.trans hout'')
        simpa [map_seq_markSent] using hmem
    · obtain ⟨outbox, hout, hmem⟩ := h n (hsub hn)
      exact ⟨outbox, by rwa [raceStep, hslots], hmem⟩
    · exact ⟨outbox, by rwa [raceStep, hslots], hsub hn⟩

/-! ### After the reset -/

/-- After the reset everything is unsent. -/
def Race.Reset (s : Race α) : Prop := s.drop = .finished → AllUnsent s.slots

/-- A step that records in time keeps it so. -/
theorem Race.Reset.step {s : Race α} (h : s.Reset) (o : RaceOp) (hc : RecordsInTime s o) :
    (raceStep s o).Reset := by
  intro hlate
  cases o with
  | drop =>
    obtain ⟨-, ⟨hslots, hfin, -⟩ | ⟨-, -, hslots⟩⟩ := s.dropStep_cases
    · rw [raceStep, hslots]
      exact h (hfin hlate)
    · rw [raceStep, hslots]
      intro outbox hout e he
      simp only [markUnsent, Option.map_eq_some_iff] at hout
      obtain ⟨before, -, rfl⟩ := hout
      obtain ⟨x, -, rfl⟩ := List.mem_map.mp he
      rfl
  | flush took =>
    obtain ⟨hdrop, -, ⟨ackedPeer, stream, seq, rest, outbox, hflush, hout, -, hout'⟩ |
      ⟨hslots, -⟩⟩ := s.flushStep_cases took
    · rw [raceStep, hdrop] at hlate
      cases ackedPeer with
      | true => exact absurd hlate (by simpa [RecordsInTime, hflush] using hc)
      | false =>
        intro outbox' hnew e he
        obtain rfl := Option.some.inj (hout'.symm.trans hnew)
        exact h hlate outbox hout e (List.mem_of_mem_eraseP he)
    · rw [raceStep, hslots]
      exact h (hdrop ▸ hlate)

/-- The reset is over, the peer acknowledges and some entry counts as sent. -/
def Race.Forgotten (s : Race α) : Prop :=
  s.drop = .finished ∧ s.flush.acks = true ∧
    ∃ outbox, s.slots.out = some outbox ∧ ∃ e ∈ outbox.entries, e.sent = true

/-- A frame that is recorded too late is forgotten. -/
theorem Race.forgotten_of_late {s : Race α} (h : s.Held) {o : RaceOp}
    (hc : ¬ RecordsInTime s o) : (raceStep s o).Forgotten := by
  unfold RecordsInTime at hc
  split at hc
  · next took stream seq rest hflush =>
    have hlate : s.drop = .finished := not_not.mp hc
    obtain ⟨outbox, hout, hmem⟩ := h seq (by rw [hflush]; exact List.mem_cons_self)
    refine ⟨?_, ?_, { outbox with entries := markSent seq outbox.entries }, ?_,
      mem_markSent_of_mem hmem⟩
    · simp [raceStep, Race.flushStep, hflush, hout, hlate]
    · simp [raceStep, Race.flushStep, hflush, hout, FlushTask.acks]
    · simp [raceStep, Race.flushStep, hflush, hout]
  · exact absurd trivial hc

/-- Nothing makes up for it before the next session. -/
theorem Race.Forgotten.step {s : Race α} (h : s.Forgotten) (o : RaceOp) :
    (raceStep s o).Forgotten := by
  obtain ⟨hlate, hacks, outbox, hout, hsent⟩ := h
  cases o with
  | drop =>
    obtain ⟨hflush, ⟨hslots, -, hfin⟩ | ⟨hclosed, -⟩⟩ := s.dropStep_cases
    · refine ⟨hfin hlate, ?_, outbox, ?_, hsent⟩
      · rwa [raceStep, hflush]
      · rwa [raceStep, hslots]
    · rw [hclosed] at hlate
      cases hlate
  | flush took =>
    obtain ⟨hdrop, hacks', ⟨ackedPeer, stream, seq, rest, outbox', hflush, hout', -, hnew⟩ |
      ⟨hslots, -⟩⟩ := s.flushStep_cases took
    · obtain rfl : outbox = outbox' := Option.some.inj (hout.symm.trans hout')
      obtain rfl : ackedPeer = true := by simpa [hflush, FlushTask.acks] using hacks
      exact ⟨hdrop.trans hlate, hacks' hacks, _, hnew, sent_markSent hsent⟩
    · refine ⟨hdrop.trans hlate, hacks' hacks, outbox, ?_, hsent⟩
      rwa [raceStep, hslots]

/-! ### Every interleaving -/

/-- In every interleaving of a flush with the teardown of its session, whenever the teardown has
finished, and so also when both have, every entry that is in the outbox is marked unsent if and
only if no send to a peer that acknowledges was recorded after the reset. -/
theorem teardown_unsent_iff (peer : Option PeerLink) (slots : PeerSlots α) (ops : List RaceOp)
    (hdrop : (run raceStep (.start peer slots) ops).drop = .finished) :
    AllUnsent (run raceStep (.start peer slots) ops).slots ↔
      AllSteps raceStep RecordsInTime (.start peer slots) ops := by
  have hheld : (Race.start peer slots).Held := by
    intro seq hseq
    cases hseq
  have hreset : (Race.start peer slots).Reset := by
    intro hno
    cases hno
  generalize Race.start peer slots = s at *
  induction ops generalizing s with
  | nil => exact ⟨fun _ ↦ trivial, fun _ ↦ hreset hdrop⟩
  | cons o rest ih =>
    rw [run_cons] at hdrop ⊢
    by_cases hc : RecordsInTime s o
    · refine (ih _ hdrop (hheld.step o) (hreset.step o hc)).trans ?_
      exact ⟨fun h ↦ ⟨hc, h⟩, And.right⟩
    · have hbad : (run raceStep (raceStep s o) rest).Forgotten :=
        run_invariant (fun _ o' h ↦ h.step o') (Race.forgotten_of_late hheld hc) rest
      obtain ⟨-, -, outbox, hout, e, he, hsent⟩ := hbad
      refine ⟨fun hall ↦ ?_, fun h ↦ absurd h.1 hc⟩
      have hunsent := hall outbox hout e he
      rw [hsent] at hunsent
      cases hunsent

/-- One frame waits for a peer that speaks the acked contract. -/
def waitingFrame : PeerSlots Nat where
  peer := "peer"
  out := some ⟨9, 1, [⟨1, "chat", 10, 60000, false, 0⟩]⟩
  inMark := none

/-- The peer with its session. -/
def openLink : PeerLink := ⟨true, advertisedFeatures, true⟩

/-- The frame is sent, the session closes, and the send is recorded before the reset. -/
def recordedFirst : List RaceOp :=
  [.flush true, .flush true, .flush true, .flush true, .drop, .drop, .flush true, .drop,
    .flush true]

/-- Both tasks have finished and the frame will be sent again. -/
theorem recordedFirst_unsent :
    (run raceStep (.start (some openLink) waitingFrame) recordedFirst).flush = .finished ∧
    (run raceStep (.start (some openLink) waitingFrame) recordedFirst).wire =
      [.channelSeq 9 1 "chat" 10] ∧
    AllUnsent (run raceStep (.start (some openLink) waitingFrame) recordedFirst).slots := by
  refine ⟨by decide, by decide, (teardown_unsent_iff _ _ _ (by decide)).mpr ?_⟩
  refine ⟨trivial, trivial, trivial, trivial, trivial, trivial, ?_, trivial, trivial, trivial⟩
  exact fun hno ↦ by cases hno

/-- The reset falls between the send of the frame and its record: both tasks have finished and
the frame counts as sent on a session that is gone. -/
theorem frame_sent_on_closed_session :
    ¬ ∀ (peer : Option PeerLink) (slots : PeerSlots Nat) (ops : List RaceOp),
      (run raceStep (.start peer slots) ops).flush = .finished →
      (run raceStep (.start peer slots) ops).drop = .finished →
      AllUnsent (run raceStep (.start peer slots) ops).slots := by
  intro hall
  have hunsent := hall (some openLink) waitingFrame
    [.flush true, .flush true, .flush true, .flush true, .drop, .drop, .drop, .flush true,
      .flush true] (by decide) (by decide)
  have hentry := hunsent ⟨9, 1, [⟨1, "chat", 10, 60000, true, 0⟩]⟩ (by decide) _
    (List.mem_singleton_self _)
  cases hentry

end MyOwnMesh.Reliable
