import MyOwnMesh.Lib.Json
import MyOwnMesh.Lib.Replay
import MyOwnMesh.Nostr.Driver
import MyOwnMesh.SignalingServer.Takeover

/-!
# What a driver reads of its relays

Every relay that a driver is connected with may hand it the same event, and any relay may hand it
an old one again. A reading is an event that passed every check and whose id was not remembered;
only readings reach the engine. Over any history of frames the ids of the readings are kept apart
by the memory, and every acceptable event is read or was read before.
-/

namespace MyOwnMesh.Nostr

open Lib SignalingServer

/-- The event that a frame carries; `driver.rs:1086–1100`. -/
def eventOf (X : Externals) (frame : String) : Option NostrEvent :=
  match X.parse frame with
  | some (.array arr) =>
    if arr.head?.bind Value.asStr = some "EVENT" then arr[2]?.bind X.decodeEvent else none
  | _ => none

/-- An event of another key in our room, with a signature that verifies; `driver.rs:1101–1121`. -/
def acceptable (X : Externals) (shared : Shared) (ev : NostrEvent) : Bool :=
  ev.verify X && (ev.tags.any fun t ↦ t[0]? == some "r" && t[1]? == some shared.roomHandle) &&
    ev.pubkey != X.pubkey

/-- What an envelope tells the engine; it does not depend on the driver's state. -/
def envelopeInbound (shared : Shared) (kind : UInt16) (e : SignalingEnvelope) :
    Option NostrInbound :=
  (Driver.new.act shared kind e).2

/-- What an event tells the engine once it is read. -/
def saying (S : Serde) (shared : Shared) (ev : NostrEvent) : Option NostrInbound :=
  (S.fromStr ev.content).bind fun e ↦
    if envelopeShape shared e then envelopeInbound shared ev.kind e else none

/-- The event that a driver reads from a frame. -/
def Driver.reads (X : Externals) (shared : Shared) (d : Driver) (frame : String) :
    Option NostrEvent :=
  (eventOf X frame).filter fun ev ↦ acceptable X shared ev && ev.id ∉ d.seenEventIds

/-- What a driver tells the engine upon a frame. -/
def Driver.tells (S : Serde) (X : Externals) (shared : Shared) (d : Driver) (frame : String) :
    Option NostrInbound :=
  match (d.handleInboundFrame S X shared frame).2 with
  | .ok i => i
  | .error _ => none

/-- The events that a driver reads from a history of frames. -/
def readings (S : Serde) (X : Externals) (shared : Shared) :
    Driver → List String → List NostrEvent
  | _, [] => []
  | d, frame :: frames =>
    (d.reads X shared frame).toList ++ readings S X shared (d.step S X shared frame) frames

/-- What a driver tells the engine upon a history of frames. -/
def tellings (S : Serde) (X : Externals) (shared : Shared) :
    Driver → List String → List NostrInbound
  | _, [] => []
  | d, frame :: frames =>
    (d.tells S X shared frame).toList ++ tellings S X shared (d.step S X shared frame) frames

/-- What an envelope of an event of this kind means to us: an announce of another device in a
stored event, a departure of another device in an ephemeral one, and negotiation in an ephemeral
one that is addressed to us. The message names the sender of the envelope. -/
inductive Says (shared : Shared) : UInt16 → SignalingEnvelope → NostrInbound → Prop
  | announce {peerId : String} (caps : List String) (hother : peerId ≠ shared.deviceId) :
    Says shared signalingEventKind ⟨peerId, none, .announce peerId caps⟩ (.peerAnnounced peerId)
  | leave {peerId : String} (hother : peerId ≠ shared.deviceId) :
    Says shared signalingEphemeralKind ⟨peerId, none, .leave peerId⟩ (.peerLeft peerId)
  | offer (peerId offerId sdp : String) :
    Says shared signalingEphemeralKind ⟨peerId, some shared.deviceId, .offer peerId offerId sdp⟩
      (.message peerId (.offer peerId offerId sdp))
  | answer (peerId offerId sdp : String) :
    Says shared signalingEphemeralKind ⟨peerId, some shared.deviceId, .answer peerId offerId sdp⟩
      (.message peerId (.answer peerId offerId sdp))
  | candidate (peerId candidate : String) (sdpMid : Option String)
      (sdpMlineIndex : Option UInt16) (usernameFragment : Option String) :
    Says shared signalingEphemeralKind
      ⟨peerId, some shared.deviceId,
        .candidate peerId candidate sdpMid sdpMlineIndex usernameFragment⟩
      (.message peerId (.candidate peerId candidate sdpMid sdpMlineIndex usernameFragment))

variable {S : Serde} {X : Externals} {shared : Shared}

/-! ### One frame -/

theorem act_inbound (d : Driver) (kind : UInt16) (e : SignalingEnvelope) :
    (d.act shared kind e).2 = envelopeInbound shared kind e := by
  unfold envelopeInbound Driver.act
  cases e.msg with
  | announce | leave | offer | answer | candidate => simp only; split <;> rfl

theorem act_seenEventIds (d : Driver) (kind : UInt16) (e : SignalingEnvelope) :
    (d.act shared kind e).1.seenEventIds = d.seenEventIds := by
  unfold Driver.act
  cases e.msg with
  | announce | leave | offer | answer | candidate => simp only; split <;> rfl

/-- An event says exactly what its envelope means. -/
theorem saying_eq_some_iff {ev : NostrEvent} {i : NostrInbound} :
    saying S shared ev = some i ↔
      ∃ e, S.fromStr ev.content = some e ∧ Says shared ev.kind e i := by
  rw [saying, Option.bind_eq_some_iff]
  refine exists_congr fun e ↦ and_congr_right fun _ ↦ ?_
  obtain ⟨sender, recipient, msg⟩ := e
  generalize ev.kind = kind
  constructor
  · intro h
    split at h
    case isFalse => cases h
    case isTrue hshape =>
      unfold envelopeShape at hshape
      unfold envelopeInbound Driver.act at h
      cases msg with
      | announce peerId caps =>
        simp only [SignalingMessage.peerId] at hshape h
        split at h
        · cases h
        · next hkind =>
          rw [not_or, not_not] at hkind
          obtain ⟨rfl, hother⟩ := hkind
          cases recipient with
          | some r => simp at hshape
          | none =>
            simp only [Bool.and_eq_true, beq_iff_eq] at hshape
            obtain rfl := hshape.1
            cases h
            exact .announce caps hother
      | leave peerId =>
        simp only [SignalingMessage.peerId] at hshape h
        split at h
        · cases h
        · next hkind =>
          rw [not_or, not_not] at hkind
          obtain ⟨rfl, hother⟩ := hkind
          cases recipient with
          | some r => simp at hshape
          | none =>
            simp only [Bool.and_eq_true, beq_iff_eq] at hshape
            obtain rfl := hshape.1
            cases h
            exact .leave hother
      | offer | answer | candidate =>
        simp only [SignalingMessage.peerId] at hshape h
        split at h
        · cases h
        · next hkind =>
          rw [not_not] at hkind
          simp only [Bool.false_and, Bool.not_false, Bool.true_and, Bool.false_or,
            Bool.and_eq_true, beq_iff_eq, Bool.not_eq_true', bne_eq_false_iff_eq] at hshape
          obtain ⟨rfl, rfl⟩ := hshape
          subst hkind
          cases h
          constructor
  · rintro h
    cases h with
    | announce caps hother =>
      simp [envelopeShape, envelopeInbound, Driver.act, SignalingMessage.peerId, hother]
    | leave hother =>
      simp [envelopeShape, envelopeInbound, Driver.act, SignalingMessage.peerId, hother]
    | offer | answer | candidate =>
      simp [envelopeShape, envelopeInbound, Driver.act, SignalingMessage.peerId]

/-- Reading an event: its id is remembered, and its envelope is what counts. -/
theorem readEvent_spec (d : Driver) (ev : NostrEvent) :
    d.readEvent S X shared ev =
      if acceptable X shared ev = true ∧ ev.id ∉ d.seenEventIds then
        ({ d with seenEventIds := SeenRing.remember seenEventCapacity d.seenEventIds ev.id },
          match S.fromStr ev.content with
          | none => .error .badEnvelope
          | some e => if envelopeShape shared e then .ok (some (ev.kind, e)) else .ok none)
      else (d, .ok none) := by
  unfold Driver.readEvent acceptable
  by_cases hverify : ev.verify X = true
  · by_cases hroom : (ev.tags.any fun t ↦ t[0]? == some "r" && t[1]? == some shared.roomHandle) =
        true
    · by_cases hown : ev.pubkey = X.pubkey
      · simp [hown]
      · by_cases hseen : ev.id ∈ d.seenEventIds
        · simp [hseen]
        · simp only [hverify, hroom, hown, hseen, not_true_eq_false, ↓reduceIte, Bool.and_self,
            Bool.true_and, bne_iff_ne, ne_eq, not_false_eq_true, and_self]
          cases S.fromStr ev.content with
          | none => rfl
          | some e => simp only; split <;> rfl
    · simp [hroom]
  · simp [hverify]

/-- A frame that carries no event changes nothing and tells nothing. -/
private theorem handle_of_eventOf_none (d : Driver) {frame : String}
    (h : eventOf X frame = none) :
    d.step S X shared frame = d ∧ d.tells S X shared frame = none := by
  unfold Driver.step Driver.tells Driver.handleInboundFrame Driver.readFrame
  unfold eventOf at h
  cases hparse : X.parse frame with
  | none => exact ⟨rfl, rfl⟩
  | some v =>
    rw [hparse] at h
    cases v with
    | array arr =>
      simp only at h ⊢
      by_cases hevent : arr.head?.bind Value.asStr = some "EVENT"
      · rw [if_pos hevent] at h ⊢
        cases hbody : arr[2]? with
        | none => exact ⟨rfl, rfl⟩
        | some value =>
          rw [hbody, Option.bind_some] at h
          simp only [h, and_self]
      · rw [if_neg hevent]
        exact ⟨rfl, rfl⟩
    | _ => exact ⟨rfl, rfl⟩

/-- A frame is read by way of the event that it carries. -/
theorem readFrame_of_eventOf (d : Driver) {frame : String} {ev : NostrEvent}
    (h : eventOf X frame = some ev) :
    d.readFrame S X shared frame = d.readEvent S X shared ev := by
  unfold Driver.readFrame
  unfold eventOf at h
  cases hparse : X.parse frame with
  | none => simp [hparse] at h
  | some v =>
    cases v with
    | array arr =>
      simp only [hparse] at h ⊢
      by_cases hevent : arr.head?.bind Value.asStr = some "EVENT"
      · rw [if_pos hevent] at h ⊢
        cases hbody : arr[2]? with
        | none => simp [hbody] at h
        | some value =>
          rw [hbody, Option.bind_some] at h
          simp only [h]
      · rw [if_neg hevent] at h
        cases h
    | _ => simp [hparse] at h

/-- What one frame does: the id of what is read is remembered, and what is read is said. -/
theorem frame_spec (d : Driver) (frame : String) :
    (d.step S X shared frame).seenEventIds =
        (d.reads X shared frame).elim d.seenEventIds
          (fun ev ↦ SeenRing.remember seenEventCapacity d.seenEventIds ev.id) ∧
      d.tells S X shared frame = (d.reads X shared frame).bind (saying S shared) := by
  cases hevent : eventOf X frame with
  | none =>
    obtain ⟨hstep, htells⟩ : d.step S X shared frame = d ∧ d.tells S X shared frame = none :=
      handle_of_eventOf_none d hevent
    have hreads : d.reads X shared frame = none := by rw [Driver.reads, hevent]; rfl
    rw [hstep, htells, hreads]
    exact ⟨rfl, rfl⟩
  | some ev =>
    have hread : d.readFrame S X shared frame = d.readEvent S X shared ev :=
      readFrame_of_eventOf d hevent
    rw [readEvent_spec] at hread
    unfold Driver.step Driver.tells Driver.handleInboundFrame
    rw [hread]
    by_cases hnew : acceptable X shared ev = true ∧ ev.id ∉ d.seenEventIds
    · have hreads : d.reads X shared frame = some ev := by
        rw [Driver.reads, hevent, Option.filter_some, if_pos (by simp [hnew])]
      rw [hreads, if_pos hnew]
      simp only [Option.elim_some, Option.bind_some, saying]
      cases S.fromStr ev.content with
      | none => exact ⟨rfl, rfl⟩
      | some e =>
        by_cases hshape : envelopeShape shared e = true
        · simp only [hshape, ↓reduceIte, act_inbound, act_seenEventIds, Option.bind_some,
            and_self]
        · simp only [hshape, Bool.false_eq_true, ↓reduceIte, Option.bind_some, and_self]
    · have hreads : d.reads X shared frame = none := by
        rw [Driver.reads, hevent, Option.filter_some, if_neg (by simpa using hnew)]
      rw [hreads, if_neg hnew]
      exact ⟨rfl, rfl⟩

/-! ### Every history -/

variable (S X shared)

/-- The ids of what a driver reads are those its memory is made of. -/
theorem ring_readings (frames : List String) {d : Driver} {log : List String}
    (h : SeenRing.Ring seenEventCapacity log d.seenEventIds) :
    SeenRing.Ring seenEventCapacity (log ++ (readings S X shared d frames).map NostrEvent.id)
      (Replay.run (Driver.step S X shared) d frames).seenEventIds := by
  induction frames generalizing d log with
  | nil => simpa [readings, Replay.run_nil] using h
  | cons frame frames ih =>
    rw [Replay.run_cons, readings, List.map_append, ← List.append_assoc]
    apply ih
    rw [(frame_spec d frame).1]
    cases hread : d.reads X shared frame with
    | none => simpa using h
    | some ev =>
      obtain ⟨-, hok⟩ := Option.filter_eq_some_iff.mp hread
      rw [Bool.and_eq_true, decide_eq_true_eq] at hok
      exact h.pass (by decide) hok.2

/-- What a driver tells is what its readings say, in order. -/
theorem tellings_eq (frames : List String) (d : Driver) :
    tellings S X shared d frames = (readings S X shared d frames).filterMap (saying S shared) := by
  induction frames generalizing d with
  | nil => rfl
  | cons frame frames ih =>
    rw [tellings, readings, List.filterMap_append, ih, (frame_spec d frame).2]
    congr 1
    cases d.reads X shared frame with
    | none => rfl
    | some ev => cases h : saying S shared ev <;> simp [h]

/-- A history goes on from the driver that its first part leaves. -/
theorem tellings_append (d : Driver) (xs ys : List String) :
    tellings S X shared d (xs ++ ys) =
      tellings S X shared d xs ++
        tellings S X shared (Replay.run (Driver.step S X shared) d xs) ys := by
  induction xs generalizing d with
  | nil => rfl
  | cons x xs ih =>
    rw [List.cons_append, tellings, tellings, ih, Replay.run_cons, List.append_assoc]

/-- Every reading comes from a frame of the history and is acceptable. -/
theorem readings_sublist (frames : List String) (d : Driver) :
    (readings S X shared d frames).Sublist
      ((frames.filterMap (eventOf X)).filter (acceptable X shared)) := by
  induction frames generalizing d with
  | nil => exact List.Sublist.slnil
  | cons frame frames ih =>
    rw [readings, Driver.reads, List.filterMap_cons]
    cases hevent : eventOf X frame with
    | none => exact ih _
    | some ev =>
      rw [List.filter_cons, Option.filter_some]
      by_cases hok : acceptable X shared ev = true
      · rw [if_pos hok]
        split
        · exact (ih _).cons_cons ev
        · exact (ih _).cons ev
      · rw [if_neg hok, if_neg (by simp [hok])]
        exact ih _

/-- An acceptable event of the history is remembered at the start, or its id is read. -/
theorem id_mem_readings {frames : List String} {d : Driver} {log : List String}
    (hring : SeenRing.Ring seenEventCapacity log d.seenEventIds) {frame : String}
    (hframe : frame ∈ frames) {ev : NostrEvent} (hevent : eventOf X frame = some ev)
    (hok : acceptable X shared ev = true) :
    ev.id ∈ log ++ (readings S X shared d frames).map NostrEvent.id := by
  induction frames generalizing d log with
  | nil => cases hframe
  | cons first frames ih =>
    have hnext := ring_readings S X shared [first] hring
    rw [readings, readings, List.append_nil, Replay.run_cons, Replay.run_nil] at hnext
    rw [readings, List.map_append, ← List.append_assoc]
    rcases List.mem_cons.mp hframe with rfl | hlater
    · by_cases hseen : ev.id ∈ d.seenEventIds
      · exact List.mem_append_left _ (List.mem_append_left _ (hring.mem_log hseen))
      · have hread : d.reads X shared frame = some ev := by
          rw [Driver.reads, hevent, Option.filter_some, if_pos (by simp [hok, hseen])]
        rw [hread]
        refine List.mem_append_left _ (List.mem_append_right _ ?_)
        exact List.mem_map_of_mem (List.mem_singleton_self ev)
    · exact ih hnext hlater

/-- Over every history of frames, whichever relays they come from: a driver tells the engine what
its readings say, in order; a reading is an acceptable event of the history; no id is read twice
among any 2049 readings in a row, and the id of every acceptable event is read; and what is told
is what the envelope of a reading means for us. -/
theorem acceptable_events_are_read_once (frames : List String) :
    let read := readings S X shared Driver.new frames
    tellings S X shared Driver.new frames = read.filterMap (saying S shared) ∧
    read.Sublist ((frames.filterMap (eventOf X)).filter (acceptable X shared)) ∧
    (∀ w, w <:+: read → w.length ≤ seenEventCapacity + 1 → (w.map NostrEvent.id).Nodup) ∧
    (∀ frame ∈ frames, ∀ ev, eventOf X frame = some ev → acceptable X shared ev = true →
      ev.id ∈ read.map NostrEvent.id) ∧
    ∀ i ∈ tellings S X shared Driver.new frames, ∃ ev ∈ read, ∃ e,
      S.fromStr ev.content = some e ∧ Says shared ev.kind e i := by
  intro read
  have hring := ring_readings S X shared frames (d := Driver.new) SeenRing.Ring.nil
  rw [List.nil_append] at hring
  refine ⟨tellings_eq S X shared frames _, readings_sublist S X shared frames _, ?_, ?_, ?_⟩
  · intro w hw hlength
    exact hring.apart _ (hw.map _) (by rwa [List.length_map])
  · intro frame hframe ev hevent hok
    exact id_mem_readings S X shared (d := Driver.new) SeenRing.Ring.nil hframe hevent hok
  · intro i hi
    rw [tellings_eq, List.mem_filterMap] at hi
    obtain ⟨ev, hev, hsays⟩ := hi
    exact ⟨ev, hev, saying_eq_some_iff.mp hsays⟩

/-! ### Texts of relays -/

/-- The text of a JSON object. -/
def objectText (fields : List (String × List Char)) : List Char :=
  '\x7b' :: (List.intercalate [','] (fields.map fun f ↦ Json.field f.1 f.2) ++ ['\x7d'])

/-- The text of an event, as a relay hands it on. -/
def eventText (ev : NostrEvent) : String :=
  String.ofList ("[\"EVENT\",\"s\",".toList ++
    objectText [("id", Json.quote ev.id), ("pubkey", Json.quote ev.pubkey),
      ("created_at", Json.number ev.createdAt.toNat), ("kind", Json.number ev.kind.toNat),
      ("tags", '[' :: (List.intercalate [','] (ev.tags.map Json.array) ++ [']'])),
      ("content", Json.quote ev.content), ("sig", Json.quote ev.sig)] ++ [']'])

/-- A library that reads the texts of these events, with keys whose signatures are readable. -/
def keyed (key : String) (events : List NostrEvent) : Externals :=
  { readable with
    parse := fun text ↦ (events.find? fun ev ↦ eventText ev = text).map fun ev ↦
      .array [.string "EVENT", .string "s", ev.toValue]
    decodeEvent := fun v ↦ events.find? fun ev ↦ (v.get? "id").bind Value.asStr = some ev.id
    eventId := fun pubkey _ _ _ content ↦ pubkey ++ content
    verifySchnorr := fun pubkey id sig ↦ sig == pubkey ++ id
    pubkey := key
    signDigest := fun id ↦ key ++ id }

/-- A relay's frame carries the event whose text it is, if texts and ids tell the events apart. -/
theorem eventOf_keyed (key : String) {events : List NostrEvent} {ev : NostrEvent}
    (hev : ev ∈ events)
    (hapart : ∀ e ∈ events, eventText e = eventText ev ∨ e.id = ev.id → e = ev) :
    eventOf (keyed key events) (eventText ev) = some ev := by
  have hfind : ∀ p : NostrEvent → Bool, p ev = true → (∀ e ∈ events, p e = true → e = ev) →
      events.find? p = some ev := by
    intro p hp honly
    cases hfound : events.find? p with
    | none => exact absurd hp (List.find?_eq_none.mp hfound ev hev)
    | some e => rw [honly e (List.mem_of_find?_eq_some hfound) (List.find?_some hfound)]
  have hparse : (keyed key events).parse (eventText ev) =
      some (.array [.string "EVENT", .string "s", ev.toValue]) := by
    simp only [keyed]
    rw [hfind _ (by simp) fun e he htext ↦ hapart e he (.inl (by simpa using htext))]
    rfl
  have hdecode : (keyed key events).decodeEvent ev.toValue = some ev := by
    simp only [keyed]
    refine hfind _ (by simp [NostrEvent.toValue, Value.get?, Value.asStr]) fun e he hid ↦ ?_
    refine hapart e he (.inr ?_)
    simpa [NostrEvent.toValue, Value.get?, Value.asStr, eq_comm] using hid
  rw [eventOf, hparse]
  exact hdecode

end MyOwnMesh.Nostr
