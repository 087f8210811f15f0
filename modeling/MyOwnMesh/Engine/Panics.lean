import MyOwnMesh.Engine.Bootstrap
import MyOwnMesh.Engine.Frames

/-!
# Frames that end the driver

Peers are tracked under canonical ids, which are ASCII and can be cut anywhere
(`engine/signaling_bridge.rs:296–315` refuses the others), and every index of the handlers is in
range. What remains are ids that a frame chooses: the device a hello claims to be, the
proposer and the signer that a governance frame claims, and the two ends of a routed envelope.
A frame is handled to the end exactly when these can be cut where the diagnostics cut them.
-/

namespace MyOwnMesh

open Lib Lib.Replay Lib.Delivery Reliable

variable {P : Primitives}

/-- Every peer is tracked under a canonical id. -/
def CanonicalPeers (s : SessionState P) : Prop :=
  ∀ (k : String) (p : PeerState), s.peers[k]? = some p → normalizeDeviceId P k = .ok k

/-- Whoever was tracked under a canonical id still is. -/
theorem CanonicalPeers.of_keepsPeers {s t : SessionState P} (h : CanonicalPeers s)
    (hk : KeepsPeers s t) : CanonicalPeers t := by
  intro k p hp
  obtain ⟨q, hq, -⟩ := hk.peers k p hp
  exact h k q hq

/-- Editing a peer moves no id. -/
theorem CanonicalPeers.modifyPeer {s : SessionState P} (h : CanonicalPeers s) (k : String)
    (f : PeerState → PeerState) : CanonicalPeers (s.modifyPeer k f) := by
  intro d p hp
  rw [SessionState.modifyPeer, getElem?_modify_peer] at hp
  split at hp
  · obtain ⟨q, hq, -⟩ := Option.map_eq_some_iff.mp hp
    exact h d q hq
  · exact h d p hp

/-- A canonical id is shortened without a panic. -/
theorem isSome_shortPeer {k : String} (h : normalizeDeviceId P k = .ok k) :
    (shortPeer k).isSome :=
  (isSome_shortPeer_iff k).mpr (.of_ascii fun _ hc ↦ (ascii_of_normalizeDeviceId P h hc).1)

/-- A canonical id is clipped without a panic. -/
theorem isSome_clip {k : String} (h : normalizeDeviceId P k = .ok k) : (clip k).isSome :=
  (isSome_clip_iff k).mpr (.of_ascii fun _ hc ↦ (ascii_of_normalizeDeviceId P h hc).1)

/-! ### Handlers that finish -/

/-- The handler finishes, with every peer still under a canonical id. -/
def Finishes (r : Option (FrameState P)) : Prop :=
  ∃ t, r = some t ∧ CanonicalPeers t.session

/-- A handler that does nothing finishes. -/
theorem Finishes.done {s : FrameState P} (h : CanonicalPeers s.session) : Finishes (some s) :=
  ⟨s, rfl, h⟩

/-- A handler that finishes has a result. -/
theorem Finishes.isSome {r : Option (FrameState P)} (h : Finishes r) : r.isSome := by
  obtain ⟨t, rfl, -⟩ := h
  rfl

/-- Two handlers in a row. -/
theorem Finishes.bind {r : Option (FrameState P)} {f : FrameState P → Option (FrameState P)}
    (hr : Finishes r) (hf : ∀ t, CanonicalPeers t.session → Finishes (f t)) :
    Finishes (r.bind f) := by
  obtain ⟨t, rfl, ht⟩ := hr
  exact hf t ht

/-- A diagnostic, and then the rest. -/
theorem note_bind {written : Bool} {name : Option String} {α : Type} (x : Option α)
    (h : written = true → name.isSome) : ((note written name).bind fun _ ↦ x) = x := by
  unfold note
  cases written with
  | false => rfl
  | true =>
    obtain ⟨n, rfl⟩ := Option.isSome_iff_exists.mp (h rfl)
    rfl

/-- A loop over peers. -/
theorem Finishes.foldlM {f : FrameState P → String → Option (FrameState P)} (keys : List String)
    (hf : ∀ t k, k ∈ keys → CanonicalPeers t.session → Finishes (f t k)) {s : FrameState P}
    (h : CanonicalPeers s.session) : Finishes (keys.foldlM f s) := by
  induction keys generalizing s with
  | nil => exact .done h
  | cons k rest ih =>
    rw [List.foldlM_cons]
    exact (hf s k List.mem_cons_self h).bind fun t ht ↦
      ih (fun u d hd hu ↦ hf u d (List.mem_cons_of_mem k hd) hu) ht

/-- Every index of the selector is in range. -/
theorem finishes_reevaluateTopology (env : FrameEnv) {s : FrameState P}
    (h : CanonicalPeers s.session) : Finishes (s.reevaluateTopology env) := by
  have hkeeps := keepsSessions_reevaluateTopology env.toSessionEnv s.session
  unfold FrameState.reevaluateTopology
  split
  · exact .done h
  · obtain ⟨preferred, hpref⟩ := exists_selectPreferred P s.session.engine.topology
      s.session.engine.selfId s.session.activePeers
    rw [hpref]
    exact .done (h.of_keepsPeers hkeeps.toKeepsPeers)

/-- A drop finishes. -/
theorem finishes_dropPeer (env : FrameEnv) {s : FrameState P} (h : CanonicalPeers s.session)
    (k reason : String) : Finishes (s.dropPeer env k reason) := by
  unfold FrameState.dropPeer
  split
  · exact .done h
  · split
    · exact .done h
    · next p hp =>
      simp only [Option.bind_eq_bind]
      rw [note_bind _ fun _ ↦ isSome_shortPeer (h k p hp)]
      apply finishes_reevaluateTopology
      intro d q hq
      simp only [FrameState.withSlots, getElem?_erase_peer] at hq
      split at hq
      · cases hq
      · exact h d q hq

/-- A denial of a tracked device finishes. -/
theorem finishes_denyIfEvicted {s : FrameState P} (h : CanonicalPeers s.session) {k : String}
    (hk : normalizeDeviceId P k = .ok k) : Finishes (s.denyIfEvicted k) := by
  unfold FrameState.denyIfEvicted
  simp only [Option.bind_eq_bind]
  rw [note_bind _ fun _ ↦ isSome_clip hk]
  exact .done (h.of_keepsPeers (foldl_denyIfEvicted [k] s.session).2.2.1.toKeepsPeers)

/-- An activation finishes. -/
theorem finishes_settleActivation (env : FrameEnv) {s : FrameState P}
    (h : CanonicalPeers s.session) (k : String) : Finishes (s.settleActivation env k) := by
  unfold FrameState.settleActivation
  split
  · exact .done h
  · next p hp =>
    split
    · simp only [Option.bind_eq_bind]
      rw [note_bind _ fun _ ↦ isSome_shortPeer (h k p hp)]
      refine Finishes.bind (finishes_reevaluateTopology env ?_) fun t ht ↦ .done ht
      exact (h.modifyPeer k _).of_keepsPeers
        (keepsSessions_approveRoster env.toSessionEnv _ k p.label).toKeepsPeers
    · exact .done h

/-- An approval finishes. -/
theorem finishes_sendLocalApprove (env : FrameEnv) {s : FrameState P}
    (h : CanonicalPeers s.session) (k : String) : Finishes (s.sendLocalApprove env k) := by
  unfold FrameState.sendLocalApprove
  split
  · exact .done h
  · split
    · exact .done h
    · simp only
      split
      · exact finishes_settleActivation env (h.modifyPeer k _) k
      · exact .done ((h.modifyPeer k _).modifyPeer k _)

/-- An adoption of a tracked device's logs finishes. -/
theorem finishes_adoptLogs (env : FrameEnv) {s : FrameState P} (h : CanonicalPeers s.session)
    {peerId : String} (hk : normalizeDeviceId P peerId = .ok peerId)
    (incomingGov incomingMembers : List Transition) :
    Finishes (s.adoptLogs env peerId incomingGov incomingMembers) := by
  unfold FrameState.adoptLogs
  simp only [Option.bind_eq_bind]
  rw [note_bind _ fun _ ↦ isSome_clip hk]
  split
  · exact .done h
  · next projected removed hproj =>
    refine Finishes.bind ?_ fun shaped hshaped ↦ ?_
    · unfold FrameState.reshape
      split
      · exact finishes_reevaluateTopology env h
      · exact .done h
    refine Finishes.bind ?_ fun approved happroved ↦ ?_
    · exact .foldlM _ (fun t k _ ht ↦ finishes_sendLocalApprove env ht k) hshaped
    refine Finishes.bind ?_ fun denied hdenied ↦ ?_
    · unfold FrameState.denyTombstoned
      split
      · refine .foldlM _ (fun t k hkey ht ↦ finishes_denyIfEvicted ht ?_) happroved
        have hmem := (List.mem_filter.mp hkey).1
        rw [Std.ExtTreeMap.mem_keys] at hmem
        exact happroved k _ (Std.ExtTreeMap.getElem?_eq_some_getElem hmem)
      · exact .done happroved
    rw [note_bind _ fun _ ↦ isSome_clip hk]
    exact .done hdenied

/-- An auth response is handled to the end. -/
theorem finishes_onAuthResponse (env : FrameEnv) {s : FrameState P} (h : CanonicalPeers s.session)
    {k : String} (hk : normalizeDeviceId P k = .ok k) (signature : String) :
    Finishes (s.onAuthResponse env k signature) := by
  have hdrop := finishes_dropPeer env h k "AuthFailed"
  unfold FrameState.onAuthResponse
  split
  · exact .done h
  · split
    · exact .done h
    · split
      · exact hdrop
      · split
        · split
          · exact finishes_denyIfEvicted h hk
          · simp only [Option.bind_eq_bind]
            rw [note_bind _ fun _ ↦ isSome_shortPeer hk]
            split
            · exact finishes_sendLocalApprove env (h.modifyPeer k _) k
            · exact .done (h.modifyPeer k _)
        · exact hdrop

/-- So is a deny, whatever logs it carries. -/
theorem finishes_onDeny (env : FrameEnv) {s : FrameState P} (h : CanonicalPeers s.session)
    {k : String} (hk : normalizeDeviceId P k = .ok k) (transitions memberLog : List Transition) :
    Finishes (s.onDeny env k transitions memberLog) := by
  unfold FrameState.onDeny
  split
  · exact finishes_dropPeer env h k "Denied"
  · refine Finishes.bind ?_ fun adopted hadopted ↦ finishes_dropPeer env hadopted k "Denied"
    exact (finishes_adoptLogs env h hk transitions memberLog).bind fun merged hmerged ↦
      .done hmerged

/-- And a roster with its logs. -/
theorem finishes_onRosterEntries (env : FrameEnv) {s : FrameState P}
    (h : CanonicalPeers s.session) {k : String} (hk : normalizeDeviceId P k = .ok k)
    (entries : List RosterEntry) (transitions memberLog : List Transition) :
    Finishes (s.onRosterEntries env k entries transitions memberLog) := by
  unfold FrameState.onRosterEntries
  simp only [Option.bind_eq_bind]
  rw [note_bind _ fun _ ↦ isSome_clip hk]
  apply finishes_adoptLogs env _ hk
  exact h

/-! ### Handlers that panic on a name -/

/-- A diagnostic needs its name if it is written. -/
theorem isSome_note_bind_iff {written : Bool} {name : Option String} {α : Type} {x : Option α} :
    ((note written name).bind fun _ ↦ x).isSome ↔
      (written = true → name.isSome) ∧ x.isSome := by
  unfold note
  cases written with
  | false => simp
  | true => cases name <;> simp

/-- A hello that claims another device needs the claimed id cut. -/
theorem isSome_onHello_iff (env : FrameEnv) {s : FrameState P} (h : CanonicalPeers s.session)
    {k : String} (hk : normalizeDeviceId P k = .ok k) (hello : HelloFrame) :
    (s.onHello env k hello).isSome ↔
      (pubkeyPart hello.deviceId ≠ pubkeyPart k → Shortens hello.deviceId) := by
  unfold FrameState.onHello
  simp only [Option.bind_eq_bind]
  split
  · next hid =>
    rw [note_bind _ fun _ ↦ isSome_shortPeer hk, isSome_note_bind_iff, isSome_shortPeer_iff]
    simp [hid, (finishes_dropPeer env h k "AuthFailed").isSome]
  · next hid =>
    rw [note_bind _ fun _ ↦ isSome_shortPeer hk]
    have hnoted := h.modifyPeer k fun p ↦
      { p with nonceReceived := some hello.nonce, label := hello.label }
    simp only [hid, false_implies, iff_true]
    split
    · exact (finishes_dropPeer env hnoted k "AuthFailed").isSome
    · split
      · exact (finishes_dropPeer env hnoted k "AuthFailed").isSome
      · rfl

/-- Governance frames run the selector at most. -/
theorem isSome_govern (env : FrameEnv) (s : FrameState P) (op : GovOp) :
    (s.govern env op).isSome := by
  unfold FrameState.govern
  simp only
  split
  · next mode _ =>
    obtain ⟨preferred, hpref⟩ := exists_selectPreferred P
      (MyOwnMesh.govern env.toSessionEnv s.session op).engine.topology
      (MyOwnMesh.govern env.toSessionEnv s.session op).engine.selfId s.session.activePeers
    rw [hpref]
    rfl
  · rfl

/-- A proposal in another's name needs that name cut. -/
theorem isSome_onPropose_iff (env : FrameEnv) (s : FrameState P) {k : String}
    (hk : normalizeDeviceId P k = .ok k) (msg : ProposeMessage) :
    (s.onPropose env k msg).isSome ↔ (msg.proposer ≠ pubkeyPart k → Clips msg.proposer) := by
  have hself : (clip (pubkeyPart k)).isSome := by
    rw [pubkeyPart_of_normalizeDeviceId P hk]
    exact isSome_clip hk
  unfold FrameState.onPropose
  simp only [Option.bind_eq_bind, isSome_note_bind_iff, isSome_govern, and_true, hself,
    implies_true, true_and, ← isSome_clip_iff, bne_iff_ne]
  constructor
  · exact fun hboth ↦ hboth.1
  · refine fun hother ↦ ⟨hother, fun hown ↦ ?_⟩
    simp only [Bool.and_eq_true, beq_iff_eq] at hown
    rw [hown.1.1]
    exact hself

/-- An answer in another's name needs that name cut. -/
theorem isSome_onAck_iff (env : FrameEnv) (s : FrameState P) {k : String}
    (hk : normalizeDeviceId P k = .ok k) (msg : AckMessage) :
    (s.onAck env k msg).isSome ↔ (msg.signer ≠ pubkeyPart k → Clips msg.signer) := by
  have hself : (clip (pubkeyPart k)).isSome := by
    rw [pubkeyPart_of_normalizeDeviceId P hk]
    exact isSome_clip hk
  unfold FrameState.onAck
  simp only [Option.bind_eq_bind, isSome_note_bind_iff, isSome_govern, and_true, hself,
    implies_true, ← isSome_clip_iff, bne_iff_ne]

/-- A split is reported under the sender's own name only. -/
theorem isSome_onSplit (env : FrameEnv) (s : FrameState P) {k : String}
    (hk : normalizeDeviceId P k = .ok k) (msg : SplitMessage) : (s.onSplit env k msg).isSome := by
  unfold FrameState.onSplit
  simp only [Option.bind_eq_bind, isSome_note_bind_iff, isSome_govern, and_true]
  intro hown
  simp only [Bool.and_eq_true, beq_iff_eq] at hown
  rw [hown.1.1, pubkeyPart_of_normalizeDeviceId P hk]
  exact isSome_clip hk

/-- A channel frame needs the ends of a routed envelope cut. -/
theorem isSome_onChannelFrame_iff (env : FrameEnv) (s : FrameState P) {k : String}
    (hk : normalizeDeviceId P k = .ok k) (name : String) (payload : Value) :
    (s.onChannelFrame env k name payload).isSome ↔
      (name = relayChannel → RelayNamesCut env.relay (s.router env) k payload) := by
  have hrelay := isSome_onRelayFrame_iff P env.relay (s.router env)
    ((isSome_shortPeer_iff k).mp (isSome_shortPeer hk)) payload
  unfold FrameState.onChannelFrame
  split
  · next hname =>
    simp only [hname, forall_const, ← hrelay, Option.bind_eq_bind]
    cases onRelayFrame P env.relay (s.router env) k payload with
    | none => simp
    | some outcome =>
      cases outcome with
      | none => simp
      | some effects => cases hd : effects.delivered <;> simp [hd]
  · next hname => simp [hname]

/-- A reliable frame is handed on if its number is past the mark of its stream. -/
theorem handed_onChannelSeq (env : FrameEnv) (s : FrameState P) (k : String)
    (stream seq : UInt64) (name : String) (payload : Value) :
    (Reliable.onChannelSeq (env.link s k) (s.slots k) stream seq.toNat name
        payload).2.handed.isEmpty = false ↔
      lastSeen ((s.reliableIn[k]?).map fun m ↦ (m.stream, m.lastSeq)) stream < seq.toNat := by
  cases hm : s.reliableIn[k]? with
  | none =>
    by_cases hz : (0 : UInt64) = stream <;>
      simp [Reliable.onChannelSeq, FrameState.slots, lastSeen, hm, hz]
  | some mark =>
    by_cases hz : mark.stream = stream <;>
      simp [Reliable.onChannelSeq, FrameState.slots, lastSeen, hm, hz]

/-- So a reliable frame needs the same, if it is new. -/
theorem isSome_onChannelSeq_iff (env : FrameEnv) (s : FrameState P) {k : String}
    (hk : normalizeDeviceId P k = .ok k) (stream seq : UInt64) (name : String)
    (payload : Value) :
    (s.onChannelSeq env k stream seq name payload).isSome ↔
      (lastSeen ((s.reliableIn[k]?).map fun m ↦ (m.stream, m.lastSeq)) stream < seq.toNat →
        name = relayChannel → RelayNamesCut env.relay (s.router env) k payload) := by
  rw [← handed_onChannelSeq env s k stream seq name payload]
  unfold FrameState.onChannelSeq
  simp only [Option.bind_eq_bind]
  cases hnew : (Reliable.onChannelSeq (env.link s k) (s.slots k) stream seq.toNat name
    payload).2.handed.isEmpty with
  | true =>
    simp only [↓reduceIte, Option.bind_some, Bool.true_eq_false, false_implies, iff_true]
    rw [note_bind _ fun _ ↦ isSome_shortPeer hk]
    rfl
  | false =>
    have hframe := isSome_onChannelFrame_iff env (s.withSlots k (Reliable.onChannelSeq
      (env.link s k) (s.slots k) stream seq.toNat name payload)) hk name payload
    have hrouter : (s.withSlots k (Reliable.onChannelSeq (env.link s k) (s.slots k) stream
      seq.toNat name payload)).router env = s.router env := rfl
    rw [hrouter] at hframe
    simp only [Bool.false_eq_true, ↓reduceIte, forall_const, ← hframe]
    cases hc : (s.withSlots k (Reliable.onChannelSeq (env.link s k) (s.slots k) stream
      seq.toNat name payload)).onChannelFrame env k name payload with
    | none => simp
    | some t =>
      rw [Option.bind_some, note_bind _ fun _ ↦ isSome_shortPeer hk]
      rfl

/-- The median of any samples is found. -/
theorem isSome_median (samples : List Int64) : (median samples).isSome := by
  unfold median
  split
  · rfl
  · next hne =>
    have hlen : (samples.mergeSort fun a b ↦ decide (a ≤ b)).length = samples.length :=
      List.length_mergeSort _
    have hpos : 0 < samples.length := List.length_pos_iff.mpr hne
    simp only [hlen]
    split
    · rw [List.getElem?_eq_getElem (by omega)]
      rfl
    · rw [List.getElem?_eq_getElem (by omega), List.getElem?_eq_getElem (by omega)]
      rfl

/-- The window is cut only when there is something to remove. -/
theorem isSome_pushSample (samples : List Int64) (sample : Int64) :
    (pushSample samples sample).isSome := by
  unfold pushSample
  simp only
  split
  · cases samples <;> rfl
  · rfl

/-- A ping takes its sample. -/
theorem isSome_onPing (env : FrameEnv) (s : FrameState P) (k : String) (t : Int64) :
    (s.onPing env k t).isSome := by
  unfold FrameState.onPing
  split
  · simp only [Option.bind_eq_bind]
    obtain ⟨samples, hsamples⟩ := Option.isSome_iff_exists.mp
      (isSome_pushSample (s.link k).clockSkewSamples
        (t + ((s.link k).rttMs.getD 0).toUInt64.toInt64 / 2 - env.nowMs))
    obtain ⟨skew, hskew⟩ := Option.isSome_iff_exists.mp (isSome_median samples)
    rw [hsamples, Option.bind_some, hskew]
    rfl
  · rfl

/-- A summary is reported under the sender's own id. -/
theorem isSome_onStateBroadcast (s : FrameState P) {k : String}
    (hk : normalizeDeviceId P k = .ok k) (msg : StateBroadcast) :
    (s.onStateBroadcast k msg).isSome := by
  unfold FrameState.onStateBroadcast
  simp only [Option.bind_eq_bind]
  split
  · rw [note_bind _ fun _ ↦ isSome_clip hk]
    rfl
  · rfl

/-! ### Every frame -/

/-- The device may send application frames. -/
def FrameState.Admits (s : FrameState P) (k : String) : Prop :=
  ∃ p, s.session.peers[k]? = some p ∧ p.admitted = true

/-- The ids that a frame chooses can be cut where a diagnostic cuts them. -/
def NamesCut (env : FrameEnv) (s : FrameState P) (k : String) : MeshMessage → Prop
  | .hello hello => pubkeyPart hello.deviceId ≠ pubkeyPart k → Shortens hello.deviceId
  | .networkStatePropose msg => s.Admits k → msg.proposer ≠ pubkeyPart k → Clips msg.proposer
  | .networkStateAck msg => s.Admits k → msg.signer ≠ pubkeyPart k → Clips msg.signer
  | .channel name payload => s.Admits k → name = relayChannel →
      RelayNamesCut env.relay (s.router env) k payload
  | .channelSeq stream seq name payload => s.Admits k →
      lastSeen ((s.reliableIn[k]?).map fun m ↦ (m.stream, m.lastSeq)) stream < seq.toNat →
      name = relayChannel → RelayNamesCut env.relay (s.router env) k payload
  | _ => True

/-- Frames of the handshake are always handled. -/
theorem handleInboundFrame_of_protocol {env : FrameEnv} {s : FrameState P} {k : String}
    {msg : MeshMessage} (h : inboundAdmission msg = .protocol) :
    handleInboundFrame env s k msg = s.handle env k msg := by
  unfold handleInboundFrame
  rw [h]
  cases s.session.peers[k]? <;> rfl

/-- The others are handled if the device is admitted, and dropped without a panic if not. -/
theorem isSome_handleInboundFrame_of_application {env : FrameEnv} {s : FrameState P} {k : String}
    {msg : MeshMessage} (h : inboundAdmission msg = .application) :
    (handleInboundFrame env s k msg).isSome ↔ (s.Admits k → (s.handle env k msg).isSome) := by
  unfold handleInboundFrame FrameState.Admits
  rw [h]
  cases hp : s.session.peers[k]? with
  | none => simp
  | some p =>
    cases ha : p.admitted with
    | true => simp [ha]
    | false => simp [ha]

/-- From a device with a canonical id, among peers with canonical ids, a frame is handled
without a panic if and only if the ids it chooses can be cut where a diagnostic cuts them. -/
theorem frame_handled_iff (env : FrameEnv) (s : FrameState P) (k : String) (msg : MeshMessage)
    (hs : CanonicalPeers s.session) (hk : normalizeDeviceId P k = .ok k) :
    (handleInboundFrame env s k msg).isSome ↔ NamesCut env s k msg := by
  have happ : inboundAdmission msg = .application → ((s.handle env k msg).isSome) →
      ((handleInboundFrame env s k msg).isSome ↔ True) := fun ha hok ↦
    iff_true_intro ((isSome_handleInboundFrame_of_application ha).mpr fun _ ↦ hok)
  cases msg with
  | hello hello =>
    rw [handleInboundFrame_of_protocol rfl]
    exact isSome_onHello_iff env hs hk hello
  | authResponse signature =>
    rw [handleInboundFrame_of_protocol rfl]
    exact iff_true_intro (finishes_onAuthResponse env hs hk signature).isSome
  | approve =>
    rw [handleInboundFrame_of_protocol rfl]
    exact iff_true_intro (finishes_settleActivation env (hs.modifyPeer k _) k).isSome
  | deny reason transitions memberLog =>
    rw [handleInboundFrame_of_protocol rfl]
    exact iff_true_intro (finishes_onDeny env hs hk transitions memberLog).isSome
  | networkStatePropose msg =>
    rw [isSome_handleInboundFrame_of_application rfl]
    exact imp_congr_right fun _ ↦ isSome_onPropose_iff env s hk msg
  | networkStateAck msg =>
    rw [isSome_handleInboundFrame_of_application rfl]
    exact imp_congr_right fun _ ↦ isSome_onAck_iff env s hk msg
  | channel name payload =>
    rw [isSome_handleInboundFrame_of_application rfl]
    exact imp_congr_right fun _ ↦ isSome_onChannelFrame_iff env s hk name payload
  | channelSeq stream seq name payload =>
    rw [isSome_handleInboundFrame_of_application rfl]
    exact imp_congr_right fun _ ↦ isSome_onChannelSeq_iff env s hk stream seq name payload
  | ping t => exact happ rfl (isSome_onPing env s k t)
  | networkState msg => exact happ rfl (isSome_onStateBroadcast s hk msg)
  | networkStateSplit msg => exact happ rfl (isSome_onSplit env s hk msg)
  | rosterEntries entries transitions memberLog =>
    exact happ rfl (finishes_onRosterEntries env hs hk entries transitions memberLog).isSome
  | pong t => exact happ rfl rfl
  | capabilitiesUpdate capabilities => exact happ rfl rfl
  | shelve reason => exact happ rfl rfl
  | unshelve => exact happ rfl rfl
  | rpcRequest requestId method payload streaming => exact happ rfl rfl
  | rpcResponse requestId ok error => exact happ rfl rfl
  | rpcStreamChunk requestId seq payload => exact happ rfl rfl
  | rpcStreamEnd requestId error => exact happ rfl rfl
  | rosterSummary root => exact happ rfl rfl
  | rosterRequest => exact happ rfl rfl
  | channelAck stream upTo => exact happ rfl rfl
  | unknown => exact happ rfl rfl

/-! ### Hellos of an impostor -/

/-- The engine at the first frame: nothing was queued, heard or handed out yet. -/
def FrameState.start (session : SessionState P) : FrameState P where
  session := session
  links := ∅
  reliableOut := ∅
  reliableIn := ∅
  rpcPending := ∅
  routingSeen := []
  stableGovernanceDrifts := []
  deliveries := []
  forwarded := []

/-- A frame that meets no obstacle outside: everything leaves, nobody listens. -/
def plainLine : FrameEnv where
  toSessionEnv := openLine (clearEnv 0 "")
  nowMs := 0
  decode _ := none
  debugOn := false
  traceOn := false
  subscribed _ := false
  rpcHandlers := none
  channelOpen _ := true
  takes _ _ := true

/-- Device 4, to which device 3 just connected. -/
def connectedNode (e : EngineState seeded) : FrameState seeded :=
  .start { SessionState.join e true with
    peers := (∅ : PeerMap).insert (seededDevice 3)
      (.fresh (some ⟨some "fingerprint", some "fingerprint"⟩)) }

/-- A hello in the name of another device. -/
def helloAs (deviceId : String) : MeshMessage :=
  .hello {
    deviceId := deviceId
    label := ""
    nonce := "nonce"
    verificationCode := ""
    capabilities := none
    features := [] }

/-- The ids of the concrete network are canonical. -/
theorem canonical_seededDevice (seed : UInt8) :
    normalizeDeviceId seeded (seededDevice seed) = .ok (seededDevice seed) :=
  normalizeDeviceId_publicId seeded seed

/-- The one peer is tracked under a canonical id. -/
theorem canonicalPeers_connectedNode (e : EngineState seeded) :
    CanonicalPeers (connectedNode e).session := by
  intro k p hp
  simp only [connectedNode, FrameState.start, getElem?_insert_peer] at hp
  split at hp
  · next hk =>
    rw [← hk]
    exact canonical_seededDevice 3
  · simp at hp

/-- Device 3 is connected. -/
theorem contains_connectedNode (e : EngineState seeded) :
    (connectedNode e).session.peers.contains (seededDevice 3) = true := by
  simp [connectedNode, FrameState.start]

/-- An ASCII name is reported and the impostor dropped. -/
theorem impostor_with_ascii_name_dropped :
    NamesCut plainLine (connectedNode freshNode) (seededDevice 3) (helloAs "some-other-device") ∧
      (handleInboundFrame plainLine (connectedNode freshNode) (seededDevice 3)
        (helloAs "some-other-device")).isSome := by
  have hname : NamesCut plainLine (connectedNode freshNode) (seededDevice 3)
      (helloAs "some-other-device") := fun _ ↦ by decide
  exact ⟨hname, (frame_handled_iff _ _ _ _ (canonicalPeers_connectedNode freshNode)
    (canonical_seededDevice 3)).mpr hname⟩

/-- A name of six three-byte characters is cut four bytes before its end, inside the fifth: the
hello of a device that nobody authenticated ends the driver. -/
theorem impostor_with_unicode_name_panics :
    ¬ ∀ (env : FrameEnv) (s : FrameState seeded) (k : String) (msg : MeshMessage),
      CanonicalPeers s.session → s.session.peers.contains k = true →
      normalizeDeviceId seeded k = .ok k → (handleInboundFrame env s k msg).isSome := by
  intro hall
  have hok := hall plainLine (connectedNode freshNode) (seededDevice 3) (helloAs "日本語日本語")
    (canonicalPeers_connectedNode freshNode) (contains_connectedNode freshNode)
    (canonical_seededDevice 3)
  rw [handleInboundFrame_of_protocol rfl] at hok
  have hcut := (isSome_onHello_iff plainLine (canonicalPeers_connectedNode freshNode)
    (canonical_seededDevice 3) _).mp hok
  have hother : pubkeyPart "日本語日本語" ≠ pubkeyPart (seededDevice 3) := by
    have hbare : pubkeyPart "日本語日本語" = "日本語日本語" := by decide
    rw [hbare, pubkeyPart_seededDevice]
    intro heq
    have hmem : '日' ∈ (seededDevice 3).toList := by
      rw [← heq]
      decide
    exact absurd (ascii_of_normalizeDeviceId seeded (canonical_seededDevice 3) hmem).1 (by decide)
  exact absurd (hcut hother) (by decide)

end MyOwnMesh
