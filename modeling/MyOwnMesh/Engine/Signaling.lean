import MyOwnMesh.Engine.Sessions
import MyOwnMesh.Transport

/-!
# Signaling

The offers, answers and candidates of `handle_signaling_inbound` in
`crates/myownmesh-core/src/engine/mod.rs`, with the paths on which this side offers. An entry of
the peer map carries the negotiation of its session: the id its latest offer was sent with, and
the candidates that came before any description. What clocks, sockets and the peer connection
answer is part of each call.
-/

namespace MyOwnMesh

open Lib Lib.Replay

/-! ### The negotiation of one entry -/

/-- How many early candidates an entry holds; `mod.rs:63`. -/
def maxPendingRemoteCandidates : Nat := 256

/-- An entry of the peer map, as far as signaling reads it; `connection.rs:47–174` and
`connection.rs:270–300`. -/
structure PeerConnection where
  epoch : Nat
  session : Option PeerSession
  pendingOfferId : Option String
  remoteDescriptionSet : Bool
  pendingRemoteCandidates : List LocalIceCandidate
  deriving DecidableEq, Repr

/-- What the connection answers to one call: the offer and the answer it builds, whether a remote
description parses and is accepted, the id drawn for an offer, and whether the socket circuit
armed while the call waited for the connection. -/
structure NegotiationEnv where
  offerBuilt : Option String
  answerBuilt : Option String
  parses : Bool
  accepts : Bool
  offerId : String
  recoveryAfter : Bool

namespace PeerConnection

/-- An entry whose session was just opened. -/
def opened (epoch : Nat) : PeerConnection where
  epoch := epoch
  session := some .opened
  pendingOfferId := none
  remoteDescriptionSet := false
  pendingRemoteCandidates := []

/-- A discovered peer without a session, so without a generation to tell apart. -/
def placeholder : PeerConnection where
  epoch := 0
  session := none
  pendingOfferId := none
  remoteDescriptionSet := false
  pendingRemoteCandidates := []

/-- Drive the connection of an entry, if it has one. -/
def drive (f : PeerSession → PeerSession) (p : PeerConnection) : PeerConnection :=
  { p with session := p.session.map f }

/-- Record the id that an offer is sent with; `mod.rs:1264–1276`. -/
def issueOfferId (offerId : String) (p : PeerConnection) : PeerConnection :=
  { p with pendingOfferId := some offerId }

/-- Offer on the session. The offer is installed before its id is recorded, and stays installed
where the socket circuit armed in between; `mod.rs:545–575`, `mod.rs:1125–1165`,
`mod.rs:1475–1530`, `mod.rs:2003–2040`. -/
def offer (env : NegotiationEnv) (p : PeerConnection) : PeerConnection :=
  match env.offerBuilt with
  | none => p
  | some sdp =>
    let installed := p.drive (.createOffer sdp)
    if env.recoveryAfter then installed else installed.issueOfferId env.offerId

/-- A remote description comes into force, and with it the early candidates of its generation;
those of another one are given up. -/
def describe (kind : SdpType) (sdp : String) (p : PeerConnection) : PeerConnection :=
  let pending := p.pendingRemoteCandidates.filter (candidateMatchesUfrags · (sdpIceUfrags sdp))
  { p.drive fun c ↦ (c.setRemoteDescription kind sdp).addIceCandidates pending with
    remoteDescriptionSet := true
    pendingRemoteCandidates := [] }

/-- Apply a remote description; `mod.rs:1806–1928`. The flag asks for a fresh offer: it is set
for an answer that found no session, no offer to complete, or a connection that refused it. -/
def applyRemoteSdp (env : NegotiationEnv) (kind : SdpType) (sdp : String) (p : PeerConnection) :
    PeerConnection × Bool :=
  match p.session with
  | none => (p, kind = .answer)
  | some c =>
    if kind = .answer ∧ c.awaitingAnswer = false then (p, true)
    else if env.parses = false then (p, false)
    else if env.accepts = false then (p, kind = .answer)
    else (p.describe kind sdp, false)

/-- Build our answer to the offer in force; `mod.rs:796–818`. -/
def answer (env : NegotiationEnv) (p : PeerConnection) : PeerConnection :=
  match env.answerBuilt with
  | none => p
  | some sdp => p.drive (.createAnswer sdp)

/-- The answer carries the id recorded last, or none at all; `mod.rs:842–857`. -/
def takesAnswer (offerId : String) (p : PeerConnection) : Bool :=
  offerId == "" || p.pendingOfferId == some offerId

/-- An answer arrives; `mod.rs:832–867`. The recorded id is gone before the answer applies. -/
def onAnswer (env : NegotiationEnv) (offerId sdp : String) (p : PeerConnection) :
    PeerConnection × Bool :=
  if p.takesAnswer offerId then
    { p with pendingOfferId := none }.applyRemoteSdp env .answer sdp
  else (p, false)

/-- A candidate arrives; `mod.rs:868–955`. -/
def onCandidate (x : LocalIceCandidate) (p : PeerConnection) : PeerConnection :=
  if p.remoteDescriptionSet = false then
    let kept :=
      if maxPendingRemoteCandidates ≤ p.pendingRemoteCandidates.length then
        p.pendingRemoteCandidates.tail
      else p.pendingRemoteCandidates
    { p with pendingRemoteCandidates := kept ++ [x] }
  else
    p.drive fun c ↦
      if candidateMatchesUfrags x c.remoteIceUfrags then c.addIceCandidates [x] else c

/-- What happens to an entry while its session lasts. -/
inductive Op where
  | offer (sdp : String)
  | answer (offerId sdp : String)
  | localOffer
  | candidate (x : LocalIceCandidate)
  | dtls

/-- The entry after one of these steps. -/
def step (p : PeerConnection) (o : NegotiationEnv × Op) : PeerConnection :=
  match o.2 with
  | .offer sdp => (p.applyRemoteSdp o.1 .offer sdp).1.answer o.1
  | .answer offerId sdp => (p.onAnswer o.1 offerId sdp).1
  | .localOffer => p.offer o.1
  | .candidate x => p.onCandidate x
  | .dtls => p.drive .startDtls

end PeerConnection

/-! ### The network with its connections -/

/-- A running network with the negotiation of every peer and the source of epochs. -/
structure SignalState (P : Primitives) where
  network : SessionState P
  connections : Std.ExtTreeMap String PeerConnection
  nextEpoch : Nat

/-- What one call reads from outside: next to the session and the connection, whether there is an
interface, whether the socket circuit is armed, what the timers say about the session, and what
the ICE agent reports. -/
structure SignalEnv extends SessionEnv, NegotiationEnv where
  offline : Bool
  socketRecovery : Bool
  zombie : Bool
  stuck : Bool
  opens : Bool
  due : Bool
  mediaDue : Bool
  iceConnected : Bool
  iceChecking : Bool

variable {P : Primitives}

namespace SignalState

/-- A network that has just been joined. -/
def join (engine : EngineState P) (autoApprove : Bool) : SignalState P where
  network := .join engine autoApprove
  connections := ∅
  nextEpoch := 0

/-- What the transport reports of a connection. -/
def channel (p : PeerConnection) : Option TransportSession :=
  p.session.map fun c ↦ ⟨c.localFingerprint, c.remoteFingerprint⟩

/-- The sessions as the handshake reads them: fingerprints are asked of the connection at the
moment they are used. -/
def sessions (s : SignalState P) : SessionState P :=
  { s.network with
    peers := s.network.peers.map fun k p ↦
      { p with session := (s.connections[k]?).bind channel } }

/-- The network after the sessions took a step: connections of dropped peers are gone, and a peer
that is new has none yet. -/
def follow (s : SignalState P) (network : SessionState P) : SignalState P :=
  { s with
    network := network
    connections := network.peers.map fun k _ ↦ (s.connections[k]?).getD .placeholder }

/-- The connection of a peer. -/
def connection (s : SignalState P) (deviceId : String) : Option PeerSession :=
  (s.connections[deviceId]?).bind PeerConnection.session

/-- Put back an entry. -/
def put (s : SignalState P) (deviceId : String) (p : PeerConnection) : SignalState P :=
  { s with connections := s.connections.insert deviceId p }

/-- Tear a peer down. -/
def dropPeer (env : SignalEnv) (s : SignalState P) (deviceId : String) : SignalState P :=
  s.follow (MyOwnMesh.dropPeer env.toSessionEnv s.sessions deviceId)

/-- Offer on the session of a peer. -/
def offerTo (env : SignalEnv) (s : SignalState P) (deviceId : String) : SignalState P :=
  match s.connections[deviceId]? with
  | none => s
  | some p => s.put deviceId (p.offer env.toNegotiationEnv)

/-- A new session stands in the peer map under the next epoch. -/
def insertOpened (s : SignalState P) (deviceId : String) : SignalState P where
  network := { s.network with peers := s.network.peers.insert deviceId (.fresh none) }
  connections := s.connections.insert deviceId (.opened s.nextEpoch)
  nextEpoch := s.nextEpoch + 1

/-- Open a session to a peer that has none, and offer on it as its offerer; `mod.rs:1634–1804`. -/
def ensurePeerSession (env : SignalEnv) (s : SignalState P) (deviceId : String)
    (role : Transport.Role) : SignalState P :=
  if env.offline ∨ env.socketRecovery ∨ deviceId ∈ s.network.closing then s
  else if (s.connection deviceId).isSome ∨ env.opens = false then s
  else
    let opened := s.insertOpened deviceId
    match role with
    | .answerer => opened
    | .offerer =>
      if env.recoveryAfter then opened.dropPeer env deviceId else opened.offerTo env deviceId

/-- Offer again after an answer that could not be applied; `mod.rs:1945–2046`. -/
def reofferAfterFailedAnswer (env : SignalEnv) (s : SignalState P) (deviceId : String) :
    SignalState P :=
  if ¬ s.network.engine.selfId < deviceId ∨ env.offline ∨ env.socketRecovery ∨
      deviceId ∈ s.network.closing then s
  else
    match s.connections[deviceId]? with
    | none => s.ensurePeerSession env deviceId .offerer
    | some p =>
      if env.due = false then s
      else if p.session.isSome then s.offerTo env deviceId
      else s.ensurePeerSession env deviceId .offerer

/-- Put back the entry a description was applied to, and offer again where that was asked
for. -/
def settle (env : SignalEnv) (s : SignalState P) (deviceId : String)
    (applied : PeerConnection × Bool) : SignalState P :=
  let after := s.put deviceId applied.1
  if applied.2 then after.reofferAfterFailedAnswer env deviceId else after

/-- Apply a remote offer to the session of a peer. -/
def applyOffer (env : SignalEnv) (s : SignalState P) (deviceId sdp : String) : SignalState P :=
  match s.connections[deviceId]? with
  | none => s
  | some p => s.settle env deviceId (p.applyRemoteSdp env.toNegotiationEnv .offer sdp)

/-- The offer carries another fingerprint than the description in force: its sender built a new
connection; `mod.rs:729–744`. -/
def rebuilt (s : SignalState P) (deviceId sdp : String) : Bool :=
  match (s.connection deviceId).bind PeerSession.remoteFingerprint, sdpFingerprint sdp with
  | some prev, some now => now != prev
  | _, _ => false

/-- Drop what an offer finds standing and cannot be renegotiated: a session that was silent too
long, one whose peer rebuilt, one that never opened; `mod.rs:716–782`. -/
def clearForOffer (env : SignalEnv) (s : SignalState P) (deviceId sdp : String) :
    SignalState P :=
  let live := if env.zombie then s.dropPeer env deviceId else s
  if live.rebuilt deviceId sdp ∨ env.stuck then live.dropPeer env deviceId else live

/-- Answer the offer in force, unless the socket circuit armed; `mod.rs:785–830`. -/
def answerTo (env : SignalEnv) (s : SignalState P) (deviceId : String) : SignalState P :=
  match s.connections[deviceId]? with
  | none => s
  | some p =>
    if p.session.isNone then s
    else if env.recoveryAfter then s.dropPeer env deviceId
    else s.put deviceId (p.answer env.toNegotiationEnv)

/-- An offer arrives; `mod.rs:697–831`. -/
def onOffer (env : SignalEnv) (s : SignalState P) (deviceId sdp : String) : SignalState P :=
  if env.socketRecovery ∨ deviceId ∈ s.network.closing then s
  else
    let opened := (s.clearForOffer env deviceId sdp).ensurePeerSession env deviceId .answerer
    (opened.applyOffer env deviceId sdp).answerTo env deviceId

/-- An answer arrives; `mod.rs:832–867`. -/
def onAnswer (env : SignalEnv) (s : SignalState P) (deviceId offerId sdp : String) :
    SignalState P :=
  match s.connections[deviceId]? with
  | none => s.reofferAfterFailedAnswer env deviceId
  | some p => s.settle env deviceId (p.onAnswer env.toNegotiationEnv offerId sdp)

/-- A candidate arrives; `mod.rs:868–955`. -/
def onCandidate (s : SignalState P) (deviceId : String) (x : LocalIceCandidate) :
    SignalState P :=
  match s.connections[deviceId]? with
  | none => s
  | some p => s.put deviceId (p.onCandidate x)

/-- The status of a peer. -/
def status (s : SignalState P) (deviceId : String) : Option PeerStatus :=
  (s.network.peers[deviceId]?).map PeerState.status

/-- Offer again to an announced peer whose channel never opened; `mod.rs:508–580`. -/
def reofferSighted (env : SignalEnv) (s : SignalState P) (deviceId : String) : SignalState P :=
  if s.network.engine.selfId < deviceId ∧ env.socketRecovery = false ∧
      deviceId ∉ s.network.closing ∧ s.status deviceId = some .sighted ∧ env.due ∧
      (s.connection deviceId).isSome then
    s.offerTo env deviceId
  else s

/-- Restart ICE on a live peer by offering again; `mod.rs:1278–1562`. Only the side with the
lower id offers. -/
def renegotiateIce (env : SignalEnv) (s : SignalState P) (deviceId : String) (force : Bool) :
    SignalState P :=
  if env.offline ∨ env.socketRecovery ∨ (s.connection deviceId).isNone then s
  else if (env.iceConnected ∧ force = false) ∨ env.iceChecking ∨ env.due = false then s
  else if s.network.engine.selfId < deviceId then s.offerTo env deviceId
  else s

/-- Offer the changed media lanes of an established peer; `mod.rs:1070–1202`. -/
def serviceMediaRenegotiation (env : SignalEnv) (s : SignalState P) (deviceId : String) :
    SignalState P :=
  if env.offline ∨ env.socketRecovery ∨ env.mediaDue = false then s
  else
    match s.connection deviceId with
    | none => s
    | some c =>
      if (s.status deviceId = some .active ∨ s.status deviceId = some .shelved) ∧
          c.signaling = .stable then
        s.offerTo env deviceId
      else s

/-- The secure channel of a session comes up. -/
def startDtls (s : SignalState P) (deviceId : String) : SignalState P :=
  match s.connections[deviceId]? with
  | none => s
  | some p => s.put deviceId (p.drive .startDtls)

/-! ### What the steps do to entries -/

/-- After an entry was put back. -/
theorem connections_put (s : SignalState P) (k d : String) (p : PeerConnection) :
    (s.put k p).connections[d]? = if k = d then some p else s.connections[d]? := by
  simp only [put, Std.ExtTreeMap.getElem?_insert, Std.LawfulEqOrd.compare_eq_iff_eq]

/-- After a session was opened. -/
theorem connections_insertOpened (s : SignalState P) (k d : String) :
    (s.insertOpened k).connections[d]? =
      if k = d then some (.opened s.nextEpoch) else s.connections[d]? := by
  simp only [insertOpened, Std.ExtTreeMap.getElem?_insert, Std.LawfulEqOrd.compare_eq_iff_eq]

/-- After the sessions took a step. -/
theorem connections_follow (s : SignalState P) (network : SessionState P) (d : String) :
    (s.follow network).connections[d]? =
      network.peers[d]?.map fun _ ↦ (s.connections[d]?).getD .placeholder := by
  simp only [follow, Std.ExtTreeMap.getElem?_map]

/-- A peer as the handshake reads it. -/
theorem peers_sessions (s : SignalState P) (d : String) :
    s.sessions.peers[d]? =
      s.network.peers[d]?.map fun p ↦ { p with session := (s.connections[d]?).bind channel } := by
  simp only [sessions, Std.ExtTreeMap.getElem?_map]

/-- Every entry of the map meets a condition. -/
def Entries (I : PeerConnection → Prop) (s : SignalState P) : Prop :=
  ∀ (d : String) (p : PeerConnection), s.connections[d]? = some p → I p

/-- A condition that a new entry meets and that survives whatever is not a remote description. -/
structure Closed (I : PeerConnection → Prop) : Prop where
  placeholder : I .placeholder
  opened : ∀ epoch, I (.opened epoch)
  offer : ∀ env p, I p → I (p.offer env)
  answer : ∀ env p, I p → I (p.answer env)
  candidate : ∀ x p, I p → I (p.onCandidate x)
  dtls : ∀ p, I p → I (p.drive .startDtls)

variable {I : PeerConnection → Prop} {s : SignalState P}

theorem Entries.put (hs : Entries I s) (k : String) {p : PeerConnection} (hp : I p) :
    Entries I (s.put k p) := by
  intro d q hq
  rw [connections_put] at hq
  split at hq
  · cases hq
    exact hp
  · exact hs d q hq

theorem Entries.follow (hI : Closed I) (hs : Entries I s) (network : SessionState P) :
    Entries I (s.follow network) := by
  intro d q hq
  rw [connections_follow] at hq
  obtain ⟨_, _, rfl⟩ := Option.map_eq_some_iff.mp hq
  cases hd : s.connections[d]? with
  | none => exact hI.placeholder
  | some p => exact hs d p hd

theorem Entries.insertOpened (hI : Closed I) (hs : Entries I s) (k : String) :
    Entries I (s.insertOpened k) := by
  intro d q hq
  rw [connections_insertOpened] at hq
  split at hq
  · cases hq
    exact hI.opened _
  · exact hs d q hq

theorem Entries.offerTo (hI : Closed I) (hs : Entries I s) (env : SignalEnv) (k : String) :
    Entries I (s.offerTo env k) := by
  unfold SignalState.offerTo
  cases hk : s.connections[k]? with
  | none => exact hs
  | some p => exact hs.put k (hI.offer _ p (hs k p hk))

theorem Entries.ensurePeerSession (hI : Closed I) (hs : Entries I s) (env : SignalEnv)
    (k : String) (role : Transport.Role) : Entries I (s.ensurePeerSession env k role) := by
  have hopened := hs.insertOpened hI k
  unfold SignalState.ensurePeerSession
  split
  · exact hs
  · split
    · exact hs
    · cases role with
      | answerer => exact hopened
      | offerer =>
        simp only
        split
        · exact hopened.follow hI _
        · exact hopened.offerTo hI env k

theorem Entries.reofferAfterFailedAnswer (hI : Closed I) (hs : Entries I s) (env : SignalEnv)
    (k : String) : Entries I (s.reofferAfterFailedAnswer env k) := by
  have hensure := hs.ensurePeerSession hI env k .offerer
  have hoffer := hs.offerTo hI env k
  unfold SignalState.reofferAfterFailedAnswer
  split
  · exact hs
  · cases s.connections[k]? with
    | none => exact hensure
    | some p =>
      simp only
      split
      · exact hs
      · split
        · exact hoffer
        · exact hensure

theorem Entries.settle (hI : Closed I) (hs : Entries I s) (env : SignalEnv) (k : String)
    {applied : PeerConnection × Bool} (happlied : I applied.1) :
    Entries I (s.settle env k applied) := by
  have hput := hs.put k happlied
  unfold SignalState.settle
  simp only
  split
  · exact hput.reofferAfterFailedAnswer hI env k
  · exact hput

theorem Entries.clearForOffer (hI : Closed I) (hs : Entries I s) (env : SignalEnv)
    (k sdp : String) : Entries I (s.clearForOffer env k sdp) := by
  have hlive : Entries I (if env.zombie then s.dropPeer env k else s) := by
    split
    · exact hs.follow hI _
    · exact hs
  unfold SignalState.clearForOffer
  simp only
  generalize (if env.zombie = true then s.dropPeer env k else s) = live at hlive ⊢
  split
  · exact hlive.follow hI _
  · exact hlive

theorem Entries.answerTo (hI : Closed I) (hs : Entries I s) (env : SignalEnv) (k : String) :
    Entries I (s.answerTo env k) := by
  unfold SignalState.answerTo
  cases hk : s.connections[k]? with
  | none => exact hs
  | some p =>
    simp only
    split
    · exact hs
    · split
      · exact hs.follow hI _
      · exact hs.put k (hI.answer _ p (hs k p hk))

/-- The session that an offer is applied to. -/
def openedFor (env : SignalEnv) (s : SignalState P) (k sdp : String) : SignalState P :=
  (s.clearForOffer env k sdp).ensurePeerSession env k .answerer

theorem Entries.onOffer (hI : Closed I) (hs : Entries I s) (env : SignalEnv) (k sdp : String)
    (hdesc : (¬ env.socketRecovery ∧ k ∉ s.network.closing) →
      ∀ p, (s.openedFor env k sdp).connections[k]? = some p → I p →
        I (p.applyRemoteSdp env.toNegotiationEnv .offer sdp).1) :
    Entries I (s.onOffer env k sdp) := by
  have hopened := (hs.clearForOffer hI env k sdp).ensurePeerSession hI env k .answerer
  unfold SignalState.onOffer
  split
  · exact hs
  · next hgate =>
    refine Entries.answerTo hI ?_ env k
    unfold SignalState.applyOffer
    cases hk : ((s.clearForOffer env k sdp).ensurePeerSession env k .answerer).connections[k]?
      with
    | none => exact hopened
    | some p => exact hopened.settle hI env k (hdesc (by simpa using hgate) p hk (hopened k p hk))

theorem Entries.onAnswer (hI : Closed I) (hs : Entries I s) (env : SignalEnv)
    (k offerId sdp : String)
    (hdesc : ∀ p, s.connections[k]? = some p → I p →
      I (p.onAnswer env.toNegotiationEnv offerId sdp).1) :
    Entries I (s.onAnswer env k offerId sdp) := by
  unfold SignalState.onAnswer
  cases hk : s.connections[k]? with
  | none => exact hs.reofferAfterFailedAnswer hI env k
  | some p => exact hs.settle hI env k (hdesc p hk (hs k p hk))

end SignalState

/-! ### Runs -/

/-- What can happen to a network and its connections: every step of the sessions, every path that
opens a session or offers on it, every message of signaling, and the secure channel coming up. -/
inductive SignalOp where
  | session (o : SessionOp)
  | dial (deviceId : String) (role : Transport.Role)
  | reofferSighted (deviceId : String)
  | renegotiateIce (deviceId : String) (force : Bool)
  | mediaRenegotiation (deviceId : String)
  | offer (deviceId offerId sdp : String)
  | answer (deviceId offerId sdp : String)
  | candidate (deviceId : String) (x : LocalIceCandidate)
  | dtls (deviceId : String)

/-- The state after one step. Sessions are opened by signaling alone. -/
def signalStep (s : SignalState P) (o : SignalEnv × SignalOp) : SignalState P :=
  match o.2 with
  | .session (.connect _ _) => s
  | .session op => s.follow (sessionStep s.sessions (o.1.toSessionEnv, op))
  | .dial deviceId role => s.ensurePeerSession o.1 deviceId role
  | .reofferSighted deviceId => s.reofferSighted o.1 deviceId
  | .renegotiateIce deviceId force => s.renegotiateIce o.1 deviceId force
  | .mediaRenegotiation deviceId => s.serviceMediaRenegotiation o.1 deviceId
  | .offer deviceId _ sdp => s.onOffer o.1 deviceId sdp
  | .answer deviceId offerId sdp => s.onAnswer o.1 deviceId offerId sdp
  | .candidate deviceId x => s.onCandidate deviceId x
  | .dtls deviceId => s.startDtls deviceId

/-- The entry that a remote description of the step is applied to still meets the condition. -/
def Describes (I : PeerConnection → Prop) (s : SignalState P) (o : SignalEnv × SignalOp) :
    Prop :=
  match o.2 with
  | .offer k _ sdp => (¬ o.1.socketRecovery ∧ k ∉ s.network.closing) →
      ∀ p, (s.openedFor o.1 k sdp).connections[k]? = some p → I p →
        I (p.applyRemoteSdp o.1.toNegotiationEnv .offer sdp).1
  | .answer k offerId sdp => ∀ p, s.connections[k]? = some p → I p →
      I (p.onAnswer o.1.toNegotiationEnv offerId sdp).1
  | _ => True

/-- A closed condition survives every step whose descriptions keep it. -/
theorem SignalState.Entries.step {I : PeerConnection → Prop} (hI : Closed I)
    {s : SignalState P} (hs : Entries I s) (o : SignalEnv × SignalOp) (hdesc : Describes I s o) :
    Entries I (signalStep s o) := by
  obtain ⟨env, op⟩ := o
  cases op with
  | session op =>
    cases op with
    | connect => exact hs
    | _ => exact hs.follow hI _
  | dial k role => exact hs.ensurePeerSession hI env k role
  | reofferSighted k =>
    simp only [signalStep, SignalState.reofferSighted]
    split
    · exact hs.offerTo hI env k
    · exact hs
  | renegotiateIce k force =>
    simp only [signalStep, SignalState.renegotiateIce]
    split
    · exact hs
    · split
      · exact hs
      · split
        · exact hs.offerTo hI env k
        · exact hs
  | mediaRenegotiation k =>
    have hoffer := hs.offerTo hI env k
    simp only [signalStep, SignalState.serviceMediaRenegotiation]
    split
    · exact hs
    · cases s.connection k with
      | none => exact hs
      | some c =>
        simp only
        split
        · exact hoffer
        · exact hs
  | offer k _ sdp => exact hs.onOffer hI env k sdp hdesc
  | answer k offerId sdp => exact hs.onAnswer hI env k offerId sdp hdesc
  | candidate k x =>
    simp only [signalStep, SignalState.onCandidate]
    cases hk : s.connections[k]? with
    | none => exact hs
    | some p => exact hs.put k (hI.candidate x p (hs k p hk))
  | dtls k =>
    simp only [signalStep, SignalState.startDtls]
    cases hk : s.connections[k]? with
    | none => exact hs
    | some p => exact hs.put k (hI.dtls p (hs k p hk))

end MyOwnMesh
