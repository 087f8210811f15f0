import MyOwnMesh.Engine.Handshake
import MyOwnMesh.Engine.Signaling
import MyOwnMesh.Engine.Strangers

/-!
# The channel binding of the handshake

The secure channel checks the certificate of the peer once, against the remote description in
force when it comes up; an auth response is checked against the description in force when it
arrives. Both name one certificate as long as no later description brings in another
fingerprint. An offer is compared with the description it replaces, and rebuilds the session
where the fingerprints differ; an answer is applied as it is, and so is an offer on a session
whose description in force names no fingerprint at all.
-/

namespace MyOwnMesh

open Lib Lib.Replay

variable {P : Primitives}

/-! ### The property -/

/-- Where the secure channel is up, the fingerprint in force, if any, is the one it checked. -/
def PeerConnection.Bound (p : PeerConnection) : Prop :=
  ∀ c f g, p.session = some c → c.dtls = some f → c.remoteFingerprint = some g → g = f

/-- Signatures are not forged: where this one passes against the channel of a device, the device
made it, over the fingerprint of a certificate of its own. -/
def Unforged (s : SessionState P) (k signature : String) (own : String → Prop) : Prop :=
  ∀ p nonce binding, s.peers[k]? = some p → p.nonceSent = some nonce →
    p.session.bind TransportSession.remoteFingerprint = some binding →
    verify P k (handshakePayload nonce (pubkeyPart k) s.engine.selfId binding) signature =
      .ok true →
    own binding

/-- On a session whose secure channel is up, an auth response verifies against the fingerprint
the channel checked; so the signature of a device, relayed over a channel with a certificate that
is not the device's, authenticates nobody. -/
def BindingNamesCertificate (s : SignalState P) : Prop :=
  ∀ k c f, s.connection k = some c → c.dtls = some f →
    (∀ p nonce binding signature, s.sessions.peers[k]? = some p → p.nonceSent = some nonce →
      p.session.bind TransportSession.remoteFingerprint = some binding →
      verify P k (handshakePayload nonce (pubkeyPart k) s.network.engine.selfId binding)
        signature = .ok true →
      binding = f) ∧
    ∀ env signature own, Unforged s.sessions k signature own → ¬ own f →
      Stranger s.sessions k → Stranger (onAuthResponse env s.sessions k signature) k

/-- The step brings no other fingerprint to a session whose secure channel is up: no answer that
the session takes names another one than the channel checked, and no offer does where the
description in force names none. -/
def FingerprintKept (s : SignalState P) (o : SignalEnv × SignalOp) : Prop :=
  match o.2 with
  | .answer k offerId sdp => ∀ p c f g, s.connections[k]? = some p →
      p.takesAnswer offerId = true → p.session = some c → c.awaitingAnswer = true →
      c.dtls = some f → sdpFingerprint sdp = some g → g = f
  | .offer k _ sdp => o.1.zombie = false → o.1.stuck = false → ∀ c f g,
      s.connection k = some c → c.dtls = some f → c.remoteFingerprint = none →
      sdpFingerprint sdp = some g → g = f
  | _ => True

/-! ### Entries -/

namespace PeerConnection

/-- What leaves the remote description and the channel alone keeps an entry bound. -/
theorem Bound.drive {p : PeerConnection} (h : p.Bound) {f : PeerSession → PeerSession}
    (hf : ∀ c, (f c).dtls = c.dtls ∧ (f c).remoteDescription = c.remoteDescription) :
    (p.drive f).Bound := by
  intro c fp g hc hd hg
  obtain ⟨c₀, hc₀, rfl⟩ := Option.map_eq_some_iff.mp hc
  obtain ⟨hdtls, hremote⟩ := hf c₀
  rw [hdtls] at hd
  rw [PeerSession.remoteFingerprint, hremote] at hg
  exact h c₀ fp g hc₀ hd hg

theorem Bound.offer {p : PeerConnection} (h : p.Bound) (env : NegotiationEnv) :
    (p.offer env).Bound := by
  unfold PeerConnection.offer
  split
  · exact h
  · next sdp _ =>
    have hdrive := h.drive (f := .createOffer sdp) fun _ ↦ ⟨rfl, rfl⟩
    simp only
    split
    · exact hdrive
    · exact hdrive

theorem Bound.answer {p : PeerConnection} (h : p.Bound) (env : NegotiationEnv) :
    (p.answer env).Bound := by
  unfold PeerConnection.answer
  split
  · exact h
  · exact h.drive fun _ ↦ ⟨rfl, rfl⟩

theorem Bound.onCandidate {p : PeerConnection} (h : p.Bound) (x : LocalIceCandidate) :
    (p.onCandidate x).Bound := by
  unfold PeerConnection.onCandidate
  split
  · exact h
  · refine h.drive fun c ↦ ?_
    split
    · exact ⟨rfl, rfl⟩
    · exact ⟨rfl, rfl⟩

/-- The channel comes up over the description in force. -/
theorem Bound.startDtls {p : PeerConnection} (h : p.Bound) : (p.drive .startDtls).Bound := by
  intro c f g hc hd hg
  obtain ⟨c₀, hc₀, rfl⟩ := Option.map_eq_some_iff.mp hc
  have hg₀ : c₀.remoteFingerprint = some g := hg
  simp only [PeerSession.startDtls, Option.or_eq_some_iff] at hd
  obtain hd | ⟨-, hd⟩ := hd
  · exact h c₀ f g hc₀ hd hg₀
  · rw [hg₀, Option.some.injEq] at hd
    exact hd

/-- A description keeps an entry bound if it names no other fingerprint than the channel. -/
theorem Bound.applyRemoteSdp {p : PeerConnection} (h : p.Bound) (env : NegotiationEnv)
    (kind : SdpType) (sdp : String)
    (hsdp : ∀ c f g, p.session = some c → (kind = .answer → c.awaitingAnswer = true) →
      c.dtls = some f → sdpFingerprint sdp = some g → g = f) :
    (p.applyRemoteSdp env kind sdp).1.Bound := by
  unfold PeerConnection.applyRemoteSdp
  cases hc : p.session with
  | none => exact h
  | some c =>
    simp only
    split
    · exact h
    · next hwait =>
      split
      · exact h
      · split
        · exact h
        · intro c' f g hc' hd hg
          simp only [describe, PeerConnection.drive, hc, Option.map_some,
            Option.some.injEq] at hc'
          subst hc'
          exact hsdp c f g hc (fun ha ↦ by simpa [ha] using hwait) hd hg

theorem Bound.onAnswer {p : PeerConnection} (h : p.Bound) (env : NegotiationEnv)
    (offerId sdp : String)
    (hsdp : ∀ c f g, p.takesAnswer offerId = true → p.session = some c →
      c.awaitingAnswer = true → c.dtls = some f → sdpFingerprint sdp = some g → g = f) :
    (p.onAnswer env offerId sdp).1.Bound := by
  unfold PeerConnection.onAnswer
  split
  · next ht =>
    have htaken : Bound { p with pendingOfferId := none } := h
    refine htaken.applyRemoteSdp env .answer sdp fun c f g hc hwait ↦ ?_
    exact hsdp c f g ht hc (hwait rfl)
  · exact h

/-- Only a remote description can unbind an entry. -/
theorem closed_bound : SignalState.Closed Bound where
  placeholder := by
    intro c f g hc
    cases hc
  opened epoch := by
    intro c f g hc hd
    cases hc
    cases hd
  offer env _ h := h.offer env
  answer env _ h := h.answer env
  candidate x _ h := h.onCandidate x
  dtls _ h := h.startDtls

end PeerConnection

/-! ### The session an offer meets -/

/-- A dropped peer is gone, unless its close was still going on. -/
theorem peers_dropPeer_self (env : SessionEnv) {s : SessionState P} {k : String}
    (h : k ∉ s.closing ∨ s.peers[k]? = none) : (dropPeer env s k).peers[k]? = none := by
  have herased : ∀ t : SessionState P, t.peers[k]? = none →
      (reevaluateTopology env t).peers[k]? = none := by
    intro t ht
    unfold reevaluateTopology
    split
    · exact ht
    · simp only [Std.ExtTreeMap.getElem?_map, ht, Option.map_none]
  unfold dropPeer
  split
  · next hclosing => exact h.resolve_left (not_not_intro hclosing)
  · cases hp : s.peers[k]? with
    | none => exact hp
    | some p =>
      refine herased _ ?_
      rw [getElem?_erase_peer, if_pos rfl]

namespace SignalState

variable {s : SignalState P} {env : SignalEnv} {k sdp : String}

/-- So is its connection. -/
theorem dropPeer_self (env : SignalEnv) (h : k ∉ s.network.closing ∨ s.network.peers[k]? = none) :
    (s.dropPeer env k).network.peers[k]? = none ∧ (s.dropPeer env k).connections[k]? = none := by
  have hpeers : (MyOwnMesh.dropPeer env.toSessionEnv s.sessions k).peers[k]? = none := by
    refine peers_dropPeer_self _ (h.imp id fun hnone ↦ ?_)
    rw [peers_sessions, hnone, Option.map_none]
  refine ⟨hpeers, ?_⟩
  rw [dropPeer, connections_follow, hpeers, Option.map_none]

/-- An offer leaves a session standing only where its fingerprint does not differ. -/
theorem connection_clearForOffer (hk : k ∉ s.network.closing) {c : PeerSession}
    (h : (s.clearForOffer env k sdp).connection k = some c) :
    env.zombie = false ∧ env.stuck = false ∧ s.connection k = some c ∧
      s.rebuilt k sdp = false := by
  unfold clearForOffer at h
  cases hz : env.zombie with
  | true =>
    exfalso
    obtain ⟨hpeer, hgone⟩ := dropPeer_self env (.inl hk)
    simp only [hz, ↓reduceIte] at h
    split at h
    · simp [connection, (dropPeer_self env (.inr hpeer)).2] at h
    · simp [connection, hgone] at h
  | false =>
    simp only [hz, Bool.false_eq_true, ↓reduceIte] at h
    split at h
    · simp [connection, (dropPeer_self env (.inl hk)).2] at h
    · next hkeep =>
      simp only [not_or, Bool.not_eq_true] at hkeep
      exact ⟨rfl, hkeep.2, h, hkeep.1⟩

/-- A session that an offer opens has no secure channel yet. -/
theorem connection_openedFor {c : PeerSession} {f : String}
    (h : (s.openedFor env k sdp).connection k = some c) (hd : c.dtls = some f) :
    (s.clearForOffer env k sdp).connection k = some c := by
  unfold openedFor ensurePeerSession at h
  split at h
  · exact h
  · split at h
    · exact h
    · simp only [connection, connections_insertOpened, ↓reduceIte, Option.bind_some] at h
      cases h
      cases hd

end SignalState

/-! ### Steps and runs -/

/-- A step that brings in no other fingerprint keeps every entry bound. -/
theorem describes_bound {s : SignalState P} (hs : s.Entries PeerConnection.Bound)
    {o : SignalEnv × SignalOp} (ho : FingerprintKept s o) :
    Describes PeerConnection.Bound s o := by
  obtain ⟨env, op⟩ := o
  cases op with
  | offer k _ sdp =>
    rintro ⟨-, hk⟩ p hp hbound
    refine hbound.applyRemoteSdp _ .offer sdp fun c f g hc _ hd hg ↦ ?_
    have hopened : (s.openedFor env k sdp).connection k = some c := by
      rw [SignalState.connection, hp, Option.bind_some, hc]
    obtain ⟨hz, hstuck, hconn, hrebuilt⟩ := SignalState.connection_clearForOffer hk
      (SignalState.connection_openedFor hopened hd)
    cases hprev : c.remoteFingerprint with
    | none => exact ho hz hstuck c f g hconn hd hprev hg
    | some prev =>
      -- The comparison of `mod.rs:729` found no difference.
      have hsame : g = prev := by
        simpa [SignalState.rebuilt, hconn, hprev, hg] using hrebuilt
      rw [hsame]
      obtain ⟨p₀, hp₀, hc₀⟩ := Option.bind_eq_some_iff.mp hconn
      exact hs k p₀ hp₀ c f prev hc₀ hd hprev
  | answer k offerId sdp =>
    intro p hp hbound
    exact hbound.onAnswer _ offerId sdp fun c f g ht hc hwait hd hg ↦
      ho p c f g hp ht hc hwait hd hg
  | _ => trivial

/-- Bound entries give the property: the handshake reads the fingerprint of the entry. -/
theorem bindingNamesCertificate_of_bound {s : SignalState P}
    (hs : s.Entries PeerConnection.Bound) : BindingNamesCertificate s := by
  intro k c f hconn hd
  have hread : ∀ p binding, s.sessions.peers[k]? = some p →
      p.session.bind TransportSession.remoteFingerprint = some binding → binding = f := by
    intro p binding hp hb
    obtain ⟨q, hq, hc⟩ := Option.bind_eq_some_iff.mp hconn
    rw [SignalState.peers_sessions] at hp
    obtain ⟨p₀, -, rfl⟩ := Option.map_eq_some_iff.mp hp
    simp only [hq, Option.bind_some, SignalState.channel, hc, Option.map_some] at hb
    exact hs k q hq c f binding hc hd hb
  refine ⟨fun p _ binding _ hp _ hb _ ↦ hread p binding hp hb, ?_⟩
  intro env signature own hunforged hown hstranger
  have hfails : ∀ p, s.sessions.peers[k]? = some p →
      authenticates s.sessions k signature p = false := by
    intro p hp
    by_contra hpass
    simp only [authenticates, Bool.not_eq_false] at hpass
    split at hpass
    · next nonce binding hn hb =>
      split at hpass
      · next hv =>
        have hmine := hunforged p nonce binding hp hn hb hv
        rw [hread p binding hp hb] at hmine
        exact hown hmine
      · cases hpass
    · cases hpass
  rcases onAuthResponse_of_not env hfails with h | h | h
  · rw [h]
    exact hstranger
  · rw [h]
    exact hstranger.dropPeer env k
  · intro p hp
    rw [h, (denyIfEvicted_frame s.sessions k).2.1] at hp
    exact hstranger p hp

/-- In every run whose steps bring no other fingerprint to a session with a secure channel, the
channel binding of every auth response names the certificate in use. -/
theorem channel_binding_names_certificate (e : EngineState P) (autoApprove : Bool)
    (ops : List (SignalEnv × SignalOp))
    (hops : AllSteps signalStep FingerprintKept (.join e autoApprove) ops) :
    ∀ pre post, ops = pre ++ post →
      BindingNamesCertificate (run signalStep (.join e autoApprove) pre) := by
  have hjoin : (SignalState.join e autoApprove).Entries PeerConnection.Bound := by
    intro d p hp
    simp [SignalState.join] at hp
  have hall := forall_run_of_allSteps (I := SignalState.Entries PeerConnection.Bound)
    (fun _ o hs hc ↦ SignalState.Entries.step PeerConnection.closed_bound hs o
      (describes_bound hs hc)) hjoin hops
  intro pre post hpre
  exact bindingNamesCertificate_of_bound (hall pre post hpre)

/-! ### A relayed answer -/

/-- A call in which nothing is in the way: there is an interface, sockets open, timers are due and
the connection builds and accepts every description. -/
def calmCall : SignalEnv where
  toSessionEnv := openLine (clearEnv 0 "")
  offerBuilt := some "v=0"
  answerBuilt := some "v=0"
  parses := true
  accepts := true
  offerId := "id"
  recoveryAfter := false
  offline := false
  socketRecovery := false
  zombie := false
  stuck := false
  opens := true
  due := true
  mediaDue := true
  iceConnected := true
  iceChecking := false

/-- A description with this fingerprint. -/
def sdpWith (fingerprint : String) : String := "a=fingerprint:" ++ fingerprint

/-- We dial a device. The answer names the certificate of `relay`, which the secure channel
checks, and a stray answer makes us offer again. -/
def dialedUp (k : String) : List (SignalEnv × SignalOp) :=
  [(calmCall, .dial k .offerer), (calmCall, .answer k "id" (sdpWith "relay")),
    (calmCall, .dtls k), (calmCall, .session (.dataChannelOpen k "nonce")),
    (calmCall, .answer k "" "")]

/-- The answer to the second offer. -/
def secondAnswerWith (k fingerprint : String) : SignalEnv × SignalOp :=
  (calmCall, .answer k "id" (sdpWith fingerprint))

/-- A state in which a device stands with this peer state and this entry. -/
structure Stands (s : SignalState P) (e : EngineState P) (k : String) (q : PeerState)
    (p : PeerConnection) : Prop where
  engine : s.network.engine = e
  closing : s.network.closing = []
  peer : s.network.peers[k]? = some q
  entry : s.connections[k]? = some p

namespace Stands

variable {s : SignalState P} {e : EngineState P} {k : String} {q : PeerState}
  {p p' : PeerConnection}

private theorem put (h : Stands s e k q p) : Stands (s.put k p') e k q p' := by
  refine ⟨h.engine, h.closing, h.peer, ?_⟩
  rw [SignalState.connections_put, if_pos rfl]

private theorem dial (e : EngineState P) (autoApprove : Bool) (k : String) :
    Stands (signalStep (.join e autoApprove) (calmCall, .dial k .offerer)) e k (.fresh none)
      ((PeerConnection.opened 0).offer calmCall.toNegotiationEnv) := by
  have hopened : Stands ((SignalState.join e autoApprove).insertOpened k) e k (.fresh none)
      (.opened 0) := by
    refine ⟨rfl, rfl, ?_, ?_⟩
    · simp [SignalState.insertOpened, SignalState.join]
    · simp [SignalState.connections_insertOpened, SignalState.join]
  have hdial : signalStep (.join e autoApprove) (calmCall, .dial k .offerer) =
      ((SignalState.join e autoApprove).insertOpened k).offerTo calmCall k := by
    simp [signalStep, SignalState.ensurePeerSession, calmCall, SignalState.join,
      SessionState.join, SignalState.connection]
  rw [hdial, SignalState.offerTo, hopened.entry]
  exact hopened.put

private theorem answer (h : Stands s e k q p) (offerId sdp : String)
    (hp : p.onAnswer calmCall.toNegotiationEnv offerId sdp = (p', false)) :
    Stands (signalStep s (calmCall, .answer k offerId sdp)) e k q p' := by
  simp only [signalStep, SignalState.onAnswer, h.entry, hp, SignalState.settle,
    Bool.false_eq_true, ↓reduceIte]
  exact h.put

private theorem strayAnswer (h : Stands s e k q p) (hlt : e.selfId < k) (offerId sdp : String)
    (hp : p.onAnswer calmCall.toNegotiationEnv offerId sdp = (p', true))
    (hsome : p'.session.isSome = true) :
    Stands (signalStep s (calmCall, .answer k offerId sdp)) e k q
      (p'.offer calmCall.toNegotiationEnv) := by
  have hput : Stands (s.put k p') e k q p' := h.put
  have hstep : signalStep s (calmCall, .answer k offerId sdp) =
      (s.put k p').offerTo calmCall k := by
    simp only [signalStep, SignalState.onAnswer, h.entry, hp, SignalState.settle, ↓reduceIte]
    simp [SignalState.reofferAfterFailedAnswer, hput.engine, hput.closing, hput.entry, hlt, hsome,
      calmCall]
  rw [hstep, SignalState.offerTo, hput.entry]
  exact hput.put

private theorem dtls (h : Stands s e k q p) :
    Stands (signalStep s (calmCall, .dtls k)) e k q (p.drive .startDtls) := by
  simp only [signalStep, SignalState.startDtls, h.entry]
  exact h.put

private theorem channelOpen (h : Stands s e k (.fresh none) p) (nonce : String) :
    ∃ q, q.nonceSent = some nonce ∧
      Stands (signalStep s (calmCall, .session (.dataChannelOpen k nonce))) e k q p := by
  have hpeer : s.sessions.peers[k]? =
      some { PeerState.fresh none with
        session := (s.connections[k]?).bind SignalState.channel } := by
    rw [SignalState.peers_sessions, h.peer, Option.map_some]
  have hafter : (initiate s.sessions k nonce).peers[k]? =
      some { PeerState.fresh none with
        session := (s.connections[k]?).bind SignalState.channel
        status := .handshaking
        nonceSent := some nonce } := by
    rw [initiate, SessionState.modifyPeer, getElem?_modify_peer, if_pos rfl, hpeer]
    rfl
  refine ⟨_, ?_, h.engine, h.closing, hafter, ?_⟩
  · rfl
  · show (s.follow (initiate s.sessions k nonce)).connections[k]? = some p
    rw [SignalState.connections_follow, hafter, Option.map_some, h.entry]
    rfl

end Stands

/-- A connection over the channel of `relay`. -/
private def relayedSession (signaling : SignalingState) (offers : Nat) (fingerprint : String)
    (dtls : Option String) : PeerSession where
  signaling := signaling
  localDescription := some "v=0"
  remoteDescription := some (sdpWith fingerprint)
  offers := offers
  dtls := dtls
  added := []

/-- An entry with such a connection. -/
private def relayedEntry (session : PeerSession) (pendingOfferId : Option String) :
    PeerConnection where
  epoch := 0
  session := some session
  pendingOfferId := pendingOfferId
  remoteDescriptionSet := true
  pendingRemoteCandidates := []

/-- Up to the second offer no step brings in another fingerprint. -/
private theorem dialedUp_spec {e : EngineState P} (autoApprove : Bool) {k : String}
    (hlt : e.selfId < k) :
    (∃ q, q.nonceSent = some "nonce" ∧
      Stands (run signalStep (.join e autoApprove) (dialedUp k)) e k q
        (relayedEntry (relayedSession (.haveLocalOffer 1) 2 "relay" (some "relay"))
          (some "id"))) ∧
    AllSteps signalStep FingerprintKept (.join e autoApprove) (dialedUp k) := by
  have hdialed := Stands.dial e autoApprove k
  have hanswered : Stands _ e k _
      (relayedEntry (relayedSession .stable 1 "relay" none) none) :=
    hdialed.answer "id" (sdpWith "relay") rfl
  have hup : Stands _ e k _
      (relayedEntry (relayedSession .stable 1 "relay" (some "relay")) none) := hanswered.dtls
  obtain ⟨q, hq, hopen⟩ := hup.channelOpen "nonce"
  refine ⟨⟨q, hq, hopen.strayAnswer hlt "" "" rfl rfl⟩,
    trivial, ?_, trivial, trivial, ?_, trivial⟩
  · intro p c f g hp _ hc _ hd
    rw [hdialed.entry, Option.some.injEq] at hp
    subst hp
    cases hc
    cases hd
  · intro p c f g hp _ hc hwait
    rw [hopen.entry, Option.some.injEq] at hp
    subst hp
    cases hc
    cases hwait

/-- Device 4 offers to device 5. -/
private theorem freshNode_offers : freshNode.selfId < seededDevice 5 := by
  show seededDevice 4 < seededDevice 5
  decide

/-- A second answer over the same certificate is a plain restart. -/
theorem restarted_channel_keeps_binding :
    BindingNamesCertificate (run signalStep (.join freshNode true)
      (dialedUp (seededDevice 5) ++ [secondAnswerWith (seededDevice 5) "relay"])) := by
  obtain ⟨⟨q, -, hstands⟩, hfirst⟩ := dialedUp_spec true freshNode_offers
  refine channel_binding_names_certificate freshNode true _ ?_ _ [] (List.append_nil _).symm
  refine allSteps_append_iff.mpr ⟨hfirst, ?_, trivial⟩
  intro p c f g hp _ hc _ hd hg
  rw [hstands.entry, Option.some.injEq] at hp
  subst hp
  cases hc
  cases hd
  have hfp : sdpFingerprint (sdpWith "relay") = some "relay" := by decide
  rw [hfp, Option.some.injEq] at hg
  exact hg.symm

/-- A device signed its own certificate, the description in force names it, and the channel runs
over that of `relay`. Stated for any state, so that nothing here evaluates the node. -/
private theorem relayed_signature_verifies {s : SignalState seeded} {e : EngineState seeded}
    {q : PeerState} (hq : q.nonceSent = some "nonce")
    (h : Stands s e (seededDevice 5) q
      (relayedEntry (relayedSession .stable 2 "device" (some "relay")) none)) :
    ¬ BindingNamesCertificate s := by
  intro hnames
  have hconn : s.connection (seededDevice 5) =
      some (relayedSession .stable 2 "device" (some "relay")) := by
    rw [SignalState.connection, h.entry]
    rfl
  have hchannel : (s.connections[seededDevice 5]?).bind SignalState.channel =
      some ⟨none, some "device"⟩ := by
    rw [h.entry]
    decide
  have hpeer : s.sessions.peers[seededDevice 5]? =
      some { q with session := some ⟨none, some "device"⟩ } := by
    rw [SignalState.peers_sessions, h.peer, hchannel]
    rfl
  have hverified : verify seeded (seededDevice 5)
      (handshakePayload "nonce" (pubkeyPart (seededDevice 5)) s.network.engine.selfId "device")
      (signWith seeded (5 : UInt8)
        (handshakePayload "nonce" (seededDevice 5) s.network.engine.selfId "device")) =
        .ok true := by
    rw [pubkeyPart_seededDevice]
    exact verify_signWith seeded (5 : UInt8) _
  have hread := (hnames (seededDevice 5) _ "relay" hconn rfl).1 _ "nonce" "device" _ hpeer hq rfl
    hverified
  exact absurd hread (by decide)

/-- The relay answers the second offer with the fingerprint of the device it stands in for: the
signature of that device passes over a channel that never saw its certificate. -/
theorem relayed_answer_passes_for_device :
    ¬ ∀ pre post, dialedUp (seededDevice 5) ++ [secondAnswerWith (seededDevice 5) "device"] =
        pre ++ post →
      BindingNamesCertificate (run signalStep (.join freshNode true) pre) := by
  intro hall
  obtain ⟨⟨q, hq, hstands⟩, -⟩ := dialedUp_spec true freshNode_offers
  have hlast := hall _ [] (List.append_nil _).symm
  rw [run_append, run_cons, run_nil] at hlast
  exact relayed_signature_verifies hq
    (hstands.answer "id" (sdpWith "device") rfl) hlast

end MyOwnMesh
