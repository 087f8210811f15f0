import MyOwnMesh.Lib.Text

/-!
# Session descriptions, ICE candidates and peer connections

The helpers of `crates/myownmesh-core/src/transport/webrtc.rs` that read a session description
or a candidate, and the peer connection behind a session, as far as the engine drives and reads
it: which description is in force on either side, whether a local offer waits for its answer,
which certificate the secure channel checked and which candidates were handed over. The
connection itself is a library; whether it accepts a description is part of each call.
-/

namespace MyOwnMesh

open Lib

/-! ### Session descriptions -/

/-- The DTLS fingerprint of a description, in lower case; `webrtc.rs:1486–1491`. -/
def sdpFingerprint (sdp : String) : Option String :=
  (((Text.lines sdp).map Text.trim).findSome? (Text.after "a=fingerprint:")).map fun v ↦
    Text.asciiLower (Text.trim v)

/-- The ICE username fragment that a line advertises, if any. -/
def iceUfrag (line : String) : Option String :=
  match Text.splitOnce ':' line with
  | none => none
  | some (name, value) =>
    if Text.eqIgnoreAsciiCase name "a=ice-ufrag" ∧ Text.trim value ≠ "" then
      some (Text.trim value)
    else none

/-- Every ICE username fragment of a description, once each; `webrtc.rs:1496–1510`. -/
def sdpIceUfrags (sdp : String) : List String :=
  ((Text.lines sdp).map Text.trim).foldl
    (fun out line ↦
      match iceUfrag line with
      | none => out
      | some value => if value ∈ out then out else out ++ [value]) []

/-! ### Candidates -/

/-- A candidate as signaling carries it; `webrtc.rs:361–366`. -/
structure LocalIceCandidate where
  candidate : String
  sdpMid : Option String
  sdpMlineIndex : Option UInt16
  usernameFragment : Option String
  deriving DecidableEq, Repr

/-- The word after the first `ufrag` of a candidate line. -/
def ufragExtension : List String → Option String
  | [] => none
  | word :: rest =>
    if Text.eqIgnoreAsciiCase word "ufrag" then rest.head? else ufragExtension rest

/-- The generation a candidate belongs to; `webrtc.rs:1515–1531`. -/
def candidateUfrag (c : LocalIceCandidate) : Option String :=
  match (c.usernameFragment.map Text.trim).filter (· ≠ "") with
  | some value => some value
  | none => ufragExtension (Text.splitAsciiWhitespace c.candidate)

/-- The candidate is not of another generation than the description; `webrtc.rs:1533–1541`. -/
def candidateMatchesUfrags (c : LocalIceCandidate) (activeUfrags : List String) : Bool :=
  activeUfrags.isEmpty ||
    match candidateUfrag c with
    | none => true
    | some ufrag => activeUfrags.contains ufrag

/-- A marked candidate matches a description with fragments exactly when its own is one. -/
theorem candidateMatchesUfrags_iff {c : LocalIceCandidate} {ufrag : String} {active : List String}
    (hc : candidateUfrag c = some ufrag) (ha : active ≠ []) :
    candidateMatchesUfrags c active = true ↔ ufrag ∈ active := by
  simp [candidateMatchesUfrags, hc, ha]

/-! ### Peer connections -/

/-- Which side sent a description. -/
inductive SdpType where
  | offer
  | answer
  deriving DecidableEq, Repr

/-- Which side starts a negotiation. -/
inductive Transport.Role where
  | offerer
  | answerer
  deriving DecidableEq, Repr

/-- Where the negotiation of a connection stands. A local offer carries its number. -/
inductive SignalingState where
  | stable
  | haveLocalOffer (offer : Nat)
  | haveRemoteOffer
  deriving DecidableEq, Repr

/-- A peer connection: the descriptions in force, the number of offers made on it, the
fingerprint that the secure channel checked when it came up, and the candidates handed over,
each with the remote description it met. -/
structure PeerSession where
  signaling : SignalingState
  localDescription : Option String
  remoteDescription : Option String
  offers : Nat
  dtls : Option String
  added : List (String × LocalIceCandidate)
  deriving DecidableEq, Repr

namespace PeerSession

/-- A connection nobody has negotiated on. -/
def opened : PeerSession where
  signaling := .stable
  localDescription := none
  remoteDescription := none
  offers := 0
  dtls := none
  added := []

/-- A fresh local offer is installed, in place of one that waits; `webrtc.rs:1588–1605`. -/
def createOffer (sdp : String) (c : PeerSession) : PeerSession :=
  { c with
    signaling := .haveLocalOffer c.offers
    localDescription := some sdp
    offers := c.offers + 1 }

/-- A remote description comes into force: an offer waits for our answer, an answer completes
whatever local offer is outstanding; `webrtc.rs:1613–1623`. -/
def setRemoteDescription (kind : SdpType) (sdp : String) (c : PeerSession) : PeerSession :=
  { c with
    signaling :=
      match kind with
      | .offer => .haveRemoteOffer
      | .answer => .stable
    remoteDescription := some sdp }

/-- Our answer is installed; `webrtc.rs:1673–1690`. -/
def createAnswer (sdp : String) (c : PeerSession) : PeerSession :=
  { c with signaling := .stable, localDescription := some sdp }

/-- Candidates are handed over, which a connection without a remote description refuses;
`webrtc.rs:1694–1699`. -/
def addIceCandidates (candidates : List LocalIceCandidate) (c : PeerSession) : PeerSession :=
  { c with added := c.added ++ c.remoteDescription.elim [] fun sdp ↦ candidates.map (sdp, ·) }

/-- A local offer waits for its answer; `webrtc.rs:1666–1668`. -/
def awaitingAnswer (c : PeerSession) : Bool :=
  match c.signaling with
  | .haveLocalOffer _ => true
  | _ => false

/-- The fingerprint of the remote description in force; `webrtc.rs:1633–1635`. -/
def remoteFingerprint (c : PeerSession) : Option String := c.remoteDescription.bind sdpFingerprint

/-- The fingerprint of our own description; `webrtc.rs:1656–1658`. -/
def localFingerprint (c : PeerSession) : Option String := c.localDescription.bind sdpFingerprint

/-- The fragments of the remote description in force; `webrtc.rs:1637–1643`. -/
def remoteIceUfrags (c : PeerSession) : List String :=
  (c.remoteDescription.map sdpIceUfrags).getD []

/-- The secure channel comes up: it checks the certificate of the peer against the remote
description in force, once. -/
def startDtls (c : PeerSession) : PeerSession :=
  { c with dtls := c.dtls.or c.remoteFingerprint }

end PeerSession

end MyOwnMesh
