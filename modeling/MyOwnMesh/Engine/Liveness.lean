import Mathlib.Data.Finset.Insert
import MyOwnMesh.Engine.ConnTrace
import MyOwnMesh.Engine.Reconnect
import MyOwnMesh.Engine.Watch

/-!
# The liveness watchers

`crates/myownmesh-core/src/engine`: the heartbeat (`heartbeat.rs:22–113`), the wake probe
(`wake.rs:75–175`), the connect timeout and the check of a restart (`ice_watchdog.rs:140–515`), the
handshake watchdog (`handshake.rs:142–168`), and what an announce or an offer makes the engine look
at (`mod.rs:422–428, 3220–3428`). Each reads the instants that a peer entry keeps and drops the
session that it finds dead.

A step is what a task does between two of its waits, or between a look at an entry and the drop, so
a session that is suspected may speak before it is dropped. Some watchers drop by the device alone,
whatever session it has by then. Instants are nanoseconds. What the transport answers when it is
asked for its ICE state, what a handler of the handshake decides, and when a timer goes off are
parts of an operation. The notes are what a session lived through, in order.
-/

namespace MyOwnMesh.Liveness

open Lib Lib.Replay Lib.Trace
open Reconnect (DropReason)
open Tracing (ConnectionTier)
open Watch (Instant)

/-! ### Constants of `scheduler.rs` -/

def handshakeTimeoutMs : Nat := 30000

def heartbeatIntervalMs : Nat := 30000

def heartbeatTimeoutMs : Nat := 30000

def wakeDetectionThresholdMs : Nat := heartbeatIntervalMs * 2

def wakeProbeDelayMs : Nat := 1500

def livenessProbeMinIntervalMs : Nat := 5000

def dataChannelOpenTimeoutMs : Nat := 30000

def restartTrafficGraceMs : Nat := 10000

/-- `upstream.rs:204`. -/
def staleInboundMs : Nat := 25000

/-- `mod.rs:59`. -/
def reofferMinIntervalMs : Nat := 2000

/-- `heartbeat.rs:53`. -/
def staleCutoffMs : Nat := heartbeatTimeoutMs + wakeDetectionThresholdMs

def nanos (ms : Nat) : Nat := ms * 1000000

/-- The whole milliseconds from an instant to a later one, zero if it is not later. -/
def millisSince (now since : Instant) : Nat := (now - since) / 1000000

/-! ### Peer entries -/

/-- An entry of the peer map, as far as the watchers go; `connection.rs:47–160, 274–300`. -/
structure Link where
  epoch : Nat
  session : Bool
  status : PeerStatus := .sighted
  tier : ConnectionTier := .steady
  authenticated : Bool := false
  localApproveSent : Bool := false
  remoteApproveSeen : Bool := false
  lastRecvAt : Option Instant := none
  lastOfferSentAt : Option Instant := none
  lastLivenessProbeAt : Option Instant := none
  iceDisconnectedSince : Option Instant := none
  sessionStartedAt : Option Instant := none
  dataChannelOpen : Bool := false
  handshakeStartedAt : Option Instant := none
  deriving DecidableEq, Repr

namespace Link

def established (link : Link) : Bool := link.status == .active || link.status == .shelved

/-- `connection.rs:194–196`. -/
def isAdmitted (link : Link) : Bool := link.authenticated && link.established

/-- A restart that may still work out; `mod.rs:3244–3257, 3338–3347`. -/
def restartInFlight (link : Link) (now : Instant) : Bool :=
  match link.tier with
  | .iceRestart started => decide (millisSince now started < dataChannelOpenTimeoutMs)
  | .iceWatchdog since => decide (millisSince now since < dataChannelOpenTimeoutMs)
  | _ => false

/-- Traffic came over a path that is being recovered; `mod.rs:2760–2768`. -/
def recover (link : Link) : Link :=
  match link.tier with
  | .iceWatchdog _ | .iceRestart _ | .wakeProbe =>
    { link with tier := .steady, iceDisconnectedSince := none }
  | _ => link

/-- `handshake.rs:435–468`. -/
def settle (link : Link) : Link :=
  if link.authenticated && link.localApproveSent && link.remoteApproveSeen &&
      link.status != .active then
    { link with status := .active, tier := .steady }
  else link

end Link

/-- What makes a watcher drop a session. -/
inductive Cause where
  | heartbeat
  | connect
  | restart (iceUp : Bool)
  | handshake
  | zombie
  | probe
  | stuck
  deriving DecidableEq, Repr

/-- What the drop is put down to. -/
def Cause.reason : Cause → DropReason
  | .heartbeat | .handshake | .zombie | .probe => .heartbeatTimeout
  | .connect | .restart _ | .stuck => .iceFailed

/-- Whether the drop names the epoch of the session that was found; `handshake.rs:164`,
`mod.rs:781, 3290` name none. -/
def Cause.byEpoch : Cause → Bool
  | .heartbeat | .connect | .restart _ | .probe => true
  | .handshake | .zombie | .stuck => false

/-- What a session lives through. -/
inductive Kind where
  | sighted
  | opened
  | frame
  | media
  | channel
  | initiated
  | authenticated
  | restarted
  | asked
  | suspected (cause : Cause)
  | dropped (reason : DropReason) (cause : Option Cause)
  | replaced
  deriving DecidableEq, Repr

/-- What is done to an entry that stays. -/
inductive Touch where
  /-- `mod.rs:2731–2769`. -/
  | frame (application : Bool)
  /-- `mod.rs:2067–2080`. -/
  | media
  /-- `mod.rs:2201–2206`. -/
  | channelOpen
  /-- `handshake.rs:77–86`. -/
  | initiate
  /-- `handshake.rs:356–372`. -/
  | authenticate
  /-- `handshake.rs:428–433`, and what sets `local_approve_sent`. -/
  | approve (locally : Bool)
  /-- `ladder.rs:113–128`. -/
  | shelve (shouldBeShelved : Bool)
  /-- `mod.rs:2329–2355`. -/
  | iceUp
  /-- `mod.rs:2356–2367`. -/
  | iceDown
  /-- `mod.rs:1326–1345`. -/
  | recovered
  /-- `mod.rs:1360–1386`. -/
  | restart
  /-- The stamp of an offer, and its way back. -/
  | offer (sent : Bool)
  /-- A ping whose answer is waited for; a probe on an announce is stamped. -/
  | ask (stamped : Bool)
  | suspect (cause : Cause)
  deriving DecidableEq, Repr

/-- The entry after a touch, and what is noted of it. -/
def Link.touch (now : Instant) (link : Link) : Touch → Link × Option Kind
  | .frame application =>
    if application && !link.isAdmitted then (link, none)
    else ({ link.recover with lastRecvAt := some now }, some .frame)
  | .media =>
    if link.isAdmitted then ({ link with lastRecvAt := some now }, some .media) else (link, none)
  | .channelOpen => ({ link with dataChannelOpen := true }, some .channel)
  | .initiate =>
    ({ link with status := .handshaking, handshakeStartedAt := some now }, some .initiated)
  | .authenticate =>
    ({ link with authenticated := true, status := .pendingApproval }, some .authenticated)
  | .approve locally =>
    (Link.settle <| if locally then { link with localApproveSent := true }
      else { link with remoteApproveSeen := true }, none)
  | .shelve shouldBeShelved =>
    (if shouldBeShelved && link.status == .active then { link with status := .shelved }
      else if !shouldBeShelved && link.status == .shelved then { link with status := .active }
      else link, none)
  | .iceUp =>
    match link.tier with
    | .iceWatchdog _ | .iceRestart _ | .wakeProbe =>
      ({ link with iceDisconnectedSince := none, tier := .iceRestart now }, some .restarted)
    | _ => ({ link with iceDisconnectedSince := none }, none)
  | .iceDown =>
    (if link.iceDisconnectedSince.isNone then
      { link with iceDisconnectedSince := some now, tier := .iceWatchdog now }
    else link, none)
  | .recovered =>
    (match link.tier with
      | .iceRestart _ | .iceWatchdog _ =>
        { link with iceDisconnectedSince := none, tier := .steady }
      | _ => { link with iceDisconnectedSince := none }, none)
  | .restart =>
    ({ link with lastOfferSentAt := some now, tier := .iceRestart now }, some .restarted)
  | .offer sent => ({ link with lastOfferSentAt := if sent then some now else none }, none)
  | .ask stamped =>
    (if stamped then { link with lastLivenessProbeAt := some now } else link, some .asked)
  | .suspect cause => (link, some (.suspected cause))

/-! ### A node -/

structure Note where
  moment : Instant
  device : String
  epoch : Nat
  kind : Kind
  deriving DecidableEq, Repr

/-- A session that a scan found and that is not dropped yet. A connect timeout takes a snapshot of
the checks between its first look and the drop. -/
structure Suspect where
  device : String
  epoch : Nat
  cause : Cause
  snapshotTaken : Bool
  deriving DecidableEq, Repr

/-- A session that a look at one entry found dead, and whose device is to be dropped. -/
structure Verdict where
  device : String
  epoch : Nat
  cause : Cause
  deriving DecidableEq, Repr

/-- A task that looks again when the answer to a ping is due. -/
structure Probe where
  device : String
  epoch : Nat
  due : Instant
  deriving DecidableEq, Repr

/-- The peers of a network with what runs beside them: sessions that are being opened, suspects and
verdicts, probes that wait for an answer, and handshakes on a timer. -/
structure Net where
  peers : AList fun _ : String ↦ Link := ∅
  nextEpoch : Nat := 0
  clock : Instant := 0
  offline : Bool := false
  recovering : Bool := false
  closing : Finset String := ∅
  opening : List String := []
  suspects : List Suspect := []
  verdicts : List Verdict := []
  probes : List Probe := []
  watchdogs : List (String × Instant) := []
  trace : List Note := []

/-- What the agent of a session says of itself. -/
inductive IceState where
  | checking
  | connected
  | disconnected
  | failed
  | other
  deriving DecidableEq, Repr

/-- What a handler of the handshake makes of a frame. -/
inductive Handled where
  | kept
  | refused (reason : DropReason)
  | authenticated (autoApprove : Bool)
  | approved
  deriving DecidableEq, Repr

/-- What the pump of a session brings. A failed ICE agent is asked for its state once more. -/
inductive TransportEvent where
  | media
  | channelOpen
  | channelClosed (evicted : Bool)
  | application
  | handshake (handled : Handled)
  | ice (state : IceState) (asked : IceState)
  | pcClosed
  deriving DecidableEq, Repr

/-- The watchers that go through all peers. -/
inductive Scan where
  | heartbeat
  | connect
  | restart
  deriving DecidableEq, Repr

/-- What a scan finds in an entry; `heartbeat.rs:54–71`, `ice_watchdog.rs:144–157, 170–203`. -/
def Link.found (now : Instant) (iceUp : Bool) (link : Link) : Scan → Option Cause
  | .heartbeat =>
    if link.established && link.lastRecvAt.any fun t ↦ staleCutoffMs < millisSince now t then
      some .heartbeat
    else none
  | .connect =>
    if !link.dataChannelOpen &&
        link.sessionStartedAt.any fun t ↦ dataChannelOpenTimeoutMs ≤ millisSince now t then
      some .connect
    else none
  | .restart =>
    match link.tier with
    | .iceRestart started =>
      if (if iceUp then restartTrafficGraceMs else dataChannelOpenTimeoutMs) ≤
          millisSince now started then
        some (.restart iceUp)
      else none
    | _ => none

namespace Net

variable (s : Net)

/-- A touch of the entry of a device, if there is one. -/
def touch (d : String) (a : Touch) : Net :=
  match s.peers.lookup d with
  | none => s
  | some link =>
    { s with
      peers := s.peers.insert d (link.touch s.clock a).1
      trace := s.trace ++ ((link.touch s.clock a).2.map fun kind ↦
        Note.mk s.clock d link.epoch kind).toList }

/-- An entry is put in, over the one there is. -/
def put (d : String) (session : Bool) : Net :=
  { s with
    peers := s.peers.insert d
      { epoch := s.nextEpoch, session := session,
        sessionStartedAt := if session then some s.clock else none }
    nextEpoch := s.nextEpoch + 1
    trace := s.trace ++
      ((s.peers.lookup d).map fun link ↦ Note.mk s.clock d link.epoch .replaced).toList ++
      [⟨s.clock, d, s.nextEpoch, if session then .opened else .sighted⟩] }

/-- `drop_peer_inner`, up to the close of the session; `mod.rs:3445–3466`. -/
def dropPeer (d : String) (expectedEpoch : Option Nat) (reason : DropReason)
    (cause : Option Cause) : Net :=
  if d ∈ s.closing then s
  else match s.peers.lookup d with
    | none => s
    | some link =>
      if expectedEpoch.any (· != link.epoch) then s
      else
        { s with
          peers := s.peers.erase d
          closing := insert d s.closing
          trace := s.trace ++ [⟨s.clock, d, link.epoch, .dropped reason cause⟩] }

/-- A look at an entry finds the session dead. -/
def condemn (d : String) (cause : Cause) : Net :=
  match s.peers.lookup d with
  | none => s
  | some link =>
    { s.touch d (.suspect cause) with verdicts := s.verdicts ++ [⟨d, link.epoch, cause⟩] }

/-- The drop after the look; `drop_peer` and `drop_peer_if_epoch`, `mod.rs:3432–3443`. -/
def carryOut (v : Verdict) : Net :=
  if v ∉ s.verdicts then s
  else
    { s with verdicts := s.verdicts.erase v }.dropPeer v.device
      (if v.cause.byEpoch then some v.epoch else none) v.cause.reason (some v.cause)

/-- `mod.rs:1565–1590`. -/
def noteSightedWithoutDialing (d : String) : Net :=
  if (s.peers.lookup d).isSome then s else s.put d false

/-- Up to the session that is asked for; `mod.rs:1634–1662`. -/
def ensurePeerSession (d : String) : Net :=
  if s.offline || s.recovering || decide (d ∈ s.closing) then s
  else if (s.peers.lookup d).any (·.session) then s
  else { s with opening := d :: s.opening }

/-- From the session that was opened; `mod.rs:1663–1699`. -/
def sessionOpened (d : String) (opened : Bool) : Net :=
  if d ∉ s.opening then s
  else
    let s' := { s with opening := s.opening.erase d }
    if !opened || s.recovering || decide (d ∈ s.closing) then s' else s'.put d true

/-- `mod.rs:1278–1386`. -/
def renegotiateIce (d : String) (force : Bool) (ice : IceState) (expectedEpoch : Option Nat) :
    Net :=
  if s.offline || s.recovering then s
  else match s.peers.lookup d with
    | none => s
    | some link =>
      if expectedEpoch.any (· != link.epoch) || !link.session then s
      else if ice = .connected ∧ !force then s.touch d .recovered
      else if ice = .checking then s
      else if link.lastOfferSentAt.all fun t ↦ reofferMinIntervalMs ≤ millisSince s.clock t then
        s.touch d .restart
      else s

/-- What a frame of the handshake does to its sender. -/
def handled (d : String) : Handled → Net
  | .kept => s
  | .refused reason => s.dropPeer d none reason none
  | .authenticated autoApprove =>
    let s' := s.touch d .authenticate
    if autoApprove then s'.touch d (.approve true) else s'
  | .approved => s.touch d (.approve false)

/-- `mod.rs:2054–2289, 2295–2400, 2644–2654`. Only a session has a pump. -/
def handleTransportEvent (d : String) (epoch : Nat) (event : TransportEvent) : Net :=
  match s.peers.lookup d with
  | none => s
  | some link =>
    if link.epoch ≠ epoch ∨ link.session = false then s
    else match event with
      | .media => s.touch d .media
      | .channelOpen =>
        let s' := (s.touch d .channelOpen).touch d .initiate
        { s' with watchdogs := (d, s.clock + nanos handshakeTimeoutMs) :: s'.watchdogs }
      | .channelClosed evicted =>
        s.dropPeer d (some epoch) (if evicted then .denied else .iceFailed) none
      | .application => s.touch d (.frame true)
      | .handshake h => (s.touch d (.frame false)).handled d h
      | .ice .connected _ => s.touch d .iceUp
      | .ice .disconnected _ => s.touch d .iceDown
      | .ice .failed asked =>
        if link.lastRecvAt.any fun t ↦ millisSince s.clock t < heartbeatTimeoutMs then s
        else s.renegotiateIce d false asked (some epoch)
      | .ice _ _ => s
      | .pcClosed => s.dropPeer d (some epoch) .iceFailed none

/-- A scan looks at one entry. -/
def scanPeer (scan : Scan) (now : Instant) (iceUp : String → Bool) (d : String) : Net :=
  match s.peers.lookup d with
  | none => s
  | some link =>
    match link.found now (iceUp d) scan with
    | none => s
    | some cause =>
      { s.touch d (.suspect cause) with
        suspects := s.suspects ++ [⟨d, link.epoch, cause, false⟩] }

/-- A scan; the instant it goes by was taken when it began. -/
def scanPeers (scan : Scan) (now : Instant) (iceUp : String → Bool) : Net :=
  if s.clock < now then s
  else s.peers.keys.foldl (fun s' d ↦ s'.scanPeer scan now iceUp d) s

/-- The tasks that are under way are taken up one by one. -/
def removeSuspect (x : Suspect) : Net := { s with suspects := s.suspects.erase x }

/-- `heartbeat.rs:82–105`, `ice_watchdog.rs:355–515`. -/
def reclaim (x : Suspect) : Net :=
  if x ∉ s.suspects then s
  else
    let drop := (s.removeSuspect x).dropPeer x.device (some x.epoch) x.cause.reason (some x.cause)
    match x.cause with
    | .connect =>
      if x.snapshotTaken then drop
      else if s.offline then s.removeSuspect x
      else if s.recovering then drop
      else { s with suspects := { x with snapshotTaken := true } :: s.suspects.erase x }
    | .restart _ => if s.offline then s.removeSuspect x else drop
    | _ => drop

/-- A ping is sent, and a task waits for what comes. -/
def ask (d : String) (stamped : Bool) : Net :=
  match s.peers.lookup d with
  | none => s
  | some link =>
    { s.touch d (.ask stamped) with
      probes := ⟨d, link.epoch, s.clock + nanos wakeProbeDelayMs⟩ :: s.probes }

/-- `wake.rs:110–137`. -/
def onWake : Net :=
  (s.peers.keys.filter fun d ↦ (s.peers.lookup d).any Link.established).foldl
    (fun s' d ↦ s'.ask d false) s

/-- `wake.rs:139–170`, `mod.rs:3396–3425`. -/
def probeAnswer (p : Probe) (now : Instant) : Net :=
  if p ∉ s.probes ∨ now < p.due ∨ s.clock < now then s
  else
    let s' := { s with probes := s.probes.erase p }
    match s.peers.lookup p.device with
    | none => s'
    | some link =>
      if link.epoch = p.epoch ∧
          link.lastRecvAt.all fun t ↦ wakeProbeDelayMs < millisSince now t then
        s'.condemn p.device .probe
      else s'

/-- `handshake.rs:142–168`. -/
def handshakeWatchdog (d : String) (due : Instant) : Net :=
  if (d, due) ∉ s.watchdogs ∨ s.clock < due then s
  else
    let s' := { s with watchdogs := s.watchdogs.erase (d, due) }
    match s.peers.lookup d with
    | none => s'
    | some link =>
      if !link.authenticated && link.status == .handshaking &&
          link.handshakeStartedAt.any fun t ↦ handshakeTimeoutMs ≤ millisSince s.clock t then
        s'.condemn d .handshake
      else s'

/-- `mod.rs:3220–3292`. -/
def clearStaleSessionIfZombie (d : String) (ice : Option IceState) : Net :=
  match s.peers.lookup d with
  | none => s
  | some link =>
    if (link.lastRecvAt.any fun t ↦ staleInboundMs < millisSince s.clock t) &&
        !(link.restartInFlight s.clock || ice == some .checking || ice == some .connected) then
      s.condemn d .zombie
    else s

/-- `mod.rs:3325–3395`. -/
def confirmActiveSessionOnAnnounce (d : String) : Net :=
  match s.peers.lookup d with
  | none => s
  | some link =>
    if link.established && (link.lastRecvAt.any fun t ↦ staleInboundMs < millisSince s.clock t) &&
        !link.restartInFlight s.clock &&
        !(link.lastLivenessProbeAt.any fun t ↦
          millisSince s.clock t < livenessProbeMinIntervalMs) then
      s.ask d true
    else s

/-- An offer meets a session that does not come up; `mod.rs:422–428, 742–781`. -/
def clearStuckSession (d : String) : Net :=
  match s.peers.lookup d with
  | none => s
  | some link =>
    if !link.dataChannelOpen &&
        link.sessionStartedAt.any fun t ↦ restartTrafficGraceMs ≤ millisSince s.clock t then
      s.condemn d .stuck
    else s

end Net

inductive Op where
  | elapse (duration : Nat)
  | epochsElsewhere (count : Nat)
  | setOffline (offline : Bool)
  | setRecovering (recovering : Bool)
  | sighted (d : String)
  | ensurePeerSession (d : String)
  | sessionOpened (d : String) (opened : Bool)
  | transport (d : String) (epoch : Nat) (event : TransportEvent)
  | approve (d : String)
  | shelve (d : String) (shouldBeShelved : Bool)
  | offer (d : String) (sent : Bool)
  | renegotiateIce (d : String) (force : Bool) (ice : IceState) (expectedEpoch : Option Nat)
  | scan (scan : Scan) (now : Instant) (iceUp : String → Bool)
  | reclaim (x : Suspect)
  | wake
  | probeAnswer (p : Probe) (now : Instant)
  | handshakeWatchdog (d : String) (due : Instant)
  | clearZombie (d : String) (ice : Option IceState)
  | confirm (d : String)
  | clearStuck (d : String)
  | carryOut (v : Verdict)
  | drop (d : String) (expectedEpoch : Option Nat) (reason : DropReason)
  | finishClose (d : String)

def step (s : Net) : Op → Net
  | .elapse duration => { s with clock := s.clock + duration }
  | .epochsElsewhere count => { s with nextEpoch := s.nextEpoch + count }
  | .setOffline offline => { s with offline := offline }
  | .setRecovering recovering => { s with recovering := recovering }
  | .sighted d => s.noteSightedWithoutDialing d
  | .ensurePeerSession d => s.ensurePeerSession d
  | .sessionOpened d opened => s.sessionOpened d opened
  | .transport d epoch event => s.handleTransportEvent d epoch event
  | .approve d => s.touch d (.approve true)
  | .shelve d shouldBeShelved => s.touch d (.shelve shouldBeShelved)
  | .offer d sent => s.touch d (.offer sent)
  | .renegotiateIce d force ice expectedEpoch => s.renegotiateIce d force ice expectedEpoch
  | .scan scan now iceUp => s.scanPeers scan now iceUp
  | .reclaim x => s.reclaim x
  | .wake => s.onWake
  | .probeAnswer p now => s.probeAnswer p now
  | .handshakeWatchdog d due => s.handshakeWatchdog d due
  | .clearZombie d ice => s.clearStaleSessionIfZombie d ice
  | .confirm d => s.confirmActiveSessionOnAnnounce d
  | .clearStuck d => s.clearStuckSession d
  | .carryOut v => s.carryOut v
  | .drop d expectedEpoch reason => s.dropPeer d expectedEpoch reason none
  | .finishClose d => { s with closing := s.closing.erase d }

/-! ### What the notes tell of a session -/

/-- The story of a session. -/
def storyOf (trace : List Note) (d : String) (epoch : Nat) : List (Instant × Kind) :=
  (trace.filter fun n ↦ n.device == d && n.epoch == epoch).map fun n ↦ (n.moment, n.kind)

abbrev Net.story (s : Net) (d : String) (epoch : Nat) : List (Instant × Kind) :=
  storyOf s.trace d epoch

def IsFrame (x : Instant × Kind) : Prop := x.2 = .frame

/-- Media count as traffic, though only a frame ends a recovery. -/
def IsHeard (x : Instant × Kind) : Prop := x.2 = .frame ∨ x.2 = .media

def IsInitiated (x : Instant × Kind) : Prop := x.2 = .initiated

/-- The session was opened or sighted, and nothing ended it. -/
def Alive (story : List (Instant × Kind)) : Prop :=
  story ≠ [] ∧ ∀ x ∈ story, x.2 ≠ .replaced ∧ ∀ reason cause, x.2 ≠ .dropped reason cause

/-- The last thing that was heard is some time past. -/
def SilentFor (ms : Nat) (story : List (Instant × Kind)) (now : Instant) : Prop :=
  ∃ t, Latest Prod.fst IsHeard story (some t) ∧ ms < millisSince now t

/-- The session was opened some time ago, and its channel never came up. -/
def NeverUpFor (ms : Nat) (story : List (Instant × Kind)) (now : Instant) : Prop :=
  (∀ x ∈ story, x.2 ≠ .channel) ∧ ∃ t, (t, .opened) ∈ story ∧ ms ≤ millisSince now t

/-- The grounds on which a watcher may suspect a session. -/
def Suspicious (story : List (Instant × Kind)) (now : Instant) : Cause → Prop
  | .heartbeat => SilentFor staleCutoffMs story now
  | .connect => NeverUpFor dataChannelOpenTimeoutMs story now
  | .restart iceUp =>
    ∃ t, Since story (t, .restarted) IsFrame ∧
      (if iceUp then restartTrafficGraceMs else dataChannelOpenTimeoutMs) ≤ millisSince now t
  | .handshake =>
    (∀ x ∈ story, x.2 ≠ .authenticated) ∧
      ∃ t, Latest Prod.fst IsInitiated story (some t) ∧ handshakeTimeoutMs ≤ millisSince now t
  | .zombie => SilentFor staleInboundMs story now
  | .probe =>
    SilentFor wakeProbeDelayMs story now ∧
      ∃ t, (t, .asked) ∈ story ∧ wakeProbeDelayMs ≤ millisSince now t
  | .stuck => NeverUpFor restartTrafficGraceMs story now

/-- What a session must have lived through before a note. -/
def Grounds (story : List (Instant × Kind)) (now : Instant) : Kind → Prop
  | .sighted | .opened => story = []
  | .suspected cause => Alive story ∧ Suspicious story now cause
  | _ => Alive story

/-- The session was suspected; or, where the drop names no epoch, another session of the device was,
when there was nothing to be noted of this one yet. -/
def Accused (before : List Note) (d : String) (epoch : Nat) (cause : Cause) : Prop :=
  ∃ t e past rest, before = past ++ ⟨t, d, e, .suspected cause⟩ :: rest ∧
    (e = epoch ∨ cause.byEpoch = false ∧ storyOf past d epoch = [])

def Grounded (before : List Note) (n : Note) : Prop :=
  Grounds (storyOf before n.device n.epoch) n.moment n.kind ∧
    ∀ reason cause, n.kind = .dropped reason (some cause) →
      reason = cause.reason ∧ Accused before n.device n.epoch cause

/-! ### What an entry keeps of its story -/

structure Link.Kept (link : Link) (story : List (Instant × Kind)) : Prop where
  alive : Alive story
  heard : Latest Prod.fst IsHeard story link.lastRecvAt
  opened : ∀ t, link.sessionStartedAt = some t → (t, .opened) ∈ story
  closed : link.dataChannelOpen = false → ∀ x ∈ story, x.2 ≠ .channel
  initiated : Latest Prod.fst IsInitiated story link.handshakeStartedAt
  restarted : ∀ t, link.tier = .iceRestart t → Since story (t, .restarted) IsFrame
  spoke : link.authenticated = true → ∃ x ∈ story, IsFrame x
  unproven : link.authenticated = false → ∀ x ∈ story, x.2 ≠ .authenticated
  admitted : link.established = true → link.authenticated = true
  placeholder : link.session = false →
    link.status = .sighted ∧ link.tier = .steady ∧ link.sessionStartedAt = none ∧
      link.authenticated = false

/-- What a touch takes for granted. -/
def Touch.Fits (story : List (Instant × Kind)) (now : Instant) (link : Link) : Touch → Prop
  | .authenticate => link.session = true ∧ ∃ x ∈ story, IsFrame x
  | .initiate | .iceDown | .restart => link.session = true
  | .suspect cause => Suspicious story now cause
  | _ => True

variable {link : Link} {story : List (Instant × Kind)} {now : Instant}

@[simp] theorem isFrame_iff {t : Instant} {k : Kind} : IsFrame (t, k) ↔ k = .frame := Iff.rfl

@[simp] theorem isHeard_iff {t : Instant} {k : Kind} :
    IsHeard (t, k) ↔ k = .frame ∨ k = .media := Iff.rfl

@[simp] theorem isInitiated_iff {t : Instant} {k : Kind} :
    IsInitiated (t, k) ↔ k = .initiated := Iff.rfl

theorem millisSince_mono {a b : Instant} (h : a ≤ b) (t : Instant) :
    millisSince a t ≤ millisSince b t :=
  Nat.div_le_div_right (Nat.sub_le_sub_right h t)

namespace Link

@[simp] theorem recover_epoch (link : Link) : link.recover.epoch = link.epoch := by
  unfold recover; split <;> rfl

@[simp] theorem recover_session (link : Link) : link.recover.session = link.session := by
  unfold recover; split <;> rfl

@[simp] theorem settle_epoch (link : Link) : link.settle.epoch = link.epoch := by
  unfold settle; split <;> rfl

@[simp] theorem settle_session (link : Link) : link.settle.session = link.session := by
  unfold settle; split <;> rfl

end Link

/-! ### One touch -/

/-- The end of a session is no touch. -/
theorem Alive.snoc (h : Alive story) {k : Kind} {t : Instant} (hreplaced : k ≠ .replaced)
    (hdropped : ∀ reason cause, k ≠ .dropped reason cause) : Alive (story ++ [(t, k)]) := by
  refine ⟨by simp, ?_⟩
  intro x hx
  rcases List.mem_append.mp hx with hx | hx
  · exact h.2 x hx
  · obtain rfl := List.mem_singleton.mp hx
    exact ⟨hreplaced, hdropped⟩

theorem exists_mem_append {P : Instant × Kind → Prop} {more : List (Instant × Kind)}
    (h : ∃ x ∈ story, P x) : ∃ x ∈ story ++ more, P x := by
  obtain ⟨x, hx, hPx⟩ := h
  exact ⟨x, List.mem_append_left _ hx, hPx⟩

namespace Link.Kept

/-- A note that no register is about. -/
theorem snoc (h : link.Kept story) {k : Kind} {t : Instant}
    (hk : k = .asked ∨ k = .restarted ∨ ∃ cause, k = .suspected cause) :
    link.Kept (story ++ [(t, k)]) where
  alive := by
    apply h.alive.snoc
    · obtain rfl | rfl | ⟨cause, rfl⟩ := hk <;> simp
    · obtain rfl | rfl | ⟨cause, rfl⟩ := hk <;> simp
  heard := by
    apply h.heard.append
    obtain rfl | rfl | ⟨cause, rfl⟩ := hk <;> simp
  opened t ht := List.mem_append_left _ (h.opened t ht)
  closed hopen := by
    refine List.forall_mem_append.mpr ⟨h.closed hopen, ?_⟩
    obtain rfl | rfl | ⟨cause, rfl⟩ := hk <;> simp
  initiated := by
    apply h.initiated.append
    obtain rfl | rfl | ⟨cause, rfl⟩ := hk <;> simp
  restarted t ht := by
    apply (h.restarted t ht).append
    obtain rfl | rfl | ⟨cause, rfl⟩ := hk <;> simp
  spoke hauth := exists_mem_append (h.spoke hauth)
  unproven hauth := by
    refine List.forall_mem_append.mpr ⟨h.unproven hauth, ?_⟩
    obtain rfl | rfl | ⟨cause, rfl⟩ := hk <;> simp
  admitted := h.admitted
  placeholder := h.placeholder

/-- Traffic is heard, by a frame that may end a recovery or by media. -/
theorem hear (h : link.Kept story) {k : Kind} (hk : k = .frame ∨ k = .media)
    (htier : ∀ t, link.tier = .iceRestart t → k = .media) :
    ({ link with lastRecvAt := some now } : Link).Kept (story ++ [(now, k)]) where
  alive := by
    apply h.alive.snoc
    · obtain rfl | rfl := hk <;> simp
    · obtain rfl | rfl := hk <;> simp
  heard := Latest.snoc (p := IsHeard) hk
  opened t ht := List.mem_append_left _ (h.opened t ht)
  closed hopen := by
    refine List.forall_mem_append.mpr ⟨h.closed hopen, ?_⟩
    obtain rfl | rfl := hk <;> simp
  initiated := by
    apply h.initiated.append
    obtain rfl | rfl := hk <;> simp
  restarted t ht := by
    obtain rfl := htier t ht
    exact (h.restarted t ht).append (by simp)
  spoke hauth := exists_mem_append (h.spoke hauth)
  unproven hauth := by
    refine List.forall_mem_append.mpr ⟨h.unproven hauth, ?_⟩
    obtain rfl | rfl := hk <;> simp
  admitted := h.admitted
  placeholder := h.placeholder

/-- A recovery that is over. -/
theorem steady (h : link.Kept story) (since : Option Instant) :
    ({ link with tier := .steady, iceDisconnectedSince := since } : Link).Kept story :=
  { h with
    restarted := fun t ht ↦ by simp at ht
    placeholder := fun hs ↦ ⟨(h.placeholder hs).1, rfl, (h.placeholder hs).2.2⟩ }

theorem recover (h : link.Kept story) : link.recover.Kept story := by
  unfold Link.recover
  split
  · exact h.steady none
  · exact h.steady none
  · exact h.steady none
  · exact h

theorem settle (h : link.Kept story) : link.settle.Kept story := by
  unfold Link.settle
  split
  · next hready =>
    simp only [Bool.and_eq_true] at hready
    have hauth : link.authenticated = true := hready.1.1.1
    exact
      { h with
        restarted := fun t ht ↦ by simp at ht
        admitted := fun _ ↦ hauth
        placeholder := fun hs ↦ by simp [(h.placeholder hs).2.2.2] at hauth }
  · exact h

/-- A restart is begun, or ICE comes up after one. -/
theorem restart (h : link.Kept story) (hsession : link.session = true) (since : Option Instant)
    (offered : Option Instant) :
    ({ link with lastOfferSentAt := offered, iceDisconnectedSince := since,
                 tier := .iceRestart now } : Link).Kept (story ++ [(now, .restarted)]) := by
  have hnoted : link.Kept (story ++ [(now, .restarted)]) := h.snoc (by simp)
  refine { hnoted with restarted := ?_, placeholder := ?_ }
  · intro t ht
    obtain rfl : now = t := by simpa using ht
    exact Since.last
  · intro hs
    simp [hsession] at hs

end Link.Kept

theorem Link.recover_tier {t : Instant} : link.recover.tier ≠ .iceRestart t := by
  unfold Link.recover
  split
  · simp
  · simp
  · simp
  · next hother _ =>
    intro ht
    exact hother t ht

/-- A touched entry keeps what its story tells, and the touch was no end of it. -/
theorem Link.Kept.touch (h : link.Kept story) {a : Touch} (ha : a.Fits story now link) :
    (link.touch now a).1.Kept
      (story ++ ((link.touch now a).2.map fun kind ↦ (now, kind)).toList) := by
  cases a with
  | frame application =>
    simp only [Link.touch]
    split
    · simpa using h
    · exact h.recover.hear (.inl rfl) fun t ht ↦ absurd ht Link.recover_tier
  | media =>
    simp only [Link.touch]
    split
    · exact h.hear (.inr rfl) fun _ _ ↦ rfl
    · simpa using h
  | channelOpen =>
    change ({ link with dataChannelOpen := true } : Link).Kept (story ++ [(now, .channel)])
    exact
      { alive := h.alive.snoc (by simp) (by simp)
        heard := h.heard.append (by simp)
        opened := fun t ht ↦ List.mem_append_left _ (h.opened t ht)
        closed := by simp
        initiated := h.initiated.append (by simp)
        restarted := fun t ht ↦ (h.restarted t ht).append (by simp)
        spoke := fun hauth ↦ exists_mem_append (h.spoke hauth)
        unproven := fun hauth ↦ List.forall_mem_append.mpr ⟨h.unproven hauth, by simp⟩
        admitted := h.admitted
        placeholder := h.placeholder }
  | initiate =>
    have hsession : link.session = true := ha
    change ({ link with status := .handshaking, handshakeStartedAt := some now } : Link).Kept
      (story ++ [(now, .initiated)])
    exact
      { alive := h.alive.snoc (by simp) (by simp)
        heard := h.heard.append (by simp)
        opened := fun t ht ↦ List.mem_append_left _ (h.opened t ht)
        closed := fun hopen ↦ List.forall_mem_append.mpr ⟨h.closed hopen, by simp⟩
        initiated := Latest.snoc (by simp)
        restarted := fun t ht ↦ (h.restarted t ht).append (by simp)
        spoke := fun hauth ↦ exists_mem_append (h.spoke hauth)
        unproven := fun hauth ↦ List.forall_mem_append.mpr ⟨h.unproven hauth, by simp⟩
        admitted := by simp [Link.established]
        placeholder := by simp [hsession] }
  | authenticate =>
    obtain ⟨hsession, hspoke⟩ := ha
    change ({ link with authenticated := true, status := .pendingApproval } : Link).Kept
      (story ++ [(now, .authenticated)])
    exact
      { alive := h.alive.snoc (by simp) (by simp)
        heard := h.heard.append (by simp)
        opened := fun t ht ↦ List.mem_append_left _ (h.opened t ht)
        closed := fun hopen ↦ List.forall_mem_append.mpr ⟨h.closed hopen, by simp⟩
        initiated := h.initiated.append (by simp)
        restarted := fun t ht ↦ (h.restarted t ht).append (by simp)
        spoke := fun _ ↦ exists_mem_append hspoke
        unproven := by simp
        admitted := by simp
        placeholder := by simp [hsession] }
  | approve locally =>
    simp only [Link.touch, Option.map_none, Option.toList_none, List.append_nil]
    apply Link.Kept.settle
    split
    · exact { h with }
    · exact { h with }
  | shelve shouldBeShelved =>
    simp only [Link.touch, Option.map_none, Option.toList_none, List.append_nil]
    split
    · next hactive =>
      have hstatus : link.status = .active := by simp_all
      exact
        { h with
          admitted := fun _ ↦ h.admitted (by simp [Link.established, hstatus])
          placeholder := fun hs ↦ by simp [(h.placeholder hs).1] at hstatus }
    · split
      · next hshelved =>
        have hstatus : link.status = .shelved := by simp_all
        exact
          { h with
            admitted := fun _ ↦ h.admitted (by simp [Link.established, hstatus])
            placeholder := fun hs ↦ by simp [(h.placeholder hs).1] at hstatus }
      · exact h
  | iceUp =>
    have hsession : link.tier ≠ .steady → link.session = true := by
      intro htier
      by_contra hs
      exact htier (h.placeholder (by simpa using hs)).2.1
    simp only [Link.touch]
    split
    · next ht => exact h.restart (hsession (by simp [ht])) none link.lastOfferSentAt
    · next ht => exact h.restart (hsession (by simp [ht])) none link.lastOfferSentAt
    · next ht => exact h.restart (hsession (by simp [ht])) none link.lastOfferSentAt
    · simpa using ({ h with } : ({ link with iceDisconnectedSince := none } : Link).Kept story)
  | iceDown =>
    have hsession : link.session = true := ha
    simp only [Link.touch, Option.map_none, Option.toList_none, List.append_nil]
    split
    · exact
        { h with
          restarted := fun t ht ↦ by simp at ht
          placeholder := fun hs ↦ by simp [hsession] at hs }
    · exact h
  | recovered =>
    simp only [Link.touch, Option.map_none, Option.toList_none, List.append_nil]
    split
    · exact h.steady none
    · exact h.steady none
    · exact { h with }
  | restart => exact h.restart ha link.iceDisconnectedSince (some now)
  | offer sent =>
    simp only [Link.touch, Option.map_none, Option.toList_none, List.append_nil]
    exact { h with }
  | ask stamped =>
    have hnoted : link.Kept (story ++ [(now, .asked)]) := h.snoc (by simp)
    simp only [Link.touch]
    split
    · exact { hnoted with }
    · exact hnoted
  | suspect cause => exact h.snoc (by simp)

@[simp] theorem Link.touch_epoch (a : Touch) : (link.touch now a).1.epoch = link.epoch := by
  cases a <;> simp only [Link.touch] <;> (repeat' split) <;> simp

@[simp] theorem Link.touch_session (a : Touch) : (link.touch now a).1.session = link.session := by
  cases a <;> simp only [Link.touch] <;> (repeat' split) <;> simp

/-- A touch is no drop. -/
theorem Link.touch_ne_dropped (a : Touch) {reason : DropReason} {cause : Option Cause} :
    (link.touch now a).2 ≠ some (.dropped reason cause) := by
  cases a <;> simp only [Link.touch] <;> (repeat' split) <;> simp

/-- What is noted at a touch has grounds. -/
theorem Link.Kept.grounds (h : link.Kept story) {a : Touch} (ha : a.Fits story now link)
    {k : Kind} (hk : k ∈ (link.touch now a).2) : Grounds story now k := by
  cases a with
  | suspect cause =>
    obtain rfl : Kind.suspected cause = k := by simpa [Link.touch] using hk
    exact ⟨h.alive, ha⟩
  | frame application =>
    simp only [Link.touch] at hk
    split at hk
    · simp at hk
    · obtain rfl : Kind.frame = k := by simpa using hk
      exact h.alive
  | media =>
    simp only [Link.touch] at hk
    split at hk
    · obtain rfl : Kind.media = k := by simpa using hk
      exact h.alive
    · simp at hk
  | iceUp =>
    simp only [Link.touch] at hk
    split at hk
    · obtain rfl : Kind.restarted = k := by simpa using hk
      exact h.alive
    · obtain rfl : Kind.restarted = k := by simpa using hk
      exact h.alive
    · obtain rfl : Kind.restarted = k := by simpa using hk
      exact h.alive
    · simp at hk
  | channelOpen | initiate | authenticate | restart | ask =>
    obtain rfl := Option.mem_some_iff.mp hk
    exact h.alive
  | approve | shelve | iceDown | recovered | offer => simp [Link.touch] at hk

/-! ### Stories in a growing trace -/

section Stories

variable {trace more : List Note} {d d' : String} {e e' : Nat} {n : Note}

theorem storyOf_append : storyOf (trace ++ more) d e = storyOf trace d e ++ storyOf more d e := by
  simp [storyOf]

theorem storyOf_cons_self {k : Kind} :
    storyOf (⟨now, d, e, k⟩ :: more) d e = (now, k) :: storyOf more d e := by
  simp [storyOf]

@[simp] theorem storyOf_nil : storyOf [] d e = [] := rfl

/-- Notes about other sessions. -/
theorem storyOf_of_ne (h : ∀ n ∈ more, n.device = d → n.epoch ≠ e) : storyOf more d e = [] := by
  rw [storyOf, List.map_eq_nil_iff, List.filter_eq_nil_iff]
  intro n hn
  simpa using h n hn

theorem mem_storyOf {x : Instant × Kind} :
    x ∈ storyOf trace d e ↔ (⟨x.1, d, e, x.2⟩ : Note) ∈ trace := by
  simp only [storyOf, List.mem_map, List.mem_filter, Bool.and_eq_true, beq_iff_eq]
  constructor
  · rintro ⟨n, ⟨hn, rfl, rfl⟩, rfl⟩
    exact hn
  · intro hn
    exact ⟨_, ⟨hn, rfl, rfl⟩, rfl⟩

end Stories

/-! ### What a touch changes of a node -/

namespace Net

variable {s : Net} {d : String}

theorem lookup_touch {a : Touch} (d' : String) :
    (s.touch d a).peers.lookup d' =
      if d' = d then (s.peers.lookup d).map fun link ↦ (link.touch s.clock a).1
      else s.peers.lookup d' := by
  unfold Net.touch
  split
  · next hnone =>
    split
    · next heq => rw [heq, hnone, Option.map_none]
    · rfl
  · next link hlink =>
    split
    · next heq => rw [heq, AList.lookup_insert, hlink, Option.map_some]
    · next hne => rw [AList.lookup_insert_ne hne]

theorem story_touch {a : Touch} (hlink : s.peers.lookup d = some link) :
    (s.touch d a).story d link.epoch =
      s.story d link.epoch ++ ((link.touch s.clock a).2.map fun kind ↦ (s.clock, kind)).toList := by
  unfold Net.touch
  rw [hlink]
  show storyOf (s.trace ++ _) d link.epoch = _
  rw [storyOf_append]
  cases (link.touch s.clock a).2 <;> simp [storyOf]

@[simp] theorem touch_suspects (a : Touch) : (s.touch d a).suspects = s.suspects := by
  unfold Net.touch
  split <;> rfl

@[simp] theorem touch_verdicts (a : Touch) : (s.touch d a).verdicts = s.verdicts := by
  unfold Net.touch
  split <;> rfl

@[simp] theorem touch_probes (a : Touch) : (s.touch d a).probes = s.probes := by
  unfold Net.touch
  split <;> rfl

@[simp] theorem touch_clock (a : Touch) : (s.touch d a).clock = s.clock := by
  unfold Net.touch
  split <;> rfl

@[simp] theorem scanPeer_clock {scan : Scan} {iceUp : String → Bool} :
    (s.scanPeer scan now iceUp d).clock = s.clock := by
  unfold Net.scanPeer
  split
  · rfl
  · split
    · rfl
    · exact touch_clock _

theorem ask_peers {stamped : Bool} :
    (s.ask d stamped).peers = (s.touch d (.ask stamped)).peers := by
  unfold Net.ask Net.touch
  cases s.peers.lookup d <;> rfl

theorem lookup_scanPeer_ne {scan : Scan} {iceUp : String → Bool} {d' : String}
    (hne : d' ≠ d) : (s.scanPeer scan now iceUp d).peers.lookup d' = s.peers.lookup d' := by
  unfold Net.scanPeer
  split
  · rfl
  · split
    · rfl
    · show (s.touch d _).peers.lookup d' = _
      rw [lookup_touch, if_neg hne]

end Net

end MyOwnMesh.Liveness
