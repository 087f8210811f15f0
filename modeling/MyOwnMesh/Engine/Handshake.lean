import MyOwnMesh.Engine.Evictions

/-!
# The bilateral handshake settles

`crates/myownmesh-core/src/engine/handshake.rs`. A link is live, active or shelved, exactly
while the peer is authenticated and both approvals are on record. Every step of a network
keeps this for every peer, except two that write a lower status over a peer whose latches are
all set: a data channel that opens again, and an auth response that verifies after both
approvals.
-/

namespace MyOwnMesh

open Lib Lib.Replay

variable {P : Primitives}

/-! ### The property -/

/-- The status is `Active | Shelved` exactly when all three latches are set. -/
def PeerState.Settled (p : PeerState) : Prop :=
  (p.status = .active ∨ p.status = .shelved) ↔
    p.authenticated = true ∧ p.localApproveSent = true ∧ p.remoteApproveSeen = true

/-- Every peer of the network is settled. -/
def HandshakesSettled (s : SessionState P) : Prop :=
  ∀ (k : String) (p : PeerState), s.peers[k]? = some p → p.Settled

/-- Every peer but one is settled. -/
def SettledBut (s : SessionState P) (k : String) : Prop :=
  ∀ (d : String) (p : PeerState), d ≠ k → s.peers[d]? = some p → p.Settled

/-- A fresh peer has no latch set and is not live. -/
theorem settled_fresh (session : Option TransportSession) : (PeerState.fresh session).Settled := by
  simp [PeerState.Settled, PeerState.fresh]

/-- The topology selector moves a live link between active and shelved only. -/
theorem settled_shelve_iff (b : Bool) (p : PeerState) : (shelve b p).Settled ↔ p.Settled := by
  unfold PeerState.Settled shelve
  cases b <;> cases hs : p.status <;> simp

/-- The property reads the peers alone. -/
theorem HandshakesSettled.of_peers {s s' : SessionState P} (h : HandshakesSettled s)
    (hp : s'.peers = s.peers) : HandshakesSettled s' := by
  intro k p hk
  rw [hp] at hk
  exact h k p hk

/-- A settled network is settled but for any one peer. -/
theorem HandshakesSettled.but {s : SessionState P} (h : HandshakesSettled s) (k : String) :
    SettledBut s k := fun d p _ hp ↦ h d p hp

/-- After an edit of the one peer that may be unsettled, that peer decides. -/
theorem SettledBut.modifyPeer_iff {s : SessionState P} {k : String} (h : SettledBut s k)
    (f : PeerState → PeerState) :
    HandshakesSettled (s.modifyPeer k f) ↔
      ∀ p, s.peers[k]? = some p → (f p).Settled := by
  constructor
  · intro hall p hp
    apply hall k
    rw [SessionState.modifyPeer, getElem?_modify_peer, if_pos rfl, hp]
    rfl
  · intro hk d q hq
    rw [SessionState.modifyPeer, getElem?_modify_peer] at hq
    split at hq
    · next hd =>
      subst hd
      obtain ⟨p, hp, rfl⟩ := Option.map_eq_some_iff.mp hq
      exact hk p hp
    · next hd => exact h d q (Ne.symm hd) hq

/-- An edit of a peer leaves the others settled. -/
theorem SettledBut.modifyPeer {s : SessionState P} {k : String} (h : SettledBut s k)
    (f : PeerState → PeerState) : SettledBut (s.modifyPeer k f) k := by
  intro d q hd hq
  rw [SessionState.modifyPeer, getElem?_modify_peer, if_neg (Ne.symm hd)] at hq
  exact h d q hd hq

/-! ### Topology, drops and approvals -/

/-- Re-running the selector neither settles nor unsettles anybody. -/
theorem settled_reevaluateTopology_iff (env : SessionEnv) (s : SessionState P) :
    HandshakesSettled (reevaluateTopology env s) ↔ HandshakesSettled s := by
  have hmap : ∀ (b : Bool) (p : PeerState),
      (if p.established then shelve b p else p).Settled ↔ p.Settled := by
    intro b p
    split
    · exact settled_shelve_iff b p
    · exact Iff.rfl
  unfold reevaluateTopology
  split
  · exact Iff.rfl
  · constructor
    · intro h k p hp
      rw [← hmap]
      apply h k
      rw [Std.ExtTreeMap.getElem?_map, hp]
      rfl
    · intro h k q hq
      simp only [Std.ExtTreeMap.getElem?_map, Option.map_eq_some_iff] at hq
      obtain ⟨p, hp, rfl⟩ := hq
      exact (hmap _ p).mpr (h k p hp)

/-- A drop removes at most its own peer. -/
theorem HandshakesSettled.dropPeer {s : SessionState P} (h : HandshakesSettled s)
    (env : SessionEnv) (k : String) : HandshakesSettled (MyOwnMesh.dropPeer env s k) := by
  unfold MyOwnMesh.dropPeer
  split
  · exact h
  · split
    · exact h
    · rw [settled_reevaluateTopology_iff]
      intro d p hp
      simp only [getElem?_erase_peer] at hp
      split at hp
      · cases hp
      · exact h d p hp

/-- An approval into the roster touches no peer. -/
theorem peers_approveRoster (env : SessionEnv) (s : SessionState P) (k label : String) :
    (approveRoster env s k label).1.peers = s.peers := by
  unfold approveRoster
  split <;> rfl

/-- Settling promotes a peer whose latches are all set: whatever else the peer is, it comes out
settled as long as it is not live without them. -/
theorem SettledBut.settleActivation {s : SessionState P} {k : String} (h : SettledBut s k)
    (env : SessionEnv)
    (hk : ∀ p, s.peers[k]? = some p → p.status = .active ∨ p.status = .shelved →
      p.authenticated = true ∧ p.localApproveSent = true ∧ p.remoteApproveSeen = true) :
    HandshakesSettled (MyOwnMesh.settleActivation env s k) := by
  unfold MyOwnMesh.settleActivation
  cases hp : s.peers[k]? with
  | none =>
    intro d p hd
    by_cases hdk : d = k
    · rw [hdk, hp] at hd
      cases hd
    · exact h d p hdk hd
  | some p =>
    simp only
    split
    · next hready =>
      simp only [Bool.and_eq_true, bne_iff_ne, ne_eq] at hready
      rw [settled_reevaluateTopology_iff]
      refine HandshakesSettled.of_peers (s := s.modifyPeer k fun q ↦ { q with status := .active })
        ?_ (peers_approveRoster env _ k p.label)
      rw [h.modifyPeer_iff]
      intro q hq
      rw [hp, Option.some.injEq] at hq
      subst hq
      simp [PeerState.Settled, hready]
    · next hready =>
      intro d q hd
      by_cases hdk : d = k
      · rw [hdk, hp, Option.some.injEq] at hd
        subst hd
        refine ⟨hk p hp, fun ⟨ha, hl, hr⟩ ↦ ?_⟩
        simp [ha, hl, hr] at hready
        exact .inl hready
      · exact h d q hdk hd

/-- Our approve, sent or not, leaves a settled network settled. -/
theorem HandshakesSettled.sendLocalApprove {s : SessionState P} (h : HandshakesSettled s)
    (env : SessionEnv) (k : String) : HandshakesSettled (MyOwnMesh.sendLocalApprove env s k) := by
  unfold MyOwnMesh.sendLocalApprove
  cases hp : s.peers[k]? with
  | none => exact h
  | some p =>
    simp only
    split
    · exact h
    · next hsent =>
      -- Our latch was open, so the link is not live yet.
      have hdown : ¬ (p.status = .active ∨ p.status = .shelved) := fun hlive ↦
        hsent ((h k p hp).mp hlive).2.1
      have hlatched := (h.but k).modifyPeer fun q ↦ { q with localApproveSent := true }
      have hpeer : ∀ q, (s.modifyPeer k fun q ↦ { q with localApproveSent := true }).peers[k]? =
          some q → q = { p with localApproveSent := true } := by
        intro q hq
        rw [SessionState.modifyPeer, getElem?_modify_peer, if_pos rfl, hp] at hq
        exact (Option.some.inj hq).symm
      split
      · refine hlatched.settleActivation env fun q hq hlive ↦ ?_
        rw [hpeer q hq] at hlive
        exact absurd hlive hdown
      · rw [hlatched.modifyPeer_iff]
        intro q hq
        rw [hpeer q hq]
        simpa [PeerState.Settled] using hdown

/-! ### Inbound frames -/

/-- The signature of an auth response verifies against the channel of the session, and its
device is not evicted; the checks of `handshake.rs:281–357`. -/
def authenticates (s : SessionState P) (k signature : String) (p : PeerState) : Bool :=
  match p.nonceSent, p.session.bind TransportSession.remoteFingerprint with
  | some nonce, some channelBinding =>
    match verify P k (handshakePayload nonce (pubkeyPart k) s.engine.selfId channelBinding)
      signature with
    | .ok true => !logEvicted s.engine k
    | _ => false
  | _, _ => false

/-- A hello changes neither the status nor a latch. -/
theorem HandshakesSettled.onHello {s : SessionState P} (h : HandshakesSettled s)
    (env : SessionEnv) (k : String) (msg : HelloMessage) :
    HandshakesSettled (MyOwnMesh.onHello env s k msg) := by
  have hnoted : HandshakesSettled (s.modifyPeer k fun p ↦
      { p with nonceReceived := some msg.nonce, label := msg.label }) := by
    rw [(h.but k).modifyPeer_iff]
    exact fun p hp ↦ h k p hp
  unfold MyOwnMesh.onHello
  split
  · exact h.dropPeer env k
  · simp only
    split
    · exact hnoted.dropPeer env k
    · split
      · exact hnoted.dropPeer env k
      · exact hnoted

/-- An approve is settled at once. -/
theorem HandshakesSettled.onApprove {s : SessionState P} (h : HandshakesSettled s)
    (env : SessionEnv) (k : String) : HandshakesSettled (MyOwnMesh.onApprove env s k) := by
  refine ((h.but k).modifyPeer _).settleActivation env fun q hq hlive ↦ ?_
  rw [SessionState.modifyPeer, getElem?_modify_peer, if_pos rfl] at hq
  obtain ⟨p, hp, rfl⟩ := Option.map_eq_some_iff.mp hq
  obtain ⟨ha, hl, -⟩ := (h k p hp).mp hlive
  exact ⟨ha, hl, rfl⟩

/-- A governance call or frame re-runs the selector at most. -/
theorem HandshakesSettled.govern {s : SessionState P} (h : HandshakesSettled s)
    (env : SessionEnv) (o : GovOp) : HandshakesSettled (MyOwnMesh.govern env s o) := by
  unfold MyOwnMesh.govern
  simp only
  split
  · exact h.of_peers rfl
  · split
    · split <;> exact h.of_peers rfl
    · refine HandshakesSettled.of_peers (s := reevaluateTopology env { s with engine :=
        { step s.engine (env.toEnv, o) with selfEvicted := s.engine.selfEvicted } }) ?_ rfl
      rw [settled_reevaluateTopology_iff]
      exact h.of_peers rfl
    · exact h.of_peers rfl

private theorem HandshakesSettled.foldl_sendLocalApprove (env : SessionEnv) (keys : List String)
    {s : SessionState P} (h : HandshakesSettled s) :
    HandshakesSettled (keys.foldl (MyOwnMesh.sendLocalApprove env) s) := by
  induction keys generalizing s with
  | nil => exact h
  | cons k rest ih => exact ih (h.sendLocalApprove env k)

private theorem HandshakesSettled.foldl_denyIfEvicted (keys : List String) {s : SessionState P}
    (h : HandshakesSettled s) : HandshakesSettled (keys.foldl denyIfEvicted s) := by
  induction keys generalizing s with
  | nil => exact h
  | cons k rest ih =>
    apply ih
    unfold denyIfEvicted
    split
    · exact h.of_peers rfl
    · exact h

private theorem HandshakesSettled.denied {s : SessionState P} (h : HandshakesSettled s)
    (learned : Bool) (keys : List String) :
    HandshakesSettled (if learned then keys.foldl denyIfEvicted s else s) := by
  cases learned with
  | true => exact h.foldl_denyIfEvicted keys
  | false => exact h

/-- An adoption re-runs the selector and sends the approvals it owes. -/
theorem HandshakesSettled.adoptLogs {s : SessionState P} (h : HandshakesSettled s)
    (env : SessionEnv) (incomingGov incomingMembers : List Transition) :
    HandshakesSettled (MyOwnMesh.adoptLogs env s incomingGov incomingMembers) := by
  unfold MyOwnMesh.adoptLogs
  simp only
  split
  · exact h.of_peers rfl
  · next projected removed hproj =>
    refine HandshakesSettled.of_peers ?_ rfl
    apply HandshakesSettled.denied
    apply HandshakesSettled.foldl_sendLocalApprove
    split
    · rw [settled_reevaluateTopology_iff]
      exact h.of_peers rfl
    · exact h.of_peers rfl

/-! ### Runs -/

private theorem HandshakesSettled.insert_fresh {s : SessionState P} (h : HandshakesSettled s)
    (k : String) (session : Option TransportSession) :
    HandshakesSettled { s with peers := s.peers.insert k (.fresh session) } := by
  intro d p hp
  simp only [getElem?_insert_peer] at hp
  split at hp
  · cases hp
    exact settled_fresh session
  · exact h d p hp

/-- Device 4 at its first start, which knows nobody. -/
def freshNode : EngineState seeded :=
  .start "fleet" (4 : UInt8) "" (.emptyFor "fleet") .fullMesh

private theorem OnePeer.settled {s : SessionState P} {e : EngineState P} {k : String}
    {p : PeerState} (h : OnePeer s e k p) (hp : p.Settled) : HandshakesSettled s := by
  intro d q hq
  rw [h.peers] at hq
  split at hq
  · cases hq
    exact hp
  · cases hq

end MyOwnMesh
