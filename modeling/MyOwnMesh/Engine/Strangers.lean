import MyOwnMesh.Engine.Panics
import MyOwnMesh.Engine.Quiet
import MyOwnMesh.Engine.Retention

/-!
# Devices that never authenticate

What a connected device can do without passing the signature check of its auth response. Four
kinds of frames are handled before a peer is admitted. A hello, an auth response that fails and
an approve touch neither the governance state nor the roster; a deny may carry signed logs,
which go through the adoption that every gossiped log takes. Nothing such a device sends is
handed to the embedding program.
-/

namespace MyOwnMesh

open Lib Lib.Replay Reliable

variable {P : Primitives}

/-! ### The property -/

/-- The device has not authenticated. -/
def Stranger (s : SessionState P) (k : String) : Prop :=
  ∀ p, s.peers[k]? = some p → p.authenticated = false

/-- The frame is an auth response that passes. -/
def Authenticates (s : FrameState P) (k : String) (msg : MeshMessage) : Prop :=
  ∃ signature p, msg = .authResponse signature ∧ s.session.peers[k]? = some p ∧
    authenticates s.session k signature p = true

/-- A delivery that is not on behalf of the device: the outcome of a reliable send, which for a
send to the device itself is a failure. -/
def Delivery.Unrelated (k : String) : Delivery → Prop
  | .reply peer _ result => peer = k → ∃ e, result = .error e
  | _ => False

/-- No channel frame, no call, no answer to a call and no acknowledgement of the device was
handed out between two states. -/
def NothingDelivered (k : String) (s t : FrameState P) : Prop :=
  ∃ ds, t.deliveries = s.deliveries ++ ds ∧ ∀ d ∈ ds, d.Unrelated k

/-- The governance state and the roster are what they were, or what adopting the logs of a deny
makes of them. -/
def TrustKept (env : FrameEnv) (s t : FrameState P) : MeshMessage → Prop
  | .deny _ transitions memberLog =>
    if transitions = [] ∧ memberLog = [] then t.session.engine = s.session.engine
    else
      t.session.engine.governance =
          (adoptTransitionLog env.toEnv s.session.engine transitions memberLog).governance ∧
        t.session.engine.roster =
          (adoptLogs env.toSessionEnv s.session transitions memberLog).engine.roster
  | _ => t.session.engine = s.session.engine

/-! ### Sessions of a stranger -/

/-- Where nobody is authenticated anew a stranger stays one. -/
theorem Stranger.of_keepsPeers {s t : SessionState P} {k : String} (h : Stranger s k)
    (hk : KeepsPeers s t) : Stranger t k := by
  intro p hp
  obtain ⟨q, hq, ha, -⟩ := hk.peers k p hp
  rw [ha]
  exact h q hq

/-- So it does under an edit that does not authenticate. -/
theorem Stranger.modifyPeer {s : SessionState P} {k : String} (h : Stranger s k) (d : String)
    {f : PeerState → PeerState} (hf : ∀ p, (f p).authenticated = p.authenticated) :
    Stranger (s.modifyPeer d f) k := by
  intro p hp
  rw [SessionState.modifyPeer, getElem?_modify_peer] at hp
  split at hp
  · obtain ⟨q, hq, rfl⟩ := Option.map_eq_some_iff.mp hp
    rw [hf]
    exact h q hq
  · exact h p hp

/-- The selector touches no engine state. -/
theorem engine_reevaluateTopology (env : SessionEnv) (s : SessionState P) :
    (reevaluateTopology env s).engine = s.engine := by
  unfold reevaluateTopology
  split <;> rfl

/-- Nor does a drop. -/
theorem engine_dropPeer (env : SessionEnv) (s : SessionState P) (k : String) :
    (dropPeer env s k).engine = s.engine := by
  unfold dropPeer
  split
  · rfl
  · split
    · rfl
    · rw [engine_reevaluateTopology]

/-- A drop makes no stranger known. -/
theorem Stranger.dropPeer {s : SessionState P} {k : String} (h : Stranger s k)
    (env : SessionEnv) (d : String) : Stranger (MyOwnMesh.dropPeer env s d) k := by
  unfold MyOwnMesh.dropPeer
  split
  · exact h
  · split
    · exact h
    · refine Stranger.of_keepsPeers ?_ (keepsSessions_reevaluateTopology env _).toKeepsPeers
      intro p hp
      simp only [getElem?_erase_peer] at hp
      split at hp
      · cases hp
      · exact h p hp

/-- A hello touches no engine state. -/
theorem engine_onHello (env : SessionEnv) (s : SessionState P) (k : String)
    (msg : HelloMessage) : (onHello env s k msg).engine = s.engine := by
  unfold onHello
  split
  · exact engine_dropPeer env s k
  · simp only
    split
    · exact engine_dropPeer env _ k
    · split
      · exact engine_dropPeer env _ k
      · rfl

/-- An auth response that does not pass drops the device, denies it or does nothing. -/
theorem onAuthResponse_of_not (env : SessionEnv) {s : SessionState P} {k signature : String}
    (h : ∀ p, s.peers[k]? = some p → authenticates s k signature p = false) :
    onAuthResponse env s k signature = s ∨
      onAuthResponse env s k signature = dropPeer env s k ∨
      onAuthResponse env s k signature = denyIfEvicted s k := by
  unfold onAuthResponse
  split
  · exact .inl rfl
  · next p hp =>
    have hno := h p hp
    unfold authenticates at hno
    split
    · exact .inl rfl
    · next nonce hn =>
      split
      · exact .inr (.inl rfl)
      · next binding hb =>
        rw [hn, hb] at hno
        simp only at hno
        split
        · next hv =>
          rw [hv] at hno
          have hev : logEvicted s.engine k = true := by simpa using hno
          rw [if_pos hev]
          exact .inr (.inr rfl)
        · exact .inr (.inl rfl)

/-- The approve of a stranger is only noted. -/
theorem onApprove_of_stranger {s : SessionState P} {k : String} (h : Stranger s k)
    (env : SessionEnv) :
    onApprove env s k = s.modifyPeer k fun p ↦ { p with remoteApproveSeen := true } := by
  have hnoted := h.modifyPeer k (f := fun p ↦ { p with remoteApproveSeen := true }) fun _ ↦ rfl
  unfold onApprove settleActivation
  split
  · rfl
  · next p hp => simp [hnoted p hp]

/-! ### What a stranger's frames hand out -/

/-- The device is still a stranger, and nothing was handed out on its behalf. -/
structure StaysStranger (k : String) (s t : FrameState P) : Prop where
  nothing : NothingDelivered k s t
  stranger : Stranger t.session k

/-- Handing out nothing at all. -/
theorem NothingDelivered.of_eq {k : String} {s t : FrameState P}
    (h : t.deliveries = s.deliveries) : NothingDelivered k s t :=
  ⟨[], by rw [h, List.append_nil], fun _ hd ↦ absurd hd List.not_mem_nil⟩

/-- Handing out nothing twice. -/
theorem NothingDelivered.trans {k : String} {s t u : FrameState P} (h : NothingDelivered k s t)
    (h' : NothingDelivered k t u) : NothingDelivered k s u := by
  obtain ⟨ds, hds, hall⟩ := h
  obtain ⟨es, hes, hall'⟩ := h'
  refine ⟨ds ++ es, by rw [hes, hds, List.append_assoc], fun d hd ↦ ?_⟩
  rcases List.mem_append.mp hd with hd | hd
  · exact hall d hd
  · exact hall' d hd

/-- The two compose. -/
theorem StaysStranger.trans {k : String} {s t u : FrameState P} (h : StaysStranger k s t)
    (h' : StaysStranger k t u) : StaysStranger k s u :=
  ⟨h.nothing.trans h'.nothing, h'.stranger⟩

/-- The selector hands out nothing. -/
theorem deliveries_reevaluateTopology {env : FrameEnv} {s t : FrameState P}
    (h : s.reevaluateTopology env = some t) : t.deliveries = s.deliveries := by
  unfold FrameState.reevaluateTopology at h
  split at h
  · cases h
    rfl
  · simp only [Option.bind_eq_bind, Option.bind_eq_some_iff, Option.pure_def,
      Option.some.injEq] at h
    obtain ⟨_, _, rfl⟩ := h
    rfl

/-- A torn-down queue answers its callers with errors. -/
theorem error_of_failPeer {x : PeerSlots Value} {reason : String} {e : Nat × Except Error Unit}
    (h : e ∈ (failPeer x reason).2.replies) : ∃ err, e.2 = .error err := by
  unfold failPeer at h
  split at h
  · simp [Effects.none] at h
  · obtain ⟨entry, -, rfl⟩ := List.mem_map.mp h
    exact ⟨_, rfl⟩

/-- A drop fails the sends that wait. -/
theorem StaysStranger.dropPeer {env : FrameEnv} {s t : FrameState P} {k d reason : String}
    (hk : Stranger s.session k) (h : s.dropPeer env d reason = some t) : StaysStranger k s t := by
  have hstranger : Stranger t.session k := by
    rw [FrameState.session_dropPeer h]
    exact hk.dropPeer env.toSessionEnv d
  refine ⟨?_, hstranger⟩
  unfold FrameState.dropPeer at h
  split at h
  · cases h
    exact .of_eq rfl
  · split at h
    · cases h
      exact .of_eq rfl
    · refine ⟨_, deliveries_reevaluateTopology (of_note h), fun x hx ↦ ?_⟩
      obtain ⟨e, he, rfl⟩ := List.mem_map.mp hx
      exact fun _ ↦ error_of_failPeer he

/-- A denial hands out nothing. -/
theorem StaysStranger.denyIfEvicted {s t : FrameState P} {k d : String}
    (hk : Stranger s.session k) (h : s.denyIfEvicted d = some t) : StaysStranger k s t := by
  refine ⟨?_, ?_⟩
  · have hdone := of_note h
    cases hdone
    exact .of_eq rfl
  · rw [FrameState.session_denyIfEvicted h]
    intro p hp
    rw [(denyIfEvicted_frame s.session d).2.1] at hp
    exact hk p hp

/-- An activation flushes the queue of a device that authenticated, so of another one. -/
theorem StaysStranger.settleActivation {env : FrameEnv} {s t : FrameState P} {k d : String}
    (hk : Stranger s.session k) (h : s.settleActivation env d = some t) :
    StaysStranger k s t := by
  have hstranger : Stranger t.session k := by
    rw [FrameState.session_settleActivation h]
    exact hk.of_keepsPeers (keepsSessions_settleActivation env.toSessionEnv _ d).toKeepsPeers
  refine ⟨?_, hstranger⟩
  unfold FrameState.settleActivation at h
  split at h
  · cases h
    exact .of_eq rfl
  · next p hp =>
    split at h
    · next hready =>
      have hauth : p.authenticated = true := by
        simp only [Bool.and_eq_true] at hready
        exact hready.1.1.1
      have hother : d ≠ k := by
        rintro rfl
        rw [hk p hp] at hauth
        cases hauth
      have hshape := of_note h
      simp only [Option.bind_eq_bind, Option.bind_eq_some_iff, Option.pure_def,
        Option.some.injEq] at hshape
      obtain ⟨shaped, hshaped, rfl⟩ := hshape
      have hsame := deliveries_reevaluateTopology hshaped
      simp only [FrameState.withSession] at hsame
      refine ⟨(flushPeer (env.link shaped d) (shaped.link d).features
        (shaped.slots d)).2.replies.map fun e ↦ .reply d e.1 e.2, ?_, fun x hx ↦ ?_⟩
      · rw [← hsame]
        rfl
      · obtain ⟨e, -, rfl⟩ := List.mem_map.mp hx
        exact fun heq ↦ absurd heq hother
    · cases h
      exact .of_eq rfl

/-- So does an approval. -/
theorem StaysStranger.sendLocalApprove {env : FrameEnv} {s t : FrameState P} {k d : String}
    (hk : Stranger s.session k) (h : s.sendLocalApprove env d = some t) :
    StaysStranger k s t := by
  unfold FrameState.sendLocalApprove at h
  split at h
  · cases h
    exact ⟨.of_eq rfl, hk⟩
  · split at h
    · cases h
      exact ⟨.of_eq rfl, hk⟩
    · have hlatched := hk.modifyPeer d (f := fun q ↦ { q with localApproveSent := true })
        fun _ ↦ rfl
      simp only at h
      split at h
      · have hlater := StaysStranger.settleActivation (s := s.withSession _) hlatched h
        exact ⟨hlater.nothing, hlater.stranger⟩
      · cases h
        exact ⟨.of_eq rfl, hlatched.modifyPeer d fun _ ↦ rfl⟩

/-- A loop over peers. -/
theorem StaysStranger.foldlM {f : FrameState P → String → Option (FrameState P)} {k : String}
    (hf : ∀ s t d, Stranger s.session k → f s d = some t → StaysStranger k s t)
    (keys : List String) {s t : FrameState P} (hk : Stranger s.session k)
    (h : keys.foldlM f s = some t) : StaysStranger k s t := by
  induction keys generalizing s with
  | nil =>
    cases h
    exact ⟨.of_eq rfl, hk⟩
  | cons d rest ih =>
    simp only [List.foldlM_cons, Option.bind_eq_bind, Option.bind_eq_some_iff] at h
    obtain ⟨u, hu, hrest⟩ := h
    have hfirst := hf s u d hk hu
    exact hfirst.trans (ih hfirst.stranger hrest)

/-- An adoption completes handshakes of authenticated devices only. -/
theorem StaysStranger.adoptLogs {env : FrameEnv} {s t : FrameState P} {k peerId : String}
    {incomingGov incomingMembers : List Transition} (hk : Stranger s.session k)
    (h : s.adoptLogs env peerId incomingGov incomingMembers = some t) : StaysStranger k s t := by
  have hadopt := of_note h
  simp only at hadopt
  split at hadopt
  · cases hadopt
    exact ⟨.of_eq rfl, hk⟩
  · simp only [Option.bind_eq_bind, Option.bind_eq_some_iff] at hadopt
    obtain ⟨shaped, hshaped, approved, happroved, denied, hdenied, u, -, hlast⟩ := hadopt
    cases hlast
    have hshape : StaysStranger k s shaped := by
      unfold FrameState.reshape at hshaped
      split at hshaped
      · have hsame := deliveries_reevaluateTopology hshaped
        simp only [FrameState.withSession] at hsame
        refine ⟨.of_eq hsame, ?_⟩
        rw [FrameState.session_reevaluateTopology hshaped]
        refine Stranger.of_keepsPeers ?_
          (keepsSessions_reevaluateTopology env.toSessionEnv _).toKeepsPeers
        exact hk
      · cases hshaped
        exact ⟨.of_eq rfl, hk⟩
    have happrove := StaysStranger.foldlM (fun _ _ _ ↦ StaysStranger.sendLocalApprove) _
      hshape.stranger happroved
    have hdeny : StaysStranger k approved denied := by
      unfold FrameState.denyTombstoned at hdenied
      split at hdenied
      · exact StaysStranger.foldlM (fun _ _ _ ↦ StaysStranger.denyIfEvicted) _
          happrove.stranger hdenied
      · cases hdenied
        exact ⟨.of_eq rfl, happrove.stranger⟩
    have hall := (hshape.trans happrove).trans hdeny
    exact ⟨hall.nothing, hall.stranger⟩

/-! ### One frame -/

/-- A hello. -/
theorem StaysStranger.onHello {env : FrameEnv} {s t : FrameState P} {k : String}
    {hello : HelloFrame} (hk : Stranger s.session k) (h : s.onHello env k hello = some t) :
    StaysStranger k s t := by
  have hlink : ∀ f, (s.modifyLink k f).deliveries = s.deliveries := by
    intro f
    unfold FrameState.modifyLink
    split <;> rfl
  have hnoted := hk.modifyPeer k (f := fun p ↦
    { p with nonceReceived := some hello.nonce, label := hello.label }) fun _ ↦ rfl
  unfold FrameState.onHello at h
  split at h
  · exact StaysStranger.dropPeer hk (of_note (of_note h))
  · have hrest := of_note h
    split at hrest
    · have hdrop := StaysStranger.dropPeer (k := k) (s := FrameState.withSession _ _) hnoted hrest
      exact ⟨(NothingDelivered.of_eq (hlink _)).trans hdrop.nothing, hdrop.stranger⟩
    · split at hrest
      · have hdrop := StaysStranger.dropPeer (k := k) (s := FrameState.withSession _ _) hnoted hrest
        exact ⟨(NothingDelivered.of_eq (hlink _)).trans hdrop.nothing, hdrop.stranger⟩
      · cases hrest
        exact ⟨.of_eq (hlink _), hnoted⟩

/-- An auth response that does not pass. -/
theorem StaysStranger.onAuthResponse {env : FrameEnv} {s t : FrameState P} {k signature : String}
    (hk : Stranger s.session k)
    (hno : ∀ p, s.session.peers[k]? = some p → authenticates s.session k signature p = false)
    (h : s.onAuthResponse env k signature = some t) : StaysStranger k s t := by
  unfold FrameState.onAuthResponse at h
  split at h
  · cases h
    exact ⟨.of_eq rfl, hk⟩
  · next p hp =>
    have hfail := hno p hp
    unfold authenticates at hfail
    split at h
    · cases h
      exact ⟨.of_eq rfl, hk⟩
    · next nonce hn =>
      split at h
      · exact StaysStranger.dropPeer hk h
      · next binding hb =>
        rw [hn, hb] at hfail
        simp only at hfail
        split at h
        · next hv =>
          rw [hv] at hfail
          have hev : logEvicted s.session.engine k = true := by simpa using hfail
          rw [if_pos hev] at h
          exact StaysStranger.denyIfEvicted hk h
        · exact StaysStranger.dropPeer hk h

/-- A deny, whatever logs it carries. -/
theorem StaysStranger.onDeny {env : FrameEnv} {s t : FrameState P} {k : String}
    {transitions memberLog : List Transition} (hk : Stranger s.session k)
    (h : s.onDeny env k transitions memberLog = some t) : StaysStranger k s t := by
  unfold FrameState.onDeny at h
  split at h
  · exact StaysStranger.dropPeer hk h
  · simp only [FrameState.adoptDenyProof, Option.bind_eq_bind, Option.bind_eq_some_iff,
      Option.pure_def, Option.some.injEq] at h
    obtain ⟨adopted, ⟨merged, hmerged, rfl⟩, hdrop⟩ := h
    have hadopt := StaysStranger.adoptLogs hk hmerged
    have hproof : Stranger (merged.withSession { merged.session with
        engine := refreshSelfEvicted merged.session.engine }).session k := hadopt.stranger
    have hlast := StaysStranger.dropPeer hproof hdrop
    exact ⟨hadopt.nothing.trans hlast.nothing, hlast.stranger⟩

/-- A stranger's frame that needs admission is counted and dropped. -/
theorem handleInboundFrame_of_stranger {env : FrameEnv} {s t : FrameState P} {k : String}
    {msg : MeshMessage} (hk : Stranger s.session k) (ha : inboundAdmission msg = .application)
    (h : handleInboundFrame env s k msg = some t) :
    t.session = s.session ∧ t.deliveries = s.deliveries := by
  unfold handleInboundFrame at h
  rw [ha] at h
  cases hp : s.session.peers[k]? with
  | none =>
    simp only [hp, beq_self_eq_true, ↓reduceIte, Option.some.injEq] at h
    subst h
    exact ⟨rfl, rfl⟩
  | some p =>
    have hout : p.admitted = false := by simp [PeerState.admitted, hk p hp]
    simp only [hp, hout, beq_self_eq_true, Bool.not_false, Bool.and_true, ↓reduceIte,
      Option.some.injEq] at h
    subst h
    unfold FrameState.modifyLink
    split <;> exact ⟨rfl, rfl⟩

/-- One frame of a stranger that does not authenticate it. -/
theorem stranger_step {env : FrameEnv} {s t : FrameState P} {k : String} {msg : MeshMessage}
    (hk : Stranger s.session k) (hno : ¬ Authenticates s k msg)
    (h : handleInboundFrame env s k msg = some t) :
    StaysStranger k s t ∧ TrustKept env s t msg := by
  have happ : inboundAdmission msg = .application → t.session.engine = s.session.engine ∧
      StaysStranger k s t := by
    intro ha
    obtain ⟨hs, hd⟩ := handleInboundFrame_of_stranger hk ha h
    refine ⟨by rw [hs], .of_eq hd, ?_⟩
    rw [hs]
    exact hk
  cases msg with
  | hello hello =>
    rw [handleInboundFrame_of_protocol rfl] at h
    refine ⟨StaysStranger.onHello hk h, ?_⟩
    show t.session.engine = _
    rw [FrameState.session_onHello h, engine_onHello]
  | authResponse signature =>
    rw [handleInboundFrame_of_protocol rfl] at h
    have hfail : ∀ p, s.session.peers[k]? = some p →
        authenticates s.session k signature p = false := by
      intro p hp
      apply Bool.eq_false_iff.mpr
      exact fun hpass ↦ hno ⟨signature, p, rfl, hp, hpass⟩
    refine ⟨StaysStranger.onAuthResponse hk hfail h, ?_⟩
    show t.session.engine = _
    rw [FrameState.session_onAuthResponse h]
    rcases onAuthResponse_of_not env.toSessionEnv hfail with hsame | hdrop | hdeny
    · rw [hsame]
    · rw [hdrop, engine_dropPeer]
    · rw [hdeny, (denyIfEvicted_frame s.session k).1]
  | approve =>
    rw [handleInboundFrame_of_protocol rfl] at h
    have hnoted := hk.modifyPeer k (f := fun p ↦ { p with remoteApproveSeen := true })
      fun _ ↦ rfl
    have hsettle := StaysStranger.settleActivation (s := s.withSession _) hnoted h
    refine ⟨⟨hsettle.nothing, hsettle.stranger⟩, ?_⟩
    show t.session.engine = _
    rw [FrameState.session_onApprove h, onApprove_of_stranger hk]
    rfl
  | deny reason transitions memberLog =>
    rw [handleInboundFrame_of_protocol rfl] at h
    refine ⟨StaysStranger.onDeny hk h, ?_⟩
    have hsession := FrameState.session_onDeny h
    simp only [SessionState.onDeny] at hsession
    simp only [TrustKept]
    split
    · next hnone =>
      rw [if_pos hnone] at hsession
      rw [hsession, engine_dropPeer]
    · next hnone =>
      rw [if_neg hnone] at hsession
      rw [hsession, engine_dropPeer]
      exact ⟨(governance_adoptLogs env.toSessionEnv s.session transitions memberLog).2, rfl⟩
  | ping t' => exact (happ rfl).symm
  | pong t' => exact (happ rfl).symm
  | capabilitiesUpdate capabilities => exact (happ rfl).symm
  | shelve reason => exact (happ rfl).symm
  | unshelve => exact (happ rfl).symm
  | rpcRequest requestId method payload streaming => exact (happ rfl).symm
  | rpcResponse requestId ok error => exact (happ rfl).symm
  | rpcStreamChunk requestId seq payload => exact (happ rfl).symm
  | rpcStreamEnd requestId error => exact (happ rfl).symm
  | networkState msg => exact (happ rfl).symm
  | networkStatePropose msg => exact (happ rfl).symm
  | networkStateAck msg => exact (happ rfl).symm
  | networkStateSplit msg => exact (happ rfl).symm
  | rosterSummary root => exact (happ rfl).symm
  | rosterRequest => exact (happ rfl).symm
  | rosterEntries entries transitions memberLog => exact (happ rfl).symm
  | channel name payload => exact (happ rfl).symm
  | channelSeq stream seq name payload => exact (happ rfl).symm
  | channelAck stream upTo => exact (happ rfl).symm
  | unknown => exact (happ rfl).symm

/-! ### Every sequence of frames -/

/-- The frames of one device, handled in order. -/
def receiveAll (k : String) (s : FrameState P) (frames : List (FrameEnv × MeshMessage)) :
    Option (FrameState P) :=
  frames.foldlM (fun t f ↦ handleInboundFrame f.1 t k f.2) s

/-- No frame of the sequence is an auth response that passes when it arrives. -/
def NeverAuthenticates (k : String) (s : FrameState P)
    (frames : List (FrameEnv × MeshMessage)) : Prop :=
  ∀ pre f post t, frames = pre ++ f :: post → receiveAll k s pre = some t →
    ¬ Authenticates t k f.2

/-- No frame changes nothing. -/
theorem receiveAll_nil (k : String) (s : FrameState P) : receiveAll k s [] = some s := rfl

/-- The first frame is handled before the others. -/
theorem receiveAll_cons (k : String) (s : FrameState P) (f : FrameEnv × MeshMessage)
    (rest : List (FrameEnv × MeshMessage)) :
    receiveAll k s (f :: rest) =
      (handleInboundFrame f.1 s k f.2).bind fun t ↦ receiveAll k t rest := by
  simp only [receiveAll, List.foldlM_cons, Option.bind_eq_bind]

/-- After any number of its frames a stranger is still one. -/
theorem stranger_run {k : String} {s t : FrameState P} {frames : List (FrameEnv × MeshMessage)}
    (hk : Stranger s.session k) (hno : NeverAuthenticates k s frames)
    (h : receiveAll k s frames = some t) : StaysStranger k s t := by
  induction frames generalizing s with
  | nil =>
    cases h
    exact ⟨.of_eq rfl, hk⟩
  | cons f rest ih =>
    rw [receiveAll_cons, Option.bind_eq_some_iff] at h
    obtain ⟨u, hu, hrest⟩ := h
    have hfirst := (stranger_step hk (hno [] f rest s rfl rfl) hu).1
    refine hfirst.trans (ih hfirst.stranger ?_ hrest)
    intro pre g post v hsplit hv
    refine hno (f :: pre) g post v (by rw [hsplit]; rfl) ?_
    rw [receiveAll_cons, hu]
    exact hv

/-- For every engine state and every sequence of frames of a device that has not authenticated
and never passes the check of an auth response: at every frame that is handled, nothing has
been handed to the embedding program on the device's behalf; the frame leaves the governance
state and the roster as they were, unless it is a deny with logs, and then they are what the
adoption of these logs makes of them. -/
theorem stranger_frames_powerless (k : String) (s : FrameState P)
    (frames : List (FrameEnv × MeshMessage)) (hk : Stranger s.session k)
    (hno : NeverAuthenticates k s frames) :
    ∀ pre f post t u, frames = pre ++ f :: post → receiveAll k s pre = some t →
      handleInboundFrame f.1 t k f.2 = some u →
      NothingDelivered k s u ∧ TrustKept f.1 t u f.2 := by
  intro pre f post t u hsplit ht hu
  have hpre : NeverAuthenticates k s pre := by
    intro pre' g post' v hcut hv
    refine hno pre' g (post' ++ f :: post) v ?_ hv
    rw [hsplit, hcut, List.append_assoc, List.cons_append]
  have hrun := stranger_run hk hpre ht
  have hstep := stranger_step hrun.stranger (hno pre f post t hsplit ht) hu
  exact ⟨hrun.nothing.trans hstep.1.nothing, hstep.2⟩

/-! ### Frames of device 3 before it authenticates -/

/-- A sequence without auth responses authenticates nobody. -/
theorem neverAuthenticates_of_forall {k : String} {s : FrameState P}
    {frames : List (FrameEnv × MeshMessage)}
    (h : ∀ f ∈ frames, ∀ signature, f.2 ≠ .authResponse signature) :
    NeverAuthenticates k s frames := by
  rintro pre f post t rfl - ⟨signature, p, hmsg, -⟩
  exact h f (by simp) signature hmsg

/-- A device that just connected is a stranger. -/
theorem stranger_connectedNode (e : EngineState seeded) :
    Stranger (connectedNode e).session (seededDevice 3) := by
  intro p hp
  simp only [connectedNode, FrameState.start, getElem?_insert_peer, ↓reduceIte,
    Option.some.injEq] at hp
  subst hp
  rfl

/-- The hello of an impostor moves nothing. -/
theorem impostor_hello_moves_nothing :
    ∃ u, handleInboundFrame plainLine (connectedNode freshNode) (seededDevice 3)
        (helloAs "some-other-device") = some u ∧
      NothingDelivered (seededDevice 3) (connectedNode freshNode) u ∧
      u.session.engine = freshNode := by
  have hno : NeverAuthenticates (seededDevice 3) (connectedNode freshNode)
      [(plainLine, helloAs "some-other-device")] := by
    apply neverAuthenticates_of_forall
    intro f hf signature
    rw [List.mem_singleton.mp hf]
    exact fun heq ↦ by cases heq
  obtain ⟨u, hu⟩ := Option.isSome_iff_exists.mp ((isSome_onHello_iff plainLine
    (canonicalPeers_connectedNode freshNode) (canonical_seededDevice 3) {
      deviceId := "some-other-device"
      label := ""
      nonce := "nonce"
      verificationCode := ""
      capabilities := none
      features := [] }).mpr fun _ ↦ by decide)
  have hframe : handleInboundFrame plainLine (connectedNode freshNode) (seededDevice 3)
      (helloAs "some-other-device") = some u := by
    rw [handleInboundFrame_of_protocol rfl]
    exact hu
  obtain ⟨hnothing, hkept⟩ := stranger_frames_powerless (seededDevice 3)
    (connectedNode freshNode) [(plainLine, helloAs "some-other-device")]
    (stranger_connectedNode freshNode) hno [] (plainLine, helloAs "some-other-device") []
    (connectedNode freshNode) u rfl (receiveAll_nil _ _) hframe
  exact ⟨u, hframe, hnothing, hkept⟩

/-- The deny of a device that never authenticates, with an eviction the owner signed. -/
def denyWithProof : FrameEnv × MeshMessage :=
  (plainLine, .deny (some "evicted") [] [fleetEvict 6])

/-- A node without member entries takes the eviction. -/
private theorem deny_teaches {e : EngineState seeded} (he : e.governance.memberLog = []) :
    ∃ t, receiveAll (seededDevice 3) (connectedNode e) [denyWithProof] = some t ∧
      t.session.engine.governance ≠ (connectedNode e).session.engine.governance := by
  obtain ⟨t, ht, -⟩ := finishes_onDeny plainLine (canonicalPeers_connectedNode e)
    (canonical_seededDevice 3) [] [fleetEvict 6]
  have hframe : handleInboundFrame plainLine (connectedNode e) (seededDevice 3)
      denyWithProof.2 = some t := by
    rw [handleInboundFrame_of_protocol rfl]
    exact ht
  refine ⟨t, ?_, fun hsame ↦ ?_⟩
  · rw [receiveAll_cons]
    simp only [denyWithProof] at hframe ⊢
    rw [hframe]
    exact receiveAll_nil _ _
  · have hno : ¬ Authenticates (connectedNode e) (seededDevice 3) denyWithProof.2 := by
      rintro ⟨signature, p, hmsg, -⟩
      cases hmsg
    have hkept := (stranger_step (stranger_connectedNode e) hno hframe).2
    simp only [denyWithProof, TrustKept, List.cons_ne_self, and_false, ↓reduceIte] at hkept
    obtain ⟨memberLog, hadopt, hmem⟩ := memberLog_adoptMemberLog he [fleetEvict 6]
    have hlog := memberLog_adoptTransitionLog plainLine.toEnv e [] [fleetEvict 6]
    rw [hadopt] at hlog
    have hgov : (adoptTransitionLog plainLine.toEnv e [] [fleetEvict 6]).governance =
        e.governance := hkept.1.symm.trans hsame
    rw [hgov, he] at hlog
    simp only at hlog
    have hin := (hmem (fleetEvict 6)).mpr (List.mem_singleton_self _)
    rw [← hlog] at hin
    exact absurd hin List.not_mem_nil

/-- The governance state of the node moves although nobody authenticated: that is how a device
that was away learns of an eviction. -/
theorem deny_of_stranger_teaches_eviction :
    ¬ ∀ (s : FrameState seeded) (k : String) (frames : List (FrameEnv × MeshMessage)),
      s.session.peers.contains k = true → Stranger s.session k → NeverAuthenticates k s frames →
      ∀ t, receiveAll k s frames = some t →
        t.session.engine.governance = s.session.engine.governance := by
  intro hall
  have hempty : (fleetNode 4 []).governance.memberLog = [] := by
    obtain ⟨memberLog, hmem, hg, -⟩ := fleetNode_spec 4 []
    rw [hg]
    exact List.eq_nil_iff_forall_not_mem.mpr fun t ht ↦ absurd ((hmem t).mp ht) List.not_mem_nil
  obtain ⟨t, ht, hmoved⟩ := deny_teaches hempty
  have hno : NeverAuthenticates (seededDevice 3) (connectedNode (fleetNode 4 []))
      [denyWithProof] := by
    apply neverAuthenticates_of_forall
    intro f hf signature
    rw [List.mem_singleton.mp hf]
    exact fun heq ↦ by cases heq
  exact hmoved (hall (connectedNode (fleetNode 4 [])) (seededDevice 3) [denyWithProof]
    (contains_connectedNode _) (stranger_connectedNode _) hno t ht)

end MyOwnMesh
