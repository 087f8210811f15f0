import MyOwnMesh.Engine.Sessions

/-!
# Evicted devices and their sessions

The run invariant behind the eviction gate: an authenticated session of an evicted device
always has a drop on its way. Handshakes and adoptions keep it by themselves; a local
ratification keeps it as long as whoever it evicts is the rostered target of an evict.
-/

namespace MyOwnMesh

open Lib Lib.Replay

variable {P : Primitives}

/-! ### The eviction verdict -/

/-- The verdict as a condition on the signed state: closed, no authority, a tombstone. -/
theorem logEvicted_iff {e : EngineState P} {k : String} :
    logEvicted e k = true ↔
      e.governance.kind = .closed ∧ ¬ e.governance.IsAuthority (pubkeyPart k) ∧
        Tombstoned P e.governance e.networkId e.governance.memberLog (pubkeyPart k) := by
  have hopen : e.governance.kind.isOpenGovernance = true ↔ e.governance.kind ≠ .closed := by
    cases e.governance.kind <;> simp [NetworkKind.isOpenGovernance]
  rw [logEvicted, ← mem_memberLogRemoved]
  unfold NetworkState.IsAuthority
  by_cases hk : e.governance.kind = .closed
  · cases e.governance.roles[pubkeyPart k]? with
    | none => simp [hk, NetworkKind.isOpenGovernance]
    | some r => cases r <;> simp [hk, NetworkKind.isOpenGovernance]
  · simp [hopen.mpr hk, hk]

/-- A tombstone is read off the log and the authorities alone. -/
private theorem tombstoned_congr {gov gov' : NetworkState} {networkId d : String}
    {log : List Transition} (h : ∀ x, gov.IsAuthority x ↔ gov'.IsAuthority x) :
    Tombstoned P gov networkId log d ↔ Tombstoned P gov' networkId log d := by
  simp only [Tombstoned, Counted, AuthoritySigned, h]

/-- The verdict depends on the kind, the authorities and the member log alone. -/
theorem logEvicted_congr {e e' : EngineState P} (hn : e'.networkId = e.networkId)
    (hk : e'.governance.kind = e.governance.kind)
    (ha : ∀ d, e'.governance.IsAuthority d ↔ e.governance.IsAuthority d)
    (hm : e'.governance.memberLog = e.governance.memberLog) (k : String) :
    logEvicted e' k = logEvicted e k := by
  rw [Bool.eq_iff_iff, logEvicted_iff, logEvicted_iff, hn, hk, hm, ha, tombstoned_congr ha]

/-- In particular it does not depend on the roster, the topology or the proposals. -/
theorem logEvicted_of_governance {e e' : EngineState P} (hn : e'.networkId = e.networkId)
    (hg : e'.governance = e.governance) (k : String) : logEvicted e' k = logEvicted e k :=
  logEvicted_congr hn (by rw [hg]) (fun d ↦ by rw [hg]) (by rw [hg]) k

/-! ### Steps that admit nobody new -/

/-- A drop of this peer is on its way. -/
def DropPending (s : SessionState P) (k : String) : Prop :=
  k ∈ s.queuedDrops ∨ k ∈ s.janitors

/-- Every peer of the second state is one of the first, authenticated as it was and over the
same channel, and established only if it was or is authenticated; no close ended and no
drop was lost. -/
structure KeepsPeers (s s' : SessionState P) : Prop where
  closing : s'.closing = s.closing
  pending : ∀ k, DropPending s k → DropPending s' k
  peers : ∀ (k : String) (p' : PeerState), s'.peers[k]? = some p' → ∃ p, s.peers[k]? = some p ∧
    p'.authenticated = p.authenticated ∧ p'.session = p.session ∧
    (p'.established = true → p.established = true ∨ p.authenticated = true)

/-- The same, with the governance state untouched. -/
structure KeepsSessions (s s' : SessionState P) : Prop extends KeepsPeers s s' where
  networkId : s'.engine.networkId = s.engine.networkId
  governance : s'.engine.governance = s.engine.governance

/-- A state with the same sessions keeps them. -/
theorem KeepsPeers.of_eq {s s' : SessionState P} (hp : s'.peers = s.peers)
    (hc : s'.closing = s.closing) (hpend : ∀ k, DropPending s k → DropPending s' k) :
    KeepsPeers s s' := by
  refine ⟨hc, hpend, fun k p' h ↦ ⟨p', ?_, rfl, rfl, .inl⟩⟩
  rw [← hp]
  exact h

/-- Keeping the peers composes. -/
theorem KeepsPeers.trans {s s' s'' : SessionState P} (h : KeepsPeers s s')
    (h' : KeepsPeers s' s'') : KeepsPeers s s'' := by
  refine ⟨h'.closing.trans h.closing, fun k hk ↦ h'.pending k (h.pending k hk), ?_⟩
  intro k p'' hp''
  obtain ⟨p', hp', ha', hs', he'⟩ := h'.peers k p'' hp''
  obtain ⟨p, hp, ha, hs, he⟩ := h.peers k p' hp'
  refine ⟨p, hp, ha'.trans ha, hs'.trans hs, fun hest ↦ ?_⟩
  cases he' hest with
  | inl h => exact he h
  | inr h => exact .inr (ha ▸ h)

/-- Keeping the sessions composes. -/
theorem KeepsSessions.trans {s s' s'' : SessionState P} (h : KeepsSessions s s')
    (h' : KeepsSessions s' s'') : KeepsSessions s s'' :=
  ⟨h.toKeepsPeers.trans h'.toKeepsPeers, h'.networkId.trans h.networkId,
    h'.governance.trans h.governance⟩

/-- Nothing happening keeps the sessions. -/
theorem KeepsSessions.refl (s : SessionState P) : KeepsSessions s s :=
  ⟨.of_eq rfl rfl fun _ h ↦ h, rfl, rfl⟩

/-- An edit of one peer that authenticates nobody keeps the sessions. -/
theorem keepsSessions_modifyPeer (s : SessionState P) (k : String) (f : PeerState → PeerState)
    (hf : ∀ p, s.peers[k]? = some p → (f p).authenticated = p.authenticated ∧
      (f p).session = p.session ∧
      ((f p).established = true → p.established = true ∨ p.authenticated = true)) :
    KeepsSessions s (s.modifyPeer k f) := by
  refine ⟨⟨rfl, fun _ h ↦ h, fun d p' h ↦ ?_⟩, rfl, rfl⟩
  rw [SessionState.modifyPeer, getElem?_modify_peer] at h
  split at h
  · next hd =>
    subst hd
    obtain ⟨p, hp, rfl⟩ := Option.map_eq_some_iff.mp h
    exact ⟨p, hp, hf p hp⟩
  · exact ⟨p', h, rfl, rfl, .inl⟩

private theorem established_shelve (b : Bool) (p : PeerState)
    (h : (shelve b p).established = true) : p.established = true := by
  unfold shelve PeerState.established at *
  cases b <;> cases hs : p.status <;> simp [hs] at h ⊢

/-- The topology selector moves connected peers between active and shelved only. -/
theorem keepsSessions_reevaluateTopology (env : SessionEnv) (s : SessionState P) :
    KeepsSessions s (reevaluateTopology env s) := by
  unfold reevaluateTopology
  split
  · exact .refl s
  · refine ⟨⟨rfl, fun _ h ↦ h, fun k p' h ↦ ?_⟩, rfl, rfl⟩
    simp only [Std.ExtTreeMap.getElem?_map, Option.map_eq_some_iff] at h
    obtain ⟨p, hp, rfl⟩ := h
    refine ⟨p, hp, ?_⟩
    split
    · exact ⟨rfl, rfl, fun h ↦ .inl (established_shelve _ p h)⟩
    · exact ⟨rfl, rfl, .inl⟩

/-- An approval into the roster touches no session. -/
theorem keepsSessions_approveRoster (env : SessionEnv) (s : SessionState P) (k label : String) :
    KeepsSessions s (approveRoster env s k label).1 := by
  unfold approveRoster
  split
  · exact .refl s
  · exact ⟨.of_eq rfl rfl fun _ h ↦ h, rfl, rfl⟩

/-- Only an authenticated peer is made active. -/
theorem keepsSessions_settleActivation (env : SessionEnv) (s : SessionState P) (k : String) :
    KeepsSessions s (settleActivation env s k) := by
  unfold settleActivation
  split
  · exact .refl s
  · next p hp =>
    split
    · next h =>
      have hauth : p.authenticated = true := by
        simp only [Bool.and_eq_true] at h
        exact h.1.1.1
      have hpromote := keepsSessions_modifyPeer s k (fun q ↦ { q with status := .active })
        (by
          intro q hq
          rw [hp, Option.some.injEq] at hq
          subst hq
          exact ⟨rfl, rfl, fun _ ↦ .inr hauth⟩)
      exact (hpromote.trans (keepsSessions_approveRoster env _ k p.label)).trans
        (keepsSessions_reevaluateTopology env _)
    · exact .refl s

/-- Our own approval authenticates nobody. -/
theorem keepsSessions_sendLocalApprove (env : SessionEnv) (s : SessionState P) (k : String) :
    KeepsSessions s (sendLocalApprove env s k) := by
  unfold sendLocalApprove
  split
  · exact .refl s
  · split
    · exact .refl s
    · have hlatch := keepsSessions_modifyPeer s k (fun q ↦ { q with localApproveSent := true })
        fun p _ ↦ ⟨rfl, rfl, .inl⟩
      simp only
      split
      · exact hlatch.trans (keepsSessions_settleActivation env _ k)
      · exact hlatch.trans (keepsSessions_modifyPeer _ k
          (fun q ↦ { q with localApproveSent := false }) fun p _ ↦ ⟨rfl, rfl, .inl⟩)

/-- A loop of calls that keep the sessions keeps them. -/
theorem keepsSessions_foldl {step : SessionState P → String → SessionState P}
    (hstep : ∀ s k, KeepsSessions s (step s k)) (keys : List String) (s : SessionState P) :
    KeepsSessions s (keys.foldl step s) := by
  induction keys generalizing s with
  | nil => exact .refl s
  | cons k rest ih => exact (hstep s k).trans (ih (step s k))

/-! ### The invariant -/

/-- What holds of every peer: it is authenticated if it is established, it has a channel if it
is authenticated, it has none where a close is still going on, and if it got past the gate
and its device is evicted, then a drop of it is pending. -/
structure PeerSafe (s : SessionState P) (k : String) (p : PeerState) : Prop where
  established : p.established = true → p.authenticated = true
  channel : p.authenticated = true → p.session ≠ none
  closing : k ∈ s.closing → p.session = none
  cut : p.authenticated = true → logEvicted s.engine k = true → DropPending s k

/-- The log replays and every peer is safe. -/
structure SessionsSafe (s : SessionState P) : Prop where
  replays : ∃ v, ReplaysTo P s.engine.networkId s.engine.governance v
  peer : ∀ (k : String) (p : PeerState), s.peers[k]? = some p → PeerSafe s k p

/-- A peer stays safe while its device is not evicted anew, no close of it begins and no drop
of it is lost. -/
theorem PeerSafe.mono {s t : SessionState P} {k : String} {p : PeerState} (h : PeerSafe s k p)
    (he : logEvicted t.engine k = true → logEvicted s.engine k = true)
    (hc : k ∈ t.closing → k ∈ s.closing) (hpend : DropPending s k → DropPending t k) :
    PeerSafe t k p := by
  refine ⟨h.established, h.channel, fun hk ↦ h.closing (hc hk), fun ha hev ↦ ?_⟩
  exact hpend (h.cut ha (he hev))

/-- A peer that is not authenticated needs no drop. -/
theorem PeerSafe.of_not_authenticated {s : SessionState P} {k : String} {p : PeerState}
    (ha : p.authenticated = false) (hest : p.established = true → p.authenticated = true)
    (hc : k ∈ s.closing → p.session = none) : PeerSafe s k p := by
  refine ⟨hest, fun h ↦ ?_, hc, fun h _ ↦ ?_⟩
  · rw [ha] at h
    cases h
  · rw [ha] at h
    cases h

/-- A network that has just been joined has no session. -/
theorem sessionsSafe_join {e : EngineState P} (h : ∃ v, ReplaysTo P e.networkId e.governance v)
    (autoApprove : Bool) : SessionsSafe (.join e autoApprove) := by
  refine ⟨h, ?_⟩
  simp [SessionState.join]

/-- The governance state may move as long as whoever it newly evicts is dropped. -/
theorem SessionsSafe.of_keepsPeers {s s' : SessionState P} (h : SessionsSafe s)
    (hp : KeepsPeers s s')
    (hv : ∃ v, ReplaysTo P s'.engine.networkId s'.engine.governance v)
    (hcut : ∀ (k : String) (p : PeerState), s'.peers[k]? = some p → p.authenticated = true →
      logEvicted s'.engine k = true → logEvicted s.engine k = true ∨ DropPending s' k) :
    SessionsSafe s' := by
  refine ⟨hv, fun k p' hk ↦ ?_⟩
  obtain ⟨p, hkp, hauth, hsess, hest⟩ := hp.peers k p' hk
  have hsafe := h.peer k p hkp
  constructor
  · intro he
    rw [hauth]
    cases hest he with
    | inl h' => exact hsafe.established h'
    | inr h' => exact h'
  · intro ha
    rw [hsess]
    exact hsafe.channel (hauth ▸ ha)
  · intro hc
    rw [hsess]
    exact hsafe.closing (hp.closing ▸ hc)
  · intro ha he
    cases hcut k p' hk ha he with
    | inl h' => exact hp.pending k (hsafe.cut (hauth ▸ ha) h')
    | inr h' => exact h'

/-- Steps that keep the sessions keep the invariant. -/
theorem SessionsSafe.of_keepsSessions {s s' : SessionState P} (h : SessionsSafe s)
    (hk : KeepsSessions s s') : SessionsSafe s' := by
  refine h.of_keepsPeers hk.toKeepsPeers ?_ fun k p _ _ he ↦ .inl ?_
  · rw [hk.networkId, hk.governance]
    exact h.replays
  · rwa [logEvicted_of_governance hk.networkId hk.governance] at he

/-- A drop may use up the pending drops of its own peer. -/
theorem SessionsSafe.dropPeer {s t : SessionState P} (h : SessionsSafe s) (env : SessionEnv)
    {k : String} (he : t.engine = s.engine) (hp : t.peers = s.peers)
    (hc : t.closing = s.closing)
    (hpend : ∀ d, d ≠ k → DropPending s d → DropPending t d) :
    SessionsSafe (MyOwnMesh.dropPeer env t k) := by
  have hreplays : ∃ v, ReplaysTo P t.engine.networkId t.engine.governance v := by
    rw [he]
    exact h.replays
  have hrest : ∀ (d : String) (p : PeerState), d ≠ k → s.peers[d]? = some p → PeerSafe t d p := by
    intro d p hd hdp
    refine (h.peer d p hdp).mono (fun hev ↦ ?_) (fun hdc ↦ ?_) (hpend d hd)
    · rwa [he] at hev
    · rwa [hc] at hdc
  -- A call that does nothing is fine when there was no session to cut.
  have hsame : (∀ p : PeerState, s.peers[k]? = some p → p.session = none) → SessionsSafe t := by
    intro hk
    refine ⟨hreplays, fun d p hdp ↦ ?_⟩
    rw [hp] at hdp
    by_cases hd : d = k
    · subst hd
      have hsafe := h.peer d p hdp
      have ha : p.authenticated = false :=
        Bool.eq_false_iff.mpr fun ha ↦ hsafe.channel ha (hk p hdp)
      exact .of_not_authenticated ha hsafe.established fun _ ↦ hk p hdp
    · exact hrest d p hd hdp
  unfold MyOwnMesh.dropPeer
  split
  · next hclosing =>
    rw [hc] at hclosing
    exact hsame fun p hkp ↦ (h.peer k p hkp).closing hclosing
  · split
    · next hnone =>
      rw [hp] at hnone
      refine hsame fun p hkp ↦ ?_
      rw [hnone] at hkp
      cases hkp
    · refine SessionsSafe.of_keepsSessions ?_ (keepsSessions_reevaluateTopology env _)
      refine ⟨hreplays, fun d p hdp ↦ ?_⟩
      simp only [hp, getElem?_erase_peer] at hdp
      split at hdp
      · cases hdp
      · next hd =>
        refine (hrest d p (Ne.symm hd) hdp).mono id (fun hdc ↦ ?_) id
        simp only at hdc
        split at hdc
        · rcases List.mem_append.mp hdc with hdc | hdc
          · exact hdc
          · exact absurd (List.mem_singleton.mp hdc).symm hd
        · exact hdc

/-- A fresh peer is nobody's session yet. -/
theorem SessionsSafe.insert_fresh {s : SessionState P} (h : SessionsSafe s) {k : String}
    {session : Option TransportSession} (hk : session = none ∨ k ∉ s.closing) :
    SessionsSafe { s with peers := s.peers.insert k (.fresh session) } := by
  refine ⟨h.replays, fun d p hdp ↦ ?_⟩
  simp only [getElem?_insert_peer] at hdp
  split at hdp
  · next hd =>
    cases hdp
    refine .of_not_authenticated rfl (fun hest ↦ by cases hest) fun hdc ↦ ?_
    cases hk with
    | inl hnone => exact hnone
    | inr hopen => exact absurd (hd ▸ hdc) hopen
  · exact (h.peer d p hdp).mono id id id

/-- A peer with a channel may be authenticated while it is not evicted. -/
theorem SessionsSafe.authenticate {s : SessionState P} (h : SessionsSafe s) {k : String}
    {p : PeerState} (hp : s.peers[k]? = some p) (hsess : p.session ≠ none)
    (hev : logEvicted s.engine k = false) :
    SessionsSafe (s.modifyPeer k fun q ↦
      { q with authenticated := true, status := .pendingApproval }) := by
  refine ⟨h.replays, fun d q hq ↦ ?_⟩
  rw [SessionState.modifyPeer, getElem?_modify_peer] at hq
  split at hq
  · next hd =>
    subst hd
    rw [hp] at hq
    cases hq
    refine ⟨fun _ ↦ rfl, fun _ ↦ hsess, (h.peer k p hp).closing, fun _ hevd ↦ ?_⟩
    have hevd' : logEvicted s.engine k = true := hevd
    rw [hev] at hevd'
    cases hevd'
  · exact (h.peer d q hq).mono id id id

/-! ### Handshake steps -/

private theorem SessionsSafe.initiate {s : SessionState P} (h : SessionsSafe s)
    (k nonce : String) : SessionsSafe (MyOwnMesh.initiate s k nonce) := by
  refine h.of_keepsSessions (keepsSessions_modifyPeer s k _ fun p _ ↦ ⟨rfl, rfl, fun hest ↦ ?_⟩)
  simp [PeerState.established] at hest

private theorem SessionsSafe.drop {s : SessionState P} (h : SessionsSafe s) (env : SessionEnv)
    (k : String) : SessionsSafe (MyOwnMesh.dropPeer env s k) :=
  h.dropPeer env rfl rfl rfl fun _ _ hd ↦ hd

private theorem SessionsSafe.onHello {s : SessionState P} (h : SessionsSafe s)
    (env : SessionEnv) (k : String) (msg : HelloMessage) :
    SessionsSafe (MyOwnMesh.onHello env s k msg) := by
  unfold MyOwnMesh.onHello
  split
  · exact h.drop env k
  · have hnoted := h.of_keepsSessions (keepsSessions_modifyPeer s k
      (fun p ↦ { p with nonceReceived := some msg.nonce, label := msg.label })
      fun p _ ↦ ⟨rfl, rfl, .inl⟩)
    simp only
    split
    · exact hnoted.drop env k
    · split
      · exact hnoted.drop env k
      · exact hnoted

private theorem SessionsSafe.deny {s : SessionState P} (h : SessionsSafe s) (k : String) :
    SessionsSafe (denyIfEvicted s k) := by
  unfold denyIfEvicted
  split
  · refine h.of_keepsSessions ⟨.of_eq rfl rfl fun d hd ↦ ?_, rfl, rfl⟩
    exact hd.imp id (List.mem_append_left _)
  · exact h

/-- The gate: nobody is authenticated while evicted. -/
private theorem SessionsSafe.onAuthResponse {s : SessionState P} (h : SessionsSafe s)
    (env : SessionEnv) (k signature : String) :
    SessionsSafe (MyOwnMesh.onAuthResponse env s k signature) := by
  unfold MyOwnMesh.onAuthResponse
  split
  · exact h
  · next p hp =>
    split
    · exact h
    · split
      · exact h.drop env k
      · next binding hbinding =>
        have hsess : p.session ≠ none := by
          intro hnone
          rw [hnone] at hbinding
          cases hbinding
        split
        · split
          · exact h.deny k
          · next hev =>
            have hauth := h.authenticate hp hsess (Bool.eq_false_iff.mpr hev)
            simp only
            split
            · exact hauth.of_keepsSessions (keepsSessions_sendLocalApprove env _ k)
            · exact hauth
        · exact h.drop env k

private theorem SessionsSafe.onApprove {s : SessionState P} (h : SessionsSafe s)
    (env : SessionEnv) (k : String) : SessionsSafe (MyOwnMesh.onApprove env s k) := by
  have hseen := h.of_keepsSessions (keepsSessions_modifyPeer s k
    (fun p ↦ { p with remoteApproveSeen := true }) fun p _ ↦ ⟨rfl, rfl, .inl⟩)
  exact hseen.of_keepsSessions (keepsSessions_settleActivation env _ k)

/-! ### Governance steps -/

/-- Whoever a ratified entry newly evicts while it has an authenticated session is about to be
dropped already, or is the target of an evict, under the id of that session, has a roster
row, and both files are written. -/
def CutsSessions (s : SessionState P) (o : SessionEnv × SessionOp) : Prop :=
  match o.2 with
  | .govern op =>
    ∀ t, ratifiedBy s.engine (o.1.toEnv, op) = some t →
      ∀ (k : String) (p : PeerState), s.peers[k]? = some p → p.authenticated = true →
        logEvicted s.engine k = false →
        logEvicted { s.engine with
          governance := routed P s.engine.networkId s.engine.governance t } k = true →
        DropPending s k ∨ t.variant = .evict k ∧ isAuthorized s.engine.roster k = true ∧
          (∀ gov, o.1.saveState gov = .ok ()) ∧ ∀ roster, o.1.saveRoster roster = .ok ()
  | _ => True

/-- With both files written, a ratified evict is ratified cleanly. -/
private theorem ratifiedCleanly_of_evict {e : EngineState P} {o : Env × GovOp} {t : Transition}
    {k : String} (h : ratifiedBy e o = some t) (hv : t.variant = .evict k)
    (hstate : ∀ gov, o.1.saveState gov = .ok ())
    (hroster : ∀ roster, o.1.saveRoster roster = .ok ()) : ratifiedCleanly e o = some t := by
  obtain ⟨id, hid, ht⟩ := ratifiedBy_eq_some_iff.mp h
  have hr := tryRatify_of_ratifies o.1 (s := { e with governance := (intake e o).1 }) ht
  have hok : (commit o.1 { e with governance := (intake e o).1 } id t).2 = .ok () := by
    simp only [commit, hstate, mirrorRatified, hv]
    by_cases hauth : isAuthorized e.roster k = true
    · simp only [hauth, ↓reduceIte, hroster]
    · simp only [hauth, ↓reduceIte, Bool.false_eq_true]
  simp only [ratifiedCleanly, hid, ht, hr, hok]

/-- A governance call or frame steps the engine and admits nobody. -/
theorem govern_frame (env : SessionEnv) (s : SessionState P) (op : GovOp) :
    (govern env s op).engine = step s.engine (env.toEnv, op) ∧
      KeepsPeers s (govern env s op) := by
  unfold govern
  simp only
  split
  · exact ⟨rfl, .of_eq rfl rfl fun _ h ↦ h⟩
  · split
    · split
      · refine ⟨rfl, .of_eq rfl rfl fun k hk ↦ ?_⟩
        exact hk.imp (List.mem_append_left _) id
      · exact ⟨rfl, .of_eq rfl rfl fun _ h ↦ h⟩
    · refine ⟨rfl, ?_⟩
      have hshape := (keepsSessions_reevaluateTopology env
        { s with engine :=
          { step s.engine (env.toEnv, op) with selfEvicted := s.engine.selfEvicted } }).toKeepsPeers
      exact ⟨hshape.closing, hshape.pending, hshape.peers⟩
    · exact ⟨rfl, .of_eq rfl rfl fun _ h ↦ h⟩

private theorem queuedDrop_govern {env : SessionEnv} {s : SessionState P} {op : GovOp}
    {t : Transition} {k : String} (h : ratifiedCleanly s.engine (env.toEnv, op) = some t)
    (hv : t.variant = .evict k) (hauth : isAuthorized s.engine.roster k = true) :
    k ∈ (govern env s op).queuedDrops := by
  simp [govern, h, hv, hauth]

/-- Only the ratification of an entry can evict somebody new. -/
private theorem evicted_by_ratification {e : EngineState P} {env : Env} {op : GovOp}
    (hop : ∀ gov members, op ≠ .adoptTransitionLog gov members) {k : String}
    (hev : logEvicted (step e (env, op)) k = true) :
    logEvicted e k = true ∨ ∃ t, ratifiedBy e (env, op) = some t ∧
      logEvicted { e with governance := routed P e.networkId e.governance t } k = true := by
  have hn := (step_frame e (env, op)).1
  have heff := localEffect_step e env hop
  generalize hg : (step e (env, op)).governance = g at heff
  cases heff with
  | quiet pending _ =>
    left
    rwa [logEvicted_congr hn (by rw [hg]) (fun d ↦ by rw [hg]; rfl) (by rw [hg])] at hev
  | ratify t pending hby _ _ =>
    right
    refine ⟨t, hby, ?_⟩
    rwa [logEvicted_congr (e := { e with governance := routed P e.networkId e.governance t }) hn
      (by rw [hg]) (fun d ↦ by rw [hg]; rfl) (by rw [hg])] at hev
  | split t pending n ms _ hv _ _ =>
    left
    have hroles : (applyTransition e.governance t).roles = e.governance.roles := by
      simp [applyTransition, hv]
    have hkind : (applyTransition e.governance t).kind = e.governance.kind := by
      simp [kindAfter, hv]
    rwa [logEvicted_congr hn (by rw [hg]; exact hkind)
      (fun d ↦ by
        rw [hg]
        simp only [NetworkState.IsAuthority, hroles])
      (by rw [hg]; exact memberLog_applyTransition _ _)] at hev

private theorem SessionsSafe.govern {s : SessionState P} (h : SessionsSafe s)
    (env : SessionEnv) {op : GovOp}
    (hop : ∀ gov members, op ≠ .adoptTransitionLog gov members)
    (hc : CutsSessions s (env, .govern op)) : SessionsSafe (MyOwnMesh.govern env s op) := by
  obtain ⟨hengine, hkeeps⟩ := govern_frame env s op
  refine h.of_keepsPeers hkeeps ?_ fun k p' hp' ha hev ↦ ?_
  · rw [hengine]
    exact replays_step (env.toEnv, op) h.replays
  · rw [hengine] at hev
    obtain ⟨p, hp, hauth, -, -⟩ := hkeeps.peers k p' hp'
    rcases evicted_by_ratification hop hev with hold | ⟨t, hby, hnew⟩
    · exact .inl hold
    · cases hbefore : logEvicted s.engine k with
      | true => exact .inl rfl
      | false =>
        right
        rcases hc t hby k p hp (hauth ▸ ha) hbefore hnew with hpend | ⟨hv, hrow, hstate, hroster⟩
        · exact hkeeps.pending k hpend
        · exact .inl (queuedDrop_govern (ratifiedCleanly_of_evict hby hv hstate hroster) hv hrow)

/-! ### Adoptions -/

private theorem isAuthority_projection_iff {networkId : String} {v : NetworkState}
    {memberLog : List Transition} {d : String} :
    (projection P networkId v memberLog)[d]? = some .controller ∨
        (projection P networkId v memberLog)[d]? = some .owner ↔ v.IsAuthority d := by
  rw [projection_eq_controller_iff, projection_eq_owner_iff]
  rfl

/-- What an adoption that verifies leaves, and the log it verified. -/
private theorem adopted_cases (env : Env) {e : EngineState P}
    {incomingGov incomingMembers : List Transition} {projected : RoleMap}
    {removed : List String}
    (h : verifiedProjection P e.networkId
      (adoptMemberLog (adoptGovernanceLog P e.networkId e.governance incomingGov)
        incomingMembers) = .ok (projected, removed)) :
    (adoptTransitionLog env e incomingGov incomingMembers).governance =
        { adoptMemberLog (adoptGovernanceLog P e.networkId e.governance incomingGov)
          incomingMembers with roles := projected } ∧
      ∃ v, verifyLog P e.networkId (adoptMemberLog
          (adoptGovernanceLog P e.networkId e.governance incomingGov) incomingMembers).transitions =
            .ok v ∧
        projected = projection P e.networkId v (adoptMemberLog
          (adoptGovernanceLog P e.networkId e.governance incomingGov) incomingMembers).memberLog ∧
        removed = memberLogRemoved P v (adoptMemberLog
          (adoptGovernanceLog P e.networkId e.governance incomingGov) incomingMembers).memberLog
          e.networkId := by
  refine ⟨?_, ?_⟩
  · simp only [adoptTransitionLog, h]
    rfl
  · unfold verifiedProjection at h
    split at h
    · cases h
    · next v hv =>
      obtain ⟨rfl, rfl⟩ := Prod.mk.inj (Except.ok.inj h)
      exact ⟨v, hv, rfl, rfl⟩

/-- After an adoption the evicted devices are among the listed tombstones. -/
private theorem mem_removed_of_evicted {env : Env} {e : EngineState P}
    {incomingGov incomingMembers : List Transition} {projected : RoleMap}
    {removed : List String} {k : String}
    (h : verifiedProjection P e.networkId
      (adoptMemberLog (adoptGovernanceLog P e.networkId e.governance incomingGov)
        incomingMembers) = .ok (projected, removed))
    (hev : logEvicted (adoptTransitionLog env e incomingGov incomingMembers) k = true) :
    pubkeyPart k ∈ removed := by
  obtain ⟨hg, v, -, hproj, hremoved⟩ := adopted_cases env h
  obtain ⟨-, -, htomb⟩ := logEvicted_iff.mp hev
  have hn : (adoptTransitionLog env e incomingGov incomingMembers).networkId = e.networkId :=
    (step_frame e (env, .adoptTransitionLog incomingGov incomingMembers)).1
  have hauth : ∀ d, (adoptTransitionLog env e incomingGov incomingMembers).governance.IsAuthority d
      ↔ v.IsAuthority d := by
    intro d
    unfold NetworkState.IsAuthority
    rw [hg, hproj]
    exact isAuthority_projection_iff
  rw [tombstoned_congr hauth, hn] at htomb
  rw [hremoved, mem_memberLogRemoved]
  rw [hg] at htomb
  exact htomb

/-- An adoption that grew neither log left both as they were. -/
private theorem merged_of_unchanged {networkId : String} {gov : NetworkState}
    {incomingGov incomingMembers : List Transition}
    (h : adoptionChanged P networkId gov incomingGov incomingMembers = false) :
    adoptMemberLog (adoptGovernanceLog P networkId gov incomingGov) incomingMembers = gov := by
  simp only [adoptionChanged, Bool.or_eq_false_iff, decide_eq_false_iff_not] at h
  obtain ⟨hgov, hmembers⟩ := h
  have hadopted : adoptGovernanceLog P networkId gov incomingGov = gov := by
    rcases adoptGovernanceLog_cases (P := P) networkId gov incomingGov with hold | ⟨u, hx, -, hnew⟩
    · exact hold
    · rw [hnew] at hgov
      exact absurd (length_lt_of_extendsLog hx) hgov
  rw [hadopted] at hmembers ⊢
  unfold adoptMemberLog at hmembers ⊢
  split
  · rfl
  · next hne =>
    simp only [hne, ↓reduceIte] at hmembers ⊢
    split
    · next hlt =>
      simp only [hlt, ↓reduceIte] at hmembers
      exact absurd trivial hmembers
    · rfl

/-- Such an adoption evicts nobody new. -/
private theorem evicted_of_unchanged {env : Env} {e : EngineState P} {v : NetworkState}
    (hv : ReplaysTo P e.networkId e.governance v)
    {incomingGov incomingMembers : List Transition} {projected : RoleMap}
    {removed : List String} {k : String}
    (h : verifiedProjection P e.networkId
      (adoptMemberLog (adoptGovernanceLog P e.networkId e.governance incomingGov)
        incomingMembers) = .ok (projected, removed))
    (hch : adoptionChanged P e.networkId e.governance incomingGov incomingMembers = false)
    (hev : logEvicted (adoptTransitionLog env e incomingGov incomingMembers) k = true) :
    logEvicted e k = true := by
  obtain ⟨hg, w, hw, hproj, -⟩ := adopted_cases env h
  have hmerged := merged_of_unchanged hch
  rw [hmerged] at hg hw hproj
  rw [hv.replay] at hw
  cases hw
  have hn : (adoptTransitionLog env e incomingGov incomingMembers).networkId = e.networkId :=
    (step_frame e (env, .adoptTransitionLog incomingGov incomingMembers)).1
  have hauth : ∀ d, (adoptTransitionLog env e incomingGov incomingMembers).governance.IsAuthority d
      ↔ e.governance.IsAuthority d := by
    intro d
    rw [hv.authority, hg]
    unfold NetworkState.IsAuthority
    rw [hproj]
    exact isAuthority_projection_iff
  rwa [logEvicted_congr hn (by rw [hg]) hauth (by rw [hg])] at hev

/-- A denial arms a janitor and touches nothing else. -/
theorem denyIfEvicted_frame (s : SessionState P) (k : String) :
    (denyIfEvicted s k).engine = s.engine ∧ (denyIfEvicted s k).peers = s.peers ∧
      KeepsSessions s (denyIfEvicted s k) ∧
      (logEvicted s.engine k = true → k ∈ (denyIfEvicted s k).janitors) := by
  unfold denyIfEvicted
  split
  · refine ⟨rfl, rfl, ⟨.of_eq rfl rfl fun d hd ↦ ?_, rfl, rfl⟩, fun _ ↦ by simp⟩
    exact hd.imp id (List.mem_append_left _)
  · next hev => exact ⟨rfl, rfl, .refl s, fun h ↦ absurd h hev⟩

/-- Denying several peers arms a janitor for each that is evicted. -/
theorem foldl_denyIfEvicted (keys : List String) (s : SessionState P) :
    (keys.foldl denyIfEvicted s).engine = s.engine ∧
      (keys.foldl denyIfEvicted s).peers = s.peers ∧
      KeepsSessions s (keys.foldl denyIfEvicted s) ∧
      ∀ k ∈ keys, logEvicted s.engine k = true →
        DropPending (keys.foldl denyIfEvicted s) k := by
  induction keys generalizing s with
  | nil => exact ⟨rfl, rfl, .refl s, by simp⟩
  | cons a rest ih =>
    obtain ⟨he, hp, hkeeps, hself⟩ := denyIfEvicted_frame s a
    obtain ⟨he', hp', hkeeps', hall⟩ := ih (denyIfEvicted s a)
    refine ⟨he'.trans he, hp'.trans hp, hkeeps.trans hkeeps', fun k hk hev ↦ ?_⟩
    rcases List.mem_cons.mp hk with rfl | hk
    · exact hkeeps'.pending k (.inr (hself hev))
    · exact hall k hk (by rw [he]; exact hev)

private theorem SessionsSafe.refresh {s : SessionState P} (h : SessionsSafe s) :
    SessionsSafe { s with engine := refreshSelfEvicted s.engine } :=
  h.of_keepsSessions ⟨.of_eq rfl rfl fun _ h ↦ h, rfl, rfl⟩

/-- The tail of an adoption: every session of an evicted device is denied if anything was learned,
and otherwise nobody is evicted anew. -/
private theorem SessionsSafe.denied {s base approved : SessionState P} (h : SessionsSafe s)
    (hbase : KeepsPeers s base) (happ : KeepsSessions base approved)
    (hv : ∃ v, ReplaysTo P base.engine.networkId base.engine.governance v) {learned : Bool}
    {removed : List String}
    (hold : learned = false → ∀ k, logEvicted base.engine k = true → logEvicted s.engine k = true)
    (hmem : ∀ k, logEvicted base.engine k = true → pubkeyPart k ∈ removed) :
    SessionsSafe
      (if learned then
        (approved.peers.keys.filter fun k ↦ removed.contains (pubkeyPart k)).foldl denyIfEvicted
          approved
      else approved) := by
  have hevicted : ∀ k, logEvicted approved.engine k = logEvicted base.engine k :=
    logEvicted_of_governance happ.networkId happ.governance
  have hreplays : ∃ v, ReplaysTo P approved.engine.networkId approved.engine.governance v := by
    rw [happ.networkId, happ.governance]
    exact hv
  cases learned with
  | false =>
    refine h.of_keepsPeers (hbase.trans happ.toKeepsPeers) hreplays fun k p _ _ hev ↦ .inl ?_
    rw [if_neg (by decide), hevicted] at hev
    exact hold rfl k hev
  | true =>
    rw [if_pos rfl]
    obtain ⟨hengine, hpeers, hkeeps, hdenied⟩ := foldl_denyIfEvicted
      (approved.peers.keys.filter fun k ↦ removed.contains (pubkeyPart k)) approved
    refine h.of_keepsPeers ((hbase.trans happ.toKeepsPeers).trans hkeeps.toKeepsPeers)
      (by rw [hengine]; exact hreplays) fun k p hp _ hev ↦ .inr (hdenied k ?_ ?_)
    · rw [hpeers] at hp
      rw [hengine, hevicted] at hev
      have hkey : k ∈ approved.peers := by
        rw [← Std.ExtTreeMap.isSome_getElem?_iff_mem, hp]
        rfl
      rw [List.mem_filter, Std.ExtTreeMap.mem_keys, List.contains_iff_mem]
      exact ⟨hkey, hmem k hev⟩
    · rwa [hengine] at hev

private theorem SessionsSafe.adoptLogs {s : SessionState P} (h : SessionsSafe s)
    (env : SessionEnv) (incomingGov incomingMembers : List Transition) :
    SessionsSafe (MyOwnMesh.adoptLogs env s incomingGov incomingMembers) := by
  obtain ⟨v, hv⟩ := h.replays
  have hn : (adoptTransitionLog env.toEnv s.engine incomingGov incomingMembers).networkId =
      s.engine.networkId :=
    (step_frame s.engine (env.toEnv, .adoptTransitionLog incomingGov incomingMembers)).1
  have hreplays : ∃ w, ReplaysTo P
      (adoptTransitionLog env.toEnv s.engine incomingGov incomingMembers).networkId
      (adoptTransitionLog env.toEnv s.engine incomingGov incomingMembers).governance w :=
    replays_step (env.toEnv, .adoptTransitionLog incomingGov incomingMembers) ⟨v, hv⟩
  unfold MyOwnMesh.adoptLogs
  simp only
  split
  · next e herr =>
    -- The log we end up with always verifies, so this branch is never taken.
    obtain ⟨w, hw⟩ := hreplays
    have hg : (adoptTransitionLog env.toEnv s.engine incomingGov incomingMembers).governance =
        adoptMemberLog (adoptGovernanceLog P s.engine.networkId s.engine.governance incomingGov)
          incomingMembers := by
      simp only [adoptTransitionLog, herr]
    have hlog := hw.replay
    rw [hn, hg] at hlog
    rw [verifiedProjection_of_verifyLog P hlog] at herr
    cases herr
  · next projected removed hproj =>
    have hbase : KeepsPeers s
        { s with engine :=
          { adoptTransitionLog env.toEnv s.engine incomingGov incomingMembers with
            selfEvicted := s.engine.selfEvicted } } := .of_eq rfl rfl fun _ h ↦ h
    refine SessionsSafe.refresh (h.denied hbase (.trans ?_
      (keepsSessions_foldl (keepsSessions_sendLocalApprove env) projected.keys _)) hreplays ?_ ?_)
    · split
      · exact keepsSessions_reevaluateTopology env _
      · exact .refl _
    · intro hlearned k hev
      rw [Bool.or_eq_false_iff] at hlearned
      exact evicted_of_unchanged hv hproj hlearned.1 hev
    · intro k hev
      exact mem_removed_of_evicted hproj hev

private theorem SessionsSafe.rosterRemove {s : SessionState P} (h : SessionsSafe s)
    (env : SessionEnv) (k : String) : SessionsSafe (MyOwnMesh.rosterRemove env s k).1 := by
  unfold MyOwnMesh.rosterRemove
  simp only
  split
  · exact h
  · exact h
  · split
    · exact h.of_keepsSessions ⟨.of_eq rfl rfl fun _ h ↦ h, rfl, rfl⟩
    · refine h.of_keepsSessions ⟨.of_eq rfl rfl fun d hd ↦ ?_, rfl, rfl⟩
      exact hd.imp (List.mem_append_left _) id

private theorem SessionsSafe.queuedDrop {s : SessionState P} (h : SessionsSafe s)
    (env : SessionEnv) {k : String} {rest : List String} (hq : s.queuedDrops = k :: rest) :
    SessionsSafe (MyOwnMesh.dropPeer env { s with queuedDrops := rest } k) := by
  refine h.dropPeer env rfl rfl rfl fun d hd hpend ↦ ?_
  cases hpend with
  | inl hin =>
    rw [hq] at hin
    exact .inl ((List.mem_cons.mp hin).resolve_left hd)
  | inr hin => exact .inr hin

private theorem SessionsSafe.janitor {s : SessionState P} (h : SessionsSafe s)
    (env : SessionEnv) (k : String) :
    SessionsSafe (MyOwnMesh.dropPeer env { s with janitors := s.janitors.erase k } k) := by
  refine h.dropPeer env rfl rfl rfl fun d hd hpend ↦ ?_
  exact hpend.imp id (List.mem_erase_of_ne hd).mpr

private theorem SessionsSafe.closeFinished {s : SessionState P} (h : SessionsSafe s)
    (k : String) : SessionsSafe { s with closing := s.closing.filter (· ≠ k) } := by
  refine ⟨h.replays, fun d p hp ↦ (h.peer d p hp).mono id (fun hd ↦ ?_) id⟩
  exact (List.mem_filter.mp hd).1

/-! ### Runs -/

/-- Every step keeps the invariant, a ratification as far as it cuts the sessions it evicts. -/
theorem sessionsSafe_step {s : SessionState P} (h : SessionsSafe s)
    (o : SessionEnv × SessionOp) (hc : CutsSessions s o) : SessionsSafe (sessionStep s o) := by
  obtain ⟨env, op⟩ := o
  cases op with
  | govern op =>
    cases op with
    | adoptTransitionLog gov members => exact h.adoptLogs env gov members
    | propose variant => exact h.govern env (by simp) hc
    | signProposal id => exact h.govern env (by simp) hc
    | denyProposal id => exact h.govern env (by simp) hc
    | withdrawProposal id => exact h.govern env (by simp) hc
    | spawnSplit id => exact h.govern env (by simp) hc
    | onPropose peerId msg => exact h.govern env (by simp) hc
    | onAck peerId msg => exact h.govern env (by simp) hc
    | onSplit peerId msg => exact h.govern env (by simp) hc
  | sighted k =>
    simp only [sessionStep]
    split
    · exact h
    · exact h.insert_fresh (.inl rfl)
  | connect k session =>
    simp only [sessionStep]
    split
    · exact h
    · next hopen =>
      split
      · exact h
      · exact h.insert_fresh (.inr hopen)
  | dataChannelOpen k nonce => exact h.initiate k nonce
  | hello k msg => exact h.onHello env k msg
  | authResponse k signature => exact h.onAuthResponse env k signature
  | approve k => exact h.onApprove env k
  | deny k transitions memberLog =>
    simp only [sessionStep, SessionState.onDeny]
    split
    · exact h.drop env k
    · exact (h.adoptLogs env transitions memberLog).refresh.drop env k
  | sendLocalApprove k => exact h.of_keepsSessions (keepsSessions_sendLocalApprove env s k)
  | approveRoster k label => exact h.of_keepsSessions (keepsSessions_approveRoster env s k label)
  | rosterRemove k => exact h.rosterRemove env k
  | reevaluateTopology => exact h.of_keepsSessions (keepsSessions_reevaluateTopology env s)
  | dropPeer k => exact h.drop env k
  | queuedDrop =>
    simp only [sessionStep]
    split
    · exact h
    · next hq => exact h.queuedDrop env hq
  | janitor k =>
    simp only [sessionStep]
    split
    · exact h.janitor env k
    · exact h
  | closeFinished k => exact h.closeFinished k

/-- No peer that the signed state evicted is active or shelved, unless a drop of it is on its
way. -/
def NoEvictedSession (s : SessionState P) : Prop :=
  ∀ (k : String) (p : PeerState), s.peers[k]? = some p → logEvicted s.engine k = true →
    ¬ DropPending s k → p.status ≠ .active ∧ p.status ≠ .shelved

private theorem SessionsSafe.noEvictedSession {s : SessionState P} (h : SessionsSafe s) :
    NoEvictedSession s := by
  intro k p hp hev hpend
  have hsafe := h.peer k p hp
  have hest : p.established ≠ true := fun hest ↦ hpend (hsafe.cut (hsafe.established hest) hev)
  simp only [PeerState.established, ne_eq, Bool.or_eq_true, beq_iff_eq, not_or] at hest
  exact hest

/-- In every run whose ratifications cut the sessions they evict, no evicted peer is active or
shelved in any state where no drop of it is pending. -/
theorem evicted_session_lost {e : EngineState P} (he : Reachable e) (autoApprove : Bool)
    {ops : List (SessionEnv × SessionOp)}
    (hops : AllSteps sessionStep CutsSessions (.join e autoApprove) ops) :
    ∀ pre post, ops = pre ++ post →
      NoEvictedSession (run sessionStep (.join e autoApprove) pre) := by
  intro pre post hpre
  have hsafe := forall_run_of_allSteps (I := fun s : SessionState P ↦ SessionsSafe s)
    (fun _ o hs hc ↦ sessionsSafe_step hs o hc) (sessionsSafe_join he.replays autoApprove) hops
  exact (hsafe pre post hpre).noEvictedSession

/-! ### A concrete session -/

/-- A state with one peer, nothing pending and this engine. -/
structure OnePeer (s : SessionState P) (e : EngineState P) (k : String) (p : PeerState) :
    Prop where
  engine : s.engine = e
  auto : s.autoApprove = true
  closing : s.closing = []
  pending : s.queuedDrops = [] ∧ s.janitors = []
  peers : ∀ d, s.peers[d]? = if k = d then some p else none

private theorem OnePeer.modify {s : SessionState P} {e : EngineState P} {k : String}
    {p : PeerState} (h : OnePeer s e k p) (f : PeerState → PeerState) :
    OnePeer (s.modifyPeer k f) e k (f p) := by
  refine ⟨h.engine, h.auto, h.closing, h.pending, fun d ↦ ?_⟩
  rw [SessionState.modifyPeer, getElem?_modify_peer, h.peers]
  by_cases hd : k = d
  · simp [hd]
  · simp [hd]

/-- The one peer itself. -/
theorem OnePeer.self {s : SessionState P} {e : EngineState P} {k : String}
    {p : PeerState} (h : OnePeer s e k p) : s.peers[k]? = some p := by
  rw [h.peers, if_pos rfl]

/-- A selector that shelves nobody leaves an active peer alone. -/
private theorem OnePeer.reevaluate {s : SessionState P} {e : EngineState P} {k : String}
    {p : PeerState} (h : OnePeer s e k p) (env : SessionEnv)
    (hshelf : env.shelves = fun _ _ ↦ false) (hp : p.status = .active)
    (hl : p.localShelved = false) : OnePeer (reevaluateTopology env s) e k p := by
  have hsame : shelve false p = p := by
    obtain ⟨⟩ := p
    simp only at hp hl
    subst hp hl
    rfl
  unfold reevaluateTopology
  split
  · exact h
  · refine ⟨h.engine, h.auto, h.closing, h.pending, fun d ↦ ?_⟩
    simp only [Std.ExtTreeMap.getElem?_map, h.peers]
    by_cases hd : k = d
    · simp only [hd, ↓reduceIte, Option.map_some, hshelf, hsame, ite_self]
    · simp only [hd, ↓reduceIte, Option.map_none]

/-- An auth response that verifies from a device that is not evicted: our approve is out. -/
private theorem answered_handshake {s : SessionState P} {e : EngineState P} {env : SessionEnv}
    {k nonce signature fingerprint : String} {p : PeerState} (h : OnePeer s e k p)
    (hnonce : p.nonceSent = some nonce)
    (hsess : p.session.bind TransportSession.remoteFingerprint = some fingerprint)
    (hver : verify P k (handshakePayload nonce (pubkeyPart k) e.selfId fingerprint) signature =
      .ok true)
    (hev : logEvicted e k = false) (hsent : p.localApproveSent = false)
    (hseen : p.remoteApproveSeen = false) (hsend : env.sends k = true) :
    onAuthResponse env s k signature =
      (s.modifyPeer k fun q ↦
        { q with authenticated := true, status := .pendingApproval }).modifyPeer k fun q ↦
          { q with localApproveSent := true } := by
  have hauth := h.modify fun q ↦ { q with authenticated := true, status := .pendingApproval }
  have hlatched := hauth.modify fun q ↦ { q with localApproveSent := true }
  simp only [onAuthResponse, h.self, hnonce, hsess, h.engine, hver, hev, h.auto, Bool.true_or,
    Bool.false_eq_true, ↓reduceIte, sendLocalApprove, hauth.self, hsent, hsend, settleActivation,
    hlatched.self, hseen, Bool.and_false, Bool.false_and]

private theorem sessionStep_dataChannelOpen (env : SessionEnv) (s : SessionState P)
    (k nonce : String) : sessionStep s (env, .dataChannelOpen k nonce) =
      s.modifyPeer k fun p ↦ { p with status := .handshaking, nonceSent := some nonce } := rfl

private theorem sessionStep_authResponse (env : SessionEnv) (s : SessionState P)
    (k signature : String) : sessionStep s (env, .authResponse k signature) =
      onAuthResponse env s k signature := rfl

/-- Both approvals of an authenticated device that is not evicted. -/
private theorem OnePeer.activated {s : SessionState P} {e : EngineState P} {env : SessionEnv}
    {k : String} {p : PeerState} (h : OnePeer s e k p) (hev : logEvicted e k = false)
    (hshelf : env.shelves = fun _ _ ↦ false) (hl : p.localShelved = false)
    (hready : (p.authenticated && p.localApproveSent && p.remoteApproveSeen) = true)
    (hstatus : p.status = .pendingApproval) :
    OnePeer (settleActivation env s k)
      { e with roster := addPeerIn env.rosterNow e.roster k p.label } k
      { p with status := .active } := by
  have hpromoted := h.modify fun q ↦ { q with status := .active }
  have hrostered : OnePeer (approveRoster env (s.modifyPeer k fun q ↦ { q with status := .active })
      k p.label).1 { e with roster := addPeerIn env.rosterNow e.roster k p.label } k
      { p with status := .active } := by
    unfold approveRoster
    rw [hpromoted.engine, hev, if_neg (by decide)]
    exact ⟨rfl, hpromoted.auto, hpromoted.closing, hpromoted.pending, hpromoted.peers⟩
  have hsettle : settleActivation env s k = reevaluateTopology env (approveRoster env
      (s.modifyPeer k fun q ↦ { q with status := .active }) k p.label).1 := by
    unfold settleActivation
    simp [h.self, hready, hstatus]
  rw [hsettle]
  exact hrostered.reevaluate env hshelf rfl hl

/-- The frames of a whole handshake with one peer. -/
def handshakeOps (env : SessionEnv) (k nonce signature fingerprint : String) :
    List (SessionEnv × SessionOp) :=
  [(env, .connect k ⟨none, some fingerprint⟩), (env, .dataChannelOpen k nonce),
    (env, .authResponse k signature), (env, .approve k)]

/-- The peer at the end of it. -/
def activePeer (nonce fingerprint : String) : PeerState where
  status := .active
  authenticated := true
  localApproveSent := true
  remoteApproveSeen := true
  localShelved := false
  label := ""
  nonceSent := some nonce
  nonceReceived := none
  session := some ⟨none, some fingerprint⟩

/-- A device that is not evicted and signs the handshake becomes an active, rostered peer of an
auto-approving network. -/
theorem run_handshakeOps {e : EngineState P} {env : SessionEnv}
    {k nonce signature fingerprint : String} (hev : logEvicted e k = false)
    (hver : verify P k (handshakePayload nonce (pubkeyPart k) e.selfId fingerprint) signature =
      .ok true)
    (hsend : env.sends k = true) (hshelf : env.shelves = fun _ _ ↦ false) :
    OnePeer (run sessionStep (.join e true) (handshakeOps env k nonce signature fingerprint))
      { e with roster := addPeerIn env.rosterNow e.roster k "" } k
      (activePeer nonce fingerprint) := by
  -- The dialed peer.
  have h1 : OnePeer (sessionStep (.join e true) (env, .connect k ⟨none, some fingerprint⟩)) e k
      (.fresh (some ⟨none, some fingerprint⟩)) := by
    refine ⟨rfl, rfl, rfl, ⟨rfl, rfl⟩, fun d ↦ ?_⟩
    simp [sessionStep, SessionState.join, getElem?_insert_peer]
  -- The hello went out.
  have h2 := h1.modify fun p ↦ { p with status := .handshaking, nonceSent := some nonce }
  -- Its answer verifies, the gate lets it pass, and our approve leaves.
  have h3 := (h2.modify fun q ↦
    { q with authenticated := true, status := .pendingApproval }).modify fun q ↦
      { q with localApproveSent := true }
  have hanswer := answered_handshake h2 rfl rfl hver hev rfl rfl hsend
  -- Theirs makes the link active.
  have h4 := h3.modify fun p ↦ { p with remoteApproveSeen := true }
  have hdone := h4.activated hev hshelf rfl rfl rfl
  rw [handshakeOps, run_cons, run_cons, run_cons, run_cons, run_nil, sessionStep_dataChannelOpen,
    sessionStep_authResponse, hanswer]
  exact hdone

/-- A device of the concrete network that knows device 3 as a plain member. -/
def memberNode : EngineState seeded :=
  fleetNode 4 [seededEntry 1 3 (.roleGrant (seededDevice 3) .member)]

/-- A call in which every frame leaves, nobody is shelved and every close finishes. -/
def openLine (env : Env) : SessionEnv where
  toEnv := env
  sends _ := true
  shelves _ _ := false
  closeTimesOut _ := false

/-- Device 3 connects to it. -/
def memberHandshake : List (SessionEnv × SessionOp) :=
  handshakeOps (openLine (clearEnv 0 "")) (seededDevice 3) "nonce"
    (signWith seeded (3 : UInt8)
      (handshakePayload "nonce" (seededDevice 3) (seededDevice 4) "fingerprint")) "fingerprint"

/-- A proposal of the owner about device 3 arrives. -/
def ownerFrame (v : TransitionVariant) : SessionEnv × SessionOp :=
  (openLine (clearEnv 0 ""), .govern (ownerMessage "p" 9 v).2)

private theorem reachable_memberNode : Reachable memberNode := by
  refine ⟨"fleet", (4 : UInt8), "", .emptyFor "fleet", .fullMesh, [(clearEnv 0 "",
    .adoptTransitionLog fleetLog [seededEntry 1 3 (.roleGrant (seededDevice 3) .member)])], ?_⟩
  rw [run_cons, run_nil, memberNode, fleetNode, fleetStart]

/-- The ids of the concrete network are bare keys. -/
theorem pubkeyPart_seededDevice (seed : UInt8) :
    pubkeyPart (seededDevice seed) = seededDevice seed := pubkeyPart_publicId seeded seed

/-- What the node knows of device 3: a plain member that nothing removes. -/
private theorem memberNode_spec :
    memberNode.networkId = "fleet" ∧ memberNode.governance.kind = .closed ∧
      ¬ memberNode.governance.IsAuthority (seededDevice 3) ∧
      ∀ e, e ∈ memberNode.governance.memberLog ↔
        e = seededEntry 1 3 (.roleGrant (seededDevice 3) .member) := by
  obtain ⟨memberLog, hmem, hg, -⟩ :=
    fleetNode_spec 4 [seededEntry 1 3 (.roleGrant (seededDevice 3) .member)]
  have hn := (fleetNode_frame 4 [seededEntry 1 3 (.roleGrant (seededDevice 3) .member)]).1
  unfold memberNode
  refine ⟨hn, by rw [hg], ?_, fun e ↦ ?_⟩
  · rw [hg]
    unfold NetworkState.IsAuthority
    rw [projection_eq_controller_iff, projection_eq_owner_iff]
    simp [NetworkState.IsOwner]
  · rw [hg]
    simpa using hmem e

private theorem not_evicted_memberNode : logEvicted memberNode (seededDevice 3) = false := by
  obtain ⟨-, -, -, hlog⟩ := memberNode_spec
  rw [Bool.eq_false_iff]
  intro hev
  obtain ⟨-, -, e, he, -, hrem, -⟩ := logEvicted_iff.mp hev
  rw [(hlog e).mp he] at hrem
  rcases hrem with h | h <;> cases h

/-- Stated for any engine of device 4, so that nothing here evaluates the node. -/
theorem onePeer_memberHandshake {e : EngineState seeded}
    (hself : e.selfId = seededDevice 4) (hev : logEvicted e (seededDevice 3) = false) :
    OnePeer (run sessionStep (.join e true) memberHandshake)
      { e with
        roster := addPeerIn (openLine (clearEnv 0 "")).rosterNow e.roster (seededDevice 3) "" }
      (seededDevice 3) (activePeer "nonce" "fingerprint") := by
  have hver : verify seeded (seededDevice 3)
      (handshakePayload "nonce" (pubkeyPart (seededDevice 3)) e.selfId "fingerprint")
      (signWith seeded (3 : UInt8)
        (handshakePayload "nonce" (seededDevice 3) (seededDevice 4) "fingerprint")) =
        .ok true := by
    rw [pubkeyPart_seededDevice, hself]
    exact verify_signWith seeded (3 : UInt8) _
  have hsend : (openLine (clearEnv 0 "")).sends (seededDevice 3) = true := rfl
  exact run_handshakeOps hev hver hsend rfl

private theorem selfId_memberNode : memberNode.selfId = seededDevice 4 :=
  (fleetNode_frame 4 [seededEntry 1 3 (.roleGrant (seededDevice 3) .member)]).2.2

private theorem FleetIdle.withRoster {e : EngineState seeded} (h : FleetIdle e)
    (roster : Roster) : FleetIdle { e with roster := roster } :=
  ⟨h.networkId, h.replays, h.pending, h.owner⟩

private theorem fleetIdle_memberNode : FleetIdle memberNode :=
  fleetIdle_fleetNode 4 [seededEntry 1 3 (.roleGrant (seededDevice 3) .member)]

private theorem isAuthorized_addPeerIn (now : UInt64) (roster : Roster) (k label : String) :
    isAuthorized (addPeerIn now roster k label) k = true := by
  rw [isAuthorized_eq_isSome_row, row_addPeerIn]
  simp

/-- No frame of a handshake ratifies anything. -/
private theorem allSteps_memberHandshake (s : SessionState seeded) :
    AllSteps sessionStep CutsSessions s memberHandshake :=
  ⟨trivial, trivial, trivial, trivial, trivial⟩

private theorem cutsSessions_evict {s : SessionState seeded} {e : EngineState seeded}
    {p : PeerState} (hidle : FleetIdle e) (hone : OnePeer s e (seededDevice 3) p)
    (hrow : isAuthorized e.roster (seededDevice 3) = true) :
    CutsSessions s (ownerFrame (.evict (seededDevice 3))) := by
  intro t hby k q hq _ _ _
  rw [hone.peers] at hq
  split at hq
  · next hk =>
    rw [hone.engine] at hby
    have hrat := (hidle.governance_ownerMessage "p" 9 (v := .evict (seededDevice 3)) rfl).1
    have ht : t = seededEntry 1 9 (.evict (seededDevice 3)) :=
      Option.some.inj (hby.symm.trans hrat)
    refine .inr ⟨by rw [ht, variant_seededEntry, hk], ?_, fun _ ↦ rfl, fun _ ↦ rfl⟩
    rw [hone.engine, ← hk]
    exact hrow
  · cases hq

private theorem allSteps_evict {e : EngineState seeded} (hidle : FleetIdle e)
    (hself : e.selfId = seededDevice 4) (hev : logEvicted e (seededDevice 3) = false) :
    AllSteps sessionStep CutsSessions (.join e true)
      (memberHandshake ++ [ownerFrame (.evict (seededDevice 3))]) := by
  rw [allSteps_append_iff]
  refine ⟨allSteps_memberHandshake _, ?_, trivial⟩
  exact cutsSessions_evict (hidle.withRoster _) (onePeer_memberHandshake hself hev)
    (isAuthorized_addPeerIn _ _ _ _)

/-- The owner evicts the connected member. -/
theorem evicted_member_loses_session :
    AllSteps sessionStep CutsSessions (.join memberNode true)
        (memberHandshake ++ [ownerFrame (.evict (seededDevice 3))]) ∧
      NoEvictedSession (run sessionStep (.join memberNode true)
        (memberHandshake ++ [ownerFrame (.evict (seededDevice 3))])) := by
  have hall := allSteps_evict fleetIdle_memberNode selfId_memberNode not_evicted_memberNode
  exact ⟨hall, evicted_session_lost reachable_memberNode true hall _ []
    (List.append_nil _).symm⟩

private theorem ratifiedBy_of_cleanly {e : EngineState P} {o : Env × GovOp} {t : Transition}
    (h : ratifiedCleanly e o = some t) : ratifiedBy e o = some t := by
  unfold ratifiedCleanly at h
  rw [ratifiedBy_eq_some_iff]
  cases hid : (intake e o).2 with
  | error err => simp [hid] at h
  | ok r => cases r with
    | none => simp [hid] at h
    | some id =>
      refine ⟨id, rfl, ?_⟩
      simp only [hid] at h
      split at h
      · next hr _ => rwa [hr]
      · cases h

/-- The ratification of a revoke touches no session. -/
private theorem govern_of_revoke {env : SessionEnv} {s : SessionState P} {op : GovOp}
    {t : Transition} {x : String} (h : ratifiedBy s.engine (env.toEnv, op) = some t)
    (hv : t.variant = .roleRevoke x) :
    govern env s op = { s with engine := step s.engine (env.toEnv, op) } := by
  unfold govern
  simp only
  split
  · rfl
  · next u hu =>
    have hut : u = t := Option.some.inj ((ratifiedBy_of_cleanly hu).symm.trans h)
    rw [hut, hv]

private theorem evicted_by_revoke {e : EngineState seeded} (hidle : FleetIdle e)
    (hkind : e.governance.kind = .closed)
    (hauth : ¬ e.governance.IsAuthority (seededDevice 3))
    (hlog : ∀ t ∈ e.governance.memberLog, t.at_ < 9) :
    logEvicted (step e (ownerMessage "p" 9 (.roleRevoke (seededDevice 3)))) (seededDevice 3) =
      true := by
  have htier : memberTier e.governance (.roleRevoke (seededDevice 3)) = true := by
    have hrole : e.governance.roleOf (seededDevice 3) = .member := by
      unfold NetworkState.IsAuthority at hauth
      unfold NetworkState.roleOf
      cases hr : e.governance.roles[seededDevice 3]? with
      | none => rfl
      | some r => cases r <;> simp [hr] at hauth ⊢
    simp [memberTier, hrole]
  have hx : memberEntryTarget (seededEntry 1 9 (.roleRevoke (seededDevice 3))) =
      some (seededDevice 3) := rfl
  obtain ⟨hby, hgov⟩ := hidle.governance_ownerMessage "p" 9 hx
  obtain ⟨hafter, hmembers⟩ := hidle.member_message "p" 9 hx htier
  obtain ⟨v, hv⟩ := hidle.replays
  rw [← hidle.networkId] at hv
  rw [logEvicted_iff, pubkeyPart_seededDevice]
  refine ⟨?_, ?_, seededEntry 1 9 (.roleRevoke (seededDevice 3)), ?_, ⟨?_, ?_⟩, .inl rfl, ?_⟩
  · rw [hgov, routed_member seeded htier]
    exact hkind
  · unfold NetworkState.IsAuthority
    rw [role_step_of_ratified hv hby (by decide), role_step_of_ratified hv hby (by decide),
      variant_seededEntry, htier, if_pos rfl]
    exact hauth
  · rw [hmembers]
    simp
  · rw [hafter.networkId]
    exact verifyTransitionSignatures_signedBy seeded _ _ _ _
  · exact ⟨seededDevice 1, by simp, hafter.owner.isAuthority⟩
  · intro t ht _ hadm
    rw [hmembers, List.mem_append, List.mem_singleton] at ht
    cases ht with
    | inl ht => exact hlog t ht
    | inr ht =>
      rw [ht] at hadm
      cases hadm

private theorem not_noEvictedSession {env : SessionEnv} {s : SessionState P} {op : GovOp}
    {t : Transition} {x k : String} {p : PeerState}
    (hby : ratifiedBy s.engine (env.toEnv, op) = some t) (hv : t.variant = .roleRevoke x)
    (hev : logEvicted (step s.engine (env.toEnv, op)) k = true) (hp : s.peers[k]? = some p)
    (hactive : p.status = .active) (hpend : s.queuedDrops = [] ∧ s.janitors = []) :
    ¬ NoEvictedSession (govern env s op) := by
  rw [govern_of_revoke hby hv]
  intro hno
  refine (hno k p hp hev ?_).1 hactive
  unfold DropPending
  simp [hpend.1, hpend.2]

/-- A frame of the owner is a governance step of the engine. -/
private theorem sessionStep_ownerFrame (s : SessionState seeded) (v : TransitionVariant) :
    sessionStep s (ownerFrame v) =
      govern (openLine (clearEnv 0 "")) s (ownerMessage "p" 9 v).2 := rfl

private theorem ownerMessage_eta (v : TransitionVariant) :
    ((openLine (clearEnv 0 "")).toEnv, (ownerMessage "p" 9 v).2) = ownerMessage "p" 9 v := rfl

private theorem revoke_leaves_session {s : SessionState seeded} {e : EngineState seeded}
    {p : PeerState} (hidle : FleetIdle e) (hone : OnePeer s e (seededDevice 3) p)
    (hactive : p.status = .active) (hkind : e.governance.kind = .closed)
    (hauth : ¬ e.governance.IsAuthority (seededDevice 3))
    (hlog : ∀ t ∈ e.governance.memberLog, t.at_ < 9) :
    ¬ NoEvictedSession (sessionStep s (ownerFrame (.roleRevoke (seededDevice 3)))) := by
  have hx : memberEntryTarget (seededEntry 1 9 (.roleRevoke (seededDevice 3))) =
      some (seededDevice 3) := rfl
  have hv : (seededEntry 1 9 (.roleRevoke (seededDevice 3))).variant =
      .roleRevoke (seededDevice 3) := variant_seededEntry _ _ _
  have hevicted := evicted_by_revoke hidle hkind hauth hlog
  have hby := (hidle.governance_ownerMessage "p" 9 hx).1
  rw [← hone.engine, ← ownerMessage_eta] at hby hevicted
  rw [sessionStep_ownerFrame]
  exact not_noEvictedSession hby hv hevicted hone.self hactive hone.pending

private theorem handshake_revoke {e : EngineState seeded} (hidle : FleetIdle e)
    (hself : e.selfId = seededDevice 4) (hev : logEvicted e (seededDevice 3) = false)
    (hkind : e.governance.kind = .closed)
    (hauth : ¬ e.governance.IsAuthority (seededDevice 3))
    (hlog : ∀ t ∈ e.governance.memberLog, t.at_ < 9) :
    ¬ NoEvictedSession (run sessionStep (.join e true)
      (memberHandshake ++ [ownerFrame (.roleRevoke (seededDevice 3))])) := by
  have hactive : (activePeer "nonce" "fingerprint").status = .active := rfl
  rw [run_append, run_cons, run_nil]
  exact revoke_leaves_session (hidle.withRoster _) (onePeer_memberHandshake hself hev) hactive
    hkind hauth hlog

/-- The owner revokes the connected member instead. The revoke is a tombstone, so the signed
state evicts the device, but its session stays active and nothing will drop it. -/
theorem revoked_member_keeps_session :
    Reachable memberNode ∧
      ¬ NoEvictedSession (run sessionStep (.join memberNode true)
        (memberHandshake ++ [ownerFrame (.roleRevoke (seededDevice 3))])) := by
  obtain ⟨-, hkind, hauth, hlog⟩ := memberNode_spec
  refine ⟨reachable_memberNode, handshake_revoke fleetIdle_memberNode selfId_memberNode
    not_evicted_memberNode hkind hauth fun t ht ↦ ?_⟩
  rw [(hlog t).mp ht]
  show (3 : UInt64) < 9
  decide

end MyOwnMesh
