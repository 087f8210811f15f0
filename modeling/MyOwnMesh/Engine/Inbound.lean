import MyOwnMesh.Engine.Coherence

/-!
# Frames from peers and the Silent kind

`crates/myownmesh-core/src/engine/governance.rs:427–895`, `:1017–1034` and
`handshake.rs:521–541`. Everything a peer can send that reaches the governance state or the
roster. A ratification never moves a network into or out of Silent; an adopted governance
log always does move it out, because it is replayed from an open genesis.
-/

namespace MyOwnMesh

open Lib Lib.Replay

/-- A roster row as gossip carries it; `protocol/governance.rs:208–221`. -/
structure RosterEntry where
  deviceId : String
  label : String
  approvedAt : UInt64
  role : Role
  grantedBy : String
  deriving DecidableEq, Repr

/-- A peer's summary of its governance state; `protocol/governance.rs:46–66`. -/
structure StateBroadcast where
  kind : NetworkKind
  transitionsCount : UInt32
  memberLogCount : UInt32
  rosterRoot : String

/-- A frame that reaches the governance state or the roster. -/
inductive Inbound where
  | propose (msg : ProposeMessage)
  | ack (msg : AckMessage)
  | split (msg : SplitMessage)
  | stateBroadcast (msg : StateBroadcast)
  | rosterEntries (entries : List RosterEntry) (transitions memberLog : List Transition)
  | deny (reason : Option String) (transitions memberLog : List Transition)

/-- One gossiped row merged into the roster of an open network; the loop body of
`governance.rs:836–857`. -/
def mergeRosterEntry (now : UInt64) (selfPk : String) (roster : Roster) (entry : RosterEntry) :
    Roster :=
  let pubkey := pubkeyPart entry.deviceId
  if pubkey = selfPk then roster
  else if isAuthorized roster pubkey then roster
  else
    let added := addPeerIn now roster pubkey entry.label
    if entry.role ≠ .member then (setRoleIn added pubkey entry.role).1 else added

variable {P : Primitives}

/-- A peer's roster arrives: its rows count on open governance only, its signed logs
everywhere; `governance.rs:803–895`. -/
def onRosterEntries (env : Env) (s : EngineState P) (entries : List RosterEntry)
    (transitions memberLog : List Transition) : EngineState P :=
  let merged :=
    if s.governance.kind.isOpenGovernance then
      { s with roster := entries.foldl (mergeRosterEntry env.rosterNow s.selfId) s.roster }
    else s
  adoptTransitionLog env merged transitions memberLog

/-- A peer denies us, perhaps with its signed logs as proof; `handshake.rs:521–541` and
`governance.rs:1024–1035`. -/
def onDeny (env : Env) (s : EngineState P) (transitions memberLog : List Transition) :
    EngineState P :=
  if transitions ≠ [] ∨ memberLog ≠ [] then
    refreshSelfEvicted (adoptTransitionLog env s transitions memberLog)
  else s

/-- The state after one frame of a peer. A state broadcast only makes the node ask for the
sender's roster. -/
def receive (s : EngineState P) (f : Env × String × Inbound) : EngineState P :=
  match f.2.2 with
  | .propose msg => onPropose f.1 s f.2.1 msg
  | .ack msg => onAck f.1 s f.2.1 msg
  | .split msg => onSplit s f.2.1 msg
  | .stateBroadcast _ => s
  | .rosterEntries entries transitions memberLog =>
    onRosterEntries f.1 s entries transitions memberLog
  | .deny _ transitions memberLog => onDeny f.1 s transitions memberLog

/-- The network is silent: no dialling on presence; `engine/state.rs:1718–1729`. -/
def isSilent (s : EngineState P) : Bool := s.governance.kind == .silent

/-- The network gossips its roster; `engine/state.rs:1731–1738`. -/
def gossipRosterEnabled (s : EngineState P) : Bool := !isSilent s

/-! ### Ratified entries keep the kind apart from Silent -/

private theorem kindAfter_eq_silent_iff {s : NetworkState} {t : Transition}
    (hq : QuorumMet s t) : kindAfter s.kind t = .silent ↔ s.kind = .silent := by
  unfold QuorumMet at hq
  unfold kindAfter
  cases hv : t.variant with
  | kindChange to_ =>
    simp only [hv] at hq
    cases to_ with
    | «open» => simp [hq.1]
    | closed => simp [hq.1]
    | silent => exact absurd hq id
  | _ => rfl

/-- A ratified entry neither makes a network silent nor ends its silence. -/
theorem kind_routed_eq_silent_iff {networkId : String} {gov : NetworkState}
    {t : Transition} (hq : QuorumMet gov t) :
    (routed P networkId gov t).kind = .silent ↔ gov.kind = .silent := by
  rw [kind_routed]
  exact kindAfter_eq_silent_iff hq

/-! ### Adopted logs leave Silent -/

variable (P) in
/-- A governance log that an adoption would take in place of ours: it passes the fork guard
and verifies from genesis. -/
def AdoptableLog (networkId : String) (ours incoming : List Transition) : Prop :=
  extendsLog ours incoming = true ∧ ∃ v, verifyLog P networkId incoming = .ok v

/-- An adoption takes exactly the adoptable logs. -/
theorem adoptGovernanceLog_of_adoptable {networkId : String} {gov v : NetworkState}
    {incoming : List Transition} (hext : extendsLog gov.transitions incoming = true)
    (hv : verifyLog P networkId incoming = .ok v) :
    adoptGovernanceLog P networkId gov incoming =
      { gov with
        kind := v.kind
        transitions := incoming
        splits := v.splits
        topology := v.topology } := by
  have hlen : gov.transitions.length < v.transitions.length := by
    rw [transitions_verifyLog P hv]
    exact length_lt_of_extendsLog hext
  rw [adoptGovernanceLog, if_pos hext, hv]
  simp only [hlen, ↓reduceIte]
  rw [transitions_verifyLog P hv]

/-- An adoption takes its kind from the governance log. -/
theorem kind_adopted (env : Env) (s : EngineState P)
    (transitions memberLog : List Transition) :
    (adoptTransitionLog env s transitions memberLog).governance.kind =
      (adoptGovernanceLog P s.networkId s.governance transitions).kind := by
  have hmember : ∀ g : NetworkState, (adoptMemberLog g memberLog).kind = g.kind := by
    intro g
    unfold adoptMemberLog
    split
    · rfl
    · simp only
      split <;> rfl
  rw [governance_adoptTransitionLog]
  simp only [adoptedGovernance]
  split
  · exact hmember _
  · exact hmember _

/-- An adoption leaves a network silent exactly when it was and no log was taken. -/
theorem silent_adopt_iff (env : Env) (s : EngineState P)
    (transitions memberLog : List Transition) :
    (adoptTransitionLog env s transitions memberLog).governance.kind = .silent ↔
      s.governance.kind = .silent ∧
        ¬ AdoptableLog P s.networkId s.governance.transitions transitions := by
  rw [kind_adopted]
  by_cases ha : AdoptableLog P s.networkId s.governance.transitions transitions
  · obtain ⟨hext, v, hv⟩ := id ha
    rw [adoptGovernanceLog_of_adoptable hext hv]
    have hkind : v.kind ≠ .silent := kind_ne_silent P hv
    exact iff_of_false hkind fun h ↦ h.2 ha
  · cases adoptGovernanceLog_cases (P := P) s.networkId s.governance transitions with
    | inl hold =>
      rw [hold]
      simp [ha]
    | inr hnew =>
      obtain ⟨u, hext, hu, -⟩ := hnew
      exact absurd ⟨hext, u, hu⟩ ha

/-! ### Runs of frames -/

/-- The frame carries no governance log that this node would adopt. -/
def CarriesNoLog (s : EngineState P) (f : Env × String × Inbound) : Prop :=
  match f.2.2 with
  | .rosterEntries _ transitions _ =>
    ¬ AdoptableLog P s.networkId s.governance.transitions transitions
  | .deny _ transitions _ =>
    ¬ AdoptableLog P s.networkId s.governance.transitions transitions
  | _ => True

private theorem silent_settle_iff (s : EngineState P) (o : Env × GovOp) :
    (settle o.1 s (intake s o)).1.governance.kind = .silent ↔ s.governance.kind = .silent := by
  obtain ⟨pending, hg⟩ := governance_settle s o
  rw [hg]
  cases hby : ratifiedBy s o with
  | none => exact Iff.rfl
  | some t => exact kind_routed_eq_silent_iff (ratifiedBy_eq_some hby).2

private theorem kind_onSplit (s : EngineState P) (peerId : String) (msg : SplitMessage) :
    (onSplit s peerId msg).governance.kind = s.governance.kind := by
  unfold onSplit
  split
  · rfl
  · split
    · split
      · rfl
      · simp only [kind_applyTransition]
        rfl
    · rfl

/-- A frame leaves a network silent exactly when it was and no log came with it. -/
theorem silent_receive_iff (s : EngineState P) (f : Env × String × Inbound) :
    (receive s f).governance.kind = .silent ↔
      s.governance.kind = .silent ∧ CarriesNoLog s f := by
  obtain ⟨env, peerId, frame⟩ := f
  cases frame with
  | propose msg =>
    rw [CarriesNoLog, and_true]
    exact silent_settle_iff s (env, .onPropose peerId msg)
  | ack msg =>
    rw [CarriesNoLog, and_true]
    exact silent_settle_iff s (env, .onAck peerId msg)
  | split msg =>
    rw [CarriesNoLog, and_true, receive, kind_onSplit]
  | stateBroadcast msg => simp [receive, CarriesNoLog]
  | rosterEntries entries transitions memberLog =>
    simp only [receive, onRosterEntries, silent_adopt_iff, CarriesNoLog]
    split <;> exact Iff.rfl
  | deny reason transitions memberLog =>
    simp only [receive, onDeny, CarriesNoLog]
    split
    · exact silent_adopt_iff env s transitions memberLog
    · next hempty =>
      -- A deny without logs has none to adopt.
      have hnil : transitions = [] := by
        by_contra hne
        exact hempty (.inl hne)
      have hno : ¬ AdoptableLog P s.networkId s.governance.transitions transitions := by
        rintro ⟨hext, -⟩
        have hlen := length_lt_of_extendsLog hext
        rw [hnil] at hlen
        simp at hlen
      simp [hno]

/-- After any sequence of frames a network is silent exactly when it was before and no frame
carried a governance log that the node would adopt. -/
theorem stays_silent_iff (s : EngineState P) (frames : List (Env × String × Inbound)) :
    (run receive s frames).governance.kind = .silent ↔
      s.governance.kind = .silent ∧ AllSteps receive CarriesNoLog s frames := by
  induction frames generalizing s with
  | nil => simp [run_nil, AllSteps]
  | cons f rest ih => rw [run_cons, ih, silent_receive_iff, AllSteps, and_assoc]

private theorem kind_rosterEntries (env : Env) (s : EngineState P) (peerId : String)
    (entries : List RosterEntry) (transitions memberLog : List Transition) :
    (receive s (env, peerId, .rosterEntries entries transitions memberLog)).governance.kind =
      (adoptGovernanceLog P s.networkId s.governance transitions).kind := by
  simp only [receive, onRosterEntries, kind_adopted]
  split <;> rfl

/-- A silent node that has just joined. -/
def silentNode : EngineState seeded :=
  { fleetStart 3 with governance := { NetworkState.emptyFor "fleet" with kind := .silent } }

/-- A peer answers the silent node with the log of a closed network, and the node turns
closed: it dials on presence and gossips its roster from then on. -/
theorem silent_node_turned_closed :
    isSilent silentNode = true ∧
      (run receive silentNode [(clearEnv 0 "", seededDevice 1, .rosterEntries [] fleetLog [])
        ]).governance.kind = .closed ∧
      gossipRosterEnabled (run receive silentNode
        [(clearEnv 0 "", seededDevice 1, .rosterEntries [] fleetLog [])]) = true := by
  have hkind : (run receive silentNode [(clearEnv 0 "", seededDevice 1,
      .rosterEntries [] fleetLog [])]).governance.kind = .closed := by
    have hext : extendsLog silentNode.governance.transitions fleetLog = true := by
      simp [silentNode, extendsLog, fleetLog, NetworkState.emptyFor]
    have hn : silentNode.networkId = "fleet" := rfl
    rw [run_cons, run_nil, kind_rosterEntries, hn,
      adoptGovernanceLog_of_adoptable hext verifyLog_fleetLog, kind_fleet]
  refine ⟨rfl, hkind, ?_⟩
  rw [gossipRosterEnabled, isSilent, hkind]
  rfl

end MyOwnMesh
