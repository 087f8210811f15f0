import MyOwnMesh.Authority.Owners
import MyOwnMesh.Engine.Evictions
import MyOwnMesh.Engine.Inbound
import MyOwnMesh.Engine.Reconcile

/-!
# Starting a network from its config

`NetworkState::new` of `crates/myownmesh-core/src/engine/state.rs:693–760` and the start of the
driver in `engine/mod.rs:117–128`. A network without persisted state takes its kind from the
config; its signed log starts empty whatever the kind. The runs of such a network step the
governance state in one way only, so whether a closed network has an owner is decided entry by
entry.
-/

namespace MyOwnMesh

open Lib Lib.Replay

variable {P : Primitives}

/-! ### The start -/

/-- The fields of a network's config that its start reads; `config.rs:243–280`. -/
structure NetworkConfig where
  networkId : String
  kind : NetworkKind
  topology : TopologyMode

/-- Build a network from its config and what was loaded from disk; `engine/state.rs:693–760`.
The config's kind seeds a log nobody has written to, and on closed governance the roster is
repaired from the signed projection. -/
def EngineState.new (now : UInt64) (signingKey : P.SigningKey) (label : String)
    (config : NetworkConfig) (loaded : NetworkState) (roster : Roster) : EngineState P :=
  let seeded :=
    if loaded.transitions = [] ∧ loaded.kind = .open then { loaded with kind := config.kind }
    else loaded
  let start (gov : NetworkState) (roster : Roster) : EngineState P :=
    { networkId := config.networkId
      signingKey := signingKey
      label := label
      governance := gov
      roster := roster
      topology := gov.topology.getD config.topology
      selfEvicted := false }
  if seeded.kind.isOpenGovernance then start seeded roster
  else
    match reconcileSignedProjection P now config.networkId seeded roster
      (start seeded roster).selfId with
    | .ok (gov, repaired, _) => start gov repaired
    | .error _ => start seeded roster

/-- The driver of a network that nothing was persisted for; `network_state.rs:1049–1053` and
`engine/mod.rs:117–128`. -/
def bootstrap (now : UInt64) (signingKey : P.SigningKey) (label : String)
    (config : NetworkConfig) : EngineState P :=
  refreshSelfEvicted (EngineState.new now signingKey label config (.emptyFor config.networkId)
    (.emptyFor config.networkId))

/-- One step of a running network: a step of its sessions and its governance, or the rows of a
peer's roster. -/
inductive NetworkOp where
  | session (o : SessionOp)
  | rosterGossip (entries : List RosterEntry)

/-- The state after one step; gossiped rows count on open governance only
(`governance.rs:826–862`). -/
def networkStep (s : SessionState P) (o : SessionEnv × NetworkOp) : SessionState P :=
  match o.2 with
  | .session op => sessionStep s (o.1, op)
  | .rosterGossip entries =>
    if s.engine.governance.kind.isOpenGovernance then
      { s with engine := { s.engine with
          roster := entries.foldl (mergeRosterEntry o.1.rosterNow s.engine.selfId)
            s.engine.roster } }
    else s

/-- The governance operation a step performs, if any. -/
def NetworkOp.governs : NetworkOp → Option GovOp
  | .session (.govern op) => some op
  | .session (.deny _ transitions memberLog) =>
    if transitions = [] ∧ memberLog = [] then none
    else some (.adoptTransitionLog transitions memberLog)
  | _ => none

/-! ### Where the governance state moves -/

/-- The same network with the same governance state. -/
structure SameGovernance (s t : SessionState P) : Prop where
  networkId : t.engine.networkId = s.engine.networkId
  governance : t.engine.governance = s.engine.governance

/-- Keeping the governance state composes. -/
theorem SameGovernance.trans {s t u : SessionState P} (h : SameGovernance s t)
    (h' : SameGovernance t u) : SameGovernance s u :=
  ⟨h'.networkId.trans h.networkId, h'.governance.trans h.governance⟩

/-- Steps that keep the sessions keep it. -/
theorem KeepsSessions.sameGovernance {s t : SessionState P} (h : KeepsSessions s t) :
    SameGovernance s t := ⟨h.networkId, h.governance⟩

/-- Tearing a peer down leaves the governance state alone. -/
theorem sameGovernance_dropPeer (env : SessionEnv) (s : SessionState P) (k : String) :
    SameGovernance s (dropPeer env s k) := by
  unfold dropPeer
  split
  · exact ⟨rfl, rfl⟩
  · split
    · exact ⟨rfl, rfl⟩
    · next p hp =>
      have hshape := (keepsSessions_reevaluateTopology env { s with
        peers := s.peers.erase k
        closing := if p.session.isSome && env.closeTimesOut k then s.closing ++ [k]
          else s.closing }).sameGovernance
      exact ⟨hshape.networkId, hshape.governance⟩

/-- So does a hello. -/
theorem sameGovernance_onHello (env : SessionEnv) (s : SessionState P) (k : String)
    (msg : HelloMessage) : SameGovernance s (onHello env s k msg) := by
  have hnoted : SameGovernance s (s.modifyPeer k fun p ↦
      { p with nonceReceived := some msg.nonce, label := msg.label }) := ⟨rfl, rfl⟩
  unfold onHello
  split
  · exact sameGovernance_dropPeer env s k
  · simp only
    split
    · exact hnoted.trans (sameGovernance_dropPeer env _ k)
    · split
      · exact hnoted.trans (sameGovernance_dropPeer env _ k)
      · exact hnoted

/-- An auth response. -/
theorem sameGovernance_onAuthResponse (env : SessionEnv) (s : SessionState P)
    (k signature : String) : SameGovernance s (onAuthResponse env s k signature) := by
  unfold onAuthResponse
  split
  · exact ⟨rfl, rfl⟩
  · split
    · exact ⟨rfl, rfl⟩
    · split
      · exact sameGovernance_dropPeer env s k
      · split
        · split
          · exact (foldl_denyIfEvicted [k] s).2.2.1.sameGovernance
          · have hauth : SameGovernance s (s.modifyPeer k fun q ↦
                { q with authenticated := true, status := .pendingApproval }) := ⟨rfl, rfl⟩
            simp only
            split
            · exact hauth.trans (keepsSessions_sendLocalApprove env _ k).sameGovernance
            · exact hauth
        · exact sameGovernance_dropPeer env s k

/-- An approve, which may make a peer active. -/
theorem sameGovernance_onApprove (env : SessionEnv) (s : SessionState P) (k : String) :
    SameGovernance s (onApprove env s k) := by
  have hseen : SameGovernance s (s.modifyPeer k fun p ↦ { p with remoteApproveSeen := true }) :=
    ⟨rfl, rfl⟩
  exact hseen.trans (keepsSessions_settleActivation env _ k).sameGovernance

/-- And a removal from the roster. -/
theorem sameGovernance_rosterRemove (env : SessionEnv) (s : SessionState P) (k : String) :
    SameGovernance s (rosterRemove env s k).1 := by
  unfold rosterRemove
  simp only
  split
  · exact ⟨rfl, rfl⟩
  · exact ⟨rfl, rfl⟩
  · split <;> exact ⟨rfl, rfl⟩

/-- An adoption with its approvals and denials moves the governance state as the adoption
does. -/
theorem governance_adoptLogs (env : SessionEnv) (s : SessionState P)
    (incomingGov incomingMembers : List Transition) :
    (adoptLogs env s incomingGov incomingMembers).engine.networkId = s.engine.networkId ∧
      (adoptLogs env s incomingGov incomingMembers).engine.governance =
        (adoptTransitionLog env.toEnv s.engine incomingGov incomingMembers).governance := by
  have hn : (adoptTransitionLog env.toEnv s.engine incomingGov incomingMembers).networkId =
      s.engine.networkId :=
    (step_frame s.engine (env.toEnv, .adoptTransitionLog incomingGov incomingMembers)).1
  unfold adoptLogs
  simp only
  split
  · exact ⟨hn, rfl⟩
  · next projected removed hproj =>
    have hdone : ∀ (base : SessionState P) {final : SessionState P}, KeepsSessions base final →
        base.engine.networkId = s.engine.networkId →
        base.engine.governance =
          (adoptTransitionLog env.toEnv s.engine incomingGov incomingMembers).governance →
        (refreshSelfEvicted final.engine).networkId = s.engine.networkId ∧
          (refreshSelfEvicted final.engine).governance =
            (adoptTransitionLog env.toEnv s.engine incomingGov incomingMembers).governance :=
      fun _ _ h hn hg ↦ ⟨h.networkId.trans hn, h.governance.trans hg⟩
    refine hdone { s with engine :=
      { adoptTransitionLog env.toEnv s.engine incomingGov incomingMembers with
        selfEvicted := s.engine.selfEvicted } } ?_ hn rfl
    have happroved : ∀ (base : SessionState P) (c : Prop) (_ : Decidable c),
        KeepsSessions base (projected.keys.foldl (sendLocalApprove env)
          (if c then reevaluateTopology env base else base)) := by
      intro base c _
      refine .trans ?_ (keepsSessions_foldl (keepsSessions_sendLocalApprove env) _ _)
      split
      · exact keepsSessions_reevaluateTopology env base
      · exact .refl base
    split
    · exact .trans (happroved _ _ _) (foldl_denyIfEvicted _ _).2.2.1
    · exact happroved _ _ _

/-- Every step leaves the governance state alone or moves it as the governance operation it
performs. -/
theorem governance_networkStep (s : SessionState P) (o : SessionEnv × NetworkOp) :
    (networkStep s o).engine.networkId = s.engine.networkId ∧
      (networkStep s o).engine.governance =
        match o.2.governs with
        | none => s.engine.governance
        | some op => (step s.engine (o.1.toEnv, op)).governance := by
  obtain ⟨env, op⟩ := o
  have hsame : ∀ {t : SessionState P}, SameGovernance s t →
      t.engine.networkId = s.engine.networkId ∧ t.engine.governance = s.engine.governance :=
    fun h ↦ ⟨h.networkId, h.governance⟩
  cases op with
  | rosterGossip entries =>
    simp only [networkStep, NetworkOp.governs]
    split <;> exact ⟨rfl, rfl⟩
  | session op =>
    cases op with
    | govern op =>
      have hlocal := (govern_frame env s op).1
      have hn := (step_frame s.engine (env.toEnv, op)).1
      cases op with
      | adoptTransitionLog gov members => exact governance_adoptLogs env s gov members
      | propose variant =>
        exact ⟨(congrArg _ hlocal).trans hn, congrArg EngineState.governance hlocal⟩
      | signProposal id =>
        exact ⟨(congrArg _ hlocal).trans hn, congrArg EngineState.governance hlocal⟩
      | denyProposal id =>
        exact ⟨(congrArg _ hlocal).trans hn, congrArg EngineState.governance hlocal⟩
      | withdrawProposal id =>
        exact ⟨(congrArg _ hlocal).trans hn, congrArg EngineState.governance hlocal⟩
      | spawnSplit id =>
        exact ⟨(congrArg _ hlocal).trans hn, congrArg EngineState.governance hlocal⟩
      | onPropose peerId msg =>
        exact ⟨(congrArg _ hlocal).trans hn, congrArg EngineState.governance hlocal⟩
      | onAck peerId msg =>
        exact ⟨(congrArg _ hlocal).trans hn, congrArg EngineState.governance hlocal⟩
      | onSplit peerId msg =>
        exact ⟨(congrArg _ hlocal).trans hn, congrArg EngineState.governance hlocal⟩
    | sighted k =>
      simp only [networkStep, sessionStep, NetworkOp.governs]
      split <;> exact ⟨rfl, rfl⟩
    | connect k session =>
      simp only [networkStep, sessionStep, NetworkOp.governs]
      split
      · exact ⟨rfl, rfl⟩
      · split <;> exact ⟨rfl, rfl⟩
    | dataChannelOpen k nonce => exact ⟨rfl, rfl⟩
    | hello k msg => exact hsame (sameGovernance_onHello env s k msg)
    | authResponse k signature => exact hsame (sameGovernance_onAuthResponse env s k signature)
    | approve k => exact hsame (sameGovernance_onApprove env s k)
    | deny k transitions memberLog =>
      simp only [networkStep, sessionStep, SessionState.onDeny, NetworkOp.governs]
      split
      · have hdrop := sameGovernance_dropPeer env s k
        exact ⟨hdrop.networkId, hdrop.governance⟩
      · obtain ⟨hn, hg⟩ := governance_adoptLogs env s transitions memberLog
        have hdrop := sameGovernance_dropPeer env
          { adoptLogs env s transitions memberLog with
            engine := refreshSelfEvicted (adoptLogs env s transitions memberLog).engine } k
        exact ⟨hdrop.networkId.trans hn, hdrop.governance.trans hg⟩
    | sendLocalApprove k => exact hsame (keepsSessions_sendLocalApprove env s k).sameGovernance
    | approveRoster k label =>
      exact hsame (keepsSessions_approveRoster env s k label).sameGovernance
    | rosterRemove k => exact hsame (sameGovernance_rosterRemove env s k)
    | reevaluateTopology => exact hsame (keepsSessions_reevaluateTopology env s).sameGovernance
    | dropPeer k => exact hsame (sameGovernance_dropPeer env s k)
    | queuedDrop =>
      simp only [networkStep, sessionStep, NetworkOp.governs]
      split
      · exact ⟨rfl, rfl⟩
      · next k rest hq =>
        have hdrop := sameGovernance_dropPeer env { s with queuedDrops := rest } k
        exact ⟨hdrop.networkId, hdrop.governance⟩
    | janitor k =>
      simp only [networkStep, sessionStep, NetworkOp.governs]
      split
      · have hdrop := sameGovernance_dropPeer env { s with janitors := s.janitors.erase k } k
        exact ⟨hdrop.networkId, hdrop.governance⟩
      · exact ⟨rfl, rfl⟩
    | closeFinished k => exact ⟨rfl, rfl⟩

/-! ### A closed network and its owner -/

/-- Closed governance rests on a log that verifies as closed, and somebody owns it. -/
def ClosedHasOwner (e : EngineState P) : Prop :=
  e.governance.kind = .closed →
    (∃ v, verifyLog P e.networkId e.governance.transitions = .ok v ∧ v.kind = .closed) ∧
      Owned e.governance

/-- The log replays, or the network is still silent as its config said. -/
def LogReplays (e : EngineState P) : Prop :=
  (∃ v, ReplaysTo P e.networkId e.governance v) ∨ e.governance.kind = .silent

/-- Where the log replays, the owner is all there is to ask for. -/
theorem closedHasOwner_iff {e : EngineState P} (h : LogReplays e) :
    ClosedHasOwner e ↔ (e.governance.kind = .closed → Owned e.governance) := by
  refine ⟨fun hall hk ↦ (hall hk).2, fun howned hk ↦ ⟨?_, howned hk⟩⟩
  rcases h with ⟨v, hv⟩ | hs
  · exact ⟨v, hv.replay, hv.kind.symm.trans hk⟩
  · rw [hk] at hs
    cases hs

/-- The operation takes the seat of no last owner: an entry it ratifies on closed governance
rides the member log or leaves an owner, and a log it would adopt never unseats the last owner
of the closed state it has come to. -/
def KeepsSeats (e : EngineState P) (env : Env) : GovOp → Prop
  | .adoptTransitionLog incoming _ =>
    AdoptableLog P e.networkId e.governance.transitions incoming →
      ∀ pre t post m, incoming = pre ++ t :: post → verifyLog P e.networkId pre = .ok m →
        m.kind = .closed → ¬ UnseatsLastOwner m t
  | op => ∀ t, ratifiedBy e (env, op) = some t → e.governance.kind = .closed →
      memberTier e.governance t.variant = true ∨ ¬ UnseatsLastOwner e.governance t

private theorem not_adoptable_of_kept {networkId : String} {gov : NetworkState}
    {incoming : List Transition} (h : adoptGovernanceLog P networkId gov incoming = gov) :
    ¬ AdoptableLog P networkId gov.transitions incoming := by
  rintro ⟨hext, v, hv⟩
  have hlen := length_lt_of_extendsLog hext
  rw [adoptGovernanceLog_of_adoptable hext hv] at h
  have hlog : incoming = gov.transitions := congrArg NetworkState.transitions h
  rw [hlog] at hlen
  exact Nat.lt_irrefl _ hlen

/-- No operation makes a network that is neither replayed nor silent. -/
theorem logReplays_step {e : EngineState P} (h : LogReplays e) (o : Env × GovOp) :
    LogReplays (step e o) := by
  rcases h with hv | hs
  · exact .inl (replays_step o hv)
  · obtain ⟨env, op⟩ := o
    have hn := (step_frame e (env, op)).1
    by_cases hop : ∃ gov members, op = .adoptTransitionLog gov members
    · obtain ⟨gov, members, rfl⟩ := hop
      rcases adoptGovernanceLog_cases (P := P) e.networkId e.governance gov with
        hold | ⟨u, -, hu, hnew⟩
      · right
        show (adoptTransitionLog env e gov members).governance.kind = .silent
        rw [silent_adopt_iff]
        exact ⟨hs, not_adoptable_of_kept hold⟩
      · left
        refine ⟨u, ?_⟩
        rw [hn]
        show ReplaysTo P e.networkId (adoptTransitionLog env e gov members).governance u
        rw [governance_adoptTransitionLog]
        exact replays_of_adoptable members hu hnew
    · right
      have heff : LocalEffect e (env, op) (step e (env, op)).governance :=
        localEffect_step e env fun gov members heq ↦ hop ⟨gov, members, heq⟩
      generalize (step e (env, op)).governance = g at heff
      cases heff with
      | quiet pending _ => exact hs
      | ratify t pending _ _ hq => exact (kind_routed_eq_silent_iff hq).mpr hs
      | split t pending n ms _ hv _ _ =>
        show (applyTransition e.governance t).kind = .silent
        rw [kind_applyTransition, kindAfter, hv]
        exact hs

/-- The kind after an operation that ratifies an entry. -/
private theorem kind_step_of_ratified {e : EngineState P} {o : Env × GovOp} {t : Transition}
    (h : ratifiedBy e o = some t) :
    (step e o).governance.kind =
      if memberTier e.governance t.variant then e.governance.kind
      else (applyTransition e.governance t).kind := by
  obtain ⟨-, -, pending, hg⟩ := governance_step_of_ratified h
  rw [hg]
  show (routed P e.networkId e.governance t).kind = _
  cases htier : memberTier e.governance t.variant with
  | true =>
    rw [routed_member P htier]
    rfl
  | false =>
    by_cases he : ∃ x, t.variant = .evict x
    · obtain ⟨x, hx⟩ := he
      rw [routed_evict P htier hx]
      rfl
    · rw [routed_governance P htier fun x hx ↦ he ⟨x, hx⟩]
      rfl

/-- An operation that ratifies an entry keeps an owner unless it takes the last seat. -/
private theorem owned_ratified_iff {e : EngineState P} {v : NetworkState}
    (hv : ReplaysTo P e.networkId e.governance v)
    (howned : e.governance.kind = .closed → Owned e.governance) {o : Env × GovOp}
    {t : Transition} (h : ratifiedBy e o = some t) :
    ((step e o).governance.kind = .closed → Owned (step e o).governance) ↔
      (e.governance.kind = .closed →
        memberTier e.governance t.variant = true ∨ ¬ UnseatsLastOwner e.governance t) := by
  have hkind := kind_step_of_ratified h
  have howner := fun d ↦ role_step_of_ratified hv h (r := .owner) (by decide) d
  obtain ⟨-, hq⟩ := ratifiedBy_eq_some h
  cases htier : memberTier e.governance t.variant with
  | true =>
    simp only [htier, ↓reduceIte] at hkind howner
    have hsame : Owned (step e o).governance ↔ Owned e.governance := exists_congr howner
    rw [hkind, hsame]
    exact iff_of_true howned fun _ ↦ .inl rfl
  | false =>
    simp only [htier, Bool.false_eq_true, ↓reduceIte] at hkind howner
    have hsame : Owned (step e o).governance ↔ Owned (applyTransition e.governance t) := by
      refine exists_congr fun d ↦ (howner d).trans ?_
      unfold NetworkState.IsOwner
      rw [roles_applyTransition]
    rw [hkind, hsame]
    simp only [Bool.false_eq_true, false_or]
    constructor
    · intro hall hk hlast
      exact not_owned_of_unseatsLastOwner hlast
        (hall ((kind_of_unseatsLastOwner hlast).trans hk))
    · exact fun hkeeps ↦ owned_step hq howned hkeeps

/-- An adoption keeps an owner exactly when the log it takes does. -/
private theorem owned_adopted_iff {e : EngineState P} (hreplays : LogReplays e)
    (howned : e.governance.kind = .closed → Owned e.governance) (env : Env)
    (incoming members : List Transition) :
    ((adoptTransitionLog env e incoming members).governance.kind = .closed →
        Owned (adoptTransitionLog env e incoming members).governance) ↔
      KeepsSeats e env (.adoptTransitionLog incoming members) := by
  rcases adoptGovernanceLog_cases (P := P) e.networkId e.governance incoming with
    hold | ⟨u, hext, hu, hnew⟩
  · refine iff_of_true ?_ fun hadoptable ↦ absurd hadoptable (not_adoptable_of_kept hold)
    rcases hreplays with ⟨v, hv⟩ | hs
    · have hafter := replays_of_kept hv members hold
      rw [governance_adoptTransitionLog]
      intro hk
      obtain ⟨d, hd⟩ := howned (hv.kind.trans (hafter.kind.symm.trans hk))
      exact ⟨d, (hafter.owner d).mpr ((hv.owner d).mp hd)⟩
    · have hsilent := (silent_adopt_iff env e incoming members).mpr
        ⟨hs, not_adoptable_of_kept hold⟩
      intro hk
      rw [hk] at hsilent
      cases hsilent
  · have hafter := replays_of_adoptable members hu hnew
    have hsame : Owned (adoptedGovernance e incoming members) ↔ Owned u :=
      exists_congr hafter.owner
    rw [governance_adoptTransitionLog, hafter.kind, hsame]
    constructor
    · rintro hall - pre t post m rfl hm hk hlast
      obtain ⟨hclosed, hno⟩ := not_owned_of_unseats P hu hm hk hlast
      exact hno (hall hclosed)
    · intro hkeeps
      exact owned_of_never_unseats P hu (hkeeps ⟨hext, u, hu⟩)

/-- One operation keeps an owner exactly when it keeps the seats. -/
theorem owned_step_iff {e : EngineState P} (hreplays : LogReplays e)
    (howned : e.governance.kind = .closed → Owned e.governance) (env : Env) (op : GovOp) :
    ((step e (env, op)).governance.kind = .closed → Owned (step e (env, op)).governance) ↔
      KeepsSeats e env op := by
  by_cases hop : ∃ gov members, op = .adoptTransitionLog gov members
  · obtain ⟨gov, members, rfl⟩ := hop
    exact owned_adopted_iff hreplays howned env gov members
  · have hlocal : KeepsSeats e env op ↔ ∀ t, ratifiedBy e (env, op) = some t →
        e.governance.kind = .closed →
        memberTier e.governance t.variant = true ∨ ¬ UnseatsLastOwner e.governance t := by
      cases op with
      | adoptTransitionLog gov members => exact absurd ⟨gov, members, rfl⟩ hop
      | _ => exact Iff.rfl
    rw [hlocal]
    cases hby : ratifiedBy e (env, op) with
    | some t =>
      simp only [Option.some.injEq, forall_eq']
      rcases hreplays with ⟨v, hv⟩ | hs
      · exact owned_ratified_iff hv howned hby
      · have hsilent : (step e (env, op)).governance.kind = .silent := by
          obtain ⟨-, hq, pending, hg⟩ := governance_step_of_ratified hby
          rw [hg]
          exact (kind_routed_eq_silent_iff hq).mpr hs
        rw [hsilent, hs]
        simp
    | none =>
      refine iff_of_true ?_ fun t ht ↦ by cases ht
      have heff : LocalEffect e (env, op) (step e (env, op)).governance :=
        localEffect_step e env fun gov members heq ↦ hop ⟨gov, members, heq⟩
      generalize (step e (env, op)).governance = g at heff
      cases heff with
      | quiet pending _ => exact howned
      | ratify t pending hsome _ _ =>
        rw [hby] at hsome
        cases hsome
      | split t pending n ms _ hv _ _ =>
        intro hk
        have hk' : (applyTransition e.governance t).kind = .closed := hk
        rw [kind_applyTransition, kindAfter, hv] at hk'
        obtain ⟨d, hd⟩ := howned hk'
        refine ⟨d, ?_⟩
        show (applyTransition e.governance t).roles[d]? = some .owner
        rw [roles_applyTransition, roleEffect, hv]
        exact hd

/-! ### Runs from a config -/

/-- The governance operation of a step keeps the seats. -/
def KeepsLastOwner (s : SessionState P) (o : SessionEnv × NetworkOp) : Prop :=
  match o.2.governs with
  | none => True
  | some op => KeepsSeats s.engine o.1.toEnv op

private theorem logReplays_networkStep {s : SessionState P} (h : LogReplays s.engine)
    (o : SessionEnv × NetworkOp) : LogReplays (networkStep s o).engine := by
  obtain ⟨hn, hg⟩ := governance_networkStep s o
  unfold LogReplays
  rw [hn, hg]
  cases o.2.governs with
  | none => exact h
  | some op =>
    have hstep := logReplays_step h (o.1.toEnv, op)
    unfold LogReplays at hstep
    rwa [(step_frame s.engine (o.1.toEnv, op)).1] at hstep

/-- One step of a network keeps the owner exactly when its governance operation does. -/
theorem closedHasOwner_step_iff {s : SessionState P} (hreplays : LogReplays s.engine)
    (h : ClosedHasOwner s.engine) (o : SessionEnv × NetworkOp) :
    ClosedHasOwner (networkStep s o).engine ↔ KeepsLastOwner s o := by
  rw [closedHasOwner_iff hreplays] at h
  rw [closedHasOwner_iff (logReplays_networkStep hreplays o), (governance_networkStep s o).2,
    KeepsLastOwner]
  cases o.2.governs with
  | none => exact iff_of_true h trivial
  | some op => exact owned_step_iff hreplays h o.1.toEnv op

/-- The kind comes from the config and the log is empty, whatever the kind. -/
theorem governance_bootstrap (now : UInt64) (signingKey : P.SigningKey) (label : String)
    (config : NetworkConfig) :
    (bootstrap now signingKey label config).networkId = config.networkId ∧
      (bootstrap now signingKey label config).signingKey = signingKey ∧
      (bootstrap now signingKey label config).governance.kind = config.kind ∧
      (bootstrap now signingKey label config).governance.transitions = [] ∧
      (bootstrap now signingKey label config).governance.memberLog = [] ∧
      (config.kind = .open →
        (bootstrap now signingKey label config).governance = .emptyFor config.networkId) := by
  have hseed : (if (NetworkState.emptyFor config.networkId).transitions = [] ∧
      (NetworkState.emptyFor config.networkId).kind = .open then
      { NetworkState.emptyFor config.networkId with kind := config.kind }
      else NetworkState.emptyFor config.networkId) =
      { NetworkState.emptyFor config.networkId with kind := config.kind } := if_pos ⟨rfl, rfl⟩
  have hverify : verifyLog P config.networkId
      { NetworkState.emptyFor config.networkId with kind := config.kind }.transitions =
      .ok (.emptyFor config.networkId) := rfl
  have hproj := verifiedProjection_of_verifyLog P hverify
  unfold bootstrap EngineState.new
  simp only [hseed, reconcileSignedProjection, hproj]
  cases hk : config.kind with
  | «open» => exact ⟨rfl, rfl, rfl, rfl, rfl, fun _ ↦ rfl⟩
  | silent => exact ⟨rfl, rfl, rfl, rfl, rfl, fun h ↦ by cases h⟩
  | closed => exact ⟨rfl, rfl, rfl, rfl, rfl, fun h ↦ by cases h⟩

/-- In every run of a network from its config, closed governance has a verified log and an owner
in every state reached, if and only if the config does not say closed and no step takes the
seat of the last owner. -/
theorem configured_network_owned_iff (now : UInt64) (signingKey : P.SigningKey) (label : String)
    (config : NetworkConfig) (autoApprove : Bool) (ops : List (SessionEnv × NetworkOp)) :
    (∀ pre post, ops = pre ++ post → ClosedHasOwner
        (run networkStep (.join (bootstrap now signingKey label config) autoApprove) pre).engine) ↔
      config.kind ≠ .closed ∧ AllSteps networkStep KeepsLastOwner
        (.join (bootstrap now signingKey label config) autoApprove) ops := by
  obtain ⟨hn, -, hkind, hlog, -, hopen⟩ := governance_bootstrap now signingKey label config
  -- A closed config fails before anything happens: the empty log verifies as open.
  have hstart : config.kind = .closed →
      ¬ ClosedHasOwner (bootstrap now signingKey label config) := by
    intro hc howner
    obtain ⟨⟨v, hv, hvk⟩, -⟩ := howner (hkind.trans hc)
    rw [hlog] at hv
    cases hv
    cases hvk
  have hreplays : config.kind ≠ .closed →
      LogReplays (bootstrap now signingKey label config) := by
    intro hc
    cases hk : config.kind with
    | closed => exact absurd hk hc
    | silent => exact .inr (hkind.trans hk)
    | «open» =>
      left
      rw [hopen hk, hn]
      exact replays_start config.networkId signingKey label (.emptyFor config.networkId)
        config.topology
  have hsound : config.kind ≠ .closed → ClosedHasOwner (bootstrap now signingKey label config) :=
    fun hc hk ↦ absurd (hkind.symm.trans hk) hc
  have hrun : config.kind ≠ .closed → ((∀ pre post, ops = pre ++ post → ClosedHasOwner
      (run networkStep (.join (bootstrap now signingKey label config) autoApprove) pre).engine) ↔
      AllSteps networkStep KeepsLastOwner
        (.join (bootstrap now signingKey label config) autoApprove) ops) := by
    intro hc
    have hstep : ∀ (s : SessionState P) (o : SessionEnv × NetworkOp), LogReplays s.engine →
        ClosedHasOwner s.engine →
        (ClosedHasOwner (networkStep s o).engine ↔ KeepsLastOwner s o) :=
      fun s o hr h ↦ closedHasOwner_step_iff hr h o
    exact forall_run_iff_allSteps (I := fun s : SessionState P ↦ ClosedHasOwner s.engine)
      (J := fun s ↦ LogReplays s.engine) (fun s o hr ↦ logReplays_networkStep hr o) hstep ops
      (hreplays hc) (hsound hc)
  constructor
  · intro hall
    have hc : config.kind ≠ .closed := fun hc ↦ hstart hc (hall [] ops rfl)
    exact ⟨hc, (hrun hc).mp hall⟩
  · rintro ⟨hc, hops⟩
    exact (hrun hc).mpr hops

/-! ### A closed config on its first day -/

/-- Steps without a governance operation leave the governance state alone. -/
private theorem governance_run_quiet (ops : List (SessionEnv × NetworkOp))
    (hops : ∀ o ∈ ops, o.2.governs = none) (s : SessionState P) :
    (run networkStep s ops).engine.networkId = s.engine.networkId ∧
      (run networkStep s ops).engine.governance = s.engine.governance := by
  induction ops generalizing s with
  | nil => exact ⟨rfl, rfl⟩
  | cons o rest ih =>
    obtain ⟨hn, hg⟩ := governance_networkStep s o
    rw [hops o (by simp)] at hg
    obtain ⟨hn', hg'⟩ := ih (fun x hx ↦ hops x (by simp [hx])) (networkStep s o)
    exact ⟨hn'.trans hn, hg'.trans hg⟩

/-- Steps of the sessions are steps of the network. -/
private theorem run_session (ops : List (SessionEnv × SessionOp)) (s : SessionState P) :
    run networkStep s (ops.map fun o ↦ (o.1, .session o.2)) = run sessionStep s ops := by
  induction ops generalizing s with
  | nil => rfl
  | cons o rest ih => exact ih (sessionStep s o)

/-- Device 4 starts a network that its config calls closed. -/
def closedStart : EngineState seeded :=
  bootstrap 0 (4 : UInt8) "" ⟨"fleet", .closed, .fullMesh⟩

/-- Device 3 connects to it and both sides approve. -/
def firstActive : List (SessionEnv × NetworkOp) :=
  memberHandshake.map fun o ↦ (o.1, .session o.2)

/-- Stated for any engine of device 4, so that nothing here evaluates the start. -/
private theorem unowned_after_handshake {e : EngineState seeded}
    (hself : e.selfId = seededDevice 4) (hlog : e.governance.transitions = [])
    (hmembers : e.governance.memberLog = []) (hkind : e.governance.kind = .closed) :
    (∃ p, (run networkStep (.join e true) firstActive).peers[seededDevice 3]? = some p ∧
        p.status = .active) ∧
      ¬ ClosedHasOwner (run networkStep (.join e true) firstActive).engine := by
  have hev : logEvicted e (seededDevice 3) = false := by
    rw [Bool.eq_false_iff]
    intro hev
    obtain ⟨-, -, t, ht, -⟩ := logEvicted_iff.mp hev
    rw [hmembers] at ht
    cases ht
  constructor
  · rw [firstActive, run_session]
    exact ⟨_, (onePeer_memberHandshake hself hev).self, rfl⟩
  · have hquiet := governance_run_quiet firstActive
      (by simp [firstActive, memberHandshake, handshakeOps, NetworkOp.governs])
      (SessionState.join e true)
    intro howner
    rw [ClosedHasOwner, hquiet.2] at howner
    obtain ⟨⟨v, hv, hvk⟩, -⟩ := howner hkind
    have hempty : (SessionState.join e true).engine.governance.transitions = [] := hlog
    rw [hempty] at hv
    cases hv
    cases hvk

/-- The first peer is active, and the closed network still has neither a log nor an owner. -/
theorem founder_not_elected_at_first_active :
    (∃ p, (run networkStep (.join closedStart true) firstActive).peers[seededDevice 3]? = some p ∧
        p.status = .active) ∧
      ¬ ClosedHasOwner (run networkStep (.join closedStart true) firstActive).engine := by
  obtain ⟨-, hkey, hkind, hlog, hmembers, -⟩ :=
    governance_bootstrap (P := seeded) 0 (4 : UInt8) "" ⟨"fleet", .closed, .fullMesh⟩
  have hself : closedStart.selfId = seededDevice 4 := congrArg (publicId seeded) hkey
  exact unowned_after_handshake hself hlog hmembers hkind

end MyOwnMesh
