import MyOwnMesh.Engine.Proposals

/-!
# The live governance state and its logs

Two invariants of whole runs of the engine. The governance log always replays, and the
replay agrees with the live state on everything but the plain members of the role map.
The role map itself is the projection of the two logs as long as no governance-tier
entry that is not an evict changes who counts as a member.
-/

namespace MyOwnMesh

open Lib Lib.Replay

variable (P : Primitives)

/-! ### The log replays -/

/-- The governance log of a live state replays to a state with the same kind, splits,
topology, owners and controllers. -/
structure ReplaysTo (networkId : String) (gov v : NetworkState) : Prop where
  replay : verifyLog P networkId gov.transitions = .ok v
  kind : gov.kind = v.kind
  splits : gov.splits = v.splits
  topology : gov.topology = v.topology
  owner : ∀ d, gov.IsOwner d ↔ v.IsOwner d
  controller : ∀ d : String, gov.roles[d]? = some .controller ↔ v.roles[d]? = some .controller

variable {P}

/-- The replay names the same authorities. -/
theorem ReplaysTo.authority {networkId : String} {gov v : NetworkState}
    (h : ReplaysTo P networkId gov v) (d : String) : gov.IsAuthority d ↔ v.IsAuthority d := by
  unfold NetworkState.IsAuthority
  rw [h.controller d]
  exact or_congr_right (h.owner d)

/-- The replay gives the same owners and controllers. -/
theorem ReplaysTo.role {networkId : String} {gov v : NetworkState}
    (h : ReplaysTo P networkId gov v) {r : Role} (hr : r ≠ .member) (d : String) :
    gov.roles[d]? = some r ↔ v.roles[d]? = some r := by
  cases r with
  | member => exact absurd rfl hr
  | controller => exact h.controller d
  | owner => exact h.owner d

/-- The quorum table sees only the kind, the topology, the owners and the authorities. -/
theorem quorumMet_congr {s u : NetworkState} {t : Transition} (hk : s.kind = u.kind)
    (ht : s.topology = u.topology) (ho : ∀ d, s.IsOwner d ↔ u.IsOwner d)
    (ha : ∀ d, s.IsAuthority d ↔ u.IsAuthority d) : QuorumMet s t ↔ QuorumMet u t := by
  have hos : OwnerSigned s t ↔ OwnerSigned u t := by simp only [OwnerSigned, ho]
  have has : AuthoritySigned s t ↔ AuthoritySigned u t := by simp only [AuthoritySigned, ha]
  unfold QuorumMet
  split <;> simp only [hk, ht, hos, has, ho]

private theorem ReplaysTo.quorumMet {networkId : String} {gov v : NetworkState}
    (h : ReplaysTo P networkId gov v) {t : Transition} (hq : QuorumMet gov t) :
    QuorumMet v t :=
  (quorumMet_congr h.kind h.topology h.owner h.authority).mp hq

/-- An accepted entry of the governance tier moves both sides in the same way. -/
theorem ReplaysTo.apply {networkId : String} {gov v : NetworkState}
    (h : ReplaysTo P networkId gov v) {t : Transition}
    (hsig : verifyTransitionSignatures P networkId t = .ok ()) (hq : QuorumMet gov t) :
    ReplaysTo P networkId (applyTransition gov t) (applyTransition v t) := by
  refine ⟨?_, ?_, ?_, ?_, fun d ↦ ?_, fun d ↦ ?_⟩
  · rw [transitions_applyTransition, verifyLog_snoc_iff P h.replay]
    exact ⟨hsig, h.quorumMet hq, rfl⟩
  · simp only [kind_applyTransition, h.kind]
  · simp only [splits_applyTransition, h.splits]
  · simp only [topology_applyTransition, h.topology]
  · unfold NetworkState.IsOwner
    rw [roles_applyTransition, roles_applyTransition]
    cases roleEffect t d with
    | none => exact h.owner d
    | some r => exact Iff.rfl
  · rw [roles_applyTransition, roles_applyTransition]
    cases roleEffect t d with
    | none => exact h.controller d
    | some r => exact Iff.rfl

/-- Re-projecting the role map changes plain members only. -/
private theorem ReplaysTo.reproject {networkId : String} {gov v : NetworkState}
    (h : ReplaysTo P networkId gov v) (memberLog : List Transition) :
    ReplaysTo P networkId
      { gov with
        memberLog := memberLog
        roles := projection P networkId v memberLog } v :=
  { h with
    owner := fun _ ↦ projection_eq_owner_iff P
    controller := fun _ ↦ projection_eq_controller_iff P }

private theorem ReplaysTo.pending {networkId : String} {gov v : NetworkState}
    (h : ReplaysTo P networkId gov v) (pending : List Proposal) :
    ReplaysTo P networkId { gov with pending := pending } v :=
  { h with }

private theorem ReplaysTo.routed {networkId : String} {gov v : NetworkState}
    (h : ReplaysTo P networkId gov v) {t : Transition}
    (hsig : verifyTransitionSignatures P networkId t = .ok ()) (hq : QuorumMet gov t) :
    ∃ v', ReplaysTo P networkId (MyOwnMesh.routed P networkId gov t) v' := by
  have ha := h.apply hsig hq
  cases htier : memberTier gov t.variant with
  | true =>
    rw [routed_member P htier, projectRoles_of_verifyLog P h.replay]
    exact ⟨v, h.reproject _⟩
  | false =>
    by_cases he : ∃ x, t.variant = .evict x
    · obtain ⟨x, hx⟩ := he
      rw [routed_evict P htier hx, ← transitions_applyTransition,
        projectRoles_of_verifyLog P ha.replay]
      exact ⟨_, ha.reproject _⟩
    · rw [routed_governance P htier fun x hx ↦ he ⟨x, hx⟩]
      exact ⟨_, ha⟩

/-- A split has its own quorum rule, which every state meets. -/
private theorem ReplaysTo.split {networkId : String} {gov v : NetworkState}
    (h : ReplaysTo P networkId gov v) {t : Transition} {n : String} {ms : List String}
    (hv : t.variant = .split n ms)
    (hsig : verifyTransitionSignatures P networkId t = .ok ())
    (hone : t.signers.dedup.length = 1) :
    ReplaysTo P networkId (applyTransition gov t) (applyTransition v t) := by
  refine h.apply hsig ?_
  unfold QuorumMet
  rw [hv]
  exact hone

/-- What an adoption leaves in place of the governance log: ours, or a longer one that
passed the fork guard and verifies. -/
theorem adoptGovernanceLog_cases (networkId : String) (gov : NetworkState)
    (incoming : List Transition) :
    adoptGovernanceLog P networkId gov incoming = gov ∨
      ∃ u, extendsLog gov.transitions incoming = true ∧ verifyLog P networkId incoming = .ok u ∧
        adoptGovernanceLog P networkId gov incoming =
          { gov with
            kind := u.kind
            transitions := incoming
            splits := u.splits
            topology := u.topology } := by
  unfold adoptGovernanceLog
  split
  · next hx =>
    split
    · exact .inl rfl
    · next u hu =>
      split
      · refine .inr ⟨u, hx, hu, ?_⟩
        rw [transitions_verifyLog P hu]
      · exact .inl rfl
  · exact .inl rfl

/-- The member half of an adoption touches the member log only. -/
theorem adoptMemberLog_eq (gov : NetworkState) (incoming : List Transition) :
    ∃ memberLog, adoptMemberLog gov incoming = { gov with memberLog := memberLog } := by
  unfold adoptMemberLog
  split
  · exact ⟨_, rfl⟩
  · simp only
    split <;> exact ⟨_, rfl⟩

/-- The member half of an adoption and the re-projection leave the governance log alone. -/
theorem transitions_adoptedGovernance (s : EngineState P)
    (incomingGov incomingMembers : List Transition) :
    (adoptedGovernance s incomingGov incomingMembers).transitions =
      (adoptGovernanceLog P s.networkId s.governance incomingGov).transitions := by
  obtain ⟨memberLog, hm⟩ := adoptMemberLog_eq
    (adoptGovernanceLog P s.networkId s.governance incomingGov) incomingMembers
  simp only [adoptedGovernance]
  split <;> rw [hm]

/-- An adoption over a log that verifies re-projects the role map. -/
theorem adoptedGovernance_eq {s : EngineState P} {u : NetworkState}
    (incomingGov incomingMembers : List Transition)
    (hu : verifyLog P s.networkId
      (adoptGovernanceLog P s.networkId s.governance incomingGov).transitions = .ok u) :
    ∃ memberLog, adoptedGovernance s incomingGov incomingMembers =
      { adoptGovernanceLog P s.networkId s.governance incomingGov with
        memberLog := memberLog
        roles := projection P s.networkId u memberLog } := by
  obtain ⟨memberLog, hm⟩ := adoptMemberLog_eq
    (adoptGovernanceLog P s.networkId s.governance incomingGov) incomingMembers
  have hp := verifiedProjection_of_verifyLog P
    (s := { adoptGovernanceLog P s.networkId s.governance incomingGov with
      memberLog := memberLog }) hu
  refine ⟨memberLog, ?_⟩
  simp only [adoptedGovernance, hm, hp]

/-- Where an adoption takes the incoming log, the result replays to what that log says. -/
theorem replays_of_adoptable {s : EngineState P} {u : NetworkState}
    {incomingGov : List Transition} (incomingMembers : List Transition)
    (hu : verifyLog P s.networkId incomingGov = .ok u)
    (hnew : adoptGovernanceLog P s.networkId s.governance incomingGov =
      { s.governance with
        kind := u.kind
        transitions := incomingGov
        splits := u.splits
        topology := u.topology }) :
    ReplaysTo P s.networkId (adoptedGovernance s incomingGov incomingMembers) u := by
  obtain ⟨memberLog, heq⟩ := adoptedGovernance_eq incomingGov incomingMembers
    (by rw [hnew]; exact hu)
  rw [heq, hnew]
  exact ⟨hu, rfl, rfl, rfl, fun _ ↦ projection_eq_owner_iff P,
    fun _ ↦ projection_eq_controller_iff P⟩

/-- Where it keeps ours, nothing but the member log and the projection of it moves. -/
theorem replays_of_kept {s : EngineState P} {v : NetworkState}
    (h : ReplaysTo P s.networkId s.governance v) {incomingGov : List Transition}
    (incomingMembers : List Transition)
    (hold : adoptGovernanceLog P s.networkId s.governance incomingGov = s.governance) :
    ReplaysTo P s.networkId (adoptedGovernance s incomingGov incomingMembers) v := by
  obtain ⟨memberLog, heq⟩ := adoptedGovernance_eq incomingGov incomingMembers
    (by rw [hold]; exact h.replay)
  rw [heq, hold]
  exact h.reproject memberLog

private theorem adoptedGovernance_replays {s : EngineState P} {v : NetworkState}
    (h : ReplaysTo P s.networkId s.governance v) (incomingGov incomingMembers : List Transition) :
    ∃ v', ReplaysTo P s.networkId (adoptedGovernance s incomingGov incomingMembers) v' := by
  rcases adoptGovernanceLog_cases (P := P) s.networkId s.governance incomingGov with
    hold | ⟨u, -, hu, hnew⟩
  · exact ⟨v, replays_of_kept h incomingMembers hold⟩
  · exact ⟨u, replays_of_adoptable incomingMembers hu hnew⟩

/-- A node that has just joined has nothing to replay. -/
theorem replays_start (networkId : String) (signingKey : P.SigningKey) (label : String)
    (roster : Roster) (topology : TopologyMode) :
    ∃ v, ReplaysTo P (EngineState.start networkId signingKey label roster topology).networkId
      (EngineState.start networkId signingKey label roster topology).governance v :=
  ⟨_, rfl, rfl, rfl, rfl, fun _ ↦ Iff.rfl, fun _ ↦ Iff.rfl⟩

/-- No operation breaks the replay. -/
theorem replays_step {s : EngineState P} (o : Env × GovOp)
    (h : ∃ v, ReplaysTo P s.networkId s.governance v) :
    ∃ v, ReplaysTo P (step s o).networkId (step s o).governance v := by
  obtain ⟨v, hv⟩ := h
  rw [(step_frame s o).1]
  have heff := stepEffect_step s o
  generalize (step s o).governance = g at heff
  cases heff with
  | quiet pending _ => exact ⟨v, hv.pending pending⟩
  | ratify t pending _ hsig hq =>
    obtain ⟨v', hv'⟩ := hv.routed hsig hq
    exact ⟨v', hv'.pending pending⟩
  | split t pending n ms _ ht hsig hone => exact ⟨_, (hv.split ht hsig hone).pending pending⟩
  | adopt incomingGov incomingMembers _ =>
    exact adoptedGovernance_replays hv incomingGov incomingMembers

/-- In every run from an empty state the live governance log replays, to a state with the
same kind, splits and topology and the same owners and controllers. -/
theorem live_log_replays (networkId : String) (signingKey : P.SigningKey) (label : String)
    (roster : Roster) (topology : TopologyMode) (ops : List (Env × GovOp)) :
    ∃ v, ReplaysTo P networkId
      (run step (EngineState.start networkId signingKey label roster topology) ops).governance
      v := by
  have hrun : (run step (EngineState.start networkId signingKey label roster topology)
        ops).networkId = networkId ∧
      ∃ v, ReplaysTo P
        (run step (EngineState.start networkId signingKey label roster topology) ops).networkId
        (run step (EngineState.start networkId signingKey label roster topology) ops).governance
        v := by
    refine run_invariant (I := fun s : EngineState P ↦ s.networkId = networkId ∧
      ∃ v, ReplaysTo P s.networkId s.governance v) (fun s o hs ↦ ?_) ?_ ops
    · exact ⟨(step_frame s o).1.trans hs.1, replays_step o hs.2⟩
    · exact ⟨rfl, replays_start networkId signingKey label roster topology⟩
  obtain ⟨hn, hv⟩ := hrun
  rwa [hn] at hv

/-- Who is an owner or a controller after an operation that ratifies an entry: a member-tier
entry changes nobody, any other entry has its own effect. -/
theorem role_step_of_ratified {s : EngineState P} {o : Env × GovOp} {t : Transition}
    {v : NetworkState} (hv : ReplaysTo P s.networkId s.governance v)
    (h : ratifiedBy s o = some t) {r : Role} (hr : r ≠ .member) (d : String) :
    (step s o).governance.roles[d]? = some r ↔
      (if memberTier s.governance t.variant then s.governance.roles[d]?
        else (roleEffect t d).getD s.governance.roles[d]?) = some r := by
  obtain ⟨hsig, hq, pending, hg⟩ := governance_step_of_ratified h
  have ha := hv.apply hsig hq
  rw [hg]
  cases htier : memberTier s.governance t.variant with
  | true =>
    rw [routed_member P htier, projectRoles_of_verifyLog P hv.replay, if_pos rfl, hv.role hr]
    exact projection_eq_iff P hr
  | false =>
    rw [if_neg (by decide), ← roles_applyTransition]
    by_cases he : ∃ x, t.variant = .evict x
    · obtain ⟨x, hx⟩ := he
      rw [routed_evict P htier hx, ← transitions_applyTransition,
        projectRoles_of_verifyLog P ha.replay, ha.role hr]
      exact projection_eq_iff P hr
    · rw [routed_governance P htier fun x hx ↦ he ⟨x, hx⟩]

/-! ### The role map is the projection -/

variable (P) in
/-- The cached role map is the one the signed logs project to. -/
def Projected (networkId : String) (gov : NetworkState) : Prop :=
  ∃ removed, verifiedProjection P networkId gov = .ok (gov.roles, removed)

variable (P) in
/-- The entry changes no device's membership except through its own role: a device without
a governance role, and that the entry does not name, is a signed member after it exactly
when it was before, and a device it strips of its role has no admission that counts. -/
structure KeepsMembers (networkId : String) (v : NetworkState) (memberLog : List Transition)
    (t : Transition) : Prop where
  others : ∀ d : String, v.roles[d]? = none → roleEffect t d = none →
    (Admitted P (applyTransition v t) networkId memberLog d ↔ Admitted P v networkId memberLog d)
  stripped : ∀ d, roleEffect t d = some none →
    ¬ Admitted P (applyTransition v t) networkId memberLog d

/-- The governance-tier entries whose effect on the role map is not re-projected keep
everybody's membership. -/
def ProjectionSafe (s : EngineState P) (o : Env × GovOp) : Prop :=
  ∀ t v, ratifiedBy s o = some t → memberTier s.governance t.variant = false →
    (∀ x, t.variant ≠ .evict x) →
    verifyLog P s.networkId s.governance.transitions = .ok v →
    KeepsMembers P s.networkId v s.governance.memberLog t

private theorem projected_iff {networkId : String} {gov v : NetworkState}
    (h : verifyLog P networkId gov.transitions = .ok v) :
    Projected P networkId gov ↔ gov.roles = projection P networkId v gov.memberLog := by
  rw [Projected, verifiedProjection_of_verifyLog P h]
  constructor
  · rintro ⟨removed, hr⟩
    exact (Prod.mk.inj (Except.ok.inj hr)).1.symm
  · intro hr
    exact ⟨_, by rw [hr]⟩

private theorem projected_of_eq {networkId : String} {gov v : NetworkState}
    (h : verifyLog P networkId gov.transitions = .ok v)
    (hr : gov.roles = projection P networkId v gov.memberLog) : Projected P networkId gov :=
  (projected_iff h).mpr hr

/-- Where the direct edit of the map and the re-projection can differ. -/
private theorem projection_applyTransition_iff {networkId : String} {v : NetworkState}
    {memberLog : List Transition} {t : Transition} (d : String) :
    (roleEffect t d).getD (projection P networkId v memberLog)[d]? =
        (projection P networkId (applyTransition v t) memberLog)[d]? ↔
      (v.roles[d]? = none → roleEffect t d = none →
        (Admitted P (applyTransition v t) networkId memberLog d ↔
          Admitted P v networkId memberLog d)) ∧
      (roleEffect t d = some none → ¬ Admitted P (applyTransition v t) networkId memberLog d) := by
  classical
  rw [getElem?_projection, getElem?_projection, roles_applyTransition]
  cases he : roleEffect t d with
  | none =>
    cases hv : v.roles[d]? with
    | some r => simp
    | none =>
      by_cases ha : Admitted P v networkId memberLog d <;>
        by_cases ha' : Admitted P (applyTransition v t) networkId memberLog d <;> simp [ha, ha']
  | some r =>
    cases r with
    | some r => simp
    | none => simp

/-- Editing the role map directly agrees with re-projecting it exactly when the entry keeps
everybody's membership. -/
theorem projected_applyTransition_iff {networkId : String} {gov v : NetworkState}
    {t : Transition} (hv : ReplaysTo P networkId gov v) (hp : Projected P networkId gov)
    (hsig : verifyTransitionSignatures P networkId t = .ok ()) (hq : QuorumMet gov t) :
    Projected P networkId (applyTransition gov t) ↔
      KeepsMembers P networkId v gov.memberLog t := by
  rw [projected_iff (hv.apply hsig hq).replay, memberLog_applyTransition]
  rw [projected_iff hv.replay] at hp
  constructor
  · intro h
    have hd : ∀ d : String, (roleEffect t d).getD (projection P networkId v gov.memberLog)[d]? =
        (projection P networkId (applyTransition v t) gov.memberLog)[d]? := by
      intro d
      rw [← hp, ← roles_applyTransition, h]
    exact ⟨fun d ↦ ((projection_applyTransition_iff d).mp (hd d)).1,
      fun d ↦ ((projection_applyTransition_iff d).mp (hd d)).2⟩
  · intro h
    apply Std.ExtTreeMap.ext_getElem?
    intro d
    rw [roles_applyTransition, hp]
    exact (projection_applyTransition_iff d).mpr ⟨h.others d, h.stripped d⟩

private theorem projected_routed_iff {networkId : String} {gov v : NetworkState}
    {t : Transition} (hv : ReplaysTo P networkId gov v) (hp : Projected P networkId gov)
    (hsig : verifyTransitionSignatures P networkId t = .ok ()) (hq : QuorumMet gov t) :
    Projected P networkId (routed P networkId gov t) ↔
      (memberTier gov t.variant = false → (∀ x, t.variant ≠ .evict x) →
        KeepsMembers P networkId v gov.memberLog t) := by
  have ha := hv.apply hsig hq
  cases htier : memberTier gov t.variant with
  | true =>
    rw [routed_member P htier, projectRoles_of_verifyLog P hv.replay]
    exact iff_of_true (projected_of_eq hv.replay rfl) fun h ↦ by cases h
  | false =>
    by_cases he : ∃ x, t.variant = .evict x
    · obtain ⟨x, hx⟩ := he
      rw [routed_evict P htier hx, ← transitions_applyTransition,
        projectRoles_of_verifyLog P ha.replay]
      exact iff_of_true (projected_of_eq ha.replay rfl) fun _ h ↦ absurd hx (h x)
    · have hne : ∀ x, t.variant ≠ .evict x := fun x hx ↦ he ⟨x, hx⟩
      rw [routed_governance P htier hne, projected_applyTransition_iff hv hp hsig hq]
      exact ⟨fun h _ _ ↦ h, fun h ↦ h rfl hne⟩

/-- A split changes no role, so it changes no verdict either. -/
private theorem keepsMembers_split {networkId : String} {v : NetworkState}
    {memberLog : List Transition} {t : Transition} {n : String} {ms : List String}
    (hv : t.variant = .split n ms) : KeepsMembers P networkId v memberLog t := by
  have hroles : (applyTransition v t).roles = v.roles := by simp [applyTransition, hv]
  constructor
  · intro d _ _
    rw [← memberLogVerdict_eq_true_iff, ← memberLogVerdict_eq_true_iff,
      memberLogVerdict_congr P hroles]
  · intro d hd
    simp [roleEffect, hv] at hd

private theorem projected_adopted {s : EngineState P} {v : NetworkState}
    (h : ReplaysTo P s.networkId s.governance v) (incomingGov incomingMembers : List Transition) :
    Projected P s.networkId (adoptedGovernance s incomingGov incomingMembers) := by
  have hlog : ∃ u, verifyLog P s.networkId
      (adoptGovernanceLog P s.networkId s.governance incomingGov).transitions = .ok u := by
    rcases adoptGovernanceLog_cases (P := P) s.networkId s.governance incomingGov with
      hold | ⟨u, -, hu, hnew⟩
    · exact ⟨v, by rw [hold]; exact h.replay⟩
    · exact ⟨u, by rw [hnew]; exact hu⟩
  obtain ⟨u, hu⟩ := hlog
  obtain ⟨memberLog, heq⟩ := adoptedGovernance_eq incomingGov incomingMembers hu
  rw [heq]
  exact projected_of_eq hu rfl

private theorem projectionSafe_of_none {s : EngineState P} {o : Env × GovOp}
    (h : ratifiedBy s o = none) : ProjectionSafe s o := by
  intro t v ht
  rw [h] at ht
  cases ht

private theorem projected_step_iff {s : EngineState P} {o : Env × GovOp} {v : NetworkState}
    (hv : ReplaysTo P s.networkId s.governance v)
    (hp : Projected P s.networkId s.governance) :
    Projected P (step s o).networkId (step s o).governance ↔ ProjectionSafe s o := by
  rw [(step_frame s o).1]
  have heff := stepEffect_step s o
  generalize (step s o).governance = g at heff
  cases heff with
  | quiet pending hby => exact iff_of_true hp (projectionSafe_of_none hby)
  | ratify t pending hby hsig hq =>
    refine (projected_routed_iff hv hp hsig hq).trans ⟨fun h t' v' hby' htier hne hv' ↦ ?_, ?_⟩
    · cases hby.symm.trans hby'
      cases hv.replay.symm.trans hv'
      exact h htier hne
    · exact fun h htier hne ↦ h t v hby htier hne hv.replay
  | split t pending n ms hby ht hsig hone =>
    have hq : QuorumMet s.governance t := by
      unfold QuorumMet
      rw [ht]
      exact hone
    exact iff_of_true ((projected_applyTransition_iff hv hp hsig hq).mpr (keepsMembers_split ht))
      (projectionSafe_of_none hby)
  | adopt incomingGov incomingMembers hby =>
    exact iff_of_true (projected_adopted hv incomingGov incomingMembers)
      (projectionSafe_of_none hby)

/-- In a run from an empty state the role map is the projection of the two signed logs in
every state reached, exactly when every governance-tier entry the run ratifies without
re-projecting keeps everybody's membership. -/
theorem roles_projected_iff (networkId : String) (signingKey : P.SigningKey) (label : String)
    (roster : Roster) (topology : TopologyMode) (ops : List (Env × GovOp)) :
    (∀ pre post, ops = pre ++ post →
        Projected P networkId
          (run step (EngineState.start networkId signingKey label roster topology)
            pre).governance) ↔
      AllSteps step ProjectionSafe
        (EngineState.start networkId signingKey label roster topology) ops := by
  refine forall_run_iff_allSteps (I := fun s : EngineState P ↦ Projected P networkId s.governance)
    (J := fun s : EngineState P ↦ s.networkId = networkId ∧
      ∃ v, ReplaysTo P s.networkId s.governance v) ?_ ?_ ops ?_ ?_
  · rintro s o ⟨hn, hv⟩
    exact ⟨(step_frame s o).1.trans hn, replays_step o hv⟩
  · rintro s o ⟨rfl, v, hv⟩ hp
    have hiff := projected_step_iff (o := o) hv hp
    rwa [(step_frame s o).1] at hiff
  · exact ⟨rfl, replays_start networkId signingKey label roster topology⟩
  · exact projected_of_eq (v := .emptyFor networkId) rfl rfl

/-! ### A concrete node -/

/-- A call that nothing outside the governance state refuses. -/
def clearEnv (now : UInt64) (proposalId : String) : Env where
  now := now
  rosterNow := now
  proposalId := proposalId
  custody := .ok ()
  saveState _ := .ok ()
  saveRoster _ := .ok ()

/-- Nothing stands in the way of such a call. -/
theorem clear_clearEnv (now : UInt64) (proposalId : String) :
    (clearEnv now proposalId).Clear := ⟨rfl, fun _ ↦ rfl⟩

/-- A device that joins the network `fleet` with nothing. -/
def fleetStart (seed : UInt8) : EngineState seeded :=
  .start "fleet" seed "" (.emptyFor "fleet") .fullMesh

/-- The same device after it adopted the concrete log and some member entries. -/
def fleetNode (seed : UInt8) (members : List Transition) : EngineState seeded :=
  step (fleetStart seed) (clearEnv 0 "", .adoptTransitionLog fleetLog members)

/-- One more operation on the concrete node is a run from its start. -/
theorem run_fleetStart (seed : UInt8) (members : List Transition) (o : Env × GovOp) :
    run step (fleetStart seed) [(clearEnv 0 "", .adoptTransitionLog fleetLog members), o] =
      step (fleetNode seed members) o := rfl

/-- The concrete node keeps its network and its identity. -/
theorem fleetNode_frame (seed : UInt8) (members : List Transition) :
    (fleetNode seed members).networkId = "fleet" ∧
      (fleetNode seed members).signingKey = seed ∧
      (fleetNode seed members).selfId = seededDevice seed := by
  obtain ⟨hn, hk⟩ := step_frame (fleetStart seed)
    (clearEnv 0 "", .adoptTransitionLog fleetLog members)
  exact ⟨hn, hk, congrArg (publicId seeded) hk⟩

/-- A state without member entries takes those it is sent. -/
theorem memberLog_adoptMemberLog {s : NetworkState} (h : s.memberLog = [])
    (incoming : List Transition) :
    ∃ memberLog, adoptMemberLog s incoming = { s with memberLog := memberLog } ∧
      ∀ t, t ∈ memberLog ↔ t ∈ incoming := by
  unfold adoptMemberLog
  split
  · next hi => exact ⟨[], by rw [← h], by simp [hi]⟩
  · next hi =>
    obtain ⟨e, he⟩ := List.exists_mem_of_ne_nil _ hi
    have hlen : 0 < (mergeMemberLogs s.memberLog incoming).length :=
      List.length_pos_of_mem (mem_mergeMemberLogs.mpr (.inr he))
    simp only [h, List.length_nil] at hlen ⊢
    rw [if_pos hlen]
    exact ⟨_, rfl, fun t ↦ by simp [mem_mergeMemberLogs]⟩

/-- What the concrete node holds: the concrete log, the member entries it adopted and the
role map they project to. -/
theorem fleetNode_spec (seed : UInt8) (members : List Transition) :
    ∃ memberLog, (∀ t, t ∈ memberLog ↔ t ∈ members) ∧
      (fleetNode seed members).governance =
        { NetworkState.emptyFor "fleet" with
          kind := .closed
          transitions := fleetLog
          memberLog := memberLog
          roles := projection seeded "fleet" fleet memberLog } ∧
      ∀ k, (fleetNode seed members).roster.row k =
        mirroredRow (projection seeded "fleet" fleet memberLog)
          (memberLogRemoved seeded fleet memberLog "fleet") (seededDevice seed) k none := by
  have hgov : adoptGovernanceLog seeded "fleet" (.emptyFor "fleet") fleetLog =
      { NetworkState.emptyFor "fleet" with kind := .closed, transitions := fleetLog } := by
    have hx : extendsLog (NetworkState.emptyFor "fleet").transitions fleetLog = true := by
      simp [extendsLog, fleetLog, NetworkState.emptyFor]
    unfold adoptGovernanceLog
    rw [if_pos hx, verifyLog_fleetLog]
    rfl
  obtain ⟨memberLog, hm, hmem⟩ := memberLog_adoptMemberLog
    (s := { NetworkState.emptyFor "fleet" with kind := .closed, transitions := fleetLog })
    rfl members
  have hp := verifiedProjection_of_verifyLog seeded
    (s := { NetworkState.emptyFor "fleet" with
      kind := .closed, transitions := fleetLog, memberLog := memberLog }) verifyLog_fleetLog
  have hstep : fleetNode seed members = refreshSelfEvicted
      { fleetStart seed with
        governance :=
          { NetworkState.emptyFor "fleet" with
            kind := .closed
            transitions := fleetLog
            memberLog := memberLog
            roles := projection seeded "fleet" fleet memberLog }
        roster := (mirrorRolesToRoster 0 (projection seeded "fleet" fleet memberLog)
          (.emptyFor "fleet") (memberLogRemoved seeded fleet memberLog "fleet")
          (seededDevice seed)).1 } := by
    simp only [fleetNode, step, adoptTransitionLog, fleetStart, EngineState.start, hgov, hm, hp]
    rfl
  refine ⟨memberLog, hmem, by rw [hstep]; rfl, fun k ↦ ?_⟩
  rw [hstep]
  exact row_mirrorRolesToRoster 0 _ _ _ _ k

/-- All nodes of the concrete network hold the same governance state. -/
theorem governance_fleetNode (seed seed' : UInt8) (members : List Transition) :
    (fleetNode seed members).governance = (fleetNode seed' members).governance := by
  simp only [fleetNode, step, governance_adoptTransitionLog]
  rfl

/-- Every node of the concrete network knows device 1 as the owner. -/
theorem ownerSigned_fleetNode (seed : UInt8) (members : List Transition) (stamp : UInt64)
    (v : TransitionVariant) :
    OwnerSigned (fleetNode seed members).governance (seededEntry 1 stamp v) := by
  obtain ⟨memberLog, -, hg, -⟩ := fleetNode_spec seed members
  refine ⟨seededDevice 1, by simp, ?_⟩
  rw [hg]
  exact (projection_eq_owner_iff seeded).mpr (by simp [NetworkState.IsOwner])

/-- A node of the concrete network with nothing pending that knows device 1 as the owner. -/
structure FleetIdle (s : EngineState seeded) : Prop where
  networkId : s.networkId = "fleet"
  replays : ∃ v, ReplaysTo seeded "fleet" s.governance v
  pending : s.governance.pending = []
  owner : s.governance.IsOwner (seededDevice 1)

/-- Every node that has adopted the concrete log is one. -/
theorem fleetIdle_fleetNode (seed : UInt8) (members : List Transition) :
    FleetIdle (fleetNode seed members) := by
  obtain ⟨memberLog, -, hg, -⟩ := fleetNode_spec seed members
  constructor
  · exact (fleetNode_frame seed members).1
  · have hreplays := replays_step (clearEnv 0 "", .adoptTransitionLog fleetLog members)
      (replays_start "fleet" (P := seeded) seed "" (.emptyFor "fleet") .fullMesh)
    have hn := (fleetNode_frame seed members).1
    rw [show step (EngineState.start (P := seeded) "fleet" seed "" (.emptyFor "fleet") .fullMesh)
      (clearEnv 0 "", .adoptTransitionLog fleetLog members) = fleetNode seed members from rfl,
      hn] at hreplays
    exact hreplays
  · rw [hg]
    rfl
  · rw [hg]
    exact (projection_eq_owner_iff seeded).mpr (by simp [NetworkState.IsOwner])

/-- A message of the owner of the concrete network. -/
def ownerMessage (id : String) (stamp : UInt64) (v : TransitionVariant) : Env × GovOp :=
  (clearEnv 0 "", .onPropose (seededDevice 1) (signedMessage seeded "fleet" (1 : UInt8) id stamp v))

/-- One signature of the owner is enough for a grant, revoke or evict. -/
theorem FleetIdle.governance_ownerMessage {s : EngineState seeded} (h : FleetIdle s)
    (id : String) (stamp : UInt64) {v : TransitionVariant} {x : String}
    (hx : memberEntryTarget (seededEntry 1 stamp v) = some x) :
    ratifiedBy s (ownerMessage id stamp v) = some (seededEntry 1 stamp v) ∧
      (step s (ownerMessage id stamp v)).governance =
        { routed seeded "fleet" s.governance (seededEntry 1 stamp v) with pending := [] } := by
  have hpeer : pubkeyPart (seededDevice 1) = publicId seeded (1 : UInt8) :=
    pubkeyPart_publicId seeded (1 : UInt8)
  have hfresh : ∀ p ∈ s.governance.pending, p.id ≠ id := by simp [h.pending]
  have hq : QuorumMet s.governance (seededEntry 1 stamp v) :=
    OwnerSigned.quorumMet ⟨seededDevice 1, by simp, h.owner⟩ hx
  have hby := ratifiedBy_onPropose (clearEnv 0 "") hpeer hfresh stamp v
  have hq' : QuorumMet s.governance (signedBy seeded s.networkId (1 : UInt8) stamp v) := by
    rw [h.networkId]
    exact hq
  have hgov := governance_onPropose (clearEnv 0 "") hpeer hfresh hq'
  rw [h.networkId] at hby hgov
  rw [h.pending] at hgov
  exact ⟨hby.trans (if_pos hq), hgov⟩

/-- After a member-tier message the node is idle again and its member log ends with the
entry. -/
theorem FleetIdle.member_message {s : EngineState seeded} (h : FleetIdle s) (id : String)
    (stamp : UInt64) {v : TransitionVariant} {x : String}
    (hx : memberEntryTarget (seededEntry 1 stamp v) = some x)
    (htier : memberTier s.governance v = true) :
    FleetIdle (step s (ownerMessage id stamp v)) ∧
      (step s (ownerMessage id stamp v)).governance.memberLog =
        s.governance.memberLog ++ [seededEntry 1 stamp v] := by
  obtain ⟨hby, hgov⟩ := h.governance_ownerMessage id stamp hx
  have hn := (step_frame s (ownerMessage id stamp v)).1.trans h.networkId
  obtain ⟨w, hw⟩ := h.replays
  constructor
  · constructor
    · exact hn
    · have hreplays := replays_step (ownerMessage id stamp v) ⟨w, by rwa [h.networkId]⟩
      rwa [hn] at hreplays
    · rw [hgov]
    · have hrole := role_step_of_ratified (r := .owner) (by rwa [h.networkId]) hby (by decide)
        (seededDevice 1)
      apply hrole.mpr
      rw [variant_seededEntry, htier, if_pos rfl]
      exact h.owner
  · rw [hgov, routed_member seeded htier]

/-- The owner of the concrete network proposes a grant, revoke or evict on its own node, and
one signature is enough. -/
theorem governance_fleetNode_propose (members : List Transition) (v : TransitionVariant)
    (hnew : alreadyGranted (fleetNode 1 members).governance v = false)
    (hv : ∃ x, ∀ stamp, memberEntryTarget (seededEntry 1 stamp v) = some x) :
    ∃ stamp, (step (fleetNode 1 members) (clearEnv 0 "p", .propose v)).governance =
      { routed seeded "fleet" (fleetNode 1 members).governance (seededEntry 1 stamp v) with
        pending := [] } := by
  obtain ⟨x, hx⟩ := hv
  obtain ⟨memberLog, -, hg, -⟩ := fleetNode_spec 1 members
  obtain ⟨hn, hk, -⟩ := fleetNode_frame 1 members
  have hpend : (fleetNode 1 members).governance.pending = [] := by rw [hg]; rfl
  have hentry : ∃ stamp, ownEntry (clearEnv 0 "p") (fleetNode 1 members) v =
      seededEntry 1 stamp v := by
    refine ⟨memberTierTimestamp 0 (fleetNode 1 members).governance v, ?_⟩
    unfold ownEntry seededEntry
    rw [hn, hk]
    rfl
  obtain ⟨stamp, hentry⟩ := hentry
  have hfresh : ∀ p ∈ (fleetNode 1 members).governance.pending,
      p.id ≠ (clearEnv 0 "p").proposalId := by simp [hpend]
  have hquorum : QuorumMet (fleetNode 1 members).governance
      (ownEntry (clearEnv 0 "p") (fleetNode 1 members) v) := by
    rw [hentry]
    exact (ownerSigned_fleetNode 1 members stamp v).quorumMet (hx stamp)
  have h := governance_propose (clear_clearEnv 0 "p") hnew hfresh hquorum
  rw [hentry, hn, hpend] at h
  exact ⟨stamp, h⟩

/-- A controller with a member admission is revoked: the role map forgets the device while
the signed logs still project it as a member. -/
theorem revoked_manager_not_projected :
    ¬ Projected seeded "fleet" (run step (fleetStart 1)
      [(clearEnv 0 "", .adoptTransitionLog fleetLog
          [seededEntry 1 3 (.roleGrant (seededDevice 2) .member)]),
        (clearEnv 0 "p", .propose (.roleRevoke (seededDevice 2)))]).governance := by
  classical
  obtain ⟨memberLog, hmem, hg, -⟩ :=
    fleetNode_spec 1 [seededEntry 1 3 (.roleGrant (seededDevice 2) .member)]
  have hctrl : (projection seeded "fleet" fleet memberLog)[seededDevice 2]? =
      some .controller := (projection_eq_controller_iff seeded).mpr (by simp)
  obtain ⟨stamp, hstep⟩ := governance_fleetNode_propose
    [seededEntry 1 3 (.roleGrant (seededDevice 2) .member)] (.roleRevoke (seededDevice 2)) rfl
    ⟨_, fun _ ↦ rfl⟩
  rw [routed_governance seeded (by simp [hg, memberTier, NetworkState.roleOf, hctrl]) (by simp),
    hg] at hstep
  rintro ⟨removed, hproj⟩
  have hlog := verifyLog_snoc_seededEntry verifyLog_fleetLog 1 stamp
    (.roleRevoke (seededDevice 2)) (by
      simp [QuorumMet, AuthoritySigned, OwnerSigned, NetworkState.IsOwner,
        NetworkState.IsAuthority])
  rw [run_fleetStart, hstep] at hproj
  rw [verifiedProjection_of_verifyLog seeded
    (v := applyTransition fleet (seededEntry 1 stamp (.roleRevoke (seededDevice 2)))) (by
      simpa using hlog)] at hproj
  have hroles := congrArg (fun m : RoleMap ↦ m[seededDevice 2]?)
    (Prod.mk.inj (Except.ok.inj hproj)).1
  have hadm : Admitted seeded
      (applyTransition fleet (seededEntry 1 stamp (.roleRevoke (seededDevice 2)))) "fleet"
      memberLog (seededDevice 2) := by
    refine ⟨seededEntry 1 3 (.roleGrant (seededDevice 2) .member), (hmem _).mpr (by simp),
      ⟨verifyTransitionSignatures_signedBy seeded _ _ _ _, ?_⟩, rfl, fun e he _ hr ↦ ?_⟩
    · simp [AuthoritySigned, NetworkState.IsAuthority, roles_applyTransition, roleEffect]
    · rw [hmem, List.mem_singleton] at he
      subst he
      rcases hr with hr | hr <;> cases hr
  simp only [memberLog_applyTransition] at hroles
  rw [getElem?_projection, if_pos hadm, roles_applyTransition, roles_applyTransition] at hroles
  simp [roleEffect] at hroles

end MyOwnMesh
