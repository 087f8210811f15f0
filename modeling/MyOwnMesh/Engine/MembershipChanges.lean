import MyOwnMesh.Engine.Coherence
import MyOwnMesh.Engine.Stamps

/-!
# A membership change takes effect

`crates/myownmesh-core/src/engine/governance.rs:1482–1626` and
`crates/myownmesh-core/src/network_state.rs:849–969`. The entry a device authors is stamped one
past every entry about its target, in saturating arithmetic, and the last counted entry decides.
An admission that already carries the greatest timestamp cannot be outdone by a removal; every
other case is read off the verified governance log.
-/

namespace MyOwnMesh

open Lib Lib.Replay

/-! ### Changes of a plain membership -/

/-- The device a call admits to plain membership or removes from it, and whether it shall be a
member: a grant of Member, a revoke of a plain member, an evict. -/
def membershipChange (gov : NetworkState) (variant : TransitionVariant) : Option (String × Bool) :=
  match variant with
  | .roleGrant d .member => some (d, true)
  | .roleRevoke d => if gov.roleOf d = .member then some (d, false) else none
  | .evict d => some (d, false)
  | _ => none

/-- Whom a grant of Member admits. -/
theorem membershipChange_grant (gov : NetworkState) (d : String) :
    membershipChange gov (.roleGrant d .member) = some (d, true) := rfl

/-- Whom an evict removes. -/
theorem membershipChange_evict (gov : NetworkState) (d : String) :
    membershipChange gov (.evict d) = some (d, false) := rfl

variable {P : Primitives}

variable (P) in
/-- The state the projection starts from: a governance log that does not verify counts as
empty. -/
def signedState (networkId : String) (transitions : List Transition) : NetworkState :=
  match verifyLog P networkId transitions with
  | .ok v => v
  | .error _ => .emptyFor networkId

/-- The governance log once the entry is recorded: the evict of an owner or a controller is part
of it, an entry about a plain member is not. -/
def withEntry (gov : NetworkState) (t : Transition) : List Transition :=
  if memberTier gov t.variant then gov.transitions else gov.transitions ++ [t]

/-- The state that decides which entries of the member log count once the call is ratified. -/
def deciding (env : Env) (s : EngineState P) (v : TransitionVariant) : NetworkState :=
  signedState P s.networkId (withEntry s.governance (ownEntry env s v))

/-- When the change can be seen. An author with authority: always for an admission; for a removal
if the governance log itself gives the device no role and no counted admission of it carries the
greatest timestamp. An author without: if the two logs say so without the entry. -/
def Settles (env : Env) (s : EngineState P) (v : TransitionVariant) (d : String) (b : Bool) :
    Prop :=
  ((deciding env s v).IsAuthority s.selfId → b = false →
    d ∉ (deciding env s v).roles ∧
      ∀ e ∈ s.governance.memberLog, Counted P (deciding env s v) s.networkId e → Admits e d →
        e.at_ ≠ u64Max) ∧
  (¬ (deciding env s v).IsAuthority s.selfId →
    (d ∈ projection P s.networkId (deciding env s v) s.governance.memberLog ↔ b = true))

/-- The projection holds the devices with a role and the admitted ones. -/
theorem mem_projection {networkId : String} {v : NetworkState} {log : List Transition}
    {d : String} :
    d ∈ projection P networkId v log ↔ d ∈ v.roles ∨ Admitted P v networkId log d := by
  rw [← Std.ExtTreeMap.isSome_getElem?_iff_mem, ← Std.ExtTreeMap.isSome_getElem?_iff_mem,
    getElem?_projection, Option.isSome_or, Bool.or_eq_true]
  refine or_congr_right ?_
  split
  · next h => simp [h]
  · next h => simp [h]

theorem projectRoles_eq (networkId : String) (transitions log : List Transition) :
    projectRoles P networkId transitions log =
      projection P networkId (signedState P networkId transitions) log := by
  unfold projectRoles signedState
  cases verifyLog P networkId transitions <;> rfl

section Change

variable (env : Env) {s : EngineState P} {v : TransitionVariant} {d : String} {b : Bool}

/-- What the call makes of the device. -/
private theorem entry_of_change (h : membershipChange s.governance v = some (d, b)) :
    (if b = true then Admits (ownEntry env s v) d else Removes (ownEntry env s v) d) ∧
      (ownEntry env s v).at_ = stampPast env.now s.governance.memberLog d ∧
      (memberTier s.governance v = true ∨ v = .evict d) := by
  unfold membershipChange at h
  split at h
  · obtain ⟨rfl, rfl⟩ := Prod.mk.inj (Option.some.inj h)
    exact ⟨rfl, rfl, .inl rfl⟩
  · split at h
    · next hrole =>
      obtain ⟨rfl, rfl⟩ := Prod.mk.inj (Option.some.inj h)
      refine ⟨.inl rfl, ?_, .inl ?_⟩
      · rw [ownEntry, signedBy, memberTierTimestamp, if_pos hrole]
      · rw [memberTier, hrole]
        rfl
    · cases h
  · obtain ⟨rfl, rfl⟩ := Prod.mk.inj (Option.some.inj h)
    exact ⟨.inr rfl, rfl, .inr rfl⟩
  · cases h

/-- The role map after the call. -/
private theorem roles_after (h : ratifiedBy s (env, .propose v) = some (ownEntry env s v))
    (hchange : membershipChange s.governance v = some (d, b)) :
    (step s (env, .propose v)).governance.roles =
      projection P s.networkId (deciding env s v)
        (s.governance.memberLog ++ [ownEntry env s v]) := by
  obtain ⟨-, -, pending, hgov⟩ := governance_step_of_ratified h
  rw [hgov, deciding, ← projectRoles_eq, withEntry]
  dsimp only
  by_cases htier : memberTier s.governance (ownEntry env s v).variant = true
  · rw [routed_member P htier, if_pos htier]
  · obtain ⟨-, -, hroute⟩ := entry_of_change env hchange
    have hevict : (ownEntry env s v).variant = .evict d := hroute.resolve_left htier
    rw [routed_evict P (Bool.eq_false_of_not_eq_true htier) hevict, if_neg htier]

/-- The entry counts when its author has authority. -/
private theorem counted_ownEntry (gov : NetworkState) :
    Counted P gov s.networkId (ownEntry env s v) ↔ gov.IsAuthority s.selfId := by
  unfold Counted ownEntry
  rw [verifyTransitionSignatures_signedBy]
  simp [AuthoritySigned, signedBy, EngineState.selfId]

private theorem target_of_admits {e : Transition} (h : Admits e d) :
    memberEntryTarget e = some d := by
  rw [memberEntryTarget, h]

private theorem target_of_removes {e : Transition} (h : Removes e d) :
    memberEntryTarget e = some d := by
  rcases h with h | h <;> rw [memberEntryTarget, h]

/-- An admission by an authority is the last word on its device, or as late as the last. -/
private theorem admitted_of_change (hchange : membershipChange s.governance v = some (d, true))
    {gov : NetworkState} (hauthor : gov.IsAuthority s.selfId) :
    Admitted P gov s.networkId (s.governance.memberLog ++ [ownEntry env s v]) d := by
  obtain ⟨hadmits, hstamp, -⟩ := entry_of_change env hchange
  rw [if_pos rfl] at hadmits
  refine ⟨ownEntry env s v, by simp, (counted_ownEntry env gov).mpr hauthor, hadmits, ?_⟩
  intro e he _ hremoves
  rw [hstamp]
  rcases List.mem_append.mp he with he | he
  · exact (stampPast_spec env.now he (target_of_removes hremoves)).1
  · rw [List.mem_singleton.mp he, hstamp]
    exact UInt64.le_refl _

/-- A removal by an authority outdoes every counted admission but those with the greatest
timestamp. -/
private theorem not_admitted_iff_of_change
    (hchange : membershipChange s.governance v = some (d, false)) {gov : NetworkState}
    (hauthor : gov.IsAuthority s.selfId) :
    ¬ Admitted P gov s.networkId (s.governance.memberLog ++ [ownEntry env s v]) d ↔
      ∀ e ∈ s.governance.memberLog, Counted P gov s.networkId e → Admits e d →
        e.at_ ≠ u64Max := by
  obtain ⟨hremoves, hstamp, -⟩ := entry_of_change env hchange
  rw [if_neg Bool.false_ne_true] at hremoves
  have hcounted : Counted P gov s.networkId (ownEntry env s v) :=
    (counted_ownEntry env gov).mpr hauthor
  constructor
  · -- nothing is later than the greatest timestamp
    intro hnot e he hc hadmits hmax
    refine hnot ⟨e, List.mem_append_left _ he, hc, hadmits, fun r _ _ _ ↦ ?_⟩
    rw [hmax]
    exact le_u64Max r.at_
  · rintro hall ⟨e, he, hc, hadmits, hlast⟩
    have hle := hlast _ (by simp) hcounted hremoves
    rw [hstamp] at hle
    rcases List.mem_append.mp he with he | he
    · have hlt := (stampPast_spec env.now he (target_of_admits hadmits)).2 (hall e he hc hadmits)
      exact absurd hle (UInt64.not_le.mpr hlt)
    · rw [List.mem_singleton.mp he] at hadmits
      rcases hremoves with hr | hr <;> cases hadmits.symm.trans hr

/-- The entry of an author without authority is ignored. -/
private theorem admitted_of_ignored {gov : NetworkState} (hauthor : ¬ gov.IsAuthority s.selfId) :
    Admitted P gov s.networkId (s.governance.memberLog ++ [ownEntry env s v]) d ↔
      Admitted P gov s.networkId s.governance.memberLog d := by
  have hignored : ¬ Counted P gov s.networkId (ownEntry env s v) :=
    mt (counted_ownEntry env gov).mp hauthor
  have hmem (e : Transition) (hc : Counted P gov s.networkId e) :
      e ∈ s.governance.memberLog ++ [ownEntry env s v] ↔ e ∈ s.governance.memberLog := by
    rw [List.mem_append, List.mem_singleton, or_iff_left]
    rintro rfl
    exact hignored hc
  constructor
  · rintro ⟨e, he, hc, hadmits, hlast⟩
    exact ⟨e, (hmem e hc).mp he, hc, hadmits, fun r hr hcr ↦ hlast r ((hmem r hcr).mpr hr) hcr⟩
  · rintro ⟨e, he, hc, hadmits, hlast⟩
    exact ⟨e, (hmem e hc).mpr he, hc, hadmits, fun r hr hcr ↦ hlast r ((hmem r hcr).mp hr) hcr⟩

end Change

/-! ### The change in the projection -/

/-- A membership change that a call authors and ratifies at once shows in the projection exactly
when it settles. -/
theorem membership_change_takes_effect_iff (env : Env) (s : EngineState P)
    (v : TransitionVariant) (d : String) (b : Bool)
    (h : ratifiedBy s (env, .propose v) = some (ownEntry env s v))
    (hchange : membershipChange s.governance v = some (d, b)) :
    (d ∈ (step s (env, .propose v)).governance.roles ↔ b = true) ↔ Settles env s v d b := by
  rw [roles_after env h hchange, mem_projection, Settles]
  by_cases hauthor : (deciding env s v).IsAuthority s.selfId
  · simp only [hauthor, forall_const, not_true_eq_false, IsEmpty.forall_iff, and_true]
    cases b with
    | true =>
      refine iff_of_true (iff_of_true (.inr ?_) rfl) (fun hb ↦ by cases hb)
      exact admitted_of_change env hchange hauthor
    | false =>
      rw [← not_admitted_iff_of_change env hchange hauthor]
      simp only [Bool.false_eq_true, iff_false, not_or, forall_const]
  · simp only [hauthor, IsEmpty.forall_iff, not_false_eq_true, forall_const, true_and]
    rw [admitted_of_ignored env hauthor, mem_projection]

/-! ### On the concrete network -/

/-- Every call of the owner about a plain member is ratified at once. -/
private theorem ratified_ownerCall (members : List Transition) {v : TransitionVariant}
    (hnew : alreadyGranted (fleetNode 1 members).governance v = false)
    (hv : v = .roleGrant (seededDevice 3) .member ∨ v = .evict (seededDevice 3)) :
    ratifiedBy (fleetNode 1 members) (clearEnv 9 "p", .propose v) =
      some (ownEntry (clearEnv 9 "p") (fleetNode 1 members) v) := by
  have hidle := fleetIdle_fleetNode 1 members
  have hsigner : seededDevice 1 ∈ (ownEntry (clearEnv 9 "p") (fleetNode 1 members) v).signers := by
    rw [ownEntry, signedBy, (fleetNode_frame 1 members).2.1]
    exact List.mem_singleton.mpr rfl
  have howner : OwnerSigned (fleetNode 1 members).governance
      (ownEntry (clearEnv 9 "p") (fleetNode 1 members) v) := ⟨seededDevice 1, hsigner, hidle.owner⟩
  have hquorum : QuorumMet (fleetNode 1 members).governance
      (ownEntry (clearEnv 9 "p") (fleetNode 1 members) v) := by
    rcases hv with rfl | rfl
    · exact fun _ ↦ howner.authoritySigned
    · exact fun _ ↦ ⟨howner.authoritySigned, fun _ ↦ howner⟩
  rw [ratifiedBy_propose (clear_clearEnv 9 "p") (by simp [hidle.pending]),
    if_pos ⟨hnew, hquorum⟩]

/-- An entry about a plain member is decided by the concrete log. -/
private theorem deciding_ownerCall (members : List Transition) {v : TransitionVariant}
    (htier : memberTier (fleetNode 1 members).governance v = true) :
    deciding (clearEnv 9 "p") (fleetNode 1 members) v = fleet := by
  obtain ⟨memberLog, -, hgov, -⟩ := fleetNode_spec 1 members
  have htransitions : (fleetNode 1 members).governance.transitions = fleetLog := by rw [hgov]
  have hentry : withEntry (fleetNode 1 members).governance
      (ownEntry (clearEnv 9 "p") (fleetNode 1 members) v) = fleetLog :=
    (if_pos htier).trans htransitions
  rw [deciding, hentry, (fleetNode_frame 1 members).1, signedState, verifyLog_fleetLog]

private theorem authority_fleet : fleet.IsAuthority (seededDevice 1) ∧
    fleet.IsAuthority (seededDevice 2) := by
  simp [NetworkState.IsAuthority]

/-- Device 3 is no member of the concrete network without entries. -/
private theorem roles_fleetNode_nil :
    (fleetNode 1 []).governance.roles[seededDevice 3]? = none := by
  obtain ⟨memberLog, hmem, hgov, -⟩ := fleetNode_spec 1 []
  obtain rfl : memberLog = [] := List.eq_nil_iff_forall_not_mem.mpr fun t ht ↦
    absurd ((hmem t).mp ht) List.not_mem_nil
  rw [hgov]
  dsimp only
  rw [getElem?_projection, roles_fleet, if_neg (by simp), if_neg (by simp), if_neg]
  · rfl
  · rintro ⟨e, he, -⟩
    exact absurd he List.not_mem_nil

/-- The owner admits device 3. -/
theorem owner_admits_device :
    seededDevice 3 ∈ (step (fleetNode 1 [])
      (clearEnv 9 "p", .propose (.roleGrant (seededDevice 3) .member))).governance.roles := by
  have hnew : alreadyGranted (fleetNode 1 []).governance (.roleGrant (seededDevice 3) .member) =
      false := by
    rw [alreadyGranted, roles_fleetNode_nil]
    rfl
  have hauthor : (deciding (clearEnv 9 "p") (fleetNode 1 [])
      (.roleGrant (seededDevice 3) .member)).IsAuthority (fleetNode 1 []).selfId := by
    rw [deciding_ownerCall [] rfl, (fleetNode_frame 1 []).2.2]
    exact authority_fleet.1
  exact ((membership_change_takes_effect_iff (clearEnv 9 "p") (fleetNode 1 [])
    (.roleGrant (seededDevice 3) .member) (seededDevice 3) true
    (ratified_ownerCall [] hnew (.inl rfl)) (membershipChange_grant _ _)).mpr
    ⟨fun _ hb ↦ Bool.noConfusion hb, fun hnot ↦ absurd hauthor hnot⟩).mpr rfl

/-- An admission of device 3 by the controller, with the greatest timestamp. -/
def lastAdmission : List Transition := [seededEntry 2 u64Max (.roleGrant (seededDevice 3) .member)]

/-- The owner evicts device 3, and it stays. -/
theorem last_admission_outlives_evict :
    ¬ ∀ (P : Primitives) (env : Env) (s : EngineState P) (v : TransitionVariant) (d : String)
        (b : Bool), ratifiedBy s (env, .propose v) = some (ownEntry env s v) →
      membershipChange s.governance v = some (d, b) →
      (d ∈ (step s (env, .propose v)).governance.roles ↔ b = true) := by
  intro h
  have hrat := ratified_ownerCall lastAdmission (v := .evict (seededDevice 3)) rfl (.inr rfl)
  have hnot := (h seeded (clearEnv 9 "p") (fleetNode 1 lastAdmission) (.evict (seededDevice 3))
    (seededDevice 3) false hrat (membershipChange_evict _ _)).not.mpr Bool.false_ne_true
  obtain ⟨memberLog, hmem, hgov, -⟩ := fleetNode_spec 1 lastAdmission
  have hrole : (fleetNode 1 lastAdmission).governance.roleOf (seededDevice 3) = .member := by
    have hnone : fleet.roles[seededDevice 3]? = none := by simp
    rw [NetworkState.roleOf, hgov]
    dsimp only
    rw [getElem?_projection, hnone]
    split <;> rfl
  have htier : memberTier (fleetNode 1 lastAdmission).governance (.evict (seededDevice 3)) =
      true := by
    rw [memberTier, hrole]
    rfl
  have hself := (fleetNode_frame 1 lastAdmission).2.2
  rw [roles_after (clearEnv 9 "p") hrat (membershipChange_evict _ _), mem_projection, not_or,
    deciding_ownerCall _ htier] at hnot
  refine (not_admitted_iff_of_change (clearEnv 9 "p") (membershipChange_evict _ _)
    (hself ▸ authority_fleet.1)).mp hnot.2
    (seededEntry 2 u64Max (.roleGrant (seededDevice 3) .member)) ?_ ?_ rfl rfl
  · rw [hgov]
    exact (hmem _).mpr (List.mem_singleton.mpr rfl)
  · rw [(fleetNode_frame 1 lastAdmission).1]
    refine ⟨verifyTransitionSignatures_signedBy seeded _ _ _ _, seededDevice 2, ?_,
      authority_fleet.2⟩
    exact List.mem_singleton.mpr rfl

end MyOwnMesh
