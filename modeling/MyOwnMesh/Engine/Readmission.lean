import MyOwnMesh.Engine.Coherence

/-!
# Tombstones after the removal of an authority

`crates/myownmesh-core/src/network_state.rs:849–969` and
`crates/myownmesh-core/src/engine/governance.rs:1600–1622`. A member-log entry counts while
one of its signers is presently an owner or a controller, so the removal of an authority
takes every entry it alone signed out of the fold. Which tombstoned devices stay out is
read off the state before the removal.
-/

namespace MyOwnMesh

open Lib Lib.Replay

variable {P : Primitives}

/-- A state that some run of a node that joined with an empty governance state reaches. -/
def Reachable (s : EngineState P) : Prop :=
  ∃ networkId signingKey label roster topology ops,
    s = run step (EngineState.start networkId signingKey label roster topology) ops

/-- The signed member log removed this device, and it is neither an owner nor a controller. -/
def TombstonedOut (s : EngineState P) (d : String) : Prop :=
  d ∈ memberLogRemoved P s.governance s.governance.memberLog s.networkId ∧
    ¬ s.governance.IsAuthority d

/-- The entry verifies and an authority other than this device signed it. -/
def CountedWithout (s : EngineState P) (x : String) (e : Transition) : Prop :=
  verifyTransitionSignatures P s.networkId e = .ok () ∧
    ∃ y ∈ e.signers, y ≠ x ∧ s.governance.IsAuthority y

/-- Among the entries that count without an authority, every admission of a device is older
than some removal of it. -/
def OutWithout (s : EngineState P) (x d : String) : Prop :=
  ∀ e ∈ s.governance.memberLog, CountedWithout s x e → Admits e d →
    ∃ r ∈ s.governance.memberLog, CountedWithout s x r ∧ Removes r d ∧ e.at_ < r.at_

/-- The governance log itself gives the device no role. -/
def Ungoverned (s : EngineState P) (d : String) : Prop :=
  ∀ v, verifyLog P s.networkId s.governance.transitions = .ok v → d ∉ v.roles

/-- The devices that the signed logs project. -/
def InProjection (s : EngineState P) (d : String) : Prop :=
  d ∈ projectRoles P s.networkId s.governance.transitions s.governance.memberLog

/-- The log of a reachable state replays. -/
theorem Reachable.replays {s : EngineState P} (h : Reachable s) :
    ∃ v, ReplaysTo P s.networkId s.governance v := by
  obtain ⟨networkId, signingKey, label, roster, topology, ops, rfl⟩ := h
  exact run_invariant (I := fun s : EngineState P ↦ ∃ v, ReplaysTo P s.networkId s.governance v)
    (fun _ o hv ↦ replays_step o hv)
    (replays_start networkId signingKey label roster topology) ops

/-- The authorities after the removal of one are the others. -/
private theorem isAuthority_removed_iff {v : NetworkState} {t : Transition} {x y : String}
    (ht : Removes t x) :
    (applyTransition v t).IsAuthority y ↔ y ≠ x ∧ v.IsAuthority y := by
  by_cases hxy : x = y
  · subst hxy
    simp [not_isAuthority_of_removes ht]
  · rw [isAuthority_of_untouched (roleEffect_of_removes_ne ht hxy)]
    exact ⟨fun h ↦ ⟨fun he ↦ hxy he.symm, h⟩, And.right⟩

private theorem counted_removed_iff {s : EngineState P} {v : NetworkState} {t e : Transition}
    {x : String} (hv : ReplaysTo P s.networkId s.governance v) (ht : Removes t x) :
    Counted P (applyTransition v t) s.networkId e ↔ CountedWithout s x e := by
  simp only [Counted, CountedWithout, AuthoritySigned, isAuthority_removed_iff ht, hv.authority]

/-- The removal of an authority extends the governance log, and the member log at most by a
tombstone of that authority. -/
private theorem logs_after_removal {s : EngineState P} {o : Env × GovOp} {t : Transition}
    {x : String} (hrat : ratifiedBy s o = some t) (ht : Removes t x)
    (hx : s.governance.IsAuthority x) :
    (step s o).governance.transitions = s.governance.transitions ++ [t] ∧
      ((step s o).governance.memberLog = s.governance.memberLog ∨
        (step s o).governance.memberLog = s.governance.memberLog ++ [t]) := by
  obtain ⟨-, -, pending, hg⟩ := governance_step_of_ratified hrat
  have htier : memberTier s.governance t.variant = false := by
    rcases hx with hx | hx <;> rcases ht with ht | ht <;>
      simp [memberTier, ht, NetworkState.roleOf, hx]
  rw [hg]
  rcases ht with ht | ht
  · rw [routed_governance P htier (by simp [ht])]
    exact ⟨transitions_applyTransition _ _, .inl (memberLog_applyTransition _ _)⟩
  · rw [routed_evict P htier ht]
    exact ⟨transitions_applyTransition _ _, .inr rfl⟩

/-- An entry about another device changes no admission. -/
private theorem admitted_snoc_of_ne {gov : NetworkState} {networkId : String}
    {log : List Transition} {t : Transition} {x d : String} (ht : Removes t x) (hne : x ≠ d) :
    Admitted P gov networkId (log ++ [t]) d ↔ Admitted P gov networkId log d := by
  have hna : ¬ Admits t d := by
    unfold Admits
    rcases ht with ht | ht <;> simp [ht]
  have hnr : ¬ Removes t d := by
    unfold Removes
    rcases ht with ht | ht <;> simp [ht, hne]
  unfold Admitted
  constructor
  · rintro ⟨e, he, hc, ha, hall⟩
    rcases List.mem_append.mp he with he | he
    · exact ⟨e, he, hc, ha, fun r hr ↦ hall r (List.mem_append_left _ hr)⟩
    · rw [List.mem_singleton.mp he] at ha
      exact absurd ha hna
  · rintro ⟨e, he, hc, ha, hall⟩
    refine ⟨e, List.mem_append_left _ he, hc, ha, fun r hr hcr hrem ↦ ?_⟩
    rcases List.mem_append.mp hr with hr | hr
    · exact hall r hr hcr hrem
    · rw [List.mem_singleton.mp hr] at hrem
      exact absurd hrem hnr

private theorem not_admitted_iff {s : EngineState P} {v : NetworkState} {t : Transition}
    {x d : String} (hv : ReplaysTo P s.networkId s.governance v) (ht : Removes t x) :
    ¬ Admitted P (applyTransition v t) s.networkId s.governance.memberLog d ↔
      OutWithout s x d := by
  unfold Admitted OutWithout
  simp only [counted_removed_iff hv ht, not_exists, not_and, not_forall, UInt64.not_le, exists_prop]

private theorem not_mem_roles_iff {m : RoleMap} {d : String} : d ∉ m ↔ m[d]? = none := by
  rw [← Std.ExtTreeMap.isSome_getElem?_iff_mem, Option.not_isSome_iff_eq_none]

/-- Which devices without authority the signed logs leave out once an authority is removed. -/
theorem not_inProjection_iff {s : EngineState P} (hs : Reachable s)
    {o : Env × GovOp} {t : Transition} {x d : String} (hrat : ratifiedBy s o = some t)
    (ht : Removes t x) (hx : s.governance.IsAuthority x) (hd : ¬ s.governance.IsAuthority d) :
    ¬ InProjection (step s o) d ↔ Ungoverned s d ∧ OutWithout s x d := by
  obtain ⟨v, hv⟩ := hs.replays
  obtain ⟨hsig, hq, -⟩ := governance_step_of_ratified hrat
  obtain ⟨htrans, hmembers⟩ := logs_after_removal hrat ht hx
  have hne : x ≠ d := by
    rintro rfl
    exact hd hx
  have hlog : verifyLog P s.networkId (s.governance.transitions ++ [t]) =
      .ok (applyTransition v t) := by
    rw [← transitions_applyTransition]
    exact (hv.apply hsig hq).replay
  have hadm : Admitted P (applyTransition v t) s.networkId (step s o).governance.memberLog d ↔
      Admitted P (applyTransition v t) s.networkId s.governance.memberLog d := by
    rcases hmembers with hm | hm
    · rw [hm]
    · rw [hm]
      exact admitted_snoc_of_ne ht hne
  have hun : Ungoverned s d ↔ v.roles[d]? = none := by
    unfold Ungoverned
    rw [hv.replay, ← not_mem_roles_iff]
    exact ⟨fun h ↦ h v rfl, fun h w hw ↦ Except.ok.inj hw ▸ h⟩
  rw [InProjection, (step_frame s o).1, htrans, projectRoles_of_verifyLog P hlog, hun,
    ← not_admitted_iff hv ht, ← hadm, not_mem_roles_iff, getElem?_projection,
    roles_applyTransition, roleEffect_of_removes_ne ht hne, Option.getD_none]
  by_cases ha : Admitted P (applyTransition v t) s.networkId (step s o).governance.memberLog d
  · simp [ha]
  · simp [ha]

/-- The removal of an authority leaves a tombstoned device out of the projection exactly when
the governance log gives it no role and the entries that count without the removed authority
keep it out. -/
theorem tombstone_outlives_authority_iff {s : EngineState P} (hs : Reachable s)
    {o : Env × GovOp} {t : Transition} {x d : String} (hrat : ratifiedBy s o = some t)
    (ht : Removes t x) (hx : s.governance.IsAuthority x) (hd : TombstonedOut s d) :
    ¬ InProjection (step s o) d ↔ Ungoverned s d ∧ OutWithout s x d :=
  not_inProjection_iff hs hrat ht hx hd.2

/-! ### A controller's eviction -/

/-- Device 3 was admitted by the owner and evicted by one of the devices. -/
def evictedBy (seed : UInt8) : List Transition :=
  [seededEntry 1 3 (.roleGrant (seededDevice 3) .member),
    seededEntry seed 4 (.evict (seededDevice 3))]

/-- A fourth device that holds both entries. -/
def bystander (seed : UInt8) : EngineState seeded := fleetNode 4 (evictedBy seed)

/-- The owner revokes the controller. -/
def revokeController : Env × GovOp := ownerMessage "p" 9 (.roleRevoke (seededDevice 2))

private theorem reachable_bystander (seed : UInt8) : Reachable (bystander seed) := by
  refine ⟨"fleet", (4 : UInt8), "", .emptyFor "fleet", .fullMesh,
    [(clearEnv 0 "", .adoptTransitionLog fleetLog (evictedBy seed))], ?_⟩
  rw [run_cons, run_nil, bystander, fleetNode, fleetStart]

private theorem authority_bystander (seed : UInt8) (d : String) :
    (bystander seed).governance.IsAuthority d ↔ d = seededDevice 1 ∨ d = seededDevice 2 := by
  obtain ⟨memberLog, -, hg, -⟩ := fleetNode_spec 4 (evictedBy seed)
  unfold NetworkState.IsAuthority bystander
  rw [hg]
  simp only [projection_eq_controller_iff, projection_eq_iff seeded (r := .owner) (by decide),
    roles_fleet]
  by_cases h2 : seededDevice 2 = d
  · simp [h2]
  · by_cases h1 : seededDevice 1 = d
    · simp [h1, h2]
    · have h1' : d ≠ seededDevice 1 := fun h ↦ h1 h.symm
      have h2' : d ≠ seededDevice 2 := fun h ↦ h2 h.symm
      simp [h1, h2, h1', h2']

private theorem mem_bystander (seed : UInt8) (e : Transition) :
    e ∈ (bystander seed).governance.memberLog ↔ e ∈ evictedBy seed := by
  obtain ⟨memberLog, hmem, hg, -⟩ := fleetNode_spec 4 (evictedBy seed)
  unfold bystander
  rw [hg]
  exact hmem e

private theorem revoke_ratified (seed : UInt8) :
    ratifiedBy (bystander seed) revokeController =
      some (seededEntry 1 9 (.roleRevoke (seededDevice 2))) :=
  ((fleetIdle_fleetNode 4 (evictedBy seed)).governance_ownerMessage "p" 9 rfl).1

private theorem ungoverned_bystander (seed : UInt8) :
    Ungoverned (bystander seed) (seededDevice 3) := by
  obtain ⟨memberLog, -, hg, -⟩ := fleetNode_spec 4 (evictedBy seed)
  intro v hv
  unfold bystander at hv
  rw [hg, (fleetNode_frame 4 (evictedBy seed)).1, verifyLog_fleetLog] at hv
  cases hv
  rw [not_mem_roles_iff]
  simp

private theorem tombstonedOut_bystander {seed : UInt8} (hseed : seed = 1 ∨ seed = 2) :
    TombstonedOut (bystander seed) (seededDevice 3) := by
  constructor
  · rw [mem_memberLogRemoved]
    refine ⟨seededEntry seed 4 (.evict (seededDevice 3)), ?_, ⟨?_, ?_⟩, .inr rfl, ?_⟩
    · rw [mem_bystander]
      simp [evictedBy]
    · rw [bystander, (fleetNode_frame 4 (evictedBy seed)).1]
      exact verifyTransitionSignatures_signedBy seeded _ _ _ _
    · refine ⟨seededDevice seed, by simp, ?_⟩
      rw [authority_bystander]
      simpa using hseed
    · intro e he _ ha
      rw [mem_bystander] at he
      simp only [evictedBy, List.mem_cons, List.not_mem_nil, or_false] at he
      rcases he with rfl | rfl
      · show (3 : UInt64) < 4
        decide
      · cases ha
  · rw [authority_bystander]
    simp

/-- A device the owner itself evicted stays out when the owner revokes its controller. -/
theorem owner_tombstone_outlives_controller :
    TombstonedOut (bystander 1) (seededDevice 3) ∧
      ¬ InProjection (step (bystander 1) revokeController) (seededDevice 3) := by
  refine ⟨tombstonedOut_bystander (.inl rfl), ?_⟩
  refine (tombstone_outlives_authority_iff (reachable_bystander 1) (revoke_ratified 1) (.inl rfl)
    ((authority_bystander 1 _).mpr (.inr rfl)) (tombstonedOut_bystander (.inl rfl))).mpr
    ⟨ungoverned_bystander 1, ?_⟩
  intro e he _ ha
  refine ⟨seededEntry 1 4 (.evict (seededDevice 3)), ?_, ⟨?_, seededDevice 1, by simp, by simp, ?_⟩,
    .inr rfl, ?_⟩
  · rw [mem_bystander]
    simp [evictedBy]
  · rw [bystander, (fleetNode_frame 4 (evictedBy 1)).1]
    exact verifyTransitionSignatures_signedBy seeded _ _ _ _
  · exact (authority_bystander 1 _).mpr (.inl rfl)
  · rw [mem_bystander] at he
    simp only [evictedBy, List.mem_cons, List.not_mem_nil, or_false] at he
    rcases he with rfl | rfl
    · decide
    · cases ha

/-- The owner admitted device 3 and its controller evicted it. When the owner revokes the
controller, the eviction no longer counts and device 3 is a member again. -/
theorem revoked_controller_readmits :
    Reachable (bystander 2) ∧ (bystander 2).governance.kind = .closed ∧
      ratifiedBy (bystander 2) revokeController =
        some (seededEntry 1 9 (.roleRevoke (seededDevice 2))) ∧
      (bystander 2).governance.IsAuthority (seededDevice 2) ∧
      TombstonedOut (bystander 2) (seededDevice 3) ∧
      InProjection (step (bystander 2) revokeController) (seededDevice 3) := by
  have hkind : (bystander 2).governance.kind = .closed := by
    obtain ⟨memberLog, -, hg, -⟩ := fleetNode_spec 4 (evictedBy 2)
    rw [bystander, hg]
  refine ⟨reachable_bystander 2, hkind, revoke_ratified 2,
    (authority_bystander 2 _).mpr (.inr rfl), tombstonedOut_bystander (.inr rfl), ?_⟩
  by_contra hout
  obtain ⟨-, hkept⟩ := (not_inProjection_iff (reachable_bystander 2) (revoke_ratified 2) (.inl rfl)
    ((authority_bystander 2 _).mpr (.inr rfl)) (tombstonedOut_bystander (.inr rfl)).2).mp hout
  obtain ⟨r, hr, ⟨-, y, hy, hne, hauth⟩, hrem, -⟩ :=
    hkept (seededEntry 1 3 (.roleGrant (seededDevice 3) .member))
      ((mem_bystander 2 _).mpr (by simp [evictedBy]))
      ⟨by
        rw [bystander, (fleetNode_frame 4 (evictedBy 2)).1]
        exact verifyTransitionSignatures_signedBy seeded _ _ _ _,
        seededDevice 1, by simp, by simp, (authority_bystander 2 _).mpr (.inl rfl)⟩ rfl
  rw [mem_bystander] at hr
  simp only [evictedBy, List.mem_cons, List.not_mem_nil, or_false] at hr
  rcases hr with rfl | rfl
  · rcases hrem with h | h <;> cases h
  · exact hne (by simpa using hy)

end MyOwnMesh
