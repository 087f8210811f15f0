import MyOwnMesh.Engine.Projection

/-!
# Migrating a single log into the two tiers

`crates/myownmesh-core/src/network_state.rs:833–847` and `:986–1038`. `splitMemberTier` moves
the entries that admit or remove a plain member out of the governance log and into the
member log, classifying each removal by a replay of the roles. The governance part verifies
whatever the history was; what it assigns, and which devices the member log projects, is
compared with the log it came from.
-/

namespace MyOwnMesh

open Lib Lib.Replay

/-! ### The split -/

/-- The variant, applied to a target of this role, admits or removes a plain member;
`network_state.rs:837–847`. -/
def isMemberTier (variant : TransitionVariant) (targetRole : Role) : Bool :=
  match variant with
  | .roleGrant _ .member => true
  | .roleRevoke _ | .evict _ => targetRole == .member
  | _ => false

/-- The state of the split loop: the replayed roles and the two parts so far. -/
structure TierSplit where
  roles : RoleMap
  governance : List Transition
  members : List Transition

/-- The role a removal finds its target in; `network_state.rs:1000–1005`. -/
def targetRole (roles : RoleMap) (variant : TransitionVariant) : Role :=
  match variant with
  | .roleRevoke target | .evict target => (roles[target]?).getD .member
  | _ => .member

/-- The roles after an entry, as the split replays them; `network_state.rs:1008–1027`. -/
def advanceRoles (roles : RoleMap) (t : Transition) : RoleMap :=
  match t.variant with
  | .roleGrant target role => roles.insert target role
  | .roleRevoke target | .evict target => roles.erase target
  | .kindChange to_ =>
    if to_ = .closed then
      match t.signers.head? with
      | some founder => roles.insert founder .owner
      | none => roles
    else roles
  | .split _ _ | .topologyChange _ | .unknown => roles

/-- One entry of the split; the loop body of `network_state.rs:999–1033`. -/
def splitTierEntry (acc : TierSplit) (t : Transition) : TierSplit :=
  let memberTier := isMemberTier t.variant (targetRole acc.roles t.variant)
  let roles := advanceRoles acc.roles t
  if memberTier then { acc with roles := roles, members := acc.members ++ [t] }
  else { acc with roles := roles, governance := acc.governance ++ [t] }

/-- The whole loop. -/
def splitTiers (transitions : List Transition) : TierSplit :=
  transitions.foldl splitTierEntry ⟨∅, [], []⟩

/-- Migrate a single-log state into the two-tier shape; `network_state.rs:993–1038`. -/
def splitMemberTier (state : NetworkState) : NetworkState :=
  let split := splitTiers state.transitions
  { state with transitions := split.governance, memberLog := split.members ++ state.memberLog }

/-! ### Which entries move -/

/-- The entry is a member-tier one in this state. -/
def MemberTier (m : NetworkState) (t : Transition) : Prop :=
  isMemberTier t.variant (targetRole m.roles t.variant) = true

/-- The tier of an entry is computed. -/
instance (m : NetworkState) (t : Transition) : Decidable (MemberTier m t) :=
  inferInstanceAs (Decidable (_ = true))

/-- The split replays the roles as the state machine does. -/
theorem advanceRoles_eq (s : NetworkState) (t : Transition) :
    advanceRoles s.roles t = (applyTransition s t).roles := by
  unfold advanceRoles applyTransition
  cases hv : t.variant with
  | kindChange k =>
    cases k with
    | closed => cases hs : t.signers.head? <;> rfl
    | «open» => rfl
    | silent => rfl
  | roleGrant x r => rfl
  | roleRevoke x => rfl
  | evict x => rfl
  | split n ms => rfl
  | topologyChange m => rfl
  | unknown => rfl

private theorem getD_eq_member_iff {m : NetworkState} {d : String} :
    (m.roles[d]?).getD .member = .member ↔ ¬ m.IsAuthority d := by
  unfold NetworkState.IsAuthority
  cases m.roles[d]? with
  | none => simp
  | some r => cases r <;> simp

/-- An admission always moves. -/
theorem memberTier_of_admits {m : NetworkState} {t : Transition} {d : String}
    (h : Admits t d) : MemberTier m t := by
  unfold Admits at h
  simp [MemberTier, isMemberTier, h]

/-- A removal moves exactly when its target holds no authority. -/
theorem memberTier_iff_of_removes {m : NetworkState} {t : Transition} {d : String}
    (h : Removes t d) : MemberTier m t ↔ ¬ m.IsAuthority d := by
  rw [← getD_eq_member_iff]
  rcases h with h | h <;> simp [MemberTier, isMemberTier, targetRole, h]

/-- What moves is an admission or a removal of a device without authority. -/
theorem MemberTier.cases {m : NetworkState} {t : Transition} (h : MemberTier m t) :
    ∃ d, Admits t d ∨ Removes t d ∧ ¬ m.IsAuthority d := by
  cases hv : t.variant with
  | roleGrant x r =>
    cases r with
    | member => exact ⟨x, .inl hv⟩
    | controller => simp [MemberTier, isMemberTier, hv] at h
    | owner => simp [MemberTier, isMemberTier, hv] at h
  | roleRevoke x => exact ⟨x, .inr ⟨.inl hv, (memberTier_iff_of_removes (.inl hv)).mp h⟩⟩
  | evict x => exact ⟨x, .inr ⟨.inr hv, (memberTier_iff_of_removes (.inr hv)).mp h⟩⟩
  | kindChange k => simp [MemberTier, isMemberTier, hv] at h
  | split n ms => simp [MemberTier, isMemberTier, hv] at h
  | topologyChange n => simp [MemberTier, isMemberTier, hv] at h
  | unknown => simp [MemberTier, isMemberTier, hv] at h

/-- The entry makes this device an owner or a controller: a grant, or a close that elects it. -/
def Promotes (t : Transition) (d : String) : Prop :=
  roleEffect t d = some (some .owner) ∨ roleEffect t d = some (some .controller)

/-- An entry leaves the role of a device, admits it, removes it or promotes it. -/
theorem roleEffect_cases (t : Transition) (d : String) :
    roleEffect t d = none ∨ Admits t d ∨ Removes t d ∨ Promotes t d := by
  rw [← roleEffect_eq_member_iff, ← roleEffect_eq_cleared_iff, Promotes]
  cases roleEffect t d with
  | none => exact .inl rfl
  | some w =>
    cases w with
    | none => exact .inr (.inr (.inl rfl))
    | some r => cases r <;> simp

/-! ### The replay of both logs -/

variable (P : Primitives)

/-- A Member grant found this device in authority and no later entry promoted it again. -/
def Demoted (networkId : String) (log : List Transition) (d : String) : Prop :=
  ∃ pre t post m, log = pre ++ t :: post ∧ verifyLog P networkId pre = .ok m ∧
    m.IsAuthority d ∧ Admits t d ∧ ∀ u ∈ post, ¬ Promotes u d

/-- The entry stands in the log where it is a member-tier one. -/
def Moved (networkId : String) (log : List Transition) (e : Transition) : Prop :=
  ∃ pre post m, log = pre ++ e :: post ∧ verifyLog P networkId pre = .ok m ∧ MemberTier m e

private theorem snoc_eq_append_cons {α : Type} {xs pre post : List α} {x e : α} :
    xs ++ [x] = pre ++ e :: post ↔
      xs = pre ∧ x = e ∧ post = [] ∨ ∃ rest, post = rest ++ [x] ∧ xs = pre ++ e :: rest := by
  rcases List.eq_nil_or_concat' post with rfl | ⟨rest, y, rfl⟩
  · simp
  · have hassoc : pre ++ e :: (rest ++ [y]) = (pre ++ e :: rest) ++ [y] := by simp
    rw [hassoc, List.append_singleton_inj]
    constructor
    · rintro ⟨rfl, rfl⟩
      exact .inr ⟨rest, rfl, rfl⟩
    · rintro (⟨-, -, h⟩ | ⟨rest', h, rfl⟩)
      · simp at h
      · obtain ⟨rfl, rfl⟩ := List.append_singleton_inj.mp h
        exact ⟨rfl, rfl⟩

private theorem Promotes.not_admits {t : Transition} {d : String} (h : Promotes t d) :
    ¬ Admits t d := by
  rw [← roleEffect_eq_member_iff]
  rcases h with h | h <;> simp [h]

private theorem demoted_snoc {networkId : String} {log : List Transition} {m : NetworkState}
    (hm : verifyLog P networkId log = .ok m) (t : Transition) (d : String) :
    Demoted P networkId (log ++ [t]) d ↔
      ¬ Promotes t d ∧ (m.IsAuthority d ∧ Admits t d ∨ Demoted P networkId log d) := by
  constructor
  · rintro ⟨pre, e, post, m', hlog, hm', ha, had, hpost⟩
    obtain ⟨rfl, rfl, rfl⟩ | ⟨rest, rfl, rfl⟩ := snoc_eq_append_cons.mp hlog
    · rw [hm] at hm'
      cases hm'
      exact ⟨fun hp ↦ hp.not_admits had, .inl ⟨ha, had⟩⟩
    · refine ⟨hpost t (by simp), .inr ⟨pre, e, rest, m', rfl, hm', ha, had, fun u hu ↦ ?_⟩⟩
      exact hpost u (by simp [hu])
  · rintro ⟨hp, ⟨ha, had⟩ | ⟨pre, e, post, m', rfl, hm', ha, had, hpost⟩⟩
    · exact ⟨log, t, [], m, rfl, hm, ha, had, by simp⟩
    · refine ⟨pre, e, post ++ [t], m', by simp, hm', ha, had, fun u hu ↦ ?_⟩
      rcases List.mem_append.mp hu with hu | hu
      · exact hpost u hu
      · rw [List.mem_singleton.mp hu]
        exact hp

private theorem moved_snoc {networkId : String} {log : List Transition} {m : NetworkState}
    (hm : verifyLog P networkId log = .ok m) (t e : Transition) :
    Moved P networkId (log ++ [t]) e ↔ e = t ∧ MemberTier m t ∨ Moved P networkId log e := by
  constructor
  · rintro ⟨pre, post, m', hlog, hm', htier⟩
    obtain ⟨rfl, rfl, rfl⟩ | ⟨rest, rfl, rfl⟩ := snoc_eq_append_cons.mp hlog
    · rw [hm] at hm'
      cases hm'
      exact .inl ⟨rfl, htier⟩
    · exact .inr ⟨pre, rest, m', rfl, hm', htier⟩
  · rintro (⟨rfl, htier⟩ | ⟨pre, post, m', rfl, hm', htier⟩)
    · exact ⟨log, [], m, rfl, hm, htier⟩
    · exact ⟨pre, post ++ [t], m', by simp, hm', htier⟩

/-- How the governance part of a split log stands to the log: it verifies, to a state that
holds every authority of the log in the same role, no plain member, and besides only the
authorities a Member grant should have demoted. -/
structure Follows (networkId : String) (log : List Transition) (m : NetworkState)
    (acc : TierSplit) (g : NetworkState) : Prop where
  roles : acc.roles = m.roles
  verified : verifyLog P networkId acc.governance = .ok g
  kind : g.kind = m.kind
  topology : g.topology = m.topology
  keeps : ∀ d, m.IsAuthority d → g.roles[d]? = m.roles[d]?
  memberless : ∀ d : String, g.roles[d]? ≠ some .member
  stale : ∀ d, g.IsAuthority d ∧ ¬ m.IsAuthority d ↔ Demoted P networkId log d
  moved : ∀ e, e ∈ acc.members ↔ Moved P networkId log e

private theorem isAuthority_of_keeps {m g : NetworkState}
    (h : ∀ d, m.IsAuthority d → g.roles[d]? = m.roles[d]?) {d : String} (hd : m.IsAuthority d) :
    g.IsAuthority d := by
  unfold NetworkState.IsAuthority
  rw [h d hd]
  exact hd

private theorem ownerSigned_of_keeps {m g : NetworkState} {t : Transition}
    (h : ∀ d, m.IsAuthority d → g.roles[d]? = m.roles[d]?) (ho : OwnerSigned m t) :
    OwnerSigned g t := by
  obtain ⟨d, hd, ho⟩ := ho
  refine ⟨d, hd, ?_⟩
  unfold NetworkState.IsOwner
  rw [h d ho.isAuthority]
  exact ho

private theorem authoritySigned_of_keeps {m g : NetworkState} {t : Transition}
    (h : ∀ d, m.IsAuthority d → g.roles[d]? = m.roles[d]?) (ha : AuthoritySigned m t) :
    AuthoritySigned g t := by
  obtain ⟨d, hd, ha⟩ := ha
  exact ⟨d, hd, isAuthority_of_keeps h ha⟩

/-- The target of a removal that stays in the governance tier has the same role in both. -/
private theorem removal_of_keeps {m g : NetworkState} {t : Transition} {x : String}
    (hk : g.kind = m.kind) (h : ∀ d, m.IsAuthority d → g.roles[d]? = m.roles[d]?)
    (htier : ¬ MemberTier m t) (hr : Removes t x)
    (hm : m.kind = .closed → AuthoritySigned m t ∧ (m.IsOwner x → OwnerSigned m t))
    (hc : g.kind = .closed) : AuthoritySigned g t ∧ (g.IsOwner x → OwnerSigned g t) := by
  obtain ⟨ha, ho⟩ := hm (hk ▸ hc)
  have hx : m.IsAuthority x := by
    by_contra hx
    exact htier ((memberTier_iff_of_removes hr).mpr hx)
  refine ⟨authoritySigned_of_keeps h ha, fun hg ↦ ownerSigned_of_keeps h (ho ?_)⟩
  unfold NetworkState.IsOwner at hg ⊢
  rw [← h x hx]
  exact hg

/-- A governance-tier entry meets the table in the governance part as it did in the log. -/
private theorem quorumMet_of_keeps {m g : NetworkState} {t : Transition}
    (hk : g.kind = m.kind) (ht : g.topology = m.topology)
    (h : ∀ d, m.IsAuthority d → g.roles[d]? = m.roles[d]?)
    (htier : ¬ MemberTier m t) (hq : QuorumMet m t) : QuorumMet g t := by
  unfold QuorumMet at hq ⊢
  cases hv : t.variant with
  | kindChange k =>
    rw [hv] at hq
    cases k with
    | closed => exact ⟨hk.trans hq.1, hq.2⟩
    | «open» => exact ⟨hk.trans hq.1, ownerSigned_of_keeps h hq.2⟩
    | silent => exact hq
  | roleGrant x r =>
    rw [hv] at hq
    cases r with
    | member => exact fun hc ↦ authoritySigned_of_keeps h (hq (hk ▸ hc))
    | controller => exact fun hc ↦ authoritySigned_of_keeps h (hq (hk ▸ hc))
    | owner => exact fun hc ↦ ownerSigned_of_keeps h (hq (hk ▸ hc))
  | roleRevoke x =>
    rw [hv] at hq
    exact removal_of_keeps hk h htier (.inl hv) hq
  | evict x =>
    rw [hv] at hq
    exact removal_of_keeps hk h htier (.inr hv) hq
  | split n ms =>
    rw [hv] at hq
    exact hq
  | topologyChange n =>
    rw [hv] at hq
    exact ⟨hk.trans hq.1, ht ▸ hq.2.1, ownerSigned_of_keeps h hq.2.2⟩
  | unknown =>
    rw [hv] at hq
    exact hq

section Authority

variable {s : NetworkState} {t : Transition} {d : String}

private theorem not_isAuthority_of_admits (h : Admits t d) :
    ¬ (applyTransition s t).IsAuthority d := by
  simp [NetworkState.IsAuthority, roles_applyTransition, roleEffect_eq_member_iff.mpr h]

private theorem isAuthority_of_promotes (h : Promotes t d) :
    (applyTransition s t).IsAuthority d := by
  rcases h with h | h <;> simp [NetworkState.IsAuthority, roles_applyTransition, h]

end Authority

private theorem MemberTier.not_promotes {m : NetworkState} {t : Transition}
    (h : MemberTier m t) (d : String) : ¬ Promotes t d := by
  obtain ⟨x, hx⟩ := h.cases
  unfold Promotes roleEffect
  rcases hx with hv | ⟨hv | hv, -⟩ <;> rw [hv] <;> by_cases hd : x = d <;> simp [hd]

private theorem MemberTier.frame {m : NetworkState} {t : Transition} (h : MemberTier m t) :
    (applyTransition m t).kind = m.kind ∧ (applyTransition m t).topology = m.topology := by
  obtain ⟨x, hx⟩ := h.cases
  rw [kind_applyTransition, topology_applyTransition]
  rcases hx with hv | ⟨hv | hv, -⟩ <;> simp [kindAfter, topologyAfter, show t.variant = _ from hv]

/-- A moved entry leaves the governance part where it was, and gives no authority. -/
private theorem Follows.memberTier {networkId : String} {log : List Transition}
    {m g : NetworkState} {acc : TierSplit} {t : Transition}
    (h : Follows P networkId log m acc g) (hm : verifyLog P networkId log = .ok m)
    (htier : MemberTier m t) :
    Follows P networkId (log ++ [t]) (applyTransition m t) (splitTierEntry acc t) g := by
  have hacc : splitTierEntry acc t =
      { acc with roles := (applyTransition m t).roles, members := acc.members ++ [t] } := by
    have hb : isMemberTier t.variant (targetRole acc.roles t.variant) = true := by
      rw [h.roles]
      exact htier
    rw [splitTierEntry, if_pos hb, h.roles, advanceRoles_eq]
  rw [hacc]
  refine ⟨rfl, h.verified, h.kind.trans htier.frame.1.symm, h.topology.trans htier.frame.2.symm,
    fun d hd ↦ ?_, h.memberless, fun d ↦ ?_, fun e ↦ ?_⟩
  · rcases roleEffect_cases t d with he | he | he | he
    · rw [roles_applyTransition, he, Option.getD_none]
      exact h.keeps d ((isAuthority_of_untouched he).mp hd)
    · exact absurd hd (not_isAuthority_of_admits he)
    · exact absurd hd (not_isAuthority_of_removes he)
    · exact absurd he (htier.not_promotes d)
  · have hkept : m.IsAuthority d → g.IsAuthority d := isAuthority_of_keeps h.keeps
    rw [demoted_snoc P hm, ← h.stale d]
    have hnp := htier.not_promotes d
    rcases roleEffect_cases t d with he | he | he | he
    · have hna : ¬ Admits t d := by
        rw [← roleEffect_eq_member_iff, he]
        simp
      rw [isAuthority_of_untouched he]
      tauto
    · have hd := not_isAuthority_of_admits (s := m) he
      tauto
    · have hd := not_isAuthority_of_removes (s := m) he
      have hmd := (memberTier_iff_of_removes he).mp htier
      tauto
    · exact absurd he hnp
  · rw [moved_snoc P hm, List.mem_append, List.mem_singleton, h.moved]
    tauto

/-- A governance-tier entry is accepted by the governance part and has the same effect there. -/
private theorem Follows.governanceTier {networkId : String} {log : List Transition}
    {m g : NetworkState} {acc : TierSplit} {t : Transition}
    (h : Follows P networkId log m acc g) (hm : verifyLog P networkId log = .ok m)
    (hsig : verifyTransitionSignatures P networkId t = .ok ()) (hq : QuorumMet m t)
    (htier : ¬ MemberTier m t) :
    Follows P networkId (log ++ [t]) (applyTransition m t) (splitTierEntry acc t)
      (applyTransition g t) := by
  have hacc : splitTierEntry acc t =
      { acc with roles := (applyTransition m t).roles, governance := acc.governance ++ [t] } := by
    have hb : ¬ isMemberTier t.variant (targetRole acc.roles t.variant) = true := by
      rw [h.roles]
      exact htier
    rw [splitTierEntry, if_neg hb, h.roles, advanceRoles_eq]
  have hna : ∀ d, ¬ Admits t d := fun d hd ↦ htier (memberTier_of_admits hd)
  have hqg := quorumMet_of_keeps h.kind h.topology h.keeps htier hq
  rw [hacc]
  refine ⟨rfl, (verifyLog_snoc_iff P h.verified).mpr ⟨hsig, hqg, rfl⟩, ?_, ?_, fun d hd ↦ ?_,
    fun d ↦ ?_, fun d ↦ ?_, fun e ↦ ?_⟩
  · rw [kind_applyTransition, kind_applyTransition, h.kind]
  · rw [topology_applyTransition, topology_applyTransition, h.topology]
  · rw [roles_applyTransition, roles_applyTransition]
    cases he : roleEffect t d with
    | none => exact h.keeps d ((isAuthority_of_untouched he).mp hd)
    | some w => rfl
  · rw [roles_applyTransition]
    cases he : roleEffect t d with
    | none => exact h.memberless d
    | some w =>
      rw [Option.getD_some]
      rintro rfl
      exact hna d (roleEffect_eq_member_iff.mp he)
  · rw [demoted_snoc P hm, ← h.stale d]
    rcases roleEffect_cases t d with he | he | he | he
    · have hnp : ¬ Promotes t d := by simp [Promotes, he]
      rw [isAuthority_of_untouched he, isAuthority_of_untouched he]
      have := hna d
      tauto
    · exact absurd he (hna d)
    · have hmd : m.IsAuthority d := by
        by_contra hmd
        exact htier ((memberTier_iff_of_removes he).mpr hmd)
      have hgd := not_isAuthority_of_removes (s := g) he
      have := hna d
      tauto
    · have hmd := isAuthority_of_promotes (s := m) he
      tauto
  · rw [moved_snoc P hm, h.moved]
    tauto

/-- The split of a log that verifies: its governance part verifies too. -/
theorem follows_splitTiers {networkId : String} {log : List Transition} {u : NetworkState}
    (h : verifyLog P networkId log = .ok u) :
    ∃ g, Follows P networkId log u (splitTiers log) g := by
  induction log using List.reverseRecOn generalizing u with
  | nil =>
    cases h
    have hnone : ∀ d, ¬ (NetworkState.emptyFor networkId).IsAuthority d := by
      simp [NetworkState.emptyFor, NetworkState.IsAuthority]
    refine ⟨.emptyFor networkId, rfl, rfl, rfl, rfl, fun _ _ ↦ rfl, by simp [NetworkState.emptyFor],
      fun d ↦ ?_, fun e ↦ ?_⟩
    · simp [hnone, Demoted]
    · simp [splitTiers, Moved]
  | append_singleton init t ih =>
    obtain ⟨m, hm⟩ := replay_append_left_ok h
    obtain ⟨hsig, hq, rfl⟩ := (verifyLog_snoc_iff P hm).mp h
    obtain ⟨g, hg⟩ := ih hm
    have hsplit : splitTiers (init ++ [t]) = splitTierEntry (splitTiers init) t := by
      simp [splitTiers]
    rw [hsplit]
    by_cases htier : MemberTier m t
    · exact ⟨g, hg.memberTier P hm htier⟩
    · exact ⟨_, hg.governanceTier P hm hsig hq htier⟩

/-! ### The projected roster across the migration -/

/-- The entry removes this device from where the log held it without authority. -/
def RemovesPlain (networkId : String) (log : List Transition) (e : Transition) (d : String) :
    Prop :=
  Removes e d ∧ ∃ pre post m, log = pre ++ e :: post ∧ verifyLog P networkId pre = .ok m ∧
    ¬ m.IsAuthority d

/-- An entry of the log that a final authority signed admits this device, no earlier by its
timestamp than any plain removal of it that a final authority signed. -/
def AdmittedInTime (networkId : String) (log : List Transition) (u : NetworkState)
    (d : String) : Prop :=
  ∃ e ∈ log, Admits e d ∧ AuthoritySigned u e ∧
    ∀ r, RemovesPlain P networkId log r d → AuthoritySigned u r → r.at_ ≤ e.at_

/-- The histories whose roster the migration preserves: no authority was left demoted by a
Member grant, and among the devices without authority exactly the members were admitted in
time. -/
structure Migratable (networkId : String) (log : List Transition) (u : NetworkState) :
    Prop where
  undemoted : ∀ d, ¬ Demoted P networkId log d
  members : ∀ d, ¬ u.IsAuthority d →
    (u.roles[d]? = some .member ↔ AdmittedInTime P networkId log u d)

/-- The migrated governance log verifies, assigns Owner and Controller as the single log did,
and the projection names the devices the single log named. -/
def MigrationKeeps (s u : NetworkState) : Prop :=
  ∃ g, verifyLog P s.networkId (splitMemberTier s).transitions = .ok g ∧
    (∀ d, g.IsOwner d ↔ u.IsOwner d) ∧
    (∀ d : String, g.roles[d]? = some .controller ↔ u.roles[d]? = some .controller) ∧
    ∀ d, d ∈ projection P s.networkId g (splitMemberTier s).memberLog ↔ d ∈ u.roles

private theorem moved_of_admits {networkId : String} {log : List Transition} {u : NetworkState}
    (h : verifyLog P networkId log = .ok u) {e : Transition} {d : String} (ha : Admits e d) :
    Moved P networkId log e ↔ e ∈ log := by
  constructor
  · rintro ⟨pre, post, m, rfl, -⟩
    simp
  · intro he
    obtain ⟨pre, post, rfl⟩ := List.append_of_mem he
    obtain ⟨m, hm⟩ := replay_append_left_ok h
    exact ⟨pre, post, m, rfl, hm, memberTier_of_admits ha⟩

private theorem removesPlain_iff {networkId : String} {log : List Transition} {e : Transition}
    {d : String} :
    RemovesPlain P networkId log e d ↔ Removes e d ∧ Moved P networkId log e := by
  unfold RemovesPlain Moved
  refine and_congr_right fun hr ↦ ?_
  simp only [memberTier_iff_of_removes hr]

section Agreement

variable {networkId : String} {log : List Transition} {u g : NetworkState}

/-- Where the two logs leave the same authorities, the member log counts what they signed. -/
private theorem admitted_iff_inTime (h : verifyLog P networkId log = .ok u)
    (hf : Follows P networkId log u (splitTiers log) g)
    (hauth : ∀ d, g.IsAuthority d ↔ u.IsAuthority d) (d : String) :
    Admitted P g networkId (splitTiers log).members d ↔ AdmittedInTime P networkId log u d := by
  have hcount : ∀ e ∈ (splitTiers log).members,
      (Counted P g networkId e ↔ AuthoritySigned u e) := by
    intro e he
    obtain ⟨pre, post, -, rfl, -⟩ := (hf.moved e).mp he
    have hsig := (accepted_of_mem P h (List.mem_append_right pre List.mem_cons_self)).1
    simp only [Counted, hsig, true_and, AuthoritySigned, hauth]
  constructor
  · rintro ⟨e, he, hc, ha, hall⟩
    refine ⟨e, (moved_of_admits P h ha).mp ((hf.moved e).mp he), ha, (hcount e he).mp hc,
      fun r hr hs ↦ ?_⟩
    obtain ⟨hrem, hmoved⟩ := (removesPlain_iff P).mp hr
    have hin := (hf.moved r).mpr hmoved
    exact hall r hin ((hcount r hin).mpr hs) hrem
  · rintro ⟨e, he, ha, hs, hall⟩
    have hin := (hf.moved e).mpr ((moved_of_admits P h ha).mpr he)
    refine ⟨e, hin, (hcount e hin).mpr hs, ha, fun r hr hc hrem ↦ ?_⟩
    exact hall r ((removesPlain_iff P).mpr ⟨hrem, (hf.moved r).mp hr⟩) ((hcount r hr).mp hc)

/-- Whichever authorities the governance part holds, the projection names those and the admitted
devices. -/
private theorem mem_projection_iff (hf : Follows P networkId log u (splitTiers log) g)
    (d : String) :
    d ∈ projection P networkId g (splitTiers log).members ↔
      g.IsAuthority d ∨ Admitted P g networkId (splitTiers log).members d := by
  have hmember := hf.memberless d
  rw [← Std.ExtTreeMap.isSome_getElem?_iff_mem, getElem?_projection, NetworkState.IsAuthority]
  cases hr : g.roles[d]? with
  | none => by_cases ha : Admitted P g networkId (splitTiers log).members d <;> simp [ha]
  | some r =>
    cases r with
    | member => exact absurd hr hmember
    | controller => simp
    | owner => simp

private theorem mem_roles_iff {d : String} (hd : ¬ u.IsAuthority d) :
    d ∈ u.roles ↔ u.roles[d]? = some .member := by
  unfold NetworkState.IsAuthority at hd
  rw [← Std.ExtTreeMap.isSome_getElem?_iff_mem]
  cases hr : u.roles[d]? with
  | none => simp
  | some r => cases r <;> simp [hr] at hd ⊢

private theorem isAuthority_iff_of_undemoted
    (hf : Follows P networkId log u (splitTiers log) g)
    (hun : ∀ d, ¬ Demoted P networkId log d) (d : String) :
    g.IsAuthority d ↔ u.IsAuthority d := by
  refine ⟨fun hg ↦ ?_, isAuthority_of_keeps hf.keeps⟩
  by_contra hd
  exact hun d ((hf.stale d).mp ⟨hg, hd⟩)

private theorem roles_eq_of_undemoted (hf : Follows P networkId log u (splitTiers log) g)
    (hun : ∀ d, ¬ Demoted P networkId log d) {d : String} {r : Role} (hr : r ≠ .member) :
    g.roles[d]? = some r ↔ u.roles[d]? = some r := by
  have hauth := isAuthority_iff_of_undemoted P hf hun d
  by_cases hd : u.IsAuthority d
  · rw [hf.keeps d hd]
  · have hg : ¬ g.IsAuthority d := fun h ↦ hd (hauth.mp h)
    unfold NetworkState.IsAuthority at hd hg
    cases r with
    | member => exact absurd rfl hr
    | controller => tauto
    | owner => tauto

end Agreement

private theorem migratable_of_keeps {s u : NetworkState} (hm : s.memberLog = [])
    (h : verifyLog P s.networkId s.transitions = .ok u) (hk : MigrationKeeps P s u) :
    Migratable P s.networkId s.transitions u := by
  obtain ⟨g, hg, howner, hctrl, hproj⟩ := hk
  obtain ⟨g', hf⟩ := follows_splitTiers P h
  have hgg : g = g' := Except.ok.inj (hg.symm.trans hf.verified)
  subst hgg
  have hauth : ∀ d, g.IsAuthority d ↔ u.IsAuthority d := by
    intro d
    exact or_congr (hctrl d) (howner d)
  refine ⟨fun d hd ↦ ?_, fun d hd ↦ ?_⟩
  · obtain ⟨hgd, hud⟩ := (hf.stale d).mpr hd
    exact hud ((hauth d).mp hgd)
  · have hlog : (splitMemberTier s).memberLog = (splitTiers s.transitions).members := by
      simp [splitMemberTier, hm]
    rw [← mem_roles_iff hd, ← hproj d, hlog, mem_projection_iff P hf,
      admitted_iff_inTime P h hf hauth, hauth d]
    tauto

private theorem keeps_of_migratable {s u : NetworkState} (hm : s.memberLog = [])
    (h : verifyLog P s.networkId s.transitions = .ok u)
    (hmig : Migratable P s.networkId s.transitions u) : MigrationKeeps P s u := by
  obtain ⟨g, hf⟩ := follows_splitTiers P h
  have hauth := isAuthority_iff_of_undemoted P hf hmig.undemoted
  refine ⟨g, hf.verified, fun d ↦ roles_eq_of_undemoted P hf hmig.undemoted (by decide),
    fun d ↦ roles_eq_of_undemoted P hf hmig.undemoted (by decide), fun d ↦ ?_⟩
  have hlog : (splitMemberTier s).memberLog = (splitTiers s.transitions).members := by
    simp [splitMemberTier, hm]
  rw [hlog, mem_projection_iff P hf, admitted_iff_inTime P h hf hauth, hauth d]
  by_cases hd : u.IsAuthority d
  · have hin : d ∈ u.roles := by
      rw [← Std.ExtTreeMap.isSome_getElem?_iff_mem]
      rcases hd with hd | hd <;> simp [hd]
    simp [hd, hin]
  · rw [mem_roles_iff hd, ← hmig.members d hd]
    tauto

/-- The migration of a single-log state that verifies preserves the projected roster exactly
when the history is migratable. -/
theorem migration_keeps_iff {s u : NetworkState} (hm : s.memberLog = [])
    (h : verifyLog P s.networkId s.transitions = .ok u) :
    MigrationKeeps P s u ↔ Migratable P s.networkId s.transitions u :=
  ⟨migratable_of_keeps P hm h, keeps_of_migratable P hm h⟩

/-- A state of the previous schema: one log, no member log. -/
def legacyState (log : List Transition) : NetworkState :=
  { NetworkState.emptyFor "fleet" with version := 1, transitions := log }

/-- The concrete log extended by a Member grant of its owner. -/
def grantLog (seed : UInt8) : List Transition :=
  fleetLog ++ [seededEntry 1 3 (.roleGrant (seededDevice seed) .member)]

/-- The state `grantLog` replays to. -/
def granted (seed : UInt8) : NetworkState :=
  applyTransition fleet (seededEntry 1 3 (.roleGrant (seededDevice seed) .member))

private theorem verifyLog_grantLog (seed : UInt8) :
    verifyLog seeded "fleet" (grantLog seed) = .ok (granted seed) :=
  verifyLog_snoc_seededEntry verifyLog_fleetLog 1 3 _ (by
    simp [QuorumMet, AuthoritySigned, NetworkState.IsAuthority])

private theorem roles_granted (seed : UInt8) (d : String) :
    (granted seed).roles[d]? =
      if seededDevice seed = d then some .member else fleet.roles[d]? := by
  simp only [granted, roles_applyTransition, roleEffect, variant_seededEntry]
  by_cases hd : seededDevice seed = d
  · rw [if_pos hd, if_pos hd, Option.getD_some]
  · rw [if_neg hd, if_neg hd, Option.getD_none]

private theorem eq_grant_of_admits {e : Transition} {d : String} (he : e ∈ grantLog 3)
    (ha : Admits e d) : e = seededEntry 1 3 (.roleGrant (seededDevice 3) .member) ∧
      seededDevice 3 = d := by
  simp only [grantLog, fleetLog, List.cons_append, List.nil_append, List.mem_cons,
    List.not_mem_nil, or_false] at he
  unfold Admits at ha
  rcases he with rfl | rfl | rfl
  · simp at ha
  · simp at ha
  · exact ⟨rfl, by simpa using ha⟩

private theorem not_removes_grantLog {e : Transition} {d : String} (he : e ∈ grantLog 3) :
    ¬ Removes e d := by
  simp only [grantLog, fleetLog, List.cons_append, List.nil_append, List.mem_cons,
    List.not_mem_nil, or_false] at he
  rcases he with rfl | rfl | rfl <;> simp [Removes]

private theorem migratable_grantLog : Migratable seeded "fleet" (grantLog 3) (granted 3) := by
  refine ⟨?_, fun d hd ↦ ⟨fun hr ↦ ?_, ?_⟩⟩
  · rintro d ⟨pre, t, post, m, hlog, hm, hauth, hadm, -⟩
    have hmem : t ∈ grantLog 3 := by
      rw [hlog]
      simp
    obtain ⟨rfl, rfl⟩ := eq_grant_of_admits hmem hadm
    -- The grant is the last entry, so the state before it is the fleet.
    obtain ⟨rfl, -, -⟩ | ⟨rest, -, hin⟩ := snoc_eq_append_cons.mp hlog
    · rw [verifyLog_fleetLog] at hm
      cases hm
      simp [NetworkState.IsAuthority] at hauth
    · have hin' : seededEntry 1 3 (.roleGrant (seededDevice 3) .member) ∈ fleetLog := by
        rw [hin]
        simp
      simp only [fleetLog, List.mem_cons, List.not_mem_nil, or_false] at hin'
      rcases hin' with h | h
      · simpa using congrArg Transition.variant h
      · simpa using congrArg Transition.variant h
  · have hd3 : seededDevice 3 = d := by
      by_contra hne
      rw [roles_granted, if_neg hne, roles_fleet] at hr
      split at hr
      · cases hr
      · split at hr <;> cases hr
    subst hd3
    refine ⟨seededEntry 1 3 (.roleGrant (seededDevice 3) .member), by simp [grantLog], rfl,
      ⟨seededDevice 1, by simp, .inr ?_⟩, ?_⟩
    · rw [roles_granted]
      simp
    · rintro r ⟨hrem, pre, post, m, hlog, -⟩
      have hmem : r ∈ grantLog 3 := by
        rw [hlog]
        simp
      exact absurd hrem (not_removes_grantLog hmem)
  · rintro ⟨e, he, ha, -⟩
    obtain ⟨-, rfl⟩ := eq_grant_of_admits he ha
    rw [roles_granted, if_pos rfl]

/-- The migration of a network with one plain member. -/
theorem migrated_member_fleet :
    (legacyState (grantLog 3)).memberLog = [] ∧
      verifyLog seeded "fleet" (legacyState (grantLog 3)).transitions = .ok (granted 3) ∧
      MigrationKeeps seeded (legacyState (grantLog 3)) (granted 3) :=
  ⟨rfl, verifyLog_grantLog 3,
    (migration_keeps_iff seeded (s := legacyState (grantLog 3)) rfl (verifyLog_grantLog 3)).mpr
      migratable_grantLog⟩

/-- A controller that a Member grant demoted is a controller again after the migration: its
promotion stays in the governance log and the grant moves out of it. -/
theorem demoted_controller_restored :
    (legacyState (grantLog 2)).memberLog = [] ∧
      verifyLog seeded "fleet" (legacyState (grantLog 2)).transitions = .ok (granted 2) ∧
      ¬ MigrationKeeps seeded (legacyState (grantLog 2)) (granted 2) := by
  refine ⟨rfl, verifyLog_grantLog 2, fun hk ↦ ?_⟩
  have hmig := migratable_of_keeps seeded (s := legacyState (grantLog 2)) rfl
    (verifyLog_grantLog 2) hk
  refine hmig.undemoted (seededDevice 2) ⟨fleetLog, _, [], fleet, rfl, verifyLog_fleetLog, ?_, rfl,
    by simp⟩
  simp [NetworkState.IsAuthority]

end MyOwnMesh
