import MyOwnMesh.NetworkState.GovernanceLog

/-!
# Owners across the governance log

When an entry can move the Owner role, which entries leave a closed network without
an owner, and what a close leaves in the role map. The table checks a removal against
the target's current tier but a grant only against the granted tier, and a close keeps
the roles the open phase wrote; the results say exactly where the two matter.
-/

namespace MyOwnMesh

open Lib Lib.Replay

variable (P : Primitives)

/-! ### Entries that take the Owner role -/

/-- The entry writes a role below Owner for this device, or none. -/
def Unseats (t : Transition) (x : String) : Prop :=
  match t.variant with
  | .roleGrant y r => y = x ∧ r ≠ .owner
  | .roleRevoke y => y = x
  | .evict y => y = x
  | _ => False

/-- An entry unseats a device exactly when it sets its role to something else than Owner. -/
theorem unseats_iff {t : Transition} {x : String} :
    Unseats t x ↔ ∃ r, roleEffect t x = some r ∧ r ≠ some .owner := by
  unfold Unseats roleEffect
  cases hv : t.variant with
  | kindChange k =>
    cases k with
    | closed => by_cases h : t.signers.head? = some x <;> simp [h]
    | «open» => simp
    | silent => simp
  | roleGrant y r => by_cases h : y = x <;> simp [h]
  | roleRevoke y => by_cases h : y = x <;> simp [h]
  | evict y => by_cases h : y = x <;> simp [h]
  | split n ms => simp
  | topologyChange m => simp
  | unknown => simp

/-- An entry that unseats a device leaves every other device's role alone. -/
theorem Unseats.roleEffect_eq_none {t : Transition} {x d : String} (h : Unseats t x)
    (hd : d ≠ x) : roleEffect t d = none := by
  unfold Unseats at h
  unfold roleEffect
  split at h
  · next y r hv => simp [hv, h.1, Ne.symm hd]
  · next y hv => simp [hv, h, Ne.symm hd]
  · next y hv => simp [hv, h, Ne.symm hd]
  · exact h.elim

/-- An owner stays owner through every entry that does not unseat it. -/
theorem isOwner_applyTransition_of_not_unseats {s : NetworkState} {t : Transition} {x : String}
    (ho : s.IsOwner x) (h : ¬ Unseats t x) : (applyTransition s t).IsOwner x := by
  unfold NetworkState.IsOwner at *
  rw [roles_applyTransition]
  cases he : roleEffect t x with
  | none => exact ho
  | some r =>
    by_contra hr
    exact h (unseats_iff.mpr ⟨r, he, hr⟩)

/-- An unseated device does not hold Owner afterwards. -/
theorem Unseats.not_isOwner {s : NetworkState} {t : Transition} {x : String}
    (h : Unseats t x) : ¬ (applyTransition s t).IsOwner x := by
  obtain ⟨r, he, hr⟩ := unseats_iff.mp h
  unfold NetworkState.IsOwner
  rw [roles_applyTransition, he]
  exact hr

/-! ### Who may move the Owner role -/

/-- Owner is taken from a device, or given to one, only with an owner's signature. -/
def OwnershipGuarded (s s' : NetworkState) (t : Transition) : Prop :=
  (∀ d, s.IsOwner d → ¬ s'.IsOwner d → OwnerSigned s t) ∧
    ∀ d, ¬ s.IsOwner d → s'.IsOwner d → OwnerSigned s t

/-- The entry grants a role below Owner to a device that holds Owner. -/
def LowersOwner (s : NetworkState) (t : Transition) : Prop :=
  ∃ x r, t.variant = .roleGrant x r ∧ r ≠ .owner ∧ s.IsOwner x

private theorem ownerSigned_of_gained {s : NetworkState} {t : Transition} {d : String}
    (hk : s.kind = .closed) (hq : QuorumMet s t) (hn : ¬ s.IsOwner d)
    (ho : (applyTransition s t).IsOwner d) : OwnerSigned s t := by
  unfold NetworkState.IsOwner at hn ho
  rw [roles_applyTransition] at ho
  unfold roleEffect at ho
  unfold QuorumMet at hq
  cases hv : t.variant with
  | kindChange k =>
    -- A closed network refuses to close again, so only a reopen can be here.
    cases k with
    | closed =>
      rw [hv] at hq
      exact absurd (hq.1.symm.trans hk) (by decide)
    | «open» =>
      rw [hv] at ho
      exact absurd ho hn
    | silent =>
      rw [hv] at hq
      exact hq.elim
  | roleGrant x r =>
    rw [hv] at hq ho
    cases r with
    | owner => exact hq hk
    | controller => by_cases hx : x = d <;> simp [hx] at ho; exact absurd ho hn
    | member => by_cases hx : x = d <;> simp [hx] at ho; exact absurd ho hn
  | roleRevoke x =>
    rw [hv] at ho
    by_cases hx : x = d <;> simp [hx] at ho
    exact absurd ho hn
  | evict x =>
    rw [hv] at ho
    by_cases hx : x = d <;> simp [hx] at ho
    exact absurd ho hn
  | split n ms =>
    rw [hv] at ho
    exact absurd ho hn
  | topologyChange m =>
    rw [hv] at ho
    exact absurd ho hn
  | unknown =>
    rw [hv] at hq
    exact hq.elim

private theorem ownerSigned_of_lost {s : NetworkState} {t : Transition} {d : String}
    (hk : s.kind = .closed) (hq : QuorumMet s t) (hl : LowersOwner s t → OwnerSigned s t)
    (ho : s.IsOwner d) (hn : ¬ (applyTransition s t).IsOwner d) : OwnerSigned s t := by
  have hu : Unseats t d := by
    by_contra h
    exact hn (isOwner_applyTransition_of_not_unseats ho h)
  unfold Unseats at hu
  unfold QuorumMet at hq
  split at hu
  · next y r hv =>
    obtain ⟨rfl, hr⟩ := hu
    exact hl ⟨y, r, hv, hr, ho⟩
  · next y hv =>
    subst hu
    rw [hv] at hq
    exact (hq hk).2 ho
  · next y hv =>
    subst hu
    rw [hv] at hq
    exact (hq hk).2 ho
  · exact hu.elim

/-- On every closed state an accepted entry moves Owner only with an owner's signature,
unless it is the grant of a lower role to an owner that no owner signed. -/
theorem ownershipGuarded_iff {networkId : String} {s s' : NetworkState} {t : Transition}
    (hk : s.kind = .closed) (ht : verifyStep P networkId s t = .ok s') :
    OwnershipGuarded s s' t ↔ (LowersOwner s t → OwnerSigned s t) := by
  obtain ⟨_, hq, rfl⟩ := (verifyStep_ok_iff P).mp ht
  constructor
  · rintro ⟨hlost, _⟩ ⟨x, r, hv, hr, ho⟩
    refine hlost x ho (Unseats.not_isOwner ?_)
    unfold Unseats
    rw [hv]
    exact ⟨rfl, hr⟩
  · intro hl
    exact ⟨fun d ho hn ↦ ownerSigned_of_lost hk hq hl ho hn,
      fun d hn ho ↦ ownerSigned_of_gained hk hq hn ho⟩

/-- The owner of the concrete network makes a second owner, under its own signature. -/
theorem ownershipGuarded_fleet_grant :
    ∃ s', fleet.kind = .closed ∧
      verifyStep seeded "fleet" fleet (seededEntry 1 3 (.roleGrant (seededDevice 3) .owner)) =
        .ok s' ∧
      OwnershipGuarded fleet s' (seededEntry 1 3 (.roleGrant (seededDevice 3) .owner)) := by
  have ht : verifyStep seeded "fleet" fleet
      (seededEntry 1 3 (.roleGrant (seededDevice 3) .owner)) = .ok _ :=
    (verifyStep_ok_iff seeded).mpr ⟨verifyTransitionSignatures_signedBy seeded _ _ _ _, by
      simp [QuorumMet, OwnerSigned, NetworkState.IsOwner], rfl⟩
  refine ⟨_, kind_fleet, ht, (ownershipGuarded_iff seeded kind_fleet ht).mpr fun _ ↦ ?_⟩
  simp [OwnerSigned, NetworkState.IsOwner]

/-- A controller grants Member to the founding owner and thereby takes Owner from it. -/
theorem controller_demotes_owner_by_grant :
    ∃ s', verifyLog seeded "fleet" fleetLog = .ok fleet ∧ fleet.kind = .closed ∧
      verifyStep seeded "fleet" fleet (seededEntry 2 3 (.roleGrant (seededDevice 1) .member)) =
        .ok s' ∧
      ¬ OwnershipGuarded fleet s' (seededEntry 2 3 (.roleGrant (seededDevice 1) .member)) := by
  refine ⟨_, verifyLog_fleetLog, kind_fleet, (verifyStep_ok_iff seeded).mpr
    ⟨verifyTransitionSignatures_signedBy seeded _ _ _ _, ?_, rfl⟩, fun hg ↦ ?_⟩
  · simp [QuorumMet, AuthoritySigned, NetworkState.IsAuthority]
  · have hs := hg.1 (seededDevice 1) (by simp [NetworkState.IsOwner]) (by
      simp [NetworkState.IsOwner, roles_applyTransition, roleEffect])
    simp [OwnerSigned, NetworkState.IsOwner] at hs

/-! ### A closed network and its last owner -/

/-- Some device holds Owner. -/
def Owned (s : NetworkState) : Prop := ∃ d, s.IsOwner d

/-- The entry unseats the only owner. -/
def UnseatsLastOwner (s : NetworkState) (t : Transition) : Prop :=
  ∃ x, Unseats t x ∧ s.IsOwner x ∧ ∀ d, s.IsOwner d → d = x

/-- An accepted close leaves its first signer as owner. -/
theorem isOwner_founder {s : NetworkState} {t : Transition} {f : String}
    (hv : t.variant = .kindChange .closed) (hf : t.signers.head? = some f) :
    (applyTransition s t).IsOwner f := by
  simp [NetworkState.IsOwner, roles_applyTransition, roleEffect, hv, hf]

private theorem kindAfter_of_unseats {t : Transition} {x : String} (h : Unseats t x)
    (k : NetworkKind) : kindAfter k t = k := by
  unfold Unseats at h
  unfold kindAfter
  split
  · next to_ hv => simp [hv] at h
  · rfl

/-- One step: a closed network keeps an owner unless the entry unseats the last one. -/
theorem owned_step {s : NetworkState} {t : Transition} (hq : QuorumMet s t)
    (hs : s.kind = .closed → Owned s) (hl : s.kind = .closed → ¬ UnseatsLastOwner s t)
    (hk : (applyTransition s t).kind = .closed) : Owned (applyTransition s t) := by
  rw [kind_applyTransition] at hk
  by_cases hc : t.variant = .kindChange .closed
  · have hne : t.signers ≠ [] := by
      unfold QuorumMet at hq
      rw [hc] at hq
      exact hq.2
    obtain ⟨f, rest, hf⟩ := List.exists_cons_of_ne_nil hne
    exact ⟨f, isOwner_founder hc (by rw [hf]; rfl)⟩
  · have hk' : s.kind = .closed := by
      unfold kindAfter at hk
      split at hk
      · next to_ hv => exact absurd (hk ▸ hv) hc
      · exact hk
    obtain ⟨d, hd⟩ := hs hk'
    by_cases hu : Unseats t d
    · -- Another owner exists, and one entry unseats only one device.
      have hother : ∃ d', s.IsOwner d' ∧ d' ≠ d := by
        by_contra hno
        push Not at hno
        exact hl hk' ⟨d, hu, hd, hno⟩
      obtain ⟨d', hd', hne⟩ := hother
      refine ⟨d', isOwner_applyTransition_of_not_unseats hd' fun hu' ↦ ?_⟩
      obtain ⟨r, he, _⟩ := unseats_iff.mp hu'
      rw [hu.roleEffect_eq_none hne] at he
      cases he
    · exact ⟨d, isOwner_applyTransition_of_not_unseats hd hu⟩

private theorem kind_of_unowned {s : NetworkState} {t : Transition} (hk : s.kind = .closed)
    (hn : ¬ Owned s) (hq : QuorumMet s t) : (applyTransition s t).kind = .closed := by
  rw [kind_applyTransition, kindAfter]
  split
  · next to_ hv =>
    unfold QuorumMet at hq
    rw [hv] at hq
    cases to_ with
    | closed => rfl
    | silent => exact hq.elim
    | «open» =>
      obtain ⟨_, d, _, hd⟩ := hq
      exact absurd ⟨d, hd⟩ hn
  · exact hk

/-- Reopening and granting Owner both need an owner, so a closed network that lost its last one
stays closed and ownerless. -/
private theorem unowned_step {s : NetworkState} {t : Transition} (hk : s.kind = .closed)
    (hn : ¬ Owned s) (hq : QuorumMet s t) : ¬ Owned (applyTransition s t) := by
  rintro ⟨d, hd⟩
  obtain ⟨x, _, hx⟩ := ownerSigned_of_gained hk hq (fun ho ↦ hn ⟨d, ho⟩) hd
  exact hn ⟨x, hx⟩

/-- Whoever is unseated last leaves nobody. -/
theorem not_owned_of_unseatsLastOwner {s : NetworkState} {t : Transition}
    (h : UnseatsLastOwner s t) : ¬ Owned (applyTransition s t) := by
  obtain ⟨x, hx, -, honly⟩ := h
  rintro ⟨d, hd⟩
  by_cases hdx : d = x
  · exact hx.not_isOwner (hdx ▸ hd)
  · unfold NetworkState.IsOwner at hd
    rw [roles_applyTransition, hx.roleEffect_eq_none hdx] at hd
    exact hdx (honly d hd)

/-- Unseating an owner is no change of kind. -/
theorem kind_of_unseatsLastOwner {s : NetworkState} {t : Transition}
    (h : UnseatsLastOwner s t) : (applyTransition s t).kind = s.kind := by
  obtain ⟨x, hx, -⟩ := h
  rw [kind_applyTransition, kindAfter_of_unseats hx]

/-- Once an entry of an accepted log unseats the last owner, the log ends closed and ownerless. -/
theorem not_owned_of_unseats {networkId : String} {pre post : List Transition} {t : Transition}
    {s u : NetworkState} (hu : verifyLog P networkId (pre ++ t :: post) = .ok u)
    (hs : verifyLog P networkId pre = .ok s) (hk : s.kind = .closed)
    (hlast : UnseatsLastOwner s t) : u.kind = .closed ∧ ¬ Owned u := by
  have hlog : pre ++ t :: post = (pre ++ [t]) ++ post := by simp
  rw [hlog] at hu
  obtain ⟨m, hm, hpost⟩ := replay_append_ok_iff.mp hu
  obtain ⟨_, _, rfl⟩ := (verifyLog_snoc_iff P hs).mp hm
  refine replay_invariant (I := fun s ↦ s.kind = .closed ∧ ¬ Owned s)
    (fun a e b _ ha hstep ↦ ?_)
    ⟨(kind_of_unseatsLastOwner hlast).trans hk, not_owned_of_unseatsLastOwner hlast⟩ hpost
  obtain ⟨_, hq, rfl⟩ := (verifyStep_ok_iff P).mp hstep
  exact ⟨kind_of_unowned ha.1 ha.2 hq, unowned_step ha.1 ha.2 hq⟩

/-- A log that never does so ends owned if it ends closed. -/
theorem owned_of_never_unseats {networkId : String} {log : List Transition} {u : NetworkState}
    (hu : verifyLog P networkId log = .ok u)
    (hstep : ∀ pre t post s, log = pre ++ t :: post → verifyLog P networkId pre = .ok s →
      s.kind = .closed → ¬ UnseatsLastOwner s t) (hk : u.kind = .closed) : Owned u := by
  -- The condition on a log holds of each prefix of it, so the log is built up from the left.
  induction log using List.reverseRecOn generalizing u with
  | nil =>
    cases hu
    cases hk
  | append_singleton init t ih =>
    obtain ⟨m, hm⟩ := replay_append_left_ok hu
    obtain ⟨_, hq, rfl⟩ := (verifyLog_snoc_iff P hm).mp hu
    refine owned_step hq (ih hm fun pre e post s hlog ↦ ?_) (hstep init t [] m rfl hm) hk
    exact hstep pre e (post ++ [t]) s (by simp [hlog])

/-- The state an accepted log leads to has an owner if it is closed, exactly when no entry
of the log unseats the last owner of the closed state it applies to. -/
theorem closed_owned_iff {networkId : String} {log : List Transition} {u : NetworkState}
    (hu : verifyLog P networkId log = .ok u) :
    (u.kind = .closed → Owned u) ↔
      ∀ pre t post s, log = pre ++ t :: post → verifyLog P networkId pre = .ok s →
        s.kind = .closed → ¬ UnseatsLastOwner s t := by
  constructor
  · rintro hall pre t post s rfl hs hk hlast
    obtain ⟨hclosed, hno⟩ := not_owned_of_unseats P hu hs hk hlast
    exact hno (hall hclosed)
  · exact fun hstep hk ↦ owned_of_never_unseats P hu hstep hk

/-- No entry of the concrete log unseats a last owner. -/
theorem closed_owned_fleetLog :
    Owned fleet ∧
      ∀ pre t post s, fleetLog = pre ++ t :: post → verifyLog seeded "fleet" pre = .ok s →
        s.kind = .closed → ¬ UnseatsLastOwner s t := by
  have howned : Owned fleet := ⟨seededDevice 1, by simp [NetworkState.IsOwner]⟩
  exact ⟨howned, (closed_owned_iff seeded verifyLog_fleetLog).mp fun _ ↦ howned⟩

/-- The only owner revokes itself and the closed network has no owner left. -/
theorem sole_owner_revokes_itself :
    ∃ s, verifyLog seeded "fleet"
        (fleetLog ++ [seededEntry 1 3 (.roleRevoke (seededDevice 1))]) = .ok s ∧
      s.kind = .closed ∧ ¬ Owned s := by
  refine ⟨_, verifyLog_snoc_seededEntry verifyLog_fleetLog 1 3 _ ?_, rfl, ?_⟩
  · simp [QuorumMet, AuthoritySigned, OwnerSigned, NetworkState.IsOwner,
      NetworkState.IsAuthority]
  · rintro ⟨d, hd⟩
    simp only [NetworkState.IsOwner, roles_applyTransition, roleEffect, variant_seededEntry,
      roles_fleet] at hd
    split at hd
    · cases hd
    · simp at hd

/-! ### What a close leaves -/

/-- The device is the only owner and nobody is Controller. -/
def SoleOwner (s : NetworkState) (f : String) : Prop :=
  (∀ d, s.IsOwner d ↔ d = f) ∧ ∀ d : String, s.roles[d]? ≠ some .controller

private theorem roles_close {s : NetworkState} {t : Transition} {f : String}
    (hv : t.variant = .kindChange .closed) (hf : t.signers.head? = some f) (d : String) :
    (applyTransition s t).roles[d]? = if f = d then some .owner else s.roles[d]? := by
  rw [roles_applyTransition, roleEffect, hv]
  simp only [hf, Option.some.injEq]
  split <;> rfl

private theorem soleOwner_close_iff {s : NetworkState} {t : Transition} {f : String}
    (hv : t.variant = .kindChange .closed) (hf : t.signers.head? = some f) :
    SoleOwner (applyTransition s t) f ↔ ∀ d, s.IsAuthority d → d = f := by
  have hr := roles_close (s := s) hv hf
  constructor
  · rintro ⟨howner, hctrl⟩ d hd
    by_contra hne
    rcases hd with hd | hd
    · exact hctrl d (by rw [hr, if_neg (Ne.symm hne), hd])
    · exact hne ((howner d).mp (by
        unfold NetworkState.IsOwner
        rw [hr, if_neg (Ne.symm hne), hd]))
  · intro h
    refine ⟨fun d ↦ ⟨fun hd ↦ ?_, ?_⟩, fun d hd ↦ ?_⟩
    · by_contra hne
      unfold NetworkState.IsOwner at hd
      rw [hr, if_neg (Ne.symm hne)] at hd
      exact hne (h d (.inr hd))
    · rintro rfl
      exact isOwner_founder hv hf
    · by_cases hfd : f = d
      · rw [hr, if_pos hfd] at hd
        exact absurd hd (by decide)
      · rw [hr, if_neg hfd] at hd
        exact hfd (h d (.inl hd)).symm

/-- Along every accepted log, each close leaves its first signer as the only owner and no
controller exactly when nobody else held Controller or Owner just before it. -/
theorem founding_soleOwner_iff {networkId : String} {log : List Transition} {u : NetworkState}
    (hu : verifyLog P networkId log = .ok u) :
    (∀ pre t post f s, log = pre ++ t :: post → t.variant = .kindChange .closed →
        t.signers.head? = some f → verifyLog P networkId (pre ++ [t]) = .ok s →
        SoleOwner s f) ↔
      ∀ pre t post f s, log = pre ++ t :: post → t.variant = .kindChange .closed →
        t.signers.head? = some f → verifyLog P networkId pre = .ok s →
        ∀ d, s.IsAuthority d → d = f := by
  constructor
  · intro hall pre t post f s hlog hv hf hs
    have hlog' : log = (pre ++ [t]) ++ post := by rw [hlog]; simp
    rw [hlog'] at hu
    obtain ⟨s', hs'⟩ := replay_append_left_ok hu
    obtain ⟨_, _, rfl⟩ := (verifyLog_snoc_iff P hs).mp hs'
    exact (soleOwner_close_iff hv hf).mp (hall pre t post f _ hlog hv hf hs')
  · intro hall pre t post f s hlog hv hf hs'
    obtain ⟨m, hm⟩ := replay_append_left_ok hs'
    obtain ⟨_, _, rfl⟩ := (verifyLog_snoc_iff P hm).mp hs'
    exact (soleOwner_close_iff hv hf).mpr (hall pre t post f m hlog hv hf hm)

/-- The concrete log closes a network nobody held authority in, so its close leaves one
owner. -/
theorem founding_soleOwner_fleetLog :
    verifyLog seeded "fleet" fleetLog = .ok fleet ∧
      ∀ pre t post f s, fleetLog = pre ++ t :: post → t.variant = .kindChange .closed →
        t.signers.head? = some f → verifyLog seeded "fleet" (pre ++ [t]) = .ok s →
        SoleOwner s f := by
  refine ⟨verifyLog_fleetLog, (founding_soleOwner_iff seeded verifyLog_fleetLog).mpr ?_⟩
  intro pre t post f s hlog hv _ hs
  cases pre with
  | nil =>
    cases hs
    intro d hd
    simp [NetworkState.IsAuthority, NetworkState.emptyFor] at hd
  | cons a rest =>
    -- The second entry is a grant.
    have ht : t ∈ [seededEntry 1 2 (.roleGrant (seededDevice 2) .controller)] := by
      rw [(List.cons.inj hlog).2]
      simp
    rw [List.mem_singleton.mp ht] at hv
    cases hv

/-- An owner grant of the open phase survives the close, which then has two owners. -/
theorem open_phase_owner_survives_close :
    ∃ s, verifyLog seeded "fleet"
        [seededEntry 3 1 (.roleGrant (seededDevice 3) .owner),
          seededEntry 1 2 (.kindChange .closed)] = .ok s ∧
      ¬ SoleOwner s (seededDevice 1) := by
  have h0 : verifyLog seeded "fleet" [] = .ok (.emptyFor "fleet") := rfl
  have h1 := verifyLog_snoc_seededEntry h0 3 1 (.roleGrant (seededDevice 3) .owner) (by
    simp [QuorumMet, NetworkState.emptyFor])
  have h2 := verifyLog_snoc_seededEntry h1 1 2 (.kindChange .closed) (by
    simp [QuorumMet, NetworkState.emptyFor, kindAfter])
  refine ⟨_, h2, fun hsole ↦ ?_⟩
  have heq := (hsole.1 (seededDevice 3)).mp (by
    simp [NetworkState.IsOwner, roles_applyTransition, roleEffect])
  simp at heq

end MyOwnMesh
