import MyOwnMesh.NetworkState.MemberLog

/-!
# What published signatures can do again

A transition's payload names the network and the variant, not a position, a nonce or a
time. A signature that is already in a log is therefore valid in every later entry of
the same variant. These results say exactly which logs give revoked authority, or a
removed member, back to whoever replays their signatures.
-/

namespace MyOwnMesh

open Lib Lib.Replay

variable (P : Primitives)

/-- The log holds this signature of this signer under an entry of this variant. -/
def Published (log : List Transition) (v : TransitionVariant) (signer sig : String) : Prop :=
  ∃ t ∈ log, t.variant = v ∧ (signer, sig) ∈ t.signers.zip t.signatures

/-- Every signature of the second log is already published in the first. -/
def Republishes (log log' : List Transition) : Prop :=
  ∀ t ∈ log', ∀ p ∈ t.signers.zip t.signatures, Published log t.variant p.1 p.2

/-- An entry built from one published signature. -/
def restamped (stamp : UInt64) (v : TransitionVariant) (signer sig : String) : Transition where
  at_ := stamp
  variant := v
  signers := [signer]
  signatures := [sig]

private theorem republishes_restamped {log : List Transition} {v : TransitionVariant}
    {signer sig : String} (h : Published log v signer sig) (stamp : UInt64) :
    Republishes log [restamped stamp v signer sig] := by
  intro t ht p hp
  rw [List.mem_singleton.mp ht] at hp ⊢
  simp only [restamped, List.zip_cons_cons, List.zip_nil_left, List.mem_singleton] at hp
  rw [hp]
  exact h

private theorem republishes_append {log xs ys : List Transition} (hx : Republishes log xs)
    (hy : Republishes log ys) : Republishes log (xs ++ ys) := by
  intro t ht
  rcases List.mem_append.mp ht with h | h
  · exact hx t h
  · exact hy t h

private theorem verify_of_published {networkId : String} {log : List Transition}
    {v : TransitionVariant} {signer sig : String}
    (hlog : ∀ t ∈ log, verifyTransitionSignatures P networkId t = .ok ())
    (h : Published log v signer sig) :
    verify P signer (transitionPayload networkId v) sig = .ok true := by
  obtain ⟨t, ht, rfl, hp⟩ := h
  have hall := ((verifyTransitionSignatures_ok_iff P networkId t).mp (hlog t ht)).2.2
  exact hall (signer, sig) hp

private theorem signatures_restamped {networkId : String} {v : TransitionVariant}
    {signer sig : String} (h : verify P signer (transitionPayload networkId v) sig = .ok true)
    (stamp : UInt64) :
    verifyTransitionSignatures P networkId (restamped stamp v signer sig) = .ok () := by
  simp [verifyTransitionSignatures_ok_iff, restamped, h]

/-- Every signer of an accepted entry comes with a signature that verifies. -/
private theorem exists_sig_of_mem_signers {networkId : String} {t : Transition} {d : String}
    (h : verifyTransitionSignatures P networkId t = .ok ()) (hd : d ∈ t.signers) :
    ∃ sig, (d, sig) ∈ t.signers.zip t.signatures ∧
      verify P d (transitionPayload networkId t.variant) sig = .ok true := by
  obtain ⟨hl, _, hall⟩ := (verifyTransitionSignatures_ok_iff P networkId t).mp h
  have hmap : d ∈ (t.signers.zip t.signatures).map Prod.fst := by
    rw [List.map_fst_zip (le_of_eq hl)]
    exact hd
  obtain ⟨p, hp, rfl⟩ := List.mem_map.mp hmap
  exact ⟨p.2, hp, hall p hp⟩

/-! ### Removed members -/

/-- The log publishes a signature of a current authority that admits this device. -/
def ReadmissionPublished (gov : NetworkState) (networkId : String) (log : List Transition)
    (d : String) : Prop :=
  ∃ signer sig, Published log (.roleGrant d .member) signer sig ∧ gov.IsAuthority signer ∧
    verify P signer (transitionPayload networkId (.roleGrant d .member)) sig = .ok true

private theorem admitted_restamped {gov : NetworkState} {networkId : String}
    {log : List Transition} {d signer sig : String} (ha : gov.IsAuthority signer)
    (hs : verify P signer (transitionPayload networkId (.roleGrant d .member)) sig = .ok true) :
    Admitted P gov networkId
      (mergeMemberLogs log [restamped u64Max (.roleGrant d .member) signer sig]) d := by
  -- The latest timestamp wins, and a grant wins the tie at that timestamp.
  exact ⟨restamped u64Max (.roleGrant d .member) signer sig,
    mem_mergeMemberLogs.mpr (.inr (by simp)),
    ⟨signatures_restamped P hs _, signer, by simp [restamped], ha⟩, rfl,
    fun e _ _ _ ↦ le_u64Max e.at_⟩

private theorem readmissionPublished_of_admitted {gov : NetworkState} {networkId : String}
    {log log' : List Transition} {d : String} (hr : Republishes log log')
    (h : Admitted P gov networkId (mergeMemberLogs log log') d) :
    ReadmissionPublished P gov networkId log d := by
  obtain ⟨e, he, ⟨hs, signer, hmem, hauth⟩, hv, _⟩ := h
  obtain ⟨sig, hp, hver⟩ := exists_sig_of_mem_signers P hs hmem
  unfold Admits at hv
  rw [hv] at hver
  refine ⟨signer, sig, ?_, hauth, hver⟩
  rcases mem_mergeMemberLogs.mp he with h | h
  · exact ⟨e, h, hv, hp⟩
  · exact hv ▸ hr e h _ hp

/-- No replay of a member log's own signatures readmits a device it removed, exactly when
the log publishes no admission of that device by a current authority. -/
theorem removed_not_readmitted_iff (gov : NetworkState) (networkId : String)
    (log : List Transition) :
    (∀ log', Republishes log log' → ∀ d ∈ memberLogRemoved P gov log networkId,
        d ∉ verifyMemberLog P gov (mergeMemberLogs log log') networkId) ↔
      ∀ d, Tombstoned P gov networkId log d → ¬ ReadmissionPublished P gov networkId log d := by
  simp only [mem_memberLogRemoved, mem_verifyMemberLog]
  constructor
  · rintro hall d hd ⟨signer, sig, hpub, hauth, hver⟩
    exact hall _ (republishes_restamped hpub _) d hd (admitted_restamped P hauth hver)
  · intro hnone log' hr d hd hadm
    exact hnone d hd (readmissionPublished_of_admitted P hr hadm)

/-- An admit of the concrete network, its later evict, and the same admit restamped. -/
theorem evicted_member_readmitted :
    ∃ log log', Republishes log log' ∧
      seededDevice 3 ∈ memberLogRemoved seeded fleet log "fleet" ∧
      seededDevice 3 ∈ verifyMemberLog seeded fleet (mergeMemberLogs log log') "fleet" := by
  refine ⟨[seededEntry 1 1 (.roleGrant (seededDevice 3) .member),
      seededEntry 1 2 (.evict (seededDevice 3))],
    [seededEntry 1 3 (.roleGrant (seededDevice 3) .member)], ?_, ?_, ?_⟩
  · intro t ht p hp
    rw [List.mem_singleton.mp ht] at hp ⊢
    exact ⟨_, List.mem_cons_self, rfl, hp⟩
  · rw [mem_memberLogRemoved]
    refine ⟨seededEntry 1 2 (.evict (seededDevice 3)), by simp, counted_fleet _ _, .inr rfl, ?_⟩
    intro e he _ ha
    simp only [List.mem_cons, List.not_mem_nil, or_false] at he
    rcases he with rfl | rfl
    · decide
    · cases ha
  · rw [mem_verifyMemberLog]
    refine ⟨seededEntry 1 3 (.roleGrant (seededDevice 3) .member),
      mem_mergeMemberLogs.mpr (.inr (by simp)), counted_fleet _ _, rfl, ?_⟩
    intro e he _ hr
    rcases mem_mergeMemberLogs.mp he with he | he
    · simp only [List.mem_cons, List.not_mem_nil, or_false] at he
      rcases he with rfl | rfl <;> decide
    · rw [List.mem_singleton.mp he]
      decide

/-! ### Revoked authority -/

/-- Anyone can grant and close from here: the network is open, or the log publishes a
reopening of it by one of its owners. -/
def Reopenable (log : List Transition) (s : NetworkState) : Prop :=
  s.kind = .open ∨ ∃ signer sig, Published log (.kindChange .open) signer sig ∧ s.IsOwner signer

/-- The authority of the second state does not exceed that of the first. -/
def AuthorityWithin (s s' : NetworkState) : Prop :=
  (∀ d, s'.IsAuthority d → s.IsAuthority d) ∧ ∀ d, s'.IsOwner d → s.IsOwner d

/-- Every grant and election the log publishes, and that would still be accepted, names a
device that already holds the granted tier. -/
structure GrantsSpent (log : List Transition) (s : NetworkState) : Prop where
  controller : ∀ x signer sig, Published log (.roleGrant x .controller) signer sig →
    Reopenable log s ∨ s.IsAuthority signer → s.IsAuthority x
  owner : ∀ x signer sig, Published log (.roleGrant x .owner) signer sig →
    Reopenable log s ∨ s.IsOwner signer → s.IsOwner x
  founder : ∀ signer sig, Published log (.kindChange .closed) signer sig →
    Reopenable log s → s.IsOwner signer

private theorem published_of_signed {networkId : String} {log : List Transition}
    {t : Transition} {d : String}
    (hpub : ∀ p ∈ t.signers.zip t.signatures, Published log t.variant p.1 p.2)
    (hs : verifyTransitionSignatures P networkId t = .ok ()) (hd : d ∈ t.signers) :
    ∃ sig, Published log t.variant d sig := by
  obtain ⟨sig, hp, _⟩ := exists_sig_of_mem_signers P hs hd
  exact ⟨sig, hpub _ hp⟩

private theorem exists_published {networkId : String} {log : List Transition}
    {t : Transition} (hpub : ∀ p ∈ t.signers.zip t.signatures, Published log t.variant p.1 p.2)
    (hs : verifyTransitionSignatures P networkId t = .ok ()) :
    ∃ signer sig, Published log t.variant signer sig := by
  have hne := ((verifyTransitionSignatures_ok_iff P networkId t).mp hs).2.1
  obtain ⟨d, hd⟩ := List.exists_mem_of_ne_nil _ hne
  exact ⟨d, published_of_signed P hpub hs hd⟩

/-- What a replay keeps: no tier above `s`, and an open network only if `s` is reopenable. -/
private def Held (log : List Transition) (s a : NetworkState) : Prop :=
  AuthorityWithin s a ∧ (a.kind ≠ .closed → Reopenable log s)

private theorem grant_spent {networkId : String} {log : List Transition} {s a : NetworkState}
    {t : Transition} {x : String} {r : Role} (hg : GrantsSpent log s) (ha : Held log s a)
    (hpub : ∀ p ∈ t.signers.zip t.signatures, Published log t.variant p.1 p.2)
    (hs : verifyTransitionSignatures P networkId t = .ok ()) (hq : QuorumMet a t)
    (hv : t.variant = .roleGrant x r) :
    (r = .owner → s.IsOwner x) ∧ (r = .controller → s.IsAuthority x) := by
  unfold QuorumMet at hq
  rw [hv] at hq
  have hany := exists_published P hpub hs
  rw [hv] at hany
  obtain ⟨signer, sig, hsig⟩ := hany
  constructor
  · rintro rfl
    by_cases hk : a.kind = .closed
    · obtain ⟨d, hd, ho⟩ := hq hk
      obtain ⟨sig', hsig'⟩ := published_of_signed P hpub hs hd
      rw [hv] at hsig'
      exact hg.owner x d sig' hsig' (.inr (ha.1.2 d ho))
    · exact hg.owner x signer sig hsig (.inl (ha.2 hk))
  · rintro rfl
    by_cases hk : a.kind = .closed
    · obtain ⟨d, hd, ho⟩ := hq hk
      obtain ⟨sig', hsig'⟩ := published_of_signed P hpub hs hd
      rw [hv] at hsig'
      exact hg.controller x d sig' hsig' (.inr (ha.1.1 d ho))
    · exact hg.controller x signer sig hsig (.inl (ha.2 hk))

/-- An accepted replayed entry writes no tier its target does not already hold in `s`. -/
private theorem effect_spent {networkId : String} {log : List Transition} {s a : NetworkState}
    {t : Transition} {d : String} {r : Role} (hg : GrantsSpent log s) (ha : Held log s a)
    (hpub : ∀ p ∈ t.signers.zip t.signatures, Published log t.variant p.1 p.2)
    (hs : verifyTransitionSignatures P networkId t = .ok ()) (hq : QuorumMet a t)
    (he : roleEffect t d = some (some r)) :
    (r = .owner → s.IsOwner d) ∧ (r = .controller → s.IsAuthority d) := by
  unfold roleEffect at he
  split at he
  · next hv =>
    split at he
    · next hf =>
      cases he
      have hopen : a.kind = .open := by
        unfold QuorumMet at hq
        rw [hv] at hq
        exact hq.1
      have hre := ha.2 (by rw [hopen]; decide)
      obtain ⟨sig, hsig⟩ := published_of_signed P hpub hs (List.mem_of_mem_head? hf)
      rw [hv] at hsig
      have ho := hg.founder d sig hsig hre
      exact ⟨fun _ ↦ ho, fun _ ↦ ho.isAuthority⟩
    · cases he
  · next x r' hv =>
    split at he
    · next hx =>
      cases he
      exact grant_spent P hg ha hpub hs hq (hx ▸ hv)
    · cases he
  · split at he <;> cases he
  · split at he <;> cases he
  · cases he

private theorem held_step {networkId : String} {log : List Transition} {s a : NetworkState}
    {t : Transition} (hg : GrantsSpent log s) (ha : Held log s a)
    (hpub : ∀ p ∈ t.signers.zip t.signatures, Published log t.variant p.1 p.2)
    (hs : verifyTransitionSignatures P networkId t = .ok ()) (hq : QuorumMet a t) :
    Held log s (applyTransition a t) := by
  have heff := fun d r ↦ effect_spent P (d := d) (r := r) hg ha hpub hs hq
  refine ⟨⟨fun d hd ↦ ?_, fun d hd ↦ ?_⟩, fun hk ↦ ?_⟩
  · unfold NetworkState.IsAuthority at hd
    rw [roles_applyTransition] at hd
    cases he : roleEffect t d with
    | none =>
      rw [he] at hd
      exact ha.1.1 d hd
    | some o =>
      rw [he, Option.getD_some] at hd
      rcases hd with rfl | rfl
      · exact (heff d _ he).2 rfl
      · exact ((heff d _ he).1 rfl).isAuthority
  · unfold NetworkState.IsOwner at hd
    rw [roles_applyTransition] at hd
    cases he : roleEffect t d with
    | none =>
      rw [he] at hd
      exact ha.1.2 d hd
    | some o =>
      rw [he, Option.getD_some] at hd
      subst hd
      exact (heff d _ he).1 rfl
  · rw [kind_applyTransition, kindAfter] at hk
    split at hk
    · next to_ hv =>
      unfold QuorumMet at hq
      rw [hv] at hq
      cases to_ with
      | closed => exact absurd rfl hk
      | silent => exact hq.elim
      | «open» =>
        obtain ⟨_, d, hd, ho⟩ := hq
        obtain ⟨sig, hsig⟩ := published_of_signed P hpub hs hd
        rw [hv] at hsig
        exact .inr ⟨d, sig, hsig, ha.1.2 d ho⟩
    · exact ha.2 hk

private theorem held_replay {networkId : String} {log ext : List Transition}
    {s u : NetworkState} (hs : verifyLog P networkId log = .ok s) (hg : GrantsSpent log s)
    (hr : Republishes log ext) (hu : verifyLog P networkId (log ++ ext) = .ok u) :
    AuthorityWithin s u := by
  obtain ⟨m, hm, hext⟩ := replay_append_ok_iff.mp hu
  rw [← verifyLog, hs] at hm
  cases hm
  have hstart : Held log s s := by
    refine ⟨⟨fun _ h ↦ h, fun _ h ↦ h⟩, fun hk ↦ .inl ?_⟩
    cases hkind : s.kind with
    | «open» => rfl
    | closed => exact absurd hkind hk
    | silent => exact absurd hkind (kind_ne_silent P hs)
  have hend : Held log s u := by
    refine replay_invariant (I := Held log s) (fun a t b ht ha hstep ↦ ?_) hstart hext
    obtain ⟨hsig, hq, rfl⟩ := (verifyStep_ok_iff P).mp hstep
    exact held_step P hg ha (hr t ht) hsig hq
  exact hend.1

/-- One published signature re-appended as an entry of its own. -/
private theorem verifyLog_restamped {networkId : String} {log ext : List Transition}
    {s a : NetworkState} {v : TransitionVariant} {signer sig : String}
    (hs : verifyLog P networkId log = .ok s) (ha : verifyLog P networkId (log ++ ext) = .ok a)
    (hpub : Published log v signer sig) (hq : QuorumMet a (restamped 0 v signer sig)) :
    verifyLog P networkId (log ++ (ext ++ [restamped 0 v signer sig])) =
      .ok (applyTransition a (restamped 0 v signer sig)) := by
  have hver := verify_of_published P
    (fun t ht ↦ (accepted_of_mem P hs ht).1) hpub
  rw [← List.append_assoc, verifyLog_snoc_iff P ha]
  exact ⟨signatures_restamped P hver 0, hq, rfl⟩

/-- A reopenable state is opened, with its roles untouched, by published signatures alone. -/
private theorem exists_open_extension {networkId : String} {log : List Transition}
    {s : NetworkState} (hs : verifyLog P networkId log = .ok s) (hre : Reopenable log s) :
    ∃ ext a, Republishes log ext ∧ verifyLog P networkId (log ++ ext) = .ok a ∧
      a.kind = .open ∧ ∀ d : String, a.roles[d]? = s.roles[d]? := by
  have hbase : verifyLog P networkId (log ++ []) = .ok s := by rw [List.append_nil, hs]
  have hnil : Republishes log [] := fun t ht ↦ by cases ht
  cases hk : s.kind with
  | «open» => exact ⟨[], s, hnil, hbase, hk, fun _ ↦ rfl⟩
  | silent => exact absurd hk (kind_ne_silent P hs)
  | closed =>
    rcases hre with h | ⟨signer, sig, hpub, ho⟩
    · exact absurd (h.symm.trans hk) (by decide)
    · have hq : QuorumMet s (restamped 0 (.kindChange .open) signer sig) :=
        ⟨hk, signer, by simp [restamped], ho⟩
      refine ⟨_, _, republishes_restamped hpub 0, verifyLog_restamped P hs hbase hpub hq, ?_, ?_⟩
      · simp [restamped, kindAfter]
      · intro d
        simp [roles_applyTransition, roleEffect, restamped]

/-- Along an accepted log, replaying its own signatures in any order gives no device more
authority than it holds, exactly when every grant and election that would still be
accepted is spent on a device that already holds its tier. -/
theorem revoked_authority_stays_iff {networkId : String} {log : List Transition}
    {s : NetworkState} (hs : verifyLog P networkId log = .ok s) :
    (∀ ext u, Republishes log ext → verifyLog P networkId (log ++ ext) = .ok u →
        (∀ d, ¬ s.IsAuthority d → ¬ u.IsAuthority d) ∧ ∀ d, ¬ s.IsOwner d → ¬ u.IsOwner d) ↔
      GrantsSpent log s := by
  constructor
  · intro hall
    have hbase : verifyLog P networkId (log ++ []) = .ok s := by rw [List.append_nil, hs]
    have hnil : Republishes log [] := fun t ht ↦ by cases ht
    -- Each clause is refuted by the shortest replay that would break it.
    have happly : ∀ ext a v signer sig, Republishes log ext →
        verifyLog P networkId (log ++ ext) = .ok a → Published log v signer sig →
        QuorumMet a (restamped 0 v signer sig) →
        AuthorityWithin s (applyTransition a (restamped 0 v signer sig)) := by
      intro ext a v signer sig hext ha hpub hq
      have h := hall _ _ (republishes_append hext (republishes_restamped hpub 0))
        (verifyLog_restamped P hs ha hpub hq)
      exact ⟨fun d hd ↦ by_contra fun hn ↦ h.1 d hn hd, fun d hd ↦ by_contra fun hn ↦ h.2 d hn hd⟩
    refine ⟨?_, ?_, ?_⟩
    · rintro x signer sig hpub (hre | hauth)
      · obtain ⟨ext, a, hext, ha, hk, _⟩ := exists_open_extension P hs hre
        refine (happly ext a _ signer sig hext ha hpub (fun hc ↦ ?_)).1 x (.inl ?_)
        · exact absurd (hk.symm.trans hc) (by decide)
        · simp [roles_applyTransition, roleEffect, restamped]
      · refine (happly [] s _ signer sig hnil hbase hpub (fun _ ↦ ?_)).1 x (.inl ?_)
        · exact ⟨signer, by simp [restamped], hauth⟩
        · simp [roles_applyTransition, roleEffect, restamped]
    · rintro x signer sig hpub (hre | howner)
      · obtain ⟨ext, a, hext, ha, hk, _⟩ := exists_open_extension P hs hre
        refine (happly ext a _ signer sig hext ha hpub (fun hc ↦ ?_)).2 x ?_
        · exact absurd (hk.symm.trans hc) (by decide)
        · simp [NetworkState.IsOwner, roles_applyTransition, roleEffect, restamped]
      · refine (happly [] s _ signer sig hnil hbase hpub (fun _ ↦ ?_)).2 x ?_
        · exact ⟨signer, by simp [restamped], howner⟩
        · simp [NetworkState.IsOwner, roles_applyTransition, roleEffect, restamped]
    · intro signer sig hpub hre
      obtain ⟨ext, a, hext, ha, hk, _⟩ := exists_open_extension P hs hre
      refine (happly ext a _ signer sig hext ha hpub ⟨hk, by simp [restamped]⟩).2 signer ?_
      simp [NetworkState.IsOwner, roles_applyTransition, roleEffect, restamped]
  · intro hg ext u hr hu
    have h := held_replay P hs hg hr hu
    exact ⟨fun d hd hu ↦ hd (h.1 d hu), fun d hd hu ↦ hd (h.2 d hu)⟩

/-- The concrete log has spent its grant and its election, so replaying them gives nothing. -/
theorem revoked_authority_stays_fleetLog :
    verifyLog seeded "fleet" fleetLog = .ok fleet ∧
      ∀ ext u, Republishes fleetLog ext → verifyLog seeded "fleet" (fleetLog ++ ext) = .ok u →
        (∀ d, ¬ fleet.IsAuthority d → ¬ u.IsAuthority d) ∧
          ∀ d, ¬ fleet.IsOwner d → ¬ u.IsOwner d := by
  have hpub : ∀ v signer sig, Published fleetLog v signer sig → signer = seededDevice 1 ∧
      (v = .kindChange .closed ∨ v = .roleGrant (seededDevice 2) .controller) := by
    rintro v signer sig ⟨t, ht, rfl, hp⟩
    simp only [fleetLog, List.mem_cons, List.not_mem_nil, or_false] at ht
    rcases ht with rfl | rfl
    · exact ⟨List.mem_singleton.mp (List.of_mem_zip hp).1, .inl rfl⟩
    · exact ⟨List.mem_singleton.mp (List.of_mem_zip hp).1, .inr rfl⟩
  refine ⟨verifyLog_fleetLog,
    (revoked_authority_stays_iff seeded verifyLog_fleetLog).mpr ⟨?_, ?_, ?_⟩⟩
  · intro x signer sig h _
    obtain ⟨-, hv | hv⟩ := hpub _ _ _ h
    · cases hv
    · cases hv
      simp [NetworkState.IsAuthority]
  · intro x signer sig h _
    obtain ⟨-, hv | hv⟩ := hpub _ _ _ h
    · cases hv
    · cases hv
  · intro signer sig h _
    rw [(hpub _ _ _ h).1]
    simp [NetworkState.IsOwner]

/-- A revoked controller of the concrete network is restored by its own old grant. -/
theorem revoked_controller_restored :
    ∃ log ext s u, verifyLog seeded "fleet" log = .ok s ∧ Republishes log ext ∧
      verifyLog seeded "fleet" (log ++ ext) = .ok u ∧ ¬ s.IsAuthority (seededDevice 2) ∧
      u.IsAuthority (seededDevice 2) := by
  have h1 := verifyLog_snoc_seededEntry verifyLog_fleetLog 1 3 (.roleRevoke (seededDevice 2)) (by
    simp [QuorumMet, AuthoritySigned, OwnerSigned, NetworkState.IsOwner,
      NetworkState.IsAuthority])
  have h2 := verifyLog_snoc_seededEntry h1 1 4 (.roleGrant (seededDevice 2) .controller) (by
    simp [QuorumMet, AuthoritySigned, NetworkState.IsAuthority, roles_applyTransition,
      roleEffect])
  refine ⟨_, [seededEntry 1 4 (.roleGrant (seededDevice 2) .controller)], _, _, h1, ?_, h2,
    ?_, ?_⟩
  · intro t ht p hp
    rw [List.mem_singleton.mp ht] at hp ⊢
    exact ⟨seededEntry 1 2 (.roleGrant (seededDevice 2) .controller), by simp [fleetLog], rfl, hp⟩
  · simp [NetworkState.IsAuthority, roles_applyTransition, roleEffect]
  · simp [NetworkState.IsAuthority, roles_applyTransition, roleEffect]

end MyOwnMesh
