import MyOwnMesh.Engine.Readmission
import MyOwnMesh.Engine.Retention
import MyOwnMesh.Engine.Tags

/-!
# What state broadcasts show of a divergence

`crates/myownmesh-core/src/engine/governance.rs:663–713` and `:1728–1748`. A node tells its
peers the lengths of its two logs and a hash of its roster's ids; a peer pulls the logs when
the hash differs or one of the counts is larger than its own. The governance log only ever
grows along one line, so its length names it; the member log is a set that several managers
extend at once, and its size does not.
-/

namespace MyOwnMesh

open Lib Lib.Replay

variable {P : Primitives}

/-- The snapshot a node sends to its peers; `governance.rs:1728–1748`. Counts are truncated
to 32 bits. -/
def stateBroadcast (s : EngineState P) : StateBroadcast where
  kind := s.governance.kind
  transitionsCount := s.governance.transitions.length.toUInt32
  memberLogCount := s.governance.memberLog.length.toUInt32
  rosterRoot := membershipRoot P s.roster

/-- A peer's snapshot makes this node ask for the peer's roster and logs;
`governance.rs:663–713`. The drift report before it asks for nothing. -/
def onStateBroadcast (s : EngineState P) (msg : StateBroadcast) : Bool :=
  let membershipDiffers := membershipRoot P s.roster != msg.rosterRoot
  membershipDiffers ||
    decide (s.governance.transitions.length.toUInt32 < msg.transitionsCount) ||
    decide (s.governance.memberLog.length.toUInt32 < msg.memberLogCount)

/-- Neither node asks the other for its logs. -/
def Quiet (a b : EngineState P) : Prop :=
  onStateBroadcast a (stateBroadcast b) = false ∧ onStateBroadcast b (stateBroadcast a) = false

/-- The two nodes hold the same governance log and the same member entries. -/
def Agreed (a b : EngineState P) : Prop :=
  a.governance.transitions = b.governance.transitions ∧
    ∀ t, t ∈ a.governance.memberLog ↔ t ∈ b.governance.memberLog

private theorem toUInt32_eq_iff (m n : Nat) :
    m.toUInt32 = n.toUInt32 ↔ m % 2 ^ 32 = n % 2 ^ 32 := by
  rw [← UInt32.toNat_inj]
  show (UInt32.ofNat m).toNat = (UInt32.ofNat n).toNat ↔ _
  rw [UInt32.toNat_ofNat', UInt32.toNat_ofNat']

/-- Two nodes are quiet exactly when the roots and both truncated counts are equal. -/
theorem quiet_iff (a b : EngineState P) :
    Quiet a b ↔ membershipRoot P a.roster = membershipRoot P b.roster ∧
      a.governance.transitions.length % 2 ^ 32 = b.governance.transitions.length % 2 ^ 32 ∧
      a.governance.memberLog.length % 2 ^ 32 = b.governance.memberLog.length % 2 ^ 32 := by
  have hasks : ∀ s u : EngineState P, onStateBroadcast s (stateBroadcast u) = false ↔
      membershipRoot P s.roster = membershipRoot P u.roster ∧
        u.governance.transitions.length.toUInt32 ≤ s.governance.transitions.length.toUInt32 ∧
        u.governance.memberLog.length.toUInt32 ≤ s.governance.memberLog.length.toUInt32 := by
    intro s u
    simp [onStateBroadcast, stateBroadcast, and_assoc]
  rw [Quiet, hasks, hasks, ← toUInt32_eq_iff, ← toUInt32_eq_iff]
  constructor
  · rintro ⟨⟨hroot, ht, hm⟩, -, ht', hm'⟩
    exact ⟨hroot, UInt32.le_antisymm ht' ht, UInt32.le_antisymm hm' hm⟩
  · rintro ⟨hroot, ht, hm⟩
    exact ⟨⟨hroot, ht ▸ UInt32.le_refl _, hm ▸ UInt32.le_refl _⟩, hroot.symm,
      ht ▸ UInt32.le_refl _, hm ▸ UInt32.le_refl _⟩

/-- Roots differ where the hashed ids do, unless these very texts collide. -/
theorem membershipRoot_eq_iff {a b : Roster}
    (hsha : P.sha256 (Text.utf8 (membershipText a)) = P.sha256 (Text.utf8 (membershipText b)) →
      membershipText a = membershipText b) :
    membershipRoot P a = membershipRoot P b ↔ membershipText a = membershipText b := by
  rw [membershipRoot, membershipRoot, base32Lower_inj]
  exact ⟨hsha, fun h ↦ by rw [h]⟩

/-- Logs on one line are told apart by their lengths. -/
private theorem eq_of_prefix_of_length {a b : List Transition} (h : a <+: b ∨ b <+: a)
    (hlen : a.length = b.length) : a = b := by
  rcases h with h | h
  · exact h.eq_of_length hlen
  · exact (h.eq_of_length hlen.symm).symm

/-- What two histories must be to each other for their sizes to tell them apart: one member
log contains the other, both repeat entries equally often, and no size is ahead by a full
turn of a 32-bit count. -/
structure OneAhead (a b : EngineState P) : Prop where
  /-- No manager of one side wrote an entry the other lacks while the other did as much. -/
  contained : a.governance.memberLog ⊆ b.governance.memberLog ∨
    b.governance.memberLog ⊆ a.governance.memberLog
  /-- Neither log has more copies of its own entries than the other. -/
  copies : surplusCopies a.governance.memberLog % 2 ^ 32 =
    surplusCopies b.governance.memberLog % 2 ^ 32
  /-- The numbers of distinct member entries are less than a turn apart. -/
  members : a.governance.memberLog.dedup.length < b.governance.memberLog.dedup.length + 2 ^ 32 ∧
    b.governance.memberLog.dedup.length < a.governance.memberLog.dedup.length + 2 ^ 32
  /-- So are the lengths of the governance logs. -/
  transitions : a.governance.transitions.length < b.governance.transitions.length + 2 ^ 32 ∧
    b.governance.transitions.length < a.governance.transitions.length + 2 ^ 32

/-- A state that some run reaches without ever ratifying an entry its member log holds. -/
def RecordedOnce (s : EngineState P) : Prop :=
  ∃ networkId signingKey label roster topology ops,
    AllSteps step RatifiesNew (EngineState.start networkId signingKey label roster topology) ops ∧
      s = run step (EngineState.start networkId signingKey label roster topology) ops

/-- A log is as long as its distinct entries and its copies together. -/
private theorem length_eq_dedup_add_surplus (log : List Transition) :
    log.length = log.dedup.length + surplusCopies log := by
  have hle : log.dedup.length ≤ log.length := (List.dedup_sublist log).length_le
  rw [surplusCopies]
  omega

private theorem surplusCopies_eq_zero {log : List Transition} (h : log.Nodup) :
    surplusCopies log = 0 := by
  rw [surplusCopies, h.dedup, Nat.sub_self]

private theorem RecordedOnce.nodup {s : EngineState P} (h : RecordedOnce s) :
    s.governance.memberLog.Nodup := by
  obtain ⟨networkId, signingKey, label, roster, topology, ops, hnew, rfl⟩ := h
  exact nodup_run ops hnew List.nodup_nil

/-- A log inside another with as many distinct entries holds all of them. -/
private theorem subset_of_length_dedup {xs ys : List Transition} (hsub : xs ⊆ ys)
    (hlen : ys.dedup.length ≤ xs.dedup.length) : ys ⊆ xs := by
  have hsp : xs.dedup.Subperm ys.dedup :=
    (List.nodup_dedup xs).subperm fun t ht ↦ List.mem_dedup.mpr (hsub (List.mem_dedup.mp ht))
  have hperm := hsp.perm_of_length_le hlen
  intro t ht
  exact List.mem_dedup.mp (hperm.mem_iff.mpr (List.mem_dedup.mpr ht))

/-- Of two histories one of which is ahead, equal truncated counts leave no difference. -/
private theorem OneAhead.agreed {a b : EngineState P} (h : OneAhead a b)
    (hline : a.governance.transitions <+: b.governance.transitions ∨
      b.governance.transitions <+: a.governance.transitions)
    (ht : a.governance.transitions.length % 2 ^ 32 = b.governance.transitions.length % 2 ^ 32)
    (hm : a.governance.memberLog.length % 2 ^ 32 = b.governance.memberLog.length % 2 ^ 32) :
    Agreed a b := by
  obtain ⟨hcontained, hcopies, ⟨hab, hba⟩, ⟨htab, htba⟩⟩ := h
  have hlog : a.governance.transitions.length = b.governance.transitions.length := by omega
  -- With the copies taken off, the distinct entries are equally many.
  rw [length_eq_dedup_add_surplus a.governance.memberLog,
    length_eq_dedup_add_surplus b.governance.memberLog] at hm
  have hdistinct :
      a.governance.memberLog.dedup.length = b.governance.memberLog.dedup.length := by
    omega
  refine ⟨eq_of_prefix_of_length hline hlog, fun t ↦ ?_⟩
  cases hcontained with
  | inl hsub =>
    have hback := subset_of_length_dedup hsub hdistinct.ge
    exact ⟨fun hx ↦ hsub hx, fun hx ↦ hback hx⟩
  | inr hsub =>
    have hback := subset_of_length_dedup hsub hdistinct.le
    exact ⟨fun hx ↦ hback hx, fun hx ↦ hsub hx⟩

/-- Nodes that agree, and whose counts do, are a case of it. -/
private theorem OneAhead.of_agreed {a b : EngineState P} (h : Agreed a b)
    (hm : a.governance.memberLog.length % 2 ^ 32 = b.governance.memberLog.length % 2 ^ 32) :
    OneAhead a b := by
  obtain ⟨hlog, hmem⟩ := h
  have hperm : a.governance.memberLog.dedup.Perm b.governance.memberLog.dedup := by
    rw [List.perm_ext_iff_of_nodup (List.nodup_dedup _) (List.nodup_dedup _)]
    intro t
    rw [List.mem_dedup, List.mem_dedup, hmem]
  have hdistinct := hperm.length_eq
  rw [length_eq_dedup_add_surplus a.governance.memberLog,
    length_eq_dedup_add_surplus b.governance.memberLog] at hm
  refine ⟨.inl fun t ht ↦ (hmem t).mp ht, ?_, ?_, ?_⟩
  · omega
  · omega
  · rw [hlog]
    omega

/-- Of two nodes whose governance logs lie on one line, silence means agreement where one is
ahead of the other, and nowhere else: two silent nodes neither of which is ahead differ. Two
nodes that never ratified an entry twice are such a pair as soon as one member log contains
the other and the sizes fit the counts. -/
theorem silence_means_agreement {a b : EngineState P}
    (hline : a.governance.transitions <+: b.governance.transitions ∨
      b.governance.transitions <+: a.governance.transitions) :
    (OneAhead a b → Quiet a b → Agreed a b) ∧
      (¬ OneAhead a b → Quiet a b → ¬ Agreed a b) ∧
      (RecordedOnce a → RecordedOnce b →
        a.governance.memberLog ⊆ b.governance.memberLog ∨
          b.governance.memberLog ⊆ a.governance.memberLog →
        a.governance.memberLog.length < 2 ^ 32 → b.governance.memberLog.length < 2 ^ 32 →
        a.governance.transitions.length < 2 ^ 32 → b.governance.transitions.length < 2 ^ 32 →
        OneAhead a b) := by
  refine ⟨fun hahead hquiet ↦ ?_, fun hahead hquiet hagreed ↦ ?_, ?_⟩
  · obtain ⟨-, ht, hm⟩ := (quiet_iff a b).mp hquiet
    exact hahead.agreed hline ht hm
  · obtain ⟨-, -, hm⟩ := (quiet_iff a b).mp hquiet
    exact hahead (.of_agreed hagreed hm)
  · intro ha hb hcontained hma hmb hta htb
    refine ⟨hcontained, ?_, ?_, by omega⟩
    · rw [surplusCopies_eq_zero ha.nodup, surplusCopies_eq_zero hb.nodup]
    · rw [ha.nodup.dedup, hb.nodup.dedup]
      omega

/-! ### Concrete nodes -/

/-- The owner of the concrete network evicts a device. -/
def fleetEvict (seed : UInt8) : Transition := seededEntry 1 3 (.evict (seededDevice seed))

/-- An empty member log takes the entry it is sent. -/
private theorem memberLog_adopted {s : NetworkState} (h : s.memberLog = []) (e : Transition) :
    (adoptMemberLog s [e]).memberLog = mergeMemberLogs [] [e] := by
  have hlen : 0 < (mergeMemberLogs [] [e]).length :=
    List.length_pos_of_mem (mem_mergeMemberLogs.mpr (.inr (List.mem_singleton_self e)))
  rw [adoptMemberLog, if_neg (by simp), h]
  simp only [List.length_nil]
  rw [if_pos hlen]

private theorem memberLog_fleetEvict (seed x : UInt8) :
    (∀ t, t ∈ (fleetNode seed [fleetEvict x]).governance.memberLog ↔ t = fleetEvict x) ∧
      (fleetNode seed [fleetEvict x]).governance.memberLog.length = 1 := by
  have hlog : (fleetNode seed [fleetEvict x]).governance.memberLog =
      mergeMemberLogs [] [fleetEvict x] := by
    simp only [fleetNode, step, memberLog_adoptTransitionLog]
    exact memberLog_adopted rfl (fleetEvict x)
  have hmem : ∀ t, t ∈ mergeMemberLogs [] [fleetEvict x] ↔ t = fleetEvict x := by
    intro t
    simp [mem_mergeMemberLogs]
  have hperm := (List.perm_ext_iff_of_nodup (nodup_mergeMemberLogs [] [fleetEvict x])
    (List.nodup_singleton (fleetEvict x))).mpr fun t ↦ by rw [hmem, List.mem_singleton]
  rw [hlog]
  exact ⟨hmem, hperm.length_eq⟩

/-- Such an eviction of a device without a role leaves rows for the owner and the controller
only. -/
private theorem row_fleetEvict (seed : UInt8) {x : UInt8} (h1 : x ≠ 1) (h2 : x ≠ 2) (k : String) :
    ((fleetNode seed [fleetEvict x]).roster.row k).isSome = (fleet.roles[k]?).isSome := by
  classical
  obtain ⟨memberLog, hmem, -, hrows⟩ := fleetNode_spec seed [fleetEvict x]
  have hroles : ∀ d : String, (projection seeded "fleet" fleet memberLog)[d]? =
      fleet.roles[d]? := by
    intro d
    rw [getElem?_projection, if_neg, Option.or_none]
    rintro ⟨e, he, -, had, -⟩
    have heq : e = fleetEvict x := by simpa using (hmem e).mp he
    subst heq
    simp [Admits, fleetEvict] at had
  have hbare : ∀ d r, (projection seeded "fleet" fleet memberLog)[d]? = some r →
      pubkeyPart d = d := fun d r hd ↦ pubkeyPart_of_fleet ((hroles d).symm.trans hd)
  rw [hrows, mirroredRow]
  split
  · next hgone =>
    -- The only tombstoned device is the evicted one, which has no role.
    obtain ⟨e, he, -, hr, -⟩ := (mem_memberLogRemoved seeded).mp hgone.2
    have heq : e = fleetEvict x := by simpa using (hmem e).mp he
    subst heq
    have hk : k = seededDevice x := by simpa [Removes, fleetEvict, eq_comm] using hr
    simp [hk, Ne.symm h1, Ne.symm h2]
  · rw [claimedRole_eq_getElem? hbare, Option.or_none, Option.isSome_map, hroles]

private theorem distinct_fleetNode (seed : UInt8) (members : List Transition) :
    (fleetNode seed members).roster.Distinct := by
  have hstart : Tagged (fleetStart seed) :=
    ⟨distinct_emptyFor "fleet",
      replays_start (P := seeded) "fleet" seed "" (.emptyFor "fleet") .fullMesh⟩
  exact (hstart.step (clearEnv 0 "", .adoptTransitionLog fleetLog members)).distinct

private theorem membershipText_fleetEvict (a b : UInt8) {x y : UInt8} (hx1 : x ≠ 1)
    (hx2 : x ≠ 2) (hy1 : y ≠ 1) (hy2 : y ≠ 2) :
    membershipText (fleetNode a [fleetEvict x]).roster =
      membershipText (fleetNode b [fleetEvict y]).roster :=
  membershipText_congr (distinct_fleetNode a _) (distinct_fleetNode b _) fun k ↦ by
    rw [row_fleetEvict a hx1 hx2, row_fleetEvict b hy1 hy2]

private theorem transitions_fleetNode (seed : UInt8) (members : List Transition) :
    (fleetNode seed members).governance.transitions = fleetLog := by
  obtain ⟨memberLog, -, hg, -⟩ := fleetNode_spec seed members
  rw [hg]

/-- Nodes with equal logs and rosters of the same devices are quiet, whatever the entries of
their member logs are. -/
private theorem quiet_fleetEvict (a b : UInt8) {x y : UInt8} (hx1 : x ≠ 1) (hx2 : x ≠ 2)
    (hy1 : y ≠ 1) (hy2 : y ≠ 2) :
    Quiet (fleetNode a [fleetEvict x]) (fleetNode b [fleetEvict y]) := by
  rw [quiet_iff, membershipRoot, membershipRoot, membershipText_fleetEvict a b hx1 hx2 hy1 hy2,
    transitions_fleetNode, transitions_fleetNode, (memberLog_fleetEvict a x).2,
    (memberLog_fleetEvict b y).2]
  exact ⟨rfl, rfl, rfl⟩

private theorem recordedOnce_fleetNode (seed : UInt8) (members : List Transition) :
    RecordedOnce (fleetNode seed members) := by
  refine ⟨"fleet", seed, "", .emptyFor "fleet", .fullMesh,
    [(clearEnv 0 "", .adoptTransitionLog fleetLog members)], ⟨?_, trivial⟩, rfl⟩
  intro t ht
  exact absurd ht (by simp [ratifiedBy, intake])

/-- Two nodes that know of the same eviction are quiet and agree. -/
theorem quiet_fleet_agrees :
    Quiet (fleetNode 4 [fleetEvict 6]) (fleetNode 5 [fleetEvict 6]) ∧
      Agreed (fleetNode 4 [fleetEvict 6]) (fleetNode 5 [fleetEvict 6]) := by
  have hquiet : Quiet (fleetNode 4 [fleetEvict 6]) (fleetNode 5 [fleetEvict 6]) :=
    quiet_fleetEvict 4 5 (by decide) (by decide) (by decide) (by decide)
  have hgov := governance_fleetNode 4 5 [fleetEvict 6]
  obtain ⟨hsound, -, hruns⟩ := silence_means_agreement
    (a := fleetNode 4 [fleetEvict 6]) (b := fleetNode 5 [fleetEvict 6]) (.inl (by rw [hgov]))
  have hshort : ∀ seed, (fleetNode seed [fleetEvict 6]).governance.memberLog.length < 2 ^ 32 := by
    intro seed
    rw [(memberLog_fleetEvict seed 6).2]
    decide
  have hlog : ∀ seed, (fleetNode seed [fleetEvict 6]).governance.transitions.length < 2 ^ 32 := by
    intro seed
    rw [transitions_fleetNode]
    decide
  exact ⟨hquiet, hsound (hruns (recordedOnce_fleetNode 4 _) (recordedOnce_fleetNode 5 _)
    (.inl (by rw [hgov]; exact List.Subset.refl _)) (hshort 4) (hshort 5) (hlog 4) (hlog 5))
    hquiet⟩

/-- Two nodes of the closed network each know of an eviction the other has not heard of.
Their rosters list the same devices and their logs are as long as each other, so neither
asks for what it lacks. -/
theorem equal_sized_logs_stay_apart :
    Reachable (fleetNode 4 [fleetEvict 6]) ∧ Reachable (fleetNode 5 [fleetEvict 7]) ∧
      (fleetNode 4 [fleetEvict 6]).governance.kind = .closed ∧
      (fleetNode 5 [fleetEvict 7]).governance.kind = .closed ∧
      (fleetNode 4 [fleetEvict 6]).governance.transitions =
        (fleetNode 5 [fleetEvict 7]).governance.transitions ∧
      Quiet (fleetNode 4 [fleetEvict 6]) (fleetNode 5 [fleetEvict 7]) ∧
      ¬ Agreed (fleetNode 4 [fleetEvict 6]) (fleetNode 5 [fleetEvict 7]) := by
  have hreach : ∀ (seed : UInt8) (members : List Transition),
      Reachable (fleetNode seed members) := fun seed members ↦
    ⟨"fleet", seed, "", .emptyFor "fleet", .fullMesh,
      [(clearEnv 0 "", .adoptTransitionLog fleetLog members)], rfl⟩
  have hkind : ∀ (seed : UInt8) (members : List Transition),
      (fleetNode seed members).governance.kind = .closed := by
    intro seed members
    obtain ⟨memberLog, -, hg, -⟩ := fleetNode_spec seed members
    rw [hg]
  refine ⟨hreach 4 _, hreach 5 _, hkind 4 _, hkind 5 _, ?_, ?_, ?_⟩
  · rw [transitions_fleetNode, transitions_fleetNode]
  · exact quiet_fleetEvict 4 5 (by decide) (by decide) (by decide) (by decide)
  · rintro ⟨-, hmem⟩
    have hheld := (hmem (fleetEvict 6)).mp (((memberLog_fleetEvict 4 6).1 _).mpr rfl)
    have heq := ((memberLog_fleetEvict 5 7).1 _).mp hheld
    have hdev : seededDevice 6 = seededDevice 7 := by
      simpa [fleetEvict, seededEntry, signedBy] using congrArg Transition.variant heq
    rw [seededDevice_inj] at hdev
    exact absurd hdev (by decide)

end MyOwnMesh
