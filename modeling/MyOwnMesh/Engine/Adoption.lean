import MyOwnMesh.Engine.Coherence

/-!
# What an adopted log keeps of ours

`adoptTransitionLog` takes a longer log when its first entries agree with ours by variant
and by signer set. Replay also reads the order of the signers (a close elects the first)
and the timestamps (a split records its own). The state a log replays to is written in
closed form, and the forms of the two prefixes are compared.
-/

namespace MyOwnMesh

open Lib Lib.Replay

variable (P : Primitives)

/-! ### The replayed state in closed form -/

/-- A close of the log elected this device and no later entry names it. -/
def Elected (log : List Transition) (d : String) : Prop :=
  ∃ pre t post, log = pre ++ t :: post ∧ t.variant = .kindChange .closed ∧
    t.signers.head? = some d ∧ ∀ u ∈ post, memberEntryTarget u ≠ some d

/-- The role an entry that names a device writes. -/
def writtenRole (t : Transition) : Option Role :=
  match t.variant with
  | .roleGrant _ role => some role
  | _ => none

/-- The role written by the last entry that names a device. -/
def explicitRole (log : List Transition) (d : String) : Option Role :=
  log.foldl (fun r t ↦ if memberEntryTarget t = some d then writtenRole t else r) none

private theorem elected_snoc {log : List Transition} {t : Transition} {d : String} :
    Elected (log ++ [t]) d ↔
      t.variant = .kindChange .closed ∧ t.signers.head? = some d ∨
        Elected log d ∧ memberEntryTarget t ≠ some d := by
  constructor
  · rintro ⟨pre, u, post, hlog, hv, hf, hpost⟩
    rcases List.eq_nil_or_concat post with rfl | ⟨post', x, rfl⟩
    · obtain ⟨-, htu⟩ := List.append_inj' hlog rfl
      cases htu
      exact .inl ⟨hv, hf⟩
    · have hlog' : log ++ [t] = (pre ++ u :: post') ++ [x] := by simpa using hlog
      obtain ⟨rfl, hx⟩ := List.append_inj' hlog' rfl
      cases hx
      exact .inr ⟨⟨pre, u, post', rfl, hv, hf, fun w hw ↦ hpost w (by simp [hw])⟩,
        hpost t (by simp)⟩
  · rintro (⟨hv, hf⟩ | ⟨⟨pre, u, post, rfl, hv, hf, hpost⟩, ht⟩)
    · exact ⟨log, t, [], rfl, hv, hf, by simp⟩
    · refine ⟨pre, u, post ++ [t], by simp, hv, hf, fun w hw ↦ ?_⟩
      rcases List.mem_append.mp hw with hw | hw
      · exact hpost w hw
      · rw [List.mem_singleton.mp hw]
        exact ht

private theorem roleEffect_of_named {t : Transition} {d : String}
    (h : memberEntryTarget t = some d) : roleEffect t d = some (writtenRole t) := by
  unfold memberEntryTarget at h
  unfold roleEffect writtenRole
  cases hv : t.variant with
  | roleGrant x r =>
    rw [hv] at h
    simp [Option.some.inj h]
  | roleRevoke x =>
    rw [hv] at h
    simp [Option.some.inj h]
  | evict x =>
    rw [hv] at h
    simp [Option.some.inj h]
  | kindChange k =>
    rw [hv] at h
    cases h
  | split n ms =>
    rw [hv] at h
    cases h
  | topologyChange m =>
    rw [hv] at h
    cases h
  | unknown =>
    rw [hv] at h
    cases h

private theorem roleEffect_of_not_named {t : Transition} {d : String}
    (h : memberEntryTarget t ≠ some d) :
    roleEffect t d = if t.variant = .kindChange .closed ∧ t.signers.head? = some d then
      some (some .owner) else none := by
  unfold memberEntryTarget at h
  unfold roleEffect
  cases hv : t.variant with
  | roleGrant x r =>
    rw [hv] at h
    have hx : x ≠ d := fun hx ↦ h (by rw [hx])
    simp [hx]
  | roleRevoke x =>
    rw [hv] at h
    have hx : x ≠ d := fun hx ↦ h (by rw [hx])
    simp [hx]
  | evict x =>
    rw [hv] at h
    have hx : x ≠ d := fun hx ↦ h (by rw [hx])
    simp [hx]
  | kindChange k => cases k <;> simp
  | split n ms => simp
  | topologyChange m => simp
  | unknown => simp

open Classical in
/-- The role of a device after an accepted log: Owner if an election of it still stands,
else what the last entry that names it wrote. -/
theorem roles_verifyLog {networkId : String} {log : List Transition} {v : NetworkState}
    (h : verifyLog P networkId log = .ok v) (d : String) :
    v.roles[d]? = if Elected log d then some .owner else explicitRole log d := by
  induction log using List.reverseRecOn generalizing v with
  | nil =>
    cases h
    have hn : ¬ Elected [] d := by
      rintro ⟨pre, t, post, hlog, -⟩
      simp at hlog
    rw [if_neg hn]
    simp [NetworkState.emptyFor, explicitRole]
  | append_singleton init t ih =>
    obtain ⟨m, hm⟩ := replay_append_left_ok h
    obtain ⟨_, _, rfl⟩ := (verifyLog_snoc_iff P hm).mp h
    have hexp : explicitRole (init ++ [t]) d =
        if memberEntryTarget t = some d then writtenRole t else explicitRole init d := by
      simp [explicitRole]
    rw [roles_applyTransition, ih hm, hexp]
    by_cases hn : memberEntryTarget t = some d
    · have hclose : t.variant ≠ .kindChange .closed := by
        intro hv
        simp [memberEntryTarget, hv] at hn
      have hel : ¬ Elected (init ++ [t]) d := by
        rw [elected_snoc]
        simp [hclose, hn]
      rw [roleEffect_of_named hn, if_neg hel, if_pos hn, Option.getD_some]
    · rw [roleEffect_of_not_named hn, if_neg hn]
      by_cases hc : t.variant = .kindChange .closed ∧ t.signers.head? = some d
      · rw [if_pos hc, if_pos (elected_snoc.mpr (.inl hc)), Option.getD_some]
      · have hel : Elected (init ++ [t]) d ↔ Elected init d := by
          rw [elected_snoc]
          tauto
        rw [if_neg hc, Option.getD_none]
        simp only [hel]

private theorem frame_verifyLog {networkId : String} {log : List Transition} {v : NetworkState}
    (h : verifyLog P networkId log = .ok v) :
    v.kind = log.foldl kindAfter .open ∧ v.topology = log.foldl topologyAfter none ∧
      v.splits = log.flatMap splitEffect := by
  induction log using List.reverseRecOn generalizing v with
  | nil =>
    cases h
    exact ⟨rfl, rfl, rfl⟩
  | append_singleton init t ih =>
    obtain ⟨m, hm⟩ := replay_append_left_ok h
    obtain ⟨_, _, rfl⟩ := (verifyLog_snoc_iff P hm).mp h
    obtain ⟨hk, ht, hs⟩ := ih hm
    simp [hk, ht, hs]

/-! ### Two logs that pass the fork guard -/

/-- The fork guard of one pair of entries. -/
def GuardedPair (a b : Transition) : Prop := a.variant = b.variant ∧ sameSignerSet a b = true

private theorem forall₂_take_of_zip {R : Transition → Transition → Prop}
    {ours incoming : List Transition} (hlen : ours.length ≤ incoming.length)
    (hall : ∀ e ∈ incoming.zip ours, R e.1 e.2) :
    List.Forall₂ R (incoming.take ours.length) ours := by
  induction ours generalizing incoming with
  | nil => exact .nil
  | cons b rest ih =>
    cases incoming with
    | nil => simp at hlen
    | cons a more =>
      refine .cons (hall (a, b) (by simp)) (ih (by simpa using hlen) fun e he ↦ ?_)
      exact hall e (by simp [he])

private theorem guarded_of_extendsLog {ours incoming : List Transition}
    (h : extendsLog ours incoming = true) :
    ours.length < incoming.length ∧
      List.Forall₂ GuardedPair (incoming.take ours.length) ours := by
  simp only [extendsLog, Bool.and_eq_true, decide_eq_true_eq, List.all_eq_true, beq_iff_eq] at h
  exact ⟨h.1, forall₂_take_of_zip h.1.le h.2⟩

/-- A fold that reads entries only through their variants does not see the difference. -/
private theorem foldl_guarded {β : Type} {f : β → Transition → β}
    (hf : ∀ b x y, x.variant = y.variant → f b x = f b y) {xs ys : List Transition}
    (h : List.Forall₂ GuardedPair xs ys) (b : β) : xs.foldl f b = ys.foldl f b := by
  induction h generalizing b with
  | nil => rfl
  | cons hp _ ih => rw [List.foldl_cons, List.foldl_cons, hf b _ _ hp.1, ih]

private theorem explicitRole_guarded {xs ys : List Transition}
    (h : List.Forall₂ GuardedPair xs ys) (d : String) : explicitRole xs d = explicitRole ys d := by
  refine foldl_guarded (fun b x y hxy ↦ ?_) h none
  unfold memberEntryTarget writtenRole
  rw [hxy]

/-- A signer list with one distinct id starts with it. -/
private theorem head?_of_dedup {l : List String} (h : l.dedup.length = 1) :
    ∃ x, l.head? = some x ∧ ∀ y, y ∈ l ↔ y = x := by
  obtain ⟨x, hx⟩ := List.length_eq_one_iff.mp h
  have hmem : ∀ y, y ∈ l ↔ y = x := fun y ↦ by rw [← List.mem_dedup, hx, List.mem_singleton]
  refine ⟨x, ?_, hmem⟩
  cases l with
  | nil => simp at h
  | cons a rest => rw [List.head?_cons, (hmem a).mp (by simp)]

/-- The fork guard compares signers as sets. -/
theorem mem_of_sameSignerSet {a b : Transition} (h : sameSignerSet a b = true)
    (d : String) : d ∈ a.signers ↔ d ∈ b.signers := by
  simp only [sameSignerSet, Bool.and_eq_true, List.all_eq_true, List.contains_iff_mem] at h
  exact ⟨h.2.1 d, h.2.2 d⟩

/-- Each split entry has one distinct signer, the same on both sides, so only the timestamp can
tell the two records apart. -/
private theorem splitEffect_guarded {a b : Transition} (h : GuardedPair a b)
    (ha : ∀ n ms, a.variant = .split n ms → a.signers.dedup.length = 1)
    (hb : ∀ n ms, b.variant = .split n ms → b.signers.dedup.length = 1) :
    (splitEffect a).length = (splitEffect b).length ∧
      (splitEffect a = splitEffect b ↔
        ∀ n ms, b.variant = .split n ms → a.at_ = b.at_) := by
  obtain ⟨hv, hset⟩ := h
  unfold splitEffect
  rw [hv] at ha ⊢
  cases hvb : b.variant with
  | split n ms =>
    obtain ⟨x, hx, hxm⟩ := head?_of_dedup (ha n ms hvb)
    obtain ⟨y, hy, hym⟩ := head?_of_dedup (hb n ms hvb)
    have hxy : x = y := (hym x).mp ((mem_of_sameSignerSet hset x).mp ((hxm x).mpr rfl))
    simp [hx, hy, hxy]
  | kindChange k => simp
  | roleGrant d r => simp
  | roleRevoke d => simp
  | evict d => simp
  | topologyChange m => simp
  | unknown => simp

private theorem splits_guarded_iff {xs ys : List Transition}
    (h : List.Forall₂ GuardedPair xs ys)
    (hx : ∀ t ∈ xs, ∀ n ms, t.variant = .split n ms → t.signers.dedup.length = 1)
    (hy : ∀ t ∈ ys, ∀ n ms, t.variant = .split n ms → t.signers.dedup.length = 1) :
    xs.flatMap splitEffect = ys.flatMap splitEffect ↔
      ∀ p ∈ xs.zip ys, ∀ n ms, p.2.variant = .split n ms → p.1.at_ = p.2.at_ := by
  induction h with
  | nil => simp
  | @cons a b as bs hp _ ih =>
    obtain ⟨hlen, heq⟩ := splitEffect_guarded hp (hx a (by simp)) (hy b (by simp))
    have hrest := ih (fun t ht ↦ hx t (by simp [ht])) fun t ht ↦ hy t (by simp [ht])
    have hcut : splitEffect a ++ as.flatMap splitEffect = splitEffect b ++ bs.flatMap splitEffect ↔
        splitEffect a = splitEffect b ∧ as.flatMap splitEffect = bs.flatMap splitEffect :=
      ⟨fun h ↦ List.append_inj h hlen, fun h ↦ by rw [h.1, h.2]⟩
    rw [List.flatMap_cons, List.flatMap_cons, hcut, heq, hrest]
    simp

/-- The two prefixes elect the same devices, up to elections that the last entry naming the
device makes irrelevant because it grants Owner. -/
def SameElections (ours incoming : List Transition) : Prop :=
  ∀ d, explicitRole ours d ≠ some .owner →
    (Elected (incoming.take ours.length) d ↔ Elected ours d)

/-- Paired split entries carry the same timestamp. -/
def SameSplitTimes (ours incoming : List Transition) : Prop :=
  ∀ p ∈ (incoming.take ours.length).zip ours, ∀ n ms,
    p.2.variant = .split n ms → p.1.at_ = p.2.at_

private theorem split_signers {networkId : String} {log : List Transition} {v : NetworkState}
    (h : verifyLog P networkId log = .ok v) :
    ∀ t ∈ log, ∀ n ms, t.variant = .split n ms → t.signers.dedup.length = 1 := by
  intro t ht n ms hv
  obtain ⟨-, m, hq⟩ := accepted_of_mem P h ht
  unfold QuorumMet at hq
  rw [hv] at hq
  exact hq

private theorem roles_guarded_iff {networkId : String} {ours incoming : List Transition}
    {u v : NetworkState} (hv : verifyLog P networkId ours = .ok v)
    (hu : verifyLog P networkId (incoming.take ours.length) = .ok u)
    (h : List.Forall₂ GuardedPair (incoming.take ours.length) ours) :
    u.roles = v.roles ↔ SameElections ours incoming := by
  classical
  have hpoint : u.roles = v.roles ↔ ∀ d : String, u.roles[d]? = v.roles[d]? :=
    ⟨fun h d ↦ by rw [h], Std.ExtTreeMap.ext_getElem?⟩
  rw [hpoint]
  refine forall_congr' fun d ↦ ?_
  rw [roles_verifyLog P hu, roles_verifyLog P hv, explicitRole_guarded h]
  by_cases he : Elected (incoming.take ours.length) d <;> by_cases he' : Elected ours d <;>
    simp [he, he', eq_comm]

/-- When an adoption replaces our verified log by a longer one, replaying as many entries
of it as we had gives our kind and topology; it gives our roles and splits as well exactly
when the two prefixes elect the same devices and their splits carry the same times. -/
theorem adopted_keeps_ours_iff (env : Env) {s : EngineState P} {v : NetworkState}
    {incomingGov incomingMembers : List Transition}
    (hv : verifyLog P s.networkId s.governance.transitions = .ok v)
    (hlonger : s.governance.transitions.length <
      (adoptTransitionLog env s incomingGov incomingMembers).governance.transitions.length) :
    ∃ u, verifyLog P s.networkId
        ((adoptTransitionLog env s incomingGov incomingMembers).governance.transitions.take
          s.governance.transitions.length) = .ok u ∧
      (u.kind = v.kind ∧ u.roles = v.roles ∧ u.splits = v.splits ∧ u.topology = v.topology ↔
        SameElections s.governance.transitions incomingGov ∧
          SameSplitTimes s.governance.transitions incomingGov) := by
  rw [governance_adoptTransitionLog, transitions_adoptedGovernance] at hlonger ⊢
  -- A longer log can only be the incoming one, after the fork guard and `verifyLog`.
  obtain hold | ⟨w, hx, hw, hnew⟩ :=
    adoptGovernanceLog_cases (P := P) s.networkId s.governance incomingGov
  · rw [hold] at hlonger
    exact absurd hlonger (lt_irrefl _)
  · rw [hnew]
    obtain ⟨-, hpairs⟩ := guarded_of_extendsLog hx
    have hprefix : ∃ u, verifyLog P s.networkId
        (incomingGov.take s.governance.transitions.length) = .ok u := by
      rw [← List.take_append_drop s.governance.transitions.length incomingGov] at hw
      exact replay_append_left_ok hw
    obtain ⟨u, hu⟩ := hprefix
    refine ⟨u, hu, ?_⟩
    obtain ⟨huk, hut, hus⟩ := frame_verifyLog P hu
    obtain ⟨hvk, hvt, hvs⟩ := frame_verifyLog P hv
    have hkind : u.kind = v.kind := by
      rw [huk, hvk]
      exact foldl_guarded (fun b x y hxy ↦ by simp only [kindAfter, hxy]) hpairs _
    have htop : u.topology = v.topology := by
      rw [hut, hvt]
      exact foldl_guarded (fun b x y hxy ↦ by simp only [topologyAfter, hxy]) hpairs _
    have hsplits : u.splits = v.splits ↔
        SameSplitTimes s.governance.transitions incomingGov := by
      rw [hus, hvs]
      exact splits_guarded_iff hpairs (split_signers P hu) (split_signers P hv)
    rw [roles_guarded_iff P hv hu hpairs, hsplits]
    simp [hkind, htop]

/-! ### A co-signed genesis -/

/-- A close of the concrete network signed by two devices, in this order. -/
def coSignedClose (a b : UInt8) : Transition where
  at_ := 1
  variant := .kindChange .closed
  signers := [seededDevice a, seededDevice b]
  signatures := [signTransition seeded "fleet" (.kindChange .closed) a,
    signTransition seeded "fleet" (.kindChange .closed) b]

private theorem verifyLog_coSignedClose (a b : UInt8) :
    verifyLog seeded "fleet" [coSignedClose a b] =
      .ok (applyTransition (.emptyFor "fleet") (coSignedClose a b)) := by
  have h0 : verifyLog seeded "fleet" [] = .ok (.emptyFor "fleet") := rfl
  refine (verifyLog_snoc_iff seeded h0).mpr ⟨?_, ⟨rfl, by simp [coSignedClose]⟩, rfl⟩
  simp only [verifyTransitionSignatures_ok_iff, coSignedClose, signTransition, seededDevice,
    List.length_cons, List.length_nil, List.zip_cons_cons, List.zip_nil_left, List.mem_cons,
    List.not_mem_nil, or_false, forall_eq_or_imp, forall_eq, ne_eq, reduceCtorEq,
    not_false_eq_true, true_and]
  exact ⟨verify_signWith seeded a _, verify_signWith seeded b _⟩

/-- A node that holds a genesis co-signed by devices 1 and 2. -/
def coSignedNode : EngineState seeded :=
  { fleetStart 3 with
    governance := applyTransition (.emptyFor "fleet") (coSignedClose 1 2) }

/-- A co-signed genesis followed by one entry of the owner it elects. -/
def extendedGenesis (a b : UInt8) : List Transition :=
  [coSignedClose a b] ++ [seededEntry a 2 (.roleGrant (seededDevice 3) .controller)]

private theorem verifyLog_extendedGenesis (a b : UInt8) :
    ∃ w, verifyLog seeded "fleet" (extendedGenesis a b) = .ok w :=
  ⟨_, verifyLog_snoc_seededEntry (verifyLog_coSignedClose a b) a 2 _ (by
    simp [QuorumMet, AuthoritySigned, NetworkState.IsAuthority, roles_applyTransition,
      roleEffect, coSignedClose])⟩

private theorem transitions_adopt_extendedGenesis {a b : UInt8}
    (hx : extendsLog coSignedNode.governance.transitions (extendedGenesis a b) = true) :
    (adoptTransitionLog (clearEnv 0 "") coSignedNode (extendedGenesis a b)
      []).governance.transitions = extendedGenesis a b := by
  obtain ⟨w, hw⟩ := verifyLog_extendedGenesis a b
  rw [governance_adoptTransitionLog, transitions_adoptedGovernance, adoptGovernanceLog, if_pos hx]
  have hn : coSignedNode.networkId = "fleet" := rfl
  rw [hn, hw]
  have hlen : coSignedNode.governance.transitions.length < w.transitions.length := by
    rw [transitions_verifyLog seeded hw]
    simp [coSignedNode, extendedGenesis, NetworkState.emptyFor]
  simp only [hlen, ↓reduceIte]
  exact transitions_verifyLog seeded hw

/-- The genesis in our signer order, extended, keeps what ours elected. -/
theorem adopted_keeps_coSigned :
    ∃ u v, verifyLog seeded "fleet" coSignedNode.governance.transitions = .ok v ∧
      coSignedNode.governance.transitions.length < (adoptTransitionLog (clearEnv 0 "")
        coSignedNode (extendedGenesis 1 2) []).governance.transitions.length ∧
      verifyLog seeded "fleet" ((adoptTransitionLog (clearEnv 0 "") coSignedNode
        (extendedGenesis 1 2) []).governance.transitions.take 1) = .ok u ∧
      u.kind = v.kind ∧ u.roles = v.roles ∧ u.splits = v.splits ∧ u.topology = v.topology := by
  have hx : extendsLog coSignedNode.governance.transitions (extendedGenesis 1 2) = true := by
    simp [extendsLog, coSignedNode, extendedGenesis, sameSignerSet, NetworkState.emptyFor]
  have hlen : coSignedNode.governance.transitions.length < (adoptTransitionLog (clearEnv 0 "")
      coSignedNode (extendedGenesis 1 2) []).governance.transitions.length := by
    rw [transitions_adopt_extendedGenesis hx]
    simp [coSignedNode, extendedGenesis, NetworkState.emptyFor]
  have hv := verifyLog_coSignedClose 1 2
  obtain ⟨u, hu, hiff⟩ := adopted_keeps_ours_iff seeded (clearEnv 0 "") (s := coSignedNode)
    hv hlen
  refine ⟨u, _, hv, hlen, hu, hiff.mpr ⟨fun d _ ↦ Iff.rfl, fun p hp n ms hs ↦ ?_⟩⟩
  have hp' : p ∈ [(coSignedClose 1 2, coSignedClose 1 2)] := hp
  rw [List.mem_singleton.mp hp']

/-- The same genesis with its signers swapped passes the fork guard and elects the other
signer. -/
theorem swapped_genesis_adopted :
    ∃ u v, verifyLog seeded "fleet" coSignedNode.governance.transitions = .ok v ∧
      coSignedNode.governance.transitions.length < (adoptTransitionLog (clearEnv 0 "")
        coSignedNode (extendedGenesis 2 1) []).governance.transitions.length ∧
      verifyLog seeded "fleet" ((adoptTransitionLog (clearEnv 0 "") coSignedNode
        (extendedGenesis 2 1) []).governance.transitions.take
          coSignedNode.governance.transitions.length) = .ok u ∧
      u.roles ≠ v.roles := by
  have hx : extendsLog coSignedNode.governance.transitions (extendedGenesis 2 1) = true := by
    simp [extendsLog, coSignedNode, extendedGenesis, sameSignerSet, coSignedClose,
      NetworkState.emptyFor]
  rw [transitions_adopt_extendedGenesis hx]
  refine ⟨_, _, verifyLog_coSignedClose 1 2, by
    simp [coSignedNode, extendedGenesis, NetworkState.emptyFor],
    verifyLog_coSignedClose 2 1, fun h ↦ ?_⟩
  have hrole := congrArg (fun m : RoleMap ↦ m[seededDevice 2]?) h
  simp [roles_applyTransition, roleEffect, coSignedClose, NetworkState.emptyFor] at hrole

end MyOwnMesh
