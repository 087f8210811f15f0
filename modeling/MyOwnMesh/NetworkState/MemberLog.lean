import Mathlib.Data.Prod.Lex
import MyOwnMesh.Lib.LastWrite
import MyOwnMesh.NetworkState.EntryKey
import MyOwnMesh.NetworkState.GovernanceLog

/-!
# The member tier

`crates/myownmesh-core/src/network_state.rs:822–984`. Member-tier entries of every
author are merged by union and folded, last writer wins, in the order timestamp, then
tombstones before grants, then entry key. Only entries that verify and that a current
authority signed count. The verdict of a device is characterised by the counted entries
that name it, independently of how the log lists them.
-/

namespace MyOwnMesh

open Lib

/-- The entry admits a plain member. -/
def isMemberGrant (t : Transition) : Bool :=
  match t.variant with
  | .roleGrant _ .member => true
  | _ => false

/-- The sort key of the fold; `network_state.rs:937–941`. -/
def entryRank (t : Transition) : ℕ ×ₗ Bool ×ₗ String :=
  toLex (t.at_.toNat, toLex (isMemberGrant t, memberEntryKey t))

/-- The order of the fold. -/
def entryLe (a b : Transition) : Prop := entryRank a ≤ entryRank b

/-- The fold order is decided by its sort key. -/
instance : DecidableRel entryLe := fun a b ↦ inferInstanceAs (Decidable (entryRank a ≤ entryRank b))

/-- Keep every distinct entry of either side, by entry key; `network_state.rs:975–984`. -/
def mergeMemberLogs (local_ incoming : List Transition) : List Transition :=
  ((local_ ++ incoming).foldl (fun m t ↦ m.insertIfNew (memberEntryKey t) t)
    (∅ : Std.ExtTreeMap String Transition)).toList.map Prod.snd

variable (P : Primitives)

/-- What an entry writes: the loop body of `network_state.rs:944–966`. -/
def memberWrite (gov : NetworkState) (networkId : String) (t : Transition) :
    Option (String × Bool) :=
  match verifyTransitionSignatures P networkId t with
  | .error _ => none
  | .ok () =>
    if t.signers.any ((holders gov.roles Role.isAuthority).contains ·) then
      match t.variant with
      | .roleGrant target .member => some (target, true)
      | .roleRevoke target | .evict target => some (target, false)
      | _ => none
    else none

/-- Device to currently a member or explicitly removed; `network_state.rs:903–969`. -/
def memberLogVerdict (gov : NetworkState) (memberLog : List Transition) (networkId : String) :
    Std.ExtTreeMap String Bool :=
  LastWrite.fold (memberWrite P gov networkId) (memberLog.insertionSort entryLe)

/-- The devices that currently hold membership; `network_state.rs:870–879`. -/
def verifyMemberLog (gov : NetworkState) (memberLog : List Transition) (networkId : String) :
    List String :=
  ((memberLogVerdict P gov memberLog networkId).toList.filter fun e ↦ e.2).map Prod.fst

/-- The devices explicitly removed; `network_state.rs:886–896`. -/
def memberLogRemoved (gov : NetworkState) (memberLog : List Transition) (networkId : String) :
    List String :=
  ((memberLogVerdict P gov memberLog networkId).toList.filter fun e ↦ !e.2).map Prod.fst

/-! ### The union of two logs -/

private theorem getElem?_insertIfNew_entry (m : Std.ExtTreeMap String Transition) (k d : String)
    (t : Transition) :
    (m.insertIfNew k t)[d]? = if k = d ∧ d ∉ m then some t else m[d]? := by
  rw [Std.ExtTreeMap.getElem?_insertIfNew]
  simp only [Std.LawfulEqOrd.compare_eq_iff_eq]
  by_cases hk : k = d
  · subst hk
    rfl
  · simp [hk]

/-- The key map holds exactly the listed entries, each under its own key. -/
private theorem getElem?_byKey (log : List Transition) (k : String) (t : Transition) :
    (log.foldl (fun m t ↦ m.insertIfNew (memberEntryKey t) t)
        (∅ : Std.ExtTreeMap String Transition))[k]? = some t ↔
      t ∈ log ∧ memberEntryKey t = k := by
  induction log using List.reverseRecOn generalizing t with
  | nil => simp
  | append_singleton init a ih =>
    simp only [List.foldl_append, List.foldl_cons, List.foldl_nil, getElem?_insertIfNew_entry]
    split
    · next h =>
      obtain ⟨hk, -⟩ := h
      simp only [Option.some.injEq, List.mem_append, List.mem_singleton]
      constructor
      · rintro rfl
        exact ⟨.inr rfl, hk⟩
      · rintro ⟨_, ht⟩
        exact memberEntryKey_inj.mp (hk.trans ht.symm)
    · next h =>
      rw [ih]
      simp only [List.mem_append, List.mem_singleton]
      constructor
      · rintro ⟨ht, hk⟩
        exact ⟨.inl ht, hk⟩
      · rintro ⟨ht | rfl, hk⟩
        · exact ⟨ht, hk⟩
        · -- The key was taken, and only the same entry can have taken it.
          have hmem : k ∈ init.foldl (fun m t ↦ m.insertIfNew (memberEntryKey t) t)
              (∅ : Std.ExtTreeMap String Transition) := by
            by_contra hn
            exact h ⟨hk, hn⟩
          obtain ⟨t', ht'⟩ := Option.isSome_iff_exists.mp
            (Std.ExtTreeMap.isSome_getElem?_iff_mem.mpr hmem)
          obtain ⟨hin, hk'⟩ := (ih t').mp ht'
          rw [memberEntryKey_inj.mp (hk.trans hk'.symm)]
          exact ⟨hin, hk'⟩

/-- The merged log holds exactly the entries of either side. -/
theorem mem_mergeMemberLogs {local_ incoming : List Transition} {t : Transition} :
    t ∈ mergeMemberLogs local_ incoming ↔ t ∈ local_ ∨ t ∈ incoming := by
  simp only [mergeMemberLogs, List.mem_map, Prod.exists, exists_eq_right,
    Std.ExtTreeMap.mem_toList_iff_getElem?_eq_some, getElem?_byKey, List.mem_append]
  simp

/-- The merged log depends only on which entries the two sides hold. -/
theorem mergeMemberLogs_congr {a b c d : List Transition}
    (h : ∀ t, t ∈ a ∨ t ∈ b ↔ t ∈ c ∨ t ∈ d) : mergeMemberLogs a b = mergeMemberLogs c d := by
  unfold mergeMemberLogs
  congr 2
  apply Std.ExtTreeMap.ext_getElem?
  intro k
  apply Option.ext
  intro t
  simp only [getElem?_byKey, List.mem_append, h]

/-- The merged log holds every entry once. -/
theorem nodup_mergeMemberLogs (local_ incoming : List Transition) :
    (mergeMemberLogs local_ incoming).Nodup := by
  rw [mergeMemberLogs, List.nodup_iff_pairwise_ne, List.pairwise_map]
  refine List.Pairwise.imp_of_mem ?_ Std.ExtTreeMap.distinct_keys_toList
  intro x y hx hy hne heq
  rw [Std.ExtTreeMap.mem_toList_iff_getElem?_eq_some, getElem?_byKey] at hx hy
  -- Equal entries sit under equal keys.
  have hk : x.1 = y.1 := by rw [← hx.2, ← hy.2, heq]
  exact hne (Std.LawfulEqOrd.compare_eq_iff_eq.mpr hk)

/-! ### The verdict of a device -/

/-- The entry verifies and a current authority signed it. -/
def Counted (gov : NetworkState) (networkId : String) (t : Transition) : Prop :=
  verifyTransitionSignatures P networkId t = .ok () ∧ AuthoritySigned gov t

/-- The entry admits this device as a member. -/
def Admits (t : Transition) (d : String) : Prop := t.variant = .roleGrant d .member

/-- The entry is a tombstone of this device. -/
def Removes (t : Transition) (d : String) : Prop :=
  t.variant = .roleRevoke d ∨ t.variant = .evict d

/-- An entry writes the role Member exactly when it admits the device. -/
theorem roleEffect_eq_member_iff {t : Transition} {d : String} :
    roleEffect t d = some (some .member) ↔ Admits t d := by
  unfold roleEffect Admits
  cases hv : t.variant with
  | roleGrant x r => by_cases hx : x = d <;> simp [hx]
  | kindChange k => cases k <;> simp
  | roleRevoke x => simp
  | evict x => simp
  | split n ms => simp
  | topologyChange m => simp
  | unknown => simp

/-- An entry clears a role exactly when it removes the device. -/
theorem roleEffect_eq_cleared_iff {t : Transition} {d : String} :
    roleEffect t d = some none ↔ Removes t d := by
  unfold roleEffect Removes
  cases hv : t.variant with
  | roleGrant x r => simp
  | kindChange k => cases k <;> simp
  | roleRevoke x => by_cases hx : x = d <;> simp [hx]
  | evict x => by_cases hx : x = d <;> simp [hx]
  | split n ms => simp
  | topologyChange m => simp
  | unknown => simp

/-- A removal leaves the role of every other device alone. -/
theorem roleEffect_of_removes_ne {t : Transition} {x d : String} (h : Removes t x) (hne : x ≠ d) :
    roleEffect t d = none := by
  unfold roleEffect
  rcases h with h | h <;> simp [h, hne]

/-- An entry that does not touch a device leaves its authority alone. -/
theorem isAuthority_of_untouched {s : NetworkState} {t : Transition} {d : String}
    (h : roleEffect t d = none) : (applyTransition s t).IsAuthority d ↔ s.IsAuthority d := by
  simp only [NetworkState.IsAuthority, roles_applyTransition, h, Option.getD_none]

/-- A removed device holds no authority. -/
theorem not_isAuthority_of_removes {s : NetworkState} {t : Transition} {d : String}
    (h : Removes t d) : ¬ (applyTransition s t).IsAuthority d := by
  simp [NetworkState.IsAuthority, roles_applyTransition, roleEffect_eq_cleared_iff.mpr h]

private theorem any_authority_iff {gov : NetworkState} {t : Transition} :
    t.signers.any ((holders gov.roles Role.isAuthority).contains ·) = true ↔
      AuthoritySigned gov t := by
  simp only [List.any_eq_true, List.contains_iff_mem, mem_holders_isAuthority, AuthoritySigned]

/-- An entry writes exactly when it counts, and then what its variant says. -/
theorem memberWrite_eq_some_iff {gov : NetworkState} {networkId : String} {t : Transition}
    {d : String} {b : Bool} :
    memberWrite P gov networkId t = some (d, b) ↔
      Counted P gov networkId t ∧ (b = true ∧ Admits t d ∨ b = false ∧ Removes t d) := by
  unfold memberWrite Counted Admits Removes
  rw [← any_authority_iff]
  cases hs : verifyTransitionSignatures P networkId t with
  | error e => simp
  | ok u =>
    by_cases ha : t.signers.any ((holders gov.roles Role.isAuthority).contains ·) = true
    · simp only [ha, ↓reduceIte, true_and]
      cases hv : t.variant with
      | roleGrant x r => cases r <;> cases b <;> simp
      | roleRevoke x => cases b <;> simp
      | evict x => cases b <;> simp
      | kindChange k => simp
      | split n ms => simp
      | topologyChange m => simp
      | unknown => simp
    · simp only [ha, Bool.false_eq_true, ↓reduceIte, reduceCtorEq, and_false, false_and]

private theorem isMemberGrant_of_admits {t : Transition} {d : String} (h : Admits t d) :
    isMemberGrant t = true := by
  unfold Admits at h
  simp [isMemberGrant, h]

private theorem isMemberGrant_of_removes {t : Transition} {d : String} (h : Removes t d) :
    isMemberGrant t = false := by
  rcases h with h | h <;> simp [isMemberGrant, h]

private theorem le_of_entryLe {a b : Transition} (h : entryLe a b) : a.at_ ≤ b.at_ := by
  rw [UInt64.le_iff_toNat_le]
  rcases Prod.Lex.le_iff.mp h with h | h
  · exact le_of_lt h
  · exact le_of_eq h.1

/-- At equal timestamps a grant is never below a tombstone. -/
private theorem lt_of_entryLe {a b : Transition} {d : String} (h : entryLe a b)
    (ha : Admits a d) (hb : Removes b d) : a.at_ < b.at_ := by
  rw [UInt64.lt_iff_toNat_lt]
  rcases Prod.Lex.le_iff.mp h with h | ⟨_, h⟩
  · exact h
  · exfalso
    simp only [entryRank, ofLex_toLex, isMemberGrant_of_admits ha, isMemberGrant_of_removes hb,
      Prod.Lex.toLex_le_toLex] at h
    rcases h with h | h
    · exact absurd h (by decide)
    · exact absurd h.1 (by decide)

private theorem exists_last_writer {gov : NetworkState} {networkId d : String}
    {log : List Transition} {b : Bool}
    (h : (memberLogVerdict P gov log networkId)[d]? = some b) :
    ∃ e ∈ log, memberWrite P gov networkId e = some (d, b) ∧
      ∀ e' ∈ log, ∀ b', memberWrite P gov networkId e' = some (d, b') → entryLe e' e := by
  have hs : (log.insertionSort entryLe).Pairwise entryLe := by
    have : Std.Total entryLe := ⟨fun a b ↦ le_total (entryRank a) (entryRank b)⟩
    have : IsTrans Transition entryLe := ⟨fun _ _ _ hab hbc ↦ le_trans hab hbc⟩
    exact List.pairwise_insertionSort entryLe log
  obtain ⟨e, he, hw, hg⟩ := LastWrite.exists_greatest_writer
    (fun e ↦ le_refl (entryRank e)) hs h
  simp only [List.mem_insertionSort] at he hg
  exact ⟨e, he, hw, hg⟩

/-- The last counted word on a device admits it. -/
def Admitted (gov : NetworkState) (networkId : String) (log : List Transition) (d : String) :
    Prop :=
  ∃ e ∈ log, Counted P gov networkId e ∧ Admits e d ∧
    ∀ e' ∈ log, Counted P gov networkId e' → Removes e' d → e'.at_ ≤ e.at_

/-- The last counted word on a device removes it, strictly later than every admit. -/
def Tombstoned (gov : NetworkState) (networkId : String) (log : List Transition) (d : String) :
    Prop :=
  ∃ e ∈ log, Counted P gov networkId e ∧ Removes e d ∧
    ∀ e' ∈ log, Counted P gov networkId e' → Admits e' d → e'.at_ < e.at_

private theorem admitted_of_verdict {gov : NetworkState} {networkId d : String}
    {log : List Transition} (h : (memberLogVerdict P gov log networkId)[d]? = some true) :
    Admitted P gov networkId log d := by
  obtain ⟨e, he, hw, hg⟩ := exists_last_writer P h
  obtain ⟨hc, ⟨-, ha⟩ | ⟨hb, -⟩⟩ := (memberWrite_eq_some_iff P).mp hw
  · refine ⟨e, he, hc, ha, fun e' he' hc' hr ↦ ?_⟩
    exact le_of_entryLe (hg e' he' false ((memberWrite_eq_some_iff P).mpr ⟨hc', .inr ⟨rfl, hr⟩⟩))
  · cases hb

private theorem tombstoned_of_verdict {gov : NetworkState} {networkId d : String}
    {log : List Transition} (h : (memberLogVerdict P gov log networkId)[d]? = some false) :
    Tombstoned P gov networkId log d := by
  obtain ⟨e, he, hw, hg⟩ := exists_last_writer P h
  obtain ⟨hc, ⟨hb, -⟩ | ⟨-, hr⟩⟩ := (memberWrite_eq_some_iff P).mp hw
  · cases hb
  · refine ⟨e, he, hc, hr, fun e' he' hc' ha ↦ ?_⟩
    exact lt_of_entryLe
      (hg e' he' true ((memberWrite_eq_some_iff P).mpr ⟨hc', .inl ⟨rfl, ha⟩⟩)) ha hr

/-- No device is both admitted and removed. -/
theorem Admitted.not_tombstoned {gov : NetworkState} {networkId d : String}
    {log : List Transition} (ha : Admitted P gov networkId log d) :
    ¬ Tombstoned P gov networkId log d := by
  rintro ⟨e', he', hc', hr', hall'⟩
  obtain ⟨e, he, hc, had, hall⟩ := ha
  exact absurd (hall e' he' hc' hr') (UInt64.not_le.mpr (hall' e he hc had))

private theorem verdict_ne_none {gov : NetworkState} {networkId d : String} {b : Bool}
    {log : List Transition} {e : Transition} (he : e ∈ log)
    (hw : memberWrite P gov networkId e = some (d, b)) :
    (memberLogVerdict P gov log networkId)[d]? ≠ none := by
  intro hn
  rw [memberLogVerdict, LastWrite.getElem?_fold_eq_none_iff] at hn
  exact hn e ((List.mem_insertionSort entryLe).mpr he) b hw

/-- The verdict of a device is membership exactly when it is admitted. -/
theorem memberLogVerdict_eq_true_iff {gov : NetworkState} {networkId d : String}
    {log : List Transition} :
    (memberLogVerdict P gov log networkId)[d]? = some true ↔ Admitted P gov networkId log d := by
  refine ⟨admitted_of_verdict P, fun h ↦ ?_⟩
  obtain ⟨e, he, hc, ha, -⟩ := id h
  cases hv : (memberLogVerdict P gov log networkId)[d]? with
  | none =>
    exact absurd hv (verdict_ne_none P he
      ((memberWrite_eq_some_iff P).mpr ⟨hc, .inl ⟨rfl, ha⟩⟩))
  | some b =>
    cases b with
    | true => rfl
    | false => exact absurd (tombstoned_of_verdict P hv) (h.not_tombstoned P)

/-- The verdict of a device is removal exactly when it is tombstoned. -/
theorem memberLogVerdict_eq_false_iff {gov : NetworkState} {networkId d : String}
    {log : List Transition} :
    (memberLogVerdict P gov log networkId)[d]? = some false ↔
      Tombstoned P gov networkId log d := by
  refine ⟨tombstoned_of_verdict P, fun h ↦ ?_⟩
  obtain ⟨e, he, hc, hr, -⟩ := id h
  cases hv : (memberLogVerdict P gov log networkId)[d]? with
  | none =>
    exact absurd hv (verdict_ne_none P he
      ((memberWrite_eq_some_iff P).mpr ⟨hc, .inr ⟨rfl, hr⟩⟩))
  | some b =>
    cases b with
    | false => rfl
    | true => exact absurd h ((admitted_of_verdict P hv).not_tombstoned P)

/-- The listed members are the admitted devices. -/
theorem mem_verifyMemberLog {gov : NetworkState} {networkId d : String}
    {log : List Transition} :
    d ∈ verifyMemberLog P gov log networkId ↔ Admitted P gov networkId log d := by
  rw [← memberLogVerdict_eq_true_iff]
  simp [verifyMemberLog, Std.ExtTreeMap.mem_toList_iff_getElem?_eq_some]

/-- The listed removals are the tombstoned devices. -/
theorem mem_memberLogRemoved {gov : NetworkState} {networkId d : String}
    {log : List Transition} :
    d ∈ memberLogRemoved P gov log networkId ↔ Tombstoned P gov networkId log d := by
  rw [← memberLogVerdict_eq_false_iff]
  simp [memberLogRemoved, Std.ExtTreeMap.mem_toList_iff_getElem?_eq_some]

/-- The verdicts depend on the governance state through its role map only. -/
theorem memberLogVerdict_congr {gov gov' : NetworkState} (h : gov.roles = gov'.roles)
    (log : List Transition) (networkId : String) :
    memberLogVerdict P gov log networkId = memberLogVerdict P gov' log networkId := by
  have hw : memberWrite P gov networkId = memberWrite P gov' networkId := by
    funext t
    unfold memberWrite
    rw [h]
  rw [memberLogVerdict, memberLogVerdict, hw]

/-- Every entry of the owner of the concrete network counts. -/
theorem counted_fleet (stamp : UInt64) (v : TransitionVariant) :
    Counted seeded fleet "fleet" (seededEntry 1 stamp v) := by
  refine ⟨verifyTransitionSignatures_signedBy seeded _ _ _ _, ?_⟩
  simp [AuthoritySigned, NetworkState.IsAuthority]

end MyOwnMesh
