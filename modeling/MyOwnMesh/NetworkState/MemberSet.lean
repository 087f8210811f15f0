import Mathlib.Logic.Function.Basic
import MyOwnMesh.NetworkState.MemberLog

/-!
# The member tier as a convergent set

`crates/myownmesh-core/src/network_state.rs:829–984`. The verdicts read a member log as a
set of entries, and `mergeMemberLogs` is its union. Nodes that pull each other's logs in
any order therefore agree once each of them holds every entry.
-/

namespace MyOwnMesh

open Lib Lib.Replay

variable (P : Primitives)

/-! ### The verdicts read a set -/

/-- The verdicts depend only on which entries the log holds. -/
theorem memberLogVerdict_congr_mem {log log' : List Transition} (h : ∀ t, t ∈ log ↔ t ∈ log')
    (gov : NetworkState) (networkId : String) :
    memberLogVerdict P gov log networkId = memberLogVerdict P gov log' networkId := by
  have htomb : ∀ d, Tombstoned P gov networkId log d ↔ Tombstoned P gov networkId log' d := by
    intro d
    simp only [Tombstoned, h]
  have hadm : ∀ d, Admitted P gov networkId log d ↔ Admitted P gov networkId log' d := by
    intro d
    simp only [Admitted, h]
  apply Std.ExtTreeMap.ext_getElem?
  intro d
  apply Option.ext
  intro b
  cases b with
  | true => rw [memberLogVerdict_eq_true_iff, memberLogVerdict_eq_true_iff, hadm]
  | false => rw [memberLogVerdict_eq_false_iff, memberLogVerdict_eq_false_iff, htomb]

/-- Logs with the same entries list the same members and the same tombstones. -/
theorem members_congr_mem {log log' : List Transition} (h : ∀ t, t ∈ log ↔ t ∈ log')
    (gov : NetworkState) (networkId : String) :
    verifyMemberLog P gov log networkId = verifyMemberLog P gov log' networkId ∧
      memberLogRemoved P gov log networkId = memberLogRemoved P gov log' networkId := by
  unfold verifyMemberLog memberLogRemoved
  rw [memberLogVerdict_congr_mem P h]
  exact ⟨rfl, rfl⟩

/-! ### The merge is a union -/

/-- The order of the two sides does not matter. -/
theorem mergeMemberLogs_comm (a b : List Transition) :
    mergeMemberLogs a b = mergeMemberLogs b a := by
  apply mergeMemberLogs_congr
  intro t
  exact or_comm

/-- Nor does the grouping of three. -/
theorem mergeMemberLogs_assoc (a b c : List Transition) :
    mergeMemberLogs (mergeMemberLogs a b) c = mergeMemberLogs a (mergeMemberLogs b c) := by
  apply mergeMemberLogs_congr
  intro t
  rw [mem_mergeMemberLogs, mem_mergeMemberLogs, or_assoc]

/-- Merging a side in again changes nothing. -/
theorem mergeMemberLogs_right_idem (a b : List Transition) :
    mergeMemberLogs (mergeMemberLogs a b) b = mergeMemberLogs a b := by
  apply mergeMemberLogs_congr
  intro t
  rw [mem_mergeMemberLogs]
  tauto

/-- A merged log is its own merge. -/
theorem mergeMemberLogs_idem (a b : List Transition) :
    mergeMemberLogs (mergeMemberLogs a b) (mergeMemberLogs a b) = mergeMemberLogs a b := by
  apply mergeMemberLogs_congr
  intro t
  rw [mem_mergeMemberLogs, or_self]

/-! ### Nodes that exchange logs -/

section Exchange

variable {ι : Type} [DecidableEq ι]

/-- The first node of the pair pulls the log of the second. -/
def pull (logs : ι → List Transition) (pair : ι × ι) : ι → List Transition :=
  Function.update logs pair.1 (mergeMemberLogs (logs pair.1) (logs pair.2))

private theorem mem_pull {logs : ι → List Transition} {pair : ι × ι} {i : ι} {t : Transition}
    (h : t ∈ pull logs pair i) : ∃ j, t ∈ logs j := by
  unfold pull at h
  by_cases hi : i = pair.1
  · rw [hi, Function.update_self, mem_mergeMemberLogs] at h
    cases h with
    | inl h => exact ⟨_, h⟩
    | inr h => exact ⟨_, h⟩
  · rw [Function.update_of_ne hi] at h
    exact ⟨i, h⟩

/-- Exchanges make up no entry: whatever a node holds, some node held at the start. -/
theorem mem_run_pull {start : ι → List Transition} (pairs : List (ι × ι)) {i : ι}
    {t : Transition} (h : t ∈ run pull start pairs i) : ∃ j, t ∈ start j := by
  have hinv : ∀ i t, t ∈ run pull start pairs i → ∃ j, t ∈ start j := by
    refine run_invariant (I := fun logs : ι → List Transition ↦
      ∀ i t, t ∈ logs i → ∃ j, t ∈ start j) ?_ ?_ pairs
    · intro logs pair hI i t ht
      obtain ⟨j, hj⟩ := mem_pull ht
      exact hI j t hj
    · intro i t ht
      exact ⟨i, ht⟩
  exact hinv i t h

/-- Nodes that have exchanged until each holds every entry hold the same entries. -/
theorem mem_run_pull_iff {start : ι → List Transition} {pairs : List (ι × ι)}
    (hall : ∀ i j, ∀ t ∈ start j, t ∈ run pull start pairs i) (i j : ι) (t : Transition) :
    t ∈ run pull start pairs i ↔ t ∈ run pull start pairs j := by
  constructor
  · intro h
    obtain ⟨k, hk⟩ := mem_run_pull pairs h
    exact hall j k t hk
  · intro h
    obtain ⟨k, hk⟩ := mem_run_pull pairs h
    exact hall i k t hk

end Exchange

/-- The member tier converges. The two verdicts read the log as a set and are disjoint; the
merge is commutative, associative, absorbs a side it already holds and fixes every merged
log; and nodes that exchanged their logs until each holds every entry list the same members
and the same tombstones. -/
theorem memberTier_converges (gov : NetworkState) (networkId : String) :
    (∀ log log' : List Transition, (∀ t, t ∈ log ↔ t ∈ log') →
      verifyMemberLog P gov log networkId = verifyMemberLog P gov log' networkId ∧
        memberLogRemoved P gov log networkId = memberLogRemoved P gov log' networkId) ∧
    (∀ log d, d ∈ verifyMemberLog P gov log networkId →
      d ∉ memberLogRemoved P gov log networkId) ∧
    (∀ a b, mergeMemberLogs a b = mergeMemberLogs b a) ∧
    (∀ a b c, mergeMemberLogs (mergeMemberLogs a b) c =
      mergeMemberLogs a (mergeMemberLogs b c)) ∧
    (∀ a b, mergeMemberLogs (mergeMemberLogs a b) b = mergeMemberLogs a b ∧
      mergeMemberLogs (mergeMemberLogs a b) (mergeMemberLogs a b) = mergeMemberLogs a b) ∧
    (∀ (ι : Type) [DecidableEq ι] (start : ι → List Transition) (pairs : List (ι × ι)),
      (∀ i j, ∀ t ∈ start j, t ∈ run pull start pairs i) → ∀ i j,
      verifyMemberLog P gov (run pull start pairs i) networkId =
          verifyMemberLog P gov (run pull start pairs j) networkId ∧
        memberLogRemoved P gov (run pull start pairs i) networkId =
          memberLogRemoved P gov (run pull start pairs j) networkId) := by
  refine ⟨fun log log' h ↦ members_congr_mem P h gov networkId, fun log d hd ↦ ?_,
    mergeMemberLogs_comm, mergeMemberLogs_assoc,
    fun a b ↦ ⟨mergeMemberLogs_right_idem a b, mergeMemberLogs_idem a b⟩,
    fun ι _ start pairs hall i j ↦ ?_⟩
  · rw [mem_verifyMemberLog] at hd
    rw [mem_memberLogRemoved]
    exact hd.not_tombstoned P
  · exact members_congr_mem P (mem_run_pull_iff hall i j) gov networkId

/-- Merging a log with itself does not give the same list back: an admission and an eviction
listed in either order merge to one list. -/
theorem mergeMemberLogs_not_idempotent :
    ¬ ∀ log, mergeMemberLogs log log = log := by
  intro h
  have hswap : ∀ t, t ∈ [seededEntry 1 1 (.roleGrant "d" .member), seededEntry 1 2 (.evict "d")] ∨
        t ∈ [seededEntry 1 1 (.roleGrant "d" .member), seededEntry 1 2 (.evict "d")] ↔
      t ∈ [seededEntry 1 2 (.evict "d"), seededEntry 1 1 (.roleGrant "d" .member)] ∨
        t ∈ [seededEntry 1 2 (.evict "d"), seededEntry 1 1 (.roleGrant "d" .member)] := by
    intro t
    simp only [List.mem_cons, List.not_mem_nil, or_false, or_self]
    exact or_comm
  have heq := mergeMemberLogs_congr hswap
  rw [h, h] at heq
  have hat := congrArg Transition.at_ (List.cons.inj heq).1
  exact absurd hat (by decide)

end MyOwnMesh
