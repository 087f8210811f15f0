import Mathlib.Data.List.Basic

/-!
# The best of a ranking

The first `k` elements of a list in a total order: how many there are, that the order of the list
does not matter, and what removing an element does to them.
-/

namespace Lib.Best

variable {α : Type*}

/-- The first `k` of the list in the order `le`. -/
def best (le : α → α → Bool) (k : Nat) (l : List α) : List α := (l.mergeSort le).take k

/-- A ranking: transitive, total, and deciding between any two elements. -/
structure Ranking (le : α → α → Bool) : Prop where
  trans : ∀ a b c, le a b = true → le b c = true → le a c = true
  total : ∀ a b, (le a b || le b a) = true
  antisymm : ∀ a b, le a b = true → le b a = true → a = b

variable {le : α → α → Bool} {k : Nat} {l l' : List α}

theorem length_best : (best le k l).length = min k l.length := by
  rw [best, List.length_take, List.length_mergeSort]

theorem mem_of_mem_best {a : α} (h : a ∈ best le k l) : a ∈ l :=
  List.mem_mergeSort.mp (List.mem_of_mem_take h)

theorem nodup_best (h : l.Nodup) : (best le k l).Nodup :=
  ((List.mergeSort_perm l le).nodup_iff.mpr h).sublist (List.take_sublist k _)

/-- Two sorted lists of the same elements are one. -/
private theorem mergeSort_eq (hle : Ranking le) (hperm : l'.Perm l)
    (hsorted : l'.Pairwise fun a b ↦ le a b = true) : l.mergeSort le = l' := by
  refine ((List.mergeSort_perm l le).trans hperm.symm).eq_of_pairwise ?_
    (List.pairwise_mergeSort hle.trans hle.total l) hsorted
  intro a b _ _ hab hba
  exact hle.antisymm a b hab hba

/-- The order of the list does not matter. -/
theorem best_eq_of_perm (hle : Ranking le) (h : l.Perm l') : best le k l = best le k l' := by
  have hsort : l.mergeSort le = l'.mergeSort le :=
    mergeSort_eq hle ((List.mergeSort_perm l' le).trans h.symm)
      (List.pairwise_mergeSort hle.trans hle.total l')
  rw [best, best, hsort]

/-- The next in the ranking is not among the best. -/
theorem not_mem_best_of_next (h : l.Nodup) {a : α}
    (ha : a ∈ ((l.mergeSort le).drop k).take 1) : a ∈ l ∧ a ∉ best le k l := by
  have hdrop : a ∈ (l.mergeSort le).drop k := List.mem_of_mem_take ha
  have hnodup := (List.mergeSort_perm l le).nodup_iff.mpr h
  rw [← List.take_append_drop k (l.mergeSort le)] at hnodup
  refine ⟨List.mem_mergeSort.mp (List.mem_of_mem_drop hdrop), fun hbest ↦ ?_⟩
  exact (List.nodup_append.mp hnodup).2.2 a hbest a hdrop rfl

section Erase

variable [BEq α] [LawfulBEq α]

private theorem mergeSort_erase (hle : Ranking le) (a : α) :
    (l.erase a).mergeSort le = (l.mergeSort le).erase a :=
  mergeSort_eq hle ((List.mergeSort_perm l le).erase a)
    ((List.pairwise_mergeSort hle.trans hle.total l).sublist List.erase_sublist)

/-- An element that is not among the best can go without a trace. -/
theorem best_erase_of_not_mem (hle : Ranking le) {a : α} (h : a ∉ best le k l) :
    best le k (l.erase a) = best le k l := by
  unfold best at h ⊢
  rw [mergeSort_erase hle]
  conv_lhs => rw [← List.take_append_drop k (l.mergeSort le), List.erase_append_right _ h]
  by_cases hk : k ≤ (l.mergeSort le).length
  · exact List.take_left' (List.length_take_of_le hk)
  · have hall : (l.mergeSort le).drop k = [] := List.drop_eq_nil_of_le (by omega)
    rw [hall, List.erase_nil, List.append_nil, List.take_take, Nat.min_self]

/-- One that is among them is replaced by the next in the ranking, if there is one. -/
theorem best_erase_of_mem (hle : Ranking le) {a : α} (h : a ∈ best le k l) :
    best le k (l.erase a) = (best le k l).erase a ++ ((l.mergeSort le).drop k).take 1 := by
  unfold best at h ⊢
  rw [mergeSort_erase hle]
  have hlen : (((l.mergeSort le).take k).erase a).length =
      min k (l.mergeSort le).length - 1 := by
    rw [List.length_erase_of_mem h, List.length_take]
  have hpos : 0 < min k (l.mergeSort le).length := by
    rw [← List.length_take]
    exact List.length_pos_of_mem h
  conv_lhs => rw [← List.take_append_drop k (l.mergeSort le), List.erase_append_left _ h,
    List.take_append]
  by_cases hk : k ≤ (l.mergeSort le).length
  · rw [List.take_of_length_le (by omega), hlen]
    congr 2
    omega
  · have hall : (l.mergeSort le).drop k = [] := List.drop_eq_nil_of_le (by omega)
    rw [List.take_of_length_le (by omega), hall, List.take_nil, List.take_nil]

end Erase

end Lib.Best
