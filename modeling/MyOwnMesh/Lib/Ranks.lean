import Mathlib.Data.List.Basic

/-!
# Ranks in a sorted list

The element at a place of a sorted list, and how many elements lie on either side of it.
-/

namespace Lib.Ranks

variable {α : Type*}

/-- The list in ascending order of a key. -/
def ascending (key : α → Int) (l : List α) : List α :=
  l.mergeSort fun a b ↦ decide (key a ≤ key b)

variable (key : α → Int)

theorem ascending_perm (l : List α) : (ascending key l).Perm l := List.mergeSort_perm l _

@[simp] theorem length_ascending (l : List α) : (ascending key l).length = l.length :=
  (ascending_perm key l).length_eq

@[simp] theorem mem_ascending {a : α} {l : List α} : a ∈ ascending key l ↔ a ∈ l :=
  (ascending_perm key l).mem_iff

theorem pairwise_ascending (l : List α) :
    (ascending key l).Pairwise fun a b ↦ key a ≤ key b := by
  have hsorted : (ascending key l).Pairwise fun a b ↦ decide (key a ≤ key b) = true := by
    apply List.pairwise_mergeSort
    · intro a b c hab hbc
      have hab := of_decide_eq_true hab
      have hbc := of_decide_eq_true hbc
      exact decide_eq_true (Int.le_trans hab hbc)
    · intro a b
      simpa using Int.le_total (key a) (key b)
  exact hsorted.imp fun h ↦ of_decide_eq_true h

/-- Sorting commutes with a map that keeps the keys. -/
theorem map_ascending {β : Type*} (f : α → β) {key' : β → Int} (hkey : ∀ a, key' (f a) = key a)
    (l : List α) : (ascending key l).map f = ascending key' (l.map f) := by
  apply List.map_mergeSort
  intro a _ b _
  rw [hkey, hkey]

/-- The order in which elements with keys of their own are given does not matter. -/
theorem ascending_eq_of_perm (hkey : ∀ a b, key a = key b → a = b) {l l' : List α}
    (h : l.Perm l') : ascending key l = ascending key l' := by
  have hperm : (ascending key l).Perm (ascending key l') :=
    (ascending_perm key l).trans (h.trans (ascending_perm key l').symm)
  refine hperm.eq_of_pairwise ?_ (pairwise_ascending key l) (pairwise_ascending key l')
  intro a b _ _ hab hba
  exact hkey a b (Int.le_antisymm hab hba)

/-- In a sorted list, the elements of a lower set come first: the element at a place is one of
them exactly when there are more of them than that place counts. -/
theorem get_iff_lt_countP {p : α → Bool} {s : List α}
    (hs : s.Pairwise fun a b ↦ p b = true → p a = true) {k : Nat} (hk : k < s.length) :
    p s[k] = true ↔ k < s.countP p := by
  induction s generalizing k with
  | nil => exact absurd hk (Nat.not_lt_zero k)
  | cons a s ih =>
    obtain ⟨ha, hs⟩ := List.pairwise_cons.mp hs
    by_cases hpa : p a = true
    · rw [List.countP_cons_of_pos hpa]
      cases k with
      | zero => simp [hpa]
      | succ k => simpa using ih hs (Nat.lt_of_succ_lt_succ hk)
    · -- nothing after an element outside of the lower set is in it
      have hnone : s.countP p = 0 :=
        List.countP_eq_zero.mpr fun b hb hpb ↦ hpa (ha b hb hpb)
      rw [List.countP_cons_of_neg hpa, hnone]
      cases k with
      | zero => simp [hpa]
      | succ k =>
        have hk : k < s.length := Nat.lt_of_succ_lt_succ hk
        have hmem : s[k] ∈ s := List.getElem_mem hk
        have hnot : ¬p s[k] = true := fun h ↦ hpa (ha _ hmem h)
        simp [hnot]

variable {l : List α} {k : Nat} {a : α}

/-- The element at place `k` is at most `x` when more than `k` of the list are. -/
theorem ascending_le_iff (ha : (ascending key l)[k]? = some a) (x : Int) :
    key a ≤ x ↔ k < l.countP fun b ↦ decide (key b ≤ x) := by
  obtain ⟨hk, rfl⟩ := List.getElem?_eq_some_iff.mp ha
  have hdown : (ascending key l).Pairwise fun a b ↦
      decide (key b ≤ x) = true → decide (key a ≤ x) = true :=
    (pairwise_ascending key l).imp fun h hb ↦
      decide_eq_true (Int.le_trans h (of_decide_eq_true hb))
  rw [← (ascending_perm key l).countP_eq, ← get_iff_lt_countP hdown hk, decide_eq_true_iff]

/-- The element at place `k` is at least `x` when no more than `k` of the list are below. -/
theorem le_ascending_iff (ha : (ascending key l)[k]? = some a) (x : Int) :
    x ≤ key a ↔ l.length ≤ k + l.countP fun b ↦ decide (x ≤ key b) := by
  have hbelow := ascending_le_iff key ha (x - 1)
  have hsplit : l.length = l.countP (fun b ↦ decide (key b ≤ x - 1)) +
      l.countP (fun b ↦ decide (x ≤ key b)) := by
    rw [List.length_eq_countP_add_countP fun b ↦ decide (key b ≤ x - 1)]
    congr 1
    apply List.countP_congr
    intro b _
    simp only [decide_eq_true_eq]
    omega
  omega

/-- An earlier place holds no larger element. -/
theorem ascending_le_of_lt {j : Nat} {b : α} (ha : (ascending key l)[k]? = some a)
    (hb : (ascending key l)[j]? = some b) (hlt : k < j) : key a ≤ key b := by
  obtain ⟨hk, rfl⟩ := List.getElem?_eq_some_iff.mp ha
  obtain ⟨hj, rfl⟩ := List.getElem?_eq_some_iff.mp hb
  exact List.pairwise_iff_getElem.mp (pairwise_ascending key l) k j hk hj hlt

end Lib.Ranks
