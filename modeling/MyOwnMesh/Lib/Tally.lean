import Std.Data.ExtHashMap
import Mathlib.Data.List.Count

/-!
# A map that counts

A map from keys to how often each of them stands in a list. Keys without an occurrence have no
entry. Taking out an occurrence can fail in two ways, a missing entry and a count of zero; it fails
in neither for a key that occurs in the list the map counts.
-/

namespace Lib.Tally

universe u

variable {κ : Type u} [BEq κ] [LawfulBEq κ] [Hashable κ]

/-- One more occurrence. -/
def add (m : Std.ExtHashMap κ Nat) (k : κ) : Std.ExtHashMap κ Nat :=
  m.insert k (m.getD k 0 + 1)

/-- One occurrence less, and no entry after the last one. -/
def remove (m : Std.ExtHashMap κ Nat) (k : κ) : Option (Std.ExtHashMap κ Nat) :=
  match m[k]? with
  | none => none
  | some 0 => none
  | some 1 => some (m.erase k)
  | some (n + 2) => some (m.insert k (n + 1))

/-- The map counts the list. -/
def Counts (m : Std.ExtHashMap κ Nat) (xs : List κ) : Prop :=
  ∀ k, m[k]? = if k ∈ xs then some (xs.count k) else none

variable {m : Std.ExtHashMap κ Nat} {xs ys : List κ} {k : κ}

theorem counts_empty : Counts (∅ : Std.ExtHashMap κ Nat) [] := by
  intro k
  simp

/-- The order of the list does not matter. -/
theorem Counts.perm (h : Counts m xs) (hperm : xs.Perm ys) : Counts m ys := by
  intro k
  rw [h k, hperm.count_eq]
  simp only [hperm.mem_iff]

/-- An entry stands for an occurrence. -/
theorem Counts.mem_iff (h : Counts m xs) : k ∈ m ↔ k ∈ xs := by
  rw [Std.ExtHashMap.mem_iff_isSome_getElem?, h k]
  split
  · next hk => simp [hk]
  · next hk => simp [hk]

theorem Counts.add (h : Counts m xs) (k : κ) : Counts (add m k) (k :: xs) := by
  intro k'
  rw [Tally.add, Std.ExtHashMap.getElem?_insert]
  by_cases hk : k = k'
  · subst hk
    rw [Std.ExtHashMap.getD_eq_getD_getElem?, h k]
    by_cases hmem : k ∈ xs
    · simp [hmem]
    · simp [hmem, List.count_eq_zero_of_not_mem hmem]
  · have hk' : k' ≠ k := fun heq ↦ hk heq.symm
    simp [hk, hk', h k']

/-- A key that occurs can be taken out once. -/
theorem Counts.remove (h : Counts m (k :: xs)) : ∃ m', remove m k = some m' ∧ Counts m' xs := by
  have hk : m[k]? = some (xs.count k + 1) := by
    rw [h k]
    simp
  cases hcount : xs.count k with
  | zero =>
    refine ⟨m.erase k, by rw [Tally.remove, hk, hcount], fun k' ↦ ?_⟩
    rw [Std.ExtHashMap.getElem?_erase]
    by_cases heq : k = k'
    · subst heq
      simp [List.count_eq_zero.mp hcount]
    · have hne : k' ≠ k := fun e ↦ heq e.symm
      simp [heq, hne, h k']
  | succ n =>
    refine ⟨m.insert k (n + 1), by rw [Tally.remove, hk, hcount], fun k' ↦ ?_⟩
    rw [Std.ExtHashMap.getElem?_insert]
    by_cases heq : k = k'
    · subst heq
      have hmem : k ∈ xs := List.count_pos_iff.mp (by omega)
      simp [hmem, hcount]
    · have hne : k' ≠ k := fun e ↦ heq e.symm
      simp [heq, hne, h k']

/-- A new occurrence takes a new entry only for a new key. -/
theorem size_add (m : Std.ExtHashMap κ Nat) (k : κ) :
    (add m k).size = if k ∈ m then m.size else m.size + 1 := by
  rw [add, Std.ExtHashMap.size_insert]

/-- Taking an occurrence out adds no entry. -/
theorem size_remove_le {m' : Std.ExtHashMap κ Nat} (h : remove m k = some m') :
    m'.size ≤ m.size := by
  unfold remove at h
  split at h
  · cases h
  · cases h
  · cases h
    exact Std.ExtHashMap.size_erase_le
  · next n hk =>
    cases h
    have hmem : k ∈ m := by
      rw [Std.ExtHashMap.mem_iff_isSome_getElem?, hk]
      rfl
    exact Nat.le_of_eq (Std.ExtHashMap.size_insert.trans (if_pos hmem))

/-- Nothing to count, no entries. -/
theorem Counts.size_nil (h : Counts m []) : m.size = 0 := by
  have hempty : m = ∅ := Std.ExtHashMap.ext_getElem? fun k ↦ by simpa using h k
  rw [hempty]
  exact Std.ExtHashMap.size_empty

end Lib.Tally
