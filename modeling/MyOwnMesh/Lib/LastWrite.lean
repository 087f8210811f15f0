import Std.Data.ExtTreeMap
import Mathlib.Data.List.Induction
import Mathlib.Data.List.Sort

/-!
# Last-writer-wins folds

A list of entries, each of which may write one value under one key, folded from
left to right into an ordered map. Over a list sorted by a reflexive relation the
surviving value of a key is one written by a greatest writer of that key, so the
fold depends on the entries and not on how they were listed before the sort.
-/

namespace Lib.LastWrite

variable {ε κ β : Type} [Ord κ] [Std.TransOrd κ]

/-- Apply one entry's write, if it has one. -/
def write (w : ε → Option (κ × β)) (m : Std.ExtTreeMap κ β) (e : ε) : Std.ExtTreeMap κ β :=
  match w e with
  | some (k, v) => m.insert k v
  | none => m

/-- Fold every entry's write, later entries overwriting earlier ones. -/
def fold (w : ε → Option (κ × β)) (xs : List ε) : Std.ExtTreeMap κ β :=
  xs.foldl (write w) ∅

/-- The fold ends with the last entry's write. -/
theorem fold_concat (w : ε → Option (κ × β)) (xs : List ε) (e : ε) :
    fold w (xs ++ [e]) = write w (fold w xs) e := by
  simp [fold]

/-- A write decides the value of its key. -/
theorem getElem?_write_self {w : ε → Option (κ × β)} {e : ε} {k : κ} {v : β}
    (h : w e = some (k, v)) (m : Std.ExtTreeMap κ β) : (write w m e)[k]? = some v := by
  simp only [write, h, Std.ExtTreeMap.getElem?_insert_self]

/-- An entry that does not write a key leaves its value alone. -/
theorem getElem?_write_of_ne [Std.LawfulEqOrd κ] {w : ε → Option (κ × β)} {e : ε} {k : κ}
    (h : ∀ v, w e ≠ some (k, v)) (m : Std.ExtTreeMap κ β) : (write w m e)[k]? = m[k]? := by
  cases hw : w e with
  | none => simp only [write, hw]
  | some p =>
    obtain ⟨k', v'⟩ := p
    have hk : compare k' k ≠ .eq := by
      intro hc
      have he : k' = k := Std.LawfulEqOrd.compare_eq_iff_eq.mp hc
      exact h v' (by rw [hw, he])
    simp only [write, hw, Std.ExtTreeMap.getElem?_insert, hk, ↓reduceIte]

/-- A key has no value after the fold exactly when no entry writes it. -/
theorem getElem?_fold_eq_none_iff [Std.LawfulEqOrd κ] {w : ε → Option (κ × β)} {k : κ}
    {xs : List ε} :
    (fold w xs)[k]? = none ↔ ∀ e ∈ xs, ∀ v, w e ≠ some (k, v) := by
  induction xs using List.reverseRecOn with
  | nil => simp [fold]
  | append_singleton init a ih =>
    rw [fold_concat]
    by_cases ha : ∃ v, w a = some (k, v)
    · obtain ⟨v, hv⟩ := ha
      simp only [getElem?_write_self hv, reduceCtorEq, false_iff]
      intro h
      exact h a (by simp) v hv
    · have hn : ∀ v, w a ≠ some (k, v) := fun v hv ↦ ha ⟨v, hv⟩
      rw [getElem?_write_of_ne hn, ih]
      constructor
      · intro h e he
        rcases List.mem_append.mp he with h' | h'
        · exact h e h'
        · rw [List.mem_singleton.mp h']
          exact hn
      · exact fun h e he ↦ h e (by simp [he])

/-- Over a sorted list the surviving value of a key was written by an entry that every
writer of the key precedes. -/
theorem exists_greatest_writer [Std.LawfulEqOrd κ] {w : ε → Option (κ × β)}
    {le : ε → ε → Prop}
    (hrefl : ∀ e, le e e) {k : κ} {v : β} {xs : List ε} (hs : xs.Pairwise le)
    (h : (fold w xs)[k]? = some v) :
    ∃ e ∈ xs, w e = some (k, v) ∧ ∀ e' ∈ xs, ∀ u, w e' = some (k, u) → le e' e := by
  induction xs using List.reverseRecOn with
  | nil => simp [fold] at h
  | append_singleton init a ih =>
    rw [fold_concat] at h
    obtain ⟨hinit, -, hlast⟩ := List.pairwise_append.mp hs
    by_cases ha : ∃ u, w a = some (k, u)
    · obtain ⟨u, hu⟩ := ha
      rw [getElem?_write_self hu, Option.some.injEq] at h
      subst h
      refine ⟨a, by simp, hu, ?_⟩
      intro e' he' _ _
      rcases List.mem_append.mp he' with h' | h'
      · exact hlast e' h' a (by simp)
      · rw [List.mem_singleton.mp h']
        exact hrefl a
    · have hn : ∀ u, w a ≠ some (k, u) := fun u hu ↦ ha ⟨u, hu⟩
      rw [getElem?_write_of_ne hn] at h
      obtain ⟨e, he, hw, hg⟩ := ih hinit h
      refine ⟨e, by simp [he], hw, ?_⟩
      intro e' he' u hu
      rcases List.mem_append.mp he' with h' | h'
      · exact hg e' h' u hu
      · rw [List.mem_singleton.mp h'] at hu
        exact absurd hu (hn u)

end Lib.LastWrite
