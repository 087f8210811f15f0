import Mathlib.Data.List.Basic

/-!
# Contiguous lists

Equal elements of a list stand together: nothing else is between two of them. An element may be put
next to an equal one, or, if there is no equal one, between two that differ.
-/

namespace Lib.Grouping

universe u

variable {α : Type u} {p q l l' : List α} {a : α}

/-- Whatever stands between two equal elements is equal to them. -/
def Contiguous (l : List α) : Prop := ∀ x y, [x, y, x].Sublist l → y = x

theorem contiguous_nil : Contiguous ([] : List α) := by
  intro x y h
  cases h

theorem Contiguous.sublist (h : Contiguous l) (hl : l'.Sublist l) : Contiguous l' :=
  fun x y hxy ↦ h x y (hxy.trans hl)

/-- What is between an element and the last of a list is between it and an equal last one. -/
theorem Contiguous.eq_of_getLast? (h : Contiguous (p ++ q)) (hlast : p.getLast? = some a) {y : α}
    (hy : [a, y].Sublist p) : y = a := by
  obtain ⟨init, rfl⟩ := List.getLast?_eq_some_iff.mp hlast
  rw [List.sublist_append_iff] at hy
  obtain ⟨l₁, l₂, heq, h₁, h₂⟩ := hy
  rcases List.sublist_singleton.mp h₂ with rfl | rfl
  · rw [List.append_nil] at heq
    subst heq
    exact h a y ((h₁.append (List.Sublist.refl [a])).trans (List.sublist_append_left _ _))
  · have hlasts := congrArg List.getLast? heq
    rw [List.getLast?_append] at hlasts
    exact Option.some.inj hlasts

/-- Between two equal elements in two parts of a list, the first part ends and the second begins
with an equal one. -/
theorem Contiguous.seam (h : Contiguous (p ++ q)) {x : α} (hp : x ∈ p) (hq : x ∈ q) :
    p.getLast? = some x ∧ q.head? = some x := by
  obtain ⟨init, w, rfl⟩ := List.eq_nil_or_concat' p |>.resolve_left (List.ne_nil_of_mem hp)
  obtain ⟨b, rest, rfl⟩ := List.exists_cons_of_ne_nil (List.ne_nil_of_mem hq)
  have hw : w = x := by
    rcases List.mem_append.mp hp with hinit | hlast
    · refine h x w ?_
      exact ((List.singleton_sublist.mpr hinit).append (List.Sublist.refl [w])).append
        (List.singleton_sublist.mpr hq)
    · exact (List.mem_singleton.mp hlast).symm
  have hb : b = x := by
    rcases List.mem_cons.mp hq with rfl | hrest
    · rfl
    · exact h x b ((List.singleton_sublist.mpr hp).append
        ((List.singleton_sublist.mpr hrest).cons_cons b))
  rw [hw, hb, List.getLast?_concat]
  exact ⟨rfl, rfl⟩

/-- An element is put behind an equal one, or, if there is none, between two that differ. -/
theorem Contiguous.insert (h : Contiguous (p ++ q))
    (hplace : p.getLast? = some a ∨ a ∉ p ++ q ∧ ∀ w ∈ p.getLast?, w ∉ q.head?) :
    Contiguous (p ++ a :: q) := by
  intro x y hxy
  rw [List.sublist_append_iff] at hxy
  obtain ⟨l₁, l₂, heq, h₁, h₂⟩ := hxy
  rcases List.sublist_cons_iff.mp h₂ with h₂ | ⟨l₃, rfl, h₃⟩
  · exact h x y (heq ▸ h₁.append h₂)
  -- the new element is the first, the second or the last of the three
  match l₁, heq with
  | [], heq =>
    obtain ⟨rfl, rfl⟩ := List.cons.inj heq
    rcases hplace with hlast | ⟨hnew, -⟩
    · have hmem := List.mem_of_getLast? hlast
      exact h x y ((List.singleton_sublist.mpr hmem).append h₃)
    · exact absurd (List.mem_append_right p (h₃.subset (by simp))) hnew
  | [b], heq =>
    simp only [List.cons_append, List.nil_append, List.cons.injEq] at heq
    obtain ⟨rfl, rfl, rfl⟩ := heq
    have hseam := h.seam (List.singleton_sublist.mp h₁) (List.singleton_sublist.mp h₃)
    rcases hplace with hlast | ⟨-, hapart⟩
    · exact Option.some.inj (hlast.symm.trans hseam.1)
    · exact absurd hseam.2 (hapart x hseam.1)
  | [b, c], heq =>
    simp only [List.cons_append, List.nil_append, List.cons.injEq] at heq
    obtain ⟨rfl, rfl, rfl, -⟩ := heq
    rcases hplace with hlast | ⟨hnew, -⟩
    · exact h.eq_of_getLast? hlast h₁
    · exact absurd (List.mem_append_left q (h₁.subset List.mem_cons_self)) hnew
  | b :: c :: d :: l₁, heq =>
    have hlength := congrArg List.length heq
    simp at hlength

end Lib.Grouping
