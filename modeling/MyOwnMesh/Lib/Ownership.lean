import Mathlib.Data.List.Basic

/-!
# Strong references

The strong references among objects, each as the pair of the object that holds
it and the object it leads to. An owner may let go of a reference, and an object
that nobody owns any more is dropped and lets go of all it holds. Objects that
own each other in a knot are never dropped, whatever the others let go of.
-/

namespace Lib.Ownership

universe u

variable {α : Type u}

/-- Somebody holds a reference to the object. -/
def Owned (refs : List (α × α)) (x : α) : Prop := ∃ e ∈ refs, e.2 = x

instance [DecidableEq α] (refs : List (α × α)) (x : α) : Decidable (Owned refs x) :=
  inferInstanceAs (Decidable (∃ e ∈ refs, e.2 = x))

/-- The object is dropped and lets go of what it holds. -/
def drop [DecidableEq α] (refs : List (α × α)) (x : α) : List (α × α) :=
  refs.filter fun e ↦ e.1 ≠ x

/-- Every object of the knot is owned by one of them. -/
def Knot (refs : List (α × α)) (c : List α) : Prop := ∀ x ∈ c, ∃ y ∈ c, (y, x) ∈ refs

theorem Knot.owned {refs : List (α × α)} {c : List α} (h : Knot refs c) {x : α} (hx : x ∈ c) :
    Owned refs x := by
  obtain ⟨y, -, hy⟩ := h x hx
  exact ⟨(y, x), hy, rfl⟩

/-- A knot lasts as long as the references inside it do. -/
theorem Knot.mono {refs refs' : List (α × α)} {c : List α} (h : Knot refs c)
    (hrefs : ∀ e ∈ refs, e.1 ∈ c → e ∈ refs') : Knot refs' c := by
  intro x hx
  obtain ⟨y, hy, hmem⟩ := h x hx
  exact ⟨y, hy, hrefs _ hmem hy⟩

variable [DecidableEq α]

/-- An owner outside the knot lets go. -/
theorem Knot.erase {refs : List (α × α)} {c : List α} (h : Knot refs c) {e : α × α}
    (he : e.1 ∉ c) : Knot (refs.erase e) c := by
  apply h.mono
  intro d hd hdc
  refine (List.mem_erase_of_ne ?_).mpr hd
  rintro rfl
  exact he hdc

end Lib.Ownership
