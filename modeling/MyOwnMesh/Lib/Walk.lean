import Mathlib.Data.List.Nodup
import Mathlib.Logic.Relation

/-!
# Walks of a partial function

From where one is, a partial function says where one goes next. A walk goes on until it is at its
goal. There is at most one walk from a place, and it meets no place twice.
-/

namespace Lib

universe u

variable {α : Type u}

/-- The places after the first one, on the way to the goal. -/
def Walk (next : α → Option α) (goal : α) : α → List α → Prop
  | a, [] => a = goal
  | a, b :: rest => a ≠ goal ∧ next a = some b ∧ Walk next goal b rest

namespace Walk

variable {next : α → Option α} {goal a : α} {path : List α}

/-- There is one way only. -/
theorem unique {path' : List α} (h : Walk next goal a path) (h' : Walk next goal a path') :
    path = path' := by
  induction path generalizing a path' with
  | nil =>
    cases path' with
    | nil => rfl
    | cons b rest => exact absurd h h'.1
  | cons b rest ih =>
    cases path' with
    | nil => exact absurd h' h.1
    | cons b' rest' =>
      obtain ⟨-, hnext, hrest⟩ := h
      obtain ⟨-, hnext', hrest'⟩ := h'
      obtain rfl : b = b' := Option.some.inj (hnext.symm.trans hnext')
      rw [ih hrest hrest']

/-- From a place on the way, the rest of it is a walk. -/
theorem exists_of_mem (h : Walk next goal a path) {x : α} (hx : x ∈ path) :
    ∃ rest, Walk next goal x rest ∧ rest.length < path.length := by
  induction path generalizing a with
  | nil => exact absurd hx List.not_mem_nil
  | cons b rest ih =>
    obtain ⟨-, -, hrest⟩ := h
    rcases List.mem_cons.mp hx with rfl | hx
    · exact ⟨rest, hrest, Nat.lt_succ_self _⟩
    · obtain ⟨tail, htail, hlt⟩ := ih hrest hx
      exact ⟨tail, htail, Nat.lt_succ_of_lt hlt⟩

/-- No place is met twice: from it, there would be a walk and a shorter one. -/
theorem nodup (h : Walk next goal a path) : (a :: path).Nodup := by
  induction path generalizing a with
  | nil => exact List.nodup_singleton a
  | cons b rest ih =>
    refine List.nodup_cons.mpr ⟨fun hmem ↦ ?_, ih h.2.2⟩
    obtain ⟨tail, htail, hlt⟩ := h.exists_of_mem hmem
    rw [h.unique htail] at hlt
    exact Nat.lt_irrefl _ hlt

/-- A walk stays where each of its steps does. -/
theorem forall_mem {S : α → Prop} (hnext : ∀ x y, S x → next x = some y → S y)
    (h : Walk next goal a path) (ha : S a) : ∀ x ∈ path, S x := by
  induction path generalizing a with
  | nil => exact fun x hx ↦ absurd hx List.not_mem_nil
  | cons b rest ih =>
    have hb : S b := hnext a b ha h.2.1
    intro x hx
    rcases List.mem_cons.mp hx with rfl | hx
    · exact hb
    · exact ih h.2.2 hb x hx

end Walk

/-- Steps that lead to the goal make a walk. -/
theorem exists_walk {next : α → Option α} {goal a : α}
    (h : Relation.ReflTransGen (fun x y ↦ x ≠ goal ∧ next x = some y) a goal) :
    ∃ path, Walk next goal a path := by
  induction h using Relation.ReflTransGen.head_induction_on with
  | refl => exact ⟨[], rfl⟩
  | head hstep _ ih =>
    obtain ⟨path, hpath⟩ := ih
    exact ⟨_ :: path, hstep.1, hstep.2, hpath⟩

end Lib
