import Mathlib.Data.Int.Order.Basic
import Mathlib.Data.List.Nodup
import Mathlib.Data.List.Pairwise
import Mathlib.Data.List.Perm.Subperm

/-!
# Stretches of the integer line

The integers behind one and up to another, in order. Increasing integers from a stretch are no
more than it is long, and if they are as many, they are all of it.
-/

namespace Lib

/-- The integers behind `a` and up to `b`. -/
def stretch (a b : Int) : List Int := (List.range (b - a).toNat).map fun i : Nat ↦ a + 1 + (i : Int)

theorem mem_stretch {a b x : Int} : x ∈ stretch a b ↔ a < x ∧ x ≤ b := by
  simp only [stretch, List.mem_map, List.mem_range]
  constructor
  · rintro ⟨i, hi, rfl⟩
    omega
  · rintro ⟨hax, hxb⟩
    exact ⟨(x - a - 1).toNat, by omega, by omega⟩

theorem stretch_of_le {a b : Int} (h : b ≤ a) : stretch a b = [] := by
  have hzero : (b - a).toNat = 0 := by omega
  rw [stretch, hzero, List.range_zero, List.map_nil]

/-- A stretch starts with its first integer. -/
theorem stretch_cons {a b : Int} (h : a < b) : stretch a b = (a + 1) :: stretch (a + 1) b := by
  have hsucc : (b - a).toNat = (b - (a + 1)).toNat + 1 := by omega
  rw [stretch, hsucc, List.range_succ_eq_map, List.map_cons, List.map_map, stretch]
  refine congrArg₂ _ (by simp) (List.map_congr_left fun i _ ↦ ?_)
  simp only [Function.comp_apply]
  omega

/-- A stretch goes on where another ends. -/
theorem stretch_append {a b c : Int} (hab : a ≤ b) (hbc : b ≤ c) :
    stretch a c = stretch a b ++ stretch b c := by
  have hsum : (c - a).toNat = (b - a).toNat + (c - b).toNat := by omega
  rw [stretch, stretch, stretch, hsum, List.range_add, List.map_append, List.map_map]
  refine congrArg _ (List.map_congr_left fun i _ ↦ ?_)
  simp only [Function.comp_apply]
  omega

variable {l : List Int} {a b : Int}

/-- Increasing integers from a stretch are no more than it is long. -/
theorem length_le_of_increasing (h : l.Pairwise (· < ·)) (hl : ∀ x ∈ l, a < x ∧ x ≤ b) :
    l.length ≤ (b - a).toNat := by
  induction l generalizing a with
  | nil => exact Nat.zero_le _
  | cons x xs ih =>
    obtain ⟨hx, hxs⟩ := List.pairwise_cons.mp h
    have hfirst := hl x List.mem_cons_self
    have hrest := ih (a := x) hxs fun y hy ↦ ⟨hx y hy, (hl y (List.mem_cons_of_mem _ hy)).2⟩
    rw [List.length_cons]
    omega

/-- If they are as many, they are all of it. -/
theorem eq_stretch_of_increasing (h : l.Pairwise (· < ·)) (hl : ∀ x ∈ l, a < x ∧ x ≤ b)
    (hlen : (b - a).toNat ≤ l.length) : l = stretch a b := by
  induction l generalizing a with
  | nil =>
    rw [List.length_nil] at hlen
    rw [stretch_of_le (by omega)]
  | cons x xs ih =>
    obtain ⟨hx, hxs⟩ := List.pairwise_cons.mp h
    have hfirst := hl x List.mem_cons_self
    have hbelow : ∀ y ∈ xs, x < y ∧ y ≤ b := fun y hy ↦
      ⟨hx y hy, (hl y (List.mem_cons_of_mem _ hy)).2⟩
    have hbound := length_le_of_increasing hxs hbelow
    rw [List.length_cons] at hlen
    have hxa : x = a + 1 := by omega
    subst hxa
    rw [stretch_cons (by omega), ih hxs hbelow (by omega)]

/-- A list that has all of a stretch is at least as long. -/
theorem length_le_of_stretch_subset (h : ∀ x, a < x → x ≤ b → x ∈ l) :
    (b - a).toNat ≤ l.length := by
  have hnodup : (stretch a b).Nodup := by
    refine List.Nodup.map_on (fun i _ i' _ heq ↦ ?_) List.nodup_range
    omega
  have hsubset : stretch a b ⊆ l := fun x hx ↦ h x (mem_stretch.mp hx).1 (mem_stretch.mp hx).2
  have hlen := (hnodup.subperm hsubset).length_le
  rwa [stretch, List.length_map, List.length_range] at hlen

end Lib
