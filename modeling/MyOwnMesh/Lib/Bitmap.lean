import Mathlib.Data.BitVec
import Mathlib.Data.List.Basic

/-!
# Bitmaps in words

A set of numbers below `n`, one bit each, in words of sixty-four bits. A number is looked up,
added and taken out in its own word, and the other numbers keep their bits.
-/

namespace Lib.Bitmap

/-- The words of `n` bits. -/
abbrev Bits (n : Nat) := Vector (BitVec 64) ((n + 63) / 64)

variable {n : Nat}

/-- No number. -/
def clear (n : Nat) : Bits n := Vector.replicate _ 0#64

/-- The word of a number. -/
def word (i : Fin n) : Fin ((n + 63) / 64) := ⟨i / 64, by omega⟩

/-- The bit of a number in its word. -/
def mask (i : Fin n) : BitVec 64 := 1#64 <<< (i.val % 64)

def contains (bits : Bits n) (i : Fin n) : Bool := bits[word i] &&& mask i ≠ 0#64

def insert (bits : Bits n) (i : Fin n) : Bits n :=
  bits.set (word i) (bits[word i] ||| mask i)

def erase (bits : Bits n) (i : Fin n) : Bits n :=
  bits.set (word i) (bits[word i] &&& ~~~mask i)

/-- Two numbers are one if they have one word and one bit. -/
theorem eq_of_word {i j : Fin n} (hword : word i = word j) (hbit : i.val % 64 = j.val % 64) :
    i = j := by
  have h : i.val / 64 = j.val / 64 := congrArg Fin.val hword
  ext
  omega

theorem getLsbD_mask (i : Fin n) (k : Nat) : (mask i).getLsbD k = decide (k = i.val % 64) := by
  have hlt : i.val % 64 < 64 := Nat.mod_lt _ (by decide)
  rw [mask, ← BitVec.twoPow_eq, BitVec.getLsbD_twoPow, decide_eq_true hlt, Bool.true_and]
  exact decide_eq_decide.mpr eq_comm

theorem contains_eq (bits : Bits n) (i : Fin n) :
    contains bits i = bits[word i].getLsbD (i.val % 64) := by
  have hand : ∀ k, (bits[word i] &&& mask i).getLsbD k =
      (bits[word i].getLsbD k && decide (k = i.val % 64)) := by
    intro k
    rw [BitVec.getLsbD_and, getLsbD_mask]
  rw [contains, Bool.eq_iff_iff, decide_eq_true_iff]
  constructor
  · intro hne
    by_contra hbit
    refine hne (BitVec.eq_of_getLsbD_eq fun k _ ↦ ?_)
    rw [hand, BitVec.getLsbD_zero]
    by_cases hk : k = i.val % 64
    · rw [hk, Bool.eq_false_iff.mpr hbit, Bool.false_and]
    · rw [decide_eq_false hk, Bool.and_false]
  · intro hbit heq
    have hk := hand (i.val % 64)
    rw [heq, hbit] at hk
    simp at hk

@[simp] theorem contains_clear (i : Fin n) : contains (clear n) i = false := by
  simp [contains_eq, clear]

theorem contains_insert (bits : Bits n) (i j : Fin n) :
    contains (insert bits i) j = (decide (j = i) || contains bits j) := by
  rw [contains_eq, contains_eq, insert]
  by_cases hword : word j = word i
  · have hbit : (j.val % 64 = i.val % 64) ↔ j = i := ⟨eq_of_word hword, fun h ↦ by rw [h]⟩
    simp [hword, getLsbD_mask, hbit, Bool.or_comm]
  · have hne : j ≠ i := fun h ↦ hword (congrArg word h)
    have hval : (word i).val ≠ (word j).val := fun h ↦ hword (Fin.ext h.symm)
    simp [hne, hval]

theorem contains_erase (bits : Bits n) (i j : Fin n) :
    contains (erase bits i) j = (!decide (j = i) && contains bits j) := by
  rw [contains_eq, contains_eq, erase]
  by_cases hword : word j = word i
  · have hbit : (j.val % 64 = i.val % 64) ↔ j = i := ⟨eq_of_word hword, fun h ↦ by rw [h]⟩
    have hlt : j.val % 64 < 64 := Nat.mod_lt _ (by decide)
    have hget : (bits.set (word i) (bits[word i] &&& ~~~mask i))[word j] =
        bits[word i] &&& ~~~mask i := by simp [hword]
    have hsame : bits[word j] = bits[word i] := by simp only [hword]
    rw [hget, hsame, BitVec.getLsbD_and, BitVec.getLsbD_not, getLsbD_mask, decide_eq_true hlt,
      Bool.true_and, Bool.and_comm]
    simp only [hbit]
  · have hne : j ≠ i := fun h ↦ hword (congrArg word h)
    have hval : (word i).val ≠ (word j).val := fun h ↦ hword (Fin.ext h.symm)
    simp [hne, hval]

end Lib.Bitmap
