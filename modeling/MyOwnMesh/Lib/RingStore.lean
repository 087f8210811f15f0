import Mathlib.Data.List.Basic

/-!
# A sequence in a ring of cells

The cells of a block hold a sequence from `head` on, round the end of the block, up to `tail`. At
least one cell stays free, so that the sequence is empty exactly if `head` is `tail`. Writing at the
tail appends, reading at the head takes away from the front, and the sequence can be copied into
another block.
-/

namespace Lib.RingStore

universe u

variable {α : Type u}

/-- The block holds the sequence: in one piece, or round the end. A block may have no cells yet. -/
inductive Holds : List α → Nat → Nat → List α → Prop
  | unused : Holds [] 0 0 []
  | straight (front xs free : List α) (hfree : free ≠ []) :
    Holds (front ++ xs ++ free) front.length (front.length + xs.length) xs
  | wrapped (last free first : List α) (hfree : free ≠ []) (hfirst : first ≠ []) :
    Holds (last ++ free ++ first) (last.length + free.length) last.length (first ++ last)

/-- How many cells are in use. -/
def size (cells head tail : Nat) : Nat :=
  if head ≤ tail then tail - head else tail + cells - head

/-- How many cells are not in use. -/
def room (cells head tail : Nat) : Nat :=
  if head ≤ tail then head + cells - tail else head - tail

/-- The cells from `i` on are overwritten. -/
def overwrite (cells : List α) (i : Nat) (xs : List α) : List α :=
  cells.take i ++ xs ++ cells.drop (i + xs.length)

/-- The elements are put at the tail: up to the end, and the rest at the beginning. -/
def put (cells : List α) (tail : Nat) (xs : List α) : List α × Nat :=
  let n := min cells.length (tail + xs.length) - tail
  let cells₁ := overwrite cells tail (xs.take n)
  if cells.length ≤ tail + n then (overwrite cells₁ 0 (xs.drop n), xs.length - n)
  else (cells₁, tail + n)

/-- The first elements from the head on. -/
def peek (cells : List α) (head k : Nat) : List α :=
  if head + k < cells.length then (cells.drop head).take k
  else cells.drop head ++ cells.take (k - (cells.length - head))

def advance (cells head k : Nat) : Nat :=
  if cells ≤ head + k then head + k - cells else head + k

/-- All of the elements in one piece. -/
def unroll (cells : List α) (head tail : Nat) : List α :=
  if head ≤ tail then (cells.drop head).take (tail - head) else cells.drop head ++ cells.take tail

variable {cells : List α} {head tail k : Nat} {xs ys : List α}

theorem overwrite_append (front rest : List α) :
    overwrite (front ++ rest) front.length xs = front ++ xs ++ rest.drop xs.length := by
  rw [overwrite, List.take_left, ← List.drop_drop, List.drop_left]

theorem length_overwrite {i : Nat} (h : i + xs.length ≤ cells.length) :
    (overwrite cells i xs).length = cells.length := by
  simp only [overwrite, List.length_append, List.length_take, List.length_drop]
  omega

theorem length_put (htail : tail ≤ cells.length) (hfits : ys.length ≤ cells.length) :
    (put cells tail ys).1.length = cells.length := by
  have hfirst : (overwrite cells tail
      (ys.take (min cells.length (tail + ys.length) - tail))).length = cells.length := by
    refine length_overwrite ?_
    rw [List.length_take]
    omega
  simp only [put]
  split
  · refine (length_overwrite ?_).trans hfirst
    rw [hfirst, List.length_drop]
    omega
  · exact hfirst

namespace Holds

theorem size_eq (h : Holds cells head tail xs) : size cells.length head tail = xs.length := by
  cases h with
  | unused => rfl
  | straight front xs free hfree => simp [size]
  | wrapped last free first hfree hfirst =>
    have hpos := List.length_pos_iff.mpr hfree
    rw [size, if_neg (by omega)]
    simp only [List.length_append]
    omega

theorem room_eq (h : Holds cells head tail xs) :
    room cells.length head tail = cells.length - xs.length := by
  cases h with
  | unused => rfl
  | straight front xs free hfree =>
    rw [room, if_pos (by omega)]
    simp only [List.length_append]
    omega
  | wrapped last free first hfree hfirst =>
    have hpos := List.length_pos_iff.mpr hfree
    rw [room, if_neg (by omega)]
    simp only [List.length_append]
    omega

theorem length_le (h : Holds cells head tail xs) : xs.length ≤ cells.length := by
  cases h with
  | unused => exact Nat.le_refl _
  | straight front xs free hfree =>
    simp only [List.length_append]
    omega
  | wrapped last free first hfree hfirst =>
    simp only [List.length_append]
    omega

theorem head_lt (h : Holds cells head tail xs) (hcells : cells ≠ []) : head < cells.length := by
  cases h with
  | unused => exact absurd rfl hcells
  | straight front xs free hfree =>
    have hpos := List.length_pos_iff.mpr hfree
    simp only [List.length_append]
    omega
  | wrapped last free first hfree hfirst =>
    have hpos := List.length_pos_iff.mpr hfirst
    simp only [List.length_append]
    omega

theorem tail_lt (h : Holds cells head tail xs) (hcells : cells ≠ []) : tail < cells.length := by
  cases h with
  | unused => exact absurd rfl hcells
  | straight front xs free hfree =>
    have hpos := List.length_pos_iff.mpr hfree
    simp only [List.length_append]
    omega
  | wrapped last free first hfree hfirst =>
    have hpos := List.length_pos_iff.mpr hfree
    simp only [List.length_append]
    omega

theorem head_eq_tail_iff (h : Holds cells head tail xs) : head = tail ↔ xs = [] := by
  cases h with
  | unused => simp
  | straight front xs free hfree => simp
  | wrapped last free first hfree hfirst => simp [hfree, hfirst]

/-- An empty sequence can start anywhere. -/
theorem reset (h : Holds cells head tail []) : Holds cells 0 0 [] := by
  rcases List.eq_nil_or_concat cells with rfl | ⟨_, _, rfl⟩
  · exact .unused
  · exact .straight [] [] _ (by simp)

theorem unroll_eq (h : Holds cells head tail xs) : unroll cells head tail = xs := by
  cases h with
  | unused => rfl
  | straight front xs free hfree => simp [unroll]
  | wrapped last free first hfree hfirst =>
    have hpos := List.length_pos_iff.mpr hfree
    rw [unroll, if_neg (by omega), ← List.length_append, List.drop_left, List.append_assoc,
      List.take_left]

/-- A copy into a larger block. -/
theorem copy (hfree : ys ≠ []) : Holds (xs ++ ys) 0 xs.length xs := by
  simpa using straight [] xs ys hfree

/-- What is appended may go round the end. -/
theorem put (h : Holds cells head tail xs) (hroom : xs.length + ys.length < cells.length) :
    Holds (RingStore.put cells tail ys).1 head (RingStore.put cells tail ys).2 (xs ++ ys) := by
  cases h with
  | unused => simp at hroom
  | straight front xs free hfree =>
    simp only [List.length_append] at hroom
    by_cases hend : ys.length < free.length
    · have hput : RingStore.put (front ++ xs ++ free) (front.length + xs.length) ys =
          (front ++ (xs ++ ys) ++ free.drop ys.length, front.length + (xs ++ ys).length) := by
        have hn : min (front ++ xs ++ free).length (front.length + xs.length + ys.length) -
            (front.length + xs.length) = ys.length := by
          simp only [List.length_append]
          omega
        rw [RingStore.put, hn, List.take_length, if_neg (by simp only [List.length_append]; omega),
          ← List.length_append, overwrite_append]
        simp [Nat.add_assoc]
      rw [hput]
      exact straight front (xs ++ ys) _ (by simpa using hend)
    · have hput : RingStore.put (front ++ xs ++ free) (front.length + xs.length) ys =
          (ys.drop free.length ++ front.drop (ys.length - free.length) ++
            (xs ++ ys.take free.length), (ys.drop free.length).length) := by
        have hn : min (front ++ xs ++ free).length (front.length + xs.length + ys.length) -
            (front.length + xs.length) = free.length := by
          simp only [List.length_append]
          omega
        rw [RingStore.put, hn, if_pos (by simp only [List.length_append]; omega),
          ← List.length_append, overwrite_append]
        have htake : (ys.take free.length).length = free.length := by
          rw [List.length_take]
          omega
        rw [htake, List.drop_length, List.append_nil, overwrite, List.take_zero, List.nil_append,
          Nat.zero_add, List.length_drop, List.append_assoc, List.append_assoc,
          List.drop_append_of_le_length (by omega)]
      have hlast := List.length_drop (i := free.length) (l := ys)
      have hgap := List.length_drop (i := ys.length - free.length) (l := front)
      rw [hput]
      have hwrapped := wrapped (ys.drop free.length) (front.drop (ys.length - free.length))
        (xs ++ ys.take free.length)
        (List.length_pos_iff.mp (by omega))
        (List.length_pos_iff.mp (by
          have hpos := List.length_pos_iff.mpr hfree
          rw [List.length_append, List.length_take]
          omega))
      rw [show (ys.drop free.length).length + (front.drop (ys.length - free.length)).length =
        front.length by omega] at hwrapped
      simpa using hwrapped
  | wrapped last free first hfree hfirst =>
    simp only [List.length_append] at hroom
    have hput : RingStore.put (last ++ free ++ first) last.length ys =
        (last ++ ys ++ free.drop ys.length ++ first, (last ++ ys).length) := by
      have hn : min (last ++ free ++ first).length (last.length + ys.length) - last.length =
          ys.length := by
        simp only [List.length_append]
        omega
      rw [RingStore.put, hn, List.take_length, if_neg (by simp only [List.length_append]; omega),
        List.append_assoc last, overwrite_append, List.drop_append_of_le_length (by omega)]
      simp
    have hgap := List.length_drop (i := ys.length) (l := free)
    rw [hput]
    have hwrapped := wrapped (last ++ ys) (free.drop ys.length) first
      (List.length_pos_iff.mp (by omega)) hfirst
    rw [show (last ++ ys).length + (free.drop ys.length).length = last.length + free.length by
      rw [List.length_append]
      omega] at hwrapped
    simpa using hwrapped

theorem peek_eq (h : Holds cells head tail xs) (hk : k ≤ xs.length) :
    peek cells head k = xs.take k := by
  cases h with
  | unused =>
    obtain rfl : k = 0 := by simpa using hk
    rfl
  | straight front xs free hfree =>
    have hpos := List.length_pos_iff.mpr hfree
    rw [peek, if_pos (by simp only [List.length_append]; omega), List.append_assoc, List.drop_left,
      List.take_append_of_le_length hk]
  | wrapped last free first hfree hfirst =>
    rw [List.length_append] at hk
    rw [peek, ← List.length_append, List.drop_left]
    split
    case isTrue hin =>
      rw [List.take_append_of_le_length (by simp only [List.length_append] at hin; omega)]
    case isFalse hout =>
      have hback : (last ++ free ++ first).length - (last ++ free).length = first.length := by
        simp only [List.length_append]
        omega
      simp only [List.length_append] at hout
      rw [hback, List.append_assoc last, List.take_append_of_le_length (by omega), List.take_append,
        List.take_of_length_le (l := first) (by omega)]

theorem drop (h : Holds cells head tail xs) (hk : k ≤ xs.length) :
    Holds cells (advance cells.length head k) tail (xs.drop k) := by
  cases h with
  | unused =>
    obtain rfl : k = 0 := by simpa using hk
    exact unused
  | straight front xs free hfree =>
    have hpos := List.length_pos_iff.mpr hfree
    rw [advance, if_neg (by simp only [List.length_append]; omega)]
    have hstraight := straight (front ++ xs.take k) (xs.drop k) free hfree
    rw [List.append_assoc front, List.take_append_drop] at hstraight
    simpa [hk, Nat.add_assoc] using hstraight
  | wrapped last free first hfree hfirst =>
    rw [List.length_append] at hk
    by_cases hin : k < first.length
    · rw [advance, if_neg (by simp only [List.length_append]; omega),
        List.drop_append_of_le_length (by omega)]
      have hwrapped := wrapped last (free ++ first.take k) (first.drop k) (by simp [hfree])
        (by simpa using hin)
      rw [← List.append_assoc, List.append_assoc (last ++ free), List.take_append_drop] at hwrapped
      simpa [Nat.le_of_lt hin, Nat.add_assoc] using hwrapped
    · rw [advance, if_pos (by simp only [List.length_append]; omega), List.drop_append,
        List.drop_eq_nil_of_le (by omega), List.nil_append]
      have hstraight := straight (last.take (k - first.length)) (last.drop (k - first.length))
        (free ++ first) (by simp [hfree])
      rw [List.take_append_drop, ← List.append_assoc] at hstraight
      have hhead : last.length + free.length + k - (last ++ free ++ first).length =
          (last.take (k - first.length)).length := by
        simp only [List.length_append, List.length_take]
        omega
      have htail : (last.take (k - first.length)).length + (last.drop (k - first.length)).length =
          last.length := by
        rw [← List.length_append, List.take_append_drop]
      rw [hhead]
      rwa [htail] at hstraight

end Holds

end Lib.RingStore
