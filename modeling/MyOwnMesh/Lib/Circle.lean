import Mathlib.Combinatorics.SimpleGraph.Connectivity.Connected
import Mathlib.Data.List.Dedup
import Mathlib.Data.List.Rotate
import Mathlib.Data.List.Sort
import Mathlib.Data.Prod.Lex

/-!
# Members around a circle

The elements of a linear order, sorted and closed to a circle: how far one is from another in
either direction, which sets are made of the nearest members, and that joining every member to
the next one connects them all.
-/

namespace Lib.Circle

variable {α : Type*} [LinearOrder α]

/-! ### The circle -/

/-- The members in order, each once. -/
def circle (xs : List α) : List α := xs.dedup.insertionSort (· ≤ ·)

@[simp] theorem mem_circle {a : α} {xs : List α} : a ∈ circle xs ↔ a ∈ xs := by
  rw [circle, List.mem_insertionSort, List.mem_dedup]

theorem pairwise_circle (xs : List α) : (circle xs).Pairwise (· < ·) := by
  have hle : (circle xs).Pairwise (· ≤ ·) := List.pairwise_insertionSort _ _
  have hnodup : (circle xs).Nodup :=
    (List.perm_insertionSort _ _).nodup_iff.mpr (List.nodup_dedup xs)
  exact (hle.and hnodup).imp fun h ↦ lt_of_le_of_ne h.1 h.2

/-- Only who the members are decides, in whatever order and however often they are named. -/
theorem filter_circle_congr {p : α → Bool} {xs ys : List α}
    (h : ∀ a, p a = true → (a ∈ xs ↔ a ∈ ys)) : (circle xs).filter p = (circle ys).filter p := by
  have hperm : ((circle xs).filter p).Perm ((circle ys).filter p) := by
    rw [List.perm_ext_iff_of_nodup ((pairwise_circle xs).nodup.filter p)
      ((pairwise_circle ys).nodup.filter p)]
    intro a
    simp only [List.mem_filter, mem_circle]
    exact and_congr_left fun hp ↦ h a hp
  exact hperm.eq_of_pairwise (fun a b _ _ hab hba ↦ absurd hab hba.asymm)
    ((pairwise_circle xs).filter p) ((pairwise_circle ys).filter p)

/-- The other members clockwise from `a`: those above it in order, then those below it. -/
def around (a : α) (xs : List α) : List α :=
  (circle xs).filter (a < ·) ++ (circle xs).filter (· < a)

theorem mem_around {a p : α} {xs : List α} : p ∈ around a xs ↔ p ∈ xs ∧ p ≠ a := by
  simp only [around, List.mem_append, List.mem_filter, mem_circle, decide_eq_true_eq]
  rw [← and_or_left, ne_comm, lt_or_lt_iff_ne]

/-- Cut at one of the members, the circle is read from there. -/
theorem around_of_split {a : α} {xs before after : List α}
    (h : circle xs = before ++ a :: after) : around a xs = after ++ before := by
  have hsorted := pairwise_circle xs
  rw [h, List.pairwise_append, List.pairwise_cons] at hsorted
  obtain ⟨-, ⟨hafter, -⟩, hbefore⟩ := hsorted
  have hlow : ∀ x ∈ before, x < a := fun x hx ↦ hbefore x hx a List.mem_cons_self
  have habove : (before ++ a :: after).filter (a < ·) = after := by
    rw [List.filter_append, List.filter_cons_of_neg (by simp),
      List.filter_eq_nil_iff.mpr (by simpa using fun x hx ↦ (hlow x hx).le),
      List.filter_eq_self.mpr (by simpa using hafter), List.nil_append]
  have hbelow : (before ++ a :: after).filter (· < a) = before := by
    rw [List.filter_append, List.filter_cons_of_neg (by simp),
      List.filter_eq_self.mpr (by simpa using hlow),
      List.filter_eq_nil_iff.mpr (by simpa using fun x hx ↦ (hafter x hx).le), List.append_nil]
  rw [around, h, habove, hbelow]

/-- The first one clockwise from `a` stands at the next index, at the first one past the end. -/
theorem head?_around {a b : α} {xs : List α} {i : Nat} (ha : (circle xs)[i]? = some a)
    (hb : (circle xs)[(i + 1) % (circle xs).length]? = some b) (hne : b ≠ a) :
    (around a xs).head? = some b := by
  obtain ⟨hi, hget⟩ := List.getElem?_eq_some_iff.mp ha
  have hsplit : circle xs = (circle xs).take i ++ a :: (circle xs).drop (i + 1) := by
    rw [← hget, List.getElem_cons_drop, List.take_append_drop]
  rw [around_of_split hsplit, List.head?_append, List.head?_drop]
  by_cases hlast : i + 1 < (circle xs).length
  · rw [Nat.mod_eq_of_lt hlast] at hb
    rw [hb, Option.some_or]
  · have hlen : i + 1 = (circle xs).length := Nat.le_antisymm hi (Nat.le_of_not_lt hlast)
    rw [← hlen, Nat.mod_self] at hb
    rw [hlen, List.getElem?_eq_none (Nat.le_refl _), Option.none_or, List.head?_take]
    have hpos : i ≠ 0 := by
      rintro rfl
      exact hne (Option.some.inj (hb.symm.trans ha))
    rw [if_neg hpos, List.head?_eq_getElem?, hb]

theorem nodup_around (a : α) (xs : List α) : (around a xs).Nodup := by
  have hnodup := (pairwise_circle xs).nodup
  refine List.nodup_append.mpr ⟨hnodup.filter _, hnodup.filter _, ?_⟩
  intro x hx y hy heq
  rw [List.mem_filter, decide_eq_true_eq] at hx hy
  rw [heq] at hx
  exact hx.2.asymm hy.2

/-- Who else is a member decides. -/
theorem around_congr {a : α} {xs ys : List α} (h : ∀ p, p ≠ a → (p ∈ xs ↔ p ∈ ys)) :
    around a xs = around a ys := by
  have habove := filter_circle_congr (p := (a < ·)) fun x hx ↦ h x (of_decide_eq_true hx).ne'
  have hbelow := filter_circle_congr (p := (· < a)) fun x hx ↦ h x (of_decide_eq_true hx).ne
  rw [around, habove, hbelow, ← around]

/-! ### Distances -/

/-- How many steps lead from `a` to `p` clockwise. -/
def clockwise (a : α) (xs : List α) (p : α) : Nat := (around a xs).idxOf p + 1

/-- How many steps lead from `a` to `p` the other way. -/
def counterclockwise (a : α) (xs : List α) (p : α) : Nat :=
  (around a xs).length - (around a xs).idxOf p

/-- How far `p` is from `a`: the shorter of the two ways, the clockwise one first of two as
long. -/
def rank (a : α) (xs : List α) (p : α) : ℕ ×ₗ Bool :=
  toLex (min (clockwise a xs p) (counterclockwise a xs p),
    decide (counterclockwise a xs p < clockwise a xs p))

/-- Some of the other members, each once, no other member nearer to `a` than one of them. -/
structure Nearest (a : α) (xs chosen : List α) : Prop where
  nodup : chosen.Nodup
  mem_around : ∀ p ∈ chosen, p ∈ around a xs
  rank_lt : ∀ p ∈ chosen, ∀ q ∈ around a xs, q ∉ chosen → rank a xs p < rank a xs q

section Distances

variable {a p : α} {xs : List α}

theorem clockwise_getElem {i : Nat} (h : i < (around a xs).length) :
    clockwise a xs (around a xs)[i] = i + 1 := by
  rw [clockwise, (nodup_around a xs).idxOf_getElem]

theorem counterclockwise_getElem {i : Nat} (h : i < (around a xs).length) :
    counterclockwise a xs (around a xs)[i] = (around a xs).length - i := by
  rw [counterclockwise, (nodup_around a xs).idxOf_getElem]

/-- The two ways make up the circle. -/
theorem clockwise_add_counterclockwise (h : p ∈ around a xs) :
    clockwise a xs p + counterclockwise a xs p = (around a xs).length + 1 ∧
      0 < counterclockwise a xs p := by
  have hlt := List.idxOf_lt_length_of_mem h
  unfold clockwise counterclockwise
  omega

theorem clockwise_eq_iff {d : Nat} (h : d < (around a xs).length) (hp : p ∈ around a xs) :
    clockwise a xs p = d + 1 ↔ p = (around a xs)[d] := by
  constructor
  · intro heq
    rw [clockwise, Nat.add_right_cancel_iff] at heq
    have hget := List.getElem_idxOf (List.idxOf_lt_length_of_mem hp)
    simp only [heq] at hget
    exact hget.symm
  · rintro rfl
    exact clockwise_getElem h

theorem rank_lt_iff {q : α} : rank a xs p < rank a xs q ↔
    min (clockwise a xs p) (counterclockwise a xs p) <
        min (clockwise a xs q) (counterclockwise a xs q) ∨
      min (clockwise a xs p) (counterclockwise a xs p) =
          min (clockwise a xs q) (counterclockwise a xs q) ∧
        clockwise a xs p ≤ counterclockwise a xs p ∧
        counterclockwise a xs q < clockwise a xs q := by
  rw [rank, rank, Prod.Lex.toLex_lt_toLex, Bool.lt_iff, decide_eq_false_iff_not,
    decide_eq_true_eq, Nat.not_lt]

/-! ### Widening the choice step by step -/

/-- The members less than `d` steps from `a`, each once. -/
structure Within (a : α) (xs : List α) (d : Nat) (chosen : List α) : Prop where
  nodup : chosen.Nodup
  mem_iff : ∀ p, p ∈ chosen ↔
    p ∈ around a xs ∧ min (clockwise a xs p) (counterclockwise a xs p) < d

theorem Within.nearest {d : Nat} {chosen : List α} (h : Within a xs d chosen) :
    Nearest a xs chosen where
  nodup := h.nodup
  mem_around p hp := ((h.mem_iff p).mp hp).1
  rank_lt p hp q hq hnot := by
    have hnear := ((h.mem_iff p).mp hp).2
    have hfar : ¬min (clockwise a xs q) (counterclockwise a xs q) < d :=
      fun hlt ↦ hnot ((h.mem_iff q).mpr ⟨hq, hlt⟩)
    exact rank_lt_iff.mpr (.inl (by omega))

theorem Within.zero : Within a xs 1 [] where
  nodup := List.nodup_nil
  mem_iff p := by
    simp only [List.not_mem_nil, false_iff, not_and]
    intro hp
    have hsum := clockwise_add_counterclockwise hp
    unfold clockwise at hsum ⊢
    omega

section Widen

variable {d : Nat} {chosen half full : List α}

/-- Next comes the member `d` steps clockwise. -/
theorem Within.nearest_half (h : Within a xs (d + 1) chosen) (hd : d < (around a xs).length)
    (hnodup : half.Nodup) (hhalf : ∀ p, p ∈ half ↔ p ∈ chosen ∨ p = (around a xs)[d]) :
    Nearest a xs half where
  nodup := hnodup
  mem_around p hp := by
    rcases (hhalf p).mp hp with hp | rfl
    · exact ((h.mem_iff p).mp hp).1
    · exact List.getElem_mem hd
  rank_lt p hp q hq hnot := by
    rw [hhalf, not_or] at hnot
    have hfar : ¬min (clockwise a xs q) (counterclockwise a xs q) < d + 1 :=
      fun hlt ↦ hnot.1 ((h.mem_iff q).mpr ⟨hq, hlt⟩)
    have hother := mt (clockwise_eq_iff hd hq).mp hnot.2
    have hnear : min (clockwise a xs p) (counterclockwise a xs p) < d + 1 ∨
        clockwise a xs p = d + 1 := by
      rcases (hhalf p).mp hp with hp | rfl
      · exact .inl ((h.mem_iff p).mp hp).2
      · exact .inr (clockwise_getElem hd)
    -- at the same distance, `q` can only lie the other way
    exact rank_lt_iff.mpr (by omega)

/-- After it the one `d` steps the other way. -/
theorem Within.widen (h : Within a xs (d + 1) chosen) (hd : d < (around a xs).length)
    (hnodup : full.Nodup)
    (hfull : ∀ p, p ∈ full ↔ p ∈ chosen ∨ p = (around a xs)[d] ∨
      p = (around a xs)[(around a xs).length - 1 - d]) :
    Within a xs (d + 2) full where
  nodup := hnodup
  mem_iff p := by
    have hlast : (around a xs).length - 1 - d < (around a xs).length := by omega
    rw [hfull, h.mem_iff]
    constructor
    · rintro (⟨hp, hlt⟩ | rfl | rfl)
      · exact ⟨hp, by omega⟩
      · refine ⟨List.getElem_mem hd, ?_⟩
        rw [clockwise_getElem hd]
        omega
      · refine ⟨List.getElem_mem hlast, ?_⟩
        rw [counterclockwise_getElem hlast]
        omega
    · rintro ⟨hp, hlt⟩
      have hsum := clockwise_add_counterclockwise hp
      have hnext := clockwise_eq_iff hd hp
      have hprev := clockwise_eq_iff hlast hp
      by_cases hnear : min (clockwise a xs p) (counterclockwise a xs p) < d + 1
      · exact .inl ⟨hp, hnear⟩
      · right
        rw [← hnext, ← hprev]
        omega

end Widen

/-- Once around, every other member is there. -/
theorem Within.perm_around {d : Nat} {chosen : List α} (h : Within a xs d chosen)
    (hd : (around a xs).length < d) : chosen.Perm (around a xs) := by
  rw [List.perm_ext_iff_of_nodup h.nodup (nodup_around a xs)]
  intro p
  rw [h.mem_iff]
  refine and_iff_left_of_imp fun hp ↦ ?_
  have hsum := clockwise_add_counterclockwise hp
  omega

end Distances

/-! ### Joining each member to the next -/

/-- A graph that joins every member to the next one around the circle connects them all. -/
theorem reachable_of_next {G : SimpleGraph α} {xs : List α}
    (h : ∀ a ∈ xs, ∀ b ∈ xs, (around a xs).head? = some b → G.Adj a b) {a b : α} (ha : a ∈ xs)
    (hb : b ∈ xs) : G.Reachable a b := by
  have hchain : (circle xs).IsChain G.Reachable := by
    rw [List.isChain_iff_forall_rel_of_append_cons_cons]
    intro x y before after hsplit
    have hmem (z : α) (hz : z ∈ before ++ x :: y :: after) : z ∈ xs := by
      rw [← hsplit, mem_circle] at hz
      exact hz
    have hnext : (around x xs).head? = some y := by
      rw [around_of_split hsplit, List.cons_append, List.head?_cons]
    exact (h x (hmem x (by simp)) y (hmem y (by simp)) hnext).reachable
  have : Trans G.Reachable G.Reachable G.Reachable := ⟨SimpleGraph.Reachable.trans⟩
  have : Std.Symm G.Reachable := ⟨fun _ _ ↦ SimpleGraph.Reachable.symm⟩
  by_cases heq : a = b
  · rw [heq]
  · exact hchain.pairwise.forall (mem_circle.mpr ha) (mem_circle.mpr hb) heq

end Lib.Circle
