import Mathlib.Algebra.Order.BigOperators.Group.Finset
import Mathlib.Data.List.Basic

/-!
# Permits at a distance

Permits are asked for at certain times, and one is given when enough time has passed since the last
one. How much is enough may depend on how many were given since the pace was last reset. The
permits of one burst keep their distances, so that a stretch of time holds only as many as fit.
-/

namespace Lib.Pacing

variable {gap : ℕ → ℕ} {times : List ℕ}

/-- The last permit, and how many were given since the pace was reset. -/
structure Pace where
  last : Option ℕ
  level : ℕ

/-- No permit was given. -/
def Pace.new : Pace := ⟨none, 0⟩

/-- A permit may be given now; `gap n` is the distance after the permit number `n`, from zero. -/
def Pace.due (gap : ℕ → ℕ) (p : Pace) (now : ℕ) : Bool :=
  p.last.all fun last ↦ last + gap (p.level - 1) ≤ now

/-- A permit is asked for. -/
def Pace.request (gap : ℕ → ℕ) (p : Pace) (now : ℕ) : Pace × Bool :=
  if p.due gap now then (⟨some now, p.level + 1⟩, true) else (p, false)

/-- Neighbours keep their distance. -/
def Spaced (gap : ℕ → ℕ) (times : List ℕ) : Prop :=
  ∀ i a b, times[i]? = some a → times[i + 1]? = some b → a + gap i ≤ b

/-- The pace after the permits of a burst. -/
structure Burst (gap : ℕ → ℕ) (times : List ℕ) (p : Pace) : Prop where
  last : p.last = times.getLast?
  level : p.level = times.length
  spaced : Spaced gap times

theorem Burst.new : Burst gap [] Pace.new where
  last := rfl
  level := rfl
  spaced := fun _ _ _ h ↦ by simp at h

theorem Spaced.snoc (h : Spaced gap times) {now : ℕ}
    (hnow : ∀ last, times.getLast? = some last → last + gap (times.length - 1) ≤ now) :
    Spaced gap (times ++ [now]) := by
  intro i a b ha hb
  have hi : i + 1 < times.length + 1 := by
    have := (List.getElem?_eq_some_iff.mp hb).1
    simpa using this
  rcases Nat.lt_or_ge (i + 1) times.length with hold | hnew
  · rw [List.getElem?_append_left (by omega)] at ha
    rw [List.getElem?_append_left hold] at hb
    exact h i a b ha hb
  · have hlength : times.length = i + 1 := by omega
    rw [List.getElem?_append_right (by omega), hlength, Nat.sub_self] at hb
    rw [List.getElem?_append_left (by omega)] at ha
    cases hb
    have hlast : times.getLast? = some a := by
      rw [List.getLast?_eq_getElem?, hlength, Nat.add_sub_cancel]
      exact ha
    have := hnow a hlast
    rwa [hlength, Nat.add_sub_cancel] at this

/-- A request is granted exactly when the distance is kept, and the burst goes on. -/
theorem Burst.request {p : Pace} (h : Burst gap times p) (now : ℕ) :
    if (p.request gap now).2 then Burst gap (times ++ [now]) (p.request gap now).1
    else Burst gap times (p.request gap now).1 := by
  unfold Pace.request
  by_cases hdue : p.due gap now = true
  · rw [if_pos hdue]
    refine ⟨by simp, by simp [h.level], h.spaced.snoc fun last hlast ↦ ?_⟩
    rw [Pace.due, h.last, hlast, Option.all_some, decide_eq_true_eq, h.level] at hdue
    exact hdue
  · rw [if_neg hdue]
    exact h

/-- The distances add up. -/
theorem Spaced.add_sum_le (h : Spaced gap times) {i n a b : ℕ} (ha : times[i]? = some a)
    (hb : times[i + n]? = some b) : a + ∑ k ∈ Finset.range n, gap (i + k) ≤ b := by
  induction n generalizing b with
  | zero =>
    rw [Nat.add_zero, ha] at hb
    cases hb
    simp
  | succ n ih =>
    have hlt := (List.getElem?_eq_some_iff.mp hb).1
    obtain ⟨c, hn⟩ : ∃ c, times[i + n]? = some c := ⟨_, List.getElem?_eq_getElem (by omega)⟩
    have hstep := h (i + n) _ b hn hb
    rw [Finset.sum_range_succ]
    have := ih hn
    omega

/-- A stretch of time shorter than `n` distances holds at most `n` permits. -/
theorem Spaced.length_le (h : Spaced gap times) {least n : ℕ} (start : ℕ)
    (hleast : ∀ i, least ≤ gap i) (hn : 0 < n)
    (hwithin : ∀ t ∈ times, start ≤ t ∧ t < start + n * least) :
    times.length ≤ n := by
  by_contra hlong
  rw [Nat.not_le] at hlong
  obtain ⟨first, hfirst⟩ : ∃ t, times[0]? = some t := ⟨_, List.getElem?_eq_getElem (by omega)⟩
  obtain ⟨last, hlast⟩ : ∃ t, times[0 + n]? = some t := ⟨_, List.getElem?_eq_getElem (by omega)⟩
  have hsum := h.add_sum_le hfirst hlast
  have hleast' : n * least ≤ ∑ k ∈ Finset.range n, gap (0 + k) := by
    have := Finset.card_nsmul_le_sum (Finset.range n) (fun k ↦ gap (0 + k)) least
      fun k _ ↦ hleast _
    simpa using this
  have h0 := (hwithin first (List.mem_of_getElem? hfirst)).1
  have hN := (hwithin last (List.mem_of_getElem? hlast)).2
  omega

/-- With one distance for all, any two permits keep it. -/
theorem spaced_const_iff {g : ℕ} :
    Spaced (fun _ ↦ g) times ↔ times.Pairwise fun a b ↦ a + g ≤ b := by
  rw [List.pairwise_iff_getElem]
  constructor
  · intro h i j hi hj hij
    obtain ⟨n, rfl⟩ := Nat.exists_eq_add_of_lt hij
    have hsum := h.add_sum_le (n := n + 1) (List.getElem?_eq_getElem hi)
      (List.getElem?_eq_getElem hj)
    rw [Finset.sum_const_nat fun _ _ ↦ rfl, Finset.card_range, Nat.succ_mul] at hsum
    omega
  · intro h i a b ha hb
    obtain ⟨hi, rfl⟩ := List.getElem?_eq_some_iff.mp ha
    obtain ⟨hj, rfl⟩ := List.getElem?_eq_some_iff.mp hb
    exact h i (i + 1) hi hj (Nat.lt_succ_self i)

/-- Any stretch of `n` distances holds at most `n` permits. -/
theorem Spaced.length_window_le {g : ℕ} (h : Spaced (fun _ ↦ g) times) {n : ℕ} (hn : 0 < n)
    (start : ℕ) :
    (times.filter fun t ↦ start ≤ t && t < start + n * g).length ≤ n := by
  have hwindow : Spaced (fun _ ↦ g) (times.filter fun t ↦ start ≤ t && t < start + n * g) :=
    spaced_const_iff.mpr ((spaced_const_iff.mp h).sublist List.filter_sublist)
  refine hwindow.length_le start (fun _ ↦ Nat.le_refl g) hn fun t ht ↦ ?_
  have := (List.mem_filter.mp ht).2
  rwa [Bool.and_eq_true, decide_eq_true_eq, decide_eq_true_eq] at this

end Lib.Pacing
