import Mathlib.Data.List.Infix
import MyOwnMesh.Lib.Text

/-!
# Texts put together with separators

When a text built from parts and separators can be taken apart again. A separator that
the first part does not contain, or the last part, determines the cut. A separator whose
first letter occurs in it once never overlaps itself, so the cut at it is unique exactly
when neither part contains it. A list of texts joined in ascending order is determined by
the joined text in one case only: a single text that is not such a join itself.
-/

namespace Lib.Delimited

universe u

variable {α : Type u}

/-- The cut at the first separator. -/
theorem cut_first_inj {sep : α} {a a' b b' : List α} (h : sep ∉ a) (h' : sep ∉ a')
    (he : a ++ sep :: b = a' ++ sep :: b') : a = a' ∧ b = b' := by
  induction a generalizing a' with
  | nil =>
    cases a' with
    | nil => exact ⟨rfl, (List.cons.inj he).2⟩
    | cons x xs =>
      have hx : sep = x := (List.cons.inj he).1
      exact absurd (by simp [hx]) h'
  | cons y ys ih =>
    cases a' with
    | nil =>
      have hy : y = sep := (List.cons.inj he).1
      exact absurd (by simp [hy]) h
    | cons x xs =>
      obtain ⟨rfl, hrest⟩ := List.cons.inj he
      obtain ⟨rfl, hb⟩ := ih (fun hm ↦ h (by simp [hm])) (fun hm ↦ h' (by simp [hm])) hrest
      exact ⟨rfl, hb⟩

/-- The cut at the last separator. -/
theorem cut_last_inj {sep : α} {a a' b b' : List α} (h : sep ∉ b) (h' : sep ∉ b')
    (he : a ++ sep :: b = a' ++ sep :: b') : a = a' ∧ b = b' := by
  have hrev : b.reverse ++ sep :: a.reverse = b'.reverse ++ sep :: a'.reverse := by
    have := congrArg List.reverse he
    simpa using this
  obtain ⟨hb, ha⟩ := cut_first_inj (by simpa using h) (by simpa using h') hrev
  exact ⟨List.reverse_injective ha, List.reverse_injective hb⟩

/-- Two occurrences of the separator that start at different places do not overlap. -/
private theorem infix_of_shifted {c : α} {rest w b b' : List α} (hc : c ∉ rest) (hw : w ≠ [])
    (he : (c :: rest) ++ b' = w ++ ((c :: rest) ++ b)) :
    ∃ w', w = (c :: rest) ++ w' ∧ b' = w' ++ ((c :: rest) ++ b) := by
  rcases List.append_eq_append_iff.mp he with ⟨w', hw', hb'⟩ | ⟨z, hz, hb⟩
  · exact ⟨w', hw', hb'⟩
  · -- The second occurrence would start strictly inside the first.
    cases z with
    | nil => exact ⟨[], by simpa using hz.symm, by simpa using hb.symm⟩
    | cons x zs =>
      have hx : x = c := by
        have := congrArg List.head? hb
        simpa using this.symm
      cases w with
      | nil => exact absurd rfl hw
      | cons y ys =>
        have htail : rest = ys ++ x :: zs := (List.cons.inj hz).2
        exact absurd (by rw [htail, hx]; simp) hc

/-- A separator that cannot overlap itself has one place in a text exactly when neither
part around it contains it. -/
theorem cut_unique_iff {c : α} {rest : List α} (hc : c ∉ rest) (a b : List α) :
    (∀ a' b', a' ++ ((c :: rest) ++ b') = a ++ ((c :: rest) ++ b) → a' = a) ↔
      ¬ (c :: rest) <:+: a ∧ ¬ (c :: rest) <:+: b := by
  constructor
  · intro h
    constructor
    · rintro ⟨p, q, rfl⟩
      have hp := h p (q ++ ((c :: rest) ++ b)) (by simp)
      have hlen := congrArg List.length hp
      simp only [List.length_append, List.length_cons] at hlen
      omega
    · rintro ⟨p, q, rfl⟩
      have hp := h (a ++ ((c :: rest) ++ p)) q (by simp)
      have hlen := congrArg List.length hp
      simp only [List.length_append, List.length_cons] at hlen
      omega
  · rintro ⟨ha, hb⟩ a' b' he
    rcases List.append_eq_append_iff.mp he with ⟨w, rfl, hw⟩ | ⟨w, rfl, hw⟩
    · by_cases hnil : w = []
      · simp [hnil]
      · obtain ⟨w', rfl, -⟩ := infix_of_shifted hc hnil hw
        exact absurd ⟨a', w', by simp⟩ ha
    · by_cases hnil : w = []
      · simp [hnil]
      · obtain ⟨w', -, rfl⟩ := infix_of_shifted hc hnil hw
        exact absurd ⟨w', b', by simp⟩ hb

/-- A text can be cut at two separators exactly when it has two. -/
theorem exists_two_cuts_iff [DecidableEq α] {sep : α} {l : List α} :
    (∃ a b c, l = a ++ sep :: (b ++ sep :: c)) ↔ 2 ≤ l.count sep := by
  constructor
  · rintro ⟨a, b, c, rfl⟩
    simp only [List.count_append, List.count_cons_self]
    omega
  · intro h
    have hpos : 0 < l.count sep := by omega
    obtain ⟨a, rest, rfl⟩ := List.append_of_mem (List.count_pos_iff.mp hpos)
    simp only [List.count_append, List.count_cons_self] at h
    by_cases hrest : sep ∈ rest
    · obtain ⟨b, c, rfl⟩ := List.append_of_mem hrest
      exact ⟨a, b, c, rfl⟩
    · have hzero := List.count_eq_zero.mpr hrest
      have ha : 0 < a.count sep := by omega
      obtain ⟨b, c, rfl⟩ := List.append_of_mem (List.count_pos_iff.mp ha)
      exact ⟨b, c, rest, by simp⟩

/-- A text of parts, each closed by the separator, is cut into the pieces of the parts and the
empty piece after the last separator. -/
theorem splitOn_closed [BEq α] [ReflBEq α] (sep : α) (xs : List (List α)) :
    (xs.flatMap (· ++ [sep])).splitOn sep = xs.flatMap (·.splitOn sep) ++ [[]] := by
  induction xs with
  | nil => rfl
  | cons x rest ih =>
    rw [List.flatMap_cons, List.append_assoc, List.singleton_append, List.splitOn_append_cons_self,
      ih, List.flatMap_cons, List.append_assoc]

/-! ### Sorted joins -/

/-- The texts joined in ascending order. -/
def sortedJoin (xs : List String) : String := ",".intercalate (Text.sortStrings xs)

/-- The text is not empty and no cut at a comma leaves two parts in ascending order. -/
def Unjoined (x : String) : Prop := x ≠ "" ∧ ∀ a b, x = a ++ "," ++ b → ¬ a ≤ b

@[simp] theorem sortedJoin_nil : sortedJoin [] = "" := rfl

@[simp] theorem sortedJoin_singleton (x : String) : sortedJoin [x] = x := by
  simp [sortedJoin, Text.sortStrings]

/-- Two texts in ascending order are joined as they stand. -/
theorem sortedJoin_pair {a b : String} (h : a ≤ b) : sortedJoin [a, b] = a ++ "," ++ b := by
  simp [sortedJoin, Text.sortStrings, h, String.intercalate_cons_cons]

private theorem le_append (a b : String) : a ≤ a ++ b := by
  rw [String.le_iff_toList_le, String.toList_append]
  have h : ¬ a.toList ++ b.toList < a.toList := List.not_lt.mpr List.le_append_left
  exact not_lt.mp h

private theorem le_intercalate (x : String) (rest : List String) :
    x ≤ ",".intercalate (x :: rest) := by
  cases rest with
  | nil => simp
  | cons y ys =>
    rw [String.intercalate_cons_cons, String.append_assoc]
    exact le_append _ _

/-- A list is determined, up to order, by its sorted join exactly when it is a single text
that is not a join. -/
theorem sortedJoin_determines_iff (xs : List String) :
    (∀ ys, sortedJoin ys = sortedJoin xs → xs.Perm ys) ↔ ∃ x, xs = [x] ∧ Unjoined x := by
  constructor
  · intro h
    match xs with
    | [] =>
      have hp := (h [""] (by simp)).length_eq
      simp at hp
    | [x] =>
      refine ⟨x, rfl, ?_, ?_⟩
      · rintro rfl
        have hp := (h [] (by simp)).length_eq
        simp at hp
      · rintro a b rfl hab
        have hp := (h [a, b] (by rw [sortedJoin_pair hab, sortedJoin_singleton])).length_eq
        simp at hp
    | x :: y :: rest =>
      have hp := (h [sortedJoin (x :: y :: rest)] (by simp)).length_eq
      simp at hp
  · rintro ⟨x, rfl, hne, hcut⟩ ys hys
    rw [sortedJoin_singleton] at hys
    have hperm : (Text.sortStrings ys).Perm ys := List.perm_insertionSort _ _
    have hsorted : (Text.sortStrings ys).Pairwise (· ≤ ·) := List.pairwise_insertionSort _ _
    unfold sortedJoin at hys
    generalize Text.sortStrings ys = zs at hys hperm hsorted
    match zs with
    | [] => exact absurd hys.symm hne
    | [z] =>
      rw [String.intercalate_singleton] at hys
      rw [← hys]
      exact hperm
    | z :: z' :: rest =>
      rw [String.intercalate_cons_cons] at hys
      have hle : z ≤ z' := (List.pairwise_cons.mp hsorted).1 z' (by simp)
      exact absurd (hle.trans (le_intercalate z' rest)) (hcut _ _ hys.symm)

end Lib.Delimited
