import Mathlib.Data.List.Basic
import Mathlib.Data.List.Infix

/-!
# Searching a text line by line

The first occurrence of a pattern in a text. A pattern that does not contain the separator of lines
cannot reach from one line into the next: a text that is made of whole lines is searched piece by
piece.
-/

namespace Lib.Search

universe u

variable {α : Type u} {sep : α} {pat s t : List α}

/-! ### Whole lines -/

/-- A text that is made of whole lines. -/
def Whole (sep : α) (t : List α) : Prop := t = [] ∨ ∃ body, t = body ++ [sep]

theorem whole_nil : Whole sep ([] : List α) := .inl rfl

theorem whole_snoc (body : List α) : Whole sep (body ++ [sep]) := .inr ⟨body, rfl⟩

theorem Whole.append (hs : Whole sep s) (ht : Whole sep t) : Whole sep (s ++ t) := by
  rcases ht with rfl | ⟨body, rfl⟩
  · rwa [List.append_nil]
  · rw [← List.append_assoc]
    exact whole_snoc (s ++ body)

theorem Whole.append_of_ne_nil (ht : Whole sep t) (h : t ≠ []) : Whole sep (s ++ t) := by
  obtain ⟨body, rfl⟩ := ht.resolve_left h
  rw [← List.append_assoc]
  exact whole_snoc (s ++ body)

theorem Whole.of_cons {c : α} (h : Whole sep (c :: t)) : Whole sep t := by
  rcases h with h | ⟨body, h⟩
  · cases h
  · cases body with
    | nil => exact .inl (List.cons.inj h).2
    | cons b body => exact .inr ⟨body, (List.cons.inj h).2⟩

theorem Whole.flatMap {β : Type*} {f : β → List α} {l : List β} (h : ∀ b ∈ l, Whole sep (f b)) :
    Whole sep (l.flatMap f) := by
  induction l with
  | nil => exact whole_nil
  | cons b l ih =>
    rw [List.flatMap_cons]
    exact (h b List.mem_cons_self).append (ih fun b' hb' ↦ h b' (List.mem_cons_of_mem b hb'))

theorem not_infix_append_of_head {c : α} {tail : List α} (hpat : pat = c :: tail) (hs : c ∉ s)
    (hfree : ¬pat <:+: t) : ¬pat <:+: s ++ t := by
  induction s with
  | nil => exact hfree
  | cons b s ih =>
    rw [List.mem_cons, not_or] at hs
    rw [List.cons_append, List.infix_cons_iff, not_or]
    refine ⟨fun h ↦ hs.1 ?_, ih hs.2⟩
    rw [hpat, List.cons_prefix_cons] at h
    exact h.1

theorem not_infix_append_of_last {c : α} {body : List α} (hpat : pat = body ++ [c]) (ht : c ∉ t)
    (hfree : ¬pat <:+: s) : ¬pat <:+: s ++ t := by
  have hreverse : ¬pat.reverse <:+: t.reverse ++ s.reverse :=
    not_infix_append_of_head (by rw [hpat, List.reverse_append]; rfl)
      (fun h ↦ ht (List.mem_reverse.mp h)) (fun h ↦ hfree (List.reverse_infix.mp h))
  rw [← List.reverse_append, List.reverse_infix] at hreverse
  exact hreverse

theorem infix_intercalate {l : List α} {ls : List (List α)} (h : l ∈ ls) :
    l <:+: [sep].intercalate ls := by
  induction ls with
  | nil => cases h
  | cons l' ls ih =>
    cases ls with
    | nil =>
      rw [List.mem_singleton.mp h, List.intercalate_singleton]
    | cons l'' ls =>
      rw [List.intercalate_cons_cons]
      rcases List.mem_cons.mp h with rfl | hmem
      · rw [List.append_assoc]
        exact (List.prefix_append l _).isInfix
      · exact (ih hmem).trans (List.suffix_append _ _).isInfix

variable [DecidableEq α]

/-! ### The first occurrence -/

/-- The text before the first occurrence of a pattern, and the text from it on. -/
def find (pat : List α) : List α → Option (List α × List α)
  | [] => if pat.isPrefixOf [] then some ([], []) else none
  | c :: rest =>
    if pat.isPrefixOf (c :: rest) then some ([], c :: rest)
    else (find pat rest).map fun p ↦ (c :: p.1, p.2)

theorem find_of_start (h : pat <+: t) : find pat t = some ([], t) := by
  cases t with
  | nil => exact if_pos (List.isPrefixOf_iff_prefix.mpr h)
  | cons c rest => exact if_pos (List.isPrefixOf_iff_prefix.mpr h)

theorem find_cons_of_not_start {c : α} {rest : List α} (h : ¬pat <+: c :: rest) :
    find pat (c :: rest) = (find pat rest).map fun p ↦ (c :: p.1, p.2) :=
  if_neg fun hstarts ↦ h (List.isPrefixOf_iff_prefix.mp hstarts)

theorem find_eq_none_iff : find pat t = none ↔ ¬pat <:+: t := by
  induction t with
  | nil =>
    rw [find, List.infix_nil]
    cases pat <;> simp
  | cons c rest ih =>
    by_cases hstarts : pat <+: c :: rest
    · simp [find_of_start hstarts, hstarts.isInfix]
    · rw [find_cons_of_not_start hstarts, Option.map_eq_none_iff, ih, List.infix_cons_iff,
        not_or, and_iff_right hstarts]

/-- Whole lines without a pattern are passed by the search. -/
theorem find_append (hsep : sep ∉ pat) (hs : Whole sep s) (hfree : ¬pat <:+: s) (t : List α) :
    find pat (s ++ t) = (find pat t).map fun p ↦ (s ++ p.1, p.2) := by
  induction s with
  | nil => simp
  | cons c rest ih =>
    rw [List.infix_cons_iff, not_or] at hfree
    have hstarts : ¬pat <+: c :: (rest ++ t) := by
      intro hpat
      rcases List.prefix_or_prefix_of_prefix hpat (List.prefix_append (c :: rest) t) with h | h
      · exact hfree.1 h
      · -- otherwise the pattern goes on behind the separator that ends the lines
        rcases hs with hnil | ⟨body, hbody⟩
        · cases hnil
        · exact hsep (h.subset (hbody ▸ List.mem_append_right body (List.mem_singleton_self sep)))
    rw [List.cons_append, find_cons_of_not_start hstarts, ih hs.of_cons hfree.2, Option.map_map]
    rfl

/-- A pattern that neither whole lines nor what follows them has is not made by joining them. -/
theorem not_infix_append (hsep : sep ∉ pat) (hs : Whole sep s) (hfree : ¬pat <:+: s)
    (hfree' : ¬pat <:+: t) : ¬pat <:+: s ++ t := by
  rw [← find_eq_none_iff, find_append hsep hs hfree, find_eq_none_iff.mpr hfree', Option.map_none]

/-! ### Lines -/

/-- The lines of a text that is made of whole lines. -/
def wholeLines (sep : α) (t : List α) : List (List α) := (t.splitOn sep).dropLast

theorem splitOn_append (hs : Whole sep s) (t : List α) :
    (s ++ t).splitOn sep = wholeLines sep s ++ t.splitOn sep := by
  rcases hs with rfl | ⟨body, rfl⟩
  · rfl
  · rw [wholeLines, List.splitOn_append_cons_self, List.splitOn_nil, List.dropLast_concat,
      List.append_assoc, List.singleton_append, List.splitOn_append_cons_self]

theorem wholeLines_append (hs : Whole sep s) (t : List α) :
    wholeLines sep (s ++ t) = wholeLines sep s ++ wholeLines sep t := by
  rw [wholeLines, splitOn_append hs, List.dropLast_append_of_ne_nil (List.splitOn_ne_nil sep t)]
  rfl

/-- The text of whole lines ends with an empty line. -/
theorem splitOn_of_whole (hs : Whole sep s) : s.splitOn sep = wholeLines sep s ++ [[]] := by
  have h := splitOn_append hs []
  rwa [List.append_nil, List.splitOn_nil] at h

theorem wholeLines_snoc {l : List α} (h : sep ∉ l) : wholeLines sep (l ++ [sep]) = [l] := by
  rw [wholeLines, List.splitOn_append_cons_self_of_not_mem h, List.splitOn_nil]
  rfl

theorem wholeLines_flatMap {β : Type*} {f : β → List α} {l : List β}
    (h : ∀ b ∈ l, Whole sep (f b)) :
    wholeLines sep (l.flatMap f) = l.flatMap fun b ↦ wholeLines sep (f b) := by
  induction l with
  | nil => rfl
  | cons b l ih =>
    rw [List.flatMap_cons, List.flatMap_cons, wholeLines_append (h b List.mem_cons_self),
      ih fun b' hb' ↦ h b' (List.mem_cons_of_mem b hb')]

/-- A line is a part of the text. -/
theorem infix_of_mem_splitOn {l : List α} (h : l ∈ t.splitOn sep) : l <:+: t := by
  have hwithin : l <:+: [sep].intercalate (t.splitOn sep) := infix_intercalate h
  rwa [List.intercalate_splitOn] at hwithin

theorem infix_of_mem_wholeLines {l : List α} (h : l ∈ wholeLines sep t) : l <:+: t :=
  infix_of_mem_splitOn (List.dropLast_subset _ h)

/-- A line has no separator. -/
theorem notMem_of_mem_splitOn {l : List α} (h : l ∈ t.splitOn sep) : sep ∉ l := by
  induction t generalizing l with
  | nil =>
    rw [List.splitOn_nil, List.mem_singleton] at h
    rw [h]
    exact List.not_mem_nil
  | cons c t ih =>
    rw [List.splitOn_cons_eq_if_modifyHead] at h
    split at h
    · rcases List.mem_cons.mp h with rfl | hmem
      · exact List.not_mem_nil
      · exact ih hmem
    · next hc =>
      cases hlines : t.splitOn sep with
      | nil => exact absurd hlines (List.splitOn_ne_nil sep t)
      | cons l' ls =>
        rw [hlines] at h ih
        rcases List.mem_cons.mp h with rfl | hmem
        · rw [List.mem_cons, not_or]
          exact ⟨fun heq ↦ hc (beq_iff_eq.mpr heq.symm), ih List.mem_cons_self⟩
        · exact ih (List.mem_cons_of_mem l' hmem)

end Lib.Search
