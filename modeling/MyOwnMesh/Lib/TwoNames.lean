import Mathlib.Data.List.AList
import Mathlib.Data.List.Dedup

/-!
# Maps with two names for an entry

A finite map in which an entry goes under a first name, over whatever is there, and
under a second one only where that is free. Taking an entry out takes out every name
that leads to it. An entry that finds both its names free adds them and changes no
other name.
-/

namespace Lib.TwoNames

universe u v

variable {κ : Type u} {ι : Type v} [DecidableEq κ]

/-- Put an entry under its two names. -/
def enter (map : AList fun _ : κ ↦ ι) (first second : κ) (i : ι) : AList fun _ : κ ↦ ι :=
  let entered := map.insert first i
  if (entered.lookup second).isSome then entered else entered.insert second i

theorem lookup_insert_eq (map : AList fun _ : κ ↦ ι) (first : κ) (i : ι) (name : κ) :
    (map.insert first i).lookup name = if name = first then some i else map.lookup name := by
  split
  · next heq => rw [heq, AList.lookup_insert]
  · next hne => exact AList.lookup_insert_ne hne

theorem lookup_erase_eq (map : AList fun _ : κ ↦ ι) (gone name : κ) :
    (map.erase gone).lookup name = if name = gone then none else map.lookup name := by
  split
  · next heq => rw [heq, AList.lookup_erase]
  · next hne => exact AList.lookup_erase_ne hne

/-- Where a name leads afterwards: to the entry, if it is one of its names, or where it led. -/
theorem lookup_enter {map : AList fun _ : κ ↦ ι} {first second name : κ} {i j : ι}
    (h : (enter map first second i).lookup name = some j) :
    ((name = first ∨ name = second) ∧ j = i) ∨ map.lookup name = some j := by
  have hinsert : (map.insert first i).lookup name = some j →
      ((name = first ∨ name = second) ∧ j = i) ∨ map.lookup name = some j := by
    rw [lookup_insert_eq]
    split
    · next heq =>
      intro hi
      exact .inl ⟨.inl heq, (Option.some.inj hi).symm⟩
    · exact .inr
  simp only [enter] at h
  split at h
  · exact hinsert h
  · rw [lookup_insert_eq] at h
    split at h
    · next heq => exact .inl ⟨.inr heq, (Option.some.inj h).symm⟩
    · exact hinsert h

/-- The first name leads to the entry. -/
theorem lookup_enter_first (map : AList fun _ : κ ↦ ι) (first second : κ) (i : ι) :
    (enter map first second i).lookup first = some i := by
  simp only [enter]
  split
  · exact AList.lookup_insert _
  · next hfree =>
    rw [lookup_insert_eq]
    split
    · rfl
    · exact AList.lookup_insert _

/-- Any other name that leads somewhere still leads there. -/
theorem lookup_enter_of_ne {map : AList fun _ : κ ↦ ι} {first second name : κ} {i j : ι}
    (h : map.lookup name = some j) (hne : name ≠ first) :
    (enter map first second i).lookup name = some j := by
  have hinsert : (map.insert first i).lookup name = some j := by
    rw [AList.lookup_insert_ne hne, h]
  simp only [enter]
  split
  · exact hinsert
  · next hfree =>
    rw [AList.lookup_insert_ne]
    · exact hinsert
    · rintro rfl
      exact hfree (by rw [hinsert]; rfl)

/-- Where the second name is free, both names are added. -/
theorem lookup_enter_of_free {map : AList fun _ : κ ↦ ι} {first second : κ} {i : ι}
    (hfree : map.lookup second = none) (name : κ) :
    (enter map first second i).lookup name =
      if name = first ∨ name = second then some i else map.lookup name := by
  simp only [enter, lookup_insert_eq, hfree]
  by_cases hsame : second = first
  · simp only [hsame, if_true, Option.isSome_some, lookup_insert_eq, or_self]
  · simp only [hsame, if_false, Option.isSome_none, Bool.false_eq_true, lookup_insert_eq]
    by_cases hsecond : name = second
    · rw [if_pos hsecond, if_pos (.inr hsecond)]
    · simp only [hsecond, if_false, or_false]

theorem lookup_foldl_erase (names : List κ) (map : AList fun _ : κ ↦ ι) (name : κ) :
    (names.foldl (fun map name ↦ map.erase name) map).lookup name =
      if name ∈ names then none else map.lookup name := by
  induction names generalizing map with
  | nil => simp
  | cons k rest ih =>
    rw [List.foldl_cons, ih]
    by_cases hrest : name ∈ rest
    · simp [hrest]
    · by_cases hk : name = k
      · subst hk
        simp [AList.lookup_erase]
      · simp [hrest, hk, AList.lookup_erase_ne hk]

variable [DecidableEq ι]

/-- The names that lead to an entry. -/
def names (map : AList fun _ : κ ↦ ι) (i : ι) : List κ := (map.entries.filter (·.2 = i)).map (·.1)

theorem mem_names {map : AList fun _ : κ ↦ ι} {i : ι} {name : κ} :
    name ∈ names map i ↔ map.lookup name = some i := by
  simp only [names, List.mem_map, List.mem_filter, decide_eq_true_eq]
  constructor
  · rintro ⟨⟨name', i'⟩, ⟨hmem, rfl⟩, rfl⟩
    exact AList.mem_lookup_iff.mpr hmem
  · intro hname
    exact ⟨⟨name, i⟩, ⟨AList.mem_lookup_iff.mp hname, rfl⟩, rfl⟩

/-- Take an entry out under all its names. -/
def forget (map : AList fun _ : κ ↦ ι) (i : ι) : AList fun _ : κ ↦ ι :=
  (names map i).foldl (fun map name ↦ map.erase name) map

theorem lookup_forget (map : AList fun _ : κ ↦ ι) (i : ι) (name : κ) :
    (forget map i).lookup name = if map.lookup name = some i then none else map.lookup name := by
  rw [forget, lookup_foldl_erase]
  simp only [mem_names]

/-- What a name leads to afterwards, it led to before, and it is not the entry. -/
theorem lookup_forget_eq_some {map : AList fun _ : κ ↦ ι} {i j : ι} {name : κ} :
    (forget map i).lookup name = some j ↔ map.lookup name = some j ∧ j ≠ i := by
  rw [lookup_forget]
  split
  · next heq =>
    rw [heq]
    constructor
    · intro h
      cases h
    · rintro ⟨h, hne⟩
      exact absurd (Option.some.inj h).symm hne
  · next hne =>
    constructor
    · intro h
      refine ⟨h, ?_⟩
      rintro rfl
      exact hne h
    · exact And.left

/-- The entries, each once. -/
def values (map : AList fun _ : κ ↦ ι) : List ι := (map.entries.map (·.2)).dedup

omit [DecidableEq κ] in
theorem nodup_values (map : AList fun _ : κ ↦ ι) : (values map).Nodup := List.nodup_dedup _

theorem mem_values {map : AList fun _ : κ ↦ ι} {i : ι} :
    i ∈ values map ↔ ∃ name, map.lookup name = some i := by
  rw [values, List.mem_dedup, List.mem_map]
  constructor
  · rintro ⟨⟨name, i'⟩, hmem, rfl⟩
    exact ⟨name, AList.mem_lookup_iff.mpr hmem⟩
  · rintro ⟨name, hname⟩
    exact ⟨⟨name, i⟩, AList.mem_lookup_iff.mp hname, rfl⟩

end Lib.TwoNames
