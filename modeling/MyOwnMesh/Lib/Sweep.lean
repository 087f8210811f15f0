import Mathlib.Data.List.AList

/-!
# Passes over a finite map

A pass keeps the entries that meet a condition, changes each entry by itself, or lists the keys
whose entries meet a condition.
-/

namespace Lib.Sweep

universe u v

variable {κ : Type u} {ι : Type v} [DecidableEq κ]

/-- The entries whose value meets the condition. -/
def retain (p : ι → Bool) (map : AList fun _ : κ ↦ ι) : AList fun _ : κ ↦ ι :=
  ⟨map.entries.filter fun e ↦ p e.2, map.nodupKeys.sublist List.filter_sublist⟩

/-- Every value changed by a function of it and its key. -/
def update (f : κ → ι → ι) (map : AList fun _ : κ ↦ ι) : AList fun _ : κ ↦ ι :=
  ⟨map.entries.map (.map id f), map.nodupKeys.map₂ f _⟩

/-- The keys whose entry meets the condition. -/
def keysWhere (p : κ → ι → Bool) (map : AList fun _ : κ ↦ ι) : List κ :=
  (map.entries.filter fun e ↦ p e.1 e.2).map (·.1)

variable {map : AList fun _ : κ ↦ ι} {k : κ}

theorem lookup_retain (p : ι → Bool) : (retain p map).lookup k = (map.lookup k).filter p := by
  ext i
  have hmem : i ∈ (retain p map).lookup k ↔
      (⟨k, i⟩ : Sigma fun _ : κ ↦ ι) ∈ map.entries.filter fun e ↦ p e.2 :=
    AList.mem_lookup_iff
  rw [Option.filter_eq_some_iff, ← Option.mem_def, hmem, List.mem_filter]
  exact and_congr_left fun _ ↦ AList.mem_lookup_iff.symm

theorem lookup_update (f : κ → ι → ι) : (update f map).lookup k = (map.lookup k).map (f k) :=
  List.dlookup_map₂ k

theorem mem_keysWhere {p : κ → ι → Bool} :
    k ∈ keysWhere p map ↔ ∃ i, map.lookup k = some i ∧ p k i = true := by
  simp only [keysWhere, List.mem_map, List.mem_filter]
  constructor
  · rintro ⟨⟨k', i⟩, ⟨hmem, hp⟩, rfl⟩
    exact ⟨i, AList.mem_lookup_iff.mpr hmem, hp⟩
  · rintro ⟨i, hlookup, hp⟩
    exact ⟨⟨k, i⟩, ⟨AList.mem_lookup_iff.mp hlookup, hp⟩, rfl⟩

end Lib.Sweep
