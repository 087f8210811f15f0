import Mathlib.Data.Finset.Card
import Mathlib.Data.Finset.Dedup
import Mathlib.Data.List.Basic
import Mathlib.Data.List.Induction

/-!
# The first of each key

From a list the first element of each key is kept. The keys of what is kept are those of the list,
each once; where an element is kept, it comes after the keys that are met before it.
-/

namespace Lib.Firsts

universe u v

variable {α : Type u} {κ : Type v} [DecidableEq κ] (key : α → κ)

/-- An element is kept unless its key has been met. -/
def firstsStep (kept : List α) (a : α) : List α :=
  if kept.any (key · == key a) then kept else kept ++ [a]

/-- The first element of each key. -/
def firsts (l : List α) : List α := l.foldl (firstsStep key) []

theorem firsts_snoc (l : List α) (a : α) :
    firsts key (l ++ [a]) = firstsStep key (firsts key l) a := by
  rw [firsts, List.foldl_append]
  rfl

theorem any_key_iff {kept : List α} {a : α} :
    (kept.any (key · == key a)) = true ↔ key a ∈ kept.map key := by
  simp [List.any_eq_true]

theorem mem_keys_firsts (l : List α) (k : κ) : k ∈ (firsts key l).map key ↔ k ∈ l.map key := by
  induction l using List.reverseRecOn with
  | nil => exact Iff.rfl
  | append_singleton l a ih =>
    rw [firsts_snoc, firstsStep, List.map_append, List.mem_append, ← ih]
    split
    · next hmet =>
      refine ⟨.inl, fun h ↦ h.elim id fun h ↦ ?_⟩
      rw [List.mem_singleton.mp h]
      exact (any_key_iff key).mp hmet
    · rw [List.map_append, List.mem_append]

theorem nodup_keys_firsts (l : List α) : ((firsts key l).map key).Nodup := by
  induction l using List.reverseRecOn with
  | nil => exact List.nodup_nil
  | append_singleton l a ih =>
    rw [firsts_snoc, firstsStep]
    split
    · exact ih
    · next hnew =>
      rw [List.map_append, List.map_singleton, List.nodup_append]
      refine ⟨ih, List.nodup_singleton _, ?_⟩
      intro k hk k' hk' heq
      rw [List.mem_singleton.mp hk'] at heq
      exact hnew ((any_key_iff key).mpr (heq ▸ hk))

/-- As many are kept as there are keys. -/
theorem length_firsts (l : List α) : (firsts key l).length = (l.map key).toFinset.card := by
  have hkeys : ((firsts key l).map key).toFinset = (l.map key).toFinset := by
    ext k
    rw [List.mem_toFinset, List.mem_toFinset, mem_keys_firsts]
  rw [← hkeys, List.toFinset_card_of_nodup (nodup_keys_firsts key l), List.length_map]

/-- What is kept of a list stays first when it goes on. -/
theorem exists_firsts_append (l m : List α) :
    ∃ rest, firsts key (l ++ m) = firsts key l ++ rest ∧ rest.length ≤ m.length := by
  induction m using List.reverseRecOn with
  | nil => exact ⟨[], by simp, Nat.le_refl 0⟩
  | append_singleton m a ih =>
    obtain ⟨rest, hrest, hlen⟩ := ih
    rw [← List.append_assoc, firsts_snoc, hrest, firstsStep, List.length_append]
    split
    · exact ⟨rest, rfl, Nat.le_trans hlen (Nat.le_add_right _ _)⟩
    · exact ⟨rest ++ [a], List.append_assoc _ _ _, by simpa using hlen⟩

/-- An element whose key is met with it stands behind the keys that are met before. -/
theorem firsts_split {pre post : List α} {a : α} (h : key a ∉ pre.map key) :
    ∃ rest, firsts key (pre ++ a :: post) = firsts key pre ++ a :: rest ∧
      rest.length ≤ post.length := by
  obtain ⟨rest, hrest, hlen⟩ := exists_firsts_append key (pre ++ [a]) post
  refine ⟨rest, ?_, hlen⟩
  have hnew : ¬(firsts key pre).any (key · == key a) = true :=
    fun hmet ↦ h ((mem_keys_firsts key pre _).mp ((any_key_iff key).mp hmet))
  rw [firsts_snoc, firstsStep, if_neg hnew] at hrest
  simpa using hrest

/-- What is kept is the first with its key. -/
theorem exists_split_of_mem {l : List α} {a : α} (h : a ∈ firsts key l) :
    ∃ pre post, l = pre ++ a :: post ∧ key a ∉ pre.map key := by
  induction l using List.reverseRecOn with
  | nil => exact absurd h List.not_mem_nil
  | append_singleton l b ih =>
    have hold : a ∈ firsts key l → ∃ pre post, l ++ [b] = pre ++ a :: post ∧
        key a ∉ pre.map key := by
      intro ha
      obtain ⟨pre, post, rfl, hkey⟩ := ih ha
      exact ⟨pre, post ++ [b], by simp, hkey⟩
    rw [firsts_snoc, firstsStep] at h
    split at h
    · exact hold h
    · next hnew =>
      rcases List.mem_append.mp h with h | h
      · exact hold h
      · obtain rfl := List.mem_singleton.mp h
        refine ⟨l, [], rfl, fun hkey ↦ hnew ?_⟩
        exact (any_key_iff key).mpr ((mem_keys_firsts key l _).mpr hkey)

/-- An element that is kept is past the first `k` exactly when as many keys are met before it. -/
theorem mem_drop_firsts_split {pre post : List α} {a : α} (h : key a ∉ pre.map key) (k : Nat) :
    a ∈ (firsts key (pre ++ a :: post)).drop k ↔ k ≤ (firsts key pre).length := by
  obtain ⟨rest, hsplit, -⟩ := @firsts_split _ _ _ key pre post a h
  have hnodup := nodup_keys_firsts key (pre ++ a :: post)
  rw [hsplit] at hnodup ⊢
  rw [List.map_append, List.nodup_append, List.map_cons, List.nodup_cons] at hnodup
  obtain ⟨-, ⟨hrest, -⟩, -⟩ := hnodup
  constructor
  · intro hmem
    by_contra hlt
    obtain ⟨j, rfl⟩ := Nat.exists_eq_add_of_lt (Nat.lt_of_not_le hlt)
    rw [List.drop_append, List.drop_of_length_le (by omega), List.nil_append,
      Nat.add_assoc, Nat.add_sub_cancel_left, List.drop_succ_cons] at hmem
    exact hrest (List.mem_map_of_mem (List.mem_of_mem_drop hmem))
  · intro hle
    rw [List.drop_append_of_le_length hle]
    exact List.mem_append_right _ List.mem_cons_self

/-- An element is among the last `n` that are kept exactly when it is the first with its key and no
more than `n` keys are met from it on. -/
theorem mem_drop_firsts_iff {l : List α} {a : α} {n : Nat} :
    a ∈ (firsts key l).drop ((firsts key l).length - n) ↔
      ∃ pre post, l = pre ++ a :: post ∧ key a ∉ pre.map key ∧
        (l.map key).toFinset.card ≤ n + (pre.map key).toFinset.card := by
  constructor
  · intro hmem
    obtain ⟨pre, post, hl, hkey⟩ := exists_split_of_mem key (List.mem_of_mem_drop hmem)
    subst hl
    rw [mem_drop_firsts_split key hkey, length_firsts, length_firsts] at hmem
    exact ⟨pre, post, rfl, hkey, Nat.sub_le_iff_le_add'.mp hmem⟩
  · rintro ⟨pre, post, rfl, hkey, hcard⟩
    rw [mem_drop_firsts_split key hkey, length_firsts, length_firsts]
    exact Nat.sub_le_iff_le_add'.mpr hcard

end Lib.Firsts
