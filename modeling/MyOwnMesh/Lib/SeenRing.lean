import Mathlib.Data.List.DropRight
import Mathlib.Data.List.Infix
import Mathlib.Data.List.Nodup

/-!
# A bounded memory of what passed

A filter lets a key pass unless it remembers it, and it remembers the keys that passed, the last
`cap` of them. Memory and log are tied by `Ring`: the memory is the end of the log, and among any
`cap + 1` neighbours of the log no key stands twice.
-/

namespace Lib.SeenRing

universe u

variable {κ : Type u} {cap : ℕ} {log seen : List κ} {k : κ}

/-- Remember a key, and forget the oldest one when the memory is full. -/
def remember (cap : ℕ) (seen : List κ) (k : κ) : List κ :=
  (if cap ≤ seen.length then seen.drop 1 else seen) ++ [k]

/-- The memory of a log of keys that passed. -/
structure Ring (cap : ℕ) (log seen : List κ) : Prop where
  last : seen = log.rtake cap
  apart : ∀ w, w <:+: log → w.length ≤ cap + 1 → w.Nodup

private theorem length_rtake (log : List κ) (n : ℕ) :
    (log.rtake n).length = min n log.length := by
  rw [List.rtake, List.length_drop]
  omega

/-- Remembering keeps the last `cap` entries of the log. -/
theorem remember_rtake (hcap : 0 < cap) (log : List κ) (k : κ) :
    remember cap (log.rtake cap) k = (log ++ [k]).rtake cap := by
  have hsuffix : (log ++ [k]).rtake cap = log.drop (log.length + 1 - cap) ++ [k] := by
    rw [List.rtake, List.length_append, List.length_singleton, List.drop_append_of_le_length]
    omega
  rw [hsuffix, remember, length_rtake]
  by_cases hfull : cap ≤ log.length
  · rw [if_pos (by omega), List.rtake, List.drop_drop]
    congr 2
    omega
  · rw [if_neg (by omega), List.rtake]
    congr 2
    omega

namespace Ring

theorem nil : Ring cap ([] : List κ) [] where
  last := by simp [List.rtake]
  apart := by
    intro w hw _
    rw [List.infix_nil.mp hw]
    exact List.nodup_nil

/-- What is remembered did pass. -/
theorem mem_log (h : Ring cap log seen) (hk : k ∈ seen) : k ∈ log := by
  rw [h.last] at hk
  exact List.mem_of_mem_drop hk

/-- A log that is not longer than the memory and one holds no key twice. -/
theorem nodup_log (h : Ring cap log seen) (hlog : log.length ≤ cap + 1) : log.Nodup :=
  h.apart log List.infix_rfl hlog

/-- A key that passes is new among the last `cap`, and it is remembered. -/
theorem pass (hcap : 0 < cap) (h : Ring cap log seen) (hk : k ∉ seen) :
    Ring cap (log ++ [k]) (remember cap seen k) where
  last := by rw [h.last, remember_rtake hcap]
  apart := by
    intro w hw hlength
    rcases List.infix_concat_iff.mp hw with hend | hinside
    · rcases List.suffix_concat_iff.mp hend with rfl | ⟨t, rfl, ht⟩
      · exact List.nodup_nil
      -- the entries before `k` are among the last `cap` of the log, which are the memory
      · rw [List.length_append, List.length_singleton] at hlength
        have hmem : t <:+ log.rtake cap := by
          refine List.suffix_of_suffix_length_le ht (List.drop_suffix _ _) ?_
          rw [length_rtake]
          exact le_min (by omega) ht.length_le
        have hnew : k ∉ t := by
          intro hkt
          refine hk ?_
          rw [h.last]
          exact hmem.subset hkt
        have ht' : t.Nodup := h.apart t ht.isInfix (by omega)
        rw [List.nodup_append]
        refine ⟨ht', List.nodup_singleton k, ?_⟩
        intro a ha b hb hab
        rw [List.mem_singleton.mp hb] at hab
        exact hnew (hab ▸ ha)
    · exact h.apart w hinside hlength

end Ring

end Lib.SeenRing
