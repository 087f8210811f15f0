import MyOwnMesh.Engine.Operations

/-!
# The stamp of a membership entry

`governance.rs:1482–1520`. An entry about a device is stamped one past every member-log entry about
it, in saturating arithmetic, and never before the clock.
-/

namespace MyOwnMesh

/-- The newest member-log stamp about a device, zero when there is none. -/
def newestStamp (memberLog : List Transition) (target : String) : UInt64 :=
  ((memberLog.filter fun t ↦ memberEntryTarget t = some target).map Transition.at_).foldl max 0

variable {memberLog : List Transition} {t : Transition} {target : String}

theorem stampPast_eq (now : UInt64) (memberLog : List Transition) (target : String) :
    stampPast now memberLog target = max now (saturatingSucc (newestStamp memberLog target)) := rfl

theorem toNat_saturatingSucc (a : UInt64) :
    (saturatingSucc a).toNat = min (a.toNat + 1) (2 ^ 64 - 1) := by
  have ha := a.toNat_lt
  unfold saturatingSucc
  split
  · next h =>
    rw [h]
    rfl
  · next h =>
    have hne : a.toNat ≠ u64Max.toNat := fun he ↦ h (UInt64.toNat_inj.mp he)
    have hmax : u64Max.toNat = 2 ^ 64 - 1 := rfl
    have hadd : (a + 1).toNat = (a.toNat + 1) % 2 ^ 64 := UInt64.toNat_add a 1
    omega

theorem toNat_max (a b : UInt64) : (max a b).toNat = max a.toNat b.toNat := by
  rw [show max a b = if a ≤ b then b else a from rfl]
  simp only [UInt64.le_iff_toNat_le]
  split <;> omega

/-- Stamps never fall behind the newest one about the device. -/
theorem le_newestStamp (ht : t ∈ memberLog) (htarget : memberEntryTarget t = some target) :
    t.at_ ≤ newestStamp memberLog target := by
  have hfold : ∀ (l : List UInt64) (b : UInt64),
      b ≤ l.foldl max b ∧ ∀ x ∈ l, x ≤ l.foldl max b := by
    intro l
    induction l with
    | nil => exact fun b ↦ ⟨UInt64.le_refl b, by simp⟩
    | cons a rest ih =>
      intro b
      obtain ⟨hb, hall⟩ := ih (max b a)
      have hmax : b ≤ max b a ∧ a ≤ max b a := by
        simp only [UInt64.le_iff_toNat_le, toNat_max]
        omega
      rw [List.foldl_cons, List.forall_mem_cons]
      exact ⟨UInt64.le_trans hmax.1 hb, UInt64.le_trans hmax.2 hb, hall⟩
  apply (hfold _ 0).2
  rw [List.mem_map]
  exact ⟨t, by simp [ht, htarget], rfl⟩

/-- The stamp is past every entry about the target, or both are the greatest timestamp. -/
theorem stampPast_spec (now : UInt64) (ht : t ∈ memberLog)
    (htarget : memberEntryTarget t = some target) :
    t.at_ ≤ stampPast now memberLog target ∧
      (t.at_ ≠ u64Max → t.at_ < stampPast now memberLog target) := by
  have hle := le_newestStamp ht htarget
  have hlt := t.at_.toNat_lt
  have hmax : u64Max.toNat = 2 ^ 64 - 1 := rfl
  rw [UInt64.le_iff_toNat_le] at hle
  rw [stampPast_eq, UInt64.le_iff_toNat_le, UInt64.lt_iff_toNat_lt, toNat_max, toNat_saturatingSucc,
    Ne, ← UInt64.toNat_inj]
  omega

end MyOwnMesh
