import MyOwnMesh.Lib.Bitmap
import MyOwnMesh.Lib.Replay
import MyOwnMesh.Video.Wire

/-!
# The replay fence

`crates/myownmesh-core/src/transport/rtp_replay.rs:15–58`. Authenticated packets carry sixteen bits
of their index. The window keeps one bit for each of the last `size` indexes, at the index modulo
the size, and clears the bits it moves over. As long as every index is near the highest so far, it
is the set of the accepted indexes above the highest less the size.
-/

namespace MyOwnMesh.Transport

open Lib Lib.Replay
open Video (wireSeq toNat_wireSeq toInt_wireSeq_sub)

/-- The sizes that the constructor accepts; `rtp_replay.rs:23`. -/
structure WindowSize where
  val : Nat
  isPowerOfTwo : val.isPowerOfTwo
  lt : val < 32768

theorem WindowSize.pos (size : WindowSize) : 0 < size.val := by
  obtain ⟨k, hk⟩ := size.isPowerOfTwo
  rw [hk]
  exact Nat.two_pow_pos k

theorem WindowSize.dvd (size : WindowSize) : size.val ∣ 65536 := by
  obtain ⟨k, hk⟩ := size.isPowerOfTwo
  have hlt := size.lt
  rw [hk] at hlt ⊢
  have hk16 : k ≤ 16 := by
    by_contra hgt
    have hle : 2 ^ 16 ≤ 2 ^ k := Nat.pow_le_pow_right (by decide) (by omega)
    omega
  exact Nat.pow_dvd_pow 2 hk16

variable {size : WindowSize}

/-- `rtp_replay.rs:15–19`. -/
structure ReplayWindow (size : WindowSize) where
  latest : Option UInt16
  bits : Bitmap.Bits size.val

/-- `rtp_replay.rs:22–29`. -/
def ReplayWindow.new (size : WindowSize) : ReplayWindow size := ⟨none, Bitmap.clear size.val⟩

/-- The bit of a sequence number. -/
def slot (size : WindowSize) (seq : UInt16) : Fin size.val :=
  ⟨seq.toNat % size.val, Nat.mod_lt _ size.pos⟩

/-- The end of `accept`: an index is accepted once; `rtp_replay.rs:50–57`. -/
def ReplayWindow.mark (w : ReplayWindow size) (seq : UInt16) : ReplayWindow size × Bool :=
  if Bitmap.contains w.bits (slot size seq) then (w, false)
  else ({ w with bits := Bitmap.insert w.bits (slot size seq) }, true)

/-- The bits of the numbers that are moved over are cleared; `rtp_replay.rs:38–41`. -/
def clearSteps (bits : Bitmap.Bits size.val) (latest : UInt16) (delta : Nat) :
    Bitmap.Bits size.val :=
  (List.range' 1 delta).foldl
    (fun bits step ↦ Bitmap.erase bits (slot size (latest + UInt16.ofNat step))) bits

/-- `rtp_replay.rs:31–58`. -/
def ReplayWindow.accept (w : ReplayWindow size) (seq : UInt16) : ReplayWindow size × Bool :=
  match w.latest with
  | some latest =>
    let delta := (seq - latest).toInt16.toInt
    if 0 < delta then
      let bits :=
        if size.val ≤ delta.toNat then Bitmap.clear size.val
        else clearSteps w.bits latest delta.toNat
      ReplayWindow.mark ⟨some seq, bits⟩ seq
    else if size.val ≤ (latest - seq).toNat then (w, false)
    else w.mark seq
  | none => ReplayWindow.mark ⟨some seq, w.bits⟩ seq

/-- The fence after the packets with these indexes, and the indexes it accepted. -/
def receive (size : WindowSize) (indexes : List Int) : ReplayWindow size × List Int :=
  indexes.foldl (fun r i ↦
    let (w, accepted) := r.1.accept (wireSeq i)
    (w, if accepted then r.2 ++ [i] else r.2)) (.new size, [])

/-! ### Slots and distances -/

theorem slot_wireSeq (i : Int) : ((slot size (wireSeq i)).val : Int) = i % size.val := by
  have hdvd : (size.val : Int) ∣ 65536 := by exact_mod_cast size.dvd
  rw [slot, Int.natCast_emod, toNat_wireSeq, Int.emod_emod_of_dvd _ hdvd]

/-- Indexes less than the size apart have different slots. -/
theorem eq_of_slot_eq {i j : Int} (h : slot size (wireSeq i) = slot size (wireSeq j))
    (hlt : i - j < size.val) (hgt : j - i < size.val) : i = j := by
  have hmod : i % size.val = j % size.val := by
    rw [← slot_wireSeq, ← slot_wireSeq, h]
  have hdvd : (size.val : Int) ∣ i - j :=
    Int.dvd_of_emod_eq_zero (Int.emod_eq_emod_iff_emod_sub_eq_zero.mp hmod)
  have hzero : i - j = 0 := Int.eq_zero_of_abs_lt_dvd hdvd (abs_lt.mpr ⟨by omega, hlt⟩)
  omega

theorem wireSeq_add (i : Int) (step : Nat) :
    wireSeq i + UInt16.ofNat step = wireSeq (i + step) := by
  have hi := toNat_wireSeq i
  have hsum := toNat_wireSeq (i + step)
  have hadd : (wireSeq i + UInt16.ofNat step).toNat =
      ((wireSeq i).toNat + step % 65536) % 65536 := by
    rw [UInt16.toNat_add, UInt16.toNat_ofNat']
  apply UInt16.toNat_inj.mp
  omega

theorem toNat_wireSeq_sub {i h : Int} (hle : i ≤ h) (hnear : h - i < 65536) :
    ((wireSeq h - wireSeq i).toNat : Int) = h - i := by
  have hi := toNat_wireSeq i
  have hh := toNat_wireSeq h
  have hsub : (wireSeq h - wireSeq i).toNat =
      (65536 - (wireSeq i).toNat + (wireSeq h).toNat) % 65536 := UInt16.toNat_sub _ _
  omega

theorem contains_clearSteps (bits : Bitmap.Bits size.val) (latest : UInt16) (delta : Nat)
    (k : Fin size.val) :
    Bitmap.contains (clearSteps bits latest delta) k = true ↔ Bitmap.contains bits k = true ∧
      ∀ step, 1 ≤ step → step ≤ delta → k ≠ slot size (latest + UInt16.ofNat step) := by
  induction delta with
  | zero =>
    simp only [clearSteps, List.range'_zero, List.foldl_nil]
    constructor
    · intro h
      exact ⟨h, by omega⟩
    · exact And.left
  | succ delta ih =>
    rw [clearSteps, List.range'_1_concat, List.foldl_append, ← clearSteps, List.foldl_cons,
      List.foldl_nil, Bitmap.contains_erase, Bool.and_eq_true, ih]
    simp only [Bool.not_eq_true', decide_eq_false_iff_not]
    constructor
    · rintro ⟨hlast, hk, hbefore⟩
      refine ⟨hk, fun step hone hstep ↦ ?_⟩
      by_cases hsame : step = 1 + delta
      · rw [hsame]
        exact hlast
      · exact hbefore step hone (by omega)
    · rintro ⟨hk, hall⟩
      exact ⟨hall (1 + delta) (by omega) (by omega), hk,
        fun step hone hstep ↦ hall step hone (by omega)⟩

/-! ### The window is the set -/

/-- The highest index so far is `h`, and in the window below it the bits are those of the accepted
indexes. -/
structure Holds (w : ReplayWindow size) (accepted : List Int) (h : Int) : Prop where
  latest : w.latest = some (wireSeq h)
  highest : ∀ j ∈ accepted, j ≤ h
  window : ∀ j, h - size.val < j → j ≤ h →
    (Bitmap.contains w.bits (slot size (wireSeq j)) = true ↔ j ∈ accepted)

variable {w : ReplayWindow size} {accepted : List Int} {h i : Int}

theorem Holds.mark (hw : Holds w accepted h) (hlow : h - size.val < i) (hhigh : i ≤ h) :
    ((w.mark (wireSeq i)).2 = true ↔ i ∉ accepted) ∧
      Holds (w.mark (wireSeq i)).1
        (if (w.mark (wireSeq i)).2 then accepted ++ [i] else accepted) h := by
  rw [ReplayWindow.mark]
  split
  · next hin =>
    have hmem := (hw.window i hlow hhigh).mp hin
    exact ⟨by simp [hmem], hw⟩
  · next hout =>
    have hmem : i ∉ accepted := fun hi ↦ hout ((hw.window i hlow hhigh).mpr hi)
    refine ⟨by simp [hmem], hw.latest, ?_, ?_⟩
    · intro j hj
      simp only [if_true, List.mem_append, List.mem_singleton] at hj
      rcases hj with hj | rfl
      · exact hw.highest j hj
      · exact hhigh
    · intro j hj hjh
      simp only [if_true, Bitmap.contains_insert, Bool.or_eq_true, decide_eq_true_eq,
        List.mem_append, List.mem_singleton, hw.window j hj hjh]
      constructor
      · rintro (heq | hj)
        · exact .inr (eq_of_slot_eq heq (by omega) (by omega))
        · exact .inl hj
      · rintro (hj | rfl)
        · exact .inr hj
        · exact .inl rfl

/-- The window moves on to a higher index. -/
theorem Holds.move (hw : Holds w accepted h) (hlt : h < i) :
    Holds ⟨some (wireSeq i), if size.val ≤ (i - h).toNat then Bitmap.clear size.val
      else clearSteps w.bits (wireSeq h) (i - h).toNat⟩ accepted i := by
  refine ⟨rfl, fun j hj ↦ (hw.highest j hj).trans hlt.le, fun j hlow hhigh ↦ ?_⟩
  -- what lies above the old highest index was not accepted
  have hnew : h < j → j ∉ accepted := fun hj hmem ↦ absurd (hw.highest j hmem) (not_le.mpr hj)
  split
  · next hfar =>
    have hj : h < j := by omega
    simp [hnew hj]
  · next hfar =>
    rw [contains_clearSteps]
    by_cases hj : j ≤ h
    · rw [hw.window j (by omega) hj, and_iff_left_iff_imp]
      intro _ step hone hstep heq
      rw [wireSeq_add] at heq
      have := eq_of_slot_eq heq (by omega) (by omega)
      omega
    · refine iff_of_false (fun hc ↦ ?_) (hnew (not_le.mp hj))
      refine hc.2 (j - h).toNat (by omega) (by omega) ?_
      rw [wireSeq_add]
      congr 2
      omega

/-- One packet. -/
theorem Holds.accept (hw : Holds w accepted h) (hhigh : i - h ≤ 32767) (hlow : h - i ≤ 32767) :
    ((w.accept (wireSeq i)).2 = true ↔ i ∉ accepted ∧ h - size.val < i) ∧
      Holds (w.accept (wireSeq i)).1
        (if (w.accept (wireSeq i)).2 then accepted ++ [i] else accepted) (max h i) := by
  have hpos := size.pos
  have hdelta : (wireSeq i - wireSeq h).toInt16.toInt = i - h :=
    toInt_wireSeq_sub (by omega) (by omega)
  simp only [ReplayWindow.accept, hw.latest, hdelta]
  by_cases hlt : h < i
  · rw [if_pos (by omega), max_eq_right hlt.le]
    obtain ⟨hiff, hholds⟩ := (hw.move hlt).mark (i := i) (by omega) le_rfl
    refine ⟨hiff.trans ?_, hholds⟩
    rw [iff_self_and]
    intro _
    omega
  · have hle : i ≤ h := not_lt.mp hlt
    have hback := toNat_wireSeq_sub hle (by omega)
    rw [if_neg (by omega), max_eq_left hle]
    split
    · next hold =>
      refine ⟨iff_of_false Bool.false_ne_true fun hin ↦ ?_, hw⟩
      omega
    · next hold =>
      obtain ⟨hiff, hholds⟩ := hw.mark (i := i) (by omega) hle
      refine ⟨hiff.trans ?_, hholds⟩
      rw [iff_self_and]
      intro _
      omega

/-! ### Runs -/

/-- The highest of the indexes so far. -/
def Highest (indexes : List Int) (h : Int) : Prop := h ∈ indexes ∧ ∀ j ∈ indexes, j ≤ h

instance (indexes : List Int) (h : Int) : Decidable (Highest indexes h) :=
  inferInstanceAs (Decidable (h ∈ indexes ∧ ∀ j ∈ indexes, j ≤ h))

/-- Every index is near the highest before it. -/
def Near (indexes : List Int) : Prop :=
  ∀ pre i post, indexes = pre ++ i :: post → ∀ h, Highest pre h → i - h ≤ 32767 ∧ h - i ≤ 32767

theorem receive_concat (indexes : List Int) (i : Int) :
    receive size (indexes ++ [i]) =
      (((receive size indexes).1.accept (wireSeq i)).1,
        if ((receive size indexes).1.accept (wireSeq i)).2 then (receive size indexes).2 ++ [i]
        else (receive size indexes).2) := by
  rw [receive, List.foldl_append, ← receive]
  rfl

variable (size) in
theorem holds_first (i : Int) :
    ((ReplayWindow.new size).accept (wireSeq i)).2 = true ∧
      Holds ((ReplayWindow.new size).accept (wireSeq i)).1 [i] i := by
  have hstart : Holds (⟨some (wireSeq i), Bitmap.clear size.val⟩ : ReplayWindow size) [] i := by
    refine ⟨rfl, fun j hj ↦ ?_, fun j _ _ ↦ ?_⟩
    · cases hj
    · simp
  have hpos := size.pos
  obtain ⟨hiff, hholds⟩ := hstart.mark (i := i) (by omega) le_rfl
  have htrue := hiff.mpr List.not_mem_nil
  rw [htrue] at hholds
  exact ⟨htrue, hholds⟩

theorem Near.take {pre post : List Int} (hnear : Near (pre ++ post)) : Near pre := by
  rintro a i b rfl h hh
  exact hnear a i (b ++ post) (by simp) h hh

theorem Highest.unique {indexes : List Int} {a b : Int} (ha : Highest indexes a)
    (hb : Highest indexes b) : a = b :=
  le_antisymm (hb.2 a ha.1) (ha.2 b hb.1)

theorem Highest.concat {pre : List Int} (hh : Highest pre h) (i : Int) :
    Highest (pre ++ [i]) (max h i) := by
  refine ⟨?_, fun j hj ↦ ?_⟩
  · rcases le_total h i with hle | hle
    · simp [max_eq_right hle]
    · simp [max_eq_left hle, hh.1]
  · rcases List.mem_append.mp hj with hj | hj
    · exact (hh.2 j hj).trans (le_max_left h i)
    · rw [List.mem_singleton.mp hj]
      exact le_max_right h i

theorem highest_singleton (i : Int) : Highest [i] i := ⟨List.mem_singleton_self i, by simp⟩

theorem exists_highest {indexes : List Int} (hne : indexes ≠ []) : ∃ h, Highest indexes h := by
  induction indexes using List.reverseRecOn with
  | nil => exact absurd rfl hne
  | append_singleton pre i ih =>
    by_cases hpre : pre = []
    · subst hpre
      exact ⟨i, highest_singleton i⟩
    · obtain ⟨h, hh⟩ := ih hpre
      exact ⟨max h i, hh.concat i⟩

/-- After any packets the window is the set of the accepted indexes below the highest. -/
theorem holds_receive {indexes : List Int} (hnear : Near indexes) {h : Int}
    (hh : Highest indexes h) : Holds (receive size indexes).1 (receive size indexes).2 h := by
  induction indexes using List.reverseRecOn generalizing h with
  | nil => exact absurd hh.1 List.not_mem_nil
  | append_singleton pre i ih =>
    rw [receive_concat]
    by_cases hpre : pre = []
    · subst hpre
      obtain rfl := hh.unique (highest_singleton i)
      obtain ⟨htrue, hholds⟩ := holds_first size h
      simp only [receive, List.foldl_nil, htrue, if_true, List.nil_append]
      exact hholds
    · obtain ⟨h', hh'⟩ := exists_highest hpre
      obtain ⟨hhigh, hlow⟩ := hnear pre i [] rfl h' hh'
      obtain rfl := hh.unique (hh'.concat i)
      exact ((ih hnear.take hh').accept hhigh hlow).2

theorem accept_iff {pre post : List Int} (hnear : Near (pre ++ i :: post)) :
    ((receive size pre).1.accept (wireSeq i)).2 = true ↔
      i ∉ (receive size pre).2 ∧ ∀ h, Highest pre h → h - size.val < i := by
  by_cases hempty : pre = []
  · subst hempty
    refine iff_of_true (holds_first size i).1 ⟨List.not_mem_nil, fun h hh ↦ ?_⟩
    exact absurd hh.1 List.not_mem_nil
  · obtain ⟨h, hh⟩ := exists_highest hempty
    obtain ⟨hhigh, hlow⟩ := hnear pre i post rfl h hh
    rw [((holds_receive hnear.take hh).accept hhigh hlow).1]
    refine and_congr_right fun _ ↦ ⟨fun hgt h' hh' ↦ ?_, fun hall ↦ hall h hh⟩
    rw [hh'.unique hh]
    exact hgt

theorem nodup_receive {indexes : List Int} (hnear : Near indexes) :
    (receive size indexes).2.Nodup := by
  induction indexes using List.reverseRecOn with
  | nil => exact List.nodup_nil
  | append_singleton pre i ih =>
    rw [receive_concat]
    have hpre := ih hnear.take
    split
    · next htrue =>
      have hfresh := ((accept_iff hnear).mp htrue).1
      refine List.nodup_append.mpr ⟨hpre, List.nodup_singleton i, fun a ha b hb ↦ ?_⟩
      rw [List.mem_singleton.mp hb]
      rintro rfl
      exact hfresh ha
    · exact hpre

/-- The fence is a sliding window set: for every size and every run of indexes near the highest so
far, an index is accepted exactly if it was not accepted before and is above the highest less the
size; none is accepted twice. -/
theorem replay_fence_is_window_set (size : WindowSize) {indexes : List Int} (hnear : Near indexes) :
    (∀ pre i post, indexes = pre ++ i :: post →
      (((receive size pre).1.accept (wireSeq i)).2 = true ↔
        i ∉ (receive size pre).2 ∧ ∀ h, Highest pre h → h - size.val < i)) ∧
    (receive size indexes).2.Nodup := by
  refine ⟨?_, nodup_receive hnear⟩
  rintro pre i post rfl
  exact accept_iff hnear

/-- A repair from before the wrap is accepted once, and an index that has left the window is not. -/
theorem repair_across_wrap :
    let size : WindowSize := ⟨8, ⟨3, rfl⟩, by decide⟩
    let indexes : List Int := [65530, 65537, 65531, 65531, 65529]
    (receive size indexes).2 = [65530, 65537, 65531] ∧
      ((receive size [65530, 65537]).1.accept (wireSeq 65531)).2 = true ∧
      ((receive size [65530, 65537, 65531]).1.accept (wireSeq 65531)).2 = false := by
  intro size indexes
  have hnear : Near indexes := by
    have hall : ∀ a ∈ indexes, ∀ b ∈ indexes, a - b ≤ 32767 := by decide
    intro pre i post hpre h hh
    have hi : i ∈ indexes := by simp [hpre]
    have hmem : h ∈ indexes := by simp [hpre, hh.1]
    exact ⟨hall i hi h hmem, hall h hmem i hi⟩
  have hset := (replay_fence_is_window_set size hnear).1
  refine ⟨by decide +kernel, ?_, ?_⟩
  · have hhighest : Highest [65530, 65537] 65537 := by decide
    refine (hset [65530, 65537] 65531 [65531, 65529] rfl).mpr ⟨by decide +kernel, fun h hh ↦ ?_⟩
    rw [hh.unique hhighest]
    decide
  · rw [Bool.eq_false_iff, Ne, hset [65530, 65537, 65531] 65531 [65529] rfl]
    intro hfresh
    exact hfresh.1 (by decide +kernel)

end MyOwnMesh.Transport
