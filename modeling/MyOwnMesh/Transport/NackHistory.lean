import MyOwnMesh.Lib.Stretch
import MyOwnMesh.Transport.ReplayWindow

/-!
# The history behind negative acknowledgements

`vendor/interceptor/src/nack/generator/generator_stream.rs`, with the range check that the
checked-in copy adds to `add`, and the tick of `generator/mod.rs:135–153`. The history keeps one bit
for each of the last sequence numbers, at the number modulo the size, and the number up to which
nothing is missing. Each tick asks for what is missing. The replay fence of the receiver keeps its
bits in the same way, so its lemmas about slots serve here.
-/

namespace MyOwnMesh.Transport

open Lib Lib.Replay
open Video (wireSeq toNat_wireSeq)

variable {size : WindowSize}

/-- `generator_stream.rs:6–14`. -/
structure NackHistory (size : WindowSize) where
  packets : Bitmap.Bits size.val
  last : UInt16
  started : Bool
  lastConsecutive : UInt16
  legacyHistory : Bool

namespace NackHistory

/-- `generator_stream.rs:17–31`. -/
def new (size : WindowSize) (legacyHistory : Bool) : NackHistory size :=
  ⟨Bitmap.clear size.val, 0, false, 0, legacyHistory⟩

variable (w : NackHistory size)

def setReceived (seq : UInt16) : NackHistory size :=
  { w with packets := Bitmap.insert w.packets (slot size seq) }

def getReceived (seq : UInt16) : Bool := Bitmap.contains w.packets (slot size seq)

/-- The first number from `i` on that was not received, after at most so many steps. -/
def skipReceived (i : UInt16) : Nat → UInt16
  | 0 => i
  | steps + 1 => if w.getReceived i then skipReceived (i + 1) steps else i

/-- The walk ends behind `last`; `generator_stream.rs:126–133`. -/
def fixLastConsecutive : NackHistory size :=
  { w with lastConsecutive :=
      w.skipReceived (w.lastConsecutive + 1) (w.last - w.lastConsecutive).toNat - 1 }

/-- A number ahead of the last; `generator_stream.rs:46–63`. -/
def moveTo (seq : UInt16) : NackHistory size :=
  let moved :=
    { w with
      packets := clearSteps w.packets w.last ((seq - w.last).toNat - 1)
      last := seq }
  if w.lastConsecutive + 1 = seq then { moved with lastConsecutive := seq }
  else if size.val < (seq - w.lastConsecutive).toNat then
    { moved with lastConsecutive := seq - UInt16.ofNat size.val }.fixLastConsecutive
  else moved

/-- A number behind the last; `generator_stream.rs:64–68`. -/
def fillGap (seq : UInt16) : NackHistory size :=
  if w.lastConsecutive + 1 = seq then { w with lastConsecutive := seq }.fixLastConsecutive else w

/-- `generator_stream.rs:33–75`. -/
def add (seq : UInt16) : NackHistory size :=
  if !w.started then
    { w.setReceived seq with last := seq, started := true, lastConsecutive := seq }
  else if (seq - w.last).toNat = 0 then w
  else
    let w' := if (seq - w.last).toNat < 32768 then w.moveTo seq else w.fillGap seq
    if w.legacyHistory || decide ((w'.last - seq).toNat < size.val) then w'.setReceived seq else w'

/-- `generator_stream.rs:90–109`. -/
def missingSeqNumbers (skipLastN : UInt16) : List UInt16 :=
  let until' := w.last - skipLastN
  let diff := (until' - w.lastConsecutive).toNat
  if 32768 ≤ diff then []
  else ((List.range diff).map fun k ↦ w.lastConsecutive + 1 + UInt16.ofNat k).filter
    fun i ↦ !w.getReceived i

/-- What a tick asks for; `generator/mod.rs:140–144`. -/
def requests (skipLastN : UInt16) (maxNacksPerTick : Nat) : List UInt16 :=
  (w.missingSeqNumbers skipLastN).take maxNacksPerTick

end NackHistory

/-- The history after the packets with these indexes. -/
def track (size : WindowSize) (indexes : List Int) : NackHistory size :=
  indexes.foldl (fun w i ↦ w.add (wireSeq i)) (.new size false)

/-! ### Numbers on the wire -/

theorem wireSeq_sub_ofNat (i : Int) (n : Nat) : wireSeq i - UInt16.ofNat n = wireSeq (i - n) := by
  have hi := toNat_wireSeq i
  have hdiff := toNat_wireSeq (i - n)
  have hsub : (wireSeq i - UInt16.ofNat n).toNat =
      (65536 - n % 65536 + (wireSeq i).toNat) % 65536 := by
    rw [UInt16.toNat_sub, UInt16.toNat_ofNat']
  apply UInt16.toNat_inj.mp
  omega

theorem wireSeq_add_one (i : Int) : wireSeq i + 1 = wireSeq (i + 1) := wireSeq_add i 1

theorem wireSeq_inj {i j : Int} (h : wireSeq i = wireSeq j) (hlt : i - j < 65536)
    (hgt : j - i < 65536) : i = j := by
  have hi := toNat_wireSeq i
  have hj := toNat_wireSeq j
  rw [h] at hi
  omega

/-- The distance on the wire of an index that is behind. -/
theorem toNat_wireSeq_sub_behind {i h : Int} (hlt : i < h) (hnear : h - i ≤ 65536) :
    ((wireSeq i - wireSeq h).toNat : Int) = 65536 - (h - i) := by
  have hi := toNat_wireSeq i
  have hh := toNat_wireSeq h
  have hsub : (wireSeq i - wireSeq h).toNat =
      (65536 - (wireSeq h).toNat + (wireSeq i).toNat) % 65536 := UInt16.toNat_sub _ _
  omega

/-! ### The history is the set of what came -/

/-- The walk over received numbers stops somewhere, and all it passed were received. -/
theorem NackHistory.exists_skipReceived (w : NackHistory size) (l : Int) (steps : Nat) :
    ∃ l', l ≤ l' ∧ l' ≤ l + steps ∧ w.skipReceived (wireSeq (l + 1)) steps = wireSeq (l' + 1) ∧
      ∀ j, l < j → j ≤ l' → w.getReceived (wireSeq j) = true := by
  induction steps generalizing l with
  | zero => exact ⟨l, le_rfl, by omega, rfl, fun j hj hle ↦ absurd hj (by omega)⟩
  | succ steps ih =>
    rw [skipReceived]
    split
    · next hreceived =>
      obtain ⟨l', hl, hl', hwalk, hall⟩ := ih (l + 1)
      refine ⟨l', by omega, by omega, ?_, ?_⟩
      · rw [wireSeq_add_one, hwalk]
      · intro j hj hle
        by_cases hfirst : j = l + 1
        · rw [hfirst]
          exact hreceived
        · exact hall j (by omega) hle
    · exact ⟨l, le_rfl, by omega, rfl, fun j hj hle ↦ absurd hj (by omega)⟩

/-- The highest index so far is `h`, nothing from behind `first` up to `l` is missing in the window,
and the bits of the window are those of what came. -/
structure Tracks (w : NackHistory size) (indexes : List Int) (first l h : Int) : Prop where
  started : w.started = true
  legacyHistory : w.legacyHistory = false
  last : w.last = wireSeq h
  lastConsecutive : w.lastConsecutive = wireSeq l
  first_le : first ≤ l
  low : h - size.val ≤ l
  high : l ≤ h
  window : ∀ j, h - size.val < j → j ≤ h → (w.getReceived (wireSeq j) = true ↔ j ∈ indexes)
  consecutive : ∀ j, first < j → h - size.val < j → j ≤ l → j ∈ indexes

variable {w : NackHistory size} {indexes : List Int} {first l h i : Int}

theorem getReceived_setReceived (seq seq' : UInt16) :
    (w.setReceived seq).getReceived seq' =
      (decide (slot size seq' = slot size seq) || w.getReceived seq') := by
  simp only [NackHistory.getReceived, NackHistory.setReceived, Bitmap.contains_insert]

/-- A bit in the window is set. -/
theorem window_setReceived (hlow : h - size.val < i) (hhigh : i ≤ h)
    (hwindow : ∀ j, h - size.val < j → j ≤ h → j ≠ i →
      (w.getReceived (wireSeq j) = true ↔ j ∈ indexes)) (j : Int) (hj : h - size.val < j)
    (hjh : j ≤ h) :
    (w.setReceived (wireSeq i)).getReceived (wireSeq j) = true ↔ j ∈ indexes ++ [i] := by
  rw [getReceived_setReceived, Bool.or_eq_true, decide_eq_true_eq, List.mem_append,
    List.mem_singleton]
  by_cases heq : j = i
  · subst heq
    simp
  · have hslot : slot size (wireSeq j) ≠ slot size (wireSeq i) := fun hs ↦
      heq (eq_of_slot_eq hs (by omega) (by omega))
    rw [hwindow j hj hjh heq]
    simp [hslot, heq]

/-- The bits up to a higher index are cleared. -/
theorem Tracks.moved (hw : Tracks w indexes first l h) (hh : Highest indexes h) (hlt : h < i)
    (j : Int) (hj : i - size.val < j) (hji : j < i) :
    Bitmap.contains (clearSteps w.packets (wireSeq h) ((i - h).toNat - 1))
      (slot size (wireSeq j)) = true ↔ j ∈ indexes := by
  rw [contains_clearSteps]
  by_cases hjh : j ≤ h
  · rw [← hw.window j (by omega) hjh, NackHistory.getReceived, and_iff_left_iff_imp]
    intro _ step hone hstep heq
    rw [wireSeq_add] at heq
    have := eq_of_slot_eq heq (by omega) (by omega)
    omega
  · refine iff_of_false (fun hc ↦ ?_) fun hmem ↦ hjh (hh.2 j hmem)
    refine hc.2 (j - h).toNat (by omega) (by omega) ?_
    rw [wireSeq_add]
    congr 2
    omega

theorem tracks_first (i : Int) : Tracks (track size [i]) [i] i i i := by
  have hpos := size.pos
  have hempty : ∀ j, i - size.val < j → j ≤ i → j ≠ i →
      ((NackHistory.new size false).getReceived (wireSeq j) = true ↔ j ∈ ([] : List Int)) := by
    intro j _ _ _
    simp [NackHistory.new, NackHistory.getReceived]
  exact
    { started := rfl, legacyHistory := rfl, last := rfl, lastConsecutive := rfl, first_le := le_rfl
      low := by omega
      high := le_rfl
      window := fun j hj hjh ↦ window_setReceived (by omega) le_rfl hempty j hj hjh
      consecutive := fun j hj _ hle ↦ absurd hj (by omega) }

/-- A walk from a number behind the highest ends below it and passes only what came. -/
theorem exists_fixLastConsecutive (w : NackHistory size) (hlast : w.last = wireSeq h)
    (hcons : w.lastConsecutive = wireSeq l) (hlh : l ≤ h) (hnear : h - l < 65536) :
    ∃ l', l ≤ l' ∧ l' ≤ h ∧ w.fixLastConsecutive = { w with lastConsecutive := wireSeq l' } ∧
      ∀ j, l < j → j ≤ l' → w.getReceived (wireSeq j) = true := by
  have hsteps := toNat_wireSeq_sub hlh hnear
  obtain ⟨l', hl, hl', hwalk, hall⟩ :=
    w.exists_skipReceived l (wireSeq h - wireSeq l).toNat
  refine ⟨l', hl, by omega, ?_, hall⟩
  have hback : wireSeq (l' + 1) - 1 = wireSeq l' := by
    have hsub := wireSeq_sub_ofNat (l' + 1) 1
    rwa [show l' + 1 - ((1 : Nat) : Int) = l' by omega] at hsub
  rw [NackHistory.fixLastConsecutive, hlast, hcons, wireSeq_add_one, hwalk, hback]

/-- The history moves on to a higher index. What was missing may be left behind. -/
theorem Tracks.moveTo (hw : Tracks w indexes first l h) (hh : Highest indexes h) (hlt : h < i)
    (hnear : i - h ≤ 32767) :
    ∃ l' bits, max l (i - size.val) ≤ l' ∧ l' ≤ i ∧
      w.moveTo (wireSeq i) =
        { w with packets := bits, last := wireSeq i, lastConsecutive := wireSeq l' } ∧
      (∀ j, i - size.val < j → j < i →
        (Bitmap.contains bits (slot size (wireSeq j)) = true ↔ j ∈ indexes)) ∧
      ∀ j, first < j → i - size.val < j → j ≤ l' → j ∈ indexes ++ [i] := by
  have hpos := size.pos
  have hsize := size.lt
  have hlow := hw.low
  have hhigh := hw.high
  have hdiff := toNat_wireSeq_sub hlt.le (by omega)
  have hdist := toNat_wireSeq_sub (hhigh.trans hlt.le) (by omega)
  obtain ⟨bits, hbits⟩ : ∃ bits, bits =
      clearSteps w.packets w.last ((wireSeq i - w.last).toNat - 1) := ⟨_, rfl⟩
  have hwindow : ∀ j, i - size.val < j → j < i →
      (Bitmap.contains bits (slot size (wireSeq j)) = true ↔ j ∈ indexes) := by
    rw [hbits, hw.last, show (wireSeq i - wireSeq h).toNat - 1 = (i - h).toNat - 1 by omega]
    exact hw.moved hh hlt
  rw [NackHistory.moveTo, ← hbits]
  by_cases hnext : l + 1 = i
  · refine ⟨i, bits, by omega, le_rfl, ?_, hwindow, ?_⟩
    · rw [if_pos (by rw [hw.lastConsecutive, wireSeq_add_one, hnext])]
    · intro j hj hlowj hji
      rcases eq_or_lt_of_le hji with rfl | hjlt
      · simp
      · exact List.mem_append_left _ (hw.consecutive j hj (by omega) (by omega))
  · have hne : w.lastConsecutive + 1 ≠ wireSeq i := by
      rw [hw.lastConsecutive, wireSeq_add_one]
      exact fun heq ↦ hnext (wireSeq_inj heq (by omega) (by omega))
    rw [if_neg hne, hw.lastConsecutive]
    by_cases hfar : size.val < (wireSeq i - wireSeq l).toNat
    · obtain ⟨l', hl, hl', hfix, hall⟩ :=
        exists_fixLastConsecutive (h := i) (l := i - size.val)
          { w with packets := bits, last := wireSeq i,
                   lastConsecutive := wireSeq i - UInt16.ofNat size.val }
          rfl (wireSeq_sub_ofNat i size.val) (by omega) (by omega)
      refine ⟨l', bits, by omega, hl', ?_, hwindow, ?_⟩
      · rw [if_pos hfar, hfix]
      · intro j _ hlowj hjl
        rcases eq_or_ne j i with rfl | hji
        · simp
        · exact List.mem_append_left _ ((hwindow j hlowj (by omega)).mp (hall j hlowj hjl))
    · refine ⟨l, bits, by omega, by omega, ?_, hwindow, ?_⟩
      · rw [if_neg hfar, ← hw.lastConsecutive]
      · intro j hj hlowj hjl
        exact List.mem_append_left _ (hw.consecutive j hj (by omega) hjl)

/-- A packet ahead of the highest. -/
theorem Tracks.ahead (hw : Tracks w indexes first l h) (hh : Highest indexes h) (hlt : h < i)
    (hnear : i - h ≤ 32767) : ∃ l', Tracks (w.add (wireSeq i)) (indexes ++ [i]) first l' i := by
  have hpos := size.pos
  have hfirst := hw.first_le
  have hdiff := toNat_wireSeq_sub hlt.le (by omega)
  obtain ⟨l', bits, hle, hli, hmove, hwindow, hcons⟩ := hw.moveTo hh hlt hnear
  have hadd : w.add (wireSeq i) =
      ({ w with packets := bits, last := wireSeq i, lastConsecutive := wireSeq l' } :
        NackHistory size).setReceived (wireSeq i) := by
    have hself : (wireSeq i - wireSeq i).toNat < size.val := by simpa using hpos
    have hne : (wireSeq i - w.last).toNat ≠ 0 := by
      rw [hw.last]
      omega
    have hahead : (wireSeq i - w.last).toNat < 32768 := by
      rw [hw.last]
      omega
    simp only [NackHistory.add, hne, hahead, hmove, hself, hw.started, ↓reduceIte, decide_true,
      Bool.or_true, Bool.not_true, Bool.false_eq_true]
  refine ⟨l', ?_⟩
  rw [hadd]
  exact
    { started := hw.started, legacyHistory := hw.legacyHistory, last := rfl
      lastConsecutive := rfl
      first_le := by omega
      low := by omega
      high := hli
      window := window_setReceived (by omega) le_rfl fun j hj hji hne ↦
        hwindow j hj (lt_of_le_of_ne hji hne)
      consecutive := hcons }

/-- A gap is filled, and the walk goes on from there. -/
theorem Tracks.fillGap (hw : Tracks w indexes first l h) (hlt : i < h) (hnear : h - i ≤ 32767) :
    ∃ l', l ≤ l' ∧ l' ≤ h ∧
      w.fillGap (wireSeq i) = { w with lastConsecutive := wireSeq l' } ∧
      ∀ j, first < j → h - size.val < j → j ≤ l' → j ∈ indexes ++ [i] := by
  have hsize := size.lt
  have hlow := hw.low
  have hhigh := hw.high
  rw [NackHistory.fillGap]
  by_cases hnext : l + 1 = i
  · obtain ⟨l', hl, hl', hfix, hall⟩ :=
      exists_fixLastConsecutive { w with lastConsecutive := wireSeq i } hw.last rfl hlt.le
        (by omega)
    refine ⟨l', by omega, hl', ?_, ?_⟩
    · rw [if_pos (by rw [hw.lastConsecutive, wireSeq_add_one, hnext]), hfix]
    · intro j hj hlowj hjl
      rcases lt_trichotomy j i with hji | rfl | hji
      · exact List.mem_append_left _ (hw.consecutive j hj hlowj (by omega))
      · simp
      · exact List.mem_append_left _ ((hw.window j hlowj (by omega)).mp (hall j hji hjl))
  · have hskip : w.lastConsecutive + 1 ≠ wireSeq i := by
      rw [hw.lastConsecutive, wireSeq_add_one]
      exact fun heq ↦ hnext (wireSeq_inj heq (by omega) (by omega))
    refine ⟨l, le_rfl, hhigh, ?_, ?_⟩
    · rw [if_neg hskip, ← hw.lastConsecutive]
    · intro j hj hlowj hjl
      exact List.mem_append_left _ (hw.consecutive j hj hlowj hjl)

/-- A packet behind the highest: it fills a gap, or it is too old for the history. -/
theorem Tracks.behind (hw : Tracks w indexes first l h) (hlt : i < h) (hnear : h - i ≤ 32767) :
    ∃ l', Tracks (w.add (wireSeq i)) (indexes ++ [i]) first l' h := by
  have hlow := hw.low
  have hfirst := hw.first_le
  have hdiff := toNat_wireSeq_sub_behind hlt (by omega)
  have hdist : ((w.last - wireSeq i).toNat : Int) = h - i := by
    rw [hw.last]
    exact toNat_wireSeq_sub hlt.le (by omega)
  obtain ⟨l', hle, hlh, hfill, hcons⟩ := hw.fillGap hlt hnear
  have hadd : w.add (wireSeq i) =
      if (w.last - wireSeq i).toNat < size.val then
        ({ w with lastConsecutive := wireSeq l' } : NackHistory size).setReceived (wireSeq i)
      else { w with lastConsecutive := wireSeq l' } := by
    have hne : (wireSeq i - w.last).toNat ≠ 0 := by
      rw [hw.last]
      omega
    have hfar : ¬ (wireSeq i - w.last).toNat < 32768 := by
      rw [hw.last]
      omega
    simp only [NackHistory.add, hne, hfar, hfill, hw.started, hw.legacyHistory,
      ↓reduceIte, Bool.false_or, Bool.not_true, Bool.false_eq_true, decide_eq_true_eq]
  have hwindow : ∀ j, h - size.val < j → j ≤ h →
      (({ w with lastConsecutive := wireSeq l' } : NackHistory size).getReceived (wireSeq j) =
        true ↔ j ∈ indexes) := hw.window
  refine ⟨l', ?_⟩
  rw [hadd]
  split
  · exact
      { started := hw.started, legacyHistory := hw.legacyHistory, last := hw.last
        lastConsecutive := rfl
        first_le := by omega
        low := by omega
        high := hlh
        window := window_setReceived (by omega) hlt.le fun j hj hjh _ ↦ hwindow j hj hjh
        consecutive := hcons }
  · refine
      { started := hw.started, legacyHistory := hw.legacyHistory, last := hw.last
        lastConsecutive := rfl
        first_le := by omega
        low := by omega
        high := hlh
        window := ?_
        consecutive := hcons }
    intro j hj hjh
    rw [hwindow j hj hjh, List.mem_append, List.mem_singleton]
    exact ⟨.inl, fun hmem ↦ hmem.resolve_right (by omega)⟩

/-- One packet. -/
theorem Tracks.add (hw : Tracks w indexes first l h) (hh : Highest indexes h)
    (hhigh : i - h ≤ 32767) (hlow : h - i ≤ 32767) :
    ∃ l', Tracks (w.add (wireSeq i)) (indexes ++ [i]) first l' (max h i) := by
  rcases lt_trichotomy h i with hlt | rfl | hgt
  · rw [max_eq_right hlt.le]
    exact hw.ahead hh hlt hhigh
  · refine ⟨l, ?_⟩
    have hsame : w.add (wireSeq h) = w := by
      simp [NackHistory.add, hw.started, hw.last]
    have hmem : ∀ j, j ∈ indexes ++ [h] ↔ j ∈ indexes := by
      intro j
      rw [List.mem_append, List.mem_singleton]
      exact ⟨fun hj ↦ hj.elim id fun heq ↦ heq ▸ hh.1, .inl⟩
    rw [hsame, max_self]
    exact
      { hw with
        window := fun j hj hjh ↦ (hw.window j hj hjh).trans (hmem j).symm
        consecutive := fun j hj hlowj hjl ↦ (hmem j).mpr (hw.consecutive j hj hlowj hjl) }
  · rw [max_eq_left hgt.le]
    exact hw.behind hgt hlow

theorem tracks_track {indexes : List Int} (hnear : Near indexes)
    (hfirst : indexes.head? = some first) {h : Int} (hh : Highest indexes h) :
    ∃ l, Tracks (track size indexes) indexes first l h := by
  induction indexes using List.reverseRecOn generalizing h with
  | nil => exact absurd hh.1 List.not_mem_nil
  | append_singleton pre i ih =>
    by_cases hpre : pre = []
    · subst hpre
      obtain rfl := hh.unique (highest_singleton i)
      obtain rfl : h = first := by simpa using hfirst
      exact ⟨h, tracks_first h⟩
    · obtain ⟨h', hh'⟩ := exists_highest hpre
      obtain ⟨hhigh, hlow⟩ := hnear pre i [] rfl h' hh'
      obtain rfl := hh.unique (hh'.concat i)
      have hhead : pre.head? = some first := by
        obtain ⟨j, rest, rfl⟩ := List.exists_cons_of_ne_nil hpre
        exact hfirst
      obtain ⟨l, hl⟩ := ih hnear.take hhead hh'
      rw [track, List.foldl_append]
      exact hl.add hh' hhigh hlow

/-! ### What is asked for -/

/-- What the walk of a tick passes. -/
theorem map_range_eq_stretch {u : Int} (hle : l ≤ u) (hnear : u - l < 65536) :
    (List.range (wireSeq u - wireSeq l).toNat).map
        (fun k ↦ wireSeq l + 1 + UInt16.ofNat k) = (stretch l u).map wireSeq := by
  have hdist := toNat_wireSeq_sub hle hnear
  rw [stretch, List.map_map, show (u - l).toNat = (wireSeq u - wireSeq l).toNat by omega]
  refine List.map_congr_left fun k _ ↦ ?_
  rw [wireSeq_add_one, wireSeq_add, Function.comp_apply]

theorem Tracks.missingSeqNumbers (hw : Tracks w indexes first l h) {skipLastN : UInt16}
    (hskip : skipLastN.toNat ≤ 32768) :
    w.missingSeqNumbers skipLastN =
      ((stretch (max first (h - size.val)) (h - skipLastN.toNat)).filter
        fun j ↦ decide (j ∉ indexes)).map wireSeq := by
  have hsize := size.lt
  have hlow := hw.low
  have hhigh := hw.high
  have hfirst := hw.first_le
  obtain ⟨u, hu⟩ : ∃ u, u = h - (skipLastN.toNat : Int) := ⟨_, rfl⟩
  have huntil : wireSeq h - skipLastN = wireSeq u := by
    have hsub := wireSeq_sub_ofNat h skipLastN.toNat
    rwa [UInt16.ofNat_toNat, ← hu] at hsub
  -- nothing is missing up to `l`
  have hbelow : ∀ a b, b ≤ l → max first (h - size.val) ≤ a →
      (stretch a b).filter (fun j ↦ decide (j ∉ indexes)) = [] := by
    intro a b hbl ha
    rw [List.filter_eq_nil_iff]
    intro j hj
    obtain ⟨haj, hjb⟩ := mem_stretch.mp hj
    have hmem := hw.consecutive j (by omega) (by omega) (by omega)
    simp [hmem]
  rw [NackHistory.missingSeqNumbers, hw.last, hw.lastConsecutive, huntil, ← hu]
  by_cases hul : u < l
  · have hbehind := toNat_wireSeq_sub_behind hul (by omega)
    rw [if_pos (by omega), hbelow _ u hul.le le_rfl, List.map_nil]
  · have hlu : l ≤ u := not_lt.mp hul
    have hdist := toNat_wireSeq_sub hlu (by omega)
    rw [if_neg (by omega), map_range_eq_stretch hlu (by omega)]
    have hsplit : stretch (max first (h - size.val)) u =
        stretch (max first (h - size.val)) l ++ stretch l u :=
      stretch_append (by omega) hlu
    rw [hsplit, List.filter_append, hbelow _ l le_rfl le_rfl, List.nil_append, List.filter_map]
    congr 1
    apply List.filter_congr
    intro j hj
    obtain ⟨hlj, hju⟩ := mem_stretch.mp hj
    have hiff := hw.window j (by omega) (by omega)
    simp only [Function.comp_apply]
    by_cases hmem : j ∈ indexes
    · simp [hmem, hiff.mpr hmem]
    · have hnot : w.getReceived (wireSeq j) = false := by
        simpa [hmem] using hiff
      simp [hmem, hnot]

/-- However the packets come, a tick asks for the lowest of the numbers that are missing: those
behind the first packet, in the history and not in its tail, that did not come. It never asks for a
number that came, and it leaves none out but for the bound of the tick. -/
theorem requests_are_the_missing {indexes : List Int} (hnear : Near indexes)
    (hfirst : indexes.head? = some first) (hh : Highest indexes h) {skipLastN : UInt16}
    (hskip : skipLastN.toNat ≤ 32768) (maxNacksPerTick : Nat) :
    (track size indexes).requests skipLastN maxNacksPerTick =
      (((stretch (max first (h - size.val)) (h - skipLastN.toNat)).filter
        fun j ↦ decide (j ∉ indexes)).map wireSeq).take maxNacksPerTick := by
  obtain ⟨l, hl⟩ : ∃ l, Tracks (track size indexes) indexes first l h :=
    tracks_track hnear hfirst hh
  rw [NackHistory.requests, hl.missingSeqNumbers hskip]

theorem near_of_close {indexes : List Int}
    (hclose : ∀ a ∈ indexes, ∀ b ∈ indexes, a - b ≤ 32767) : Near indexes := by
  rintro pre i post rfl h hh
  have hmem : h ∈ pre ++ i :: post := List.mem_append_left _ hh.1
  exact ⟨hclose i (by simp) h hmem, hclose h hmem i (by simp)⟩

/-- `webrtc.rs:111–124`. -/
def nackGeneratorPackets : WindowSize := ⟨1024, ⟨10, rfl⟩, by decide⟩

/-- A gap around the wrap is asked for, and the packet that came late is not. -/
theorem gap_is_requested :
    (track nackGeneratorPackets [65533, 65534, 65537, 65536, 65550]).requests 8 512 =
      [65535, 2, 3, 4, 5, 6] := by
  have hnear : Near [65533, 65534, 65537, 65536, 65550] := near_of_close (by decide)
  have hhighest : Highest [65533, 65534, 65537, 65536, 65550] 65550 := by decide
  rw [requests_are_the_missing hnear rfl hhighest (by decide)]
  decide

end MyOwnMesh.Transport
