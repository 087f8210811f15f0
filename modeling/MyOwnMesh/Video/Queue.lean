import Mathlib.Order.Monotone.Basic
import MyOwnMesh.Lib.Stretch
import MyOwnMesh.Video.Assembler

/-!
# The queue of a sender's stream

What a sender sends is a sequence of samples, each a stretch of the sequence line at one
timestamp whose last packet has the marker. Here timestamps do not wrap and a packet is at its
place on the sequence line. Whatever arrives of a stream, in whatever order, the queue stays
ordered: its units hold packets of the stream, one behind the other, no unit holds packets of two
samples whose boundary was seen, and everything is behind the end of what was last taken out.
-/

namespace MyOwnMesh.Video

open Lib

/-! ### Streams -/

/-- A stream of samples: the `k`-th is the packets behind `ends k` and up to `ends (k + 1)`. -/
structure Stream where
  ends : Nat → Int
  time : Nat → Int
  payload : Int → Bytes
  ends_lt : ∀ k, ends k < ends (k + 1)
  time_le : ∀ k, time k ≤ time (k + 1)
  payload_ne : ∀ q, payload q ≠ []

namespace Stream

variable (S : Stream)

/-- A packet belongs to a sample. -/
def Owns (k : Nat) (q : Int) : Prop := S.ends k < q ∧ q ≤ S.ends (k + 1)

/-- The payloads of a sample, in order. -/
def payloads (k : Nat) : List Bytes := (stretch (S.ends k) (S.ends (k + 1))).map S.payload

variable {j k : Nat}

theorem ends_mono (h : j ≤ k) : S.ends j ≤ S.ends k :=
  (strictMono_nat_of_lt_succ S.ends_lt).monotone h

theorem lt_of_ends_lt (h : S.ends j < S.ends k) : j < k :=
  (strictMono_nat_of_lt_succ S.ends_lt).lt_iff_lt.mp h

theorem le_of_ends_le (h : S.ends j ≤ S.ends k) : j ≤ k :=
  (strictMono_nat_of_lt_succ S.ends_lt).le_iff_le.mp h

theorem ends_injective (h : S.ends j = S.ends k) : j = k :=
  (strictMono_nat_of_lt_succ S.ends_lt).injective h

theorem time_mono (h : j ≤ k) : S.time j ≤ S.time k := monotone_nat_of_le_succ S.time_le h

variable {S} {p q : Int}

/-- Packets of an earlier sample are earlier. -/
theorem lt_of_owns (hq : S.Owns j q) (hp : S.Owns k p) (h : j < k) : q < p :=
  (hq.2.trans (S.ends_mono h)).trans_lt hp.1

/-- A packet belongs to one sample. -/
theorem owns_unique (hj : S.Owns j q) (hk : S.Owns k q) : j = k := by
  rcases Nat.lt_trichotomy j k with h | h | h
  · exact absurd (lt_of_owns hj hk h) (lt_irrefl q)
  · exact h
  · exact absurd (lt_of_owns hk hj h) (lt_irrefl q)

/-- An earlier timestamp is one of an earlier sample. -/
theorem lt_of_time_lt (h : S.time j < S.time k) : j < k := by
  by_contra hle
  exact absurd (S.time_mono (Nat.le_of_not_lt hle)) (not_le.mpr h)

theorem owns_end (k : Nat) : S.Owns k (S.ends (k + 1)) := ⟨S.ends_lt k, le_refl _⟩

end Stream

/-! ### Units -/

variable {S : Stream} {u v w : PendingAu Int} {x q : Int}

/-- The sequence numbers that a unit speaks of. -/
def PendingAu.Holds (u : PendingAu Int) (x : Int) : Prop :=
  x ∈ u.parts.map Prod.fst ∨ u.markerSeq = some x

/-- A unit holds packets of the stream at its timestamp, in order and up to its marker; a last
packet that it holds is its marker. -/
structure Fits (S : Stream) (u : PendingAu Int) : Prop where
  sorted : (u.parts.map Prod.fst).Pairwise (· < ·)
  owned : ∀ x, u.Holds x → ∃ k, S.Owns k x ∧ S.time k = u.timestamp
  payload : ∀ e ∈ u.parts, e.2 = S.payload e.1
  marker : ∀ m, u.markerSeq = some m → ∃ k, m = S.ends (k + 1)
  below : ∀ m, u.markerSeq = some m → ∀ x ∈ u.parts.map Prod.fst, x ≤ m
  closed : ∀ x ∈ u.parts.map Prod.fst, ∀ k, x = S.ends (k + 1) → u.markerSeq = some x

/-- A unit is in front of another. Two of one timestamp are apart by a marker. -/
structure Before (u v : PendingAu Int) : Prop where
  lt : ∀ x y, u.Holds x → v.Holds y → x < y
  time : u.timestamp ≤ v.timestamp
  apart : u.timestamp = v.timestamp → u.markerSeq ≠ none

/-- Only the packets, the marker and the timestamp count. -/
theorem Fits.congr (h : Fits S u) (hparts : v.parts = u.parts) (hmarker : v.markerSeq = u.markerSeq)
    (htime : v.timestamp = u.timestamp) : Fits S v := by
  have hholds : ∀ x, v.Holds x → u.Holds x := fun x hx ↦ by
    unfold PendingAu.Holds at hx ⊢
    rwa [hparts, hmarker] at hx
  refine ⟨?_, fun x hx ↦ ?_, ?_, ?_, ?_, ?_⟩
  · rw [hparts]
    exact h.sorted
  · rw [htime]
    exact h.owned x (hholds x hx)
  · rw [hparts]
    exact h.payload
  · rw [hmarker]
    exact h.marker
  · rw [hparts, hmarker]
    exact h.below
  · rw [hparts, hmarker]
    exact h.closed

/-! ### Finding the unit of a packet -/

section Position

variable {ts : Int} {lower : Option Int} {pending : List (PendingAu Int)}

/-- The unit that was found has the timestamp, and the packet is behind the markers before it and
not behind its own. -/
theorem pendingPosition_eq_some {pos : Nat}
    (hlower : ∀ e ∈ lower, ∀ v ∈ pending, ∀ x, v.Holds x → e < x)
    (horder : pending.Pairwise Before)
    (h : pendingPosition ts q lower pending = some pos) :
    ∃ before u after, pending = before ++ u :: after ∧ before.length = pos ∧ u.timestamp = ts ∧
      (∀ e ∈ lower, e < q) ∧ (∀ e ∈ u.markerSeq, q ≤ e) ∧
      ∀ v ∈ before, v.timestamp = ts → ∀ e ∈ v.markerSeq, e < q := by
  induction pending generalizing lower pos with
  | nil => simp [pendingPosition] at h
  | cons au rest ih =>
    obtain ⟨hfirst, hrest⟩ := List.pairwise_cons.mp horder
    -- Going on behind the first unit, whose marker is the bound if it has one.
    have hgo : ∀ lower' : Option Int, (∀ e ∈ lower', ∀ v ∈ rest, ∀ x, v.Holds x → e < x) →
        (∀ e ∈ lower, (∀ e' ∈ lower', e' < q) → e < q) →
        (au.timestamp = ts → ∀ e ∈ au.markerSeq, (∀ e' ∈ lower', e' < q) → e < q) →
        (pendingPosition ts q lower' rest).map (· + 1) = some pos →
        ∃ before u after, au :: rest = before ++ u :: after ∧ before.length = pos ∧
          u.timestamp = ts ∧ (∀ e ∈ lower, e < q) ∧ (∀ e ∈ u.markerSeq, q ≤ e) ∧
          ∀ v ∈ before, v.timestamp = ts → ∀ e ∈ v.markerSeq, e < q := by
      intro lower' hlower' hbound hau hpos
      obtain ⟨pos', hpos', rfl⟩ := Option.map_eq_some_iff.mp hpos
      obtain ⟨before, u, after, rfl, rfl, hu, hlow, hup, hbefore⟩ := ih hlower' hrest hpos'
      refine ⟨au :: before, u, after, rfl, rfl, hu, fun e he ↦ hbound e he hlow, hup, ?_⟩
      intro v hv hvt e he
      rcases List.mem_cons.mp hv with rfl | hv
      · exact hau hvt e he hlow
      · exact hbefore v hv hvt e he
    rw [pendingPosition] at h
    split at h
    · next hts =>
      split at h
      · next hfound =>
        rw [Option.some.injEq] at h
        exact ⟨[], au, rest, rfl, h, hts, hfound.1, hfound.2, by simp⟩
      · cases hmarker : au.markerSeq with
        | none =>
          rw [hmarker, Option.none_or] at h
          refine hgo lower (fun e he v hv ↦ hlower e he v (List.mem_cons_of_mem _ hv))
            (fun e he hlow ↦ hlow e he) (fun _ e he ↦ ?_) h
          rw [hmarker] at he
          cases he
        | some m =>
          rw [hmarker, Option.some_or] at h
          have hm : au.Holds m := .inr hmarker
          refine hgo (some m) (fun e he v hv x hx ↦ ?_) (fun e he hlow ↦ ?_)
            (fun _ e he hlow ↦ ?_) h
          · obtain rfl : m = e := Option.some.inj he
            exact (hfirst v hv).lt m x hm hx
          · exact (hlower e he au List.mem_cons_self m hm).trans (hlow m rfl)
          · rw [hmarker] at he
            exact hlow e he
    · next hts =>
      refine hgo lower (fun e he v hv ↦ hlower e he v (List.mem_cons_of_mem _ hv))
        (fun e he hlow ↦ hlow e he) (fun heq ↦ absurd heq hts) h

/-- If none was found, the packet is behind the markers of all units of the timestamp. -/
theorem pendingPosition_eq_none (hlower : ∀ e ∈ lower, e < q)
    (h : pendingPosition ts q lower pending = none) :
    ∀ u ∈ pending, u.timestamp = ts → ∃ m, u.markerSeq = some m ∧ m < q := by
  induction pending generalizing lower with
  | nil => simp
  | cons au rest ih =>
    rw [pendingPosition] at h
    split at h
    · next hts =>
      split at h
      · cases h
      · next hfound =>
        rw [Option.map_eq_none_iff] at h
        have hm : ∃ m, au.markerSeq = some m ∧ m < q := by
          cases hmarker : au.markerSeq with
          | none => exact absurd ⟨hlower, by simp [hmarker]⟩ hfound
          | some m =>
            refine ⟨m, rfl, not_le.mp fun hle ↦ hfound ⟨hlower, fun e he ↦ ?_⟩⟩
            rw [hmarker] at he
            obtain rfl : m = e := Option.some.inj he
            exact hle
        obtain ⟨m, hmarker, hlt⟩ := hm
        rw [hmarker, Option.some_or] at h
        intro u hu hut
        rcases List.mem_cons.mp hu with rfl | hu
        · exact ⟨m, hmarker, hlt⟩
        · refine ih (fun e he ↦ ?_) h u hu hut
          obtain rfl : m = e := Option.some.inj he
          exact hlt
    · next hts =>
      rw [Option.map_eq_none_iff] at h
      intro u hu hut
      rcases List.mem_cons.mp hu with rfl | hu
      · exact absurd hut hts
      · exact ih hlower h u hu hut

end Position

/-! ### Putting a packet into its unit -/

section Put

variable {payload : Bytes} {parts : List (Int × Bytes)}

@[simp] theorem mem_insertPart {e : Int × Bytes} :
    e ∈ insertPart q payload parts ↔ e = (q, payload) ∨ e ∈ parts := by
  induction parts with
  | nil => simp [insertPart]
  | cons d rest ih =>
    rw [insertPart]
    split
    · simp
    · simp [ih, or_left_comm]

/-- A new packet goes between those before and those after it. -/
theorem sorted_insertPart (h : (parts.map Prod.fst).Pairwise (· < ·))
    (hnew : q ∉ parts.map Prod.fst) :
    ((insertPart q payload parts).map Prod.fst).Pairwise (· < ·) := by
  induction parts with
  | nil => simp [insertPart]
  | cons d rest ih =>
    rw [List.map_cons, List.mem_cons, not_or] at hnew
    rw [List.map_cons, List.pairwise_cons] at h
    rw [insertPart]
    split
    · next hlt =>
      refine List.pairwise_cons.mpr ⟨fun y hy ↦ ?_, List.pairwise_cons.mpr h⟩
      rcases List.mem_cons.mp hy with rfl | hy
      · exact hlt
      · exact hlt.trans (h.1 y hy)
    · next hlt =>
      refine List.pairwise_cons.mpr ⟨fun y hy ↦ ?_, ih h.2 hnew.2⟩
      obtain ⟨e, he, rfl⟩ := List.mem_map.mp hy
      rcases mem_insertPart.mp he with rfl | he
      · exact lt_of_le_of_ne (not_lt.mp hlt) (Ne.symm hnew.1)
      · exact h.1 _ (List.mem_map_of_mem he)

theorem PendingAu.store_timestamp {T : Type} (u : PendingAu T) (q : Int) (payload : Bytes) :
    (u.store q payload).timestamp = u.timestamp := by
  unfold PendingAu.store
  split
  · rfl
  · split <;> rfl

theorem PendingAu.store_markerSeq {T : Type} (u : PendingAu T) (q : Int) (payload : Bytes) :
    (u.store q payload).markerSeq = u.markerSeq := by
  unfold PendingAu.store
  split
  · rfl
  · split <;> rfl

theorem PendingAu.store_blockedSince {T : Type} (u : PendingAu T) (q : Int) (payload : Bytes) :
    (u.store q payload).blockedSince = u.blockedSince := by
  unfold PendingAu.store
  split
  · rfl
  · split <;> rfl

/-- What a unit stores is the packet and what it held. -/
theorem mem_parts_store {T : Type} {u : PendingAu T} {e : Int × Bytes}
    (h : e ∈ (u.store q payload).parts) :
    e = (q, payload) ∨ e ∈ u.parts := by
  unfold PendingAu.store at h
  split at h
  · exact .inr h
  · split at h
    · exact .inr h
    · exact mem_insertPart.mp h

/-- The packets of a unit stay in order. -/
theorem sorted_store (h : (u.parts.map Prod.fst).Pairwise (· < ·)) :
    ((u.store q payload).parts.map Prod.fst).Pairwise (· < ·) := by
  unfold PendingAu.store
  split
  · exact h
  · next hnew =>
    split
    · exact h
    · refine sorted_insertPart h fun hmem ↦ hnew ?_
      obtain ⟨e, he, rfl⟩ := List.mem_map.mp hmem
      exact List.any_eq_true.mpr ⟨e, he, beq_self_eq_true _⟩

variable {k : Nat}

/-- A packet that is not the last of its sample goes into its unit. -/
theorem Fits.store (h : Fits S u) (hq : S.Owns k q) (htime : u.timestamp = S.time k)
    (hupto : ∀ m ∈ u.markerSeq, q ≤ m) (hnot : q ≠ S.ends (k + 1)) :
    Fits S (u.store q (S.payload q)) := by
  have hkeys : ∀ x ∈ (u.store q (S.payload q)).parts.map Prod.fst,
      x = q ∨ x ∈ u.parts.map Prod.fst := by
    intro x hx
    obtain ⟨e, he, rfl⟩ := List.mem_map.mp hx
    exact (mem_parts_store he).imp (fun h ↦ by rw [h]) List.mem_map_of_mem
  refine ⟨sorted_store h.sorted, fun x hx ↦ ?_, fun e he ↦ ?_, ?_, ?_, ?_⟩
  · rw [PendingAu.store_timestamp]
    rcases hx with hx | hx
    · rcases hkeys x hx with rfl | hx
      · exact ⟨k, hq, htime.symm⟩
      · exact h.owned x (.inl hx)
    · rw [PendingAu.store_markerSeq] at hx
      exact h.owned x (.inr hx)
  · rcases mem_parts_store he with rfl | he
    · rfl
    · exact h.payload e he
  · rw [PendingAu.store_markerSeq]
    exact h.marker
  · rw [PendingAu.store_markerSeq]
    intro m hm x hx
    rcases hkeys x hx with rfl | hx
    · exact hupto m hm
    · exact h.below m hm x hx
  · rw [PendingAu.store_markerSeq]
    intro x hx j hend
    rcases hkeys x hx with rfl | hx
    · -- The packet would be the last of its own sample.
      have hsame := Stream.owns_unique hq (hend ▸ Stream.owns_end j)
      rw [hsame] at hnot
      exact absurd hend hnot
    · exact h.closed x hx j hend

/-- Which parts are left of a unit that is cut, and which are behind the cut. -/
theorem mem_split {T : Type} {u w : PendingAu T} (hw : w ∈ u.split q) :
    w = { u with markerSeq := some q, parts := u.parts.filter fun e ↦ decide (e.1 ≤ q) } ∨
      w = ⟨u.timestamp, u.parts.filter fun e ↦ decide (q < e.1),
        u.markerSeq.filter fun e ↦ decide (q < e), u.blockedSince, false⟩ ∧
        ∃ e ∈ u.parts, q < e.1 := by
  unfold PendingAu.split at hw
  rcases List.mem_cons.mp hw with rfl | hw
  · exact .inl rfl
  · split at hw
    · exact absurd hw List.not_mem_nil
    · next htail =>
      refine .inr ⟨List.mem_singleton.mp hw, ?_⟩
      rw [List.isEmpty_iff] at htail
      obtain ⟨e, he⟩ := List.exists_mem_of_ne_nil _ htail
      obtain ⟨he, hlt⟩ := List.mem_filter.mp he
      exact ⟨e, he, by simpa using hlt⟩

/-- What became of a unit that a packet went into: one unit, or two around the packet. -/
def unitsOf (u : PendingAu Int) (q : Int) (marker : Bool) (payload : Bytes) :
    List (PendingAu Int) :=
  if marker then (u.store q payload).split q else [u.store q payload]

/-- They speak of no other packets, at the same timestamp. -/
theorem holds_of_mem_unitsOf {marker : Bool} (hw : w ∈ unitsOf u q marker payload) :
    w.timestamp = u.timestamp ∧ ∀ x, w.Holds x → x = q ∨ u.Holds x := by
  have hparts : ∀ e ∈ (u.store q payload).parts, e.1 = q ∨ e.1 ∈ u.parts.map Prod.fst :=
    fun e he ↦ (mem_parts_store he).imp (fun h ↦ by rw [h]) List.mem_map_of_mem
  unfold unitsOf at hw
  cases marker with
  | false =>
    obtain rfl := List.mem_singleton.mp hw
    refine ⟨PendingAu.store_timestamp _ _ _, fun x hx ↦ ?_⟩
    rcases hx with hx | hx
    · obtain ⟨e, he, rfl⟩ := List.mem_map.mp hx
      exact (hparts e he).imp (fun h ↦ h) .inl
    · rw [PendingAu.store_markerSeq] at hx
      exact .inr (.inr hx)
  | true =>
    rcases mem_split hw with rfl | ⟨rfl, -⟩
    · refine ⟨PendingAu.store_timestamp _ _ _, fun x hx ↦ ?_⟩
      rcases hx with hx | hx
      · obtain ⟨e, he, rfl⟩ := List.mem_map.mp hx
        exact (hparts e (List.mem_filter.mp he).1).imp (fun h ↦ h) .inl
      · exact .inl (Option.some.inj hx).symm
    · refine ⟨PendingAu.store_timestamp _ _ _, fun x hx ↦ ?_⟩
      rcases hx with hx | hx
      · obtain ⟨e, he, rfl⟩ := List.mem_map.mp hx
        exact (hparts e (List.mem_filter.mp he).1).imp (fun h ↦ h) .inl
      · rw [PendingAu.store_markerSeq] at hx
        exact .inr (.inr (Option.filter_eq_some_iff.mp hx).1)

/-- A unit in which the last packet of a sample was found ends there; what is behind it is a unit
that fits, too. -/
theorem fits_split (h : Fits S u) (hq : S.Owns k q) (htime : u.timestamp = S.time k)
    (hupto : ∀ m ∈ u.markerSeq, q ≤ m) (hend : q = S.ends (k + 1))
    (hw : w ∈ (u.store q (S.payload q)).split q) : Fits S w := by
  have hkeys : ∀ e ∈ (u.store q (S.payload q)).parts,
      e = (q, S.payload q) ∨ e ∈ u.parts := fun e he ↦ mem_parts_store he
  have hfilter : ∀ p : Int × Bytes → Bool,
      (((u.store q (S.payload q)).parts.filter p).map Prod.fst).Pairwise (· < ·) := fun p ↦
    (sorted_store h.sorted).sublist (List.filter_sublist.map _)
  have hpayload : ∀ e ∈ (u.store q (S.payload q)).parts, e.2 = S.payload e.1 := fun e he ↦ by
    rcases hkeys e he with rfl | he
    · rfl
    · exact h.payload e he
  have howned : ∀ e ∈ (u.store q (S.payload q)).parts,
      ∃ j, S.Owns j e.1 ∧ S.time j = u.timestamp := fun e he ↦ by
    rcases hkeys e he with rfl | he
    · exact ⟨k, hq, htime.symm⟩
    · exact h.owned e.1 (.inl (List.mem_map_of_mem he))
  rcases mem_split hw with rfl | ⟨rfl, -⟩
  · refine ⟨hfilter _, fun x hx ↦ ?_, fun e he ↦ hpayload e (List.mem_filter.mp he).1, ?_, ?_, ?_⟩
    · simp only [PendingAu.store_timestamp]
      rcases hx with hx | hx
      · obtain ⟨e, he, rfl⟩ := List.mem_map.mp hx
        exact howned e (List.mem_filter.mp he).1
      · obtain rfl : q = x := Option.some.inj hx
        exact ⟨k, hq, htime.symm⟩
    · intro m hm
      obtain rfl : q = m := Option.some.inj hm
      exact ⟨k, hend⟩
    · intro m hm x hx
      obtain rfl : q = m := Option.some.inj hm
      obtain ⟨e, he, rfl⟩ := List.mem_map.mp hx
      simpa using (List.mem_filter.mp he).2
    · intro x hx j hlast
      obtain ⟨e, he, rfl⟩ := List.mem_map.mp hx
      obtain ⟨he, hle⟩ := List.mem_filter.mp he
      have hle : e.1 ≤ q := by simpa using hle
      rcases hkeys e he with rfl | he
      · rfl
      · -- Another marker in the unit was its marker, and the packet is not behind it.
        have hmarker := h.closed e.1 (List.mem_map_of_mem he) j hlast
        have hge := hupto e.1 hmarker
        exact congrArg some (le_antisymm hge hle)
  · refine ⟨hfilter _, fun x hx ↦ ?_, fun e he ↦ hpayload e (List.mem_filter.mp he).1, ?_, ?_, ?_⟩
    · simp only [PendingAu.store_timestamp]
      rcases hx with hx | hx
      · obtain ⟨e, he, rfl⟩ := List.mem_map.mp hx
        exact howned e (List.mem_filter.mp he).1
      · rw [PendingAu.store_markerSeq] at hx
        exact h.owned x (.inr (Option.filter_eq_some_iff.mp hx).1)
    · intro m hm
      rw [PendingAu.store_markerSeq] at hm
      exact h.marker m (Option.filter_eq_some_iff.mp hm).1
    · intro m hm x hx
      rw [PendingAu.store_markerSeq] at hm
      obtain ⟨hm, hlt⟩ := Option.filter_eq_some_iff.mp hm
      obtain ⟨e, he, rfl⟩ := List.mem_map.mp hx
      rcases hkeys e (List.mem_filter.mp he).1 with rfl | he
      · exact (by simpa using hlt : q < m).le
      · exact h.below m hm e.1 (List.mem_map_of_mem he)
    · intro x hx j hlast
      obtain ⟨e, he, rfl⟩ := List.mem_map.mp hx
      obtain ⟨he, hlt⟩ := List.mem_filter.mp he
      have hlt : q < e.1 := by simpa using hlt
      rw [PendingAu.store_markerSeq, Option.filter_eq_some_iff]
      rcases hkeys e he with rfl | he
      · exact absurd hlt (lt_irrefl q)
      · exact ⟨h.closed e.1 (List.mem_map_of_mem he) j hlast, by simpa using hlt⟩

/-- They fit, one is in front of the other, and if the unit had a marker they have one each. -/
theorem unitsOf_spec (h : Fits S u) (hq : S.Owns k q) (htime : u.timestamp = S.time k)
    (hupto : ∀ m ∈ u.markerSeq, q ≤ m) :
    (∀ w ∈ unitsOf u q (decide (q = S.ends (k + 1))) (S.payload q), Fits S w ∧
      (u.markerSeq ≠ none → w.markerSeq ≠ none)) ∧
      (unitsOf u q (decide (q = S.ends (k + 1))) (S.payload q)).Pairwise Before := by
  by_cases hend : q = S.ends (k + 1)
  · rw [unitsOf, decide_eq_true hend, if_pos rfl]
    refine ⟨fun w hw ↦ ⟨fits_split h hq htime hupto hend hw, fun hmarker ↦ ?_⟩, ?_⟩
    · rcases mem_split hw with rfl | ⟨rfl, e, he, hlt⟩
      · exact Option.some_ne_none _
      · obtain ⟨m, hm⟩ := Option.ne_none_iff_exists'.mp hmarker
        rcases mem_parts_store he with rfl | he
        · exact absurd hlt (lt_irrefl q)
        · have hle := h.below m hm e.1 (List.mem_map_of_mem he)
          simp [PendingAu.store_markerSeq, hm, hlt.trans_le hle]
    · unfold PendingAu.split
      refine List.pairwise_cons.mpr ⟨fun w hw ↦ ?_, ?_⟩
      · split at hw
        · exact absurd hw List.not_mem_nil
        · obtain rfl := List.mem_singleton.mp hw
          refine ⟨fun x y hx hy ↦ ?_, le_refl _, fun _ ↦ Option.some_ne_none _⟩
          have hxq : x ≤ q := by
            rcases hx with hx | hx
            · obtain ⟨e, he, rfl⟩ := List.mem_map.mp hx
              simpa using (List.mem_filter.mp he).2
            · exact (Option.some.inj hx).ge
          have hqy : q < y := by
            rcases hy with hy | hy
            · obtain ⟨e, he, rfl⟩ := List.mem_map.mp hy
              simpa using (List.mem_filter.mp he).2
            · simpa using (Option.filter_eq_some_iff.mp hy).2
          exact hxq.trans_lt hqy
      · split
        · exact List.Pairwise.nil
        · exact List.pairwise_singleton _ _
  · rw [unitsOf, decide_eq_false hend, if_neg Bool.false_ne_true]
    refine ⟨fun w hw ↦ ?_, List.pairwise_singleton _ _⟩
    obtain rfl := List.mem_singleton.mp hw
    refine ⟨h.store hq htime hupto hend, fun hmarker ↦ ?_⟩
    rw [PendingAu.store_markerSeq]
    exact hmarker

end Put

/-! ### The queue -/

/-- A timestamp that does not wrap is newer than another. -/
def later (a b : Int) : Bool := decide (b < a)

/-- The queue holds units of the stream, one in front of the other, none newer than the newest
timestamp and all behind the anchor, which is the end of a sample. -/
structure Ordered (S : Stream) (s : Assembler Int) : Prop where
  fits : ∀ u ∈ s.pending, Fits S u
  order : s.pending.Pairwise Before
  newest : ∀ u ∈ s.pending, ∃ n ∈ s.newestTimestamp, u.timestamp ≤ n
  anchor : ∀ e ∈ s.prevEnd, ∃ k, e = S.ends k ∧
    ∀ j < k, ∃ n ∈ s.newestTimestamp, S.time j ≤ n
  behind : ∀ e ∈ s.prevEnd, ∀ u ∈ s.pending, ∀ x, u.Holds x → e < x

section Enter

variable {k : Nat} {s s' : Assembler Int} {pos now : Nat}

/-- What is in a unit of an older timestamp is before the packet. -/
theorem Fits.lt_of_older (h : Fits S v) (hq : S.Owns k q) (htime : v.timestamp < S.time k)
    (hx : v.Holds x) : x < q := by
  obtain ⟨j, hj, htj⟩ := h.owned x hx
  exact Stream.lt_of_owns hj hq (Stream.lt_of_time_lt (htj ▸ htime))

/-- What is in a unit of a newer timestamp is behind the packet. -/
theorem Fits.lt_of_newer (h : Fits S v) (hq : S.Owns k q) (htime : S.time k < v.timestamp)
    (hx : v.Holds x) : q < x := by
  obtain ⟨j, hj, htj⟩ := h.owned x hx
  exact Stream.lt_of_owns hq hj (Stream.lt_of_time_lt (htj ▸ htime))

/-- What is in a unit whose marker is before the packet is before it. -/
theorem Fits.lt_of_marker (h : Fits S v) {m : Int} (hm : v.markerSeq = some m) (hlt : m < q)
    (hx : v.Holds x) : x < q := by
  rcases hx with hx | hx
  · exact (h.below m hm x hx).trans_lt hlt
  · rw [hm] at hx
    exact Option.some.inj hx ▸ hlt

/-- A unit, and that the packet belongs into it: behind all that is before the unit, before all
that is behind it, and not behind its marker. -/
structure Home (S : Stream) (s : Assembler Int) (k : Nat) (q : Int)
    (before : List (PendingAu Int)) (u : PendingAu Int) (after : List (PendingAu Int)) :
    Prop where
  pending : s.pending = before ++ u :: after
  time : u.timestamp = S.time k
  earlier : ∀ v ∈ before, ∀ x, v.Holds x → x < q
  upto : ∀ m ∈ u.markerSeq, q ≤ m
  later : ∀ v ∈ after, ∀ y, v.Holds y → q < y
  anchored : ∀ e ∈ s.prevEnd, e < q

/-- A unit that was found is the home of the packet. -/
theorem Ordered.home_of_position (h : Ordered S s) (hq : S.Owns k q)
    (hpos : pendingPosition (S.time k) q s.prevEnd s.pending = some pos) :
    ∃ before u after, before.length = pos ∧ Home S s k q before u after := by
  obtain ⟨before, u, after, hpending, hlen, hu, hlow, hup, hbefore⟩ :=
    pendingPosition_eq_some h.behind h.order hpos
  have horder := h.order
  rw [hpending, List.pairwise_append, List.pairwise_cons] at horder
  obtain ⟨-, ⟨hafter, -⟩, hcross⟩ := horder
  have hfits : ∀ v ∈ before ++ u :: after, Fits S v := hpending ▸ h.fits
  refine ⟨before, u, after, hlen, hpending, hu, fun v hv x hx ↦ ?_, hup, fun v hv y hy ↦ ?_, hlow⟩
  · have hvu := hcross v hv u List.mem_cons_self
    have hv' := hfits v (List.mem_append_left _ hv)
    rcases hvu.time.lt_or_eq with hlt | heq
    · exact hv'.lt_of_older hq (hu ▸ hlt) hx
    · obtain ⟨m, hm⟩ := Option.ne_none_iff_exists'.mp (hvu.apart heq)
      exact hv'.lt_of_marker hm (hbefore v hv (heq.trans hu) m hm) hx
  · have huv := hafter v hv
    have hv' := hfits v (List.mem_append_right _ (List.mem_cons_of_mem _ hv))
    rcases huv.time.lt_or_eq with hlt | heq
    · exact hv'.lt_of_newer hq (hu ▸ hlt) hy
    · obtain ⟨m, hm⟩ := Option.ne_none_iff_exists'.mp (huv.apart heq)
      exact (hup m hm).trans_lt (huv.lt m y (.inr hm) hy)

/-- A place for a new unit: everything older, and every unit of the timestamp, is before it and
everything newer behind. -/
structure Slot (S : Stream) (s : Assembler Int) (k : Nat) (q : Int)
    (before after : List (PendingAu Int)) : Prop where
  pending : s.pending = before ++ after
  older : ∀ v ∈ before, v.timestamp ≤ S.time k
  newer : ∀ v ∈ after, S.time k < v.timestamp
  anchored : ∀ e ∈ s.prevEnd, e < q
  fresh : s.prevEnd ≠ none ∨ ∀ n ∈ s.newestTimestamp, n < S.time k

/-- A packet for which a unit is made gets it there. -/
theorem Ordered.slot_spec (h : Ordered S s) (hq : S.Owns k q) {blocked : Option Nat}
    (hslot : s.slot later q (S.time k) now = some (pos, blocked)) :
    ∃ before after, before.length = pos ∧ Slot S s k q before after := by
  unfold Assembler.slot at hslot
  cases hnewest : s.newestTimestamp with
  | none =>
    have hempty : s.pending = [] := by
      refine List.eq_nil_iff_forall_not_mem.mpr fun u hu ↦ ?_
      obtain ⟨n, hn, -⟩ := h.newest u hu
      rw [hnewest] at hn
      cases hn
    have hnone : ∀ e ∈ s.prevEnd, e < q := fun e he ↦ by
      obtain ⟨j, rfl, hj⟩ := h.anchor e he
      cases j with
      | zero => exact (S.ends_mono (Nat.zero_le k)).trans_lt hq.1
      | succ j =>
        obtain ⟨n, hn, -⟩ := hj j (Nat.lt_succ_self j)
        rw [hnewest] at hn
        cases hn
    simp only [hnewest, Option.some.injEq, Prod.mk.injEq] at hslot
    refine ⟨[], [], ?_, by simp [hempty], by simp, by simp, hnone, .inr (by simp [hnewest])⟩
    rw [← hslot.1, hempty]
  | some newest =>
    simp only [hnewest] at hslot
    have holder : ∀ u ∈ s.pending, u.timestamp ≤ newest := fun u hu ↦ by
      obtain ⟨n, hn, hle⟩ := h.newest u hu
      rw [hnewest] at hn
      exact Option.some.inj hn ▸ hle
    split at hslot
    · next heq =>
      split at hslot
      · cases hslot
      · next e he =>
        split at hslot
        · cases hslot
        · next hlt =>
          simp only [Option.some.injEq, Prod.mk.injEq] at hslot
          refine ⟨s.pending, [], hslot.1, by simp, fun v hv ↦ heq ▸ holder v hv, by simp, ?_,
            .inl (by simp [he])⟩
          intro e' he'
          rw [he] at he'
          exact Option.some.inj he' ▸ not_le.mp hlt
    · split at hslot
      · next hlater =>
        have hlater : newest < S.time k := by simpa [later] using hlater
        simp only [Option.some.injEq, Prod.mk.injEq] at hslot
        refine ⟨s.pending, [], hslot.1, by simp, fun v hv ↦ (holder v hv).trans hlater.le, by simp,
          fun e he ↦ ?_, .inr fun n hn ↦ ?_⟩
        · -- The anchor is the end of a sample that is not newer than the newest.
          obtain ⟨j, rfl, hj⟩ := h.anchor e he
          have hjk : j ≤ k := by
            cases j with
            | zero => exact Nat.zero_le k
            | succ j =>
              obtain ⟨n, hn, hle⟩ := hj j (Nat.lt_succ_self j)
              rw [hnewest] at hn
              obtain rfl := Option.some.inj hn
              exact Stream.lt_of_time_lt (hle.trans_lt hlater)
          exact (S.ends_mono hjk).trans_lt hq.1
        · rw [hnewest] at hn
          exact Option.some.inj hn ▸ hlater
      · simp only [Option.bind_eq_bind, Option.bind_eq_some_iff] at hslot
        obtain ⟨e, he, next, hnext, right, -, hslot⟩ := hslot
        generalize (if next = 0 then none else s.pending[next - 1]?) = left at hslot
        split at hslot
        · cases hslot
        · next hno =>
          simp only [Option.pure_def, Option.some.injEq, Prod.mk.injEq] at hslot
          obtain ⟨rfl, -⟩ := hslot
          obtain ⟨hlt, hfound, hbefore⟩ := List.findIdx?_eq_some_iff_getElem.mp hnext
          have hsplit := List.take_append_drop next s.pending
          have horder := h.order
          rw [← hsplit, List.pairwise_append] at horder
          refine ⟨s.pending.take next, s.pending.drop next, ?_, hsplit.symm, fun v hv ↦ ?_,
            fun v hv ↦ ?_, fun e' he' ↦ ?_, .inl (by simp [he])⟩
          · rw [List.length_take]
            omega
          · obtain ⟨i, hi, rfl⟩ := List.mem_iff_getElem.mp hv
            rw [List.length_take] at hi
            have hnot := hbefore i (by omega)
            rw [List.getElem_take]
            simpa [later] using hnot
          · have hfirst : S.time k < s.pending[next].timestamp := by simpa [later] using hfound
            rw [List.drop_eq_getElem_cons hlt] at hv horder
            rcases List.mem_cons.mp hv with rfl | hv
            · exact hfirst
            · exact hfirst.trans_le ((List.pairwise_cons.mp horder.2.1).1 v hv).time
          · rw [he] at he'
            obtain rfl := Option.some.inj he'
            exact not_le.mp fun hle ↦ hno (.inl hle)

/-- Insertion at the seam of two lists. -/
theorem insertIdx_append {α : Type} (before after : List α) (a : α) :
    (before ++ after).insertIdx before.length a = before ++ a :: after := by
  induction before with
  | nil => simp
  | cons b before ih => simpa using ih

/-- What an admitted packet may have changed: nothing but the newest timestamp and a unit that is
empty still. -/
structure Admitted (S : Stream) (s s' : Assembler Int) (k : Nat) : Prop where
  ordered : Ordered S s'
  prevEnd : s'.prevEnd = s.prevEnd
  gapOpen : s'.gapOpen = s.gapOpen
  newest : ∀ n ∈ s.newestTimestamp, ∃ n' ∈ s'.newestTimestamp, n ≤ n'
  times : ∀ v ∈ s'.pending, (∃ w ∈ s.pending, w.timestamp = v.timestamp) ∨
    v.timestamp = S.time k ∧ ((∃ e ∈ s.prevEnd, e < S.ends (k + 1)) ∨
      ∀ n ∈ s.newestTimestamp, n < S.time k)

/-- A unit that is empty still. -/
def emptyAu (ts : Int) (blocked : Option Nat) : PendingAu Int where
  timestamp := ts
  parts := []
  markerSeq := none
  blockedSince := blocked
  overflowed := false

theorem not_holds_emptyAu (ts : Int) (blocked : Option Nat) (x : Int) :
    ¬ (emptyAu ts blocked).Holds x := by
  simp [PendingAu.Holds, emptyAu]

theorem fits_emptyAu (S : Stream) (ts : Int) (blocked : Option Nat) :
    Fits S (emptyAu ts blocked) where
  sorted := List.Pairwise.nil
  owned := fun x hx ↦ absurd hx (not_holds_emptyAu ts blocked x)
  payload := fun _ he ↦ absurd he List.not_mem_nil
  marker := fun _ hm ↦ absurd hm.symm (Option.some_ne_none _)
  below := fun _ hm ↦ absurd hm.symm (Option.some_ne_none _)
  closed := fun _ hx ↦ absurd hx List.not_mem_nil

/-- Where no unit owns the packet, an empty unit in its slot keeps the queue ordered and is the
packet's home. -/
theorem Slot.insert {before after : List (PendingAu Int)} (hslot : Slot S s k q before after)
    (h : Ordered S s) (hq : S.Owns k q)
    (hnone : pendingPosition (S.time k) q s.prevEnd s.pending = none) {blocked : Option Nat}
    (hs' : s' = { s with
      newestTimestamp :=
        if ∀ n ∈ s.newestTimestamp, later (S.time k) n then some (S.time k)
        else s.newestTimestamp
      pending := before ++ emptyAu (S.time k) blocked :: after }) :
    Admitted S s s' k ∧ Home S s' k q before (emptyAu (S.time k) blocked) after := by
  have hmarked := pendingPosition_eq_none hslot.anchored hnone
  have hfits : ∀ v ∈ before ++ after, Fits S v := hslot.pending ▸ h.fits
  have hbefore : ∀ v ∈ before, v ∈ s.pending := fun v hv ↦ by
    rw [hslot.pending]
    exact List.mem_append_left _ hv
  have hafter : ∀ v ∈ after, v ∈ s.pending := fun v hv ↦ by
    rw [hslot.pending]
    exact List.mem_append_right _ hv
  have hold : ∀ v ∈ s'.pending, v ∈ s.pending ∨ v = emptyAu (S.time k) blocked := by
    rw [hs']
    intro v hv
    rcases List.mem_append.mp hv with hv | hv
    · exact .inl (hbefore v hv)
    · rcases List.mem_cons.mp hv with hv | hv
      · exact .inr hv
      · exact .inl (hafter v hv)
  -- The newest timestamp is at least what it was, and at least the packet's.
  have hnewest : (∃ n ∈ s'.newestTimestamp, S.time k ≤ n) ∧
      ∀ n ∈ s.newestTimestamp, ∃ n' ∈ s'.newestTimestamp, n ≤ n' := by
    rw [hs']
    simp only
    split
    · next hall =>
      refine ⟨⟨_, rfl, le_refl _⟩, fun n hn ↦ ⟨_, rfl, ?_⟩⟩
      have hlt : n < S.time k := by simpa [later] using hall n hn
      exact hlt.le
    · next hnot =>
      refine ⟨?_, fun n hn ↦ ⟨n, hn, le_refl _⟩⟩
      obtain ⟨n, hn, hle⟩ : ∃ n ∈ s.newestTimestamp, ¬ n < S.time k := by
        simpa [later] using hnot
      exact ⟨n, hn, not_lt.mp hle⟩
  have horder := h.order
  rw [hslot.pending, List.pairwise_append] at horder
  obtain ⟨hobefore, hoafter, hcross⟩ := horder
  have hempty := not_holds_emptyAu (S.time k) blocked
  refine ⟨⟨⟨fun v hv ↦ ?_, ?_, fun v hv ↦ ?_, fun e he ↦ ?_, fun e he v hv x hx ↦ ?_⟩, ?_, ?_,
    hnewest.2, fun v hv ↦ ?_⟩, ?_⟩
  · rcases hold v hv with hv | rfl
    · exact h.fits v hv
    · exact fits_emptyAu S _ _
  · rw [hs']
    refine List.pairwise_append.mpr ⟨hobefore, List.pairwise_cons.mpr ⟨fun v hv ↦ ?_, hoafter⟩,
      fun v hv w hw ↦ ?_⟩
    · have hlt := hslot.newer v hv
      exact ⟨fun x y hx _ ↦ absurd hx (hempty x), hlt.le, fun heq ↦ absurd heq hlt.ne⟩
    · rcases List.mem_cons.mp hw with rfl | hw
      · refine ⟨fun x y _ hy ↦ absurd hy (hempty y), hslot.older v hv, fun heq ↦ ?_⟩
        obtain ⟨m, hm, -⟩ := hmarked v (hbefore v hv) heq
        rw [hm]
        exact Option.some_ne_none m
      · exact hcross v hv w hw
  · rcases hold v hv with hv | rfl
    · obtain ⟨n, hn, hle⟩ := h.newest v hv
      obtain ⟨n', hn', hle'⟩ := hnewest.2 n hn
      exact ⟨n', hn', hle.trans hle'⟩
    · exact hnewest.1
  · have he : e ∈ s.prevEnd := by rwa [hs'] at he
    obtain ⟨j, hej, hj⟩ := h.anchor e he
    refine ⟨j, hej, fun i hi ↦ ?_⟩
    obtain ⟨n, hn, hle⟩ := hj i hi
    obtain ⟨n', hn', hle'⟩ := hnewest.2 n hn
    exact ⟨n', hn', hle.trans hle'⟩
  · have he : e ∈ s.prevEnd := by rwa [hs'] at he
    rcases hold v hv with hv | rfl
    · exact h.behind e he v hv x hx
    · exact absurd hx (hempty x)
  · rw [hs']
  · rw [hs']
  · rcases hold v hv with hv | rfl
    · exact .inl ⟨v, hv, rfl⟩
    · refine .inr ⟨rfl, hslot.fresh.imp_left fun hne ↦ ?_⟩
      obtain ⟨e, he⟩ := Option.ne_none_iff_exists'.mp hne
      exact ⟨e, he, (hslot.anchored e he).trans_le hq.2⟩
  · refine ⟨by rw [hs'], rfl, fun v hv x hx ↦ ?_, by simp [emptyAu], fun v hv y hy ↦ ?_, ?_⟩
    · rcases (hslot.older v hv).lt_or_eq with hlt | heq
      · exact (h.fits v (hbefore v hv)).lt_of_older hq hlt hx
      · obtain ⟨m, hm, hlt⟩ := hmarked v (hbefore v hv) heq
        exact (h.fits v (hbefore v hv)).lt_of_marker hm hlt hx
    · exact (h.fits v (hafter v hv)).lt_of_newer hq (hslot.newer v hv) hy
    · rw [hs']
      exact hslot.anchored

/-- A packet that is admitted has a home. -/
theorem Ordered.enter_spec (h : Ordered S s) (hq : S.Owns k q)
    (henter : s.enter later q (S.time k) now = some (s', pos)) :
    Admitted S s s' k ∧ ∃ before u after, before.length = pos ∧ Home S s' k q before u after := by
  unfold Assembler.enter at henter
  cases hposition : pendingPosition (S.time k) q s.prevEnd s.pending with
  | some pos' =>
    simp only [hposition, Option.some.injEq, Prod.mk.injEq] at henter
    obtain ⟨rfl, rfl⟩ := henter
    exact ⟨⟨h, rfl, rfl, fun n hn ↦ ⟨n, hn, le_refl _⟩, fun v hv ↦ .inl ⟨v, hv, rfl⟩⟩,
      h.home_of_position hq hposition⟩
  | none =>
    simp only [hposition, Option.bind_eq_bind, Option.bind_eq_some_iff] at henter
    obtain ⟨⟨insertAt, blocked⟩, hslot, henter⟩ := henter
    simp only [Option.pure_def, Option.some.injEq, Prod.mk.injEq] at henter
    obtain ⟨hs', rfl⟩ := henter
    obtain ⟨before, after, hlen, hslot⟩ := h.slot_spec hq hslot
    have hpending : s.pending.insertIdx insertAt (emptyAu (S.time k) blocked) =
        before ++ emptyAu (S.time k) blocked :: after := by
      rw [hslot.pending, ← hlen, insertIdx_append]
    obtain ⟨hadmitted, hhome⟩ : Admitted S s s' k ∧
        Home S s' k q before (emptyAu (S.time k) blocked) after :=
      hslot.insert h hq hposition (by rw [← hs', ← hpending]; rfl)
    exact ⟨hadmitted, before, _, after, hlen, hhome⟩

/-- A packet is put into its home. -/
theorem Home.put {before after : List (PendingAu Int)} (hhome : Home S s k q before u after)
    (marker : Bool) (payload : Bytes) :
    s.put before.length q marker payload =
      { s with pending := before ++ unitsOf u q marker payload ++ after } := by
  have hget : s.pending[before.length]? = some u := by
    rw [hhome.pending]
    simp
  unfold Assembler.put
  simp only [hget, unitsOf]
  rw [hhome.pending]
  simp

/-- The queue stays ordered. -/
theorem Home.ordered {before after : List (PendingAu Int)} (hhome : Home S s k q before u after)
    (h : Ordered S s) (hq : S.Owns k q) :
    Ordered S { s with
      pending := before ++ unitsOf u q (decide (q = S.ends (k + 1))) (S.payload q) ++ after } := by
  have hmem : ∀ v, v ∈ before ∨ v = u ∨ v ∈ after → v ∈ s.pending := fun v hv ↦ by
    rw [hhome.pending, List.mem_append, List.mem_cons]
    exact hv
  have hu := h.fits u (hmem u (.inr (.inl rfl)))
  obtain ⟨hunits, hpair⟩ := unitsOf_spec hu hq hhome.time hhome.upto
  have horder := h.order
  rw [hhome.pending, List.pairwise_append, List.pairwise_cons] at horder
  obtain ⟨hobefore, ⟨huafter, hoafter⟩, hcross⟩ := horder
  have hcases : ∀ v ∈ before ++ unitsOf u q (decide (q = S.ends (k + 1))) (S.payload q) ++ after,
      (v ∈ before ∨ v = u ∨ v ∈ after) ∨
        v ∈ unitsOf u q (decide (q = S.ends (k + 1))) (S.payload q) := by
    intro v hv
    rcases List.mem_append.mp hv with hv | hv
    · rcases List.mem_append.mp hv with hv | hv
      · exact .inl (.inl hv)
      · exact .inr hv
    · exact .inl (.inr (.inr hv))
  refine ⟨fun v hv ↦ ?_, ?_, fun v hv ↦ ?_, h.anchor, fun e he v hv x hx ↦ ?_⟩
  · rcases hcases v hv with hv | hv
    · exact h.fits v (hmem v hv)
    · exact (hunits v hv).1
  · refine List.pairwise_append.mpr ⟨List.pairwise_append.mpr ⟨hobefore, hpair, fun v hv w hw ↦ ?_⟩,
      hoafter, fun v hv w hw ↦ ?_⟩
    · have hvu := hcross v hv u List.mem_cons_self
      obtain ⟨htime, hholds⟩ := holds_of_mem_unitsOf hw
      refine ⟨fun x y hx hy ↦ ?_, htime ▸ hvu.time, fun heq ↦ hvu.apart (heq.trans htime)⟩
      rcases hholds y hy with rfl | hy
      · exact hhome.earlier v hv x hx
      · exact hvu.lt x y hx hy
    · rcases List.mem_append.mp hv with hv | hv
      · exact hcross v hv w (List.mem_cons_of_mem _ hw)
      · have huw := huafter w hw
        obtain ⟨htime, hholds⟩ := holds_of_mem_unitsOf hv
        refine ⟨fun x y hx hy ↦ ?_, htime ▸ huw.time, fun heq ↦
          (hunits v hv).2 (huw.apart (htime.symm.trans heq))⟩
        rcases hholds x hx with rfl | hx
        · exact hhome.later w hw y hy
        · exact huw.lt x y hx hy
  · rcases hcases v hv with hv | hv
    · exact h.newest v (hmem v hv)
    · rw [(holds_of_mem_unitsOf hv).1]
      exact h.newest u (hmem u (.inr (.inl rfl)))
  · rcases hcases v hv with hv | hv
    · exact h.behind e he v (hmem v hv) x hx
    · rcases (holds_of_mem_unitsOf hv).2 x hx with rfl | hx
      · exact hhome.anchored e he
      · exact h.behind e he u (hmem u (.inr (.inl rfl))) x hx

/-- A packet of the stream is stale or goes to its place. -/
theorem Ordered.place (h : Ordered S s) (hq : S.Owns k q) :
    Admitted S s
      (s.place later q (S.time k) (decide (q = S.ends (k + 1))) (S.payload q) now) k := by
  unfold Assembler.place
  cases henter : s.enter later q (S.time k) now with
  | none =>
    exact ⟨h, rfl, rfl, fun n hn ↦ ⟨n, hn, le_refl _⟩, fun v hv ↦ .inl ⟨v, hv, rfl⟩⟩
  | some r =>
    obtain ⟨s', pos⟩ := r
    obtain ⟨hadmitted, before, u, after, rfl, hhome⟩ := h.enter_spec hq henter
    simp only [hhome.put]
    refine ⟨hhome.ordered hadmitted.ordered hq, hadmitted.prevEnd, hadmitted.gapOpen,
      hadmitted.newest, fun v hv ↦ ?_⟩
    have hmem : ∀ v, v ∈ before ∨ v = u ∨ v ∈ after → v ∈ s'.pending := fun v hv ↦ by
      rw [hhome.pending, List.mem_append, List.mem_cons]
      exact hv
    rcases List.mem_append.mp hv with hv | hv
    · rcases List.mem_append.mp hv with hv | hv
      · exact hadmitted.times v (hmem v (.inl hv))
      · rw [(holds_of_mem_unitsOf hv).1]
        exact hadmitted.times u (hmem u (.inr (.inl rfl)))
    · exact hadmitted.times v (hmem v (.inr (.inr hv)))

end Enter

end MyOwnMesh.Video
