import MyOwnMesh.Video.Queue

/-!
# What is released from an ordered queue

A unit is whole when its packets are a stretch from its start to its marker. If the start is the
first packet of a sample, the unit is that sample: no marker is inside, because a marker that a
unit holds is its end. Whatever is taken out of the queue leaves it ordered behind the marker of
what was taken.
-/

namespace MyOwnMesh.Video

open Lib

variable {S : Stream} {depacketize : List Bytes → Option Bytes} {now : Nat}
  {au u v : PendingAu Int} {rest pending : List (PendingAu Int)} {prevEnd : Option Int}

/-! ### Clocks -/

/-- The clocks of holes do not matter for the order of the queue. -/
theorem Before.congr (h : Before u v) {u' v' : PendingAu Int} (hu : u'.parts = u.parts)
    (hum : u'.markerSeq = u.markerSeq) (hut : u'.timestamp = u.timestamp)
    (hv : v'.parts = v.parts) (hvm : v'.markerSeq = v.markerSeq)
    (hvt : v'.timestamp = v.timestamp) : Before u' v' := by
  refine ⟨fun x y hx hy ↦ h.lt x y ?_ ?_, ?_, ?_⟩
  · unfold PendingAu.Holds at hx ⊢
    rwa [hu, hum] at hx
  · unfold PendingAu.Holds at hy ⊢
    rwa [hv, hvm] at hy
  · rw [hut, hvt]
    exact h.time
  · rw [hut, hvt, hum]
    exact h.apart

/-- A unit and what is behind it, up to clocks. -/
theorem mem_startClocks {T : Type} {pending : List (PendingAu T)} {v : PendingAu T}
    (h : v ∈ startClocks now pending) :
    ∃ u ∈ pending, v.parts = u.parts ∧ v.markerSeq = u.markerSeq ∧ v.timestamp = u.timestamp ∧
      v.overflowed = u.overflowed ∧ (v.blockedSince = u.blockedSince ∨
        v.blockedSince = some (u.blockedSince.getD now)) := by
  induction pending with
  | nil => exact absurd h List.not_mem_nil
  | cons au rest ih =>
    rw [startClocks] at h
    rcases List.mem_cons.mp h with rfl | h
    · refine ⟨au, List.mem_cons_self, ?_⟩
      split
      · exact ⟨rfl, rfl, rfl, rfl, .inr rfl⟩
      · exact ⟨rfl, rfl, rfl, rfl, .inl rfl⟩
    · obtain ⟨u, hu, hsame⟩ := ih h
      exact ⟨u, List.mem_cons_of_mem _ hu, hsame⟩

theorem pairwise_startClocks (h : pending.Pairwise Before) :
    (startClocks now pending).Pairwise Before := by
  induction pending with
  | nil => exact List.Pairwise.nil
  | cons au rest ih =>
    obtain ⟨hfirst, hrest⟩ := List.pairwise_cons.mp h
    rw [startClocks]
    refine List.pairwise_cons.mpr ⟨fun v hv ↦ ?_, ih hrest⟩
    obtain ⟨u, hu, hparts, hmarker, htime, -⟩ := mem_startClocks hv
    split
    · exact (hfirst u hu).congr rfl rfl rfl hparts hmarker htime
    · exact (hfirst u hu).congr rfl rfl rfl hparts hmarker htime

/-- Starting clocks leaves the queue ordered. -/
theorem Ordered.startClocks {s : Assembler Int} (h : Ordered S s) :
    Ordered S { s with pending := Video.startClocks now s.pending } := by
  refine ⟨fun v hv ↦ ?_, pairwise_startClocks h.order, fun v hv ↦ ?_, h.anchor,
    fun e he v hv x hx ↦ ?_⟩
  · obtain ⟨u, hu, hparts, hmarker, htime, -⟩ := mem_startClocks hv
    exact (h.fits u hu).congr hparts hmarker htime
  · obtain ⟨u, hu, -, -, htime, -⟩ := mem_startClocks hv
    rw [htime]
    exact h.newest u hu
  · obtain ⟨u, hu, hparts, hmarker, -⟩ := mem_startClocks hv
    refine h.behind e he u hu x ?_
    unfold PendingAu.Holds at hx ⊢
    rwa [hparts, hmarker] at hx

/-- Only the clock of the front changes when it waits. -/
theorem Ordered.waiting {s : Assembler Int} (h : Ordered S s) (hpending : s.pending = au :: rest) :
    Ordered S { s with
      pending := (if au.observable rest then au.block now else au) :: rest } := by
  split
  · have hfirst : ∀ v ∈ au.block now :: rest, v = au.block now ∨ v ∈ s.pending := fun v hv ↦ by
      rw [hpending]
      exact (List.mem_cons.mp hv).imp_right (List.mem_cons_of_mem _)
    have hau : au ∈ s.pending := by simp [hpending]
    refine ⟨fun v hv ↦ ?_, ?_, fun v hv ↦ ?_, h.anchor, fun e he v hv ↦ ?_⟩
    · rcases hfirst v hv with rfl | hv
      · exact (h.fits au hau).congr rfl rfl rfl
      · exact h.fits v hv
    · have horder := h.order
      rw [hpending, List.pairwise_cons] at horder
      exact List.pairwise_cons.mpr
        ⟨fun v hv ↦ (horder.1 v hv).congr rfl rfl rfl rfl rfl rfl, horder.2⟩
    · rcases hfirst v hv with rfl | hv
      · exact h.newest au hau
      · exact h.newest v hv
    · rcases hfirst v hv with rfl | hv
      · exact h.behind e he au hau
      · exact h.behind e he v hv
  · rw [← hpending]
    exact h

/-! ### Whole units -/

/-- What it means for a unit to be whole. -/
theorem depacketizeIfComplete_eq {sample : VideoSample Int} {e : Int}
    (h : au.depacketizeIfComplete depacketize prevEnd = some (some (sample, e))) :
    au.markerSeq = some e ∧ ∃ start data, au.start prevEnd = some start ∧ start ≤ e ∧
      (e - start + 1).toNat ≤
        (au.parts.filter fun p ↦ decide (start ≤ p.1 ∧ p.1 ≤ e)).length ∧
      depacketize ((au.parts.filter fun p ↦ decide (start ≤ p.1 ∧ p.1 ≤ e)).map Prod.snd) =
        some data ∧ data ≠ [] ∧ sample = ⟨au.timestamp, auHasIdr data, 0, 0, data⟩ := by
  unfold PendingAu.depacketizeIfComplete at h
  split at h
  · next m start hm hstart =>
    simp only at h
    split at h
    · simp at h
    · next hle =>
      split at h
      · simp at h
      · next hlen =>
        split at h
        · cases h
        · next data hdata =>
          split at h
          · simp at h
          · next hne =>
            simp only [Option.some.injEq, Prod.mk.injEq] at h
            obtain ⟨rfl, rfl⟩ := h
            exact ⟨hm, start, data, hstart, not_lt.mp hle, not_lt.mp hlen, hdata,
              by simpa using hne, rfl⟩
  · simp at h

/-- A whole unit that starts with a sample is that sample. -/
theorem Fits.whole (h : Fits S au) {k : Nat} {e : Int} (hmarker : au.markerSeq = some e)
    (hle : S.ends k + 1 ≤ e)
    (hlen : (e - (S.ends k + 1) + 1).toNat ≤
      (au.parts.filter fun p ↦ decide (S.ends k + 1 ≤ p.1 ∧ p.1 ≤ e)).length) :
    e = S.ends (k + 1) ∧ au.timestamp = S.time k ∧
      (au.parts.filter fun p ↦ decide (S.ends k + 1 ≤ p.1 ∧ p.1 ≤ e)).map Prod.snd =
        S.payloads k := by
  obtain ⟨held, hheld⟩ : ∃ held, held =
    au.parts.filter fun p ↦ decide (S.ends k + 1 ≤ p.1 ∧ p.1 ≤ e) := ⟨_, rfl⟩
  rw [← hheld] at hlen ⊢
  have hsorted : (held.map Prod.fst).Pairwise (· < ·) := by
    rw [hheld]
    exact h.sorted.sublist (List.filter_sublist.map _)
  have hin : ∀ p ∈ held, p ∈ au.parts ∧ S.ends k < p.1 ∧ p.1 ≤ e := by
    intro p hp
    rw [hheld, List.mem_filter, decide_eq_true_eq] at hp
    exact ⟨hp.1, by omega, hp.2.2⟩
  -- There are as many as the stretch is long, so they are all of it.
  have hstretch : held.map Prod.fst = stretch (S.ends k) e := by
    refine eq_stretch_of_increasing hsorted (fun x hx ↦ ?_) ?_
    · obtain ⟨p, hp, rfl⟩ := List.mem_map.mp hx
      exact (hin p hp).2
    · rw [List.length_map]
      have hsame : e - (S.ends k + 1) + 1 = e - S.ends k := by omega
      rwa [hsame] at hlen
  obtain ⟨j, hj⟩ := h.marker e hmarker
  have hkj : k ≤ j := by
    have hlt : S.ends k < S.ends (j + 1) := by omega
    exact Nat.le_of_lt_succ (S.lt_of_ends_lt hlt)
  have hend : e = S.ends (k + 1) := by
    have hmem : S.ends (k + 1) ∈ held.map Prod.fst := by
      rw [hstretch, mem_stretch]
      refine ⟨S.ends_lt k, ?_⟩
      rw [hj]
      exact S.ends_mono (Nat.succ_le_succ hkj)
    obtain ⟨p, hp, hpk⟩ := List.mem_map.mp hmem
    have hclosed := h.closed p.1 (List.mem_map_of_mem (hin p hp).1) k hpk
    rw [hmarker, hpk] at hclosed
    exact Option.some.inj hclosed
  refine ⟨hend, ?_, ?_⟩
  · obtain ⟨i, hi, htime⟩ := h.owned e (.inr hmarker)
    rw [← htime, Stream.owns_unique hi (hend ▸ Stream.owns_end k)]
  · have hpayloads : held.map Prod.snd = (held.map Prod.fst).map S.payload := by
      rw [List.map_map]
      exact List.map_congr_left fun p hp ↦ h.payload p (hin p hp).1
    rw [hpayloads, hstretch, Stream.payloads, hend]

/-- A unit that is released and starts with a sample is that sample. -/
theorem Fits.released (h : Fits S au) {k : Nat} {sample : VideoSample Int} {e : Int}
    (hstart : au.start prevEnd = some (S.ends k + 1))
    (hdep : au.depacketizeIfComplete depacketize prevEnd = some (some (sample, e))) :
    au.markerSeq = some (S.ends (k + 1)) ∧ e = S.ends (k + 1) ∧ au.timestamp = S.time k ∧
      ∃ data, depacketize (S.payloads k) = some data ∧ data ≠ [] ∧
        sample = ⟨S.time k, auHasIdr data, 0, 0, data⟩ := by
  obtain ⟨hmarker, start, data, hstart', hle, hlen, hdata, hne, hsample⟩ :=
    depacketizeIfComplete_eq hdep
  obtain rfl : start = S.ends k + 1 := Option.some.inj (hstart'.symm.trans hstart)
  obtain ⟨hend, htime, hpayloads⟩ := h.whole hmarker hle hlen
  rw [hpayloads] at hdata
  exact ⟨hend ▸ hmarker, hend, htime, data, hdata, hne, htime ▸ hsample⟩

/-! ### Taking out the front -/

/-- What is left when the front is taken out is ordered behind its marker. -/
theorem Ordered.tail {s : Assembler Int} (h : Ordered S s) (hpending : s.pending = au :: rest)
    (gapOpen : Bool) : Ordered S { s with
      pending := rest, prevEnd := au.markerSeq, gapOpen := gapOpen } := by
  have hau : au ∈ s.pending := by simp [hpending]
  have hrest : ∀ v ∈ rest, v ∈ s.pending := fun v hv ↦ by simp [hpending, hv]
  have horder := h.order
  rw [hpending, List.pairwise_cons] at horder
  refine ⟨fun v hv ↦ h.fits v (hrest v hv), horder.2, fun v hv ↦ h.newest v (hrest v hv),
    fun e he ↦ ?_, fun e he v hv x hx ↦ ?_⟩
  · obtain ⟨k, hk⟩ := (h.fits au hau).marker e he
    refine ⟨k + 1, hk, fun j hj ↦ ?_⟩
    obtain ⟨n, hn, hle⟩ := h.newest au hau
    obtain ⟨i, hi, htime⟩ := (h.fits au hau).owned e (.inr he)
    have hik := Stream.owns_unique hi (hk ▸ Stream.owns_end k)
    refine ⟨n, hn, le_trans ?_ hle⟩
    rw [← htime, hik]
    exact S.time_mono (Nat.le_of_lt_succ hj)
  · exact (horder.1 v hv).lt e x (.inr he) hx

end MyOwnMesh.Video
