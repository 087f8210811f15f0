import MyOwnMesh.Video.Gathering
import MyOwnMesh.Video.Losses

/-!
# Reordering without loss

Behind an anchor, the packets of a continuation that is within the bounds of the assembler may
arrive in any order and any number of times: within the time that a hole waits, nothing is given
up, every sample is released as soon as it is whole and the ones before it are, and once all
packets are there nothing is left.
-/

namespace MyOwnMesh.Video

open Lib

variable {S : Stream} {depacketize : List Bytes → Option Bytes} {m start now j k : Nat}
  {au u v : PendingAu Int} {rest pending : List (PendingAu Int)} {s : Assembler Int}
  {Arrived : Int → Prop} {bytes : Nat → Bytes}

/-! ### Clocks -/

/-- Only clocks change, and they do not go back before the start. -/
theorem Gathered.congr (h : Gathered S m start s j Arrived) (hnow : start ≤ now)
    (hordered : Ordered S { s with pending := pending })
    (hforth : ∀ v ∈ pending, ∃ u ∈ s.pending, v.parts = u.parts ∧ v.markerSeq = u.markerSeq ∧
      v.timestamp = u.timestamp ∧ v.overflowed = u.overflowed ∧
      (v.blockedSince = u.blockedSince ∨ v.blockedSince = some (u.blockedSince.getD now)))
    (hback : ∀ u ∈ s.pending, ∃ v ∈ pending, v.parts = u.parts ∧ v.timestamp = u.timestamp) :
    Gathered S m start { s with pending := pending } j Arrived := by
  refine ⟨hordered, h.anchor, h.upto, h.whole, fun v hv ↦ ?_, ?_, fun q hq hlt ↦ ?_⟩
  · obtain ⟨u, hu, hparts, hmarker, -, hover, hclock⟩ := hforth v hv
    have htidy := h.tidy u hu
    refine ⟨hparts ▸ htidy.parts, hover ▸ htidy.room, fun x hx ↦ htidy.upto x ?_, fun t ht ↦ ?_⟩
    · unfold PendingAu.Holds at hx ⊢
      rwa [hparts, hmarker] at hx
    · rcases hclock with hclock | hclock
      · exact htidy.clock t (hclock ▸ ht)
      · rw [hclock] at ht
        obtain rfl := Option.some.inj ht
        cases hblocked : u.blockedSince with
        | none => exact hnow
        | some t => exact htidy.clock t hblocked
  · obtain ⟨n, hn, hnear, hnewest⟩ := h.newest
    refine ⟨n, hn, hnear, hnewest.imp_left ?_⟩
    rintro ⟨u, hu, hut⟩
    obtain ⟨v, hv, -, htime⟩ := hback u hu
    exact ⟨v, hv, htime.trans hut⟩
  · obtain ⟨u, hu, hqu⟩ := h.held q hq hlt
    obtain ⟨v, hv, hparts, -⟩ := hback u hu
    exact ⟨v, hv, hparts ▸ hqu⟩

theorem exists_mem_startClocks (hu : u ∈ pending) :
    ∃ v ∈ startClocks now pending, v.parts = u.parts ∧ v.timestamp = u.timestamp := by
  induction pending with
  | nil => exact absurd hu List.not_mem_nil
  | cons au rest ih =>
    rw [startClocks]
    rcases List.mem_cons.mp hu with rfl | hu
    · refine ⟨_, List.mem_cons_self, ?_⟩
      split <;> exact ⟨rfl, rfl⟩
    · obtain ⟨v, hv, hsame⟩ := ih hu
      exact ⟨v, List.mem_cons_of_mem _ hv, hsame⟩

theorem Gathered.startClocks (h : Gathered S m start s j Arrived) (hnow : start ≤ now) :
    Gathered S m start { s with pending := Video.startClocks now s.pending } j Arrived :=
  h.congr hnow h.ordered.startClocks (fun _ hv ↦ mem_startClocks hv)
    fun _ hu ↦ exists_mem_startClocks hu

theorem Gathered.waiting (h : Gathered S m start s j Arrived) (hnow : start ≤ now)
    (hpending : s.pending = au :: rest) :
    Gathered S m start { s with
      pending := (if au.observable rest then au.block now else au) :: rest } j Arrived := by
  refine h.congr hnow (h.ordered.waiting hpending) (fun v hv ↦ ?_) fun u hu ↦ ?_
  · rw [hpending]
    rcases List.mem_cons.mp hv with rfl | hv
    · refine ⟨au, List.mem_cons_self, ?_⟩
      split
      · exact ⟨rfl, rfl, rfl, rfl, .inr rfl⟩
      · exact ⟨rfl, rfl, rfl, rfl, .inl rfl⟩
    · exact ⟨v, List.mem_cons_of_mem _ hv, rfl, rfl, rfl, rfl, .inl rfl⟩
  · rw [hpending] at hu
    rcases List.mem_cons.mp hu with rfl | hu
    · refine ⟨_, List.mem_cons_self, ?_⟩
      split <;> exact ⟨rfl, rfl⟩
    · exact ⟨u, List.mem_cons_of_mem _ hu, rfl, rfl⟩

/-! ### Bounds -/

/-- The timestamps along an ordered queue, each once. -/
theorem exists_frames (horder : pending.Pairwise Before) (previous : Option Int)
    (hprevious : ∀ p ∈ previous, ∀ u ∈ pending, p ≤ u.timestamp) :
    ∃ l : List Int, l.length = pendingFrames previous pending ∧ l.Pairwise (· < ·) ∧
      (∀ p ∈ previous, ∀ t ∈ l, p < t) ∧ ∀ t ∈ l, ∃ u ∈ pending, u.timestamp = t := by
  induction pending generalizing previous with
  | nil => exact ⟨[], rfl, List.Pairwise.nil, by simp, by simp⟩
  | cons au rest ih =>
    obtain ⟨hfirst, hrest⟩ := List.pairwise_cons.mp horder
    rw [pendingFrames]
    split
    · next hsame =>
      obtain ⟨l, hlen, hsorted, habove, hmem⟩ := ih hrest previous fun p hp u hu ↦
        hprevious p hp u (List.mem_cons_of_mem _ hu)
      refine ⟨l, hlen, hsorted, habove, fun t ht ↦ ?_⟩
      obtain ⟨u, hu, hut⟩ := hmem t ht
      exact ⟨u, List.mem_cons_of_mem _ hu, hut⟩
    · next hnew =>
      obtain ⟨l, hlen, hsorted, habove, hmem⟩ := ih hrest (some au.timestamp) fun p hp u hu ↦
        Option.some.inj hp ▸ (hfirst u hu).time
      refine ⟨au.timestamp :: l, by rw [List.length_cons, hlen],
        List.pairwise_cons.mpr ⟨habove au.timestamp rfl, hsorted⟩, fun p hp t ht ↦ ?_,
        fun t ht ↦ ?_⟩
      · have hlt : p < au.timestamp := by
          refine lt_of_le_of_ne (hprevious p hp au List.mem_cons_self) fun heq ↦ hnew ?_
          rw [← heq]
          exact hp
        rcases List.mem_cons.mp ht with rfl | ht
        · exact hlt
        · exact hlt.trans (habove au.timestamp rfl t ht)
      · rcases List.mem_cons.mp ht with rfl | ht
        · exact ⟨au, List.mem_cons_self, rfl⟩
        · obtain ⟨u, hu, hut⟩ := hmem t ht
          exact ⟨u, List.mem_cons_of_mem _ hu, hut⟩

/-- A unit of the queue is of a sample of the continuation. -/
theorem Gathered.time_mem (h : Gathered S m start s j Arrived) (hu : u ∈ s.pending) :
    ∃ k < m, j ≤ k ∧ S.time k = u.timestamp := by
  obtain ⟨e, l, hparts⟩ := List.exists_cons_of_ne_nil (h.tidy u hu).parts
  have hmem : u.Holds e.1 := .inl (by simp [hparts])
  obtain ⟨k, hk, htime⟩ := (h.ordered.fits u hu).owned e.1 hmem
  obtain ⟨hlow, hhigh⟩ := h.holds hu hmem
  refine ⟨k, S.lt_of_ends_lt (hk.1.trans_le hhigh), ?_, htime⟩
  exact Nat.le_of_lt_succ (S.lt_of_ends_lt (hlow.trans_le hk.2))

theorem Gathered.frames_le (h : Gathered S m start s j Arrived) (hm : Continuation S m) :
    pendingFrames none s.pending ≤ maxPendingFrames := by
  obtain ⟨l, hlen, hsorted, -, hmem⟩ := exists_frames h.ordered.order none (by simp)
  have hnodup : l.Nodup := hsorted.imp fun hlt ↦ hlt.ne
  have hsubset : l.toFinset ⊆ (Finset.range m).image S.time := by
    intro t ht
    obtain ⟨u, hu, hut⟩ := hmem t (List.mem_toFinset.mp ht)
    obtain ⟨k, hk, -, htime⟩ := h.time_mem hu
    exact Finset.mem_image.mpr ⟨k, Finset.mem_range.mpr hk, htime.trans hut⟩
  calc pendingFrames none s.pending = l.toFinset.card := by
        rw [List.toFinset_card_of_nodup hnodup, hlen]
    _ ≤ ((Finset.range m).image S.time).card := Finset.card_le_card hsubset
    _ ≤ maxPendingFrames := hm.frames

theorem Gathered.parts_le (h : Gathered S m start s j Arrived) (hm : Continuation S m) :
    (s.pending.map fun u ↦ u.parts.length).sum ≤ maxPendingParts := by
  have hsorted : (s.pending.flatMap fun u ↦ u.parts.map Prod.fst).Pairwise (· < ·) :=
    List.pairwise_flatMap.mpr ⟨fun u hu ↦ (h.ordered.fits u hu).sorted,
      h.ordered.order.imp fun hbefore x hx y hy ↦ hbefore.lt x y (.inl hx) (.inl hy)⟩
  have hlow : S.ends 0 ≤ S.ends j := S.ends_mono (Nat.zero_le j)
  have hlen := length_le_of_increasing (a := S.ends 0) (b := S.ends m) hsorted fun x hx ↦ by
    obtain ⟨u, hu, hxu⟩ := List.mem_flatMap.mp hx
    have hin := h.holds hu (.inl hxu)
    exact ⟨hlow.trans_lt hin.1, hin.2⟩
  have hparts := hm.parts
  simp only [List.length_flatMap, List.length_map] at hlen
  have hbounds : maxAuParts ≤ maxPendingParts := by decide
  omega

/-- No bound is reached. -/
theorem Gathered.limitOf (h : Gathered S m start s j Arrived) (hm : Continuation S m)
    (hpending : s.pending = au :: rest) : limitOf au rest = none := by
  have hframes := h.frames_le hm
  have hparts := h.parts_le hm
  have hroom := (h.tidy au (by simp [hpending])).room
  rw [hpending] at hframes hparts
  rw [Video.limitOf, hroom, if_neg Bool.false_ne_true, if_neg (not_lt.mpr hparts),
    if_neg (not_lt.mpr hframes)]

/-! ### The front of the queue -/

/-- The packets of a unit from a start to an end. -/
def PendingAu.between (au : PendingAu Int) (start e : Int) : List (Int × Bytes) :=
  au.parts.filter fun p ↦ decide (start ≤ p.1 ∧ p.1 ≤ e)

theorem depacketizeIfComplete_of_whole {prevEnd : Option Int} {start e : Int}
    (hmarker : au.markerSeq = some e) (hstart : au.start prevEnd = some start) (hle : start ≤ e)
    (hlen : (e - start + 1).toNat ≤ (au.between start e).length) {data : Bytes}
    (hdata : depacketize ((au.between start e).map Prod.snd) = some data) (hne : data ≠ []) :
    au.depacketizeIfComplete depacketize prevEnd =
      some (some (⟨au.timestamp, auHasIdr data, 0, 0, data⟩, e)) := by
  have hempty : data.isEmpty = false := by simpa using hne
  unfold PendingAu.between at hlen hdata
  unfold PendingAu.depacketizeIfComplete
  simp only [hmarker, hstart, if_neg (not_lt.mpr hle), if_neg (not_lt.mpr hlen), hdata, hempty]
  rfl

theorem depacketizeIfComplete_of_hole {prevEnd : Option Int} {start : Int}
    (hstart : au.start prevEnd = some start)
    (hhole : ∀ e, au.markerSeq = some e → start ≤ e →
      (au.between start e).length < (e - start + 1).toNat) :
    au.depacketizeIfComplete depacketize prevEnd = some none := by
  unfold PendingAu.between at hhole
  unfold PendingAu.depacketizeIfComplete
  cases hmarker : au.markerSeq with
  | none => rfl
  | some e =>
    simp only [hstart]
    split
    · rfl
    · next hle =>
      rw [if_pos (hhole e hmarker (not_lt.mp hle))]

/-- If all packets of the sample behind the anchor are in the queue, they are in its front, with
their marker. -/
theorem Gathered.front_whole (h : Gathered S m start s j Arrived)
    (hpending : s.pending = au :: rest)
    (hall : ∀ q, S.ends j < q → q ≤ S.ends (j + 1) →
      ∃ u ∈ s.pending, q ∈ u.parts.map Prod.fst) :
    au.markerSeq = some (S.ends (j + 1)) ∧
      ∀ q, S.ends j < q → q ≤ S.ends (j + 1) → q ∈ au.parts.map Prod.fst := by
  have hau : au ∈ s.pending := by simp [hpending]
  have horder := h.ordered.order
  rw [hpending, List.pairwise_cons] at horder
  have hlt := S.ends_lt j
  have hcases : ∀ q, S.ends j < q → q ≤ S.ends (j + 1) → q ∈ au.parts.map Prod.fst ∨
      ∃ v ∈ rest, q ∈ v.parts.map Prod.fst := by
    intro q hlow hhigh
    obtain ⟨u, hu, hqu⟩ := hall q hlow hhigh
    rw [hpending] at hu
    rcases List.mem_cons.mp hu with rfl | hu
    · exact .inl hqu
    · exact .inr ⟨u, hu, hqu⟩
  -- The first packet behind the anchor is the first that there can be.
  have hfirst : S.ends j + 1 ∈ au.parts.map Prod.fst := by
    rcases hcases (S.ends j + 1) (by omega) (by omega) with hmem | ⟨v, hv, hqv⟩
    · exact hmem
    · obtain ⟨e, l, hparts⟩ := List.exists_cons_of_ne_nil (h.tidy au hau).parts
      have hmem : au.Holds e.1 := .inl (by simp [hparts])
      have hbelow := (horder.1 v hv).lt e.1 _ hmem (.inl hqv)
      have hbehind := (h.holds hau hmem).1
      omega
  have htime : au.timestamp = S.time j := by
    obtain ⟨i, hi, hti⟩ := (h.ordered.fits au hau).owned _ (.inl hfirst)
    have hj : S.Owns j (S.ends j + 1) := ⟨by omega, by omega⟩
    rw [← hti, Stream.owns_unique hi hj]
  -- The marker packet is in the front: a unit of its timestamp before it would end in between.
  have hlast : S.ends (j + 1) ∈ au.parts.map Prod.fst := by
    rcases hcases (S.ends (j + 1)) hlt (le_refl _) with hmem | ⟨v, hv, hqv⟩
    · exact hmem
    · have hvp : v ∈ s.pending := by simp [hpending, hv]
      obtain ⟨i, hi, hti⟩ := (h.ordered.fits v hvp).owned _ (.inl hqv)
      have hsame : au.timestamp = v.timestamp := by
        rw [htime, ← hti, Stream.owns_unique hi (Stream.owns_end j)]
      obtain ⟨e, he⟩ := Option.ne_none_iff_exists'.mp ((horder.1 v hv).apart hsame)
      obtain ⟨i', hi'⟩ := (h.ordered.fits au hau).marker e he
      have hbelow := (horder.1 v hv).lt e _ (.inr he) (.inl hqv)
      have hbehind := (h.holds hau (.inr he)).1
      rw [hi'] at hbelow hbehind
      have hlow := S.lt_of_ends_lt hbehind
      have hhigh := S.lt_of_ends_lt hbelow
      omega
  have hmarker := (h.ordered.fits au hau).closed _ hlast j rfl
  refine ⟨hmarker, fun q hlow hhigh ↦ (hcases q hlow hhigh).resolve_right ?_⟩
  rintro ⟨v, hv, hqv⟩
  exact absurd ((horder.1 v hv).lt _ q (.inr hmarker) (.inl hqv)) (not_lt.mpr hhigh)

/-- The front is released if it is the sample behind the anchor; otherwise a packet of that sample
is not there yet, and the front waits. -/
theorem Gathered.verdict (h : Gathered S m start s j Arrived) (hm : Continuation S m)
    (hbytes : ∀ k < m, depacketize (S.payloads k) = some (bytes k) ∧ bytes k ≠ [])
    (hnow : now < start + retransmitGrace) (hpending : s.pending = au :: rest) :
    (j < m ∧ au.markerSeq = some (S.ends (j + 1)) ∧ au.timestamp = S.time j ∧
      verdict depacketize now s.prevEnd au rest =
        .release ⟨S.time j, auHasIdr (bytes j), 0, 0, bytes j⟩ (S.ends (j + 1))) ∨
    (verdict depacketize now s.prevEnd au rest = .wait ∧
      ∃ q, S.ends j < q ∧ q ≤ S.ends (j + 1) ∧ ∀ u ∈ s.pending, q ∉ u.parts.map Prod.fst) := by
  have hau : au ∈ s.pending := by simp [hpending]
  have hroom := (h.tidy au hau).room
  have hstart : au.start s.prevEnd = some (S.ends j + 1) := by rw [h.anchor]; rfl
  have hlimit := h.limitOf hm hpending
  by_cases hwhole : ∃ e, au.markerSeq = some e ∧ S.ends j + 1 ≤ e ∧
      (e - (S.ends j + 1) + 1).toNat ≤ (au.between (S.ends j + 1) e).length
  · obtain ⟨e, hmarker, hle, hlen⟩ := hwhole
    obtain ⟨rfl, htime, hpayloads⟩ := (h.ordered.fits au hau).whole hmarker hle hlen
    have hjm : j < m :=
      S.lt_of_ends_lt ((S.ends_lt j).trans_le (h.holds hau (.inr hmarker)).2)
    obtain ⟨hdata, hne⟩ := hbytes j hjm
    have hdep := depacketizeIfComplete_of_whole hmarker hstart hle hlen
      (by unfold PendingAu.between; rw [hpayloads]; exact hdata) hne
    refine .inl ⟨hjm, hmarker, htime, ?_⟩
    simp only [Video.verdict, hroom, hdep, htime]
    rfl
  · have hdep : au.depacketizeIfComplete depacketize s.prevEnd = some none :=
      depacketizeIfComplete_of_hole hstart fun e hmarker hle ↦
        not_le.mp fun hlen ↦ hwhole ⟨e, hmarker, hle, hlen⟩
    refine .inr ⟨?_, ?_⟩
    · have hpatience : ¬ (au.observable rest = true ∧
          retransmitGrace ≤ now - au.blockedSince.getD now) := by
        rintro ⟨-, hge⟩
        cases hblocked : au.blockedSince with
        | none =>
          rw [hblocked, Option.getD_none, Nat.sub_self] at hge
          exact absurd hge (by decide)
        | some t =>
          have hclock := (h.tidy au hau).clock t hblocked
          rw [hblocked, Option.getD_some] at hge
          have hpos : 0 < retransmitGrace := by decide
          omega
      simp only [Video.verdict, hroom, hdep, hlimit, if_neg hpatience]
      rfl
    · by_contra hall
      have hall : ∀ q, S.ends j < q → q ≤ S.ends (j + 1) →
          ∃ u ∈ s.pending, q ∈ u.parts.map Prod.fst := by
        intro q hlow hhigh
        by_contra hnone
        exact hall ⟨q, hlow, hhigh, fun u hu hqu ↦ hnone ⟨u, hu, hqu⟩⟩
      obtain ⟨hmarker, hheld⟩ := h.front_whole hpending hall
      refine hwhole ⟨S.ends (j + 1), hmarker, S.ends_lt j, ?_⟩
      have hlen := length_le_of_stretch_subset (a := S.ends j) (b := S.ends (j + 1))
        (l := (au.between (S.ends j + 1) (S.ends (j + 1))).map Prod.fst) fun q hlow hhigh ↦ by
          obtain ⟨p, hp, rfl⟩ := List.mem_map.mp (hheld q hlow hhigh)
          exact List.mem_map_of_mem (List.mem_filter.mpr ⟨hp, decide_eq_true ⟨hlow, hhigh⟩⟩)
      rw [List.length_map] at hlen
      omega

/-! ### Releasing -/

/-- The report of a sample. -/
def sampleEvent {T : Type} (clock : Nat → T) (bytes : Nat → Bytes) (k : Nat) : AssemblyEvent T :=
  .sample ⟨clock k, auHasIdr (bytes k), 0, 0, bytes k⟩

/-- Nothing more can be released: a packet of the next sample is not there. -/
def Exhausted (S : Stream) (s : Assembler Int) (j : Nat) : Prop :=
  s.pending = [] ∨ ∃ q, S.ends j < q ∧ q ≤ S.ends (j + 1) ∧
    ∀ u ∈ s.pending, q ∉ u.parts.map Prod.fst

/-- The sample behind the anchor is taken out. -/
theorem Gathered.tail (h : Gathered S m start s j Arrived) (hpending : s.pending = au :: rest)
    (hjm : j < m) (hmarker : au.markerSeq = some (S.ends (j + 1)))
    (htime : au.timestamp = S.time j) :
    Gathered S m start
      { s with pending := rest, prevEnd := some (S.ends (j + 1)), gapOpen := false } (j + 1)
      Arrived := by
  have hrest : ∀ v ∈ rest, v ∈ s.pending := fun v hv ↦ by simp [hpending, hv]
  have hordered := h.ordered.tail hpending false
  rw [hmarker] at hordered
  refine ⟨hordered, rfl, hjm, rfl, fun u hu ↦ h.tidy u (hrest u hu), ?_, fun q hq hlt ↦ ?_⟩
  · obtain ⟨n, hn, hnear, hnewest⟩ := h.newest
    refine ⟨n, hn, hnear, ?_⟩
    rcases hnewest with ⟨u, hu, hut⟩ | hall
    · rw [hpending] at hu
      rcases List.mem_cons.mp hu with rfl | hu
      · refine .inr fun k _ hjk ↦ ?_
        rw [← hut, htime]
        exact S.time_mono (Nat.le_of_succ_le hjk)
      · exact .inl ⟨u, hu, hut⟩
    · exact .inr fun k hk hjk ↦ hall k hk (Nat.le_of_succ_le hjk)
  · obtain ⟨u, hu, hqu⟩ := h.held q hq ((S.ends_lt j).trans hlt)
    rw [hpending] at hu
    rcases List.mem_cons.mp hu with rfl | hu
    · have hle := (h.ordered.fits u (by simp [hpending])).below _ hmarker q hqu
      exact absurd hlt (not_lt.mpr hle)
    · exact ⟨u, hu, hqu⟩

/-- The loop releases the samples behind the anchor, as far as they are there. -/
theorem Gathered.collectLoop (h : Gathered S m start s j Arrived) (hm : Continuation S m)
    (hbytes : ∀ k < m, depacketize (S.payloads k) = some (bytes k) ∧ bytes k ≠ [])
    (hstart : start ≤ now) (hnow : now < start + retransmitGrace) (hpending : s.pending = pending) :
    let r := collectLoop depacketize now pending s.prevEnd s.gapOpen
    let s' := { s with pending := r.pending, prevEnd := r.prevEnd, gapOpen := r.gapOpen }
    ∃ j', j ≤ j' ∧ Gathered S m start s' j' Arrived ∧ Exhausted S s' j' ∧
      r.events = (List.range' j (j' - j)).map (sampleEvent S.time bytes) := by
  induction pending generalizing s j with
  | nil =>
    refine ⟨j, le_refl j, ?_, .inl rfl, by simp [Video.collectLoop]⟩
    simp only [Video.collectLoop]
    rw [← hpending]
    exact h
  | cons au rest ih =>
    rw [Video.collectLoop]
    rcases h.verdict hm hbytes hnow hpending with ⟨hjm, hmarker, htime, hverdict⟩ | ⟨hwait, hhole⟩
    · simp only [hverdict]
      obtain ⟨j', hj', hgathered, hexhausted, hevents⟩ :=
        ih (h.tail hpending hjm hmarker htime) rfl
      refine ⟨j', Nat.le_of_succ_le hj', hgathered, hexhausted, ?_⟩
      have hrange : j' - j = (j' - (j + 1)) + 1 := by omega
      rw [hrange, List.range'_succ, List.map_cons, ← hevents]
      rfl
    · simp only [hwait]
      refine ⟨j, le_refl j, h.waiting hstart hpending, .inr ?_, by simp⟩
      obtain ⟨q, hlow, hhigh, hnone⟩ := hhole
      refine ⟨q, hlow, hhigh, fun u hu ↦ ?_⟩
      rw [hpending] at hnone
      rcases List.mem_cons.mp hu with rfl | hu
      · have hfront := hnone au List.mem_cons_self
        split <;> exact hfront
      · exact hnone u (List.mem_cons_of_mem _ hu)

/-! ### Runs -/

theorem Gathered.withLastSeq (h : Gathered S m start s j Arrived) (x : Option (UInt16 × Int)) :
    Gathered S m start { s with lastSeq := x } j Arrived :=
  ⟨h.ordered.withLastSeq x, h.anchor, h.upto, h.whole, h.tidy, h.newest, h.held⟩

/-- A packet of the continuation arrives: samples are released as far as they are there. -/
theorem Gathered.pushAt {l : Option Int} {d : Delivery} (h : Gathered S m start s j Arrived)
    (hm : Continuation S m)
    (hbytes : ∀ k < m, depacketize (S.payloads k) = some (bytes k) ∧ bytes k ≠ [])
    (hd : d.sample < m ∧ S.Owns d.sample d.seq)
    (htime : start ≤ d.time ∧ d.time < start + retransmitGrace)
    (hlast : s.lastSeq = l.map fun l ↦ (wireSeq l, l)) (hreach : Reach l d.seq) :
    let r := s.pushAt later depacketize (S.packet d) d.time
    r.1.lastSeq = some (wireSeq (furthest l d.seq), furthest l d.seq) ∧
      ∃ j', j ≤ j' ∧ Gathered S m start r.1 j' (fun x ↦ Arrived x ∨ x = d.seq) ∧
        Exhausted S r.1 j' ∧ r.2 = (List.range' j (j' - j)).map (sampleEvent S.time bytes) := by
  have hplaced : Gathered S m start (s.placeAt later (S.packet d) d.time) j
      fun x ↦ Arrived x ∨ x = d.seq := by
    rw [placeAt_of_reach hlast hreach]
    exact (h.withLastSeq _).place hm hd.2 hd.1 htime.1
  rw [pushAt_packet]
  exact ⟨lastSeq_placeAt hlast hreach d.time,
    (hplaced.startClocks htime.1).collectLoop hm hbytes htime.1 htime.2 rfl⟩

/-- The timestamps that are compared are those of the continuation and the anchor's. -/
theorem Gathered.tellable (h : Gathered S m start s j Arrived) (hm : Continuation S m)
    (hk : k < m) : Tellable s (S.time k) := by
  have hbounds : ∀ a ∈ comparedTimes s (S.time k), 0 ≤ a ∧ a < 2147483647 := by
    intro a ha
    rcases List.mem_cons.mp ha with rfl | ha
    · exact hm.time k hk
    · rcases List.mem_append.mp ha with ha | ha
      · obtain ⟨n, hn, hnear, -⟩ := h.newest
        rw [Option.mem_toList, hn] at ha
        exact Option.some.inj ha ▸ hnear
      · obtain ⟨u, hu, rfl⟩ := List.mem_map.mp ha
        obtain ⟨i, hi, -, hti⟩ := h.time_mem hu
        exact hti ▸ hm.time i hi
  intro a ha b hb
  have ha := hbounds a ha
  have hb := hbounds b hb
  exact ⟨by omega, by omega⟩

/-- Packets of the continuation arrive one after the other, and the same is done on the wire. -/
theorem Gathered.run (t0 : UInt32) {ds : List Delivery} {l : Int}
    (h : Gathered S m start s j Arrived) (hexhausted : Exhausted S s j) (hm : Continuation S m)
    (hbytes : ∀ k < m, depacketize (S.payloads k) = some (bytes k) ∧ bytes k ≠ [])
    (hds : ∀ d ∈ ds, d.sample < m ∧ S.Owns d.sample d.seq)
    (htimes : ∀ d ∈ ds, start ≤ d.time ∧ d.time < start + retransmitGrace)
    (hlast : s.lastSeq = some (wireSeq l, l)) (hl : S.ends 0 ≤ l ∧ l ≤ S.ends m) :
    let r := s.run later depacketize (S.arrivals ds)
    (∃ j', j ≤ j' ∧ Gathered S m start r.1 j' (fun x ↦ Arrived x ∨ ∃ d ∈ ds, d.seq = x) ∧
      Exhausted S r.1 j' ∧ r.2 = (List.range' j (j' - j)).map (sampleEvent S.time bytes)) ∧
    (s.map (wireTime t0)).run newerRtpTs depacketize (S.onWire t0 ds) =
      (r.1.map (wireTime t0), r.2.map (AssemblyEvent.map (wireTime t0))) := by
  induction ds generalizing s j l Arrived with
  | nil =>
    refine ⟨⟨j, le_refl j, ?_, hexhausted, by simp [Stream.arrivals, Assembler.run]⟩, rfl⟩
    exact ⟨h.ordered, h.anchor, h.upto, h.whole, h.tidy, h.newest, fun q hq hlt ↦
      h.held q (by simpa using hq) hlt⟩
  | cons d ds ih =>
    have hd := hds d List.mem_cons_self
    have hseq : S.ends 0 < d.seq ∧ d.seq ≤ S.ends m :=
      ⟨(S.ends_mono (Nat.zero_le _)).trans_lt hd.2.1,
        hd.2.2.trans (S.ends_mono hd.1)⟩
    have hparts : S.ends m - S.ends 0 ≤ 2048 := hm.parts
    have hreach : Reach (some l) d.seq := ⟨by omega, by omega⟩
    have hfurthest : S.ends 0 ≤ furthest (some l) d.seq ∧ furthest (some l) d.seq ≤ S.ends m := by
      simp only [furthest]
      omega
    have hstep := (h.tellable hm hd.1).pushAt_onWire t0 depacketize rfl
      (h.ordered.placeAt hd.2 (l := some l) hlast hreach d.time)
    obtain ⟨hlast', j1, hj1, h1, hexhausted1, hevents1⟩ :=
      h.pushAt hm hbytes hd (htimes d List.mem_cons_self) (l := some l) hlast hreach
    obtain ⟨⟨j2, hj2, h2, hexhausted2, hevents2⟩, hwire⟩ := ih h1 hexhausted1
      (fun d' hd' ↦ hds d' (List.mem_cons_of_mem _ hd'))
      (fun d' hd' ↦ htimes d' (List.mem_cons_of_mem _ hd')) hlast' hfurthest
    have harrivals : S.arrivals (d :: ds) = (S.packet d, d.time) :: S.arrivals ds := rfl
    have honWire : S.onWire t0 (d :: ds) =
        ((S.packet d).map (wireTime t0), d.time) :: S.onWire t0 ds := rfl
    simp only [harrivals, honWire, Assembler.run]
    refine ⟨⟨j2, hj1.trans hj2, ⟨h2.ordered, h2.anchor, h2.upto, h2.whole, h2.tidy, h2.newest,
      fun q hq hlt ↦ h2.held q ?_ hlt⟩, hexhausted2, ?_⟩, ?_⟩
    · rcases hq with hq | ⟨d', hd', rfl⟩
      · exact .inl (.inl hq)
      · rcases List.mem_cons.mp hd' with rfl | hd'
        · exact .inl (.inr rfl)
        · exact .inr ⟨d', hd', rfl⟩
    · have hsum : j2 - j = (j1 - j) + (j2 - j1) := by omega
      have hmid : j + (j1 - j) = j1 := by omega
      rw [hevents1, hevents2, hsum, ← List.range'_append_1, hmid, List.map_append]
    · rw [hstep, hwire, List.map_append]

/-- When all packets are there, all samples were released. -/
theorem Gathered.done (h : Gathered S m start s j Arrived) (hexhausted : Exhausted S s j)
    (hall : ∀ q, S.ends 0 < q → q ≤ S.ends m → Arrived q) : j = m ∧ s.pending = [] := by
  have hdone : j = m := by
    by_contra hne
    have hjm : j < m := lt_of_le_of_ne h.upto hne
    have hlow : S.ends 0 ≤ S.ends j := S.ends_mono (Nat.zero_le j)
    have hhigh : S.ends (j + 1) ≤ S.ends m := S.ends_mono hjm
    have hlt := S.ends_lt j
    have hheld : ∀ q, S.ends j < q → q ≤ S.ends (j + 1) →
        ∃ u ∈ s.pending, q ∈ u.parts.map Prod.fst :=
      fun q hq hq' ↦ h.held q (hall q (by omega) (by omega)) hq
    rcases hexhausted with hempty | ⟨q, hq, hq', hnone⟩
    · obtain ⟨u, hu, -⟩ := hheld (S.ends j + 1) (by omega) (by omega)
      rw [hempty] at hu
      exact absurd hu List.not_mem_nil
    · obtain ⟨u, hu, hqu⟩ := hheld q hq hq'
      exact hnone u hu hqu
  refine ⟨hdone, List.eq_nil_iff_forall_not_mem.mpr fun u hu ↦ ?_⟩
  obtain ⟨e, rest, hparts⟩ := List.exists_cons_of_ne_nil (h.tidy u hu).parts
  obtain ⟨hlow, hhigh⟩ := h.holds (x := e.1) hu (.inl (by simp [hparts]))
  rw [hdone] at hlow
  omega

/-- All packets of a continuation arrive behind an anchor, in any order and any number of times:
its samples are reported in order, and nothing else. -/
theorem reordering_is_invisible (S : Stream) (t0 : UInt32)
    (depacketize : List Bytes → Option Bytes) (m start : Nat) (bytes : Nat → Bytes) (l : Int)
    (ds : List Delivery) (hm : Continuation S m)
    (hbytes : ∀ k < m, depacketize (S.payloads k) = some (bytes k) ∧ bytes k ≠ [])
    (hl : S.ends 0 ≤ l ∧ l ≤ S.ends m)
    (hds : ∀ d ∈ ds, d.sample < m ∧ S.Owns d.sample d.seq)
    (hall : ∀ q, S.ends 0 < q → q ≤ S.ends m → ∃ d ∈ ds, d.seq = q)
    (htimes : ∀ d ∈ ds, start ≤ d.time ∧ d.time < start + retransmitGrace) :
    let anchored : H264AuAssembler :=
      { pending := [], prevEnd := some (S.ends 0), lastSeq := some (wireSeq l, l),
        newestTimestamp := some t0, gapOpen := false }
    let r := H264AuAssembler.run depacketize anchored (S.onWire t0 ds)
    r.2 = (List.range m).map (sampleEvent (fun k ↦ wireTime t0 (S.time k)) bytes) ∧
      r.1.pending = [] := by
  have hinitial : Gathered S m start
      { pending := [], prevEnd := some (S.ends 0), lastSeq := some (wireSeq l, l),
        newestTimestamp := some 0, gapOpen := false } 0 fun _ ↦ False := by
    refine ⟨⟨by simp, List.Pairwise.nil, by simp,
      fun e he ↦ ⟨0, (Option.some.inj he).symm, by simp⟩, by simp⟩, rfl, Nat.zero_le m, rfl,
      by simp, ⟨0, rfl, by omega, .inr fun k hk _ ↦ ?_⟩, by simp⟩
    exact (hm.time k hk).1
  obtain ⟨⟨j, -, hgathered, hexhausted, hevents⟩, hwire⟩ :=
    hinitial.run t0 (.inl rfl) hm hbytes hds htimes rfl hl
  obtain ⟨rfl, hempty⟩ := hgathered.done hexhausted fun q hlow hhigh ↦ .inr (hall q hlow hhigh)
  have hzero : wireTime t0 0 = t0 := by
    have hnat := toNat_wireTime t0 0
    have hlt := t0.toNat_lt
    rw [← UInt32.toNat_inj]
    omega
  simp only [Assembler.map, List.map_nil, Option.map_some, hzero] at hwire
  intro anchored r
  have hr : r = _ := hwire
  rw [hr]
  refine ⟨?_, by rw [hempty]; rfl⟩
  rw [hevents, List.map_map, List.range_eq_range', Nat.sub_zero]
  rfl

/-- The first two samples of `pairs`, shuffled and with a packet twice. -/
def shuffled : List Delivery :=
  [⟨1, 65537, 10⟩, ⟨0, 65535, 10⟩, ⟨1, 65536, 20⟩, ⟨0, 65535, 30⟩, ⟨0, 65534, 140000000⟩]

theorem shuffled_released :
    (H264AuAssembler.run startCodes
        { pending := [], prevEnd := some 65533, lastSeq := some (65533, 65533),
          newestTimestamp := some 4294967295, gapOpen := false }
        (pairs.onWire 4294967295 shuffled)).2 =
      (List.range 2).map (sampleEvent (fun k ↦ wireTime 4294967295 (pairs.time k)) fun _ ↦
        [0, 0, 0, 1, 0x67, 0x42, 0x1F, 0, 0, 0, 1, 0x65, 0xAA, 0xBB]) := by
  have hm : Continuation pairs 2 :=
    ⟨by unfold pairs; decide, by unfold pairs; decide, by unfold pairs; decide⟩
  refine (reordering_is_invisible pairs 4294967295 startCodes 2 0 (fun _ ↦
    [0, 0, 0, 1, 0x67, 0x42, 0x1F, 0, 0, 0, 1, 0x65, 0xAA, 0xBB]) 65533 shuffled hm (by decide)
    (by unfold pairs; decide) (by unfold Stream.Owns; decide) (fun q hlow hhigh ↦ ?_)
    (by decide)).1
  have hlow : (65533 : Int) < q := hlow
  have hhigh : q ≤ (65537 : Int) := hhigh
  have hq : q = 65534 ∨ q = 65535 ∨ q = 65536 ∨ q = 65537 := by omega
  rcases hq with rfl | rfl | rfl | rfl <;> simp [shuffled]

/-- Pictures of one packet, half of the timestamp space behind the anchor. -/
def farAhead : Stream where
  ends k := k
  time k := 2147483648 + k
  payload _ := [0x65, 0xAA, 0xBB]
  ends_lt k := by omega
  time_le k := by omega
  payload_ne _ := by simp

/-- The picture is taken for an older one and is dropped. -/
theorem farAhead_dropped :
    (∀ k, 0 ≤ farAhead.time k) ∧
      ((Finset.range 1).image farAhead.time).card ≤ maxPendingFrames ∧
      farAhead.ends 1 - farAhead.ends 0 ≤ maxAuParts ∧
      startCodes (farAhead.payloads 0) = some [0, 0, 0, 1, 0x65, 0xAA, 0xBB] ∧
      farAhead.Owns 0 1 ∧ (∀ q, farAhead.ends 0 < q → q ≤ farAhead.ends 1 → q = 1) ∧
      ¬ (H264AuAssembler.run startCodes
          { pending := [], prevEnd := some (farAhead.ends 0), lastSeq := some (wireSeq 0, 0),
            newestTimestamp := some 0, gapOpen := false }
          (farAhead.onWire 0 [⟨0, 1, 0⟩])).2 =
        (List.range 1).map (sampleEvent (fun k ↦ wireTime 0 (farAhead.time k)) fun _ ↦
          [0, 0, 0, 1, 0x65, 0xAA, 0xBB]) := by
  refine ⟨fun k ↦ ?_, by unfold farAhead; decide, by unfold farAhead; decide, by decide,
    by unfold Stream.Owns farAhead; decide, fun q hlow hhigh ↦ ?_, by decide⟩
  · have htime : farAhead.time k = 2147483648 + k := rfl
    omega
  · have hlow : (0 : Int) < q := hlow
    have hhigh : q ≤ (1 : Int) := hhigh
    omega

end MyOwnMesh.Video
