import Mathlib.Data.Finset.Card
import Mathlib.Data.Finset.Image
import MyOwnMesh.Video.Track

/-!
# Packets behind an anchor

Behind an anchor, a continuation of the stream that is small enough for the assembler's bounds
is gathered packet by packet: whatever is not behind the anchor yet is kept in the queue, wherever
it falls. A packet is dropped only if its sample was taken out.
-/

namespace MyOwnMesh.Video

open Lib

/-- The next `m` samples behind an anchor, within the bounds of the assembler. Timestamps are
relative to the anchor's. -/
structure Continuation (S : Stream) (m : Nat) : Prop where
  time : ∀ k < m, 0 ≤ S.time k ∧ S.time k < 2147483647
  frames : ((Finset.range m).image S.time).card ≤ maxPendingFrames
  parts : S.ends m - S.ends 0 ≤ maxAuParts

/-! ### Units that a packet goes into -/

variable {S : Stream} {m k j start : Nat} {u v w : PendingAu Int} {q x : Int} {payload : Bytes}

/-- A unit that holds packets of the continuation, not too many, and was not blocked before the
start. -/
structure Tidy (S : Stream) (m start : Nat) (u : PendingAu Int) : Prop where
  parts : u.parts ≠ []
  room : u.overflowed = false
  upto : ∀ x, u.Holds x → x ≤ S.ends m
  clock : ∀ t ∈ u.blockedSince, start ≤ t

/-- A packet for which there is room is stored. -/
theorem store_of_room (hroom : q ∉ u.parts.map Prod.fst → u.parts.length < maxAuParts)
    (payload : Bytes) :
    ∃ parts, u.store q payload = { u with parts := parts } ∧
      ∀ x, x ∈ parts.map Prod.fst ↔ x = q ∨ x ∈ u.parts.map Prod.fst := by
  by_cases hmem : q ∈ u.parts.map Prod.fst
  · have hany : u.parts.any (·.1 == q) = true := by
      obtain ⟨e, he, rfl⟩ := List.mem_map.mp hmem
      exact List.any_eq_true.mpr ⟨e, he, beq_self_eq_true _⟩
    refine ⟨u.parts, by rw [PendingAu.store, if_pos hany], fun x ↦ ⟨.inr, ?_⟩⟩
    rintro (rfl | h)
    · exact hmem
    · exact h
  · have hany : ¬ u.parts.any (·.1 == q) = true := by
      rw [List.any_eq_true]
      rintro ⟨e, he, heq⟩
      exact hmem (List.mem_map.mpr ⟨e, he, by simpa using heq⟩)
    refine ⟨insertPart q payload u.parts, ?_, fun x ↦ ?_⟩
    · rw [PendingAu.store, if_neg hany, if_neg (not_le.mpr (hroom hmem))]
    · constructor
      · intro h
        obtain ⟨e, he, rfl⟩ := List.mem_map.mp h
        exact (mem_insertPart.mp he).imp (fun h ↦ by rw [h]) List.mem_map_of_mem
      · rintro (rfl | h)
        · exact List.mem_map.mpr ⟨(x, payload), mem_insertPart.mpr (.inl rfl), rfl⟩
        · obtain ⟨e, he, rfl⟩ := List.mem_map.mp h
          exact List.mem_map.mpr ⟨e, mem_insertPart.mpr (.inr he), rfl⟩

/-- Nothing that a unit holds is lost when a packet goes into it, and the packet is there. -/
theorem mem_keys_unitsOf (hroom : q ∉ u.parts.map Prod.fst → u.parts.length < maxAuParts)
    (marker : Bool) (payload : Bytes) (h : x = q ∨ x ∈ u.parts.map Prod.fst) :
    ∃ w ∈ unitsOf u q marker payload, x ∈ w.parts.map Prod.fst := by
  obtain ⟨parts, hstore, hkeys⟩ := store_of_room hroom payload
  have hx := (hkeys x).mpr h
  cases marker with
  | false => exact ⟨_, List.mem_singleton_self _, by rw [hstore]; exact hx⟩
  | true =>
    obtain ⟨e, he, rfl⟩ := List.mem_map.mp hx
    rw [unitsOf, if_pos rfl, hstore, PendingAu.split]
    by_cases hle : e.1 ≤ q
    · refine ⟨_, List.mem_cons_self, List.mem_map_of_mem (List.mem_filter.mpr ⟨he, ?_⟩)⟩
      exact decide_eq_true hle
    · have hmem : e ∈ parts.filter fun e ↦ decide (q < e.1) :=
        List.mem_filter.mpr ⟨he, decide_eq_true (not_le.mp hle)⟩
      have hne : (parts.filter fun e ↦ decide (q < e.1)).isEmpty = false := by
        rw [List.isEmpty_eq_false_iff_exists_mem]
        exact ⟨e, hmem⟩
      simp only [hne]
      exact ⟨_, List.mem_cons_of_mem _ (List.mem_singleton_self _), List.mem_map_of_mem hmem⟩

/-- Units that a packet of the continuation goes into are tidy. -/
theorem tidy_unitsOf (hroom : q ∉ u.parts.map Prod.fst → u.parts.length < maxAuParts)
    (hover : u.overflowed = false) (hupto : ∀ x, u.Holds x → x ≤ S.ends m)
    (hclock : ∀ t ∈ u.blockedSince, start ≤ t) (hq : q ≤ S.ends m) (marker : Bool)
    (hw : w ∈ unitsOf u q marker payload) : Tidy S m start w := by
  obtain ⟨parts, hstore, hkeys⟩ := store_of_room hroom payload
  have hupto' : ∀ x, w.Holds x → x ≤ S.ends m := fun x hx ↦
    ((holds_of_mem_unitsOf hw).2 x hx).elim (fun heq ↦ heq ▸ hq) (hupto x)
  obtain ⟨e, he, heq⟩ : ∃ e ∈ parts, e.1 = q :=
    List.mem_map.mp ((hkeys q).mpr (.inl rfl))
  unfold unitsOf at hw
  cases marker with
  | false =>
    rw [if_neg Bool.false_ne_true, hstore] at hw
    obtain rfl := List.mem_singleton.mp hw
    exact ⟨List.ne_nil_of_mem he, hover, hupto', hclock⟩
  | true =>
    rw [if_pos rfl, hstore] at hw
    rcases mem_split hw with rfl | ⟨rfl, e', he', hlt⟩
    · refine ⟨List.ne_nil_of_mem (List.mem_filter.mpr ⟨he, ?_⟩), hover, hupto', hclock⟩
      exact decide_eq_true heq.le
    · refine ⟨List.ne_nil_of_mem (List.mem_filter.mpr ⟨he', ?_⟩), rfl, hupto', hclock⟩
      exact decide_eq_true hlt

/-! ### The queue behind an anchor -/

/-- Samples before `j` were taken out, and every packet behind them that arrived is in the queue.
The newest timestamp is in the queue or not newer than what is to come. -/
structure Gathered (S : Stream) (m start : Nat) (s : Assembler Int) (j : Nat)
    (Arrived : Int → Prop) : Prop where
  ordered : Ordered S s
  anchor : s.prevEnd = some (S.ends j)
  upto : j ≤ m
  whole : s.gapOpen = false
  tidy : ∀ u ∈ s.pending, Tidy S m start u
  newest : ∃ n ∈ s.newestTimestamp, (0 ≤ n ∧ n < 2147483647) ∧
    ((∃ u ∈ s.pending, u.timestamp = n) ∨ ∀ k < m, j ≤ k → n ≤ S.time k)
  held : ∀ q, Arrived q → S.ends j < q → ∃ u ∈ s.pending, q ∈ u.parts.map Prod.fst

variable {s : Assembler Int} {now : Nat} {Arrived : Int → Prop}

theorem length_insertPart (q : Int) (payload : Bytes) (parts : List (Int × Bytes)) :
    (insertPart q payload parts).length = parts.length + 1 := by
  induction parts with
  | nil => rfl
  | cons e rest ih =>
    rw [insertPart]
    split
    · rfl
    · simp [ih]

/-- What the queue holds is behind the anchor and in the continuation. -/
theorem Gathered.holds (h : Gathered S m start s j Arrived) (hu : u ∈ s.pending)
    (hx : u.Holds x) : S.ends j < x ∧ x ≤ S.ends m :=
  ⟨h.ordered.behind _ h.anchor u hu x hx, (h.tidy u hu).upto x hx⟩

/-- There is room for every packet of the continuation. -/
theorem Gathered.room (h : Gathered S m start s j Arrived) (hm : Continuation S m)
    (hu : u ∈ s.pending) (hq : S.ends 0 < q ∧ q ≤ S.ends m) (hnew : q ∉ u.parts.map Prod.fst) :
    u.parts.length < maxAuParts := by
  have hlow : S.ends 0 ≤ S.ends j := S.ends_mono (Nat.zero_le j)
  have hsorted : ((insertPart q [] u.parts).map Prod.fst).Pairwise (· < ·) :=
    sorted_insertPart (h.ordered.fits u hu).sorted hnew
  have hlen := length_le_of_increasing (a := S.ends 0) (b := S.ends m) hsorted fun x hx ↦ by
    obtain ⟨e, he, rfl⟩ := List.mem_map.mp hx
    rcases mem_insertPart.mp he with rfl | he
    · exact hq
    · have hin := h.holds hu (.inl (List.mem_map_of_mem he))
      exact ⟨hlow.trans_lt hin.1, hin.2⟩
  have hparts := hm.parts
  rw [List.length_map, length_insertPart] at hlen
  omega

/-- A packet that no unit owns gets a slot. -/
theorem Gathered.slot_some (h : Gathered S m start s j Arrived) (hq : S.Owns k q) (hk : k < m)
    (hbehind : S.ends j < q) (hnow : start ≤ now)
    (hnone : pendingPosition (S.time k) q s.prevEnd s.pending = none) :
    ∃ pos blocked, s.slot later q (S.time k) now = some (pos, blocked) ∧
      ∀ t ∈ blocked, start ≤ t := by
  obtain ⟨n, hn, -, hnewest⟩ := h.newest
  have hmarked := pendingPosition_eq_none (fun e he ↦ by
    rw [h.anchor] at he
    exact Option.some.inj he ▸ hbehind) hnone
  have hjk : j ≤ k := by
    have hlt : S.ends j < S.ends (k + 1) := hbehind.trans_le hq.2
    exact Nat.le_of_lt_succ (S.lt_of_ends_lt hlt)
  unfold Assembler.slot
  rw [hn, h.anchor]
  simp only
  by_cases heq : S.time k = n
  · rw [if_pos heq, if_neg (not_le.mpr hbehind)]
    exact ⟨_, none, rfl, by simp⟩
  · rw [if_neg heq]
    by_cases hlater : later (S.time k) n = true
    · rw [if_pos hlater]
      exact ⟨_, none, rfl, by simp⟩
    · rw [if_neg hlater]
      have hlt : S.time k < n := by
        have hle : ¬ n < S.time k := by simpa [later] using hlater
        omega
      -- The newest timestamp is in the queue, so a unit is newer than the packet.
      obtain ⟨u, hu, hut⟩ := hnewest.resolve_right fun hall ↦
        absurd (hall k hk hjk) (not_le.mpr hlt)
      have hsome : (s.pending.findIdx? fun au ↦ later au.timestamp (S.time k)).isSome := by
        rw [List.findIdx?_isSome, List.any_eq_true]
        exact ⟨u, hu, by simpa [later, hut] using hlt⟩
      obtain ⟨next, hnext⟩ := Option.isSome_iff_exists.mp hsome
      obtain ⟨hlen, hfound, hbefore⟩ := List.findIdx?_eq_some_iff_getElem.mp hnext
      have hright : s.pending[next] ∈ s.pending := List.getElem_mem hlen
      have hnewer : S.time k < s.pending[next].timestamp := by simpa [later] using hfound
      have hget : s.pending[next]? = some s.pending[next] := List.getElem?_eq_getElem hlen
      simp only [hnext, hget, Option.bind_eq_bind, Option.bind_some]
      rw [if_neg]
      · refine ⟨next, _, rfl, fun t ht ↦ ?_⟩
        cases hblocked : s.pending[next].blockedSince with
        | none =>
          rw [hblocked, Option.none_or] at ht
          exact Option.some.inj ht ▸ hnow
        | some t' =>
          rw [hblocked, Option.some_or] at ht
          exact Option.some.inj ht ▸ (h.tidy _ hright).clock t' hblocked
      · rintro (hle | hfirst | ⟨au, hau, hleft⟩)
        · exact absurd hbehind (not_lt.mpr hle)
        · -- The unit behind the packet has a first part, and it is behind the packet.
          obtain ⟨e, rest, hparts⟩ := List.exists_cons_of_ne_nil (h.tidy _ hright).parts
          have hle := hfirst e (by rw [hparts]; rfl)
          have hmem : s.pending[next].Holds e.1 := .inl (by simp [hparts])
          exact absurd ((h.ordered.fits _ hright).lt_of_newer hq hnewer hmem) (not_lt.mpr hle)
        · split at hau
          · cases hau
          · next hzero =>
            have hau' := List.mem_of_getElem? hau
            have hold : au.timestamp ≤ S.time k := by
              obtain ⟨hlt', hget'⟩ := List.getElem?_eq_some_iff.mp hau
              have hnot := hbefore (next - 1) (by omega)
              rw [← hget']
              simpa [later] using hnot
            rcases hleft with ⟨hne, hnot⟩ | ⟨e, he, hle⟩
            · have hnot : ¬ au.timestamp < S.time k := by simpa [later] using hnot
              exact absurd (le_antisymm (not_lt.mp hnot) hold) hne
            · have hmem : au.Holds e.1 := .inl (List.mem_map_of_mem (List.mem_of_getLast? he))
              rcases hold.lt_or_eq with hlt' | heq'
              · exact absurd ((h.ordered.fits au hau').lt_of_older hq hlt' hmem) (not_lt.mpr hle)
              · obtain ⟨e', hmarker, hlt'⟩ := hmarked au hau' heq'
                exact absurd ((h.ordered.fits au hau').lt_of_marker hmarker hlt' hmem)
                  (not_lt.mpr hle)

/-- Where a packet lands: a unit of the queue, or one that is new, with all others as they were. -/
structure Landing (S : Stream) (start : Nat) (s : Assembler Int) (k : Nat) (q : Int)
    (before : List (PendingAu Int)) (u : PendingAu Int) (after : List (PendingAu Int))
    (newest : Option Int) : Prop where
  ordered : Ordered S { s with newestTimestamp := newest, pending := before ++ u :: after }
  home : Home S { s with newestTimestamp := newest, pending := before ++ u :: after } k q
    before u after
  others : ∀ v ∈ s.pending, v = u ∨ v ∈ before ∨ v ∈ after
  same : ∀ v, v ∈ before ∨ v ∈ after → v ∈ s.pending
  unit : u ∈ s.pending ∨ ∃ blocked, u = emptyAu (S.time k) blocked ∧ ∀ t ∈ blocked, start ≤ t
  newest : newest = s.newestTimestamp ∨ newest = some (S.time k)

/-- A packet behind the anchor lands. -/
theorem Gathered.land (h : Gathered S m start s j Arrived) (hq : S.Owns k q) (hk : k < m)
    (hbehind : S.ends j < q) (hnow : start ≤ now) (marker : Bool) (payload : Bytes) :
    ∃ before u after newest, Landing S start s k q before u after newest ∧
      s.place later q (S.time k) marker payload now =
        { s with newestTimestamp := newest
                 pending := before ++ unitsOf u q marker payload ++ after } := by
  unfold Assembler.place Assembler.enter
  cases hposition : pendingPosition (S.time k) q s.prevEnd s.pending with
  | some pos =>
    obtain ⟨before, u, after, rfl, hhome⟩ := h.ordered.home_of_position hq hposition
    have hs : s = { s with newestTimestamp := s.newestTimestamp,
                           pending := before ++ u :: after } := by rw [← hhome.pending]
    refine ⟨before, u, after, s.newestTimestamp,
      ⟨hs ▸ h.ordered, hs ▸ hhome, fun v hv ↦ ?_, fun v hv ↦ ?_, .inl ?_, .inl rfl⟩,
      hhome.put marker payload⟩
    · rw [hhome.pending, List.mem_append, List.mem_cons] at hv
      exact hv.elim (fun hv ↦ .inr (.inl hv)) fun hv ↦ hv.imp_right .inr
    · rw [hhome.pending, List.mem_append, List.mem_cons]
      exact hv.imp_right .inr
    · rw [hhome.pending]
      exact List.mem_append_right _ List.mem_cons_self
  | none =>
    obtain ⟨pos, blocked, hsome, hclock⟩ := h.slot_some hq hk hbehind hnow hposition
    obtain ⟨before, after, rfl, hslot⟩ := h.ordered.slot_spec hq hsome
    obtain ⟨newest, hnewest⟩ : ∃ newest, newest =
        if ∀ n ∈ s.newestTimestamp, later (S.time k) n then some (S.time k)
        else s.newestTimestamp := ⟨_, rfl⟩
    obtain ⟨hadmitted, hhome⟩ : Admitted S s { s with
          newestTimestamp := newest, pending := before ++ emptyAu (S.time k) blocked :: after } k ∧
        Home S { s with
          newestTimestamp := newest, pending := before ++ emptyAu (S.time k) blocked :: after } k q
          before (emptyAu (S.time k) blocked) after :=
      hslot.insert h.ordered hq hposition (by rw [hnewest])
    refine ⟨before, emptyAu (S.time k) blocked, after, newest,
      ⟨hadmitted.ordered, hhome, fun v hv ↦ .inr ?_, fun v hv ↦ ?_, .inr ⟨blocked, rfl, hclock⟩,
        ?_⟩, ?_⟩
    · rwa [hslot.pending, List.mem_append] at hv
    · rwa [hslot.pending, List.mem_append]
    · rw [hnewest]
      split
      · exact .inr rfl
      · exact .inl rfl
    · have hinsert : s.pending.insertIdx before.length (emptyAu (S.time k) blocked) =
          before ++ emptyAu (S.time k) blocked :: after := by
        rw [hslot.pending, insertIdx_append]
      have hput := hhome.put marker payload
      simp only [hsome, Option.bind_eq_bind, Option.bind_some, Option.pure_def]
      rw [← hput, ← hinsert, hnewest]
      rfl

/-- No unit owns a packet at or before the bound. -/
theorem pendingPosition_of_le {ts e : Int} {pending : List (PendingAu Int)} (hle : q ≤ e)
    (hmarkers : ∀ u ∈ pending, ∀ e' ∈ u.markerSeq, q ≤ e') :
    pendingPosition ts q (some e) pending = none := by
  induction pending generalizing e with
  | nil => rfl
  | cons au rest ih =>
    have hrest : ∀ u ∈ rest, ∀ e' ∈ u.markerSeq, q ≤ e' := fun u hu ↦
      hmarkers u (List.mem_cons_of_mem _ hu)
    have hnot : ¬ ((∀ e' ∈ some e, e' < q) ∧ ∀ e' ∈ au.markerSeq, q ≤ e') := fun h ↦
      absurd (h.1 e rfl) (not_lt.mpr hle)
    rw [pendingPosition, if_neg hnot, ih hle hrest]
    cases hmarker : au.markerSeq with
    | none => simp [ih hle hrest]
    | some e' => simp [ih (hmarkers au List.mem_cons_self e' hmarker) hrest]

/-- A packet of a sample that was taken out changes nothing. -/
theorem Gathered.place_stale (h : Gathered S m start s j Arrived) (hq : S.Owns k q)
    (hstale : q ≤ S.ends j) (marker : Bool) (payload : Bytes) :
    s.place later q (S.time k) marker payload now = s := by
  have hposition : pendingPosition (S.time k) q s.prevEnd s.pending = none := by
    rw [h.anchor]
    refine pendingPosition_of_le hstale fun u hu e he ↦ ?_
    exact hstale.trans (h.holds hu (.inr he)).1.le
  have hkj : k < j := S.lt_of_ends_lt (hq.1.trans_le hstale)
  have hslot : s.slot later q (S.time k) now = none := by
    obtain ⟨i, hi, htimes⟩ := h.ordered.anchor _ h.anchor
    obtain rfl := S.ends_injective hi
    obtain ⟨n, hn, hle⟩ := htimes k hkj
    have hnot : ¬ later (S.time k) n = true := by simpa [later] using hle
    unfold Assembler.slot
    rw [hn, h.anchor]
    simp only
    rw [if_pos hstale, if_neg hnot]
    split
    · rfl
    · simp only [Option.bind_eq_bind, Option.bind_some, Option.bind_eq_none_iff]
      intro next _ right _
      rw [if_pos (.inl hstale)]
  unfold Assembler.place Assembler.enter
  simp [hposition, hslot]

/-- A packet of the continuation that is behind the anchor is kept. -/
theorem Gathered.place_behind (h : Gathered S m start s j Arrived) (hm : Continuation S m)
    (hq : S.Owns k q) (hk : k < m) (hbehind : S.ends j < q) (hnow : start ≤ now) :
    Gathered S m start
      (s.place later q (S.time k) (decide (q = S.ends (k + 1))) (S.payload q) now) j
      fun x ↦ Arrived x ∨ x = q := by
  obtain ⟨before, u, after, newest, hland, hplace⟩ :=
    h.land hq hk hbehind hnow (decide (q = S.ends (k + 1))) (S.payload q)
  have hordered := hland.home.ordered hland.ordered hq
  rw [hplace]
  have hqm : S.ends 0 < q ∧ q ≤ S.ends m :=
    ⟨(S.ends_mono (Nat.zero_le k)).trans_lt hq.1,
      hq.2.trans (S.ends_mono hk)⟩
  have hroom : q ∉ u.parts.map Prod.fst → u.parts.length < maxAuParts := by
    rcases hland.unit with hu | ⟨blocked, rfl, -⟩
    · exact h.room hm hu hqm
    · intro _
      exact Nat.zero_lt_succ _
  have htidy : ∀ w ∈ unitsOf u q (decide (q = S.ends (k + 1))) (S.payload q),
      Tidy S m start w := by
    intro w hw
    rcases hland.unit with hu | ⟨blocked, rfl, hclock⟩
    · have hu' := h.tidy u hu
      exact tidy_unitsOf hroom hu'.room hu'.upto hu'.clock hqm.2 _ hw
    · exact tidy_unitsOf hroom rfl (fun x hx ↦ absurd hx (not_holds_emptyAu _ _ x)) hclock
        hqm.2 _ hw
  -- A unit of the queue is there still, or has become the units of the packet.
  have hkept : ∀ v ∈ s.pending, v = u ∨
      v ∈ before ++ unitsOf u q (decide (q = S.ends (k + 1))) (S.payload q) ++ after := by
    intro v hv
    refine (hland.others v hv).imp_right fun hv ↦ ?_
    rw [List.mem_append, List.mem_append]
    exact hv.imp_left .inl
  have hunits : ∀ w ∈ unitsOf u q (decide (q = S.ends (k + 1))) (S.payload q),
      w ∈ before ++ unitsOf u q (decide (q = S.ends (k + 1))) (S.payload q) ++ after :=
    fun w hw ↦ List.mem_append_left _ (List.mem_append_right _ hw)
  refine ⟨hordered, h.anchor, h.upto, h.whole, fun w hw ↦ ?_, ?_, fun x hx hlt ↦ ?_⟩
  · rcases List.mem_append.mp hw with hw | hw
    · rcases List.mem_append.mp hw with hw | hw
      · exact h.tidy w (hland.same w (.inl hw))
      · exact htidy w hw
    · exact h.tidy w (hland.same w (.inr hw))
  · obtain ⟨w, hw, -⟩ := mem_keys_unitsOf hroom (decide (q = S.ends (k + 1)))
      (S.payload q) (.inl rfl)
    have hwt : w.timestamp = S.time k := (holds_of_mem_unitsOf hw).1.trans hland.home.time
    rcases hland.newest with hsame | hnew
    · obtain ⟨n, hn, hnear, hnewest⟩ := h.newest
      refine ⟨n, hsame ▸ hn, hnear, hnewest.imp_left ?_⟩
      rintro ⟨v, hv, hvt⟩
      rcases hkept v hv with rfl | hv
      · exact ⟨w, hunits w hw, hwt.trans (hland.home.time.symm.trans hvt)⟩
      · exact ⟨v, hv, hvt⟩
    · exact ⟨S.time k, hnew, hm.time k hk, .inl ⟨w, hunits w hw, hwt⟩⟩
  · have hmem : x = q ∨ x ∈ u.parts.map Prod.fst ∨ ∃ v ∈ before ++
        unitsOf u q (decide (q = S.ends (k + 1))) (S.payload q) ++ after,
        x ∈ v.parts.map Prod.fst := by
      rcases hx with hx | rfl
      · obtain ⟨v, hv, hxv⟩ := h.held x hx hlt
        rcases hkept v hv with rfl | hv
        · exact .inr (.inl hxv)
        · exact .inr (.inr ⟨v, hv, hxv⟩)
      · exact .inl rfl
    rcases or_assoc.mpr hmem with hx | hx
    · obtain ⟨w, hw, hxw⟩ := mem_keys_unitsOf hroom (decide (q = S.ends (k + 1)))
        (S.payload q) hx
      exact ⟨w, hunits w hw, hxw⟩
    · exact hx

/-- A packet of the continuation is kept, or its sample was taken out. -/
theorem Gathered.place (h : Gathered S m start s j Arrived) (hm : Continuation S m)
    (hq : S.Owns k q) (hk : k < m) (hnow : start ≤ now) :
    Gathered S m start
      (s.place later q (S.time k) (decide (q = S.ends (k + 1))) (S.payload q) now) j
      fun x ↦ Arrived x ∨ x = q := by
  by_cases hstale : q ≤ S.ends j
  · rw [h.place_stale hq hstale]
    refine ⟨h.ordered, h.anchor, h.upto, h.whole, h.tidy, h.newest, fun x hx hlt ↦ ?_⟩
    rcases hx with hx | rfl
    · exact h.held x hx hlt
    · exact absurd hlt (not_lt.mpr hstale)
  · exact h.place_behind hm hq hk (not_le.mp hstale) hnow

end MyOwnMesh.Video
