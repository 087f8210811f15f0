import MyOwnMesh.Video.Track

/-!
# Samples under losses

Of a stream whose packets are lost, repeated and reordered, the assembler reports whole samples in
the order in which they were sent, and a discontinuity between two that do not follow each other,
as long as it has an anchor: the end of the unit before says where a unit starts. Without one, at
the start of a stream and after a unit was given up whose marker was not there, the unit starts
with the lowest packet that was received, if that looks like a start. A parameter set in the middle
of a sample looks like one, too.
-/

namespace MyOwnMesh.Video

/-! ### What is reported -/

section Reports

variable {T T' : Type}

/-- Samples are reported in order and at most once, each as all of its bytes, and with a
discontinuity between two that do not follow each other. The first two arguments are the last
sample before and whether there was a discontinuity since. -/
def Reports (clock : Nat → T) (bytes : Nat → Option Bytes) :
    Option Nat → Bool → List (AssemblyEvent T) → Prop
  | _, _, [] => True
  | last, gap, .sample v :: events =>
    ∃ k data, (∀ j ∈ last, j < k ∧ (k = j + 1 ∨ gap = true)) ∧ bytes k = some data ∧
      v = ⟨clock k, auHasIdr data, 0, 0, data⟩ ∧ Reports clock bytes (some k) false events
  | last, _, .discontinuity _ _ :: events => Reports clock bytes last true events

variable {clock : Nat → T} {bytes : Nat → Option Bytes}

/-- At other timestamps the same is reported. -/
theorem Reports.map (f : T → T') {last : Option Nat} {gap : Bool} {events : List (AssemblyEvent T)}
    (h : Reports clock bytes last gap events) :
    Reports (fun k ↦ f (clock k)) bytes last gap (events.map (AssemblyEvent.map f)) := by
  induction events generalizing last gap with
  | nil => trivial
  | cons event events ih =>
    cases event with
    | sample v =>
      obtain ⟨k, data, hlast, hdata, rfl, hrest⟩ := h
      exact ⟨k, data, hlast, hdata, rfl, ih hrest⟩
    | discontinuity ts diagnostic => exact ih h

end Reports

/-! ### Anchors -/

variable {S : Stream} {depacketize : List Bytes → Option Bytes} {now : Nat}
  {au : PendingAu Int} {rest : List (PendingAu Int)} {s s' : Assembler Int} {j : Nat}

/-- A packet is the first of a sample. -/
def Stream.Starts (S : Stream) (q : Int) : Prop := ∃ k, q = S.ends k + 1

/-- Whatever is released without an anchor starts where a sample starts. -/
def WholeStarts (Starts : Int → Prop) (depacketize : List Bytes → Option Bytes) (now : Nat) :
    Option Int → List (PendingAu Int) → Prop
  | _, [] => True
  | prevEnd, au :: rest =>
    match verdict depacketize now prevEnd au rest with
    | .release _ e =>
      (prevEnd = none → ∀ p ∈ au.parts.head?, Starts p.1) ∧
        WholeStarts Starts depacketize now (some e) rest
    | .wait => True
    | .abandon _ => WholeStarts Starts depacketize now au.markerSeq rest

instance decidableWholeStarts (Starts : Int → Prop) [DecidablePred Starts]
    (depacketize : List Bytes → Option Bytes) (now : Nat) :
    (prevEnd : Option Int) → (pending : List (PendingAu Int)) →
      Decidable (WholeStarts Starts depacketize now prevEnd pending)
  | _, [] => .isTrue trivial
  | prevEnd, au :: rest =>
    match h : verdict depacketize now prevEnd au rest with
    | .release _ e =>
      have := decidableWholeStarts Starts depacketize now (some e) rest
      decidable_of_iff ((prevEnd = none → ∀ p ∈ au.parts.head?, Starts p.1) ∧
        WholeStarts Starts depacketize now (some e) rest) (by rw [WholeStarts, h])
    | .wait => .isTrue (by rw [WholeStarts, h]; trivial)
    | .abandon _ =>
      have := decidableWholeStarts Starts depacketize now au.markerSeq rest
      decidable_of_iff (WholeStarts Starts depacketize now au.markerSeq rest)
        (by rw [WholeStarts, h])

theorem WholeStarts.mono {Starts Starts' : Int → Prop} (hstarts : ∀ q, Starts q → Starts' q)
    {prevEnd : Option Int} {pending : List (PendingAu Int)}
    (h : WholeStarts Starts depacketize now prevEnd pending) :
    WholeStarts Starts' depacketize now prevEnd pending := by
  induction pending generalizing prevEnd with
  | nil => trivial
  | cons au rest ih =>
    rw [WholeStarts] at h ⊢
    cases hverdict : verdict depacketize now prevEnd au rest with
    | release sample e =>
      rw [hverdict] at h
      exact ⟨fun hnone p hp ↦ hstarts p.1 (h.1 hnone p hp), ih h.2⟩
    | wait => trivial
    | abandon reason =>
      rw [hverdict] at h
      exact ih h

/-- Sample `j` was the last that was reported: what is pending is behind it, and the anchor is its
end if nothing was given up since. -/
structure Settled (S : Stream) (s : Assembler Int) (j : Nat) : Prop where
  newest : ∃ n ∈ s.newestTimestamp, S.time j ≤ n
  pending : ∀ u ∈ s.pending, S.time j ≤ u.timestamp
  anchored : ∀ e ∈ s.prevEnd, S.ends (j + 1) ≤ e ∧ (s.gapOpen = false → e = S.ends (j + 1))
  lost : s.prevEnd = none → s.gapOpen = true ∧ ∀ u ∈ s.pending, S.time j < u.timestamp

/-- A packet that goes to its place is behind the last sample. -/
theorem Settled.admitted {k : Nat} (h : Settled S s j) (hadmitted : Admitted S s s' k) :
    Settled S s' j := by
  obtain ⟨n, hn, hle⟩ := h.newest
  have hnewest := hadmitted.newest n hn
  refine ⟨?_, fun u hu ↦ ?_, ?_, fun hnone ↦ ?_⟩
  · obtain ⟨n', hn', hle'⟩ := hnewest
    exact ⟨n', hn', hle.trans hle'⟩
  · rcases hadmitted.times u hu with ⟨v, hv, htime⟩ | ⟨htime, hfresh⟩
    · exact htime ▸ h.pending v hv
    · rw [htime]
      rcases hfresh with ⟨e, he, hlt⟩ | hlt
      · have hjk : S.ends (j + 1) < S.ends (k + 1) := (h.anchored e he).1.trans_lt hlt
        have hjk : j < k := Nat.lt_of_succ_lt_succ (S.lt_of_ends_lt hjk)
        exact S.time_mono hjk.le
      · exact hle.trans (hlt n hn).le
  · rw [hadmitted.prevEnd, hadmitted.gapOpen]
    exact h.anchored
  · rw [hadmitted.prevEnd] at hnone
    obtain ⟨hgap, hlater⟩ := h.lost hnone
    rw [hadmitted.gapOpen]
    refine ⟨hgap, fun u hu ↦ ?_⟩
    rcases hadmitted.times u hu with ⟨v, hv, htime⟩ | ⟨htime, hfresh⟩
    · exact htime ▸ hlater v hv
    · rw [htime]
      refine hle.trans_lt (hfresh.resolve_left (fun hsome ↦ ?_) n hn)
      obtain ⟨e, he, -⟩ := hsome
      rw [hnone] at he
      cases he

/-- Only the timestamps of what is pending count. -/
theorem Settled.congr (h : Settled S s j) {pending : List (PendingAu Int)}
    (hpending : ∀ u ∈ pending, ∃ v ∈ s.pending, u.timestamp = v.timestamp) :
    Settled S { s with pending := pending } j := by
  refine ⟨h.newest, fun u hu ↦ ?_, h.anchored, fun hnone ↦ ⟨(h.lost hnone).1, fun u hu ↦ ?_⟩⟩
  · obtain ⟨v, hv, htime⟩ := hpending u hu
    exact htime ▸ h.pending v hv
  · obtain ⟨v, hv, htime⟩ := hpending u hu
    exact htime ▸ (h.lost hnone).2 v hv

/-! ### Releasing -/

/-- A release is of a whole unit. -/
theorem verdict_release {prevEnd : Option Int} {sample : VideoSample Int} {e : Int}
    (h : verdict depacketize now prevEnd au rest = .release sample e) :
    au.depacketizeIfComplete depacketize prevEnd = some (some (sample, e)) := by
  unfold verdict at h
  simp only at h
  split at h
  · cases hlimit : limitOf au rest with
    | some reason => simp [hlimit] at h
    | none =>
      simp only [hlimit] at h
      split at h <;> simp at h
  · cases hdep : au.depacketizeIfComplete depacketize prevEnd with
    | none => simp [hdep] at h
    | some r =>
      cases r with
      | none =>
        cases hlimit : limitOf au rest with
        | some reason => simp [hdep, hlimit] at h
        | none =>
          simp only [hdep, hlimit] at h
          split at h <;> simp at h
      | some r =>
        simp only [hdep, Verdict.release.injEq] at h
        rw [← h.1, ← h.2]

/-- A unit that is released is a sample behind the last one, and the next one if nothing was given
up in between. -/
theorem Ordered.release {last : Option Nat} {sample : VideoSample Int} {e : Int}
    (h : Ordered S s) (hpending : s.pending = au :: rest) (hsettled : ∀ j ∈ last, Settled S s j)
    (hstarts : s.prevEnd = none → ∀ p ∈ au.parts.head?, S.Starts p.1)
    (hrelease : verdict depacketize now s.prevEnd au rest = .release sample e) :
    ∃ k data, au.markerSeq = some e ∧ e = S.ends (k + 1) ∧ au.timestamp = S.time k ∧
      depacketize (S.payloads k) = some data ∧
      sample = ⟨S.time k, auHasIdr data, 0, 0, data⟩ ∧
      ∀ j ∈ last, j < k ∧ (k = j + 1 ∨ s.gapOpen = true) := by
  have hdep := verdict_release hrelease
  have hau : au ∈ s.pending := by simp [hpending]
  cases hprev : s.prevEnd with
  | some e0 =>
    obtain ⟨k, rfl, -⟩ := h.anchor e0 hprev
    rw [hprev] at hdep
    obtain ⟨hmarker, rfl, htime, data, hdata, -, rfl⟩ := (h.fits au hau).released rfl hdep
    refine ⟨k, data, hmarker, rfl, htime, hdata, rfl, fun j hj ↦ ?_⟩
    obtain ⟨hle, hnext⟩ := (hsettled j hj).anchored _ hprev
    refine ⟨S.le_of_ends_le hle, ?_⟩
    cases hgap : s.gapOpen with
    | true => exact .inr rfl
    | false => exact .inl (S.ends_injective (hnext hgap))
  | none =>
    rw [hprev] at hdep
    obtain ⟨-, start, -, hstart, -⟩ := depacketizeIfComplete_eq hdep
    obtain ⟨p, hp, rfl⟩ := Option.map_eq_some_iff.mp hstart
    obtain ⟨k, hk⟩ := hstarts hprev p (Option.filter_eq_some_iff.mp hp).1
    obtain ⟨hmarker, rfl, htime, data, hdata, -, rfl⟩ :=
      (h.fits au hau).released (hk ▸ hstart) hdep
    refine ⟨k, data, hmarker, rfl, htime, hdata, rfl, fun j hj ↦ ?_⟩
    obtain ⟨hgap, hlater⟩ := (hsettled j hj).lost hprev
    exact ⟨Stream.lt_of_time_lt (htime ▸ hlater au hau), .inr hgap⟩

/-- A sample that is released is the last one. -/
theorem Ordered.settled_release (h : Ordered S s) (hpending : s.pending = au :: rest) {k : Nat}
    (htime : au.timestamp = S.time k) :
    Settled S { s with pending := rest, prevEnd := some (S.ends (k + 1)), gapOpen := false } k := by
  have horder := h.order
  rw [hpending, List.pairwise_cons] at horder
  refine ⟨?_, fun u hu ↦ htime ▸ (horder.1 u hu).time, fun e he ↦ ?_, fun hnone ↦ ?_⟩
  · obtain ⟨n, hn, hle⟩ := h.newest au (by simp [hpending])
    exact ⟨n, hn, htime ▸ hle⟩
  · obtain rfl := Option.some.inj he
    exact ⟨le_refl _, fun _ ↦ rfl⟩
  · cases hnone

/-- What is behind a unit that is given up is behind the last sample. -/
theorem Settled.abandon (h : Settled S s j) (ho : Ordered S s) (hpending : s.pending = au :: rest) :
    Settled S { s with pending := rest, prevEnd := au.markerSeq, gapOpen := true } j := by
  have hau : au ∈ s.pending := by simp [hpending]
  have hrest : ∀ v ∈ rest, v ∈ s.pending := fun v hv ↦ by simp [hpending, hv]
  have horder := ho.order
  rw [hpending, List.pairwise_cons] at horder
  refine ⟨h.newest, fun u hu ↦ h.pending u (hrest u hu), fun m hm ↦ ⟨?_, fun hgap ↦ ?_⟩,
    fun hnone ↦ ⟨rfl, fun u hu ↦ ?_⟩⟩
  · cases hprev : s.prevEnd with
    | some e => exact (h.anchored e hprev).1.trans (ho.behind e hprev au hau m (.inr hm)).le
    | none =>
      -- The marker is of a sample with a later timestamp.
      obtain ⟨i, hi, htime⟩ := (ho.fits au hau).owned m (.inr hm)
      have hlt := (h.lost hprev).2 au hau
      rw [← htime] at hlt
      exact (S.ends_mono (Stream.lt_of_time_lt hlt)).trans hi.1.le
  · cases hgap
  · have hlt : au.timestamp < u.timestamp :=
      lt_of_le_of_ne (horder.1 u hu).time fun heq ↦ (horder.1 u hu).apart heq hnone
    exact (h.pending au hau).trans_lt hlt

/-- The loop reports samples in order. What comes after is reported behind them. -/
theorem collectLoop_reports {pending : List (PendingAu Int)} {last : Option Nat}
    (h : Ordered S s) (hpending : s.pending = pending) (hsettled : ∀ j ∈ last, Settled S s j)
    (hstarts : WholeStarts S.Starts depacketize now s.prevEnd pending) :
    let r := collectLoop depacketize now pending s.prevEnd s.gapOpen
    let s' := { s with pending := r.pending, prevEnd := r.prevEnd, gapOpen := r.gapOpen }
    Ordered S s' ∧ ∃ last' : Option Nat, (∀ j ∈ last', Settled S s' j) ∧
      ∀ events, Reports S.time (fun k ↦ depacketize (S.payloads k)) last' r.gapOpen events →
        Reports S.time (fun k ↦ depacketize (S.payloads k)) last s.gapOpen
         (r.events ++ events) := by
  induction pending generalizing s last with
  | nil =>
    simp only [collectLoop, List.nil_append]
    rw [← hpending]
    exact ⟨h, last, hsettled, fun _ hevents ↦ hevents⟩
  | cons au rest ih =>
    have htail := h.tail hpending
    rw [WholeStarts] at hstarts
    rw [collectLoop]
    cases hverdict : verdict depacketize now s.prevEnd au rest with
    | release sample e =>
      rw [hverdict] at hstarts
      obtain ⟨k, data, hmarker, rfl, htime, hdata, rfl, hnext⟩ :=
        h.release hpending hsettled hstarts.1 hverdict
      have hordered := htail false
      rw [hmarker] at hordered
      obtain ⟨hordered', last', hsettled', hreports⟩ := @ih _ (some k) hordered rfl
        (fun j hj ↦ Option.some.inj hj ▸ h.settled_release hpending htime) hstarts.2
      exact ⟨hordered', last', hsettled', fun events hevents ↦
        ⟨k, data, hnext, hdata, rfl, hreports events hevents⟩⟩
    | wait =>
      refine ⟨h.waiting hpending, last, fun j hj ↦ (hsettled j hj).congr fun u hu ↦ ?_,
        fun _ hevents ↦ hevents⟩
      rw [hpending]
      rcases List.mem_cons.mp hu with rfl | hu
      · refine ⟨au, List.mem_cons_self, ?_⟩
        split <;> rfl
      · exact ⟨u, List.mem_cons_of_mem _ hu, rfl⟩
    | abandon reason =>
      rw [hverdict] at hstarts
      obtain ⟨hordered', last', hsettled', hreports⟩ := @ih _ last (htail true) rfl
        (fun j hj ↦ (hsettled j hj).abandon h hpending) hstarts
      refine ⟨hordered', last', hsettled', fun events hevents ↦ ?_⟩
      have hrest := hreports events hevents
      cases hgap : s.gapOpen with
      | true => exact hrest
      | false => exact hrest

/-- A packet that arrives reports samples in order. -/
theorem pushAt_reports {last : Option Nat} {l : Option Int} {d : Delivery}
    (h : Ordered S s) (hsettled : ∀ j ∈ last, Settled S s j) (hd : S.Owns d.sample d.seq)
    (hlast : s.lastSeq = l.map fun l ↦ (wireSeq l, l)) (hreach : Reach l d.seq)
    (hstarts : WholeStarts S.Starts depacketize d.time s.prevEnd
      (startClocks d.time (s.placeAt later (S.packet d) d.time).pending)) :
    let r := s.pushAt later depacketize (S.packet d) d.time
    Ordered S r.1 ∧ r.1.lastSeq = some (wireSeq (furthest l d.seq), furthest l d.seq) ∧
      ∃ last' : Option Nat, (∀ j ∈ last', Settled S r.1 j) ∧ ∀ events,
        Reports S.time (fun k ↦ depacketize (S.payloads k)) last' r.1.gapOpen events →
        Reports S.time (fun k ↦ depacketize (S.payloads k)) last s.gapOpen (r.2 ++ events) := by
  have hadmitted := h.placeAt hd hlast hreach d.time
  have hseq := lastSeq_placeAt (S := S) hlast hreach d.time
  rw [pushAt_packet]
  obtain ⟨s1, hs1⟩ : ∃ s1, s1 = s.placeAt later (S.packet d) d.time := ⟨_, rfl⟩
  rw [← hs1] at hadmitted hseq hstarts ⊢
  rw [← hadmitted.prevEnd] at hstarts
  have hclocks : ∀ j ∈ last, Settled S { s1 with pending := startClocks d.time s1.pending } j :=
    fun j hj ↦ ((hsettled j hj).admitted hadmitted).congr fun u hu ↦ by
      obtain ⟨v, hv, -, -, htime, -⟩ := mem_startClocks hu
      exact ⟨v, hv, htime⟩
  obtain ⟨hordered, last', hsettled', hreports⟩ :=
    collectLoop_reports hadmitted.ordered.startClocks rfl hclocks hstarts
  rw [← hadmitted.gapOpen]
  exact ⟨hordered, hseq, last', hsettled', hreports⟩

/-! ### Whole runs -/

/-- What is asked of the state when a packet arrives: the timestamps that count are near each
other, and what will be released without an anchor starts where a sample starts. -/
def Sound (S : Stream) (Starts : Int → Prop) (depacketize : List Bytes → Option Bytes)
    (s : Assembler Int) (d : Delivery) : Prop :=
  Tellable s (S.time d.sample) ∧
    WholeStarts Starts depacketize d.time s.prevEnd
      (startClocks d.time (s.placeAt later (S.packet d) d.time).pending)

/-- It is asked of every state of a run. -/
def SoundRun (S : Stream) (Starts : Int → Prop) (depacketize : List Bytes → Option Bytes) :
    Assembler Int → List Delivery → Prop
  | _, [] => True
  | s, d :: ds =>
    Sound S Starts depacketize s d ∧
      SoundRun S Starts depacketize (s.pushAt later depacketize (S.packet d) d.time).1 ds

instance decidableSoundRun (S : Stream) (Starts : Int → Prop) [DecidablePred Starts]
    (depacketize : List Bytes → Option Bytes) :
    (s : Assembler Int) → (ds : List Delivery) → Decidable (SoundRun S Starts depacketize s ds)
  | _, [] => .isTrue trivial
  | s, d :: ds =>
    have := decidableSoundRun S Starts depacketize
      (s.pushAt later depacketize (S.packet d) d.time).1 ds
    inferInstanceAs (Decidable ((Tellable s (S.time d.sample) ∧
      WholeStarts Starts depacketize d.time s.prevEnd
        (startClocks d.time (s.placeAt later (S.packet d) d.time).pending)) ∧
      SoundRun S Starts depacketize (s.pushAt later depacketize (S.packet d) d.time).1 ds))

theorem SoundRun.mono {Starts Starts' : Int → Prop} (hstarts : ∀ q, Starts q → Starts' q)
    {ds : List Delivery} (h : SoundRun S Starts depacketize s ds) :
    SoundRun S Starts' depacketize s ds := by
  induction ds generalizing s with
  | nil => trivial
  | cons d ds ih => exact ⟨⟨h.1.1, h.1.2.mono hstarts⟩, ih h.2⟩

/-- It is the same for the packets elsewhere on the line. -/
theorem SoundRun.shift {c : Int} (hc : c % 65536 = 0) {ds : List Delivery}
    (h : SoundRun S (fun q ↦ S.Starts (q + c)) depacketize s ds) :
    SoundRun (S.shift c) (S.shift c).Starts depacketize s (ds.map (Delivery.shift c)) := by
  have hstarts : ∀ q, S.Starts (q + c) → (S.shift c).Starts q := by
    rintro q ⟨k, hk⟩
    exact ⟨k, by simp only [Stream.shift]; omega⟩
  induction ds generalizing s with
  | nil => trivial
  | cons d ds ih =>
    obtain ⟨⟨htell, hwhole⟩, hrest⟩ := h
    simp only [List.map_cons, SoundRun, Sound, S.packet_shift hc]
    exact ⟨⟨htell, hwhole.mono hstarts⟩, ih hrest⟩

/-- A run on the assembler's line reports samples in order, and the same on the wire. -/
theorem run_reports (t0 : UInt32) {ds : List Delivery} {last : Option Nat} {l : Option Int}
    (h : Ordered S s) (hsettled : ∀ j ∈ last, Settled S s j)
    (hds : ∀ d ∈ ds, S.Owns d.sample d.seq)
    (hlast : s.lastSeq = l.map fun l ↦ (wireSeq l, l)) (hreached : Reached l ds)
    (hsound : SoundRun S S.Starts depacketize s ds) :
    Reports S.time (fun k ↦ depacketize (S.payloads k)) last s.gapOpen
        (s.run later depacketize (S.arrivals ds)).2 ∧
      (s.map (wireTime t0)).run newerRtpTs depacketize (S.onWire t0 ds) =
        ((s.run later depacketize (S.arrivals ds)).1.map (wireTime t0),
          (s.run later depacketize (S.arrivals ds)).2.map (AssemblyEvent.map (wireTime t0))) := by
  induction ds generalizing s last l with
  | nil => exact ⟨trivial, rfl⟩
  | cons d ds ih =>
    obtain ⟨⟨htell, hstarts⟩, hsound⟩ := hsound
    have hd := hds d List.mem_cons_self
    have hadmitted := h.placeAt hd hlast hreached.1 d.time
    obtain ⟨hordered, hlast', last', hsettled', hreports⟩ :=
      pushAt_reports h hsettled hd hlast hreached.1 hstarts
    obtain ⟨hrest, hwire⟩ := @ih _ last' (some (furthest l d.seq)) hordered hsettled'
      (fun d' hd' ↦ hds d' (List.mem_cons_of_mem _ hd')) hlast' hreached.2 hsound
    refine ⟨hreports _ hrest, ?_⟩
    have hstep := htell.pushAt_onWire t0 depacketize rfl hadmitted
    simp only [Stream.onWire, Stream.arrivals, List.map_cons, Assembler.run] at hwire ⊢
    rw [hstep, hwire, List.map_append]

/-- Whatever is lost, repeated or reordered: while what is released without an anchor starts where
a sample starts and the timestamps that are compared are near, whole samples are reported in the
order in which they were sent, and a discontinuity between two that do not follow each other. -/
theorem samples_reported_whole (S : Stream) (t0 : UInt32)
    (depacketize : List Bytes → Option Bytes) (ds : List Delivery)
    (howned : ∀ d ∈ ds, S.Owns d.sample d.seq) (hwithin : Within none ds)
    (hsound : SoundRun S (fun q ↦ S.Starts (q + origin ds)) depacketize {} ds) :
    Reports (fun k ↦ wireTime t0 (S.time k)) (fun k ↦ depacketize (S.payloads k)) none false
        (H264AuAssembler.run depacketize {} (S.onWire t0 ds)).2 ∧
      (H264AuAssembler.run depacketize {} (S.onWire t0 ds)).1 =
        (Assembler.run later depacketize {} (S.arrivals ds)).1.map (wireTime t0) := by
  have hc := origin_emod ds
  have hempty : Ordered (S.shift (origin ds)) {} :=
    ⟨by simp, List.Pairwise.nil, by simp, by simp, by simp⟩
  have howned' : ∀ d ∈ ds.map (Delivery.shift (origin ds)),
      (S.shift (origin ds)).Owns d.sample d.seq := by
    intro d' hd'
    obtain ⟨d, hd, rfl⟩ := List.mem_map.mp hd'
    exact Stream.owns_shift (howned d hd)
  have hfirst : ∀ j ∈ (none : Option Nat), Settled (S.shift (origin ds)) {} j := by simp
  obtain ⟨hreports, hwire⟩ := run_reports t0 hempty hfirst howned' rfl hwithin.reached
    (hsound.shift hc)
  have hpayloads : (fun k ↦ depacketize ((S.shift (origin ds)).payloads k)) =
      fun k ↦ depacketize (S.payloads k) :=
    funext fun k ↦ congrArg depacketize (S.payloads_shift (origin ds) k)
  rw [hpayloads, S.arrivals_shift hc] at hreports
  rw [S.arrivals_shift hc, S.onWire_shift hc] at hwire
  have hrun : H264AuAssembler.run depacketize {} (S.onWire t0 ds) =
      Assembler.run newerRtpTs depacketize (Assembler.map (wireTime t0) {}) (S.onWire t0 ds) := rfl
  rw [hrun, hwire]
  exact ⟨hreports.map (wireTime t0), rfl⟩

/-! ### Parameter sets in front of a picture -/

/-- A depacketizer of single units: a start code in front of each. -/
def startCodes (payloads : List Bytes) : Option Bytes :=
  some (payloads.flatMap fun p ↦ 0 :: 0 :: 0 :: 1 :: p)

/-- Samples of a parameter set and a picture, numbered across the wrap. -/
def pairs : Stream where
  ends k := 65533 + 2 * k
  time k := 3000 * k
  payload q := if q % 2 = 0 then [0x67, 0x42, 0x1F] else [0x65, 0xAA, 0xBB]
  ends_lt k := by omega
  time_le k := by omega
  payload_ne q := by split <;> simp

/-- The start of sample 1 is lost, and sample 2 arrives the wrong way round and twice. -/
def lossy : List Delivery :=
  [⟨0, 65534, 0⟩, ⟨0, 65535, 0⟩, ⟨1, 65537, 1000000⟩, ⟨2, 65539, 2000000⟩, ⟨2, 65538, 2000000⟩,
    ⟨2, 65539, 3000000⟩, ⟨3, 65540, 160000000⟩, ⟨3, 65541, 160000000⟩]

theorem pairs_starts {q : Int} (h : q % 2 = 0 ∧ 65534 ≤ q) : pairs.Starts q :=
  ⟨((q - 65534) / 2).toNat, by simp only [pairs]; omega⟩

theorem lossy_owned : ∀ d ∈ lossy, pairs.Owns d.sample d.seq := by
  unfold Stream.Owns
  decide

theorem lossy_within : Within none lossy := by decide

theorem lossy_sound :
    SoundRun pairs (fun q ↦ pairs.Starts (q + origin lossy)) startCodes {} lossy :=
  SoundRun.mono (fun _ ↦ pairs_starts)
    (by decide : SoundRun pairs (fun q ↦ (q + origin lossy) % 2 = 0 ∧ 65534 ≤ q + origin lossy)
      startCodes {} lossy)

/-- Samples 0, 2 and 3 are reported, with a discontinuity for sample 1. -/
theorem lossy_reported :
    Reports (fun k ↦ wireTime 4294967000 (pairs.time k)) (fun k ↦ startCodes (pairs.payloads k))
      none false (H264AuAssembler.run startCodes {} (pairs.onWire 4294967000 lossy)).2 :=
  (samples_reported_whole pairs 4294967000 startCodes lossy lossy_owned lossy_within lossy_sound).1

/-- Samples of two parameter sets and a picture. -/
def triples : Stream where
  ends k := 99 + 3 * k
  time k := 3000 * k
  payload q :=
    if q % 3 = 1 then [0x67, 0x42, 0x1F]
    else if q % 3 = 2 then [0x68, 0xCE, 0x38]
    else [0x65, 0xAA, 0xBB]
  ends_lt k := by omega
  time_le k := by omega
  payload_ne q := by split <;> [simp; split <;> simp]

/-- The first packet is lost. -/
def headless : List Delivery := [⟨0, 101, 0⟩, ⟨0, 102, 0⟩]

theorem triples_payloads (k : Nat) :
    triples.payloads k = [[0x67, 0x42, 0x1F], [0x68, 0xCE, 0x38], [0x65, 0xAA, 0xBB]] := by
  have hlen : (triples.ends (k + 1) - triples.ends k).toNat = 3 := by
    simp only [triples]
    omega
  have hfirst : (99 + 3 * (k : Int) + 1) % 3 = 1 := by omega
  have hsecond : (99 + 3 * (k : Int) + 1 + 1) % 3 = 2 := by omega
  have hthird : (99 + 3 * (k : Int) + 1 + 2) % 3 = 0 := by omega
  rw [Stream.payloads, Lib.stretch, hlen]
  simp [triples, List.range_succ, hfirst, hsecond, hthird]

/-- The second parameter set looks like a start, so a sample is reported without its first
packet. -/
theorem headless_sample_reported :
    (∀ d ∈ headless, triples.Owns d.sample d.seq) ∧ Within none headless ∧
      headless.Pairwise (fun a b ↦ a.time ≤ b.time) ∧
      ¬ Reports (fun k ↦ wireTime 0 (triples.time k)) (fun k ↦ startCodes (triples.payloads k))
        none false (H264AuAssembler.run startCodes {} (triples.onWire 0 headless)).2 := by
  have hevents : (H264AuAssembler.run startCodes {} (triples.onWire 0 headless)).2 =
      [.sample ⟨0, true, 0, 0, [0, 0, 0, 1, 0x68, 0xCE, 0x38, 0, 0, 0, 1, 0x65, 0xAA, 0xBB]⟩] := by
    decide
  refine ⟨?_, ?_, ?_, ?_⟩
  · unfold Stream.Owns
    decide
  · decide
  · decide
  · rw [hevents]
    rintro ⟨k, data, -, hdata, hv, -⟩
    simp only [triples_payloads] at hdata
    obtain rfl := Option.some.inj hdata
    simp at hv

end MyOwnMesh.Video
