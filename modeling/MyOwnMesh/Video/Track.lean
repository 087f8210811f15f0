import MyOwnMesh.Video.Wire

/-!
# What arrives of a stream

A delivery is a packet of a stream that arrives at some time: packets may be lost, arrive twice
and in any order, as long as each is within half of the sequence space of the furthest one so far.
The assembler puts each at its place on the sequence line; and if the timestamps that it has to
compare are near, it does what it would do if it were told them before they wrap.
-/

namespace MyOwnMesh.Video

/-- A packet of a stream arrives: its sample, its place on the sequence line, and when. -/
structure Delivery where
  sample : Nat
  seq : Int
  time : Nat
deriving DecidableEq

/-- The packet, with its timestamp before it wraps. The marker is on the last packet of a sample
only. -/
def Stream.packet (S : Stream) (d : Delivery) : RtpPacket Int where
  sequenceNumber := wireSeq d.seq
  timestamp := S.time d.sample
  marker := decide (d.seq = S.ends (d.sample + 1))
  payload := S.payload d.seq

/-- What arrives, with timestamps before they wrap. -/
def Stream.arrivals (S : Stream) (ds : List Delivery) : List (RtpPacket Int × Nat) :=
  ds.map fun d ↦ (S.packet d, d.time)

/-- What arrives on the wire. -/
def Stream.onWire (S : Stream) (t0 : UInt32) (ds : List Delivery) :
    List (RtpPacket UInt32 × Nat) :=
  ds.map fun d ↦ ((S.packet d).map (wireTime t0), d.time)

section Run

variable {T : Type} [DecidableEq T] (newer : T → T → Bool)
  (depacketize : List Bytes → Option Bytes)

/-- Packets arrive one after the other. -/
def Assembler.run (s : Assembler T) :
    List (RtpPacket T × Nat) → Assembler T × List (AssemblyEvent T)
  | [] => (s, [])
  | (pkt, now) :: rest =>
    let r := s.pushAt newer depacketize pkt now
    let r' := r.1.run rest
    (r'.1, r.2 ++ r'.2)

/-- The queue with the packet in it, before anything is released. -/
def Assembler.placeAt (s : Assembler T) (pkt : RtpPacket T) (now : Nat) : Assembler T :=
  let r := unwrapSeq s pkt.sequenceNumber
  r.1.place newer r.2 pkt.timestamp pkt.marker pkt.payload now

end Run

/-- The assembler of a track runs on what arrives. -/
def H264AuAssembler.run (depacketize : List Bytes → Option Bytes) (s : H264AuAssembler)
    (pkts : List (RtpPacket UInt32 × Nat)) : H264AuAssembler × List (AssemblyEvent UInt32) :=
  Assembler.run newerRtpTs depacketize s pkts

variable {S : Stream} {depacketize : List Bytes → Option Bytes} {s : Assembler Int} {d : Delivery}
  {now : Nat}

theorem pushAt_packet (s : Assembler Int) (d : Delivery) (now : Nat) :
    s.pushAt later depacketize (S.packet d) now =
      (s.placeAt later (S.packet d) now).collectReady depacketize now := by
  have hne : (S.packet d).payload.isEmpty = false := by
    have hpayload := S.payload_ne d.seq
    simpa [Stream.packet] using hpayload
  rw [Assembler.pushAt, hne, if_neg Bool.false_ne_true]
  rfl

/-! ### Places on the sequence line -/

/-- The furthest place so far. -/
def furthest : Option Int → Int → Int
  | none, q => q
  | some l, q => max l q

/-- The packet is found at its place: within half of the sequence space of the furthest one, and
the first at its 16-bit number. -/
def Reach : Option Int → Int → Prop
  | none, q => 0 ≤ q ∧ q < 65536
  | some l, q => -32768 ≤ q - l ∧ q - l < 32768

/-- Every packet is found at its place. -/
def Reached : Option Int → List Delivery → Prop
  | _, [] => True
  | l, d :: ds => Reach l d.seq ∧ Reached (some (furthest l d.seq)) ds

theorem unwrapSeq_of_reach {l : Option Int} {q : Int}
    (hlast : s.lastSeq = l.map fun l ↦ (wireSeq l, l)) (h : Reach l q) :
    unwrapSeq s (wireSeq q) =
      ({ s with lastSeq := some (wireSeq (furthest l q), furthest l q) }, q) := by
  cases l with
  | none =>
    have hq := toNat_wireSeq q
    have hmod : q % 65536 = q := Int.emod_eq_of_lt h.1 h.2
    rw [hmod] at hq
    simp only [Option.map_none] at hlast
    simp only [unwrapSeq, hlast, hq, furthest]
  | some l => exact unwrapSeq_of_near hlast h.1 h.2

theorem lastSeq_place (s : Assembler Int) (q ts : Int) (marker : Bool) (payload : Bytes)
    (now : Nat) : (s.place later q ts marker payload now).lastSeq = s.lastSeq := by
  unfold Assembler.place
  split
  · rfl
  · next s' pos henter =>
    have hlast : s'.lastSeq = s.lastSeq := by
      unfold Assembler.enter at henter
      split at henter
      · simp only [Option.some.injEq, Prod.mk.injEq] at henter
        rw [henter.1]
      · simp only [Option.bind_eq_bind, Option.bind_eq_some_iff] at henter
        obtain ⟨r, -, henter⟩ := henter
        simp only [Option.pure_def, Option.some.injEq, Prod.mk.injEq] at henter
        rw [← henter.1]
    unfold Assembler.put
    split
    · exact hlast
    · exact hlast

/-- The order of the queue is not about the sequence unwrapper. -/
theorem Ordered.withLastSeq (h : Ordered S s) (x : Option (UInt16 × Int)) :
    Ordered S { s with lastSeq := x } :=
  ⟨h.fits, h.order, h.newest, h.anchor, h.behind⟩

theorem Admitted.of_lastSeq {s' : Assembler Int} {k : Nat} {x : Option (UInt16 × Int)}
    (h : Admitted S { s with lastSeq := x } s' k) : Admitted S s s' k :=
  ⟨h.ordered, h.prevEnd, h.gapOpen, h.newest, h.times⟩

theorem placeAt_of_reach {l : Option Int} (hlast : s.lastSeq = l.map fun l ↦ (wireSeq l, l))
    (hreach : Reach l d.seq) : s.placeAt later (S.packet d) now =
      ({ s with lastSeq := some (wireSeq (furthest l d.seq), furthest l d.seq) }).place later d.seq
        (S.time d.sample) (decide (d.seq = S.ends (d.sample + 1))) (S.payload d.seq) now := by
  rw [Assembler.placeAt, Stream.packet, unwrapSeq_of_reach hlast hreach]

theorem lastSeq_placeAt {l : Option Int} (hlast : s.lastSeq = l.map fun l ↦ (wireSeq l, l))
    (hreach : Reach l d.seq) (now : Nat) : (s.placeAt later (S.packet d) now).lastSeq =
      some (wireSeq (furthest l d.seq), furthest l d.seq) := by
  rw [placeAt_of_reach hlast hreach, lastSeq_place]

/-- A packet that is found goes to its place. -/
theorem Ordered.placeAt {l : Option Int} (h : Ordered S s) (hd : S.Owns d.sample d.seq)
    (hlast : s.lastSeq = l.map fun l ↦ (wireSeq l, l)) (hreach : Reach l d.seq) (now : Nat) :
    Admitted S s (s.placeAt later (S.packet d) now) d.sample := by
  rw [placeAt_of_reach hlast hreach]
  exact ((h.withLastSeq _).place hd).of_lastSeq

/-! ### The assembler's line -/

/-- Every packet is within half of the sequence space of the furthest one before it. -/
def Within : Option Int → List Delivery → Prop
  | _, [] => True
  | l, d :: ds =>
    (∀ m ∈ l, -32768 ≤ d.seq - m ∧ d.seq - m < 32768) ∧ Within (some (furthest l d.seq)) ds

instance decidableWithin : (l : Option Int) → (ds : List Delivery) → Decidable (Within l ds)
  | _, [] => .isTrue trivial
  | l, d :: ds =>
    have := decidableWithin (some (furthest l d.seq)) ds
    inferInstanceAs (Decidable ((∀ m ∈ l, -32768 ≤ d.seq - m ∧ d.seq - m < 32768) ∧
      Within (some (furthest l d.seq)) ds))

/-- The assembler's line starts at a multiple of the sequence space, so that the first packet to
arrive is at its 16-bit number. -/
def origin : List Delivery → Int
  | [] => 0
  | d :: _ => d.seq - d.seq % 65536

/-- The stream with its packets elsewhere on the line. -/
def Stream.shift (S : Stream) (c : Int) : Stream where
  ends k := S.ends k - c
  time := S.time
  payload q := S.payload (q + c)
  ends_lt k := Int.sub_lt_sub_right (S.ends_lt k) c
  time_le := S.time_le
  payload_ne q := S.payload_ne (q + c)

/-- The same packet, elsewhere on the line. -/
def Delivery.shift (c : Int) (d : Delivery) : Delivery := { d with seq := d.seq - c }

theorem origin_emod (ds : List Delivery) : origin ds % 65536 = 0 := by
  cases ds with
  | nil => rfl
  | cons d ds =>
    rw [origin]
    omega

theorem Stream.payloads_shift (S : Stream) (c : Int) (k : Nat) :
    (S.shift c).payloads k = S.payloads k := by
  have hlen : S.ends (k + 1) - c - (S.ends k - c) = S.ends (k + 1) - S.ends k := by omega
  simp only [Stream.payloads, Stream.shift, Lib.stretch, List.map_map, hlen]
  refine List.map_congr_left fun i _ ↦ congrArg S.payload ?_
  show S.ends k - c + 1 + (i : Int) + c = S.ends k + 1 + (i : Int)
  omega

/-- On the wire the packets are the same. -/
theorem Stream.packet_shift (S : Stream) {c : Int} (hc : c % 65536 = 0) (d : Delivery) :
    (S.shift c).packet (d.shift c) = S.packet d := by
  have hseq : (d.seq - c) % 65536 = d.seq % 65536 := by omega
  have hback : d.seq - c + c = d.seq := by omega
  have hlast : d.seq - c = S.ends (d.sample + 1) - c ↔ d.seq = S.ends (d.sample + 1) := by omega
  simp only [Stream.packet, Stream.shift, Delivery.shift, wireSeq, hseq, hback, hlast]

theorem Stream.arrivals_shift (S : Stream) {c : Int} (hc : c % 65536 = 0) (ds : List Delivery) :
    (S.shift c).arrivals (ds.map (Delivery.shift c)) = S.arrivals ds := by
  rw [Stream.arrivals, Stream.arrivals, List.map_map]
  refine List.map_congr_left fun d _ ↦ ?_
  simp only [Function.comp_apply, S.packet_shift hc]
  rfl

theorem Stream.onWire_shift (S : Stream) {c : Int} (hc : c % 65536 = 0) (t0 : UInt32)
    (ds : List Delivery) : (S.shift c).onWire t0 (ds.map (Delivery.shift c)) = S.onWire t0 ds := by
  rw [Stream.onWire, Stream.onWire, List.map_map]
  refine List.map_congr_left fun d _ ↦ ?_
  simp only [Function.comp_apply, S.packet_shift hc]
  rfl

theorem Stream.owns_shift {S : Stream} {c : Int} {d : Delivery} (h : S.Owns d.sample d.seq) :
    (S.shift c).Owns (d.shift c).sample (d.shift c).seq :=
  ⟨Int.sub_lt_sub_right h.1 c, Int.sub_le_sub_right h.2 c⟩

theorem Within.reached_shift {ds : List Delivery} {m c : Int} (h : Within (some m) ds) :
    Reached (some (m - c)) (ds.map (Delivery.shift c)) := by
  induction ds generalizing m with
  | nil => trivial
  | cons d ds ih =>
    obtain ⟨hreach, hrest⟩ := h
    obtain ⟨hlow, hhigh⟩ := hreach m rfl
    have hseq : (d.shift c).seq = d.seq - c := rfl
    have hfurthest : furthest (some (m - c)) (d.seq - c) = furthest (some m) d.seq - c := by
      simp only [furthest]
      omega
    refine ⟨⟨by omega, by omega⟩, ?_⟩
    rw [hseq, hfurthest]
    exact ih hrest

/-- On the assembler's line every packet is found at its place. -/
theorem Within.reached {ds : List Delivery} (h : Within none ds) :
    Reached none (ds.map (Delivery.shift (origin ds))) := by
  cases ds with
  | nil => trivial
  | cons d ds =>
    have hseq : (d.shift (origin (d :: ds))).seq = d.seq - origin (d :: ds) := rfl
    have horigin : origin (d :: ds) = d.seq - d.seq % 65536 := rfl
    refine ⟨?_, h.2.reached_shift⟩
    rw [hseq, horigin]
    exact ⟨by omega, by omega⟩

/-! ### Timestamps -/

/-- The timestamps that count when a packet arrives: its own, the newest and those of what is
pending. -/
def comparedTimes (s : Assembler Int) (ts : Int) : List Int :=
  ts :: (s.newestTimestamp.toList ++ s.pending.map PendingAu.timestamp)

/-- The timestamps that count are near each other. -/
def Tellable (s : Assembler Int) (ts : Int) : Prop :=
  ∀ a ∈ comparedTimes s ts, ∀ b ∈ comparedTimes s ts, Near a b

instance (s : Assembler Int) (ts : Int) : Decidable (Tellable s ts) :=
  inferInstanceAs (Decidable (∀ a ∈ comparedTimes s ts, ∀ b ∈ comparedTimes s ts, Near a b))

/-- On the wire the same is done. -/
theorem Tellable.pushAt_onWire {s1 : Assembler Int} (t0 : UInt32)
    (depacketize : List Bytes → Option Bytes) (h : Tellable s (S.time d.sample))
    (hplaced : s.placeAt later (S.packet d) now = s1)
    (hadmitted : Admitted S s s1 d.sample) :
    (s.map (wireTime t0)).pushAt newerRtpTs depacketize ((S.packet d).map (wireTime t0)) now =
      ((s.pushAt later depacketize (S.packet d) now).1.map (wireTime t0),
        (s.pushAt later depacketize (S.packet d) now).2.map (AssemblyEvent.map (wireTime t0))) := by
  have hown : S.time d.sample ∈ comparedTimes s (S.time d.sample) := List.mem_cons_self
  have hnewest : ∀ n ∈ s.newestTimestamp, n ∈ comparedTimes s (S.time d.sample) := fun n hn ↦
    List.mem_cons_of_mem _ (List.mem_append_left _ (Option.mem_toList.mpr hn))
  have hpending : ∀ u ∈ s.pending, u.timestamp ∈ comparedTimes s (S.time d.sample) := fun u hu ↦
    List.mem_cons_of_mem _ (List.mem_append_right _ (List.mem_map_of_mem hu))
  refine pushAt_map (A := (· ∈ comparedTimes s (S.time d.sample)))
    (fun a b ha hb heq ↦ wireTime_injOn t0 (h a ha b hb) heq)
    (fun a b ha hb ↦ newerRtpTs_wireTime t0 (h a ha b hb)) hpending hnewest hown fun u hu ↦ ?_
  have hu : u ∈ s1.pending := hplaced ▸ hu
  rcases hadmitted.times u hu with ⟨v, hv, htime⟩ | ⟨htime, -⟩
  · exact htime ▸ hpending v hv
  · exact htime ▸ hown

end MyOwnMesh.Video
