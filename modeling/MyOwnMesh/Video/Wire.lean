import Mathlib.Data.List.InsertIdx
import MyOwnMesh.Video.Release

/-!
# Numbers on the wire

On the wire a sequence number has 16 bits and a timestamp 32. The assembler puts sequence numbers
on the unbounded line by the newest packet, and compares timestamps the shorter way round. While
the packets that are compared are near enough, it does what an assembler would do whose numbers
do not wrap.
-/

namespace MyOwnMesh.Video

/-! ### Sequence numbers -/

/-- The number of a packet on the wire. -/
def wireSeq (q : Int) : UInt16 := UInt16.ofNat (q % 65536).toNat

theorem toNat_wireSeq (q : Int) : ((wireSeq q).toNat : Int) = q % 65536 := by
  have hlt : (q % 65536).toNat < 2 ^ 16 := by omega
  rw [wireSeq, UInt16.toNat_ofNat', Nat.mod_eq_of_lt hlt]
  omega

/-- The signed difference of near numbers is their distance. -/
theorem toInt_wireSeq_sub {q last : Int} (hlow : -32768 ≤ q - last) (hhigh : q - last < 32768) :
    (wireSeq q - wireSeq last).toInt16.toInt = q - last := by
  have hq := toNat_wireSeq q
  have hl := toNat_wireSeq last
  have hsub : (wireSeq q - wireSeq last).toNat =
      (65536 - (wireSeq last).toNat + (wireSeq q).toNat) % 65536 := UInt16.toNat_sub _ _
  have hint : (wireSeq q - wireSeq last).toInt16.toInt =
      ((wireSeq q - wireSeq last).toNat : Int).bmod 65536 := BitVec.toInt_eq_toNat_bmod _
  rw [hint, Int.bmod]
  split <;> omega

/-- A packet near the newest one is put at its place, and is the newest if it is further on. -/
theorem unwrapSeq_of_near {T : Type} {s : Assembler T} {q last : Int}
    (hlast : s.lastSeq = some (wireSeq last, last)) (hlow : -32768 ≤ q - last)
    (hhigh : q - last < 32768) :
    unwrapSeq s (wireSeq q) =
      ({ s with lastSeq := some (wireSeq (max last q), max last q) }, q) := by
  have hdelta := toInt_wireSeq_sub hlow hhigh
  simp only [unwrapSeq, hlast, hdelta]
  have hplace : last + (q - last) = q := by omega
  rw [hplace]
  split
  · have hmax : max last q = q := by omega
    rw [hmax]
  · have hmax : max last q = last := by omega
    rw [hmax, ← hlast]

/-! ### Timestamps -/

/-- The timestamp on the wire, so many ticks after the first. -/
def wireTime (t0 : UInt32) (t : Int) : UInt32 := UInt32.ofNat ((t0.toNat + t) % 4294967296).toNat

theorem toNat_wireTime (t0 : UInt32) (t : Int) :
    ((wireTime t0 t).toNat : Int) = (t0.toNat + t) % 4294967296 := by
  have hlt : ((t0.toNat + t) % 4294967296).toNat < 2 ^ 32 := by omega
  rw [wireTime, UInt32.toNat_ofNat', Nat.mod_eq_of_lt hlt]
  omega

/-- Two timestamps are near if the shorter way round is the way between them. -/
def Near (a b : Int) : Prop := a - b < 2147483647 ∧ b - a < 2147483647

instance (a b : Int) : Decidable (Near a b) := inferInstanceAs (Decidable (_ ∧ _))

theorem newerRtpTs_wireTime (t0 : UInt32) {a b : Int} (h : Near a b) :
    newerRtpTs (wireTime t0 a) (wireTime t0 b) = later a b := by
  have ha := toNat_wireTime t0 a
  have hb := toNat_wireTime t0 b
  have hsub : (wireTime t0 a - wireTime t0 b).toNat =
      (4294967296 - (wireTime t0 b).toNat + (wireTime t0 a).toNat) % 4294967296 :=
    UInt32.toNat_sub _ _
  have hhalf : (0xFFFFFFFF / 2 : UInt32).toNat = 2147483647 := by decide
  obtain ⟨hab, hba⟩ := h
  unfold newerRtpTs later
  rw [Bool.eq_iff_iff]
  simp only [Bool.and_eq_true, bne_iff_ne, decide_eq_true_eq, ne_eq, UInt32.lt_iff_toNat_lt,
    ← UInt32.toNat_inj, hsub, hhalf]
  omega

theorem wireTime_injOn (t0 : UInt32) {a b : Int} (h : Near a b)
    (heq : wireTime t0 a = wireTime t0 b) : a = b := by
  have ha := toNat_wireTime t0 a
  have hb := toNat_wireTime t0 b
  rw [heq] at ha
  obtain ⟨hab, hba⟩ := h
  omega

/-! ### The assembler at other timestamps -/

section Map

variable {T T' : Type} (f : T → T')

/-- A unit with its timestamp translated. -/
def PendingAu.map (u : PendingAu T) : PendingAu T' :=
  ⟨f u.timestamp, u.parts, u.markerSeq, u.blockedSince, u.overflowed⟩

/-- A sample with its timestamp translated. -/
def VideoSample.map (v : VideoSample T) : VideoSample T' :=
  ⟨f v.rtpTimestamp, v.key, v.lane, v.sequence, v.data⟩

/-- An event with its timestamp translated. -/
def AssemblyEvent.map : AssemblyEvent T → AssemblyEvent T'
  | .sample v => .sample (v.map f)
  | .discontinuity ts d => .discontinuity (f ts) d

/-- An assembler with its timestamps translated. -/
def Assembler.map (s : Assembler T) : Assembler T' :=
  ⟨s.pending.map (PendingAu.map f), s.prevEnd, s.lastSeq, s.newestTimestamp.map f, s.gapOpen⟩

/-- A packet with its timestamp translated. -/
def RtpPacket.map (p : RtpPacket T) : RtpPacket T' :=
  ⟨p.sequenceNumber, f p.timestamp, p.marker, p.payload⟩

/-- A verdict with its timestamp translated. -/
def Verdict.map : Verdict T → Verdict T'
  | .release v e => .release (v.map f) e
  | .wait => .wait
  | .abandon reason => .abandon reason

/-- What was collected, with its timestamps translated. -/
def Collected.map (c : Collected T) : Collected T' :=
  ⟨c.pending.map (PendingAu.map f), c.prevEnd, c.gapOpen, c.events.map (AssemblyEvent.map f)⟩

variable {f} {au : PendingAu T} {rest : List (PendingAu T)} {now : Nat}
  {depacketize : List Bytes → Option Bytes}

@[simp] theorem PendingAu.map_timestamp : (au.map f).timestamp = f au.timestamp := rfl

@[simp] theorem PendingAu.map_parts : (au.map f).parts = au.parts := rfl

@[simp] theorem PendingAu.map_markerSeq : (au.map f).markerSeq = au.markerSeq := rfl

@[simp] theorem PendingAu.map_blockedSince : (au.map f).blockedSince = au.blockedSince := rfl

@[simp] theorem PendingAu.map_overflowed : (au.map f).overflowed = au.overflowed := rfl

theorem observable_map :
    (au.map f).observable (rest.map (PendingAu.map f)) = au.observable rest := by
  simp [PendingAu.observable, PendingAu.map]

theorem startClocks_map (l : List (PendingAu T)) :
    startClocks now (l.map (PendingAu.map f)) = (startClocks now l).map (PendingAu.map f) := by
  induction l with
  | nil => rfl
  | cons au rest ih =>
    rw [List.map_cons, startClocks, startClocks, ih, observable_map, List.map_cons]
    split <;> rfl

theorem depacketizeIfComplete_map (prevEnd : Option Int) :
    (au.map f).depacketizeIfComplete depacketize prevEnd =
      (au.depacketizeIfComplete depacketize prevEnd).map
        (Option.map fun r ↦ (r.1.map f, r.2)) := by
  have hstart : (au.map f).start prevEnd = au.start prevEnd := by
    cases prevEnd <;> rfl
  unfold PendingAu.depacketizeIfComplete
  rw [hstart, PendingAu.map_markerSeq, PendingAu.map_timestamp, PendingAu.map_parts]
  split
  · next m start hm hs =>
    simp only
    split
    · rfl
    · split
      · rfl
      · split
        · rfl
        · split <;> rfl
  · rfl

variable {A : T → Prop} {newer : T → T → Bool} {newer' : T' → T' → Bool} {seq : Int} {ts : T}

theorem findIdx?_map_of_agree (hnewer : ∀ a b, A a → A b → newer' (f a) (f b) = newer a b)
    {l : List (PendingAu T)} (hl : ∀ u ∈ l, A u.timestamp) (hts : A ts) :
    (l.map (PendingAu.map f)).findIdx? (fun au ↦ newer' au.timestamp (f ts)) =
      l.findIdx? fun au ↦ newer au.timestamp ts := by
  induction l with
  | nil => rfl
  | cons au rest ih =>
    have hau := hl au List.mem_cons_self
    rw [List.map_cons, List.findIdx?_cons, List.findIdx?_cons, PendingAu.map_timestamp,
      hnewer _ _ hau hts, ih fun u hu ↦ hl u (List.mem_cons_of_mem _ hu)]

/-- A unit in front of the packet blocks it at other timestamps, too. -/
theorem blocking_map (hinj : ∀ a b, A a → A b → f a = f b → a = b)
    (hnewer : ∀ a b, A a → A b → newer' (f a) (f b) = newer a b) {left : Option (PendingAu T)}
    (hleft : ∀ u ∈ left, A u.timestamp) (hts : A ts) :
    (∃ au ∈ left.map (PendingAu.map f),
        (f ts ≠ au.timestamp ∧ newer' (f ts) au.timestamp = false) ∨
          ∃ e ∈ au.parts.getLast?, seq ≤ e.1) ↔
      ∃ au ∈ left, (ts ≠ au.timestamp ∧ newer ts au.timestamp = false) ∨
        ∃ e ∈ au.parts.getLast?, seq ≤ e.1 := by
  cases left with
  | none => simp
  | some au =>
    have hau := hleft au rfl
    have hsame : f ts = f au.timestamp ↔ ts = au.timestamp :=
      ⟨fun h ↦ hinj _ _ hts hau h, fun h ↦ congrArg f h⟩
    simp [hsame, hnewer _ _ hts hau]

theorem PendingAu.store_map (payload : Bytes) :
    (au.map f).store seq payload = (au.store seq payload).map f := by
  unfold PendingAu.store
  rw [PendingAu.map_parts]
  split
  · rfl
  · split <;> rfl

theorem PendingAu.split_map : (au.map f).split seq = (au.split seq).map (PendingAu.map f) := by
  cases htail : (au.parts.filter fun e ↦ decide (seq < e.1)).isEmpty <;>
    simp only [PendingAu.split, PendingAu.map, htail, Bool.false_eq_true, reduceIte] <;> rfl

/-- A packet goes into a unit at other timestamps as well. -/
theorem put_map (s : Assembler T) (pos : Nat) (marker : Bool) (payload : Bytes) :
    (s.map f).put pos seq marker payload = (s.put pos seq marker payload).map f := by
  have hget : (s.map f).pending[pos]? = (s.pending[pos]?).map (PendingAu.map f) :=
    List.getElem?_map ..
  unfold Assembler.put
  rw [hget]
  cases s.pending[pos]? with
  | none => rfl
  | some au =>
    simp only [Option.map_some, PendingAu.store_map, PendingAu.split_map]
    cases marker <;> simp [Assembler.map]

theorem unwrapSeq_frame (s : Assembler T) (raw : UInt16) :
    (unwrapSeq s raw).1.pending = s.pending ∧
      (unwrapSeq s raw).1.newestTimestamp = s.newestTimestamp := by
  unfold unwrapSeq
  split
  · exact ⟨rfl, rfl⟩
  · simp only
    split <;> exact ⟨rfl, rfl⟩

theorem unwrapSeq_map (s : Assembler T) (raw : UInt16) :
    unwrapSeq (s.map f) raw = ((unwrapSeq s raw).1.map f, (unwrapSeq s raw).2) := by
  have hlast : (s.map f).lastSeq = s.lastSeq := rfl
  unfold unwrapSeq
  rw [hlast]
  split
  · rfl
  · simp only
    split <;> rfl

variable [DecidableEq T] [DecidableEq T']

theorem pendingFrames_map (hinj : ∀ a b, A a → A b → f a = f b → a = b)
    {l : List (PendingAu T)} (hl : ∀ u ∈ l, A u.timestamp) (previous : Option T)
    (hprevious : ∀ a ∈ previous, A a) :
    pendingFrames (previous.map f) (l.map (PendingAu.map f)) = pendingFrames previous l := by
  induction l generalizing previous with
  | nil => rfl
  | cons au rest ih =>
    have hau := hl au List.mem_cons_self
    have hrest : ∀ u ∈ rest, A u.timestamp := fun u hu ↦ hl u (List.mem_cons_of_mem _ hu)
    have hsame : previous.map f = some (au.map f).timestamp ↔ previous = some au.timestamp := by
      constructor
      · intro heq
        obtain ⟨a, ha, hfa⟩ := Option.map_eq_some_iff.mp heq
        rw [ha, hinj a au.timestamp (hprevious a ha) hau hfa]
      · intro heq
        rw [heq]
        rfl
    rw [List.map_cons, pendingFrames, pendingFrames]
    by_cases heq : previous = some au.timestamp
    · rw [if_pos heq, if_pos (hsame.mpr heq), ih hrest previous hprevious]
    · rw [if_neg heq, if_neg (fun h ↦ heq (hsame.mp h))]
      have hnext := ih hrest (some au.timestamp) fun a ha ↦ Option.some.inj ha ▸ hau
      exact congrArg (· + 1) hnext

theorem limitOf_map (hinj : ∀ a b, A a → A b → f a = f b → a = b)
    (hl : ∀ u ∈ au :: rest, A u.timestamp) :
    limitOf (au.map f) (rest.map (PendingAu.map f)) = limitOf au rest := by
  have hframes : pendingFrames none (au.map f :: rest.map (PendingAu.map f)) =
      pendingFrames none (au :: rest) :=
    pendingFrames_map hinj hl none (by simp)
  have hparts : ((au.map f :: rest.map (PendingAu.map f)).map fun u ↦ u.parts.length) =
      (au :: rest).map fun u ↦ u.parts.length := by
    rw [List.map_cons, List.map_map, List.map_cons]
    rfl
  simp only [limitOf, hframes, hparts]
  rfl

theorem verdict_map (hinj : ∀ a b, A a → A b → f a = f b → a = b)
    (hl : ∀ u ∈ au :: rest, A u.timestamp) (prevEnd : Option Int) :
    verdict depacketize now prevEnd (au.map f) (rest.map (PendingAu.map f)) =
      (verdict depacketize now prevEnd au rest).map f := by
  simp only [verdict, limitOf_map hinj hl, observable_map, depacketizeIfComplete_map,
    PendingAu.map_overflowed, PendingAu.map_blockedSince]
  by_cases hover : au.overflowed = true
  · rw [if_pos hover, if_pos hover]
    cases limitOf au rest with
    | some reason => rfl
    | none =>
      simp only
      split <;> rfl
  · rw [if_neg hover, if_neg hover]
    rcases au.depacketizeIfComplete depacketize prevEnd with _ | _ | ⟨sample, e⟩
    · rfl
    · cases limitOf au rest with
      | some reason => rfl
      | none =>
        simp only [Option.map_some, Option.map_none]
        split <;> rfl
    · rfl

/-- The loop does the same at other timestamps that can be told apart. -/
theorem collectLoop_map (hinj : ∀ a b, A a → A b → f a = f b → a = b)
    {l : List (PendingAu T)} (hl : ∀ u ∈ l, A u.timestamp) (prevEnd : Option Int)
    (gapOpen : Bool) :
    collectLoop depacketize now (l.map (PendingAu.map f)) prevEnd gapOpen =
      (collectLoop depacketize now l prevEnd gapOpen).map f := by
  induction l generalizing prevEnd gapOpen with
  | nil => rfl
  | cons au rest ih =>
    have hrest : ∀ u ∈ rest, A u.timestamp := fun u hu ↦ hl u (List.mem_cons_of_mem _ hu)
    rw [List.map_cons, collectLoop, collectLoop, verdict_map hinj hl]
    cases verdict depacketize now prevEnd au rest with
    | release sample e =>
      simp only [Verdict.map, ih hrest]
      rfl
    | wait =>
      simp only [Verdict.map, observable_map, Collected.map, List.map_cons, List.map_nil]
      split <;> rfl
    | abandon reason =>
      have hevent : discontinuityOf now reason (au.map f) (rest.map (PendingAu.map f)) =
          (discontinuityOf now reason au rest).map f := by
        have hframes : pendingFrames none (au.map f :: rest.map (PendingAu.map f)) =
            pendingFrames none (au :: rest) :=
          pendingFrames_map hinj hl none (by simp)
        simp only [discontinuityOf, observable_map, hframes, AssemblyEvent.map, List.map_cons,
          List.map_map, List.length_cons, List.length_map]
        rfl
      simp only [Verdict.map, ih hrest, hevent]
      cases gapOpen <;> simp [Collected.map, PendingAu.map]

/-- Releasing does the same at other timestamps that can be told apart. -/
theorem collectReady_map (hinj : ∀ a b, A a → A b → f a = f b → a = b) {s : Assembler T}
    (hs : ∀ u ∈ s.pending, A u.timestamp) :
    (s.map f).collectReady depacketize now =
      ((s.collectReady depacketize now).1.map f,
        (s.collectReady depacketize now).2.map (AssemblyEvent.map f)) := by
  have hclocks : ∀ u ∈ startClocks now s.pending, A u.timestamp := by
    intro v hv
    obtain ⟨u, hu, -, -, htime, -⟩ := mem_startClocks hv
    rw [htime]
    exact hs u hu
  simp only [Assembler.collectReady, Assembler.map, startClocks_map, collectLoop_map hinj hclocks]
  rfl

/-! ### Receiving at other timestamps -/

variable {s : Assembler T}

theorem pendingPosition_map (hinj : ∀ a b, A a → A b → f a = f b → a = b)
    {l : List (PendingAu T)} (hl : ∀ u ∈ l, A u.timestamp) (hts : A ts) (lower : Option Int) :
    pendingPosition (f ts) seq lower (l.map (PendingAu.map f)) =
      pendingPosition ts seq lower l := by
  induction l generalizing lower with
  | nil => rfl
  | cons au rest ih =>
    have hau := hl au List.mem_cons_self
    have hrest : ∀ u ∈ rest, A u.timestamp := fun u hu ↦ hl u (List.mem_cons_of_mem _ hu)
    rw [List.map_cons, pendingPosition, pendingPosition, PendingAu.map_timestamp,
      PendingAu.map_markerSeq, ih hrest, ih hrest]
    by_cases heq : au.timestamp = ts
    · rw [if_pos heq, if_pos (congrArg f heq)]
    · rw [if_neg heq, if_neg fun h ↦ heq (hinj _ _ hau hts h)]

theorem slot_map (hinj : ∀ a b, A a → A b → f a = f b → a = b)
    (hnewer : ∀ a b, A a → A b → newer' (f a) (f b) = newer a b)
    (hs : ∀ u ∈ s.pending, A u.timestamp) (hnewest : ∀ n ∈ s.newestTimestamp, A n)
    (hts : A ts) : (s.map f).slot newer' seq (f ts) now = s.slot newer seq ts now := by
  have hnewest' : (s.map f).newestTimestamp = s.newestTimestamp.map f := rfl
  have hprev : (s.map f).prevEnd = s.prevEnd := rfl
  have hpending : (s.map f).pending = s.pending.map (PendingAu.map f) := rfl
  unfold Assembler.slot
  rw [hnewest', hprev, hpending, List.length_map]
  cases hn : s.newestTimestamp with
  | none => rfl
  | some newest =>
    have hA := hnewest newest hn
    simp only [Option.map_some, hnewer _ _ hts hA]
    by_cases heq : ts = newest
    · rw [if_pos heq, if_pos (congrArg f heq)]
    · rw [if_neg heq, if_neg fun h ↦ heq (hinj _ _ hts hA h)]
      split
      · rfl
      · rw [findIdx?_map_of_agree hnewer hs hts]
        cases s.prevEnd with
        | none => rfl
        | some endSeq =>
          cases s.pending.findIdx? fun au ↦ newer au.timestamp ts with
          | none => rfl
          | some next =>
            simp only [Option.bind_eq_bind, Option.bind_some, List.getElem?_map]
            cases hright : s.pending[next]? with
            | none => rfl
            | some right =>
              have hleft : (if next = 0 then none else
                    (s.pending[next - 1]?).map (PendingAu.map f)) =
                  (if next = 0 then none else s.pending[next - 1]?).map (PendingAu.map f) := by
                split <;> rfl
              have hmem : ∀ u ∈ (if next = 0 then none else s.pending[next - 1]?),
                  A u.timestamp := by
                intro u hu
                split at hu
                · cases hu
                · exact hs u (List.mem_of_getElem? hu)
              simp only [Option.map_some, Option.bind_some, PendingAu.map_parts,
                PendingAu.map_blockedSince]
              refine if_congr (or_congr Iff.rfl (or_congr Iff.rfl ?_)) rfl rfl
              rw [hleft]
              exact blocking_map hinj hnewer hmem hts

theorem enter_map (hinj : ∀ a b, A a → A b → f a = f b → a = b)
    (hnewer : ∀ a b, A a → A b → newer' (f a) (f b) = newer a b)
    (hs : ∀ u ∈ s.pending, A u.timestamp) (hnewest : ∀ n ∈ s.newestTimestamp, A n)
    (hts : A ts) : (s.map f).enter newer' seq (f ts) now =
      (s.enter newer seq ts now).map fun r ↦ (r.1.map f, r.2) := by
  have hprev : (s.map f).prevEnd = s.prevEnd := rfl
  have hpending : (s.map f).pending = s.pending.map (PendingAu.map f) := rfl
  unfold Assembler.enter
  rw [slot_map hinj hnewer hs hnewest hts, hprev, hpending, pendingPosition_map hinj hs hts]
  cases pendingPosition ts seq s.prevEnd s.pending with
  | some pos => rfl
  | none =>
    cases s.slot newer seq ts now with
    | none => rfl
    | some r =>
      have hinsert :
          (s.pending.map (PendingAu.map f)).insertIdx r.1 (⟨f ts, [], none, r.2, false⟩) =
            (s.pending.insertIdx r.1 ⟨ts, [], none, r.2, false⟩).map (PendingAu.map f) :=
        (List.map_insertIdx (PendingAu.map f) _ _ ⟨ts, [], none, r.2, false⟩).symm
      have hnew : (∀ n ∈ (s.map f).newestTimestamp, newer' (f ts) n = true) ↔
          ∀ n ∈ s.newestTimestamp, newer ts n = true := by
        cases hn : s.newestTimestamp with
        | none => simp [Assembler.map, hn]
        | some n => simp [Assembler.map, hn, hnewer _ _ hts (hnewest n hn)]
      simp only [Option.bind_eq_bind, Option.bind_some, Option.pure_def, Option.map_some]
      rw [hinsert]
      by_cases h : ∀ n ∈ s.newestTimestamp, newer ts n = true
      · rw [if_pos h, if_pos (hnew.mpr h)]
        rfl
      · rw [if_neg h, if_neg fun h' ↦ h (hnew.mp h')]
        rfl

theorem place_map (hinj : ∀ a b, A a → A b → f a = f b → a = b)
    (hnewer : ∀ a b, A a → A b → newer' (f a) (f b) = newer a b)
    (hs : ∀ u ∈ s.pending, A u.timestamp) (hnewest : ∀ n ∈ s.newestTimestamp, A n)
    (hts : A ts) (marker : Bool) (payload : Bytes) :
    (s.map f).place newer' seq (f ts) marker payload now =
      (s.place newer seq ts marker payload now).map f := by
  unfold Assembler.place
  rw [enter_map hinj hnewer hs hnewest hts]
  cases s.enter newer seq ts now with
  | none => rfl
  | some r => exact put_map r.1 r.2 marker payload

/-- A packet does the same at other timestamps that can be told apart and are in the same order. -/
theorem pushAt_map (hinj : ∀ a b, A a → A b → f a = f b → a = b)
    (hnewer : ∀ a b, A a → A b → newer' (f a) (f b) = newer a b) {pkt : RtpPacket T}
    (hs : ∀ u ∈ s.pending, A u.timestamp) (hnewest : ∀ n ∈ s.newestTimestamp, A n)
    (hts : A pkt.timestamp)
    (hplaced : ∀ u ∈ ((unwrapSeq s pkt.sequenceNumber).1.place newer
      (unwrapSeq s pkt.sequenceNumber).2 pkt.timestamp pkt.marker pkt.payload now).pending,
      A u.timestamp) :
    (s.map f).pushAt newer' depacketize (pkt.map f) now =
      ((s.pushAt newer depacketize pkt now).1.map f,
        (s.pushAt newer depacketize pkt now).2.map (AssemblyEvent.map f)) := by
  have hseq : (pkt.map f).sequenceNumber = pkt.sequenceNumber := rfl
  have htime : (pkt.map f).timestamp = f pkt.timestamp := rfl
  have hmarker : (pkt.map f).marker = pkt.marker := rfl
  have hpayload : (pkt.map f).payload = pkt.payload := rfl
  obtain ⟨hpending, hnewest'⟩ := unwrapSeq_frame s pkt.sequenceNumber
  unfold Assembler.pushAt Assembler.push
  rw [hseq, htime, hmarker, hpayload, unwrapSeq_map]
  split
  · exact collectReady_map hinj hs
  · simp only
    rw [place_map hinj hnewer (by rwa [hpending]) (by rwa [hnewest']) hts]
    exact collectReady_map hinj hplaced

end Map

end MyOwnMesh.Video
