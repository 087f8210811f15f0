import MyOwnMesh.Engine.ClockSkew

/-!
# The clock-skew arithmetic is exact

The heartbeat on `i64` beside the heartbeat on the integers. As long as no operation leaves the
range, the numbers of the first stand for those of the second. The time on the wire is whatever a
peer sends; only the half round trip added to it can leave the range. Every sample is then above
`i64::MIN`, and so has a magnitude.
-/

namespace MyOwnMesh.ClockSkew

open Lib Lib.Ranks Lib.Replay Lib.Arithmetic Lib.Checked

/-! ### The integers that the numbers stand for -/

section Map

variable {ν μ : Type} (f : ν → μ)

def PeerClock.map (p : PeerClock ν) : PeerClock μ :=
  ⟨p.status, p.lastPingT.map f, p.rttMs, p.clockSkewSamples.map f, p.clockSkewMs.map f⟩

def SkewVerdict.map : SkewVerdict ν → SkewVerdict μ
  | .warn skewMs peers => .warn (f skewMs) peers
  | .clear skewMs => .clear (f skewMs)

def ClockDiag.map : ClockDiag ν → ClockDiag μ
  | .warn magnitudeMs behind peers => .warn (f magnitudeMs) behind peers
  | .clear skewMs => .clear (f skewMs)

def mapPeers (peers : List (String × PeerClock ν)) : List (String × PeerClock μ) :=
  peers.map fun p ↦ (p.1, p.2.map f)

def Heartbeat.map (s : Heartbeat ν) : Heartbeat μ :=
  ⟨mapPeers f s.peers, s.watch, s.diags.map (·.map f)⟩

end Map

section Agree

variable {ν : Type} (A : Arithmetic ν)

theorem agrees_median (samples : List ν) :
    Agrees (Option.map A.toInt) (median A samples) (median integers (samples.map A.toInt)) := by
  have hsorted : (ascending A.toInt samples).map A.toInt =
      ascending integers.toInt (samples.map A.toInt) :=
    map_ascending A.toInt A.toInt (fun _ ↦ rfl) samples
  unfold median
  rw [List.isEmpty_map, ← hsorted]
  simp only [List.length_map, List.getElem?_map]
  split
  · exact .pure rfl
  split
  · exact .pure rfl
  · cases (ascending A.toInt samples)[(ascending A.toInt samples).length / 2 - 1]? with
    | none => exact .pure rfl
    | some a =>
      cases (ascending A.toInt samples)[(ascending A.toInt samples).length / 2]? with
      | none => exact .pure rfl
      | some b =>
        refine (A.agrees_result _).bind fun x ↦ (A.agrees_result _).bind fun y ↦ .pure ?_
        exact congrArg some (apply_ite A.toInt (A.toInt x ≤ A.toInt y) a b)

theorem agrees_observe (w : ClockSkewWatch) (estimate : Option ν) (peers : Nat) :
    Agrees (Prod.map id (Option.map (SkewVerdict.map A.toInt))) (w.observe A estimate peers)
      (w.observe integers (estimate.map A.toInt) peers) := by
  cases estimate with
  | none => exact .pure rfl
  | some x =>
    refine (A.agrees_result _).bind fun magnitude ↦ ?_
    show Agrees _ (ite (skewWarnMs ≤ A.toInt magnitude) _ _)
      (ite (skewWarnMs ≤ A.toInt magnitude) _ _)
    split
    · dsimp only
      split
      · exact .pure rfl
      · exact .pure rfl
    split
    · refine (A.agrees_result _).bind fun magnitude ↦ ?_
      show Agrees _ (ite (A.toInt magnitude ≤ skewClearMs) _ _)
        (ite (A.toInt magnitude ≤ skewClearMs) _ _)
      split
      · exact .pure rfl
      · exact .pure rfl
    · exact .pure rfl

theorem agrees_announce (v : Option (SkewVerdict ν)) :
    Agrees (List.map (ClockDiag.map A.toInt)) (announce A v)
      (announce integers (v.map (SkewVerdict.map A.toInt))) := by
  match v with
  | none => exact .pure rfl
  | some (.clear x) => exact .pure rfl
  | some (.warn x n) => exact (A.agrees_result _).bind fun magnitude ↦ .pure rfl

theorem measurable_mapPeers (peers : List (String × PeerClock ν)) :
    measurable (mapPeers A.toInt peers) = (measurable peers).map A.toInt := by
  unfold measurable mapPeers
  rw [List.filter_map, List.filterMap_map, List.map_filterMap]
  rfl

theorem agrees_watchClockSkew (s : Heartbeat ν) :
    Agrees (Heartbeat.map A.toInt) (watchClockSkew A s)
      (watchClockSkew integers (s.map A.toInt)) := by
  unfold watchClockSkew
  show Agrees _ _ (median integers (measurable (mapPeers A.toInt s.peers)) >>= _)
  rw [measurable_mapPeers]
  refine (agrees_median A _).bind fun estimate ↦ ?_
  have hlen : (measurable (s.map A.toInt).peers).length = (measurable s.peers).length := by
    show (measurable (mapPeers A.toInt s.peers)).length = _
    rw [measurable_mapPeers, List.length_map]
  rw [hlen]
  refine (agrees_observe A _ _ _).bind fun r ↦ (agrees_announce A _).bind fun told ↦ .pure ?_
  simp [Heartbeat.map]

theorem agrees_modifyPeer {device : String} {f : PeerClock ν → Checked (PeerClock ν)}
    {g : PeerClock Int → Checked (PeerClock Int)}
    (h : ∀ peer, Agrees (PeerClock.map A.toInt) (f peer) (g (peer.map A.toInt)))
    (peers : List (String × PeerClock ν)) :
    Agrees (mapPeers A.toInt) (modifyPeer device f peers)
      (modifyPeer device g (mapPeers A.toInt peers)) := by
  induction peers with
  | nil => exact .pure rfl
  | cons p peers ih =>
    obtain ⟨id, peer⟩ := p
    show Agrees _ (modifyPeer device f ((id, peer) :: peers))
      (modifyPeer device g ((id, peer.map A.toInt) :: mapPeers A.toInt peers))
    rw [modifyPeer, modifyPeer]
    split
    · exact (h peer).bind fun _ ↦ .pure rfl
    · exact ih.bind fun _ ↦ .pure rfl

theorem agrees_updatePeer {device : String} {f : PeerClock ν → Checked (PeerClock ν)}
    {g : PeerClock Int → Checked (PeerClock Int)}
    (h : ∀ peer, Agrees (PeerClock.map A.toInt) (f peer) (g (peer.map A.toInt)))
    (s : Heartbeat ν) :
    Agrees (Heartbeat.map A.toInt) (s.updatePeer device f)
      ((s.map A.toInt).updatePeer device g) :=
  (agrees_modifyPeer A h s.peers).bind fun _ ↦ .pure rfl

/-- A peer is left out of the numbers and of the integers alike. -/
theorem mapPeers_filter (device : String) (peers : List (String × PeerClock ν)) :
    mapPeers A.toInt (peers.filter (·.1 ≠ device)) =
      (mapPeers A.toInt peers).filter (·.1 ≠ device) := by
  unfold mapPeers
  rw [List.filter_map]
  rfl

end Agree

/-- The clock reads the same on `i64`. -/
theorem toInt_monotonicMs (now : SystemTime) :
    i64.toInt (monotonicMs i64 now) = monotonicMs integers now := by
  obtain ⟨millis, hlt⟩ := now
  cases millis with
  | none => exact i64.toInt_ofInt 0 ⟨by decide, by decide⟩
  | some ms =>
    have hms := hlt ms rfl
    exact i64.toInt_ofInt ms ⟨by omega, by omega⟩

/-- The clock is not before the epoch. -/
theorem monotonicMs_range (now : SystemTime) :
    0 ≤ i64.toInt (monotonicMs i64 now) ∧
      i64.toInt (monotonicMs i64 now) ≤ 9223372036854775807 := by
  refine ⟨?_, (fits_toInt _).2⟩
  rw [toInt_monotonicMs]
  unfold monotonicMs
  split
  · exact Int.natCast_nonneg _
  · exact Int.le_refl 0

/-- Half a round trip, which is a number of thirty-two bits. -/
theorem toInt_halfRtt (rttMs : Option UInt32) :
    i64.toInt (i64.ofInt ((rttMs.getD 0).toNat / 2 : Nat)) = ((rttMs.getD 0).toNat / 2 : Nat) := by
  have hlt := (rttMs.getD 0).toNat_lt
  exact i64.toInt_ofInt _ ⟨by omega, by omega⟩

/-- The number on the wire. -/
theorem toInt_wire (t : Int64) : i64.toInt (i64.ofInt t.toInt) = integers.ofInt t.toInt :=
  i64.toInt_ofInt _ (fits_toInt t)

theorem agrees_skewSample (rttMs : Option UInt32) (t now : Int64) :
    Agrees i64.toInt (skewSample i64 rttMs t now)
      (skewSample integers rttMs (i64.toInt t) (i64.toInt now)) := by
  refine Agrees.bind ?_ fun arrived ↦ i64.agrees_result _
  show Agrees _ (i64.result (_ + i64.toInt (i64.ofInt _))) _
  rw [toInt_halfRtt]
  exact i64.agrees_result _

theorem map_pushSample {ν μ : Type} (f : ν → μ) (samples : List ν) (sample : ν) :
    (pushSample samples sample).map f = pushSample (samples.map f) (f sample) := by
  unfold pushSample
  simp only [List.length_append, List.length_map, List.length_singleton]
  split
  · simp
  · simp

theorem agrees_onPing (peer : PeerClock Int64) (t now : Int64) :
    Agrees (PeerClock.map i64.toInt) (onPing i64 peer t now)
      (onPing integers (peer.map i64.toInt) (i64.toInt t) (i64.toInt now)) := by
  refine (agrees_skewSample peer.rttMs t now).bind fun sample ↦ ?_
  show Agrees _ _ (median integers (pushSample (peer.clockSkewSamples.map i64.toInt)
    (i64.toInt sample)) >>= _)
  rw [← map_pushSample]
  refine (agrees_median i64 _).bind fun skew ↦ .pure ?_
  simp only [PeerClock.map, map_pushSample]

theorem agrees_onPong (peer : PeerClock Int64) (t now : Int64) :
    Agrees (PeerClock.map i64.toInt) (onPong i64 peer t now)
      (onPong integers (peer.map i64.toInt) (i64.toInt t) (i64.toInt now)) := by
  have hlast : (peer.map i64.toInt).lastPingT.map integers.toInt =
      peer.lastPingT.map i64.toInt := congrFun Option.map_id _
  unfold onPong
  rw [hlast]
  by_cases hour : peer.lastPingT.map i64.toInt = some (i64.toInt t)
  · rw [if_pos hour, if_pos (show _ = some (integers.toInt (i64.toInt t)) from hour)]
    exact (i64.agrees_result _).bind fun elapsed ↦ .pure rfl
  · rw [if_neg hour, if_neg (show ¬_ = some (integers.toInt (i64.toInt t)) from hour)]
    exact .pure rfl

theorem agrees_step (s : Heartbeat Int64) (e : Event) :
    Agrees (Heartbeat.map i64.toInt) (step i64 s e) (step integers (s.map i64.toInt) e) := by
  cases e with
  | admitted device status =>
    refine .pure ?_
    simp only [Heartbeat.map, ← mapPeers_filter]
    simp [mapPeers, PeerClock.map]
  | statusSet device status =>
    apply agrees_updatePeer i64
    exact fun peer ↦ .pure rfl
  | dropped device =>
    refine .pure ?_
    simp only [Heartbeat.map, ← mapPeers_filter]
  | sendPing device now =>
    apply agrees_updatePeer i64
    intro peer
    refine .pure ?_
    simp only [PeerClock.map, Option.map_some, toInt_monotonicMs]
  | ping device t now =>
    rw [step, step]
    split
    · apply agrees_updatePeer i64
      intro peer
      rw [← toInt_wire, ← toInt_monotonicMs]
      exact agrees_onPing peer _ _
    · exact .pure rfl
  | pong device t now =>
    apply agrees_updatePeer i64
    intro peer
    rw [← toInt_wire, ← toInt_monotonicMs]
    exact agrees_onPong peer _ _
  | tick => exact agrees_watchClockSkew i64 s

/-! ### What stays in range -/

/-- Above `i64::MIN`, and so with a magnitude. -/
def AboveLowest (x : Int64) : Prop := -9223372036854775808 < x.toInt

structure PeerClock.Sound (p : PeerClock Int64) : Prop where
  lastPingT : ∀ t ∈ p.lastPingT, 0 ≤ t.toInt
  clockSkewSamples : ∀ x ∈ p.clockSkewSamples, AboveLowest x
  clockSkewMs : ∀ x ∈ p.clockSkewMs, AboveLowest x

def Heartbeat.Sound (s : Heartbeat Int64) : Prop := ∀ p ∈ s.peers, p.2.Sound

theorem exact_abs {x : Int64} (h : AboveLowest x) : (i64.abs x).exact = true := by
  have hlt := x.toInt_lt
  unfold AboveLowest at h
  refine (i64.exact_result _).mpr ⟨?_, ?_⟩
  · show -9223372036854775808 ≤ (x.toInt.natAbs : Int)
    omega
  · show (x.toInt.natAbs : Int) ≤ 9223372036854775807
    omega

theorem exact_median {samples : List Int64} (h : ∀ x ∈ samples, AboveLowest x) :
    (median i64 samples).exact = true := by
  have habs : ∀ {k : Nat} {x : Int64}, (ascending i64.toInt samples)[k]? = some x →
      (i64.abs x).exact = true :=
    fun hx ↦ exact_abs (h _ ((mem_ascending i64.toInt).mp (List.mem_of_getElem? hx)))
  unfold median
  split
  · rfl
  dsimp only
  split
  · rfl
  split
  next a b ha hb => simp only [exact_bind, exact_pure, habs ha, habs hb, Bool.and_self]
  next => rfl

theorem exact_observe (w : ClockSkewWatch) {estimate : Option Int64} (peers : Nat)
    (h : ∀ x ∈ estimate, AboveLowest x) : (w.observe i64 estimate peers).exact = true := by
  cases estimate with
  | none => rfl
  | some x =>
    have habs := exact_abs (h x rfl)
    unfold ClockSkewWatch.observe
    simp only [exact_bind, habs, Bool.true_and]
    split
    · split
      · rfl
      · rfl
    split
    · simp only [exact_bind, habs, Bool.true_and]
      split
      · rfl
      · rfl
    · rfl

/-- A warning is about the estimate it was raised at. -/
theorem warn_skew {w : ClockSkewWatch} {estimate : Option Int64} {peers n : Nat} {x : Int64}
    (h : (w.observe i64 estimate peers).value.2 = some (.warn x n)) : x ∈ estimate := by
  have hcall := observed w ⟨estimate, peers⟩
  rw [show verdict w ⟨estimate, peers⟩ = _ from h] at hcall
  generalize after w ⟨estimate, peers⟩ = w' at hcall
  cases hcall with
  | warn x n hx => exact hx

theorem exact_watchClockSkew {s : Heartbeat Int64} (hs : s.Sound) :
    (watchClockSkew i64 s).exact = true := by
  have hskews : ∀ x ∈ measurable s.peers, AboveLowest x := by
    intro x hx
    obtain ⟨p, hp, hskew⟩ := List.mem_filterMap.mp hx
    exact (hs p (List.mem_filter.mp hp).1).clockSkewMs x hskew
  have hestimate : ∀ x ∈ (median i64 (measurable s.peers)).value, AboveLowest x :=
    fun x hx ↦ hskews x (mem_of_median i64 hx)
  have hobserve := exact_observe s.watch (measurable s.peers).length hestimate
  unfold watchClockSkew
  simp only [exact_bind, exact_median hskews, hobserve, Bool.true_and, exact_pure, Bool.and_true]
  generalize hv : (s.watch.observe i64 (median i64 (measurable s.peers)).value
    (measurable s.peers).length).value.2 = v
  match v with
  | none => rfl
  | some (.clear x) => rfl
  | some (.warn x n) =>
    show ((i64.abs x).exact && true) = true
    rw [exact_abs (hestimate x (warn_skew hv)), Bool.and_true]

/-- The largest `i64` is not passed by the time of a ping and half the round trip of its sender. -/
def InRange (s : Heartbeat Int64) : Event → Prop
  | .ping device t _ => 0 < t.toInt → ∀ peer ∈ s.peers.lookup device,
      t.toInt + ((peer.rttMs.getD 0).toNat / 2 : Nat) ≤ 9223372036854775807
  | _ => True

theorem exact_modifyPeer {device : String} (f : PeerClock Int64 → Checked (PeerClock Int64))
    (peers : List (String × PeerClock Int64)) :
    (modifyPeer device f peers).exact = true ↔
      ∀ peer ∈ peers.lookup device, (f peer).exact = true := by
  induction peers with
  | nil => simp [modifyPeer]
  | cons p peers ih =>
    obtain ⟨id, peer⟩ := p
    rw [modifyPeer, List.lookup_cons]
    by_cases hid : id = device
    · simp [hid]
    · have hne : (device == id) = false := by simpa using fun h ↦ hid h.symm
      simp [hid, hne, ih]

theorem mem_modifyPeer {device : String} {f : PeerClock Int64 → Checked (PeerClock Int64)}
    {peers : List (String × PeerClock Int64)} {p : String × PeerClock Int64}
    (hp : p ∈ (modifyPeer device f peers).value) :
    p ∈ peers ∨ ∃ peer ∈ peers.lookup device, p.2 = (f peer).value := by
  induction peers with
  | nil => exact .inl hp
  | cons q peers ih =>
    obtain ⟨id, peer⟩ := q
    rw [modifyPeer] at hp
    rw [List.lookup_cons]
    by_cases hid : id = device
    · rw [if_pos hid] at hp
      rcases List.mem_cons.mp hp with rfl | hp
      · exact .inr ⟨peer, by simp [hid], rfl⟩
      · exact .inl (List.mem_cons_of_mem _ hp)
    · have hne : (device == id) = false := by simpa using fun h ↦ hid h.symm
      rw [if_neg hid] at hp
      rcases List.mem_cons.mp hp with rfl | hp
      · exact .inl List.mem_cons_self
      · rcases ih hp with hp | ⟨x, hx, heq⟩
        · exact .inl (List.mem_cons_of_mem _ hp)
        · exact .inr ⟨x, by simpa [hne] using hx, heq⟩

/-- The sample of a ping stays in range when the half round trip does, the clock being at or after
the epoch. -/
theorem exact_skewSample_iff {rttMs : Option UInt32} {t : Int64} (ht : 0 < t.toInt)
    (now : SystemTime) :
    (skewSample i64 rttMs t (monotonicMs i64 now)).exact = true ↔
      t.toInt + ((rttMs.getD 0).toNat / 2 : Nat) ≤ 9223372036854775807 := by
  have hhalf := toInt_halfRtt rttMs
  have hnow := monotonicMs_range now
  unfold skewSample
  rw [exact_bind, Bool.and_eq_true]
  unfold Arithmetic.add Arithmetic.sub
  rw [exact_result, exact_result, hhalf]
  constructor
  · rintro ⟨hadd, _⟩
    exact hadd.2
  · intro hle
    have hadd : i64.Fits (i64.toInt t + ((rttMs.getD 0).toNat / 2 : Nat)) := by
      refine ⟨?_, hle⟩
      show -9223372036854775808 ≤ t.toInt + _
      omega
    have hpos : 0 < i64.toInt t + ((rttMs.getD 0).toNat / 2 : Nat) := by
      show 0 < t.toInt + _
      omega
    refine ⟨hadd, ?_⟩
    rw [i64.toInt_result hadd]
    obtain ⟨_, hadd⟩ := hadd
    constructor <;> omega

/-- A sample in range has a magnitude. -/
theorem aboveLowest_skewSample {rttMs : Option UInt32} {t : Int64} (ht : 0 < t.toInt)
    (now : SystemTime) (h : t.toInt + ((rttMs.getD 0).toNat / 2 : Nat) ≤ 9223372036854775807) :
    AboveLowest (skewSample i64 rttMs t (monotonicMs i64 now)).value := by
  have hvalue := agrees_skewSample rttMs t _ ((exact_skewSample_iff ht now).mpr h)
  have hnow := monotonicMs_range now
  have hsum : (skewSample integers rttMs (i64.toInt t) (i64.toInt (monotonicMs i64 now))).value =
      t.toInt + ((rttMs.getD 0).toNat / 2 : Nat) - i64.toInt (monotonicMs i64 now) := rfl
  unfold AboveLowest
  rw [hsum] at hvalue
  have hsample : i64.toInt (skewSample i64 rttMs t (monotonicMs i64 now)).value =
      (skewSample i64 rttMs t (monotonicMs i64 now)).value.toInt := rfl
  omega

theorem mem_pushSample {samples : List Int64} {sample x : Int64}
    (h : x ∈ pushSample samples sample) : x ∈ samples ∨ x = sample := by
  have hmem : x ∈ samples ++ [sample] := by
    unfold pushSample at h
    dsimp only at h
    split at h
    · exact List.mem_of_mem_drop h
    · exact h
  simpa using hmem

/-- A ping in range leaves samples in range. -/
theorem samples_onPing {peer : PeerClock Int64} (hp : peer.Sound) {t : Int64} (ht : 0 < t.toInt)
    (now : SystemTime)
    (h : t.toInt + ((peer.rttMs.getD 0).toNat / 2 : Nat) ≤ 9223372036854775807) :
    ∀ x ∈ pushSample peer.clockSkewSamples
      (skewSample i64 peer.rttMs t (monotonicMs i64 now)).value, AboveLowest x := by
  intro x hx
  rcases mem_pushSample hx with hx | rfl
  · exact hp.clockSkewSamples x hx
  · exact aboveLowest_skewSample ht now h

theorem exact_onPing_iff {peer : PeerClock Int64} (hp : peer.Sound) {t : Int64}
    (ht : 0 < t.toInt) (now : SystemTime) :
    (onPing i64 peer t (monotonicMs i64 now)).exact = true ↔
      t.toInt + ((peer.rttMs.getD 0).toNat / 2 : Nat) ≤ 9223372036854775807 := by
  rw [← exact_skewSample_iff ht now]
  unfold onPing
  simp only [exact_bind, exact_pure, Bool.and_true, Bool.and_eq_true, and_iff_left_iff_imp]
  intro hsample
  exact exact_median (samples_onPing hp ht now ((exact_skewSample_iff ht now).mp hsample))

theorem sound_onPing {peer : PeerClock Int64} (hp : peer.Sound) {t : Int64} (ht : 0 < t.toInt)
    (now : SystemTime)
    (h : t.toInt + ((peer.rttMs.getD 0).toNat / 2 : Nat) ≤ 9223372036854775807) :
    (onPing i64 peer t (monotonicMs i64 now)).value.Sound := by
  have hsamples := samples_onPing hp ht now h
  exact ⟨hp.lastPingT, hsamples, fun x hx ↦ hsamples x (mem_of_median i64 hx)⟩

/-- A pong answers a ping of this node, whose time is that of its own clock. -/
theorem exact_onPong {peer : PeerClock Int64} (hp : peer.Sound) (t : Int64) (now : SystemTime) :
    (onPong i64 peer t (monotonicMs i64 now)).exact = true := by
  have hnow := monotonicMs_range now
  unfold onPong
  split
  next hlast =>
    obtain ⟨sent, hsent, heq⟩ := Option.map_eq_some_iff.mp hlast
    have hpos : 0 ≤ i64.toInt t := by
      rw [← heq]
      exact hp.lastPingT sent hsent
    have htfits : i64.toInt t ≤ 9223372036854775807 := (fits_toInt t).2
    have hsub : i64.Fits (i64.toInt (monotonicMs i64 now) - i64.toInt t) := by
      constructor <;> omega
    rw [exact_bind, Arithmetic.sub, (i64.exact_result _).mpr hsub]
    rfl
  next => rfl

theorem sound_onPong {peer : PeerClock Int64} (hp : peer.Sound) (t now : Int64) :
    (onPong i64 peer t now).value.Sound := by
  unfold onPong
  split
  · exact ⟨hp.lastPingT, hp.clockSkewSamples, hp.clockSkewMs⟩
  · exact hp

/-! ### Every run -/

theorem mem_of_lookup {device : String} {peer : PeerClock Int64}
    {peers : List (String × PeerClock Int64)} (h : peer ∈ peers.lookup device) :
    (device, peer) ∈ peers := by
  induction peers with
  | nil => simp at h
  | cons p peers ih =>
    obtain ⟨id, q⟩ := p
    rw [List.lookup_cons] at h
    by_cases hid : device = id
    · have hq : q = peer := by simpa [hid] using h
      rw [hid, hq]
      exact List.mem_cons_self
    · have hne : (device == id) = false := by simpa using hid
      rw [hne] at h
      exact List.mem_cons_of_mem _ (ih h)

theorem Heartbeat.Sound.lookup {s : Heartbeat Int64} (hs : s.Sound) {device : String}
    {peer : PeerClock Int64} (h : peer ∈ s.peers.lookup device) : peer.Sound :=
  hs (device, peer) (mem_of_lookup h)

/-- A change that keeps the data of the one peer sound keeps all of it so. -/
theorem Heartbeat.Sound.updatePeer {s : Heartbeat Int64} (hs : s.Sound) {device : String}
    {f : PeerClock Int64 → Checked (PeerClock Int64)}
    (h : ∀ peer ∈ s.peers.lookup device, (f peer).value.Sound) :
    (s.updatePeer device f).value.Sound := by
  intro p hp
  rcases mem_modifyPeer hp with hp | ⟨peer, hpeer, heq⟩
  · exact hs p hp
  · rw [heq]
    exact h peer hpeer

theorem exact_updatePeer {s : Heartbeat Int64} {device : String}
    {f : PeerClock Int64 → Checked (PeerClock Int64)} :
    (s.updatePeer device f).exact = true ↔
      ∀ peer ∈ s.peers.lookup device, (f peer).exact = true := by
  unfold Heartbeat.updatePeer
  rw [exact_bind, exact_pure, Bool.and_true, exact_modifyPeer]

/-- The wire carries an `i64`. -/
theorem ofInt_wire (t : Int64) : i64.ofInt t.toInt = t := Int64.ofInt_toInt t

theorem exact_step_iff {s : Heartbeat Int64} (hs : s.Sound) (e : Event) :
    (step i64 s e).exact = true ↔ InRange s e := by
  cases e with
  | admitted | dropped => exact ⟨fun _ ↦ trivial, fun _ ↦ rfl⟩
  | statusSet | sendPing =>
    exact ⟨fun _ ↦ trivial, fun _ ↦ exact_updatePeer.mpr fun _ _ ↦ rfl⟩
  | ping device t now =>
    rw [step, InRange, ofInt_wire]
    split
    next ht =>
      rw [exact_updatePeer]
      exact ⟨fun h _ peer hp ↦ (exact_onPing_iff (hs.lookup hp) ht now).mp (h peer hp),
        fun h peer hp ↦ (exact_onPing_iff (hs.lookup hp) ht now).mpr (h ht peer hp)⟩
    next ht => exact ⟨fun _ h ↦ absurd h ht, fun _ ↦ rfl⟩
  | pong device t now =>
    refine ⟨fun _ ↦ trivial, fun _ ↦ exact_updatePeer.mpr fun peer hp ↦ ?_⟩
    exact exact_onPong (hs.lookup hp) _ now
  | tick => exact ⟨fun _ ↦ trivial, fun _ ↦ exact_watchClockSkew hs⟩

theorem sound_step {s : Heartbeat Int64} (hs : s.Sound) {e : Event} (h : InRange s e) :
    (step i64 s e).value.Sound := by
  cases e with
  | admitted device status =>
    intro p hp
    rcases List.mem_append.mp hp with hp | hp
    · exact hs p (List.mem_filter.mp hp).1
    · rw [List.mem_singleton.mp hp]
      exact ⟨by simp, by simp, by simp⟩
  | statusSet device status =>
    refine hs.updatePeer fun peer hp ↦ ?_
    have hpeer := hs.lookup hp
    exact ⟨hpeer.lastPingT, hpeer.clockSkewSamples, hpeer.clockSkewMs⟩
  | dropped device => exact fun p hp ↦ hs p (List.mem_filter.mp hp).1
  | sendPing device now =>
    refine hs.updatePeer fun peer hp ↦ ?_
    have hpeer := hs.lookup hp
    refine ⟨?_, hpeer.clockSkewSamples, hpeer.clockSkewMs⟩
    rintro t ⟨⟩
    exact (monotonicMs_range now).1
  | ping device t now =>
    rw [step, ofInt_wire]
    split
    next ht =>
      exact hs.updatePeer fun peer hp ↦ sound_onPing (hs.lookup hp) ht now (h ht peer hp)
    next => exact hs
  | pong device t now => exact hs.updatePeer fun peer hp ↦ sound_onPong (hs.lookup hp) _ _
  | tick => exact hs

/-- No operation of a run wraps exactly when each ping is in range. -/
theorem exact_run_iff (events : List Event) :
    (runAll (step i64) {} events).exact = true ↔
      AllSteps (wrapping (step i64)) InRange {} events := by
  rw [exact_runAll_iff]
  apply allSteps_congr_of_invariant (I := Heartbeat.Sound)
  · exact fun s e hs ↦ exact_step_iff hs e
  · exact fun s e hs h ↦ sound_step hs h
  · exact fun p hp ↦ absurd hp List.not_mem_nil

/-- No operation of the run wraps, and its state is that of the run on the integers. -/
def ExactRun (events : List Event) : Prop :=
  (runAll (step i64) {} events).exact = true ∧
    (runAll (step i64) {} events).value.map i64.toInt = (runAll (step integers) {} events).value

/-- The arithmetic of a run is that of the integers exactly when the time of each ping leaves room
for half the round trip. -/
theorem skew_arithmetic_exact_iff (events : List Event) :
    ExactRun events ↔ AllSteps (wrapping (step i64)) InRange {} events := by
  rw [← exact_run_iff]
  exact and_iff_left_of_imp (agrees_runAll agrees_step {} events)

/-- A ping from the end of time, after a round trip of two milliseconds. -/
theorem ping_overflows : ¬ExactRun
    [.admitted "peer" .active, .sendPing "peer" ⟨some 1000, by simp⟩,
      .pong "peer" 1000 ⟨some 1002, by simp⟩,
      .ping "peer" Int64.maxValue ⟨some 2000, by simp⟩] := by
  rintro ⟨hexact, -⟩
  obtain ⟨-, -, -, hping, -⟩ := (exact_run_iff _).mp hexact
  exact absurd (hping (by decide) _ rfl) (by decide)

end MyOwnMesh.ClockSkew
