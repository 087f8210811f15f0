import MyOwnMesh.Lib.Checked
import MyOwnMesh.Lib.Ranks
import MyOwnMesh.Engine.Sessions

/-!
# The clock-skew watch

`crates/myownmesh-core/src/engine/heartbeat.rs:115–275`. Every ping carries the clock of its sender.
A node keeps the last samples of each peer, takes their median as the skew of the peer and the
median of the skews as its estimate, and warns when the estimate stays beyond a bound. The
functions are over an arbitrary arithmetic, and so run on `i64` and on the integers. The pong that
answers a ping, the float and the text of a diagnostic are not modelled.
-/

namespace MyOwnMesh.ClockSkew

open Lib Lib.Ranks Lib.Replay Lib.Arithmetic

/-- `heartbeat.rs:180`. -/
def skewWindow : Nat := 5

/-- `heartbeat.rs:183`. -/
def skewWarnMs : Int := 10000

/-- `heartbeat.rs:186`. -/
def skewClearMs : Int := 5000

/-- `heartbeat.rs:189`. -/
def skewWarnTicks : Nat := 3

/-- What a tick concluded; `heartbeat.rs:214–221`. -/
inductive SkewVerdict (ν : Type) where
  | warn (skewMs : ν) (peers : Nat)
  | clear (skewMs : ν)
  deriving DecidableEq, Repr

/-- `heartbeat.rs:227–230`. -/
structure ClockSkewWatch where
  overTicks : Nat := 0
  warned : Bool := false
  deriving DecidableEq, Repr

/-- The part of the data of a peer that the heartbeat reads and writes; `connection.rs:90–106`. -/
structure PeerClock (ν : Type) where
  status : PeerStatus
  lastPingT : Option ν := none
  rttMs : Option UInt32 := none
  clockSkewSamples : List ν := []
  clockSkewMs : Option ν := none

/-- The wall clock: the milliseconds since the epoch, `none` when it is set before the epoch. -/
structure SystemTime where
  millis : Option Nat
  lt : ∀ m ∈ millis, m < 9223372036854775808

/-- What is told of a verdict: the skew without its sign, whether this device is behind, and the
number of peers; `heartbeat.rs:277–303`. -/
inductive ClockDiag (ν : Type) where
  | warn (magnitudeMs : ν) (behind : Bool) (peers : Nat)
  | clear (skewMs : ν)

variable {ν : Type} (A : Arithmetic ν)

/-- `heartbeat.rs:197–209`. -/
def median (samples : List ν) : Checked (Option ν) :=
  if samples.isEmpty then
    pure none
  else
    let sorted := ascending A.toInt samples
    let n := sorted.length
    if n % 2 = 1 then
      pure sorted[n / 2]?
    else
      match sorted[n / 2 - 1]?, sorted[n / 2]? with
      | some a, some b => do
        let absA ← A.abs a
        let absB ← A.abs b
        pure (some (if A.toInt absA ≤ A.toInt absB then a else b))
      | _, _ => pure none

/-- `heartbeat.rs:237–256`. -/
def ClockSkewWatch.observe (w : ClockSkewWatch) (estimate : Option ν) (peers : Nat) :
    Checked (ClockSkewWatch × Option (SkewVerdict ν)) :=
  match estimate with
  | none => pure ({ w with overTicks := 0 }, none)
  | some skewMs => do
    let magnitude ← A.abs skewMs
    if skewWarnMs ≤ A.toInt magnitude then
      -- a `u8` that saturates
      let overTicks := min (w.overTicks + 1) 255
      if skewWarnTicks ≤ overTicks ∧ w.warned = false then
        pure (⟨overTicks, true⟩, some (.warn skewMs peers))
      else
        pure ({ w with overTicks := overTicks }, none)
    else if w.warned then
      let magnitude ← A.abs skewMs
      if A.toInt magnitude ≤ skewClearMs then
        pure (⟨0, false⟩, some (.clear skewMs))
      else
        pure ({ w with overTicks := 0 }, none)
    else
      pure ({ w with overTicks := 0 }, none)

/-- `heartbeat.rs:159–165`. -/
def monotonicMs (now : SystemTime) : ν :=
  match now.millis with
  | some ms => A.ofInt ms
  | none => A.ofInt 0

/-- The sample of a ping; `heartbeat.rs:126–127`. -/
def skewSample (rttMs : Option UInt32) (t now : ν) : Checked ν := do
  let halfRtt := A.ofInt ((rttMs.getD 0).toNat / 2 : Nat)
  let arrived ← A.add t halfRtt
  A.sub arrived now

/-- A sample enters the window; `heartbeat.rs:128–131`. -/
def pushSample (samples : List ν) (sample : ν) : List ν :=
  let pushed := samples ++ [sample]
  if skewWindow < pushed.length then pushed.drop 1 else pushed

/-- What a ping does to the data of its sender; `heartbeat.rs:125–132`. -/
def onPing (peer : PeerClock ν) (t now : ν) : Checked (PeerClock ν) := do
  let sample ← skewSample A peer.rttMs t now
  let samples := pushSample peer.clockSkewSamples sample
  let skew ← median A samples
  pure { peer with clockSkewSamples := samples, clockSkewMs := skew }

/-- What a pong does to the data of its sender; `heartbeat.rs:151–155`. -/
def onPong (peer : PeerClock ν) (t now : ν) : Checked (PeerClock ν) :=
  if peer.lastPingT.map A.toInt = some (A.toInt t) then do
    let elapsed ← A.sub now t
    pure { peer with rttMs := some (UInt32.ofNat (A.toInt elapsed).toNat) }
  else
    pure peer

/-- The peers, the watch and what it has told. -/
structure Heartbeat (ν : Type) where
  peers : List (String × PeerClock ν) := []
  watch : ClockSkewWatch := {}
  diags : List (ClockDiag ν) := []

/-- The data of one peer changes, if it is there. -/
def modifyPeer (device : String) (f : PeerClock ν → Checked (PeerClock ν)) :
    List (String × PeerClock ν) → Checked (List (String × PeerClock ν))
  | [] => pure []
  | (id, peer) :: peers =>
    if id = device then do
      let peer ← f peer
      pure ((id, peer) :: peers)
    else do
      let peers ← modifyPeer device f peers
      pure ((id, peer) :: peers)

def Heartbeat.updatePeer (s : Heartbeat ν) (device : String)
    (f : PeerClock ν → Checked (PeerClock ν)) : Checked (Heartbeat ν) := do
  let peers ← modifyPeer device f s.peers
  pure { s with peers := peers }

/-- The skews that a tick reads; `heartbeat.rs:262–272`. -/
def measurable (peers : List (String × PeerClock ν)) : List ν :=
  (peers.filter fun p ↦ p.2.status = .active ∨ p.2.status = .shelved).filterMap
    fun p ↦ p.2.clockSkewMs

/-- `heartbeat.rs:275–307`. -/
def announce : Option (SkewVerdict ν) → Checked (List (ClockDiag ν))
  | some (.warn skewMs peers) => do
    let magnitude ← A.abs skewMs
    pure [.warn magnitude (decide (0 < A.toInt skewMs)) peers]
  | some (.clear skewMs) => pure [.clear skewMs]
  | none => pure []

/-- `heartbeat.rs:261–308`. -/
def watchClockSkew (s : Heartbeat ν) : Checked (Heartbeat ν) := do
  let skews := measurable s.peers
  let estimate ← median A skews
  let (watch, verdict) ← s.watch.observe A estimate skews.length
  let told ← announce A verdict
  pure { s with watch := watch, diags := s.diags ++ told }

/-- What happens to the peers of a network and their clocks. The number of a ping or a pong is the
one on the wire. -/
inductive Event where
  | admitted (device : String) (status : PeerStatus)
  | statusSet (device : String) (status : PeerStatus)
  | dropped (device : String)
  | sendPing (device : String) (now : SystemTime)
  | ping (device : String) (t : Int64) (now : SystemTime)
  | pong (device : String) (t : Int64) (now : SystemTime)
  | tick

def step (s : Heartbeat ν) : Event → Checked (Heartbeat ν)
  | .admitted device status =>
    pure { s with peers := s.peers.filter (·.1 ≠ device) ++ [(device, { status := status })] }
  | .statusSet device status => s.updatePeer device fun peer ↦ pure { peer with status := status }
  | .dropped device => pure { s with peers := s.peers.filter (·.1 ≠ device) }
  | .sendPing device now =>
    s.updatePeer device fun peer ↦ pure { peer with lastPingT := some (monotonicMs A now) }
  | .ping device t now =>
    if 0 < t.toInt then
      s.updatePeer device fun peer ↦ onPing A peer (A.ofInt t.toInt) (monotonicMs A now)
    else
      pure s
  | .pong device t now =>
    s.updatePeer device fun peer ↦ onPong A peer (A.ofInt t.toInt) (monotonicMs A now)
  | .tick => watchClockSkew A s

/-! ### Who agrees with an estimate -/

/-- The two elements that an even median chooses from. -/
inductive Middle (A : Arithmetic ν) (samples : List ν) : Option ν → Prop where
  | none (h : samples = []) : Middle A samples none
  | odd {m : ν} (hn : samples.length % 2 = 1)
      (hm : (ascending A.toInt samples)[samples.length / 2]? = some m) : Middle A samples (some m)
  | even {a b : ν} {k : Nat} (hn : samples.length = 2 * k) (hk : 0 < k)
      (ha : (ascending A.toInt samples)[k - 1]? = some a)
      (hb : (ascending A.toInt samples)[k]? = some b) :
      Middle A samples
        (some (if A.toInt (A.abs a).value ≤ A.toInt (A.abs b).value then a else b))

theorem median_cases (samples : List ν) : Middle A samples (median A samples).value := by
  unfold median
  by_cases hempty : samples = []
  · subst hempty
    exact .none rfl
  · have hpos : 0 < samples.length := List.length_pos_iff.mpr hempty
    have hget : ∀ k < samples.length, ∃ a, (ascending A.toInt samples)[k]? = some a := by
      intro k hk
      have hk : k < (ascending A.toInt samples).length := by rwa [length_ascending]
      exact ⟨_, List.getElem?_eq_getElem hk⟩
    rw [if_neg (by simpa using hempty)]
    simp only [length_ascending]
    by_cases hodd : samples.length % 2 = 1
    · obtain ⟨m, hm⟩ := hget (samples.length / 2) (by omega)
      rw [if_pos hodd, hm]
      exact .odd hodd hm
    · obtain ⟨a, ha⟩ := hget (samples.length / 2 - 1) (by omega)
      obtain ⟨b, hb⟩ := hget (samples.length / 2) (by omega)
      rw [if_neg hodd]
      simp only [ha, hb]
      exact .even (by omega) (by omega) ha hb

/-- A median is one of the samples. -/
theorem mem_of_median {samples : List ν} {m : ν} (h : (median A samples).value = some m) :
    m ∈ samples := by
  have hcases := median_cases A samples
  rw [h] at hcases
  cases hcases with
  | odd _ hm => exact (mem_ascending A.toInt).mp (List.mem_of_getElem? hm)
  | even _ _ ha hb =>
    split
    · exact (mem_ascending A.toInt).mp (List.mem_of_getElem? ha)
    · exact (mem_ascending A.toInt).mp (List.mem_of_getElem? hb)

/-- The peers are kept in no order, and the estimate does not depend on one. -/
theorem median_perm {skews skews' : List Int64} (h : skews.Perm skews') :
    median i64 skews = median i64 skews' := by
  have hsorted : ascending i64.toInt skews = ascending i64.toInt skews' :=
    ascending_eq_of_perm i64.toInt (fun _ _ ↦ Int64.toInt_inj.mp) h
  have hempty : skews.isEmpty = skews'.isEmpty := by
    rw [Bool.eq_iff_iff, List.isEmpty_iff, List.isEmpty_iff]
    exact ⟨fun hnil ↦ (hnil ▸ h).nil_eq.symm, fun hnil ↦ (hnil ▸ h).eq_nil⟩
  unfold median
  rw [hsorted, hempty]

/-- The skews that put this device ahead by the bound or more. -/
def aheadCount (skews : List Int64) : Nat :=
  skews.countP fun x ↦ decide (x.toInt ≤ -skewWarnMs)

/-- The skews that put this device behind by the bound or more. -/
def behindCount (skews : List Int64) : Nat :=
  skews.countP fun x ↦ decide (skewWarnMs ≤ x.toInt)

/-- The skews of `i64::MIN`, which has no magnitude in sixty-four bits. -/
def lowestCount (skews : List Int64) : Nat :=
  skews.countP fun x ↦ decide (x.toInt ≤ -9223372036854775808)

/-- Beyond the bound, the estimate has the agreement of more than half of the peers, with its
sign. -/
def MajorityAgrees (skews : List Int64) : Prop :=
  ∀ m, (median i64 skews).value = some m →
    (m.toInt ≤ -skewWarnMs → skews.length < 2 * aheadCount skews) ∧
    (skewWarnMs ≤ m.toInt → skews.length < 2 * behindCount skews)

/-- Half of the peers put this device ahead, and either the other half put it behind or the first
half do so by `i64::MIN`. -/
def Halved (skews : List Int64) : Prop :=
  skews ≠ [] ∧ 2 * aheadCount skews = skews.length ∧
    (2 * behindCount skews = skews.length ∨ 2 * lowestCount skews = skews.length)

instance (skews : List Int64) : Decidable (Halved skews) :=
  inferInstanceAs (Decidable (skews ≠ [] ∧ 2 * aheadCount skews = skews.length ∧
    (2 * behindCount skews = skews.length ∨ 2 * lowestCount skews = skews.length)))

theorem toInt_abs_value (a : Int64) :
    i64.toInt (i64.abs a).value =
      if a.toInt ≤ -9223372036854775808 then (-9223372036854775808 : Int)
      else max a.toInt (-a.toInt) := by
  have hlo := a.le_toInt
  have hhi := a.toInt_lt
  by_cases hmin : a.toInt ≤ -9223372036854775808
  · have heq : a.toInt = -9223372036854775808 := by omega
    rw [if_pos hmin]
    show (Int64.ofInt a.toInt.natAbs).toInt = _
    rw [heq]
    rfl
  · have habs : (a.toInt.natAbs : Int) = max a.toInt (-a.toInt) := by omega
    have hfits : i64.Fits (max a.toInt (-a.toInt)) := by constructor <;> omega
    rw [if_neg hmin, ← habs]
    exact i64.toInt_result (habs ▸ hfits)

theorem majorityAgrees_iff (skews : List Int64) : MajorityAgrees skews ↔ ¬Halved skews := by
  have hcases := median_cases i64 skews
  unfold MajorityAgrees
  generalize (median i64 skews).value = m at hcases ⊢
  cases hcases with
  | none h => simp [Halved, h]
  | @odd m hn hm =>
    have hahead : m.toInt ≤ -skewWarnMs ↔ skews.length / 2 < aheadCount skews :=
      ascending_le_iff i64.toInt hm _
    have hbehind : skewWarnMs ≤ m.toInt ↔
        skews.length ≤ skews.length / 2 + behindCount skews :=
      le_ascending_iff i64.toInt hm _
    have hwhole : ¬Halved skews := fun h ↦ by have := h.2.1; omega
    simp only [Option.some.injEq, forall_eq', hwhole, not_false_eq_true, iff_true]
    omega
  | @even a b k hn hk ha hb =>
    -- the two middle elements decide the three counts
    have haAhead : a.toInt ≤ -skewWarnMs ↔ k - 1 < aheadCount skews :=
      ascending_le_iff i64.toInt ha _
    have hbAhead : b.toInt ≤ -skewWarnMs ↔ k < aheadCount skews :=
      ascending_le_iff i64.toInt hb _
    have haBehind : skewWarnMs ≤ a.toInt ↔ skews.length ≤ k - 1 + behindCount skews :=
      le_ascending_iff i64.toInt ha _
    have hbBehind : skewWarnMs ≤ b.toInt ↔ skews.length ≤ k + behindCount skews :=
      le_ascending_iff i64.toInt hb _
    have haLowest : a.toInt ≤ -9223372036854775808 ↔ k - 1 < lowestCount skews :=
      ascending_le_iff i64.toInt ha _
    have hbLowest : b.toInt ≤ -9223372036854775808 ↔ k < lowestCount skews :=
      ascending_le_iff i64.toInt hb _
    have hle : a.toInt ≤ b.toInt := ascending_le_of_lt i64.toInt ha hb (by omega)
    have hne : skews ≠ [] := fun h ↦ by simp [h] at hn; omega
    have halo := a.le_toInt
    simp only [Option.some.injEq, forall_eq', Halved, toInt_abs_value, ne_eq, hne,
      not_false_eq_true, true_and]
    simp only [i64, skewWarnMs] at *
    split_ifs <;> omega

/-! ### The latch -/

/-- What `observe` is called with. -/
structure Call where
  estimate : Option Int64
  peers : Nat

/-- The watch after a call, on `i64`. -/
def after (w : ClockSkewWatch) (c : Call) : ClockSkewWatch :=
  (w.observe i64 c.estimate c.peers).value.1

/-- The verdict of a call, on `i64`. -/
def verdict (w : ClockSkewWatch) (c : Call) : Option (SkewVerdict Int64) :=
  (w.observe i64 c.estimate c.peers).value.2

/-- An estimate at or beyond the bound. -/
def Over (c : Call) : Prop := ∃ x ∈ c.estimate, skewWarnMs ≤ x.toInt.natAbs

/-- Everything a call can do. -/
inductive Observed (w : ClockSkewWatch) (c : Call) :
    ClockSkewWatch → Option (SkewVerdict Int64) → Prop where
  | quiet (w' : ClockSkewWatch) (hw : w'.warned = w.warned) (h : w'.overTicks = 0) :
      Observed w c w' none
  | beyond (w' : ClockSkewWatch) (hover : Over c) (hw : w'.warned = w.warned)
      (h : w'.overTicks ≤ w.overTicks + 1) : Observed w c w' none
  | warn (x : Int64) (n : Nat) (hx : c.estimate = some x) (hover : Over c) (hw : w.warned = false)
      (hlo : skewWarnTicks ≤ n) (hhi : n ≤ w.overTicks + 1) :
      Observed w c ⟨n, true⟩ (some (.warn x c.peers))
  | clear (x : Int64) (hx : c.estimate = some x) (hw : w.warned = true)
      (h : x.toInt = -9223372036854775808 ∨ (x.toInt.natAbs : Int) ≤ skewClearMs) :
      Observed w c ⟨0, false⟩ (some (.clear x))

theorem observed (w : ClockSkewWatch) (c : Call) : Observed w c (after w c) (verdict w c) := by
  obtain ⟨estimate, peers⟩ := c
  cases estimate with
  | none => exact .quiet _ rfl rfl
  | some x =>
    have hmagnitude := toInt_abs_value x
    have hlo := x.le_toInt
    unfold after verdict ClockSkewWatch.observe
    simp only [Checked.value_bind]
    by_cases hover : skewWarnMs ≤ i64.toInt (i64.abs x).value
    · have hbeyond : Over ⟨some x, peers⟩ := by
        refine ⟨x, rfl, ?_⟩
        simp only [skewWarnMs] at hover ⊢
        split at hmagnitude <;> omega
      rw [if_pos hover]
      by_cases hticks : skewWarnTicks ≤ min (w.overTicks + 1) 255 ∧ w.warned = false
      · rw [if_pos hticks]
        exact .warn x _ rfl hbeyond hticks.2 hticks.1 (Nat.min_le_left _ _)
      · rw [if_neg hticks]
        exact .beyond _ hbeyond rfl (Nat.min_le_left _ _)
    · rw [if_neg hover]
      by_cases hwarned : w.warned = true
      · rw [if_pos hwarned]
        simp only [Checked.value_bind]
        by_cases hclear : i64.toInt (i64.abs x).value ≤ skewClearMs
        · rw [if_pos hclear]
          refine .clear x rfl hwarned ?_
          split at hmagnitude <;> omega
        · rw [if_neg hclear]
          exact .quiet _ rfl rfl
      · rw [if_neg hwarned]
        exact .quiet _ rfl rfl

/-- The verdicts of a sequence of calls. -/
def verdicts (w : ClockSkewWatch) : List Call → List (SkewVerdict Int64)
  | [] => []
  | c :: calls => (verdict w c).toList ++ verdicts (after w c) calls

/-- Warnings and clearances in turn, a warning first when `warnNext`. -/
def Alternate : Bool → List (SkewVerdict Int64) → Prop
  | _, [] => True
  | warnNext, .warn _ _ :: vs => warnNext = true ∧ Alternate false vs
  | warnNext, .clear _ :: vs => warnNext = false ∧ Alternate true vs

/-- Calls that end in as many estimates beyond the bound as `n` counts. -/
def EndsOver (n : Nat) (calls : List Call) : Prop :=
  ∃ before streak, calls = before ++ streak ∧ n ≤ streak.length ∧ ∀ c ∈ streak, Over c

/-- What the verdicts of a sequence of calls mean. -/
structure LatchLaw (calls : List Call) : Prop where
  alternate : Alternate true (verdicts {} calls)
  warn : ∀ pre c post, calls = pre ++ c :: post → ∀ x n,
    verdict (run after {} pre) c = some (.warn x n) → EndsOver skewWarnTicks (pre ++ [c])
  clear : ∀ pre c post, calls = pre ++ c :: post → ∀ x,
    verdict (run after {} pre) c = some (.clear x) →
      c.estimate = some x ∧ (x.toInt.natAbs : Int) ≤ skewClearMs

/-- The verdicts alternate from any watch. -/
theorem alternate_verdicts (w : ClockSkewWatch) (calls : List Call) :
    Alternate (!w.warned) (verdicts w calls) := by
  induction calls generalizing w with
  | nil => trivial
  | cons c calls ih =>
    have hrest := ih (after w c)
    have hcall := observed w c
    rw [verdicts]
    generalize after w c = w' at hrest hcall ⊢
    generalize verdict w c = v at hcall ⊢
    cases hcall with
    | quiet w' hw _ => exact hw ▸ hrest
    | beyond w' _ hw _ => exact hw ▸ hrest
    | warn x n _ _ hw _ _ => exact ⟨by rw [hw]; rfl, hrest⟩
    | clear x _ hw _ => exact ⟨by rw [hw]; rfl, hrest⟩

theorem EndsOver.snoc {n : Nat} {calls : List Call} {c : Call} (h : EndsOver n calls)
    (hc : Over c) : EndsOver (n + 1) (calls ++ [c]) := by
  obtain ⟨before, streak, rfl, hn, hover⟩ := h
  refine ⟨before, streak ++ [c], by simp, by simpa using hn, ?_⟩
  intro d hd
  rcases List.mem_append.mp hd with hd | hd
  · exact hover d hd
  · exact List.mem_singleton.mp hd ▸ hc

theorem EndsOver.mono {m n : Nat} {calls : List Call} (h : EndsOver n calls) (hm : m ≤ n) :
    EndsOver m calls := by
  obtain ⟨before, streak, hcalls, hn, hover⟩ := h
  exact ⟨before, streak, hcalls, Nat.le_trans hm hn, hover⟩

theorem endsOver_zero (calls : List Call) : EndsOver 0 calls :=
  ⟨calls, [], by simp, Nat.le_refl 0, by simp⟩

/-- The counter of the watch counts estimates beyond the bound at the end of its calls. -/
theorem endsOver_overTicks (calls : List Call) :
    EndsOver (run after {} calls).overTicks calls := by
  induction calls using List.reverseRecOn with
  | nil => exact endsOver_zero []
  | append_singleton calls c ih =>
    have hcall := observed (run after {} calls) c
    rw [run_append]
    show EndsOver (after (run after {} calls) c).overTicks (calls ++ [c])
    generalize after (run after {} calls) c = w' at hcall ⊢
    generalize verdict (run after {} calls) c = v at hcall
    cases hcall with
    | quiet w' _ h => exact h ▸ endsOver_zero _
    | beyond w' hover _ h => exact (ih.snoc hover).mono h
    | warn x n _ hover _ _ h => exact (ih.snoc hover).mono h
    | clear => exact endsOver_zero _

theorem endsOver_of_warn {calls : List Call} {c : Call} {x : Int64} {n : Nat}
    (h : verdict (run after {} calls) c = some (.warn x n)) :
    EndsOver skewWarnTicks (calls ++ [c]) := by
  have hcall := observed (run after {} calls) c
  rw [h] at hcall
  generalize after (run after {} calls) c = w' at hcall
  cases hcall with
  | warn x n _ hover _ hlo hhi =>
    exact ((endsOver_overTicks calls).snoc hover).mono (Nat.le_trans hlo hhi)

/-- An estimate of `i64::MIN` in a raised warning clears it. -/
def ClearedByLowest (w : ClockSkewWatch) (c : Call) : Prop :=
  w.warned = true ∧ c.estimate = some Int64.minValue

theorem verdict_of_clearedByLowest {w : ClockSkewWatch} {c : Call} (h : ClearedByLowest w c) :
    verdict w c = some (.clear Int64.minValue) := by
  obtain ⟨estimate, peers⟩ := c
  obtain ⟨hw, rfl : estimate = _⟩ := h
  have hmagnitude : i64.toInt (i64.abs Int64.minValue).value = -9223372036854775808 :=
    toInt_abs_value Int64.minValue
  unfold verdict ClockSkewWatch.observe
  simp only [Checked.value_bind, hmagnitude, hw]
  rfl

theorem latchLaw_iff (calls : List Call) :
    LatchLaw calls ↔ AllSteps after (fun w c ↦ ¬ClearedByLowest w c) {} calls := by
  rw [allSteps_iff_forall]
  constructor
  · intro h pre c post hcalls hlowest
    have hclear := (h.clear pre c post hcalls _ (verdict_of_clearedByLowest hlowest)).2
    exact absurd hclear (by decide)
  · intro h
    refine ⟨alternate_verdicts {} calls, fun pre c post _ x n ↦ endsOver_of_warn, ?_⟩
    intro pre c post hcalls x hx
    have hcall := observed (run after {} pre) c
    rw [hx] at hcall
    generalize after (run after {} pre) c = w' at hcall
    cases hcall with
    | clear x hest hw hsmall =>
      refine ⟨hest, hsmall.resolve_left fun hmin ↦ h pre c post hcalls ⟨hw, ?_⟩⟩
      have hx : x = Int64.minValue := Int64.toInt_inj.mp hmin
      rw [hest, hx]

/-- A warning has the agreement of a majority exactly when the skews are not halved, and the
verdicts are those of a latch exactly when no estimate of `i64::MIN` clears it. -/
theorem clock_warning_majority_iff (skews : List Int64) (calls : List Call) :
    (MajorityAgrees skews ↔ ¬Halved skews) ∧
    (LatchLaw calls ↔ AllSteps after (fun w c ↦ ¬ClearedByLowest w c) {} calls) :=
  ⟨majorityAgrees_iff skews, latchLaw_iff calls⟩

/-- Two peers who disagree with each other: the estimate is one of theirs. -/
theorem two_peers_warn : ¬MajorityAgrees [-10000, 10000] := by
  rw [majorityAgrees_iff, not_not]
  decide

end MyOwnMesh.ClockSkew
