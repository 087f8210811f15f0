import MyOwnMesh.Daemon.Restart
import MyOwnMesh.Engine.SignalingBridge
import MyOwnMesh.Lib.Pacing

/-!
# What reaches the signaling drivers

The sending half of `crates/myownmesh-core/src/engine/signaling_bridge.rs`. The configuration of a
network decides which drivers are attached. With two of them, or with none, a task copies each
emission of the engine to every driver; a single driver takes the engine's queue itself. The clock
is read once for each emission. Times are seconds.
-/

namespace MyOwnMesh.Fanout

open Lib Lib.Pacing Lib.Replay Nostr Mdns

/-- `signaling_bridge.rs:768`. -/
def evictedProbeInterval : ℕ := 600

/-- Which drivers are attached, and whether the fan-out runs; `signaling_bridge.rs:618–622`. -/
structure SignalingDrivers where
  nostr : Bool
  mdns : Bool
  fanout : Bool
  deriving DecidableEq

/-- The drivers of a configuration, where the mDNS driver may fail to start;
`signaling_bridge.rs:663–748`. -/
def attachSignaling (cfg : Restart.SignalingConfig) (mdnsStarts : Bool) : SignalingDrivers :=
  let mdnsOn := cfg.mdns && !cfg.listenOnly
  let wantNostr := cfg.strategy == "" || cfg.strategy == "nostr"
  match wantNostr, mdnsOn with
  | true, true => ⟨true, mdnsStarts, true⟩
  | true, false => ⟨true, false, false⟩
  | false, true => ⟨false, mdnsStarts, false⟩
  | false, false => ⟨false, false, true⟩

/-- An announce or a departure. -/
def isPresence : SignalingOutbound → Bool
  | .announce | .leave => true
  | _ => false

/-- The translation of the Nostr pump, which drops the presence of a listener;
`signaling_bridge.rs:391–443`. -/
def nostrPump (listenOnly : Bool) (deviceId : String) (msg : SignalingOutbound) :
    Option NostrOutbound :=
  if listenOnly && isPresence msg then none
  else
    match msg with
    | .announce => some .announce
    | .leave => some .leave
    | other => (other.directed deviceId).map fun d ↦ .directedToPeer d.1 d.2

/-- The translation of the mDNS pump; `signaling_bridge.rs:540–580`. -/
def mdnsPump (deviceId : String) : SignalingOutbound → Option MdnsOutbound
  | .announce => some .announce
  | .leave => some .leave
  | other => (other.directed deviceId).map fun d ↦ .directedToPeer d.1 d.2

/-- One emission of the engine: when, whether a verdict of the members stands against us, and
what. -/
structure Emission where
  now : ℕ
  selfEvicted : Bool
  msg : SignalingOutbound

/-- An announce of a device that the members have evicted. -/
def Emission.isProbe (e : Emission) : Bool := e.msg = .announce && e.selfEvicted

/-- The fan-out task and the queues of the drivers. `passed` is what the fan-out let pass. -/
structure Outlets where
  probes : Pace := Pace.new
  passed : List Emission := []
  nostr : List NostrOutbound := []
  mdns : List MdnsOutbound := []

/-- The decision of the fan-out; `signaling_bridge.rs:784–802`. -/
def Outlets.letPass (listenOnly : Bool) (s : Outlets) (e : Emission) : Outlets × Bool :=
  if listenOnly && isPresence e.msg then (s, false)
  else if e.isProbe then
    match s.probes.request (fun _ ↦ evictedProbeInterval) e.now with
    | (probes, true) => ({ s with probes := probes, passed := s.passed ++ [e] }, true)
    | (_, false) => (s, false)
  else ({ s with passed := s.passed ++ [e] }, true)

/-- Hand an emission to the drivers that are attached. -/
def Outlets.copy (d : SignalingDrivers) (cfg : Restart.SignalingConfig) (deviceId : String)
    (s : Outlets) (msg : SignalingOutbound) : Outlets :=
  { s with
    nostr := s.nostr ++ if d.nostr then (nostrPump cfg.listenOnly deviceId msg).toList else []
    mdns := s.mdns ++ if d.mdns then (mdnsPump deviceId msg).toList else [] }

/-- One emission on its way from the engine to the drivers. -/
def Outlets.step (cfg : Restart.SignalingConfig) (mdnsStarts : Bool) (deviceId : String)
    (s : Outlets) (e : Emission) : Outlets :=
  let d := attachSignaling cfg mdnsStarts
  if d.fanout then
    match s.letPass cfg.listenOnly e with
    | (s, true) => s.copy d cfg deviceId e.msg
    | (s, false) => s
  else s.copy d cfg deviceId e.msg

/-! ### What passes the fan-out -/

/-- What the fan-out has done: the emissions that passed are some of the engine's, in order, and
lack only the presence of a listener and probes; the probes among them keep their distance. -/
structure Admitted (listenOnly : Bool) (emissions : List Emission) (s : Outlets) : Prop where
  sub : s.passed.Sublist emissions
  others : s.passed.filter (!·.isProbe) =
    emissions.filter fun e ↦ !e.isProbe && !(listenOnly && isPresence e.msg)
  silent : listenOnly = true → ∀ e ∈ s.passed, isPresence e.msg = false
  probes : Burst (fun _ ↦ evictedProbeInterval)
    ((s.passed.filter (·.isProbe)).map Emission.now) s.probes

theorem Admitted.new (listenOnly : Bool) : Admitted listenOnly [] {} where
  sub := List.Sublist.slnil
  others := rfl
  silent := fun _ _ h ↦ absurd h List.not_mem_nil
  probes := Burst.new

variable {cfg : Restart.SignalingConfig} {listenOnly : Bool} {emissions : List Emission}
  {s : Outlets}

/-- A passed emission that is no probe. -/
private theorem Admitted.pass (h : Admitted listenOnly emissions s) {e : Emission}
    (hprobe : e.isProbe = false) (hsilent : (listenOnly && isPresence e.msg) = false) :
    Admitted listenOnly (emissions ++ [e]) { s with passed := s.passed ++ [e] } where
  sub := h.sub.append (List.Sublist.refl _)
  others := by
    rw [List.filter_append, List.filter_append, h.others,
      List.filter_cons_of_pos (by rw [hprobe]; rfl), List.filter_cons_of_pos
        (by rw [hprobe, hsilent]; rfl), List.filter_nil, List.filter_nil]
  silent := by
    intro hlisten e' he'
    rcases List.mem_append.mp he' with hold | hnew
    · exact h.silent hlisten e' hold
    · rw [List.mem_singleton.mp hnew]
      rwa [hlisten, Bool.true_and] at hsilent
  probes := by
    rw [List.filter_append, List.filter_cons_of_neg (by simp [hprobe]), List.filter_nil,
      List.append_nil]
    exact h.probes

private theorem Admitted.drop (h : Admitted listenOnly emissions s) {e : Emission}
    (hdrop : e.isProbe = true ∨ (listenOnly && isPresence e.msg) = true) :
    Admitted listenOnly (emissions ++ [e]) s where
  sub := h.sub.trans (List.sublist_append_left _ _)
  others := by
    rw [h.others, List.filter_append, List.filter_cons_of_neg, List.filter_nil, List.append_nil]
    rcases hdrop with hprobe | hlisten
    · simp [hprobe]
    · simp [hlisten]
  silent := h.silent
  probes := h.probes

/-- The fan-out decides on one emission. -/
theorem Admitted.letPass (h : Admitted listenOnly emissions s) (e : Emission) :
    Admitted listenOnly (emissions ++ [e]) (s.letPass listenOnly e).1 := by
  unfold Outlets.letPass
  by_cases hsilent : (listenOnly && isPresence e.msg) = true
  · rw [if_pos hsilent]
    exact h.drop (.inr hsilent)
  rw [if_neg hsilent]
  rw [Bool.not_eq_true] at hsilent
  by_cases hprobe : e.isProbe = true
  · rw [if_pos hprobe]
    have hburst := h.probes.request e.now
    cases hrequest : s.probes.request (fun _ ↦ evictedProbeInterval) e.now with
    | mk probes granted =>
      rw [hrequest] at hburst
      cases granted with
      | false => exact h.drop (.inl hprobe)
      | true =>
        refine ⟨h.sub.append (List.Sublist.refl _), ?_, ?_, ?_⟩
        · rw [List.filter_append, List.filter_append, h.others]
          simp [hprobe]
        · intro hlisten e' he'
          rcases List.mem_append.mp he' with hold | hnew
          · exact h.silent hlisten e' hold
          · rw [List.mem_singleton.mp hnew]
            rwa [hlisten, Bool.true_and] at hsilent
        · rw [List.filter_append, List.filter_cons_of_pos hprobe, List.filter_nil,
            List.map_append]
          exact hburst
  · rw [Bool.not_eq_true] at hprobe
    rw [if_neg (by simp [hprobe])]
    exact h.pass hprobe hsilent

/-! ### What the drivers get -/

/-- The queues of the drivers, from what passed. -/
private def Queued (d : SignalingDrivers) (cfg : Restart.SignalingConfig) (deviceId : String)
    (msgs : List SignalingOutbound) (s : Outlets) : Prop :=
  s.nostr = (if d.nostr then msgs.filterMap (nostrPump cfg.listenOnly deviceId) else []) ∧
    s.mdns = if d.mdns then msgs.filterMap (mdnsPump deviceId) else []

private theorem Queued.copy {d : SignalingDrivers} {deviceId : String}
    {msgs : List SignalingOutbound} (h : Queued d cfg deviceId msgs s) (msg : SignalingOutbound) :
    Queued d cfg deviceId (msgs ++ [msg]) (s.copy d cfg deviceId msg) := by
  obtain ⟨hnostr, hmdns⟩ := h
  constructor
  · rw [Outlets.copy, hnostr]
    cases d.nostr with
    | false => rfl
    | true => cases hpump : nostrPump cfg.listenOnly deviceId msg <;> simp [hpump]
  · rw [Outlets.copy, hmdns]
    cases d.mdns with
    | false => rfl
    | true => cases hpump : mdnsPump deviceId msg <;> simp [hpump]

private theorem passed_admit (listenOnly : Bool) (s : Outlets) (e : Emission) :
    (s.letPass listenOnly e).1.passed =
        s.passed ++ (if (s.letPass listenOnly e).2 then [e] else []) ∧
      (s.letPass listenOnly e).1.nostr = s.nostr ∧ (s.letPass listenOnly e).1.mdns = s.mdns := by
  unfold Outlets.letPass
  split
  · simp
  · split
    · split <;> simp
    · simp

/-- The queues after a run, with and without the fan-out. -/
private theorem run_queued (cfg : Restart.SignalingConfig) (mdnsStarts : Bool)
    (deviceId : String) (emissions : List Emission) :
    let s := run (Outlets.step cfg mdnsStarts deviceId) {} emissions
    let d := attachSignaling cfg mdnsStarts
    if d.fanout then
      Admitted cfg.listenOnly emissions s ∧ Queued d cfg deviceId (s.passed.map Emission.msg) s
    else Queued d cfg deviceId (emissions.map Emission.msg) s := by
  intro s d
  induction emissions using List.reverseRecOn with
  | nil =>
    split
    · exact ⟨Admitted.new _, by simp [Queued, s, run_nil]⟩
    · simp [Queued, s, run_nil]
  | append_singleton emissions e ih =>
    simp only [s, run_append, run_cons, run_nil] at ih ⊢
    generalize run (Outlets.step cfg mdnsStarts deviceId) {} emissions = s at ih ⊢
    unfold Outlets.step
    split
    · next hfanout =>
      rw [if_pos hfanout] at ih
      obtain ⟨hadmitted, hqueued⟩ := ih
      have hnext := hadmitted.letPass e
      obtain ⟨hpassed, hnostr, hmdns⟩ := passed_admit cfg.listenOnly s e
      have hqueued' : Queued d cfg deviceId (s.passed.map Emission.msg)
          (s.letPass cfg.listenOnly e).1 := by
        rw [Queued, hnostr, hmdns]
        exact hqueued
      rw [if_pos hfanout]
      generalize s.letPass cfg.listenOnly e = r at hnext hpassed hqueued' ⊢
      obtain ⟨s', pass⟩ := r
      cases pass with
      | true =>
        refine ⟨⟨hnext.sub, hnext.others, hnext.silent, hnext.probes⟩, ?_⟩
        have hcopy := hqueued'.copy e.msg
        simp only [Outlets.copy] at hcopy ⊢
        rw [show s'.passed.map Emission.msg = s.passed.map Emission.msg ++ [e.msg] by
          rw [hpassed]; simp]
        exact hcopy
      | false =>
        refine ⟨hnext, ?_⟩
        rw [show s'.passed = s.passed by rw [hpassed]; simp]
        exact hqueued'
    · next hfanout =>
      rw [if_neg hfanout] at ih
      rw [if_neg hfanout, List.map_append]
      exact ih.copy e.msg

/-- Two drivers are attached with a fan-out. -/
private theorem attached_alone {mdnsStarts : Bool}
    (h : (attachSignaling cfg mdnsStarts).fanout = false) :
    ¬((attachSignaling cfg mdnsStarts).nostr = true ∧
      (attachSignaling cfg mdnsStarts).mdns = true) := by
  unfold attachSignaling at h ⊢
  dsimp only at h ⊢
  split at h <;> simp_all

/-- For every configuration and every run of emissions. A device that only listens has no mDNS
driver, and its Nostr driver gets neither announces nor departures. Where the fan-out runs, both
drivers get the same emissions in the order of the engine, the offers, answers and candidates all
among them; of the announces of an evicted device any `n` times 600 seconds hold at most `n`, and
every other announce passes. Without it at most one driver is attached, which gets every emission,
the announces of an evicted device too, and the queue of the other one stays empty. -/
theorem drivers_get (cfg : Restart.SignalingConfig) (mdnsStarts : Bool) (deviceId : String)
    (emissions : List Emission) :
    let s := run (Outlets.step cfg mdnsStarts deviceId) {} emissions
    let d := attachSignaling cfg mdnsStarts
    (cfg.listenOnly = true → s.mdns = [] ∧
      ∀ o ∈ s.nostr, ∃ recipient msg, o = .directedToPeer recipient msg) ∧
    (d.fanout = true → ∃ passed : List Emission, passed.Sublist emissions ∧
      (d.nostr = true →
        s.nostr = (passed.map Emission.msg).filterMap (nostrPump cfg.listenOnly deviceId)) ∧
      (d.mdns = true → s.mdns = (passed.map Emission.msg).filterMap (mdnsPump deviceId)) ∧
      passed.filter (!·.isProbe) =
        emissions.filter (fun e ↦ !e.isProbe && !(cfg.listenOnly && isPresence e.msg)) ∧
      ∀ n start, 0 < n → (((passed.filter (·.isProbe)).map Emission.now).filter fun t ↦
        start ≤ t && t < start + n * evictedProbeInterval).length ≤ n) ∧
    (d.fanout = false → ¬(d.nostr = true ∧ d.mdns = true) ∧
      s.nostr = (if d.nostr then
        (emissions.map Emission.msg).filterMap (nostrPump cfg.listenOnly deviceId) else []) ∧
      s.mdns =
        if d.mdns then (emissions.map Emission.msg).filterMap (mdnsPump deviceId) else []) := by
  intro s d
  have hrun : if d.fanout then
      Admitted cfg.listenOnly emissions s ∧ Queued d cfg deviceId (s.passed.map Emission.msg) s
    else Queued d cfg deviceId (emissions.map Emission.msg) s :=
    run_queued cfg mdnsStarts deviceId emissions
  have hlistener : ∀ msgs, Queued d cfg deviceId msgs s → cfg.listenOnly = true →
      s.mdns = [] ∧ ∀ o ∈ s.nostr, ∃ recipient msg, o = .directedToPeer recipient msg := by
    intro msgs hqueued hlisten
    have hmdns : d.mdns = false := by
      simp only [d, attachSignaling, hlisten, Bool.not_true, Bool.and_false]
      split <;> simp_all
    refine ⟨by rw [hqueued.2, hmdns]; rfl, fun o ho ↦ ?_⟩
    rw [hqueued.1] at ho
    split at ho
    · obtain ⟨msg, -, hpump⟩ := List.mem_filterMap.mp ho
      cases msg with
      | announce | leave => simp [nostrPump, hlisten, isPresence] at hpump
      | offer | answer | candidate =>
        simp only [nostrPump, isPresence, Bool.and_false, Bool.false_eq_true, ↓reduceIte,
          SignalingOutbound.directed, Option.map_some, Option.some_inj] at hpump
        exact ⟨_, _, hpump.symm⟩
    · cases ho
  cases hfanout : d.fanout with
  | true =>
    rw [hfanout, if_pos rfl] at hrun
    obtain ⟨hadmitted, hqueued⟩ := hrun
    refine ⟨hlistener _ hqueued, fun _ ↦ ⟨s.passed, hadmitted.sub, fun h ↦ ?_, fun h ↦ ?_,
      hadmitted.others, fun n start hn ↦ ?_⟩, fun h ↦ by cases h⟩
    · exact hqueued.1.trans (if_pos h)
    · exact hqueued.2.trans (if_pos h)
    · exact hadmitted.probes.spaced.length_window_le hn start
  | false =>
    rw [hfanout, if_neg Bool.false_ne_true] at hrun
    exact ⟨hlistener _ hrun, nofun, fun _ ↦ ⟨attached_alone hfanout, hrun⟩⟩

end MyOwnMesh.Fanout
