import Mathlib.Data.List.Pairwise
import MyOwnMesh.Lib.Replay

/-!
# The network watcher

`crates/myownmesh-core/src/engine/network_watch.rs`. On every tick the driver samples which source
addresses the host would use and compares them with the last sample. A change redials the relays
and restarts ICE with every peer, but for three filters: the host is offline, only an address
nothing connects through moved, or a restart was started a moment ago.

Instants are nanoseconds. What the sockets, the resolver and the interface list answer is part of
a poll; what a fan-out does to each peer is left out.
-/

namespace MyOwnMesh.Watch

open Lib.Replay

abbrev Instant := Nat

/-- A second in nanoseconds. -/
def second : Nat := 1000000000

/-- `scheduler.rs:197`, in nanoseconds. -/
def restartCooldown : Nat := 5 * second

/-- `network_watch.rs:321`, in nanoseconds. -/
def probeTtl : Nat := 300 * second

/-! ### Samples -/

inductive IpAddr where
  | v4 (address : BitVec 32)
  | v6 (address : BitVec 128)
  deriving DecidableEq

structure SocketAddr where
  ip : IpAddr
  port : UInt16
  deriving DecidableEq

/-- `network_watch.rs:73–90`. -/
structure NetworkSnapshot where
  v4 : Option (BitVec 32)
  v6 : Option (BitVec 128)
  localSet : UInt64
  localCount : Nat
  deriving DecidableEq

/-- What a sample reads; `network_watch.rs:139–170, 251–277`. -/
structure Reads where
  primaryV4 : Option (BitVec 32)
  primaryV6 : Option (BitVec 128)
  probeSource : SocketAddr → Option IpAddr
  localFingerprint : UInt64 × Nat

/-- `network_watch.rs:94–128`. -/
def NetworkSnapshot.sample (reads : Reads) (probe : Option SocketAddr) : NetworkSnapshot :=
  let v4 := reads.primaryV4.map IpAddr.v4
  let v6 := reads.primaryV6.map IpAddr.v6
  let sources : Option IpAddr × Option IpAddr :=
    match probe with
    | some ⟨.v4 a, port⟩ => ((reads.probeSource ⟨.v4 a, port⟩).or v4, v6)
    | some ⟨.v6 a, port⟩ => (v4, (reads.probeSource ⟨.v6 a, port⟩).or v6)
    | none => (v4, v6)
  { v4 := match sources.1 with
      | some (.v4 a) => some a
      | _ => none
    v6 := match sources.2 with
      | some (.v6 a) => some a
      | _ => none
    localSet := reads.localFingerprint.1
    localCount := reads.localFingerprint.2 }

/-- `network_watch.rs:134–136`. -/
def NetworkSnapshot.offline (s : NetworkSnapshot) : Bool :=
  s.v4.isNone && s.v6.isNone && s.localCount == 0

/-- Both primary addresses. -/
def NetworkSnapshot.primary (s : NetworkSnapshot) : Option (BitVec 32) × Option (BitVec 128) :=
  (s.v4, s.v6)

/-! ### The watcher -/

/-- `network_watch.rs:281–298`. -/
structure NetworkWatch where
  last : Option NetworkSnapshot
  lastRestartAt : Option Instant
  probe : Option SocketAddr
  probeCheckedAt : Option Instant

/-- `network_watch.rs:302–309`. -/
def NetworkWatch.new : NetworkWatch := ⟨none, none, none, none⟩

/-- A diagnostic of category `network`; `network_watch.rs:456–466, 482–493`. -/
structure Diag where
  message : String
  prev : Option (BitVec 32) × Option (BitVec 128)
  next : Option (Option (BitVec 32) × Option (BitVec 128))

/-- A fan-out that was started: whether a relay driver took the redial, and whether the restarts
wait for a relay to be back. -/
structure FanOut where
  startedAt : Instant
  redialing : Bool
  waiting : Bool

/-- What the watcher reads and writes of the network's state: the offline latch, the diagnostics
and the fan-outs, the latest first. -/
structure NetworkState where
  offline : Bool
  diags : List Diag
  fanOuts : List FanOut

/-- A fresh network is online. -/
def NetworkState.new : NetworkState := ⟨false, [], []⟩

/-- What a poll meets: the time it starts, what the resolver answers if it is asked, what the
sample reads, the time it decides at, and whether a relay driver takes redials and reports fresh
sessions. -/
structure Poll where
  start : Instant
  resolved : Option SocketAddr
  reads : Reads
  now : Instant
  relayReconnect : Bool
  relayConnected : Bool

/-- `network_watch.rs:522–552`. -/
def redialThenFanOut (state : NetworkState) (p : Poll) : NetworkState :=
  let redialing := p.relayReconnect
  let waiting := redialing && p.relayConnected
  { state with fanOuts := ⟨p.now, redialing, waiting⟩ :: state.fanOuts }

/-- `network_watch.rs:409–413`. -/
def isBenignSecondaryChurn (prev current : NetworkSnapshot) : Bool :=
  let primaryHeld := current.v4 == prev.v4 && current.v6 == prev.v6
  let havePrimary := current.v4.isSome || current.v6.isSome
  primaryHeld && havePrimary

/-- `network_watch.rs:419–430`; `duration_since` stops at zero. -/
def cooldownCoalesces (isOfflineEdge : Bool) (lastRestartAt : Option Instant) (now : Instant) :
    Bool :=
  if isOfflineEdge then false
  else (lastRestartAt.map fun t ↦ decide (now - t < restartCooldown)).getD false

/-- `network_watch.rs:432–500`. -/
def onNetworkChange (state : NetworkState) (prev current : NetworkSnapshot) (p : Poll) :
    NetworkState :=
  let state := { state with offline := current.offline }
  if current.offline then
    { state with diags :=
        ⟨"Lost the primary network interface; holding ICE restarts until it returns.",
          prev.primary, none⟩ :: state.diags }
  else
    redialThenFanOut { state with diags :=
        ⟨"Primary network interface changed; renegotiating ICE with every active peer.",
          prev.primary, some current.primary⟩ :: state.diags } p

/-- `network_watch.rs:323–330`. -/
def NetworkWatch.refreshProbe (w : NetworkWatch) (p : Poll) : NetworkWatch :=
  if w.probeCheckedAt.all fun t ↦ decide (probeTtl ≤ p.start - t) then
    { w with probeCheckedAt := some p.start, probe := p.resolved }
  else w

/-- What the poll sees. -/
def NetworkWatch.current (w : NetworkWatch) (p : Poll) : NetworkSnapshot :=
  .sample p.reads (w.refreshProbe p).probe

/-- `network_watch.rs:318–391`. -/
def NetworkWatch.poll (w : NetworkWatch) (state : NetworkState) (p : Poll) :
    NetworkWatch × NetworkState :=
  let current := w.current p
  let w := w.refreshProbe p
  match w.last with
  | none => ({ w with last := some current }, state)
  | some prev =>
    if current = prev then (w, state)
    else
      let w := { w with last := some current }
      if isBenignSecondaryChurn prev current then (w, state)
      else
        let isOfflineEdge := current.offline || state.offline
        if cooldownCoalesces isOfflineEdge w.lastRestartAt p.now then (w, state)
        else
          let w := if current.offline then w else { w with lastRestartAt := some p.now }
          (w, onNetworkChange state prev current p)

/-! ### What a poll does -/

@[simp] theorem NetworkWatch.last_refreshProbe (w : NetworkWatch) (p : Poll) :
    (w.refreshProbe p).last = w.last := by
  unfold refreshProbe
  split <;> rfl

@[simp] theorem NetworkWatch.lastRestartAt_refreshProbe (w : NetworkWatch) (p : Poll) :
    (w.refreshProbe p).lastRestartAt = w.lastRestartAt := by
  unfold refreshProbe
  split <;> rfl

theorem cooldownCoalesces_iff {edge : Bool} {lastRestartAt : Option Instant} {now : Instant} :
    cooldownCoalesces edge lastRestartAt now = true ↔
      edge = false ∧ ∃ t, lastRestartAt = some t ∧ now - t < restartCooldown := by
  unfold cooldownCoalesces
  cases edge with
  | true => simp
  | false => cases lastRestartAt <;> simp

/-- What a poll leaves, by what became of the change it saw. -/
inductive Polled (w : NetworkWatch) (state : NetworkState) (p : Poll) (w' : NetworkWatch) :
    NetworkState → Prop where
  /-- The first poll adopts the baseline. -/
  | baseline (hlast : w.last = none) (hrestart : w'.lastRestartAt = w.lastRestartAt) :
    Polled w state p w' state
  /-- Nothing changed, or only an address nothing connects through. -/
  | held (prev : NetworkSnapshot) (hlast : w.last = some prev)
    (hprimary : (w.current p).primary = prev.primary)
    (hoffline : (w.current p).offline = prev.offline)
    (hrestart : w'.lastRestartAt = w.lastRestartAt) : Polled w state p w' state
  /-- The last fan-out is too recent. -/
  | coalesced (prev : NetworkSnapshot) (hlast : w.last = some prev) (t : Instant)
    (honline : (w.current p).offline = false) (hlatch : state.offline = false)
    (ht : w.lastRestartAt = some t) (hrecent : p.now - t < restartCooldown)
    (hrestart : w'.lastRestartAt = w.lastRestartAt) : Polled w state p w' state
  /-- The host went offline. -/
  | lost (prev : NetworkSnapshot) (hlast : w.last = some prev) (diags : List Diag)
    (hoffline : (w.current p).offline = true) (hrestart : w'.lastRestartAt = w.lastRestartAt) :
    Polled w state p w' ⟨true, diags, state.fanOuts⟩
  /-- A fan-out is started. -/
  | fannedOut (prev : NetworkSnapshot) (hlast : w.last = some prev) (diags : List Diag)
    (redialing waiting : Bool) (honline : (w.current p).offline = false)
    (hrestart : w'.lastRestartAt = some p.now) :
    Polled w state p w' ⟨false, diags, ⟨p.now, redialing, waiting⟩ :: state.fanOuts⟩

/-- A poll adopts what it saw, and does one of these. -/
theorem NetworkWatch.poll_cases (w : NetworkWatch) (state : NetworkState) (p : Poll) :
    (w.poll state p).1.last = some (w.current p) ∧
      Polled w state p (w.poll state p).1 (w.poll state p).2 := by
  unfold poll
  simp only [last_refreshProbe, lastRestartAt_refreshProbe]
  cases hlast : w.last with
  | none => exact ⟨rfl, .baseline hlast (by simp)⟩
  | some prev =>
    simp only
    split
    · next hsame =>
      exact ⟨by simp [hlast, hsame], .held prev hlast (by rw [hsame]) (by rw [hsame]) (by simp)⟩
    · split
      · next hbenign =>
        simp only [isBenignSecondaryChurn, Bool.and_eq_true, beq_iff_eq, Bool.or_eq_true] at hbenign
        obtain ⟨⟨hv4, hv6⟩, hprimary⟩ := hbenign
        refine ⟨rfl, .held prev hlast ?_ ?_ (by simp)⟩
        · rw [NetworkSnapshot.primary, NetworkSnapshot.primary, hv4, hv6]
        · unfold NetworkSnapshot.offline
          rw [← hv4, ← hv6]
          rcases hprimary with h | h
          · simp [Option.isNone_eq_false_iff.mpr h]
          · simp [Option.isNone_eq_false_iff.mpr h]
      · split
        · next hcool =>
          obtain ⟨hedge, t, ht, hrecent⟩ := cooldownCoalesces_iff.mp hcool
          rw [Bool.or_eq_false_iff] at hedge
          exact ⟨rfl, .coalesced prev hlast t hedge.1 hedge.2 ht hrecent (by simp)⟩
        · cases hoffline : (w.current p).offline with
          | true =>
            simp only [onNetworkChange, hoffline, if_true]
            exact ⟨trivial, .lost prev hlast _ hoffline (by simp)⟩
          | false =>
            simp only [onNetworkChange, hoffline, Bool.false_eq_true, if_false, redialThenFanOut]
            exact ⟨trivial, .fannedOut prev hlast _ _ _ hoffline rfl⟩

/-! ### Runs -/

/-- A snapshot that a poll saw. -/
structure Sighting where
  seenAt : Instant
  snapshot : NetworkSnapshot
  deriving DecidableEq

/-- The watcher, the network's state and what was seen so far, the latest first. -/
structure History where
  watch : NetworkWatch
  state : NetworkState
  seen : List Sighting

/-- Nothing was seen. -/
def History.start : History := ⟨.new, .new, []⟩

/-- One poll. -/
def step (h : History) (p : Poll) : History :=
  let (watch, state) := h.watch.poll h.state p
  ⟨watch, state, ⟨p.now, h.watch.current p⟩ :: h.seen⟩

/-- The last change of the primary addresses: what was seen before it and at it. -/
def lastPrimaryChange : List Sighting → Option (Sighting × Sighting)
  | cur :: prev :: rest =>
    if cur.snapshot.primary = prev.snapshot.primary then lastPrimaryChange (prev :: rest)
    else some (prev, cur)
  | _ => none

/-- A fan-out was started at or after the change. -/
def Followed (h : History) (cur : Sighting) : Prop :=
  ∃ f ∈ h.state.fanOuts, cur.seenAt ≤ f.startedAt

/-- The change left the host online and came right after a fan-out. -/
def Coalesced (h : History) (prev cur : Sighting) : Prop :=
  prev.snapshot.offline = false ∧ cur.snapshot.offline = false ∧
    ∃ f ∈ h.state.fanOuts, f.startedAt ≤ cur.seenAt ∧ cur.seenAt < f.startedAt + restartCooldown

/-- The watcher's fields say what its history says, and the last change is dealt with. -/
structure Tracked (h : History) : Prop where
  last : h.watch.last = h.seen.head?.map (·.snapshot)
  restart : h.watch.lastRestartAt = h.state.fanOuts.head?.map (·.startedAt)
  /-- Every fan-out was started by a poll. -/
  polled : ∀ f ∈ h.state.fanOuts, ∃ s ∈ h.seen, f.startedAt = s.seenAt
  /-- The latch tells when the host is offline, unless it was so from the first poll on. -/
  latch : ∀ s ∈ h.seen.head?, s.snapshot.offline = true →
    h.state.offline = true ∨ h.watch.lastRestartAt = none
  settled : ∀ prev cur, lastPrimaryChange h.seen = some (prev, cur) →
    (∀ s ∈ h.seen.head?, s.snapshot.offline = true) ∨ Followed h cur ∨ Coalesced h prev cur

private theorem mem_of_lastPrimaryChange {seen : List Sighting} {prev cur : Sighting}
    (h : lastPrimaryChange seen = some (prev, cur)) : cur ∈ seen := by
  fun_induction lastPrimaryChange seen with
  | case1 c p rest _ ih => exact List.mem_cons_of_mem _ (ih h)
  | case2 c p rest _ =>
    cases h
    exact List.mem_cons_self
  | case3 => cases h

private theorem lastPrimaryChange_cons {s p : Sighting} {rest : List Sighting} :
    lastPrimaryChange (s :: p :: rest) =
      if s.snapshot.primary = p.snapshot.primary then lastPrimaryChange (p :: rest)
      else some (p, s) := by
  rw [lastPrimaryChange]

/-- What was dealt with stays so. -/
private theorem settled_mono {h h' : History} {prev cur : Sighting}
    (hsub : ∀ f ∈ h.state.fanOuts, f ∈ h'.state.fanOuts)
    (hset : Followed h cur ∨ Coalesced h prev cur) : Followed h' cur ∨ Coalesced h' prev cur := by
  rcases hset with ⟨f, hf, hle⟩ | ⟨hprev, hcur, f, hf, hle⟩
  · exact .inl ⟨f, hsub f hf, hle⟩
  · exact .inr ⟨hprev, hcur, f, hsub f hf, hle⟩

private theorem Tracked.lastRestartAt_of_nil {h : History} (ht : Tracked h) (hseen : h.seen = []) :
    h.watch.lastRestartAt = none := by
  rw [ht.restart, Option.map_eq_none_iff, List.head?_eq_none_iff]
  refine List.eq_nil_iff_forall_not_mem.mpr fun f hf ↦ ?_
  obtain ⟨s, hs, -⟩ := ht.polled f hf
  rw [hseen] at hs
  cases hs

private theorem Tracked.seen_of_last {h : History} (ht : Tracked h) {prev : NetworkSnapshot}
    (hlast : h.watch.last = some prev) : ∃ s rest, h.seen = s :: rest ∧ s.snapshot = prev := by
  rw [ht.last, Option.map_eq_some_iff] at hlast
  obtain ⟨s, hs, heq⟩ := hlast
  obtain ⟨rest, hrest⟩ := List.head?_eq_some_iff.mp hs
  exact ⟨s, rest, hrest, heq⟩

/-- The time of the last restart is that of a fan-out. -/
private theorem Tracked.fanOut_of_lastRestartAt {h : History} (ht : Tracked h) {t : Instant}
    (htime : h.watch.lastRestartAt = some t) : ∃ f ∈ h.state.fanOuts, f.startedAt = t := by
  rw [ht.restart, Option.map_eq_some_iff] at htime
  obtain ⟨f, hf, heq⟩ := htime
  exact ⟨f, List.mem_of_head? hf, heq⟩

/-- After a fan-out, a host whose latch is open is online. -/
private theorem Tracked.online {h : History} (ht : Tracked h) {s : Sighting}
    (hs : s ∈ h.seen.head?) {t : Instant} (hlatch : h.state.offline = false)
    (htime : h.watch.lastRestartAt = some t) : s.snapshot.offline = false := by
  rw [← Bool.not_eq_true]
  intro hoff
  rcases ht.latch s hs hoff with hl | hl
  · rw [hlatch] at hl
    cases hl
  · rw [htime] at hl
    cases hl

/-- A poll at a later time keeps the history tracked. -/
theorem Tracked.step {h : History} (ht : Tracked h) {p : Poll}
    (hnow : ∀ s ∈ h.seen, s.seenAt ≤ p.now) : Tracked (step h p) := by
  obtain ⟨hlast', hpoll⟩ := h.watch.poll_cases h.state p
  unfold Watch.step
  generalize hr : h.watch.poll h.state p = r at hlast' hpoll
  obtain ⟨watch, state⟩ := r
  have hpast : ∀ f ∈ h.state.fanOuts, f.startedAt ≤ p.now := by
    intro f hf
    obtain ⟨s, hs, heq⟩ := ht.polled f hf
    exact heq ▸ hnow s hs
  have hpolled : ∀ f ∈ h.state.fanOuts,
      ∃ s ∈ (⟨p.now, h.watch.current p⟩ :: h.seen : List Sighting), f.startedAt = s.seenAt := by
    intro f hf
    obtain ⟨s, hs, heq⟩ := ht.polled f hf
    exact ⟨s, List.mem_cons_of_mem _ hs, heq⟩
  cases hpoll with
  | baseline hnone hrestart =>
    have hempty : h.seen = [] := by
      have hlast := ht.last
      rw [hnone, eq_comm, Option.map_eq_none_iff, List.head?_eq_none_iff] at hlast
      exact hlast
    refine ⟨hlast', ?_, hpolled, fun _ _ _ ↦ .inr ?_, fun _ _ hchange ↦ ?_⟩
    · rw [hrestart, ht.restart]
    · exact hrestart.trans (ht.lastRestartAt_of_nil hempty)
    · rw [hempty] at hchange
      cases hchange
  | held prev hprev hprimary hoffline hrestart =>
    obtain ⟨s, rest, hseen, rfl⟩ := ht.seen_of_last hprev
    refine ⟨hlast', ?_, hpolled, ?_, ?_⟩
    · rw [hrestart, ht.restart]
    · intro s' hs' hoff
      cases hs'
      rw [hrestart]
      exact ht.latch s (by rw [hseen]; rfl) (hoffline ▸ hoff)
    · intro p' cur hchange
      rw [hseen, lastPrimaryChange_cons, if_pos hprimary, ← hseen] at hchange
      rcases ht.settled p' cur hchange with hoff | hset
      · refine .inl fun s' hs' ↦ ?_
        cases hs'
        exact hoffline.trans (hoff s (by rw [hseen]; rfl))
      · exact .inr (settled_mono (fun _ hf ↦ hf) hset)
  | coalesced prev hprev t honline hlatch htime hrecent hrestart =>
    obtain ⟨s, rest, hseen, rfl⟩ := ht.seen_of_last hprev
    have hs : s ∈ h.seen.head? := by rw [hseen]; rfl
    have hwas := ht.online hs hlatch htime
    refine ⟨hlast', ?_, hpolled, ?_, ?_⟩
    · rw [hrestart, ht.restart]
    · intro s' hs' hoff
      cases hs'
      rw [honline] at hoff
      cases hoff
    · intro p' cur hchange
      rw [hseen, lastPrimaryChange_cons] at hchange
      split at hchange
      · rw [← hseen] at hchange
        rcases ht.settled p' cur hchange with hoff | hset
        · rw [hoff s hs] at hwas
          cases hwas
        · exact .inr (settled_mono (fun _ hf ↦ hf) hset)
      · cases hchange
        -- the recent fan-out is the one the change is folded into
        obtain ⟨f, hf, rfl⟩ := ht.fanOut_of_lastRestartAt htime
        have hle := hpast f hf
        refine .inr (.inr ⟨hwas, honline, f, hf, hle, ?_⟩)
        exact (Nat.sub_lt_iff_lt_add' hle).mp hrecent
  | lost prev hprev diags hoffline hrestart =>
    refine ⟨hlast', ?_, hpolled, fun _ _ _ ↦ .inl rfl, fun _ _ _ ↦ .inl fun s' hs' ↦ ?_⟩
    · rw [hrestart, ht.restart]
    · cases hs'
      exact hoffline
  | fannedOut prev hprev diags redialing waiting honline hrestart =>
    refine ⟨hlast', hrestart, ?_, ?_, ?_⟩
    · intro f hf
      rcases List.mem_cons.mp hf with rfl | hf
      · exact ⟨_, List.mem_cons_self, rfl⟩
      · exact hpolled f hf
    · intro s' hs' hoff
      cases hs'
      rw [honline] at hoff
      cases hoff
    · intro p' cur hchange
      refine .inr (.inl ⟨_, List.mem_cons_self, ?_⟩)
      rcases List.mem_cons.mp (mem_of_lastPrimaryChange hchange) with rfl | hmem
      · exact Nat.le_refl _
      · exact hnow cur hmem

/-- Every history of polls at growing times is tracked. -/
private theorem tracked_run {polls : List Poll} (hmono : polls.Pairwise fun a b ↦ a.now ≤ b.now) :
    Tracked (run step .start polls) ∧
      (run step .start polls).seen.map (·.seenAt) = (polls.map (·.now)).reverse := by
  induction polls using List.reverseRecOn with
  | nil => exact ⟨⟨rfl, rfl, nofun, nofun, nofun⟩, rfl⟩
  | append_singleton polls p ih =>
    obtain ⟨hpre, -, hlater⟩ := List.pairwise_append.mp hmono
    obtain ⟨ht, htimes⟩ := ih hpre
    have hnow : ∀ s ∈ (run step .start polls).seen, s.seenAt ≤ p.now := by
      intro s hs
      have hmem := List.mem_map_of_mem (f := Sighting.seenAt) hs
      rw [htimes, List.mem_reverse, List.mem_map] at hmem
      obtain ⟨q, hq, heq⟩ := hmem
      exact heq ▸ hlater q hq p List.mem_cons_self
    rw [run_append]
    refine ⟨ht.step hnow, ?_⟩
    rw [List.map_append, List.reverse_append, ← htimes]
    rfl

/-- The watcher's law, for polls at growing times: while the host is online, a fan-out was started
at or after the last change of the primary addresses, unless that change left the host online and
came right after a fan-out, into which it was folded. -/
theorem last_change_followed_or_coalesced {polls : List Poll}
    (hmono : polls.Pairwise fun a b ↦ a.now ≤ b.now) {prev cur latest : Sighting}
    (hchange : lastPrimaryChange (run step .start polls).seen = some (prev, cur))
    (hlatest : (run step .start polls).seen.head? = some latest)
    (honline : latest.snapshot.offline = false) :
    Followed (run step .start polls) cur ∨ Coalesced (run step .start polls) prev cur := by
  rcases (tracked_run hmono).1.settled prev cur hchange with hoff | hset
  · rw [hoff latest hlatest] at honline
    cases honline
  · exact hset

/-- A poll of a host with one interface, at a time in seconds. -/
def pollAt (seconds : Nat) (v4 : Option (BitVec 32)) : Poll where
  start := second * seconds
  resolved := none
  reads := ⟨v4, none, fun _ ↦ none, (0, if v4.isSome then 1 else 0)⟩
  now := second * seconds
  relayReconnect := true
  relayConnected := true

/-- A handoff through a moment without any interface: the return is followed at once, though a
fan-out was started two seconds before it. -/
theorem return_followed :
    let polls := [pollAt 0 (some 1), pollAt 1 (some 2), pollAt 2 none, pollAt 3 (some 3)]
    let prev : Sighting := ⟨second * 2, none, none, 0, 0⟩
    let cur : Sighting := ⟨second * 3, some 3, none, 0, 1⟩
    let h := run step .start polls
    lastPrimaryChange h.seen = some (prev, cur) ∧
      h.state.fanOuts.map (·.startedAt) = [second * 3, second * 1] ∧
      (Followed h cur ∨ Coalesced h prev cur) := by
  intro polls prev cur h
  have hlatest : h.seen.head? = some cur := by decide +kernel
  refine ⟨by decide +kernel, by decide +kernel, ?_⟩
  exact last_change_followed_or_coalesced (by decide +kernel) (by decide +kernel) hlatest rfl

/-- Two address changes a second apart: eight seconds after the second one the host is online, and
no fan-out was started at or after it. -/
theorem second_flip_not_followed :
    let polls := [pollAt 0 (some 1), pollAt 1 (some 2), pollAt 2 (some 3), pollAt 10 (some 3)]
    let h := run step .start polls
    (lastPrimaryChange h.seen).map (·.2.seenAt) = some (second * 2) ∧
      second * 2 + restartCooldown < second * 10 ∧
      (h.seen.head?.map (·.snapshot.offline)) = some false ∧
      ∀ f ∈ h.state.fanOuts, f.startedAt < second * 2 := by
  decide +kernel

end MyOwnMesh.Watch
