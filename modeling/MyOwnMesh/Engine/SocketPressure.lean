import Mathlib.Data.List.Perm.Basic
import MyOwnMesh.Lib.Ownership
import MyOwnMesh.Lib.Replay

/-!
# The gate for local UDP pressure

`LocalSocketRecoveryWatch` of `state.rs:407–474`, the calls of `state.rs:991–1031` that keep the
counter of the process beside it (`state.rs:34–55`), the destructor (`state.rs:1741–1751`), and the
strong references that `MeshHandle::join` (`handle.rs:134–186`) builds and `leave`
(`handle.rs:600–622`) lets go of. A call on a circuit first updates it under its lock and then,
where it has to, the counter; between the two it is under way. Networks are named by their number
in the order of joining. Times are milliseconds.
-/

namespace MyOwnMesh.SocketPressure

open Lib Lib.Replay Lib.Ownership

def localSocketProbeInitialDelayMs : Nat := 5000

def localSocketProbeBackoffMs : List Nat := [15000, 30000, 60000, 120000]

def localSocketRecoveryMemoryMs : Nat := 120000

structure Watch where
  active : Bool := false
  probeInflight : Bool := false
  retryAt : Option Nat := none
  backoffLevel : Nat := 0
  lastRecoveredAt : Option Nat := none
  deriving DecidableEq, Repr

/-- The delay of a backoff level; the last one from there on. -/
def backoffMs (level : Nat) : Nat :=
  localSocketProbeBackoffMs.getD (min level (localSocketProbeBackoffMs.length - 1)) 0

namespace Watch

/-- The circuit, and whether this was the first symptom of the wave. -/
def arm (w : Watch) (now : Nat) : Watch × Bool :=
  if w.active then (w, false)
  else
    let rapidReentry := w.lastRecoveredAt.any fun at' ↦ now - at' < localSocketRecoveryMemoryMs
    let level := if rapidReentry then max (w.backoffLevel + 1) 1 else 0
    let delay := if rapidReentry then backoffMs (level - 1) else localSocketProbeInitialDelayMs
    ({ w with active := true, probeInflight := false, retryAt := some (now + delay),
              backoffLevel := level }, true)

def takeProbePermit (w : Watch) (now : Nat) : Watch × Bool :=
  if !w.active || w.probeInflight then (w, false)
  else if w.retryAt.any fun at' ↦ now < at' then (w, false)
  else ({ w with probeInflight := true }, true)

/-- The circuit, and whether it went from pressured to recovered. -/
def finishProbe (w : Watch) (now : Nat) (success : Bool) : Watch × Bool :=
  if !w.active || !w.probeInflight then (w, false)
  else if success then
    ({ w with active := false, probeInflight := false, retryAt := none,
              lastRecoveredAt := some now }, true)
  else
    ({ w with probeInflight := false, backoffLevel := w.backoffLevel + 1,
              retryAt := some (now + backoffMs w.backoffLevel) }, false)

end Watch

/-- The objects around a network: the `JoinedNetwork`, the entry in the list of networks, the driver
task, the `NetworkState` and the `RpcInner`. -/
inductive Node where
  | handle (n : Nat)
  | entry (n : Nat)
  | driver (n : Nat)
  | state (n : Nat)
  | inner (n : Nat)
  deriving DecidableEq, Repr

structure Network where
  configId : String
  watch : Watch := {}
  /-- The permits that were taken and whose probes did not finish. -/
  probes : Nat := 0
  shutdown : Bool := false
  deriving DecidableEq, Repr

/-- What a call under way does next. -/
inductive Call where
  /-- `note_local_socket_pressure` armed the circuit and adds to the counter. -/
  | add (n : Nat)
  /-- `finish_local_socket_probe` closed the circuit and takes from the counter. -/
  | release (n : Nat)
  /-- `leave` took an entry out of the list and awaits its driver. -/
  | leave (n : Nat) (entry : Option Nat)
  deriving DecidableEq, Repr

structure Process where
  networks : List Network
  /-- The list of entries of the mesh. -/
  entries : List Nat
  refs : List (Node × Node)
  /-- `LOCAL_SOCKET_PRESSURE_OWNERS`. -/
  owners : Nat
  calls : List Call
  now : Nat
  deriving DecidableEq, Repr

namespace Process

def start : Process := ⟨[], [], [], 0, [], 0⟩

/-- Its handle was not given to `leave`, or `leave` did not return. -/
def Joined (s : Process) (n : Nat) : Prop := (.handle n, .state n) ∈ s.refs

instance (s : Process) (n : Nat) : Decidable (s.Joined n) := inferInstanceAs (Decidable (_ ∈ _))

/-- The references `MeshHandle::join` builds. -/
def joinRefs (n : Nat) : List (Node × Node) :=
  [(.driver n, .state n), (.inner n, .state n), (.state n, .inner n), (.entry n, .state n),
   (.handle n, .state n), (.handle n, .inner n)]

def join (s : Process) (configId : String) : Process :=
  { s with
    networks := s.networks ++ [{ configId := configId }]
    entries := s.entries ++ [s.networks.length]
    refs := s.refs ++ joinRefs s.networks.length }

/-- The counter goes down unless it is zero. -/
def releaseOwner (s : Process) : Process := { s with owners := s.owners - 1 }

def setNetwork (s : Process) (n : Nat) (net : Network) : Process :=
  { s with networks := s.networks.set n net }

/-- The destructor of a `NetworkState`, and what the state held. -/
def dropState (s : Process) (n : Nat) : Process :=
  let released := if s.networks[n]?.any (·.watch.active) then s.releaseOwner else s
  { released with refs := drop s.refs (.state n) }

/-- An owner lets go of a `NetworkState`. -/
def letGo (s : Process) (owner : Node) (n : Nat) : Process :=
  let left : Process := { s with refs := s.refs.erase (owner, .state n) }
  if Owned left.refs (.state n) then left else left.dropState n

/-- An owner lets go of an `RpcInner`. -/
def letGoInner (s : Process) (owner : Node) (n : Nat) : Process :=
  let left : Process := { s with refs := s.refs.erase (owner, .inner n) }
  if Owned left.refs (.inner n) then left else left.letGo (.inner n) n

/-- The first entry with the config id of the network, which is the one `leave` takes. -/
def entryOf (s : Process) (n : Nat) : Option Nat :=
  s.entries.find? fun m ↦
    (s.networks[m]?.map Network.configId) = (s.networks[n]?.map Network.configId)

/-- The driver of the network did not return. -/
def Running (s : Process) (n : Nat) : Prop := (.driver n, .state n) ∈ s.refs

instance (s : Process) (n : Nat) : Decidable (s.Running n) := inferInstanceAs (Decidable (_ ∈ _))

/-- `leave` waits for the driver of the entry it took. -/
def Waits (s : Process) (entry : Option Nat) : Prop := ∃ m ∈ entry, s.Running m

instance (s : Process) (entry : Option Nat) : Decidable (s.Waits entry) :=
  inferInstanceAs (Decidable (∃ m ∈ entry, s.Running m))

/-- `leave` returns: the entry it took and the handle are gone. -/
def leaveReturns (s : Process) (n : Nat) (entry : Option Nat) : Process :=
  let s := match entry with
    | some m => s.letGo (.entry m) m
    | none => s
  (s.letGo (.handle n) n).letGoInner (.handle n) n

end Process

open Process

/-- Networks are joined; the calls on a circuit; `leave` takes its entry; a driver that was told to
shut down returns; a call under way takes its next step; time passes. -/
inductive Op where
  | join (configId : String)
  | note (n : Nat)
  | take (n : Nat)
  | finish (n : Nat) (success : Bool)
  | leave (n : Nat)
  | driverReturns (n : Nat)
  | advance (i : Nat)
  | tick (d : Nat)
  deriving DecidableEq, Repr

/-- `note_local_socket_pressure`, up to the counter. -/
def note (s : Process) (n : Nat) (net : Network) : Process :=
  let armed := net.watch.arm s.now
  let s := s.setNetwork n { net with watch := armed.1 }
  if armed.2 then { s with calls := .add n :: s.calls } else s

/-- `take_local_socket_probe_permit`. -/
def take (s : Process) (n : Nat) (net : Network) : Process :=
  let taken := net.watch.takeProbePermit s.now
  s.setNetwork n { net with watch := taken.1, probes := net.probes + taken.2.toNat }

/-- `finish_local_socket_probe`, up to the counter; it ends a probe when one is in flight. -/
def finish (s : Process) (n : Nat) (net : Network) (success : Bool) : Process :=
  let finished := net.watch.finishProbe s.now success
  let s := s.setNetwork n { net with watch := finished.1, probes := net.probes - 1 }
  if finished.2 then { s with calls := .release n :: s.calls } else s

def step (s : Process) : Op → Process
  | .join configId => s.join configId
  | .note n =>
    match s.networks[n]? with
    | some net => if Owned s.refs (.state n) then note s n net else s
    | none => s
  | .take n =>
    match s.networks[n]? with
    | some net => if Owned s.refs (.state n) then take s n net else s
    | none => s
  | .finish n success =>
    match s.networks[n]? with
    | some net => if Owned s.refs (.state n) then finish s n net success else s
    | none => s
  | .leave n =>
    match s.networks[n]? with
    | some net =>
      -- the handle is consumed, so a network is left once
      if s.Joined n ∧ net.shutdown = false then
        { s.setNetwork n { net with shutdown := true } with
          entries := (s.entryOf n).elim s.entries s.entries.erase
          calls := .leave n (s.entryOf n) :: s.calls }
      else s
    | none => s
  | .driverReturns n =>
    if s.Running n ∧ s.networks[n]?.any (·.shutdown) then s.letGo (.driver n) n else s
  | .advance i =>
    match s.calls[i]? with
    | some (.add _) => { s with owners := s.owners + 1, calls := s.calls.eraseIdx i }
    | some (.release _) => { s.releaseOwner with calls := s.calls.eraseIdx i }
    | some (.leave n entry) =>
      if s.Waits entry then s
      else { s.leaveReturns n entry with calls := s.calls.eraseIdx i }
    | none => s
  | .tick d => { s with now := s.now + d }

/-- The circuit of the network is armed. -/
def Process.Active (s : Process) (n : Nat) : Prop := ∃ net ∈ s.networks[n]?, net.watch.active = true

instance (s : Process) (n : Nat) : Decidable (s.Active n) :=
  inferInstanceAs (Decidable (∃ net ∈ s.networks[n]?, net.watch.active = true))

/-- The counter is not zero when it is taken from, and `leave` returns only when the circuit of its
network is not armed. -/
def Call.Exact (s : Process) : Call → Prop
  | .add _ => True
  | .release _ => s.owners ≠ 0
  | .leave n entry => s.Waits entry ∨ ¬ s.Active n

instance (s : Process) : DecidablePred (Call.Exact s)
  | .add _ => .isTrue trivial
  | .release _ => inferInstanceAs (Decidable (s.owners ≠ 0))
  | .leave n entry => inferInstanceAs (Decidable (s.Waits entry ∨ ¬ s.Active n))

/-- The step condition: a circuit is armed only while its network is joined, and the call that takes
its next step is exact. -/
def Exact (s : Process) : Op → Prop
  | .note n => s.Active n ∨ s.Joined n
  | .advance i => ∀ c ∈ s.calls[i]?, c.Exact s
  | _ => True

instance (s : Process) : DecidablePred (Exact s)
  | .note n => inferInstanceAs (Decidable (s.Active n ∨ s.Joined n))
  | .advance i => inferInstanceAs (Decidable (∀ c ∈ s.calls[i]?, c.Exact s))
  | .join _ | .take _ | .finish _ _ | .leave _ | .driverReturns _ | .tick _ => .isTrue trivial

/-- The joined networks whose circuits are armed. -/
def Process.pressured (s : Process) : Nat :=
  s.networks.zipIdx.countP fun p ↦ p.1.watch.active ∧ s.Joined p.2

def Call.isAdd : Call → Bool
  | .add _ => true
  | _ => false

def Call.isRelease : Call → Bool
  | .release _ => true
  | _ => false

/-- What the calls of a process name is there, and every `NetworkState` and its `RpcInner` own each
other. -/
structure Tied (s : Process) : Prop where
  entries : ∀ m ∈ s.entries, m < s.networks.length
  calls : ∀ n entry, .leave n entry ∈ s.calls →
    n < s.networks.length ∧ ∀ m ∈ entry, m < s.networks.length
  knot : ∀ n < s.networks.length, Knot s.refs [.state n, .inner n]

/-- The probe in flight is the one permit of an armed circuit. -/
def Network.Probing (net : Network) : Prop :=
  net.probes = net.watch.probeInflight.toNat ∧
    (net.watch.probeInflight = true → net.watch.active = true)

/-- The counter, with the additions and releases under way, counts the armed circuits, and these are
circuits of joined networks. -/
structure Gate (s : Process) : Prop where
  tied : Tied s
  counted : s.owners + s.calls.countP Call.isAdd =
    s.networks.countP (·.watch.active) + s.calls.countP Call.isRelease
  joined : ∀ n, s.Active n → s.Joined n
  probing : ∀ net ∈ s.networks, net.Probing

variable {s : Process}

/-- A `NetworkState` is never dropped: the `RpcInner` that it holds owns it. -/
private theorem letGo_eq {owner : Node} {n : Nat} (hknot : Knot s.refs [.state n, .inner n])
    (howner : owner ∉ [.state n, .inner n]) :
    s.letGo owner n = { s with refs := s.refs.erase (owner, .state n) } := by
  have howned : Owned (s.refs.erase (owner, .state n)) (.state n) :=
    (hknot.erase howner).owned (.head _)
  rw [letGo, if_pos howned]

private theorem letGoInner_eq {owner : Node} {n : Nat} (hknot : Knot s.refs [.state n, .inner n])
    (howner : owner ∉ [.state n, .inner n]) :
    s.letGoInner owner n = { s with refs := s.refs.erase (owner, .inner n) } := by
  have howned : Owned (s.refs.erase (owner, .inner n)) (.inner n) :=
    (hknot.erase howner).owned (.tail _ (.head _))
  rw [letGoInner, if_pos howned]

/-- The references that are left when `leave` returned. -/
def Process.leftRefs (s : Process) (n : Nat) (entry : Option Nat) : List (Node × Node) :=
  let refs := entry.elim s.refs fun m ↦ s.refs.erase (.entry m, .state m)
  (refs.erase (.handle n, .state n)).erase (.handle n, .inner n)

private theorem leaveReturns_eq (h : Tied s) {n : Nat} {entry : Option Nat}
    (hcall : .leave n entry ∈ s.calls) :
    s.leaveReturns n entry = { s with refs := s.leftRefs n entry } := by
  obtain ⟨hn, hentry⟩ := h.calls n entry hcall
  cases entry with
  | none =>
    have hknot := h.knot n hn
    rw [leaveReturns, letGo_eq hknot (by simp), letGoInner_eq (hknot.erase (by simp)) (by simp)]
    rfl
  | some m =>
    have hknot : Knot (s.refs.erase (.entry m, .state m)) [.state n, .inner n] :=
      (h.knot n hn).erase (by simp)
    rw [leaveReturns, letGo_eq (h.knot m (hentry m rfl)) (by simp)]
    rw [letGo_eq hknot (by simp), letGoInner_eq (hknot.erase (by simp)) (by simp)]
    rfl

private theorem mem_leftRefs {n : Nat} {entry : Option Nat} {e : Node × Node} (he : e ∈ s.refs)
    (hhandle : e.1 ≠ .handle n) (hentry : ∀ m, e.1 ≠ .entry m) : e ∈ s.leftRefs n entry := by
  have hkeep : ∀ {refs : List (Node × Node)} {owner : Node} {x : Node}, e ∈ refs → e.1 ≠ owner →
      e ∈ refs.erase (owner, x) := by
    intro refs owner x hmem hne
    refine (List.mem_erase_of_ne ?_).mpr hmem
    rintro rfl
    exact hne rfl
  rw [leftRefs]
  refine hkeep (hkeep ?_ hhandle) hhandle
  cases entry with
  | none => exact he
  | some m => exact hkeep he (hentry m)

/-- Knots last when the references of the states and of the `RpcInner`s do. -/
private theorem Tied.refs (h : Tied s) {refs : List (Node × Node)}
    (hrefs : ∀ e ∈ s.refs, ∀ n, e.1 = .state n ∨ e.1 = .inner n → e ∈ refs) {calls : List Call}
    (hcalls : ∀ c ∈ calls, c ∈ s.calls) : Tied { s with refs := refs, calls := calls } where
  entries := h.entries
  calls n entry hcall := h.calls n entry (hcalls _ hcall)
  knot n hn := by
    refine (h.knot n hn).mono fun e he hmem ↦ hrefs e he n ?_
    simpa using hmem

/-- A network changes; a call may begin that names nothing new. -/
private theorem Tied.setNetwork (h : Tied s) (n : Nat) (net : Network) {entries : List Nat}
    (hentries : ∀ m ∈ entries, m ∈ s.entries) {calls : List Call}
    (hcalls : ∀ k entry, .leave k entry ∈ calls →
      k < s.networks.length ∧ ∀ m ∈ entry, m < s.networks.length) :
    Tied { s.setNetwork n net with entries := entries, calls := calls } where
  entries m hm := by
    rw [Process.setNetwork, List.length_set]
    exact h.entries m (hentries m hm)
  calls k entry hcall := by
    rw [Process.setNetwork, List.length_set]
    exact hcalls k entry hcall
  knot k hk := by
    rw [Process.setNetwork, List.length_set] at hk
    exact h.knot k hk

private theorem Tied.join (h : Tied s) (configId : String) : Tied (s.join configId) := by
  have hlength : (s.join configId).networks.length = s.networks.length + 1 := by
    rw [Process.join, List.length_append, List.length_singleton]
  refine ⟨?_, ?_, ?_⟩
  · intro m hm
    rw [hlength]
    rcases List.mem_append.mp hm with hmem | hmem
    · exact Nat.lt_succ_of_lt (h.entries m hmem)
    · rw [List.mem_singleton.mp hmem]
      exact Nat.lt_succ_self _
  · intro n entry hcall
    obtain ⟨hn, hentry⟩ := h.calls n entry hcall
    rw [hlength]
    exact ⟨Nat.lt_succ_of_lt hn, fun m hm ↦ Nat.lt_succ_of_lt (hentry m hm)⟩
  · intro n hn
    rw [hlength] at hn
    rcases Nat.lt_or_eq_of_le (Nat.le_of_lt_succ hn) with hlt | rfl
    · exact (h.knot n hlt).mono fun e he _ ↦ List.mem_append_left _ he
    · intro x hx
      simp only [List.mem_cons, List.not_mem_nil, or_false] at hx
      rcases hx with rfl | rfl
      · exact ⟨.inner _, .tail _ (.head _), List.mem_append_right _ (by simp [joinRefs])⟩
      · exact ⟨.state _, .head _, List.mem_append_right _ (by simp [joinRefs])⟩

private theorem entryOf_mem {n m : Nat} (h : m ∈ s.entryOf n) : m ∈ s.entries :=
  List.mem_of_find?_eq_some h

private theorem arm_cases (w : Watch) (now : Nat) :
    (w.active = true ∧ w.arm now = (w, false)) ∨
      (w.active = false ∧ (w.arm now).1.active = true ∧ (w.arm now).1.probeInflight = false ∧
        (w.arm now).2 = true) := by
  cases hactive : w.active with
  | true => exact .inl ⟨rfl, by rw [Watch.arm, if_pos hactive]⟩
  | false => exact .inr (by simp [Watch.arm, hactive])

private theorem takeProbePermit_cases (w : Watch) (now : Nat) :
    w.takeProbePermit now = (w, false) ∨
      (w.active = true ∧ w.probeInflight = false ∧
        w.takeProbePermit now = ({ w with probeInflight := true }, true)) := by
  rw [Watch.takeProbePermit]
  split
  · exact .inl rfl
  · next hready =>
    split
    · exact .inl rfl
    · simp only [Bool.or_eq_true, Bool.not_eq_true', not_or, Bool.not_eq_false,
        Bool.not_eq_true] at hready
      exact .inr ⟨hready.1, hready.2, rfl⟩

private theorem finishProbe_cases (w : Watch) (now : Nat) (success : Bool) :
    ((w.active = false ∨ w.probeInflight = false) ∧ w.finishProbe now success = (w, false)) ∨
      (w.active = true ∧ w.probeInflight = true ∧
        (w.finishProbe now success).1.active = !(w.finishProbe now success).2 ∧
        (w.finishProbe now success).1.probeInflight = false) := by
  cases hactive : w.active with
  | false => exact .inl (by simp [Watch.finishProbe, hactive])
  | true =>
    cases hinflight : w.probeInflight with
    | false => exact .inl (by simp [Watch.finishProbe, hinflight])
    | true =>
      refine .inr ⟨rfl, rfl, ?_⟩
      cases success with
      | true => simp [Watch.finishProbe, hactive, hinflight]
      | false => simp [Watch.finishProbe, hactive, hinflight]

private theorem countP_active_set {n : Nat} {net : Network} (hnet : s.networks[n]? = some net)
    (net' : Network) :
    (s.networks.set n net').countP (·.watch.active) + net.watch.active.toNat =
      s.networks.countP (·.watch.active) + net'.watch.active.toNat := by
  obtain ⟨hn, rfl⟩ := List.getElem?_eq_some_iff.mp hnet
  rw [(List.set_perm_cons_eraseIdx hn net').countP_eq,
    ← (List.getElem_cons_eraseIdx_perm hn).countP_eq, List.countP_cons, List.countP_cons]
  cases net'.watch.active <;> cases s.networks[n].watch.active <;> simp

private theorem active_set {n k : Nat} {net' : Network} {entries : List Nat} {calls : List Call}
    (h : Process.Active { s.setNetwork n net' with entries := entries, calls := calls } k) :
    (k = n ∧ net'.watch.active = true) ∨ s.Active k := by
  obtain ⟨net, hnet, hactive⟩ := h
  rw [Option.mem_def, Process.setNetwork, List.getElem?_set] at hnet
  split at hnet
  · next heq =>
    split at hnet
    · cases hnet
      exact .inl ⟨heq.symm, hactive⟩
    · cases hnet
  · exact .inr ⟨net, hnet, hactive⟩

/-- A network changes, and a call begins that settles the difference. -/
private theorem Gate.setNetwork (h : Gate s) {n : Nat} {net : Network}
    (hnet : s.networks[n]? = some net) (net' : Network) (hprobing : net'.Probing)
    (hjoined : net'.watch.active = true → s.Joined n) {entries : List Nat}
    (hentries : ∀ m ∈ entries, m ∈ s.entries) {calls : List Call}
    (hcalls : ∀ k entry, .leave k entry ∈ calls →
      k < s.networks.length ∧ ∀ m ∈ entry, m < s.networks.length)
    (hcounted : net.watch.active.toNat + s.calls.countP Call.isRelease + calls.countP Call.isAdd =
      net'.watch.active.toNat + calls.countP Call.isRelease + s.calls.countP Call.isAdd) :
    Gate { s.setNetwork n net' with entries := entries, calls := calls } where
  tied := h.tied.setNetwork n net' hentries hcalls
  counted := by
    have hset := countP_active_set hnet net'
    have hbefore := h.counted
    change s.owners + calls.countP Call.isAdd =
      (s.networks.set n net').countP (·.watch.active) + calls.countP Call.isRelease
    omega
  joined k hk := by
    rcases active_set hk with ⟨rfl, hactive⟩ | hactive
    · exact hjoined hactive
    · exact h.joined k hactive
  probing other hother := by
    rcases List.mem_or_eq_of_mem_set hother with hmem | rfl
    · exact h.probing other hmem
    · exact hprobing

private theorem Gate.joined_of_active (h : Gate s) {n : Nat} {net : Network}
    (hnet : s.networks[n]? = some net) (hactive : net.watch.active = true) : s.Joined n :=
  h.joined n ⟨net, hnet, hactive⟩

private theorem Gate.note (h : Gate s) {n : Nat} {net : Network} (hnet : s.networks[n]? = some net)
    (hexact : s.Active n ∨ s.Joined n) : Gate (note s n net) := by
  have hn : s.Joined n := hexact.elim (h.joined n) id
  have hprobing := h.probing net (List.mem_of_getElem? hnet)
  rcases arm_cases net.watch s.now with ⟨hactive, harm⟩ | ⟨hactive, harmed, hinflight, hfirst⟩
  · simp only [SocketPressure.note, harm]
    exact h.setNetwork hnet net hprobing (fun _ ↦ hn) (fun _ hm ↦ hm) h.tied.calls rfl
  · have hprobes : net.probes = 0 := by
      rw [hprobing.1]
      cases hwas : net.watch.probeInflight with
      | false => rfl
      | true =>
        rw [hprobing.2 hwas] at hactive
        cases hactive
    simp only [SocketPressure.note, hfirst, if_pos]
    refine h.setNetwork hnet { net with watch := (net.watch.arm s.now).1 }
      ⟨?_, fun _ ↦ harmed⟩ (fun _ ↦ hn) (fun _ hm ↦ hm) ?_ ?_
    · change net.probes = (net.watch.arm s.now).1.probeInflight.toNat
      rw [hprobes, hinflight]
      rfl
    · intro k entry hcall
      rcases List.mem_cons.mp hcall with heq | hmem
      · cases heq
      · exact h.tied.calls k entry hmem
    · simp only [Process.setNetwork, List.countP_cons, Call.isAdd, Call.isRelease, hactive, harmed]
      simp
      omega

private theorem Gate.take (h : Gate s) {n : Nat} {net : Network}
    (hnet : s.networks[n]? = some net) :
    Gate (take s n net) := by
  have hprobing := h.probing net (List.mem_of_getElem? hnet)
  rw [SocketPressure.take]
  rcases takeProbePermit_cases net.watch s.now with hsame | ⟨hactive, hinflight, htaken⟩
  · simp only [hsame]
    exact h.setNetwork hnet net hprobing (h.joined_of_active hnet) (fun _ hm ↦ hm) h.tied.calls rfl
  · simp only [htaken]
    refine h.setNetwork hnet
      { net with watch := { net.watch with probeInflight := true }, probes := net.probes + 1 }
      ⟨?_, fun _ ↦ hactive⟩ (fun _ ↦ h.joined_of_active hnet hactive) (fun _ hm ↦ hm) h.tied.calls
      rfl
    change net.probes + 1 = 1
    rw [hprobing.1, hinflight]
    rfl

private theorem Gate.finish (h : Gate s) {n : Nat} {net : Network}
    (hnet : s.networks[n]? = some net) (success : Bool) : Gate (finish s n net success) := by
  have hprobing := h.probing net (List.mem_of_getElem? hnet)
  rcases finishProbe_cases net.watch s.now success with
    ⟨hidle, hsame⟩ | ⟨hactive, hinflight, hafter, hdone⟩
  · -- no probe is in flight, so nothing changes
    have hwas : net.watch.probeInflight = false := by
      rcases hidle with hinactive | hnone
      · cases hwas : net.watch.probeInflight with
        | false => rfl
        | true =>
          rw [hprobing.2 hwas] at hinactive
          cases hinactive
      · exact hnone
    simp only [SocketPressure.finish, hsame]
    refine h.setNetwork hnet { net with probes := net.probes - 1 } ⟨?_, hprobing.2⟩
      (fun hactive ↦ h.joined_of_active hnet hactive) (fun _ hm ↦ hm) h.tied.calls rfl
    change net.probes - 1 = net.watch.probeInflight.toNat
    rw [hprobing.1, hwas]
    rfl
  · have hprobes : net.probes - 1 = 0 := by
      rw [hprobing.1, hinflight]
      rfl
    have hprobing' : Network.Probing
        { net with
          watch := (net.watch.finishProbe s.now success).1
          probes := net.probes - 1 } := by
      refine ⟨?_, fun hstill ↦ ?_⟩
      · change net.probes - 1 = (net.watch.finishProbe s.now success).1.probeInflight.toNat
        rw [hprobes, hdone]
        rfl
      · change (net.watch.finishProbe s.now success).1.probeInflight = true at hstill
        rw [hdone] at hstill
        cases hstill
    have hjoined : s.Joined n := h.joined_of_active hnet hactive
    rw [SocketPressure.finish]
    cases hrecovered : (net.watch.finishProbe s.now success).2 with
    | false =>
      rw [hrecovered] at hafter
      refine h.setNetwork hnet _ hprobing' (fun _ ↦ hjoined) (fun _ hm ↦ hm) h.tied.calls ?_
      simp only [hactive, hafter]
      rfl
    | true =>
      rw [hrecovered] at hafter
      refine h.setNetwork hnet _ hprobing' (fun _ ↦ hjoined) (fun _ hm ↦ hm) ?_ ?_
      · intro k entry hcall
        rcases List.mem_cons.mp hcall with heq | hmem
        · cases heq
        · exact h.tied.calls k entry hmem
      · simp only [Process.setNetwork, List.countP_cons, Call.isAdd, Call.isRelease, hactive,
          hafter]
        simp
        omega

private theorem Gate.join (h : Gate s) (configId : String) : Gate (s.join configId) where
  tied := h.tied.join configId
  counted := by
    have hbefore := h.counted
    simp only [Process.join, List.countP_append, List.countP_singleton]
    simpa using hbefore
  joined n hn := by
    obtain ⟨net, hnet, hactive⟩ := hn
    rw [Option.mem_def, Process.join, List.getElem?_append] at hnet
    split at hnet
    · exact List.mem_append_left _ (h.joined n ⟨net, hnet, hactive⟩)
    · -- the new network's circuit is not armed
      rw [List.getElem?_singleton] at hnet
      split at hnet
      · cases hnet
        cases hactive
      · cases hnet
  probing net hnet := by
    rcases List.mem_append.mp hnet with hmem | hmem
    · exact h.probing net hmem
    · rw [List.mem_singleton.mp hmem]
      exact ⟨rfl, fun hinflight ↦ by cases hinflight⟩

private theorem Gate.leave (h : Gate s) {n : Nat} {net : Network} (hnet : s.networks[n]? = some net)
    (hn : s.Joined n) :
    Gate { s.setNetwork n { net with shutdown := true } with
      entries := (s.entryOf n).elim s.entries s.entries.erase
      calls := .leave n (s.entryOf n) :: s.calls } := by
  refine h.setNetwork hnet { net with shutdown := true } (h.probing net (List.mem_of_getElem? hnet))
    (fun _ ↦ hn) ?_ ?_ ?_
  · intro m hm
    cases hentry : s.entryOf n with
    | none =>
      rw [hentry] at hm
      exact hm
    | some k =>
      rw [hentry] at hm
      exact List.mem_of_mem_erase hm
  · intro k entry hcall
    rcases List.mem_cons.mp hcall with heq | hmem
    · cases heq
      obtain ⟨hlt, -⟩ := List.getElem?_eq_some_iff.mp hnet
      exact ⟨hlt, fun m hm ↦ h.tied.entries m (entryOf_mem hm)⟩
    · exact h.tied.calls k entry hmem
  · simp [Call.isAdd, Call.isRelease]

/-- The references of the handles of joined networks last, and calls that are not about the counter
end. -/
private theorem Gate.refs (h : Gate s) {refs : List (Node × Node)}
    (hrefs : ∀ e ∈ s.refs, ∀ n, e.1 = .state n ∨ e.1 = .inner n → e ∈ refs)
    (hjoined : ∀ n, s.Active n → s.Joined n → (.handle n, .state n) ∈ refs) {calls : List Call}
    (hcalls : ∀ c ∈ calls, c ∈ s.calls)
    (hadd : calls.countP Call.isAdd = s.calls.countP Call.isAdd)
    (hrelease : calls.countP Call.isRelease = s.calls.countP Call.isRelease) :
    Gate { s with refs := refs, calls := calls } where
  tied := h.tied.refs hrefs hcalls
  counted := by
    rw [hadd, hrelease]
    exact h.counted
  joined n hn := hjoined n hn (h.joined n hn)
  probing := h.probing

private theorem Gate.driverReturns (h : Gate s) {n : Nat} (hn : n < s.networks.length) :
    Gate (s.letGo (.driver n) n) := by
  rw [letGo_eq (h.tied.knot n hn) (by simp)]
  refine h.refs ?_ ?_ (fun _ hc ↦ hc) rfl rfl
  · intro e he k hk
    refine (List.mem_erase_of_ne ?_).mpr he
    rintro rfl
    rcases hk with hk | hk <;> cases hk
  · intro k _ hk
    exact (List.mem_erase_of_ne (by simp)).mpr hk

/-- The number of calls of a kind with one of them taken out. -/
private theorem countP_calls {i : Nat} {c : Call} (hc : s.calls[i]? = some c) (p : Call → Bool) :
    s.calls.countP p = (s.calls.eraseIdx i).countP p + (p c).toNat := by
  obtain ⟨hi, rfl⟩ := List.getElem?_eq_some_iff.mp hc
  rw [← (List.getElem_cons_eraseIdx_perm hi).countP_eq, List.countP_cons]
  cases p s.calls[i] <;> rfl

private theorem Gate.advance (h : Gate s) {i : Nat} {c : Call} (hc : s.calls[i]? = some c)
    (hexact : c.Exact s) : Gate (step s (.advance i)) := by
  have hadd := countP_calls hc Call.isAdd
  have hrelease := countP_calls hc Call.isRelease
  have hcounted := h.counted
  have hsub : ∀ d ∈ s.calls.eraseIdx i, d ∈ s.calls := fun d hd ↦ List.mem_of_mem_eraseIdx hd
  have htied : Tied { s with refs := s.refs, calls := s.calls.eraseIdx i } :=
    h.tied.refs (fun e he _ _ ↦ he) hsub
  cases c with
  | add n =>
    simp only [SocketPressure.step, hc]
    refine ⟨⟨htied.entries, htied.calls, htied.knot⟩, ?_, h.joined, h.probing⟩
    simp only [Call.isAdd, Call.isRelease, Bool.toNat_true, Bool.toNat_false] at hadd hrelease
    change s.owners + 1 + (s.calls.eraseIdx i).countP Call.isAdd =
      s.networks.countP (·.watch.active) + (s.calls.eraseIdx i).countP Call.isRelease
    omega
  | release n =>
    have hpos : s.owners ≠ 0 := hexact
    simp only [SocketPressure.step, hc]
    refine ⟨⟨htied.entries, htied.calls, htied.knot⟩, ?_, h.joined, h.probing⟩
    simp only [Call.isAdd, Call.isRelease, Bool.toNat_true, Bool.toNat_false] at hadd hrelease
    change s.owners - 1 + (s.calls.eraseIdx i).countP Call.isAdd =
      s.networks.countP (·.watch.active) + (s.calls.eraseIdx i).countP Call.isRelease
    omega
  | leave n entry =>
    simp only [SocketPressure.step, hc]
    split
    · exact h
    · next hwaits =>
      have hidle : ¬ s.Active n := hexact.resolve_left hwaits
      rw [leaveReturns_eq h.tied (List.mem_of_getElem? hc)]
      refine h.refs ?_ ?_ hsub hadd.symm hrelease.symm
      · intro e he k hk
        refine mem_leftRefs he ?_ ?_
        · rcases hk with hk | hk <;> rw [hk] <;> simp
        · intro m
          rcases hk with hk | hk <;> rw [hk] <;> simp
      · intro k hactive hk
        refine mem_leftRefs hk ?_ (by simp)
        rintro ⟨⟩
        exact hidle hactive

private theorem Gate.step (h : Gate s) {o : Op} (hexact : Exact s o) : Gate (step s o) := by
  cases o with
  | join configId => exact h.join configId
  | note n =>
    simp only [SocketPressure.step]
    split
    · next net hnet =>
      split
      · exact h.note hnet hexact
      · exact h
    · exact h
  | take n =>
    simp only [SocketPressure.step]
    split
    · next net hnet =>
      split
      · exact h.take hnet
      · exact h
    · exact h
  | finish n success =>
    simp only [SocketPressure.step]
    split
    · next net hnet =>
      split
      · exact h.finish hnet success
      · exact h
    · exact h
  | leave n =>
    simp only [SocketPressure.step]
    split
    · next net hnet =>
      split
      · next hready => exact h.leave hnet hready.1
      · exact h
    · exact h
  | driverReturns n =>
    simp only [SocketPressure.step]
    split
    · next hready =>
      have hn : n < s.networks.length := by
        by_contra hge
        rw [List.getElem?_eq_none (Nat.not_lt.mp hge)] at hready
        cases hready.2
      exact h.driverReturns hn
    · exact h
  | advance i =>
    cases hc : s.calls[i]? with
    | none =>
      simp only [SocketPressure.step, hc]
      exact h
    | some c => exact h.advance hc (hexact c hc)
  | tick d =>
    exact ⟨⟨h.tied.entries, h.tied.calls, h.tied.knot⟩, h.counted, h.joined, h.probing⟩

/-- When every armed circuit is one of a joined network, the joined ones among them are all. -/
private theorem Gate.pressured_eq (h : Gate s) :
    s.pressured = s.networks.countP (·.watch.active) := by
  have hsame : ∀ p ∈ s.networks.zipIdx,
      decide (p.1.watch.active = true ∧ s.Joined p.2) = true ↔ p.1.watch.active = true := by
    intro p hp
    rw [decide_eq_true_eq, and_iff_left_iff_imp]
    exact h.joined_of_active (List.mem_zipIdx_iff_getElem?.mp hp)
  rw [Process.pressured, List.countP_congr hsame]
  conv_rhs => rw [← List.zipIdx_map_fst 0 s.networks, List.countP_map]
  rfl

private theorem gate_start : Gate .start where
  tied := ⟨by simp [Process.start], by simp [Process.start], by simp [Process.start]⟩
  counted := rfl
  joined n hn := by
    obtain ⟨net, hnet, -⟩ := hn
    cases hnet
  probing := by simp [Process.start]

/-- In every run in which circuits are armed only while their networks are joined, releases find the
counter positive, and `leave` returns only when the circuit of its network is not armed: whenever no
call is under way, the counter is the number of joined networks whose circuits are armed; and at
most one probe of a network is in flight. -/
theorem pressure_gate_exact {ops : List Op} (hops : AllSteps step Exact .start ops) :
    ∀ pre post, ops = pre ++ post →
      ((run step .start pre).calls = [] →
        (run step .start pre).owners = (run step .start pre).pressured) ∧
      ∀ net ∈ (run step .start pre).networks, net.probes ≤ 1 := by
  intro pre post hpre
  have hgate : Gate (run step .start pre) :=
    forall_run_of_allSteps (fun s o hs hexact ↦ hs.step hexact) gate_start hops pre post hpre
  constructor
  · intro hcalls
    have hcounted := hgate.counted
    rw [hcalls, List.countP_nil, List.countP_nil] at hcounted
    rw [hgate.pressured_eq]
    exact hcounted
  · intro net hnet
    rw [(hgate.probing net hnet).1]
    exact Bool.toNat_le _

/-- The circuit of the first network recovers before the network is left; the second stays armed. -/
def recoverAndLeave : List Op :=
  [.join "home", .note 0, .note 0, .advance 0, .tick 5000, .take 0, .take 0, .finish 0 true,
   .advance 0, .join "office", .note 1, .advance 0, .leave 0, .driverReturns 0, .advance 0]

theorem office_pressured :
    (run step .start recoverAndLeave).calls = [] ∧
      (run step .start recoverAndLeave).owners = 1 ∧
      (run step .start recoverAndLeave).owners = (run step .start recoverAndLeave).pressured := by
  have hexact : AllSteps step Exact .start recoverAndLeave := by decide
  have hcalls : (run step .start recoverAndLeave).calls = [] := by decide
  exact ⟨hcalls, by decide,
    (pressure_gate_exact hexact recoverAndLeave [] (by simp)).1 hcalls⟩

/-- The network is left while its circuit is armed. -/
def leaveArmed : List Op :=
  [.join "home", .note 0, .advance 0, .leave 0, .driverReturns 0, .advance 0]

/-- The circuit recovers before the call that armed it has added to the counter. -/
def recoverEarly : List Op :=
  [.join "home", .note 0, .tick 5000, .take 0, .finish 0 true, .advance 0, .advance 0]

/-- No call is under way and no joined network's circuit is armed, but the counter is one: in the
first run the `RpcInner` still owns the state that was left, in the second the release was lost. -/
theorem pressure_leaked :
    ((run step .start leaveArmed).calls = [] ∧ (run step .start leaveArmed).pressured = 0 ∧
      (run step .start leaveArmed).owners = 1 ∧
      (.inner 0, .state 0) ∈ (run step .start leaveArmed).refs ∧
      (.state 0, .inner 0) ∈ (run step .start leaveArmed).refs) ∧
    (run step .start recoverEarly).calls = [] ∧ (run step .start recoverEarly).pressured = 0 ∧
      (run step .start recoverEarly).owners = 1 := by
  decide

end MyOwnMesh.SocketPressure
