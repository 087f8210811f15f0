import MyOwnMesh.Engine.Sessions
import MyOwnMesh.Lib.Trace

/-!
# The connection trace

`crates/myownmesh-core/src/engine/conn_trace.rs`. After every event of the driver loop a sweep
compares what it sees of every peer with what it emitted last and emits a record for each that
differs, while somebody watches. The records that were emitted are the file log; a reader that
replays them knows the peers as the last sweep saw them.

The states of ICE and of the peer connection are the texts that the transport prints. `HashMap`
keys that went are visited in ascending order.
-/

namespace MyOwnMesh.Tracing

open Lib Lib.Replay Lib.Trace

/-- `transport/diag.rs:11–19`. -/
inductive IceCandidateKind where
  | host
  | serverReflexive
  | peerReflexive
  | relay
  | unknown
  deriving DecidableEq, Repr

/-- `transport/diag.rs:53–56`. -/
structure SelectedCandidatePair where
  locally : IceCandidateKind
  remote : IceCandidateKind
  deriving DecidableEq, Repr

/-- Where the recovery of a link stands; `ladder.rs:20–58`. -/
inductive ConnectionTier where
  | steady
  | wakeProbe
  | iceWatchdog (since : Nat)
  | iceRestart (started : Nat)
  | rehandshake (attempt : UInt32) (nextAt : Nat)
  | roomRejoin (attempt : UInt32) (nextAt : Nat)
  | stopStart
  deriving DecidableEq, Repr

/-- `conn_trace.rs:118–128`. -/
def tierKind : ConnectionTier → String
  | .steady => "steady"
  | .wakeProbe => "wake_probe"
  | .iceWatchdog _ => "ice_watchdog"
  | .iceRestart _ => "ice_restart"
  | .rehandshake _ _ => "rehandshake"
  | .roomRejoin _ _ => "room_rejoin"
  | .stopStart => "stop_start"

def IceCandidateKind.isReflexive (k : IceCandidateKind) : Bool :=
  k == .serverReflexive || k == .peerReflexive

/-- `conn_trace.rs:133–146`. -/
def classifyPair (p : SelectedCandidatePair) : String :=
  if p.locally = .relay ∨ p.remote = .relay then "turn"
  else if p.locally.isReflexive || p.remote.isReflexive then "stun"
  else if p.locally = .host ∧ p.remote = .host then "lan"
  else "unknown"

/-- The part of a peer that records differ in; `conn_trace.rs:101–113`. -/
structure Snapshot where
  epoch : UInt64
  status : PeerStatus
  tier : String
  iceState : Option String
  pcState : Option String
  pairClass : Option String
  authenticated : Bool
  localShelved : Bool
  remoteShelved : Bool
  deriving DecidableEq, Repr

/-- What a sweep reads of an entry of the peer map: the states that its session reports, if it has
one, and the fields of its data. -/
structure PeerView where
  epoch : UInt64
  session : Option (String × String)
  status : PeerStatus
  tier : ConnectionTier
  selectedPair : Option SelectedCandidatePair
  authenticated : Bool
  localShelved : Bool
  remoteShelved : Bool
  lastRecvAgeMs : Option UInt64
  rttMs : Option UInt32

/-- `conn_trace.rs:244–270`. -/
def PeerView.snapshot (v : PeerView) : Snapshot where
  epoch := v.epoch
  status := v.status
  tier := tierKind v.tier
  iceState := v.session.map Prod.fst
  pcState := v.session.map Prod.snd
  pairClass := v.selectedPair.map classifyPair
  authenticated := v.authenticated
  localShelved := v.localShelved
  remoteShelved := v.remoteShelved

/-- A record of the trace; `conn_trace.rs:48–96`. -/
structure ConnTrace where
  tsWallMs : UInt64
  tMonoMs : UInt64
  networkId : String
  deviceId : String
  epoch : UInt64
  changed : List String
  status : PeerStatus
  tier : String
  iceState : Option String
  pcState : Option String
  pairClass : Option String
  lastRecvAgeMs : Option UInt64
  rttMs : Option UInt32
  authenticated : Bool
  localShelved : Bool
  remoteShelved : Bool
  deriving DecidableEq, Repr

/-- The fields that two snapshots differ in, by name, before the fallback. -/
def differences (prev cur : Snapshot) : List String :=
  (if prev.epoch ≠ cur.epoch then ["epoch"] else []) ++
  (if prev.status ≠ cur.status then ["status"] else []) ++
  (if prev.tier ≠ cur.tier then ["tier"] else []) ++
  (if prev.iceState ≠ cur.iceState then ["ice"] else []) ++
  (if prev.pcState ≠ cur.pcState then ["pc"] else []) ++
  (if prev.pairClass ≠ cur.pairClass then ["pair"] else []) ++
  (if prev.authenticated ≠ cur.authenticated then ["auth"] else []) ++
  (if prev.localShelved ≠ cur.localShelved then ["local_shelved"] else []) ++
  (if prev.remoteShelved ≠ cur.remoteShelved then ["remote_shelved"] else [])

/-- `conn_trace.rs:149–184`. -/
def diffFields (prev cur : Snapshot) : List String :=
  if differences prev cur = [] then ["changed"] else differences prev cur

/-- What the clocks show and which network is swept. -/
structure SweepEnv where
  tsWallMs : UInt64
  tMonoMs : UInt64
  networkId : String

/-- The record of a peer that was seen; `conn_trace.rs:281–300`. -/
def SweepEnv.seen (env : SweepEnv) (deviceId : String) (v : PeerView) (changed : List String) :
    ConnTrace where
  tsWallMs := env.tsWallMs
  tMonoMs := env.tMonoMs
  networkId := env.networkId
  deviceId := deviceId
  epoch := v.epoch
  changed := changed
  status := v.snapshot.status
  tier := v.snapshot.tier
  iceState := v.snapshot.iceState
  pcState := v.snapshot.pcState
  pairClass := v.snapshot.pairClass
  lastRecvAgeMs := v.lastRecvAgeMs
  rttMs := v.rttMs
  authenticated := v.snapshot.authenticated
  localShelved := v.snapshot.localShelved
  remoteShelved := v.snapshot.remoteShelved

/-- The record of a peer that went; `conn_trace.rs:316–335`. -/
def SweepEnv.vanished (env : SweepEnv) (deviceId : String) (prev : Snapshot) : ConnTrace where
  tsWallMs := env.tsWallMs
  tMonoMs := env.tMonoMs
  networkId := env.networkId
  deviceId := deviceId
  epoch := prev.epoch
  changed := ["vanished"]
  status := prev.status
  tier := prev.tier
  iceState := none
  pcState := none
  pairClass := none
  lastRecvAgeMs := none
  rttMs := none
  authenticated := prev.authenticated
  localShelved := prev.localShelved
  remoteShelved := prev.remoteShelved

/-- The snapshots that were emitted last, and all the records that were emitted. -/
structure ConnTracer where
  last : Std.ExtTreeMap String Snapshot
  log : List ConnTrace

def ConnTracer.new : ConnTracer := ⟨∅, []⟩

/-- One entry of the peer map; `conn_trace.rs:220–302`. -/
def ConnTracer.observe (env : SweepEnv) (t : ConnTracer) (entry : String × PeerView) :
    ConnTracer :=
  let snap := entry.2.snapshot
  match t.last[entry.1]? with
  | none => ⟨t.last.insert entry.1 snap, t.log ++ [env.seen entry.1 entry.2 ["appeared"]]⟩
  | some prev =>
    if prev = snap then t
    else ⟨t.last.insert entry.1 snap, t.log ++ [env.seen entry.1 entry.2 (diffFields prev snap)]⟩

/-- One key that went; `conn_trace.rs:311–336`. -/
def ConnTracer.forget (env : SweepEnv) (t : ConnTracer) (deviceId : String) : ConnTracer :=
  match t.last[deviceId]? with
  | none => t
  | some prev => ⟨t.last.erase deviceId, t.log ++ [env.vanished deviceId prev]⟩

/-- The peer map in the order in which it is visited. -/
structure Peers where
  entries : List (String × PeerView)
  nodup : (entries.map Prod.fst).Nodup

/-- A pass over the peers; `conn_trace.rs:220–337`. -/
def ConnTracer.pass (env : SweepEnv) (t : ConnTracer) (peers : Peers) : ConnTracer :=
  let seen := peers.entries.foldl (ConnTracer.observe env) t
  let gone := seen.last.keys.filter fun k ↦ !(peers.entries.map Prod.fst).contains k
  gone.foldl (ConnTracer.forget env) seen

/-- Whether the trace is on, the clocks, and the peers that a sweep finds. -/
structure Sweep where
  forceOn : Bool
  receivers : Nat
  env : SweepEnv
  peers : Peers

/-- `state.rs:1086–1088`. -/
def Sweep.enabled (s : Sweep) : Bool := s.forceOn || decide (0 < s.receivers)

/-- `conn_trace.rs:208–338`. -/
def ConnTracer.sweep (t : ConnTracer) (s : Sweep) : ConnTracer :=
  if s.enabled then t.pass s.env s.peers else t

/-! ### Reading the log -/

/-- The snapshot that a record carries. -/
def ConnTrace.snapshot (r : ConnTrace) : Snapshot where
  epoch := r.epoch
  status := r.status
  tier := r.tier
  iceState := r.iceState
  pcState := r.pcState
  pairClass := r.pairClass
  authenticated := r.authenticated
  localShelved := r.localShelved
  remoteShelved := r.remoteShelved

/-- What a reader knows after a record: its peer went, or is as the record says. -/
def ConnTrace.read (m : String → Option Snapshot) (r : ConnTrace) : String → Option Snapshot :=
  Function.update m r.deviceId (if r.changed = ["vanished"] then none else some r.snapshot)

/-- The peers as a reader of the log knows them. -/
def known (log : List ConnTrace) : String → Option Snapshot :=
  log.foldl ConnTrace.read fun _ ↦ none

/-- The record says what changed since the records before it: a peer that nobody knew appeared, one
that was known went, or one that was known differs in exactly the fields that are named. -/
inductive Reports (before : List ConnTrace) (r : ConnTrace) : Prop
  | appeared (hchanged : r.changed = ["appeared"]) (hnew : known before r.deviceId = none)
  | vanished {prev : Snapshot} (hchanged : r.changed = ["vanished"])
      (hold : known before r.deviceId = some prev)
      (hlast : r.snapshot = { prev with iceState := none, pcState := none, pairClass := none })
  | changed {prev : Snapshot} (hold : known before r.deviceId = some prev)
      (hchanged : r.changed = differences prev r.snapshot) (hdiffers : prev ≠ r.snapshot)

/-! ### One record -/

/-- Snapshots that differ in no field are the same. -/
theorem differences_eq_nil_iff {prev cur : Snapshot} : differences prev cur = [] ↔ prev = cur := by
  constructor
  · intro h
    simp only [differences, List.append_eq_nil_iff, ite_eq_right_iff, List.cons_ne_nil, imp_false,
      not_not] at h
    obtain ⟨⟨⟨⟨⟨⟨⟨⟨hepoch, hstatus⟩, htier⟩, hice⟩, hpc⟩, hpair⟩, hauth⟩, hlocal⟩, hremote⟩ := h
    cases prev
    cases cur
    simp_all
  · rintro rfl
    simp [differences]

theorem vanished_notMem_differences (prev cur : Snapshot) : "vanished" ∉ differences prev cur := by
  unfold differences
  simp only [List.mem_append, not_or]
  refine ⟨⟨⟨⟨⟨⟨⟨⟨?_, ?_⟩, ?_⟩, ?_⟩, ?_⟩, ?_⟩, ?_⟩, ?_⟩, ?_⟩
  all_goals
    split
    · decide
    · exact List.not_mem_nil

theorem diffFields_of_ne {prev cur : Snapshot} (h : prev ≠ cur) :
    diffFields prev cur = differences prev cur :=
  if_neg (mt differences_eq_nil_iff.mp h)

theorem known_snoc (log : List ConnTrace) (r : ConnTrace) (k : String) :
    known (log ++ [r]) k =
      if k = r.deviceId then (if r.changed = ["vanished"] then none else some r.snapshot)
      else known log k := by
  rw [known, List.foldl_append, List.foldl_cons, List.foldl_nil, ConnTrace.read,
    Function.update_apply]
  rfl

/-- The log is what its reader makes of it, record by record. -/
structure ConnTracer.Told (t : ConnTracer) : Prop where
  known : known t.log = fun k ↦ t.last[k]?
  reports : Backed Reports t.log

namespace ConnTracer.Told

variable {t : ConnTracer}

theorem new : ConnTracer.new.Told where
  known := by
    funext k
    simp [ConnTracer.new, Tracing.known]
  reports := .nil

/-- A record of a new snapshot. -/
private theorem insert (h : t.Told) (env : SweepEnv) {d : String} {v : PeerView}
    {changed : List String} (hchanged : changed ≠ ["vanished"])
    (hreports : Reports t.log (env.seen d v changed)) :
    Told ⟨t.last.insert d v.snapshot, t.log ++ [env.seen d v changed]⟩ where
  known := by
    funext k
    rw [known_snoc, h.known, Std.ExtTreeMap.getElem?_insert]
    simp only [Std.LawfulEqOrd.compare_eq_iff_eq, SweepEnv.seen, hchanged, if_false]
    by_cases hk : k = d
    · subst hk
      simp
      rfl
    · simp [hk, Ne.symm hk]
  reports := h.reports.snoc hreports

theorem observe (h : t.Told) (env : SweepEnv) (entry : String × PeerView) :
    (t.observe env entry).Told := by
  obtain ⟨d, v⟩ := entry
  have hknown : Tracing.known t.log d = t.last[d]? := congrFun h.known d
  unfold ConnTracer.observe
  simp only
  split
  · next hlast =>
    refine h.insert env (by decide) (.appeared rfl ?_)
    exact hknown.trans hlast
  · next prev hlast =>
    split
    · exact h
    · next hdiffers =>
      rw [diffFields_of_ne hdiffers]
      refine h.insert env ?_ (.changed (hknown.trans hlast) rfl hdiffers)
      intro heq
      exact vanished_notMem_differences prev v.snapshot (heq ▸ List.mem_singleton_self _)

theorem forget (h : t.Told) (env : SweepEnv) (d : String) : (t.forget env d).Told := by
  have hknown : Tracing.known t.log d = t.last[d]? := congrFun h.known d
  unfold ConnTracer.forget
  split
  · exact h
  · next prev hlast =>
    refine ⟨?_, h.reports.snoc (.vanished rfl (hknown.trans hlast) rfl)⟩
    funext k
    rw [known_snoc, h.known, Std.ExtTreeMap.getElem?_erase]
    simp only [Std.LawfulEqOrd.compare_eq_iff_eq, SweepEnv.vanished, if_true]
    by_cases hk : k = d
    · simp [hk]
    · simp [hk, Ne.symm hk]

theorem foldl_observe (h : t.Told) (env : SweepEnv) (entries : List (String × PeerView)) :
    (entries.foldl (ConnTracer.observe env) t).Told := by
  induction entries generalizing t with
  | nil => exact h
  | cons entry entries ih => exact ih (h.observe env entry)

theorem foldl_forget (h : t.Told) (env : SweepEnv) (gone : List String) :
    (gone.foldl (ConnTracer.forget env) t).Told := by
  induction gone generalizing t with
  | nil => exact h
  | cons d gone ih => exact ih (h.forget env d)

theorem sweep (h : t.Told) (s : Sweep) : (t.sweep s).Told := by
  unfold ConnTracer.sweep
  split
  · exact (h.foldl_observe s.env s.peers.entries).foldl_forget s.env _
  · exact h

end ConnTracer.Told

/-! ### One pass -/

namespace ConnTracer

variable (env : SweepEnv) (t : ConnTracer)

theorem getElem?_observe (entry : String × PeerView) (k : String) :
    (t.observe env entry).last[k]? =
      if k = entry.1 then some entry.2.snapshot else t.last[k]? := by
  have hinsert : (t.last.insert entry.1 entry.2.snapshot)[k]? =
      if k = entry.1 then some entry.2.snapshot else t.last[k]? := by
    simp only [Std.ExtTreeMap.getElem?_insert, Std.LawfulEqOrd.compare_eq_iff_eq,
      eq_comm (a := k)]
  unfold observe
  simp only
  split
  · exact hinsert
  · next prev hlast =>
    split
    · next hsame =>
      split
      · next hk => rw [hk, hlast, hsame]
      · rfl
    · exact hinsert

theorem getElem?_forget (d k : String) :
    (t.forget env d).last[k]? = if k = d then none else t.last[k]? := by
  unfold forget
  split
  · next hlast =>
    split
    · next hk => rw [hk, hlast]
    · rfl
  · simp only [Std.ExtTreeMap.getElem?_erase, Std.LawfulEqOrd.compare_eq_iff_eq, eq_comm (a := k)]

theorem getElem?_foldl_observe_of_notMem {entries : List (String × PeerView)} {k : String}
    (hk : k ∉ entries.map Prod.fst) :
    (entries.foldl (observe env) t).last[k]? = t.last[k]? := by
  induction entries generalizing t with
  | nil => rfl
  | cons entry entries ih =>
    rw [List.map_cons, List.mem_cons, not_or] at hk
    rw [List.foldl_cons, ih _ hk.2, getElem?_observe, if_neg hk.1]

theorem getElem?_foldl_observe_of_mem {entries : List (String × PeerView)}
    (hnodup : (entries.map Prod.fst).Nodup) {k : String} {v : PeerView} (hkv : (k, v) ∈ entries) :
    (entries.foldl (observe env) t).last[k]? = some v.snapshot := by
  induction entries generalizing t with
  | nil => cases hkv
  | cons entry entries ih =>
    rw [List.map_cons, List.nodup_cons] at hnodup
    rw [List.foldl_cons]
    rcases List.mem_cons.mp hkv with rfl | hmem
    · rw [getElem?_foldl_observe_of_notMem env _ hnodup.1, getElem?_observe, if_pos rfl]
    · exact ih _ hnodup.2 hmem

theorem getElem?_foldl_forget (gone : List String) (k : String) :
    (gone.foldl (forget env) t).last[k]? = if k ∈ gone then none else t.last[k]? := by
  induction gone generalizing t with
  | nil => simp
  | cons d gone ih =>
    rw [List.foldl_cons, ih, getElem?_forget]
    by_cases hk : k = d
    · simp [hk]
    · simp [hk]

/-- After a pass the snapshots are those of the peers. -/
theorem getElem?_pass (peers : Peers) (k : String) (snap : Snapshot) :
    (t.pass env peers).last[k]? = some snap ↔
      ∃ v, (k, v) ∈ peers.entries ∧ v.snapshot = snap := by
  simp only [pass]
  rw [getElem?_foldl_forget]
  simp only [List.mem_filter, Std.ExtTreeMap.mem_keys, Bool.not_eq_true', List.contains_eq_mem,
    decide_eq_false_iff_not]
  by_cases hk : k ∈ peers.entries.map Prod.fst
  · -- a peer that was visited does not go
    obtain ⟨v, hkv⟩ : ∃ v, (k, v) ∈ peers.entries := by simpa using hk
    rw [if_neg fun h ↦ h.2 hk, getElem?_foldl_observe_of_mem env t peers.nodup hkv,
      Option.some_inj]
    constructor
    · exact fun h ↦ ⟨v, hkv, h⟩
    · rintro ⟨w, hkw, rfl⟩
      have hsame : (k, v) = (k, w) := List.inj_on_of_nodup_map peers.nodup hkv hkw rfl
      rw [(Prod.mk.inj hsame).2]
  · -- one that was not visited goes, if it was there
    have hnone : ¬ ∃ v, (k, v) ∈ peers.entries ∧ v.snapshot = snap := by
      rintro ⟨v, hkv, -⟩
      exact hk (List.mem_map_of_mem hkv)
    rw [iff_false_right hnone]
    split
    · simp
    · next hstays =>
      rw [not_and_not_right] at hstays
      rw [Std.ExtTreeMap.getElem?_eq_none fun h ↦ hk (hstays h)]
      simp

end ConnTracer

/-! ### Every run -/

/-- Whatever is swept, a reader of the log knows after a sweep with the trace on exactly the peers
that the sweep found, each as it found it. Every record reports what changed since the records
before it, and a sweep with the trace off is not noticed. -/
theorem log_tells_peers (sweeps : List Sweep) (s : Sweep) :
    let t := run ConnTracer.sweep ConnTracer.new sweeps
    (s.enabled = true → ∀ k snap, known (t.sweep s).log k = some snap ↔
      ∃ v, (k, v) ∈ s.peers.entries ∧ v.snapshot = snap) ∧
    (s.enabled = false → t.sweep s = t) ∧ Backed Reports t.log := by
  intro t
  have hstep : ∀ (t : ConnTracer) (s : Sweep), t.Told → (t.sweep s).Told := fun _ s h ↦ h.sweep s
  have htold : t.Told := run_invariant hstep .new sweeps
  refine ⟨fun hon k snap ↦ ?_, fun hoff ↦ ?_, htold.reports⟩
  · rw [(htold.sweep s).known, ConnTracer.sweep, if_pos hon]
    exact ConnTracer.getElem?_pass s.env t s.peers k snap
  · rw [ConnTracer.sweep, if_neg (by rw [hoff]; decide)]

end MyOwnMesh.Tracing
