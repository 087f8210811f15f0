import Mathlib.Data.List.AList
import Mathlib.Data.Finset.Basic
import MyOwnMesh.Custody
import MyOwnMesh.Lib.TwoNames
import MyOwnMesh.Engine.Steps
import MyOwnMesh.NetworkState.MemberLog

/-!
# The two names of a network

Governance and custody requests and `network_remove`, `control.rs:1178–1358, 1817–1878`, on one
daemon. The registry resolves a network's config id and its network id; some handlers go on with the
network they found, some with the text they were given: the eviction list of `GovernanceState`, the
custody store of the `GovernanceMfa` requests, and the files that a removal deletes while another
request holds the network. What peers and other requests do to a network between two of these is a
request of its own. Leaving a network, the config file and the services are left out.
-/

namespace MyOwnMesh.Aliases

open Lib Lib.Replay

variable {P : Primitives}

/-- A joined network: its config id, and its engine, which knows the network id. -/
structure Joined (P : Primitives) where
  configId : String
  engine : EngineState P

/-- The governance state and the roster of a network id; `network_state.rs:1042`,
`roster.rs:66`. -/
inductive StateFile where
  | state (networkId : String)
  | roster (networkId : String)
  deriving DecidableEq, Repr

/-- The registry leads from names to the networks joined so far; `held` are the networks whose
handles requests in flight hold. -/
structure Daemon (P : Primitives) where
  registry : AList fun _ : String ↦ Nat
  networks : List (Joined P)
  held : List Nat
  store : Custody.CustodyStore
  files : Finset StateFile

/-- A daemon without networks, with what earlier runs enrolled and wrote. -/
def Daemon.start (P : Primitives) (store : Custody.CustodyStore) (files : Finset StateFile) :
    Daemon P := ⟨∅, [], [], store, files⟩

/-- The network a name leads to, with its number; `registry.rs:141–146`. -/
def Daemon.get (s : Daemon P) (name : String) : Option (Nat × Joined P) :=
  (s.registry.lookup name).bind fun d ↦ (s.networks[d]?).map fun net ↦ (d, net)

/-- `registry.rs:100–110`. -/
def Daemon.insert (s : Daemon P) (net : Joined P) : Daemon P :=
  { s with
    networks := s.networks ++ [net]
    registry := TwoNames.enter s.registry net.configId net.engine.networkId s.networks.length }

/-- All names of the network go; `registry.rs:167–193`. -/
def Daemon.takeKeys (s : Daemon P) (d : Nat) : Daemon P :=
  { s with registry := TwoNames.forget s.registry d }

/-- `purge_network_state`, `control.rs:1817–1824`. -/
def stateFiles (networkId : String) : Finset StateFile := {.state networkId, .roster networkId}

inductive Request (P : Primitives) where
  | governanceState (network : String)
  | mfaEnroll (network : String) (disk : Custody.Disk) (draws : Custody.Draws)
  | mfaStatus (network : String) (loads : Bool)
  | mfaDisable (network code : String) (gate removal : Custody.Disk)
  | propose (network : String) (variant : TransitionVariant) (code : Option String)
      (disk : Custody.Disk) (env : Env)
  | sign (network proposalId : String) (code : Option String) (disk : Custody.Disk) (env : Env)
  | remove (network : String) (purge : Bool)
  /-- A network is joined. -/
  | join (net : Joined P)
  /-- Another request takes and drops a handle. -/
  | hold (network : String)
  | release (d : Nat)
  /-- The governance state of a network changes. -/
  | converge (d : Nat) (gov : NetworkState)

/-- What a request reports: an eviction list, a decision about custody, whether the custody lock let
a transition be authored and whether it was, or the files deleted. -/
inductive Outcome where
  | evicted (devices : List String)
  | decided (allowed : Bool)
  | authored (custody ok : Bool)
  | deleted (files : Finset StateFile)
  | unknownNetwork
  | done
  deriving DecidableEq

/-- `propose` asks the custody lock unless the grant is there already; `governance.rs:155–166`. -/
def asksToPropose (s : EngineState P) (variant : TransitionVariant) : Bool :=
  !alreadyGranted s.governance variant

/-- `sign_proposal` asks the custody lock for a proposal that it can sign;
`governance.rs:218–236`. -/
def asksToSign (s : EngineState P) (proposalId : String) : Bool :=
  (s.governance.pending.find? (·.id == proposalId)).any fun p ↦
    p.deniers == [] && !(p.signers.contains s.selfId)

variable (hmacSha1 : Custody.Hmac)

/-- The custody lock of a network's wire id, when it is asked. -/
def custodyGate (s : Daemon P) (asks : Bool) (networkId : String) (code : Option String)
    (disk : Custody.Disk) : Except Error Unit × Custody.CustodyStore :=
  if asks then Custody.requireAt P hmacSha1 disk s.store networkId code else (.ok (), s.store)

def serve (s : Daemon P) : Request P → Daemon P × Outcome
  | .governanceState network =>
    match s.get network with
    | some (_, net) =>
      (s, .evicted (memberLogRemoved P net.engine.governance net.engine.governance.memberLog
        network))
    | none => (s, .unknownNetwork)
  | .mfaEnroll network disk draws =>
    let r := Custody.enrollAt P disk draws s.store network network
    ({ s with store := r.2 }, .decided r.1.isOk)
  | .mfaStatus network loads => (s, .decided (loads && s.store.contains network))
  | .mfaDisable network code gate removal =>
    let r := Custody.disableAt P hmacSha1 gate removal s.store network code
    ({ s with store := r.2 }, .decided r.1.isOk)
  | .propose network variant code disk env =>
    match s.get network with
    | some (d, net) =>
      let gate := custodyGate hmacSha1 s (asksToPropose net.engine variant) net.engine.networkId
        code disk
      let r := propose { env with custody := gate.1 } net.engine variant
      ({ s with networks := s.networks.set d { net with engine := r.1 }, store := gate.2 },
        .authored gate.1.isOk r.2.isOk)
    | none => (s, .unknownNetwork)
  | .sign network proposalId code disk env =>
    match s.get network with
    | some (d, net) =>
      let gate := custodyGate hmacSha1 s (asksToSign net.engine proposalId) net.engine.networkId
        code disk
      let r := signProposal { env with custody := gate.1 } net.engine proposalId
      ({ s with networks := s.networks.set d { net with engine := r.1 }, store := gate.2 },
        .authored gate.1.isOk r.2.isOk)
    | none => (s, .unknownNetwork)
  | .remove network purge =>
    match s.get network with
    | some (d, net) =>
      -- a held network is not unwrapped, and the name that was given stands for its id
      let purged := if d ∈ s.held then network else net.engine.networkId
      let files := if purge then s.files ∩ stateFiles purged else ∅
      ({ s.takeKeys d with files := s.files \ files }, .deleted files)
    | none => (s, .unknownNetwork)
  | .join net => (s.insert net, .done)
  | .hold network => ({ s with held := ((s.get network).map (·.1)).toList ++ s.held }, .done)
  | .release d => ({ s with held := s.held.erase d }, .done)
  | .converge d gov =>
    ({ s with networks := s.networks.modify d fun net ↦
        { net with engine := { net.engine with governance := gov } } }, .done)

/-- The daemon after a request. -/
def after (s : Daemon P) (r : Request P) : Daemon P := (serve hmacSha1 s r).1

/-- What the requests of a run report. -/
def outcomes (s : Daemon P) : List (Request P) → List Outcome
  | [] => []
  | r :: rest => (serve hmacSha1 s r).2 :: outcomes (after hmacSha1 s r) rest

/-! ### Replacing names -/

/-- The request under another name; the requests in flight are not renamed. -/
def Request.withName (name : String) : Request P → Request P
  | .governanceState _ => .governanceState name
  | .mfaEnroll _ disk draws => .mfaEnroll name disk draws
  | .mfaStatus _ loads => .mfaStatus name loads
  | .mfaDisable _ code gate removal => .mfaDisable name code gate removal
  | .propose _ variant code disk env => .propose name variant code disk env
  | .sign _ proposalId code disk env => .sign name proposalId code disk env
  | .remove _ purge => .remove name purge
  | r => r

def Request.name : Request P → Option String
  | .governanceState network | .mfaEnroll network _ _ | .mfaStatus network _
  | .mfaDisable network _ _ _ | .propose network _ _ _ _ | .sign network _ _ _ _
  | .remove network _ => some network
  | _ => none

/-- The two names are the config id and the network id of one joined network, and lead to it. -/
def Daemon.SameNetwork (s : Daemon P) (a b : String) : Prop :=
  ∃ x, s.get a = some x ∧ s.get b = some x ∧
    (a = x.2.configId ∧ b = x.2.engine.networkId ∨ a = x.2.engine.networkId ∧ b = x.2.configId)

/-- The second request is the first one, or the first one under the other name of its network. -/
def Renamed (s : Daemon P) (r r' : Request P) : Prop :=
  r' = r ∨ ∃ a b, r.name = some a ∧ s.SameNetwork a b ∧ r' = r.withName b

/-- Any of the requests of a run under the other name of the network it names then. -/
def Renames (s : Daemon P) : List (Request P) → List (Request P) → Prop
  | [], [] => True
  | r :: rs, r' :: rs' => Renamed s r r' ∧ Renames (after hmacSha1 s r) rs rs'
  | _, _ => False

/-- The name is the network id of the network it leads to, if any. -/
def Daemon.ByNetworkId (s : Daemon P) (name : String) : Prop :=
  ∀ x ∈ s.get name, name = x.2.engine.networkId

instance (s : Daemon P) (name : String) : Decidable (s.ByNetworkId name) :=
  inferInstanceAs (Decidable (∀ x ∈ s.get name, name = x.2.engine.networkId))

/-- The step condition: eviction lists and custody are asked for under the network id, a network
that another request holds is purged under it, and a network whose config id is enrolled is joined
only if that is its network id. -/
def Named (s : Daemon P) : Request P → Prop
  | .governanceState network | .mfaEnroll network _ _ | .mfaStatus network _
  | .mfaDisable network _ _ _ => s.ByNetworkId network
  | .remove network purge =>
    purge = true → ∀ x ∈ s.get network, x.1 ∈ s.held → network = x.2.engine.networkId
  | .join net => net.configId ∈ s.store → net.configId = net.engine.networkId
  | _ => True

instance (s : Daemon P) : DecidablePred (Named s)
  | .governanceState network | .mfaEnroll network _ _ | .mfaStatus network _
  | .mfaDisable network _ _ _ => inferInstanceAs (Decidable (s.ByNetworkId network))
  | .remove network purge => inferInstanceAs (Decidable (purge = true → ∀ x ∈ s.get network,
      x.1 ∈ s.held → network = x.2.engine.networkId))
  | .join net => inferInstanceAs (Decidable (net.configId ∈ s.store →
      net.configId = net.engine.networkId))
  | .propose _ _ _ _ _ | .sign _ _ _ _ _ | .hold _ | .release _ | .converge _ _ => .isTrue trivial

variable {s : Daemon P}

/-- Under the condition, a request does and reports the same under either name. -/
private theorem serve_withName {r : Request P} {a b : String} (hname : r.name = some a)
    (hsame : s.SameNetwork a b) (hr : Named s r) (hr' : Named s (r.withName b)) :
    serve hmacSha1 s (r.withName b) = serve hmacSha1 s r := by
  obtain ⟨x, ha, hb, -⟩ := hsame
  have hid : s.ByNetworkId a → s.ByNetworkId b → b = a := by
    intro hbya hbyb
    rw [hbya x ha, hbyb x hb]
  cases r with
  | governanceState network =>
    cases hname
    rw [Request.withName, hid hr hr']
  | mfaEnroll network disk draws =>
    cases hname
    rw [Request.withName, hid hr hr']
  | mfaStatus network loads =>
    cases hname
    rw [Request.withName, hid hr hr']
  | mfaDisable network code gate removal =>
    cases hname
    rw [Request.withName, hid hr hr']
  | propose network variant code disk env =>
    cases hname
    simp only [Request.withName, serve, ha, hb]
  | sign network proposalId code disk env =>
    cases hname
    simp only [Request.withName, serve, ha, hb]
  | remove network purge =>
    cases hname
    cases purge with
    | false => simp [Request.withName, serve, ha, hb]
    | true =>
      by_cases hheld : x.1 ∈ s.held
      · rw [Request.withName, hr rfl x ha hheld, hr' rfl x hb hheld]
      · simp [Request.withName, serve, ha, hb, hheld]
  | join net => cases hname
  | hold network => cases hname
  | release d => cases hname
  | converge d gov => cases hname

/-! ### Enrollments -/

/-- The network id of the network a name leads to. -/
def Daemon.wire (s : Daemon P) (name : String) : Option String :=
  (s.registry.lookup name).bind fun d ↦ (s.networks.map (·.engine.networkId))[d]?

private theorem wire_of_get {name : String} {x : Nat × Joined P} (h : s.get name = some x) :
    s.wire name = some x.2.engine.networkId := by
  simp only [Daemon.get, Option.bind_eq_some_iff, Option.map_eq_some_iff] at h
  obtain ⟨d, hd, net, hnet, rfl⟩ := h
  simp only [Daemon.wire, hd, Option.bind_some, List.getElem?_map, hnet, Option.map_some]

private theorem get_of_wire {name networkId : String} (h : s.wire name = some networkId) :
    ∃ x, s.get name = some x ∧ x.2.engine.networkId = networkId := by
  obtain ⟨d, hd, hid⟩ := Option.bind_eq_some_iff.mp h
  rw [List.getElem?_map, Option.map_eq_some_iff] at hid
  obtain ⟨net, hnet, hnetworkId⟩ := hid
  exact ⟨(d, net), by rw [Daemon.get, hd, Option.bind_some, hnet, Option.map_some], hnetworkId⟩

/-- Names lead to networks, and a name that is enrolled is the network id of its network. -/
structure Tidy (s : Daemon P) : Prop where
  bound : ∀ name d, s.registry.lookup name = some d → d < s.networks.length
  enrolled : ∀ name networkId, s.wire name = some networkId → name ∈ s.store → name = networkId

/-- Names lead where they led or nowhere, and nothing new is enrolled. -/
private theorem Tidy.mono {s' : Daemon P} (h : Tidy s)
    (hlookup : ∀ name d, s'.registry.lookup name = some d → s.registry.lookup name = some d)
    (hnetworks : s'.networks.map (·.engine.networkId) = s.networks.map (·.engine.networkId))
    (hstore : ∀ name ∈ s'.store, name ∈ s.store) : Tidy s' where
  bound name d hd := by
    have hlength := congrArg List.length hnetworks
    rw [List.length_map, List.length_map] at hlength
    rw [hlength]
    exact h.bound name d (hlookup name d hd)
  enrolled name networkId hname hmem := by
    obtain ⟨d, hd, hid⟩ := Option.bind_eq_some_iff.mp hname
    refine h.enrolled name networkId ?_ (hstore name hmem)
    rw [Daemon.wire, hlookup name d hd, Option.bind_some, ← hnetworks]
    exact hid

/-- The lock enrolls nothing. -/
private theorem mem_requireAt {disk : Custody.Disk} {store : Custody.CustodyStore}
    {networkId : String} {code : Option String} {name : String}
    (h : name ∈ (Custody.requireAt P hmacSha1 disk store networkId code).2) : name ∈ store := by
  rcases Custody.requireAt_store P hmacSha1 disk store networkId code with
    hsame | ⟨enr, c, hget, -, -, hr⟩
  · rwa [hsame] at h
  · rw [hr, Std.ExtTreeMap.mem_insert, Std.LawfulEqOrd.compare_eq_iff_eq] at h
    rcases h with rfl | h
    · rw [Std.ExtTreeMap.mem_iff_isSome_getElem?, hget]
      rfl
    · exact h

private theorem mem_custodyGate {asks : Bool} {networkId : String} {code : Option String}
    {disk : Custody.Disk} {name : String}
    (h : name ∈ (custodyGate hmacSha1 s asks networkId code disk).2) : name ∈ s.store := by
  rw [custodyGate] at h
  split at h
  · exact mem_requireAt hmacSha1 h
  · exact h

private theorem mem_disableAt {gate removal : Custody.Disk} {store : Custody.CustodyStore}
    {networkId code name : String}
    (h : name ∈ (Custody.disableAt P hmacSha1 gate removal store networkId code).2) :
    name ∈ store := by
  have hpassed : ∀ {passed}, Custody.requireAt P hmacSha1 gate store networkId (some code) =
      (.ok (), passed) → name ∈ passed → name ∈ store := by
    intro passed hgate hmem
    refine mem_requireAt hmacSha1 (?_ : name ∈ (Custody.requireAt P hmacSha1 gate store networkId
      (some code)).2)
    rw [hgate]
    exact hmem
  rcases Custody.disableAt_cases P hmacSha1 gate removal store networkId code with
    ⟨e, -, hr⟩ | ⟨passed, hgate, ⟨e, hr⟩ | hr⟩
  · rwa [hr] at h
  · rw [hr] at h
    exact hpassed hgate h
  · rw [hr, Std.ExtTreeMap.mem_erase] at h
    exact hpassed hgate h.2

private theorem networkId_propose (env : Env) (e : EngineState P) (variant : TransitionVariant) :
    (propose env e variant).1.networkId = e.networkId := by
  simp only [propose, settle]
  split
  · rfl
  · rfl
  · exact (tryRatify_frame env _ _).1

private theorem networkId_signProposal (env : Env) (e : EngineState P) (proposalId : String) :
    (signProposal env e proposalId).1.networkId = e.networkId := by
  simp only [signProposal, settle]
  split
  · rfl
  · rfl
  · exact (tryRatify_frame env _ _).1

/-- A network's engine changes and keeps its network id. -/
private theorem networkIds_setEngine {name : String} {x : Nat × Joined P}
    (hget : s.get name = some x) {e : EngineState P} (he : e.networkId = x.2.engine.networkId) :
    (s.networks.set x.1 { x.2 with engine := e }).map (·.engine.networkId) =
      s.networks.map (·.engine.networkId) := by
  simp only [Daemon.get, Option.bind_eq_some_iff, Option.map_eq_some_iff] at hget
  obtain ⟨d, -, net, hnet, rfl⟩ := hget
  obtain ⟨hd, rfl⟩ := List.getElem?_eq_some_iff.mp hnet
  rw [List.map_set]
  simp only [he]
  rw [← List.getElem_map (fun net : Joined P ↦ net.engine.networkId) (h := by simpa using hd),
    List.set_getElem_self]

private theorem Tidy.setEngine (h : Tidy s) {name : String} {x : Nat × Joined P}
    (hget : s.get name = some x) {e : EngineState P} (he : e.networkId = x.2.engine.networkId)
    {store : Custody.CustodyStore} (hstore : ∀ name ∈ store, name ∈ s.store) :
    Tidy { s with networks := s.networks.set x.1 { x.2 with engine := e }, store := store } :=
  h.mono (fun _ _ hd ↦ hd) (networkIds_setEngine hget he) hstore

private theorem Tidy.insert (h : Tidy s) {net : Joined P}
    (hnamed : net.configId ∈ s.store → net.configId = net.engine.networkId) :
    Tidy (s.insert net) where
  bound name d hd := by
    change d < (s.networks ++ [net]).length
    rw [List.length_append, List.length_singleton]
    rcases TwoNames.lookup_enter hd with ⟨-, rfl⟩ | hd
    · exact Nat.lt_succ_self _
    · exact Nat.lt_succ_of_lt (h.bound name d hd)
  enrolled name networkId hname hmem := by
    obtain ⟨d, hd, hid⟩ := Option.bind_eq_some_iff.mp hname
    change ((s.networks ++ [net]).map (·.engine.networkId))[d]? = some networkId at hid
    rcases TwoNames.lookup_enter hd with ⟨hnew, rfl⟩ | hd
    · rw [List.getElem?_map, List.getElem?_concat_length] at hid
      cases hid
      rcases hnew with rfl | rfl
      · exact hnamed hmem
      · rfl
    · refine h.enrolled name networkId ?_ hmem
      rw [List.getElem?_map, List.getElem?_append_left (h.bound name d hd)] at hid
      rw [Daemon.wire, hd, Option.bind_some, List.getElem?_map]
      exact hid

private theorem Tidy.after (h : Tidy s) {r : Request P} (hr : Named s r) :
    Tidy (after hmacSha1 s r) := by
  cases r with
  | governanceState network =>
    simp only [Aliases.after, serve]
    split <;> exact h
  | mfaEnroll network disk draws =>
    rcases Custody.enrollAt_cases P disk draws s.store network network with
      ⟨e, he⟩ | ⟨-, enrolled, -, he⟩
    · simp only [Aliases.after, serve, he]
      exact h
    · simp only [Aliases.after, serve, he]
      refine ⟨h.bound, fun name networkId hname hmem ↦ ?_⟩
      rw [Std.ExtTreeMap.mem_insert, Std.LawfulEqOrd.compare_eq_iff_eq] at hmem
      rcases hmem with rfl | hmem
      · obtain ⟨x, hget, hid⟩ := get_of_wire hname
        exact (hr x hget).trans hid
      · exact h.enrolled name networkId hname hmem
  | mfaStatus network loads => exact h
  | mfaDisable network code gate removal =>
    exact h.mono (fun _ _ hd ↦ hd) rfl fun _ hmem ↦ mem_disableAt hmacSha1 hmem
  | propose network variant code disk env =>
    simp only [Aliases.after, serve]
    split
    · next d net hget =>
      exact h.setEngine hget (networkId_propose _ _ _) fun _ hmem ↦ mem_custodyGate hmacSha1 hmem
    · exact h
  | sign network proposalId code disk env =>
    simp only [Aliases.after, serve]
    split
    · next d net hget =>
      exact h.setEngine hget (networkId_signProposal _ _ _) fun _ hmem ↦
        mem_custodyGate hmacSha1 hmem
    · exact h
  | remove network purge =>
    simp only [Aliases.after, serve]
    split
    · exact h.mono (fun _ _ hd ↦ (TwoNames.lookup_forget_eq_some.mp hd).1) rfl fun _ hmem ↦ hmem
    · exact h
  | join net => exact h.insert hr
  | hold network => exact h.mono (fun _ _ hd ↦ hd) rfl fun _ hmem ↦ hmem
  | release d => exact h.mono (fun _ _ hd ↦ hd) rfl fun _ hmem ↦ hmem
  | converge d gov =>
    refine h.mono (fun _ _ hd ↦ hd) (List.ext_getElem? fun i ↦ ?_) fun _ hmem ↦ hmem
    simp only [Aliases.after, serve, List.getElem?_map, List.getElem?_modify, Option.map_map,
      Option.map_eq_map]
    refine congrArg (Option.map · s.networks[i]?) (funext fun net ↦ ?_)
    simp only [Function.comp_apply]
    split <;> rfl

/-! ### The two runs -/

/-- A code that the lock of the enrollment accepts: one of the authenticator in the window, or a
recovery code that is left. -/
def ValidCode (P : Primitives) (enr : Custody.Enrollment) (now : UInt64) (code : Option String) :
    Prop :=
  ∃ c, code = some c ∧
    ((∃ secret step, Base32.decode enr.secretB32.toList = some secret ∧ Custody.Window now step ∧
      Text.trim c = Custody.totp hmacSha1 secret step) ∨
      Custody.hashCode P c ∈ enr.recoveryHashes)

private theorem custodyGate_error {networkId : String} {enr : Custody.Enrollment}
    (henr : s.store[networkId]? = some enr) {code : Option String} {disk : Custody.Disk}
    (hcode : ¬ ValidCode hmacSha1 P enr disk.now code) :
    ∃ e, custodyGate hmacSha1 s true networkId code disk = (.error e, s.store) := by
  rw [custodyGate, if_pos rfl]
  rcases Custody.requireAt_cases P hmacSha1 disk s.store networkId code with
    he | ⟨hnone, -⟩ | ⟨enr', c, hget, hc, hauthenticator, -⟩ | ⟨enr', c, hget, hc, -, hhash, -⟩
  · exact he
  · rw [henr] at hnone
    cases hnone
  · rw [henr] at hget
    cases hget
    have hfrom := Custody.fromAuthenticator_of_byAuthenticator hmacSha1 hauthenticator
    exact absurd ⟨c, hc, .inl hfrom⟩ hcode
  · rw [henr] at hget
    cases hget
    exact absurd ⟨c, hc, .inr hhash⟩ hcode

private theorem propose_of_custody {env : Env} {e : EngineState P} {variant : TransitionVariant}
    (hasks : asksToPropose e variant = true) {err : Error} (hcustody : env.custody = .error err) :
    (propose env e variant).2 = .error err := by
  rw [asksToPropose, Bool.not_eq_true'] at hasks
  have hintake : proposeIntake env e variant = (e.governance, .error err) := by
    simp only [proposeIntake, hasks, hcustody, Bool.false_eq_true, if_false]
  simp only [propose, hintake, settle]
  rfl

private theorem sign_of_custody {env : Env} {e : EngineState P} {proposalId : String}
    (hasks : asksToSign e proposalId = true) {err : Error} (hcustody : env.custody = .error err) :
    (signProposal env e proposalId).2 = .error err := by
  obtain ⟨p, hp, hready⟩ := (Option.any_eq_true _ _).mp hasks
  rw [Bool.and_eq_true, beq_iff_eq, Bool.not_eq_true', List.contains_eq_mem,
    decide_eq_false_iff_not] at hready
  have hintake : signIntake env e proposalId = (e.governance, .error err) := by
    simp only [signIntake, hp, hready.1, hready.2, hcustody, ne_eq, not_true_eq_false, if_false]
  simp only [signProposal, hintake, settle]
  rfl

/-- A network that is enrolled under one of its names authors nothing without a valid code. -/
private theorem Tidy.refuses (h : Tidy s) {a b : String} {x : Nat × Joined P}
    (ha : s.get a = some x) (hb : s.get b = some x) {enr : Custody.Enrollment}
    (henr : s.store[b]? = some enr) {code : Option String} {disk : Custody.Disk}
    (hcode : ¬ ValidCode hmacSha1 P enr disk.now code) (env : Env) :
    (∀ variant, asksToPropose x.2.engine variant = true →
      (serve hmacSha1 s (.propose a variant code disk env)).2 = .authored false false) ∧
    ∀ proposalId, asksToSign x.2.engine proposalId = true →
      (serve hmacSha1 s (.sign a proposalId code disk env)).2 = .authored false false := by
  have hmem : b ∈ s.store := by
    rw [Std.ExtTreeMap.mem_iff_isSome_getElem?, henr]
    rfl
  obtain rfl := h.enrolled b _ (wire_of_get hb) hmem
  obtain ⟨e, he⟩ := custodyGate_error hmacSha1 henr hcode
  constructor
  · intro variant hasks
    simp only [serve, ha, hasks, he]
    rw [propose_of_custody hasks rfl]
    rfl
  · intro proposalId hasks
    simp only [serve, ha, hasks, he]
    rw [sign_of_custody hasks rfl]
    rfl

private theorem serve_renamed {r r' : Request P} (hrenamed : Renamed s r r') (hr : Named s r)
    (hr' : Named s r') : serve hmacSha1 s r' = serve hmacSha1 s r := by
  rcases hrenamed with rfl | ⟨a, b, hname, hsame, rfl⟩
  · rfl
  · exact serve_withName hmacSha1 hname hsame hr hr'

/-- Two runs that differ in names only report the same and leave the same daemon. -/
private theorem runs_renamed {rs rs' : List (Request P)} (hrenames : Renames hmacSha1 s rs rs')
    (hrs : AllSteps (after hmacSha1) Named s rs) (hrs' : AllSteps (after hmacSha1) Named s rs') :
    outcomes hmacSha1 s rs' = outcomes hmacSha1 s rs ∧
      run (after hmacSha1) s rs' = run (after hmacSha1) s rs := by
  induction rs generalizing s rs' with
  | nil =>
    cases rs' with
    | nil => exact ⟨rfl, rfl⟩
    | cons r' rs' => exact hrenames.elim
  | cons r rs ih =>
    cases rs' with
    | nil => exact hrenames.elim
    | cons r' rs' =>
      have hserve := serve_renamed hmacSha1 hrenames.1 hrs.1 hrs'.1
      have hafter : after hmacSha1 s r' = after hmacSha1 s r := congrArg Prod.fst hserve
      have hrest := hrs'.2
      rw [hafter] at hrest
      obtain ⟨houtcomes, hrun⟩ := ih hrenames.2 hrs.2 hrest
      constructor
      · rw [outcomes, outcomes, hserve, hafter, houtcomes]
      · change run (after hmacSha1) (after hmacSha1 s r') rs' =
          run (after hmacSha1) (after hmacSha1 s r) rs
        rw [hafter, hrun]

/-- In every two runs whose requests ask for eviction lists and custody under network ids, purge
networks that other requests hold under network ids, and join no network whose config id is enrolled
and is not its network id: replacing names of networks by their other names changes no report and
not the daemon; and in every state reached, a network that is enrolled under one of its names
authors no transition without a valid code. -/
theorem names_mean_the_same (store : Custody.CustodyStore) (files : Finset StateFile)
    {rs rs' : List (Request P)}
    (hrenames : Renames hmacSha1 (.start P store files) rs rs')
    (hrs : AllSteps (after hmacSha1) Named (.start P store files) rs)
    (hrs' : AllSteps (after hmacSha1) Named (.start P store files) rs') :
    (outcomes hmacSha1 (.start P store files) rs' = outcomes hmacSha1 (.start P store files) rs ∧
      run (after hmacSha1) (.start P store files) rs' =
        run (after hmacSha1) (.start P store files) rs) ∧
    ∀ pre post, rs = pre ++ post → ∀ a b x enr,
      (run (after hmacSha1) (.start P store files) pre).get a = some x →
      (run (after hmacSha1) (.start P store files) pre).get b = some x →
      (run (after hmacSha1) (.start P store files) pre).store[b]? = some enr → ∀ code disk env,
      ¬ ValidCode hmacSha1 P enr disk.now code →
      (∀ variant, asksToPropose x.2.engine variant = true →
        (serve hmacSha1 (run (after hmacSha1) (.start P store files) pre)
          (.propose a variant code disk env)).2 = .authored false false) ∧
      ∀ proposalId, asksToSign x.2.engine proposalId = true →
        (serve hmacSha1 (run (after hmacSha1) (.start P store files) pre)
          (.sign a proposalId code disk env)).2 = .authored false false := by
  refine ⟨runs_renamed hmacSha1 hrenames hrs hrs', ?_⟩
  intro pre post hpre a b x enr ha hb henr code disk env hcode
  have hstart : Tidy (Daemon.start P store files) := by
    refine ⟨fun name d hd ↦ ?_, fun name networkId hname _ ↦ ?_⟩
    · cases hd
    · cases hname
  have htidy : Tidy (run (after hmacSha1) (.start P store files) pre) :=
    forall_run_of_allSteps (fun s r hs hr ↦ hs.after hmacSha1 hr) hstart hrs pre post hpre
  exact htidy.refuses hmacSha1 ha hb henr hcode env

/-! ### Concrete runs -/

/-- The network `fleet` under the config id `home`, with an owner's eviction of `d` in its log. -/
def fleetHome : Joined seeded where
  configId := "home"
  engine := { EngineState.start "fleet" (1 : UInt8) "" (.emptyFor "fleet") .fullMesh with
    governance := { NetworkState.emptyFor "fleet" with
      roles := (∅ : RoleMap).insert (seededDevice 1) .owner
      memberLog := [seededEntry 1 2 (.evict "d")] } }

def fleetFiles : Finset StateFile := {.state "fleet", .roster "fleet"}

/-- A call that nothing refuses. -/
def quietEnv : Env := ⟨0, 0, "p1", .ok (), fun _ ↦ .ok (), fun _ ↦ .ok ()⟩

/-- The network is joined and enrolled; an eviction is proposed without a code and the network is
removed, both under the given name. -/
def enrollAndRemove (name : String) : List (Request seeded) :=
  [.join fleetHome, .mfaEnroll "fleet" Custody.sound Custody.testDraws,
   .propose name (.evict "e") none Custody.sound quietEnv, .remove name true]

theorem home_means_fleet :
    outcomes Custody.testHmac (.start seeded ∅ fleetFiles) (enrollAndRemove "home") =
        [.done, .decided true, .authored false false, .deleted fleetFiles] ∧
      outcomes Custody.testHmac (.start seeded ∅ fleetFiles) (enrollAndRemove "fleet") =
        outcomes Custody.testHmac (.start seeded ∅ fleetFiles) (enrollAndRemove "home") := by
  have hrenames : Renames Custody.testHmac (.start seeded ∅ fleetFiles) (enrollAndRemove "home")
      (enrollAndRemove "fleet") :=
    ⟨.inl rfl, .inl rfl,
      .inr ⟨"home", "fleet", rfl, ⟨_, rfl, rfl, .inl ⟨rfl, rfl⟩⟩, rfl⟩,
      .inr ⟨"home", "fleet", rfl, ⟨_, rfl, rfl, .inl ⟨rfl, rfl⟩⟩, rfl⟩, trivial⟩
  exact ⟨by decide +kernel,
    (names_mean_the_same Custody.testHmac ∅ fleetFiles hrenames (by decide +kernel)
      (by decide +kernel)).1.1⟩

def readEvictions (name : String) : List (Request seeded) :=
  [.join fleetHome, .governanceState name]

/-- The eviction is signed for the network id, and its signature does not verify for the config
id. -/
private theorem memberWrite_fleetHome :
    memberWrite seeded fleetHome.engine.governance "fleet" (seededEntry 1 2 (.evict "d")) =
        some ("d", false) ∧
      memberWrite seeded fleetHome.engine.governance "home" (seededEntry 1 2 (.evict "d")) =
        none := by
  constructor
  · have hverify : verifyTransitionSignatures seeded "fleet" (seededEntry 1 2 (.evict "d")) =
        .ok () := verifyTransitionSignatures_signedBy seeded _ _ _ _
    have hsigner : (seededEntry 1 2 (.evict "d")).signers.any
        ((holders fleetHome.engine.governance.roles Role.isAuthority).contains ·) = true := by
      decide +kernel
    rw [memberWrite, hverify]
    simp only [hsigner, if_true]
    rfl
  · have hverify : verifyTransitionSignatures seeded "home" (seededEntry 1 2 (.evict "d")) ≠
        .ok () := by
      refine mt (verifyTransitionSignatures_signedBy_iff seeded "home" "fleet" (1 : UInt8) 2
        (.evict "d")).mp ?_
      decide +kernel
    rw [memberWrite]
    split
    · rfl
    · next hok => exact absurd hok hverify

/-- The eviction list of a log with one entry is what the entry writes. -/
private theorem memberLogRemoved_singleton {gov : NetworkState} {networkId : String}
    {t : Transition} {written : Option (String × Bool)}
    (h : memberWrite P gov networkId t = written) :
    memberLogRemoved P gov [t] networkId =
      ((LastWrite.write (fun _ : Unit ↦ written) ∅ ()).toList.filter fun e ↦ !e.2).map
        Prod.fst := by
  subst h
  rfl

/-- The eviction list under the network id and under the config id. -/
private theorem memberLogRemoved_fleetHome :
    memberLogRemoved seeded fleetHome.engine.governance [seededEntry 1 2 (.evict "d")] "fleet" =
        ["d"] ∧
      memberLogRemoved seeded fleetHome.engine.governance [seededEntry 1 2 (.evict "d")] "home" =
        [] := by
  rw [memberLogRemoved_singleton memberWrite_fleetHome.1,
    memberLogRemoved_singleton memberWrite_fleetHome.2]
  decide +kernel

def enrollAndPropose (name : String) : List (Request seeded) :=
  [.join fleetHome, .mfaEnroll name Custody.sound Custody.testDraws,
   .propose "fleet" (.evict "e") none Custody.sound quietEnv]

def purgeHeld (name : String) : List (Request seeded) :=
  [.join fleetHome, .hold "fleet", .remove name true]

/-- Under the config id the eviction is hidden, the lock lets an eviction be authored without a
code, and the removal deletes no file. -/
theorem names_differ :
    (Renames Custody.testHmac (.start seeded ∅ fleetFiles) (readEvictions "fleet")
        (readEvictions "home") ∧
      outcomes Custody.testHmac (.start seeded ∅ fleetFiles) (readEvictions "fleet") =
        [.done, .evicted ["d"]] ∧
      outcomes Custody.testHmac (.start seeded ∅ fleetFiles) (readEvictions "home") =
        [.done, .evicted []]) ∧
    (Renames Custody.testHmac (.start seeded ∅ fleetFiles) (enrollAndPropose "fleet")
        (enrollAndPropose "home") ∧
      outcomes Custody.testHmac (.start seeded ∅ fleetFiles) (enrollAndPropose "fleet") =
        [.done, .decided true, .authored false false] ∧
      ∃ ok, outcomes Custody.testHmac (.start seeded ∅ fleetFiles) (enrollAndPropose "home") =
        [.done, .decided true, .authored true ok]) ∧
    Renames Custody.testHmac (.start seeded ∅ fleetFiles) (purgeHeld "fleet") (purgeHeld "home") ∧
      outcomes Custody.testHmac (.start seeded ∅ fleetFiles) (purgeHeld "fleet") =
        [.done, .done, .deleted fleetFiles] ∧
      outcomes Custody.testHmac (.start seeded ∅ fleetFiles) (purgeHeld "home") =
        [.done, .done, .deleted ∅] := by
  refine ⟨⟨⟨.inl rfl, .inr ?_, trivial⟩, ?_, ?_⟩,
    ⟨⟨.inl rfl, .inr ?_, .inl rfl, trivial⟩, by decide +kernel, _, rfl⟩,
    ⟨.inl rfl, .inl rfl, .inr ?_, trivial⟩, by decide +kernel, by decide +kernel⟩
  · exact ⟨"fleet", "home", rfl, ⟨_, rfl, rfl, .inr ⟨rfl, rfl⟩⟩, rfl⟩
  · exact congrArg (fun devices ↦ [Outcome.done, .evicted devices]) memberLogRemoved_fleetHome.1
  · exact congrArg (fun devices ↦ [Outcome.done, .evicted devices]) memberLogRemoved_fleetHome.2
  · exact ⟨"fleet", "home", rfl, ⟨_, rfl, rfl, .inr ⟨rfl, rfl⟩⟩, rfl⟩
  · exact ⟨"fleet", "home", rfl, ⟨_, rfl, rfl, .inr ⟨rfl, rfl⟩⟩, rfl⟩

end MyOwnMesh.Aliases
