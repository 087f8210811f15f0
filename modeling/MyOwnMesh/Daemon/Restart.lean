import Mathlib.Data.Finset.Dedup
import MyOwnMesh.Identity.Signing
import MyOwnMesh.Daemon.Index

/-!
# What a restart of the daemon keeps

`network_add`, `network_update`, `network_remove` and `network_connect_peer`,
`control.rs:1745–2225`, on the live networks and on the networks of `config.json`, one request after
the other. A config reaches a live network through a join, which normalizes its network id and its
pins (`handle.rs:134`, `engine/state.rs:684–692`), or field by field (`reconcile.rs:49–81`), and the
disk as it was typed. A pin reaches the live config only (`engine/state.rs:1675`). Signaling
drivers, services and the governance state are left out, and so are the texts of errors; saves
succeed.
-/

namespace MyOwnMesh.Restart

open Lib Lib.Replay

/-! ### Configs -/

structure StunServer where
  urls : List String
  deriving DecidableEq, Repr

structure TurnServer where
  urls : List String
  username : Option String
  credential : Option String
  deriving DecidableEq, Repr

/-- `config.rs:164–220`. -/
structure SignalingConfig where
  strategy : String
  mdns : Bool
  servers : List String
  redundancy : UInt32
  denylist : List String
  publicFallback : Bool
  listenOnly : Bool
  deriving DecidableEq, Repr

/-- `config.rs:243–312`. -/
structure NetworkConfig where
  id : String
  networkId : String
  label : String
  kind : NetworkKind
  topology : TopologyMode
  signaling : SignalingConfig
  stunServers : List StunServer
  turnServers : List TurnServer
  rosterPath : Option String
  pinnedPeers : List String
  autoApprove : Bool
  deriving DecidableEq, Repr

/-- `reconcile.rs:41–43`. -/
def requiresRestart (current next : NetworkConfig) : Bool :=
  current.networkId ≠ next.networkId || current.signaling ≠ next.signaling

variable (P : Primitives) (lowercase : String → String) (loads : String → Bool)

/-- One pin of a config, canonical and once; `engine/state.rs:685–691`. -/
def addPin (pins : List String) (pin : String) : Option (List String) :=
  match normalizeDeviceId P pin with
  | .ok canonical => some (if canonical ∈ pins then pins else pins ++ [canonical])
  | .error _ => none

/-- The pins of a config; one that is no device id fails the join. -/
def canonicalPins (pins : List String) : Option (List String) := pins.foldlM (addPin P) []

/-- The network id a config is joined under. -/
def NetworkConfig.normalId (config : NetworkConfig) : Option String :=
  (normalizeNetworkId lowercase config.networkId).toOption

/-! ### Live networks -/

/-- A handle with its own config id and label, and the live config of its engine;
`handle.rs:194–200`. The peers with a standing dial are the pins of the live config. -/
structure Joined where
  configId : String
  label : String
  config : NetworkConfig
  deriving DecidableEq, Repr

/-- What a restart should keep of a network: the label is the one the handle reports, and the one of
the live config. -/
structure Settings where
  networkId : String
  label : String
  configLabel : String
  stunServers : List StunServer
  turnServers : List TurnServer
  autoApprove : Bool
  topology : TopologyMode
  pinnedPeers : Finset String
  deriving DecidableEq

def Joined.settings (net : Joined) : Settings where
  networkId := net.config.networkId
  label := net.label
  configLabel := net.config.label
  stunServers := net.config.stunServers
  turnServers := net.config.turnServers
  autoApprove := net.config.autoApprove
  topology := net.config.topology
  pinnedPeers := net.config.pinnedPeers.toFinset

/-- `mesh.join`, `handle.rs:134–179`; the roster and the governance state of the network id have to
load. -/
def join (config : NetworkConfig) : Option Joined :=
  (config.normalId lowercase).bind fun networkId ↦
    (canonicalPins P config.pinnedPeers).bind fun pins ↦
      if loads networkId then
        some ⟨config.id, config.label, { config with networkId := networkId, pinnedPeers := pins }⟩
      else none

/-- `reconcile.rs:49–62`. -/
def Joined.applyHot (net : Joined) (next : NetworkConfig) : Joined :=
  { net with config := { net.config with
      label := next.label
      topology := next.topology
      autoApprove := next.autoApprove
      rosterPath := next.rosterPath
      stunServers := next.stunServers
      turnServers := next.turnServers } }

/-- `engine/state.rs:1675–1681`. -/
def Joined.addSticky (net : Joined) (deviceId : String) : Joined :=
  if deviceId ∈ net.config.pinnedPeers then net
  else { net with config := { net.config with
      pinnedPeers := net.config.pinnedPeers ++ [deviceId] } }

/-! ### The file -/

/-- `control.rs:2180–2195`. -/
def persistNetworkAdd (net : NetworkConfig) (disk : List NetworkConfig) : List NetworkConfig :=
  if disk.any fun n ↦ n.id = net.id ∨ n.networkId = net.networkId then disk else disk ++ [net]

/-- `control.rs:2197–2206`. -/
def persistNetworkRemove (configId networkId : String) (disk : List NetworkConfig) :
    List NetworkConfig :=
  disk.filter fun n ↦ n.id ≠ configId ∧ n.networkId ≠ networkId

/-- The first entry with one of the names is replaced; `control.rs:2208–2225`. -/
def persistNetworkUpdate (net : NetworkConfig) : List NetworkConfig → List NetworkConfig
  | [] => [net]
  | n :: rest =>
    if n.id = net.id ∨ n.networkId = net.networkId then net :: rest
    else n :: persistNetworkUpdate net rest

/-! ### Requests -/

/-- The registry leads from names to the networks joined so far. -/
structure Daemon where
  registry : AList fun _ : String ↦ Nat
  networks : List Joined
  disk : List NetworkConfig

/-- A daemon on an empty config. -/
def Daemon.start : Daemon := ⟨∅, [], []⟩

/-- `registry.rs:115–117`. -/
def Daemon.get (s : Daemon) (key : String) : Option (Nat × Joined) :=
  (s.registry.lookup key).bind fun d ↦ s.networks[d]?.map fun net ↦ (d, net)

/-- `registry.rs:100–110`. -/
def Daemon.insert (s : Daemon) (net : Joined) : Daemon :=
  { s with
    networks := s.networks ++ [net]
    registry := TwoNames.enter s.registry net.configId net.config.networkId s.networks.length }

/-- `registry.rs:167–193`. -/
def Daemon.remove (s : Daemon) (d : Nat) : Daemon :=
  { s with registry := TwoNames.forget s.registry d }

/-- `join_network`, `services.rs:396–416`. -/
def joinNetwork (s : Daemon) (config : NetworkConfig) : Daemon :=
  if (s.registry.lookup config.id).isSome ∨ (s.registry.lookup config.networkId).isSome then s
  else
    match join P lowercase loads config with
    | some net => s.insert net
    | none => s

/-- The daemon is started on a config; `embedded.rs:72–76`. -/
def restart (disk : List NetworkConfig) : Daemon :=
  disk.foldl (joinNetwork P lowercase loads) ⟨∅, [], disk⟩

/-- What came of a dial before the deadline. -/
inductive Dial where
  /-- The command queue of the engine is closed. -/
  | unqueued
  | active
  | pending
  | failed
  deriving DecidableEq, Repr

inductive Op where
  | add (config : NetworkConfig)
  | update (config : NetworkConfig)
  /-- `borrowed`: another request holds the handle. -/
  | remove (key : String) (borrowed : Bool)
  | connectPeer (key peer : String) (pin : Bool) (waitMs : UInt64) (dial : Dial)
  | restart
  deriving Repr

inductive Reply where
  | ok
  | err
  deriving DecidableEq, Repr

/-- `control.rs:1745–1806`. -/
def networkAdd (s : Daemon) (config : NetworkConfig) : Daemon × Reply :=
  if (s.registry.lookup config.id).isSome ∨ (s.registry.lookup config.networkId).isSome then
    (s, .err)
  else
    match join P lowercase loads config with
    | some net => ({ s.insert net with disk := persistNetworkAdd config s.disk }, .ok)
    | none => (s, .err)

/-- `control.rs:2020–2161`. -/
def networkUpdate (s : Daemon) (config : NetworkConfig) : Daemon × Reply :=
  match (s.get config.id).or (s.get config.networkId) with
  | none => (s, .err)
  | some (d, net) =>
    if requiresRestart net.config config then
      let out := match s.registry.lookup config.id with
        | some d' => s.remove d'
        | none => s
      match join P lowercase loads config with
      | some new => ({ out.insert new with disk := persistNetworkUpdate config s.disk }, .ok)
      | none =>
        match join P lowercase loads net.config with
        | some restored => (out.insert restored, .err)
        | none => (out, .err)
    else
      ({ s with
        networks := s.networks.set d (net.applyHot config)
        disk := persistNetworkUpdate config s.disk }, .ok)

/-- `control.rs:1826–1878`; a network that another request holds is not unwrapped, and the key that
was given stands for both its names. -/
def networkRemove (s : Daemon) (key : String) (borrowed : Bool) : Daemon × Reply :=
  match s.get key with
  | none => (s, .err)
  | some (d, net) =>
    let (configId, networkId) :=
      if borrowed then (key, key) else (net.configId, net.config.networkId)
    ({ s.remove d with disk := persistNetworkRemove configId networkId s.disk }, .ok)

/-- `control.rs:1968–2010` and `engine/mod.rs:1598–1606`. -/
def networkConnectPeer (s : Daemon) (key peer : String) (pin : Bool) (waitMs : UInt64)
    (dial : Dial) : Daemon × Reply :=
  match s.get key with
  | none => (s, .err)
  | some (d, net) =>
    match normalizeDeviceId P peer with
    | .error _ => (s, .err)
    | .ok deviceId =>
      if dial = .unqueued then (s, .err)
      else if pin then
        ({ s with networks := s.networks.set d (net.addSticky deviceId) },
          if dial = .active ∨ (dial = .pending ∧ waitMs = 0) then .ok else .err)
      else (s, if waitMs = 0 ∨ dial = .active then .ok else .err)

def serve (s : Daemon) : Op → Daemon × Reply
  | .add config => networkAdd P lowercase loads s config
  | .update config => networkUpdate P lowercase loads s config
  | .remove key borrowed => networkRemove s key borrowed
  | .connectPeer key peer pin waitMs dial => networkConnectPeer P s key peer pin waitMs dial
  | .restart => (restart P lowercase loads s.disk, .ok)

/-- The daemon after a request. -/
def step (s : Daemon) (o : Op) : Daemon := (serve P lowercase loads s o).1

/-- The settings of the live networks, `registry.rs:128–158`. -/
def Daemon.settings (s : Daemon) : Multiset Settings :=
  (TwoNames.values s.registry).filterMap fun d ↦ s.networks[d]?.map Joined.settings

/-! ### The live networks are those of the file -/

variable {P lowercase loads} {s : Daemon} {disk : List NetworkConfig}

variable (P lowercase loads) in
/-- An entry of the file is live as the network `d`: both names lead to it, and a join of the entry
gives the same settings. -/
structure Saved (s : Daemon) (e : NetworkConfig) (d : Nat) (net : Joined) : Prop where
  id : s.registry.lookup e.id = some d
  networkId : s.registry.lookup net.config.networkId = some d
  network : s.networks[d]? = some net
  configId : net.configId = e.id
  settings : (join P lowercase loads e).map Joined.settings = some net.settings

variable (P lowercase loads) in
/-- Every entry is live and every name is one of an entry. An entry's names, as typed, are not the
config id of an earlier one. -/
structure Mirrors (s : Daemon) (disk : List NetworkConfig) : Prop where
  saved : ∀ e ∈ disk, ∃ d net, Saved P lowercase loads s e d net
  named : ∀ name d, s.registry.lookup name = some d → ∃ e ∈ disk, ∃ net,
    Saved P lowercase loads s e d net ∧ (name = e.id ∨ name = net.config.networkId)
  ordered : disk.Pairwise fun a b ↦ b.id ≠ a.id ∧ b.networkId ≠ a.id

theorem join_eq_some {config : NetworkConfig} {net : Joined} :
    join P lowercase loads config = some net ↔ ∃ networkId pins,
      config.normalId lowercase = some networkId ∧ canonicalPins P config.pinnedPeers = some pins ∧
      loads networkId = true ∧ net =
        ⟨config.id, config.label, { config with networkId := networkId, pinnedPeers := pins }⟩ := by
  simp only [join, Option.bind_eq_some_iff, Option.ite_none_right_eq_some, Option.some.injEq]
  constructor
  · rintro ⟨networkId, hid, pins, hpins, hloads, rfl⟩
    exact ⟨networkId, pins, hid, hpins, hloads, rfl⟩
  · rintro ⟨networkId, pins, hid, hpins, hloads, rfl⟩
    exact ⟨networkId, hid, pins, hpins, hloads, rfl⟩

/-- A network id that a config was joined under is joined as it is. -/
theorem normalId_eq_of_normal (hlower : Daemon.ToLowercase lowercase) {e config : NetworkConfig}
    {n : String} (h : e.normalId lowercase = some n) (hn : config.networkId = n) :
    config.normalId lowercase = some n := by
  simp only [NetworkConfig.normalId, hn] at h ⊢
  cases he : normalizeNetworkId lowercase e.networkId with
  | error err =>
    rw [he] at h
    cases h
  | ok n' =>
    rw [he] at h
    cases h
    rw [Daemon.normalizeNetworkId_normalized hlower he]
    rfl

theorem Saved.normalId {e : NetworkConfig} {d : Nat} {net : Joined}
    (h : Saved P lowercase loads s e d net) :
    e.normalId lowercase = some net.config.networkId := by
  obtain ⟨fresh, hjoin, hsettings⟩ := Option.map_eq_some_iff.mp h.settings
  obtain ⟨networkId, pins, hid, -, -, rfl⟩ := join_eq_some.mp hjoin
  rw [hid]
  exact congrArg (fun x ↦ some x.networkId) hsettings

/-- Entries that are live as one network have one config id. -/
theorem Saved.id_eq {a b : NetworkConfig} {d : Nat} {net net' : Joined}
    (ha : Saved P lowercase loads s a d net) (hb : Saved P lowercase loads s b d net') :
    a.id = b.id := by
  have hnet := ha.network.symm.trans hb.network
  rw [← ha.configId, ← hb.configId, Option.some.inj hnet]

/-- Entries that are joined under one network id have one config id. -/
theorem Saved.id_eq_of_normalId {a b : NetworkConfig} {d d' : Nat} {net net' : Joined}
    (ha : Saved P lowercase loads s a d net) (hb : Saved P lowercase loads s b d' net')
    (h : a.normalId lowercase = b.normalId lowercase) : a.id = b.id := by
  rw [ha.normalId, hb.normalId, Option.some.injEq] at h
  have hd := ha.networkId.symm.trans (h ▸ hb.networkId)
  cases hd
  exact ha.id_eq hb

/-- The live settings are those of the entries. -/
theorem Mirrors.settings (h : Mirrors P lowercase loads s disk) :
    s.settings = ↑(disk.filterMap fun e ↦ (join P lowercase loads e).map Joined.settings) := by
  have hnodup : (disk.filterMap fun e ↦ s.registry.lookup e.id).Nodup := by
    refine List.pairwise_filterMap.mpr (h.ordered.imp_of_mem fun ha hb hne ↦ ?_)
    obtain ⟨d, net, hsaved⟩ := h.saved _ ha
    obtain ⟨d', net', hsaved'⟩ := h.saved _ hb
    rw [hsaved.id, hsaved'.id]
    rintro i hi j hj rfl
    cases hi
    cases hj
    exact hne.1 (hsaved'.id_eq hsaved)
  have hperm : (TwoNames.values s.registry).Perm
      (disk.filterMap fun e ↦ s.registry.lookup e.id) := by
    refine (List.perm_ext_iff_of_nodup (TwoNames.nodup_values _) hnodup).mpr fun d ↦ ?_
    rw [TwoNames.mem_values, List.mem_filterMap]
    constructor
    · rintro ⟨name, hname⟩
      obtain ⟨e, he, net, hsaved, -⟩ := h.named name d hname
      exact ⟨e, he, hsaved.id⟩
    · rintro ⟨e, -, hd⟩
      exact ⟨e.id, hd⟩
  have hsettings : ∀ e ∈ disk, (s.registry.lookup e.id).bind
      (fun d ↦ s.networks[d]?.map Joined.settings) =
        (join P lowercase loads e).map Joined.settings := by
    intro e he
    obtain ⟨d, net, hsaved⟩ := h.saved e he
    rw [hsaved.settings, hsaved.id, Option.bind_some, hsaved.network, Option.map_some]
  calc s.settings
      = ↑((disk.filterMap fun e ↦ s.registry.lookup e.id).filterMap fun d ↦
          s.networks[d]?.map Joined.settings) := Multiset.coe_eq_coe.mpr (hperm.filterMap _)
    _ = _ := by
      rw [List.filterMap_filterMap, List.filterMap_congr hsettings]

/-! ### What requests do to it -/

/-- Only the order of the entries matters besides which they are. -/
theorem Mirrors.reorder (h : Mirrors P lowercase loads s disk) {disk' : List NetworkConfig}
    (hmem : ∀ e, e ∈ disk' ↔ e ∈ disk)
    (hordered : disk'.Pairwise fun a b ↦ b.id ≠ a.id ∧ b.networkId ≠ a.id) :
    Mirrors P lowercase loads s disk' where
  saved e he := h.saved e ((hmem e).mp he)
  named name d hname := by
    obtain ⟨e, he, hsaved⟩ := h.named name d hname
    exact ⟨e, (hmem e).mpr he, hsaved⟩
  ordered := hordered

/-- What is on the disk is not part of what is live. -/
theorem Mirrors.written (h : Mirrors P lowercase loads s disk) (disk' : List NetworkConfig) :
    Mirrors P lowercase loads { s with disk := disk' } disk := by
  have hsaved : ∀ {e d net}, Saved P lowercase loads s e d net →
      Saved P lowercase loads { s with disk := disk' } e d net :=
    fun hs ↦ ⟨hs.id, hs.networkId, hs.network, hs.configId, hs.settings⟩
  refine ⟨fun e he ↦ ?_, fun name d hname ↦ ?_, h.ordered⟩
  · obtain ⟨d, net, hs⟩ := h.saved e he
    exact ⟨d, net, hsaved hs⟩
  · obtain ⟨e, he, net, hs, heq⟩ := h.named name d hname
    exact ⟨e, he, net, hsaved hs, heq⟩

/-- A name that leads nowhere is no name of an entry. -/
theorem Mirrors.fresh (h : Mirrors P lowercase loads s disk) {name : String}
    (hname : s.registry.lookup name = none) : ∀ e ∈ disk, name ≠ e.id := by
  rintro e he rfl
  obtain ⟨d, net, hsaved⟩ := h.saved e he
  have hid := hsaved.id
  rw [hname] at hid
  cases hid

/-- A network whose names lead nowhere is joined, and its config goes to the end of the file. -/
theorem Mirrors.insert (h : Mirrors P lowercase loads s disk) {config : NetworkConfig}
    {net : Joined} (hjoin : join P lowercase loads config = some net)
    (hid : s.registry.lookup config.id = none)
    (htyped : s.registry.lookup config.networkId = none)
    (hnet : s.registry.lookup net.config.networkId = none) :
    Mirrors P lowercase loads (s.insert net) (disk ++ [config]) := by
  obtain ⟨networkId, pins, -, -, -, hjoined⟩ := join_eq_some.mp hjoin
  have hconfigId : net.configId = config.id := by rw [hjoined]
  have hlookup : ∀ name, (s.insert net).registry.lookup name =
      if name = config.id ∨ name = net.config.networkId then some s.networks.length
      else s.registry.lookup name := by
    intro name
    rw [← hconfigId]
    exact TwoNames.lookup_enter_of_free hnet name
  have hnew : Saved P lowercase loads (s.insert net) config s.networks.length net := by
    refine ⟨?_, ?_, List.getElem?_concat_length, hconfigId, ?_⟩
    · rw [hlookup, if_pos (.inl rfl)]
    · rw [hlookup, if_pos (.inr rfl)]
    · rw [hjoin, Option.map_some]
  -- what an entry had before it has still
  have hold : ∀ {e d net'}, Saved P lowercase loads s e d net' →
      Saved P lowercase loads (s.insert net) e d net' := by
    intro e d net' hsaved
    have hother : ∀ name, s.registry.lookup name = some d →
        (s.insert net).registry.lookup name = some d := by
      intro name hname
      rw [hlookup, if_neg, hname]
      rintro (rfl | rfl)
      · rw [hid] at hname
        cases hname
      · rw [hnet] at hname
        cases hname
    refine ⟨hother _ hsaved.id, hother _ hsaved.networkId, ?_, hsaved.configId, hsaved.settings⟩
    obtain ⟨hd, -⟩ := List.getElem?_eq_some_iff.mp hsaved.network
    exact (List.getElem?_append_left hd).trans hsaved.network
  refine ⟨?_, ?_, ?_⟩
  · intro e he
    rcases List.mem_append.mp he with he | he
    · obtain ⟨d, net', hsaved⟩ := h.saved e he
      exact ⟨d, net', hold hsaved⟩
    · rw [List.mem_singleton.mp he]
      exact ⟨_, _, hnew⟩
  · intro name d hname
    rw [hlookup] at hname
    split at hname
    · next heq =>
      cases hname
      exact ⟨config, by simp, net, hnew, heq⟩
    · obtain ⟨e, he, net', hsaved, heq⟩ := h.named name d hname
      exact ⟨e, List.mem_append_left _ he, net', hold hsaved, heq⟩
  · refine List.pairwise_append.mpr ⟨h.ordered, List.pairwise_singleton _ _, ?_⟩
    intro a ha b hb
    rw [List.mem_singleton.mp hb]
    exact ⟨h.fresh hid a ha, h.fresh htyped a ha⟩

/-- A network is taken out, and its entry with it. -/
theorem Mirrors.remove (h : Mirrors P lowercase loads s disk) {own : NetworkConfig} {d : Nat}
    {net : Joined} (hown : Saved P lowercase loads s own d net) (keep : NetworkConfig → Bool)
    (hkeep : ∀ e ∈ disk, keep e = true ↔ e.id ≠ own.id) :
    Mirrors P lowercase loads (s.remove d) (disk.filter keep) := by
  have hold : ∀ {e d' net'}, Saved P lowercase loads s e d' net' → d' ≠ d →
      Saved P lowercase loads (s.remove d) e d' net' := by
    intro e d' net' hsaved hne
    exact ⟨TwoNames.lookup_forget_eq_some.mpr ⟨hsaved.id, hne⟩,
      TwoNames.lookup_forget_eq_some.mpr ⟨hsaved.networkId, hne⟩, hsaved.network, hsaved.configId,
      hsaved.settings⟩
  refine ⟨?_, ?_, h.ordered.filter keep⟩
  · intro e he
    obtain ⟨he, hk⟩ := List.mem_filter.mp he
    obtain ⟨d', net', hsaved⟩ := h.saved e he
    refine ⟨d', net', hold hsaved ?_⟩
    rintro rfl
    exact (hkeep e he).mp hk (hsaved.id_eq hown)
  · intro name d' hname
    obtain ⟨hname, hne⟩ := TwoNames.lookup_forget_eq_some.mp hname
    obtain ⟨e, he, net', hsaved, heq⟩ := h.named name d' hname
    refine ⟨e, List.mem_filter.mpr ⟨he, (hkeep e he).mpr fun hid ↦ ?_⟩, net', hold hsaved hne, heq⟩
    have hd := hsaved.id
    rw [hid, hown.id] at hd
    exact hne (Option.some.inj hd).symm

/-- The entry that a config replaces. -/
def replaceEntry (config e : NetworkConfig) : NetworkConfig :=
  if e.id = config.id then config else e

/-- Where no other entry has the network id as typed, an update replaces the entry with the config
id. -/
theorem persistNetworkUpdate_eq {config : NetworkConfig} {own : NetworkConfig} (hown : own ∈ disk)
    (hid : own.id = config.id) (hordered : disk.Pairwise fun a b ↦ b.id ≠ a.id)
    (hother : ∀ e ∈ disk, e.networkId = config.networkId → e.id = config.id) :
    persistNetworkUpdate config disk = disk.map (replaceEntry config) := by
  induction disk with
  | nil => cases hown
  | cons n rest ih =>
    obtain ⟨hn, hrest⟩ := List.pairwise_cons.mp hordered
    rw [persistNetworkUpdate, List.map_cons]
    by_cases hsame : n.id = config.id
    · -- the entries behind have other config ids
      have hkept : rest.map (replaceEntry config) = rest := by
        refine (List.map_congr_left fun e he ↦ ?_).trans (List.map_id rest)
        rw [replaceEntry, if_neg]
        · rfl
        · rw [← hsame]
          exact hn e he
      rw [if_pos (.inl hsame), hkept, replaceEntry, if_pos hsame]
    · have hnet : ¬ n.networkId = config.networkId := fun hnet ↦
        hsame (hother n List.mem_cons_self hnet)
      have hmem : own ∈ rest := by
        rcases List.mem_cons.mp hown with rfl | hmem
        · exact absurd hid hsame
        · exact hmem
      rw [if_neg (by simp [hsame, hnet]), replaceEntry, if_neg hsame,
        ih hmem hrest fun e he ↦ hother e (List.mem_cons_of_mem n he)]

variable (lowercase) in
/-- The network id of the config, as typed and as it is joined, leads to no other network. -/
def NetworkConfig.LeadsTo (registry : AList fun _ : String ↦ Nat) (config : NetworkConfig)
    (d : Nat) : Prop :=
  (∀ d' ∈ registry.lookup config.networkId, d' = d) ∧
    ∀ n ∈ config.normalId lowercase, ∀ d' ∈ registry.lookup n, d' = d

section Replace

variable {own config : NetworkConfig} {d : Nat} {net : Joined}

theorem Mirrors.ordered_replace (h : Mirrors P lowercase loads s disk)
    (hown : Saved P lowercase loads s own d net) (hid : own.id = config.id)
    (hleads : config.LeadsTo lowercase s.registry d) :
    (disk.map (replaceEntry config)).Pairwise fun a b ↦ b.id ≠ a.id ∧ b.networkId ≠ a.id := by
  have hids : ∀ e, (replaceEntry config e).id = e.id := by
    intro e
    rw [replaceEntry]
    split
    · next heq => exact heq.symm
    · rfl
  refine List.pairwise_map.mpr (h.ordered.imp_of_mem fun {a b} ha hb hne ↦ ?_)
  rw [hids, hids]
  refine ⟨hne.1, ?_⟩
  rw [replaceEntry]
  split
  · next heq =>
    intro htyped
    obtain ⟨d', net', hsaved⟩ := h.saved a ha
    obtain rfl := hleads.1 d' (htyped ▸ hsaved.id)
    exact hne.1 (heq.trans (hid.symm.trans (hown.id_eq hsaved)))
  · exact hne.2

theorem Mirrors.persistNetworkUpdate (h : Mirrors P lowercase loads s disk) (hmem : own ∈ disk)
    (hown : Saved P lowercase loads s own d net) (hid : own.id = config.id)
    (hleads : config.LeadsTo lowercase s.registry d) :
    persistNetworkUpdate config disk = disk.map (replaceEntry config) := by
  refine persistNetworkUpdate_eq hmem hid (h.ordered.imp fun hne ↦ hne.1) fun e he htyped ↦ ?_
  obtain ⟨d', net', hsaved⟩ := h.saved e he
  have hnormal : config.normalId lowercase = some net'.config.networkId := by
    rw [← hsaved.normalId, NetworkConfig.normalId, NetworkConfig.normalId, htyped]
  obtain rfl := hleads.2 _ hnormal d' hsaved.networkId
  rw [← hid]
  exact hsaved.id_eq hown

/-- The network is taken out and joined again under a new config. -/
theorem Mirrors.rejoin (h : Mirrors P lowercase loads s disk) (hmem : own ∈ disk)
    (hown : Saved P lowercase loads s own d net) (hid : own.id = config.id) {new : Joined}
    (hjoin : join P lowercase loads config = some new)
    (hleads : config.LeadsTo lowercase s.registry d) :
    Mirrors P lowercase loads ((s.remove d).insert new) (disk.map (replaceEntry config)) := by
  have hfree : ∀ name, (∀ d' ∈ s.registry.lookup name, d' = d) →
      (s.remove d).registry.lookup name = none := by
    intro name hname
    refine Option.eq_none_iff_forall_ne_some.mpr fun d' hd' ↦ ?_
    obtain ⟨hd', hne⟩ := TwoNames.lookup_forget_eq_some.mp hd'
    exact hne (hname d' hd')
  obtain ⟨networkId, pins, hnormal, -, -, hnew⟩ := join_eq_some.mp hjoin
  have hout := h.remove hown (fun e ↦ decide (e.id ≠ own.id)) fun e _ ↦ decide_eq_true_iff
  have hin : Mirrors P lowercase loads ((s.remove d).insert new)
      (disk.filter (fun e ↦ decide (e.id ≠ own.id)) ++ [config]) := by
    refine hout.insert hjoin (hfree _ ?_) (hfree _ hleads.1) (hfree _ ?_)
    · rw [← hid, hown.id]
      intro d' hd'
      exact (Option.some.inj hd').symm
    · rw [hnew]
      exact hleads.2 networkId hnormal
  refine hin.reorder (fun e ↦ ?_) (h.ordered_replace hown hid hleads)
  simp only [List.mem_map, List.mem_append, List.mem_filter, decide_eq_true_eq, List.mem_singleton,
    replaceEntry]
  constructor
  · rintro ⟨e', he', rfl⟩
    split
    · exact .inr rfl
    · next hne => exact .inl ⟨he', hid ▸ hne⟩
  · rintro (⟨he, hne⟩ | rfl)
    · exact ⟨e, he, if_neg (hid ▸ hne)⟩
    · exact ⟨own, hmem, if_pos hid⟩

/-- The network id of a live network leads to it. -/
theorem Saved.leadsTo (hlower : Daemon.ToLowercase lowercase)
    (hown : Saved P lowercase loads s own d net)
    (hnetworkId : config.networkId = net.config.networkId) :
    config.LeadsTo lowercase s.registry d := by
  have hnet : ∀ d' ∈ s.registry.lookup net.config.networkId, d' = d := by
    rw [hown.networkId]
    intro d' hd'
    exact (Option.some.inj hd').symm
  refine ⟨hnetworkId ▸ hnet, fun n hn ↦ ?_⟩
  rw [normalId_eq_of_normal hlower hown.normalId hnetworkId] at hn
  exact Option.some.inj hn ▸ hnet

/-- A config with the settings of a live network besides those it brings is joined as the live
network is after them. -/
theorem Saved.join_applyHot (hlower : Daemon.ToLowercase lowercase)
    (hown : Saved P lowercase loads s own d net)
    (hnetworkId : config.networkId = net.config.networkId) (hlabel : config.label = net.label)
    (hpins : (canonicalPins P config.pinnedPeers).map List.toFinset =
      some net.config.pinnedPeers.toFinset) :
    (join P lowercase loads config).map Joined.settings = some (net.applyHot config).settings := by
  obtain ⟨fresh, hjoin, hsettings⟩ := Option.map_eq_some_iff.mp hown.settings
  obtain ⟨networkId, pins', hid, -, hloads, rfl⟩ := join_eq_some.mp hjoin
  have hsame : networkId = net.config.networkId := congrArg Settings.networkId hsettings
  obtain ⟨pins, hcanonical, hset⟩ := Option.map_eq_some_iff.mp hpins
  have hnormal := normalId_eq_of_normal hlower hid (hnetworkId.trans hsame.symm)
  have hnew := join_eq_some.mpr ⟨networkId, pins, hnormal, hcanonical, hloads, rfl⟩
  rw [hnew, Option.map_some, Joined.settings, Joined.settings]
  simp only [Joined.applyHot, hset, hsame, hlabel]

/-- The live config takes the fields of a new config. -/
theorem Mirrors.applyHot (hlower : Daemon.ToLowercase lowercase)
    (h : Mirrors P lowercase loads s disk) (hown : Saved P lowercase loads s own d net)
    (hid : own.id = config.id) (hnetworkId : config.networkId = net.config.networkId)
    (hlabel : config.label = net.label)
    (hpins : (canonicalPins P config.pinnedPeers).map List.toFinset =
      some net.config.pinnedPeers.toFinset) :
    Mirrors P lowercase loads { s with networks := s.networks.set d (net.applyHot config) }
      (disk.map (replaceEntry config)) := by
  have hnew : Saved P lowercase loads { s with networks := s.networks.set d (net.applyHot config) }
      config d (net.applyHot config) := by
    obtain ⟨hd, -⟩ := List.getElem?_eq_some_iff.mp hown.network
    exact ⟨hid ▸ hown.id, hown.networkId, List.getElem?_set_self hd, hown.configId.trans hid,
      hown.join_applyHot hlower hnetworkId hlabel hpins⟩
  have hold : ∀ {e d' net'}, Saved P lowercase loads s e d' net' → e.id ≠ own.id →
      Saved P lowercase loads { s with networks := s.networks.set d (net.applyHot config) } e d'
        net' := by
    intro e d' net' hsaved hne
    refine ⟨hsaved.id, hsaved.networkId, ?_, hsaved.configId, hsaved.settings⟩
    rw [← hsaved.network]
    refine List.getElem?_set_ne ?_
    rintro rfl
    exact hne (hsaved.id_eq hown)
  refine ⟨?_, ?_, h.ordered_replace hown hid (hown.leadsTo hlower hnetworkId)⟩
  · intro e he
    obtain ⟨e', he', rfl⟩ := List.mem_map.mp he
    rw [replaceEntry]
    split
    · exact ⟨d, _, hnew⟩
    · next hne =>
      obtain ⟨d', net', hsaved⟩ := h.saved e' he'
      exact ⟨d', net', hold hsaved (hid ▸ hne)⟩
  · intro name d' hname
    obtain ⟨e, he, net', hsaved, heq⟩ := h.named name d' hname
    refine ⟨replaceEntry config e, List.mem_map_of_mem he, ?_⟩
    rw [replaceEntry]
    split
    · next hsame =>
      obtain rfl : d' = d := by
        have hd := hsaved.id
        rw [hsame, ← hid, hown.id] at hd
        exact (Option.some.inj hd).symm
      have hnet := Option.some.inj (hsaved.network.symm.trans hown.network)
      subst hnet
      exact ⟨_, hnew, heq.imp (·.trans hsame) id⟩
    · next hne => exact ⟨net', hold hsaved (hid ▸ hne), heq⟩

end Replace

/-! ### Starting on the file -/

theorem Mirrors.nil : Mirrors P lowercase loads ⟨∅, [], disk⟩ [] where
  saved e he := by cases he
  named name d hname := by cases hname
  ordered := .nil

/-- An entry of the file finds its names free in a daemon that joined the entries before it. -/
theorem Mirrors.joinNetwork (hlower : Daemon.ToLowercase lowercase) {t : Daemon}
    {pre post : List NetworkConfig} {e : NetworkConfig}
    (h : Mirrors P lowercase loads s (pre ++ e :: post)) (ht : Mirrors P lowercase loads t pre) :
    Mirrors P lowercase loads (joinNetwork P lowercase loads t e) (pre ++ [e]) := by
  obtain ⟨d, net, hsaved⟩ := h.saved e (by simp)
  obtain ⟨fresh, hjoin, hsettings⟩ := Option.map_eq_some_iff.mp hsaved.settings
  have hnetworkId : fresh.config.networkId = net.config.networkId :=
    congrArg Settings.networkId hsettings
  have hbefore := (List.pairwise_append.mp h.ordered).2.2
  -- a name of an entry before it leads to another network of `s`
  have hfree : ∀ name, (∀ a ∈ pre, name ≠ a.id) →
      (∀ a ∈ pre, a.normalId lowercase = some name → a.id = e.id) →
      t.registry.lookup name = none := by
    intro name hid hnormal
    refine Option.eq_none_iff_forall_ne_some.mpr fun d' hd' ↦ ?_
    obtain ⟨a, ha, net', hsaved', hname | hname⟩ := ht.named name d' hd'
    · exact hid a ha hname
    · refine (hbefore a ha e List.mem_cons_self).1 (hnormal a ha ?_).symm
      rw [hsaved'.normalId, hname]
  have hleads : ∀ a ∈ pre, ∀ name, s.registry.lookup name = some d →
      a.normalId lowercase = some name ∨ name = a.id → a.id = e.id := by
    intro a ha name hname hcase
    obtain ⟨d', net', hsaved'⟩ := h.saved a (by simp [ha])
    have hd : s.registry.lookup name = some d' := by
      rcases hcase with hnormal | rfl
      · rw [hsaved'.normalId] at hnormal
        exact Option.some.inj hnormal ▸ hsaved'.networkId
      · exact hsaved'.id
    rw [hname] at hd
    cases hd
    exact hsaved'.id_eq hsaved
  have hid : t.registry.lookup e.id = none :=
    hfree _ (fun a ha ↦ (hbefore a ha e List.mem_cons_self).1)
      fun a ha hnormal ↦ hleads a ha _ hsaved.id (.inl hnormal)
  have htyped : t.registry.lookup e.networkId = none := by
    refine hfree _ (fun a ha ↦ (hbefore a ha e List.mem_cons_self).2) fun a ha hnormal ↦ ?_
    -- the network id as typed is what an entry before it was joined under, and its own
    have hown : e.normalId lowercase = some e.networkId :=
      normalId_eq_of_normal hlower hnormal rfl
    rw [hsaved.normalId] at hown
    exact hleads a ha _ (Option.some.inj hown ▸ hsaved.networkId) (.inl hnormal)
  have hnet : t.registry.lookup fresh.config.networkId = none := by
    rw [hnetworkId]
    refine hfree _ (fun a ha hname ↦ ?_) fun a ha hnormal ↦ ?_
    · exact (hbefore a ha e List.mem_cons_self).1
        (hleads a ha _ hsaved.networkId (.inr hname)).symm
    · exact hleads a ha _ hsaved.networkId (.inl hnormal)
  rw [Restart.joinNetwork, if_neg (by simp [hid, htyped]), hjoin]
  exact ht.insert hjoin hid htyped hnet

theorem disk_restart (disk : List NetworkConfig) :
    (restart P lowercase loads disk).disk = disk := by
  have hfold : ∀ (post : List NetworkConfig) (t : Daemon),
      (post.foldl (joinNetwork P lowercase loads) t).disk = t.disk := by
    intro post
    induction post with
    | nil =>
      intro t
      rfl
    | cons e post ih =>
      intro t
      rw [List.foldl_cons, ih, joinNetwork]
      split
      · rfl
      · split <;> rfl
  exact hfold disk _

/-- A daemon that is started on the file mirrors it. -/
theorem Mirrors.restart (hlower : Daemon.ToLowercase lowercase)
    (h : Mirrors P lowercase loads s disk) :
    Mirrors P lowercase loads (restart P lowercase loads disk) disk := by
  have hfold : ∀ post pre t, disk = pre ++ post → Mirrors P lowercase loads t pre →
      Mirrors P lowercase loads (post.foldl (Restart.joinNetwork P lowercase loads) t) disk := by
    intro post
    induction post with
    | nil =>
      rintro pre t rfl ht
      rw [List.append_nil]
      exact ht
    | cons e post ih =>
      intro pre t hdisk ht
      rw [List.foldl_cons]
      exact ih (pre ++ [e]) _ (by simp [hdisk]) (Mirrors.joinNetwork hlower (hdisk ▸ h) ht)
  exact hfold disk [] _ rfl .nil

/-! ### Runs -/

variable (P lowercase) in
/-- The step condition. A network is added only if its network id, as it is joined, leads nowhere.
An update names the network by its config id; the network id of one that joins again leads to no
other network, and one that is applied in place brings the label and the pins that are live. A
network that another request holds is removed under a name that is in its entry of the file and in
no other. A peer is pinned only if it is already. -/
def Lossless (s : Daemon) : Op → Prop
  | .add config => ∀ n ∈ config.normalId lowercase, s.registry.lookup n = none
  | .update config => ∀ x ∈ (s.get config.id).or (s.get config.networkId),
      x.2.configId = config.id ∧
        if requiresRestart x.2.config config then config.LeadsTo lowercase s.registry x.1
        else config.label = x.2.label ∧ (canonicalPins P config.pinnedPeers).map List.toFinset =
          some x.2.config.pinnedPeers.toFinset
  | .remove key borrowed => borrowed = true → ∀ x ∈ s.get key, ∀ e ∈ s.disk,
      e.id = key ∨ e.networkId = key ↔ e.id = x.2.configId
  | .connectPeer key peer pin _ _ => pin = true → ∀ x ∈ s.get key,
      ∀ deviceId ∈ (normalizeDeviceId P peer).toOption, deviceId ∈ x.2.config.pinnedPeers
  | .restart => True

instance (registry : AList fun _ : String ↦ Nat) (config : NetworkConfig) (d : Nat) :
    Decidable (config.LeadsTo lowercase registry d) :=
  inferInstanceAs (Decidable (_ ∧ _))

instance (s : Daemon) : DecidablePred (Lossless P lowercase s)
  | .add config => inferInstanceAs (Decidable (∀ n ∈ config.normalId lowercase,
      s.registry.lookup n = none))
  | .update config => inferInstanceAs (Decidable (∀ x ∈ (s.get config.id).or
      (s.get config.networkId), x.2.configId = config.id ∧
        if requiresRestart x.2.config config then config.LeadsTo lowercase s.registry x.1
        else config.label = x.2.label ∧ (canonicalPins P config.pinnedPeers).map List.toFinset =
          some x.2.config.pinnedPeers.toFinset))
  | .remove key borrowed => inferInstanceAs (Decidable (borrowed = true → ∀ x ∈ s.get key,
      ∀ e ∈ s.disk, (e.id = key ∨ e.networkId = key ↔ e.id = x.2.configId)))
  | .connectPeer key peer pin _ _ => inferInstanceAs (Decidable (pin = true → ∀ x ∈ s.get key,
      ∀ deviceId ∈ (normalizeDeviceId P peer).toOption, deviceId ∈ x.2.config.pinnedPeers))
  | .restart => .isTrue trivial

variable (P lowercase loads) in
def Succeeds (s : Daemon) (o : Op) : Prop := (serve P lowercase loads s o).2 = .ok

instance (s : Daemon) : DecidablePred (Succeeds P lowercase loads s) := fun o ↦
  inferInstanceAs (Decidable ((serve P lowercase loads s o).2 = .ok))

variable (P lowercase loads) in
/-- The request succeeds under the step condition. -/
def Kept (s : Daemon) (o : Op) : Prop :=
  Succeeds P lowercase loads s o ∧ Lossless P lowercase s o

instance (s : Daemon) : DecidablePred (Kept P lowercase loads s) := fun o ↦
  inferInstanceAs (Decidable (Succeeds P lowercase loads s o ∧ Lossless P lowercase s o))

theorem get_eq_some {key : String} {x : Nat × Joined} :
    s.get key = some x ↔ s.registry.lookup key = some x.1 ∧ s.networks[x.1]? = some x.2 := by
  simp only [Daemon.get, Option.bind_eq_some_iff, Option.map_eq_some_iff]
  constructor
  · rintro ⟨d, hd, net, hnet, rfl⟩
    exact ⟨hd, hnet⟩
  · rintro ⟨hd, hnet⟩
    exact ⟨x.1, hd, x.2, hnet, rfl⟩

/-- The entry of a network that a key leads to. -/
theorem Mirrors.entry (h : Mirrors P lowercase loads s disk) {key : String} {d : Nat} {net : Joined}
    (hget : s.get key = some (d, net)) : ∃ own ∈ disk, Saved P lowercase loads s own d net := by
  obtain ⟨hd, hnet⟩ := get_eq_some.mp hget
  obtain ⟨own, hown, net', hsaved, -⟩ := h.named key d hd
  cases hnet.symm.trans hsaved.network
  exact ⟨own, hown, hsaved⟩

theorem Mirrors.networkAdd (h : Mirrors P lowercase loads s s.disk) {config : NetworkConfig}
    (hfree : ∀ n ∈ config.normalId lowercase, s.registry.lookup n = none) :
    Mirrors P lowercase loads (networkAdd P lowercase loads s config).1
      (networkAdd P lowercase loads s config).1.disk := by
  rw [Restart.networkAdd]
  split
  · exact h
  · next hnone =>
    simp only [not_or, Option.not_isSome_iff_eq_none] at hnone
    cases hjoin : join P lowercase loads config with
    | none => exact h
    | some net =>
      obtain ⟨networkId, pins, hnormal, -, -, hnet⟩ := join_eq_some.mp hjoin
      have hnetFree : s.registry.lookup net.config.networkId = none := by
        rw [hnet]
        exact hfree networkId hnormal
      -- no entry has one of the names
      have hpersist : persistNetworkAdd config s.disk = s.disk ++ [config] := by
        rw [persistNetworkAdd, if_neg]
        simp only [List.any_eq_true, decide_eq_true_eq, not_exists, not_and, not_or]
        intro e he
        refine ⟨(h.fresh hnone.1 e he).symm, fun htyped ↦ ?_⟩
        obtain ⟨d, net', hsaved⟩ := h.saved e he
        have hsame : config.normalId lowercase = some net'.config.networkId := by
          rw [← hsaved.normalId, NetworkConfig.normalId, NetworkConfig.normalId, htyped]
        have hnetworkId := hsaved.networkId
        rw [hfree _ hsame] at hnetworkId
        cases hnetworkId
      have hinsert := h.insert hjoin hnone.1 hnone.2 hnetFree
      rw [← hpersist] at hinsert
      exact hinsert.written _

theorem Mirrors.networkRemove (hlower : Daemon.ToLowercase lowercase)
    (h : Mirrors P lowercase loads s s.disk) {key : String} {borrowed : Bool}
    (hborrowed : borrowed = true → ∀ x ∈ s.get key, ∀ e ∈ s.disk,
      e.id = key ∨ e.networkId = key ↔ e.id = x.2.configId) :
    Mirrors P lowercase loads (networkRemove s key borrowed).1
      (networkRemove s key borrowed).1.disk := by
  rw [Restart.networkRemove]
  split
  · exact h
  · next d net hget =>
    obtain ⟨own, hown, hsaved⟩ := h.entry hget
    cases borrowed with
    | true =>
      refine (h.remove hsaved _ fun e he ↦ ?_).written _
      simp only [if_true, decide_eq_true_eq]
      rw [← hsaved.configId, ← not_or, hborrowed rfl _ hget e he]
    | false =>
      refine (h.remove hsaved _ fun e he ↦ ?_).written _
      rw [decide_eq_true_iff, hsaved.configId]
      refine and_iff_left_of_imp fun hne htyped ↦ ?_
      obtain ⟨d', net', hsaved'⟩ := h.saved e he
      have hnormal := normalId_eq_of_normal hlower hsaved.normalId htyped
      exact hne (hsaved'.id_eq_of_normalId hsaved (hnormal.trans hsaved.normalId.symm))

theorem Mirrors.networkUpdate (hlower : Daemon.ToLowercase lowercase)
    (h : Mirrors P lowercase loads s s.disk) {config : NetworkConfig}
    (hok : (networkUpdate P lowercase loads s config).2 = .ok)
    (hlossless : Lossless P lowercase s (.update config)) :
    Mirrors P lowercase loads (networkUpdate P lowercase loads s config).1
      (networkUpdate P lowercase loads s config).1.disk := by
  rw [Restart.networkUpdate] at hok ⊢
  split
  · exact h
  · next d net hfound =>
    obtain ⟨hconfigId, hcase⟩ := hlossless (d, net) hfound
    obtain ⟨own, hmem, hown⟩ : ∃ own ∈ s.disk, Saved P lowercase loads s own d net := by
      rcases Option.or_eq_some_iff.mp hfound with hget | ⟨-, hget⟩
      · exact h.entry hget
      · exact h.entry hget
    have hid : own.id = config.id := hown.configId.symm.trans hconfigId
    simp only [hfound] at hok
    split at hok
    · next hrestart =>
      rw [if_pos hrestart] at hcase ⊢
      cases hjoin : join P lowercase loads config with
      | none =>
        simp only [hjoin] at hok
        split at hok
        · cases hok
        · cases hok
      | some new =>
        have hlookup : s.registry.lookup config.id = some d := hid ▸ hown.id
        simp only [hlookup]
        rw [h.persistNetworkUpdate hmem hown hid hcase]
        exact (h.rejoin hmem hown hid hjoin hcase).written _
    · next hhot =>
      rw [if_neg hhot] at hcase ⊢
      obtain ⟨hlabel, hpins⟩ := hcase
      simp only [requiresRestart, ne_eq, Bool.or_eq_true, decide_eq_true_eq, not_or,
        Decidable.not_not] at hhot
      rw [h.persistNetworkUpdate hmem hown hid (hown.leadsTo hlower hhot.1.symm)]
      exact (h.applyHot hlower hown hid hhot.1.symm hlabel hpins).written _

theorem Mirrors.networkConnectPeer (h : Mirrors P lowercase loads s s.disk) {key peer : String}
    {pin : Bool} {waitMs : UInt64} {dial : Dial}
    (hpinned : pin = true → ∀ x ∈ s.get key, ∀ deviceId ∈ (normalizeDeviceId P peer).toOption,
      deviceId ∈ x.2.config.pinnedPeers) :
    Mirrors P lowercase loads (networkConnectPeer P s key peer pin waitMs dial).1
      (networkConnectPeer P s key peer pin waitMs dial).1.disk := by
  rw [Restart.networkConnectPeer]
  split
  · exact h
  · next d net hget =>
    split
    · exact h
    · next deviceId hpeer =>
      split
      · exact h
      · split
        · next hpin =>
          have hmem := hpinned hpin (d, net) hget deviceId (by rw [hpeer]; rfl)
          have hset : s.networks.set d (net.addSticky deviceId) = s.networks := by
            obtain ⟨hd, heq⟩ := List.getElem?_eq_some_iff.mp (get_eq_some.mp hget).2
            rw [Joined.addSticky, if_pos hmem]
            change s.networks.set d (d, net).2 = s.networks
            rw [← heq, List.set_getElem_self]
          simp only [hset]
          exact h
        · exact h

theorem Mirrors.step (hlower : Daemon.ToLowercase lowercase)
    (h : Mirrors P lowercase loads s s.disk) {o : Op} (ho : Kept P lowercase loads s o) :
    Mirrors P lowercase loads (step P lowercase loads s o) (step P lowercase loads s o).disk := by
  cases o with
  | add config => exact h.networkAdd ho.2
  | update config => exact h.networkUpdate hlower ho.1 ho.2
  | remove key borrowed => exact h.networkRemove hlower ho.2
  | connectPeer key peer pin waitMs dial => exact h.networkConnectPeer ho.2
  | restart =>
    change Mirrors P lowercase loads (Restart.restart P lowercase loads s.disk)
      (Restart.restart P lowercase loads s.disk).disk
    rw [disk_restart]
    exact h.restart hlower

variable (P loads) in
/-- In every run of successful requests and restarts under the step condition, a restart changes
nothing: the networks that are live and those that a daemon joins from `config.json` have the same
settings. -/
theorem restart_changes_nothing (hlower : Daemon.ToLowercase lowercase) {ops : List Op}
    (hops : AllSteps (step P lowercase loads) (Kept P lowercase loads) .start ops) :
    ∀ pre post, ops = pre ++ post →
      (restart P lowercase loads (run (step P lowercase loads) .start pre).disk).settings =
        (run (step P lowercase loads) .start pre).settings := by
  intro pre post hpre
  have hmirrors : Mirrors P lowercase loads (run (step P lowercase loads) .start pre)
      (run (step P lowercase loads) .start pre).disk :=
    forall_run_of_allSteps (I := fun s ↦ Mirrors P lowercase loads s s.disk)
      (fun s o hs ho ↦ hs.step hlower ho) .nil hops pre post hpre
  rw [(hmirrors.restart hlower).settings, hmirrors.settings]

/-! ### Concrete runs -/

/-- The device of the seed 1 in the executable primitives. -/
def phone : String := "aeaqcaibaeaqcaibaeaqcaibaeaqcaibaeaqcaibaeaqcaibaeaq"

def nostr : SignalingConfig := ⟨"nostr", true, [], 5, [], true, false⟩

/-- The network `fleet`, typed with a capital. -/
def home : NetworkConfig :=
  ⟨"home", "Fleet", "Home", .open, .fullMesh, nostr, [], [], none, [phone], false⟩

def office : NetworkConfig := { home with id := "office", networkId := "office", label := "Office" }

/-- Both networks are added; `home` is edited in place and joined again under other signaling, its
pinned peer is dialed, and `office` is removed. -/
def editHome : List Op :=
  [.add home, .add office,
   .update { home with networkId := "fleet", topology := .ring none, autoApprove := true },
   .update { home with signaling := { nostr with mdns := false } },
   .connectPeer "fleet" phone true 0 .pending, .restart, .remove "office" false]

theorem home_restarted :
    (restart seeded Text.asciiLower (fun _ ↦ true)
        (run (step seeded Text.asciiLower fun _ ↦ true) .start editHome).disk).settings =
      {⟨"fleet", "Home", "Home", [], [], false, .fullMesh, {phone}⟩} := by
  rw [restart_changes_nothing seeded (fun _ ↦ true) Daemon.toLowercase_asciiLower
    (by decide +kernel) editHome [] (List.append_nil _).symm]
  decide +kernel

/-- Runs of successful requests: a peer is pinned; a label is edited in place; pins are, to one that
is no device id; and a network is added again with a capital and removed. -/
def pinPhone : List Op :=
  [.add { home with pinnedPeers := [] }, .connectPeer "home" phone true 0 .pending]

def editLabel : List Op := [.add home, .update { home with networkId := "fleet", label := "Cabin" }]

def editPins : List Op :=
  [.add home, .update { home with networkId := "fleet", pinnedPeers := ["phone"] }]

def addTwice : List Op :=
  [.add { home with networkId := "fleet" }, .add { office with networkId := "Fleet" },
   .remove "office" false]

/-- What is live after a run, and after a restart. -/
def liveAndRestarted (ops : List Op) : Multiset Settings × Multiset Settings :=
  let s := run (step seeded Text.asciiLower fun _ ↦ true) .start ops
  (s.settings, (restart seeded Text.asciiLower (fun _ ↦ true) s.disk).settings)

/-- The restart loses the pin, changes the label that is reported, and loses the network in the last
two runs. -/
theorem restart_loses_networks :
    (∀ ops ∈ [pinPhone, editLabel, editPins, addTwice],
      AllSteps (step seeded Text.asciiLower fun _ ↦ true)
        (Succeeds seeded Text.asciiLower fun _ ↦ true) .start ops) ∧
    liveAndRestarted pinPhone =
      ({⟨"fleet", "Home", "Home", [], [], false, .fullMesh, {phone}⟩},
        {⟨"fleet", "Home", "Home", [], [], false, .fullMesh, ∅⟩}) ∧
    liveAndRestarted editLabel =
      ({⟨"fleet", "Home", "Cabin", [], [], false, .fullMesh, {phone}⟩},
        {⟨"fleet", "Cabin", "Cabin", [], [], false, .fullMesh, {phone}⟩}) ∧
    liveAndRestarted editPins =
      ({⟨"fleet", "Home", "Home", [], [], false, .fullMesh, {phone}⟩}, ∅) ∧
    liveAndRestarted addTwice =
      ({⟨"fleet", "Home", "Home", [], [], false, .fullMesh, {phone}⟩}, ∅) := by
  decide +kernel

end MyOwnMesh.Restart
