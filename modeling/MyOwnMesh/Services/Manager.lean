import MyOwnMesh.Daemon.Registry
import MyOwnMesh.Lib.Text
import MyOwnMesh.SignalingServer.Hub

/-!
# The service manager

`crates/myownmesh/src/services.rs`: the listeners and relay forwarders that a device hosts, as
`apply` reconciles them with a configuration, beside the requests that join and leave networks:
`network_add`, `network_remove` and `network_update` of `control.rs:1745–1806, 1836–1878,
2022–2155`.

A start fails only if one of the sockets it needs is held, by a listener that runs or by one that
was stopped: to stop a STUN or signaling listener aborts its task, and the task has its socket until
the runtime drops it, which is a step of its own. A forwarder is bound to the engine of a network,
which is named by the number of its driver. Requests and the `apply` that has the lock of the
manager take steps in any order; a step is one access to the registry or, with the lock, to a
listener or the forwarders. Whether a handle of a network is borrowed when the registry takes it out
is up to the environment.
-/

namespace MyOwnMesh.Services

open Lib
open Daemon (Config Driver Shared requiresRestart)

/-! ### Configurations -/

/-- `config.rs:443–445`. -/
structure NodeServiceConfig where
  enabled : Bool := true
deriving DecidableEq

/-- `config.rs:462–468`. -/
structure RelayServiceConfig where
  enabled : Bool := false
  maxFanout : UInt32 := 0
deriving DecidableEq

deriving instance DecidableEq for SignalingServer.Limits

/-- `config.rs:479–500`. -/
structure SignalingServerConfig where
  enabled : Bool := false
  bind : String := "0.0.0.0"
  port : UInt16 := 4848
  limits : SignalingServer.Limits := {}
deriving DecidableEq

/-- `config.rs:507–521`. -/
structure StunServiceConfig where
  enabled : Bool := false
  bind : String := "0.0.0.0"
  port : UInt16 := 3478
deriving DecidableEq

/-- `config.rs:604–607`. -/
structure TurnCredential where
  username : String
  password : String
deriving DecidableEq

/-- `config.rs:530–598`. -/
structure TurnServiceConfig where
  enabled : Bool := false
  tcpEnabled : Bool := false
  bind : String := "0.0.0.0"
  port : UInt16 := 3478
  publicIp : String := ""
  realm : String := "myownmesh"
  credentials : List TurnCredential := [⟨"guest", "theguestpassword"⟩]
  maxBpsPerConnection : UInt64 := 0
  relayPortMin : UInt16 := 0
  relayPortMax : UInt16 := 0
deriving DecidableEq

/-- `config.rs:424–432`. -/
structure ServicesConfig where
  node : NodeServiceConfig := {}
  relay : RelayServiceConfig := {}
  signaling : SignalingServerConfig := {}
  stun : StunServiceConfig := {}
  turn : TurnServiceConfig := {}
deriving DecidableEq

/-! ### Listeners -/

inductive Transport where
  | udp
  | tcp
deriving DecidableEq

/-- What a listener binds. -/
structure Socket where
  transport : Transport
  bind : String
  port : UInt16
deriving DecidableEq

/-- `stun.rs:59–71`. -/
def StunServiceConfig.sockets (c : StunServiceConfig) : List Socket := [⟨.udp, c.bind, c.port⟩]

/-- `turn.rs:319–324, 368–392`. -/
def TurnServiceConfig.sockets (c : TurnServiceConfig) : List Socket :=
  ⟨.udp, c.bind, c.port⟩ :: if c.tcpEnabled then [⟨.tcp, c.bind, c.port⟩] else []

/-- `server.rs:174–178`. -/
def SignalingServerConfig.sockets (c : SignalingServerConfig) : List Socket :=
  [⟨.tcp, c.bind, c.port⟩]

/-- The listeners that run, each with the settings it was started with; `services.rs:43–45`. -/
structure Listeners where
  stun : Option StunServiceConfig := none
  turn : Option TurnServiceConfig := none
  signaling : Option SignalingServerConfig := none
deriving DecidableEq

/-- The sockets of the listeners that run. -/
def Listeners.held (g : Listeners) : List Socket :=
  g.stun.elim [] (·.sockets) ++ g.turn.elim [] (·.sockets) ++ g.signaling.elim [] (·.sockets)

/-- A bind succeeds unless the socket is held; port 0 is any free one. -/
def Binds (held sockets : List Socket) : Prop := ∀ s ∈ sockets, s.port = 0 ∨ s ∉ held

instance (held sockets : List Socket) : Decidable (Binds held sockets) :=
  inferInstanceAs (Decidable (∀ s ∈ sockets, _))

/-- Beside TURN there is no listener for STUN alone; `services.rs:134`. -/
def ServicesConfig.runStandaloneStun (desired : ServicesConfig) : Bool :=
  desired.stun.enabled && !desired.turn.enabled

/-- Whether `apply` stops the STUN listener and starts it anew; `services.rs:135–137`. -/
def Listeners.RestartsStun (g : Listeners) (config desired : ServicesConfig) : Prop :=
  g.stun.isSome ≠ desired.runStandaloneStun ∨ config.stun ≠ desired.stun ∨
    config.turn ≠ desired.turn

/-- The TURN server; `services.rs:156`. -/
def Listeners.RestartsTurn (g : Listeners) (config desired : ServicesConfig) : Prop :=
  g.turn.isSome ≠ desired.turn.enabled ∨ config.turn ≠ desired.turn

/-- The signaling server; `services.rs:169–170`. -/
def Listeners.RestartsSignaling (g : Listeners) (config desired : ServicesConfig) : Prop :=
  g.signaling.isSome ≠ desired.signaling.enabled ∨ config.signaling ≠ desired.signaling

instance (g : Listeners) (config desired : ServicesConfig) :
    Decidable (g.RestartsStun config desired) := inferInstanceAs (Decidable (_ ∨ _))

instance (g : Listeners) (config desired : ServicesConfig) :
    Decidable (g.RestartsTurn config desired) := inferInstanceAs (Decidable (_ ∨ _))

instance (g : Listeners) (config desired : ServicesConfig) :
    Decidable (g.RestartsSignaling config desired) := inferInstanceAs (Decidable (_ ∨ _))

/-! ### Forwarders -/

/-- Where a request stands. -/
inductive Task where
  /-- `network_add`: `contains` of the config id, then of the network id, `mesh.join`, `insert`;
  `control.rs:1750–1788`. The key is the one that `on_network_added` is called with. -/
  | checkId (config : Config)
  | checkNetworkId (config : Config)
  | join (config : Config) (key : String)
  /-- If the network was updated, `on_network_removed` comes first; `control.rs:2123–2124,
  2149–2154`. -/
  | insert (d : Nat) (key : String) (updated : Bool)
  /-- `network_remove`: find the keys of a network and take them out; `control.rs:1842–1862`,
  `registry.rs:167–208`. -/
  | find (key : String)
  | takeKeys (d : Nat) (keys : List String) (key : String)
  /-- `network_update`: the network under either id, the comparison, the old network's way out, and
  the join under the new config; `control.rs:2022–2117`. -/
  | update (config : Config)
  | updateByNetworkId (config : Config)
  | compare (d : Nat) (config : Config)
  | findOld (config old : Config)
  | takeOld (d : Nat) (keys : List String) (config old : Config)
  | rejoin (config old : Config)
  /-- `on_network_removed`, with `on_network_added` to come or not. -/
  | removed (key : String) (updated : Bool)
  | added (key : String)
  /-- `apply` waits for the lock. -/
  | apply (desired : ServicesConfig)
deriving DecidableEq

/-- Where the `apply` that has the lock stands. -/
inductive Phase where
  /-- `join_configured`, and `join_network` for each config; `services.rs:395–429`. -/
  | join (desired : ServicesConfig) (todo : List Config)
  | checkNetworkId (desired : ServicesConfig) (config : Config) (todo : List Config)
  | start (desired : ServicesConfig) (config : Config) (todo : List Config)
  | insert (desired : ServicesConfig) (d : Nat) (todo : List Config)
  /-- A service is stopped if it has to be, and started if it should run; `services.rs:134–187`. -/
  | stun (desired : ServicesConfig)
  | startStun (desired : ServicesConfig)
  | turn (desired : ServicesConfig)
  | startTurn (desired : ServicesConfig)
  | signaling (desired : ServicesConfig)
  | startSignaling (desired : ServicesConfig)
  /-- The forwarders are dropped, and one is started for each of these config ids;
  `services.rs:193–204`. -/
  | relays (desired : ServicesConfig)
  | relay (desired : ServicesConfig) (todo : List String)
deriving DecidableEq

/-- The manager, the sockets of the listeners that it has stopped and whose task is still there,
what it shares with the requests, the requests in flight, and the `apply` that has the lock. -/
structure Manager where
  shared : Shared
  relays : AList fun _ : String ↦ Nat
  config : ServicesConfig
  listeners : Listeners
  closing : List Socket
  tasks : List Task
  applying : Option Phase

/-- A manager that was just made; `services.rs:91–103`. -/
def Manager.start : Manager := ⟨⟨∅, [], []⟩, ∅, {}, {}, [], [], none⟩

/-- What a step meets: whether an engine can be set up, whether a clone of the network that is
taken out is held elsewhere, and the networks of the config on disk. -/
structure Env where
  spawns : Bool
  borrowed : Bool
  configured : List Config

variable (lowercase : String → String)

/-- `mesh.join`; `handle.rs:134–179`. -/
def spawn (sh : Shared) (config : Config) (env : Env) : Option Shared :=
  match normalizeNetworkId lowercase config.networkId, env.spawns with
  | .ok networkId, true =>
    some { sh with
      drivers := sh.drivers ++ [⟨{ config with networkId := networkId }, false, true⟩]
      networks := sh.networks ++ [(config.id, sh.drivers.length)] }
  | _, _ => none

/-- `on_network_added`; `services.rs:234–245`. -/
def Manager.onNetworkAdded (m : Manager) (key : String) : Manager :=
  if m.config.relay.enabled && !(m.relays.lookup key).isSome then
    match m.shared.registry.lookup key with
    | some d => { m with relays := m.relays.insert key d }
    | none => m
  else m

/-- `on_network_removed`; `services.rs:249–251`. -/
def Manager.onNetworkRemoved (m : Manager) (key : String) : Manager :=
  { m with relays := m.relays.erase key }

/-- `apply` has the lock; `services.rs:113–124`. -/
def Manager.lock (m : Manager) (desired : ServicesConfig) (env : Env) : Manager :=
  if m.config.node.enabled && !desired.node.enabled then
    { m with
      relays := ∅
      shared := { m.shared with registry := ∅ }
      applying := some (.stun desired) }
  else if !m.config.node.enabled && desired.node.enabled then
    { m with applying := some (.join desired env.configured) }
  else { m with applying := some (.stun desired) }

/-- `StunServerHandle::stop` only aborts the task that has the socket; `stun.rs:43–46`. -/
def Manager.stopStun (m : Manager) : Manager :=
  { m with
    listeners := { m.listeners with stun := none }
    closing := m.listeners.stun.elim [] (·.sockets) ++ m.closing }

/-- `TurnServerHandle::stop` waits until the server and its bridge are closed;
`turn.rs:294–303`. -/
def Manager.stopTurn (m : Manager) : Manager :=
  { m with listeners := { m.listeners with turn := none } }

/-- `SignalingServerHandle::stop`, which only aborts the task as well; `server.rs:156–160`. -/
def Manager.stopSignaling (m : Manager) : Manager :=
  { m with
    listeners := { m.listeners with signaling := none }
    closing := m.listeners.signaling.elim [] (·.sockets) ++ m.closing }

/-- `StunServer::start`; `stun.rs:59–71`. -/
def Manager.startStun (m : Manager) (config : StunServiceConfig) : Manager :=
  if Binds (m.listeners.held ++ m.closing) config.sockets then
    { m with listeners := { m.listeners with stun := some config } }
  else m

/-- `TurnServer::start`; `turn.rs:311–410`. -/
def Manager.startTurn (m : Manager) (config : TurnServiceConfig) : Manager :=
  if Binds (m.listeners.held ++ m.closing) config.sockets then
    { m with listeners := { m.listeners with turn := some config } }
  else m

/-- `SignalingServer::start`; `server.rs:174–194`. -/
def Manager.startSignaling (m : Manager) (config : SignalingServerConfig) : Manager :=
  if Binds (m.listeners.held ++ m.closing) config.sockets then
    { m with listeners := { m.listeners with signaling := some config } }
  else m

/-- The config ids of the networks in the registry, in order; `registry.rs:132–163`. -/
def summaries (sh : Shared) : List String :=
  Text.sortStrings ((sh.registry.entries.map (·.2)).dedup.filterMap sh.configId)

/-- One step of a request. Without the lock of the manager it waits where it needs that. -/
def advance (m : Manager) (env : Env) : Task → Manager × Option Task
  | .checkId config =>
    match m.shared.registry.lookup config.id with
    | some _ => (m, none)
    | none => (m, some (.checkNetworkId config))
  | .checkNetworkId config =>
    match m.shared.registry.lookup config.networkId with
    | some _ => (m, none)
    | none => (m, some (.join config config.id))
  | .join config key =>
    match spawn lowercase m.shared config env with
    | some sh => ({ m with shared := sh }, some (.insert m.shared.drivers.length key false))
    | none => (m, none)
  | .insert d key updated =>
    match m.shared.drivers[d]? with
    | some driver =>
      ({ m with shared := m.shared.insert d driver.config },
        some (if updated then .removed key true else .added key))
    | none => (m, none)
  | .find key =>
    match m.shared.registry.lookup key with
    | some d => (m, some (.takeKeys d (m.shared.keysOf d) key))
    | none => (m, none)
  | .takeKeys d keys key =>
    let key := if env.borrowed then key else (m.shared.configId d).getD key
    ({ m with shared := m.shared.takeKeys keys }, some (.removed key false))
  | .update config =>
    match m.shared.registry.lookup config.id with
    | some d => (m, some (.compare d config))
    | none => (m, some (.updateByNetworkId config))
  | .updateByNetworkId config =>
    match m.shared.registry.lookup config.networkId with
    | some d => (m, some (.compare d config))
    | none => (m, none)
  | .compare d config =>
    match m.shared.drivers[d]? with
    | some driver =>
      if requiresRestart driver.config config then (m, some (.findOld config driver.config))
      else (m, none)
    | none => (m, none)
  | .findOld config old =>
    match m.shared.registry.lookup config.id with
    | some d => (m, some (.takeOld d (m.shared.keysOf d) config old))
    | none => (m, some (.rejoin config old))
  | .takeOld _ keys config old =>
    ({ m with shared := m.shared.takeKeys keys }, some (.rejoin config old))
  | .rejoin config old =>
    match spawn lowercase m.shared config env with
    | some sh => ({ m with shared := sh }, some (.insert m.shared.drivers.length config.id true))
    | none => (m, some (.join old config.id))
  | .removed key updated =>
    if m.applying.isSome then (m, some (.removed key updated))
    else (m.onNetworkRemoved key, if updated then some (.added key) else none)
  | .added key =>
    if m.applying.isSome then (m, some (.added key)) else (m.onNetworkAdded key, none)
  | .apply desired =>
    if m.applying.isSome then (m, some (.apply desired)) else (m.lock desired env, none)

/-- One step of the `apply` that has the lock. -/
def work (m : Manager) (env : Env) : Phase → Manager
  | .join desired [] => { m with applying := some (.stun desired) }
  | .join desired (config :: todo) =>
    match m.shared.registry.lookup config.id with
    | some _ => { m with applying := some (.join desired todo) }
    | none => { m with applying := some (.checkNetworkId desired config todo) }
  | .checkNetworkId desired config todo =>
    match m.shared.registry.lookup config.networkId with
    | some _ => { m with applying := some (.join desired todo) }
    | none => { m with applying := some (.start desired config todo) }
  | .start desired config todo =>
    match spawn lowercase m.shared config env with
    | some sh =>
      { m with shared := sh, applying := some (.insert desired m.shared.drivers.length todo) }
    | none => { m with applying := some (.join desired todo) }
  | .insert desired d todo =>
    match m.shared.drivers[d]? with
    | some driver =>
      { m with
        shared := m.shared.insert d driver.config
        applying := some (.join desired todo) }
    | none => { m with applying := some (.join desired todo) }
  | .stun desired =>
    if m.listeners.RestartsStun m.config desired then
      { m.stopStun with
        applying := some (if desired.runStandaloneStun then .startStun desired else .turn desired) }
    else { m with applying := some (.turn desired) }
  | .startStun desired => { m.startStun desired.stun with applying := some (.turn desired) }
  | .turn desired =>
    if m.listeners.RestartsTurn m.config desired then
      { m.stopTurn with
        applying := some (if desired.turn.enabled then .startTurn desired
          else .signaling desired) }
    else { m with applying := some (.signaling desired) }
  | .startTurn desired => { m.startTurn desired.turn with applying := some (.signaling desired) }
  | .signaling desired =>
    if m.listeners.RestartsSignaling m.config desired then
      { m.stopSignaling with
        applying := some (if desired.signaling.enabled then .startSignaling desired
          else .relays desired) }
    else { m with applying := some (.relays desired) }
  | .startSignaling desired =>
    { m.startSignaling desired.signaling with applying := some (.relays desired) }
  | .relays desired =>
    if desired.relay.enabled then
      { m with relays := ∅, applying := some (.relay desired (summaries m.shared)) }
    else { m with relays := ∅, config := desired, applying := none }
  | .relay desired (key :: todo) =>
    match m.shared.registry.lookup key with
    | some d => { m with relays := m.relays.insert key d, applying := some (.relay desired todo) }
    | none => { m with applying := some (.relay desired todo) }
  | .relay desired [] => { m with config := desired, applying := none }

/-- The requests that change what is hosted or joined. -/
inductive Request where
  | networkAdd (config : Config)
  | networkRemove (key : String)
  | networkUpdate (config : Config)
  | apply (desired : ServicesConfig)
deriving DecidableEq

def Request.task : Request → Task
  | .networkAdd config => .checkId config
  | .networkRemove key => .find key
  | .networkUpdate config => .update config
  | .apply desired => .apply desired

/-- A request arrives, a request takes its next step, the `apply` with the lock takes its next
step, the runtime drops the task of a listener that was stopped. -/
inductive Op where
  | request (r : Request)
  | advance (i : Nat) (env : Env)
  | work (env : Env)
  | dropTask (i : Nat)

def step (m : Manager) : Op → Manager
  | .request r => { m with tasks := m.tasks ++ [r.task] }
  | .advance i env =>
    match m.tasks[i]? with
    | none => m
    | some t =>
      let (m', next) := advance lowercase m env t
      { m' with tasks := m.tasks.take i ++ next.toList ++ m.tasks.drop (i + 1) }
  | .work env =>
    match m.applying with
    | none => m
    | some p => work lowercase m env p
  | .dropTask i => { m with closing := m.closing.eraseIdx i }

/-- The listeners in one go, with no step of another in between; `services.rs:134–187`. -/
def Manager.serve (m : Manager) (desired : ServicesConfig) : Manager :=
  let m :=
    if m.listeners.RestartsStun m.config desired then
      if desired.runStandaloneStun then m.stopStun.startStun desired.stun else m.stopStun
    else m
  let m :=
    if m.listeners.RestartsTurn m.config desired then
      if desired.turn.enabled then m.stopTurn.startTurn desired.turn else m.stopTurn
    else m
  if m.listeners.RestartsSignaling m.config desired then
    if desired.signaling.enabled then m.stopSignaling.startSignaling desired.signaling
    else m.stopSignaling
  else m

/-- The listeners that `apply` starts on a manager that was just made; `services.rs:91–103`. -/
def freshListeners (desired : ServicesConfig) : Listeners :=
  (Manager.start.serve desired).listeners

end MyOwnMesh.Services
