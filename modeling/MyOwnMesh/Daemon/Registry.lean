import Mathlib.Data.List.AList
import Mathlib.Data.Multiset.Bind
import Mathlib.Data.Finset.Basic
import MyOwnMesh.Lib.Replay
import MyOwnMesh.Lib.TwoNames
import MyOwnMesh.NetworkState.Payload

/-!
# The networks of the daemon

`crates/myownmesh/src/registry.rs` with the requests that change it: `network_add`,
`network_remove` and `network_update` of `control.rs:1745–1806, 1826–1878, 2020–2161`,
`join_network` and `leave_all` of `services.rs:395–442`; `join` and `leave` of
`handle.rs:134–179, 600–621`, and the driver that they start and stop, `engine/mod.rs:117–252`.

Requests are tasks that share the registry, the mesh's list of networks and the drivers; a step is
one access to what they share. A network is named by the number of its driver: its entry, its
handle and its driver are made together. A driver runs until it takes a `Shutdown` from its channel
or the channel has no sender. What requests do to the disk, to peers and to the relays is left out,
and a request that removes or joins several networks is one request for each.
-/

namespace MyOwnMesh.Daemon

open Lib Lib.Replay

/-! ### What the requests share -/

/-- The fields of `NetworkConfig` that decide where a network goes. -/
structure Config where
  id : String
  networkId : String
  signaling : String
  deriving DecidableEq, Repr

/-- A driver task, with the config it was started with. -/
structure Driver where
  config : Config
  /-- A `Shutdown` is in the channel. -/
  shutdown : Bool
  running : Bool
  deriving DecidableEq, Repr

/-- The registry's map from config ids and network ids, all drivers ever started, and the mesh's
list of networks by config id; `registry.rs:87`, `handle.rs:163–170`. -/
structure Shared where
  registry : AList fun _ : String ↦ Nat
  drivers : List Driver
  networks : List (String × Nat)

def Shared.running (sh : Shared) (d : Nat) : Bool := sh.drivers[d]?.any (·.running)

def Shared.configId (sh : Shared) (d : Nat) : Option String := sh.drivers[d]?.map (·.config.id)

def Shared.networkId (sh : Shared) (d : Nat) : Option String :=
  sh.drivers[d]?.map (·.config.networkId)

/-- The keys that lead to a network; `registry.rs:175–185`. -/
def Shared.keysOf (sh : Shared) (d : Nat) : List String :=
  (sh.registry.entries.filter (·.2 = d)).map (·.1)

/-- The networks of the registry. -/
def Shared.registered (sh : Shared) : Finset Nat := (sh.registry.entries.map (·.2)).toFinset

/-- `registry.rs:100–110`. -/
def Shared.insert (sh : Shared) (d : Nat) (config : Config) : Shared :=
  let map := sh.registry.insert config.id d
  { sh with registry :=
      if (map.lookup config.networkId).isSome then map else map.insert config.networkId d }

/-- `registry.rs:188–193`. -/
def Shared.takeKeys (sh : Shared) (keys : List String) : Shared :=
  { sh with registry := keys.foldl (fun map key ↦ map.erase key) sh.registry }

/-- `reconcile.rs:41–43`. -/
def requiresRestart (current next : Config) : Bool :=
  current.networkId ≠ next.networkId || current.signaling ≠ next.signaling

/-! ### Requests -/

/-- What a request does once a network is out of the registry. -/
inductive After where
  /-- It is answered. -/
  | finish
  /-- `network_update` joins again, and goes back to the old config if that fails. -/
  | rejoin (config old : Config)
  /-- `take_all` has these entries to unwrap and owns those handles. -/
  | takeRest (entries owned : List Nat)
  /-- `leave_all` leaves these. -/
  | leaveRest (owned : List Nat)
  deriving DecidableEq, Repr

/-- Where a request stands. -/
inductive Task where
  /-- `contains` of the config id, then of the network id; `control.rs:1750–1758`. The services hear
  of the new network if `hooked`. -/
  | checkId (config : Config) (hooked : Bool)
  | checkNetworkId (config : Config) (hooked : Bool)
  /-- `mesh.join`; `handle.rs:134–179`. -/
  | join (config : Config) (fallback : Option Config) (hooked : Bool)
  | insert (d : Nat) (hooked : Bool)
  /-- `on_network_added` clones handles one at a time; `services.rs:234–247, 270–276`. -/
  | hook (borrowed : Option Nat)
  /-- `control.rs:1826–1839`: clone the handle, announce the departure, drop the clone. -/
  | announce (key : String) (after : After)
  | announcing (d : Nat) (key : String) (after : After)
  /-- `registry.rs:167–208`: clone the entry, take its keys out, unwrap the entry and the handle. -/
  | find (key : String) (after : After)
  | takeKeys (d : Nat) (keys : List String) (after : After)
  | unwrapEntry (d : Nat) (after : After)
  | unwrapJoined (d : Nat) (after : After)
  /-- `handle.rs:600–621`: send `Shutdown`, take the mesh's entry, await its driver. -/
  | shutdown (d : Nat) (after : After)
  | takeDriver (d : Nat) (after : After)
  | awaitDriver (d awaited : Nat) (after : After)
  /-- `control.rs:2022–2091`: clone the handle found under either id, compare the configs. -/
  | update (config : Config)
  | updateByNetworkId (config : Config)
  | compare (d : Nat) (config : Config)
  /-- Any other request: clone the handle, use it, drop it. -/
  | get (key : String)
  | use (d : Nat)
  /-- `registry.rs:245–265`. -/
  | takeAll
  deriving DecidableEq, Repr

/-- `take_all` unwraps one entry after the other, then its caller leaves what it owns. -/
def After.resume : After → Option Task
  | .finish => none
  | .rejoin config old => some (.join config (some old) true)
  | .takeRest (d :: entries) owned => some (.unwrapEntry d (.takeRest entries owned))
  | .takeRest [] (d :: owned) => some (.shutdown d (.leaveRest owned))
  | .takeRest [] [] => some (.hook none)
  | .leaveRest (d :: owned) => some (.shutdown d (.leaveRest owned))
  | .leaveRest [] => some (.hook none)

/-- A handle was unwrapped: `take_all` keeps it for later, the others leave. -/
def After.removed (d : Nat) : After → Option Task
  | .takeRest entries owned => (After.takeRest entries (d :: owned)).resume
  | after => some (.shutdown d after)

/-- The entries that `take_all` still holds. -/
def After.entries : After → List Nat
  | .takeRest entries _ => entries
  | _ => []

/-- The clones of an `Arc<Entry>` a request holds. -/
def Task.entries : Task → List Nat
  | .takeKeys d _ after | .unwrapEntry d after => d :: after.entries
  | .unwrapJoined _ after | .shutdown _ after | .takeDriver _ after | .awaitDriver _ _ after =>
    after.entries
  | _ => []

/-- The clones of an `Arc<JoinedNetwork>` a request holds, besides those inside entries. -/
def Task.handles : Task → List Nat
  | .hook (some d) | .announcing d _ _ | .unwrapJoined d _ | .compare d _ | .use d => [d]
  | _ => []

/-- The handles that `take_all` and its caller own. -/
def After.owned : After → List Nat
  | .takeRest _ owned | .leaveRest owned => owned
  | _ => []

/-- The handles a request owns, and the driver whose entry of the mesh's list it took. -/
def Task.owned : Task → List Nat
  | .insert d _ => [d]
  | .shutdown d after | .takeDriver d after => d :: after.owned
  | .awaitDriver d awaited after => d :: awaited :: after.owned
  | .unwrapEntry _ after | .unwrapJoined _ after => after.owned
  | _ => []

/-- What a step meets: whether the engine could be set up, and which handle the services look at
next. -/
structure Env where
  spawns : Bool
  key : Option String

variable (lowercase : String → String)

/-- One step of a request, beside the others. -/
def advance (sh : Shared) (others : List Task) (env : Env) : Task → Shared × Option Task
  | .checkId config hooked =>
    match sh.registry.lookup config.id with
    | some _ => (sh, none)
    | none => (sh, some (.checkNetworkId config hooked))
  | .checkNetworkId config hooked =>
    match sh.registry.lookup config.networkId with
    | some _ => (sh, none)
    | none => (sh, some (.join config none hooked))
  | .join config fallback hooked =>
    match normalizeNetworkId lowercase config.networkId, env.spawns with
    | .ok networkId, true =>
      let d := sh.drivers.length
      ({ sh with
          drivers := sh.drivers ++ [⟨{ config with networkId := networkId }, false, true⟩]
          networks := sh.networks ++ [(config.id, d)] }, some (.insert d hooked))
    | _, _ =>
      match fallback with
      | some old => (sh, some (.join old none hooked))
      | none => (sh, none)
  | .insert d hooked =>
    match sh.drivers[d]? with
    | some driver =>
      (sh.insert d driver.config, if hooked then some (.hook none) else none)
    | none => (sh, none)
  | .hook none =>
    match env.key with
    | none => (sh, none)
    | some key => (sh, some (.hook (sh.registry.lookup key)))
  | .hook (some _) => (sh, some (.hook none))
  | .announce key after =>
    match sh.registry.lookup key with
    | some d => (sh, some (.announcing d key after))
    | none => (sh, some (.find key after))
  | .announcing _ key after => (sh, some (.find key after))
  | .find key after =>
    match sh.registry.lookup key with
    | some d => (sh, some (.takeKeys d (sh.keysOf d) after))
    | none => (sh, after.resume)
  | .takeKeys d keys after => (sh.takeKeys keys, some (.unwrapEntry d after))
  | .unwrapEntry d after =>
    if d ∉ sh.registered ∧ ∀ t ∈ others, d ∉ t.entries then (sh, some (.unwrapJoined d after))
    else (sh, after.resume)
  | .unwrapJoined d after =>
    if ∀ t ∈ others, d ∉ t.handles then (sh, after.removed d) else (sh, after.resume)
  | .shutdown d after =>
    ({ sh with drivers := sh.drivers.modify d fun driver ↦ { driver with shutdown := true } },
      some (.takeDriver d after))
  | .takeDriver d after =>
    match sh.networks.find? fun n ↦ some n.1 = sh.configId d with
    | some n => ({ sh with networks := sh.networks.erase n }, some (.awaitDriver d n.2 after))
    | none => (sh, after.resume)
  | .awaitDriver d awaited after =>
    if sh.running awaited then (sh, some (.awaitDriver d awaited after)) else (sh, after.resume)
  | .update config =>
    match sh.registry.lookup config.id with
    | some d => (sh, some (.compare d config))
    | none => (sh, some (.updateByNetworkId config))
  | .updateByNetworkId config =>
    match sh.registry.lookup config.networkId with
    | some d => (sh, some (.compare d config))
    | none => (sh, none)
  | .compare d config =>
    match sh.drivers[d]? with
    | some driver =>
      if requiresRestart driver.config config then
        (sh, some (.announcing d config.id (.rejoin config driver.config)))
      else (sh, none)
    | none => (sh, none)
  | .get key =>
    match sh.registry.lookup key with
    | some d => (sh, some (.use d))
    | none => (sh, none)
  | .use _ => (sh, none)
  | .takeAll =>
    ({ sh with registry := ∅ }, (After.takeRest (sh.registry.entries.map (·.2)).dedup []).resume)

/-- The daemon: what is shared, and the requests in flight. -/
structure State where
  shared : Shared
  tasks : List Task

/-- No network is joined. -/
def State.start : State := ⟨⟨∅, [], []⟩, []⟩

/-- The senders of a driver's command channel: the driver's own state, the mesh's entry, and the
handles in the registry and in requests. -/
def State.senders (s : State) (d : Nat) : Nat :=
  (if s.shared.running d then 1 else 0) + s.shared.networks.countP (·.2 = d) +
    (if d ∈ s.shared.registered then 1 else 0) +
    s.tasks.countP (fun t ↦ d ∈ t.entries ∨ d ∈ t.handles ∨ d ∈ t.owned)

/-- `NetworkAdd`, a join of the node-enable transition, `NetworkRemove`, `NetworkUpdate`, the
node-disable transition, and any other request. -/
inductive Request where
  | networkAdd (config : Config)
  | joinNetwork (config : Config)
  | networkRemove (key : String)
  | networkUpdate (config : Config)
  | leaveAll
  | other (key : String)
  deriving DecidableEq, Repr

def Request.task : Request → Task
  | .networkAdd config => .checkId config true
  | .joinNetwork config => .checkId config false
  | .networkRemove key => .announce key .finish
  | .networkUpdate config => .update config
  | .leaveAll => .takeAll
  | .other key => .get key

/-- A request arrives, a request takes its next step, a driver takes a command from its channel or
finds it closed. -/
inductive Op where
  | request (r : Request)
  | advance (i : Nat) (env : Env)
  | recv (d : Nat)
  | close (d : Nat)

def Shared.stop (sh : Shared) (d : Nat) : Shared :=
  { sh with drivers := sh.drivers.modify d fun driver ↦ { driver with running := false } }

def step (s : State) : Op → State
  | .request r => { s with tasks := s.tasks ++ [r.task] }
  | .advance i env =>
    match s.tasks[i]? with
    | none => s
    | some t =>
      let (sh, next) := advance lowercase s.shared (s.tasks.eraseIdx i) env t
      ⟨sh, s.tasks.take i ++ next.toList ++ s.tasks.drop (i + 1)⟩
  | .recv d =>
    if s.shared.drivers[d]?.any (·.shutdown) then { s with shared := s.shared.stop d } else s
  | .close d => if s.senders d = 0 then { s with shared := s.shared.stop d } else s

/-! ### The registry -/

theorem Shared.mem_registered {sh : Shared} {d : Nat} :
    d ∈ sh.registered ↔ ∃ key, sh.registry.lookup key = some d := by
  simp only [Shared.registered, List.mem_toFinset, List.mem_map]
  constructor
  · rintro ⟨⟨key, d'⟩, hmem, rfl⟩
    exact ⟨key, AList.mem_lookup_iff.mpr hmem⟩
  · rintro ⟨key, hkey⟩
    exact ⟨⟨key, d⟩, AList.mem_lookup_iff.mp hkey, rfl⟩

theorem Shared.mem_keysOf {sh : Shared} {d : Nat} {key : String} :
    key ∈ sh.keysOf d ↔ sh.registry.lookup key = some d :=
  TwoNames.mem_names

/-- A network whose keys are taken out leaves the registry, and no other does. -/
private theorem registered_takeKeys {sh : Shared} {d : Nat} {keys : List String}
    (hkeys : sh.keysOf d = keys) : (sh.takeKeys keys).registered = sh.registered.erase d := by
  ext d'
  simp only [Finset.mem_erase, Shared.mem_registered, Shared.takeKeys,
    TwoNames.lookup_foldl_erase, ← hkeys,
    Shared.mem_keysOf]
  constructor
  · rintro ⟨key, hkey⟩
    split at hkey
    · cases hkey
    · next hne =>
      exact ⟨fun heq ↦ hne (heq ▸ hkey), key, hkey⟩
  · rintro ⟨hne, key, hkey⟩
    refine ⟨key, ?_⟩
    rw [if_neg, hkey]
    rw [hkey, Option.some.injEq]
    exact hne

/-- There is room for a network: no other one of the registry has its network id, and the one that
its config id leads to has another key. -/
def Shared.Room (sh : Shared) (config : Config) : Prop :=
  (∀ d ∈ sh.registered, sh.networkId d ≠ some config.networkId) ∧
    ∀ d ∈ sh.registry.lookup config.id, ∃ key ∈ sh.keysOf d, key ≠ config.id

instance (sh : Shared) (config : Config) : Decidable (sh.Room config) :=
  inferInstanceAs (Decidable (_ ∧ _))

/-- Where there is room, an insertion adds the network and nothing else changes. -/
private theorem registered_insert {sh : Shared} {d : Nat} {config : Config}
    (hroom : sh.Room config) : (sh.insert d config).registered = insert d sh.registered := by
  ext d'
  simp only [Finset.mem_insert, Shared.mem_registered, Shared.insert]
  constructor
  · rintro ⟨key, hkey⟩
    split at hkey
    · by_cases heq : key = config.id
      · rw [heq, AList.lookup_insert] at hkey
        exact .inl (Option.some.inj hkey).symm
      · rw [AList.lookup_insert_ne heq] at hkey
        exact .inr ⟨key, hkey⟩
    · by_cases hnet : key = config.networkId
      · rw [hnet, AList.lookup_insert] at hkey
        exact .inl (Option.some.inj hkey).symm
      · rw [AList.lookup_insert_ne hnet] at hkey
        by_cases heq : key = config.id
        · rw [heq, AList.lookup_insert] at hkey
          exact .inl (Option.some.inj hkey).symm
        · rw [AList.lookup_insert_ne heq] at hkey
          exact .inr ⟨key, hkey⟩
  · have hkept : ∀ key v, (sh.registry.insert config.id d).lookup key = some v →
        (if ((sh.registry.insert config.id d).lookup config.networkId).isSome
          then sh.registry.insert config.id d
          else (sh.registry.insert config.id d).insert config.networkId d).lookup key = some v := by
      intro key v hkey
      split
      · exact hkey
      · next hnone =>
        rw [AList.lookup_insert_ne]
        · exact hkey
        · rintro rfl
          exact hnone (by rw [hkey]; rfl)
    rintro (rfl | ⟨key, hkey⟩)
    · exact ⟨config.id, hkept _ _ (AList.lookup_insert _)⟩
    · by_cases heq : key = config.id
      · subst heq
        obtain ⟨key', hkey', hne⟩ := hroom.2 d' hkey
        refine ⟨key', hkept _ _ ?_⟩
        rw [AList.lookup_insert_ne hne]
        exact Shared.mem_keysOf.mp hkey'
      · refine ⟨key, hkept _ _ ?_⟩
        rw [AList.lookup_insert_ne heq]
        exact hkey

/-! ### Who has to stop a driver -/

/-- The networks that `take_all` and its caller have to leave. -/
def After.owes : After → List Nat
  | .takeRest entries owned => entries ++ owned
  | .leaveRest owned => owned
  | _ => []

/-- The networks outside the registry that a request has to insert or leave, up to taking the
mesh's entry. -/
def Task.owes : Task → List Nat
  | .insert d _ => [d]
  | .unwrapEntry d after | .unwrapJoined d after | .shutdown d after | .takeDriver d after =>
    d :: after.owes
  | .announce _ after | .announcing _ _ after | .find _ after | .takeKeys _ _ after |
    .awaitDriver _ _ after => after.owes
  | _ => []

/-- Those of them that were not sent a `Shutdown`. -/
def Task.unsent : Task → List Nat
  | .takeDriver _ after => after.owes
  | t => t.owes

/-- The driver a request waits for. -/
def Task.awaits : Task → List Nat
  | .awaitDriver _ awaited _ => [awaited]
  | _ => []

/-- The keys that were found. -/
def Task.Found : Task → Prop
  | .takeKeys _ keys _ => keys ≠ []
  | _ => True

def owed (tasks : Multiset Task) : Multiset Nat := tasks.bind fun t ↦ t.owes

@[simp] theorem owed_zero : owed 0 = 0 := Multiset.zero_bind _

@[simp] theorem owed_cons (t : Task) (tasks : Multiset Task) :
    owed (t ::ₘ tasks) = t.owes + owed tasks := Multiset.cons_bind _ _ _

@[simp] theorem owed_add (a b : Multiset Task) : owed (a + b) = owed a + owed b :=
  Multiset.add_bind _ _ _

theorem mem_owed {tasks : Multiset Task} {d : Nat} : d ∈ owed tasks ↔ ∃ t ∈ tasks, d ∈ t.owes := by
  simp [owed, Multiset.mem_bind]

/-- The driver runs and has no `Shutdown` to take. -/
def Shared.Live (sh : Shared) (d : Nat) : Prop :=
  ∃ driver, sh.drivers[d]? = some driver ∧ driver.running = true ∧ driver.shutdown = false

/-- Every driver that runs is in the registry, or some request is about to stop it: the mesh's list
has one entry for each network that is registered or owed, by config id, and what is not in the
list is awaited. -/
structure Sound (sh : Shared) (tasks : Multiset Task) : Prop where
  once : (sh.registered.val + owed tasks).Nodup
  listed : (sh.networks.map fun n ↦ some n.1 : Multiset (Option String)) =
    (sh.registered.val + owed tasks).map sh.configId
  made : ∀ d ∈ sh.registered.val + owed tasks, d < sh.drivers.length
  live : ∀ d ∈ sh.registered, sh.Live d
  unsent : ∀ t ∈ tasks, ∀ d ∈ t.unsent, sh.Live d
  awaited : ∀ d, sh.running d = true →
    d ∈ sh.networks.map (·.2) ∨ ∃ t ∈ tasks, d ∈ t.awaits
  distinct : ∀ d ∈ sh.registered, ∀ d' ∈ sh.registered, sh.networkId d = sh.networkId d' → d = d'
  found : ∀ t ∈ tasks, t.Found

/-- A request goes on with what it owed and awaited. -/
structure GoesOn (sh : Shared) (t : Task) (next : Option Task) : Prop where
  owes : owed (next.toList : Multiset Task) = (t.owes : Multiset Nat)
  unsent : ∀ t' ∈ next, ∀ d ∈ t'.unsent, d ∈ t.unsent
  awaits : ∀ d ∈ t.awaits, sh.running d = true → ∃ t' ∈ next, d ∈ t'.awaits
  found : ∀ t' ∈ next, t'.Found

/-- A request `t` hands networks over to the registry or takes them from it, and goes on with
`next`. -/
private theorem Sound.handOver {sh : Shared} {t : Task} {rest : Multiset Task}
    (h : Sound sh (t ::ₘ rest)) {registry : AList fun _ : String ↦ Nat} {next : Option Task}
    (htotal : (Shared.registered { sh with registry := registry }).val +
      owed (next.toList : Multiset Task) = sh.registered.val + t.owes)
    (hlive : ∀ d ∈ Shared.registered { sh with registry := registry }, sh.Live d)
    (hunsent : ∀ t' ∈ next, ∀ d ∈ t'.unsent, sh.Live d)
    (hawaits : ∀ d ∈ t.awaits, sh.running d = true → ∃ t' ∈ next, d ∈ t'.awaits)
    (hdistinct : ∀ d ∈ Shared.registered { sh with registry := registry },
      ∀ d' ∈ Shared.registered { sh with registry := registry },
        sh.networkId d = sh.networkId d' → d = d')
    (hfound : ∀ t' ∈ next, t'.Found) :
    Sound { sh with registry := registry } ((next.toList : Multiset Task) + rest) := by
  have htotal' : (Shared.registered { sh with registry := registry }).val +
      owed ((next.toList : Multiset Task) + rest) = sh.registered.val + owed (t ::ₘ rest) := by
    rw [owed_add, owed_cons, ← add_assoc, htotal, add_assoc]
  have hmem : ∀ t' ∈ (next.toList : Multiset Task), t' ∈ next := by simp
  refine ⟨htotal' ▸ h.once, ?_, htotal' ▸ h.made, hlive, ?_, ?_, hdistinct, ?_⟩
  · rw [htotal']
    exact h.listed
  · intro t' ht' d hd
    rcases Multiset.mem_add.mp ht' with ht' | ht'
    · exact hunsent t' (hmem t' ht') d hd
    · exact h.unsent t' (Multiset.mem_cons_of_mem ht') d hd
  · intro d hd
    rcases h.awaited d hd with hlist | ⟨t', ht', hd'⟩
    · exact .inl hlist
    · rcases Multiset.mem_cons.mp ht' with rfl | ht'
      · obtain ⟨t'', ht'', hd''⟩ := hawaits d hd' hd
        exact .inr ⟨t'', Multiset.mem_add.mpr (.inl (by simpa using ht'')), hd''⟩
      · exact .inr ⟨t', Multiset.mem_add.mpr (.inr ht'), hd'⟩
  · intro t' ht'
    rcases Multiset.mem_add.mp ht' with ht' | ht'
    · exact hfound t' (hmem t' ht')
    · exact h.found t' (Multiset.mem_cons_of_mem ht')

/-- A step that only moves a request on. -/
private theorem Sound.goOn {sh : Shared} {t : Task} {next : Option Task} {rest : Multiset Task}
    (h : Sound sh (t ::ₘ rest)) (hnext : GoesOn sh t next) :
    Sound sh ((next.toList : Multiset Task) + rest) := by
  refine h.handOver (congrArg (sh.registered.val + ·) hnext.owes) h.live ?_ hnext.awaits h.distinct
    hnext.found
  intro t' ht' d hd
  exact h.unsent t (Multiset.mem_cons_self _ _) d (hnext.unsent t' ht' d hd)

/-- A request goes on with one task. -/
private theorem GoesOn.some {sh : Shared} {t t' : Task}
    (howes : (t'.owes : Multiset Nat) = t.owes) (hunsent : ∀ d ∈ t'.unsent, d ∈ t.unsent)
    (hawaits : ∀ d ∈ t.awaits, sh.running d = true → d ∈ t'.awaits) (hfound : t'.Found) :
    GoesOn sh t (some t') where
  owes := (Multiset.singleton_bind _ _).trans howes
  unsent _ ht d hd := by
    cases ht
    exact hunsent d hd
  awaits d hd hrun := ⟨t', rfl, hawaits d hd hrun⟩
  found _ ht := by
    cases ht
    exact hfound

/-- A request that owes nothing is answered. -/
private theorem GoesOn.none {sh : Shared} {t : Task} (howes : t.owes = [])
    (hawaits : ∀ d ∈ t.awaits, sh.running d = false) : GoesOn sh t none where
  owes := by
    rw [howes]
    rfl
  unsent := nofun
  awaits d hd hrun := by
    rw [hawaits d hd] at hrun
    cases hrun
  found := nofun

private theorem resume_cases (after : After) :
    (after.resume = none ∧ after.owes = []) ∨
      ∃ t, after.resume = some t ∧ t.owes = after.owes ∧ t.unsent = after.owes ∧ t.Found := by
  cases after with
  | finish => exact .inl ⟨rfl, rfl⟩
  | rejoin config old => exact .inr ⟨_, rfl, rfl, rfl, trivial⟩
  | takeRest entries owned =>
    cases entries with
    | nil => cases owned <;> exact .inr ⟨_, rfl, rfl, rfl, trivial⟩
    | cons d entries => exact .inr ⟨_, rfl, rfl, rfl, trivial⟩
  | leaveRest owned => cases owned <;> exact .inr ⟨_, rfl, rfl, rfl, trivial⟩

/-- A request goes on with the rest. -/
private theorem GoesOn.resume {sh : Shared} {t : Task} {after : After}
    (howes : (after.owes : Multiset Nat) = t.owes) (hunsent : ∀ d ∈ after.owes, d ∈ t.unsent)
    (hawaits : ∀ d ∈ t.awaits, sh.running d = false) : GoesOn sh t after.resume := by
  rcases resume_cases after with ⟨hnone, hnil⟩ | ⟨t', hsome, ht', hsent, hfound⟩
  · rw [hnone]
    refine GoesOn.none ?_ hawaits
    rwa [hnil, eq_comm, Multiset.coe_nil, Multiset.coe_eq_zero] at howes
  · rw [hsome]
    refine GoesOn.some (ht' ▸ howes) (hsent ▸ hunsent) (fun d hd hrun ↦ ?_) hfound
    rw [hawaits d hd] at hrun
    cases hrun

/-- A network was unwrapped. -/
private theorem GoesOn.removed (sh : Shared) (d : Nat) (after : After) :
    GoesOn sh (.unwrapJoined d after) (after.removed d) := by
  cases after with
  | takeRest entries owned =>
    have howes : (After.takeRest entries (d :: owned)).owes.Perm
        (Task.unwrapJoined d (.takeRest entries owned)).owes := List.perm_middle
    exact GoesOn.resume (Multiset.coe_eq_coe.mpr howes) (fun d' hd' ↦ howes.mem_iff.mp hd') nofun
  | finish => exact GoesOn.some rfl (fun _ h ↦ h) nofun trivial
  | rejoin config old => exact GoesOn.some rfl (fun _ h ↦ h) nofun trivial
  | leaveRest owned => exact GoesOn.some rfl (fun _ h ↦ h) nofun trivial

/-! ### Steps that change what is shared -/

/-- A driver changes that nobody counts on: it stays what it is, and does not start again. -/
private theorem Sound.modify {sh : Shared} {tasks : Multiset Task} (h : Sound sh tasks) {d : Nat}
    {f : Driver → Driver} (hconfig : ∀ driver, (f driver).config = driver.config)
    (hrunning : ∀ driver, (f driver).running = true → driver.running = true)
    (hfree : ∀ d', sh.Live d' → (d' ∈ sh.registered ∨ ∃ t ∈ tasks, d' ∈ t.unsent) → d ≠ d') :
    Sound { sh with drivers := sh.drivers.modify d f } tasks := by
  have hget : ∀ d' : Nat, (sh.drivers.modify d f)[d']?.map (·.config) =
      sh.drivers[d']?.map (·.config) := by
    intro d'
    rw [List.getElem?_modify]
    cases sh.drivers[d']? with
    | none => simp
    | some driver => by_cases heq : d = d' <;> simp [heq, hconfig]
  have hid : Shared.configId { sh with drivers := sh.drivers.modify d f } = sh.configId := by
    funext d'
    have hd := congrArg (Option.map Config.id) (hget d')
    rwa [Option.map_map, Option.map_map] at hd
  have hnetwork : Shared.networkId { sh with drivers := sh.drivers.modify d f } =
      sh.networkId := by
    funext d'
    have hd := congrArg (Option.map Config.networkId) (hget d')
    rwa [Option.map_map, Option.map_map] at hd
  have hlive : ∀ d', sh.Live d' → (d' ∈ sh.registered ∨ ∃ t ∈ tasks, d' ∈ t.unsent) →
      Shared.Live { sh with drivers := sh.drivers.modify d f } d' := by
    intro d' hlive hd'
    have hne := hfree d' hlive hd'
    obtain ⟨driver, hdriver, hlive⟩ := hlive
    refine ⟨driver, ?_, hlive⟩
    rw [List.getElem?_modify, hdriver]
    simp [hne]
  refine ⟨h.once, ?_, ?_, ?_, ?_, ?_, ?_, h.found⟩
  · rw [hid]
    exact h.listed
  · simp only [List.length_modify]
    exact h.made
  · exact fun d' hd' ↦ hlive d' (h.live d' hd') (.inl hd')
  · exact fun t ht d' hd' ↦ hlive d' (h.unsent t ht d' hd') (.inr ⟨t, ht, hd'⟩)
  · intro d' hrun
    refine h.awaited d' ?_
    simp only [Shared.running, List.getElem?_modify] at hrun ⊢
    cases hdriver : sh.drivers[d']? with
    | none => simp [hdriver] at hrun
    | some driver =>
      by_cases heq : d = d'
      · simp only [hdriver, heq, if_true, Option.map_eq_map, Option.map_some,
          Option.any_some] at hrun
        exact hrunning driver hrun
      · simpa [hdriver, heq] using hrun
  · rw [hnetwork]
    exact h.distinct

/-- A driver that was sent its `Shutdown`, or does not run, stops. -/
private theorem Sound.stop {sh : Shared} {tasks : Multiset Task} (h : Sound sh tasks) {d : Nat}
    (hd : ¬ sh.Live d) : Sound (sh.stop d) tasks := by
  refine h.modify (fun _ ↦ rfl) nofun fun d' hlive _ heq ↦ ?_
  exact hd (heq ▸ hlive)

/-- What a request owes is neither registered nor owed by another one. -/
theorem Sound.not_mem {sh : Shared} {t : Task} {rest : Multiset Task}
    (h : Sound sh (t ::ₘ rest)) {d : Nat} (hd : d ∈ t.owes) :
    d ∉ sh.registered ∧ d ∉ owed rest := by
  have hnodup := h.once
  rw [owed_cons, Multiset.nodup_add, Multiset.nodup_add] at hnodup
  obtain ⟨-, ⟨-, -, hrest⟩, hregistered⟩ := hnodup
  refine ⟨fun hmem ↦ ?_, fun hmem ↦ ?_⟩
  · exact Multiset.disjoint_left.mp hregistered hmem (Multiset.mem_add.mpr (.inl hd))
  · exact Multiset.disjoint_left.mp hrest hd hmem

private theorem mem_owes_of_unsent {t : Task} {d : Nat} (h : d ∈ t.unsent) : d ∈ t.owes := by
  cases t with
  | takeDriver d' after => exact List.mem_cons_of_mem _ h
  | _ => exact h

/-- `leave` sends the `Shutdown`. -/
private theorem Sound.sendShutdown {sh : Shared} {d : Nat} {after : After} {rest : Multiset Task}
    (h : Sound sh (.shutdown d after ::ₘ rest)) :
    Sound { sh with drivers := sh.drivers.modify d fun driver ↦ { driver with shutdown := true } }
      (.takeDriver d after ::ₘ rest) := by
  obtain ⟨hregistered, hrest⟩ := h.not_mem (d := d) List.mem_cons_self
  have hafter : d ∉ after.owes := by
    have hnodup := h.once
    rw [owed_cons, Multiset.nodup_add, Multiset.nodup_add] at hnodup
    exact (List.nodup_cons.mp (Multiset.coe_nodup.mp hnodup.2.1.1)).1
  have hnext : GoesOn sh (.shutdown d after) (some (.takeDriver d after)) :=
    GoesOn.some rfl (fun d' hd' ↦ List.mem_cons_of_mem _ hd') nofun trivial
  have hgo : Sound sh (.takeDriver d after ::ₘ rest) := h.goOn hnext
  refine hgo.modify (fun _ ↦ rfl) (fun _ hrun ↦ hrun) fun d' _ hd' ↦ ?_
  rintro rfl
  rcases hd' with hd' | ⟨t, ht, hd'⟩
  · exact hregistered hd'
  · rcases Multiset.mem_cons.mp ht with rfl | ht
    · exact hafter hd'
    · exact hrest (mem_owed.mpr ⟨t, ht, mem_owes_of_unsent hd'⟩)

/-- `join` starts a driver. -/
private theorem Sound.join {sh : Shared} {config config' : Config} {fallback : Option Config}
    {hooked : Bool} {rest : Multiset Task} (h : Sound sh (.join config fallback hooked ::ₘ rest))
    (hid : config'.id = config.id) :
    Sound { sh with
        drivers := sh.drivers ++ [⟨config', false, true⟩]
        networks := sh.networks ++ [(config.id, sh.drivers.length)] }
      (.insert sh.drivers.length hooked ::ₘ rest) := by
  have howed : owed (.join config fallback hooked ::ₘ rest) = owed rest := by simp [Task.owes]
  have hmade : ∀ d ∈ sh.registered.val + owed rest, d < sh.drivers.length := howed ▸ h.made
  have hnew : sh.drivers.length ∉ sh.registered.val + owed rest := fun hmem ↦
    Nat.lt_irrefl _ (hmade _ hmem)
  have hold : ∀ d : Nat, d < sh.drivers.length →
      (sh.drivers ++ [(⟨config', false, true⟩ : Driver)])[d]? = sh.drivers[d]? :=
    fun d hd ↦ List.getElem?_append_left hd
  have hlive : ∀ d, sh.Live d → ∃ driver,
      (sh.drivers ++ [(⟨config', false, true⟩ : Driver)])[d]? = some driver ∧
        driver.running = true ∧ driver.shutdown = false := by
    rintro d ⟨driver, hget, hrun⟩
    have hd := (List.getElem?_eq_some_iff.mp hget).1
    exact ⟨driver, (hold d hd).trans hget, hrun⟩
  have howed' : owed (.insert sh.drivers.length hooked ::ₘ rest) =
      sh.drivers.length ::ₘ owed rest := owed_cons _ _
  refine ⟨?_, ?_, ?_, fun d hd ↦ hlive d (h.live d hd), ?_, ?_, ?_, ?_⟩
  · rw [howed', Multiset.add_cons, Multiset.nodup_cons]
    exact ⟨hnew, howed ▸ h.once⟩
  · rw [howed', Multiset.add_cons, Multiset.map_cons, List.map_append, ← Multiset.coe_add,
      h.listed, howed, add_comm]
    have hself : Shared.configId { sh with
        drivers := sh.drivers ++ [⟨config', false, true⟩]
        networks := sh.networks ++ [(config.id, sh.drivers.length)] } sh.drivers.length =
        some config.id := by
      simp [Shared.configId, hid]
    rw [hself]
    refine congrArg (some config.id ::ₘ ·) (Multiset.map_congr rfl fun d hd ↦ ?_)
    simp only [Shared.configId, hold d (hmade d hd)]
  · intro d hd
    rw [howed', Multiset.add_cons, Multiset.mem_cons] at hd
    simp only [List.length_append, List.length_singleton]
    rcases hd with rfl | hd
    · omega
    · exact Nat.lt_succ_of_lt (hmade d hd)
  · intro t ht d hd
    rcases Multiset.mem_cons.mp ht with rfl | ht
    · cases List.mem_singleton.mp hd
      exact ⟨⟨config', false, true⟩, by simp, rfl, rfl⟩
    · exact hlive d (h.unsent t (Multiset.mem_cons_of_mem ht) d hd)
  · intro d hd
    by_cases hlt : d < sh.drivers.length
    · rw [Shared.running, hold d hlt] at hd
      rcases h.awaited d hd with hlist | ⟨t, ht, hd'⟩
      · exact .inl (by simp [List.mem_map.mp hlist])
      · rcases Multiset.mem_cons.mp ht with rfl | ht
        · cases hd'
        · exact .inr ⟨t, Multiset.mem_cons_of_mem ht, hd'⟩
    · have hd' : d = sh.drivers.length := by
        by_contra hne
        rw [Shared.running, List.getElem?_eq_none (by simp; omega)] at hd
        cases hd
      exact .inl (by simp [hd'])
  · intro d hd d' hd' heq
    simp only [Shared.networkId, hold d (hmade d (Multiset.mem_add.mpr (.inl hd))),
      hold d' (hmade d' (Multiset.mem_add.mpr (.inl hd')))] at heq
    exact h.distinct d hd d' hd' heq
  · intro t ht
    rcases Multiset.mem_cons.mp ht with rfl | ht
    · trivial
    · exact h.found t (Multiset.mem_cons_of_mem ht)

/-- A network goes into the registry where there is room. -/
private theorem Sound.insert {sh : Shared} {d : Nat} {hooked : Bool} {rest : Multiset Task}
    (h : Sound sh (.insert d hooked ::ₘ rest)) {driver : Driver}
    (hget : sh.drivers[d]? = some driver) (hroom : sh.Room driver.config) :
    Sound (sh.insert d driver.config)
      (((if hooked then some (.hook none) else none : Option Task).toList : Multiset Task) +
        rest) := by
  have hnew := (h.not_mem (List.mem_singleton_self d)).1
  have hregistered := registered_insert (d := d) hroom
  have hself : sh.networkId d = some driver.config.networkId := by
    rw [Shared.networkId, hget]
    rfl
  refine h.handOver ?_ ?_ ?_ nofun ?_ ?_
  · have howed : owed ((if hooked then some (.hook none) else none : Option Task).toList :
        Multiset Task) = 0 := by
      cases hooked <;> rfl
    rw [howed, add_zero]
    change (sh.insert d driver.config).registered.val = _
    rw [hregistered, Finset.insert_val_of_notMem hnew]
    exact (add_comm _ _ : {d} + sh.registered.val = sh.registered.val + {d})
  · intro d' hd'
    change d' ∈ (sh.insert d driver.config).registered at hd'
    rw [hregistered, Finset.mem_insert] at hd'
    rcases hd' with rfl | hd'
    · exact h.unsent _ (Multiset.mem_cons_self _ _) d' (List.mem_singleton_self d')
    · exact h.live d' hd'
  · intro t' ht' d' hd'
    cases hooked with
    | true =>
      cases ht'
      cases hd'
    | false => cases ht'
  · intro d₁ h₁ d₂ h₂ heq
    change d₁ ∈ (sh.insert d driver.config).registered at h₁
    change d₂ ∈ (sh.insert d driver.config).registered at h₂
    rw [hregistered, Finset.mem_insert] at h₁ h₂
    rcases h₁ with rfl | h₁
    · rcases h₂ with rfl | h₂
      · rfl
      · exact absurd (heq.symm.trans hself) (hroom.1 d₂ h₂)
    · rcases h₂ with rfl | h₂
      · exact absurd (heq.trans hself) (hroom.1 d₁ h₁)
      · exact h.distinct d₁ h₁ d₂ h₂ heq
  · intro t' ht'
    cases hooked with
    | true =>
      cases ht'
      trivial
    | false => cases ht'

/-- A network is taken out of the registry by the keys that lead to it. -/
private theorem Sound.takeKeys {sh : Shared} {d : Nat} {keys : List String} {after : After}
    {rest : Multiset Task} (h : Sound sh (.takeKeys d keys after ::ₘ rest))
    (hkeys : sh.keysOf d = keys) :
    Sound (sh.takeKeys keys) (.unwrapEntry d after ::ₘ rest) := by
  have hregistered := registered_takeKeys hkeys
  have hmem : d ∈ sh.registered := by
    obtain ⟨key, hkey⟩ := List.exists_mem_of_ne_nil _ (h.found _ (Multiset.mem_cons_self _ _))
    exact Shared.mem_registered.mpr ⟨key, Shared.mem_keysOf.mp (hkeys ▸ hkey)⟩
  have hsub : ∀ d' ∈ (sh.takeKeys keys).registered, d' ∈ sh.registered := by
    intro d' hd'
    rw [hregistered] at hd'
    exact Finset.mem_of_mem_erase hd'
  change Sound _ (((some (.unwrapEntry d after) : Option Task).toList : Multiset Task) + rest)
  refine h.handOver ?_ ?_ ?_ nofun ?_ ?_
  · have hsingle : owed ((some (.unwrapEntry d after) : Option Task).toList : Multiset Task) =
        d ::ₘ (after.owes : Multiset Nat) := Multiset.singleton_bind _ _
    change (sh.takeKeys keys).registered.val + _ = sh.registered.val + (after.owes : Multiset Nat)
    rw [hsingle, hregistered, Finset.erase_val, Multiset.add_cons, ← Multiset.cons_add,
      Multiset.cons_erase hmem]
  · exact fun d' hd' ↦ h.live d' (hsub d' hd')
  · intro t' ht' d' hd'
    cases ht'
    rcases List.mem_cons.mp hd' with rfl | hd'
    · exact h.live d' hmem
    · exact h.unsent _ (Multiset.mem_cons_self _ _) d' hd'
  · exact fun d₁ h₁ d₂ h₂ ↦ h.distinct d₁ (hsub d₁ h₁) d₂ (hsub d₂ h₂)
  · intro t' ht'
    cases ht'
    trivial

/-- `take_all` empties the registry. -/
private theorem Sound.takeAll {sh : Shared} {rest : Multiset Task}
    (h : Sound sh (.takeAll ::ₘ rest)) :
    Sound { sh with registry := ∅ }
      (((After.takeRest (sh.registry.entries.map (·.2)).dedup []).resume.toList : Multiset Task) +
        rest) := by
  have howes : (After.takeRest (sh.registry.entries.map (·.2)).dedup []).owes =
      (sh.registry.entries.map (·.2)).dedup := List.append_nil _
  have hempty : Shared.registered { sh with registry := ∅ } = ∅ := rfl
  obtain ⟨t, hsome, howes', hunsent, hfound⟩ :
      ∃ t, (After.takeRest (sh.registry.entries.map (·.2)).dedup []).resume = some t ∧
        t.owes = (sh.registry.entries.map (·.2)).dedup ∧
        t.unsent = (sh.registry.entries.map (·.2)).dedup ∧ t.Found := by
    rcases resume_cases (.takeRest (sh.registry.entries.map (·.2)).dedup []) with
      ⟨hnone, -⟩ | ht
    · cases hdedup : (sh.registry.entries.map (·.2)).dedup with
      | nil =>
        rw [hdedup] at hnone
        cases hnone
      | cons d entries =>
        rw [hdedup] at hnone
        cases hnone
    · rwa [howes] at ht
  rw [hsome]
  refine h.handOver ?_ ?_ ?_ nofun ?_ ?_
  · rw [hempty]
    have hsingle : owed ((some t).toList : Multiset Task) = (t.owes : Multiset Nat) :=
      Multiset.singleton_bind _ _
    rw [hsingle, howes']
    simp [Task.owes, Shared.registered, List.toFinset_val]
  · intro d hd
    rw [hempty] at hd
    cases hd
  · intro t' ht' d hd
    cases ht'
    rw [hunsent, List.mem_dedup, ← List.mem_toFinset] at hd
    exact h.live d hd
  · intro d hd
    rw [hempty] at hd
    cases hd
  · intro t' ht'
    cases ht'
    exact hfound

/-- `leave` finds an entry of the mesh's list under its config id, and awaits that driver. -/
private theorem Sound.takeDriver {sh : Shared} {d : Nat} {after : After} {rest : Multiset Task}
    (h : Sound sh (.takeDriver d after ::ₘ rest)) :
    ∃ n, sh.networks.find? (fun n ↦ some n.1 = sh.configId d) = some n ∧
      Sound { sh with networks := sh.networks.erase n } (.awaitDriver d n.2 after ::ₘ rest) := by
  have hsplit : sh.registered.val + owed (.takeDriver d after ::ₘ rest) =
      d ::ₘ (sh.registered.val + owed (.awaitDriver d d after ::ₘ rest)) := by
    rw [owed_cons, owed_cons, ← Multiset.add_cons, ← Multiset.cons_add]
    rfl
  have hlisted := h.listed
  rw [hsplit, Multiset.map_cons] at hlisted
  obtain ⟨n, hfind⟩ : ∃ n, sh.networks.find? (fun n ↦ some n.1 = sh.configId d) = some n := by
    have hmem : sh.configId d ∈ sh.networks.map fun n ↦ some n.1 := by
      rw [← Multiset.mem_coe, hlisted]
      exact Multiset.mem_cons_self _ _
    obtain ⟨n, hn, heq⟩ := List.mem_map.mp hmem
    rw [← Option.isSome_iff_exists, List.find?_isSome]
    exact ⟨n, hn, decide_eq_true heq⟩
  have hn : n ∈ sh.networks := List.mem_of_find?_eq_some hfind
  have hid : some n.1 = sh.configId d := by simpa using List.find?_some hfind
  refine ⟨n, hfind, ?_⟩
  have howed : owed (.awaitDriver d n.2 after ::ₘ rest) =
      owed (.awaitDriver d d after ::ₘ rest) := by
    rw [owed_cons, owed_cons]
    rfl
  refine ⟨?_, ?_, ?_, h.live, ?_, ?_, h.distinct, ?_⟩
  · have honce := h.once
    rw [hsplit, Multiset.nodup_cons] at honce
    rw [howed]
    exact honce.2
  · have hperm := (List.perm_cons_erase hn).map fun n ↦ some n.1
    rw [← Multiset.coe_eq_coe, hlisted, List.map_cons, ← Multiset.cons_coe, hid,
      Multiset.cons_inj_right] at hperm
    rw [howed]
    exact hperm.symm
  · intro d' hd'
    rw [howed] at hd'
    exact h.made d' (hsplit ▸ Multiset.mem_cons_of_mem hd')
  · intro t ht d' hd'
    rcases Multiset.mem_cons.mp ht with rfl | ht
    · exact h.unsent _ (Multiset.mem_cons_self _ _) d' hd'
    · exact h.unsent t (Multiset.mem_cons_of_mem ht) d' hd'
  · intro d' hd'
    rcases h.awaited d' hd' with hlist | ⟨t, ht, hmem⟩
    · obtain ⟨m, hm, rfl⟩ := List.mem_map.mp hlist
      by_cases heq : m = n
      · subst heq
        exact .inr ⟨_, Multiset.mem_cons_self _ _, List.mem_singleton_self _⟩
      · exact .inl (List.mem_map_of_mem ((List.mem_erase_of_ne heq).mpr hm))
    · rcases Multiset.mem_cons.mp ht with rfl | ht
      · cases hmem
      · exact .inr ⟨t, Multiset.mem_cons_of_mem ht, hmem⟩
  · intro t ht
    rcases Multiset.mem_cons.mp ht with rfl | ht
    · trivial
    · exact h.found t (Multiset.mem_cons_of_mem ht)

/-! ### Runs -/

/-- Nothing stands in the way of a request's next step: there is room for the network it inserts,
the keys it takes out are still those of the network it found, and nobody else holds the entry or
the handle it unwraps. -/
def Clear (sh : Shared) (others : List Task) : Task → Prop
  | .insert d _ => ∀ driver ∈ sh.drivers[d]?, sh.Room driver.config
  | .takeKeys d keys _ => sh.keysOf d = keys
  | .unwrapEntry d _ => d ∉ sh.registered ∧ ∀ t ∈ others, d ∉ t.entries
  | .unwrapJoined d _ => ∀ t ∈ others, d ∉ t.handles
  | _ => True

instance (sh : Shared) (others : List Task) : DecidablePred (Clear sh others)
  | .insert d _ => inferInstanceAs (Decidable (∀ driver ∈ sh.drivers[d]?, sh.Room driver.config))
  | .takeKeys d keys _ => inferInstanceAs (Decidable (sh.keysOf d = keys))
  | .unwrapEntry d _ =>
    inferInstanceAs (Decidable (d ∉ sh.registered ∧ ∀ t ∈ others, d ∉ t.entries))
  | .unwrapJoined d _ => inferInstanceAs (Decidable (∀ t ∈ others, d ∉ t.handles))
  | .checkId _ _ | .checkNetworkId _ _ | .join _ _ _ | .hook _ | .announce _ _ |
    .announcing _ _ _ | .find _ _ | .shutdown _ _ | .takeDriver _ _ | .awaitDriver _ _ _ |
    .update _ | .updateByNetworkId _ | .compare _ _ | .get _ | .use _ | .takeAll => .isTrue trivial

/-- A step of a request with nothing in its way. -/
private theorem Sound.advance {sh : Shared} {others : List Task} {t : Task} (env : Env)
    (h : Sound sh (t ::ₘ (others : Multiset Task))) (hclear : Clear sh others t) :
    Sound (advance lowercase sh others env t).1
      (((advance lowercase sh others env t).2.toList : Multiset Task) +
        (others : Multiset Task)) := by
  cases t with
  | checkId config hooked =>
    simp only [Daemon.advance]
    split
    · exact h.goOn (GoesOn.none rfl nofun)
    · exact h.goOn (GoesOn.some rfl nofun nofun trivial)
  | checkNetworkId config hooked =>
    simp only [Daemon.advance]
    split
    · exact h.goOn (GoesOn.none rfl nofun)
    · exact h.goOn (GoesOn.some rfl nofun nofun trivial)
  | join config fallback hooked =>
    simp only [Daemon.advance]
    split
    · exact h.join rfl
    · cases fallback with
      | some old => exact h.goOn (GoesOn.some rfl nofun nofun trivial)
      | none => exact h.goOn (GoesOn.none rfl nofun)
  | insert d hooked =>
    have hlive := h.unsent _ (Multiset.mem_cons_self _ _) d (List.mem_singleton_self d)
    obtain ⟨driver, hget, -⟩ := hlive
    simp only [Daemon.advance, hget]
    exact h.insert hget (hclear driver hget)
  | hook borrowed =>
    cases borrowed with
    | some d => exact h.goOn (GoesOn.some rfl nofun nofun trivial)
    | none =>
      simp only [Daemon.advance]
      split
      · exact h.goOn (GoesOn.none rfl nofun)
      · exact h.goOn (GoesOn.some rfl nofun nofun trivial)
  | announce key after =>
    simp only [Daemon.advance]
    split
    · exact h.goOn (GoesOn.some rfl (fun _ hd ↦ hd) nofun trivial)
    · exact h.goOn (GoesOn.some rfl (fun _ hd ↦ hd) nofun trivial)
  | announcing d key after => exact h.goOn (GoesOn.some rfl (fun _ hd ↦ hd) nofun trivial)
  | find key after =>
    simp only [Daemon.advance]
    split
    · next d hkey =>
      refine h.goOn (GoesOn.some rfl (fun _ hd ↦ hd) nofun ?_)
      exact List.ne_nil_of_mem (Shared.mem_keysOf.mpr hkey)
    · exact h.goOn (GoesOn.resume rfl (fun _ hd ↦ hd) nofun)
  | takeKeys d keys after => exact h.takeKeys hclear
  | unwrapEntry d after =>
    have hfree : d ∉ sh.registered ∧ ∀ t ∈ others, d ∉ t.entries := hclear
    rw [Daemon.advance, if_pos hfree]
    exact h.goOn (GoesOn.some rfl (fun _ hd ↦ hd) nofun trivial)
  | unwrapJoined d after =>
    have hfree : ∀ t ∈ others, d ∉ t.handles := hclear
    rw [Daemon.advance, if_pos hfree]
    exact h.goOn (GoesOn.removed sh d after)
  | shutdown d after => exact h.sendShutdown
  | takeDriver d after =>
    obtain ⟨n, hfind, hsound⟩ := h.takeDriver
    simp only [Daemon.advance, hfind]
    exact hsound
  | awaitDriver d awaited after =>
    simp only [Daemon.advance]
    split
    · exact h.goOn (GoesOn.some rfl (fun _ hd ↦ hd) (fun _ hd _ ↦ hd) trivial)
    · next hstopped =>
      refine h.goOn (GoesOn.resume rfl (fun _ hd ↦ hd) fun d' hd' ↦ ?_)
      cases List.mem_singleton.mp hd'
      exact Bool.eq_false_iff.mpr hstopped
  | update config =>
    simp only [Daemon.advance]
    split
    · exact h.goOn (GoesOn.some rfl nofun nofun trivial)
    · exact h.goOn (GoesOn.some rfl nofun nofun trivial)
  | updateByNetworkId config =>
    simp only [Daemon.advance]
    split
    · exact h.goOn (GoesOn.some rfl nofun nofun trivial)
    · exact h.goOn (GoesOn.none rfl nofun)
  | compare d config =>
    simp only [Daemon.advance]
    split
    · split
      · exact h.goOn (GoesOn.some rfl nofun nofun trivial)
      · exact h.goOn (GoesOn.none rfl nofun)
    · exact h.goOn (GoesOn.none rfl nofun)
  | get key =>
    simp only [Daemon.advance]
    split
    · exact h.goOn (GoesOn.some rfl nofun nofun trivial)
    · exact h.goOn (GoesOn.none rfl nofun)
  | use d => exact h.goOn (GoesOn.none rfl nofun)
  | takeAll => exact h.takeAll

variable {lowercase}

/-- The request that takes a step has nothing in its way. -/
def Clean (s : State) : Op → Prop
  | .advance i _ => ∀ t ∈ s.tasks[i]?, Clear s.shared (s.tasks.eraseIdx i) t
  | _ => True

instance (s : State) : DecidablePred (Clean s)
  | .advance i _ =>
    inferInstanceAs (Decidable (∀ t ∈ s.tasks[i]?, Clear s.shared (s.tasks.eraseIdx i) t))
  | .request _ | .recv _ | .close _ => .isTrue trivial

/-- The driver's own state keeps a sender: the channel of a running driver is never closed. -/
theorem State.senders_pos {s : State} {d : Nat} (h : s.shared.running d = true) :
    0 < s.senders d := by
  rw [State.senders, if_pos h]
  omega

/-- A request arrives that owes nothing. -/
private theorem Sound.arrive {sh : Shared} {tasks : Multiset Task} (h : Sound sh tasks) {t : Task}
    (howes : t.owes = []) (hfound : t.Found) : Sound sh (t ::ₘ tasks) := by
  have howed : owed (t ::ₘ tasks) = owed tasks := by
    rw [owed_cons, howes]
    exact zero_add _
  refine ⟨howed ▸ h.once, howed ▸ h.listed, howed ▸ h.made, h.live, ?_, ?_, h.distinct, ?_⟩
  · intro t' ht' d hd
    rcases Multiset.mem_cons.mp ht' with rfl | ht'
    · have hd' := mem_owes_of_unsent hd
      rw [howes] at hd'
      cases hd'
    · exact h.unsent t' ht' d hd
  · intro d hd
    rcases h.awaited d hd with hlist | ⟨t', ht', hd'⟩
    · exact .inl hlist
    · exact .inr ⟨t', Multiset.mem_cons_of_mem ht', hd'⟩
  · intro t' ht'
    rcases Multiset.mem_cons.mp ht' with rfl | ht'
    · exact hfound
    · exact h.found t' ht'

/-- A clean step keeps the daemon sound. -/
theorem Sound.step {s : State} (h : Sound s.shared s.tasks) {o : Op} (hclean : Clean s o) :
    Sound (step lowercase s o).shared (step lowercase s o).tasks := by
  cases o with
  | request r =>
    have hsound : Sound s.shared (r.task ::ₘ (s.tasks : Multiset Task)) := by
      cases r <;> exact h.arrive rfl trivial
    have htasks : ((s.tasks ++ [r.task] : List Task) : Multiset Task) = r.task ::ₘ s.tasks :=
      Multiset.coe_eq_coe.mpr (List.perm_append_singleton _ _)
    rw [← htasks] at hsound
    exact hsound
  | advance i env =>
    simp only [Daemon.step]
    split
    · exact h
    · next t ht =>
      obtain ⟨hi, rfl⟩ := List.getElem?_eq_some_iff.mp ht
      have htasks : (s.tasks : Multiset Task) = s.tasks[i] ::ₘ (s.tasks.eraseIdx i) :=
        Multiset.coe_eq_coe.mpr (List.getElem_cons_eraseIdx_perm hi).symm
      rw [htasks] at h
      have hsound := h.advance lowercase env (hclean _ ht)
      have hnext : ∀ next : Option Task,
          ((s.tasks.take i ++ next.toList ++ s.tasks.drop (i + 1) : List Task) : Multiset Task) =
            next.toList + (s.tasks.eraseIdx i : Multiset Task) := by
        intro next
        rw [List.eraseIdx_eq_take_drop_succ, Multiset.coe_add, Multiset.coe_eq_coe]
        rw [List.append_assoc]
        exact List.perm_append_comm_assoc _ _ _
      rw [← hnext] at hsound
      exact hsound
  | recv d =>
    simp only [Daemon.step]
    split
    · next hsent =>
      refine h.stop ?_
      rintro ⟨driver, hget, -, hunsent⟩
      rw [hget, Option.any_some, hunsent] at hsent
      cases hsent
    · exact h
  | close d =>
    simp only [Daemon.step]
    split
    · next hclosed =>
      refine h.stop ?_
      rintro ⟨driver, hget, hrun, -⟩
      have hrunning : s.shared.running d = true := by
        rw [Shared.running, hget, Option.any_some, hrun]
      exact absurd hclosed (Nat.ne_of_gt (State.senders_pos hrunning))
    · exact h

theorem sound_start : Sound State.start.shared State.start.tasks where
  once := Multiset.nodup_zero
  listed := rfl
  made := nofun
  live := nofun
  unsent := nofun
  awaited d hd := by cases hd
  distinct := nofun
  found := nofun

/-- Where no request is in flight, the drivers that run are those of the registry. -/
theorem Sound.running_iff {sh : Shared} (h : Sound sh 0) (d : Nat) :
    sh.running d = true ↔ d ∈ sh.registered := by
  have hrunning : ∀ d ∈ sh.registered, sh.running d = true := by
    intro d hd
    obtain ⟨driver, hget, hrun, -⟩ := h.live d hd
    rw [Shared.running, hget, Option.any_some, hrun]
  have hlisted : ∀ d, sh.running d = true → d ∈ sh.networks.map (·.2) := by
    intro d hd
    rcases h.awaited d hd with hlist | ⟨t, ht, -⟩
    · exact hlist
    · cases ht
  refine ⟨fun hd ↦ ?_, hrunning d⟩
  -- every registered network is in the mesh's list, which is no longer than the registry
  have hle : sh.registered.val ≤ (sh.networks.map (·.2) : Multiset Nat) :=
    (Multiset.le_iff_subset sh.registered.nodup).mpr fun d hd ↦ hlisted d (hrunning d hd)
  have hcard : Multiset.card (sh.networks.map (·.2) : Multiset Nat) ≤
      Multiset.card sh.registered.val := by
    have hlen := congrArg Multiset.card h.listed
    rw [owed_zero, add_zero, Multiset.card_map] at hlen
    simp only [Multiset.coe_card, List.length_map] at hlen ⊢
    exact hlen.le
  have heq := Multiset.eq_of_le_of_card_le hle hcard
  have hmem : d ∈ (sh.networks.map (·.2) : Multiset Nat) := hlisted d hd
  rwa [← heq] at hmem

/-- No ghost engines: in every run in which no step of a request has anything in its way, whenever
no request is in flight the drivers that run are exactly those of the networks in the registry, and
no two of them run for one network. -/
theorem no_ghost_engines {ops : List Op} (hclean : AllSteps (step lowercase) Clean .start ops) :
    ∀ pre post, ops = pre ++ post → (run (step lowercase) .start pre).tasks = [] →
      (∀ d, (run (step lowercase) .start pre).shared.running d = true ↔
        d ∈ (run (step lowercase) .start pre).shared.registered) ∧
      ∀ d d', (run (step lowercase) .start pre).shared.running d = true →
        (run (step lowercase) .start pre).shared.running d' = true →
        (run (step lowercase) .start pre).shared.networkId d =
          (run (step lowercase) .start pre).shared.networkId d' → d = d' := by
  intro pre post hops hidle
  have hsound : Sound (run (step lowercase) .start pre).shared
      (run (step lowercase) .start pre).tasks :=
    forall_run_of_allSteps (I := fun s ↦ Sound s.shared s.tasks)
      (fun s o hs hc ↦ hs.step hc) sound_start hclean pre post hops
  rw [hidle] at hsound
  have hiff := hsound.running_iff
  refine ⟨hiff, fun d d' hd hd' heq ↦ ?_⟩
  exact hsound.distinct d ((hiff d).mp hd) d' ((hiff d').mp hd') heq

/-- The steps of a request that goes on without others: its task is the first one. -/
def steps (n : Nat) : List Op := .replicate n (.advance 0 ⟨true, none⟩)

/-- A network is joined. -/
def joinHome : List Op :=
  .request (.networkAdd ⟨"net_1", "home", "nostr"⟩) :: steps 5

/-- A network is joined, its signaling is changed, and it is removed: both drivers have stopped. -/
theorem updated_and_removed_stopped :
    let ops := joinHome ++ .request (.networkUpdate ⟨"net_1", "home", "mdns"⟩) :: steps 9 ++
      .recv 0 :: steps 4 ++ .request (.networkRemove "home") :: steps 8 ++ .recv 1 :: steps 1
    let s := run (step id) .start ops
    s.tasks = [] ∧ s.shared.drivers.length = 2 ∧ s.shared.registered = ∅ ∧
      ∀ d, s.shared.running d = true ↔ d ∈ s.shared.registered := by
  intro ops s
  have hclean : AllSteps (step id) Clean .start ops := by decide +kernel
  have hidle : s.tasks = [] := by decide +kernel
  refine ⟨hidle, by decide +kernel, by decide +kernel, ?_⟩
  exact (no_ghost_engines hclean ops [] (List.append_nil ops).symm hidle).1

/-- Another request holds the handle while the network is removed: once both are answered the
registry is empty and the driver still runs. -/
theorem borrowed_driver_never_stops :
    let ops := joinHome ++ .request (.other "home") :: steps 1 ++
      .request (.networkRemove "home") :: .replicate 6 (.advance 1 ⟨true, none⟩) ++
      steps 1 ++ [.recv 0, .close 0]
    let s := run (step id) .start ops
    s.tasks = [] ∧ s.shared.registered = ∅ ∧ s.shared.running 0 = true := by
  decide +kernel

end MyOwnMesh.Daemon
