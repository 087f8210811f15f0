import MyOwnMesh.Services.Manager

/-!
# Hosted services follow the configuration

The listeners are stopped and started one service after the other, so `apply` leaves what it would
start on a fresh manager if no listener needs a socket that another one, or the task of one that was
stopped, still holds at its turn. A forwarder of a network that has left is dropped by the request
that took it out, and a network without one gets it from the request that joined it; so when no
request is in progress, each joined network has its forwarder and no other one is there, if no
request goes wrong in one of the ways that `Sane` names.
-/

namespace MyOwnMesh.Services

open Lib Lib.Replay
open Daemon (Config Driver Shared requiresRestart)

/-! ### Listeners -/

section Listeners

variable {g : Listeners} {config desired : ServicesConfig} {closing : List Socket}

def settledStun (c : ServicesConfig) : Option StunServiceConfig :=
  if c.runStandaloneStun then some c.stun else none

def settledTurn (c : ServicesConfig) : Option TurnServiceConfig :=
  if c.turn.enabled then some c.turn else none

/-- The sockets of the TURN server of a configuration. -/
def turnSockets (c : ServicesConfig) : List Socket := (settledTurn c).elim [] (·.sockets)

def settledSignaling (c : ServicesConfig) : Option SignalingServerConfig :=
  if c.signaling.enabled = true ∧ Binds (turnSockets c) c.signaling.sockets then some c.signaling
  else none

/-- The listeners of a configuration. -/
def settled (c : ServicesConfig) : Listeners := ⟨settledStun c, settledTurn c, settledSignaling c⟩

/-- The listeners that run while `apply` is where it is: those of the configuration before, or of
the one that is applied for the services it has dealt with. A signaling server that still runs does
not keep the TURN server from its sockets. -/
def Standing (config : ServicesConfig) (g : Listeners) : Option Phase → Prop
  | some (.startStun desired) =>
    desired.runStandaloneStun = true ∧ g = { settled config with stun := none }
  | some (.turn desired) => g = { settled config with stun := settledStun desired }
  | some (.startTurn desired) => desired.turn.enabled = true ∧
    g = ⟨settledStun desired, none, settledSignaling config⟩
  | some (.signaling desired) => g = { settled desired with signaling := settledSignaling config } ∧
    ∀ s ∈ settledSignaling config, Binds (turnSockets desired) s.sockets
  | some (.startSignaling desired) => desired.signaling.enabled = true ∧
    g = { settled desired with signaling := none }
  | some (.relays desired) | some (.relay desired _) => g = settled desired
  | _ => g = settled config

theorem Binds.symm {held sockets : List Socket} (h : Binds held sockets) : Binds sockets held := by
  intro s hs
  by_cases hmem : s ∈ sockets
  · exact .inl ((h s hmem).resolve_right (not_not.mpr hs))
  · exact .inr hmem

theorem binds_append {held held' sockets : List Socket} :
    Binds (held ++ held') sockets ↔ Binds held sockets ∧ Binds held' sockets := by
  constructor
  · intro h
    refine ⟨fun s hs ↦ (h s hs).imp_right fun hnot hmem ↦ hnot (List.mem_append_left _ hmem),
      fun s hs ↦ (h s hs).imp_right fun hnot hmem ↦ hnot (List.mem_append_right _ hmem)⟩
  · rintro ⟨h, h'⟩ s hs
    rcases h s hs with hport | hnot
    · exact .inl hport
    · refine (h' s hs).imp_right fun hnot' hmem ↦ ?_
      exact (List.mem_append.mp hmem).elim hnot hnot'

@[simp] theorem binds_nil (sockets : List Socket) : Binds [] sockets :=
  fun _ _ ↦ .inr List.not_mem_nil

/-- STUN and signaling need sockets of different transports. -/
theorem binds_signaling_stun (signaling : Option SignalingServerConfig) (stun : StunServiceConfig) :
    Binds (signaling.elim [] (·.sockets)) stun.sockets := by
  cases signaling with
  | none => exact binds_nil _
  | some signaling =>
    intro s hs
    obtain rfl := List.mem_singleton.mp hs
    refine .inr fun hmem ↦ ?_
    cases List.mem_singleton.mp hmem

theorem binds_stun_signaling (stun : Option StunServiceConfig) (signaling : SignalingServerConfig) :
    Binds (stun.elim [] (·.sockets)) signaling.sockets := by
  cases stun with
  | none => exact binds_nil _
  | some stun => exact (binds_signaling_stun (some signaling) stun).symm

theorem settledStun_of_turn (h : desired.turn.enabled = true) : settledStun desired = none := by
  simp [settledStun, ServicesConfig.runStandaloneStun, h]

/-- A signaling server that is left alone is that of the new configuration. -/
theorem settledSignaling_of_kept
    (hsome : (settledSignaling config).isSome = desired.signaling.enabled)
    (hsame : config.signaling = desired.signaling)
    (hbinds : ∀ s ∈ settledSignaling config, Binds (turnSockets desired) s.sockets) :
    settledSignaling config = settledSignaling desired := by
  cases hold : settledSignaling config with
  | none =>
    rw [hold, Option.isSome_none] at hsome
    rw [settledSignaling, if_neg]
    rintro ⟨hon, -⟩
    rw [hon] at hsome
    cases hsome
  | some s =>
    have hs : s = desired.signaling := by
      rw [settledSignaling] at hold
      split at hold
      · exact (Option.some.inj hold).symm.trans hsame
      · cases hold
    subst hs
    rw [hold, Option.isSome_some] at hsome
    exact (if_pos ⟨hsome.symm, hbinds _ hold⟩).symm

/-- A manager that was just made, with these listeners. -/
private def started (g : Listeners) : Manager := { Manager.start with listeners := g }

private theorem serve_stun (desired : ServicesConfig) :
    (if Manager.start.listeners.RestartsStun Manager.start.config desired then
      if desired.runStandaloneStun then Manager.start.stopStun.startStun desired.stun
      else Manager.start.stopStun
    else Manager.start) = started { stun := settledStun desired } := by
  cases hrun : desired.runStandaloneStun with
  | false => simp [started, Manager.start, Manager.stopStun, settledStun, hrun]
  | true =>
    simp [started, Manager.start, Listeners.RestartsStun, Manager.startStun, Manager.stopStun,
      Listeners.held, settledStun, hrun]

private theorem serve_turn (desired : ServicesConfig) :
    let m := started { stun := settledStun desired }
    (if m.listeners.RestartsTurn m.config desired then
      if desired.turn.enabled then m.stopTurn.startTurn desired.turn else m.stopTurn
    else m) = started { stun := settledStun desired, turn := settledTurn desired } := by
  cases hrun : desired.turn.enabled with
  | false => simp [started, Manager.stopTurn, settledTurn, hrun]
  | true =>
    simp [started, Manager.start, Listeners.RestartsTurn, Manager.startTurn, Manager.stopTurn,
      Listeners.held, settledTurn, settledStun_of_turn hrun, hrun]

private theorem serve_signaling (desired : ServicesConfig) :
    let m := started { stun := settledStun desired, turn := settledTurn desired }
    (if m.listeners.RestartsSignaling m.config desired then
      if desired.signaling.enabled then m.stopSignaling.startSignaling desired.signaling
      else m.stopSignaling
    else m) = started (settled desired) := by
  have hstun := binds_stun_signaling (settledStun desired) desired.signaling
  cases hrun : desired.signaling.enabled with
  | false => simp [started, Manager.start, Manager.stopSignaling, settled, settledSignaling, hrun]
  | true =>
    have hiff : Binds ((settledStun desired).elim [] (·.sockets) ++
        (settledTurn desired).elim [] (·.sockets)) desired.signaling.sockets ↔
        Binds (turnSockets desired) desired.signaling.sockets :=
      binds_append.trans (and_iff_right hstun)
    by_cases hbinds : Binds (turnSockets desired) desired.signaling.sockets
    · simp [started, Manager.start, Listeners.RestartsSignaling, Manager.startSignaling,
        Manager.stopSignaling, Listeners.held, settled, settledSignaling, hrun, hiff, hbinds]
    · simp [started, Manager.start, Listeners.RestartsSignaling, Manager.startSignaling,
        Manager.stopSignaling, Listeners.held, settled, settledSignaling, hrun, hiff, hbinds]

theorem freshListeners_eq (desired : ServicesConfig) :
    freshListeners desired = settled desired := by
  simp only [freshListeners, Manager.serve]
  rw [serve_stun, serve_turn, serve_signaling]
  rfl

end Listeners

/-! ### Forwarders -/

section Forwarders

variable {lowercase : String → String} {m : Manager} {sh sh' : Shared} {O : Set Task} {t : Task}
  {k key : String} {d : Nat} {env : Env}

/-- The network with this config id is the one that the registry has under it. -/
def Current (sh : Shared) (k : String) (d : Nat) : Prop :=
  sh.registry.lookup k = some d ∧ sh.configId d = some k

instance (sh : Shared) (k : String) (d : Nat) : Decidable (Current sh k d) :=
  inferInstanceAs (Decidable (_ ∧ _))

theorem Current.eq {d' : Nat} (h : Current sh k d) (h' : Current sh k d') : d = d' :=
  Option.some.inj (h.1.symm.trans h'.1)

/-- The forwarder that a request has yet to drop. -/
def Task.drops : Task → Option String
  | .rejoin config _ => some config.id
  | .insert _ key true => some key
  | .removed key _ => some key
  | _ => none

/-- The network that a request has yet to announce to the manager. -/
def Task.adds : Task → Option String
  | .removed key true => some key
  | .added key => some key
  | _ => none

/-- The networks that `apply` has yet to start a forwarder for. -/
def Phase.Relays : Phase → String → Prop
  | .relay _ todo, k => k ∈ todo
  | _, _ => True

/-- A request calls the manager under the config id of the network it joins. -/
def Task.Fits (sh : Shared) : Task → Prop
  | .join config key => config.id = key
  | .insert d key _ => sh.configId d = some key
  | _ => True

/-- Relay hosting is on, or is being switched on. -/
def Manager.Hosting (m : Manager) : Prop :=
  m.config.relay.enabled = true ∨ ∃ desired todo, m.applying = some (.relay desired todo)

/-- What holds at any time, with these requests in flight: the forwarder of a network that is not
current has yet to be dropped, a current network without one has yet to get it, each network in the
registry is current, and the listeners are those that `apply` has got to. -/
structure Sound (m : Manager) (T : Set Task) : Prop where
  stale : ∀ k, ∀ d ∈ m.relays.lookup k, Current m.shared k d ∨ ∃ t ∈ T, k ∈ t.drops
  missing : m.Hosting → ∀ k d, Current m.shared k d → (m.relays.lookup k).isSome ∨
    (∃ t ∈ T, k ∈ t.adds) ∨ ∃ p ∈ m.applying, p.Relays k
  named : ∀ k d, m.shared.registry.lookup k = some d → ∃ c, Current m.shared c d
  fits : ∀ t ∈ T, t.Fits m.shared
  listeners : Standing m.config m.listeners m.applying

/-! ### The conditions -/

/-- No network of the registry is current under the config id of the one that is put in. -/
def InsertSane (sh : Shared) (d : Nat) : Prop :=
  ∀ k ∈ sh.configId d, ∀ d' ∈ sh.registry.lookup k, sh.configId d' ≠ some k

/-- The keys that were found are those of the network still. -/
def TakeSane (sh : Shared) (d : Nat) (keys : List String) : Prop :=
  ∀ e ∈ sh.registry.entries, e.1 ∈ keys ↔ e.2 = d

/-- The forwarder of the network, if it has one, is under this key. -/
def DropSane (m : Manager) (d : Nat) (key : String) : Prop :=
  ∀ k ∈ m.shared.configId d, k = key ∨ m.relays.lookup k = none

/-- What the registry has under a config id is the network with that config id. -/
def GetSane (sh : Shared) (key : String) : Prop :=
  ∀ d ∈ sh.registry.lookup key, sh.configId d = some key

/-- A step of a request does not go wrong, with the others in flight. -/
def TaskSane (lowercase : String → String) (m : Manager) (others : List Task) (env : Env) :
    Task → Prop
  | .insert d _ _ => InsertSane m.shared d
  | .takeKeys d keys key =>
    TakeSane m.shared d keys ∧ (env.borrowed = true → DropSane m d key)
  | .takeOld d keys config _ => TakeSane m.shared d keys ∧ DropSane m d config.id
  | .rejoin config old => spawn lowercase m.shared config env = none →
    m.relays.lookup config.id = none ∧ old.id = config.id
  | .removed key false => m.applying = none →
    (∀ d ∈ m.shared.registry.lookup key, m.shared.configId d ≠ some key) ∨
      ∃ t ∈ others, key ∈ t.adds
  | .added key => m.applying = none → m.config.relay.enabled = true →
    m.relays.lookup key = none → GetSane m.shared key
  | _ => True

/-- A step of `apply` does not go wrong: what it starts needs no socket of a listener that is yet to
be stopped, or of one that was stopped and whose task is still there. -/
def PhaseSane (m : Manager) : Phase → Prop
  | .insert _ d _ => InsertSane m.shared d
  | .startStun desired =>
    Binds (m.listeners.turn.elim [] (·.sockets) ++ m.closing) desired.stun.sockets
  | .startTurn desired =>
    Binds (m.listeners.signaling.elim [] (·.sockets) ++ m.closing) desired.turn.sockets
  | .startSignaling desired =>
    Binds (m.listeners.turn.elim [] (·.sockets)) desired.signaling.sockets →
      Binds m.closing desired.signaling.sockets
  | .relay _ (key :: _) => GetSane m.shared key
  | _ => True

instance (sh : Shared) (d : Nat) : Decidable (InsertSane sh d) :=
  inferInstanceAs (Decidable (∀ k ∈ sh.configId d, _))

instance (sh : Shared) (d : Nat) (keys : List String) : Decidable (TakeSane sh d keys) :=
  inferInstanceAs (Decidable (∀ e ∈ sh.registry.entries, _))

instance (m : Manager) (d : Nat) (key : String) : Decidable (DropSane m d key) :=
  inferInstanceAs (Decidable (∀ k ∈ m.shared.configId d, _))

instance (sh : Shared) (key : String) : Decidable (GetSane sh key) :=
  inferInstanceAs (Decidable (∀ d ∈ sh.registry.lookup key, _))

instance decidableTaskSane (lowercase : String → String) (m : Manager) (others : List Task)
    (env : Env) : (t : Task) → Decidable (TaskSane lowercase m others env t)
  | .insert d _ _ => inferInstanceAs (Decidable (InsertSane m.shared d))
  | .takeKeys d keys key => inferInstanceAs (Decidable
      (TakeSane m.shared d keys ∧ (env.borrowed = true → DropSane m d key)))
  | .takeOld d keys config _ => inferInstanceAs (Decidable
      (TakeSane m.shared d keys ∧ DropSane m d config.id))
  | .rejoin config old => inferInstanceAs (Decidable
      (spawn lowercase m.shared config env = none →
        m.relays.lookup config.id = none ∧ old.id = config.id))
  | .removed _ false => inferInstanceAs (Decidable (m.applying = none → _ ∨ _))
  | .added key => inferInstanceAs (Decidable (m.applying = none → _ → _ → GetSane m.shared key))
  | .removed _ true | .checkId _ | .checkNetworkId _ | .join _ _ | .find _ | .update _
  | .updateByNetworkId _ | .compare _ _ | .findOld _ _ | .apply _ => .isTrue trivial

instance decidablePhaseSane (m : Manager) : (p : Phase) → Decidable (PhaseSane m p)
  | .insert _ d _ => inferInstanceAs (Decidable (InsertSane m.shared d))
  | .startStun _ => inferInstanceAs (Decidable (Binds _ _))
  | .startTurn _ => inferInstanceAs (Decidable (Binds _ _))
  | .startSignaling _ => inferInstanceAs (Decidable (Binds _ _ → Binds _ _))
  | .relay _ (key :: _) => inferInstanceAs (Decidable (GetSane m.shared key))
  | .relay _ [] | .join _ _ | .checkNetworkId _ _ _ | .start _ _ _ | .stun _ | .turn _
  | .signaling _ | .relays _ => .isTrue trivial

/-! ### Steps -/

/-- The requests in flight once one has gone on. -/
def following (next : Option Task) (O : Set Task) : Set Task := {t | t ∈ next} ∪ O

theorem exists_following {f : Task → Option String} {next : Option Task}
    (hnext : ∀ k ∈ f t, ∃ t' ∈ next, k ∈ f t') (h : ∃ t' ∈ insert t O, k ∈ f t') :
    ∃ t' ∈ following next O, k ∈ f t' := by
  obtain ⟨t', ht', hk⟩ := h
  rcases ht' with rfl | ht'
  · obtain ⟨t'', ht'', hk'⟩ := hnext k hk
    exact ⟨t'', .inl ht'', hk'⟩
  · exact ⟨t', .inr ht', hk⟩

/-- A request goes on with what it has yet to do, and has no forwarder to drop that is not
there. -/
theorem Sound.pass (h : Sound m (insert t O)) {next : Option Task}
    (hdrops : ∀ k ∈ t.drops, m.relays.lookup k = none ∨ ∃ t' ∈ next, k ∈ t'.drops)
    (hadds : ∀ k ∈ t.adds, ∃ t' ∈ next, k ∈ t'.adds) (hfits : ∀ t' ∈ next, t'.Fits m.shared) :
    Sound m (following next O) where
  stale k d hd := by
    refine (h.stale k d hd).imp_right ?_
    rintro ⟨t', rfl | ht', hk⟩
    · rcases hdrops k hk with hnone | ⟨t'', ht'', hk'⟩
      · rw [hnone] at hd
        cases hd
      · exact ⟨t'', .inl ht'', hk'⟩
    · exact ⟨t', .inr ht', hk⟩
  missing hhosting k d hd := (h.missing hhosting k d hd).imp_right
    (Or.imp_left (exists_following hadds))
  named := h.named
  fits t' ht' := ht'.elim (hfits t') fun ht' ↦ h.fits t' (.inr ht')
  listeners := h.listeners

/-- A request that owes nothing may go on in any way. -/
theorem Sound.pass_of_none (h : Sound m (insert t O)) (next : Option Task)
    (hfits : ∀ t' ∈ next, t'.Fits m.shared) (hdrops : t.drops = none) (hadds : t.adds = none) :
    Sound m (following next O) :=
  h.pass (by simp [hdrops]) (by simp [hadds]) hfits

theorem spawn_spec {config : Config} (h : spawn lowercase sh config env = some sh') :
    sh'.registry = sh.registry ∧ (∀ d k, sh.configId d = some k → sh'.configId d = some k) ∧
      sh'.configId sh.drivers.length = some config.id := by
  unfold spawn at h
  split at h
  · obtain rfl := Option.some.inj h
    refine ⟨rfl, fun d k hd ↦ ?_, ?_⟩
    · obtain ⟨driver, hdriver, rfl⟩ := Option.map_eq_some_iff.mp hd
      obtain ⟨hlt, -⟩ := List.getElem?_eq_some_iff.mp hdriver
      rw [Shared.configId, List.getElem?_append_left hlt, hdriver]
      rfl
    · rw [Shared.configId, List.getElem?_concat_length]
      rfl
  · cases h

/-- A new engine is not in the registry yet. -/
theorem Sound.spawned {T : Set Task} {config : Config} (h : Sound m T)
    (hspawn : spawn lowercase m.shared config env = some sh') :
    Sound { m with shared := sh' } T := by
  obtain ⟨hregistry, hconfigId, -⟩ := spawn_spec hspawn
  have hcurrent : ∀ k d, Current m.shared k d → Current sh' k d := fun k d hd ↦
    ⟨hregistry ▸ hd.1, hconfigId d k hd.2⟩
  have hback : ∀ k d, Current sh' k d → Current m.shared k d := by
    rintro k d ⟨hlookup, hk⟩
    rw [hregistry] at hlookup
    obtain ⟨c, hc⟩ := h.named k d hlookup
    obtain rfl : c = k := Option.some.inj ((hconfigId d c hc.2).symm.trans hk)
    exact hc
  refine ⟨fun k d hd ↦ (h.stale k d hd).imp_left (hcurrent k d),
    fun hhosting k d hd ↦ h.missing hhosting k d (hback k d hd), fun k d hd ↦ ?_, fun t ht ↦ ?_,
    h.listeners⟩
  · obtain ⟨c, hc⟩ := h.named k d (hregistry ▸ hd)
    exact ⟨c, hcurrent c d hc⟩
  · have hfits := h.fits t ht
    cases t with
    | insert d key updated => exact hconfigId d key hfits
    | join config key => exact hfits
    | _ => trivial

/-- A network that is put in needs a forwarder. -/
theorem Sound.putIn {T : Set Task} {driver : Driver} (h : Sound m T)
    (hdriver : m.shared.drivers[d]? = some driver) (hsane : InsertSane m.shared d)
    (hadds : m.Hosting → (∃ t ∈ T, driver.config.id ∈ t.adds) ∨
      ∃ p ∈ m.applying, p.Relays driver.config.id) :
    Sound { m with shared := m.shared.insert d driver.config } T := by
  have hconfigId : m.shared.configId d = some driver.config.id := by
    rw [Shared.configId, hdriver]
    rfl
  have hfirst : Current (m.shared.insert d driver.config) driver.config.id d :=
    ⟨TwoNames.lookup_enter_first _ _ _ _, hconfigId⟩
  have hkept : ∀ k d', Current m.shared k d' → Current (m.shared.insert d driver.config) k d' := by
    rintro k d' ⟨hlookup, hk⟩
    refine ⟨TwoNames.lookup_enter_of_ne hlookup ?_, hk⟩
    rintro rfl
    exact hsane _ hconfigId d' hlookup hk
  have hfrom : ∀ k d', (m.shared.insert d driver.config).registry.lookup k = some d' →
      d' = d ∨ m.shared.registry.lookup k = some d' := by
    intro k d' hlookup
    exact (TwoNames.lookup_enter hlookup).imp_left And.right
  refine ⟨fun k d' hd' ↦ (h.stale k d' hd').imp_left (hkept k d'), ?_, ?_, h.fits, h.listeners⟩
  · rintro hhosting k d' ⟨hlookup, hk⟩
    rcases hfrom k d' hlookup with rfl | hbefore
    · obtain rfl : driver.config.id = k := Option.some.inj (hconfigId.symm.trans hk)
      exact .inr (hadds hhosting)
    · exact h.missing hhosting k d' ⟨hbefore, hk⟩
  · intro k d' hlookup
    rcases hfrom k d' hlookup with rfl | hbefore
    · exact ⟨_, hfirst⟩
    · obtain ⟨c, hc⟩ := h.named k d' hbefore
      exact ⟨c, hkept c d' hc⟩

/-- A network that is taken out leaves a forwarder that someone has to drop. -/
theorem Sound.takeOut {T : Set Task} {keys : List String} (h : Sound m T)
    (hsane : TakeSane m.shared d keys)
    (hdrops : ∀ k ∈ m.shared.configId d, m.relays.lookup k = none ∨ ∃ t ∈ T, k ∈ t.drops) :
    Sound { m with shared := m.shared.takeKeys keys } T := by
  have hlookup : ∀ k d', (m.shared.takeKeys keys).registry.lookup k = some d' ↔
      m.shared.registry.lookup k = some d' ∧ d' ≠ d := by
    intro k d'
    rw [Shared.takeKeys, TwoNames.lookup_foldl_erase]
    have hkeys : m.shared.registry.lookup k = some d' → (k ∈ keys ↔ d' = d) := fun hk ↦
      hsane ⟨k, d'⟩ (AList.mem_lookup_iff.mp hk)
    split
    · next hmem =>
      constructor
      · intro hnone
        cases hnone
      · exact fun hk ↦ absurd ((hkeys hk.1).mp hmem) hk.2
    · next hmem => exact ⟨fun hk ↦ ⟨hk, fun heq ↦ hmem ((hkeys hk).mpr heq)⟩, And.left⟩
  have hkept : ∀ k d', d' ≠ d → Current m.shared k d' → Current (m.shared.takeKeys keys) k d' :=
    fun k d' hne hd' ↦ ⟨(hlookup k d').mpr ⟨hd'.1, hne⟩, hd'.2⟩
  refine ⟨fun k d' hd' ↦ ?_, fun hhosting k d' hd' ↦ ?_, fun k d' hd' ↦ ?_, h.fits, h.listeners⟩
  · rcases h.stale k d' hd' with hcurrent | hdropped
    · by_cases hsame : d' = d
      · subst hsame
        refine .inr ((hdrops k hcurrent.2).resolve_left fun hnone ↦ ?_)
        rw [hnone] at hd'
        cases hd'
      · exact .inl (hkept k d' hsame hcurrent)
    · exact .inr hdropped
  · exact h.missing hhosting k d' ⟨((hlookup k d').mp hd'.1).1, hd'.2⟩
  · obtain ⟨hbefore, hne⟩ := (hlookup k d').mp hd'
    obtain ⟨c, hc⟩ := h.named k d' hbefore
    exact ⟨c, hkept c d' hne hc⟩

/-- `on_network_removed`. -/
theorem Sound.onNetworkRemoved {updated : Bool}
    (h : Sound m (insert (.removed key updated) O))
    (hsane : updated = false →
      (∀ d ∈ m.shared.registry.lookup key, m.shared.configId d ≠ some key) ∨
        ∃ t ∈ O, key ∈ t.adds) :
    Sound (m.onNetworkRemoved key) (following (if updated then some (.added key) else none) O) := by
  have hlookup : ∀ k, (m.relays.erase key).lookup k = if k = key then none else m.relays.lookup k :=
    TwoNames.lookup_erase_eq m.relays key
  refine ⟨fun k d hd ↦ ?_, fun hhosting k d hd ↦ ?_, h.named, ?_, h.listeners⟩
  · change (m.relays.erase key).lookup k = some d at hd
    rw [hlookup] at hd
    split at hd
    · cases hd
    · next hne =>
      refine (h.stale k d hd).imp_right ?_
      rintro ⟨t, rfl | ht, hk⟩
      · exact absurd (Option.some.inj hk).symm hne
      · exact ⟨t, .inr ht, hk⟩
  · change ((m.relays.erase key).lookup k).isSome ∨ _
    rw [hlookup]
    split
    · next heq =>
      subst heq
      right
      left
      cases updated with
      | true => exact ⟨.added k, .inl rfl, rfl⟩
      | false =>
        rcases hsane rfl with hnone | ⟨t, ht, hk⟩
        · exact absurd hd.2 (hnone d hd.1)
        · exact ⟨t, .inr ht, hk⟩
    · next hne =>
      refine (h.missing hhosting k d hd).imp_right (Or.imp_left ?_)
      rintro ⟨t, rfl | ht, hk⟩
      · cases updated with
        | true => exact absurd (Option.some.inj hk).symm hne
        | false => cases hk
      · exact ⟨t, .inr ht, hk⟩
  · intro t ht
    rcases ht with ht | ht
    · cases updated with
      | true =>
        obtain rfl := Option.some.inj ht
        trivial
      | false => cases ht
    · exact h.fits t (.inr ht)

/-- The forwarder of a current network is not stale. -/
theorem stale_insert {relays : AList fun _ : String ↦ Nat} {P : String → Prop}
    (hcurrent : Current sh key d) (h : ∀ k, ∀ d' ∈ relays.lookup k, Current sh k d' ∨ P k) :
    ∀ k, ∀ d' ∈ (relays.insert key d).lookup k, Current sh k d' ∨ P k := by
  intro k d' hd'
  rw [TwoNames.lookup_insert_eq] at hd'
  split at hd'
  · next heq =>
    obtain rfl := Option.some.inj hd'
    exact .inl (heq ▸ hcurrent)
  · exact h k d' hd'

/-- A network that gets a forwarder is not missing. -/
theorem missing_insert {relays : AList fun _ : String ↦ Nat} {P : String → Prop}
    (h : ∀ k d', Current sh k d' → k ≠ key → (relays.lookup k).isSome ∨ P k) :
    ∀ k d', Current sh k d' → ((relays.insert key d).lookup k).isSome ∨ P k := by
  intro k d' hd'
  rw [TwoNames.lookup_insert_eq]
  split
  · exact .inl rfl
  · next hne => exact h k d' hd' hne

/-- `on_network_added`. -/
theorem Sound.onNetworkAdded (h : Sound m (insert (.added key) O)) (hfree : m.applying = none)
    (hsane : m.config.relay.enabled = true → m.relays.lookup key = none → GetSane m.shared key) :
    Sound (m.onNetworkAdded key) (following none O) := by
  have hhosted : m.Hosting → m.config.relay.enabled = true := by
    rintro (hon | ⟨desired, todo, happlying⟩)
    · exact hon
    · rw [hfree] at happlying
      cases happlying
  have hothers : ∀ k, k ≠ key → (∃ t ∈ insert (.added key) O, k ∈ t.adds) →
      ∃ t ∈ following none O, k ∈ t.adds := by
    rintro k hne ⟨t, rfl | ht, hk⟩
    · exact absurd (Option.some.inj hk).symm hne
    · exact ⟨t, .inr ht, hk⟩
  have hdrops : ∀ k, (∃ t ∈ insert (.added key) O, k ∈ t.drops) →
      ∃ t ∈ following none O, k ∈ t.drops := by
    rintro k ⟨t, rfl | ht, hk⟩
    · cases hk
    · exact ⟨t, .inr ht, hk⟩
  have hfits : ∀ t ∈ following none O, t.Fits m.shared := fun t ht ↦
    ht.elim (fun hnone ↦ by cases hnone) fun ht ↦ h.fits t (.inr ht)
  -- unless it has a forwarder already, the network that the registry has gets it
  have hkept : (m.config.relay.enabled = true → m.relays.lookup key = none →
      m.shared.registry.lookup key = none) → Sound m (following none O) := by
    intro hnone
    refine ⟨fun k d hd ↦ (h.stale k d hd).imp_right (hdrops k), fun hhosting k d hd ↦ ?_, h.named,
      hfits, h.listeners⟩
    by_cases hk : k = key
    · subst hk
      cases hrelay : m.relays.lookup k with
      | some d' => exact .inl rfl
      | none => exact absurd (hd.1.symm.trans (hnone (hhosted hhosting) hrelay)) (by simp)
    · exact (h.missing hhosting k d hd).imp_right (Or.imp_left (hothers k hk))
  unfold Manager.onNetworkAdded
  split
  · next hon =>
    rw [Bool.and_eq_true, Bool.not_eq_true', Option.isSome_eq_false_iff,
      Option.isNone_iff_eq_none] at hon
    split
    · next d hlookup =>
      have hcurrent : Current m.shared key d := ⟨hlookup, hsane hon.1 hon.2 d hlookup⟩
      refine ⟨stale_insert hcurrent fun k d' hd' ↦ (h.stale k d' hd').imp_right (hdrops k),
        fun hhosting ↦ missing_insert fun k d' hd' hne ↦ ?_, h.named, hfits, h.listeners⟩
      exact (h.missing hhosting k d' hd').imp_right (Or.imp_left (hothers k hne))
    · next hlookup => exact hkept fun _ _ ↦ hlookup
  · next hoff =>
    refine hkept fun hon hnone ↦ absurd ?_ hoff
    rw [hon, hnone]
    rfl

/-- `apply` gets the lock. -/
theorem Sound.lock {desired : ServicesConfig} (h : Sound m (insert (.apply desired) O))
    (hfree : m.applying = none) (env : Env) : Sound (m.lock desired env) (following none O) := by
  have hpass : Sound m (following none O) := h.pass_of_none none (by simp) rfl rfl
  have hlisteners := hpass.listeners
  rw [hfree] at hlisteners
  unfold Manager.lock
  split
  · refine ⟨fun k d hd ↦ ?_, fun _ k d _ ↦ .inr (.inr ⟨_, rfl, trivial⟩), fun k d hd ↦ ?_,
      fun t ht ↦ ?_, hlisteners⟩
    · cases hd
    · cases hd
    · have hfits := hpass.fits t ht
      cases t with
      | insert d key updated => exact hfits
      | join config key => exact hfits
      | _ => trivial
  · split
    · exact ⟨hpass.stale, fun _ k d _ ↦ .inr (.inr ⟨_, rfl, trivial⟩), hpass.named, hpass.fits,
        hlisteners⟩
    · exact ⟨hpass.stale, fun _ k d _ ↦ .inr (.inr ⟨_, rfl, trivial⟩), hpass.named, hpass.fits,
        hlisteners⟩

/-- A request takes a step. -/
theorem Sound.advance {others : List Task} (h : Sound m (insert t {t' | t' ∈ others}))
    (hsane : TaskSane lowercase m others env t) :
    Sound (advance lowercase m env t).1
      (following (advance lowercase m env t).2 {t' | t' ∈ others}) := by
  cases t with
  | checkId config =>
    simp only [Services.advance]
    split
    · exact h.pass_of_none none (by simp) rfl rfl
    · exact h.pass_of_none (some (.checkNetworkId config)) (by simp [Task.Fits]) rfl rfl
  | checkNetworkId config =>
    simp only [Services.advance]
    split
    · exact h.pass_of_none none (by simp) rfl rfl
    · exact h.pass_of_none (some (.join config config.id)) (by simp [Task.Fits]) rfl rfl
  | join config key =>
    simp only [Services.advance]
    split
    · next sh hspawn =>
      have hkey : config.id = key := h.fits _ (.inl rfl)
      refine (h.spawned hspawn).pass_of_none (some (.insert _ key false)) ?_ rfl rfl
      intro t' ht'
      obtain rfl := Option.some.inj ht'
      exact hkey ▸ (spawn_spec hspawn).2.2
    · exact h.pass_of_none none (by simp) rfl rfl
  | insert d key updated =>
    have hkey : m.shared.configId d = some key := h.fits _ (.inl rfl)
    obtain ⟨driver, hdriver, rfl⟩ := Option.map_eq_some_iff.mp hkey
    simp only [Services.advance, hdriver]
    cases updated with
    | true =>
      have hnext : Sound m (following (some (.removed driver.config.id true)) _) :=
        h.pass (by simp [Task.drops]) (by simp [Task.adds]) (by simp [Task.Fits])
      exact hnext.putIn hdriver hsane fun _ ↦ .inl ⟨_, .inl rfl, rfl⟩
    | false =>
      have hnext : Sound m (following (some (.added driver.config.id)) _) :=
        h.pass_of_none _ (by simp [Task.Fits]) rfl rfl
      exact hnext.putIn hdriver hsane fun _ ↦ .inl ⟨_, .inl rfl, rfl⟩
  | find key =>
    simp only [Services.advance]
    split
    · exact h.pass_of_none (some (.takeKeys _ _ key)) (by simp [Task.Fits]) rfl rfl
    · exact h.pass_of_none none (by simp) rfl rfl
  | takeKeys d keys key =>
    obtain ⟨htake, hdrop⟩ := hsane
    simp only [Services.advance]
    generalize hkey' : (if env.borrowed then key else (m.shared.configId d).getD key) = key'
    have hnext : Sound m (following (some (.removed key' false)) _) :=
      h.pass_of_none _ (by simp [Task.Fits]) rfl rfl
    refine hnext.takeOut htake fun k hk ↦ ?_
    -- the key it goes on with is the config id, or nothing is there to drop
    by_cases hborrowed : env.borrowed = true
    · rw [if_pos hborrowed] at hkey'
      rcases hdrop hborrowed k hk with rfl | hnone
      · exact .inr ⟨_, .inl rfl, congrArg some hkey'.symm⟩
      · exact .inl hnone
    · rw [if_neg hborrowed, Option.mem_def.mp hk, Option.getD_some] at hkey'
      exact .inr ⟨_, .inl rfl, congrArg some hkey'.symm⟩
  | update config =>
    simp only [Services.advance]
    split
    · exact h.pass_of_none (some (.compare _ config)) (by simp [Task.Fits]) rfl rfl
    · exact h.pass_of_none (some (.updateByNetworkId config)) (by simp [Task.Fits]) rfl rfl
  | updateByNetworkId config =>
    simp only [Services.advance]
    split
    · exact h.pass_of_none (some (.compare _ config)) (by simp [Task.Fits]) rfl rfl
    · exact h.pass_of_none none (by simp) rfl rfl
  | compare d config =>
    simp only [Services.advance]
    split
    · split
      · exact h.pass_of_none (some (.findOld config _)) (by simp [Task.Fits]) rfl rfl
      · exact h.pass_of_none none (by simp) rfl rfl
    · exact h.pass_of_none none (by simp) rfl rfl
  | findOld config old =>
    simp only [Services.advance]
    split
    · exact h.pass_of_none (some (.takeOld _ _ config old)) (by simp [Task.Fits]) rfl rfl
    · exact h.pass_of_none (some (.rejoin config old)) (by simp [Task.Fits]) rfl rfl
  | takeOld d keys config old =>
    obtain ⟨htake, hdrop⟩ := hsane
    have hnext : Sound m (following (some (.rejoin config old)) _) :=
      h.pass_of_none _ (by simp [Task.Fits]) rfl rfl
    refine hnext.takeOut htake fun k hk ↦ ?_
    rcases hdrop k hk with rfl | hnone
    · exact .inr ⟨_, .inl rfl, rfl⟩
    · exact .inl hnone
  | rejoin config old =>
    simp only [Services.advance]
    split
    · next sh hspawn =>
      refine (h.spawned hspawn).pass ?_ (by simp [Task.adds]) ?_
      · simp [Task.drops]
      · intro t' ht'
        obtain rfl := Option.some.inj ht'
        exact (spawn_spec hspawn).2.2
    · next hspawn =>
      obtain ⟨hnone, hid⟩ := hsane hspawn
      refine h.pass ?_ (by simp [Task.adds]) ?_
      · rintro k hk
        obtain rfl := Option.some.inj hk
        exact .inl hnone
      · intro t' ht'
        obtain rfl := Option.some.inj ht'
        exact hid
  | removed key updated =>
    simp only [Services.advance]
    split
    · exact h.pass (by simp [Task.drops]) (fun k hk ↦ ⟨_, rfl, hk⟩) (by simp [Task.Fits])
    · next hfree =>
      rw [Option.not_isSome_iff_eq_none] at hfree
      refine h.onNetworkRemoved fun hupdated ↦ ?_
      subst hupdated
      exact hsane hfree
  | added key =>
    simp only [Services.advance]
    split
    · exact h.pass (by simp [Task.drops]) (fun k hk ↦ ⟨_, rfl, hk⟩) (by simp [Task.Fits])
    · next hfree =>
      rw [Option.not_isSome_iff_eq_none] at hfree
      exact h.onNetworkAdded hfree (hsane hfree)
  | apply desired =>
    simp only [Services.advance]
    split
    · exact h.pass_of_none (some (.apply desired)) (by simp [Task.Fits]) rfl rfl
    · next hfree =>
      rw [Option.not_isSome_iff_eq_none] at hfree
      exact h.lock hfree env

/-- Every network of the registry is looked at. -/
theorem mem_summaries (h : Current sh k d) : k ∈ summaries sh := by
  rw [summaries, Text.sortStrings, (List.perm_insertionSort _ _).mem_iff, List.mem_filterMap]
  refine ⟨d, List.mem_dedup.mpr (List.mem_map.mpr ⟨⟨k, d⟩, ?_, rfl⟩), h.2⟩
  exact AList.mem_lookup_iff.mp h.1

/-- Until the forwarders are dropped, only the registry and the listeners count. -/
theorem Sound.goOn {T : Set Task} {p : Phase} {g : Listeners} (h : Sound m T)
    (hlisteners : Standing m.config g (some p)) (hrelays : ∀ k, p.Relays k)
    (closing : List Socket) :
    Sound { m with listeners := g, closing := closing, applying := some p } T where
  stale := h.stale
  missing _ k _ _ := .inr (.inr ⟨p, rfl, hrelays k⟩)
  named := h.named
  fits := h.fits
  listeners := hlisteners

theorem Sound.standing {T : Set Task} {p : Phase} (h : Sound m T) (hp : m.applying = some p) :
    Standing m.config m.listeners (some p) := hp ▸ h.listeners

/-- The test of the STUN listener. -/
theorem Sound.stun {T : Set Task} {desired : ServicesConfig} (h : Sound m T)
    (hp : m.applying = some (.stun desired)) (env : Env) :
    Sound (work lowercase m env (.stun desired)) T := by
  have hg : m.listeners = settled m.config := h.standing hp
  simp only [Services.work]
  split
  · by_cases hrun : desired.runStandaloneStun = true
    · rw [if_pos hrun]
      have hstanding : Standing m.config m.stopStun.listeners (some (.startStun desired)) :=
        ⟨hrun, by rw [Manager.stopStun, hg]⟩
      exact h.goOn hstanding (fun _ ↦ trivial) _
    · rw [if_neg hrun]
      have hnone : settledStun desired = none := if_neg hrun
      have hstanding : Standing m.config m.stopStun.listeners (some (.turn desired)) := by
        rw [Standing, Manager.stopStun, hg, hnone]
      exact h.goOn hstanding (fun _ ↦ trivial) _
  · next hkeep =>
    rw [Listeners.RestartsStun, not_or, not_or, not_not, not_not, not_not] at hkeep
    have hsame : settledStun desired = settledStun m.config := by
      rw [settledStun, settledStun, ServicesConfig.runStandaloneStun,
        ServicesConfig.runStandaloneStun, hkeep.2.1, hkeep.2.2]
    have hstanding : Standing m.config m.listeners (some (.turn desired)) := by
      rw [Standing, hg, hsame]
      rfl
    exact h.goOn hstanding (fun _ ↦ trivial) _

/-- Neither the TURN server of before nor a task of a listener of before keeps STUN from its
socket. -/
theorem Sound.startStun {T : Set Task} {desired : ServicesConfig} (h : Sound m T)
    (hp : m.applying = some (.startStun desired)) (hsane : PhaseSane m (.startStun desired))
    (env : Env) : Sound (work lowercase m env (.startStun desired)) T := by
  obtain ⟨hrun, hg⟩ := h.standing hp
  obtain ⟨hturn, hclosing⟩ := binds_append.mp hsane
  have hstun : Binds (m.listeners.stun.elim [] (·.sockets)) desired.stun.sockets := by
    rw [hg]
    exact binds_nil _
  have hbinds : Binds (m.listeners.held ++ m.closing) desired.stun.sockets :=
    binds_append.mpr ⟨binds_append.mpr
      ⟨binds_append.mpr ⟨hstun, hturn⟩, binds_signaling_stun _ _⟩, hclosing⟩
  have hsome : settledStun desired = some desired.stun := if_pos hrun
  simp only [Services.work]
  rw [Manager.startStun, if_pos hbinds]
  have hstanding : Standing m.config { m.listeners with stun := some desired.stun }
      (some (.turn desired)) := by
    rw [Standing, hg, hsome]
  exact h.goOn hstanding (fun _ ↦ trivial) _

/-- The test of the TURN server. -/
theorem Sound.turn {T : Set Task} {desired : ServicesConfig} (h : Sound m T)
    (hp : m.applying = some (.turn desired)) (env : Env) :
    Sound (work lowercase m env (.turn desired)) T := by
  have hg : m.listeners = { settled m.config with stun := settledStun desired } := h.standing hp
  simp only [Services.work]
  split
  · by_cases hrun : desired.turn.enabled = true
    · rw [if_pos hrun]
      have hstanding : Standing m.config m.stopTurn.listeners (some (.startTurn desired)) :=
        ⟨hrun, by rw [Manager.stopTurn, hg]; rfl⟩
      exact h.goOn hstanding (fun _ ↦ trivial) _
    · rw [if_neg hrun]
      have hnone : settledTurn desired = none := if_neg hrun
      have hstanding : Standing m.config m.stopTurn.listeners (some (.signaling desired)) := by
        refine ⟨?_, fun s _ ↦ ?_⟩
        · rw [Manager.stopTurn, hg, settled, settled, hnone]
        · rw [turnSockets, hnone]
          exact binds_nil _
      exact h.goOn hstanding (fun _ ↦ trivial) _
  · next hkeep =>
    rw [Listeners.RestartsTurn, not_or, not_not, not_not] at hkeep
    have hsame : settledTurn desired = settledTurn m.config := by
      rw [settledTurn, settledTurn, hkeep.2]
    have hstanding : Standing m.config m.listeners (some (.signaling desired)) := by
      refine ⟨?_, fun s hs ↦ ?_⟩
      · rw [hg, settled, settled, hsame]
      · -- it has been running beside this TURN server
        rw [settledSignaling] at hs
        split at hs
        · next hon =>
          obtain rfl := Option.some.inj hs
          rw [turnSockets, hsame]
          exact hon.2
        · cases hs
    exact h.goOn hstanding (fun _ ↦ trivial) _

/-- Neither the signaling server of before nor a task of a listener of before keeps TURN from its
sockets. -/
theorem Sound.startTurn {T : Set Task} {desired : ServicesConfig} (h : Sound m T)
    (hp : m.applying = some (.startTurn desired)) (hsane : PhaseSane m (.startTurn desired))
    (env : Env) : Sound (work lowercase m env (.startTurn desired)) T := by
  obtain ⟨hrun, hg⟩ := h.standing hp
  obtain ⟨hsignaling, hclosing⟩ := binds_append.mp hsane
  -- STUN is folded into TURN, so it has been stopped
  have hstun : Binds (m.listeners.stun.elim [] (·.sockets)) desired.turn.sockets := by
    rw [hg, settledStun_of_turn hrun]
    exact binds_nil _
  have hturn : Binds (m.listeners.turn.elim [] (·.sockets)) desired.turn.sockets := by
    rw [hg]
    exact binds_nil _
  have hbinds : Binds (m.listeners.held ++ m.closing) desired.turn.sockets :=
    binds_append.mpr ⟨binds_append.mpr ⟨binds_append.mpr ⟨hstun, hturn⟩, hsignaling⟩, hclosing⟩
  have hsome : settledTurn desired = some desired.turn := if_pos hrun
  simp only [Services.work]
  rw [Manager.startTurn, if_pos hbinds]
  have hstanding : Standing m.config { m.listeners with turn := some desired.turn }
      (some (.signaling desired)) := by
    refine ⟨?_, fun s hs ↦ ?_⟩
    · rw [hg, settled, hsome]
    · rw [hg, Option.mem_def.mp hs] at hsignaling
      rw [turnSockets, hsome]
      exact hsignaling.symm
  exact h.goOn hstanding (fun _ ↦ trivial) _

/-- The test of the signaling server. -/
theorem Sound.signaling {T : Set Task} {desired : ServicesConfig} (h : Sound m T)
    (hp : m.applying = some (.signaling desired)) (env : Env) :
    Sound (work lowercase m env (.signaling desired)) T := by
  obtain ⟨hg, hbinds⟩ := h.standing hp
  simp only [Services.work]
  split
  · by_cases hrun : desired.signaling.enabled = true
    · rw [if_pos hrun]
      have hstanding : Standing m.config m.stopSignaling.listeners
          (some (.startSignaling desired)) := ⟨hrun, by rw [Manager.stopSignaling, hg]⟩
      exact h.goOn hstanding (fun _ ↦ trivial) _
    · rw [if_neg hrun]
      have hnone : settledSignaling desired = none := if_neg fun hon ↦ hrun hon.1
      have hstanding : Standing m.config m.stopSignaling.listeners (some (.relays desired)) := by
        rw [Standing, Manager.stopSignaling, hg, settled, hnone]
      exact h.goOn hstanding (fun _ ↦ trivial) _
  · next hkeep =>
    rw [Listeners.RestartsSignaling, not_or, not_not, not_not, hg] at hkeep
    have hstanding : Standing m.config m.listeners (some (.relays desired)) := by
      rw [Standing, hg, settledSignaling_of_kept hkeep.1 hkeep.2 hbinds]
      rfl
    exact h.goOn hstanding (fun _ ↦ trivial) _

/-- Only the TURN server keeps signaling from its socket, as it would on a fresh manager. -/
theorem Sound.startSignaling {T : Set Task} {desired : ServicesConfig} (h : Sound m T)
    (hp : m.applying = some (.startSignaling desired))
    (hsane : PhaseSane m (.startSignaling desired)) (env : Env) :
    Sound (work lowercase m env (.startSignaling desired)) T := by
  obtain ⟨hrun, hg⟩ := h.standing hp
  have hturn : m.listeners.turn.elim [] (·.sockets) = turnSockets desired := by
    rw [hg]
    rfl
  have hsignaling : Binds (m.listeners.signaling.elim [] (·.sockets))
      desired.signaling.sockets := by
    rw [hg]
    exact binds_nil _
  have hiff : Binds (m.listeners.held ++ m.closing) desired.signaling.sockets ↔
      Binds (turnSockets desired) desired.signaling.sockets := by
    rw [Listeners.held, hturn, binds_append, binds_append, binds_append]
    rw [PhaseSane, hturn] at hsane
    exact ⟨fun hall ↦ hall.1.1.2,
      fun hbinds ↦ ⟨⟨⟨binds_stun_signaling _ _, hbinds⟩, hsignaling⟩, hsane hbinds⟩⟩
  have hstanding : Standing m.config (m.startSignaling desired.signaling).listeners
      (some (.relays desired)) := by
    rw [Standing, Manager.startSignaling]
    split
    · next hbinds =>
      have hsome : settledSignaling desired = some desired.signaling :=
        if_pos ⟨hrun, hiff.mp hbinds⟩
      rw [hg, settled, hsome]
    · next hbinds =>
      have hnone : settledSignaling desired = none := if_neg fun hon ↦ hbinds (hiff.mpr hon.2)
      rw [hg, settled, hnone]
  have hnext := h.goOn hstanding (fun _ ↦ trivial) m.closing
  simp only [Services.work, Manager.startSignaling] at hnext ⊢
  split
  · next hbinds =>
    rw [if_pos hbinds] at hnext
    exact hnext
  · next hbinds =>
    rw [if_neg hbinds] at hnext
    exact hnext

/-- The forwarders are dropped. -/
theorem Sound.relays {T : Set Task} {desired : ServicesConfig} (h : Sound m T)
    (hp : m.applying = some (.relays desired)) (env : Env) :
    Sound (work lowercase m env (.relays desired)) T := by
  have hlisteners := h.listeners
  rw [hp] at hlisteners
  simp only [Services.work]
  split
  · refine ⟨fun k d hd ↦ ?_, fun _ k d hd ↦ .inr (.inr ⟨_, rfl, mem_summaries hd⟩), h.named,
      h.fits, hlisteners⟩
    cases hd
  · next hoff =>
    refine ⟨fun k d hd ↦ ?_, ?_, h.named, h.fits, hlisteners⟩
    · cases hd
    · rintro (hon | ⟨_, _, hnone⟩)
      · exact absurd hon hoff
      · cases hnone

/-- One network after the other gets its forwarder. -/
theorem Sound.relay {T : Set Task} {desired : ServicesConfig} {todo : List String} (h : Sound m T)
    (hp : m.applying = some (.relay desired todo)) (hsane : PhaseSane m (.relay desired todo))
    (env : Env) : Sound (work lowercase m env (.relay desired todo)) T := by
  have hlisteners := h.listeners
  rw [hp] at hlisteners
  have hhosting : m.Hosting := .inr ⟨desired, todo, hp⟩
  have hmissing : ∀ k d, Current m.shared k d → (m.relays.lookup k).isSome ∨
      (∃ t ∈ T, k ∈ t.adds) ∨ k ∈ todo := by
    intro k d hd
    refine (h.missing hhosting k d hd).imp_right (Or.imp_right ?_)
    rintro ⟨p, hp', hk⟩
    obtain rfl := Option.some.inj (hp.symm.trans hp')
    exact hk
  cases todo with
  | nil =>
    refine ⟨h.stale, fun _ k d hd ↦ (hmissing k d hd).imp_right (Or.imp_right ?_), h.named, h.fits,
      hlisteners⟩
    intro hk
    cases hk
  | cons key todo =>
    -- the other networks have a forwarder, or are looked at later
    have hothers : ∀ k d, Current m.shared k d → k ≠ key → (m.relays.lookup k).isSome ∨
        (∃ t ∈ T, k ∈ t.adds) ∨ ∃ p ∈ some (Phase.relay desired todo), p.Relays k := by
      intro k d hd hne
      refine (hmissing k d hd).imp_right (Or.imp_right fun hk ↦ ⟨_, rfl, ?_⟩)
      exact (List.mem_cons.mp hk).resolve_left hne
    simp only [Services.work]
    split
    · next d hlookup =>
      have hcurrent : Current m.shared key d := ⟨hlookup, hsane d hlookup⟩
      exact ⟨stale_insert hcurrent h.stale, fun _ ↦ missing_insert hothers, h.named, h.fits,
        hlisteners⟩
    · next hlookup =>
      refine ⟨h.stale, fun _ k d' hd' ↦ hothers k d' hd' ?_, h.named, h.fits, hlisteners⟩
      rintro rfl
      rw [hd'.1] at hlookup
      cases hlookup

/-- The `apply` that has the lock takes a step. -/
theorem Sound.work {T : Set Task} {p : Phase} (h : Sound m T) (hp : m.applying = some p)
    (hsane : PhaseSane m p) (env : Env) : Sound (work lowercase m env p) T := by
  cases p with
  | join desired todo =>
    have hg : m.listeners = settled m.config := h.standing hp
    cases todo with
    | nil => exact h.goOn (p := .stun desired) hg (fun _ ↦ trivial) _
    | cons config todo =>
      simp only [Services.work]
      split
      · exact h.goOn (p := .join desired todo) hg (fun _ ↦ trivial) _
      · exact h.goOn (p := .checkNetworkId desired config todo) hg (fun _ ↦ trivial) _
  | checkNetworkId desired config todo =>
    have hg : m.listeners = settled m.config := h.standing hp
    simp only [Services.work]
    split
    · exact h.goOn (p := .join desired todo) hg (fun _ ↦ trivial) _
    · exact h.goOn (p := .start desired config todo) hg (fun _ ↦ trivial) _
  | start desired config todo =>
    have hg : m.listeners = settled m.config := h.standing hp
    simp only [Services.work]
    split
    · next sh hspawn =>
      exact (h.spawned hspawn).goOn (p := .insert desired _ todo) hg (fun _ ↦ trivial) _
    · exact h.goOn (p := .join desired todo) hg (fun _ ↦ trivial) _
  | insert desired d todo =>
    have hg : m.listeners = settled m.config := h.standing hp
    simp only [Services.work]
    split
    · next driver hdriver =>
      have hput := h.putIn hdriver hsane fun _ ↦ .inr ⟨_, hp, trivial⟩
      exact hput.goOn (p := .join desired todo) hg (fun _ ↦ trivial) _
    · exact h.goOn (p := .join desired todo) hg (fun _ ↦ trivial) _
  | stun desired => exact h.stun hp env
  | startStun desired => exact h.startStun hp hsane env
  | turn desired => exact h.turn hp env
  | startTurn desired => exact h.startTurn hp hsane env
  | signaling desired => exact h.signaling hp env
  | startSignaling desired => exact h.startSignaling hp hsane env
  | relays desired => exact h.relays hp env
  | relay desired todo => exact h.relay hp hsane env

/-! ### Runs -/

/-- No step goes wrong. -/
def Sane (lowercase : String → String) (m : Manager) : Op → Prop
  | .request _ => True
  | .advance i env => ∀ t ∈ m.tasks[i]?, TaskSane lowercase m (m.tasks.eraseIdx i) env t
  | .work _ => ∀ p ∈ m.applying, PhaseSane m p
  | .dropTask _ => True

instance decidableSane (lowercase : String → String) (m : Manager) :
    (o : Op) → Decidable (Sane lowercase m o)
  | .request _ => .isTrue trivial
  | .advance i env => inferInstanceAs (Decidable
      (∀ t ∈ m.tasks[i]?, TaskSane lowercase m (m.tasks.eraseIdx i) env t))
  | .work _ => inferInstanceAs (Decidable (∀ p ∈ m.applying, PhaseSane m p))
  | .dropTask _ => .isTrue trivial

theorem sound_start : Sound Manager.start {t | t ∈ Manager.start.tasks} := by
  refine ⟨fun k d hd ↦ ?_, fun _ k d hd ↦ ?_, fun k d hd ↦ ?_, fun t ht ↦ ?_,
    (by decide : Manager.start.listeners = settled Manager.start.config)⟩
  · cases hd
  · cases hd.1
  · cases hd
  · cases ht

/-- What is in flight is not said by the manager. -/
theorem Sound.withTasks {T : Set Task} (h : Sound m T) (tasks : List Task) :
    Sound { m with tasks := tasks } T :=
  ⟨h.stale, h.missing, h.named, h.fits, h.listeners⟩

/-- A request that arrives owes nothing. -/
theorem Sound.arrive {T : Set Task} (h : Sound m T) (r : Request) : Sound m (insert r.task T) where
  stale k d hd := (h.stale k d hd).imp_right fun ⟨t, ht, hk⟩ ↦ ⟨t, .inr ht, hk⟩
  missing hhosting k d hd := (h.missing hhosting k d hd).imp_right
    (Or.imp_left fun ⟨t, ht, hk⟩ ↦ ⟨t, .inr ht, hk⟩)
  named := h.named
  fits t ht := by
    rcases ht with rfl | ht
    · cases r with
      | networkAdd => trivial
      | networkRemove => trivial
      | networkUpdate => trivial
      | apply => trivial
    · exact h.fits t ht
  listeners := h.listeners

/-- The configuration that `apply` is called with. -/
def Phase.desired : Phase → ServicesConfig
  | .join desired _ | .checkNetworkId desired _ _ | .start desired _ _ | .insert desired _ _
  | .stun desired | .startStun desired | .turn desired | .startTurn desired | .signaling desired
  | .startSignaling desired | .relays desired | .relay desired _ => desired

/-- `apply` leaves the requests alone, and goes on for the same configuration or ends with it. -/
theorem work_spec (lowercase : String → String) (m : Manager) (env : Env) (p : Phase) :
    (work lowercase m env p).tasks = m.tasks ∧
      ((∃ p', (work lowercase m env p).applying = some p' ∧ p'.desired = p.desired) ∨
        (work lowercase m env p).applying = none ∧
          (work lowercase m env p).config = p.desired) := by
  cases p with
  | join desired todo =>
    cases todo with
    | nil => exact ⟨rfl, .inl ⟨_, rfl, rfl⟩⟩
    | cons config todo =>
      simp only [work]
      split
      · exact ⟨rfl, .inl ⟨_, rfl, rfl⟩⟩
      · exact ⟨rfl, .inl ⟨_, rfl, rfl⟩⟩
  | checkNetworkId desired config todo =>
    simp only [work]
    split
    · exact ⟨rfl, .inl ⟨_, rfl, rfl⟩⟩
    · exact ⟨rfl, .inl ⟨_, rfl, rfl⟩⟩
  | start desired config todo =>
    simp only [work]
    split
    · exact ⟨rfl, .inl ⟨_, rfl, rfl⟩⟩
    · exact ⟨rfl, .inl ⟨_, rfl, rfl⟩⟩
  | insert desired d todo =>
    simp only [work]
    split
    · exact ⟨rfl, .inl ⟨_, rfl, rfl⟩⟩
    · exact ⟨rfl, .inl ⟨_, rfl, rfl⟩⟩
  | stun desired =>
    simp only [work]
    split
    · refine ⟨rfl, .inl ⟨_, rfl, ?_⟩⟩
      split
      · rfl
      · rfl
    · exact ⟨rfl, .inl ⟨_, rfl, rfl⟩⟩
  | startStun desired =>
    refine ⟨?_, .inl ⟨_, rfl, rfl⟩⟩
    simp only [work, Manager.startStun]
    split
    · rfl
    · rfl
  | turn desired =>
    simp only [work]
    split
    · refine ⟨rfl, .inl ⟨_, rfl, ?_⟩⟩
      split
      · rfl
      · rfl
    · exact ⟨rfl, .inl ⟨_, rfl, rfl⟩⟩
  | startTurn desired =>
    refine ⟨?_, .inl ⟨_, rfl, rfl⟩⟩
    simp only [work, Manager.startTurn]
    split
    · rfl
    · rfl
  | signaling desired =>
    simp only [work]
    split
    · refine ⟨rfl, .inl ⟨_, rfl, ?_⟩⟩
      split
      · rfl
      · rfl
    · exact ⟨rfl, .inl ⟨_, rfl, rfl⟩⟩
  | startSignaling desired =>
    refine ⟨?_, .inl ⟨_, rfl, rfl⟩⟩
    simp only [work, Manager.startSignaling]
    split
    · rfl
    · rfl
  | relays desired =>
    simp only [work]
    split
    · exact ⟨rfl, .inl ⟨_, rfl, rfl⟩⟩
    · exact ⟨rfl, .inr ⟨rfl, rfl⟩⟩
  | relay desired todo =>
    cases todo with
    | nil => exact ⟨rfl, .inr ⟨rfl, rfl⟩⟩
    | cons key todo =>
      simp only [work]
      split
      · exact ⟨rfl, .inl ⟨_, rfl, rfl⟩⟩
      · exact ⟨rfl, .inl ⟨_, rfl, rfl⟩⟩

theorem sound_step {o : Op} (h : Sound m {t | t ∈ m.tasks}) (hsane : Sane lowercase m o) :
    Sound (step lowercase m o) {t | t ∈ (step lowercase m o).tasks} := by
  cases o with
  | request r =>
    have harrive := (h.arrive r).withTasks (m.tasks ++ [r.task])
    have htasks : {t | t ∈ m.tasks ++ [r.task]} = insert r.task {t | t ∈ m.tasks} := by
      ext t
      simp [or_comm]
    simp only [step]
    rw [htasks]
    exact harrive
  | advance i env =>
    simp only [step]
    cases hget : m.tasks[i]? with
    | none => exact h
    | some t =>
      obtain ⟨hlt, rfl⟩ := List.getElem?_eq_some_iff.mp hget
      have hbefore : {t' | t' ∈ m.tasks} =
          insert m.tasks[i] {t' | t' ∈ m.tasks.eraseIdx i} := by
        ext t'
        exact (List.getElem_cons_eraseIdx_perm hlt).mem_iff.symm.trans List.mem_cons
      have hafter : ∀ next : Option Task,
          {t' | t' ∈ m.tasks.take i ++ next.toList ++ m.tasks.drop (i + 1)} =
            following next {t' | t' ∈ m.tasks.eraseIdx i} := by
        intro next
        ext t'
        simp only [following, Set.mem_ofPred_eq, Set.mem_union, List.eraseIdx_eq_take_drop_succ,
          List.mem_append, Option.mem_toList]
        tauto
      rw [hbefore] at h
      rw [hafter]
      exact (h.advance (hsane _ hget)).withTasks _
  | work env =>
    simp only [step]
    cases hp : m.applying with
    | none => exact h
    | some p =>
      have hwork : Sound (work lowercase m env p) {t | t ∈ m.tasks} :=
        h.work hp (hsane p hp) env
      rw [← (work_spec lowercase m env p).1] at hwork
      exact hwork
  | dropTask i => exact ⟨h.stale, h.missing, h.named, h.fits, h.listeners⟩

/-- Each joined network has one forwarder, bound to its engine, and there is no other. -/
structure Forwarded (m : Manager) : Prop where
  each : ∀ d ∈ m.shared.registered, ∃! k, m.relays.lookup k = some d
  only : ∀ k, ∀ d ∈ m.relays.lookup k, d ∈ m.shared.registered

/-- When nothing is in progress, the forwarders are those of the networks. -/
theorem Sound.forwarded (h : Sound m ∅) (hfree : m.applying = none)
    (hon : m.config.relay.enabled = true) : Forwarded m := by
  have hcurrent : ∀ k d, m.relays.lookup k = some d → Current m.shared k d := by
    intro k d hd
    refine (h.stale k d hd).resolve_right ?_
    rintro ⟨t, ht, -⟩
    exact ht
  refine ⟨fun d hd ↦ ?_, fun k d hd ↦ Daemon.Shared.mem_registered.mpr ⟨k, (hcurrent k d hd).1⟩⟩
  obtain ⟨key, hkey⟩ := Daemon.Shared.mem_registered.mp hd
  obtain ⟨c, hc⟩ := h.named key d hkey
  refine ⟨c, ?_, fun k hk ↦ Option.some.inj ((hcurrent k d hk).2.symm.trans hc.2)⟩
  rcases h.missing (.inl hon) c d hc with hrelay | ⟨t, ht, -⟩ | ⟨p, hp, -⟩
  · obtain ⟨d', hd'⟩ := Option.isSome_iff_exists.mp hrelay
    rw [(hcurrent c d' hd').eq hc] at hd'
    exact hd'
  · exact absurd ht (Set.notMem_empty t)
  · rw [hfree] at hp
    cases hp

/-- In a run in which no step goes wrong, `apply` leaves the listeners that it would start on a
fresh manager; and whenever no request is in progress and relays are hosted, each joined network
has one forwarder, bound to its engine, and there is no other. -/
theorem hosted_services_follow_configuration (lowercase : String → String) (ops : List Op)
    (hsane : AllSteps (step lowercase) (Sane lowercase) .start ops) :
    (∀ pre env post p, ops = pre ++ .work env :: post →
      (run (step lowercase) .start pre).applying = some p →
      (run (step lowercase) .start (pre ++ [.work env])).applying = none →
      (run (step lowercase) .start (pre ++ [.work env])).config = p.desired ∧
        (run (step lowercase) .start (pre ++ [.work env])).listeners =
          freshListeners p.desired) ∧
    ∀ pre post, ops = pre ++ post → (run (step lowercase) .start pre).tasks = [] →
      (run (step lowercase) .start pre).applying = none →
      (run (step lowercase) .start pre).config.relay.enabled = true →
      Forwarded (run (step lowercase) .start pre) := by
  have hsound : ∀ pre post, ops = pre ++ post →
      Sound (run (step lowercase) .start pre) {t | t ∈ (run (step lowercase) .start pre).tasks} :=
    forall_run_of_allSteps (I := fun m ↦ Sound m {t | t ∈ m.tasks})
      (fun m o hm ho ↦ sound_step hm ho) sound_start hsane
  refine ⟨fun pre env post p hops hp hend ↦ ?_, fun pre post hops hidle hfree hon ↦ ?_⟩
  · have hlast := hsound (pre ++ [.work env]) post (by simp [hops])
    have hworked : (run (step lowercase) .start (pre ++ [.work env])) =
        work lowercase (run (step lowercase) .start pre) env p := by
      rw [run_append, run_cons, run_nil, step]
      simp only [hp]
    rw [hworked] at hend hlast ⊢
    have hconfig : (work lowercase (run (step lowercase) .start pre) env p).config = p.desired := by
      rcases (work_spec lowercase (run (step lowercase) .start pre) env p).2 with
        ⟨p', hgo, -⟩ | ⟨-, hconfig⟩
      · rw [hgo] at hend
        cases hend
      · exact hconfig
    have hlisteners := hlast.listeners
    rw [hend, hconfig] at hlisteners
    exact ⟨hconfig, hlisteners.trans (freshListeners_eq p.desired).symm⟩
  · have hnow := hsound pre post hops
    have hnone : {t | t ∈ (run (step lowercase) .start pre).tasks} = (∅ : Set Task) := by
      ext t
      simp [hidle]
    rw [hnone] at hnow
    exact hnow.forwarded hfree hon

end Forwarders

/-! ### Runs of the listeners and of a forwarder -/

/-- Nothing is in the way of a step. -/
def clearEnv : Env := ⟨true, false, []⟩

/-- Steps of the first request. -/
def steps (n : Nat) : List Op := .replicate n (.advance 0 clearEnv)

/-- `apply` without other requests and without networks. -/
def applied (desired : ServicesConfig) : List Op :=
  .request (.apply desired) :: steps 1 ++ .replicate 8 (.work clearEnv)

def relaying : ServicesConfig := { relay := { enabled := true } }

def turnOn : ServicesConfig := { turn := { enabled := true, publicIp := "203.0.113.9" } }

def stunOn : ServicesConfig := { stun := { enabled := true } }

/-- The realm of the TURN server, which is off, is another one. -/
def stunOnStill : ServicesConfig := { stunOn with turn := { realm := "home" } }

/-- Relays are hosted, and a network is joined. -/
def relayingHome : List Op :=
  applied relaying ++ .request (.networkAdd ⟨"net_1", "home", "nostr"⟩) :: steps 5

/-- STUN and relays are hosted, and then with another realm of the TURN server, which is off. -/
def stunRelaying : ServicesConfig := { stunOn with relay := { enabled := true } }

def stunRelayingStill : ServicesConfig := { stunOnStill with relay := { enabled := true } }

/-- A network is joined, its signaling is changed, and STUN is started anew on its port once the
task of the old listener is gone. The last step of `apply` is to come. -/
def restartingStun : List Op :=
  applied stunRelaying ++ .request (.networkAdd ⟨"net_1", "home", "nostr"⟩) :: steps 5 ++
    .request (.networkUpdate ⟨"net_1", "home", "mdns"⟩) :: steps 8 ++
    .request (.apply stunRelayingStill) :: steps 1 ++
    .work clearEnv :: .dropTask 0 :: .replicate 5 (.work clearEnv)

/-- STUN is started anew, and a network is joined and its signaling changed: STUN runs as on a fresh
manager, and the network has one forwarder, of its new engine. -/
theorem updated_network_is_forwarded :
    let ops := restartingStun ++ [.work clearEnv]
    (run (step id) .start ops).listeners = freshListeners stunRelayingStill ∧
      Forwarded (run (step id) .start ops) := by
  intro ops
  have hsane : AllSteps (step id) (Sane id) .start ops := by decide +kernel
  have hlast : (run (step id) .start restartingStun).applying =
      some (.relay stunRelayingStill []) := by decide +kernel
  have hend : (run (step id) .start ops).tasks = [] ∧ (run (step id) .start ops).applying = none ∧
      (run (step id) .start ops).config.relay.enabled = true := by decide +kernel
  obtain ⟨hlisteners, hforwarders⟩ := hosted_services_follow_configuration id ops hsane
  exact ⟨(hlisteners restartingStun clearEnv [] _ rfl hlast hend.2.1).2,
    hforwarders ops [] (List.append_nil ops).symm hend.1 hend.2.1 hend.2.2⟩

/-- STUN is switched on and TURN off: STUN cannot bind the port that TURN still holds. STUN is
started anew on its port: it cannot bind what the task of the old listener still holds. A network is
updated to an id that is too short and goes back to the old one: its forwarder is bound to the
engine before. -/
theorem history_outlives_configuration :
    (∀ edit ∈ [(turnOn, stunOn), (stunOn, stunOnStill)],
      let m := run (step id) .start (applied edit.1 ++ applied edit.2)
      m.applying = none ∧ m.config = edit.2 ∧ m.listeners ≠ freshListeners edit.2) ∧
    let m := run (step id) .start
      (relayingHome ++ .request (.networkUpdate ⟨"net_1", "h", "nostr"⟩) :: steps 8)
    m.tasks = [] ∧ m.applying = none ∧ m.config.relay.enabled = true ∧
      m.shared.registry.lookup "net_1" = some 1 ∧ m.relays.lookup "net_1" = some 0 := by
  decide +kernel

end MyOwnMesh.Services
