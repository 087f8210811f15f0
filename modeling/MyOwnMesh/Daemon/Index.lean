import MyOwnMesh.Identity.DeviceId
import MyOwnMesh.Daemon.Registry

/-!
# The two names of a network

The registry has one map for config ids and network ids: an insertion overwrites what is under the
first and keeps what is under the second (`registry.rs:100–122`). `network_add` compares the
network id as it was typed while the one that is inserted is its normal form, and `network_update`
finds a network under either name but takes out the one under the config id
(`control.rs:1745–1806, 2020–2161`). Requests that come one after the other keep both names of
every network as long as none puts a network under a name that is taken.
-/

namespace MyOwnMesh.Daemon

open Lib Lib.Replay

/-! ### The normal form of a network id -/

/-- What `str::to_lowercase` does to ASCII: a text of ASCII characters with no capital is kept, and
no result has an ASCII capital. -/
structure ToLowercase (lowercase : String → String) : Prop where
  kept : ∀ s : String, (∀ c ∈ s.toList, c.toNat < 128 ∧ c.isUpper = false) → lowercase s = s
  not_upper : ∀ s, ∀ c ∈ (lowercase s).toList, c.isUpper = false

/-- The characters of a network id. -/
private theorem char_of_normalizeNetworkId {lowercase : String → String} {input n : String}
    (h : normalizeNetworkId lowercase input = .ok n) :
    n = lowercase (Text.trim input) ∧ n ≠ "" ∧ 3 ≤ n.utf8ByteSize ∧ n.utf8ByteSize ≤ 64 ∧
      ∀ c ∈ n.toList, c.isAlphanum = true ∨ c = '-' ∨ c = '_' := by
  unfold normalizeNetworkId at h
  simp only at h
  split at h
  · cases h
  · next hempty =>
    split at h
    · cases h
    · next hshort =>
      split at h
      · cases h
      · next hlong =>
        split at h
        · cases h
        · next hfind =>
          cases h
          refine ⟨rfl, hempty, Nat.le_of_not_lt hshort, Nat.le_of_not_lt hlong, fun c hc ↦ ?_⟩
          have hall := List.find?_eq_none.mp hfind c hc
          simp only [Bool.not_eq_true', Bool.not_eq_false, Bool.or_eq_true, beq_iff_eq,
            or_assoc] at hall
          exact hall

/-- The normal form of a network id is its own normal form. -/
theorem normalizeNetworkId_normalized {lowercase : String → String} (hlower : ToLowercase lowercase)
    {input n : String} (h : normalizeNetworkId lowercase input = .ok n) :
    normalizeNetworkId lowercase n = .ok n := by
  obtain ⟨hn, hempty, hshort, hlong, hchars⟩ := char_of_normalizeNetworkId h
  have hspace : ∀ c ∈ n.toList, Text.isWhitespace c = false := by
    intro c hc
    rcases hchars c hc with hc | rfl | rfl
    · exact isAlphanum_not_whitespace hc
    · decide
    · decide
  have hascii : ∀ c ∈ n.toList, c.toNat < 128 ∧ c.isUpper = false := by
    intro c hc
    refine ⟨?_, hlower.not_upper _ c (hn ▸ hc)⟩
    rcases hchars c hc with hc | rfl | rfl
    · exact isAlphanum_ascii hc
    · decide
    · decide
  have hfind : n.toList.find? (fun c ↦ !(c.isAlphanum || c == '-' || c == '_')) = none := by
    rw [List.find?_eq_none]
    intro c hc
    simp only [Bool.not_eq_true', Bool.not_eq_false, Bool.or_eq_true, beq_iff_eq, or_assoc]
    exact hchars c hc
  rw [normalizeNetworkId, Text.trim_of_forall hspace, hlower.kept n hascii, if_neg hempty,
    if_neg (Nat.not_lt.mpr hshort), if_neg (Nat.not_lt.mpr hlong), hfind]

/-! ### Both names lead to the network -/

/-- The config a network was joined with. -/
def Shared.config (sh : Shared) (d : Nat) : Option Config := sh.drivers[d]?.map (·.config)

/-- Both names of every network of the registry lead to it. -/
def Indexed (registry : AList fun _ : String ↦ Nat) (configOf : Nat → Option Config) : Prop :=
  ∀ key d, registry.lookup key = some d → ∃ config, configOf d = some config ∧
    registry.lookup config.id = some d ∧ registry.lookup config.networkId = some d

/-- Where the network id is free, an insertion adds both names. -/
theorem lookup_insert_of_free {sh : Shared} {d : Nat} {config : Config}
    (hnet : sh.registry.lookup config.networkId = none) (key : String) :
    (sh.insert d config).registry.lookup key =
      if key = config.id ∨ key = config.networkId then some d else sh.registry.lookup key :=
  TwoNames.lookup_enter_of_free hnet key

theorem Indexed.insert {sh : Shared} {configOf : Nat → Option Config}
    (h : Indexed sh.registry configOf) {d : Nat} {config : Config} (hd : configOf d = some config)
    (hid : sh.registry.lookup config.id = none)
    (hnet : sh.registry.lookup config.networkId = none) :
    Indexed (sh.insert d config).registry configOf := by
  intro key d' hkey
  simp only [lookup_insert_of_free hnet] at hkey ⊢
  split at hkey
  · cases hkey
    exact ⟨config, hd, if_pos (.inl rfl), if_pos (.inr rfl)⟩
  · obtain ⟨config', hd', hid', hnet'⟩ := h key d' hkey
    -- a name of another network is not one that was free
    have hother : ∀ name, sh.registry.lookup name = some d' →
        ¬ (name = config.id ∨ name = config.networkId) := by
      rintro name hname (rfl | rfl)
      · rw [hid] at hname
        cases hname
      · rw [hnet] at hname
        cases hname
    refine ⟨config', hd', ?_, ?_⟩
    · rw [if_neg (hother _ hid'), hid']
    · rw [if_neg (hother _ hnet'), hnet']

/-- What is left once a network is taken out. -/
theorem lookup_takeKeys_keysOf (sh : Shared) (d : Nat) (key : String) :
    (sh.takeKeys (sh.keysOf d)).registry.lookup key =
      if sh.registry.lookup key = some d then none else sh.registry.lookup key :=
  TwoNames.lookup_forget sh.registry d key

theorem Indexed.takeKeys {sh : Shared} {configOf : Nat → Option Config}
    (h : Indexed sh.registry configOf) (d : Nat) :
    Indexed (sh.takeKeys (sh.keysOf d)).registry configOf := by
  intro key d' hkey
  simp only [lookup_takeKeys_keysOf] at hkey ⊢
  split at hkey
  · cases hkey
  · next hne =>
    obtain ⟨config, hd', hid, hnet⟩ := h key d' hkey
    rw [hkey] at hne
    refine ⟨config, hd', ?_, ?_⟩
    · rw [hid, if_neg hne]
    · rw [hnet, if_neg hne]

/-! ### A request alone -/

variable (lowercase : String → String)

/-- The network id a config is joined under. -/
def Config.normalForm (config : Config) : Option String :=
  (normalizeNetworkId lowercase config.networkId).toOption

/-- Both names that a join of the config leads to are free, or lead to the network that is taken out
first. -/
def Free (registry : AList fun _ : String ↦ Nat) (own : Option Nat) (config : Config) : Prop :=
  ∀ n ∈ config.normalForm lowercase, (∀ d ∈ registry.lookup config.id, own = some d) ∧
    ∀ d ∈ registry.lookup n, own = some d

/-- Whatever a request joins after it took a network out finds its names free. -/
def After.Ready (registry : AList fun _ : String ↦ Nat) (own : Option Nat) : After → Prop
  | .rejoin config old => Free lowercase registry own config ∧
      (config.normalForm lowercase = none → Free lowercase registry own old)
  | _ => True

/-- Whatever a request joins from here on finds its names free. -/
def Task.Ready (registry : AList fun _ : String ↦ Nat) (configOf : Nat → Option Config) :
    Task → Prop
  | .checkId config _ =>
    registry.lookup config.id = none → registry.lookup config.networkId = none →
      Free lowercase registry none config
  | .checkNetworkId config _ =>
    registry.lookup config.networkId = none → Free lowercase registry none config
  | .join config fallback _ => Free lowercase registry none config ∧
      (config.normalForm lowercase = none → ∀ old ∈ fallback, Free lowercase registry none old)
  | .insert d _ => ∀ config ∈ configOf d,
      registry.lookup config.id = none ∧ registry.lookup config.networkId = none
  | .announce key after | .announcing _ key after | .find key after =>
    after.Ready lowercase registry (registry.lookup key)
  | .takeKeys d keys after =>
    (registry.entries.filter (·.2 = d)).map (·.1) = keys ∧
      after.Ready lowercase registry (some d)
  | .unwrapEntry _ after | .unwrapJoined _ after | .shutdown _ after | .takeDriver _ after |
    .awaitDriver _ _ after => after.Ready lowercase registry none
  | .update config => ∀ d, (registry.lookup config.id).or (registry.lookup config.networkId) =
      some d → ∀ old ∈ configOf d, requiresRestart old config = true →
        After.Ready lowercase registry (registry.lookup config.id) (.rejoin config old)
  | .updateByNetworkId config => ∀ d, registry.lookup config.networkId = some d →
      ∀ old ∈ configOf d, requiresRestart old config = true →
        After.Ready lowercase registry (registry.lookup config.id) (.rejoin config old)
  | .compare d config => ∀ old ∈ configOf d, requiresRestart old config = true →
      After.Ready lowercase registry (registry.lookup config.id) (.rejoin config old)
  | _ => True

variable {lowercase}

private theorem After.Ready.resume {registry : AList fun _ : String ↦ Nat} {after : After}
    (h : after.Ready lowercase registry none) (configOf : Nat → Option Config) :
    ∀ t ∈ after.resume, t.Ready lowercase registry configOf := by
  intro t ht
  cases after with
  | finish => cases ht
  | rejoin config old =>
    cases ht
    refine ⟨h.1, fun hnone old' hold ↦ ?_⟩
    cases hold
    exact h.2 hnone
  | takeRest entries owned =>
    cases entries with
    | nil => cases owned <;> (cases ht; trivial)
    | cons d entries =>
      cases ht
      trivial
  | leaveRest owned => cases owned <;> (cases ht; trivial)

/-- Names that led to the network that is taken out are free. -/
private theorem Free.takeKeys {sh : Shared} {d : Nat} {config : Config}
    (h : Free lowercase sh.registry (some d) config) :
    Free lowercase (sh.takeKeys (sh.keysOf d)).registry none config := by
  have hgone : ∀ key, (∀ d' ∈ sh.registry.lookup key, some d = some d') →
      ∀ d' ∈ (sh.takeKeys (sh.keysOf d)).registry.lookup key, (none : Option Nat) = some d' := by
    intro key hkey d' hd'
    rw [lookup_takeKeys_keysOf] at hd'
    split at hd'
    · cases hd'
    · next hne =>
      rw [hkey d' hd'] at hne
      exact absurd hd' hne
  intro n hn
  exact ⟨hgone _ (h n hn).1, hgone _ (h n hn).2⟩

private theorem After.Ready.takeKeys {sh : Shared} {d : Nat} {after : After}
    (h : after.Ready lowercase sh.registry (some d)) :
    after.Ready lowercase (sh.takeKeys (sh.keysOf d)).registry none := by
  cases after with
  | rejoin config old => exact ⟨h.1.takeKeys, fun hnone ↦ (h.2 hnone).takeKeys⟩
  | _ => trivial

/-- A name that leads nowhere. -/
private theorem lookup_eq_none {registry : AList fun _ : String ↦ Nat} {key : String}
    (h : ∀ d ∈ registry.lookup key, (none : Option Nat) = some d) : registry.lookup key = none := by
  rw [Option.eq_none_iff_forall_not_mem]
  intro d hd
  cases h d hd

/-- A driver that changes keeps its config. -/
private theorem Shared.config_modify (sh : Shared) (d : Nat) {f : Driver → Driver}
    (hf : ∀ driver, (f driver).config = driver.config) :
    Shared.config { sh with drivers := sh.drivers.modify d f } = sh.config := by
  funext d'
  simp only [Shared.config, List.getElem?_modify]
  cases sh.drivers[d']? with
  | none => simp
  | some driver => by_cases heq : d = d' <;> simp [heq, hf]

/-- A join adds a config. -/
private theorem Shared.config_append (sh : Shared) (driver : Driver)
    (networks : List (String × Nat)) (d : Nat) :
    Shared.config { sh with drivers := sh.drivers ++ [driver], networks := networks } d =
      if d = sh.drivers.length then some driver.config else sh.config d := by
  simp only [Shared.config]
  rcases lt_trichotomy d sh.drivers.length with hlt | rfl | hgt
  · rw [List.getElem?_append_left hlt, if_neg hlt.ne]
  · simp
  · rw [List.getElem?_eq_none (by simp; omega), if_neg hgt.ne', List.getElem?_eq_none hgt.le]

/-- Every network is joined under a network id in normal form. -/
def Normal (lowercase : String → String) (configOf : Nat → Option Config) : Prop :=
  ∀ d config, configOf d = some config → config.normalForm lowercase = some config.networkId

/-- The registry is in order, and the request in flight keeps it so. -/
structure InOrder (lowercase : String → String) (sh : Shared) (next : Option Task) : Prop where
  indexed : Indexed sh.registry sh.config
  normal : Normal lowercase sh.config
  ready : ∀ t ∈ next, t.Ready lowercase sh.registry sh.config

/-- A step that changes nothing but a request. -/
private theorem InOrder.goOn {sh : Shared} {t next : Option Task} (h : InOrder lowercase sh t)
    (hnext : ∀ t' ∈ next, t'.Ready lowercase sh.registry sh.config) : InOrder lowercase sh next :=
  ⟨h.indexed, h.normal, hnext⟩

private theorem InOrder.stop {sh : Shared} {t : Option Task} (h : InOrder lowercase sh t) :
    InOrder lowercase sh none := by
  refine h.goOn ?_
  rintro _ ⟨⟩

private theorem InOrder.goOn_some {sh : Shared} {t : Option Task} {t' : Task}
    (h : InOrder lowercase sh t) (hnext : t'.Ready lowercase sh.registry sh.config) :
    InOrder lowercase sh (some t') := by
  refine h.goOn fun t'' ht'' ↦ ?_
  cases ht''
  exact hnext

/-- A driver changes, and keeps its config. -/
private theorem InOrder.modify {sh : Shared} {t : Option Task} (h : InOrder lowercase sh t)
    (d : Nat) {f : Driver → Driver} (hf : ∀ driver, (f driver).config = driver.config) :
    InOrder lowercase { sh with drivers := sh.drivers.modify d f } t := by
  have hconfig := sh.config_modify d hf
  refine ⟨?_, ?_, ?_⟩
  · rw [hconfig]
    exact h.indexed
  · rw [hconfig]
    exact h.normal
  · rw [hconfig]
    exact h.ready

/-- `join` makes a network whose names are free. -/
private theorem InOrder.join (hlower : ToLowercase lowercase) {sh : Shared} {config : Config}
    {fallback : Option Config} {hooked : Bool}
    (h : InOrder lowercase sh (some (.join config fallback hooked))) {n : String}
    (hn : normalizeNetworkId lowercase config.networkId = .ok n) (networks : List (String × Nat)) :
    InOrder lowercase
      { sh with
        drivers := sh.drivers ++ [⟨{ config with networkId := n }, false, true⟩]
        networks := networks } (some (.insert sh.drivers.length hooked)) := by
  have hconfig := sh.config_append ⟨{ config with networkId := n }, false, true⟩ networks
  have hform : config.normalForm lowercase = some n := by
    rw [Config.normalForm, hn]
    rfl
  refine ⟨?_, ?_, ?_⟩
  · intro key d hkey
    obtain ⟨config', hd, hid, hnet⟩ := h.indexed key d hkey
    refine ⟨config', (hconfig d).trans ?_, hid, hnet⟩
    rw [if_neg, hd]
    rintro rfl
    simp [Shared.config] at hd
  · intro d config' hd
    rw [hconfig] at hd
    split at hd
    · cases hd
      rw [Config.normalForm, normalizeNetworkId_normalized hlower hn]
      rfl
    · exact h.normal d config' hd
  · intro t ht
    cases ht
    intro config' hconfig'
    rw [hconfig, if_pos rfl] at hconfig'
    cases hconfig'
    obtain ⟨hid, hnet⟩ := (h.ready _ rfl).1 n hform
    exact ⟨lookup_eq_none hid, lookup_eq_none hnet⟩

/-- A step of a request alone, its joins accepted exactly when the network id is. -/
theorem InOrder.advance (hlower : ToLowercase lowercase) {sh : Shared} {env : Env}
    (hspawns : env.spawns = true) {t : Task} (h : InOrder lowercase sh (some t)) :
    InOrder lowercase (advance lowercase sh [] env t).1 (advance lowercase sh [] env t).2 := by
  have hready := h.ready t rfl
  cases t with
  | checkId config hooked =>
    simp only [Daemon.advance]
    split
    · exact h.stop
    · next hid => exact h.goOn_some (hready hid)
  | checkNetworkId config hooked =>
    simp only [Daemon.advance]
    split
    · exact h.stop
    · next hnet => exact h.goOn_some ⟨hready hnet, by rintro _ _ ⟨⟩⟩
  | join config fallback hooked =>
    simp only [Daemon.advance]
    split
    · next n _ hn _ => exact h.join hlower hn _
    · next hrefused =>
      have hform : config.normalForm lowercase = none := by
        rw [Config.normalForm]
        cases hn : normalizeNetworkId lowercase config.networkId with
        | ok n => exact absurd hspawns (hrefused n hn)
        | error e => rfl
      cases fallback with
      | some old => exact h.goOn_some ⟨hready.2 hform old rfl, by rintro _ _ ⟨⟩⟩
      | none => exact h.stop
  | insert d hooked =>
    simp only [Daemon.advance]
    split
    · next driver hget =>
      have hd : sh.config d = some driver.config := by rw [Shared.config, hget]; rfl
      obtain ⟨hid, hnet⟩ := hready driver.config hd
      refine ⟨h.indexed.insert hd hid hnet, h.normal, fun t ht ↦ ?_⟩
      split at ht
      · cases ht
        trivial
      · cases ht
    · exact h.stop
  | hook borrowed =>
    cases borrowed with
    | some d => exact h.goOn_some trivial
    | none =>
      simp only [Daemon.advance]
      split
      · exact h.stop
      · exact h.goOn_some trivial
  | announce key after =>
    simp only [Daemon.advance]
    split
    · exact h.goOn_some hready
    · exact h.goOn_some hready
  | announcing d key after => exact h.goOn_some hready
  | find key after =>
    change after.Ready lowercase sh.registry (sh.registry.lookup key) at hready
    simp only [Daemon.advance]
    split
    · next d hkey =>
      rw [hkey] at hready
      exact h.goOn_some ⟨rfl, hready⟩
    · next hkey =>
      rw [hkey] at hready
      exact h.goOn (hready.resume _)
  | takeKeys d keys after =>
    obtain ⟨rfl, hafter⟩ := hready
    refine ⟨h.indexed.takeKeys d, h.normal, fun t ht ↦ ?_⟩
    cases ht
    have hfree : after.Ready lowercase (sh.takeKeys (sh.keysOf d)).registry none := hafter.takeKeys
    exact hfree
  | unwrapEntry d after =>
    simp only [Daemon.advance]
    split
    · exact h.goOn_some hready
    · exact h.goOn (After.Ready.resume hready _)
  | unwrapJoined d after =>
    simp only [Daemon.advance]
    split
    · cases after with
      | takeRest entries owned =>
        have hrest : (After.takeRest entries (d :: owned)).Ready lowercase sh.registry none :=
          trivial
        exact h.goOn (hrest.resume _)
      | finish => exact h.goOn_some hready
      | rejoin config old => exact h.goOn_some hready
      | leaveRest owned => exact h.goOn_some hready
    · exact h.goOn (After.Ready.resume hready _)
  | shutdown d after =>
    have hnext : InOrder lowercase sh (some (.takeDriver d after)) := h.goOn_some hready
    exact hnext.modify d fun _ ↦ rfl
  | takeDriver d after =>
    simp only [Daemon.advance]
    split
    · next n hfind =>
      have hnext : InOrder lowercase sh (some (.awaitDriver d n.2 after)) := h.goOn_some hready
      exact ⟨hnext.indexed, hnext.normal, hnext.ready⟩
    · exact h.goOn (After.Ready.resume hready _)
  | awaitDriver d awaited after =>
    simp only [Daemon.advance]
    split
    · exact h.goOn_some hready
    · exact h.goOn (After.Ready.resume hready _)
  | update config =>
    simp only [Daemon.advance]
    split
    · next d hid =>
      refine h.goOn_some (hready d ?_)
      rw [hid]
      rfl
    · next hid =>
      refine h.goOn_some fun d hd ↦ hready d ?_
      rw [hid]
      exact hd
  | updateByNetworkId config =>
    simp only [Daemon.advance]
    split
    · next d hnet => exact h.goOn_some (hready d hnet)
    · exact h.stop
  | compare d config =>
    simp only [Daemon.advance]
    split
    · next driver hget =>
      have hd : sh.config d = some driver.config := by rw [Shared.config, hget]; rfl
      split
      · next hrestart => exact h.goOn_some (hready driver.config hd hrestart)
      · exact h.stop
    · exact h.stop
  | get key =>
    simp only [Daemon.advance]
    split
    · exact h.goOn_some trivial
    · exact h.stop
  | use d => exact h.stop
  | takeAll =>
    have hrest : (After.takeRest (sh.registry.entries.map (·.2)).dedup []).Ready lowercase ∅ none :=
      trivial
    refine ⟨?_, h.normal, hrest.resume _⟩
    intro key d hkey
    cases hkey

/-! ### Requests one after the other -/

/-- A request arrives when none is in flight, and joins succeed where the network id is accepted. -/
def Sequential (s : State) : Op → Prop
  | .request _ => s.tasks = []
  | .advance _ env => env.spawns = true
  | _ => True

instance (s : State) : DecidablePred (Sequential s)
  | .request _ => inferInstanceAs (Decidable (s.tasks = []))
  | .advance _ env => inferInstanceAs (Decidable (env.spawns = true))
  | .recv _ | .close _ => .isTrue trivial

variable (lowercase) in
/-- The names a request asks for are its own. An add whose ids are both unknown as typed has a
network id whose normal form is unknown too; the normal form of an update that has to join again
belongs to no network but the one under the config id, and is accepted if there is none. -/
def Fits (sh : Shared) : Request → Prop
  | .networkAdd config | .joinNetwork config =>
    sh.registry.lookup config.id = none → sh.registry.lookup config.networkId = none →
      ∀ n ∈ config.normalForm lowercase, sh.registry.lookup n = none
  | .networkUpdate config =>
    ∀ d ∈ (sh.registry.lookup config.id).or (sh.registry.lookup config.networkId),
      ∀ old ∈ sh.config d, requiresRestart old config = true →
        (∀ n ∈ config.normalForm lowercase, ∀ d' ∈ sh.registry.lookup n,
          sh.registry.lookup config.id = some d') ∧
        (sh.registry.lookup config.id = none → config.normalForm lowercase ≠ none)
  | _ => True

instance (sh : Shared) : DecidablePred (Fits lowercase sh)
  | .networkAdd config | .joinNetwork config => inferInstanceAs (Decidable
      (sh.registry.lookup config.id = none → sh.registry.lookup config.networkId = none →
        ∀ n ∈ config.normalForm lowercase, sh.registry.lookup n = none))
  | .networkUpdate config => inferInstanceAs (Decidable
      (∀ d ∈ (sh.registry.lookup config.id).or (sh.registry.lookup config.networkId),
        ∀ old ∈ sh.config d, requiresRestart old config = true →
          (∀ n ∈ config.normalForm lowercase, ∀ d' ∈ sh.registry.lookup n,
            sh.registry.lookup config.id = some d') ∧
          (sh.registry.lookup config.id = none → config.normalForm lowercase ≠ none)))
  | .networkRemove _ | .leaveAll | .other _ => .isTrue trivial

variable (lowercase) in
/-- A request arrives whose names are its own. -/
def Fitting (s : State) : Op → Prop
  | .request r => Fits lowercase s.shared r
  | _ => True

instance (s : State) : DecidablePred (Fitting lowercase s)
  | .request r => inferInstanceAs (Decidable (Fits lowercase s.shared r))
  | .advance _ _ | .recv _ | .close _ => .isTrue trivial

/-- A request whose names are its own is ready. -/
private theorem Fits.ready {sh : Shared} (hindexed : Indexed sh.registry sh.config)
    (hnormal : Normal lowercase sh.config) {r : Request} (h : Fits lowercase sh r) :
    r.task.Ready lowercase sh.registry sh.config := by
  have hadd : ∀ config, (sh.registry.lookup config.id = none →
      sh.registry.lookup config.networkId = none →
        ∀ n ∈ config.normalForm lowercase, sh.registry.lookup n = none) →
      sh.registry.lookup config.id = none → sh.registry.lookup config.networkId = none →
        Free lowercase sh.registry none config := by
    intro config hfree hid hnet n hn
    rw [hid, hfree hid hnet n hn]
    exact ⟨nofun, nofun⟩
  cases r with
  | networkAdd config => exact hadd config h
  | joinNetwork config => exact hadd config h
  | networkUpdate config =>
    intro d hd old hold hrestart
    obtain ⟨hnet, haccepted⟩ := h d hd old hold hrestart
    refine ⟨fun n hn ↦ ⟨fun d' hd' ↦ hd', hnet n hn⟩, fun hnone ↦ ?_⟩
    -- the old config comes back only where the network was found under the config id
    cases hid : sh.registry.lookup config.id with
    | none => exact absurd hnone (haccepted hid)
    | some d₀ =>
      rw [hid] at hd
      cases hd
      obtain ⟨config', hconfig', hid', hnet'⟩ := hindexed _ _ hid
      rw [hconfig'] at hold
      cases hold
      intro n hn
      rw [hnormal _ _ hconfig'] at hn
      cases hn
      rw [hid', hnet']
      exact ⟨fun _ h ↦ h, fun _ h ↦ h⟩
  | networkRemove key => trivial
  | leaveAll => trivial
  | other key => trivial

/-- Nothing is in the way of a request that is ready and alone. -/
private theorem clear_of_ready {sh : Shared} {t : Task} (hsound : Sound sh (t ::ₘ 0))
    (h : InOrder lowercase sh (some t)) : Clear sh [] t := by
  have hready := h.ready t rfl
  cases t with
  | insert d hooked =>
    intro driver hget
    have hd : sh.config d = some driver.config := by
      rw [Shared.config, hget]
      rfl
    obtain ⟨hid, hnet⟩ := hready driver.config hd
    refine ⟨fun d' hd' heq ↦ ?_, ?_⟩
    · obtain ⟨key, hkey⟩ := Shared.mem_registered.mp hd'
      obtain ⟨config', hconfig', -, hnet'⟩ := h.indexed key d' hkey
      have hsame : sh.networkId d' = some config'.networkId := by
        obtain ⟨driver', hget', rfl⟩ := Option.map_eq_some_iff.mp hconfig'
        rw [Shared.networkId, hget']
        rfl
      rw [hsame, Option.some.injEq] at heq
      rw [heq, hnet] at hnet'
      cases hnet'
    · rw [hid]
      rintro _ ⟨⟩
  | takeKeys d keys after => exact hready.1
  | unwrapEntry d after => exact ⟨(hsound.not_mem List.mem_cons_self).1, by rintro _ ⟨⟩⟩
  | unwrapJoined d after => rintro _ ⟨⟩
  | _ => trivial

/-- One request at a time, in order. -/
def Orderly (lowercase : String → String) (s : State) : Prop :=
  ∃ next : Option Task, s.tasks = next.toList ∧ InOrder lowercase s.shared next ∧
    Sound s.shared s.tasks

private theorem Orderly.step (hlower : ToLowercase lowercase) {s : State} {o : Op}
    (h : Orderly lowercase s) (hseq : Sequential s o) (hfits : Fitting lowercase s o) :
    Orderly lowercase (step lowercase s o) := by
  obtain ⟨next, htasks, horder, hsound⟩ := h
  cases o with
  | request r =>
    have hidle : s.tasks = [] := hseq
    have hready : r.task.Ready lowercase s.shared.registry s.shared.config :=
      Fits.ready horder.indexed horder.normal hfits
    refine ⟨some r.task, ?_, horder.goOn_some hready, hsound.step trivial⟩
    simp [Daemon.step, hidle]
  | advance i env =>
    have hstep : Clean s (.advance i env) → Sound (Daemon.step lowercase s (.advance i env)).shared
        (Daemon.step lowercase s (.advance i env)).tasks := hsound.step
    simp only [Daemon.step] at hstep ⊢
    cases next with
    | none =>
      simp only [htasks, Option.toList_none, List.getElem?_nil] at hstep ⊢
      exact ⟨none, htasks, horder, hsound⟩
    | some t =>
      cases i with
      | succ i =>
        simp only [htasks, Option.toList_some, List.getElem?_cons_succ, List.getElem?_nil]
        exact ⟨some t, htasks, horder, hsound⟩
      | zero =>
        have hclean : Clean s (.advance 0 env) := by
          intro t' ht'
          simp only [htasks, Option.toList_some, List.getElem?_cons_zero] at ht'
          cases ht'
          rw [htasks]
          rw [htasks] at hsound
          exact clear_of_ready hsound horder
        have hnext := hstep hclean
        simp only [htasks, Option.toList_some, List.getElem?_cons_zero] at hnext ⊢
        refine ⟨_, ?_, horder.advance hlower hseq, hnext⟩
        simp
  | recv d =>
    have hnext : Sound (Daemon.step lowercase s (.recv d)).shared
      (Daemon.step lowercase s (.recv d)).tasks := hsound.step trivial
    simp only [Daemon.step] at hnext ⊢
    split
    · next hsent =>
      rw [if_pos hsent] at hnext
      exact ⟨next, htasks, horder.modify d fun _ ↦ rfl, hnext⟩
    · exact ⟨next, htasks, horder, hsound⟩
  | close d =>
    have hnext : Sound (Daemon.step lowercase s (.close d)).shared
      (Daemon.step lowercase s (.close d)).tasks := hsound.step trivial
    simp only [Daemon.step] at hnext ⊢
    split
    · next hclosed =>
      rw [if_pos hclosed] at hnext
      exact ⟨next, htasks, horder.modify d fun _ ↦ rfl, hnext⟩
    · exact ⟨next, htasks, horder, hsound⟩

private theorem orderly_start : Orderly lowercase State.start :=
  ⟨none, rfl, ⟨nofun, nofun, nofun⟩, sound_start⟩

/-- Where no request is in flight, either name of a network whose driver runs leads to it. -/
private theorem Orderly.lookup {s : State} (h : Orderly lowercase s) (hidle : s.tasks = [])
    {d : Nat} {driver : Driver} (hget : s.shared.drivers[d]? = some driver)
    (hrun : driver.running = true) : s.shared.registry.lookup driver.config.id = some d ∧
      s.shared.registry.lookup driver.config.networkId = some d := by
  obtain ⟨_, -, horder, hsound⟩ := h
  rw [hidle] at hsound
  have hrunning : s.shared.running d = true := by
    rw [Shared.running, hget, Option.any_some, hrun]
  obtain ⟨key, hkey⟩ := Shared.mem_registered.mp ((hsound.running_iff d).mp hrunning)
  obtain ⟨config, hconfig, hid, hnet⟩ := horder.indexed key d hkey
  rw [Shared.config, hget] at hconfig
  cases hconfig
  exact ⟨hid, hnet⟩

/-- Every network that is joined has both its names in the registry: in every run of requests one
after the other whose names are their own, whenever no request is in flight no two networks whose
drivers run share a config id or a network id, and either name of each leads to it. -/
theorem joined_networks_indexed (hlower : ToLowercase lowercase) {ops : List Op}
    (hops : AllSteps (step lowercase) (fun s o ↦ Sequential s o ∧ Fitting lowercase s o)
      .start ops) :
    ∀ pre post, ops = pre ++ post → (run (step lowercase) .start pre).tasks = [] →
      ∀ d driver, (run (step lowercase) .start pre).shared.drivers[d]? = some driver →
        driver.running = true →
        ((run (step lowercase) .start pre).shared.registry.lookup driver.config.id = some d ∧
          (run (step lowercase) .start pre).shared.registry.lookup driver.config.networkId =
            some d) ∧
        ∀ d' driver', (run (step lowercase) .start pre).shared.drivers[d']? = some driver' →
          driver'.running = true →
          driver.config.id = driver'.config.id ∨
            driver.config.networkId = driver'.config.networkId → d = d' := by
  intro pre post hpre hidle d driver hget hrun
  have horderly : Orderly lowercase (run (step lowercase) .start pre) :=
    forall_run_of_allSteps (fun s o hs hc ↦ hs.step hlower hc.1 hc.2) orderly_start hops pre post
      hpre
  obtain ⟨hid, hnet⟩ := horderly.lookup hidle hget hrun
  refine ⟨⟨hid, hnet⟩, fun d' driver' hget' hrun' hsame ↦ ?_⟩
  obtain ⟨hid', hnet'⟩ := horderly.lookup hidle hget' hrun'
  rcases hsame with hsame | hsame
  · rw [hsame, hid'] at hid
    exact (Option.some.inj hid).symm
  · rw [hsame, hnet'] at hnet
    exact (Option.some.inj hnet).symm

/-! ### Two runs -/

private theorem toLower_of_not_isUpper {c : Char} (h : c.isUpper = false) : c.toLower = c := by
  delta Char.isUpper at h
  unfold Char.toLower
  rw [dif_neg]
  simpa using h

private theorem isUpper_toLower (c : Char) : c.toLower.isUpper = false := by
  by_cases h : c.isUpper = true
  · have hc : c.val ≥ 'A'.val ∧ c.val ≤ 'Z'.val := of_decide_eq_true h
    have hrange : 65 ≤ c.val.toNat ∧ c.val.toNat ≤ 90 := by
      simpa [UInt32.le_iff_toNat_le] using hc
    have hval : c.toLower.val.toNat = c.val.toNat + 32 := by
      unfold Char.toLower
      rw [dif_pos hc, UInt32.toNat_add]
      have hshift : ('a'.val - 'A'.val).toNat = 32 := by decide
      omega
    have hgt : ¬ c.toLower.val.toNat ≤ 90 := by omega
    delta Char.isUpper
    simp only [UInt32.le_iff_toNat_le, ge_iff_le, decide_eq_false_iff_not, not_and]
    exact fun _ hle ↦ hgt hle
  · rw [Bool.not_eq_true] at h
    rw [toLower_of_not_isUpper h, h]

/-- On ASCII texts `str::to_lowercase` is this. -/
theorem toLowercase_asciiLower : ToLowercase Text.asciiLower where
  kept s hs := by
    have hmap : s.toList.map Char.toLower = s.toList := by
      conv_rhs => rw [← List.map_id s.toList]
      exact List.map_congr_left fun c hc ↦ toLower_of_not_isUpper (hs c hc).2
    rw [Text.asciiLower, hmap, String.ofList_toList]
  not_upper s c hc := by
    rw [Text.asciiLower, String.toList_ofList] at hc
    obtain ⟨c', -, rfl⟩ := List.mem_map.mp hc
    exact isUpper_toLower c'

/-- A second network joins under a network id with capitals, and its signaling is changed. -/
def joinOffice : List Op :=
  joinHome ++ .request (.networkAdd ⟨"net_2", "Office", "nostr"⟩) :: steps 5 ++
    .request (.networkUpdate ⟨"net_2", "office", "mdns"⟩) :: steps 9 ++ .recv 1 :: steps 4

/-- Both networks are found under both names. -/
theorem home_and_office_indexed :
    let s := run (step Text.asciiLower) .start joinOffice
    s.tasks = [] ∧
      (s.shared.registry.lookup "net_1" = some 0 ∧ s.shared.registry.lookup "home" = some 0) ∧
      s.shared.registry.lookup "net_2" = some 2 ∧ s.shared.registry.lookup "office" = some 2 := by
  intro s
  have hops : AllSteps (step Text.asciiLower)
      (fun s o ↦ Sequential s o ∧ Fitting Text.asciiLower s o) .start joinOffice := by
    decide +kernel
  have hidle : s.tasks = [] := by decide +kernel
  have hindexed := joined_networks_indexed toLowercase_asciiLower hops joinOffice []
    (List.append_nil _).symm hidle
  refine ⟨hidle, ?_, ?_⟩
  · exact (hindexed 0 ⟨⟨"net_1", "home", "nostr"⟩, false, true⟩ (by decide +kernel) rfl).1
  · exact (hindexed 2 ⟨⟨"net_2", "office", "mdns"⟩, false, true⟩ (by decide +kernel) rfl).1

/-- The same network is added twice, the second time with a capital: two drivers run for it, and
its network id leads to the first. -/
theorem home_joined_twice :
    let ops := joinHome ++ .request (.networkAdd ⟨"net_2", "Home", "nostr"⟩) :: steps 5
    let s := run (step Text.asciiLower) .start ops
    AllSteps (step Text.asciiLower) Sequential .start ops ∧ s.tasks = [] ∧
      s.shared.running 0 = true ∧ s.shared.running 1 = true ∧
      s.shared.networkId 0 = some "home" ∧ s.shared.networkId 1 = some "home" ∧
      s.shared.registry.lookup "home" = some 0 := by
  decide +kernel

end MyOwnMesh.Daemon
