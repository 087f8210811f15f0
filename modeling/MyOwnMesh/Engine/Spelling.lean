import MyOwnMesh.Engine.Coherence

/-!
# Spellings of a governance target

`propose_transition` (`handle.rs:337–360`) and `on_propose` hand the target of a grant,
revoke or evict to the governance code as it is written. Signatures normalize an id and
the roster strips its suffix, while the quorum table, the role map and the member log
compare the raw text. A spelling therefore acts on the device it normalizes to in the
same way as the wire identity exactly when it is the wire identity.
-/

namespace MyOwnMesh

open Lib Lib.Replay

/-- A governance act with its target left open. -/
inductive Act where
  | grant (role : Role)
  | revoke
  | evict
  deriving DecidableEq, Repr

/-- The transition an act on a written target proposes. -/
def Act.on (a : Act) (target : String) : TransitionVariant :=
  match a with
  | .grant role => .roleGrant target role
  | .revoke => .roleRevoke target
  | .evict => .evict target

variable (P : Primitives)

/-- How a proposal reaches the node: its own call, or a message one peer key signed. -/
inductive Route where
  | own (env : Env)
  | peer (env : Env) (peerId : String) (key : P.SigningKey) (proposalId : String)
    (createdAt : UInt64)

variable {P}

/-- The operation that brings a transition in on a route. -/
def Route.op (route : Route P) (networkId : String) (v : TransitionVariant) : Env × GovOp :=
  match route with
  | .own env => (env, .propose v)
  | .peer env peerId key proposalId createdAt =>
    (env, .onPropose peerId
      { proposalId := proposalId
        variant := v
        proposer := publicId P key
        createdAt := createdAt
        signature := signTransition P networkId v key })

/-- What the governance state and the roster say about a device. -/
structure Standing where
  role : Option Role
  member : Option Bool
  evicted : Bool
  row : Option Role
  deriving DecidableEq, Repr

/-- The standing of a device in a state. -/
def EngineState.standing (s : EngineState P) (d : String) : Standing where
  role := s.governance.roles[d]?
  member := (memberLogVerdict P s.governance s.governance.memberLog s.networkId)[d]?
  evicted := logEvicted s d
  row := s.roster.row d

/-- A written target and the device's wire identity meet the same verdict, and leave the
device with the same standing. -/
structure SpellingAgrees (s : EngineState P) (route : Route P) (a : Act)
    (written device : String) : Prop where
  ratified : (ratifiedBy s (route.op s.networkId (a.on written))).isSome =
    (ratifiedBy s (route.op s.networkId (a.on device))).isSome
  standing : (ratifiedBy s (route.op s.networkId (a.on device))).isSome = true →
    (step s (route.op s.networkId (a.on written))).standing device =
      (step s (route.op s.networkId (a.on device))).standing device

variable (P) in
/-- The law on a node with this key: in every reachable closed state and on every route, an
act on a written target agrees with the act on the device. -/
def SpellingSafe (key : P.SigningKey) (a : Act) (written device : String) : Prop :=
  ∀ networkId label roster topology ops route,
    (run step (EngineState.start networkId key label roster topology) ops).governance.kind =
        .closed →
      SpellingAgrees (run step (EngineState.start networkId key label roster topology) ops)
        route a written device

/-! ### What a proposal on a route does -/

/-- A peer's message is ratified at once when its key alone meets the quorum. -/
theorem ratifiedBy_peer (env : Env) {s : EngineState P} {peerId : String} {key : P.SigningKey}
    {proposalId : String} (hpeer : pubkeyPart peerId = publicId P key)
    (hfresh : ∀ p ∈ s.governance.pending, p.id ≠ proposalId) (createdAt : UInt64)
    (v : TransitionVariant) :
    ratifiedBy s ((Route.peer env peerId key proposalId createdAt).op s.networkId v) =
      if QuorumMet s.governance (signedBy P s.networkId key createdAt v) then
        some (signedBy P s.networkId key createdAt v)
      else none :=
  ratifiedBy_onPropose env hpeer hfresh createdAt v

/-- An act on one text has no effect on the role kept under another. -/
private theorem roleEffect_on {t : Transition} {a : Act} {written d : String}
    (ht : t.variant = a.on written) (hne : written ≠ d) : roleEffect t d = none := by
  unfold roleEffect
  rw [ht]
  cases a <;> simp [Act.on, hne]

private theorem role_kept {s : EngineState P} {v : NetworkState} {o : Env × GovOp}
    {t : Transition} {a : Act} {written d : String}
    (hv : ReplaysTo P s.networkId s.governance v) (hby : ratifiedBy s o = some t)
    (ht : t.variant = a.on written) (hne : written ≠ d) {r : Role} (hr : r ≠ .member) :
    (step s o).governance.roles[d]? = some r ↔ s.governance.roles[d]? = some r := by
  rw [role_step_of_ratified hv hby hr, roleEffect_on ht hne, Option.getD_none, ite_self]

/-! ### A network one device founds -/

/-- The founder's node right after it closed its network. -/
def founded (networkId : String) (key : P.SigningKey) : EngineState P :=
  step (.start networkId key "" (.emptyFor networkId) .fullMesh)
    (clearEnv 0 "", .propose (.kindChange .closed))

/-- The founder's node after it also made a device a controller. -/
def foundedWith (networkId : String) (key : P.SigningKey) (device : String) : EngineState P :=
  step (founded networkId key) (clearEnv 0 "", .propose ((Act.grant .controller).on device))

/-- The founder's node: a closed network whose log replays, nothing pending. -/
structure FounderNode (s : EngineState P) (key : P.SigningKey) : Prop where
  signingKey : s.signingKey = key
  closed : s.governance.kind = .closed
  pending : s.governance.pending = []
  replays : ∃ v, ReplaysTo P s.networkId s.governance v

/-- The founder's node before any other entry: the founder is the only device with a role. -/
structure FreshlyClosed (s : EngineState P) (key : P.SigningKey) : Prop
    extends FounderNode s key where
  memberLog : s.governance.memberLog = []
  roles : ∀ d : String, s.governance.roles[d]? =
    if publicId P key = d then some .owner else none

/-- The founder's node with one controller. -/
structure Staffed (s : EngineState P) (key : P.SigningKey) (device : String) : Prop
    extends FounderNode s key where
  controller : s.governance.roles[device]? = some .controller
  authority : s.governance.IsAuthority (publicId P key)

private theorem founded_eq_run (networkId : String) (key : P.SigningKey) :
    founded networkId key = run step (.start networkId key "" (.emptyFor networkId) .fullMesh)
      [(clearEnv 0 "", .propose (.kindChange .closed))] := rfl

private theorem foundedWith_eq_run (networkId : String) (key : P.SigningKey) (device : String) :
    foundedWith networkId key device =
      run step (.start networkId key "" (.emptyFor networkId) .fullMesh)
        [(clearEnv 0 "", .propose (.kindChange .closed)),
          (clearEnv 0 "", .propose ((Act.grant .controller).on device))] := rfl

private theorem freshlyClosed_founded (networkId : String) (key : P.SigningKey) :
    FreshlyClosed (founded networkId key) key := by
  have hg := governance_propose (clear_clearEnv 0 "")
    (s := .start networkId key "" (.emptyFor networkId) .fullMesh) (v := .kindChange .closed)
    rfl (by simp [EngineState.start, NetworkState.emptyFor])
    ⟨rfl, by simp [ownEntry, signedBy]⟩
  rw [routed_governance P rfl (by simp [ownEntry, signedBy])] at hg
  have hrun : founded networkId key =
      (propose (clearEnv 0 "") (.start networkId key "" (.emptyFor networkId) .fullMesh)
        (.kindChange .closed)).1 := rfl
  rw [← hrun] at hg
  refine ⟨⟨(step_frame _ _).2, ?_, ?_, ?_⟩, ?_, fun d ↦ ?_⟩
  · simp only [hg, kind_applyTransition, kindAfter, ownEntry, signedBy]
  · simp only [hg, EngineState.start, NetworkState.emptyFor]
  · exact replays_step _ (replays_start networkId key "" (.emptyFor networkId) .fullMesh)
  · simp only [hg, memberLog_applyTransition, EngineState.start, NetworkState.emptyFor]
  · rw [hg]
    simp only [roles_applyTransition]
    simp only [roleEffect, ownEntry, signedBy, List.head?_cons, Option.some.injEq,
      EngineState.start, NetworkState.emptyFor, Std.ExtTreeMap.getElem?_empty]
    split <;> rfl

section FounderNode

variable {s : EngineState P} {key : P.SigningKey}

private theorem FounderNode.fresh (h : FounderNode s key) (id : String) :
    ∀ p ∈ s.governance.pending, p.id ≠ id := by
  simp [h.pending]

private theorem FounderNode.signed (h : FounderNode s key) (env : Env) (v : TransitionVariant) :
    (ownEntry env s v).signers = [publicId P key] := by
  simp only [ownEntry, signedBy, h.signingKey]

private theorem FounderNode.ratifiedBy (h : FounderNode s key) (v : TransitionVariant) :
    MyOwnMesh.ratifiedBy s (clearEnv 0 "", .propose v) =
      if alreadyGranted s.governance v = false ∧
          QuorumMet s.governance (ownEntry (clearEnv 0 "") s v) then
        some (ownEntry (clearEnv 0 "") s v)
      else none :=
  ratifiedBy_propose (clear_clearEnv 0 "") (h.fresh _)

private theorem FounderNode.variant (h : FounderNode s key) {v : TransitionVariant}
    {t : Transition} (ht : MyOwnMesh.ratifiedBy s (clearEnv 0 "", .propose v) = some t) :
    t.variant = v := by
  rw [h.ratifiedBy] at ht
  split at ht
  · cases ht
    rfl
  · cases ht

/-- The founder alone meets every quorum of its network. -/
private theorem FreshlyClosed.quorumMet (h : FreshlyClosed s key) (env : Env) (a : Act)
    (target : String) : QuorumMet s.governance (ownEntry env s (a.on target)) := by
  have howner : OwnerSigned s.governance (ownEntry env s (a.on target)) := by
    refine ⟨publicId P key, ?_, ?_⟩
    · rw [h.signed, List.mem_singleton]
    · rw [NetworkState.IsOwner, h.roles, if_pos rfl]
  refine howner.quorumMet (x := target) ?_
  cases a <;> rfl

private theorem FreshlyClosed.new (h : FreshlyClosed s key) (device : String) {r : Role}
    (hr : r = .owner → publicId P key ≠ device) :
    alreadyGranted s.governance ((Act.grant r).on device) = false := by
  simp only [alreadyGranted, Act.on, h.roles]
  split
  · next hk =>
    cases r with
    | owner => exact absurd hk (hr rfl)
    | controller => rfl
    | member => rfl
  · rfl

private theorem FreshlyClosed.ratifiedBy (h : FreshlyClosed s key) (device : String) {r : Role}
    (hr : r = .owner → publicId P key ≠ device) :
    MyOwnMesh.ratifiedBy s (clearEnv 0 "", .propose ((Act.grant r).on device)) =
      some (ownEntry (clearEnv 0 "") s ((Act.grant r).on device)) := by
  rw [h.toFounderNode.ratifiedBy, if_pos ⟨h.new device hr, h.quorumMet _ _ _⟩]

private theorem FreshlyClosed.staffed (h : FreshlyClosed s key) (device : String) :
    Staffed (step s (clearEnv 0 "", .propose ((Act.grant .controller).on device))) key
      device := by
  have hg := governance_propose (clear_clearEnv 0 "")
    (h.new device (r := .controller) (by simp)) (h.fresh _) (h.quorumMet _ _ _)
  rw [routed_governance P rfl (by simp [ownEntry, signedBy, Act.on]), h.pending] at hg
  have hrole : ∀ d : String, (step s (clearEnv 0 "",
      .propose ((Act.grant .controller).on device))).governance.roles[d]? =
      if device = d then some .controller
        else if publicId P key = d then some .owner else none := by
    intro d
    simp only [step, hg, roles_applyTransition, h.roles]
    simp only [roleEffect, ownEntry, signedBy, Act.on]
    split
    · rw [Option.getD_some]
    · rw [Option.getD_none]
  refine ⟨⟨(step_frame _ _).2.trans h.signingKey, ?_, ?_, replays_step _ h.replays⟩,
    by rw [hrole, if_pos rfl], ?_⟩
  · simp only [step, hg, kind_applyTransition]
    simp only [kindAfter, ownEntry, signedBy, Act.on, h.closed]
  · simp only [step, hg]
  · rw [NetworkState.IsAuthority, hrole]
    by_cases hd : device = publicId P key <;> simp [hd]

private theorem staffed_foundedWith (networkId : String) (key : P.SigningKey) (device : String) :
    Staffed (foundedWith networkId key device) key device := by
  rw [foundedWith]
  exact (freshlyClosed_founded networkId key).staffed device

/-! ### Every other spelling breaks the law -/

/-- What the two runs share once the canonical call is ratified. -/
private theorem FounderNode.kept (hs : FounderNode s key) {a : Act} {written device : String}
    {t : Transition} (h : SpellingAgrees s (.own (clearEnv 0 "")) a written device)
    (hby : MyOwnMesh.ratifiedBy s (clearEnv 0 "", .propose (a.on device)) = some t)
    (hne : written ≠ device) {r : Role} (hr : r ≠ .member) :
    (step s (clearEnv 0 "", .propose (a.on device))).governance.roles[device]? = some r ↔
      s.governance.roles[device]? = some r := by
  obtain ⟨v, hv⟩ := hs.replays
  have hsome : (MyOwnMesh.ratifiedBy s (clearEnv 0 "", .propose (a.on device))).isSome = true := by
    rw [hby]
    rfl
  obtain ⟨t', ht'⟩ := Option.isSome_iff_exists.mp (h.ratified.trans hsome)
  have hrole := congrArg Standing.role (h.standing hsome)
  simp only [EngineState.standing, Route.op] at hrole ht'
  rw [← role_kept hv ht' (hs.variant ht') hne hr, hrole]

private theorem Staffed.removal_disagrees {a : Act} (ha : a = .revoke ∨ a = .evict)
    {written device : String} (hs : Staffed s key device) (hne : written ≠ device) :
    ¬ SpellingAgrees s (.own (clearEnv 0 "")) a written device := by
  intro h
  obtain ⟨v, hv⟩ := hs.replays
  have hq : QuorumMet s.governance (ownEntry (clearEnv 0 "") s (a.on device)) := by
    have hsigned : AuthoritySigned s.governance (ownEntry (clearEnv 0 "") s (a.on device)) :=
      ⟨publicId P key, by rw [hs.signed, List.mem_singleton], hs.authority⟩
    have ho : ¬ s.governance.IsOwner device := by simp [NetworkState.IsOwner, hs.controller]
    unfold QuorumMet
    rcases ha with rfl | rfl
    · exact fun _ ↦ ⟨hsigned, fun h ↦ absurd h ho⟩
    · exact fun _ ↦ ⟨hsigned, fun h ↦ absurd h ho⟩
  have hnew : alreadyGranted s.governance (a.on device) = false := by
    rcases ha with rfl | rfl <;> rfl
  have hby := hs.ratifiedBy (a.on device)
  rw [if_pos ⟨hnew, hq⟩] at hby
  have hafter := (hs.kept h hby hne (r := .controller) (by decide)).mpr hs.controller
  rw [role_step_of_ratified hv hby (by decide)] at hafter
  rcases ha with rfl | rfl <;>
    simp [Act.on, ownEntry, signedBy, memberTier, NetworkState.roleOf, hs.controller,
      roleEffect] at hafter

private theorem FreshlyClosed.authority_grant_disagrees (hs : FreshlyClosed s key) {r : Role}
    (hr : r ≠ .member) {written device : String} (hne : written ≠ device)
    (hself : r = .owner → publicId P key ≠ device) :
    ¬ SpellingAgrees s (.own (clearEnv 0 "")) (.grant r) written device := by
  intro h
  obtain ⟨v, hv⟩ := hs.replays
  have hby := hs.ratifiedBy device hself
  have hafter : (step s
      (clearEnv 0 "", .propose ((Act.grant r).on device))).governance.roles[device]? =
      some r := by
    rw [role_step_of_ratified hv hby hr]
    cases r with
    | member => exact absurd rfl hr
    | controller => simp [Act.on, ownEntry, signedBy, memberTier, roleEffect]
    | owner => simp [Act.on, ownEntry, signedBy, memberTier, roleEffect]
  have hbefore := (hs.kept h hby hne hr).mp hafter
  rw [hs.roles] at hbefore
  split at hbefore
  · next hk =>
    cases hbefore
    exact hself rfl hk
  · cases hbefore

/-- The founder's own wire identity already holds Owner, so only the other spelling is new. -/
private theorem FreshlyClosed.owner_grant_disagrees (hs : FreshlyClosed s key)
    {written : String} (hne : written ≠ publicId P key) :
    ¬ SpellingAgrees s (.own (clearEnv 0 "")) (.grant .owner) written (publicId P key) := by
  intro h
  have hheld : alreadyGranted s.governance ((Act.grant .owner).on (publicId P key)) = true := by
    simp [alreadyGranted, Act.on, hs.roles]
  have hratified := h.ratified
  simp only [Route.op] at hratified
  rw [hs.ratifiedBy written (fun _ ↦ Ne.symm hne), hs.toFounderNode.ratifiedBy, hheld] at hratified
  simp at hratified

/-- The member log that one admission leaves on the founder's node. -/
private theorem FreshlyClosed.memberLog_step (hs : FreshlyClosed s key) (target : String) :
    (step s (clearEnv 0 "", .propose ((Act.grant .member).on target))).governance.memberLog =
      [ownEntry (clearEnv 0 "") s ((Act.grant .member).on target)] := by
  obtain ⟨-, -, pending, hg⟩ := governance_step_of_ratified
    (hs.ratifiedBy target (r := .member) (by simp))
  rw [hg, routed_member P rfl]
  simp only [hs.memberLog, List.nil_append]

private theorem FreshlyClosed.member_grant_disagrees (hs : FreshlyClosed s key)
    {written device : String} (hne : written ≠ device) :
    ¬ SpellingAgrees s (.own (clearEnv 0 "")) (.grant .member) written device := by
  intro h
  obtain ⟨v, hv⟩ := hs.replays
  have hby := hs.ratifiedBy device (r := .member) (by simp)
  have howner : (step s (clearEnv 0 "",
      .propose ((Act.grant .member).on device))).governance.IsOwner (publicId P key) := by
    rw [NetworkState.IsOwner, role_step_of_ratified hv hby (by decide)]
    simp [Act.on, ownEntry, signedBy, memberTier, hs.roles]
  have hmember := congrArg Standing.member (h.standing (by simp [Route.op, hby]))
  simp only [EngineState.standing, Route.op, hs.memberLog_step, (step_frame s _).1] at hmember
  have hadmitted : Admitted P (step s (clearEnv 0 "",
      .propose ((Act.grant .member).on device))).governance s.networkId
      [ownEntry (clearEnv 0 "") s ((Act.grant .member).on device)] device := by
    refine ⟨_, List.mem_singleton_self _, ⟨verifyTransitionSignatures_signedBy P _ _ _ _,
      publicId P key, by rw [hs.signed, List.mem_singleton], howner.isAuthority⟩, rfl,
      fun e he _ hr ↦ ?_⟩
    rw [List.mem_singleton] at he
    subst he
    simp [Removes, ownEntry, signedBy, Act.on] at hr
  rw [(memberLogVerdict_eq_true_iff P).mpr hadmitted, memberLogVerdict_eq_true_iff] at hmember
  obtain ⟨e, he, -, had, -⟩ := hmember
  rw [List.mem_singleton] at he
  subst he
  simp only [Admits, ownEntry, signedBy, Act.on, TransitionVariant.roleGrant.injEq] at had
  exact hne had.1

end FounderNode

/-- A spelling of a device is safe as the target of an act exactly when it is the wire
identity itself. -/
theorem spelling_safe_iff (key : P.SigningKey) (a : Act) {written device : String}
    (h : normalizeDeviceId P written = .ok device) :
    SpellingSafe P key a written device ↔ normalizeDeviceId P written = .ok written := by
  constructor
  · intro hall
    by_contra hn
    have hne : written ≠ device := by
      rintro rfl
      exact hn h
    have hfounded := freshlyClosed_founded "" key
    have hstaffed := staffed_foundedWith "" key device
    have hsole : SpellingAgrees (founded "" key) (.own (clearEnv 0 "")) a written device := by
      rw [founded_eq_run]
      refine hall _ _ _ _ _ _ ?_
      rw [← founded_eq_run]
      exact hfounded.closed
    have hwith : SpellingAgrees (foundedWith "" key device) (.own (clearEnv 0 "")) a written
        device := by
      rw [foundedWith_eq_run]
      refine hall _ _ _ _ _ _ ?_
      rw [← foundedWith_eq_run]
      exact hstaffed.closed
    cases a with
    | grant r =>
      cases r with
      | member => exact hfounded.member_grant_disagrees hne hsole
      | controller =>
        exact hfounded.authority_grant_disagrees (by decide) hne (fun h ↦ by cases h) hsole
      | owner =>
        by_cases hself : publicId P key = device
        · subst hself
          exact hfounded.owner_grant_disagrees hne hsole
        · exact hfounded.authority_grant_disagrees (by decide) hne (fun _ ↦ hself) hsole
    | revoke => exact hstaffed.removal_disagrees (.inl rfl) hne hwith
    | evict => exact hstaffed.removal_disagrees (.inr rfl) hne hwith
  · intro hc networkId label roster topology ops route _
    rw [h, Except.ok.injEq] at hc
    subst hc
    exact ⟨rfl, fun _ ↦ rfl⟩

/-- No node may evict by the display form, which is the one its user sees. -/
theorem display_form_not_safe :
    ¬ SpellingSafe seeded (1 : UInt8) .evict (displayId seeded (seededDevice 2))
      (seededDevice 2) := by
  intro h
  have hn := (spelling_safe_iff (1 : UInt8) .evict
    (normalizeDeviceId_displayId seeded (2 : UInt8))).mp h
  have heq := (normalizeDeviceId_displayId seeded (2 : UInt8)).symm.trans hn
  exact displayId_ne seeded _ (Except.ok.inj heq).symm

private theorem fleetNode_eq_run (seed : UInt8) (members : List Transition) :
    fleetNode seed members =
      run step (.start (P := seeded) "fleet" seed "" (.emptyFor "fleet") .fullMesh)
        [(clearEnv 0 "", .adoptTransitionLog fleetLog members)] := rfl

/-- A node of the concrete network that adopted no member entries: its roles and its roster are
those of the governance log. -/
private theorem fleetNode_nil (seed : UInt8) :
    (fleetNode seed []).governance.kind = .closed ∧
      (fleetNode seed []).governance.pending = [] ∧
      (∀ d : String, (fleetNode seed []).governance.roles[d]? = fleet.roles[d]?) ∧
      ∀ k, (fleetNode seed []).roster.row k = fleet.roles[k]? := by
  classical
  obtain ⟨memberLog, hmem, hg, hrows⟩ := fleetNode_spec seed []
  have hlog : memberLog = [] := List.eq_nil_iff_forall_not_mem.mpr fun t ht ↦ by
    simpa using (hmem t).mp ht
  subst hlog
  have hroles : ∀ d : String, (projection seeded "fleet" fleet [])[d]? = fleet.roles[d]? := by
    intro d
    rw [getElem?_projection, if_neg (by rintro ⟨e, he, -⟩; cases he), Option.or_none]
  refine ⟨by rw [hg], by rw [hg]; rfl, fun d ↦ by rw [hg]; exact hroles d, fun k ↦ ?_⟩
  rw [hrows, mirroredRow_none ?_ ?_, hroles]
  · exact fun d r hd ↦ pubkeyPart_of_fleet ((hroles d).symm.trans hd)
  · rw [mem_memberLogRemoved]
    rintro ⟨e, he, -⟩
    cases he

/-- A message of the controller of the concrete network. -/
def controllerRoute : Route seeded :=
  .peer (clearEnv 0 "") (seededDevice 2) (2 : UInt8) "p" 3

private theorem ratifiedBy_controllerRoute (seed : UInt8) (v : TransitionVariant) :
    ratifiedBy (fleetNode seed []) (controllerRoute.op "fleet" v) =
      if QuorumMet (fleetNode seed []).governance (seededEntry 2 3 v) then
        some (seededEntry 2 3 v)
      else none := by
  obtain ⟨-, hpending, -, -⟩ := fleetNode_nil seed
  obtain ⟨hn, -, -⟩ := fleetNode_frame seed []
  have hpeer : pubkeyPart (seededDevice 2) = publicId seeded (2 : UInt8) :=
    pubkeyPart_publicId seeded (2 : UInt8)
  have hfresh : ∀ p ∈ (fleetNode seed []).governance.pending, p.id ≠ "p" := by
    simp [hpending]
  have hby := ratifiedBy_peer (clearEnv 0 "") hpeer hfresh 3
  rw [hn] at hby
  exact hby v

/-- The owner's eviction, asked for by the controller, under its two spellings. -/
private theorem controller_evicts_owner (seed : UInt8) :
    ratifiedBy (fleetNode seed []) (controllerRoute.op "fleet" (.evict (seededDevice 1))) =
        none ∧
      ratifiedBy (fleetNode seed [])
          (controllerRoute.op "fleet" (.evict (displayId seeded (seededDevice 1)))) =
        some (seededEntry 2 3 (.evict (displayId seeded (seededDevice 1)))) := by
  obtain ⟨hkind, -, hroles, -⟩ := fleetNode_nil seed
  rw [ratifiedBy_controllerRoute, ratifiedBy_controllerRoute]
  constructor
  · refine if_neg fun hq ↦ ?_
    obtain ⟨d, hd, ho⟩ := (hq hkind).2 (by simp [NetworkState.IsOwner, hroles])
    rw [signers_seededEntry, List.mem_singleton] at hd
    simp [NetworkState.IsOwner, hroles, hd] at ho
  · refine if_pos fun _ ↦ ⟨⟨seededDevice 2, by simp, .inl (by simp [hroles])⟩, fun ho ↦ ?_⟩
    rw [NetworkState.IsOwner, hroles, roles_fleet] at ho
    split at ho
    · cases ho
    · split at ho
      · next h => exact absurd h.symm (displayId_ne seeded _)
      · cases ho

/-- The controller cannot evict the owner. It writes the owner in display form, is taken at
its word that this is a plain member, and every node that hears it drops the owner's row. -/
theorem controller_drops_owner_by_display_form :
    normalizeDeviceId seeded (displayId seeded (seededDevice 1)) = .ok (seededDevice 1) ∧
      ¬ SpellingSafe seeded (3 : UInt8) .evict (displayId seeded (seededDevice 1))
        (seededDevice 1) ∧
      ratifiedBy (fleetNode 3 [])
        (controllerRoute.op "fleet" (.evict (seededDevice 1))) = none ∧
      (fleetNode 3 []).roster.row (seededDevice 1) = some .owner ∧
      (step (fleetNode 3 []) (controllerRoute.op "fleet"
        (.evict (displayId seeded (seededDevice 1))))).roster.row (seededDevice 1) = none := by
  obtain ⟨hkind, -, -, hrows⟩ := fleetNode_nil 3
  obtain ⟨hn, -, -⟩ := fleetNode_frame 3 []
  obtain ⟨hcanon, hdisplay⟩ := controller_evicts_owner 3
  refine ⟨normalizeDeviceId_displayId seeded (1 : UInt8), fun hsafe ↦ ?_, hcanon, ?_, ?_⟩
  · have hagree := hsafe "fleet" "" (.emptyFor "fleet") .fullMesh
      [(clearEnv 0 "", .adoptTransitionLog fleetLog [])] controllerRoute
    rw [← fleetNode_eq_run] at hagree
    have hratified := (hagree hkind).ratified
    simp only [Act.on, hn, hdisplay, hcanon] at hratified
    cases hratified
  · simp [hrows]
  · rw [row_step_of_ratified hdisplay (fun _ ↦ rfl)]
    simp [localRow, pubkeyPart_displayId]

end MyOwnMesh
