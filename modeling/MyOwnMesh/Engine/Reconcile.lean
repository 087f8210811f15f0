import MyOwnMesh.Engine.Coherence

/-!
# Reconciling the roster with the signed state

`reconcile_signed_projection` (`governance.rs:1115–1133`) rebuilds the role map from the two
signed logs and mirrors it into the roster; an adoption runs the same mirror. The mirror
lists every role, then drops every tombstone but this device, so a device with a role and
a tombstone is added and dropped again by every reconciliation.
-/

namespace MyOwnMesh

open Lib Lib.Replay

variable (P : Primitives)

/-- Rebuild the role map and the roster from the signed logs; `governance.rs:1115–1133`. -/
def reconcileSignedProjection (now : UInt64) (networkId : String) (governance : NetworkState)
    (roster : Roster) (selfPubkey : String) :
    Except Error (NetworkState × Roster × RosterProjectionRepair) :=
  match verifiedProjection P networkId governance with
  | .error e => .error e
  | .ok (roles, removed) =>
    let mirrored := mirrorRolesToRoster now roles roster removed selfPubkey
    .ok ({ governance with roles := roles }, mirrored.1,
      { mirrored.2 with governanceRolesUpdated := decide (governance.roles ≠ roles) })

variable {P}

/-! ### The promise of a reconciliation -/

/-- The same row up to its role tag. -/
def AuthorizedPeer.SameDevice (e e' : AuthorizedPeer) : Prop :=
  e'.deviceId = e.deviceId ∧ e'.label = e.label ∧ e'.approvedAt = e.approvedAt

/-- What a roster promises after a reconciliation: every signed role is listed with that
role, every tombstone without a role is absent unless it is this device, and every other
row is still there. -/
structure KeepsPromise (roles : RoleMap) (removed : List String) (selfPubkey : String)
    (before after : Roster) : Prop where
  listed : ∀ d r, roles[d]? = some r →
    isAuthorized after d = true ∧ after.row (pubkeyPart d) = some r
  absent : ∀ d ∈ removed, roles[d]? = none → pubkeyPart d ≠ pubkeyPart selfPubkey →
    isAuthorized after d = false
  kept : ∀ e ∈ before.authorizedDevices,
    ¬ (e.deviceId ∈ removed ∧ roles[e.deviceId]? = none ∧ e.deviceId ≠ pubkeyPart selfPubkey) →
    ∃ e' ∈ after.authorizedDevices, e.SameDevice e'

/-- The role map and the tombstones can be mirrored at once: no role other than this
device's own is tombstoned, ids of one bare key hold one role, and Member if the bare key
has none, and a tombstone written with a suffix hides no row. -/
structure Mirrorable (roles : RoleMap) (removed : List String) (selfPubkey : String)
    (before : Roster) : Prop where
  live : ∀ d r, roles[d]? = some r → pubkeyPart d = pubkeyPart selfPubkey ∨ pubkeyPart d ∉ removed
  agree : ∀ d d' r r', roles[d]? = some r → roles[d']? = some r' →
    pubkeyPart d = pubkeyPart d' → r = r'
  bare : ∀ d r, roles[d]? = some r → roles[pubkeyPart d]? = none → r = .member
  hidden : ∀ d ∈ removed, roles[d]? = none → pubkeyPart d ≠ pubkeyPart selfPubkey →
    pubkeyPart d ∈ removed ∨
      (∀ d' r, roles[d']? = some r → pubkeyPart d' ≠ pubkeyPart d) ∧ isAuthorized before d = false
  rows : ∀ e ∈ before.authorizedDevices, e.deviceId ∈ removed →
    e.deviceId ≠ pubkeyPart selfPubkey → roles[e.deviceId]? = none

/-! ### Rows through the mirror -/

private theorem sameDevice_modifyPeer {pubkey : String} {f : AuthorizedPeer → AuthorizedPeer}
    (hf : ∀ p : AuthorizedPeer, p.SameDevice (f p)) {rows : List AuthorizedPeer}
    {e : AuthorizedPeer} (he : e ∈ rows) : ∃ e' ∈ modifyPeer pubkey f rows, e.SameDevice e' := by
  induction rows with
  | nil => cases he
  | cons p rest ih =>
    rw [modifyPeer]
    rcases List.mem_cons.mp he with rfl | he
    · split
      · exact ⟨f e, by simp, hf e⟩
      · exact ⟨e, by simp, rfl, rfl, rfl⟩
    · split
      · exact ⟨e, by simp [he], rfl, rfl, rfl⟩
      · obtain ⟨e', hmem, hsame⟩ := ih he
        exact ⟨e', by simp [hmem], hsame⟩

private theorem sameDevice_setRoleIn {roster : Roster} {e : AuthorizedPeer}
    (he : e ∈ roster.authorizedDevices) (deviceId : String) (role : Role) :
    ∃ e' ∈ (setRoleIn roster deviceId role).1.authorizedDevices, e.SameDevice e' := by
  unfold setRoleIn
  split
  · split
    · exact sameDevice_modifyPeer (f := fun p ↦ { p with role := role })
        (fun _ ↦ ⟨rfl, rfl, rfl⟩) he
    · exact ⟨e, he, rfl, rfl, rfl⟩
  · exact ⟨e, he, rfl, rfl, rfl⟩

private theorem sameDevice_grantIn {roster : Roster} {e : AuthorizedPeer}
    (he : e ∈ roster.authorizedDevices) (now : UInt64) (deviceId label : String) (role : Role) :
    ∃ e' ∈ (grantIn now roster deviceId label role).1.authorizedDevices, e.SameDevice e' := by
  unfold grantIn
  split
  · exact sameDevice_setRoleIn he deviceId role
  · next hn =>
    have hadd : e ∈ (addPeerIn now roster deviceId label).authorizedDevices := by
      rw [addPeerIn, if_neg hn]
      exact List.mem_append_left _ he
    exact sameDevice_setRoleIn hadd deviceId role

private theorem sameDevice_foldl_mirrorRole (now : UInt64) (es : List (String × Role))
    {acc : Roster × RosterProjectionRepair} {e : AuthorizedPeer}
    (he : e ∈ acc.1.authorizedDevices) :
    ∃ e' ∈ (es.foldl (mirrorRole now) acc).1.authorizedDevices, e.SameDevice e' := by
  induction es generalizing acc e with
  | nil => exact ⟨e, he, rfl, rfl, rfl⟩
  | cons x rest ih =>
    have hstep : ∃ e₁ ∈ (mirrorRole now acc x).1.authorizedDevices, e.SameDevice e₁ :=
      sameDevice_grantIn he now x.1 "" x.2
    obtain ⟨e₁, he₁, h₁⟩ := hstep
    obtain ⟨e₂, he₂, h₂⟩ := ih he₁
    exact ⟨e₂, he₂, h₂.1.trans h₁.1, h₂.2.1.trans h₁.2.1, h₂.2.2.trans h₁.2.2⟩

/-- The rows of a mirrored roster: kept by the tombstones, and without a stale tag. -/
theorem mem_mirrorRolesToRoster {now : UInt64} {roles : RoleMap} {roster : Roster}
    {removed : List String} {selfPubkey : String} {e : AuthorizedPeer}
    (he : e ∈ (mirrorRolesToRoster now roles roster removed selfPubkey).1.authorizedDevices) :
    (e.deviceId = pubkeyPart selfPubkey ∨ e.deviceId ∉ removed) ∧
      (e.deviceId ∈ roles ∨ e.role = .member) := by
  simp only [mirrorRolesToRoster, List.mem_map, List.mem_filter] at he
  obtain ⟨x, ⟨-, hx⟩, rfl⟩ := he
  have hkeep := of_decide_eq_true hx
  split
  · exact ⟨hkeep, .inr rfl⟩
  · next hc =>
    refine ⟨hkeep, ?_⟩
    by_contra hcon
    rw [not_or] at hcon
    exact hc hcon

/-- A row the tombstones keep is still in the mirrored roster. -/
theorem sameDevice_mirrorRolesToRoster (now : UInt64) (roles : RoleMap) {roster : Roster}
    {removed : List String} {selfPubkey : String} {e : AuthorizedPeer}
    (he : e ∈ roster.authorizedDevices)
    (hkeep : e.deviceId = pubkeyPart selfPubkey ∨ e.deviceId ∉ removed) :
    ∃ e' ∈ (mirrorRolesToRoster now roles roster removed selfPubkey).1.authorizedDevices,
      e.SameDevice e' := by
  have hlisted : ∃ e' ∈ (roles.toList.foldl (mirrorRole now)
      (roster, ⟨[], [], [], false⟩)).1.authorizedDevices, e.SameDevice e' :=
    sameDevice_foldl_mirrorRole now roles.toList he
  obtain ⟨e', he', hsame⟩ := hlisted
  rw [← hsame.1] at hkeep
  simp only [mirrorRolesToRoster, List.mem_map, List.mem_filter]
  refine ⟨_, ⟨e', ⟨he', decide_eq_true hkeep⟩, rfl⟩, ?_⟩
  split
  · exact hsame
  · exact hsame

private theorem setRoleIn_of_row {roster : Roster} {deviceId : String} {role : Role}
    (h : roster.row (pubkeyPart deviceId) = some role) :
    setRoleIn roster deviceId role = (roster, false) := by
  obtain ⟨existing, hfind, hrole⟩ := Option.map_eq_some_iff.mp h
  simp only [setRoleIn, hfind, hrole, ne_eq, not_true_eq_false, ↓reduceIte]

private theorem mirrorRole_of_row (now : UInt64) {acc : Roster × RosterProjectionRepair}
    {e : String × Role} (h : acc.1.row (pubkeyPart e.1) = some e.2) :
    mirrorRole now acc e = acc := by
  have hauth : isAuthorized acc.1 e.1 = true := by
    rw [isAuthorized_eq_isSome_row, h]
    rfl
  simp only [mirrorRole, grantIn, hauth, ↓reduceIte, setRoleIn_of_row h, Bool.false_eq_true]

private theorem foldl_mirrorRole_of_row (now : UInt64) {acc : Roster × RosterProjectionRepair}
    (es : List (String × Role)) (hes : ∀ e ∈ es, acc.1.row (pubkeyPart e.1) = some e.2) :
    es.foldl (mirrorRole now) acc = acc := by
  induction es with
  | nil => rfl
  | cons e rest ih =>
    rw [List.foldl_cons, mirrorRole_of_row now (hes e (by simp))]
    exact ih fun x hx ↦ hes x (by simp [hx])

/-- A roster that lists every role, keeps no tombstone and no stale tag is a fixed point of
the mirror, which then reports nothing. -/
theorem mirrorRolesToRoster_fixed (now : UInt64) {roles : RoleMap} {roster : Roster}
    {removed : List String} {selfPubkey : String}
    (hlisted : ∀ d r, roles[d]? = some r → roster.row (pubkeyPart d) = some r)
    (hrows : ∀ e ∈ roster.authorizedDevices,
      (e.deviceId = pubkeyPart selfPubkey ∨ e.deviceId ∉ removed) ∧
        (e.deviceId ∈ roles ∨ e.role = .member)) :
    mirrorRolesToRoster now roles roster removed selfPubkey =
      (roster, ⟨[], [], [], false⟩) := by
  have hlist : roles.toList.foldl (mirrorRole now) (roster, ⟨[], [], [], false⟩) =
      (roster, ⟨[], [], [], false⟩) :=
    foldl_mirrorRole_of_row now roles.toList fun e he ↦
      hlisted e.1 e.2 (Std.ExtTreeMap.mem_toList_iff_getElem?_eq_some.mp he)
  have hdropped : roster.authorizedDevices.filter (fun e ↦
      e.deviceId ≠ pubkeyPart selfPubkey ∧ e.deviceId ∈ removed) = [] := by
    rw [List.filter_eq_nil_iff]
    intro e he hd
    obtain ⟨hne, hin⟩ := of_decide_eq_true hd
    rcases (hrows e he).1 with h | h
    · exact hne h
    · exact h hin
  have hkept : roster.authorizedDevices.filter (fun e ↦
      e.deviceId = pubkeyPart selfPubkey ∨ e.deviceId ∉ removed) = roster.authorizedDevices := by
    rw [List.filter_eq_self]
    exact fun e he ↦ decide_eq_true (hrows e he).1
  have hclean : ∀ e ∈ roster.authorizedDevices, ¬ (e.deviceId ∉ roles ∧ e.role ≠ .member) := by
    rintro e he ⟨hn, hr⟩
    rcases (hrows e he).2 with h | h
    · exact hn h
    · exact hr h
  have hstale : roster.authorizedDevices.filter (fun e ↦
      e.deviceId ∉ roles ∧ e.role ≠ .member) = [] := by
    rw [List.filter_eq_nil_iff]
    exact fun e he hd ↦ hclean e he (of_decide_eq_true hd)
  have hcleared : roster.authorizedDevices.map (fun e ↦
      if e.deviceId ∉ roles ∧ e.role ≠ .member then { e with role := .member } else e) =
      roster.authorizedDevices := by
    conv_rhs => rw [← List.map_id roster.authorizedDevices]
    exact List.map_congr_left fun e he ↦ if_neg (hclean e he)
  simp only [mirrorRolesToRoster, hlist, hdropped, hkept, hstale, hcleared]
  rfl

/-! ### When the promise is kept -/

private theorem claimedRole_eq_some {roles : RoleMap} {k : String} {r : Role}
    (h : claimedRole roles k = some r) : ∃ d, roles[d]? = some r ∧ pubkeyPart d = k := by
  obtain ⟨e, hfind, rfl⟩ := Option.map_eq_some_iff.mp h
  have hk := List.find?_some hfind
  rw [beq_iff_eq] at hk
  refine ⟨e.1, ?_, hk⟩
  exact Std.ExtTreeMap.mem_toList_iff_getElem?_eq_some.mp
    (List.mem_reverse.mp (List.mem_of_find?_eq_some hfind))

private theorem claimedRole_eq_none_iff {roles : RoleMap} {k : String} :
    claimedRole roles k = none ↔ ∀ d r, roles[d]? = some r → pubkeyPart d ≠ k := by
  unfold claimedRole
  rw [Option.map_eq_none_iff, List.find?_eq_none]
  constructor
  · intro h d r hr hk
    refine h (d, r) (List.mem_reverse.mpr ?_) (beq_iff_eq.mpr hk)
    exact Std.ExtTreeMap.mem_toList_iff_getElem?_eq_some.mpr hr
  · intro h e he hk
    exact h e.1 e.2 (Std.ExtTreeMap.mem_toList_iff_getElem?_eq_some.mp (List.mem_reverse.mp he))
      (beq_iff_eq.mp hk)

section Promise

variable {roles : RoleMap} {removed : List String} {selfPubkey : String} {before : Roster}

/-- A role is listed exactly when its bare key is not dropped and claims that role. -/
private theorem mirroredRow_eq_some_iff {d : String} {r : Role} (hr : roles[d]? = some r)
    (row : Option Role) :
    mirroredRow roles removed selfPubkey (pubkeyPart d) row = some r ↔
      (pubkeyPart d = pubkeyPart selfPubkey ∨ pubkeyPart d ∉ removed) ∧
        ∃ r₀, claimedRole roles (pubkeyPart d) = some r₀ ∧
          (if pubkeyPart d ∈ roles then r₀ else .member) = r := by
  have hclaim : ∃ r₀, claimedRole roles (pubkeyPart d) = some r₀ := by
    cases hc : claimedRole roles (pubkeyPart d) with
    | some r₀ => exact ⟨r₀, rfl⟩
    | none => exact absurd rfl (claimedRole_eq_none_iff.mp hc d r hr)
  obtain ⟨r₀, hc⟩ := hclaim
  unfold mirroredRow
  rw [hc]
  by_cases hdrop : pubkeyPart d ≠ pubkeyPart selfPubkey ∧ pubkeyPart d ∈ removed
  · rw [if_pos hdrop]
    constructor
    · exact fun h ↦ by cases h
    · rintro ⟨h | h, -⟩
      · exact absurd h hdrop.1
      · exact absurd hdrop.2 h
  · have hkeep : pubkeyPart d = pubkeyPart selfPubkey ∨ pubkeyPart d ∉ removed := by tauto
    rw [if_neg hdrop]
    simp [hkeep]

private theorem isAuthorized_mirrored (now : UInt64) (d : String) :
    isAuthorized (mirrorRolesToRoster now roles before removed selfPubkey).1 d =
      (mirroredRow roles removed selfPubkey (pubkeyPart d) (before.row (pubkeyPart d))).isSome := by
  rw [isAuthorized_eq_isSome_row, row_mirrorRolesToRoster]

private theorem listed_iff (now : UInt64) {d : String} {r : Role} (hr : roles[d]? = some r) :
    isAuthorized (mirrorRolesToRoster now roles before removed selfPubkey).1 d = true ∧
        (mirrorRolesToRoster now roles before removed selfPubkey).1.row (pubkeyPart d) = some r ↔
      (pubkeyPart d = pubkeyPart selfPubkey ∨ pubkeyPart d ∉ removed) ∧
        ∃ r₀, claimedRole roles (pubkeyPart d) = some r₀ ∧
          (if pubkeyPart d ∈ roles then r₀ else .member) = r := by
  refine Iff.trans ?_ (mirroredRow_eq_some_iff hr (before.row (pubkeyPart d)))
  rw [isAuthorized_mirrored, row_mirrorRolesToRoster]
  constructor
  · exact And.right
  · intro h
    rw [h]
    exact ⟨rfl, rfl⟩

/-- A tombstone without a role is absent exactly when its bare key is dropped or nothing lists
that key. -/
private theorem absent_iff (now : UInt64) {d : String}
    (hself : pubkeyPart d ≠ pubkeyPart selfPubkey) :
    isAuthorized (mirrorRolesToRoster now roles before removed selfPubkey).1 d = false ↔
      pubkeyPart d ∈ removed ∨
        (∀ d' r, roles[d']? = some r → pubkeyPart d' ≠ pubkeyPart d) ∧
          isAuthorized before d = false := by
  rw [isAuthorized_mirrored, isAuthorized_eq_isSome_row, ← claimedRole_eq_none_iff]
  unfold mirroredRow
  by_cases hin : pubkeyPart d ∈ removed
  · simp [hself, hin]
  · simp [hin]

private theorem mirrorable_of_promise {now : UInt64}
    (h : KeepsPromise roles removed selfPubkey before
      (mirrorRolesToRoster now roles before removed selfPubkey).1) :
    Mirrorable roles removed selfPubkey before := by
  constructor
  · exact fun d r hr ↦ ((listed_iff now hr).mp (h.listed d r hr)).1
  · intro d d' r r' hr hr' hk
    have hrow := (h.listed d r hr).2
    rw [hk, (h.listed d' r' hr').2] at hrow
    exact (Option.some.inj hrow).symm
  · intro d r hr hnone
    obtain ⟨-, r₀, -, hrole⟩ := (listed_iff now hr).mp (h.listed d r hr)
    have hn : pubkeyPart d ∉ roles := by
      rw [← Std.ExtTreeMap.isSome_getElem?_iff_mem, hnone]
      simp
    rw [if_neg hn] at hrole
    exact hrole.symm
  · exact fun d hd hnone hself ↦ (absent_iff now hself).mp (h.absent d hd hnone hself)
  · intro e he hrem hself
    by_contra hsome
    obtain ⟨e', he', hsame⟩ := h.kept e he fun hx ↦ hsome hx.2.1
    rcases (mem_mirrorRolesToRoster he').1 with hk | hk
    · exact hself (hsame.1 ▸ hk)
    · exact hk (hsame.1 ▸ hrem)

private theorem Mirrorable.promise (h : Mirrorable roles removed selfPubkey before)
    (now : UInt64) :
    KeepsPromise roles removed selfPubkey before
      (mirrorRolesToRoster now roles before removed selfPubkey).1 := by
  constructor
  · intro d r hr
    refine (listed_iff now hr).mpr ⟨h.live d r hr, ?_⟩
    cases hc : claimedRole roles (pubkeyPart d) with
    | none => exact absurd rfl (claimedRole_eq_none_iff.mp hc d r hr)
    | some r₀ =>
      refine ⟨r₀, rfl, ?_⟩
      obtain ⟨d₀, hr₀, hk⟩ := claimedRole_eq_some hc
      by_cases hin : pubkeyPart d ∈ roles
      · rw [if_pos hin]
        exact h.agree d₀ d r₀ r hr₀ hr hk
      · rw [if_neg hin]
        refine (h.bare d r hr ?_).symm
        rw [← Std.ExtTreeMap.isSome_getElem?_iff_mem] at hin
        simpa using hin
  · exact fun d hd hnone hself ↦ (absent_iff now hself).mpr (h.hidden d hd hnone hself)
  · intro e he hother
    refine sameDevice_mirrorRolesToRoster now roles he ?_
    by_contra hdrop
    rw [not_or, not_not] at hdrop
    exact hother ⟨hdrop.2, h.rows e he hdrop.2 hdrop.1, hdrop.1⟩

/-- The mirror keeps its promise, and a second mirror has nothing left to do, exactly when
the role map and the tombstones can be mirrored at once. -/
theorem mirror_keeps_promise_iff (now : UInt64) :
    (KeepsPromise roles removed selfPubkey before
        (mirrorRolesToRoster now roles before removed selfPubkey).1 ∧
      ∀ later, mirrorRolesToRoster later roles
          (mirrorRolesToRoster now roles before removed selfPubkey).1 removed selfPubkey =
        ((mirrorRolesToRoster now roles before removed selfPubkey).1, ⟨[], [], [], false⟩)) ↔
      Mirrorable roles removed selfPubkey before := by
  constructor
  · exact fun h ↦ mirrorable_of_promise h.1
  · intro h
    have hr := h.promise now
    refine ⟨hr, fun later ↦ ?_⟩
    exact mirrorRolesToRoster_fixed later (fun d r hd ↦ (hr.listed d r hd).2)
      fun e he ↦ mem_mirrorRolesToRoster he

end Promise

/-! ### Reconciling and adopting -/

variable (P) in
/-- A governance state and a roster that a reconciliation left: the role map is the one of
the signed logs, the roster keeps its promise, and a further reconciliation changes nothing
and reports no change of the roster. -/
structure Reconciled (networkId : String) (v : NetworkState) (selfPubkey : String)
    (before : Roster) (governance : NetworkState) (roster : Roster) : Prop where
  roles : governance.roles = projection P networkId v governance.memberLog
  promise : KeepsPromise governance.roles (memberLogRemoved P v governance.memberLog networkId)
    selfPubkey before roster
  settled : ∀ later, ∃ repair,
    reconcileSignedProjection P later networkId governance roster selfPubkey =
      .ok (governance, roster, repair) ∧ repair.rosterChanged = false

private theorem reconciled_iff {networkId : String} {governance v : NetworkState}
    (hv : verifyLog P networkId governance.transitions = .ok v) (now : UInt64)
    (before : Roster) (selfPubkey : String) :
    Reconciled P networkId v selfPubkey before
        { governance with roles := projection P networkId v governance.memberLog }
        (mirrorRolesToRoster now (projection P networkId v governance.memberLog) before
          (memberLogRemoved P v governance.memberLog networkId) selfPubkey).1 ↔
      Mirrorable (projection P networkId v governance.memberLog)
        (memberLogRemoved P v governance.memberLog networkId) selfPubkey before := by
  constructor
  · exact fun h ↦ mirrorable_of_promise h.promise
  · intro h
    obtain ⟨hr, hfix⟩ := (mirror_keeps_promise_iff now).mpr h
    constructor
    · rfl
    · exact hr
    · intro later
      have hp : verifiedProjection P networkId
          { governance with roles := projection P networkId v governance.memberLog } =
          .ok (projection P networkId v governance.memberLog,
            memberLogRemoved P v governance.memberLog networkId) :=
        verifiedProjection_of_verifyLog P hv
      rw [reconcileSignedProjection, hp]
      simp only [hfix later]
      exact ⟨_, rfl, rfl⟩

variable (P) in
/-- After a reconciliation, and after the mirror step of an adoption, the roster keeps its
promise for good exactly when the role map and the tombstones of the signed logs can be
mirrored at once. -/
theorem signed_projection_kept_iff :
    (∀ (networkId : String) (governance v : NetworkState) (roster : Roster)
        (selfPubkey : String) (now : UInt64),
      verifyLog P networkId governance.transitions = .ok v →
      ∃ governance' roster' repair,
        reconcileSignedProjection P now networkId governance roster selfPubkey =
          .ok (governance', roster', repair) ∧
        (Reconciled P networkId v selfPubkey roster governance' roster' ↔
          Mirrorable (projection P networkId v governance.memberLog)
            (memberLogRemoved P v governance.memberLog networkId) selfPubkey roster)) ∧
      ∀ (env : Env) (s : EngineState P) (incomingGov incomingMembers : List Transition)
        (v : NetworkState),
      verifyLog P s.networkId
          (adoptTransitionLog env s incomingGov incomingMembers).governance.transitions = .ok v →
      (Reconciled P s.networkId v s.selfId s.roster
          (adoptTransitionLog env s incomingGov incomingMembers).governance
          (adoptTransitionLog env s incomingGov incomingMembers).roster ↔
        Mirrorable
          (projection P s.networkId v
            (adoptTransitionLog env s incomingGov incomingMembers).governance.memberLog)
          (memberLogRemoved P v
            (adoptTransitionLog env s incomingGov incomingMembers).governance.memberLog
            s.networkId)
          s.selfId s.roster) := by
  constructor
  · intro networkId governance v roster selfPubkey now hv
    have hp := verifiedProjection_of_verifyLog P hv
    refine ⟨_, _, _, by rw [reconcileSignedProjection, hp], ?_⟩
    exact reconciled_iff hv now roster selfPubkey
  · intro env s incomingGov incomingMembers v hv
    -- Both branches of the adoption leave the merged logs, so the mirror step has run.
    have hm : verifyLog P s.networkId (adoptMemberLog
        (adoptGovernanceLog P s.networkId s.governance incomingGov)
        incomingMembers).transitions = .ok v := by
      obtain ⟨memberLog, hmerged⟩ := adoptMemberLog_eq
        (adoptGovernanceLog P s.networkId s.governance incomingGov) incomingMembers
      rw [governance_adoptTransitionLog, transitions_adoptedGovernance] at hv
      rw [hmerged]
      exact hv
    simp only [adoptTransitionLog, verifiedProjection_of_verifyLog P hm]
    exact reconciled_iff hm env.rosterNow s.roster s.selfId

/-! ### A controller that was once evicted -/

/-- The concrete network with some member entries, as it is loaded before its role map is
rebuilt. -/
def loadedFleet (members : List Transition) : NetworkState :=
  { NetworkState.emptyFor "fleet" with
    kind := .closed
    transitions := fleetLog
    memberLog := members }

/-- Without member entries the roster of the owner lists exactly the signed roles. -/
theorem reconciled_fleet :
    ∃ governance' roster' repair,
      reconcileSignedProjection seeded 9 "fleet" (loadedFleet []) (.emptyFor "fleet")
        (seededDevice 1) = .ok (governance', roster', repair) ∧
      Reconciled seeded "fleet" fleet (seededDevice 1) (.emptyFor "fleet") governance' roster' := by
  obtain ⟨governance', roster', repair, hrec, hiff⟩ := (signed_projection_kept_iff seeded).1
    "fleet" (loadedFleet []) fleet (.emptyFor "fleet") (seededDevice 1) 9 verifyLog_fleetLog
  refine ⟨governance', roster', repair, hrec, hiff.mpr ?_⟩
  have hremoved : ∀ d, d ∉ memberLogRemoved seeded fleet [] "fleet" := by
    intro d hd
    obtain ⟨e, he, -⟩ := (mem_memberLogRemoved seeded).mp hd
    cases he
  have hroles : ∀ (d : String) r, (projection seeded "fleet" fleet [])[d]? = some r →
      pubkeyPart d = d := by
    classical
    intro d r hr
    have hno : ¬ Admitted seeded fleet "fleet" [] d := by
      rintro ⟨e, he, -⟩
      cases he
    rw [getElem?_projection, if_neg hno, Option.or_none] at hr
    exact pubkeyPart_of_fleet hr
  constructor
  · exact fun d r _ ↦ .inr (hremoved _)
  · intro d d' r r' hr hr' hk
    rw [hroles d r hr, hroles d' r' hr'] at hk
    rw [hk] at hr
    exact Option.some.inj (hr.symm.trans hr')
  · intro d r hr hnone
    rw [hroles d r hr] at hnone
    cases hr.symm.trans hnone
  · exact fun d hd ↦ absurd hd (hremoved d)
  · exact fun e he ↦ by cases he

private theorem controller_dropped {members : List Transition}
    (h : seededDevice 2 ∈ memberLogRemoved seeded fleet members "fleet") :
    ∃ governance' roster' repair,
      reconcileSignedProjection seeded 9 "fleet" (loadedFleet members) (.emptyFor "fleet")
          (seededDevice 1) = .ok (governance', roster', repair) ∧
      governance'.roles[seededDevice 2]? = some .controller ∧
      isAuthorized roster' (seededDevice 2) = false := by
  have hv : verifyLog seeded "fleet" (loadedFleet members).transitions = .ok fleet :=
    verifyLog_fleetLog
  have hkey : pubkeyPart (seededDevice 2) = seededDevice 2 := pubkeyPart_publicId seeded (2 : UInt8)
  have hself : pubkeyPart (seededDevice 1) = seededDevice 1 :=
    pubkeyPart_publicId seeded (1 : UInt8)
  refine ⟨_, _, _, by rw [reconcileSignedProjection, verifiedProjection_of_verifyLog seeded hv],
    ?_, ?_⟩
  · have hctrl : (projection seeded "fleet" fleet members)[seededDevice 2]? = some .controller :=
      (projection_eq_controller_iff seeded).mpr (by simp)
    exact hctrl
  · have hdrop : seededDevice 2 ≠ pubkeyPart (seededDevice 1) ∧
        seededDevice 2 ∈ memberLogRemoved seeded fleet (loadedFleet members).memberLog "fleet" := by
      rw [hself]
      exact ⟨by simp, h⟩
    rw [isAuthorized_mirrored, hkey, mirroredRow, if_pos hdrop]
    rfl

/-- Device 2 was evicted as a member and is a controller since: the reconciliation drops it
from the roster. -/
theorem evicted_controller_dropped :
    ∃ governance' roster' repair,
      reconcileSignedProjection seeded 9 "fleet"
          (loadedFleet [seededEntry 1 5 (.evict (seededDevice 2))]) (.emptyFor "fleet")
          (seededDevice 1) = .ok (governance', roster', repair) ∧
      governance'.roles[seededDevice 2]? = some .controller ∧
      isAuthorized roster' (seededDevice 2) = false := by
  apply controller_dropped
  rw [mem_memberLogRemoved]
  refine ⟨_, List.mem_singleton.mpr rfl, counted_fleet _ _, .inr rfl, fun e he _ ha ↦ ?_⟩
  rw [List.mem_singleton.mp he] at ha
  cases ha

end MyOwnMesh
