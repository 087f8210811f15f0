import MyOwnMesh.NetworkState.MemberLog
import MyOwnMesh.Roster

/-!
# The projection of the two signed logs

`crates/myownmesh-core/src/engine/governance.rs:1036–1093` and `:1356–1404`. The role map
of a network is derived from the verified governance log, with every verified member
added as `Member`; the roster is a cache of that map, repaired by
`mirrorRolesToRoster`. Both are specified pointwise: the role of a device, and its row.
-/

namespace MyOwnMesh

open Lib Lib.Replay

variable (P : Primitives)

/-- Add every listed device that has no role as a member, `entry(m).or_insert(Member)`. -/
def withMembers (roles : RoleMap) (members : List String) : RoleMap :=
  members.foldl (fun m d ↦ m.insertIfNew d .member) roles

/-- The role map of a verified governance state and a member log. -/
def projection (networkId : String) (verified : NetworkState) (memberLog : List Transition) :
    RoleMap :=
  withMembers verified.roles (verifyMemberLog P verified memberLog networkId)

/-- Re-derive the role map from both logs; a log that does not verify counts as empty;
`governance.rs:1043–1055`. -/
def projectRoles (networkId : String) (transitions memberLog : List Transition) : RoleMap :=
  match verifyLog P networkId transitions with
  | .ok gov => projection P networkId gov memberLog
  | .error _ => projection P networkId (.emptyFor networkId) memberLog

/-- The role map and the tombstones of the signed logs; `governance.rs:1079–1093`. -/
def verifiedProjection (networkId : String) (governance : NetworkState) :
    Except Error (RoleMap × List String) :=
  match verifyLog P networkId governance.transitions with
  | .error e => .error e
  | .ok verified =>
    .ok (projection P networkId verified governance.memberLog,
      memberLogRemoved P verified governance.memberLog networkId)

/-- What a repair of the roster changed; `governance.rs:1066–1077`. -/
structure RosterProjectionRepair where
  added : List String
  removed : List String
  rolesUpdated : List String
  governanceRolesUpdated : Bool
  deriving DecidableEq, Repr

/-- The roster itself changed; `governance.rs:1074–1076`. -/
def RosterProjectionRepair.rosterChanged (r : RosterProjectionRepair) : Bool :=
  !r.added.isEmpty || !r.removed.isEmpty || !r.rolesUpdated.isEmpty

/-- One role of the map mirrored into the roster; the loop body of
`governance.rs:1375–1383`. -/
def mirrorRole (now : UInt64) (acc : Roster × RosterProjectionRepair) (e : String × Role) :
    Roster × RosterProjectionRepair :=
  let mirrored := grantIn now acc.1 e.1 "" e.2
  (mirrored.1,
    { acc.2 with
      added := if isAuthorized acc.1 e.1 then acc.2.added else acc.2.added ++ [e.1]
      rolesUpdated := if mirrored.2 then acc.2.rolesUpdated ++ [e.1] else acc.2.rolesUpdated })

/-- Mirror the converged signed state into the roster; `governance.rs:1368–1404`. -/
def mirrorRolesToRoster (now : UInt64) (roles : RoleMap) (roster : Roster)
    (removed : List String) (selfPubkey : String) : Roster × RosterProjectionRepair :=
  let (listed, repair) := roles.toList.foldl (mirrorRole now) (roster, ⟨[], [], [], false⟩)
  let selfPk := pubkeyPart selfPubkey
  let dropped := listed.authorizedDevices.filter fun e ↦
    e.deviceId ≠ selfPk ∧ e.deviceId ∈ removed
  let kept := listed.authorizedDevices.filter fun e ↦
    e.deviceId = selfPk ∨ e.deviceId ∉ removed
  let stale := kept.filter fun e ↦ e.deviceId ∉ roles ∧ e.role ≠ .member
  let cleared := kept.map fun e ↦
    if e.deviceId ∉ roles ∧ e.role ≠ .member then { e with role := .member } else e
  ({ listed with authorizedDevices := cleared },
    { repair with
      removed := repair.removed ++ dropped.map AuthorizedPeer.deviceId
      rolesUpdated := repair.rolesUpdated ++ stale.map AuthorizedPeer.deviceId })

/-! ### The projected role of a device -/

/-- A listed device is a member unless it already holds a role. -/
theorem getElem?_withMembers (roles : RoleMap) (members : List String) (d : String) :
    (withMembers roles members)[d]? =
      (roles[d]?).or (if d ∈ members then some .member else none) := by
  unfold withMembers
  induction members generalizing roles with
  | nil => simp
  | cons m rest ih =>
    rw [List.foldl_cons, ih, Std.ExtTreeMap.getElem?_insertIfNew]
    simp only [Std.LawfulEqOrd.compare_eq_iff_eq]
    by_cases hm : m = d
    · subst hm
      by_cases hin : m ∈ roles <;> simp [hin]
    · have hd : d ≠ m := fun h ↦ hm h.symm
      simp [hm, hd]

open Classical in
/-- The projected role: the governance role, else membership. -/
theorem getElem?_projection (networkId : String) (verified : NetworkState)
    (memberLog : List Transition) (d : String) :
    (projection P networkId verified memberLog)[d]? =
      (verified.roles[d]?).or
        (if Admitted P verified networkId memberLog d then some .member else none) := by
  rw [projection, getElem?_withMembers]
  congr 1
  by_cases h : Admitted P verified networkId memberLog d
  · rw [if_pos ((mem_verifyMemberLog P).mpr h), if_pos h]
  · rw [if_neg (fun hm ↦ h ((mem_verifyMemberLog P).mp hm)), if_neg h]

/-- The projection adds members only, so it names the same owners and controllers. -/
theorem projection_eq_iff {networkId : String} {verified : NetworkState}
    {memberLog : List Transition} {d : String} {r : Role} (hr : r ≠ .member) :
    (projection P networkId verified memberLog)[d]? = some r ↔ verified.roles[d]? = some r := by
  rw [getElem?_projection]
  cases verified.roles[d]? with
  | some r' => simp
  | none =>
    have hne : Role.member ≠ r := fun h ↦ hr h.symm
    split <;> simp [hne]

/-- The projection names the same owners. -/
theorem projection_eq_owner_iff {networkId : String} {verified : NetworkState}
    {memberLog : List Transition} {d : String} :
    (projection P networkId verified memberLog)[d]? = some .owner ↔ verified.IsOwner d :=
  projection_eq_iff P (by decide)

/-- The projection names the same controllers. -/
theorem projection_eq_controller_iff {networkId : String} {verified : NetworkState}
    {memberLog : List Transition} {d : String} :
    (projection P networkId verified memberLog)[d]? = some .controller ↔
      verified.roles[d]? = some .controller :=
  projection_eq_iff P (by decide)

/-- On a log that verifies, the projection is the one of its verified state. -/
theorem projectRoles_of_verifyLog {networkId : String} {transitions memberLog : List Transition}
    {v : NetworkState} (h : verifyLog P networkId transitions = .ok v) :
    projectRoles P networkId transitions memberLog = projection P networkId v memberLog := by
  rw [projectRoles, h]

/-- On a log that verifies, both parts of the projection are those of its verified state. -/
theorem verifiedProjection_of_verifyLog {networkId : String} {s v : NetworkState}
    (h : verifyLog P networkId s.transitions = .ok v) :
    verifiedProjection P networkId s =
      .ok (projection P networkId v s.memberLog, memberLogRemoved P v s.memberLog networkId) := by
  rw [verifiedProjection, h]

/-! ### The mirrored row of a device -/

/-- The role the map claims for a bare key: that of the last map key that strips to it. -/
def claimedRole (roles : RoleMap) (k : String) : Option Role :=
  (roles.toList.reverse.find? fun e ↦ pubkeyPart e.1 == k).map Prod.snd

/-- What mirroring makes of a row. -/
def mirroredRow (roles : RoleMap) (removed : List String) (selfPubkey k : String)
    (before : Option Role) : Option Role :=
  if k ≠ pubkeyPart selfPubkey ∧ k ∈ removed then none
  else ((claimedRole roles k).or before).map fun r ↦ if k ∈ roles then r else .member

/-- When every key of the map is a bare key, the claimed role is a lookup. -/
theorem claimedRole_eq_getElem? {roles : RoleMap}
    (h : ∀ d r, roles[d]? = some r → pubkeyPart d = d) (k : String) :
    claimedRole roles k = roles[k]? := by
  unfold claimedRole
  cases hf : roles.toList.reverse.find? (fun e ↦ pubkeyPart e.1 == k) with
  | some e =>
    have he := List.mem_reverse.mp (List.mem_of_find?_eq_some hf)
    rw [Std.ExtTreeMap.mem_toList_iff_getElem?_eq_some] at he
    have hk := List.find?_some hf
    rw [beq_iff_eq, h e.1 e.2 he] at hk
    rw [← hk, he]
    rfl
  | none =>
    cases hr : roles[k]? with
    | none => rfl
    | some r =>
      have hmem : (k, r) ∈ roles.toList.reverse := List.mem_reverse.mpr
        (Std.ExtTreeMap.mem_toList_iff_getElem?_eq_some.mpr hr)
      have hne := List.find?_eq_none.mp hf (k, r) hmem
      exact absurd (beq_iff_eq.mpr (h k r hr)) hne

/-- When every key of the map is a bare key, a row mirrored from nothing is a lookup. -/
theorem mirroredRow_none {roles : RoleMap} (h : ∀ d r, roles[d]? = some r → pubkeyPart d = d)
    {removed : List String} {k : String} (hk : k ∉ removed) (selfPubkey : String) :
    mirroredRow roles removed selfPubkey k none = roles[k]? := by
  rw [mirroredRow, if_neg (fun hr ↦ hk hr.2), Option.or_none, claimedRole_eq_getElem? h]
  cases hr : roles[k]? with
  | none => rfl
  | some r =>
    have hin : k ∈ roles := Std.ExtTreeMap.isSome_getElem?_iff_mem.mp (by rw [hr]; rfl)
    simp [hin]

private theorem row_foldl_mirrorRole (now : UInt64) (es : List (String × Role))
    (acc : Roster × RosterProjectionRepair) (k : String) :
    (es.foldl (mirrorRole now) acc).1.row k =
      ((es.reverse.find? fun e ↦ pubkeyPart e.1 == k).map Prod.snd).or (acc.1.row k) := by
  induction es generalizing acc with
  | nil => simp
  | cons e rest ih =>
    rw [List.foldl_cons, ih, mirrorRole, row_grantIn, List.reverse_cons, List.find?_append]
    by_cases hk : k = pubkeyPart e.1
    · subst hk
      cases rest.reverse.find? (fun e' ↦ pubkeyPart e'.1 == pubkeyPart e.1) <;> simp
    · have hne : ¬ pubkeyPart e.1 = k := fun h ↦ hk h.symm
      simp [hk, hne]

private theorem find?_filter_device (rows : List AuthorizedPeer) (q : String → Bool)
    (k : String) :
    (rows.filter fun e ↦ q e.deviceId).find? (·.deviceId == k) =
      if q k then rows.find? (·.deviceId == k) else none := by
  induction rows with
  | nil => simp
  | cons p rest ih =>
    by_cases hp : p.deviceId = k
    · cases hq : q k <;> simp [hp, hq, ih]
    · cases hq : q p.deviceId <;> simp [hp, hq, ih]

private theorem row_cleared (rows : List AuthorizedPeer) (roles : RoleMap) (k : String) :
    ((rows.map fun e ↦ if e.deviceId ∉ roles ∧ e.role ≠ .member then
        { e with role := .member } else e).find? (·.deviceId == k)).map AuthorizedPeer.role =
      ((rows.find? (·.deviceId == k)).map AuthorizedPeer.role).map
        fun r ↦ if k ∈ roles then r else .member := by
  induction rows with
  | nil => simp
  | cons p rest ih =>
    by_cases hp : p.deviceId = k
    · by_cases hin : k ∈ roles
      · simp [hp, hin]
      · by_cases hr : p.role = .member <;> simp [hp, hin, hr]
    · have hid : (if p.deviceId ∉ roles ∧ p.role ≠ .member then
          { p with role := Role.member } else p).deviceId ≠ k := by
        split <;> exact hp
      rw [List.map_cons, List.find?_cons_of_neg (by simpa using hid),
        List.find?_cons_of_neg (by simpa using hp), ih]

/-- Mirroring acts on each row by itself. -/
theorem row_mirrorRolesToRoster (now : UInt64) (roles : RoleMap) (roster : Roster)
    (removed : List String) (selfPubkey k : String) :
    (mirrorRolesToRoster now roles roster removed selfPubkey).1.row k =
      mirroredRow roles removed selfPubkey k (roster.row k) := by
  have hlisted := row_foldl_mirrorRole now roles.toList (roster, ⟨[], [], [], false⟩) k
  rw [← claimedRole] at hlisted
  simp only [Roster.row] at hlisted
  simp only [mirrorRolesToRoster, Roster.row, row_cleared]
  rw [find?_filter_device _ fun d ↦ decide (d = pubkeyPart selfPubkey ∨ d ∉ removed)]
  unfold mirroredRow
  by_cases hk : k = pubkeyPart selfPubkey ∨ k ∉ removed
  · have hn : ¬ (k ≠ pubkeyPart selfPubkey ∧ k ∈ removed) := by tauto
    rw [if_pos (by simpa using hk), if_neg hn, ← hlisted]
  · have hy : k ≠ pubkeyPart selfPubkey ∧ k ∈ removed := by tauto
    rw [if_neg (by simpa using hk), if_pos hy]
    rfl

/-- Mirroring keeps one row per device. -/
theorem Roster.Distinct.mirrorRolesToRoster {roster : Roster} (h : roster.Distinct)
    (now : UInt64) (roles : RoleMap) (removed : List String) (selfPubkey : String) :
    (mirrorRolesToRoster now roles roster removed selfPubkey).1.Distinct := by
  have hlisted : ∀ (es : List (String × Role)) (acc : Roster × RosterProjectionRepair),
      acc.1.Distinct → (es.foldl (mirrorRole now) acc).1.Distinct := by
    intro es
    induction es with
    | nil => exact fun acc hacc ↦ hacc
    | cons e rest ih => exact fun acc hacc ↦ ih _ (hacc.grantIn now e.1 "" e.2)
  have hkept := (hlisted roles.toList (roster, ⟨[], [], [], false⟩) h).filter fun e ↦
    decide (e.deviceId = pubkeyPart selfPubkey ∨ e.deviceId ∉ removed)
  unfold Roster.Distinct at hkept
  simp only [Roster.Distinct, MyOwnMesh.mirrorRolesToRoster, List.map_map]
  convert hkept using 2
  funext e
  simp only [Function.comp_apply]
  split <;> rfl

end MyOwnMesh
