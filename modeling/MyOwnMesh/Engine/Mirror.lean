import MyOwnMesh.Engine.Coherence

/-!
# The two roster mirrors

A ratification edits the roster per variant (`governance.rs:1628–1703`); a node that
adopts the same logs re-derives the roster from them (`:1368–1404`). Both act row by row.
A row comes out the same on both paths exactly when what the signed logs say about the
device, the new entry included, is what the variant's own edit assumes.
-/

namespace MyOwnMesh

open Lib Lib.Replay

/-! ### What the signed state says about a row -/

/-- The role the signed map gives to a row: that of the key that claims it, unless the row's
own key has no role. -/
def signedRole (roles : RoleMap) (k : String) : Option Role :=
  (claimedRole roles k).map fun r ↦ if k ∈ roles then r else .member

/-- What is kept of a row the signed map does not name: an authority tag is cleared. -/
def keptRow (roles : RoleMap) (k : String) (before : Option Role) : Option Role :=
  before.map fun r ↦ if k ∈ roles then r else .member

/-- When every key of the map is a bare key, the signed role is a lookup. -/
theorem signedRole_eq_getElem? {roles : RoleMap}
    (h : ∀ d r, roles[d]? = some r → pubkeyPart d = d) (k : String) :
    signedRole roles k = roles[k]? := by
  have hrow := mirroredRow_none h (List.not_mem_nil (a := k)) ""
  rwa [mirroredRow, if_neg (fun hr ↦ List.not_mem_nil hr.2), Option.or_none] at hrow

/-- The signed state has nothing to change on a row: a tombstoned device has none, a device
with a signed role shows it, and any other row carries no stale authority tag. -/
structure RowSettled (roles : RoleMap) (removed : List String) (k : String)
    (before : Option Role) : Prop where
  tombstoned : k ∈ removed → before = none
  named : k ∉ removed → ∀ r, signedRole roles k = some r → before = some r
  unnamed : k ∉ removed → signedRole roles k = none →
    ∀ r, before = some r → k ∈ roles ∨ r = .member

private theorem mirroredRow_cases {roles : RoleMap} {removed : List String} {selfId k : String}
    (hself : k ≠ pubkeyPart selfId) (before : Option Role) :
    mirroredRow roles removed selfId k before =
      if k ∈ removed then none else (signedRole roles k).or (keptRow roles k before) := by
  unfold mirroredRow signedRole keptRow
  by_cases hr : k ∈ removed
  · simp [hself, hr]
  · cases claimedRole roles k with
    | none => simp [hr]
    | some r => simp [hr]

/-- Mirroring leaves a row alone exactly when the row is settled. -/
theorem mirroredRow_eq_self_iff {roles : RoleMap} {removed : List String} {selfId k : String}
    (hself : k ≠ pubkeyPart selfId) (before : Option Role) :
    mirroredRow roles removed selfId k before = before ↔
      RowSettled roles removed k before := by
  rw [mirroredRow_cases hself]
  by_cases hr : k ∈ removed
  · rw [if_pos hr]
    exact ⟨fun h ↦ ⟨fun _ ↦ h.symm, fun h' ↦ absurd hr h', fun h' ↦ absurd hr h'⟩,
      fun h ↦ (h.tombstoned hr).symm⟩
  · rw [if_neg hr]
    cases hs : signedRole roles k with
    | some r =>
      rw [Option.some_or]
      refine ⟨fun h ↦ ⟨fun h' ↦ absurd h' hr, fun _ r' h' ↦ ?_, fun _ h' ↦ ?_⟩,
        fun h ↦ (h.named hr r hs).symm⟩
      · rw [hs] at h'
        exact h.symm.trans h'
      · rw [hs] at h'
        cases h'
    | none =>
      rw [Option.none_or, keptRow]
      constructor
      · intro h
        refine ⟨fun h' ↦ absurd h' hr, fun _ r' h' ↦ ?_, fun _ _ r hb ↦ ?_⟩
        · rw [hs] at h'
          cases h'
        · rw [hb, Option.map_some, Option.some.injEq] at h
          by_cases hk : k ∈ roles
          · exact .inl hk
          · rw [if_neg hk] at h
            exact .inr h.symm
      · intro h
        cases before with
        | none => rfl
        | some r =>
          rcases h.unnamed hr hs r rfl with hk | hm
          · simp [hk]
          · simp [hm]

/-- Mirroring twice is mirroring once. -/
theorem mirroredRow_idem (roles : RoleMap) (removed : List String) (selfId k : String)
    (before : Option Role) :
    mirroredRow roles removed selfId k (mirroredRow roles removed selfId k before) =
      mirroredRow roles removed selfId k before := by
  unfold mirroredRow
  by_cases hr : k ≠ pubkeyPart selfId ∧ k ∈ removed
  · rw [if_pos hr, if_pos hr]
  · rw [if_neg hr, if_neg hr]
    cases claimedRole roles k with
    | some r => simp
    | none =>
      cases before with
      | none => rfl
      | some r => by_cases hk : k ∈ roles <;> simp [hk]

variable (P : Primitives)

/-! ### The signed logs with a ratified entry -/

/-- The governance state the log verifies to once a ratified entry is in. -/
def verifiedAfter (gov v : NetworkState) (t : Transition) : NetworkState :=
  if memberTier gov t.variant then v else applyTransition v t

/-- The member log once a ratified entry is in. -/
def memberLogAfter (gov : NetworkState) (t : Transition) : List Transition :=
  if memberTier gov t.variant then gov.memberLog ++ [t]
  else
    match t.variant with
    | .evict _ => gov.memberLog ++ [t]
    | _ => gov.memberLog

private theorem logs_routed {networkId : String} {gov v : NetworkState} {t : Transition}
    (hv : ReplaysTo P networkId gov v)
    (hsig : verifyTransitionSignatures P networkId t = .ok ()) (hq : QuorumMet gov t) :
    verifyLog P networkId (routed P networkId gov t).transitions =
        .ok (verifiedAfter gov v t) ∧
      (routed P networkId gov t).memberLog = memberLogAfter gov t := by
  have ha := (hv.apply hsig hq).replay
  unfold verifiedAfter memberLogAfter
  cases htier : memberTier gov t.variant with
  | true =>
    rw [routed_member P htier]
    exact ⟨hv.replay, rfl⟩
  | false =>
    by_cases he : ∃ x, t.variant = .evict x
    · obtain ⟨x, hx⟩ := he
      rw [routed_evict P htier hx, hx]
      exact ⟨ha, rfl⟩
    · rw [routed_governance P htier fun x hx ↦ he ⟨x, hx⟩]
      refine ⟨ha, ?_⟩
      rw [memberLog_applyTransition]
      cases hvar : t.variant with
      | evict x => exact absurd ⟨x, hvar⟩ he
      | _ => rfl

/-- The signed role map and tombstones once a ratified entry is in the logs. -/
def signedAfter (networkId : String) (gov v : NetworkState) (t : Transition) :
    RoleMap × List String :=
  (projection P networkId (verifiedAfter gov v t) (memberLogAfter gov t),
    memberLogRemoved P (verifiedAfter gov v t) (memberLogAfter gov t) networkId)

/-- The roster already reflects the signed projection: mirroring it again changes no row of
another device. -/
def RosterReflects (s : EngineState P) : Prop :=
  ∃ roles removed, verifiedProjection P s.networkId s.governance = .ok (roles, removed) ∧
    ∀ now k, k ≠ s.selfId →
      (mirrorRolesToRoster now roles s.roster removed s.selfId).1.row k = s.roster.row k

/-- The roster a ratification left agrees, this device's row apart, with the one mirrored
from the logs it left into the roster as it was. -/
def RostersAgree (now : UInt64) (before after : EngineState P) : Prop :=
  ∃ roles removed, verifiedProjection P before.networkId after.governance =
      .ok (roles, removed) ∧
    ∀ k, k ≠ before.selfId → after.roster.row k =
      (mirrorRolesToRoster now roles before.roster removed before.selfId).1.row k

/-- What the signed logs say once a grant, revoke or evict is in them is what the variant's
own edit of the roster assumes. Entries of the other variants need nothing. -/
structure MirrorsAgree (roles : RoleMap) (removed : List String) (selfId : String)
    (row : String → Option Role) (t : Transition) : Prop where
  /-- Every row but the target's is already as the signed state wants it. -/
  others : ∀ x, memberEntryTarget t = some x → ∀ k, k ≠ selfId → k ≠ pubkeyPart x →
    RowSettled roles removed k (row k)
  /-- A granted device is not tombstoned and is signed in with exactly the granted role. -/
  granted : ∀ x r, t.variant = .roleGrant x r → pubkeyPart x ≠ selfId →
    pubkeyPart x ∉ removed ∧ (signedRole roles (pubkeyPart x) = some r ∨
      signedRole roles (pubkeyPart x) = none ∧
        keptRow roles (pubkeyPart x) (row (pubkeyPart x)) = some r)
  /-- A revoked device that has a row is not tombstoned and is at most a signed member. -/
  revoked : ∀ x, t.variant = .roleRevoke x → pubkeyPart x ≠ selfId →
    (pubkeyPart x ∈ removed → row (pubkeyPart x) = none) ∧
      (pubkeyPart x ∉ removed → ∀ r, signedRole roles (pubkeyPart x) = some r →
        r = .member ∧ row (pubkeyPart x) ≠ none) ∧
      (pubkeyPart x ∉ removed → signedRole roles (pubkeyPart x) = none →
        ∀ r, row (pubkeyPart x) = some r → pubkeyPart x ∈ roles → r = .member)
  /-- An evicted device is tombstoned, or neither signed in nor rostered. -/
  evicted : ∀ x, t.variant = .evict x → pubkeyPart x ≠ selfId →
    pubkeyPart x ∈ removed ∨
      signedRole roles (pubkeyPart x) = none ∧ row (pubkeyPart x) = none

section Rows

variable {roles : RoleMap} {removed : List String} {selfId k : String} (before : Option Role)

private theorem granted_row_iff (hself : k ≠ pubkeyPart selfId) (r : Role) :
    some r = mirroredRow roles removed selfId k before ↔
      k ∉ removed ∧ (signedRole roles k = some r ∨
        signedRole roles k = none ∧ keptRow roles k before = some r) := by
  rw [mirroredRow_cases hself]
  by_cases hr : k ∈ removed
  · simp [hr]
  · cases hs : signedRole roles k with
    | none => simp [hr, eq_comm]
    | some r' => simp [hr, eq_comm]

private theorem revoked_row_iff (hself : k ≠ pubkeyPart selfId) :
    (before.map fun _ ↦ Role.member) = mirroredRow roles removed selfId k before ↔
      (k ∈ removed → before = none) ∧
        (k ∉ removed → ∀ r, signedRole roles k = some r → r = .member ∧ before ≠ none) ∧
        (k ∉ removed → signedRole roles k = none →
          ∀ r, before = some r → k ∈ roles → r = .member) := by
  rw [mirroredRow_cases hself]
  by_cases hr : k ∈ removed
  · simp [hr]
  · cases hs : signedRole roles k with
    | some r' => cases before <;> simp [hr, eq_comm]
    | none =>
      cases before with
      | none => simp [hr, keptRow]
      | some b => by_cases hk : k ∈ roles <;> simp [hr, keptRow, hk, eq_comm]

private theorem evicted_row_iff (hself : k ≠ pubkeyPart selfId) :
    none = mirroredRow roles removed selfId k before ↔
      k ∈ removed ∨ signedRole roles k = none ∧ before = none := by
  rw [mirroredRow_cases hself]
  by_cases hr : k ∈ removed
  · simp [hr]
  · cases hs : signedRole roles k with
    | some r' => simp [hr]
    | none => cases before <;> simp [hr, keptRow]

end Rows

/-- A kind change of a closed network, a split or a topology change moves no role. -/
private theorem roleEffect_of_untargeted {gov : NetworkState} {t : Transition}
    (hclosed : gov.kind = .closed) (hq : QuorumMet gov t) (hx : memberEntryTarget t = none)
    (d : String) : roleEffect t d = none := by
  unfold memberEntryTarget at hx
  unfold QuorumMet at hq
  unfold roleEffect
  cases hv : t.variant with
  | kindChange to_ =>
    cases to_ with
    | closed =>
      simp only [hv, hclosed] at hq
      exact absurd hq.1 (by decide)
    | «open» => rfl
    | silent => rfl
  | roleGrant x r => simp [hv] at hx
  | roleRevoke x => simp [hv] at hx
  | evict x => simp [hv] at hx
  | split n ms => rfl
  | topologyChange m => rfl
  | unknown => rfl

private theorem signedAfter_of_untargeted {networkId : String} {gov v : NetworkState}
    {t : Transition} (hclosed : gov.kind = .closed) (hq : QuorumMet gov t)
    (hx : memberEntryTarget t = none) :
    signedAfter P networkId gov v t =
      (projection P networkId v gov.memberLog, memberLogRemoved P v gov.memberLog networkId) := by
  have htier : memberTier gov t.variant = false := by
    unfold memberEntryTarget at hx
    unfold memberTier
    cases hv : t.variant with
    | roleGrant x r => simp [hv] at hx
    | roleRevoke x => simp [hv] at hx
    | evict x => simp [hv] at hx
    | _ => rfl
  have hlog : memberLogAfter gov t = gov.memberLog := by
    unfold memberLogAfter
    rw [if_neg (by simp [htier])]
    split
    · next x hv => simp [memberEntryTarget, hv] at hx
    · rfl
  have hroles : (verifiedAfter gov v t).roles = v.roles := by
    rw [verifiedAfter, if_neg (by simp [htier])]
    apply Std.ExtTreeMap.ext_getElem?
    intro d
    rw [roles_applyTransition, roleEffect_of_untargeted hclosed hq hx, Option.getD_none]
  have hverdict := memberLogVerdict_congr P hroles gov.memberLog networkId
  simp only [signedAfter, projection, verifyMemberLog, memberLogRemoved, hlog, hroles, hverdict]

variable {P}

/-- What the post-ratification logs project to. -/
private theorem verifiedProjection_tryRatify (env : Env) {s : EngineState P} {v : NetworkState}
    {id : String} {t : Transition} (hv : ReplaysTo P s.networkId s.governance v)
    (hr : ratifies P s.networkId s.governance id = some t) :
    verifiedProjection P s.networkId (tryRatify env s id).1.governance =
      .ok (signedAfter P s.networkId s.governance v t) := by
  obtain ⟨hsig, hq⟩ := ratifies_eq_some P hr
  obtain ⟨hlog, hmembers⟩ := logs_routed P hv hsig hq
  obtain ⟨pending, hg⟩ := governance_tryRatify env s id
  simp only [hr] at hg
  simp only [hg, verifiedProjection, hlog, hmembers, signedAfter]

private theorem localRow_of_ne {selfId k : String} {t : Transition}
    (hself : k ≠ pubkeyPart selfId) (ht : ∀ x, memberEntryTarget t = some x → k ≠ pubkeyPart x)
    (before : Option Role) : localRow selfId t k before = before := by
  unfold localRow
  split
  · next x r hv => rw [if_neg (ht x (by rw [memberEntryTarget, hv]))]
  · next x hv => rw [if_neg (ht x (by rw [memberEntryTarget, hv]))]
  · rw [if_neg hself]
  · next x hv => rw [if_neg (ht x (by rw [memberEntryTarget, hv]))]
  · rfl

/-- The rows the two mirrors leave, compared row by row. -/
private theorem localRow_eq_mirroredRow_iff {roles : RoleMap} {removed : List String}
    {selfId : String} {t : Transition} (row : String → Option Role)
    (hself : pubkeyPart selfId = selfId)
    (hfree : memberEntryTarget t = none → ∀ k, k ≠ selfId →
      RowSettled roles removed k (row k)) :
    (∀ k, k ≠ selfId →
        localRow selfId t k (row k) = mirroredRow roles removed selfId k (row k)) ↔
      MirrorsAgree roles removed selfId row t := by
  constructor
  · intro h
    refine ⟨fun x hx k hk hkx ↦ ?_, fun x r hv hx ↦ ?_, fun x hv hx ↦ ?_, fun x hv hx ↦ ?_⟩
    · have hk' : k ≠ pubkeyPart selfId := by rwa [hself]
      have hrow := h k hk
      rw [localRow_of_ne hk' (fun y hy ↦ by
        rw [hx, Option.some.injEq] at hy
        rwa [← hy])] at hrow
      exact (mirroredRow_eq_self_iff hk' _).mp hrow.symm
    · have hrow := h _ hx
      simp only [localRow, hv, ↓reduceIte] at hrow
      exact (granted_row_iff _ (by rwa [hself]) r).mp hrow
    · have hrow := h _ hx
      simp only [localRow, hv, ↓reduceIte] at hrow
      exact (revoked_row_iff _ (by rwa [hself])).mp hrow
    · have hrow := h _ hx
      simp only [localRow, hv, ↓reduceIte] at hrow
      exact (evicted_row_iff _ (by rwa [hself])).mp hrow
  · intro h k hk
    have hk' : k ≠ pubkeyPart selfId := by rwa [hself]
    by_cases htarget : ∃ x, memberEntryTarget t = some x ∧ k = pubkeyPart x
    · obtain ⟨x, hx, rfl⟩ := htarget
      unfold memberEntryTarget at hx
      cases hv : t.variant with
      | roleGrant y r =>
        simp only [hv, Option.some.injEq] at hx
        subst hx
        simp only [localRow, hv, ↓reduceIte]
        exact (granted_row_iff _ hk' r).mpr (h.granted y r hv hk)
      | roleRevoke y =>
        simp only [hv, Option.some.injEq] at hx
        subst hx
        simp only [localRow, hv, ↓reduceIte]
        exact (revoked_row_iff _ hk').mpr (h.revoked y hv hk)
      | evict y =>
        simp only [hv, Option.some.injEq] at hx
        subst hx
        simp only [localRow, hv, ↓reduceIte]
        exact (evicted_row_iff _ hk').mpr (h.evicted y hv hk)
      | _ => simp [hv] at hx
    · have hne : ∀ x, memberEntryTarget t = some x → k ≠ pubkeyPart x :=
        fun x hx hkx ↦ htarget ⟨x, hx, hkx⟩
      rw [localRow_of_ne hk' hne]
      refine ((mirroredRow_eq_self_iff hk' _).mpr ?_).symm
      cases hx : memberEntryTarget t with
      | none => exact hfree hx k hk
      | some x => exact h.others x hx k hk (hne x hx)

private theorem settled_of_reflects {s : EngineState P} {v : NetworkState}
    (hv : ReplaysTo P s.networkId s.governance v) (h : RosterReflects P s) {k : String}
    (hk : k ≠ s.selfId) :
    RowSettled (projection P s.networkId v s.governance.memberLog)
      (memberLogRemoved P v s.governance.memberLog s.networkId) k (s.roster.row k) := by
  obtain ⟨roles, removed, hproj, hrows⟩ := h
  rw [verifiedProjection_of_verifyLog P hv.replay, Except.ok.injEq, Prod.mk.injEq] at hproj
  obtain ⟨rfl, rfl⟩ := hproj
  have hrow := hrows 0 k hk
  rw [row_mirrorRolesToRoster] at hrow
  refine (mirroredRow_eq_self_iff ?_ _).mp hrow
  rwa [EngineState.selfId, pubkeyPart_publicId]

/-- The claim about rosters, row by row. -/
private theorem rostersAgree_iff_rows (env : Env) (now : UInt64) {s : EngineState P}
    {v : NetworkState} {id : String} {t : Transition}
    (hsave : ∀ gov, env.saveState gov = .ok ()) (hv : ReplaysTo P s.networkId s.governance v)
    (hr : ratifies P s.networkId s.governance id = some t) :
    RostersAgree P now s (tryRatify env s id).1 ↔
      ∀ k, k ≠ s.selfId → localRow s.selfId t k (s.roster.row k) =
        mirroredRow (signedAfter P s.networkId s.governance v t).1
          (signedAfter P s.networkId s.governance v t).2 s.selfId k (s.roster.row k) := by
  have hproj := verifiedProjection_tryRatify env hv hr
  constructor
  · rintro ⟨roles, removed, hafter, hrows⟩ k hk
    rw [hproj, Except.ok.injEq] at hafter
    have hrow := hrows k hk
    rw [tryRatify_of_ratifies env hr, row_commit env s id t k hsave,
      row_mirrorRolesToRoster] at hrow
    rwa [hafter]
  · intro h
    refine ⟨_, _, hproj, fun k hk ↦ ?_⟩
    rw [tryRatify_of_ratifies env hr, row_commit env s id t k hsave, row_mirrorRolesToRoster]
    exact h k hk

/-- A ratification on a closed network whose log replays, as every reachable one does, and
whose roster reflects the signed projection: the roster it leaves agrees with the one
mirrored from the logs exactly when what the logs now say is what the variant's own edit
assumes. -/
theorem mirrors_agree_iff (env : Env) (now : UInt64) {s : EngineState P} {v : NetworkState}
    {id : String} {t : Transition} (hsave : ∀ gov, env.saveState gov = .ok ())
    (hclosed : s.governance.kind = .closed) (hv : ReplaysTo P s.networkId s.governance v)
    (hreflects : RosterReflects P s)
    (hr : ratifies P s.networkId s.governance id = some t) :
    RostersAgree P now s (tryRatify env s id).1 ↔
      MirrorsAgree (signedAfter P s.networkId s.governance v t).1
        (signedAfter P s.networkId s.governance v t).2 s.selfId s.roster.row t := by
  obtain ⟨_, hq⟩ := ratifies_eq_some P hr
  have hself : pubkeyPart s.selfId = s.selfId := pubkeyPart_publicId P s.signingKey
  rw [rostersAgree_iff_rows env now hsave hv hr]
  refine localRow_eq_mirroredRow_iff s.roster.row hself fun hx k hk ↦ ?_
  rw [signedAfter_of_untargeted P hclosed hq hx]
  exact settled_of_reflects hv hreflects hk

/-! ### A plain member leaves -/

/-- The owner of the concrete network admits device 3. -/
def fleetAdmit : Transition := seededEntry 1 3 (.roleGrant (seededDevice 3) .member)

/-- The controller's node with device 3 as a member and a proposal of the owner about it. -/
def fleetFloating (v : TransitionVariant) : EngineState seeded :=
  (fleetNode 2 [fleetAdmit]).floating (signedProposal seeded "fleet" (1 : UInt8) "p" 4 v)

/-- The state, its identity and its rows, with the member log known up to order. -/
private theorem fleetFloating_spec (v : TransitionVariant) :
    ∃ memberLog, (∀ t, t ∈ memberLog ↔ t = fleetAdmit) ∧
      (fleetFloating v).networkId = "fleet" ∧ (fleetFloating v).selfId = seededDevice 2 ∧
      (fleetFloating v).governance =
        { NetworkState.emptyFor "fleet" with
          kind := .closed
          transitions := fleetLog
          memberLog := memberLog
          roles := projection seeded "fleet" fleet memberLog
          pending := [signedProposal seeded "fleet" (1 : UInt8) "p" 4 v] } ∧
      ∀ k, (fleetFloating v).roster.row k =
        mirroredRow (projection seeded "fleet" fleet memberLog)
          (memberLogRemoved seeded fleet memberLog "fleet") (seededDevice 2) k none := by
  obtain ⟨memberLog, hmem, hg, hrows⟩ := fleetNode_spec 2 [fleetAdmit]
  obtain ⟨hn, -, hs⟩ := fleetNode_frame 2 [fleetAdmit]
  obtain ⟨hn', hs', hr'⟩ := floating_frame (fleetNode 2 [fleetAdmit])
    (signedProposal seeded "fleet" (1 : UInt8) "p" 4 v)
  refine ⟨memberLog, by simpa using hmem, hn'.trans hn, hs'.trans hs, ?_, fun k ↦ ?_⟩
  · rw [fleetFloating, EngineState.floating, hg]
    rfl
  · rw [fleetFloating, hr']
    exact hrows k

private theorem replays_fleetFloating (v : TransitionVariant) :
    ReplaysTo seeded (fleetFloating v).networkId (fleetFloating v).governance fleet := by
  obtain ⟨memberLog, -, hn, -, hg, -⟩ := fleetFloating_spec v
  rw [hn, hg]
  exact ⟨verifyLog_fleetLog, rfl, rfl, rfl, fun _ ↦ projection_eq_owner_iff seeded,
    fun _ ↦ projection_eq_controller_iff seeded⟩

private theorem reflects_fleetFloating (v : TransitionVariant) :
    RosterReflects seeded (fleetFloating v) := by
  obtain ⟨memberLog, -, hn, hs, hg, hrows⟩ := fleetFloating_spec v
  refine ⟨_, _, verifiedProjection_of_verifyLog seeded (replays_fleetFloating v).replay,
    fun now k _ ↦ ?_⟩
  rw [row_mirrorRolesToRoster, hrows, hs, hn, hg]
  exact mirroredRow_idem _ _ _ _ _

private theorem ratifies_fleetFloating {v : TransitionVariant} {x : String}
    (hx : memberEntryTarget (seededEntry 1 4 v) = some x) :
    ratifies seeded (fleetFloating v).networkId (fleetFloating v).governance "p" =
      some (seededEntry 1 4 v) := by
  obtain ⟨memberLog, -, hg, -⟩ := fleetNode_spec 2 [fleetAdmit]
  obtain ⟨hn, -⟩ := fleetNode_frame 2 [fleetAdmit]
  have hfresh : ∀ p ∈ (fleetNode 2 [fleetAdmit]).governance.pending, p.id ≠ "p" := by
    rw [hg]
    simp [NetworkState.emptyFor]
  have hr := ratifies_signedProposal hfresh (1 : UInt8) 4 v
  rw [hn] at hr
  rw [fleetFloating, (floating_frame _ _).1, hn]
  exact hr.trans (if_pos ((ownerSigned_fleetNode 2 [fleetAdmit] 4 v).quorumMet hx))

private theorem admitted_fleetAdmit {memberLog : List Transition}
    (hmem : ∀ t, t ∈ memberLog ↔ t = fleetAdmit) (d : String) :
    Admitted seeded fleet "fleet" memberLog d ↔ d = seededDevice 3 := by
  constructor
  · rintro ⟨e, he, -, had, -⟩
    rw [hmem] at he
    subst he
    simpa [Admits, fleetAdmit, eq_comm] using had
  · rintro rfl
    refine ⟨fleetAdmit, (hmem _).mpr rfl, counted_fleet _ _, rfl, fun e he _ hr ↦ ?_⟩
    rw [hmem] at he
    subst he
    simp [Removes, fleetAdmit] at hr

/-- The verdicts once the owner's later removal of device 3 is in the log. -/
private theorem removal_verdicts {memberLog : List Transition} {v : TransitionVariant}
    (hmem : ∀ t, t ∈ memberLog ↔ t = fleetAdmit)
    (hv : v = .roleRevoke (seededDevice 3) ∨ v = .evict (seededDevice 3)) (d : String) :
    ¬ Admitted seeded fleet "fleet" (memberLog ++ [seededEntry 1 4 v]) d ∧
      (Tombstoned seeded fleet "fleet" (memberLog ++ [seededEntry 1 4 v]) d ↔
        d = seededDevice 3) := by
  have hlog : ∀ e, e ∈ memberLog ++ [seededEntry 1 4 v] ↔
      e = fleetAdmit ∨ e = seededEntry 1 4 v := fun e ↦ by
    rw [List.mem_append, hmem, List.mem_singleton]
  have hlater : fleetAdmit.at_ < (seededEntry 1 4 v).at_ := by
    have : (3 : UInt64) < 4 := by decide
    exact this
  have hremoves : Removes (seededEntry 1 4 v) d ↔ d = seededDevice 3 := by
    rcases hv with rfl | rfl <;> simp [Removes, eq_comm]
  have hadmits : ¬ Admits (seededEntry 1 4 v) d := by
    rcases hv with rfl | rfl <;> simp [Admits]
  refine ⟨?_, ?_, fun hd ↦ ?_⟩
  · rintro ⟨e, he, -, had, hall⟩
    rcases (hlog e).mp he with rfl | rfl
    · have hd : d = seededDevice 3 := by simpa [Admits, fleetAdmit, eq_comm] using had
      have hle := hall _ ((hlog _).mpr (.inr rfl)) (counted_fleet _ _) (hremoves.mpr hd)
      exact absurd hle (UInt64.not_le.mpr hlater)
    · exact hadmits had
  · rintro ⟨e, he, -, hr, -⟩
    rcases (hlog e).mp he with rfl | rfl
    · simp [Removes, fleetAdmit] at hr
    · exact hremoves.mp hr
  · refine ⟨_, (hlog _).mpr (.inr rfl), counted_fleet _ _, hremoves.mpr hd, fun e he _ had ↦ ?_⟩
    rcases (hlog e).mp he with rfl | rfl
    · exact hlater
    · exact absurd had hadmits

private theorem memberTier_fleetFloating {v : TransitionVariant}
    (hv : v = .roleRevoke (seededDevice 3) ∨ v = .evict (seededDevice 3)) :
    memberTier (fleetFloating v).governance v = true := by
  classical
  obtain ⟨memberLog, hmem, -, -, hg, -⟩ := fleetFloating_spec v
  have hrole : (projection seeded "fleet" fleet memberLog)[seededDevice 3]? = some .member := by
    rw [getElem?_projection, if_pos ((admitted_fleetAdmit hmem _).mpr rfl)]
    simp
  rcases hv with rfl | rfl <;> simp [memberTier, NetworkState.roleOf, hg, hrole]

private theorem signedAfter_fleetFloating {v : TransitionVariant}
    (hv : v = .roleRevoke (seededDevice 3) ∨ v = .evict (seededDevice 3)) :
    ∃ roles removed, signedAfter seeded (fleetFloating v).networkId (fleetFloating v).governance
        fleet (seededEntry 1 4 v) = (roles, removed) ∧
      (∀ d : String, roles[d]? = fleet.roles[d]?) ∧ ∀ d, d ∈ removed ↔ d = seededDevice 3 := by
  classical
  obtain ⟨memberLog, hmem, hn, -, hg, -⟩ := fleetFloating_spec v
  refine ⟨projection seeded "fleet" fleet (memberLog ++ [seededEntry 1 4 v]),
    memberLogRemoved seeded fleet (memberLog ++ [seededEntry 1 4 v]) "fleet", ?_, fun d ↦ ?_,
    fun d ↦ ?_⟩
  · simp only [signedAfter, verifiedAfter, memberLogAfter, variant_seededEntry,
      memberTier_fleetFloating hv, ↓reduceIte, hn]
    rw [hg]
  · rw [getElem?_projection, if_neg (removal_verdicts hmem hv d).1, Option.or_none]
  · rw [mem_memberLogRemoved]
    exact (removal_verdicts hmem hv d).2

private theorem row_fleetFloating (v : TransitionVariant) (k : String) :
    (fleetFloating v).roster.row k =
      (fleet.roles[k]?).or (if k = seededDevice 3 then some .member else none) := by
  classical
  obtain ⟨memberLog, hmem, -, -, -, hrows⟩ := fleetFloating_spec v
  have hroles : ∀ d : String, (projection seeded "fleet" fleet memberLog)[d]? =
      (fleet.roles[d]?).or (if d = seededDevice 3 then some .member else none) := by
    intro d
    rw [getElem?_projection]
    simp only [admitted_fleetAdmit hmem]
  have hkept : k ∉ memberLogRemoved seeded fleet memberLog "fleet" := by
    rw [mem_memberLogRemoved]
    rintro ⟨e, he, -, hr, -⟩
    rw [hmem] at he
    subst he
    simp [Removes, fleetAdmit] at hr
  rw [hrows, mirroredRow_none ?_ hkept, hroles]
  intro d r hd
  rw [hroles] at hd
  by_cases h3 : d = seededDevice 3
  · rw [h3]
    exact pubkeyPart_publicId seeded _
  · rw [if_neg h3, Option.or_none] at hd
    exact pubkeyPart_of_fleet hd

/-- The owner evicts a plain member: both mirrors drop its row. -/
theorem evicted_member_mirrors_agree :
    RosterReflects seeded (fleetFloating (.evict (seededDevice 3))) ∧
      RostersAgree seeded 0 (fleetFloating (.evict (seededDevice 3)))
        (tryRatify (clearEnv 0 "") (fleetFloating (.evict (seededDevice 3))) "p").1 := by
  refine ⟨reflects_fleetFloating _, (mirrors_agree_iff (clearEnv 0 "") 0 (fun _ ↦ rfl) ?_
    (replays_fleetFloating _) (reflects_fleetFloating _)
    (ratifies_fleetFloating rfl)).mpr ?_⟩
  · exact (replays_fleetFloating _).kind
  · obtain ⟨roles, removed, hafter, hroles, hremoved⟩ := signedAfter_fleetFloating
      (v := .evict (seededDevice 3)) (.inr rfl)
    have hsigned : ∀ k, signedRole roles k = fleet.roles[k]? := by
      intro k
      rw [signedRole_eq_getElem? (fun d r hd ↦ pubkeyPart_of_fleet ((hroles d).symm.trans hd)),
        hroles]
    rw [hafter]
    refine ⟨fun x hx k hk hkx ↦ ?_, fun x r hv ↦ ?_, fun x hv ↦ ?_, fun x hv _ ↦ ?_⟩
    · cases hx
      have hne : k ≠ seededDevice 3 := fun h ↦ hkx (h.trans (pubkeyPart_publicId seeded _).symm)
      have hkept : k ∉ removed := fun h ↦ hne ((hremoved k).mp h)
      rw [row_fleetFloating, if_neg hne, Option.or_none]
      refine ⟨fun h ↦ absurd h hkept, fun _ r h ↦ ?_, fun _ h r hr ↦ ?_⟩
      · rwa [hsigned] at h
      · rw [hsigned, hr] at h
        cases h
    · cases hv
    · cases hv
    · cases hv
      exact .inl ((hremoved _).mpr (pubkeyPart_publicId seeded _))

/-- The owner revokes a plain member: the ratifying node keeps its row, while the signed logs
tombstone the device and every node that mirrors them drops it. -/
theorem revoked_member_keeps_row :
    (fleetFloating (.roleRevoke (seededDevice 3))).governance.kind = .closed ∧
      RosterReflects seeded (fleetFloating (.roleRevoke (seededDevice 3))) ∧
      ratifies seeded (fleetFloating (.roleRevoke (seededDevice 3))).networkId
          (fleetFloating (.roleRevoke (seededDevice 3))).governance "p" =
        some (seededEntry 1 4 (.roleRevoke (seededDevice 3))) ∧
      ¬ RostersAgree seeded 0 (fleetFloating (.roleRevoke (seededDevice 3)))
        (tryRatify (clearEnv 0 "") (fleetFloating (.roleRevoke (seededDevice 3))) "p").1 := by
  have hr := ratifies_fleetFloating (v := .roleRevoke (seededDevice 3)) rfl
  refine ⟨(replays_fleetFloating _).kind, reflects_fleetFloating _, hr, ?_⟩
  rw [rostersAgree_iff_rows (clearEnv 0 "") 0 (fun _ ↦ rfl) (replays_fleetFloating _) hr]
  intro h
  obtain ⟨roles, removed, hafter, -, hremoved⟩ := signedAfter_fleetFloating
    (v := .roleRevoke (seededDevice 3)) (.inl rfl)
  obtain ⟨memberLog, -, -, hself, -, -⟩ := fleetFloating_spec (.roleRevoke (seededDevice 3))
  have hne : seededDevice 3 ≠ seededDevice 2 := by simp
  have hrow := h (seededDevice 3) (by rwa [hself])
  have hbare : ∀ seed, pubkeyPart (seededDevice seed) = seededDevice seed :=
    pubkeyPart_publicId seeded
  rw [hafter, hself, row_fleetFloating] at hrow
  simp [localRow, mirroredRow, hbare, (hremoved _).mpr rfl] at hrow

end MyOwnMesh
