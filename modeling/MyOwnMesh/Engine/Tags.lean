import MyOwnMesh.Engine.Inbound

/-!
# Role tags of the roster

A roster row shows a role tag beside the role map of the signed state. A ratification edits
the row per variant (`governance.rs:1628–1695`), an adoption re-derives every row
(`:1368–1404`), and gossip on open governance copies a peer's tag (`:826–862`). On a closed
network the tags agree with the map as long as every edit writes the row of the device whose
role it changed, with the role the map then holds.
-/

namespace MyOwnMesh

open Lib Lib.Replay

variable {P : Primitives}

/-- On a closed network every row carries the role the map assigns to its device. -/
def TagsSigned (s : EngineState P) : Prop :=
  s.governance.kind = .closed →
    ∀ e ∈ s.roster.authorizedDevices, e.role = s.governance.roleOf e.deviceId

/-- With one row per device this is a statement about lookups. -/
theorem tagsSigned_iff {s : EngineState P} (h : s.roster.Distinct) :
    TagsSigned s ↔ (s.governance.kind = .closed →
      ∀ k r, s.roster.row k = some r → r = s.governance.roleOf k) := by
  constructor
  · intro htags hclosed k r hr
    obtain ⟨e, he, hk, hrole⟩ := Roster.exists_of_row hr
    rw [← hk, ← hrole]
    exact htags hclosed e he
  · intro hrows hclosed e he
    exact hrows hclosed e.deviceId e.role (h.row_of_mem he)

/-! ### Ratified entries -/

/-- The role of a device once a ratified entry is in: a member-tier entry changes nobody's
tag, any other entry has its own effect. -/
def roleAfter (gov : NetworkState) (t : Transition) (d : String) : Role :=
  if memberTier gov t.variant then gov.roleOf d
  else ((roleEffect t d).getD gov.roles[d]?).getD .member

/-- The per-variant edit of a ratified entry fits the role map it leaves. `saved` says that
the state file was written, without which the roster is not edited at all. -/
def TagsFit (gov : NetworkState) (row : String → Option Role) (selfId : String) (saved : Prop)
    (t : Transition) : Prop :=
  match t.variant with
  -- The edit tags this device, the role map its first signer.
  | .kindChange .closed =>
    (saved → t.signers.head? = some selfId ∨ gov.IsOwner selfId) ∧
      ∀ k r, row k = some r → (saved → k ≠ selfId) →
        r = if t.signers.head? = some k then .owner else gov.roleOf k
  -- The edit tags the target a member, the role map keeps an authority.
  | .roleGrant x .member => gov.kind = .closed → saved → gov.roleOf (pubkeyPart x) = .member
  -- The edit is keyed by the bare key, the role map by the spelling of the target.
  | .roleGrant x role =>
    gov.kind = .closed →
      (saved → pubkeyPart x = x ∨ gov.roleOf (pubkeyPart x) = role) ∧
        (row x ≠ none → (saved → x ≠ pubkeyPart x) → gov.roleOf x = role)
  | .roleRevoke x =>
    gov.kind = .closed →
      (saved → pubkeyPart x = x ∨ row (pubkeyPart x) = none ∨
          gov.roleOf (pubkeyPart x) = .member) ∧
        (row x ≠ none → (saved → x ≠ pubkeyPart x) → gov.roleOf x = .member)
  | .evict x =>
    gov.kind = .closed → row x ≠ none → (saved → x ≠ pubkeyPart x) → gov.roleOf x = .member
  | _ => True

section Rows

variable {row row' : String → Option Role} {role after : String → Role} {saved : Prop}
  {x b : String} {a : Role} {w : Option Role}

/-- An edit of one row, made only if the state was saved: the rows fit exactly when the
edited row does and every other row does already. -/
private theorem rows_fit_iff (hs : saved → ∀ k, row' k = if k = b then w else row k)
    (hn : ¬ saved → ∀ k, row' k = row k) :
    (∀ k r, row' k = some r → r = after k) ↔
      (saved → ∀ r, w = some r → r = after b) ∧
        ∀ k r, row k = some r → (saved → k ≠ b) → r = after k := by
  constructor
  · intro h
    constructor
    · intro hsaved r hw
      apply h b r
      rw [hs hsaved, if_pos rfl, hw]
    · intro k r hk hb
      apply h k r
      by_cases hsaved : saved
      · rw [hs hsaved, if_neg (hb hsaved), hk]
      · rw [hn hsaved, hk]
  · rintro ⟨hw, hothers⟩ k r hk
    by_cases hsaved : saved
    · rw [hs hsaved] at hk
      split at hk
      · next hb =>
        rw [hb]
        exact hw hsaved r hk
      · next hb => exact hothers k r hk fun _ ↦ hb
    · rw [hn hsaved] at hk
      exact hothers k r hk fun h ↦ absurd h hsaved

/-- Where one device's role changes, the rows that were not edited fit exactly when that
device has none of them or held the role before. -/
private theorem others_fit_iff (hrow : ∀ k r, row k = some r → r = role k)
    (hafter : ∀ k, after k = if k = x then a else role k) :
    (∀ k r, row k = some r → (saved → k ≠ b) → r = after k) ↔
      (row x ≠ none → (saved → x ≠ b) → role x = a) := by
  constructor
  · intro h hx hb
    obtain ⟨r, hr⟩ := Option.ne_none_iff_exists'.mp hx
    have hra := h x r hr hb
    rw [hafter, if_pos rfl] at hra
    rw [← hra]
    exact (hrow x r hr).symm
  · intro h k r hk hb
    rw [hafter]
    split
    · next hkx =>
      subst hkx
      rw [hrow k r hk]
      exact h (by rw [hk]; simp) hb
    · exact hrow k r hk

/-- Where nobody's role changes, the rows that were not edited fit already. -/
private theorem others_fit (hrow : ∀ k r, row k = some r → r = role k)
    (hafter : ∀ k, after k = role k) :
    ∀ k r, row k = some r → (saved → k ≠ b) → r = after k := by
  intro k r hk _
  rw [hafter]
  exact hrow k r hk

end Rows

section Entries

variable {gov : NetworkState} {row row' : String → Option Role} {selfId x : String} {role : Role}
  {saved : Prop} {t : Transition}

private theorem fit_close (hself : pubkeyPart selfId = selfId)
    (hv : t.variant = .kindChange .closed)
    (hs : saved → ∀ k, row' k = localRow selfId t k (row k))
    (hn : ¬ saved → ∀ k, row' k = row k) :
    (∀ k r, row' k = some r → r = roleAfter gov t k) ↔ TagsFit gov row selfId saved t := by
  have hafter : ∀ k, roleAfter gov t k =
      if t.signers.head? = some k then .owner else gov.roleOf k := by
    intro k
    simp only [roleAfter, memberTier, hv, roleEffect, Bool.false_eq_true, ↓reduceIte]
    split <;> rfl
  have hs' : saved → ∀ k, row' k = if k = selfId then some .owner else row k := by
    intro h k
    rw [hs h, localRow, hv, hself]
  have howner : Role.owner = roleAfter gov t selfId ↔
      t.signers.head? = some selfId ∨ gov.IsOwner selfId := by
    rw [hafter]
    split
    · next h => simp [h]
    · next h =>
      simp only [h, false_or, NetworkState.IsOwner, NetworkState.roleOf]
      cases gov.roles[selfId]? with
      | none => simp
      | some r => simp [eq_comm]
  rw [rows_fit_iff hs' hn]
  simp only [TagsFit, hv, ← hafter, Option.some.injEq, forall_eq', howner]

private theorem fit_grant (hv : t.variant = .roleGrant x role)
    (hrow : ∀ k r, row k = some r → r = gov.roleOf k) (hclosed : gov.kind = .closed)
    (hs : saved → ∀ k, row' k = localRow selfId t k (row k))
    (hn : ¬ saved → ∀ k, row' k = row k) :
    (∀ k r, row' k = some r → r = roleAfter gov t k) ↔ TagsFit gov row selfId saved t := by
  have hs' : saved → ∀ k, row' k = if k = pubkeyPart x then some role else row k := by
    intro h k
    rw [hs h, localRow, hv]
  rw [rows_fit_iff hs' hn]
  by_cases hm : role = .member
  · subst hm
    have hafter : ∀ k, roleAfter gov t k = gov.roleOf k := by
      intro k
      simp [roleAfter, memberTier, hv]
    simp only [TagsFit, hv, hclosed, forall_const, Option.some.injEq, forall_eq']
    rw [and_iff_left (others_fit hrow hafter), hafter]
    simp only [eq_comm]
  · have hafter : ∀ k, roleAfter gov t k = if k = x then role else gov.roleOf k := by
      intro k
      have htier : memberTier gov (.roleGrant x role) = false := by
        cases role with
        | member => exact absurd rfl hm
        | controller => rfl
        | owner => rfl
      simp only [roleAfter, hv, htier, roleEffect, Bool.false_eq_true, ↓reduceIte, eq_comm (b := k)]
      split <;> rfl
    rw [others_fit_iff hrow hafter]
    have hfit : TagsFit gov row selfId saved t ↔
        (saved → pubkeyPart x = x ∨ gov.roleOf (pubkeyPart x) = role) ∧
          (row x ≠ none → (saved → x ≠ pubkeyPart x) → gov.roleOf x = role) := by
      cases role with
      | member => exact absurd rfl hm
      | controller => simp only [TagsFit, hv, hclosed, forall_const]
      | owner => simp only [TagsFit, hv, hclosed, forall_const]
    have hwritten : role = roleAfter gov t (pubkeyPart x) ↔
        pubkeyPart x = x ∨ gov.roleOf (pubkeyPart x) = role := by
      rw [hafter]
      split
      · next h => simp [h]
      · next h => simp [h, eq_comm]
    rw [hfit]
    simp only [Option.some.injEq, forall_eq', hwritten]

/-- On either tier a removal leaves its target a plain member or nothing. -/
private theorem roleAfter_removal (hv : t.variant = .roleRevoke x ∨ t.variant = .evict x)
    (k : String) : roleAfter gov t k = if k = x then .member else gov.roleOf k := by
  have htier : memberTier gov t.variant = (gov.roleOf x == .member) := by
    rcases hv with hv | hv <;> rw [hv] <;> rfl
  have heff : roleEffect t k = if x = k then some none else none := by
    rcases hv with hv | hv <;> simp only [roleEffect, hv]
  rw [roleAfter, htier, heff]
  by_cases hk : k = x
  · subst hk
    by_cases hm : gov.roleOf k = .member
    · simp [hm]
    · simp [hm]
  · have hx : ¬ x = k := fun h ↦ hk h.symm
    simp only [hk, hx, ↓reduceIte, Option.getD_none]
    exact ite_self _

private theorem fit_revoke (hv : t.variant = .roleRevoke x)
    (hrow : ∀ k r, row k = some r → r = gov.roleOf k) (hclosed : gov.kind = .closed)
    (hs : saved → ∀ k, row' k = localRow selfId t k (row k))
    (hn : ¬ saved → ∀ k, row' k = row k) :
    (∀ k r, row' k = some r → r = roleAfter gov t k) ↔ TagsFit gov row selfId saved t := by
  have hs' : saved → ∀ k, row' k =
      if k = pubkeyPart x then (row (pubkeyPart x)).map fun _ ↦ .member else row k := by
    intro h k
    rw [hs h, localRow, hv]
    simp only
    split
    · next hk => rw [hk]
    · rfl
  have hafter : ∀ k, roleAfter gov t k = if k = x then .member else gov.roleOf k :=
    roleAfter_removal (.inl hv)
  have hwritten : (∀ r, ((row (pubkeyPart x)).map fun _ ↦ Role.member) = some r →
        r = roleAfter gov t (pubkeyPart x)) ↔
      pubkeyPart x = x ∨ row (pubkeyPart x) = none ∨ gov.roleOf (pubkeyPart x) = .member := by
    rw [hafter]
    cases row (pubkeyPart x) with
    | none => simp
    | some r =>
      by_cases hx : pubkeyPart x = x
      · simp [hx]
      · simp [hx, eq_comm]
  rw [rows_fit_iff hs' hn, others_fit_iff hrow hafter, hwritten]
  simp only [TagsFit, hv, hclosed, forall_const]

private theorem fit_evict (hv : t.variant = .evict x)
    (hrow : ∀ k r, row k = some r → r = gov.roleOf k) (hclosed : gov.kind = .closed)
    (hs : saved → ∀ k, row' k = localRow selfId t k (row k))
    (hn : ¬ saved → ∀ k, row' k = row k) :
    (∀ k r, row' k = some r → r = roleAfter gov t k) ↔ TagsFit gov row selfId saved t := by
  have hs' : saved → ∀ k, row' k = if k = pubkeyPart x then none else row k := by
    intro h k
    rw [hs h, localRow, hv]
  have hafter : ∀ k, roleAfter gov t k = if k = x then .member else gov.roleOf k :=
    roleAfter_removal (.inr hv)
  rw [rows_fit_iff hs' hn, others_fit_iff hrow hafter]
  simp only [TagsFit, hv, hclosed, forall_const]
  exact and_iff_right fun _ r h ↦ by cases h

/-- A split, a topology change or a reopening edits no row and changes no role. -/
private theorem fit_other (hself : ∀ k, localRow selfId t k (row k) = row k)
    (hafter : ∀ k, roleAfter gov t k = gov.roleOf k)
    (hrow : ∀ k r, row k = some r → r = gov.roleOf k)
    (hs : saved → ∀ k, row' k = localRow selfId t k (row k))
    (hn : ¬ saved → ∀ k, row' k = row k) : ∀ k r, row' k = some r → r = roleAfter gov t k := by
  intro k r hk
  rw [hafter]
  apply hrow
  by_cases hsaved : saved
  · rwa [hs hsaved, hself] at hk
  · rwa [hn hsaved] at hk

/-- After a ratified entry that leaves the network closed the rows show the role map exactly
when the entry's edit fits it. -/
theorem tagsFit_iff (hself : pubkeyPart selfId = selfId) (hq : QuorumMet gov t)
    (hrow : gov.kind = .closed → ∀ k r, row k = some r → r = gov.roleOf k)
    (hs : saved → ∀ k, row' k = localRow selfId t k (row k))
    (hn : ¬ saved → ∀ k, row' k = row k) :
    (kindAfter gov.kind t = .closed → ∀ k r, row' k = some r → r = roleAfter gov t k) ↔
      TagsFit gov row selfId saved t := by
  cases hv : t.variant with
  | kindChange to_ =>
    cases to_ with
    | closed =>
      simp only [kindAfter, hv, forall_const]
      exact fit_close hself hv hs hn
    | «open» => simp [kindAfter, TagsFit, hv]
    | silent => simp [kindAfter, TagsFit, hv]
  | roleGrant x role =>
    simp only [kindAfter, hv]
    by_cases hclosed : gov.kind = .closed
    · simp only [hclosed, forall_const]
      exact fit_grant hv (hrow hclosed) hclosed hs hn
    · cases role <;> simp [TagsFit, hv, hclosed]
  | roleRevoke x =>
    simp only [kindAfter, hv]
    by_cases hclosed : gov.kind = .closed
    · simp only [hclosed, forall_const]
      exact fit_revoke hv (hrow hclosed) hclosed hs hn
    · simp [TagsFit, hv, hclosed]
  | evict x =>
    simp only [kindAfter, hv]
    by_cases hclosed : gov.kind = .closed
    · simp only [hclosed, forall_const]
      exact fit_evict hv (hrow hclosed) hclosed hs hn
    · simp [TagsFit, hv, hclosed]
  | split n ms =>
    simp only [kindAfter, TagsFit, hv, iff_true]
    intro hclosed
    exact fit_other (fun k ↦ by rw [localRow, hv])
      (fun k ↦ by simp [roleAfter, memberTier, roleEffect, hv, NetworkState.roleOf])
      (hrow hclosed) hs hn
  | topologyChange m =>
    simp only [kindAfter, TagsFit, hv, iff_true]
    intro hclosed
    exact fit_other (fun k ↦ by rw [localRow, hv])
      (fun k ↦ by simp [roleAfter, memberTier, roleEffect, hv, NetworkState.roleOf])
      (hrow hclosed) hs hn
  | unknown => simp [QuorumMet, hv] at hq

end Entries

private theorem getD_member_congr {a b : Option Role}
    (h : ∀ r, r ≠ .member → (a = some r ↔ b = some r)) :
    a.getD .member = b.getD .member := by
  cases a with
  | none =>
    cases b with
    | none => rfl
    | some r =>
      by_cases hr : r = .member
      · rw [hr]
        rfl
      · cases (h r hr).mpr rfl
  | some r =>
    by_cases hr : r = .member
    · cases b with
      | none => rw [hr]; rfl
      | some r' =>
        by_cases hr' : r' = .member
        · rw [hr, hr']
        · rw [(h r' hr').mpr rfl]
    · rw [(h r hr).mp rfl]

/-- The role of every device after an operation that ratifies an entry. -/
theorem roleOf_step_of_ratified {s : EngineState P} {o : Env × GovOp} {t : Transition}
    (hv : ∃ v, ReplaysTo P s.networkId s.governance v) (h : ratifiedBy s o = some t)
    (d : String) : (step s o).governance.roleOf d = roleAfter s.governance t d := by
  obtain ⟨v, hv⟩ := hv
  have hrole := getD_member_congr fun r hr ↦ role_step_of_ratified hv h hr d
  rw [NetworkState.roleOf, hrole, roleAfter]
  split <;> rfl

/-- A ratified entry keeps the tags exactly when its edit fits the role map. -/
theorem tagsSigned_step_of_ratified {s : EngineState P} {o : Env × GovOp} {t : Transition}
    (hd : s.roster.Distinct) (hd' : (step s o).roster.Distinct)
    (hv : ∃ v, ReplaysTo P s.networkId s.governance v) (hs : TagsSigned s)
    (h : ratifiedBy s o = some t) :
    TagsSigned (step s o) ↔
      TagsFit s.governance s.roster.row s.selfId (StateSaved s o t) t := by
  obtain ⟨hsaved, hunsaved⟩ := roster_step_of_ratified h
  obtain ⟨-, hq, pending, hg⟩ := governance_step_of_ratified h
  have hself : pubkeyPart s.selfId = s.selfId := pubkeyPart_publicId P s.signingKey
  have hkind : (step s o).governance.kind = kindAfter s.governance.kind t := by
    rw [hg]
    exact kind_routed s.networkId s.governance t
  rw [tagsSigned_iff hd', hkind]
  simp only [roleOf_step_of_ratified hv h]
  apply tagsFit_iff hself hq ((tagsSigned_iff hd).mp hs)
  · intro hsave k
    rw [hsaved hsave, row_mirrorRatified]
  · intro hsave k
    rw [hunsaved hsave]

/-! ### Adopted logs -/

/-- Mirrored rows show the role map exactly when, for every device the map names under its
bare key, the last spelling that strips to it has the same role. -/
private theorem mirrored_fit_iff {roles : RoleMap} {removed : List String} {selfId : String}
    (hself : pubkeyPart selfId = selfId) (row : String → Option Role) :
    (∀ k q, mirroredRow roles removed selfId k (row k) = some q →
        q = (roles[k]?).getD .member) ↔
      ∀ k r, roles[k]? = some r → k = selfId ∨ k ∉ removed →
        ∀ q, (claimedRole roles k).or (row k) = some q → q = r := by
  have hmirrored : ∀ k r, roles[k]? = some r → k = selfId ∨ k ∉ removed →
      mirroredRow roles removed selfId k (row k) = (claimedRole roles k).or (row k) := by
    intro k r hr hkept
    have hin : k ∈ roles := Std.ExtTreeMap.isSome_getElem?_iff_mem.mp (by rw [hr]; rfl)
    rw [mirroredRow, hself, if_neg (by tauto)]
    simp [hin]
  constructor
  · intro h k r hr hkept q hq
    have hfit := h k q (by rw [hmirrored k r hr hkept, hq])
    rwa [hr] at hfit
  · intro h k q hq
    have hkept : k = selfId ∨ k ∉ removed := by
      by_contra hgone
      rw [mirroredRow, hself, if_pos (by tauto)] at hq
      cases hq
    cases hr : roles[k]? with
    | some r =>
      rw [hmirrored k r hr hkept] at hq
      exact h k r hr hkept q hq
    | none =>
      have hout : k ∉ roles := fun hin ↦ by
        rw [← Std.ExtTreeMap.isSome_getElem?_iff_mem, hr] at hin
        cases hin
      rw [mirroredRow, hself, if_neg (by tauto)] at hq
      simp only [hout, ↓reduceIte] at hq
      obtain ⟨_, -, rfl⟩ := Option.map_eq_some_iff.mp hq
      rfl

variable (P) in
/-- The two signed logs an adoption would leave. -/
def adoptedLogs (s : EngineState P) (incomingGov incomingMembers : List Transition) :
    NetworkState :=
  adoptMemberLog (adoptGovernanceLog P s.networkId s.governance incomingGov) incomingMembers

/-- The role map the adopted logs project to names no rostered device under two spellings
with different roles. -/
def AdoptsTags (s : EngineState P) (incomingGov incomingMembers : List Transition) : Prop :=
  ∀ roles removed, verifiedProjection P s.networkId
      (adoptedLogs P s incomingGov incomingMembers) = .ok (roles, removed) →
    (adoptedLogs P s incomingGov incomingMembers).kind = .closed →
    ∀ k r, roles[k]? = some r → k = s.selfId ∨ k ∉ removed →
      ∀ q, (claimedRole roles k).or (s.roster.row k) = some q → q = r

/-- The adopted logs of a live state verify, so an adoption mirrors their projection. -/
private theorem adoptTransitionLog_mirrors (env : Env) {s : EngineState P}
    (hv : ∃ v, ReplaysTo P s.networkId s.governance v)
    (incomingGov incomingMembers : List Transition) :
    ∃ roles removed, verifiedProjection P s.networkId
        (adoptedLogs P s incomingGov incomingMembers) = .ok (roles, removed) ∧
      (adoptTransitionLog env s incomingGov incomingMembers).governance =
        { adoptedLogs P s incomingGov incomingMembers with roles := roles } ∧
      (adoptTransitionLog env s incomingGov incomingMembers).roster =
        (mirrorRolesToRoster env.rosterNow roles s.roster removed s.selfId).1 := by
  obtain ⟨v, hv⟩ := hv
  have hlog : ∃ u, verifyLog P s.networkId
      (adoptedLogs P s incomingGov incomingMembers).transitions = .ok u := by
    obtain ⟨memberLog, hm⟩ := adoptMemberLog_eq
      (adoptGovernanceLog P s.networkId s.governance incomingGov) incomingMembers
    rw [adoptedLogs, hm]
    cases adoptGovernanceLog_cases (P := P) s.networkId s.governance incomingGov with
    | inl hold =>
      rw [hold]
      exact ⟨v, hv.replay⟩
    | inr hnew =>
      obtain ⟨u, -, hu, hnew⟩ := hnew
      rw [hnew]
      exact ⟨u, hu⟩
  obtain ⟨u, hu⟩ := hlog
  have hproj := verifiedProjection_of_verifyLog P hu
  refine ⟨_, _, hproj, ?_, ?_⟩
  · rw [adoptTransitionLog]
    rw [adoptedLogs] at hproj ⊢
    simp only [hproj]
    rfl
  · rw [adoptTransitionLog]
    rw [adoptedLogs] at hproj ⊢
    simp only [hproj]
    rfl

/-- An adoption leaves the tags signed exactly when no device is named twice with different
roles, whatever the tags were before. -/
theorem tagsSigned_adopt_iff (env : Env) {s : EngineState P} (hd : s.roster.Distinct)
    (hv : ∃ v, ReplaysTo P s.networkId s.governance v)
    (incomingGov incomingMembers : List Transition) :
    TagsSigned (adoptTransitionLog env s incomingGov incomingMembers) ↔
      AdoptsTags s incomingGov incomingMembers := by
  obtain ⟨roles, removed, hproj, hgov, hroster⟩ :=
    adoptTransitionLog_mirrors env hv incomingGov incomingMembers
  have hself : pubkeyPart s.selfId = s.selfId := pubkeyPart_publicId P s.signingKey
  rw [tagsSigned_iff (by rw [hroster]; exact hd.mirrorRolesToRoster _ _ _ _), hgov, hroster]
  simp only [row_mirrorRolesToRoster, NetworkState.roleOf, mirrored_fit_iff hself]
  constructor
  · intro h roles' removed' hproj' hclosed
    rw [hproj, Except.ok.injEq, Prod.mk.injEq] at hproj'
    rw [← hproj'.1, ← hproj'.2]
    exact h hclosed
  · intro h hclosed
    exact h roles removed hproj hclosed

/-! ### Runs -/

/-- A governance operation of this device, or a frame of a peer. -/
inductive EngineOp where
  | govern (op : GovOp)
  | receive (peerId : String) (frame : Inbound)

/-- The state after one operation or frame. -/
def engineStep (s : EngineState P) (o : Env × EngineOp) : EngineState P :=
  match o.2 with
  | .govern op => step s (o.1, op)
  | .receive peerId frame => receive s (o.1, peerId, frame)

/-- The state in which the logs of a gossiped roster are adopted: its rows are merged first,
on open governance. -/
def gossiped (env : Env) (s : EngineState P) (entries : List RosterEntry) : EngineState P :=
  if s.governance.kind.isOpenGovernance then
    { s with roster := entries.foldl (mergeRosterEntry env.rosterNow s.selfId) s.roster }
  else s

/-- The edit of an entry this operation ratifies fits the role map, and so do the logs it
adopts. -/
def KeepsTags (s : EngineState P) (o : Env × GovOp) : Prop :=
  (∀ t, ratifiedBy s o = some t →
      TagsFit s.governance s.roster.row s.selfId (StateSaved s o t) t) ∧
    ∀ gov members, o.2 = .adoptTransitionLog gov members → AdoptsTags s gov members

/-- The same for an operation or a frame. A deny without logs adopts nothing. -/
def EngineKeepsTags (s : EngineState P) (o : Env × EngineOp) : Prop :=
  match o.2 with
  | .govern op => KeepsTags s (o.1, op)
  | .receive peerId (.propose msg) => KeepsTags s (o.1, .onPropose peerId msg)
  | .receive peerId (.ack msg) => KeepsTags s (o.1, .onAck peerId msg)
  | .receive _ (.split _) => True
  | .receive _ (.stateBroadcast _) => True
  | .receive _ (.rosterEntries entries transitions memberLog) =>
    AdoptsTags (gossiped o.1 s entries) transitions memberLog
  | .receive _ (.deny _ transitions memberLog) =>
    transitions ≠ [] ∨ memberLog ≠ [] → AdoptsTags s transitions memberLog

/-- What the argument needs of a live state: one row per device and a log that replays. -/
structure Tagged (s : EngineState P) : Prop where
  distinct : s.roster.Distinct
  replays : ∃ v, ReplaysTo P s.networkId s.governance v

private theorem distinct_mirrorRatified (env : Env) {s : EngineState P} (t : Transition)
    (h : s.roster.Distinct) : (mirrorRatified env s t).1.roster.Distinct := by
  unfold mirrorRatified
  split
  · exact h.grantIn _ _ _ _
  · exact h.setRoleIn _ _
  · exact h.grantIn _ _ _ _
  · split
    · exact h.filter _
    · exact h
  · exact h
  · exact h

private theorem distinct_mergeRosterEntry (now : UInt64) (selfPk : String) {roster : Roster}
    (h : roster.Distinct) (entry : RosterEntry) :
    (mergeRosterEntry now selfPk roster entry).Distinct := by
  unfold mergeRosterEntry
  simp only
  split
  · exact h
  · split
    · exact h
    · split
      · exact (h.addPeerIn _ _ _).setRoleIn _ _
      · exact h.addPeerIn _ _ _

/-- Every governance operation keeps a live state live. -/
theorem Tagged.step {s : EngineState P} (h : Tagged s) (o : Env × GovOp) :
    Tagged (MyOwnMesh.step s o) := by
  refine ⟨?_, replays_step o h.replays⟩
  obtain ⟨env, op⟩ := o
  by_cases hop : ∃ gov members, op = .adoptTransitionLog gov members
  · obtain ⟨gov, members, rfl⟩ := hop
    obtain ⟨roles, removed, -, -, hroster⟩ :=
      adoptTransitionLog_mirrors env h.replays gov members
    show (adoptTransitionLog env s gov members).roster.Distinct
    rw [hroster]
    exact h.distinct.mirrorRolesToRoster _ _ _ _
  · cases hby : ratifiedBy s (env, op) with
    | none =>
      rw [roster_step_of_not hby fun gov members heq ↦ hop ⟨gov, members, heq⟩]
      exact h.distinct
    | some t =>
      obtain ⟨hsaved, hunsaved⟩ := roster_step_of_ratified hby
      by_cases hsave : StateSaved s (env, op) t
      · rw [hsaved hsave]
        exact distinct_mirrorRatified env t h.distinct
      · rw [hunsaved hsave]
        exact h.distinct

/-- Merging gossiped rows keeps a live state live. -/
theorem Tagged.gossiped {s : EngineState P} (h : Tagged s) (env : Env)
    (entries : List RosterEntry) : Tagged (MyOwnMesh.gossiped env s entries) := by
  unfold MyOwnMesh.gossiped
  split
  · refine ⟨?_, h.replays⟩
    simp only
    exact List.foldlRecOn entries _ h.distinct fun roster hr entry _ ↦
      distinct_mergeRosterEntry env.rosterNow s.selfId hr entry
  · exact h

/-- Every operation and frame keeps a live state live. -/
theorem Tagged.engineStep {s : EngineState P} (h : Tagged s) (o : Env × EngineOp) :
    Tagged (MyOwnMesh.engineStep s o) := by
  obtain ⟨env, op⟩ := o
  cases op with
  | govern op => exact h.step (env, op)
  | receive peerId frame =>
    cases frame with
    | propose msg => exact h.step (env, .onPropose peerId msg)
    | ack msg => exact h.step (env, .onAck peerId msg)
    | split msg => exact h.step (env, .onSplit peerId msg)
    | stateBroadcast msg => exact h
    | rosterEntries entries transitions memberLog =>
      exact (h.gossiped env entries).step (env, .adoptTransitionLog transitions memberLog)
    | deny reason transitions memberLog =>
      have hadopt := h.step (env, .adoptTransitionLog transitions memberLog)
      simp only [MyOwnMesh.engineStep, receive, onDeny]
      split
      · exact ⟨hadopt.distinct, hadopt.replays⟩
      · exact h

/-- An operation that neither ratifies nor adopts moves no role and no row. -/
private theorem tagsSigned_step_of_not {s : EngineState P} (hs : TagsSigned s) {env : Env}
    {op : GovOp} (hby : ratifiedBy s (env, op) = none)
    (hop : ∀ gov members, op ≠ .adoptTransitionLog gov members) :
    TagsSigned (step s (env, op)) := by
  have heff := localEffect_step s env hop
  unfold TagsSigned at hs ⊢
  rw [roster_step_of_not hby hop]
  generalize (step s (env, op)).governance = g at heff
  cases heff with
  | quiet pending _ => exact hs
  | ratify t pending hsome _ _ =>
    rw [hby] at hsome
    cases hsome
  | split t pending n ms _ hv _ _ =>
    intro hclosed e he
    have hkind : s.governance.kind = .closed := by
      simpa [kindAfter, hv] using hclosed
    show e.role = ((applyTransition s.governance t).roles[e.deviceId]?).getD .member
    rw [roles_applyTransition, roleEffect, hv]
    exact hs hkind e he

/-- One governance operation keeps the tags exactly when its edits fit. -/
theorem tagsSigned_step_iff {s : EngineState P} (h : Tagged s) (hs : TagsSigned s)
    (o : Env × GovOp) : TagsSigned (step s o) ↔ KeepsTags s o := by
  obtain ⟨env, op⟩ := o
  by_cases hop : ∃ gov members, op = .adoptTransitionLog gov members
  · obtain ⟨gov, members, rfl⟩ := hop
    rw [step, tagsSigned_adopt_iff env h.distinct h.replays]
    constructor
    · intro ha
      constructor
      · intro t ht
        cases ht
      · intro gov' members' heq
        cases heq
        exact ha
    · intro hk
      exact hk.2 gov members rfl
  · have hnot : ∀ gov members, op ≠ .adoptTransitionLog gov members :=
      fun gov members heq ↦ hop ⟨gov, members, heq⟩
    have hadopt : ∀ gov members, op = .adoptTransitionLog gov members →
        AdoptsTags s gov members := fun gov members heq ↦ absurd heq (hnot gov members)
    cases hby : ratifiedBy s (env, op) with
    | none =>
      refine iff_of_true (tagsSigned_step_of_not hs hby hnot) ⟨fun t ht ↦ ?_, hadopt⟩
      rw [hby] at ht
      cases ht
    | some t =>
      rw [tagsSigned_step_of_ratified h.distinct (h.step (env, op)).distinct h.replays hs hby]
      constructor
      · intro hfit
        refine ⟨fun t' ht ↦ ?_, hadopt⟩
        rw [hby, Option.some.injEq] at ht
        rw [← ht]
        exact hfit
      · intro hk
        exact hk.1 t hby

/-- One operation or frame keeps the tags exactly when its edits fit. -/
theorem tagsSigned_engineStep_iff {s : EngineState P} (h : Tagged s) (hs : TagsSigned s)
    (o : Env × EngineOp) : TagsSigned (engineStep s o) ↔ EngineKeepsTags s o := by
  obtain ⟨env, op⟩ := o
  cases op with
  | govern op => exact tagsSigned_step_iff h hs (env, op)
  | receive peerId frame =>
    cases frame with
    | propose msg => exact tagsSigned_step_iff h hs (env, .onPropose peerId msg)
    | ack msg => exact tagsSigned_step_iff h hs (env, .onAck peerId msg)
    | split msg =>
      have hstep : TagsSigned (step s (env, .onSplit peerId msg)) :=
        tagsSigned_step_of_not hs rfl fun gov members heq ↦ by cases heq
      exact iff_of_true hstep trivial
    | stateBroadcast msg => exact iff_of_true hs trivial
    | rosterEntries entries transitions memberLog =>
      have hg := h.gossiped env entries
      exact tagsSigned_adopt_iff env hg.distinct hg.replays transitions memberLog
    | deny reason transitions memberLog =>
      have hadopt := tagsSigned_adopt_iff env h.distinct h.replays transitions memberLog
      simp only [engineStep, receive, onDeny, EngineKeepsTags]
      split
      · next hlogs =>
        rw [← hadopt]
        exact ⟨fun hr _ ↦ hr, fun hr ↦ hr hlogs⟩
      · next hlogs => exact iff_of_true hs fun hl ↦ absurd hl hlogs

/-- On a node that starts from an empty governance state and an empty roster the tags are
signed in every state of a run exactly when the edit of every entry it ratifies, and the
logs it adopts, fit the role map. -/
theorem role_tags_signed_iff (networkId : String) (signingKey : P.SigningKey) (label : String)
    (topology : TopologyMode) (ops : List (Env × EngineOp)) :
    (∀ pre post, ops = pre ++ post → TagsSigned (run engineStep
        (.start networkId signingKey label (.emptyFor networkId) topology) pre)) ↔
      AllSteps engineStep EngineKeepsTags
        (.start networkId signingKey label (.emptyFor networkId) topology : EngineState P)
        ops := by
  apply forall_run_iff_allSteps (J := Tagged)
  · exact fun s o h ↦ h.engineStep o
  · exact fun s o h hs ↦ tagsSigned_engineStep_iff h hs o
  · exact ⟨distinct_emptyFor networkId, replays_start networkId signingKey label _ topology⟩
  · intro _ e he
    cases he

/-- Device 1 proposes to close the network, and a peer receives it. -/
def receivedClose : Env × EngineOp :=
  (clearEnv 0 "", .receive (seededDevice 1)
    (.propose (signedMessage seeded "fleet" (1 : UInt8) "p" 1 (.kindChange .closed))))

private theorem ratifiedBy_receivedClose (seed : UInt8) :
    ratifiedBy (fleetStart seed) (ownerMessage "p" 1 (.kindChange .closed)) =
      some (seededEntry 1 1 (.kindChange .closed)) := by
  have hpeer : pubkeyPart (seededDevice 1) = publicId seeded (1 : UInt8) :=
    pubkeyPart_publicId seeded (1 : UInt8)
  have hfresh : ∀ p ∈ (fleetStart seed).governance.pending, p.id ≠ "p" := by
    intro p hp
    cases hp
  have hby := ratifiedBy_onPropose (clearEnv 0 "") hpeer hfresh 1 (.kindChange .closed)
  have hq : QuorumMet (fleetStart seed).governance
      (signedBy seeded (fleetStart seed).networkId (1 : UInt8) 1 (.kindChange .closed)) :=
    ⟨rfl, List.cons_ne_nil _ _⟩
  rw [if_pos hq] at hby
  exact hby

/-- A device that receives another device's close tags itself Owner, while the role map
makes the proposer the only owner. -/
theorem receiver_of_close_tagged_owner :
    (run engineStep (fleetStart 2) [receivedClose]).governance.kind = .closed ∧
      (∃ e ∈ (run engineStep (fleetStart 2) [receivedClose]).roster.authorizedDevices,
        e.deviceId = seededDevice 2 ∧ e.role = .owner) ∧
      (run engineStep (fleetStart 2) [receivedClose]).governance.roleOf (seededDevice 2) =
        .member := by
  have hby := ratifiedBy_receivedClose 2
  have hrun : run engineStep (fleetStart 2) [receivedClose] =
      step (fleetStart 2) (ownerMessage "p" 1 (.kindChange .closed)) := by
    rw [run_cons, run_nil]
    rfl
  rw [hrun]
  refine ⟨?_, ?_, ?_⟩
  · obtain ⟨-, -, pending, hg⟩ := governance_step_of_ratified hby
    have hkind := kind_routed (P := seeded) (fleetStart 2).networkId (fleetStart 2).governance
      (seededEntry 1 1 (.kindChange .closed))
    rw [kindAfter, variant_seededEntry] at hkind
    rw [hg]
    exact hkind
  · have hself : (fleetStart 2).selfId = seededDevice 2 := rfl
    have hrow := row_step_of_ratified hby (fun _ ↦ rfl) (seededDevice 2)
    rw [localRow, variant_seededEntry, hself] at hrow
    simp only [show pubkeyPart (seededDevice 2) = seededDevice 2 from
      pubkeyPart_publicId seeded _, ↓reduceIte] at hrow
    exact Roster.exists_of_row hrow
  · have hreplays : ∃ v, ReplaysTo seeded (fleetStart 2).networkId (fleetStart 2).governance v :=
      replays_start (P := seeded) "fleet" (2 : UInt8) "" (.emptyFor "fleet") .fullMesh
    rw [roleOf_step_of_ratified hreplays hby]
    simp [roleAfter, memberTier, roleEffect, fleetStart, EngineState.start,
      NetworkState.emptyFor]

end MyOwnMesh
