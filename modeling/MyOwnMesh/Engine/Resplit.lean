import MyOwnMesh.Engine.Migration

/-!
# Migrating twice

`crates/myownmesh-core/src/network_state.rs:986–1038`. A second split replays the roles over the
governance part only, where the Member grants and the removals of plain members are missing. It
still finds every remaining removal in the governance tier, so it moves nothing.
-/

namespace MyOwnMesh

open Lib

/-- The role of every device after an entry of the replay. -/
theorem getElem?_advanceRoles (roles : RoleMap) (t : Transition) (d : String) :
    (advanceRoles roles t)[d]? = (roleEffect t d).getD roles[d]? := by
  obtain ⟨s, rfl⟩ : ∃ s : NetworkState, s.roles = roles :=
    ⟨{ NetworkState.emptyFor "" with roles := roles }, rfl⟩
  rw [advanceRoles_eq, roles_applyTransition]

/-- Every owner and controller of one replay holds the same role in another. -/
def Covers (full part : RoleMap) : Prop :=
  ∀ (d : String) (r : Role), r ≠ .member → full[d]? = some r → part[d]? = some r

section Entry

variable {full part : RoleMap} {t : Transition}

/-- An entry of both replays. -/
theorem Covers.both (h : Covers full part) (t : Transition) :
    Covers (advanceRoles full t) (advanceRoles part t) := by
  intro d r hr hfull
  rw [getElem?_advanceRoles] at hfull ⊢
  cases he : roleEffect t d with
  | none =>
    rw [he, Option.getD_none] at hfull
    exact h d r hr hfull
  | some w =>
    rw [he, Option.getD_some] at hfull
    rw [Option.getD_some, hfull]

/-- A member-tier entry gives nobody authority, so the other replay can do without it. -/
theorem Covers.skip (h : Covers full part) {role : Role}
    (htier : isMemberTier t.variant role = true) : Covers (advanceRoles full t) part := by
  intro d r hr hfull
  rw [getElem?_advanceRoles] at hfull
  have heffect : roleEffect t d = none ∨ roleEffect t d = some (some .member) ∨
      roleEffect t d = some none := by
    unfold isMemberTier at htier
    unfold roleEffect
    split at htier
    · next x hv =>
      by_cases hx : x = d <;> simp [hv, hx]
    · next x hv =>
      by_cases hx : x = d <;> simp [hv, hx]
    · next x hv =>
      by_cases hx : x = d <;> simp [hv, hx]
    · exact absurd htier Bool.false_ne_true
  rcases heffect with he | he | he
  · rw [he, Option.getD_none] at hfull
    exact h d r hr hfull
  · rw [he, Option.getD_some, Option.some.injEq] at hfull
    exact absurd hfull.symm hr
  · rw [he, Option.getD_some] at hfull
    cases hfull

/-- An entry of the governance tier is found there by the other replay. -/
theorem Covers.isMemberTier_eq_false (h : Covers full part)
    (htier : isMemberTier t.variant (targetRole full t.variant) = false) :
    isMemberTier t.variant (targetRole part t.variant) = false := by
  have hremoval (x : String) (hx : ((full[x]?).getD .member == .member) = false) :
      ((part[x]?).getD .member == .member) = false := by
    cases hfull : full[x]? with
    | none => simp [hfull] at hx
    | some r =>
      rw [hfull, Option.getD_some] at hx
      rw [h x r (by simpa using hx) hfull, Option.getD_some, hx]
  cases hv : t.variant with
  | roleRevoke x =>
    rw [hv] at htier
    exact hremoval x htier
  | evict x =>
    rw [hv] at htier
    exact hremoval x htier
  | roleGrant x r =>
    rw [hv] at htier
    cases r with
    | member => exact htier
    | controller => exact htier
    | owner => exact htier
  | kindChange k => rfl
  | split n ms => rfl
  | topologyChange m => rfl
  | unknown => rfl

end Entry

/-- A split whose governance part is its own split. -/
def TierSplit.Stable (acc : TierSplit) : Prop :=
  ∃ roles, splitTiers acc.governance = ⟨roles, acc.governance, []⟩ ∧ Covers acc.roles roles

/-- One entry keeps it so, in whichever tier it lands. -/
theorem TierSplit.Stable.entry {acc : TierSplit} (h : acc.Stable) (t : Transition) :
    (splitTierEntry acc t).Stable := by
  obtain ⟨roles, hsplit, hcovers⟩ := h
  unfold splitTierEntry
  dsimp only
  split
  · next htier => exact ⟨roles, hsplit, hcovers.skip htier⟩
  · next htier =>
    have hsame := hcovers.isMemberTier_eq_false (Bool.eq_false_of_not_eq_true htier)
    refine ⟨advanceRoles roles t, ?_, hcovers.both t⟩
    simp only [splitTiers, List.foldl_append, List.foldl_cons, List.foldl_nil] at hsplit ⊢
    rw [hsplit, splitTierEntry, if_neg (Bool.not_eq_true _ ▸ hsame)]

theorem stable_splitTiers (log : List Transition) : (splitTiers log).Stable := by
  induction log using List.reverseRecOn with
  | nil => exact ⟨∅, rfl, fun d r _ h ↦ h⟩
  | append_singleton log t ih =>
    rw [splitTiers, List.foldl_append]
    exact ih.entry t

/-- Every entry lands in one of the two tiers. -/
theorem perm_splitTiers (log : List Transition) :
    ((splitTiers log).governance ++ (splitTiers log).members).Perm log := by
  induction log using List.reverseRecOn with
  | nil => exact List.Perm.refl []
  | append_singleton log t ih =>
    rw [splitTiers, List.foldl_append, List.foldl_cons, List.foldl_nil, ← splitTiers,
      splitTierEntry]
    split
    · rw [← List.append_assoc]
      exact ih.append_right [t]
    · rw [List.append_assoc]
      have hswap : ([t] ++ (splitTiers log).members).Perm ((splitTiers log).members ++ [t]) :=
        List.perm_append_comm
      refine (hswap.append_left (splitTiers log).governance).trans ?_
      rw [← List.append_assoc]
      exact ih.append_right [t]

/-- Whatever the two logs hold, splitting again changes nothing, and a split neither loses nor
duplicates an entry. -/
theorem splitMemberTier_idempotent (state : NetworkState) :
    splitMemberTier (splitMemberTier state) = splitMemberTier state ∧
      ((splitMemberTier state).transitions ++ (splitMemberTier state).memberLog).Perm
        (state.transitions ++ state.memberLog) := by
  constructor
  · obtain ⟨roles, hsplit, -⟩ := stable_splitTiers state.transitions
    have hagain : splitTiers (splitMemberTier state).transitions =
        ⟨roles, (splitMemberTier state).transitions, []⟩ := hsplit
    rw [splitMemberTier, hagain, List.nil_append]
  · have hperm := (perm_splitTiers state.transitions).append_right state.memberLog
    rw [List.append_assoc] at hperm
    exact hperm

end MyOwnMesh
