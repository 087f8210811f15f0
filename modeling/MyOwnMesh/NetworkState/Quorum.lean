import MyOwnMesh.NetworkState.Types

/-!
# The quorum table

`crates/myownmesh-core/src/network_state.rs:470–723`. `verifyQuorum` is the table as the
source writes it, with its refusal texts; `QuorumMet` states which entry each variant
needs, and the two agree on every state.
-/

namespace MyOwnMesh

/-! ### The table -/

/-- The ids whose role satisfies a test, in map order; `network_state.rs:511–522`. -/
def holders (roles : RoleMap) (p : Role → Bool) : List String :=
  (roles.toList.filter fun e ↦ p e.2).map Prod.fst

/-- The roles `Controller | Owner` of `network_state.rs:520`. -/
def Role.isAuthority : Role → Bool
  | .controller | .owner => true
  | .member => false

/-- One branch of the table: some signer must be in the set. -/
def requireSigner (signers set : List String) (message : String) : Except Error Unit :=
  if signers.any (set.contains ·) then .ok () else .error (.protocol message)

/-- The removal rule, shared by revoke and evict: authority at the target's current tier;
`network_state.rs:618–667`. -/
def requireOver (before : NetworkState) (signers : List String) (target : String)
    (ownerMessage otherMessage : String) : Except Error Unit :=
  match before.roleOf target with
  | .owner => requireSigner signers (holders before.roles (· == .owner)) ownerMessage
  | .controller | .member =>
    requireSigner signers (holders before.roles Role.isAuthority) otherMessage

/-- Check a transition's signer set against the quorum table; `network_state.rs:506–723`. -/
def verifyQuorum (before : NetworkState) (t : Transition) : Except Error Unit :=
  let signers := t.signers.dedup
  let owners := holders before.roles (· == .owner)
  let controllersAndOwners := holders before.roles Role.isAuthority
  match t.variant, before.kind with
  | .kindChange .closed, .open =>
    if signers = [] then .error (.protocol "founder self-election needs a signer") else .ok ()
  | .kindChange .open, .closed =>
    requireSigner signers owners "reopen (closed → open) needs ≥ 1 owner signature"
  | .kindChange _, _ => .error (.protocol "KindChange to the current kind is a no-op")
  | .roleGrant _ .owner, .closed =>
    requireSigner signers owners "grant owner needs ≥ 1 owner signature"
  | .roleGrant _ .controller, .closed =>
    requireSigner signers controllersAndOwners
      "grant controller needs ≥ 1 controller or owner signature"
  | .roleGrant _ .member, .closed =>
    requireSigner signers controllersAndOwners
      "grant member needs ≥ 1 controller or owner signature"
  | .roleGrant _ _, .open | .roleGrant _ _, .silent => .ok ()
  | .roleRevoke target, .closed =>
    requireOver before signers target "revoke owner needs ≥ 1 owner signature"
      "revoke controller/member needs ≥ 1 controller or owner signature"
  | .roleRevoke _, .open | .roleRevoke _, .silent => .ok ()
  | .evict target, .closed =>
    requireOver before signers target "evict owner needs ≥ 1 owner signature"
      "evict controller/member needs ≥ 1 controller or owner signature"
  | .evict _, .open | .evict _, .silent => .ok ()
  | .split _ _, _ =>
    if signers.length ≠ 1 then
      .error (.protocol "split must be signed by exactly one party (the would-be owner)")
    else .ok ()
  | .topologyChange to_, .closed =>
    if before.topology = some to_ then
      .error (.protocol "TopologyChange to the current topology is a no-op")
    else requireSigner signers owners "topology change needs ≥ 1 owner signature"
  | .topologyChange _, .open | .topologyChange _, .silent =>
    .error (.protocol ("topology is governed on closed networks only — open/silent " ++
      "networks set it per-device in local config"))
  | .unknown, _ =>
    .error (.protocol "transition kind from a newer build — update to verify it")

/-- The device holds Owner in this state. -/
def NetworkState.IsOwner (s : NetworkState) (d : String) : Prop := s.roles[d]? = some .owner

/-- The device holds Controller or Owner in this state. -/
def NetworkState.IsAuthority (s : NetworkState) (d : String) : Prop :=
  s.roles[d]? = some .controller ∨ s.roles[d]? = some .owner

/-- Ownership is a lookup. -/
instance (s : NetworkState) (d : String) : Decidable (s.IsOwner d) :=
  inferInstanceAs (Decidable (_ = _))

/-- Authority is a lookup. -/
instance (s : NetworkState) (d : String) : Decidable (s.IsAuthority d) :=
  inferInstanceAs (Decidable (_ ∨ _))

/-- Some signer holds Owner. -/
def OwnerSigned (s : NetworkState) (t : Transition) : Prop := ∃ d ∈ t.signers, s.IsOwner d

/-- Some signer holds Controller or Owner. -/
def AuthoritySigned (s : NetworkState) (t : Transition) : Prop :=
  ∃ d ∈ t.signers, s.IsAuthority d

/-- Owners are authorities. -/
theorem NetworkState.IsOwner.isAuthority {s : NetworkState} {d : String} (h : s.IsOwner d) :
    s.IsAuthority d := .inr h

/-- What the table asks of each variant; the doc comment of `verify_quorum`. -/
def QuorumMet (s : NetworkState) (t : Transition) : Prop :=
  match t.variant with
  | .kindChange .closed => s.kind = .open ∧ t.signers ≠ []
  | .kindChange .open => s.kind = .closed ∧ OwnerSigned s t
  | .kindChange .silent => False
  | .roleGrant _ .owner => s.kind = .closed → OwnerSigned s t
  | .roleGrant _ _ => s.kind = .closed → AuthoritySigned s t
  | .roleRevoke x | .evict x =>
    s.kind = .closed → AuthoritySigned s t ∧ (s.IsOwner x → OwnerSigned s t)
  | .split _ _ => t.signers.dedup.length = 1
  | .topologyChange m => s.kind = .closed ∧ s.topology ≠ some m ∧ OwnerSigned s t
  | .unknown => False

/-- The computed holder list is the set of ids whose role satisfies the test. -/
theorem mem_holders {roles : RoleMap} {p : Role → Bool} {d : String} :
    d ∈ holders roles p ↔ ∃ r, roles[d]? = some r ∧ p r = true := by
  simp only [holders, List.mem_map, List.mem_filter, Prod.exists, exists_and_right,
    exists_eq_right, Std.ExtTreeMap.mem_toList_iff_getElem?_eq_some]

/-- The holder list of the removal and grant rules is the set of authorities. -/
theorem mem_holders_isAuthority {s : NetworkState} {d : String} :
    d ∈ holders s.roles Role.isAuthority ↔ s.IsAuthority d := by
  have hr : ∀ r : Role, r.isAuthority = true ↔ r = .controller ∨ r = .owner := by
    intro r
    cases r <;> simp [Role.isAuthority]
  simp only [mem_holders, hr, NetworkState.IsAuthority, and_or_left, exists_or, exists_eq_right]

private theorem requireSigner_ok_iff {signers set : List String} {message : String} :
    requireSigner signers set message = .ok () ↔ ∃ d ∈ signers, d ∈ set := by
  unfold requireSigner
  split
  · next h => simpa using h
  · next h => simpa using h

private theorem requireOwner_ok_iff {s : NetworkState} {t : Transition} {message : String} :
    requireSigner t.signers.dedup (holders s.roles (· == .owner)) message = .ok () ↔
      OwnerSigned s t := by
  simp [requireSigner_ok_iff, mem_holders, OwnerSigned, NetworkState.IsOwner]

private theorem requireAuthority_ok_iff {s : NetworkState} {t : Transition} {message : String} :
    requireSigner t.signers.dedup (holders s.roles Role.isAuthority) message = .ok () ↔
      AuthoritySigned s t := by
  simp only [requireSigner_ok_iff, mem_holders_isAuthority, AuthoritySigned, List.mem_dedup]

/-- An owner's signature is an authority's. -/
theorem OwnerSigned.authoritySigned {s : NetworkState} {t : Transition} (h : OwnerSigned s t) :
    AuthoritySigned s t := by
  obtain ⟨d, hd, ho⟩ := h
  exact ⟨d, hd, ho.isAuthority⟩

private theorem roleOf_eq_owner_iff {s : NetworkState} {d : String} :
    s.roleOf d = .owner ↔ s.IsOwner d := by
  unfold NetworkState.roleOf NetworkState.IsOwner
  cases s.roles[d]? <;> simp

private theorem requireOver_ok_iff {s : NetworkState} {t : Transition} {x m m' : String} :
    requireOver s t.signers.dedup x m m' = .ok () ↔
      AuthoritySigned s t ∧ (s.IsOwner x → OwnerSigned s t) := by
  unfold requireOver
  by_cases ho : s.IsOwner x
  · rw [roleOf_eq_owner_iff.mpr ho]
    simp only [requireOwner_ok_iff, ho, forall_const]
    exact ⟨fun h ↦ ⟨h.authoritySigned, h⟩, And.right⟩
  · have hn : s.roleOf x ≠ .owner := fun h ↦ ho (roleOf_eq_owner_iff.mp h)
    cases hr : s.roleOf x with
    | owner => exact absurd hr hn
    | controller => simp [requireAuthority_ok_iff, ho]
    | member => simp [requireAuthority_ok_iff, ho]

/-- The table accepts exactly the signer sets `QuorumMet` describes. -/
theorem verifyQuorum_ok_iff (s : NetworkState) (t : Transition) :
    verifyQuorum s t = .ok () ↔ QuorumMet s t := by
  unfold verifyQuorum QuorumMet
  cases hv : t.variant with
  | kindChange k => cases k <;> cases hk : s.kind <;> simp [requireOwner_ok_iff]
  | roleGrant x r =>
    cases r <;> cases hk : s.kind <;> simp [requireOwner_ok_iff, requireAuthority_ok_iff]
  | roleRevoke x => cases hk : s.kind <;> simp [requireOver_ok_iff]
  | evict x => cases hk : s.kind <;> simp [requireOver_ok_iff]
  | split n ms => by_cases hl : t.signers.dedup.length = 1 <;> simp [hl]
  | topologyChange m =>
    cases hk : s.kind with
    | closed => by_cases ht : s.topology = some m <;> simp [ht, requireOwner_ok_iff]
    | «open» => simp
    | silent => simp
  | unknown => simp

/-- The table reads a signer list as a set. -/
theorem quorumMet_perm {s : NetworkState} {t u : Transition} (hv : t.variant = u.variant)
    (hp : t.signers.Perm u.signers) : QuorumMet s t ↔ QuorumMet s u := by
  have ho : OwnerSigned s t ↔ OwnerSigned s u := by simp only [OwnerSigned, hp.mem_iff]
  have ha : AuthoritySigned s t ↔ AuthoritySigned s u := by
    simp only [AuthoritySigned, hp.mem_iff]
  have hnil : t.signers ≠ [] ↔ u.signers ≠ [] := by
    rw [← List.length_pos_iff, ← List.length_pos_iff, hp.length_eq]
  unfold QuorumMet
  rw [hv, hp.dedup.length_eq]
  simp only [ho, ha, hnil]

/-- The quorum clause is decided by running the table. -/
instance (s : NetworkState) (t : Transition) : Decidable (QuorumMet s t) :=
  decidable_of_iff (verifyQuorum s t = .ok ()) (verifyQuorum_ok_iff s t)

end MyOwnMesh
