import MyOwnMesh.Lib.Replay
import MyOwnMesh.NetworkState.Quorum

/-!
# Applying transitions and replaying the governance log

`crates/myownmesh-core/src/network_state.rs:725–820`. `applyTransition` is the state
machine; `roleEffect` says once what an entry does to the role of a device, and every
later fact about roles is read off it. `verifyLog` is the guarded replay of a log from
the empty network: signatures, then quorum, then apply.
-/

namespace MyOwnMesh

open Lib Lib.Replay

/-- Apply a ratified transition; `network_state.rs:732–783`. -/
def applyTransition (state : NetworkState) (t : Transition) : NetworkState :=
  let after : NetworkState :=
    match t.variant with
    | .kindChange to_ =>
      let changed := { state with kind := to_ }
      if to_ = .closed then
        match t.signers.head? with
        | some founder => { changed with roles := changed.roles.insert founder .owner }
        | none => changed
      else changed
    | .roleGrant target role => { state with roles := state.roles.insert target role }
    | .roleRevoke target => { state with roles := state.roles.erase target }
    | .evict target => { state with roles := state.roles.erase target }
    | .split newNetworkId members =>
      { state with
        splits := state.splits ++ [{
          newNetworkId := newNetworkId
          spawnedAt := t.at_
          spawnedBy := t.signers.head?.getD ""
          members := members }] }
    | .topologyChange to_ => { state with topology := some to_ }
    | .unknown => state
  { after with transitions := after.transitions ++ [t] }

/-! ### What one entry changes -/

/-- What an entry does to the role of a device: `none` leaves it, `some r` sets it to `r`
(`some none` removes it). A close elects its first signer. -/
def roleEffect (t : Transition) (d : String) : Option (Option Role) :=
  match t.variant with
  | .kindChange .closed => if t.signers.head? = some d then some (some .owner) else none
  | .roleGrant target role => if target = d then some (some role) else none
  | .roleRevoke target => if target = d then some none else none
  | .evict target => if target = d then some none else none
  | _ => none

/-- The kind after an entry. -/
def kindAfter (k : NetworkKind) (t : Transition) : NetworkKind :=
  match t.variant with
  | .kindChange to_ => to_
  | _ => k

/-- The split record an entry adds, if any. -/
def splitEffect (t : Transition) : List SplitRecord :=
  match t.variant with
  | .split newNetworkId members => [⟨newNetworkId, t.at_, t.signers.head?.getD "", members⟩]
  | _ => []

/-- The topology after an entry. -/
def topologyAfter (m : Option TopologyMode) (t : Transition) : Option TopologyMode :=
  match t.variant with
  | .topologyChange to_ => some to_
  | _ => m

private theorem getElem?_insert_role (m : RoleMap) (k d : String) (r : Role) :
    (m.insert k r)[d]? = if k = d then some r else m[d]? := by
  simp only [Std.ExtTreeMap.getElem?_insert, Std.LawfulEqOrd.compare_eq_iff_eq]

private theorem getElem?_erase_role (m : RoleMap) (k d : String) :
    (m.erase k)[d]? = if k = d then none else m[d]? := by
  simp only [Std.ExtTreeMap.getElem?_erase, Std.LawfulEqOrd.compare_eq_iff_eq]

/-- The role of every device after an entry. -/
theorem roles_applyTransition (s : NetworkState) (t : Transition) (d : String) :
    (applyTransition s t).roles[d]? = (roleEffect t d).getD s.roles[d]? := by
  unfold applyTransition roleEffect
  cases hv : t.variant with
  | kindChange k =>
    cases k with
    | closed =>
      cases hs : t.signers.head? with
      | none => simp
      | some f =>
        simp only [↓reduceIte, getElem?_insert_role, Option.some.injEq]
        split <;> rfl
    | «open» => rfl
    | silent => rfl
  | roleGrant x r =>
    simp only [getElem?_insert_role]
    split <;> rfl
  | roleRevoke x =>
    simp only [getElem?_erase_role]
    split <;> rfl
  | evict x =>
    simp only [getElem?_erase_role]
    split <;> rfl
  | split n ms => rfl
  | topologyChange m => rfl
  | unknown => rfl

private theorem applyTransition_frame (s : NetworkState) (t : Transition) :
    (applyTransition s t).kind = kindAfter s.kind t ∧
      (applyTransition s t).splits = s.splits ++ splitEffect t ∧
      (applyTransition s t).topology = topologyAfter s.topology t ∧
      (applyTransition s t).transitions = s.transitions ++ [t] ∧
      (applyTransition s t).memberLog = s.memberLog ∧
      (applyTransition s t).pending = s.pending ∧
      (applyTransition s t).networkId = s.networkId := by
  unfold applyTransition kindAfter splitEffect topologyAfter
  cases hv : t.variant with
  | kindChange k =>
    cases k with
    | closed => cases hs : t.signers.head? <;> simp
    | «open» => simp
    | silent => simp
  | roleGrant x r => simp
  | roleRevoke x => simp
  | evict x => simp
  | split n ms => simp
  | topologyChange m => simp
  | unknown => simp

/-- Only a kind change moves the kind. -/
@[simp] theorem kind_applyTransition (s : NetworkState) (t : Transition) :
    (applyTransition s t).kind = kindAfter s.kind t := (applyTransition_frame s t).1

/-- Only a split entry adds a split record. -/
@[simp] theorem splits_applyTransition (s : NetworkState) (t : Transition) :
    (applyTransition s t).splits = s.splits ++ splitEffect t := (applyTransition_frame s t).2.1

/-- Only a topology entry moves the topology. -/
@[simp] theorem topology_applyTransition (s : NetworkState) (t : Transition) :
    (applyTransition s t).topology = topologyAfter s.topology t :=
  (applyTransition_frame s t).2.2.1

/-- Every applied entry is recorded last. -/
@[simp] theorem transitions_applyTransition (s : NetworkState) (t : Transition) :
    (applyTransition s t).transitions = s.transitions ++ [t] :=
  (applyTransition_frame s t).2.2.2.1

/-- The governance machine never touches the member log. -/
@[simp] theorem memberLog_applyTransition (s : NetworkState) (t : Transition) :
    (applyTransition s t).memberLog = s.memberLog := (applyTransition_frame s t).2.2.2.2.1

/-! ### The governance log -/

variable (P : Primitives)

/-- One step of the replay; the loop body of `network_state.rs:814–818`. -/
def verifyStep (networkId : String) (s : NetworkState) (t : Transition) :
    Except Error NetworkState :=
  match verifyTransitionSignatures P networkId t with
  | .error e => .error e
  | .ok () =>
    match verifyQuorum s t with
    | .error e => .error e
    | .ok () => .ok (applyTransition s t)

/-- Verify a whole governance log from genesis; `network_state.rs:812–820`. -/
def verifyLog (networkId : String) (transitions : List Transition) :
    Except Error NetworkState :=
  replay (verifyStep P networkId) (NetworkState.emptyFor networkId) transitions

/-- A step is accepted exactly when its signatures verify and its quorum is met, and it
then applies the entry. -/
theorem verifyStep_ok_iff {networkId : String} {s s' : NetworkState} {t : Transition} :
    verifyStep P networkId s t = .ok s' ↔
      verifyTransitionSignatures P networkId t = .ok () ∧ QuorumMet s t ∧
        s' = applyTransition s t := by
  rw [← verifyQuorum_ok_iff]
  unfold verifyStep
  cases verifyTransitionSignatures P networkId t with
  | error e => simp
  | ok u =>
    cases verifyQuorum s t with
    | error e => simp
    | ok u' => simp [eq_comm]

/-- Extending a verified log by one entry. -/
theorem verifyLog_snoc_iff {networkId : String} {log : List Transition} {t : Transition}
    {s u : NetworkState} (hs : verifyLog P networkId log = .ok s) :
    verifyLog P networkId (log ++ [t]) = .ok u ↔
      verifyTransitionSignatures P networkId t = .ok () ∧ QuorumMet s t ∧
        u = applyTransition s t := by
  rw [verifyLog, replay_snoc_ok_iff hs, verifyStep_ok_iff]

/-- A self-signed entry that meets the quorum extends a verified log. -/
theorem verifyLog_snoc_signedBy {networkId : String} {log : List Transition}
    {s : NetworkState} (hs : verifyLog P networkId log = .ok s) (key : P.SigningKey)
    (stamp : UInt64) (v : TransitionVariant)
    (hq : QuorumMet s (signedBy P networkId key stamp v)) :
    verifyLog P networkId (log ++ [signedBy P networkId key stamp v]) =
      .ok (applyTransition s (signedBy P networkId key stamp v)) :=
  (verifyLog_snoc_iff P hs).mpr ⟨verifyTransitionSignatures_signedBy P _ _ _ _, hq, rfl⟩

/-- A verified log is recorded whole in the state it produces. -/
theorem transitions_verifyLog {networkId : String} {log : List Transition} {s : NetworkState}
    (h : verifyLog P networkId log = .ok s) : s.transitions = log := by
  induction log using List.reverseRecOn generalizing s with
  | nil =>
    cases h
    rfl
  | append_singleton init t ih =>
    obtain ⟨m, hm⟩ := replay_append_left_ok h
    obtain ⟨_, _, rfl⟩ := (verifyLog_snoc_iff P hm).mp h
    rw [transitions_applyTransition, ih hm]

/-- Every entry of a verified log was accepted against some state. -/
theorem accepted_of_mem {networkId : String} {log : List Transition} {s : NetworkState}
    (h : verifyLog P networkId log = .ok s) {t : Transition} (ht : t ∈ log) :
    verifyTransitionSignatures P networkId t = .ok () ∧ ∃ m, QuorumMet m t := by
  obtain ⟨pre, post, rfl⟩ := List.append_of_mem ht
  obtain ⟨m, _, hm⟩ := replay_append_ok_iff.mp h
  obtain ⟨m', hstep, _⟩ := replay_cons_ok_iff.mp hm
  obtain ⟨hsig, hq, _⟩ := (verifyStep_ok_iff P).mp hstep
  exact ⟨hsig, m, hq⟩

/-- A verified log never turns a network silent. -/
theorem kind_ne_silent {networkId : String} {log : List Transition} {s : NetworkState}
    (h : verifyLog P networkId log = .ok s) : s.kind ≠ .silent := by
  refine replay_invariant (I := fun s ↦ s.kind ≠ .silent) ?_ (by simp [NetworkState.emptyFor]) h
  intro a t b _ ha hstep
  obtain ⟨_, hq, rfl⟩ := (verifyStep_ok_iff P).mp hstep
  rw [kind_applyTransition, kindAfter]
  split
  · next to_ hv =>
    rintro rfl
    simp [QuorumMet, hv] at hq
  · exact ha

/-! ### Concrete logs -/

/-- A device of the executable primitives. -/
def seededDevice (seed : UInt8) : String := publicId seeded seed

/-- An entry of the network `fleet` signed by one device of the executable primitives. -/
def seededEntry (seed : UInt8) (stamp : UInt64) (v : TransitionVariant) : Transition :=
  signedBy seeded "fleet" seed stamp v

/-- The single signer of a concrete entry. -/
@[simp] theorem signers_seededEntry (seed : UInt8) (stamp : UInt64) (v : TransitionVariant) :
    (seededEntry seed stamp v).signers = [seededDevice seed] := rfl

/-- The variant of a concrete entry. -/
@[simp] theorem variant_seededEntry (seed : UInt8) (stamp : UInt64) (v : TransitionVariant) :
    (seededEntry seed stamp v).variant = v := rfl

/-- Concrete devices are told apart by their seeds. -/
@[simp] theorem seededDevice_inj (a b : UInt8) : seededDevice a = seededDevice b ↔ a = b :=
  publicId_seeded_inj a b

/-- A verified concrete log extended by one entry that meets the quorum. -/
theorem verifyLog_snoc_seededEntry {log : List Transition} {s : NetworkState}
    (hs : verifyLog seeded "fleet" log = .ok s) (seed : UInt8) (stamp : UInt64)
    (v : TransitionVariant) (hq : QuorumMet s (seededEntry seed stamp v)) :
    verifyLog seeded "fleet" (log ++ [seededEntry seed stamp v]) =
      .ok (applyTransition s (seededEntry seed stamp v)) :=
  verifyLog_snoc_signedBy seeded hs seed stamp v hq

/-- Device 1 closes the network and makes device 2 a controller. -/
def fleetLog : List Transition :=
  [seededEntry 1 1 (.kindChange .closed),
    seededEntry 1 2 (.roleGrant (seededDevice 2) .controller)]

/-- The state `fleetLog` replays to. -/
def fleet : NetworkState := fleetLog.foldl applyTransition (.emptyFor "fleet")

/-- The concrete network is closed. -/
@[simp] theorem kind_fleet : fleet.kind = .closed := rfl

/-- Device 1 is the owner and device 2 the controller of the concrete network. -/
@[simp] theorem roles_fleet (d : String) :
    fleet.roles[d]? = if seededDevice 2 = d then some .controller
      else if seededDevice 1 = d then some .owner else none := by
  simp only [fleet, fleetLog, List.foldl_cons, List.foldl_nil, roles_applyTransition, roleEffect,
    variant_seededEntry, signers_seededEntry, List.head?_cons, Option.some.injEq,
    NetworkState.emptyFor, Std.ExtTreeMap.getElem?_empty]
  split
  · rfl
  · split <;> rfl

/-- Every role of the concrete network is held under a bare key. -/
theorem pubkeyPart_of_fleet {d : String} {r : Role} (h : fleet.roles[d]? = some r) :
    pubkeyPart d = d := by
  rw [roles_fleet] at h
  split at h
  · next hd =>
    rw [← hd]
    exact pubkeyPart_publicId seeded _
  · split at h
    · next hd =>
      rw [← hd]
      exact pubkeyPart_publicId seeded _
    · cases h

/-- The concrete log is accepted. -/
theorem verifyLog_fleetLog : verifyLog seeded "fleet" fleetLog = .ok fleet := by
  have h0 : verifyLog seeded "fleet" [] = .ok (.emptyFor "fleet") := rfl
  have h1 := verifyLog_snoc_seededEntry h0 1 1 (.kindChange .closed) (by
    simp [QuorumMet, NetworkState.emptyFor])
  exact verifyLog_snoc_seededEntry h1 1 2 (.roleGrant (seededDevice 2) .controller) (by
    simp [QuorumMet, AuthoritySigned, NetworkState.IsAuthority, roles_applyTransition, roleEffect])

end MyOwnMesh
