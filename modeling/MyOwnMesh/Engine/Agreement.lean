import MyOwnMesh.Engine.Adoption

/-!
# Two receivers of one proposal

Every node ratifies a proposal by itself, with the answers it has when its quorum is met
(`governance.rs:1541–1626`), and keeps the entry it made. The entries of two nodes that
receive the same answers in different orders are compared the way the fork guard of an
adoption compares them.
-/

namespace MyOwnMesh

open Lib Lib.Replay

variable {P : Primitives}

/-! ### Who settles a proposal alone -/

/-- The signature of this device alone meets the quorum of the variant. -/
def Decisive (gov : NetworkState) (v : TransitionVariant) (d : String) : Prop :=
  QuorumMet gov { at_ := 0, variant := v, signers := [d], signatures := [] }

/-- The table decides it. -/
instance (gov : NetworkState) (v : TransitionVariant) (d : String) :
    Decidable (Decisive gov v d) := inferInstanceAs (Decidable (QuorumMet _ _))

/-- One signer is always enough for a split. -/
theorem decisive_split (gov : NetworkState) (n : String) (ms : List String) (d : String) :
    Decisive gov (.split n ms) d := rfl

private theorem removalSigned_iff {gov : NetworkState} {t : Transition} {y : String} :
    AuthoritySigned gov t ∧ (gov.IsOwner y → OwnerSigned gov t) ↔
      ∃ d ∈ t.signers, gov.IsAuthority d ∧ (gov.IsOwner y → gov.IsOwner d) := by
  by_cases ho : gov.IsOwner y
  · simp only [ho, forall_const]
    constructor
    · rintro ⟨-, d, hd, h⟩
      exact ⟨d, hd, h.isAuthority, h⟩
    · rintro ⟨d, hd, ha, h⟩
      exact ⟨⟨d, hd, ha⟩, d, hd, h⟩
  · simp [ho, AuthoritySigned]

/-- Outside splits a signer list meets the quorum exactly when one of its signers does. -/
theorem quorumMet_iff_decisive {gov : NetworkState} {t : Transition} (hne : t.signers ≠ [])
    (hs : ∀ n ms, t.variant ≠ .split n ms) :
    QuorumMet gov t ↔ ∃ d ∈ t.signers, Decisive gov t.variant d := by
  have hex : ∃ d, d ∈ t.signers := List.exists_mem_of_ne_nil _ hne
  unfold Decisive QuorumMet
  cases hv : t.variant with
  | kindChange k =>
    cases k with
    | closed => simp [hne, hex]
    | «open» =>
      by_cases hk : gov.kind = .closed
      · simp [hk, OwnerSigned]
      · simp [hk]
    | silent => simp
  | roleGrant y r =>
    by_cases hk : gov.kind = .closed
    · cases r <;> simp [hk, OwnerSigned, AuthoritySigned]
    · cases r <;> simp [hk, hex]
  | roleRevoke y =>
    by_cases hk : gov.kind = .closed
    · simp [hk, removalSigned_iff]
    · simp [hk, hex]
  | evict y =>
    by_cases hk : gov.kind = .closed
    · simp [hk, removalSigned_iff]
    · simp [hk, hex]
  | split n ms => exact absurd hv (hs n ms)
  | topologyChange m =>
    by_cases hk : gov.kind = .closed ∧ gov.topology ≠ some m
    · simp [hk.1, hk.2, OwnerSigned]
    · constructor
      · rintro ⟨hclosed, htop, -⟩
        exact absurd ⟨hclosed, htop⟩ hk
      · rintro ⟨d, -, hclosed, htop, -⟩
        exact absurd ⟨hclosed, htop⟩ hk
  | unknown => simp

/-! ### Collecting answers -/

variable (P) in
/-- An answer that signs this proposal. -/
structure SignAck (networkId : String) (p : Proposal) (m : AckMessage) : Prop where
  proposal : m.proposalId = p.id
  decision : m.decision = .sign
  signature : verify P m.signer (transitionPayload networkId p.variant) m.signature = .ok true

/-- The entry a proposal becomes when it is tried at once and after every answer. -/
def collect (gov : NetworkState) (p : Proposal) : List AckMessage → Option Transition
  | [] => if QuorumMet gov (candidate p) then some (candidate p) else none
  | m :: rest =>
    if QuorumMet gov (candidate p) then some (candidate p)
    else collect gov (foldAck m p) rest

/-- The operation carries this answer from its signer. -/
def CarriesAck (o : Env × GovOp) (m : AckMessage) : Prop :=
  ∃ env peerId, o = (env, .onAck peerId m) ∧ pubkeyPart peerId = m.signer

/-- A run in which a node receives a proposal and then these answers to it. -/
def Receives (msg : ProposeMessage) (answers : List AckMessage) (ops : List (Env × GovOp)) :
    Prop :=
  ∃ env peerId rest, ops = (env, .onPropose peerId msg) :: rest ∧
    pubkeyPart peerId = msg.proposer ∧ List.Forall₂ CarriesAck rest answers

private theorem foldAck_frame (m : AckMessage) (p : Proposal) :
    (foldAck m p).id = p.id ∧ (foldAck m p).variant = p.variant := by
  unfold foldAck
  cases m.decision with
  | sign =>
    simp only
    split <;> exact ⟨rfl, rfl⟩
  | deny =>
    simp only
    split <;> exact ⟨rfl, rfl⟩

private theorem mem_signers_foldAck {m : AckMessage} (hm : m.decision = .sign) (p : Proposal)
    (d : String) : d ∈ (foldAck m p).signers ↔ d ∈ p.signers ∨ m.signer = d := by
  simp only [foldAck, hm]
  split
  · next h =>
    constructor
    · exact .inl
    · rintro (hd | rfl)
      · exact hd
      · exact h
  · simp [eq_comm]

private theorem nodup_signers_foldAck {m : AckMessage} (hm : m.decision = .sign) {p : Proposal}
    (h : p.signers.Nodup) : (foldAck m p).signers.Nodup := by
  simp only [foldAck, hm]
  split
  · exact h
  · next hn =>
    have hne : ∀ x ∈ p.signers, x ≠ m.signer := fun x hx he ↦ hn (he ▸ hx)
    exact List.nodup_append.mpr ⟨h, by simp, by simpa using hne⟩

/-- A valid answer keeps every signature of the proposal valid. -/
theorem Proposal.Sound.foldAck {networkId : String} {p : Proposal} (h : p.Sound P networkId)
    {m : AckMessage} (hm : SignAck P networkId p m) :
    (MyOwnMesh.foldAck m p).Sound P networkId := by
  simp only [MyOwnMesh.foldAck, hm.decision]
  split
  · exact h
  · constructor
    · simp [h.paired]
    · simp
    · intro e he
      simp only at he ⊢
      rw [List.zip_append h.paired] at he
      rcases List.mem_append.mp he with he | he
      · exact h.verified e he
      · cases List.mem_singleton.mp he
        exact hm.signature
    · exact h.undenied

private theorem SignAck.foldAck {networkId : String} {p : Proposal} {m m' : AckMessage}
    (h : SignAck P networkId p m') : SignAck P networkId (MyOwnMesh.foldAck m p) m' := by
  obtain ⟨hid, hv⟩ := foldAck_frame m p
  constructor
  · rw [hid]
    exact h.proposal
  · exact h.decision
  · rw [hv]
    exact h.signature

/-- Once the proposal is settled its id is unknown and the remaining answers are dropped. -/
private theorem run_acks_unknown {s : EngineState P} {ops : List (Env × GovOp)}
    {acks : List AckMessage} (hops : List.Forall₂ CarriesAck ops acks)
    (hnone : ∀ m ∈ acks, ∀ q ∈ s.governance.pending, q.id ≠ m.proposalId) :
    run step s ops = s := by
  induction hops with
  | nil => rfl
  | @cons o m ops acks ho _ ih =>
    obtain ⟨env, peerId, rfl, -⟩ := ho
    have hstep : step s (env, .onAck peerId m) = s :=
      onAck_unknown env peerId (hnone m (by simp))
    rw [run_cons, hstep]
    exact ih fun x hx ↦ hnone x (by simp [hx])

/-- The governance log after an entry was folded in. -/
def appended (gov : NetworkState) (t : Transition) : List Transition :=
  if memberTier gov t.variant then gov.transitions else gov.transitions ++ [t]

private theorem transitions_routed (networkId : String) (gov : NetworkState) (t : Transition) :
    (routed P networkId gov t).transitions = appended gov t := by
  unfold appended
  cases htier : memberTier gov t.variant with
  | true =>
    rw [routed_member P htier]
    rfl
  | false =>
    by_cases he : ∃ x, t.variant = .evict x
    · obtain ⟨x, hx⟩ := he
      rw [routed_evict P htier hx]
      exact transitions_applyTransition gov t
    · rw [routed_governance P htier fun x hx ↦ he ⟨x, hx⟩]
      exact transitions_applyTransition gov t

private theorem transitions_run_committed (env : Env) {s : EngineState P} {p : Proposal}
    {ops : List (Env × GovOp)} {acks : List AckMessage}
    (hfresh : ∀ q ∈ s.governance.pending, q.id ≠ p.id) (hp : p.Sound P s.networkId)
    (hacks : ∀ m ∈ acks, SignAck P s.networkId p m) (hops : List.Forall₂ CarriesAck ops acks)
    (hq : QuorumMet s.governance (candidate p)) :
    (run step (tryRatify env (s.floating p) p.id).1 ops).governance.transitions =
      appended s.governance (candidate p) := by
  have hr := (ratifies_floating hfresh hp).trans (if_pos hq)
  have hc := governance_commit_floating env hfresh (candidate p)
  rw [tryRatify_of_ratifies env (s := s.floating p) hr, run_acks_unknown hops]
  · rw [hc]
    exact transitions_routed s.networkId s.governance (candidate p)
  · intro m hm q hq
    rw [hc] at hq
    rw [(hacks m hm).proposal]
    exact hfresh q hq

/-- What a node's governance log becomes in a run of valid answers. -/
theorem transitions_run_acks (env : Env) {s : EngineState P} {p : Proposal}
    {ops : List (Env × GovOp)} {acks : List AckMessage}
    (hfresh : ∀ q ∈ s.governance.pending, q.id ≠ p.id) (hp : p.Sound P s.networkId)
    (hacks : ∀ m ∈ acks, SignAck P s.networkId p m) (hops : List.Forall₂ CarriesAck ops acks) :
    (run step (tryRatify env (s.floating p) p.id).1 ops).governance.transitions =
      (collect s.governance p acks).elim s.governance.transitions (appended s.governance) := by
  induction hops generalizing p env with
  | nil =>
    rw [collect]
    split
    · next hq => exact transitions_run_committed env hfresh hp hacks .nil hq
    · next hq =>
      rw [run_nil, tryRatify_floating_of_not env hfresh hp hq]
      rfl
  | @cons o m ops acks ho hrest ih =>
    rw [collect]
    split
    · next hq => exact transitions_run_committed env hfresh hp hacks (.cons ho hrest) hq
    · next hq =>
      obtain ⟨env', peerId, rfl, hpeer⟩ := ho
      have hm := hacks m (by simp)
      have hsig : verify P m.signer (ackPayload s.networkId p.variant m) m.signature =
          .ok true := by
        rw [ackPayload, hm.decision]
        exact hm.signature
      have hid := (foldAck_frame m p).1
      have hstep : step (s.floating p) (env', .onAck peerId m) =
          (tryRatify env' (s.floating (foldAck m p)) (foldAck m p).id).1 := by
        rw [hid]
        exact onAck_floating env' hfresh hpeer hm.proposal hsig
      rw [tryRatify_floating_of_not env hfresh hp hq, run_cons, hstep]
      exact ih env' (fun q hq ↦ hid ▸ hfresh q hq) (hp.foldAck hm)
        fun x hx ↦ (hacks x (by simp [hx])).foldAck

/-! ### The signers of a collected entry -/

/-- A proposal after some answers. -/
def foldAcks (p : Proposal) (acks : List AckMessage) : Proposal :=
  acks.foldl (fun q m ↦ foldAck m q) p

private theorem foldAcks_spec {networkId : String} {p : Proposal} {acks : List AckMessage}
    (hp : p.Sound P networkId) (hnodup : p.signers.Nodup)
    (hacks : ∀ m ∈ acks, SignAck P networkId p m) :
    (foldAcks p acks).Sound P networkId ∧ (foldAcks p acks).variant = p.variant ∧
      (foldAcks p acks).signers.Nodup ∧
      ∀ d, d ∈ (foldAcks p acks).signers ↔ d ∈ p.signers ∨ ∃ m ∈ acks, m.signer = d := by
  induction acks generalizing p with
  | nil => exact ⟨hp, rfl, hnodup, fun d ↦ by simp [foldAcks]⟩
  | cons m rest ih =>
    have hm := hacks m (by simp)
    obtain ⟨hs, hv, hn, hmem⟩ := ih (hp.foldAck hm) (nodup_signers_foldAck hm.decision hnodup)
      fun x hx ↦ (hacks x (by simp [hx])).foldAck
    refine ⟨hs, hv.trans (foldAck_frame m p).2, hn, fun d ↦ ?_⟩
    rw [foldAcks, List.foldl_cons]
    rw [foldAcks] at hmem
    rw [hmem, mem_signers_foldAck hm.decision]
    simp only [List.mem_cons, exists_eq_or_imp, or_assoc]

/-- A collected entry is the proposal after the first answers that give it its quorum. -/
theorem collect_eq_some {gov : NetworkState} {p : Proposal} {acks : List AckMessage}
    {t : Transition} (h : collect gov p acks = some t) :
    QuorumMet gov t ∧ ∃ pre post, acks = pre ++ post ∧ t = candidate (foldAcks p pre) := by
  induction acks generalizing p with
  | nil =>
    rw [collect] at h
    split at h
    · next hq =>
      cases h
      exact ⟨hq, [], [], rfl, rfl⟩
    · cases h
  | cons m rest ih =>
    rw [collect] at h
    split at h
    · next hq =>
      cases h
      exact ⟨hq, [], m :: rest, rfl, rfl⟩
    · obtain ⟨hq, pre, post, rfl, rfl⟩ := ih h
      exact ⟨hq, m :: pre, post, rfl, rfl⟩

/-- The signers of a collected entry: everybody who had signed, and some who answered. -/
theorem signers_collect {networkId : String} {gov : NetworkState} {p : Proposal}
    {acks : List AckMessage} {t : Transition} (hp : p.Sound P networkId)
    (hnodup : p.signers.Nodup) (hacks : ∀ m ∈ acks, SignAck P networkId p m)
    (h : collect gov p acks = some t) :
    t.variant = p.variant ∧ t.signers.Nodup ∧ (∀ d ∈ p.signers, d ∈ t.signers) ∧
      ∀ d ∈ t.signers, d ∈ p.signers ∨ ∃ m ∈ acks, m.signer = d := by
  obtain ⟨-, pre, post, rfl, rfl⟩ := collect_eq_some h
  have hpre : ∀ m ∈ pre, SignAck P networkId p m := fun m hm ↦ hacks m (by simp [hm])
  obtain ⟨hs, hv, hn, hmem⟩ := foldAcks_spec hp hnodup hpre
  have hperm := perm_signers_candidate hs.paired
  refine ⟨hv, hperm.nodup_iff.mpr hn, fun d hd ↦ ?_, fun d hd ↦ ?_⟩
  · exact hperm.mem_iff.mpr ((hmem d).mpr (.inl hd))
  · rcases (hmem d).mp (hperm.mem_iff.mp hd) with hd | ⟨m, hm, rfl⟩
    · exact .inl hd
    · exact .inr ⟨m, by simp [hm], rfl⟩

private theorem quorumMet_candidate_iff {networkId : String} {gov : NetworkState} {p : Proposal}
    (hp : p.Sound P networkId) (hs : ∀ n ms, p.variant ≠ .split n ms) :
    QuorumMet gov (candidate p) ↔ ∃ d ∈ p.signers, Decisive gov p.variant d := by
  have hperm := perm_signers_candidate hp.paired
  have hne : (candidate p).signers ≠ [] := by
    rw [← List.length_pos_iff, hperm.length_eq]
    exact List.length_pos_iff.mpr hp.signed
  rw [quorumMet_iff_decisive hne hs]
  simp only [hperm.mem_iff]
  rfl

/-- A proposal is never ratified exactly when nobody who signs it is decisive. -/
theorem collect_eq_none_iff {networkId : String} {gov : NetworkState} {p : Proposal}
    {acks : List AckMessage} (hp : p.Sound P networkId) (hs : ∀ n ms, p.variant ≠ .split n ms)
    (hacks : ∀ m ∈ acks, SignAck P networkId p m) :
    collect gov p acks = none ↔
      (∀ d ∈ p.signers, ¬ Decisive gov p.variant d) ∧
        ∀ m ∈ acks, ¬ Decisive gov p.variant m.signer := by
  have hq : QuorumMet gov (candidate p) ↔ ∃ d ∈ p.signers, Decisive gov p.variant d :=
    quorumMet_candidate_iff hp hs
  induction acks generalizing p with
  | nil => simp [collect, hq]
  | cons m rest ih =>
    have hm := hacks m (by simp)
    have hv := (foldAck_frame m p).2
    have hs' : ∀ n ms, (foldAck m p).variant ≠ .split n ms := by rwa [hv]
    have hrest := ih (hp.foldAck hm) hs' (fun x hx ↦ (hacks x (by simp [hx])).foldAck)
      (quorumMet_candidate_iff (hp.foldAck hm) hs')
    rw [collect]
    split
    · next h =>
      obtain ⟨d, hd, hdec⟩ := hq.mp h
      constructor
      · exact fun h ↦ by cases h
      · exact fun h ↦ absurd hdec (h.1 d hd)
    · next h =>
      have hno : ∀ d ∈ p.signers, ¬ Decisive gov p.variant d := fun d hd hdec ↦
        h (hq.mpr ⟨d, hd, hdec⟩)
      rw [hv] at hrest
      refine hrest.trans ?_
      simp only [mem_signers_foldAck hm.decision, List.forall_mem_cons]
      constructor
      · rintro ⟨h1, h2⟩
        exact ⟨hno, h1 _ (.inr rfl), h2⟩
      · rintro ⟨-, h1, h2⟩
        refine ⟨?_, h2⟩
        rintro d (hd | rfl)
        · exact hno d hd
        · exact h1

/-! ### Two orders -/

/-- The governance log after a proposal met its answers in this order. -/
def settledLog (gov : NetworkState) (p : Proposal) (answers : List AckMessage) :
    List Transition :=
  (collect gov p answers).elim gov.transitions (appended gov)

/-- The order of the answers cannot matter: the entry rides the member log, or the proposer
is decisive, or nobody who answers is, or the answers add at most one device. -/
def OrderFree (gov : NetworkState) (msg : ProposeMessage) (acks : List AckMessage) : Prop :=
  memberTier gov msg.variant = true ∨ Decisive gov msg.variant msg.proposer ∨
    (∀ m ∈ acks, ¬ Decisive gov msg.variant m.signer) ∨
    ∀ m ∈ acks, ∀ m' ∈ acks, m.signer ≠ msg.proposer → m'.signer ≠ msg.proposer →
      m.signer = m'.signer

private theorem sameSignerSet_of_nodup {a b : Transition} (ha : a.signers.Nodup)
    (hb : b.signers.Nodup) (h : ∀ d, d ∈ a.signers ↔ d ∈ b.signers) :
    sameSignerSet a b = true := by
  have hlen := ((List.perm_ext_iff_of_nodup ha hb).mpr h).length_eq
  simp only [sameSignerSet, Bool.and_eq_true, beq_iff_eq, List.all_eq_true, List.contains_iff_mem]
  exact ⟨hlen, fun d hd ↦ (h d).mp hd, fun d hd ↦ (h d).mpr hd⟩

private theorem guarded_refl (log : List Transition) : List.Forall₂ GuardedPair log log := by
  rw [List.forall₂_same]
  exact fun t _ ↦ ⟨rfl, by simp [sameSignerSet]⟩

/-- Two entries of one variant leave logs that pass the fork guard exactly when they ride
the member log or have the same signers. -/
theorem guarded_appended_iff {gov : NetworkState} {t u : Transition}
    (hv : t.variant = u.variant) :
    List.Forall₂ GuardedPair (appended gov t) (appended gov u) ↔
      memberTier gov u.variant = true ∨ sameSignerSet t u = true := by
  unfold appended
  rw [hv]
  cases memberTier gov u.variant with
  | true => simpa using guarded_refl gov.transitions
  | false =>
    simp only [Bool.false_eq_true, ↓reduceIte, false_or]
    constructor
    · intro h
      obtain ⟨-, hzip⟩ := List.forall₂_iff_zip.mp h
      have hlast : GuardedPair t u := hzip (by simp [List.zip_append])
      exact hlast.2
    · intro h
      exact List.rel_append (guarded_refl gov.transitions) (.cons ⟨hv, h⟩ .nil)

private theorem sound_proposal {networkId : String} {msg : ProposeMessage}
    (h : verify P msg.proposer (transitionPayload networkId msg.variant) msg.signature =
      .ok true) : msg.proposal.Sound P networkId := by
  constructor
  · rfl
  · exact List.cons_ne_nil _ _
  · intro e he
    cases List.mem_singleton.mp he
    exact h
  · rfl

private theorem not_split_of_not_decisive {gov : NetworkState} {v : TransitionVariant}
    {d : String} (h : ¬ Decisive gov v d) : ∀ n ms, v ≠ .split n ms := by
  rintro n ms rfl
  exact h (decisive_split gov n ms d)

private theorem collect_of_quorumMet {gov : NetworkState} {p : Proposal}
    (hq : QuorumMet gov (candidate p)) (answers : List AckMessage) :
    collect gov p answers = some (candidate p) := by
  cases answers with
  | nil => rw [collect, if_pos hq]
  | cons m rest => rw [collect, if_pos hq]

section Orders

variable {networkId : String} {gov : NetworkState} {msg : ProposeMessage}
  {acks : List AckMessage}

/-- With one other device, the entry that has its quorum is signed by it and the proposer. -/
private theorem signers_of_one_other {answers : List AckMessage} {t : Transition}
    (hsig : verify P msg.proposer (transitionPayload networkId msg.variant) msg.signature =
      .ok true)
    (hacks : ∀ m ∈ answers, SignAck P networkId msg.proposal m)
    (hprop : ¬ Decisive gov msg.variant msg.proposer)
    (hone : ∀ m ∈ answers, ∀ m' ∈ answers, m.signer ≠ msg.proposer → m'.signer ≠ msg.proposer →
      m.signer = m'.signer)
    (h : collect gov msg.proposal answers = some t) (d : String) :
    d ∈ t.signers ↔ d = msg.proposer ∨ ∃ m ∈ answers, m.signer = d := by
  have hsound := sound_proposal hsig
  obtain ⟨hv, -, hsub, hsup⟩ := signers_collect hsound (List.nodup_singleton _) hacks h
  have hprop' : msg.proposer ∈ t.signers := hsub _ (List.mem_singleton.mpr rfl)
  -- Some signer is decisive, so it is not the proposer and has answered.
  have hdec := (quorumMet_iff_decisive (List.ne_nil_of_mem hprop')
    (by rw [hv]; exact not_split_of_not_decisive hprop)).mp (collect_eq_some h).1
  obtain ⟨x, hx, hxd⟩ := hdec
  rw [hv] at hxd
  have hxne : x ≠ msg.proposer := fun he ↦ hprop (he ▸ hxd)
  constructor
  · intro hd
    rcases hsup d hd with hd | hd
    · exact .inl (List.mem_singleton.mp hd)
    · exact .inr hd
  · rintro (rfl | ⟨m, hm, rfl⟩)
    · exact hprop'
    · by_cases hne : m.signer = msg.proposer
      · rw [hne]
        exact hprop'
      · rcases hsup x hx with hx' | ⟨m', hm', rfl⟩
        · exact absurd (List.mem_singleton.mp hx') hxne
        · rw [hone m hm m' hm' hne hxne]
          exact hx

/-- Whether the answers settle the proposal does not depend on their order. -/
private theorem collect_eq_none_of_perm_iff {answers : List AckMessage}
    (hsig : verify P msg.proposer (transitionPayload networkId msg.variant) msg.signature =
      .ok true)
    (hacks : ∀ m ∈ acks, SignAck P networkId msg.proposal m)
    (hprop : ¬ Decisive gov msg.variant msg.proposer) (hperm : answers.Perm acks) :
    collect gov msg.proposal answers = none ↔
      ∀ m ∈ acks, ¬ Decisive gov msg.variant m.signer := by
  refine (collect_eq_none_iff (sound_proposal hsig) (not_split_of_not_decisive hprop)
    fun m hm ↦ hacks m (hperm.mem_iff.mp hm)).trans ?_
  simp only [hperm.mem_iff]
  exact ⟨And.right, fun h ↦ ⟨fun d hd ↦ by rwa [List.mem_singleton.mp hd], h⟩⟩

/-- When the order cannot matter, any two orders leave logs that pass the fork guard. -/
theorem guarded_settledLog {first second : List AckMessage}
    (hsig : verify P msg.proposer (transitionPayload networkId msg.variant) msg.signature =
      .ok true)
    (hacks : ∀ m ∈ acks, SignAck P networkId msg.proposal m) (hfirst : first.Perm acks)
    (hsecond : second.Perm acks) (h : OrderFree gov msg acks) :
    List.Forall₂ GuardedPair (settledLog gov msg.proposal first)
      (settledLog gov msg.proposal second) := by
  have hsound := sound_proposal hsig
  have hf : ∀ m ∈ first, SignAck P networkId msg.proposal m := fun m hm ↦
    hacks m (hfirst.mem_iff.mp hm)
  have hs : ∀ m ∈ second, SignAck P networkId msg.proposal m := fun m hm ↦
    hacks m (hsecond.mem_iff.mp hm)
  by_cases hprop : Decisive gov msg.variant msg.proposer
  · have hq : QuorumMet gov (candidate msg.proposal) :=
      (quorumMet_perm rfl (perm_signers_candidate hsound.paired)).mpr hprop
    rw [settledLog, settledLog, collect_of_quorumMet hq, collect_of_quorumMet hq]
    exact guarded_refl _
  · have hnone := collect_eq_none_of_perm_iff hsig hacks hprop hfirst
    have hnone' := collect_eq_none_of_perm_iff hsig hacks hprop hsecond
    unfold settledLog
    cases hc : collect gov msg.proposal first with
    | none =>
      rw [hnone'.mpr (hnone.mp hc)]
      exact guarded_refl _
    | some t =>
      cases hc' : collect gov msg.proposal second with
      | none =>
        rw [hnone.mpr (hnone'.mp hc')] at hc
        cases hc
      | some u =>
        obtain ⟨hvt, hnt, -⟩ := signers_collect hsound (List.nodup_singleton _) hf hc
        obtain ⟨hvu, hnu, -⟩ := signers_collect hsound (List.nodup_singleton _) hs hc'
        refine (guarded_appended_iff (hvt.trans hvu.symm)).mpr ?_
        rcases h with htier | hdec | hno | hone
        · rw [hvu]
          exact .inl htier
        · exact absurd hdec hprop
        · rw [hnone.mpr hno] at hc
          cases hc
        · refine .inr (sameSignerSet_of_nodup hnt hnu fun d ↦ ?_)
          rw [signers_of_one_other hsig hf hprop (by simpa only [hfirst.mem_iff] using hone) hc,
            signers_of_one_other hsig hs hprop (by simpa only [hsecond.mem_iff] using hone) hc']
          simp only [hfirst.mem_iff, hsecond.mem_iff]

private theorem not_quorumMet_proposal
    (hsig : verify P msg.proposer (transitionPayload networkId msg.variant) msg.signature =
      .ok true)
    (hprop : ¬ Decisive gov msg.variant msg.proposer) :
    ¬ QuorumMet gov (candidate msg.proposal) := by
  rw [quorumMet_candidate_iff (sound_proposal hsig) (not_split_of_not_decisive hprop)]
  rintro ⟨d, hd, h⟩
  exact hprop (List.mem_singleton.mp hd ▸ h)

/-- A decisive answer settles the proposal at once. -/
private theorem collect_of_decisive_first {mx : AckMessage} (xs : List AckMessage)
    (hsig : verify P msg.proposer (transitionPayload networkId msg.variant) msg.signature =
      .ok true)
    (hx : SignAck P networkId msg.proposal mx)
    (hprop : ¬ Decisive gov msg.variant msg.proposer)
    (hdec : Decisive gov msg.variant mx.signer) :
    collect gov msg.proposal (mx :: xs) = some (candidate (foldAck mx msg.proposal)) := by
  have hsplit := not_split_of_not_decisive hprop
  rw [collect, if_neg (not_quorumMet_proposal hsig hprop)]
  refine collect_of_quorumMet ?_ _
  rw [quorumMet_candidate_iff ((sound_proposal hsig).foldAck hx)
    (by rwa [(foldAck_frame _ _).2])]
  refine ⟨mx.signer, (mem_signers_foldAck hx.decision _ _).mpr (.inr rfl), ?_⟩
  rw [(foldAck_frame _ _).2]
  exact hdec

/-- Whoever settles it, the first answer is in the entry. -/
private theorem mem_signers_of_first {my : AckMessage} {ys : List AckMessage} {u : Transition}
    (hsig : verify P msg.proposer (transitionPayload networkId msg.variant) msg.signature =
      .ok true)
    (hys : ∀ m ∈ my :: ys, SignAck P networkId msg.proposal m)
    (hprop : ¬ Decisive gov msg.variant msg.proposer)
    (hc : collect gov msg.proposal (my :: ys) = some u) : my.signer ∈ u.signers := by
  have hyack := hys my (by simp)
  rw [collect, if_neg (not_quorumMet_proposal hsig hprop)] at hc
  obtain ⟨-, -, hsub, -⟩ := signers_collect ((sound_proposal hsig).foldAck hyack)
    (nodup_signers_foldAck hyack.decision (List.nodup_singleton _))
    (fun m hm ↦ (hys m (List.mem_cons_of_mem _ hm)).foldAck) hc
  exact hsub _ ((mem_signers_foldAck hyack.decision _ _).mpr (.inr rfl))

/-- A decisive answer first, or another device's answer first: two different entries. -/
private theorem not_guarded_of_orders {mx my : AckMessage} {xs ys : List AckMessage}
    (hsig : verify P msg.proposer (transitionPayload networkId msg.variant) msg.signature =
      .ok true)
    (hx : SignAck P networkId msg.proposal mx)
    (hys : ∀ m ∈ my :: ys, SignAck P networkId msg.proposal m) (hmx : mx ∈ my :: ys)
    (htier : memberTier gov msg.variant = false)
    (hprop : ¬ Decisive gov msg.variant msg.proposer)
    (hdec : Decisive gov msg.variant mx.signer) (hy : my.signer ≠ msg.proposer)
    (hxy : my.signer ≠ mx.signer) :
    ¬ List.Forall₂ GuardedPair (settledLog gov msg.proposal (mx :: xs))
      (settledLog gov msg.proposal (my :: ys)) := by
  have hsound := sound_proposal hsig
  have hsplit := not_split_of_not_decisive hprop
  have hc := collect_of_decisive_first xs hsig hx hprop hdec
  cases hc' : collect gov msg.proposal (my :: ys) with
  | none => exact absurd hdec (((collect_eq_none_iff hsound hsplit hys).mp hc').2 mx hmx)
  | some u =>
    have hmem := mem_signers_of_first hsig hys hprop hc'
    have hvu := (signers_collect hsound (List.nodup_singleton _) hys hc').1
    have hv : (candidate (foldAck mx msg.proposal)).variant = u.variant :=
      (foldAck_frame mx msg.proposal).2.trans hvu.symm
    intro hguard
    rw [settledLog, settledLog, hc, hc'] at hguard
    rcases (guarded_appended_iff hv).mp hguard with ht | hset
    · rw [hvu] at ht
      cases htier.symm.trans ht
    · have hperm := perm_signers_candidate (hsound.foldAck hx).paired
      have hin := hperm.mem_iff.mp ((mem_of_sameSignerSet hset my.signer).mpr hmem)
      rcases (mem_signers_foldAck hx.decision _ _).mp hin with h | h
      · exact hy (List.mem_singleton.mp h)
      · exact hxy h.symm

/-- When any two orders leave logs that pass the fork guard, the order cannot matter. -/
theorem orderFree_of_guarded
    (hsig : verify P msg.proposer (transitionPayload networkId msg.variant) msg.signature =
      .ok true)
    (hacks : ∀ m ∈ acks, SignAck P networkId msg.proposal m)
    (h : ∀ first second : List AckMessage, first.Perm acks → second.Perm acks →
      List.Forall₂ GuardedPair (settledLog gov msg.proposal first)
        (settledLog gov msg.proposal second)) :
    OrderFree gov msg acks := by
  by_contra hcon
  simp only [OrderFree, not_or, Bool.not_eq_true, not_forall, not_not, exists_prop] at hcon
  obtain ⟨htier, hprop, ⟨mx, hmx, hdec⟩, m, hm, m', hm', hne, hne', hdiff⟩ := hcon
  -- One of the two devices is not the decisive one.
  have hother : ∃ my ∈ acks, my.signer ≠ msg.proposer ∧ my.signer ≠ mx.signer := by
    by_cases he : m.signer = mx.signer
    · exact ⟨m', hm', hne', fun he' ↦ hdiff (he.trans he'.symm)⟩
    · exact ⟨m, hm, hne, he⟩
  obtain ⟨my, hmy, hy, hxy⟩ := hother
  have hfront : ∀ m ∈ acks, ∃ rest, (m :: rest).Perm acks := by
    intro m hm
    obtain ⟨before, after, rfl⟩ := List.append_of_mem hm
    exact ⟨before ++ after, List.perm_middle.symm⟩
  obtain ⟨xs, hxs⟩ := hfront mx hmx
  obtain ⟨ys, hys⟩ := hfront my hmy
  exact not_guarded_of_orders hsig (hacks mx hmx) (fun m hm ↦ hacks m (hys.mem_iff.mp hm))
    (hys.mem_iff.mpr hmx) htier hprop hdec hy hxy (h _ _ hxs hys)

end Orders

/-- What a node's governance log becomes when it receives a new proposal and valid answers. -/
theorem transitions_receives {s : EngineState P} {msg : ProposeMessage}
    {answers : List AckMessage} {ops : List (Env × GovOp)}
    (hsig : verify P msg.proposer (transitionPayload s.networkId msg.variant) msg.signature =
      .ok true)
    (hfresh : ∀ p ∈ s.governance.pending, p.id ≠ msg.proposalId)
    (hacks : ∀ m ∈ answers, SignAck P s.networkId msg.proposal m)
    (hops : Receives msg answers ops) :
    (run step s ops).governance.transitions =
      settledLog s.governance msg.proposal answers := by
  obtain ⟨env, peerId, rest, rfl, hpeer, hrest⟩ := hops
  have hstep : step s (env, .onPropose peerId msg) =
      (tryRatify env (s.floating msg.proposal) msg.proposal.id).1 := by
    have hi := onProposeIntake_of_new hpeer hsig hfresh
    simp only [step, onPropose, settle, hi]
    rfl
  rw [run_cons, hstep]
  exact transitions_run_acks env hfresh (sound_proposal hsig) hacks hrest

private theorem exists_receives (P : Primitives) (msg : ProposeMessage)
    (answers : List AckMessage) : ∃ ops, Receives msg answers ops := by
  refine ⟨(clearEnv 0 "", .onPropose (displayId P msg.proposer) msg) ::
    answers.map fun m ↦ (clearEnv 0 "", .onAck (displayId P m.signer) m), _, _, _, rfl,
    pubkeyPart_displayId P _, ?_⟩
  rw [List.forall₂_map_left_iff, List.forall₂_same]
  exact fun m _ ↦ ⟨_, _, rfl, pubkeyPart_displayId P _⟩

/-- Two nodes in one governance state that receive a new proposal and the same valid
answers, in any two orders, keep logs that pass each other's fork guard, exactly when the
order cannot matter. -/
theorem peers_stay_mergeable_iff {s : EngineState P} {msg : ProposeMessage}
    {acks : List AckMessage}
    (hsig : verify P msg.proposer (transitionPayload s.networkId msg.variant) msg.signature =
      .ok true)
    (hfresh : ∀ p ∈ s.governance.pending, p.id ≠ msg.proposalId)
    (hacks : ∀ m ∈ acks, SignAck P s.networkId msg.proposal m) :
    (∀ r : EngineState P, r.networkId = s.networkId → r.governance = s.governance →
      ∀ first second ops ops', first.Perm acks → second.Perm acks → Receives msg first ops →
        Receives msg second ops' →
        List.Forall₂ GuardedPair (run step s ops).governance.transitions
          (run step r ops').governance.transitions) ↔
      OrderFree s.governance msg acks := by
  have hlog : ∀ r : EngineState P, r.networkId = s.networkId → r.governance = s.governance →
      ∀ answers ops, answers.Perm acks → Receives msg answers ops →
        (run step r ops).governance.transitions =
          settledLog s.governance msg.proposal answers := by
    intro r hn hg answers ops hperm hops
    rw [← hn] at hsig hacks
    rw [← hg] at hfresh ⊢
    exact transitions_receives hsig hfresh (fun m hm ↦ hacks m (hperm.mem_iff.mp hm)) hops
  constructor
  · intro h
    refine orderFree_of_guarded hsig hacks fun first second hfirst hsecond ↦ ?_
    obtain ⟨ops, hops⟩ := exists_receives P msg first
    obtain ⟨ops', hops'⟩ := exists_receives P msg second
    have hguard := h s rfl rfl first second ops ops' hfirst hsecond hops hops'
    rwa [hlog s rfl rfl first ops hfirst hops,
      hlog s rfl rfl second ops' hsecond hops'] at hguard
  · intro h r hn hg first second ops ops' hfirst hsecond hops hops'
    rw [hlog s rfl rfl first ops hfirst hops, hlog r hn hg second ops' hsecond hops']
    exact guarded_settledLog hsig hacks hfirst hsecond h

/-! ### Answers of an owner and a controller -/

section Answered

variable (P) (networkId proposalId : String) (stamp : UInt64) (v : TransitionVariant)

/-- The answer of a key that signs a proposal. -/
def signedAck (key : P.SigningKey) : AckMessage where
  proposalId := proposalId
  signer := publicId P key
  decision := .sign
  signature := signTransition P networkId v key

/-- A node receives the proposal of one key and then the answers of others. -/
def answeredBy (proposer : P.SigningKey) (keys : List P.SigningKey) : List (Env × GovOp) :=
  (clearEnv 0 "", .onPropose (publicId P proposer)
      (signedMessage P networkId proposer proposalId stamp v)) ::
    keys.map fun k ↦ (clearEnv 0 "", .onAck (publicId P k) (signedAck P networkId proposalId v k))

private theorem signAck_signedAck (proposer key : P.SigningKey) :
    SignAck P networkId (signedMessage P networkId proposer proposalId stamp v).proposal
      (signedAck P networkId proposalId v key) :=
  ⟨rfl, rfl, verify_signWith P key _⟩

private theorem receives_answeredBy (proposer : P.SigningKey) (keys : List P.SigningKey) :
    Receives (signedMessage P networkId proposer proposalId stamp v)
      (keys.map (signedAck P networkId proposalId v))
      (answeredBy P networkId proposalId stamp v proposer keys) := by
  refine ⟨_, _, _, rfl, pubkeyPart_publicId P proposer, ?_⟩
  rw [List.forall₂_map_left_iff, List.forall₂_map_right_iff, List.forall₂_same]
  exact fun k _ ↦ ⟨_, _, rfl, pubkeyPart_publicId P k⟩

end Answered

/-- The concrete proposal: make device 4 a controller. -/
def fourthController : TransitionVariant := .roleGrant (seededDevice 4) .controller

private theorem decisive_fleetNode_iff (seed k : UInt8) :
    Decisive (fleetNode seed []).governance fourthController (seededDevice k) ↔
      k = 1 ∨ k = 2 := by
  obtain ⟨memberLog, -, hg, -⟩ := fleetNode_spec seed []
  have hk : (fleetNode seed []).governance.kind = .closed := by rw [hg]
  have hauth : (fleetNode seed []).governance.IsAuthority (seededDevice k) ↔ k = 2 ∨ k = 1 := by
    unfold NetworkState.IsAuthority
    rw [hg]
    refine (or_congr (projection_eq_controller_iff seeded)
      (projection_eq_owner_iff seeded)).trans ?_
    simp only [NetworkState.IsOwner, roles_fleet, seededDevice_inj]
    by_cases h2 : 2 = k
    · simp [← h2]
    · by_cases h1 : 1 = k
      · simp [← h1]
      · simp [h1, h2, eq_comm (a := k)]
  simp only [Decisive, fourthController, QuorumMet, AuthoritySigned, List.mem_singleton,
    exists_eq_left, hk, hauth, forall_const]
  exact or_comm

private theorem fleetNode_hears (seed proposer : UInt8) :
    verify seeded (signedMessage seeded "fleet" proposer "p" 7 fourthController).proposer
        (transitionPayload (fleetNode seed []).networkId fourthController)
        (signedMessage seeded "fleet" proposer "p" 7 fourthController).signature = .ok true ∧
      (∀ p ∈ (fleetNode seed []).governance.pending, p.id ≠ "p") ∧
      ∀ keys : List UInt8, ∀ m ∈ keys.map (signedAck seeded "fleet" "p" fourthController),
        SignAck seeded (fleetNode seed []).networkId
          (signedMessage seeded "fleet" proposer "p" 7 fourthController).proposal m := by
  rw [(fleetNode_frame seed []).1, (fleetIdle_fleetNode seed []).pending]
  refine ⟨verify_signWith seeded proposer _, by simp, fun keys m hm ↦ ?_⟩
  obtain ⟨k, -, rfl⟩ := List.mem_map.mp hm
  exact signAck_signedAck seeded "fleet" "p" 7 fourthController proposer k

/-- The owner's own proposal is settled when it arrives, so the order of the answers of
devices 2 and 3 does not matter. -/
theorem owner_proposal_mergeable :
    List.Forall₂ GuardedPair
      (run step (fleetNode 4 []) (answeredBy seeded "fleet" "p" 7 fourthController
        (1 : UInt8) [(2 : UInt8), (3 : UInt8)])).governance.transitions
      (run step (fleetNode 5 []) (answeredBy seeded "fleet" "p" 7 fourthController
        (1 : UInt8) [(3 : UInt8), (2 : UInt8)])).governance.transitions := by
  obtain ⟨hsig, hfresh, hacks⟩ := fleetNode_hears 4 1
  have hn : (fleetNode 5 []).networkId = (fleetNode 4 []).networkId :=
    (fleetNode_frame 5 []).1.trans (fleetNode_frame 4 []).1.symm
  have hfree : OrderFree (fleetNode 4 []).governance
      (signedMessage seeded "fleet" (1 : UInt8) "p" 7 fourthController)
      ([(2 : UInt8), (3 : UInt8)].map (signedAck seeded "fleet" "p" fourthController)) :=
    .inr (.inl ((decisive_fleetNode_iff 4 1).mpr (.inl rfl)))
  exact (peers_stay_mergeable_iff hsig hfresh (hacks [2, 3])).mpr hfree (fleetNode 5 []) hn
    (governance_fleetNode 5 4 []) _ _ _ _ (.refl _) (.swap _ _ _)
    (receives_answeredBy seeded "fleet" "p" 7 fourthController _ _)
    (receives_answeredBy seeded "fleet" "p" 7 fourthController _ _)

/-- Device 3 proposes, the owner and the controller answer, and two nodes that hear them in
different orders keep entries with different signers. -/
theorem answers_in_two_orders_fork :
    (fleetNode 5 []).networkId = (fleetNode 4 []).networkId ∧
      (fleetNode 5 []).governance = (fleetNode 4 []).governance ∧
      ¬ List.Forall₂ GuardedPair
        (run step (fleetNode 4 []) (answeredBy seeded "fleet" "p" 7 fourthController
          (3 : UInt8) [(1 : UInt8), (2 : UInt8)])).governance.transitions
        (run step (fleetNode 5 []) (answeredBy seeded "fleet" "p" 7 fourthController
          (3 : UInt8) [(2 : UInt8), (1 : UInt8)])).governance.transitions := by
  have hn : (fleetNode 5 []).networkId = (fleetNode 4 []).networkId :=
    (fleetNode_frame 5 []).1.trans (fleetNode_frame 4 []).1.symm
  have hg := governance_fleetNode 5 4 []
  obtain ⟨hsig, hfresh, hacks⟩ := fleetNode_hears 4 3
  obtain ⟨hsig', hfresh', hacks'⟩ := fleetNode_hears 5 3
  have hdec := decisive_fleetNode_iff 4
  have hlog := transitions_receives hsig hfresh (hacks [1, 2])
    (receives_answeredBy seeded "fleet" "p" 7 fourthController (3 : UInt8)
      [(1 : UInt8), (2 : UInt8)])
  have hlog' := transitions_receives hsig' hfresh' (hacks' [2, 1])
    (receives_answeredBy seeded "fleet" "p" 7 fourthController (3 : UInt8)
      [(2 : UInt8), (1 : UInt8)])
  refine ⟨hn, hg, ?_⟩
  rw [hlog, hlog', hg]
  have hmem : signedAck seeded "fleet" "p" fourthController (1 : UInt8) ∈
      [(2 : UInt8), (1 : UInt8)].map (signedAck seeded "fleet" "p" fourthController) :=
    List.mem_cons_of_mem _ List.mem_cons_self
  refine not_guarded_of_orders hsig (hacks [2, 1] _ hmem) (hacks [2, 1]) hmem rfl ?_ ?_ ?_ ?_
  · exact fun h ↦ absurd ((hdec 3).mp h) (by decide)
  · exact (hdec 1).mpr (.inl rfl)
  · exact fun h ↦ absurd ((seededDevice_inj 2 3).mp h) (by decide)
  · exact fun h ↦ absurd ((seededDevice_inj 2 1).mp h) (by decide)

end MyOwnMesh
