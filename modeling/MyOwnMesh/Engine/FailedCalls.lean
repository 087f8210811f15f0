import MyOwnMesh.Engine.Steps

/-!
# Calls that fail

`crates/myownmesh-core/src/engine/governance.rs:138–420`. The five local governance calls check
their arguments, edit the governance state in memory and save it, in this order. A call that a
check refuses leaves no trace; one whose save fails returns the error and leaves its edit
behind.
-/

namespace MyOwnMesh

variable {P : Primitives}

/-- A governance call of this device. -/
inductive LocalCall where
  | propose (variant : TransitionVariant)
  | signProposal (proposalId : String)
  | denyProposal (proposalId : String)
  | withdrawProposal (proposalId : String)
  | spawnSplit (proposalId : String)

/-- The state a call leaves, and whether it failed. -/
def localCall (env : Env) (s : EngineState P) (c : LocalCall) :
    EngineState P × Except Error Unit :=
  match c with
  | .propose variant => ((propose env s variant).1, (propose env s variant).2.map fun _ ↦ ())
  | .signProposal id => signProposal env s id
  | .denyProposal id => denyProposal env s id
  | .withdrawProposal id => withdrawProposal env s id
  | .spawnSplit id => ((spawnSplit env s id).1, (spawnSplit env s id).2.map fun _ ↦ ())

/-! ### The edit a call asks for -/

/-- The edit of a call that passes its checks on the pending proposal it names. -/
def editPending (s : EngineState P) (id : String) (passes : Proposal → Prop)
    [DecidablePred passes] (edit : Proposal → NetworkState) : Option NetworkState :=
  (s.governance.pending.find? (·.id == id)).bind fun p ↦ if passes p then some (edit p) else none

/-- The state a call has to save, if its checks let it get there. -/
def edited (env : Env) (s : EngineState P) (c : LocalCall) : Option NetworkState :=
  match c with
  | .propose variant =>
    if alreadyGranted s.governance variant = false ∧ env.custody = .ok () then
      some { s.governance with pending := s.governance.pending ++ [ownProposal env s variant] }
    else none
  | .signProposal id =>
    editPending s id (fun p ↦ p.deniers = [] ∧ s.selfId ∉ p.signers ∧ env.custody = .ok ())
      fun p ↦ { s.governance with
        pending := modifyPending id (fun q ↦ { q with
          signers := q.signers ++ [s.selfId]
          signatures := q.signatures ++ [signTransition P s.networkId p.variant s.signingKey] })
          s.governance.pending }
  | .denyProposal id =>
    editPending s id (fun p ↦ s.selfId ∉ p.deniers)
      fun _ ↦ { s.governance with
        pending := modifyPending id (fun q ↦ { q with deniers := q.deniers ++ [s.selfId] })
          s.governance.pending }
  | .withdrawProposal id =>
    editPending s id (fun p ↦ p.proposer = s.selfId)
      fun _ ↦ { s.governance with pending := s.governance.pending.eraseP (·.id == id) }
  | .spawnSplit id =>
    editPending s id
      (fun p ↦ p.proposer = s.selfId ∧ p.splitSpawned = false ∧ p.variant = .kindChange .closed)
      fun p ↦
        let newNetworkId := deriveSplitNetworkId P s.networkId p.signers
        let after := applyTransition s.governance (splitEntry env.now newNetworkId p.signers
          s.selfId (signTransition P s.networkId (.split newNetworkId p.signers) s.signingKey))
        { after with
          pending := modifyPending id (fun q ↦ { q with splitSpawned := true }) after.pending }

/-- How a call ends: refused, or done with nothing to save, with the governance state as it was;
with an edit that was saved; or with one that was not. -/
inductive Ended (env : Env) (s : EngineState P) (c : LocalCall) : Prop where
  | refused (hedit : edited env s c = none)
      (hkept : (localCall env s c).1.governance = s.governance)
  | saved (gov : NetworkState) (hedit : edited env s c = some gov)
      (hsave : env.saveState gov = .ok ()) (hok : (localCall env s c).2 = .ok ())
  | unsaved (gov : NetworkState) (e : Error) (hedit : edited env s c = some gov)
      (hsave : env.saveState gov = .error e) (herr : (localCall env s c).2 = .error e)
      (hleft : (localCall env s c).1.governance = gov)

/-! ### The five calls -/

section Calls

variable (env : Env) (s : EngineState P)

/-- The end of an intake that edits: the edit stays, saved or not. -/
private def saveEdit (gov : NetworkState) (id : String) : Intake :=
  match env.saveState gov with
  | .error e => (gov, .error e)
  | .ok () => (gov, .ok (some id))

/-- An intake either saves the edit of its call or stops with the state as it was. -/
private structure Intakes (c : LocalCall) (id : String) (i : Intake) : Prop where
  edits : ∀ gov, edited env s c = some gov → i = saveEdit env gov id
  keeps : edited env s c = none → i.1 = s.governance ∧ ∀ id, i.2 ≠ .ok (some id)

/-- A call whose edit stands, and which returns what the save returned. -/
private theorem ended_of_save {c : LocalCall} {gov : NetworkState}
    (hedit : edited env s c = some gov) (hgov : (localCall env s c).1.governance = gov ∨
      env.saveState gov = .ok ())
    (hcall : (localCall env s c).2 = env.saveState gov) : Ended env s c := by
  cases hsave : env.saveState gov with
  | error e =>
    have hleft := hgov.resolve_right (by rw [hsave]; exact nofun)
    exact .unsaved gov e hedit hsave (hcall.trans hsave) hleft
  | ok u => exact .saved gov hedit hsave (hcall.trans hsave)

/-- A call that settles such an intake. -/
private theorem ended_of_settle {c : LocalCall} {id : String} {i : Intake}
    (h : Intakes env s c id i)
    (hcall : localCall env s c = ((settle env s i).1, (settle env s i).2.map fun _ ↦ ())) :
    Ended env s c := by
  cases hedit : edited env s c with
  | none =>
    refine .refused hedit ?_
    obtain ⟨hgov, hstop⟩ := h.keeps hedit
    obtain ⟨gov, outcome⟩ := i
    rw [hcall]
    cases outcome with
    | error e => exact hgov
    | ok id =>
      cases id with
      | none => exact hgov
      | some id => exact absurd rfl (hstop id)
  | some gov =>
    rw [h.edits gov hedit, saveEdit] at hcall
    refine ended_of_save env s hedit ?_ ?_
    · cases hsave : env.saveState gov with
      | error e =>
        rw [hsave] at hcall
        exact .inl (congrArg (·.1.governance) hcall)
      | ok u => exact .inr rfl
    · rw [hcall]
      cases env.saveState gov <;> rfl

private theorem editPending_eq_some_iff {id : String} {passes : Proposal → Prop}
    [DecidablePred passes] {edit : Proposal → NetworkState} {gov : NetworkState} :
    editPending s id passes edit = some gov ↔
      ∃ p, s.governance.pending.find? (·.id == id) = some p ∧ passes p ∧ edit p = gov := by
  rw [editPending, Option.bind_eq_some_iff]
  refine exists_congr fun p ↦ and_congr_right fun _ ↦ ?_
  split
  · next hp => simp [hp]
  · next hp => simp [hp]

private theorem editPending_eq_none_iff {id : String} {passes : Proposal → Prop}
    [DecidablePred passes] {edit : Proposal → NetworkState} :
    editPending s id passes edit = none ↔
      ∀ p, s.governance.pending.find? (·.id == id) = some p → ¬ passes p := by
  rw [editPending, Option.bind_eq_none_iff]
  refine forall_congr' fun p ↦ forall_congr' fun _ ↦ ?_
  split
  · next hp => simp [hp]
  · next hp => simp [hp]

private theorem intakes_propose (variant : TransitionVariant) :
    Intakes env s (.propose variant) env.proposalId (proposeIntake env s variant) where
  edits gov hedit := by
    rw [edited] at hedit
    split at hedit
    · next hchecks =>
      obtain rfl := Option.some.inj hedit
      rw [proposeIntake, if_neg (Bool.eq_false_iff.mp hchecks.1), hchecks.2]
      rfl
    · cases hedit
  keeps hedit := by
    rw [edited] at hedit
    split at hedit
    · cases hedit
    · next hchecks =>
      unfold proposeIntake
      split
      · exact ⟨rfl, fun id hid ↦ nomatch hid⟩
      · next hnew =>
        split
        · exact ⟨rfl, fun id hid ↦ nomatch hid⟩
        · next hcustody =>
          exact absurd ⟨Bool.eq_false_of_not_eq_true hnew, hcustody⟩ hchecks

private theorem intakes_sign (id : String) :
    Intakes env s (.signProposal id) id (signIntake env s id) where
  edits gov hedit := by
    rw [edited, editPending_eq_some_iff] at hedit
    obtain ⟨p, hp, ⟨hdeny, hsigned, hcustody⟩, rfl⟩ := hedit
    unfold signIntake
    rw [hp]
    dsimp only
    rw [if_neg (not_not.mpr hdeny), if_neg hsigned, hcustody]
    rfl
  keeps hedit := by
    rw [edited, editPending_eq_none_iff] at hedit
    unfold signIntake
    split
    · exact ⟨rfl, fun id hid ↦ nomatch hid⟩
    · next p hp =>
      split
      · exact ⟨rfl, fun id hid ↦ nomatch hid⟩
      · next hdeny =>
        split
        · exact ⟨rfl, fun id hid ↦ nomatch hid⟩
        · next hsigned =>
          split
          · exact ⟨rfl, fun id hid ↦ nomatch hid⟩
          · next hcustody => exact absurd ⟨not_not.mp hdeny, hsigned, hcustody⟩ (hedit p hp)

private theorem intakes_deny (id : String) :
    Intakes env s (.denyProposal id) id (denyIntake env s id) where
  edits gov hedit := by
    rw [edited, editPending_eq_some_iff] at hedit
    obtain ⟨p, hp, hdenied, rfl⟩ := hedit
    unfold denyIntake
    rw [hp]
    dsimp only
    rw [if_neg hdenied]
    rfl
  keeps hedit := by
    rw [edited, editPending_eq_none_iff] at hedit
    unfold denyIntake
    split
    · exact ⟨rfl, fun id hid ↦ nomatch hid⟩
    · next p hp =>
      split
      · exact ⟨rfl, fun id hid ↦ nomatch hid⟩
      · next hdenied => exact absurd hdenied (hedit p hp)

private theorem ended_withdraw (id : String) : Ended env s (.withdrawProposal id) := by
  cases hedit : edited env s (.withdrawProposal id) with
  | none =>
    refine .refused hedit ?_
    rw [edited, editPending_eq_none_iff] at hedit
    unfold localCall withdrawProposal
    dsimp only
    split
    · rfl
    · next p hp =>
      split
      · rfl
      · next howner => exact absurd (not_not.mp howner) (hedit p hp)
  | some gov =>
    obtain ⟨p, hp, howner, hgov⟩ := (editPending_eq_some_iff s).mp hedit
    have hcall : localCall env s (.withdrawProposal id) =
        ({ s with governance := gov }, env.saveState gov) := by
      unfold localCall withdrawProposal
      dsimp only
      rw [hp]
      dsimp only
      rw [if_neg (not_not.mpr howner), hgov]
    refine ended_of_save env s hedit (.inl ?_) ?_
    · rw [hcall]
    · rw [hcall]

private theorem ended_spawnSplit (id : String) : Ended env s (.spawnSplit id) := by
  cases hedit : edited env s (.spawnSplit id) with
  | none =>
    refine .refused hedit ?_
    rw [edited, editPending_eq_none_iff] at hedit
    unfold localCall spawnSplit
    dsimp only
    split
    · rfl
    · next p hp =>
      split
      · rfl
      · next howner =>
        split
        · rfl
        · next hspawned =>
          split
          · rfl
          · next hvariant =>
            exact absurd ⟨not_not.mp howner, Bool.eq_false_of_not_eq_true hspawned,
              not_not.mp hvariant⟩ (hedit p hp)
  | some gov =>
    obtain ⟨p, hp, ⟨howner, hspawned, hvariant⟩, hgov⟩ := (editPending_eq_some_iff s).mp hedit
    have hcall : localCall env s (.spawnSplit id) =
        ({ s with governance := gov }, (env.saveState gov).map fun _ ↦ ()) := by
      unfold localCall spawnSplit
      dsimp only
      rw [hp]
      dsimp only
      rw [if_neg (not_not.mpr howner), if_neg (Bool.eq_false_iff.mp hspawned),
        if_neg (not_not.mpr hvariant), hgov]
      cases env.saveState gov <;> rfl
    refine ended_of_save env s hedit (.inl ?_) ?_
    · rw [hcall]
    · rw [hcall]
      cases env.saveState gov <;> rfl

/-- Every call ends in one of the three ways. -/
theorem ended (c : LocalCall) : Ended env s c := by
  cases c with
  | propose variant =>
    refine ended_of_settle env s (intakes_propose env s variant) (Prod.ext rfl ?_)
    unfold localCall propose
    dsimp only
    cases (settle env s (proposeIntake env s variant)).2 <;> rfl
  | signProposal id => exact ended_of_settle env s (intakes_sign env s id) rfl
  | denyProposal id => exact ended_of_settle env s (intakes_deny env s id) rfl
  | withdrawProposal id => exact ended_withdraw env s id
  | spawnSplit id => exact ended_spawnSplit env s id

/-- No edit is empty: it adds a proposal, a signer, a denier or a log entry, or takes a proposal
away. -/
theorem edited_ne {c : LocalCall} {gov : NetworkState} (h : edited env s c = some gov) :
    gov ≠ s.governance := by
  have hmodify {id : String} {f : Proposal → Proposal} {pending : List Proposal} {p : Proposal}
      (hp : pending.find? (·.id == id) = some p) (hf : f p ≠ p) :
      modifyPending id f pending ≠ pending := by
    induction pending with
    | nil => cases hp
    | cons q rest ih =>
      rw [modifyPending]
      by_cases hq : q.id = id
      · rw [List.find?_cons_of_pos (by simpa using hq), Option.some.injEq] at hp
        rw [if_pos hq, hp]
        exact fun heq ↦ hf (List.cons_eq_cons.mp heq).1
      · rw [List.find?_cons_of_neg (by simpa using hq)] at hp
        rw [if_neg hq]
        exact fun heq ↦ ih hp (List.cons_eq_cons.mp heq).2
  cases c with
  | propose variant =>
    rw [edited] at h
    split at h
    · obtain rfl := Option.some.inj h
      intro heq
      simpa using congrArg (·.pending.length) heq
    · cases h
  | signProposal id =>
    obtain ⟨p, hp, -, rfl⟩ := (editPending_eq_some_iff s).mp h
    intro heq
    refine hmodify hp ?_ (congrArg (·.pending) heq)
    intro hsame
    simpa using congrArg (·.signers.length) hsame
  | denyProposal id =>
    obtain ⟨p, hp, -, rfl⟩ := (editPending_eq_some_iff s).mp h
    intro heq
    refine hmodify hp ?_ (congrArg (·.pending) heq)
    intro hsame
    simpa using congrArg (·.deniers.length) hsame
  | withdrawProposal id =>
    obtain ⟨p, hp, -, rfl⟩ := (editPending_eq_some_iff s).mp h
    intro heq
    have hlen := congrArg (·.pending.length) heq
    have hmem := List.mem_of_find?_eq_some hp
    rw [List.length_eraseP_of_mem hmem (List.find?_some hp)] at hlen
    have hpos := List.length_pos_of_mem hmem
    omega
  | spawnSplit id =>
    obtain ⟨p, hp, -, rfl⟩ := (editPending_eq_some_iff s).mp h
    intro heq
    have hlen := congrArg (·.transitions.length) heq
    simp [applyTransition, splitEntry] at hlen

end Calls

/-! ### Which failures leave a trace -/

/-- A call that returns an error leaves the governance state as it was exactly when its checks
refused it or its edit could be saved. -/
theorem failed_calls_leave_no_trace_iff (env : Env) (s : EngineState P) (c : LocalCall) :
    (∀ e, (localCall env s c).2 = .error e → (localCall env s c).1.governance = s.governance) ↔
      ∀ gov, edited env s c = some gov → env.saveState gov = .ok () := by
  cases ended env s c with
  | refused hedit hkept =>
    refine ⟨fun _ gov hgov ↦ ?_, fun _ _ _ ↦ hkept⟩
    rw [hedit] at hgov
    cases hgov
  | saved gov hedit hsave hok =>
    refine ⟨fun _ gov' hgov' ↦ ?_, fun _ e he ↦ ?_⟩
    · obtain rfl := Option.some.inj (hedit.symm.trans hgov')
      exact hsave
    · rw [hok] at he
      cases he
  | unsaved gov e hedit hsave herr hleft =>
    refine ⟨fun h ↦ absurd (hleft.symm.trans (h e herr)) (edited_ne env s hedit), fun h ↦ ?_⟩
    have hok := h gov hedit
    rw [hsave] at hok
    cases hok

/-- On a full disk a new proposal is refused and stays pending. -/
theorem refused_proposal_stays :
    ¬ ∀ (env : Env) (s : EngineState seeded) (c : LocalCall) (e : Error),
      (localCall env s c).2 = .error e → (localCall env s c).1.governance = s.governance := by
  intro h
  obtain ⟨env, henv⟩ : ∃ env : Env, env = ⟨1, 1, "p1", .ok (), fun _ ↦ .error (.other "disk full"),
    fun _ ↦ .ok ()⟩ := ⟨_, rfl⟩
  obtain ⟨s, hs⟩ : ∃ s : EngineState seeded,
    s = .start "net" (1 : UInt8) "laptop" (.emptyFor "net") .fullMesh := ⟨_, rfl⟩
  have hedit : ∃ gov, edited env s (.propose (.kindChange .closed)) = some gov := by
    rw [henv, hs]
    exact ⟨_, rfl⟩
  obtain ⟨gov, hedit⟩ := hedit
  cases ended env s (.propose (.kindChange .closed)) with
  | refused hnone hkept => cases hnone.symm.trans hedit
  | saved gov' hedit' hsave hok =>
    rw [henv] at hsave
    cases hsave
  | unsaved gov' e hedit' hsave herr hleft =>
    exact edited_ne env s hedit' (hleft.symm.trans (h env s _ e herr))

end MyOwnMesh
