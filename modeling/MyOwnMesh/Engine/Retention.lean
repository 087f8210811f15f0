import MyOwnMesh.Engine.Coherence

/-!
# Entries kept by an adoption

The member half of an adoption (`governance.rs:1223–1230`) takes the union of both logs
only when it is longer than the local list, so copies in the local list can hide new
entries. What an adoption keeps is decided by the number of those copies. A run makes no
copy as long as it ratifies no entry that the member log already holds.
-/

namespace MyOwnMesh

open Lib Lib.Replay

/-- How many entries of a log are further copies of an earlier one. -/
def surplusCopies (log : List Transition) : ℕ := log.length - log.dedup.length

/-- The distinct incoming entries that a log does not hold. -/
def newEntries (log incoming : List Transition) : List Transition :=
  incoming.dedup.filter (· ∉ log)

/-- The incoming log brings nothing new, or more new entries than the log has copies. -/
def RoomForNew (log incoming : List Transition) : Prop :=
  newEntries log incoming = [] ∨ surplusCopies log < (newEntries log incoming).length

private theorem mem_newEntries {log incoming : List Transition} {t : Transition} :
    t ∈ newEntries log incoming ↔ t ∈ incoming ∧ t ∉ log := by
  simp [newEntries]

/-- The merged log has one entry for each distinct entry of either side. -/
theorem length_mergeMemberLogs (log incoming : List Transition) :
    (mergeMemberLogs log incoming).length =
      log.dedup.length + (newEntries log incoming).length := by
  have hnodup : (log.dedup ++ newEntries log incoming).Nodup := by
    apply List.Nodup.append (List.nodup_dedup log)
    · exact (List.nodup_dedup incoming).filter _
    · intro t ht hn
      exact (mem_newEntries.mp hn).2 (List.mem_dedup.mp ht)
  have hperm : (mergeMemberLogs log incoming).Perm (log.dedup ++ newEntries log incoming) := by
    rw [List.perm_ext_iff_of_nodup (nodup_mergeMemberLogs log incoming) hnodup]
    intro t
    rw [mem_mergeMemberLogs, List.mem_append, List.mem_dedup, mem_newEntries]
    tauto
  rw [hperm.length_eq, List.length_append]

private theorem longer_iff (log incoming : List Transition) :
    log.length < (mergeMemberLogs log incoming).length ↔
      surplusCopies log < (newEntries log incoming).length := by
  have hle : log.dedup.length ≤ log.length := (List.dedup_sublist log).length_le
  rw [length_mergeMemberLogs, surplusCopies]
  omega

/-- The member half of an adoption keeps every entry of both sides exactly when there is
room for the new ones. -/
theorem adoptMemberLog_keeps_iff (gov : NetworkState) (incoming : List Transition) :
    (∀ t, t ∈ gov.memberLog ∨ t ∈ incoming → t ∈ (adoptMemberLog gov incoming).memberLog) ↔
      RoomForNew gov.memberLog incoming := by
  have hnil : newEntries gov.memberLog incoming = [] ↔ ∀ t ∈ incoming, t ∈ gov.memberLog := by
    rw [List.eq_nil_iff_forall_not_mem]
    simp only [mem_newEntries, not_and, not_not]
  unfold RoomForNew
  rw [← longer_iff, hnil]
  unfold adoptMemberLog
  split
  · next he =>
    subst he
    simp
  · simp only
    split
    · next hlong =>
      apply iff_of_true _ (.inr hlong)
      intro t ht
      exact mem_mergeMemberLogs.mpr ht
    · next hshort =>
      constructor
      · exact fun h ↦ .inl fun t ht ↦ h t (.inr ht)
      · intro h t ht
        cases ht with
        | inl ht => exact ht
        | inr ht =>
          cases h with
          | inl hold => exact hold t ht
          | inr hlong => exact absurd hlong hshort

variable {P : Primitives}

/-- The member log after an adoption is decided by the two member logs alone. -/
theorem memberLog_adoptTransitionLog (env : Env) (s : EngineState P)
    (incomingGov incomingMembers : List Transition) :
    (adoptTransitionLog env s incomingGov incomingMembers).governance.memberLog =
      (adoptMemberLog s.governance incomingMembers).memberLog := by
  have hgov : (adoptGovernanceLog P s.networkId s.governance incomingGov).memberLog =
      s.governance.memberLog := by
    cases adoptGovernanceLog_cases (P := P) s.networkId s.governance incomingGov with
    | inl hold => rw [hold]
    | inr hnew =>
      obtain ⟨u, -, -, heq⟩ := hnew
      rw [heq]
  have hmember : ∀ g : NetworkState, g.memberLog = s.governance.memberLog →
      (adoptMemberLog g incomingMembers).memberLog =
        (adoptMemberLog s.governance incomingMembers).memberLog := by
    intro g hg
    unfold adoptMemberLog
    split
    · exact hg
    · simp only [hg]
      split
      · rfl
      · exact hg
  rw [governance_adoptTransitionLog, ← hmember _ hgov]
  simp only [adoptedGovernance]
  split <;> rfl

/-! ### Runs without copies -/

/-- The entry the operation ratifies, if any, is not in the member log yet. -/
def RatifiesNew (s : EngineState P) (o : Env × GovOp) : Prop :=
  ∀ t, ratifiedBy s o = some t → t ∉ s.governance.memberLog

private theorem memberLog_routed (networkId : String) (gov : NetworkState) (t : Transition) :
    (routed P networkId gov t).memberLog = gov.memberLog ∨
      (routed P networkId gov t).memberLog = gov.memberLog ++ [t] := by
  unfold routed
  split
  · exact .inr rfl
  · simp only
    split
    · exact .inr (by rw [memberLog_applyTransition])
    · exact .inl (by rw [memberLog_applyTransition])

private theorem nodup_step {s : EngineState P} {o : Env × GovOp} (hnew : RatifiesNew s o)
    (h : s.governance.memberLog.Nodup) : (step s o).governance.memberLog.Nodup := by
  have heff := stepEffect_step s o
  generalize hg : (step s o).governance = g at heff
  cases heff with
  | quiet pending _ => exact h
  | ratify t pending hby _ _ =>
    show (routed P s.networkId s.governance t).memberLog.Nodup
    cases memberLog_routed (P := P) s.networkId s.governance t with
    | inl heq =>
      rw [heq]
      exact h
    | inr heq =>
      rw [heq]
      apply List.Nodup.append h (List.nodup_singleton t)
      simpa using hnew t hby
  | split t pending n ms _ _ _ _ =>
    show (applyTransition s.governance t).memberLog.Nodup
    rw [memberLog_applyTransition]
    exact h
  | adopt incomingGov incomingMembers _ =>
    rw [← governance_adoptTransitionLog o.1, memberLog_adoptTransitionLog]
    unfold adoptMemberLog
    split
    · exact h
    · simp only
      split
      · exact nodup_mergeMemberLogs _ _
      · exact h

/-- A run that ratifies no entry twice holds no copies. -/
theorem nodup_run {s : EngineState P} (ops : List (Env × GovOp))
    (hnew : AllSteps step RatifiesNew s ops) (h : s.governance.memberLog.Nodup) :
    (run step s ops).governance.memberLog.Nodup := by
  induction ops generalizing s with
  | nil => exact h
  | cons o rest ih => exact ih hnew.2 (nodup_step hnew.1 h)

private theorem roomForNew_of_nodup {log : List Transition} (h : log.Nodup)
    (incoming : List Transition) : RoomForNew log incoming := by
  unfold RoomForNew surplusCopies
  rw [h.dedup]
  cases newEntries log incoming with
  | nil => exact .inl rfl
  | cons t rest =>
    apply Or.inr
    rw [List.length_cons]
    omega

/-- In every state a run from an empty state reaches, an adoption keeps every entry of the
local and of the incoming member log exactly when the incoming log brings nothing new or
more new entries than the local log has copies; and a run that never ratifies an entry the
member log already holds always leaves that room. -/
theorem adoption_keeps_entries_iff (networkId : String) (signingKey : P.SigningKey)
    (label : String) (roster : Roster) (topology : TopologyMode) (ops : List (Env × GovOp))
    (env : Env) (incomingGov incomingMembers : List Transition) :
    ((∀ t, t ∈ (run step (EngineState.start networkId signingKey label roster topology)
            ops).governance.memberLog ∨ t ∈ incomingMembers →
          t ∈ (adoptTransitionLog env
            (run step (EngineState.start networkId signingKey label roster topology) ops)
            incomingGov incomingMembers).governance.memberLog) ↔
        RoomForNew (run step (EngineState.start networkId signingKey label roster topology)
          ops).governance.memberLog incomingMembers) ∧
      (AllSteps step RatifiesNew (EngineState.start networkId signingKey label roster topology)
          ops →
        RoomForNew (run step (EngineState.start networkId signingKey label roster topology)
          ops).governance.memberLog incomingMembers) := by
  constructor
  · simp only [memberLog_adoptTransitionLog]
    exact adoptMemberLog_keeps_iff _ _
  · intro hnew
    exact roomForNew_of_nodup (nodup_run ops hnew List.nodup_nil) incomingMembers

/-- The owner of the concrete network admits a device. -/
def ownerAdmits (id : String) : Env × GovOp :=
  ownerMessage id 5 (.roleGrant (seededDevice 4) .member)

/-- One surplus copy outweighs one new entry. -/
private theorem hidden_behind_copy {s : EngineState P} {t u : Transition}
    (hlog : s.governance.memberLog = [t, t]) (hne : u ≠ t) (env : Env) :
    u ∉ (adoptTransitionLog env s [] [u]).governance.memberLog := by
  have hnew : newEntries [t, t] [u] = [u] := by
    simp [newEntries, hne]
  have hmany : surplusCopies [t, t] = 1 := by
    simp [surplusCopies]
  have hshort : ¬ s.governance.memberLog.length <
      (mergeMemberLogs s.governance.memberLog [u]).length := by
    rw [longer_iff, hlog, hnew, hmany]
    simp
  rw [memberLog_adoptTransitionLog]
  unfold adoptMemberLog
  simp only [reduceCtorEq, ↓reduceIte, hshort]
  simp [hlog, hne]

/-- The owner's admission arrives under two proposal ids and is recorded twice. The next
admission the node is handed is then lost. -/
theorem new_entry_lost_behind_copy :
    seededEntry 1 6 (.roleGrant (seededDevice 5) .member) ∉
      (adoptTransitionLog (clearEnv 0 "")
        (run step (fleetStart 3) [(clearEnv 0 "", .adoptTransitionLog fleetLog []),
          ownerAdmits "p", ownerAdmits "q"])
        [] [seededEntry 1 6 (.roleGrant (seededDevice 5) .member)]).governance.memberLog := by
  have hempty : (fleetNode 3 []).governance.memberLog = [] := by
    obtain ⟨memberLog, hmem, hg, -⟩ := fleetNode_spec 3 []
    rw [hg, List.eq_nil_iff_forall_not_mem]
    intro t ht
    simpa using (hmem t).mp ht
  obtain ⟨hfirst, hlog⟩ := (fleetIdle_fleetNode 3 []).member_message "p" 5
    (x := seededDevice 4) (v := .roleGrant (seededDevice 4) .member) rfl rfl
  obtain ⟨-, hlog'⟩ := hfirst.member_message "q" 5 (x := seededDevice 4)
    (v := .roleGrant (seededDevice 4) .member) rfl rfl
  rw [hlog, hempty] at hlog'
  rw [run_cons, run_cons, run_cons, run_nil]
  apply hidden_behind_copy hlog'
  intro h
  exact absurd (congrArg Transition.at_ h) (by decide)

end MyOwnMesh
