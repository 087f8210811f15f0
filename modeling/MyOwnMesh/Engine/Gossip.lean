import MyOwnMesh.Engine.Quiet
import MyOwnMesh.Lib.Delimited

/-!
# Roster gossip on an open network

`crates/myownmesh-core/src/engine/governance.rs:756–895` and `:1411–1417`. A node that sees
another membership root asks for the roster behind it and adds what it lacks, except itself. The
root is over all ids of the roster. What the exchange cannot add is the node's own id.
-/

namespace MyOwnMesh

open Lib Lib.Replay

variable {P : Primitives}

/-! ### One exchange -/

/-- The ids of a roster, as the membership root lists them before sorting. -/
def Roster.ids (roster : Roster) : List String :=
  roster.authorizedDevices.map AuthorizedPeer.deviceId

/-- A roster as a reply carries it; `protocol/governance.rs:223–233`. -/
def rosterEntries (roster : Roster) : List RosterEntry :=
  roster.authorizedDevices.map fun p ↦ ⟨p.deviceId, p.label, p.approvedAt, p.role, ""⟩

/-- A peer's root makes this node ask for the peer's roster; `governance.rs:1411–1417`. -/
def onRosterSummary (s : EngineState P) (root : String) : Bool := membershipRoot P s.roster != root

/-- One node asks another for its roster and merges the reply. -/
structure Exchange (n : Nat) where
  asker : Fin n
  peer : Fin n
  env : Env

/-- The network after one exchange; `governance.rs:763–800` and `:803–895`. -/
def exchange {n : Nat} (nodes : Fin n → EngineState P) (x : Exchange n) : Fin n → EngineState P :=
  if x.asker = x.peer then nodes
  else
    Function.update nodes x.asker
      (onRosterEntries x.env (nodes x.asker) (rosterEntries (nodes x.peer).roster)
        (nodes x.peer).governance.transitions (nodes x.peer).governance.memberLog)

/-- A node of an open network, which has no signed log. -/
structure OpenNode (s : EngineState P) : Prop where
  kind : s.governance.kind = .open
  transitions : s.governance.transitions = []
  memberLog : s.governance.memberLog = []

/-- Without signed roles, no row keeps a tag. -/
def untagged (roster : Roster) : Roster :=
  { roster with
    authorizedDevices := roster.authorizedDevices.map fun e ↦ { e with role := .member } }

/-- An open network has no roles to mirror. -/
private theorem mirror_empty (now : UInt64) (roster : Roster) (selfPk : String) :
    (mirrorRolesToRoster now ∅ roster [] selfPk).1 = untagged roster := by
  have hkept : roster.authorizedDevices.filter (fun e ↦ e.deviceId = pubkeyPart selfPk ∨
      e.deviceId ∉ ([] : List String)) = roster.authorizedDevices := by
    rw [List.filter_eq_self]
    simp
  have hlist : (∅ : RoleMap).toList = [] := by simp
  simp only [mirrorRolesToRoster, hlist, List.foldl_nil, hkept, untagged]
  congr 1
  refine List.map_congr_left fun e _ ↦ ?_
  obtain ⟨deviceId, label, approvedAt, role⟩ := e
  cases role with
  | member | controller | owner => simp

private theorem verifiedProjection_open (networkId : String) {gov : NetworkState}
    (ht : gov.transitions = []) (hm : gov.memberLog = []) :
    verifiedProjection P networkId gov = .ok (∅, []) := by
  have hverdict : (memberLogVerdict P (NetworkState.emptyFor networkId) [] networkId).toList =
      [] := rfl
  simp only [verifiedProjection, verifyLog, ht, hm, replay_nil, projection, verifyMemberLog,
    memberLogRemoved, hverdict]
  rfl

/-- What a reply does to a node of an open network. -/
theorem onRosterEntries_open (env : Env) {s : EngineState P} (h : OpenNode s)
    (entries : List RosterEntry) :
    (onRosterEntries env s entries [] []).roster =
        untagged (entries.foldl (mergeRosterEntry env.rosterNow s.selfId) s.roster) ∧
      (onRosterEntries env s entries [] []).selfId = s.selfId ∧
      OpenNode (onRosterEntries env s entries [] []) := by
  have hkind : s.governance.kind.isOpenGovernance = true := by rw [h.kind]; rfl
  have hadopted : ∀ networkId, adoptGovernanceLog P networkId s.governance [] = s.governance := by
    intro networkId
    rw [adoptGovernanceLog, if_neg (by simp [extendsLog])]
  have hprojected := verifiedProjection_open (P := P) s.networkId h.transitions h.memberLog
  unfold onRosterEntries adoptTransitionLog
  simp only [hkind, ↓reduceIte, hadopted, adoptMemberLog, hprojected]
  refine ⟨?_, rfl, h.kind, h.transitions, h.memberLog⟩
  exact mirror_empty env.rosterNow
    (entries.foldl (mergeRosterEntry env.rosterNow s.selfId) s.roster) s.selfId

/-! ### The rows a merge adds -/

/-- One row per device, under the bare key of the device; `roster.rs:27–30`. -/
structure Roster.Canonical (roster : Roster) : Prop where
  distinct : roster.Distinct
  bare : ∀ id ∈ roster.ids, pubkeyPart id = id

@[simp] theorem ids_untagged (roster : Roster) : (untagged roster).ids = roster.ids := by
  simp [Roster.ids, untagged, Function.comp_def]

@[simp] theorem untagged_untagged (roster : Roster) :
    untagged (untagged roster) = untagged roster := by
  simp [untagged, Function.comp_def]

@[simp] theorem map_deviceId_rosterEntries (roster : Roster) :
    (rosterEntries roster).map RosterEntry.deviceId = roster.ids := by
  simp [Roster.ids, rosterEntries, Function.comp_def]

theorem Roster.Canonical.untagged {roster : Roster} (h : roster.Canonical) :
    (untagged roster).Canonical := by
  refine ⟨?_, fun id hid ↦ h.bare id (by simpa using hid)⟩
  show (MyOwnMesh.untagged roster).ids.Nodup
  rw [ids_untagged]
  exact h.distinct

private theorem isAuthorized_iff {roster : Roster} {id : String} (h : pubkeyPart id = id) :
    isAuthorized roster id = true ↔ id ∈ roster.ids := by
  simp [isAuthorized, Roster.ids, h]

/-- An entry under the node's own id or under an id the node has a row for is passed over. -/
theorem mergeRosterEntry_known {now : UInt64} {selfPk : String} {roster : Roster}
    {entry : RosterEntry} (hbare : pubkeyPart entry.deviceId = entry.deviceId)
    (h : entry.deviceId = selfPk ∨ entry.deviceId ∈ roster.ids) :
    mergeRosterEntry now selfPk roster entry = roster := by
  simp only [mergeRosterEntry, hbare]
  split
  · rfl
  · next hself =>
    rw [if_pos ((isAuthorized_iff hbare).mpr (h.resolve_left hself))]

/-- Any other entry adds one row. -/
theorem ids_mergeRosterEntry {now : UInt64} {selfPk : String} {roster : Roster}
    {entry : RosterEntry} (hbare : pubkeyPart entry.deviceId = entry.deviceId)
    (hself : entry.deviceId ≠ selfPk) (hnew : entry.deviceId ∉ roster.ids) :
    (mergeRosterEntry now selfPk roster entry).ids = roster.ids ++ [entry.deviceId] := by
  have hauth : ¬ isAuthorized roster entry.deviceId = true := fun h ↦
    hnew ((isAuthorized_iff hbare).mp h)
  have hadded : (addPeerIn now roster entry.deviceId entry.label).ids =
      roster.ids ++ [entry.deviceId] := by
    simp [addPeerIn, hauth, Roster.ids, hbare]
  simp only [mergeRosterEntry, hbare, if_neg hself, if_neg hauth]
  split
  · rw [Roster.ids, map_deviceId_setRoleIn]
    exact hadded
  · exact hadded

/-- One merged entry keeps the rows canonical and adds at most its own id. -/
private theorem mergeRosterEntry_spec (now : UInt64) (selfPk : String) {roster : Roster}
    (h : roster.Canonical) {entry : RosterEntry}
    (hbare : pubkeyPart entry.deviceId = entry.deviceId) :
    (mergeRosterEntry now selfPk roster entry).Canonical ∧
      ∀ id, id ∈ (mergeRosterEntry now selfPk roster entry).ids ↔
        id ∈ roster.ids ∨ (id = entry.deviceId ∧ id ≠ selfPk) := by
  by_cases hknown : entry.deviceId = selfPk ∨ entry.deviceId ∈ roster.ids
  · rw [mergeRosterEntry_known hbare hknown]
    refine ⟨h, fun id ↦ ⟨.inl, ?_⟩⟩
    rintro (hid | ⟨rfl, hself⟩)
    · exact hid
    · exact hknown.resolve_left hself
  · obtain ⟨hself, hnew⟩ := not_or.mp hknown
    have hids : (mergeRosterEntry now selfPk roster entry).ids = roster.ids ++ [entry.deviceId] :=
      ids_mergeRosterEntry hbare hself hnew
    refine ⟨⟨?_, ?_⟩, fun id ↦ ?_⟩
    · show (mergeRosterEntry now selfPk roster entry).ids.Nodup
      rw [hids, List.nodup_append]
      refine ⟨h.distinct, List.nodup_singleton _, ?_⟩
      rintro a ha b hb rfl
      rw [List.mem_singleton.mp hb] at ha
      exact hnew ha
    · intro id hid
      rw [hids, List.mem_append, List.mem_singleton] at hid
      rcases hid with hid | rfl
      · exact h.bare id hid
      · exact hbare
    · rw [hids, List.mem_append, List.mem_singleton]
      refine or_congr_right ⟨?_, And.left⟩
      rintro rfl
      exact ⟨rfl, hself⟩

/-- A merged reply keeps the rows canonical and adds the ids of the reply, except the node's
own. -/
theorem foldl_mergeRosterEntry_spec (now : UInt64) (selfPk : String) (entries : List RosterEntry)
    {roster : Roster} (h : roster.Canonical)
    (hbare : ∀ e ∈ entries, pubkeyPart e.deviceId = e.deviceId) :
    (entries.foldl (mergeRosterEntry now selfPk) roster).Canonical ∧
      ∀ id, id ∈ (entries.foldl (mergeRosterEntry now selfPk) roster).ids ↔
        id ∈ roster.ids ∨ (id ∈ entries.map RosterEntry.deviceId ∧ id ≠ selfPk) := by
  induction entries generalizing roster with
  | nil => simp [h]
  | cons e rest ih =>
    obtain ⟨hone, hids⟩ := mergeRosterEntry_spec now selfPk h (hbare e (by simp))
    obtain ⟨hall, hrest⟩ := ih hone fun x hx ↦ hbare x (by simp [hx])
    refine ⟨hall, fun id ↦ ?_⟩
    rw [List.foldl_cons, hrest, hids, List.map_cons, List.mem_cons, or_assoc, ← or_and_right]

/-- A reply without news changes nothing. -/
theorem foldl_mergeRosterEntry_known (now : UInt64) (selfPk : String) {entries : List RosterEntry}
    {roster : Roster} (hbare : ∀ e ∈ entries, pubkeyPart e.deviceId = e.deviceId)
    (h : ∀ e ∈ entries, e.deviceId = selfPk ∨ e.deviceId ∈ roster.ids) :
    entries.foldl (mergeRosterEntry now selfPk) roster = roster := by
  induction entries with
  | nil => rfl
  | cons e rest ih =>
    rw [List.foldl_cons, mergeRosterEntry_known (hbare e (by simp)) (h e (by simp))]
    exact ih (fun x hx ↦ hbare x (by simp [hx])) fun x hx ↦ h x (by simp [hx])

/-! ### Runs of exchanges -/

section Runs

variable {n : Nat} {start nodes : Fin n → EngineState P}

/-- Some node listed the device before the exchanges began. -/
def Vouched (start : Fin n → EngineState P) (id : String) : Prop :=
  ∃ j, id ∈ (start j).roster.ids

/-- What every run of exchanges keeps of a node: its roster loses no row, and gains rows of
devices that some node listed and that are not the node itself. -/
structure Informed (start : Fin n → EngineState P) (i : Fin n) (s : EngineState P) : Prop where
  openNode : OpenNode s
  canonical : s.roster.Canonical
  selfId : s.selfId = (start i).selfId
  kept : ∀ id ∈ (start i).roster.ids, id ∈ s.roster.ids
  gained : ∀ id ∈ s.roster.ids,
    id ∈ (start i).roster.ids ∨ (id ≠ (start i).selfId ∧ Vouched start id)

/-- The invariant of the network. -/
def Gossiping (start nodes : Fin n → EngineState P) : Prop := ∀ i, Informed start i (nodes i)

theorem Gossiping.refl (hopen : ∀ i, OpenNode (start i))
    (hrows : ∀ i, (start i).roster.Canonical) : Gossiping start start :=
  fun i ↦ ⟨hopen i, hrows i, rfl, fun _ hid ↦ hid, fun _ hid ↦ .inl hid⟩

/-- The asker of an exchange afterwards. -/
private theorem exchange_asker (h : Gossiping start nodes) {x : Exchange n}
    (hne : x.asker ≠ x.peer) :
    OpenNode (exchange nodes x x.asker) ∧
      (exchange nodes x x.asker).selfId = (start x.asker).selfId ∧
      (exchange nodes x x.asker).roster =
        untagged ((rosterEntries (nodes x.peer).roster).foldl
          (mergeRosterEntry x.env.rosterNow (start x.asker).selfId) (nodes x.asker).roster) := by
  obtain ⟨hroster, hself, hopen⟩ := onRosterEntries_open x.env ((h x.asker).openNode)
    (rosterEntries (nodes x.peer).roster)
  rw [exchange, if_neg hne, Function.update_self, ((h x.peer).openNode).transitions,
    ((h x.peer).openNode).memberLog]
  rw [hself, (h x.asker).selfId] at *
  exact ⟨hopen, rfl, hroster⟩

/-- The other nodes of an exchange stay as they are. -/
private theorem exchange_of_ne (nodes : Fin n → EngineState P) {x : Exchange n} {i : Fin n}
    (h : i ≠ x.asker ∨ x.asker = x.peer) : exchange nodes x i = nodes i := by
  unfold exchange
  split
  · rfl
  · next hne => rw [Function.update_of_ne (h.resolve_right hne)]

private theorem bare_rosterEntries {roster : Roster} (h : roster.Canonical) :
    ∀ e ∈ rosterEntries roster, pubkeyPart e.deviceId = e.deviceId := by
  intro e he
  refine h.bare e.deviceId ?_
  rw [← map_deviceId_rosterEntries]
  exact List.mem_map_of_mem he

/-- The rows of the asker afterwards. -/
private theorem mem_ids_exchange (h : Gossiping start nodes) {x : Exchange n}
    (hne : x.asker ≠ x.peer) :
    (exchange nodes x x.asker).roster.Canonical ∧
      ∀ id, id ∈ (exchange nodes x x.asker).roster.ids ↔
        id ∈ (nodes x.asker).roster.ids ∨
          (id ∈ (nodes x.peer).roster.ids ∧ id ≠ (start x.asker).selfId) := by
  obtain ⟨-, -, hroster⟩ := exchange_asker h hne
  obtain ⟨hcanonical, hids⟩ := foldl_mergeRosterEntry_spec x.env.rosterNow
    (start x.asker).selfId (rosterEntries (nodes x.peer).roster) ((h x.asker).canonical)
    (bare_rosterEntries ((h x.peer).canonical))
  rw [hroster]
  refine ⟨hcanonical.untagged, fun id ↦ ?_⟩
  rw [ids_untagged, hids, map_deviceId_rosterEntries]

/-- One exchange keeps the invariant. -/
theorem Gossiping.exchange (h : Gossiping start nodes) (x : Exchange n) :
    Gossiping start (exchange nodes x) := by
  intro i
  by_cases hi : i ≠ x.asker ∨ x.asker = x.peer
  · rw [exchange_of_ne nodes hi]
    exact h i
  · obtain ⟨rfl, hne⟩ : i = x.asker ∧ x.asker ≠ x.peer := by simpa using hi
    obtain ⟨hopen, hself, -⟩ := exchange_asker h hne
    obtain ⟨hcanonical, hids⟩ := mem_ids_exchange h hne
    refine ⟨hopen, hcanonical, hself, fun id hmem ↦ ?_, fun id hmem ↦ ?_⟩
    · exact (hids id).mpr (.inl ((h x.asker).kept id hmem))
    · rcases (hids id).mp hmem with hmine | ⟨htheirs, hid⟩
      · exact (h x.asker).gained id hmine
      · -- What the peer lists, somebody listed at the start.
        refine .inr ⟨hid, ?_⟩
        rcases (h x.peer).gained id htheirs with hstart | ⟨-, hvouched⟩
        · exact ⟨x.peer, hstart⟩
        · exact hvouched

/-- Every run of exchanges keeps the invariant. -/
theorem Gossiping.run (h : Gossiping start nodes) (ops : List (Exchange n)) :
    Gossiping start (run MyOwnMesh.exchange nodes ops) :=
  run_invariant (fun _ x h ↦ h.exchange x) h ops

/-- A node holds what another one listed at the start, apart from itself, and no tags. -/
structure Heard (start nodes : Fin n → EngineState P) (i j : Fin n) : Prop where
  rows : ∀ id ∈ (start j).roster.ids, id ≠ (start i).selfId → id ∈ (nodes i).roster.ids
  plain : untagged (nodes i).roster = (nodes i).roster

/-- An exchange makes the asker hear the peer. -/
private theorem heard_exchange (h : Gossiping start nodes) {x : Exchange n}
    (hne : x.asker ≠ x.peer) : Heard start (exchange nodes x) x.asker x.peer := by
  constructor
  · intro id hmem hid
    exact ((mem_ids_exchange h hne).2 id).mpr (.inr ⟨(h x.peer).kept id hmem, hid⟩)
  · rw [(exchange_asker h hne).2.2, untagged_untagged]

/-- What was heard stays. -/
private theorem Heard.exchange (h : Gossiping start nodes) {i j : Fin n}
    (hij : Heard start nodes i j) (x : Exchange n) : Heard start (exchange nodes x) i j := by
  by_cases hi : i ≠ x.asker ∨ x.asker = x.peer
  · have hsame := exchange_of_ne nodes hi
    refine ⟨fun id hmem hid ↦ ?_, ?_⟩
    · rw [hsame]
      exact hij.rows id hmem hid
    · rw [hsame]
      exact hij.plain
  · obtain ⟨rfl, hne⟩ : i = x.asker ∧ x.asker ≠ x.peer := by simpa using hi
    refine ⟨fun id hmem hid ↦ ?_, ?_⟩
    · exact ((mem_ids_exchange h hne).2 id).mpr (.inl (hij.rows id hmem hid))
    · rw [(exchange_asker h hne).2.2, untagged_untagged]

/-- Every node asked every other node. -/
def Complete (ops : List (Exchange n)) : Prop :=
  ∀ i j, i ≠ j → ∃ x ∈ ops, x.asker = i ∧ x.peer = j

/-- After a complete run every node has heard every other node. -/
theorem heard_run (h : Gossiping start start) {ops : List (Exchange n)} (hops : Complete ops)
    {i j : Fin n} (hij : i ≠ j) : Heard start (run exchange start ops) i j := by
  obtain ⟨x, hx, rfl, rfl⟩ := hops i j hij
  obtain ⟨before, after, rfl⟩ := List.append_of_mem hx
  have hreached := h.run before
  rw [run_append, run_cons]
  have hstep : ∀ nodes y, Gossiping start nodes ∧ Heard start nodes x.asker x.peer →
      Gossiping start (exchange nodes y) ∧ Heard start (exchange nodes y) x.asker x.peer :=
    fun _ y hy ↦ ⟨hy.1.exchange y, hy.2.exchange hy.1 y⟩
  exact (run_invariant hstep ⟨hreached.exchange x, heard_exchange hreached hij⟩ after).2

/-- The rows of a node after a complete run. -/
theorem mem_ids_run (h : Gossiping start start) {ops : List (Exchange n)} (hops : Complete ops)
    (i : Fin n) (id : String) :
    id ∈ (run exchange start ops i).roster.ids ↔
      id ∈ (start i).roster.ids ∨ (id ≠ (start i).selfId ∧ Vouched start id) := by
  constructor
  · exact (h.run ops i).gained id
  · rintro (hmem | ⟨hself, j, hmem⟩)
    · exact (h.run ops i).kept id hmem
    · by_cases hij : i = j
      · rw [hij]
        exact (h.run ops j).kept id hmem
      · exact (heard_run h hops hij).rows id hmem hself

/-- After a complete run one more exchange changes no roster. -/
private theorem roster_exchange_run (h : Gossiping start start) {ops : List (Exchange n)}
    (hops : Complete ops) (x : Exchange n) (i : Fin n) :
    (exchange (run exchange start ops) x i).roster = (run exchange start ops i).roster := by
  by_cases hi : i ≠ x.asker ∨ x.asker = x.peer
  · rw [exchange_of_ne _ hi]
  · obtain ⟨rfl, hne⟩ : i = x.asker ∧ x.asker ≠ x.peer := by simpa using hi
    have hreached := h.run ops
    rw [(exchange_asker hreached hne).2.2, foldl_mergeRosterEntry_known]
    · exact (heard_run h hops hne).plain
    · exact bare_rosterEntries (hreached x.peer).canonical
    · intro e he
      have hpeer : e.deviceId ∈ (run exchange start ops x.peer).roster.ids := by
        rw [← map_deviceId_rosterEntries]
        exact List.mem_map_of_mem he
      refine or_iff_not_imp_left.mpr fun hself ↦ ?_
      refine (mem_ids_run h hops x.asker _).mpr (.inr ⟨hself, ?_⟩)
      rcases (mem_ids_run h hops x.peer _).mp hpeer with hmem | ⟨-, hvouched⟩
      · exact ⟨x.peer, hmem⟩
      · exact hvouched

/-- After a complete run nothing more is learned. -/
theorem roster_run_complete (h : Gossiping start start) {ops : List (Exchange n)}
    (hops : Complete ops) (more : List (Exchange n)) (i : Fin n) :
    (run exchange (run exchange start ops) more i).roster = (run exchange start ops i).roster := by
  induction more using List.reverseRecOn with
  | nil => rfl
  | append_singleton rest x ih =>
    have hlonger : Complete (ops ++ rest) := by
      intro i j hij
      obtain ⟨y, hy, hends⟩ := hops i j hij
      exact ⟨y, by simp [hy], hends⟩
    rw [run_append, run_cons, run_nil, ← run_append, roster_exchange_run h hlonger, run_append, ih]

/-- Gossip came to rest: whatever is exchanged, no roster changes, all nodes advertise one root,
and nobody asks for a roster. -/
structure Settled (nodes : Fin n → EngineState P) : Prop where
  still : ∀ more i, (run exchange nodes more i).roster = (nodes i).roster
  roots : ∀ i j, membershipRoot P (nodes i).roster = membershipRoot P (nodes j).roster
  summaries : ∀ i j, onRosterSummary (nodes i) (membershipRoot P (nodes j).roster) = false
  broadcasts : ∀ i j, Quiet (nodes i) (nodes j)

/-- After a complete run only the roots are open. -/
private theorem settled_iff (h : Gossiping start start) {ops : List (Exchange n)}
    (hops : Complete ops) :
    Settled (run exchange start ops) ↔
      ∀ i j, membershipRoot P (run exchange start ops i).roster =
        membershipRoot P (run exchange start ops j).roster := by
  refine ⟨Settled.roots, fun hroots ↦ ⟨roster_run_complete h hops, hroots, ?_, ?_⟩⟩
  · intro i j
    simp [onRosterSummary, hroots i j]
  · intro i j
    rw [quiet_iff, (h.run ops i).openNode.transitions, (h.run ops j).openNode.transitions,
      (h.run ops i).openNode.memberLog, (h.run ops j).openNode.memberLog]
    exact ⟨hroots i j, rfl, rfl⟩

/-! ### The texts behind the roots -/

/-- Rosters of the same ids have one text. -/
private theorem membershipText_of_ids {a b : Roster} (ha : a.Canonical) (hb : b.Canonical)
    (h : ∀ id, id ∈ a.ids ↔ id ∈ b.ids) : membershipText a = membershipText b := by
  have hperm := (List.perm_ext_iff_of_nodup ha.distinct hb.distinct).mpr h
  rw [membershipText, membershipText, Text.sortStrings_of_perm hperm]

private def pieces (id : String) : List (List Char) := id.toList.splitOn '|'

/-- Rosters of one text list the same pieces between bars. -/
private theorem perm_pieces {a b : Roster} (h : membershipText a = membershipText b) :
    (a.ids.flatMap pieces).Perm (b.ids.flatMap pieces) := by
  have htext : ∀ r : Roster, (membershipText r).toList = (rosterMerkleV ++ "|membership").toList ++
      ((Text.sortStrings r.ids).map String.toList).flatMap (· ++ ['|']) := by
    intro r
    rw [membershipText, String.toList_append, String.toList_join, List.flatMap_map,
      List.flatMap_map]
    congr 2
    funext id
    simp
  have hcut : ∀ r : Roster, (((Text.sortStrings r.ids).map String.toList).flatMap
      (· ++ ['|'])).splitOn '|' = (Text.sortStrings r.ids).flatMap pieces ++ [[]] := by
    intro r
    rw [Delimited.splitOn_closed, List.flatMap_map]
    rfl
  have hsorted : ∀ r : Roster, ((Text.sortStrings r.ids).flatMap pieces).Perm
      (r.ids.flatMap pieces) := fun r ↦ (List.perm_insertionSort _ r.ids).flatMap_right pieces
  have hchars := congrArg String.toList h
  rw [htext, htext] at hchars
  have hsame := congrArg (List.splitOn '|') (List.append_cancel_left hchars)
  rw [hcut, hcut] at hsame
  have heq := List.append_cancel_right hsame
  exact ((hsorted a).symm.trans (by rw [heq])).trans (hsorted b)

/-- A text with one id more is another text. -/
private theorem membershipText_ne_of_cons {a b : Roster} {x : String}
    (h : a.ids.Perm (x :: b.ids)) : membershipText a ≠ membershipText b := by
  intro htext
  have hperm := (h.flatMap_right pieces).symm.trans (perm_pieces htext)
  have hlen := hperm.length_eq
  have hpos : 0 < (pieces x).length := List.length_pos_of_ne_nil (List.splitOn_ne_nil _ _)
  rw [List.flatMap_cons, List.length_append] at hlen
  omega

/-- Texts that differ in one id without bars are equal for equal ids only. -/
private theorem eq_of_membershipText_eq {a b : Roster} {x y : String} {rest : List String}
    (hx : '|' ∉ x.toList) (hy : '|' ∉ y.toList) (ha : a.ids.Perm (x :: rest))
    (hb : b.ids.Perm (y :: rest)) (h : membershipText a = membershipText b) : x = y := by
  have hperm := ((ha.flatMap_right pieces).symm.trans (perm_pieces h)).trans
    (hb.flatMap_right pieces)
  rw [List.flatMap_cons, List.flatMap_cons, pieces, pieces, List.splitOn_eq_singleton hx,
    List.splitOn_eq_singleton hy, List.perm_append_right_iff, List.singleton_perm_singleton]
    at hperm
  exact String.toList_inj.mp hperm

private theorem bar_notMem_selfId (s : EngineState P) : '|' ∉ s.selfId.toList := fun h ↦
  absurd (isAlphanum_publicId P s.signingKey h) (by decide)

/-! ### When gossip comes to rest -/

/-- A run in which every node asks every other node. -/
private theorem exists_complete (n : Nat) : ∃ ops : List (Exchange n), Complete ops := by
  refine ⟨(List.finRange n).flatMap fun i ↦ (List.finRange n).map fun j ↦ ⟨i, j, clearEnv 0 ""⟩,
    fun i j _ ↦ ⟨⟨i, j, clearEnv 0 ""⟩, ?_, rfl, rfl⟩⟩
  simp

/-- A node that another one lists, and that does not list itself, never advertises the root of
the other. -/
private theorem membershipText_ne_run (h : Gossiping start start) {ops : List (Exchange n)}
    (hops : Complete ops) {i j : Fin n} (hj : (start i).selfId ∈ (start j).roster.ids)
    (hi : (start i).selfId ∉ (start i).roster.ids) :
    membershipText (run exchange start ops j).roster ≠
      membershipText (run exchange start ops i).roster := by
  have hnodup : ∀ k, (run exchange start ops k).roster.ids.Nodup := fun k ↦
    (h.run ops k).canonical.distinct
  have hmem := mem_ids_run h hops
  have hlacks : (start i).selfId ∉ (run exchange start ops i).roster.ids := by
    rw [hmem]
    rintro (hown | ⟨hne, -⟩)
    · exact hi hown
    · exact hne rfl
  by_cases hself : (start j).selfId ∈ (run exchange start ops i).roster.ids ∧
      (start j).selfId ∉ (start j).roster.ids
  · -- Neither lists itself: the two rosters differ in these two ids.
    intro htext
    have hij : (start i).selfId ≠ (start j).selfId := fun heq ↦ hself.2 (heq ▸ hj)
    have hrest := List.perm_cons_erase hself.1
    refine hij (eq_of_membershipText_eq (bar_notMem_selfId (start i)) (bar_notMem_selfId (start j))
      ?_ hrest htext)
    rw [List.perm_ext_iff_of_nodup (hnodup j)]
    · intro id
      rw [List.mem_cons, (hnodup i).mem_erase_iff, hmem, hmem]
      by_cases hid : id = (start i).selfId
      · simp [hid, hj]
      · constructor
        · rintro (hown | ⟨hne, hvouched⟩)
          · exact .inr ⟨fun heq ↦ hself.2 (heq ▸ hown), .inr ⟨hid, j, hown⟩⟩
          · exact .inr ⟨hne, .inr ⟨hid, hvouched⟩⟩
        · rintro (heq | ⟨hne, hown | ⟨-, hvouched⟩⟩)
          · exact absurd heq hid
          · exact .inr ⟨hne, i, hown⟩
          · exact .inr ⟨hne, hvouched⟩
    · exact List.nodup_cons.mpr ⟨fun hin ↦ hlacks (List.mem_of_mem_erase hin),
        (hnodup i).erase _⟩
  · -- The other node misses nothing: it lists one id more.
    refine membershipText_ne_of_cons (x := (start i).selfId) ?_
    rw [List.perm_ext_iff_of_nodup (hnodup j) (List.nodup_cons.mpr ⟨hlacks, hnodup i⟩)]
    intro id
    rw [List.mem_cons, hmem j]
    by_cases hid : id = (start i).selfId
    · simp [hid, hj]
    · constructor
      · rintro (hown | ⟨-, hvouched⟩)
        · exact .inr ((hmem i id).mpr (.inr ⟨hid, j, hown⟩))
        · exact .inr ((hmem i id).mpr (.inr ⟨hid, hvouched⟩))
      · rintro (heq | hin)
        · exact absurd heq hid
        · by_cases heq : id = (start j).selfId
          · rw [heq] at hin ⊢
            exact .inl (not_not.mp fun hown ↦ hself ⟨hin, hown⟩)
          · refine .inr ⟨heq, ?_⟩
            rcases (hmem i id).mp hin with hown | ⟨-, hvouched⟩
            · exact ⟨i, hown⟩
            · exact hvouched

/-- When every listed node lists itself, all rosters end up with the same ids. -/
private theorem membershipText_eq_run (h : Gossiping start start) {ops : List (Exchange n)}
    (hops : Complete ops)
    (hself : ∀ i, Vouched start (start i).selfId → (start i).selfId ∈ (start i).roster.ids)
    (i j : Fin n) :
    membershipText (run exchange start ops i).roster =
      membershipText (run exchange start ops j).roster := by
  have hall : ∀ k id, id ∈ (run exchange start ops k).roster.ids ↔ Vouched start id := by
    intro k id
    rw [mem_ids_run h hops]
    constructor
    · rintro (hown | ⟨-, hvouched⟩)
      · exact ⟨k, hown⟩
      · exact hvouched
    · intro hvouched
      by_cases hid : id = (start k).selfId
      · rw [hid] at hvouched ⊢
        exact .inl (hself k hvouched)
      · exact .inr ⟨hid, hvouched⟩
  exact membershipText_of_ids (h.run ops i).canonical (h.run ops j).canonical fun id ↦
    (hall i id).trans (hall j id).symm

/-- Gossip on an open network comes to rest after every complete run exactly when each node that
some roster lists is in its own roster too. -/
theorem gossip_settles_iff (hopen : ∀ i, OpenNode (start i))
    (hrows : ∀ i, (start i).roster.Canonical)
    (hsha : ∀ ops i j, P.sha256 (Text.utf8 (membershipText (run exchange start ops i).roster)) =
        P.sha256 (Text.utf8 (membershipText (run exchange start ops j).roster)) →
      membershipText (run exchange start ops i).roster =
        membershipText (run exchange start ops j).roster) :
    (∀ ops, Complete ops → Settled (run exchange start ops)) ↔
      ∀ i j, (start i).selfId ∈ (start j).roster.ids →
        (start i).selfId ∈ (start i).roster.ids := by
  have h := Gossiping.refl hopen hrows
  constructor
  · intro hsettles i j hj
    obtain ⟨ops, hops⟩ := exists_complete n
    by_contra hi
    have hroot := (hsettles ops hops).roots j i
    rw [membershipRoot_eq_iff (hsha ops j i)] at hroot
    exact membershipText_ne_run h hops hj hi hroot
  · intro hself ops hops
    rw [settled_iff h hops]
    have hown : ∀ k, Vouched start (start k).selfId →
        (start k).selfId ∈ (start k).roster.ids := by
      rintro k ⟨l, hl⟩
      exact hself k l hl
    intro i j
    rw [membershipRoot, membershipRoot, membershipText_eq_run h hops hown i j]

end Runs

/-! ### Concrete networks -/

/-- A node of the open network `fleet` whose roster lists the devices of some seeds. -/
def openFleet (seed : UInt8) (listed : List UInt8) : EngineState seeded :=
  .start "fleet" seed "" ⟨1, "fleet", listed.map fun x ↦ ⟨seededDevice x, "", 0, .member⟩⟩ .fullMesh

/-- Two nodes that approved each other. -/
def approvedPair : Fin 2 → EngineState seeded
  | 0 => openFleet 1 [2]
  | 1 => openFleet 2 [1]

/-- Two nodes that list both of them. -/
def listedPair : Fin 2 → EngineState seeded
  | 0 => openFleet 1 [1, 2]
  | 1 => openFleet 2 [1, 2]

/-- Each of two nodes asks the other. -/
def bothWays : List (Exchange 2) := [⟨0, 1, clearEnv 0 ""⟩, ⟨1, 0, clearEnv 0 ""⟩]

private theorem complete_bothWays : Complete bothWays := by
  intro i j hij
  have hcases : (i = 0 ∧ j = 1) ∨ (i = 1 ∧ j = 0) := by omega
  rcases hcases with ⟨rfl, rfl⟩ | ⟨rfl, rfl⟩
  · exact ⟨⟨0, 1, clearEnv 0 ""⟩, by simp [bothWays], rfl, rfl⟩
  · exact ⟨⟨1, 0, clearEnv 0 ""⟩, by simp [bothWays], rfl, rfl⟩

private theorem openNode_openFleet (seed : UInt8) (listed : List UInt8) :
    OpenNode (openFleet seed listed) := ⟨rfl, rfl, rfl⟩

private theorem ids_openFleet (seed : UInt8) (listed : List UInt8) :
    (openFleet seed listed).roster.ids = listed.map seededDevice := by
  simp [openFleet, EngineState.start, Roster.ids, Function.comp_def]

private theorem canonical_openFleet (seed : UInt8) {listed : List UInt8} (h : listed.Nodup) :
    (openFleet seed listed).roster.Canonical := by
  constructor
  · show (openFleet seed listed).roster.ids.Nodup
    rw [ids_openFleet]
    exact h.map fun a b hab ↦ (seededDevice_inj a b).mp hab
  · intro id hid
    rw [ids_openFleet] at hid
    obtain ⟨x, -, rfl⟩ := List.mem_map.mp hid
    exact pubkeyPart_publicId seeded x

private theorem gossiping_approvedPair : Gossiping approvedPair approvedPair := by
  refine Gossiping.refl (Fin.forall_fin_two.mpr ?_) (Fin.forall_fin_two.mpr ?_)
  · exact ⟨openNode_openFleet 1 [2], openNode_openFleet 2 [1]⟩
  · exact ⟨canonical_openFleet 1 (List.nodup_singleton 2),
      canonical_openFleet 2 (List.nodup_singleton 1)⟩

private theorem gossiping_listedPair : Gossiping listedPair listedPair := by
  refine Gossiping.refl (Fin.forall_fin_two.mpr ?_) (Fin.forall_fin_two.mpr ?_)
  · exact ⟨openNode_openFleet 1 [1, 2], openNode_openFleet 2 [1, 2]⟩
  · exact ⟨canonical_openFleet 1 (by decide), canonical_openFleet 2 (by decide)⟩

private theorem ids_listedPair (i : Fin 2) :
    (listedPair i).roster.ids = [seededDevice 1, seededDevice 2] := by
  revert i
  exact Fin.forall_fin_two.mpr ⟨ids_openFleet 1 [1, 2], ids_openFleet 2 [1, 2]⟩

/-- Where all list the same devices, no exchange changes what is hashed. -/
private theorem membershipText_listedPair (ops : List (Exchange 2)) (i j : Fin 2) :
    membershipText (run exchange listedPair ops i).roster =
      membershipText (run exchange listedPair ops j).roster := by
  have h := gossiping_listedPair.run ops
  have hall : ∀ k id, id ∈ (run exchange listedPair ops k).roster.ids ↔
      id ∈ [seededDevice 1, seededDevice 2] := by
    intro k id
    constructor
    · intro hid
      rcases (h k).gained id hid with hown | ⟨-, l, hl⟩
      · rwa [ids_listedPair] at hown
      · rwa [ids_listedPair] at hl
    · intro hid
      exact (h k).kept id (by rwa [ids_listedPair])
  exact membershipText_of_ids (h i).canonical (h j).canonical fun id ↦
    (hall i id).trans (hall j id).symm

/-- Two nodes that list both of them come to rest. -/
theorem listed_pair_settles : Settled (run exchange listedPair bothWays) := by
  refine (gossip_settles_iff (fun i ↦ (gossiping_listedPair i).openNode)
    (fun i ↦ (gossiping_listedPair i).canonical)
    fun ops i j _ ↦ membershipText_listedPair ops i j).mpr ?_ bothWays complete_bothWays
  intro i j hj
  rw [ids_listedPair] at hj ⊢
  exact hj

/-- A node that approved the other learns of nobody but itself. -/
private theorem mem_ids_approvedPair (i : Fin 2) {id : String}
    (hself : id ≠ (approvedPair i).selfId) (h : Vouched approvedPair id) :
    id ∈ (approvedPair i).roster.ids := by
  have hids0 : (approvedPair 0).roster.ids = [seededDevice 2] := ids_openFleet 1 [2]
  have hids1 : (approvedPair 1).roster.ids = [seededDevice 1] := ids_openFleet 2 [1]
  have hself0 : (approvedPair 0).selfId = seededDevice 1 := rfl
  have hself1 : (approvedPair 1).selfId = seededDevice 2 := rfl
  have hlisted : id = seededDevice 1 ∨ id = seededDevice 2 := by
    rw [Vouched, Fin.exists_fin_two, hids0, hids1, List.mem_singleton, List.mem_singleton] at h
    exact h.symm
  revert i
  refine Fin.forall_fin_two.mpr ⟨fun hself ↦ ?_, fun hself ↦ ?_⟩
  · rw [hids0, List.mem_singleton]
    exact hlisted.resolve_left (hself0 ▸ hself)
  · rw [hids1, List.mem_singleton]
    exact hlisted.resolve_right (hself1 ▸ hself)

/-- Two nodes that approved each other exchange their rosters. Each then has what it had, its root
differs from the other's, and each asks for the other's roster again. -/
theorem approved_pair_never_settles :
    (∀ i, OpenNode (approvedPair i)) ∧ (∀ i, (approvedPair i).roster.Canonical) ∧
      Complete bothWays ∧
      onRosterSummary (run exchange approvedPair bothWays 0)
        (membershipRoot seeded (run exchange approvedPair bothWays 1).roster) = true ∧
      onRosterSummary (run exchange approvedPair bothWays 1)
        (membershipRoot seeded (run exchange approvedPair bothWays 0).roster) = true ∧
      ¬ Settled (run exchange approvedPair bothWays) := by
  have h := gossiping_approvedPair
  have hsame : ∀ i, membershipRoot seeded (run exchange approvedPair bothWays i).roster =
      membershipRoot seeded (approvedPair i).roster := by
    intro i
    have htext := membershipText_of_ids (h.run bothWays i).canonical (h i).canonical fun id ↦ by
      rw [mem_ids_run h complete_bothWays, or_iff_left_iff_imp]
      exact fun ⟨hself, hvouched⟩ ↦ mem_ids_approvedPair i hself hvouched
    rw [membershipRoot, membershipRoot, htext]
  have hdiffer : membershipRoot seeded (approvedPair 0).roster ≠
      membershipRoot seeded (approvedPair 1).roster := by decide +kernel
  refine ⟨fun i ↦ (h i).openNode, fun i ↦ (h i).canonical, complete_bothWays, ?_, ?_, ?_⟩
  · rw [onRosterSummary, hsame, hsame]
    exact bne_iff_ne.mpr hdiffer
  · rw [onRosterSummary, hsame, hsame]
    exact bne_iff_ne.mpr hdiffer.symm
  · intro hsettled
    have hroots := hsettled.roots 0 1
    rw [hsame, hsame] at hroots
    exact hdiffer hroots

end MyOwnMesh
