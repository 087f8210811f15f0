import Mathlib.Data.Finset.Lattice.Basic
import MyOwnMesh.Lib.Firsts
import MyOwnMesh.SignalingServer.Takeover

/-!
# What a subscriber is shown

A `REQ` is answered with the matching stored events and the announces of the live members, once per
id, of which the last `maxReplayPerReq` are sent. An announce that is still stored stands where it
was stored: with enough stored events behind it, it is cut off though its member is live.
-/

namespace MyOwnMesh.SignalingServer

open Lib.Firsts

variable {X : Externals} {s : Hub X} {id : Nat} {arr filters : List Value} {announce : NostrEvent}

/-! ### What a request asks for -/

/-- The filters of a request that are kept. -/
def Hub.reqFilters (s : Hub X) (arr : List Value) : List Value :=
  if 0 < s.limits.maxFiltersPerReq then (arr.drop 2).take s.limits.maxFiltersPerReq
  else arr.drop 2

/-- The subscription that a request opens, if it names one, its connection is registered, and the
ceiling on subscriptions is not reached. -/
def Hub.subscribes (s : Hub X) (id : Nat) (arr : List Value) : Option String := do
  let subid ← arr[1]?.bind Value.asStr
  let conn ← s.conns.lookup id
  if 0 < s.limits.maxSubscriptions ∧ subid ∉ conn.subs ∧
      s.limits.maxSubscriptions ≤ conn.subs.entries.length then none
  else some subid

/-- The announces of the live members. -/
def Hub.liveAnnounces (s : Hub X) : List NostrEvent :=
  s.presence.entries.flatMap fun room ↦ room.2.entries.map fun p ↦ p.2.announce

/-- The stored events and the live announces that filters match, in the order they are met. -/
def Hub.candidates (s : Hub X) (filters : List Value) : List NostrEvent :=
  (s.stored.map StoredEvent.event ++ s.liveAnnounces).filter (matchesAny filters)

/-! ### What is replayed -/

/-- The last of the first candidates of each id are replayed. -/
theorem replay_eq (s : Hub X) (filters : List Value) :
    s.replay filters = (firsts NostrEvent.id (s.candidates filters)).drop
      ((firsts NostrEvent.id (s.candidates filters)).length - maxReplayPerReq) := by
  have hstep : ∀ (kept : List NostrEvent) (ev : NostrEvent), replayStep filters kept ev =
      if matchesAny filters ev = true then firstsStep NostrEvent.id kept ev else kept := by
    intro kept ev
    unfold replayStep firstsStep
    by_cases hmatch : matchesAny filters ev = true
    · by_cases hmet : kept.any (·.id == ev.id) = true
      · rw [if_neg (fun h ↦ h.2 hmet), if_pos hmatch, if_pos hmet]
      · rw [if_pos ⟨hmatch, hmet⟩, if_pos hmatch, if_neg hmet]
    · rw [if_neg (fun h ↦ hmatch h.1), if_neg hmatch]
  have hfold : (s.stored.map StoredEvent.event ++ s.liveAnnounces).foldl (replayStep filters) [] =
      firsts NostrEvent.id (s.candidates filters) := by
    rw [firsts, Hub.candidates, List.foldl_filter]
    exact congrArg (fun f ↦ List.foldl f [] _) (funext₂ hstep)
  unfold Hub.replay
  simp only
  rw [← hfold]
  rfl

/-- A request that opens a subscription is answered with the replay and the end of it. -/
theorem handleReq_of_subscribes {subid : String} (h : s.subscribes id arr = some subid) :
    (s.handleReq id arr).2 =
      (s.replay (s.reqFilters arr)).map (fun ev ↦ (id, .event subid ev.toValue)) ++
        [(id, .eose subid)] := by
  unfold Hub.subscribes at h
  obtain ⟨subid', hsubid, h⟩ := Option.bind_eq_some_iff.mp h
  obtain ⟨conn, hconn, h⟩ := Option.bind_eq_some_iff.mp h
  split at h
  · exact absurd h (by simp)
  · next hceiling =>
    obtain rfl := Option.some.inj h
    unfold Hub.handleReq
    rw [hsubid]
    simp only
    rw [hconn]
    simp only
    rw [if_neg hceiling]
    rfl

/-- A request that opens none is shown nothing. -/
theorem handleReq_of_refused (h : s.subscribes id arr = none) {frame : Nat × Frame}
    (hframe : frame ∈ (s.handleReq id arr).2) :
    ∃ subid, frame = (id, .closed subid "rate-limited: too many subscriptions") := by
  unfold Hub.handleReq at hframe
  split at hframe
  · exact absurd hframe List.not_mem_nil
  · next subid hsubid =>
    simp only at hframe
    split at hframe
    · exact absurd hframe List.not_mem_nil
    · next conn hconn =>
      split at hframe
      · exact ⟨subid, List.mem_singleton.mp hframe⟩
      · next hceiling =>
        have hsome : s.subscribes id arr = some subid := by
          unfold Hub.subscribes
          rw [hsubid, Option.bind_eq_bind, Option.bind_some, hconn, Option.bind_eq_bind,
            Option.bind_some, if_neg hceiling]
        exact absurd (h.symm.trans hsome) (by simp)

/-- An event can be read back from the value it is sent as. -/
theorem toValue_injective {ev ev' : NostrEvent} (h : ev.toValue = ev'.toValue) : ev = ev' := by
  have harray : Function.Injective fun t : List String ↦ Value.array (t.map .string) := by
    intro t t' heq
    exact List.map_injective_iff.mpr (fun _ _ hstring ↦ Value.string.inj hstring)
      (Value.array.inj heq)
  obtain ⟨i, p, c, k, t, m, g⟩ := ev
  obtain ⟨i', p', c', k', t', m', g'⟩ := ev'
  simp only [NostrEvent.toValue, Value.object.injEq, List.cons.injEq, Prod.mk.injEq, true_and,
    Value.string.injEq, Value.posInt.injEq, Value.array.injEq, and_true, UInt16.toUInt64_inj] at h
  obtain ⟨rfl, rfl, rfl, rfl, htags, rfl, rfl⟩ := h
  rw [List.map_injective_iff.mpr harray htags]

/-! ### Live members -/

/-- The id of the event that a frame shows. -/
def Frame.eventId : Frame → Option String
  | .event _ value => (value.get? "id").bind Value.asStr
  | _ => none

/-- A request is answered as a subscriber needs it: the announce of every live member that the
filters match is shown before the end of the replay, and no event is shown twice. -/
structure ShowsLive (s : Hub X) (id : Nat) (arr : List Value) : Prop where
  shown : ∀ room device p, s.presenceAt room device = some p →
    matchesAny (arr.drop 2) p.announce = true →
    ∃ subid before after, arr[1]?.bind Value.asStr = some subid ∧
      (s.handleReq id arr).2 = before ++ (id, .eose subid) :: after ∧
      (id, .event subid p.announce.toValue) ∈ before
  once : ((s.handleReq id arr).2.filterMap fun frame ↦ frame.2.eventId).Nodup

/-- An announce is in reach of a request: a subscription is opened, and the announce is the first
candidate with its id, with no more than `maxReplayPerReq` ids from it on. -/
def Hub.InReach (s : Hub X) (id : Nat) (arr : List Value) (announce : NostrEvent) : Prop :=
  s.subscribes id arr ≠ none ∧
    ∃ before after, s.candidates (s.reqFilters arr) = before ++ announce :: after ∧
      announce.id ∉ before.map NostrEvent.id ∧
      ((s.candidates (s.reqFilters arr)).map NostrEvent.id).toFinset.card ≤
        maxReplayPerReq + (before.map NostrEvent.id).toFinset.card

/-- An event is replayed when it is in reach. -/
theorem mem_replay_iff {ev : NostrEvent} :
    ev ∈ s.replay filters ↔ ∃ before after, s.candidates filters = before ++ ev :: after ∧
      ev.id ∉ before.map NostrEvent.id ∧
      ((s.candidates filters).map NostrEvent.id).toFinset.card ≤
        maxReplayPerReq + (before.map NostrEvent.id).toFinset.card := by
  rw [replay_eq, mem_drop_firsts_iff]

/-- No event is shown twice. -/
theorem shown_once (s : Hub X) (id : Nat) (arr : List Value) :
    ((s.handleReq id arr).2.filterMap fun frame ↦ frame.2.eventId).Nodup := by
  cases hsub : s.subscribes id arr with
  | none =>
    have hnone : (s.handleReq id arr).2.filterMap (fun frame ↦ frame.2.eventId) = [] := by
      rw [List.filterMap_eq_nil_iff]
      intro frame hframe
      obtain ⟨subid, rfl⟩ := handleReq_of_refused hsub hframe
      rfl
    rw [hnone]
    exact List.nodup_nil
  | some subid =>
    have hids : ∀ evs : List NostrEvent,
        (evs.map (fun ev ↦ (id, Frame.event subid (NostrEvent.toValue ev))) ++
          [(id, Frame.eose subid)]).filterMap (fun frame ↦ frame.2.eventId) =
        evs.map NostrEvent.id := by
      intro evs
      induction evs with
      | nil => rfl
      | cons ev evs ih => exact congrArg (ev.id :: ·) ih
    rw [handleReq_of_subscribes hsub, hids, replay_eq, List.map_drop]
    exact (nodup_keys_firsts NostrEvent.id _).sublist (List.drop_sublist _ _)

/-- An announce is shown before the end of the replay when it is in reach. -/
theorem shown_iff_inReach :
    (∃ subid before after, arr[1]?.bind Value.asStr = some subid ∧
      (s.handleReq id arr).2 = before ++ (id, .eose subid) :: after ∧
      (id, .event subid announce.toValue) ∈ before) ↔ s.InReach id arr announce := by
  constructor
  · rintro ⟨subid, before, after, -, hsent, hmem⟩
    have hall : (id, .event subid announce.toValue) ∈ (s.handleReq id arr).2 :=
      hsent ▸ List.mem_append_left _ hmem
    cases hsub : s.subscribes id arr with
    | none =>
      obtain ⟨_, hclosed⟩ := handleReq_of_refused hsub hall
      simp at hclosed
    | some subid' =>
      rw [handleReq_of_subscribes hsub] at hall
      rcases List.mem_append.mp hall with hev | heose
      · obtain ⟨ev, hev, heq⟩ := List.mem_map.mp hev
        obtain ⟨-, hvalue⟩ := Frame.event.inj (Prod.mk.inj heq).2
        have hreach := mem_replay_iff.mp hev
        rw [toValue_injective hvalue] at hreach
        exact ⟨by simp [hsub], hreach⟩
      · simp at heose
  · rintro ⟨hsub, hreach⟩
    obtain ⟨subid, hsub⟩ := Option.ne_none_iff_exists'.mp hsub
    refine ⟨subid, _, [], ?_, handleReq_of_subscribes hsub, ?_⟩
    · obtain ⟨subid', hsubid, hrest⟩ := Option.bind_eq_some_iff.mp hsub
      obtain ⟨conn, -, hceiling⟩ := Option.bind_eq_some_iff.mp hrest
      split at hceiling
      · exact absurd hceiling (by simp)
      · exact hsubid.trans hceiling
    · exact List.mem_map.mpr ⟨announce, mem_replay_iff.mpr hreach, rfl⟩

/-- A request is answered as a subscriber needs it exactly when the announce of every live member
that the filters match is in reach. -/
theorem every_live_member_shown_iff (s : Hub X) (id : Nat) (arr : List Value) :
    ShowsLive s id arr ↔ ∀ room device p, s.presenceAt room device = some p →
      matchesAny (arr.drop 2) p.announce = true → s.InReach id arr p.announce := by
  constructor
  · intro h room device p hp hmatch
    exact shown_iff_inReach.mp (h.shown room device p hp hmatch)
  · intro h
    refine ⟨fun room device p hp hmatch ↦ ?_, shown_once s id arr⟩
    exact shown_iff_inReach.mpr (h room device p hp hmatch)

/-- An event of a room. -/
def roomEvent (name : String) : NostrEvent :=
  { id := name, pubkey := "key", createdAt := 7, kind := 1077, tags := [["r", "room"]]
    content := "", sig := "" }

/-- The ids of the stored events, of which the first is the announce's. -/
def storedName (k : Nat) : String := String.ofList (List.replicate k 'a')

/-- A member announced itself, and then five hundred other events were stored. -/
def agedRelay (X : Externals) : Hub X :=
  let conn : ConnEntry X :=
    { subs := ∅, ip := .v4 1, present := [("room", "dev")], eventBucket := X.newBucket 0 0
      reqBucket := X.newBucket 0 0, strikes := 0 }
  { nextId := 2
    conns := AList.singleton 1 conn
    stored := (List.range 501).map fun k ↦ ⟨0, roomEvent (storedName k)⟩
    presence := AList.singleton "room" (AList.singleton "dev" ⟨1, roomEvent (storedName 0)⟩)
    ipCounts := ∅
    limits := {} }

/-- The request of a subscriber to everything. -/
def requestAll : List Value := [.string "REQ", .string "s", .object []]

theorem storedName_injective : Function.Injective storedName := by
  intro k k' heq
  simpa [storedName] using congrArg String.length heq

theorem agedRelay_ids (X : Externals) :
    ((agedRelay X).candidates ((agedRelay X).reqFilters requestAll)).map NostrEvent.id =
      (List.range 501).map storedName ++ [storedName 0] := by
  have hmatch : ∀ ev, matchesAny ((agedRelay X).reqFilters requestAll) ev = true := fun ev ↦ rfl
  have hstored : (agedRelay X).stored.map (NostrEvent.id ∘ StoredEvent.event) =
      (List.range 501).map storedName := by
    rw [agedRelay, List.map_map]
    rfl
  rw [Hub.candidates, List.filter_eq_self.mpr fun ev _ ↦ hmatch ev, List.map_append,
    List.map_map, hstored]
  rfl

/-- A subscriber whose filters match one live announce is not shown it when five hundred events are
stored behind it. -/
theorem live_member_cut_off : ¬∀ (X : Externals) (s : Hub X) (id : Nat) (arr : List Value),
    (s.liveAnnounces.filter (matchesAny (arr.drop 2))).length ≤ maxReplayPerReq →
      ShowsLive s id arr := by
  intro hall
  have hshown := hall readable (agedRelay readable) 1 requestAll (by decide)
  have hlive : (agedRelay readable).presenceAt "room" "dev" =
      some ⟨1, roomEvent (storedName 0)⟩ := rfl
  obtain ⟨-, before, after, hsplit, hfirst, hcard⟩ :=
    shown_iff_inReach.mp (hshown.shown "room" "dev" _ hlive rfl)
  rw [agedRelay_ids] at hcard
  have hids := congrArg (List.map NostrEvent.id) hsplit
  rw [agedRelay_ids, List.range_succ_eq_map] at hids
  -- the announce is the first candidate, and there are five hundred and one ids
  have hbefore : before = [] := by
    cases before with
    | nil => rfl
    | cons ev before =>
      have hhead : storedName 0 = ev.id := (List.cons.inj hids).1
      exact absurd (hhead ▸ List.mem_cons_self) hfirst
  have hstored : ((List.range 501).map storedName).toFinset.card = 501 := by
    rw [List.toFinset_card_of_nodup (List.nodup_range.map storedName_injective), List.length_map,
      List.length_range]
  have hsubset : ((List.range 501).map storedName).toFinset.card ≤
      ((List.range 501).map storedName ++ [storedName 0]).toFinset.card := by
    rw [List.toFinset_append]
    exact Finset.card_le_card Finset.subset_union_left
  rw [hstored] at hsubset
  have hcut : 501 ≤ maxReplayPerReq + 0 :=
    Nat.le_trans hsubset (by simpa only [hbefore, List.map_nil, List.toFinset_nil,
      Finset.card_empty] using hcard)
  exact absurd hcut (by decide)

end MyOwnMesh.SignalingServer
