import MyOwnMesh.Nostr.Readings

/-!
# What a narrowed subscription hears

The builders of events, the builder of filters and the relay's matcher are three pieces of code
that must agree on tags. The filter that catches untagged events is kept by a vote: every
announce votes for its device, and a departure takes the vote away. Each relay has a task of its
own that casts the votes it hears, counts all votes and publishes what it counted, the votes
unlocked in between; a task that is slow to publish overrules those that counted after it.
-/

namespace MyOwnMesh.Nostr

open Lib SignalingServer

/-! ### Single constraints -/

/-- An event has a tag with this name and value. -/
def Tagged (ev : NostrEvent) (name value : String) : Prop :=
  ∃ rest, (name :: value :: rest) ∈ ev.tags

private theorem kindHolds_iff {ev : NostrEvent} {kind : UInt16} :
    constraintHolds ev "kinds" (.array [.posInt kind.toUInt64]) = true ↔ ev.kind = kind := by
  have hinj : kind.toUInt64 = ev.kind.toUInt64 ↔ ev.kind = kind := by
    rw [← UInt64.toNat_inj, ← UInt16.toNat_inj]
    simp only [UInt16.toNat_toUInt64]
    exact eq_comm
  simp [constraintHolds, Value.asU64, hinj]

private theorem sinceHolds_iff {ev : NostrEvent} {since : UInt64} :
    constraintHolds ev "since" (.posInt since) = true ↔ since ≤ ev.createdAt := by
  simp [constraintHolds, Value.asU64]

private theorem strListContains_iff {items : List String} {needle : String} :
    strListContains (.array (items.map .string)) needle = true ↔ needle ∈ items := by
  simp [strListContains, Value.asStr]

/-- A tag constraint asks for a tag of its name with one of the values. -/
private theorem tagHolds_iff (items : List String) {ev : NostrEvent} {key name : String}
    (hkey : constraintHolds ev key (.array (items.map .string)) =
      ev.tags.any fun t ↦
        match t with
        | n :: value :: _ => n == name && strListContains (.array (items.map .string)) value
        | _ => false) :
    constraintHolds ev key (.array (items.map .string)) = true ↔
      ∃ value ∈ items, Tagged ev name value := by
  rw [hkey, List.any_eq_true]
  constructor
  · rintro ⟨t, ht, hmatch⟩
    split at hmatch
    · rw [Bool.and_eq_true, beq_iff_eq, strListContains_iff] at hmatch
      exact ⟨_, hmatch.2, _, hmatch.1 ▸ ht⟩
    · cases hmatch
  · rintro ⟨value, hvalue, rest, ht⟩
    refine ⟨_, ht, ?_⟩
    simp only [beq_self_eq_true, Bool.true_and]
    exact strListContains_iff.mpr hvalue

private theorem rHolds_iff {ev : NostrEvent} {room : String} :
    constraintHolds ev "#r" (.array [.string room]) = true ↔ Tagged ev "r" room := by
  refine (tagHolds_iff [room] rfl).trans ?_
  simp

private theorem pHolds_iff {ev : NostrEvent} {device room : String} :
    constraintHolds ev "#p" (.array [.string device, .string room]) = true ↔
      Tagged ev "p" device ∨ Tagged ev "p" room := by
  refine (tagHolds_iff [device, room] rfl).trans ?_
  simp

/-! ### The subscription -/

section Filters

variable {ev : NostrEvent} {room device : String}

private theorem presenceFilter_iff {since : UInt64} :
    filterMatches (.object [("kinds", .array [.posInt signalingEventKind.toUInt64]),
      ("#r", .array [.string room]), ("since", .posInt since)]) ev = true ↔
      ev.kind = signalingEventKind ∧ Tagged ev "r" room ∧ since ≤ ev.createdAt := by
  rw [filterMatches, List.all_cons, List.all_cons, List.all_cons, List.all_nil, Bool.and_true,
    Bool.and_eq_true, Bool.and_eq_true, kindHolds_iff, rHolds_iff, sinceHolds_iff]

private theorem directedFilter_iff :
    filterMatches (.object [("kinds", .array [.posInt signalingEphemeralKind.toUInt64]),
      ("#r", .array [.string room]), ("#p", .array [.string device, .string room])]) ev = true ↔
      ev.kind = signalingEphemeralKind ∧ Tagged ev "r" room ∧
        (Tagged ev "p" device ∨ Tagged ev "p" room) := by
  rw [filterMatches, List.all_cons, List.all_cons, List.all_cons, List.all_nil, Bool.and_true,
    Bool.and_eq_true, Bool.and_eq_true, kindHolds_iff, rHolds_iff, pHolds_iff]

private theorem compatFilter_iff :
    filterMatches (.object [("kinds", .array [.posInt signalingEphemeralKind.toUInt64]),
      ("#r", .array [.string room])]) ev = true ↔
      ev.kind = signalingEphemeralKind ∧ Tagged ev "r" room := by
  rw [filterMatches, List.all_cons, List.all_cons, List.all_nil, Bool.and_true,
    Bool.and_eq_true, kindHolds_iff, rHolds_iff]

end Filters

/-- What the subscription of a room asks for. -/
theorem matchesAny_desiredFilters_iff {shared : Shared} {now : UInt64} {compat : Bool}
    {ev : NostrEvent} :
    matchesAny (desiredFilters shared now compat) ev = true ↔
      Tagged ev "r" shared.roomHandle ∧
        ((ev.kind = signalingEventKind ∧
            now.toNat - presenceReplayWindowSecs ≤ ev.createdAt.toNat) ∨
          (ev.kind = signalingEphemeralKind ∧
            (Tagged ev "p" shared.deviceId ∨ Tagged ev "p" shared.roomHandle ∨
              compat = true))) := by
  have hsince : (UInt64.ofNat (now.toNat - presenceReplayWindowSecs) ≤ ev.createdAt) ↔
      now.toNat - presenceReplayWindowSecs ≤ ev.createdAt.toNat := by
    have hlt : now.toNat - presenceReplayWindowSecs < 2 ^ 64 :=
      Nat.lt_of_le_of_lt (Nat.sub_le _ _) now.toNat_lt
    rw [UInt64.le_iff_toNat_le, UInt64.toNat_ofNat_of_lt' hlt]
  rw [desiredFilters, matchesAny]
  cases compat with
  | false =>
    rw [if_neg Bool.false_ne_true, List.append_nil, List.isEmpty_cons, Bool.false_or,
      List.any_cons, List.any_cons, List.any_nil, Bool.or_false, Bool.or_eq_true,
      presenceFilter_iff, directedFilter_iff, hsince]
    constructor
    · rintro (⟨hkind, hroom, hage⟩ | ⟨hkind, hroom, hp⟩)
      · exact ⟨hroom, .inl ⟨hkind, hage⟩⟩
      · exact ⟨hroom, .inr ⟨hkind, hp.imp_right .inl⟩⟩
    · rintro ⟨hroom, ⟨hkind, hage⟩ | ⟨hkind, hdevice | hp | hcompat⟩⟩
      · exact .inl ⟨hkind, hroom, hage⟩
      · exact .inr ⟨hkind, hroom, .inl hdevice⟩
      · exact .inr ⟨hkind, hroom, .inr hp⟩
      · exact absurd hcompat Bool.false_ne_true
  | true =>
    rw [if_pos rfl, List.cons_append, List.cons_append, List.nil_append, List.isEmpty_cons,
      Bool.false_or, List.any_cons, List.any_cons, List.any_cons, List.any_nil, Bool.or_false,
      Bool.or_eq_true, Bool.or_eq_true, presenceFilter_iff, directedFilter_iff,
      compatFilter_iff, hsince]
    constructor
    · rintro (⟨hkind, hroom, hage⟩ | ⟨hkind, hroom, -⟩ | ⟨hkind, hroom⟩)
      · exact ⟨hroom, .inl ⟨hkind, hage⟩⟩
      · exact ⟨hroom, .inr ⟨hkind, .inr (.inr rfl)⟩⟩
      · exact ⟨hroom, .inr ⟨hkind, .inr (.inr rfl)⟩⟩
    · rintro ⟨hroom, ⟨hkind, hage⟩ | ⟨hkind, -⟩⟩
      · exact .inl ⟨hkind, hroom, hage⟩
      · exact .inr (.inr ⟨hkind, hroom⟩)

/-! ### The vote of the room -/

/-- The announce or the departure that an envelope brings, if it is another device's and of the
right kind. -/
def presenceIn (shared : Shared) (kind : UInt16) (e : SignalingEnvelope) :
    Option SignalingMessage :=
  match e.msg with
  | .announce peerId _ =>
    if kind ≠ signalingEventKind ∨ peerId = shared.deviceId then none else some e.msg
  | .leave peerId =>
    if kind ≠ signalingEphemeralKind ∨ peerId = shared.deviceId then none else some e.msg
  | _ => none

/-- Who votes how after one more message. -/
def vote (roomCaps : AList (fun _ : String ↦ Bool)) : SignalingMessage →
    AList (fun _ : String ↦ Bool)
  | .announce peerId caps => roomCaps.insert peerId (caps.any (· == sigCapPtag))
  | .leave peerId => roomCaps.erase peerId
  | _ => roomCaps

/-- How far the task of a relay is with a frame: the event's id is remembered and its envelope
read, its vote is cast as the `n`th, all votes are counted. -/
inductive Handling where
  | idle
  | read (kind : UInt16) (e : SignalingEnvelope)
  | voted (n : ℕ)
  | counted (n : ℕ) (needCompat : Bool)
deriving DecidableEq

/-- The vote whose outcome the task has not published yet. -/
def Handling.owes : Handling → Option ℕ
  | .voted n | .counted n _ => some n
  | _ => none

/-- The driver, the tasks of its relays, and the votes in the order in which they were cast. -/
structure RelayTasks where
  driver : Driver
  tasks : List Handling
  votes : List SignalingMessage

/-- The relays are connected, and nothing was heard yet. -/
def RelayTasks.new (relays : ℕ) : RelayTasks := ⟨Driver.new, List.replicate relays .idle, []⟩

/-- What the task of a relay does next. The lock of the votes is free before each of these. -/
inductive RelayAct where
  | frame (r : ℕ) (text : String)
  | act (r : ℕ)
  | count (r : ℕ)
  | publish (r : ℕ)

/-- One step of one task; `driver.rs:1080–1220` and `376–394`. -/
def RelayTasks.step (S : Serde) (X : Externals) (shared : Shared) (s : RelayTasks) :
    RelayAct → RelayTasks
  | .frame r text =>
    match s.tasks[r]? with
    | some .idle =>
      match s.driver.readFrame S X shared text with
      | (d, .ok (some (kind, e))) => { s with driver := d, tasks := s.tasks.set r (.read kind e) }
      | (d, _) => { s with driver := d }
    | _ => s
  | .act r =>
    match s.tasks[r]? with
    | some (.read kind e) =>
      let d := (s.driver.act shared kind e).1
      match presenceIn shared kind e with
      | some m =>
        { driver := d, tasks := s.tasks.set r (.voted s.votes.length), votes := s.votes ++ [m] }
      | none => { s with driver := d, tasks := s.tasks.set r .idle }
    | _ => s
  | .count r =>
    match s.tasks[r]? with
    | some (.voted n) => { s with tasks := s.tasks.set r (.counted n s.driver.needCompat) }
    | _ => s
  | .publish r =>
    match s.tasks[r]? with
    | some (.counted _ needCompat) =>
      { s with driver := s.driver.publishCompat needCompat, tasks := s.tasks.set r .idle }
    | _ => s

/-- The outcome of a vote is published. -/
def RelayTasks.Settled (s : RelayTasks) (n : ℕ) : Prop := ∀ h ∈ s.tasks, h.owes ≠ some n

/-- The vote of a device that announced without the tag capability and was not heard of since. -/
def StandsUntagged (votes : List SignalingMessage) (n : ℕ) : Prop :=
  ∃ peerId caps, votes[n]? = some (.announce peerId caps) ∧ sigCapPtag ∉ caps ∧
    ∀ m ∈ votes.drop (n + 1), m.peerId ≠ peerId

/-- Unless a task that counted votes for tags only publishes this when another vote stands. -/
def RelayTasks.CountHolds (s : RelayTasks) : RelayAct → Prop
  | .publish r => ∀ n, s.tasks[r]? = some (.counted n false) →
    ∀ v ∈ s.driver.roomCaps.entries, v.2 = true
  | _ => True

variable {S : Serde} {X : Externals} {shared : Shared}

theorem readFrame_frame (d : Driver) (S : Serde) (X : Externals) (shared : Shared)
    (frame : String) : (d.readFrame S X shared frame).1.roomCaps = d.roomCaps ∧
      (d.readFrame S X shared frame).1.compatDirected = d.compatDirected := by
  unfold Driver.readFrame Driver.readEvent
  repeat' split
  all_goals exact ⟨rfl, rfl⟩

/-- Acting on an envelope casts the vote that it brings, and publishes nothing. -/
theorem act_votes (d : Driver) (shared : Shared) (kind : UInt16) (e : SignalingEnvelope) :
    (d.act shared kind e).1.compatDirected = d.compatDirected ∧
      (d.act shared kind e).1.roomCaps =
        (presenceIn shared kind e).elim d.roomCaps (vote d.roomCaps) := by
  unfold Driver.act presenceIn
  cases e.msg with
  | announce | leave | offer | answer | candidate => simp only; split <;> exact ⟨rfl, rfl⟩

/-- A vote stands until its device is heard of again. -/
theorem lookup_foldl_vote {peerId : String} {after : List SignalingMessage}
    (hafter : ∀ m ∈ after, m.peerId ≠ peerId) (roomCaps : AList (fun _ : String ↦ Bool)) :
    (after.foldl vote roomCaps).lookup peerId = roomCaps.lookup peerId := by
  induction after generalizing roomCaps with
  | nil => rfl
  | cons m after ih =>
    have hne : peerId ≠ m.peerId := (hafter m List.mem_cons_self).symm
    rw [List.foldl_cons, ih fun m' hm' ↦ hafter m' (List.mem_cons_of_mem _ hm')]
    cases m with
    | announce q caps => exact AList.lookup_insert_ne hne
    | leave q => exact AList.lookup_erase_ne hne
    | offer | answer | candidate => rfl

/-- While such a vote stands, the count is for the catch-all filter. -/
private theorem StandsUntagged.exists_entry {votes : List SignalingMessage} {n : ℕ}
    (h : StandsUntagged votes n) : ∃ v ∈ (votes.foldl vote ∅).entries, v.2 = false := by
  obtain ⟨peerId, caps, hn, hcaps, hafter⟩ := h
  obtain ⟨hlt, hget⟩ := List.getElem?_eq_some_iff.mp hn
  have hsplit : votes = votes.take n ++ .announce peerId caps :: votes.drop (n + 1) := by
    rw [← hget, List.getElem_cons_drop, List.take_append_drop]
  have hfalse : caps.any (· == sigCapPtag) = false := by
    rw [List.any_eq_false]
    intro c hc heq
    exact hcaps (beq_iff_eq.mp heq ▸ hc)
  have hlookup : (votes.foldl vote ∅).lookup peerId = some false := by
    rw [hsplit, List.foldl_append, List.foldl_cons, lookup_foldl_vote hafter, vote,
      AList.lookup_insert, hfalse]
  exact ⟨⟨peerId, false⟩, List.mem_dlookup_iff (AList.nodupKeys _) |>.mp hlookup, rfl⟩

/-- With one more vote, the vote that stands is that one or stood before. -/
private theorem StandsUntagged.of_append {votes : List SignalingMessage} {m : SignalingMessage}
    {n : ℕ} (h : StandsUntagged (votes ++ [m]) n) : n = votes.length ∨ StandsUntagged votes n := by
  obtain ⟨peerId, caps, hn, hcaps, hafter⟩ := h
  obtain ⟨hlt, -⟩ := List.getElem?_eq_some_iff.mp hn
  rw [List.length_append, List.length_singleton] at hlt
  by_cases hlast : n = votes.length
  · exact .inl hlast
  · rw [List.getElem?_append_left (by omega)] at hn
    refine .inr ⟨peerId, caps, hn, hcaps, fun m' hm' ↦ hafter m' ?_⟩
    rw [List.drop_append_of_le_length (by omega)]
    exact List.mem_append_left _ hm'

namespace RelayTasks

/-- What holds of the tasks at any time: the votes are counted from the map, a vote without the
capability has the catch-all filter published or a task that still owes it, and no such task
counted otherwise. -/
structure Upright (s : RelayTasks) : Prop where
  roomCaps : s.driver.roomCaps = s.votes.foldl vote ∅
  cast : ∀ h ∈ s.tasks, ∀ n, h.owes = some n → n < s.votes.length
  wide : ∀ n, StandsUntagged s.votes n →
    s.driver.compatDirected = true ∨ ∃ h ∈ s.tasks, h.owes = some n
  counts : ∀ n needCompat, .counted n needCompat ∈ s.tasks → StandsUntagged s.votes n →
    needCompat = true

theorem upright_new (relays : ℕ) : (new relays).Upright where
  roomCaps := rfl
  cast h hmem n howes := by
    rw [List.eq_of_mem_replicate hmem] at howes
    cases howes
  wide _ _ := .inl rfl
  counts n needCompat h _ := by cases List.eq_of_mem_replicate h

/-- What another task owes it owes still. -/
private theorem exists_owes_set {tasks : List Handling} {r n : ℕ} {before now : Handling}
    (hr : tasks[r]? = some before) (hbefore : before.owes ≠ some n)
    (h : ∃ h ∈ tasks, h.owes = some n) : ∃ h ∈ tasks.set r now, h.owes = some n := by
  obtain ⟨h, hmem, howes⟩ := h
  obtain ⟨k, hk⟩ := List.mem_iff_getElem?.mp hmem
  have hne : r ≠ k := by
    rintro rfl
    rw [hr, Option.some_inj] at hk
    exact hbefore (hk ▸ howes)
  refine ⟨h, List.mem_iff_getElem?.mpr ⟨k, ?_⟩, howes⟩
  rw [List.getElem?_set_ne hne, hk]

/-- A task that owes nothing goes on to a point where it counted nothing. -/
private theorem Upright.set {s : RelayTasks} (hs : s.Upright) {d : Driver} {r : ℕ}
    {before now : Handling} (hcaps : d.roomCaps = s.driver.roomCaps)
    (hcompat : d.compatDirected = s.driver.compatDirected) (hr : s.tasks[r]? = some before)
    (hbefore : before.owes = none) (hnow : now.owes = none) :
    Upright { s with driver := d, tasks := s.tasks.set r now } where
  roomCaps := hcaps.trans hs.roomCaps
  cast h hmem n howes := by
    rcases List.mem_or_eq_of_mem_set hmem with hmem | rfl
    · exact hs.cast h hmem n howes
    · rw [hnow] at howes
      cases howes
  wide n hn := by
    show d.compatDirected = true ∨ _
    rw [hcompat]
    exact (hs.wide n hn).imp_right (exists_owes_set hr (by simp [hbefore]))
  counts n needCompat h hn := by
    rcases List.mem_or_eq_of_mem_set h with h | rfl
    · exact hs.counts n needCompat h hn
    · cases hnow

/-- A step keeps this, unless it publishes an outdated count. -/
theorem Upright.step {s : RelayTasks} (hs : s.Upright) {a : RelayAct} (ha : s.CountHolds a) :
    (s.step S X shared a).Upright := by
  cases a with
  | frame r text =>
    obtain ⟨hcaps, hcompat⟩ := readFrame_frame s.driver S X shared text
    unfold RelayTasks.step
    simp only
    generalize s.driver.readFrame S X shared text = read at hcaps hcompat
    split
    · next hr =>
      split
      · exact hs.set hcaps hcompat hr rfl rfl
      · exact ⟨hcaps.trans hs.roomCaps, hs.cast, fun n hn ↦ hcompat ▸ hs.wide n hn, hs.counts⟩
    · exact hs
  | act r =>
    unfold RelayTasks.step
    simp only
    split
    · next kind e hr =>
      obtain ⟨hcompat, hcaps⟩ := act_votes s.driver shared kind e
      generalize (s.driver.act shared kind e).1 = d at hcaps hcompat
      cases hpresence : presenceIn shared kind e with
      | none =>
        rw [hpresence] at hcaps
        exact hs.set hcaps hcompat hr rfl rfl
      | some m =>
        rw [hpresence] at hcaps
        obtain ⟨hlt, -⟩ := List.getElem?_eq_some_iff.mp hr
        refine ⟨?_, fun h hmem n howes ↦ ?_, fun n hn ↦ ?_, fun n needCompat h hn ↦ ?_⟩
        · rw [hcaps, List.foldl_append, ← hs.roomCaps]
          rfl
        · rw [List.length_append, List.length_singleton]
          rcases List.mem_or_eq_of_mem_set hmem with hmem | rfl
          · exact Nat.lt_succ_of_lt (hs.cast h hmem n howes)
          · cases howes
            exact Nat.lt_succ_self _
        · rcases hn.of_append with rfl | hn
          · exact .inr ⟨.voted s.votes.length, List.mem_set hlt _, rfl⟩
          · simp only [hcompat]
            exact (hs.wide n hn).imp_right (exists_owes_set hr (by simp [Handling.owes]))
        · rcases List.mem_or_eq_of_mem_set h with h | h
          · have hcast := hs.cast _ h n rfl
            exact hs.counts n needCompat h (hn.of_append.resolve_left (Nat.ne_of_lt hcast))
          · cases h
    · exact hs
  | count r =>
    unfold RelayTasks.step
    simp only
    split
    · next n hr =>
      obtain ⟨hlt, -⟩ := List.getElem?_eq_some_iff.mp hr
      refine ⟨hs.roomCaps, fun h hmem k howes ↦ ?_,
        fun k hk ↦ (hs.wide k hk).imp_right fun howes ↦ ?_, fun k needCompat h hk ↦ ?_⟩
      · rcases List.mem_or_eq_of_mem_set hmem with hmem | rfl
        · exact hs.cast h hmem k howes
        · cases howes
          exact hs.cast _ (List.mem_of_getElem? hr) n rfl
      · by_cases hkn : k = n
        · exact ⟨_, List.mem_set hlt _, by rw [hkn]; rfl⟩
        · exact exists_owes_set hr (by simp [Handling.owes, Ne.symm hkn]) howes
      · rcases List.mem_or_eq_of_mem_set h with h | h
        · exact hs.counts k needCompat h hk
        · obtain ⟨v, hv, hfalse⟩ := hk.exists_entry
          cases h
          rw [Driver.needCompat, hs.roomCaps, Bool.or_eq_true, List.any_eq_true]
          exact .inr ⟨v, hv, by rw [hfalse]; rfl⟩
    · exact hs
  | publish r =>
    unfold RelayTasks.step
    simp only
    split
    · next n needCompat hr =>
      refine ⟨hs.roomCaps, fun h hmem k howes ↦ ?_, fun k hk ↦ .inl ?_, fun k need h hk ↦ ?_⟩
      · rcases List.mem_or_eq_of_mem_set hmem with hmem | rfl
        · exact hs.cast h hmem k howes
        · cases howes
      · show needCompat = true
        cases needCompat with
        | true => rfl
        | false =>
          -- A vote stands that the count does not know of.
          obtain ⟨v, hv, hfalse⟩ := hk.exists_entry
          rw [← hs.roomCaps] at hv
          rw [ha n hr v hv] at hfalse
          cases hfalse
      · rcases List.mem_or_eq_of_mem_set h with h | h
        · exact hs.counts k need h hk
        · cases h
    · exact hs

/-- So does a run whose published counts hold. -/
theorem upright_run {s : RelayTasks} {acts : List RelayAct} (hs : s.Upright)
    (hacts : Replay.AllSteps (step S X shared) CountHolds s acts) :
    (Replay.run (step S X shared) s acts).Upright := by
  induction acts generalizing s with
  | nil => exact hs
  | cons a acts ih => exact ih (hs.step hacts.1) hacts.2

end RelayTasks

/-! ### Room handles and device ids -/

/-- A device id is shorter than a room handle. -/
theorem publicId_ne_deriveRoomHandle (P : Primitives) (key : P.SigningKey)
    (appId networkId : String) : publicId P key ≠ deriveRoomHandle P appId networkId := by
  intro heq
  have hid : (publicId P key).toList.length = 52 := by
    rw [publicId, base32Lower, Text.asciiLower, String.toList_ofList, List.length_map,
      String.toList_ofList, Base32.encode, Base32.length_encodeBits,
      Base32.length_flatMap_byteBits, P.length_verifyingKey]
  have hhex : ∀ bytes : List UInt8, (hexLower bytes).toList.length = bytes.length * 2 := by
    intro bytes
    rw [hexLower, String.toList_ofList]
    induction bytes with
    | nil => rfl
    | cons b bs ih =>
      rw [List.flatMap_cons, List.length_append, ih, List.length_cons]
      simp only [List.length_cons, List.length_nil]
      omega
  rw [heq, deriveRoomHandle, hhex, P.length_sha256] at hid
  omega

/-! ### Every room and every history -/

/-- An event is for a device: an announce that is not older than the replay window, a departure,
or a message directed to the device. -/
def NostrOutbound.For (deviceId : String) (now created : UInt64) : NostrOutbound → Prop
  | .announce => now.toNat - presenceReplayWindowSecs ≤ created.toNat
  | .leave => True
  | .directedToPeer recipient _ => recipient = deviceId

/-- What another driver of the room publishes for us, the subscription matches, narrowed or
not. -/
theorem matchesAny_outboundEvent (us them : Shared) (hroom : them.roomHandle = us.roomHandle)
    {now created : UInt64} (o : NostrOutbound) (ho : o.For us.deviceId now created)
    (compat : Bool) :
    matchesAny (desiredFilters us now compat) (outboundEvent S X them created o) = true := by
  rw [matchesAny_desiredFilters_iff, ← hroom]
  cases o with
  | announce => exact ⟨⟨[], List.mem_cons_self⟩, .inl ⟨rfl, ho⟩⟩
  | leave =>
    exact ⟨⟨[], List.mem_cons_self⟩,
      .inr ⟨rfl, .inr (.inl ⟨[], List.mem_cons_of_mem _ List.mem_cons_self⟩)⟩⟩
  | directedToPeer recipient msg =>
    refine ⟨⟨[], List.mem_cons_self⟩, .inr ⟨rfl, .inl ⟨[], ?_⟩⟩⟩
    rw [← ho]
    exact List.mem_cons_of_mem _ List.mem_cons_self

/-- A narrowed subscription does not match what is directed to someone else. -/
theorem not_matchesAny_directed (us them : Shared) {now created : UInt64} {recipient : String}
    (msg : SignalingMessage) (hdevice : recipient ≠ us.deviceId)
    (hroom : recipient ≠ us.roomHandle) :
    matchesAny (desiredFilters us now false)
      (outboundEvent S X them created (.directedToPeer recipient msg)) = false := by
  rw [← Bool.not_eq_true, matchesAny_desiredFilters_iff]
  have hp : ∀ value, Tagged (outboundEvent S X them created (.directedToPeer recipient msg)) "p"
      value → value = recipient := by
    rintro value ⟨rest, hmem⟩
    simp only [outboundEvent, makeEvent, List.mem_cons, List.cons.injEq, List.not_mem_nil,
      or_false] at hmem
    rcases hmem with ⟨hname, -⟩ | ⟨-, hvalue, -⟩
    · exact absurd hname (by decide)
    · exact hvalue
  rintro ⟨-, ⟨hkind, -⟩ | ⟨-, hours | hours | hcompat⟩⟩
  · exact absurd (show signalingEphemeralKind = signalingEventKind from hkind) (by decide)
  · exact hdevice (hp _ hours).symm
  · exact hroom (hp _ hours).symm
  · cases hcompat

/-- In every room and for every other driver: what the other driver publishes for us is matched
under either shape of the subscription, and what it directs to a third device is not matched by the
narrowed shape. And whatever the tasks of the relays have done, if none has published an outdated
count: while a device whose announce without the tag capability is handled has not left or
announced again, the subscription has the shape that matches its untagged events. -/
theorem narrowed_subscription_loses_nothing (P : Primitives) (appId networkId : String)
    (ours theirs : P.SigningKey) (S : Serde) (X X' : Externals) (relays : ℕ)
    (acts : List RelayAct) (now created : UInt64) :
    let room := deriveRoomHandle P appId networkId
    let us : Shared := ⟨publicId P ours, room⟩
    let them : Shared := ⟨publicId P theirs, room⟩
    let s := Replay.run (RelayTasks.step S X us) (.new relays) acts
    (∀ (o : NostrOutbound) (compat : Bool), o.For us.deviceId now created →
      matchesAny (desiredFilters us now compat) (outboundEvent S X' them created o) = true) ∧
    (∀ (third : P.SigningKey) (msg : SignalingMessage), publicId P third ≠ us.deviceId →
      matchesAny (desiredFilters us now false)
        (outboundEvent S X' them created (.directedToPeer (publicId P third) msg)) = false) ∧
    (Replay.AllSteps (RelayTasks.step S X us) RelayTasks.CountHolds (.new relays) acts →
      ∀ n, StandsUntagged s.votes n → s.Settled n →
        s.driver.compatDirected = true ∧
          ∀ ev : NostrEvent, ev.kind = signalingEphemeralKind → Tagged ev "r" room →
            matchesAny (desiredFilters us now s.driver.compatDirected) ev = true) := by
  intro room us them s
  refine ⟨fun o compat ho ↦ ?_, fun third msg hthird ↦ ?_, fun hacts n hstands hsettled ↦ ?_⟩
  · exact matchesAny_outboundEvent us them rfl o ho compat
  · exact not_matchesAny_directed us them msg hthird
      (publicId_ne_deriveRoomHandle P third appId networkId)
  · have hupright : s.Upright := RelayTasks.upright_run (RelayTasks.upright_new relays) hacts
    have hcompat : s.driver.compatDirected = true :=
      (hupright.wide n hstands).resolve_right fun ⟨h, hmem, howes⟩ ↦ hsettled h hmem howes
    refine ⟨hcompat, fun ev hkind hroom ↦ ?_⟩
    rw [matchesAny_desiredFilters_iff]
    exact ⟨hroom, .inr ⟨hkind, .inr (.inr hcompat)⟩⟩

/-! ### Two relays -/

/-- The envelope in which a device announces itself. -/
def announced (peerId : String) (caps : List String) : SignalingEnvelope :=
  ⟨peerId, none, .announce peerId caps⟩

/-- The text of an announce. -/
def announceText (peerId : String) (caps : List String) : String :=
  String.ofList (objectText [("from", Json.quote peerId), ("to", "null".toList),
    ("kind", Json.quote "announce"), ("peer_id", Json.quote peerId), ("caps", Json.array caps)])

/-- A serializer that reads the announces of two devices, one of which tags. -/
def announceSerde : Serde where
  toString e := match e.msg with
    | .announce peerId caps => announceText peerId caps
    | _ => "null"
  fromStr text :=
    if text = announceText "tagging" [sigCapPtag] then some (announced "tagging" [sigCapPtag])
    else if text = announceText "legacy" [] then some (announced "legacy" [])
    else none

/-- The device that both are heard by. -/
def listening : Shared := ⟨publicId seeded (1 : UInt8), deriveRoomHandle seeded "app" "net"⟩

/-- The event of an announce. -/
def announceEvent (peerId : String) (caps : List String) : NostrEvent :=
  makeEvent (keyed peerId []) signalingEventKind [["r", listening.roomHandle]]
    (announceText peerId caps) 7

/-- A library that reads both. -/
def announceExternals : Externals :=
  keyed "ours" [announceEvent "tagging" [sigCapPtag], announceEvent "legacy" []]

/-- The first relay brings the announce of the device that tags and counts; before it publishes,
the second relay brings the other's, counts and publishes. -/
def overtaken (tagging legacy : String) : List RelayAct :=
  [.frame 0 tagging, .act 0, .count 0, .frame 1 legacy, .act 1, .count 1, .publish 1, .publish 0]

/-- The same, but the first relay publishes at once. -/
def inTurn (tagging legacy : String) : List RelayAct :=
  [.frame 0 tagging, .act 0, .count 0, .publish 0, .frame 1 legacy, .act 1, .count 1, .publish 1]

private theorem announceText_ne :
    announceText "tagging" [sigCapPtag] ≠ announceText "legacy" [] := by
  unfold announceText
  rw [ne_eq, String.ofList_inj]
  decide +kernel

private theorem announceEvent_ne :
    (announceEvent "tagging" [sigCapPtag]).id ≠ (announceEvent "legacy" []).id := by
  decide +kernel

private theorem announceEvents_apart :
    ∀ ev ∈ [announceEvent "tagging" [sigCapPtag], announceEvent "legacy" []],
      ∀ e ∈ [announceEvent "tagging" [sigCapPtag], announceEvent "legacy" []],
        eventText e = eventText ev ∨ e.id = ev.id → e = ev := by
  have htext : eventText (announceEvent "tagging" [sigCapPtag]) ≠
      eventText (announceEvent "legacy" []) := by
    unfold eventText
    rw [ne_eq, String.ofList_inj]
    decide +kernel
  have hid := announceEvent_ne
  simp only [List.mem_cons, List.not_mem_nil, or_false, forall_eq_or_imp, forall_eq, true_or,
    implies_true, true_and, and_true]
  exact ⟨fun h ↦ (h.elim (fun h ↦ htext h.symm) fun h ↦ hid h.symm).elim,
    fun h ↦ (h.elim htext hid).elim⟩

/-- An announce that is new is read, whatever else the driver remembers. -/
private theorem readFrame_announce {peerId : String} {caps : List String}
    (hev : announceEvent peerId caps ∈
      [announceEvent "tagging" [sigCapPtag], announceEvent "legacy" []])
    (hkey : peerId ≠ "ours")
    (hserde : announceSerde.fromStr (announceText peerId caps) = some (announced peerId caps))
    {d : Driver} (hnew : (announceEvent peerId caps).id ∉ d.seenEventIds) :
    d.readFrame announceSerde announceExternals listening (eventText (announceEvent peerId caps)) =
      (⟨SeenRing.remember seenEventCapacity d.seenEventIds (announceEvent peerId caps).id,
          d.roomCaps, d.compatDirected⟩,
        .ok (some (signalingEventKind, announced peerId caps))) := by
  have hevent : eventOf announceExternals (eventText (announceEvent peerId caps)) =
      some (announceEvent peerId caps) := eventOf_keyed "ours" hev (announceEvents_apart _ hev)
  have hok : acceptable announceExternals listening (announceEvent peerId caps) = true := by
    simp [acceptable, NostrEvent.verify, announceEvent, makeEvent, announceExternals, keyed, hkey]
  have hcontent : (announceEvent peerId caps).content = announceText peerId caps := rfl
  have hshape : envelopeShape listening (announced peerId caps) = true := by
    simp [envelopeShape, announced, SignalingMessage.peerId]
  rw [readFrame_of_eventOf d hevent, readEvent_spec, if_pos ⟨hok, hnew⟩, hcontent, hserde]
  simp only [hshape, if_true]
  rfl

/-- Two frames that bring the announces of the two devices, one after the other. -/
structure BringBoth (S : Serde) (X : Externals) (shared : Shared) (tagging legacy : String)
    (first both : List String) : Prop where
  tagging_new : ∀ caps compat, (Driver.mk [] caps compat).readFrame S X shared tagging =
    (⟨first, caps, compat⟩, .ok (some (signalingEventKind, announced "tagging" [sigCapPtag])))
  legacy_new : ∀ caps compat, (Driver.mk first caps compat).readFrame S X shared legacy =
    (⟨both, caps, compat⟩, .ok (some (signalingEventKind, announced "legacy" [])))
  others : "tagging" ≠ shared.deviceId ∧ "legacy" ≠ shared.deviceId

private theorem bringBoth : BringBoth announceSerde announceExternals listening
    (eventText (announceEvent "tagging" [sigCapPtag])) (eventText (announceEvent "legacy" []))
    [(announceEvent "tagging" [sigCapPtag]).id]
    [(announceEvent "tagging" [sigCapPtag]).id, (announceEvent "legacy" []).id] := by
  have htagging : announceSerde.fromStr (announceText "tagging" [sigCapPtag]) =
      some (announced "tagging" [sigCapPtag]) := by simp [announceSerde]
  have hlegacy : announceSerde.fromStr (announceText "legacy" []) =
      some (announced "legacy" []) := by simp [announceSerde, announceText_ne.symm]
  refine ⟨fun caps compat ↦ ?_, fun caps compat ↦ ?_, by decide +kernel⟩
  · rw [readFrame_announce List.mem_cons_self (by decide) htagging List.not_mem_nil]
    simp [SeenRing.remember, seenEventCapacity]
  · have hnew : (announceEvent "legacy" []).id ∉ [(announceEvent "tagging" [sigCapPtag]).id] := by
      simpa using announceEvent_ne.symm
    rw [readFrame_announce (List.mem_cons_of_mem _ List.mem_cons_self) (by decide) hlegacy hnew]
    simp [SeenRing.remember, seenEventCapacity]

/-- The announce of another device counts, and casts its vote. -/
private theorem act_announced {peerId : String} (caps : List String)
    (hother : peerId ≠ shared.deviceId) :
    presenceIn shared signalingEventKind (announced peerId caps) = some (.announce peerId caps) ∧
      ∀ d : Driver, (d.act shared signalingEventKind (announced peerId caps)).1 =
        ⟨d.seenEventIds, vote d.roomCaps (.announce peerId caps), d.compatDirected⟩ := by
  simp [presenceIn, announced, Driver.act, vote, hother]

/-- The votes of both devices. -/
def bothVotes : AList (fun _ : String ↦ Bool) :=
  vote (vote ∅ (.announce "tagging" [sigCapPtag])) (.announce "legacy" [])

/-- When the first relay is overtaken, it is its count that stays; in turn it is the second's, and
neither count is outdated. -/
private theorem run_both {tagging legacy : String} {first both : List String}
    (h : BringBoth S X shared tagging legacy first both) :
    Replay.run (RelayTasks.step S X shared) (.new 2) (overtaken tagging legacy) =
        ⟨⟨both, bothVotes, false⟩, [.idle, .idle],
          [.announce "tagging" [sigCapPtag], .announce "legacy" []]⟩ ∧
      Replay.run (RelayTasks.step S X shared) (.new 2) (inTurn tagging legacy) =
        ⟨⟨both, bothVotes, true⟩, [.idle, .idle],
          [.announce "tagging" [sigCapPtag], .announce "legacy" []]⟩ ∧
      Replay.AllSteps (RelayTasks.step S X shared) RelayTasks.CountHolds (.new 2)
        (inTurn tagging legacy) := by
  obtain ⟨hfirst, hsecond, htagging, hlegacy⟩ := h
  have hone : ∀ compat, (Driver.mk first (vote ∅ (.announce "tagging" [sigCapPtag]))
      compat).needCompat = false := fun _ ↦ rfl
  have htwo : ∀ compat, (Driver.mk both bothVotes compat).needCompat = true := fun _ ↦ rfl
  have htags : ∀ v ∈ (vote ∅ (.announce "tagging" [sigCapPtag])).entries, v.2 = true := by
    decide
  unfold bothVotes at htwo
  refine ⟨?_, ?_, ?_⟩
  · simp [overtaken, Replay.run_cons, Replay.run_nil, RelayTasks.step, RelayTasks.new, Driver.new,
      Driver.publishCompat, act_announced _ htagging, act_announced _ hlegacy, hfirst, hsecond,
      hone, htwo, bothVotes]
  · simp [inTurn, Replay.run_cons, Replay.run_nil, RelayTasks.step, RelayTasks.new, Driver.new,
      Driver.publishCompat, act_announced _ htagging, act_announced _ hlegacy, hfirst, hsecond,
      hone, htwo, bothVotes]

  · simp [inTurn, Replay.AllSteps, RelayTasks.step, RelayTasks.new, Driver.new,
      RelayTasks.CountHolds, Driver.publishCompat, act_announced _ htagging,
      act_announced _ hlegacy, hfirst, hsecond, hone, htwo]
    exact htags

/-- The votes of either history: the last one is that of a device that does not tag. -/
private theorem standsUntagged_both :
    StandsUntagged [.announce "tagging" [sigCapPtag], .announce "legacy" []] 1 :=
  ⟨"legacy", [], rfl, List.not_mem_nil, by simp⟩

private theorem settled_idle (driver : Driver) (votes : List SignalingMessage) (n : ℕ) :
    (RelayTasks.mk driver [.idle, .idle] votes).Settled n := by
  simp [RelayTasks.Settled, Handling.owes]

/-- With both announces handled in turn, the untagged events of the one that does not tag are
matched. -/
theorem legacy_heard_in_turn :
    ∀ ev : NostrEvent, ev.kind = signalingEphemeralKind →
      Tagged ev "r" (deriveRoomHandle seeded "app" "net") →
      matchesAny (desiredFilters listening 9
        (Replay.run (RelayTasks.step announceSerde announceExternals listening) (.new 2)
          (inTurn (eventText (announceEvent "tagging" [sigCapPtag]))
            (eventText (announceEvent "legacy" [])))).driver.compatDirected) ev = true := by
  obtain ⟨-, -, hheard⟩ := narrowed_subscription_loses_nothing seeded "app" "net" (1 : UInt8)
    (2 : UInt8) announceSerde announceExternals announceExternals 2
    (inTurn (eventText (announceEvent "tagging" [sigCapPtag]))
      (eventText (announceEvent "legacy" []))) 9 9
  obtain ⟨-, hrun, hholds⟩ := run_both bringBoth
  rw [← listening] at hheard
  have hfinal := hheard hholds 1
  rw [hrun] at hfinal ⊢
  exact (hfinal standsUntagged_both (settled_idle _ _ 1)).2

/-- The task of the first relay counted when only the device that tags had announced itself. It
publishes this after the other device's announce is handled, and the subscription narrows. -/
theorem outdated_count_narrows :
    ¬ ∀ (P : Primitives) (appId networkId : String) (ours : P.SigningKey) (S : Serde)
      (X : Externals) (relays : ℕ) (acts : List RelayAct),
      let us : Shared := ⟨publicId P ours, deriveRoomHandle P appId networkId⟩
      let s := Replay.run (RelayTasks.step S X us) (.new relays) acts
      ∀ n, StandsUntagged s.votes n → s.Settled n → s.driver.compatDirected = true := by
  intro hclaim
  have hwide := hclaim seeded "app" "net" (1 : UInt8) announceSerde announceExternals 2
    (overtaken (eventText (announceEvent "tagging" [sigCapPtag]))
      (eventText (announceEvent "legacy" []))) 1
  rw [← listening, (run_both bringBoth).1] at hwide
  exact absurd (hwide standsUntagged_both (settled_idle _ _ 1)) Bool.false_ne_true

end MyOwnMesh.Nostr
