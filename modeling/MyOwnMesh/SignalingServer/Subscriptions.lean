import MyOwnMesh.SignalingServer.Replay
import MyOwnMesh.SignalingServer.Takeover

/-!
# What a subscription is shown

`handle_req`, `handle_event`, `fanout` and `unregister` of `server.rs` seen from one subscription of
one connection. The request is answered with the replay and the end of it, in the call that enters
the subscription; from then on every event that the relay publishes and the filters match is queued
for it in the call that publishes it, and nothing else is.
-/

namespace MyOwnMesh.SignalingServer

open Lib.Replay

variable {X : Externals} {s : Hub X} {id : Nat} {txt : String} {now : Nat}

/-- The subscription that a frame belongs to, of those that are shown events. -/
def Frame.subscription : Frame → Option String
  | .event subid _ => some subid
  | .eose subid => some subid
  | _ => none

/-- The frames of one subscription of one connection, in order. -/
def shown (c : Nat) (subid : String) (frames : List (Nat × Frame)) : List Frame :=
  (frames.filter fun f ↦ f.1 = c ∧ f.2.subscription = some subid).map Prod.snd

/-- The filters of a subscription. -/
def Hub.filtersOf (s : Hub X) (c : Nat) (subid : String) : Option (List Value) :=
  (s.conns.lookup c).bind fun conn ↦ conn.subs.lookup subid

/-- The subscription that a text opens, with the filters that are kept, if it passes the size and
the rate limit. -/
def Hub.opens (s : Hub X) (id : Nat) (txt : String) (now : Nat) :
    Option (String × List Value) :=
  if 0 < s.limits.maxMessageBytes ∧ s.limits.maxMessageBytes < txt.utf8ByteSize % 2 ^ 32 then none
  else
    match X.parse txt with
    | some (.array arr) =>
      let (s', allowed) := s.takeToken id true now
      if arr.head?.bind Value.asStr = some "REQ" ∧ allowed then
        (s'.subscribes id arr).map fun subid ↦ (subid, s'.reqFilters arr)
      else none
    | _ => none

/-- The departures of a connection that closes: one for each pair it still owns. -/
def Hub.departures (s : Hub X) (id : Nat) (now : UInt64) : List NostrEvent :=
  match s.conns.lookup id with
  | none => []
  | some entry => (entry.present.filter (s.owns id)).map fun pair ↦
    buildLeaveEvent X pair.1 pair.2 now

/-- What a call publishes, in order, with the values that are forwarded. -/
def Hub.published (s : Hub X) : Op → List (Value × NostrEvent)
  | .register _ _ => []
  | .message id txt now => (s.accepted id txt now).toList
  | .unregister id now => (s.departures id now).map fun leave ↦ (leave.toValue, leave)

/-- All that a run of calls queues. -/
def Hub.sentBy (s : Hub X) : List Op → List (Nat × Frame)
  | [] => []
  | o :: ops => s.sent o ++ (s.step o).sentBy ops

/-- All that a run of calls publishes. -/
def Hub.publishedBy (s : Hub X) : List Op → List (Value × NostrEvent)
  | [] => []
  | o :: ops => s.published o ++ (s.step o).publishedBy ops

/-- The frames of the events that filters match. -/
def matching (subid : String) (filters : List Value) (events : List (Value × NostrEvent)) :
    List Frame :=
  (events.filter fun e ↦ matchesAny filters e.2).map fun e ↦ .event subid e.1

/-- The connection neither closes, nor asks for the subscription again, nor closes it. -/
def Undisturbed (X : Externals) (c : Nat) (subid : String) (_ : Hub X) : Op → Prop
  | .register _ _ => True
  | .message id txt _ => id = c → ∀ arr, X.parse txt = some (.array arr) →
    arr[1]?.bind Value.asStr = some subid → arr.head?.bind Value.asStr ≠ some "REQ" ∧
      arr.head?.bind Value.asStr ≠ some "CLOSE"
  | .unregister id _ => id ≠ c

/-! ### Frames of one subscription -/

theorem shown_append (c : Nat) (subid : String) (frames more : List (Nat × Frame)) :
    shown c subid (frames ++ more) = shown c subid frames ++ shown c subid more := by
  simp [shown]

theorem shown_flatMap {α : Type*} (c : Nat) (subid : String) (f : α → List (Nat × Frame))
    (l : List α) : shown c subid (l.flatMap f) = l.flatMap fun a ↦ shown c subid (f a) := by
  induction l with
  | nil => rfl
  | cons a l ih => rw [List.flatMap_cons, shown_append, ih, List.flatMap_cons]

theorem shown_eq_nil {c : Nat} {subid : String} {frames : List (Nat × Frame)}
    (h : ∀ f ∈ frames, f.1 = c → f.2.subscription ≠ some subid) : shown c subid frames = [] := by
  rw [shown, List.map_eq_nil_iff, List.filter_eq_nil_iff]
  intro f hf
  simpa using h f hf

theorem matching_append (subid : String) (filters : List Value)
    (events more : List (Value × NostrEvent)) :
    matching subid filters (events ++ more) =
      matching subid filters events ++ matching subid filters more := by
  simp [matching]

theorem matching_map {α : Type*} (subid : String) (filters : List Value)
    (f : α → Value × NostrEvent) (l : List α) :
    matching subid filters (l.map f) = l.flatMap fun a ↦ matching subid filters [f a] := by
  induction l with
  | nil => rfl
  | cons a l ih =>
    rw [List.flatMap_cons, ← ih, ← matching_append]
    rfl

/-- In a walk over a map only the entry of one key may count. -/
private theorem flatMap_entries {κ : Type*} {β γ : Type*} [DecidableEq κ]
    {m : AList fun _ : κ ↦ β} {k : κ} {v : β} (hk : m.lookup k = some v)
    {f : (Sigma fun _ : κ ↦ β) → List γ} (hf : ∀ e ∈ m.entries, e.1 ≠ k → f e = []) :
    m.entries.flatMap f = f ⟨k, v⟩ := by
  obtain ⟨before, after, hsplit⟩ := List.append_of_mem (AList.mem_lookup_iff.mp hk)
  have hnodup := List.nodupKeys_iff_pairwise.mp m.nodupKeys
  rw [hsplit, List.pairwise_append, List.pairwise_cons] at hnodup
  obtain ⟨-, ⟨hafter, -⟩, hbefore⟩ := hnodup
  have hnil : ∀ l : List (Sigma fun _ : κ ↦ β), (∀ e ∈ l, e ∈ m.entries ∧ e.1 ≠ k) →
      l.flatMap f = [] := by
    intro l hl
    rw [List.flatMap_eq_nil_iff]
    exact fun e he ↦ hf e (hl e he).1 (hl e he).2
  rw [hsplit, List.flatMap_append, List.flatMap_cons,
    hnil before fun e he ↦ ⟨by simp [hsplit, he], hbefore e he _ List.mem_cons_self⟩,
    hnil after fun e he ↦ ⟨by simp [hsplit, he], (hafter e he).symm⟩]
  simp

/-- A subscription is shown an event that its filters match, once. -/
theorem shown_fanout {c : Nat} {subid : String} {filters : List Value}
    {conns : AList fun _ : Nat ↦ ConnEntry X} {conn : ConnEntry X}
    (hconn : conns.lookup c = some conn) (hsub : conn.subs.lookup subid = some filters)
    (value : Value) (ev : NostrEvent) :
    shown c subid (fanout conns value ev) = matching subid filters [(value, ev)] := by
  have hmatching : ∀ subs : AList fun _ : String ↦ List Value,
      subs.lookup subid = some filters → shown c subid
        ((subs.entries.filter fun sub ↦ matchesAny sub.2 ev).map fun sub ↦
          (c, .event sub.1 value)) = matching subid filters [(value, ev)] := by
    intro subs hsubs
    have hflat : (subs.entries.filter fun sub ↦ matchesAny sub.2 ev).map
        (fun sub ↦ (c, Frame.event sub.1 value)) =
        subs.entries.flatMap fun sub ↦
          if matchesAny sub.2 ev then [(c, Frame.event sub.1 value)] else [] := by
      generalize subs.entries = l
      induction l with
      | nil => rfl
      | cons sub l ih =>
        rw [List.flatMap_cons, ← ih, List.filter_cons]
        split
        · simp
        · simp
    rw [hflat, shown_flatMap, flatMap_entries hsubs]
    · by_cases hmatch : matchesAny filters ev = true
      · simp [matching, hmatch, shown, Frame.subscription]
      · simp [matching, hmatch, shown]
    · intro sub _ hne
      apply shown_eq_nil
      intro f hf _
      split at hf
      · cases List.mem_singleton.mp hf
        simpa [Frame.subscription] using hne
      · cases hf
  rw [fanout, shown_flatMap, flatMap_entries hconn]
  · exact hmatching conn.subs hsub
  · intro e _ hne
    apply shown_eq_nil
    intro f hf hc
    obtain ⟨sub, -, rfl⟩ := List.mem_map.mp hf
    exact absurd hc hne

/-! ### The subscription stays -/

theorem filtersOf_modifyConn (s : Hub X) (id : Nat) {f : ConnEntry X → ConnEntry X} {c : Nat}
    {subid : String} (hf : id = c → ∀ conn, (f conn).subs.lookup subid = conn.subs.lookup subid) :
    (s.modifyConn id f).filtersOf c subid = s.filtersOf c subid := by
  unfold Hub.filtersOf
  rw [lookup_modifyConn]
  split
  · next hc =>
    subst hc
    cases hconn : s.conns.lookup c with
    | none => rfl
    | some conn => exact hf rfl conn
  · rfl

theorem filtersOf_takeToken (s : Hub X) (id : Nat) (isReq : Bool) (now c : Nat) (subid : String) :
    (s.takeToken id isReq now).1.filtersOf c subid = s.filtersOf c subid := by
  unfold Hub.takeToken
  split
  · rfl
  · split
    · exact filtersOf_modifyConn s id fun _ _ ↦ rfl
    · exact filtersOf_modifyConn s id fun _ _ ↦ rfl

theorem filtersOf_strike (s : Hub X) (id c : Nat) (subid : String) :
    (s.strike id).1.filtersOf c subid = s.filtersOf c subid := by
  have hkept : (s.modifyConn id fun conn ↦ { conn with strikes := conn.strikes + 1 }).filtersOf c
      subid = s.filtersOf c subid := filtersOf_modifyConn s id fun _ _ ↦ rfl
  unfold Hub.strike
  split
  · rfl
  · simp only
    split
    · exact hkept
    · exact hkept

theorem filtersOf_trackPresence (s : Hub X) (id : Nat) (event : NostrEvent) (c : Nat)
    (subid : String) : (s.trackPresence id event).filtersOf c subid = s.filtersOf c subid := by
  unfold Hub.trackPresence
  split
  · rfl
  · refine filtersOf_modifyConn _ id fun _ conn ↦ ?_
    split
    · rfl
    · rfl

theorem shown_strike (s : Hub X) (id c : Nat) (subid : String) :
    shown c subid (s.strike id).2.1 = [] := by
  unfold Hub.strike
  split
  · rfl
  · simp only
    split
    · exact shown_eq_nil fun f hf _ ↦ by cases List.mem_singleton.mp hf; simp [Frame.subscription]
    · rfl

/-- A subscription is entered with its connection. -/
theorem filtersOf_eq_some_iff {c : Nat} {subid : String} {filters : List Value} :
    s.filtersOf c subid = some filters ↔
      ∃ conn, s.conns.lookup c = some conn ∧ conn.subs.lookup subid = some filters :=
  Option.bind_eq_some_iff

theorem shown_fanout_of_filtersOf {c : Nat} {subid : String} {filters : List Value}
    (h : s.filtersOf c subid = some filters) (value : Value) (ev : NostrEvent) :
    shown c subid (fanout s.conns value ev) = matching subid filters [(value, ev)] := by
  obtain ⟨conn, hconn, hsub⟩ := filtersOf_eq_some_iff.mp h
  exact shown_fanout hconn hsub value ev

/-- A request of another connection, or for another subscription, shows the subscription nothing
and leaves it alone. -/
theorem shown_handleReq_of_ne {arr : List Value} {c : Nat} {subid : String}
    (hne : id = c → arr[1]?.bind Value.asStr ≠ some subid) :
    (s.handleReq id arr).1.filtersOf c subid = s.filtersOf c subid ∧
      shown c subid (s.handleReq id arr).2 = [] := by
  unfold Hub.handleReq
  split
  · exact ⟨rfl, rfl⟩
  · next subid' hsubid =>
    simp only
    split
    · exact ⟨rfl, rfl⟩
    · split
      · refine ⟨rfl, shown_eq_nil fun f hf _ ↦ ?_⟩
        cases List.mem_singleton.mp hf
        simp [Frame.subscription]
      · refine ⟨filtersOf_modifyConn s id fun hc conn ↦ ?_, shown_eq_nil fun f hf hc ↦ ?_⟩
        · refine AList.lookup_insert_ne fun heq ↦ hne hc ?_
          rw [hsubid, heq]
        · have hother : subid' ≠ subid := by
            rintro rfl
            rcases List.mem_append.mp hf with hf | hf
            · obtain ⟨ev, -, rfl⟩ := List.mem_map.mp hf
              exact hne hc hsubid
            · cases List.mem_singleton.mp hf
              exact hne hc hsubid
          rcases List.mem_append.mp hf with hf | hf
          · obtain ⟨ev, -, rfl⟩ := List.mem_map.mp hf
            simpa [Frame.subscription] using hother
          · cases List.mem_singleton.mp hf
            simpa [Frame.subscription] using hother

theorem filtersOf_handleClose {arr : List Value} {c : Nat} {subid : String}
    (hne : id = c → arr[1]?.bind Value.asStr ≠ some subid) :
    (s.handleClose id arr).filtersOf c subid = s.filtersOf c subid := by
  unfold Hub.handleClose
  split
  · rfl
  · next subid' hsubid =>
    refine filtersOf_modifyConn s id fun hc conn ↦ AList.lookup_erase_ne fun heq ↦ hne hc ?_
    rw [hsubid, heq]

/-- An event that is accepted is shown to the subscription if its filters match. -/
theorem shown_handleEvent {arr : List Value} {c : Nat} {subid : String} {filters : List Value}
    (h : s.filtersOf c subid = some filters) :
    (s.handleEvent id arr now).1.filtersOf c subid = some filters ∧
      shown c subid (s.handleEvent id arr now).2 =
        matching subid filters (SignalingServer.publishedBy X arr).toList := by
  have hanswer : ∀ (t : Hub X) (event : NostrEvent) (accepted : Bool) (text : String),
      shown c subid (if id ∈ t.conns then [(id, .ok event.id accepted text)] else []) = [] := by
    intro t event accepted text
    refine shown_eq_nil fun f hf _ ↦ ?_
    split at hf
    · cases List.mem_singleton.mp hf
      simp [Frame.subscription]
    · cases hf
  unfold Hub.handleEvent SignalingServer.publishedBy
  cases hvalue : arr[1]? with
  | none => exact ⟨h, rfl⟩
  | some value =>
    cases hevent : X.decodeEvent value with
    | none => simpa [hevent] using ⟨h, rfl⟩
    | some event =>
      simp only [Option.bind_eq_bind, Option.bind_some, hevent]
      by_cases hverify : event.verify X = true
      · simp only [hverify, not_true_eq_false, ↓reduceIte]
        have hkept : ∀ t : Hub X, t.conns = (s.trackPresence id event).conns →
            t.filtersOf c subid = some filters := by
          intro t ht
          rw [Hub.filtersOf, ht]
          exact (filtersOf_trackPresence s id event c subid).trans h
        have hstored : ∀ t : Hub X, t.conns = (s.trackPresence id event).conns →
            t.filtersOf c subid = some filters ∧
              shown c subid (fanout t.conns value event ++
                if id ∈ s.conns then [(id, .ok event.id true "")] else []) =
                matching subid filters (some (value, event)).toList := by
          intro t ht
          rw [shown_append, hanswer, List.append_nil,
            shown_fanout_of_filtersOf (hkept t ht)]
          exact ⟨hkept t ht, rfl⟩
        split
        · exact hstored _ rfl
        · exact hstored _ rfl
      · simp only [hverify, Bool.false_eq_true, not_false_eq_true, ↓reduceIte]
        exact ⟨h, hanswer s event false _⟩

/-- A text that does not disturb a subscription shows it what it publishes. -/
theorem shown_onClientMessage {c : Nat} {subid : String} {filters : List Value}
    (h : s.filtersOf c subid = some filters)
    (hund : Undisturbed X c subid s (.message id txt now)) :
    (s.onClientMessage id txt now).1.filtersOf c subid = some filters ∧
      shown c subid (s.onClientMessage id txt now).2.1 =
        matching subid filters (s.accepted id txt now).toList := by
  have hquiet : ∀ t : Hub X, t.filtersOf c subid = some filters →
      (t.strike id).1.filtersOf c subid = some filters ∧
        shown c subid (t.strike id).2.1 = matching subid filters (none : Option _).toList :=
    fun t ht ↦ ⟨(filtersOf_strike t id c subid).trans ht, shown_strike t id c subid⟩
  unfold Hub.onClientMessage
  split
  · next hsize =>
    rw [Hub.accepted, if_pos hsize]
    exact hquiet s h
  · next hsize =>
    split
    · next arr hparse =>
      rw [accepted_array id now hsize hparse]
      split
      · next htag =>
        have htoken := (filtersOf_takeToken s id true now c subid).trans h
        have hnone : ¬ (arr.head?.bind Value.asStr = some "EVENT" ∧
            (s.takeToken id false now).2 = true) := by simp [htag]
        rw [if_neg hnone]
        simp only
        split
        · exact hquiet _ htoken
        · have hne : id = c → arr[1]?.bind Value.asStr ≠ some subid := fun hc hsubid ↦
            (hund hc arr hparse hsubid).1 htag
          obtain ⟨hkept, hshown⟩ := shown_handleReq_of_ne (s := (s.takeToken id true now).1) hne
          exact ⟨hkept.trans htoken, hshown⟩
      · next htag =>
        have htoken := (filtersOf_takeToken s id false now c subid).trans h
        by_cases hallowed : (s.takeToken id false now).2 = true
        · rw [if_pos ⟨htag, hallowed⟩]
          simp only [hallowed, not_true_eq_false, ↓reduceIte]
          exact shown_handleEvent htoken
        · rw [if_neg fun hboth ↦ hallowed hboth.2]
          simp only [hallowed, Bool.false_eq_true, not_false_eq_true, ↓reduceIte]
          exact hquiet _ htoken
      · next htag =>
        have hnone : ¬ (arr.head?.bind Value.asStr = some "EVENT" ∧
            (s.takeToken id false now).2 = true) := by simp [htag]
        rw [if_neg hnone]
        have hne : id = c → arr[1]?.bind Value.asStr ≠ some subid := fun hc hsubid ↦
          (hund hc arr hparse hsubid).2 htag
        have hkept := filtersOf_handleClose (s := s) hne
        exact ⟨hkept.trans h, rfl⟩
      · next hevent _ =>
        rw [if_neg fun hboth ↦ hevent hboth.1]
        exact ⟨h, rfl⟩
    · next hother =>
      have hnone : s.accepted id txt now = none := by
        unfold Hub.accepted
        rw [if_neg hsize]
        split
        · next arr hparse => exact absurd hparse (hother arr)
        · rfl
      rw [hnone]
      exact ⟨h, rfl⟩

/-- The departures of another connection are shown as what they are: events of the relay. -/
theorem shown_unregister (hexact : Exact s) {c : Nat} {subid : String} {filters : List Value}
    (h : s.filtersOf c subid = some filters) (hid : id ≠ c) (t : UInt64) :
    (s.unregister id t).1.filtersOf c subid = some filters ∧
      shown c subid (s.unregister id t).2 =
        matching subid filters ((s.departures id t).map fun leave ↦ (leave.toValue, leave)) := by
  unfold Hub.unregister Hub.departures
  cases hentry : s.conns.lookup id with
  | none => exact ⟨h, rfl⟩
  | some entry =>
    obtain ⟨conn, hconn, hsub⟩ := filtersOf_eq_some_iff.mp h
    have hconn' : (s.conns.erase id).lookup c = some conn := by
      rw [AList.lookup_erase_ne hid.symm]
      exact hconn
    refine ⟨?_, ?_⟩
    · obtain ⟨presence, stored, hframe⟩ := foldl_departStep_frame
        { s with conns := s.conns.erase id, ipCounts := releaseIp s.ipCounts entry.ip } id t
        entry.present []
      simp only
      rw [hframe]
      exact filtersOf_eq_some_iff.mpr ⟨conn, hconn', hsub⟩
    · have hsent : (entry.present.foldl (departStep id t)
          ({ s with conns := s.conns.erase id, ipCounts := releaseIp s.ipCounts entry.ip }, [])).2 =
            _ := foldl_departStep_sent (hexact.accounts.nodup id entry hentry) _ []
      simp only
      rw [hsent, List.nil_append, shown_flatMap, List.map_map, matching_map]
      refine congrArg (List.flatMap · _) (funext fun pair ↦ ?_)
      exact shown_fanout hconn' hsub _ _

/-- A registration changes no connection that is there. -/
theorem filtersOf_register (hexact : Exact s) {c : Nat} {subid : String} {filters : List Value}
    (h : s.filtersOf c subid = some filters) (ip : IpAddr) (now : Nat) :
    (s.register ip now).1.filtersOf c subid = some filters := by
  obtain ⟨conn, hconn, hsub⟩ := filtersOf_eq_some_iff.mp h
  have hlive : c ∈ s.conns := AList.lookup_isSome.mp (by rw [hconn]; rfl)
  have hne : c ≠ s.nextId := Nat.ne_of_lt (hexact.accounts.fresh c hlive)
  unfold Hub.register
  simp only
  split
  · exact h
  · exact filtersOf_eq_some_iff.mpr ⟨conn, (AList.lookup_insert_ne hne).trans hconn, hsub⟩

/-- What one call does to a subscription that it does not disturb. -/
theorem shown_step (hexact : Exact s) {c : Nat} {subid : String} {filters : List Value}
    (h : s.filtersOf c subid = some filters) {o : Op} (hund : Undisturbed X c subid s o) :
    (s.step o).filtersOf c subid = some filters ∧
      shown c subid (s.sent o) = matching subid filters (s.published o) := by
  cases o with
  | register ip now => exact ⟨filtersOf_register hexact h ip now, rfl⟩
  | message id txt now => exact shown_onClientMessage h hund
  | unregister id t => exact shown_unregister hexact h hund t

/-- A subscription is shown what the relay publishes and its filters match, in that order. -/
theorem shown_run (hexact : Exact s) {c : Nat} {subid : String} {filters : List Value}
    (h : s.filtersOf c subid = some filters) {ops : List Op}
    (hops : AllSteps Hub.step (Undisturbed X c subid) s ops) :
    shown c subid (s.sentBy ops) = matching subid filters (s.publishedBy ops) := by
  induction ops generalizing s with
  | nil => rfl
  | cons o ops ih =>
    obtain ⟨hkept, hshown⟩ := shown_step hexact h hops.1
    rw [Hub.sentBy, Hub.publishedBy, shown_append, matching_append, hshown,
      ih (hexact.step o) hkept hops.2]

/-! ### Opening it -/

/-- A request that opens a subscription enters it, and is answered with the replay and its end. -/
theorem shown_handleReq {arr : List Value} {subid : String} (h : s.subscribes id arr = some subid) :
    (s.handleReq id arr).1.filtersOf id subid = some (s.reqFilters arr) ∧
      shown id subid (s.handleReq id arr).2 =
        (s.replay (s.reqFilters arr)).map (fun ev ↦ .event subid ev.toValue) ++ [.eose subid] := by
  constructor
  · unfold Hub.subscribes at h
    obtain ⟨subid', hsubid, h⟩ := Option.bind_eq_some_iff.mp h
    obtain ⟨conn, hconn, h⟩ := Option.bind_eq_some_iff.mp h
    split at h
    · cases h
    · next hceiling =>
      obtain rfl := Option.some.inj h
      unfold Hub.handleReq
      simp only [hsubid, hconn, hceiling, ↓reduceIte]
      refine filtersOf_eq_some_iff.mpr
        ⟨{ conn with subs := conn.subs.insert subid' (s.reqFilters arr) }, ?_,
          AList.lookup_insert _⟩
      rw [lookup_modifyConn, if_pos rfl, hconn]
      rfl
  · rw [handleReq_of_subscribes h, shown_append]
    have hall : ∀ frames : List (Nat × Frame),
        (∀ f ∈ frames, f.1 = id ∧ f.2.subscription = some subid) →
        shown id subid frames = frames.map Prod.snd := by
      intro frames hframes
      rw [shown, List.filter_eq_self.mpr fun f hf ↦ decide_eq_true (hframes f hf)]
    rw [hall _ (by simp [Frame.subscription]), hall _ (by simp [Frame.subscription]),
      List.map_map]
    rfl

/-- The text that opens a subscription is answered with the replay and its end. -/
theorem shown_opens {subid : String} {filters : List Value}
    (h : s.opens id txt now = some (subid, filters)) :
    (s.step (.message id txt now)).filtersOf id subid = some filters ∧
      shown id subid (s.sent (.message id txt now)) =
        (s.replay filters).map (fun ev ↦ .event subid ev.toValue) ++ [.eose subid] := by
  unfold Hub.opens at h
  rw [Hub.step, Hub.sent]
  split at h
  · cases h
  · next hsize =>
    split at h
    · next arr hparse =>
      simp only at h
      split at h
      · next hallowed =>
        obtain ⟨htag, htoken⟩ := hallowed
        obtain ⟨subid', hsubscribes, heq⟩ := Option.map_eq_some_iff.mp h
        obtain ⟨rfl, rfl⟩ := Prod.mk.inj heq
        unfold Hub.onClientMessage
        rw [if_neg hsize, hparse]
        simp only [htag, htoken, not_true_eq_false, ↓reduceIte]
        rw [← (sameBook_takeToken s id true now).replay_eq]
        exact shown_handleReq hsubscribes
      · cases h
    · cases h

/-! ### Every run -/

/-- Whatever happened before, a request that opens a subscription is shown the replay of its filters
and the end of it, and after that, for as long as its connection neither closes nor touches it
again, exactly the events that the relay publishes and the filters match, whoever publishes them:
each once, in the order of publication, with nothing between them and none before. -/
theorem subscription_stream (X : Externals) (limits : Limits) (before after : List Op) {c : Nat}
    {txt : String} {now : Nat} {subid : String} {filters : List Value}
    (hopens : (run Hub.step (Hub.new X limits) before).opens c txt now = some (subid, filters))
    (hafter : AllSteps Hub.step (Undisturbed X c subid)
      ((run Hub.step (Hub.new X limits) before).step (.message c txt now)) after) :
    let s := run Hub.step (Hub.new X limits) before
    shown c subid (s.sentBy (.message c txt now :: after)) =
      (s.replay filters).map (fun ev ↦ .event subid ev.toValue) ++ .eose subid ::
        matching subid filters ((s.step (.message c txt now)).publishedBy after) := by
  intro s
  have hexact : Exact s := run_invariant (fun _ o h ↦ h.step o) (exact_new limits) before
  obtain ⟨hkept, hshown⟩ := shown_opens hopens
  rw [Hub.sentBy, shown_append, hshown, shown_run (hexact.step _) hkept hafter,
    List.append_assoc, List.singleton_append]

/-- The announce of the first client. -/
def firstAnnounce : NostrEvent where
  id := "id-a"
  pubkey := "a"
  createdAt := 7
  kind := 1077
  tags := [["r", "room"]]
  content := "\x7b\"from\":\"dev\",\"kind\":\"announce\"\x7d"
  sig := "sig-a"

set_option maxRecDepth 4096 in
/-- The third client asks for everything; the announce of the first comes after the end of the
empty replay. -/
theorem announce_is_shown : shown 3 "s"
    ((run Hub.step (Hub.new readable {}) (threeClients.take 3)).sentBy
      [.message 3 "[\"REQ\",\"s\",\x7b\x7d]" 0, .message 1 (announceText "a") 0]) =
    [.eose "s", .event "s" firstAnnounce.toValue] := by
  have hopens : (run Hub.step (Hub.new readable {}) (threeClients.take 3)).opens 3
      "[\"REQ\",\"s\",\x7b\x7d]" 0 = some ("s", [.object []]) := by rfl
  have hstream := subscription_stream readable {} (threeClients.take 3)
    [.message 1 (announceText "a") 0] hopens ⟨fun h ↦ absurd h (by decide), trivial⟩
  exact hstream.trans rfl

end MyOwnMesh.SignalingServer
