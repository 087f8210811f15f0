import MyOwnMesh.SignalingServer.Presence

/-!
# Taking over a device at the relay

A signature binds an event to the key that made it, not to the device that its content names.
Any verified announce for a pair moves the ownership of the pair to the connection that sent
it. The owner is safe as long as no other connection announces its pair.
-/

namespace MyOwnMesh.SignalingServer

open Lib.Replay

variable {X : Externals} {s : Hub X} {id : Nat} {txt : String} {now : Nat}

/-! ### What a text publishes -/

/-- The event of an `EVENT` message whose signature holds, with the value that carries it. -/
def publishedBy (X : Externals) (arr : List Value) : Option (Value × NostrEvent) := do
  let value ← arr[1]?
  let event ← X.decodeEvent value
  if event.verify X then some (value, event) else none

/-- The event that a text publishes, if it passes the size and the rate limit and the signature
check, with the value that is forwarded. -/
def Hub.accepted (s : Hub X) (id : Nat) (txt : String) (now : Nat) :
    Option (Value × NostrEvent) :=
  if 0 < s.limits.maxMessageBytes ∧ s.limits.maxMessageBytes < txt.utf8ByteSize % 2 ^ 32 then none
  else
    match X.parse txt with
    | some (.array arr) =>
      if arr.head?.bind Value.asStr = some "EVENT" ∧ (s.takeToken id false now).2 then
        publishedBy X arr
      else none
    | _ => none

/-- A text that is an array publishes what its `EVENT` message does, if a token is left. -/
theorem accepted_array (id now : Nat) {arr : List Value}
    (hsize : ¬ (0 < s.limits.maxMessageBytes ∧
      s.limits.maxMessageBytes < txt.utf8ByteSize % 2 ^ 32))
    (hparse : X.parse txt = some (.array arr)) :
    s.accepted id txt now =
      if arr.head?.bind Value.asStr = some "EVENT" ∧ (s.takeToken id false now).2 then
        publishedBy X arr
      else none := by
  rw [Hub.accepted, if_neg hsize, hparse]

/-- Two hubs with the same presence and the same retained events. -/
def Hub.SameBook (s t : Hub X) : Prop := t.presence = s.presence ∧ t.stored = s.stored

theorem sameBook_modifyConn (s : Hub X) (id : Nat) (f : ConnEntry X → ConnEntry X) :
    s.SameBook (s.modifyConn id f) :=
  ⟨(modifyConn_frame s id f).1, (modifyConn_frame s id f).2.1⟩

theorem Hub.SameBook.trans {s t u : Hub X} (h : s.SameBook t) (h' : t.SameBook u) :
    s.SameBook u :=
  ⟨h'.1.trans h.1, h'.2.trans h.2⟩

theorem Hub.SameBook.presenceAt_eq {t : Hub X} (h : s.SameBook t) (room device : String) :
    t.presenceAt room device = s.presenceAt room device := by
  unfold Hub.presenceAt
  rw [h.1]

theorem Hub.SameBook.replay_eq {t : Hub X} (h : s.SameBook t) (filters : List Value) :
    t.replay filters = s.replay filters := by
  unfold Hub.replay
  rw [h.1, h.2]

theorem sameBook_strike (s : Hub X) (id : Nat) : s.SameBook (s.strike id).1 := by
  unfold Hub.strike
  cases s.conns.lookup id with
  | none => exact ⟨rfl, rfl⟩
  | some conn =>
    simp only
    split
    · exact sameBook_modifyConn s id _
    · exact sameBook_modifyConn s id _

theorem sameBook_takeToken (s : Hub X) (id : Nat) (isReq : Bool) (now : Nat) :
    s.SameBook (s.takeToken id isReq now).1 := by
  unfold Hub.takeToken
  cases s.conns.lookup id with
  | none => exact ⟨rfl, rfl⟩
  | some conn =>
    cases isReq with
    | true => exact sameBook_modifyConn s id _
    | false => exact sameBook_modifyConn s id _

theorem sameBook_handleReq (s : Hub X) (id : Nat) (arr : List Value) :
    s.SameBook (s.handleReq id arr).1 := by
  unfold Hub.handleReq
  cases arr[1]?.bind Value.asStr with
  | none => exact ⟨rfl, rfl⟩
  | some subid =>
    simp only
    cases s.conns.lookup id with
    | none => exact ⟨rfl, rfl⟩
    | some conn =>
      simp only
      split
      · exact ⟨rfl, rfl⟩
      · exact sameBook_modifyConn s id _

theorem sameBook_handleClose (s : Hub X) (id : Nat) (arr : List Value) :
    s.SameBook (s.handleClose id arr) := by
  unfold Hub.handleClose
  cases arr[1]?.bind Value.asStr with
  | none => exact ⟨rfl, rfl⟩
  | some subid => exact sameBook_modifyConn s id _

/-- Who is present once an event is tracked. -/
theorem presenceAt_trackPresence (s : Hub X) (id : Nat) (event : NostrEvent)
    (room device : String) : (s.trackPresence id event).presenceAt room device =
      if presenceOf X event = some (room, device) then some ⟨id, event⟩
      else s.presenceAt room device := by
  unfold Hub.trackPresence
  cases presenceOf X event with
  | none => simp
  | some pair =>
    rw [(sameBook_modifyConn _ id _).presenceAt_eq, presenceAt_insert]
    simp only [Option.some.injEq, @eq_comm _ (room, device)]

/-- What the handler of an event does to the book. -/
theorem handleEvent_book (s : Hub X) (id : Nat) (arr : List Value) (now : Nat) :
    (publishedBy X arr = none ∧ s.SameBook (s.handleEvent id arr now).1) ∨
      ∃ value event, publishedBy X arr = some (value, event) ∧
        (s.handleEvent id arr now).1.presence = (s.trackPresence id event).presence ∧
        ∀ e ∈ (s.handleEvent id arr now).1.stored, e ∈ s.stored ∨ e.event = event := by
  unfold Hub.handleEvent publishedBy
  cases arr[1]? with
  | none => exact .inl ⟨rfl, rfl, rfl⟩
  | some value =>
    simp only [Option.bind_eq_bind, Option.bind_some]
    cases X.decodeEvent value with
    | none => exact .inl ⟨rfl, rfl, rfl⟩
    | some event =>
      simp only [Option.bind_some]
      by_cases hverify : event.verify X
      · have htrack : (s.trackPresence id event).stored = s.stored := by
          unfold Hub.trackPresence
          cases presenceOf X event with
          | none => rfl
          | some pair => exact (modifyConn_frame _ _ _).2.1
        simp only [hverify, not_true_eq_false, ↓reduceIte]
        refine .inr ⟨value, event, rfl, ?_⟩
        by_cases hkind : isStoredKind event.kind
        · simp only [hkind, ↓reduceIte]
          refine ⟨trivial, fun e he ↦ ?_⟩
          rcases List.mem_append.mp (mem_of_mem_prune he) with hold | hnew
          · exact .inl (htrack ▸ hold)
          · rw [List.mem_singleton.mp hnew]
            exact .inr rfl
        · simp only [hkind, Bool.false_eq_true, ↓reduceIte]
          exact ⟨trivial, fun e he ↦ .inl (htrack ▸ he)⟩
      · simp only [hverify, Bool.false_eq_true, not_false_eq_true, ↓reduceIte]
        exact .inl ⟨trivial, rfl, rfl⟩

theorem notMem_strike_sent (s : Hub X) (id c : Nat) (subid : String) (value : Value) :
    (c, .event subid value) ∉ (s.strike id).2.1 := by
  unfold Hub.strike
  cases s.conns.lookup id with
  | none => simp
  | some conn =>
    simp only
    split
    · simp
    · simp

theorem handleReq_sent {arr : List Value} {c : Nat} {subid : String} {value : Value}
    (h : (c, .event subid value) ∈ (s.handleReq id arr).2) :
    ∃ filters, ∃ ev ∈ s.replay filters, value = ev.toValue := by
  unfold Hub.handleReq at h
  split at h
  · simp at h
  · simp only at h
    split at h
    · simp at h
    · split at h
      · simp at h
      · rcases List.mem_append.mp h with hev | heose
        · obtain ⟨ev, hev, heq⟩ := List.mem_map.mp hev
          simp only [Prod.mk.injEq, Frame.event.injEq] at heq
          exact ⟨_, ev, hev, heq.2.2.symm⟩
        · simp at heose

/-- An event is fanned out as the value that carried it. -/
theorem handleEvent_sent {arr : List Value} {c : Nat} {subid : String} {value : Value}
    (h : (c, .event subid value) ∈ (s.handleEvent id arr now).2) :
    ∃ event, publishedBy X arr = some (value, event) := by
  unfold Hub.handleEvent at h
  unfold publishedBy
  split at h
  · simp at h
  · next value' hvalue =>
    split at h
    · simp at h
    · next event hevent =>
      simp only [hvalue, hevent, Option.bind_eq_bind, Option.bind_some]
      by_cases hverify : event.verify X
      · simp only [hverify, not_true_eq_false, ↓reduceIte] at h ⊢
        rcases List.mem_append.mp h with hfan | hok
        · obtain ⟨conn, -, hfan⟩ := List.mem_flatMap.mp hfan
          obtain ⟨sub, -, heq⟩ := List.mem_map.mp hfan
          cases heq
          exact ⟨event, rfl⟩
        · by_cases hlive : id ∈ s.conns
          · simp [hlive] at hok
          · simp [hlive] at hok
      · by_cases hlive : id ∈ s.conns
        · simp [hverify, hlive] at h
        · simp [hverify, hlive] at h

/-- A text that publishes nothing leaves the book alone; an event that it publishes is tracked
and perhaps retained. -/
theorem onClientMessage_book (s : Hub X) (id : Nat) (txt : String) (now : Nat) :
    (s.accepted id txt now = none ∧ s.SameBook (s.onClientMessage id txt now).1) ∨
      ∃ value event, s.accepted id txt now = some (value, event) ∧
        (∀ room device, (s.onClientMessage id txt now).1.presenceAt room device =
          if presenceOf X event = some (room, device) then some ⟨id, event⟩
          else s.presenceAt room device) ∧
        ∀ e ∈ (s.onClientMessage id txt now).1.stored, e ∈ s.stored ∨ e.event = event := by
  unfold Hub.onClientMessage
  split
  · next hsize => exact .inl ⟨if_pos hsize, sameBook_strike s id⟩
  · next hsize =>
    split
    · next arr hparse =>
      have hacc := accepted_array id now hsize hparse
      generalize s.accepted id txt now = acc at hacc ⊢
      split
      · next htag =>
        have htoken := sameBook_takeToken s id true now
        simp only
        split
        · exact .inl ⟨by simp [hacc, htag], htoken.trans (sameBook_strike _ id)⟩
        · exact .inl ⟨by simp [hacc, htag], htoken.trans (sameBook_handleReq _ id arr)⟩
      · next htag =>
        have htoken := sameBook_takeToken s id false now
        simp only [htag, true_and] at hacc ⊢
        by_cases hallowed : (s.takeToken id false now).2 = true
        · simp only [hallowed, not_true_eq_false, ↓reduceIte] at hacc ⊢
          rw [hacc]
          rcases handleEvent_book (s.takeToken id false now).1 id arr now with
            ⟨hnone, hsame⟩ | ⟨value, event, hevent, hpresence, hstored⟩
          · exact .inl ⟨hnone, htoken.trans hsame⟩
          · refine .inr ⟨value, event, hevent, fun room device ↦ ?_, ?_⟩
            · rw [Hub.presenceAt, hpresence, ← htoken.presenceAt_eq]
              exact presenceAt_trackPresence _ id event room device
            · rw [← htoken.2]
              exact hstored
        · simp only [hallowed, Bool.false_eq_true, not_false_eq_true, ↓reduceIte] at hacc ⊢
          exact .inl ⟨hacc, htoken.trans (sameBook_strike _ id)⟩
      · next htag => exact .inl ⟨by simp [hacc, htag], sameBook_handleClose s id arr⟩
      · next hevent _ => exact .inl ⟨hacc.trans (if_neg fun h ↦ hevent h.1), rfl, rfl⟩
    · next hother =>
      refine .inl ⟨?_, rfl, rfl⟩
      unfold Hub.accepted
      rw [if_neg hsize]
      split
      · next arr hparse => exact absurd hparse (hother arr)
      · rfl

/-- Every event frame that a text causes carries the event it publishes or a replayed one. -/
theorem onClientMessage_sent {c : Nat} {subid : String} {value : Value}
    (h : (c, .event subid value) ∈ (s.onClientMessage id txt now).2.1) :
    (∃ event, s.accepted id txt now = some (value, event)) ∨
      ∃ filters, ∃ ev ∈ s.replay filters, value = ev.toValue := by
  unfold Hub.onClientMessage at h
  split at h
  · exact absurd h (notMem_strike_sent s id c subid value)
  · next hsize =>
    split at h
    · next arr hparse =>
      rw [accepted_array id now hsize hparse]
      split at h
      · have htoken := sameBook_takeToken s id true now
        simp only at h
        split at h
        · exact absurd h (notMem_strike_sent _ id c subid value)
        · obtain ⟨filters, ev, hev, rfl⟩ := handleReq_sent h
          exact .inr ⟨filters, ev, htoken.replay_eq filters ▸ hev, rfl⟩
      · next htag =>
        simp only at h
        split at h
        · exact absurd h (notMem_strike_sent _ id c subid value)
        · next hallowed =>
          rw [Bool.not_eq_true, Bool.not_eq_false] at hallowed
          rw [if_pos ⟨htag, hallowed⟩]
          exact .inl (handleEvent_sent h)
      · exact absurd h List.not_mem_nil
      · exact absurd h List.not_mem_nil
    · exact absurd h List.not_mem_nil

/-! ### Closing another connection -/

/-- A connection that closes does not touch a pair that another one owns. -/
theorem presenceAt_departStep {room device : String} {p : Presence} {t : UInt64}
    {pair : String × String} (h : s.presenceAt room device = some p) (hid : p.connId ≠ id)
    (sent : List (Nat × Frame)) :
    (departStep id t (s, sent) pair).1.presenceAt room device = some p := by
  unfold departStep
  by_cases howns : s.owns id pair
  · have hne : (room, device) ≠ (pair.1, pair.2) := by
      rintro heq
      obtain ⟨q, hq, hqid⟩ := (owns_iff s id pair).mp howns
      obtain ⟨rfl, rfl⟩ := Prod.mk.inj heq
      rw [hq] at h
      cases h
      exact hid hqid
    simp only [howns, not_true_eq_false, ↓reduceIte]
    rw [presenceAt_remove, if_neg hne]
    exact h
  · simpa [howns] using h

theorem stored_departStep {t : UInt64} {pair : String × String} {sent : List (Nat × Frame)}
    {e : StoredEvent} (h : e ∈ (departStep id t (s, sent) pair).1.stored) : e ∈ s.stored := by
  unfold departStep at h
  by_cases howns : s.owns id pair
  · simp only [howns, not_true_eq_false, ↓reduceIte] at h
    exact List.mem_of_mem_filter h
  · simpa [howns] using h

/-- The walk of a closing connection keeps the pairs of the others. -/
theorem foldl_departStep_keeps {room device : String} {p : Presence} {t : UInt64}
    (todo : List (String × String)) (h : s.presenceAt room device = some p)
    (hid : p.connId ≠ id) (sent : List (Nat × Frame)) :
    (todo.foldl (departStep id t) (s, sent)).1.presenceAt room device = some p ∧
      ∀ e ∈ (todo.foldl (departStep id t) (s, sent)).1.stored, e ∈ s.stored := by
  induction todo generalizing s sent with
  | nil => exact ⟨h, fun e he ↦ he⟩
  | cons pair todo ih =>
    obtain ⟨hpresence, hstored⟩ := ih (presenceAt_departStep h hid sent) _
    exact ⟨hpresence, fun e he ↦ stored_departStep (hstored e he)⟩

theorem unregister_keeps {room device : String} {p : Presence} {t : UInt64}
    (h : s.presenceAt room device = some p) (hid : p.connId ≠ id) :
    (s.unregister id t).1.presenceAt room device = some p ∧
      ∀ e ∈ (s.unregister id t).1.stored, e ∈ s.stored := by
  unfold Hub.unregister
  cases s.conns.lookup id with
  | none => exact ⟨h, fun e he ↦ he⟩
  | some entry =>
    simp only
    obtain ⟨hpresence, hstored⟩ := foldl_departStep_keeps entry.present (t := t)
      (s := { s with conns := s.conns.erase id, ipCounts := releaseIp s.ipCounts entry.ip })
      h hid []
    exact ⟨hpresence, hstored⟩

/-! ### The owner of a pair -/

/-- Connection `A` holds a pair: it is present with an announce of key `k`, and no announce for
the pair that is kept for replay has another key. -/
structure Held (A : Nat) (k room device : String) (s : Hub X) : Prop where
  exact : Exact s
  owner : ∃ p, s.presenceAt room device = some p ∧ p.connId = A ∧ p.announce.pubkey = k
  stored : ∀ e ∈ s.stored, presenceOf X e.event = some (room, device) → e.event.pubkey = k

/-- A call by which nobody else announces the pair of connection `A`: an announce for it that
passes the checks is `A`'s own with key `k`, and `A` stays. -/
def NoRival (A : Nat) (k room device : String) (s : Hub X) : Op → Prop
  | .register _ _ => True
  | .message id txt now => ∀ value event, s.accepted id txt now = some (value, event) →
      presenceOf X event = some (room, device) → id = A ∧ event.pubkey = k
  | .unregister id _ => id ≠ A

variable {A : Nat} {k room device : String}

/-- An announce of `A` with key `k` makes it hold the pair, unless one of another key is kept. -/
theorem held_of_announce {value : Value} {event : NostrEvent} (h : Exact s)
    (hstored : ∀ e ∈ s.stored, presenceOf X e.event = some (room, device) → e.event.pubkey = k)
    (haccepted : s.accepted A txt now = some (value, event))
    (hpair : presenceOf X event = some (room, device)) (hkey : event.pubkey = k) :
    Held A k room device (s.step (.message A txt now)) := by
  rcases onClientMessage_book s A txt now with ⟨hnone, -⟩ | ⟨value', event', hsome, hat, hkept⟩
  · rw [hnone] at haccepted
    cases haccepted
  · rw [hsome] at haccepted
    cases haccepted
    refine ⟨h.step _, ⟨⟨A, event⟩, (hat room device).trans (if_pos hpair), rfl, hkey⟩, ?_⟩
    intro e he hannounce
    rcases hkept e he with hold | rfl
    · exact hstored e hold hannounce
    · exact hkey

/-- A text that is no rival's keeps the pair held. -/
theorem Held.message (h : Held A k room device s)
    (hrival : NoRival A k room device s (.message id txt now)) :
    Held A k room device (s.step (.message id txt now)) := by
  obtain ⟨p, hp, hconn, hkey⟩ := h.owner
  rcases onClientMessage_book s id txt now with ⟨-, hsame⟩ | ⟨value, event, hsome, hat, hkept⟩
  · exact ⟨h.exact.step _, ⟨p, (hsame.presenceAt_eq room device).trans hp, hconn, hkey⟩,
      fun e he ↦ h.stored e (hsame.2 ▸ he)⟩
  · have hown := hrival value event hsome
    refine ⟨h.exact.step _, ?_, fun e he hannounce ↦ ?_⟩
    · by_cases hpair : presenceOf X event = some (room, device)
      · obtain ⟨rfl, hevent⟩ := hown hpair
        exact ⟨⟨id, event⟩, (hat room device).trans (if_pos hpair), rfl, hevent⟩
      · exact ⟨p, ((hat room device).trans (if_neg hpair)).trans hp, hconn, hkey⟩
    · rcases hkept e he with hold | rfl
      · exact h.stored e hold hannounce
      · exact (hown hannounce).2

/-- Another connection that closes keeps the pair held. -/
theorem Held.unregister {t : UInt64} (h : Held A k room device s) (hid : id ≠ A) :
    Held A k room device (s.step (.unregister id t)) := by
  obtain ⟨p, hp, hconn, hkey⟩ := h.owner
  obtain ⟨hpresence, hstored⟩ := unregister_keeps (t := t) hp (hconn ▸ hid.symm)
  exact ⟨h.exact.step _, ⟨p, hpresence, hconn, hkey⟩, fun e he ↦ h.stored e (hstored e he)⟩

theorem Held.register {ip : IpAddr} (h : Held A k room device s) :
    Held A k room device (s.step (.register ip now)) := by
  have hsame : s.SameBook (s.register ip now).1 := by
    unfold Hub.register
    simp only
    split
    · exact ⟨rfl, rfl⟩
    · exact ⟨rfl, rfl⟩
  obtain ⟨p, hp, hconn, hkey⟩ := h.owner
  exact ⟨h.exact.step _, ⟨p, (hsame.presenceAt_eq room device).trans hp, hconn, hkey⟩,
    fun e he ↦ h.stored e (hsame.2 ▸ he)⟩

/-- What a call without a rival preserves. -/
theorem Held.step (h : Held A k room device s) {o : Op} (hrival : NoRival A k room device s o) :
    Held A k room device (s.step o) := by
  cases o with
  | register ip now => exact h.register
  | message id txt now => exact h.message hrival
  | unregister id t => exact h.unregister hrival

/-- The replay of a held pair has its key. -/
theorem Held.replay (h : Held A k room device s) {filters : List Value} {ev : NostrEvent}
    (hev : ev ∈ s.replay filters) (hpair : presenceOf X ev = some (room, device)) :
    ev.pubkey = k := by
  rcases mem_replay hev with ⟨e, he, rfl⟩ | ⟨room', device', q, hq, rfl⟩
  · exact h.stored e he hpair
  · rw [h.exact.book.announced room' device' q hq] at hpair
    cases hpair
    obtain ⟨p, hp, -, hkey⟩ := h.owner
    rw [hp] at hq
    cases hq
    exact hkey

/-! ### What the relay sends -/

/-- What one call queues. -/
def Hub.sent (s : Hub X) : Op → List (Nat × Frame)
  | .register _ _ => []
  | .message id txt now => (s.onClientMessage id txt now).2.1
  | .unregister id t => (s.unregister id t).2

/-- The relay sends what a client publishes in this very call, what it replays, and departures
of its own; while a pair is held, none of these is about that pair. -/
theorem Held.sent (h : Held A k room device s) {o : Op} (hrival : NoRival A k room device s o)
    {c : Nat} {subid : String} {value : Value} (hsent : (c, .event subid value) ∈ s.sent o) :
    (∃ id txt now event, o = .message id txt now ∧ s.accepted id txt now = some (value, event)) ∨
      (∃ filters, ∃ ev ∈ s.replay filters, value = ev.toValue) ∨
      ∃ room' device' t, (room', device') ≠ (room, device) ∧
        value = (buildLeaveEvent X room' device' t).toValue := by
  cases o with
  | register ip now => exact absurd hsent List.not_mem_nil
  | message id txt now =>
    rcases onClientMessage_sent hsent with ⟨event, hevent⟩ | hreplay
    · exact .inl ⟨id, txt, now, event, rfl, hevent⟩
    · exact .inr (.inl hreplay)
  | unregister id t =>
    obtain ⟨owned, -, howned, heq⟩ := h.exact.unregister_sent id t
    rw [Hub.sent, heq] at hsent
    obtain ⟨⟨room', device'⟩, hmem, hsent⟩ := List.mem_flatMap.mp hsent
    obtain ⟨conn, -, hsent⟩ := List.mem_flatMap.mp hsent
    obtain ⟨sub, -, hframe⟩ := List.mem_map.mp hsent
    simp only [Prod.mk.injEq, Frame.event.injEq] at hframe
    refine .inr (.inr ⟨room', device', t, fun hsame ↦ ?_, hframe.2.2.symm⟩)
    -- The closing connection would own the pair that `A` owns.
    obtain ⟨q, hq, hid⟩ := (howned room' device').mp hmem
    obtain ⟨p, hp, hconn, -⟩ := h.owner
    obtain ⟨rfl, rfl⟩ := Prod.mk.inj hsame
    rw [hp] at hq
    cases hq
    exact hrival (hid.symm.trans hconn)

/-! ### Every run -/

/-- A connection announced a pair, no announce of another key was kept for it, and from then on
nobody else announces the pair. Then whatever else is sent and whoever else leaves, every replay
of the pair has the key of the announce, and no departure that the relay builds is about it. -/
theorem pair_kept_without_rivals (X : Externals) (limits : Limits) (before after : List Op)
    {A : Nat} {txt : String} {now : Nat} {value : Value} {event : NostrEvent}
    {room device : String}
    (haccepted : (run Hub.step (Hub.new X limits) before).accepted A txt now = some (value, event))
    (hpair : presenceOf X event = some (room, device))
    (hstored : ∀ e ∈ (run Hub.step (Hub.new X limits) before).stored,
      presenceOf X e.event = some (room, device) → e.event.pubkey = event.pubkey)
    (hafter : AllSteps Hub.step (NoRival A event.pubkey room device)
      ((run Hub.step (Hub.new X limits) before).step (.message A txt now)) after) :
    (∀ pre post, after = pre ++ post → ∀ filters,
      ∀ ev ∈ (run Hub.step (Hub.new X limits) (before ++ .message A txt now :: pre)).replay filters,
        presenceOf X ev = some (room, device) → ev.pubkey = event.pubkey) ∧
    ∀ pre o post, after = pre ++ o :: post → ∀ c subid v,
      (c, .event subid v) ∈
        (run Hub.step (Hub.new X limits) (before ++ .message A txt now :: pre)).sent o →
      (∃ id' txt' now' ev, o = .message id' txt' now' ∧
        (run Hub.step (Hub.new X limits) (before ++ .message A txt now :: pre)).accepted
          id' txt' now' = some (v, ev)) ∨
      (∃ filters,
        ∃ ev ∈ (run Hub.step (Hub.new X limits)
          (before ++ .message A txt now :: pre)).replay filters, v = ev.toValue) ∨
      ∃ room' device' t, (room', device') ≠ (room, device) ∧
        v = (buildLeaveEvent X room' device' t).toValue := by
  have hexact : Exact (run Hub.step (Hub.new X limits) before) :=
    run_invariant (I := Exact) (fun _ o hs ↦ Exact.step hs o) (exact_new limits) before
  have hheld := held_of_announce hexact hstored haccepted hpair rfl
  have hall := forall_run_of_allSteps (I := Held A event.pubkey room device)
    (fun s o hs ho ↦ Held.step hs ho) hheld hafter
  simp only [run_append, run_cons]
  constructor
  · intro pre post hsplit filters ev hev hannounce
    exact (hall pre post hsplit).replay hev hannounce
  · intro pre o post hsplit c subid v hsent
    rw [hsplit, allSteps_append_iff] at hafter
    exact (hall pre (o :: post) hsplit).sent hafter.2.1 hsent

/-- The announce of device `dev` in a room, as the holder of a key publishes it. -/
def announceText (key : String) : String :=
  "[\"EVENT\",\x7b\"id\":\"id-" ++ key ++ "\",\"pubkey\":\"" ++ key ++
    "\",\"created_at\":7,\"kind\":1077,\"tags\":[[\"r\",\"room\"]],\"content\":" ++
    "\"\x7b\\\"from\\\":\\\"dev\\\",\\\"kind\\\":\\\"announce\\\"\x7d\",\"sig\":\"sig-" ++ key ++
    "\"\x7d]"

/-- A library that reads three texts, with keys whose signatures are readable. -/
def readable : Externals where
  parse txt :=
    let announce (key : String) : Value :=
      .array [.string "EVENT",
        NostrEvent.toValue
          { id := "id-" ++ key, pubkey := key, createdAt := 7, kind := 1077
            tags := [["r", "room"]], sig := "sig-" ++ key
            content := "\x7b\"from\":\"dev\",\"kind\":\"announce\"\x7d" }]
    if txt = announceText "a" then some (announce "a")
    else if txt = announceText "b" then some (announce "b")
    else if txt = "[\"REQ\",\"s\",\x7b\x7d]" then
      some (.array [.string "REQ", .string "s", .object []])
    else if txt = "\x7b\"from\":\"dev\",\"kind\":\"announce\"\x7d" then
      some (.object [("from", .string "dev"), ("kind", .string "announce")])
    else none
  print
    | .object [("from", .string device), ("kind", .string kind), ("peer_id", .string peer)] =>
      "\x7b\"from\":\"" ++ device ++ "\",\"kind\":\"" ++ kind ++ "\",\"peer_id\":\"" ++ peer ++
        "\"\x7d"
    | _ => "null"
  decodeEvent v := do
    let texts : Value → Option (List String)
      | .array items => items.mapM Value.asStr
      | _ => none
    let tags : Value → Option (List (List String))
      | .array items => items.mapM texts
      | _ => none
    return { id := ← (← v.get? "id").asStr
             pubkey := ← (← v.get? "pubkey").asStr
             createdAt := ← (← v.get? "created_at").asU64
             kind := (← (← v.get? "kind").asU64).toUInt16
             tags := ← tags (← v.get? "tags")
             content := ← (← v.get? "content").asStr
             sig := ← (← v.get? "sig").asStr }
  eventId pubkey _ _ _ _ := "id-" ++ pubkey
  verifySchnorr pubkey id sig := id == "id-" ++ pubkey && sig == "sig-" ++ pubkey
  pubkey := "relay"
  signDigest id := "sig-" ++ id
  Bucket := Unit
  newBucket _ _ := ()
  allow _ _ := (true, ())

/-- Three connections, of which the third reads everything. -/
def threeClients : List Op :=
  [.register (.v4 1) 0, .register (.v4 2) 0, .register (.v4 3) 0,
    .message 3 "[\"REQ\",\"s\",\x7b\x7d]" 0]

/-- The second client reads and leaves; the first stays present under its key. -/
theorem reader_leaves :
    ∃ event, (((run Hub.step (Hub.new readable {}) threeClients).accepted 1 (announceText "a")
      0).map Prod.snd = some event ∧ event.pubkey = "a") ∧
      ∀ filters, ∀ ev ∈ (run Hub.step (Hub.new readable {}) (threeClients ++
          [.message 1 (announceText "a") 0, .message 2 "[\"REQ\",\"s\",\x7b\x7d]" 0,
            .unregister 2 5])).replay filters,
        presenceOf readable ev = some ("room", "dev") → ev.pubkey = "a" := by
  have hany : ((run Hub.step (Hub.new readable {}) threeClients).accepted 1 (announceText "a")
      0).any (fun a ↦ a.2.pubkey = "a" ∧ presenceOf readable a.2 = some ("room", "dev")) := by
    decide +kernel
  obtain ⟨⟨value, event⟩, haccepted, hevent⟩ := (Option.any_eq_true _ _).mp hany
  obtain ⟨hkey, hpair⟩ := of_decide_eq_true hevent
  have hreader : (((run Hub.step (Hub.new readable {}) threeClients).step
      (.message 1 (announceText "a") 0)).accepted 2 "[\"REQ\",\"s\",\x7b\x7d]" 0).isNone := by
    decide +kernel
  have hnone : (run Hub.step (Hub.new readable {}) threeClients).stored.isEmpty := by
    decide +kernel
  have hkept := (pair_kept_without_rivals readable {} threeClients
    [.message 2 "[\"REQ\",\"s\",\x7b\x7d]" 0, .unregister 2 5] haccepted hpair
    (fun e he ↦ by simp [List.isEmpty_iff.mp hnone] at he)
    ⟨fun v ev hsome ↦ by simp [hsome] at hreader, Nat.succ_ne_self 1, trivial⟩).1
  refine ⟨event, ⟨by rw [haccepted, Option.map_some], hkey⟩, fun filters ev hev hannounce ↦ ?_⟩
  exact (hkept _ [] (List.append_nil _).symm filters ev hev hannounce).trans hkey

set_option maxRecDepth 4096 in
/-- The second client announces the device of the first under its own key, and leaves: the relay
replays the announce of the second, and tells the third that the device left, while the first is
still connected. -/
theorem announced_away :
    ((run Hub.step (Hub.new readable {}) (threeClients ++
        [.message 1 (announceText "a") 0])).presenceAt "room" "dev").map
      (fun p ↦ (p.connId, p.announce.pubkey)) = some (1, "a") ∧
    ((run Hub.step (Hub.new readable {}) (threeClients ++
        [.message 1 (announceText "a") 0, .message 2 (announceText "b") 0])).replay []).any
      (fun ev ↦ presenceOf readable ev = some ("room", "dev") ∧ ev.pubkey = "b") ∧
    1 ∈ (run Hub.step (Hub.new readable {}) (threeClients ++
        [.message 1 (announceText "a") 0, .message 2 (announceText "b") 0])).conns ∧
    (run Hub.step (Hub.new readable {}) (threeClients ++
        [.message 1 (announceText "a") 0, .message 2 (announceText "b") 0])).sent
      (.unregister 2 5) = [(3, .event "s" (buildLeaveEvent readable "room" "dev" 5).toValue)] := by
  refine ⟨by decide +kernel, by decide +kernel, by decide +kernel, ?_⟩
  rfl

end MyOwnMesh.SignalingServer
