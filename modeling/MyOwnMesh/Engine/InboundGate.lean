import MyOwnMesh.Engine.SignalingBridge
import MyOwnMesh.Lib.Json
import MyOwnMesh.NetworkState.GovernanceLog
import MyOwnMesh.Nostr.Readings
import MyOwnMesh.SignalingServer.Takeover

/-!
# Two drivers, one delivery

One emission of a peer travels over both drivers, and each of them may repeat it. The invariant
of the receiving side ties the memory of the gate to what passed, and what passed to what the
engine receives; the gate's lock makes the order of decisions one order, while each pump sends in
its own.
-/

namespace MyOwnMesh

open Lib Lib.Replay

/-- The messages of one pump. -/
def ofPump (p : Pump) (l : List (Pump × SignalingInbound)) : List SignalingInbound :=
  l.filterMap fun e ↦ if e.1 = p then some e.2 else none

/-- The keys of the messages that have one. -/
def gateKeys (hash : GateContent → UInt64) (l : List (Pump × SignalingInbound)) : List UInt64 :=
  l.filterMap fun e ↦ dedupKey hash e.2

section Lists

variable {p q : Pump} {m : SignalingInbound} {l l' : List (Pump × SignalingInbound)}
  {hash : GateContent → UInt64}

@[simp] theorem ofPump_append : ofPump p (l ++ l') = ofPump p l ++ ofPump p l' :=
  List.filterMap_append

@[simp] theorem ofPump_singleton_self : ofPump p [(p, m)] = [m] := by simp [ofPump]

theorem ofPump_singleton_of_ne (h : q ≠ p) : ofPump p [(q, m)] = [] := by simp [ofPump, h]

theorem mem_ofPump : m ∈ ofPump p l ↔ (p, m) ∈ l := by
  rw [ofPump, List.mem_filterMap]
  constructor
  · rintro ⟨⟨q, m'⟩, he, hm⟩
    by_cases hq : q = p
    · rw [if_pos hq] at hm
      cases hm
      exact hq ▸ he
    · rw [if_neg hq] at hm
      cases hm
  · intro h
    exact ⟨(p, m), h, if_pos rfl⟩

@[simp] theorem gateKeys_append : gateKeys hash (l ++ l') = gateKeys hash l ++ gateKeys hash l' :=
  List.filterMap_append

theorem mem_gateKeys {k : UInt64} :
    k ∈ gateKeys hash l ↔ ∃ e ∈ l, dedupKey hash e.2 = some k := List.mem_filterMap

end Lists

/-! ### The invariant -/

/-- The message needs no key. -/
def Unkeyed (e : Pump × SignalingInbound) : Bool := e.2.content.isNone

/-- What holds between the events. A pump has decided what it took, in order; what it lets pass
it sends in that order, one message at a time; the memory of the gate is that of what passed, and
what did not pass has a key that did. -/
structure Inlets.Inv (c : BridgeContext) (s : Inlets) : Prop where
  taken : ∀ p, s.taken p ≤ (s.told p).length
  order : ∀ p, ofPump p s.decided =
    ((s.told p).take (s.taken p)).filterMap (DriverInbound.translate c.primitives)
  sub : s.passed.Sublist s.decided
  unkeyed : s.passed.filter Unkeyed = s.decided.filter Unkeyed
  keyed : ∀ e ∈ s.decided, ∀ k, dedupKey c.hash e.2 = some k → k ∈ gateKeys c.hash s.passed
  ring : SeenRing.Ring gateSeenCapacity (gateKeys c.hash s.passed) s.seen
  sent : ∀ p, ofPump p s.passed = ofPump p s.engine ++ (s.held p).toList

namespace Inlets

variable {c : BridgeContext} {s : Inlets}

theorem Inv.new : Inv c Inlets.new where
  taken := fun _ ↦ Nat.le_refl 0
  order := fun _ ↦ rfl
  sub := List.Sublist.slnil
  unkeyed := rfl
  keyed := fun _ h ↦ absurd h List.not_mem_nil
  ring := SeenRing.Ring.nil
  sent := fun _ ↦ rfl

/-- What a driver tells waits until its pump takes it. -/
theorem Inv.tell (h : Inv c s) (p : Pump) (is : List DriverInbound) : Inv c (s.tell p is) :=
  { h with
    taken := by
      intro q
      by_cases hq : q = p
      · subst hq
        have := h.taken q
        simp only [Inlets.tell, Function.update_self, List.length_append]
        omega
      · simpa [Inlets.tell, Function.update_of_ne hq] using h.taken q
    order := by
      intro q
      by_cases hq : q = p
      · subst hq
        simpa [Inlets.tell, List.take_append_of_le_length (h.taken q)] using h.order q
      · simpa [Inlets.tell, Function.update_of_ne hq] using h.order q }

/-- What the gate does with one message. -/
inductive Decision (hash : GateContent → UInt64) (s : Inlets) (p : Pump) (m : SignalingInbound) :
    Inlets → Prop
  /-- A message without a key passes. -/
  | free (h : dedupKey hash m = none) :
    Decision hash s p m { s with
      decided := s.decided ++ [(p, m)]
      passed := s.passed ++ [(p, m)]
      held := Function.update s.held p (some m) }
  /-- A key that is not remembered passes and is remembered. -/
  | new (k : UInt64) (h : dedupKey hash m = some k) (hk : k ∉ s.seen) :
    Decision hash s p m { s with
      decided := s.decided ++ [(p, m)]
      passed := s.passed ++ [(p, m)]
      held := Function.update s.held p (some m)
      seen := SeenRing.remember gateSeenCapacity s.seen k }
  /-- A key that is remembered does not pass. -/
  | copy (k : UInt64) (h : dedupKey hash m = some k) (hk : k ∈ s.seen) :
    Decision hash s p m { s with decided := s.decided ++ [(p, m)] }

theorem decide_spec (hash : GateContent → UInt64) (s : Inlets) (p : Pump)
    (m : SignalingInbound) : Decision hash s p m (s.decide hash p m) := by
  unfold Inlets.decide gateDecide
  cases hkey : dedupKey hash m with
  | none => exact .free hkey
  | some k =>
    by_cases hk : k ∈ s.seen
    · simp only [hk, ↓reduceIte]
      exact .copy k hkey hk
    · simp only [hk, ↓reduceIte]
      exact .new k hkey hk

private theorem unkeyed_iff (hash : GateContent → UInt64) {e : Pump × SignalingInbound} :
    Unkeyed e = true ↔ dedupKey hash e.2 = none := by
  rw [Unkeyed, dedupKey, Option.isNone_iff_eq_none, Option.map_eq_none_iff]

/-- A message that a pump hands over after taking `i` is decided as the invariant wants. -/
private theorem Inv.decided {i : DriverInbound} {m : SignalingInbound} {p : Pump} (h : Inv c s)
    (hnext : (s.told p)[s.taken p]? = some i) (hm : i.translate c.primitives = some m) (q : Pump) :
    ofPump q (s.decided ++ [(p, m)]) =
      ((s.told q).take (Function.update s.taken p (s.taken p + 1) q)).filterMap
        (DriverInbound.translate c.primitives) := by
  rw [ofPump_append, h.order q]
  by_cases hq : q = p
  · subst hq
    rw [ofPump_singleton_self, Function.update_self, List.take_add_one, hnext,
      List.filterMap_append]
    simp [hm]
  · rw [ofPump_singleton_of_ne (Ne.symm hq), List.append_nil, Function.update_of_ne hq]

private theorem Inv.takenNext {i : DriverInbound} {p : Pump} (h : Inv c s)
    (hnext : (s.told p)[s.taken p]? = some i) (q : Pump) :
    Function.update s.taken p (s.taken p + 1) q ≤ (s.told q).length := by
  by_cases hq : q = p
  · subst hq
    rw [Function.update_self]
    exact (List.getElem?_eq_some_iff.mp hnext).1
  · rw [Function.update_of_ne hq]
    exact h.taken q

/-- The message that passes is in its pump's hand. -/
private theorem Inv.holds {m : SignalingInbound} {p : Pump} (h : Inv c s)
    (hheld : s.held p = none) (q : Pump) :
    ofPump q (s.passed ++ [(p, m)]) =
      ofPump q s.engine ++ (Function.update s.held p (some m) q).toList := by
  rw [ofPump_append, h.sent q]
  by_cases hq : q = p
  · subst hq
    rw [ofPump_singleton_self, Function.update_self, hheld]
    simp
  · rw [ofPump_singleton_of_ne (Ne.symm hq), List.append_nil, Function.update_of_ne hq]

theorem Inv.take (h : Inv c s) (p : Pump) : Inv c (s.take c p) := by
  unfold Inlets.take
  cases hheld : s.held p with
  | some m => exact h
  | none =>
    cases hnext : (s.told p)[s.taken p]? with
    | none => exact h
    | some i =>
      cases hm : i.translate c.primitives with
      | none =>
        simp only [hm]
        refine { h with taken := h.takenNext hnext, order := fun q ↦ ?_ }
        simp only
        rw [h.order q]
        by_cases hq : q = p
        · subst hq
          rw [Function.update_self, List.take_add_one, hnext, List.filterMap_append]
          simp [hm]
        · rw [Function.update_of_ne hq]
      | some m =>
        simp only [hm]
        have hdecision := decide_spec c.hash
          { s with taken := Function.update s.taken p (s.taken p + 1) } p m
        generalize Inlets.decide _ _ _ _ = s' at hdecision ⊢
        cases hdecision with
        | free hkey =>
          have hunkeyed : Unkeyed (p, m) = true := (unkeyed_iff c.hash).mpr hkey
          have hkeys : gateKeys c.hash (s.passed ++ [(p, m)]) = gateKeys c.hash s.passed := by
            rw [gateKeys_append]
            simp [gateKeys, hkey]
          exact {
            taken := h.takenNext hnext
            order := h.decided hnext hm
            sub := h.sub.append (List.Sublist.refl _)
            unkeyed := by rw [List.filter_append, List.filter_append, h.unkeyed]
            keyed := by
              intro e he k hk
              rw [hkeys]
              rcases List.mem_append.mp he with hold | hnew
              · exact h.keyed e hold k hk
              · rw [List.mem_singleton.mp hnew, hkey] at hk
                cases hk
            ring := by
              rw [hkeys]
              exact h.ring
            sent := h.holds hheld }
        | new k hkey hk =>
          have hkeys : gateKeys c.hash (s.passed ++ [(p, m)]) =
              gateKeys c.hash s.passed ++ [k] := by
            rw [gateKeys_append]
            simp [gateKeys, hkey]
          exact {
            taken := h.takenNext hnext
            order := h.decided hnext hm
            sub := h.sub.append (List.Sublist.refl _)
            unkeyed := by rw [List.filter_append, List.filter_append, h.unkeyed]
            keyed := by
              intro e he k' hk'
              rw [hkeys]
              rcases List.mem_append.mp he with hold | hnew
              · exact List.mem_append_left _ (h.keyed e hold k' hk')
              · rw [List.mem_singleton.mp hnew, hkey] at hk'
                cases hk'
                exact List.mem_append_right _ (List.mem_singleton_self k)
            ring := by
              rw [hkeys]
              exact h.ring.pass (by decide) hk
            sent := h.holds hheld }
        | copy k hkey hk =>
          have hkeyed : Unkeyed (p, m) = false := by
            rw [← Bool.not_eq_true, unkeyed_iff c.hash, hkey]
            exact Option.some_ne_none k
          exact {
            taken := h.takenNext hnext
            order := h.decided hnext hm
            sub := h.sub.trans (List.sublist_append_left _ _)
            unkeyed := by
              rw [List.filter_append, h.unkeyed, List.filter_cons_of_neg (by simp [hkeyed])]
              simp
            keyed := by
              intro e he k' hk'
              rcases List.mem_append.mp he with hold | hnew
              · exact h.keyed e hold k' hk'
              · rw [List.mem_singleton.mp hnew, hkey] at hk'
                cases hk'
                exact h.ring.mem_log hk
            ring := h.ring
            sent := h.sent }

theorem Inv.send (h : Inv c s) (p : Pump) : Inv c (s.send p) := by
  unfold Inlets.send
  cases hheld : s.held p with
  | none => exact h
  | some m =>
    refine { h with sent := fun q ↦ ?_ }
    simp only
    rw [h.sent q, ofPump_append]
    by_cases hq : q = p
    · subst hq
      rw [hheld, ofPump_singleton_self, Function.update_self]
      simp
    · rw [ofPump_singleton_of_ne (Ne.symm hq), Function.update_of_ne hq, List.append_nil]

/-- Every event keeps the invariant. -/
theorem Inv.event (h : Inv c s) (e : BridgeEvent) : Inv c (s.step c e) := by
  cases e with
  | relayFrame frame =>
    have hdriver : ∀ d, Inv c { s with driver := d } := fun d ↦ { h with }
    unfold Inlets.step
    simp only
    split
    · exact (hdriver _).tell _ _
    · exact hdriver _
  | browse e =>
    have htables : ∀ t, Inv c { s with tables := t } := fun t ↦ { h with }
    exact (htables _).tell _ _
  | reannounce => exact h.tell _ _
  | line line =>
    unfold Inlets.step
    simp only
    split
    · exact h.tell _ _
    · exact h
    · exact h
  | take p => exact h.take p
  | send p => exact h.send p

/-- The invariant holds after every run. -/
theorem inv_run (c : BridgeContext) (events : List BridgeEvent) :
    Inv c (run (Inlets.step c) Inlets.new events) := by
  induction events using List.reverseRecOn with
  | nil => exact Inv.new
  | append_singleton events e ih =>
    rw [run_append, run_cons, run_nil]
    exact ih.event e

/-- In every run, whatever the drivers bring and however the pumps interleave: each pump has
decided what its driver told it, in order, and the engine receives in that order what passed;
announces and departures all pass; no key passes twice among 2049 that pass in a row; and a
message with a key passes, unless a message with the same key did. -/
theorem gate_suppresses_only_copies (c : BridgeContext) (events : List BridgeEvent) :
    let s := run (Inlets.step c) Inlets.new events
    (∀ p, ofPump p s.decided =
        ((s.told p).take (s.taken p)).filterMap (DriverInbound.translate c.primitives) ∧
      ofPump p s.passed = ofPump p s.engine ++ (s.held p).toList) ∧
    s.passed.Sublist s.decided ∧
    s.passed.filter Unkeyed = s.decided.filter Unkeyed ∧
    (∀ w, w <:+: gateKeys c.hash s.passed → w.length ≤ gateSeenCapacity + 1 → w.Nodup) ∧
    ∀ e ∈ s.decided, ∀ k, dedupKey c.hash e.2 = some k → k ∈ gateKeys c.hash s.passed := by
  intro s
  have hinv := inv_run c events
  exact ⟨fun p ↦ ⟨hinv.order p, hinv.sent p⟩, hinv.sub, hinv.unkeyed, hinv.ring.apart,
    hinv.keyed⟩

/-! ### What the drivers tell -/

/-- The frames of the relays among the events. -/
def relayFrames (events : List BridgeEvent) : List String :=
  events.filterMap fun e ↦
    match e with
    | .relayFrame frame => some frame
    | _ => none

/-- A pump's step is nothing to the drivers. -/
@[simp] theorem take_drivers (c : BridgeContext) (s : Inlets) (p : Pump) :
    (s.take c p).driver = s.driver ∧ (s.take c p).told = s.told := by
  unfold Inlets.take
  split
  · exact ⟨rfl, rfl⟩
  · split
    · exact ⟨rfl, rfl⟩
    · simp only
      split
      · exact ⟨rfl, rfl⟩
      · next m _ =>
        have hdecision := decide_spec c.hash
          { s with taken := Function.update s.taken p (s.taken p + 1) } p m
        generalize Inlets.decide _ _ _ _ = s' at hdecision ⊢
        cases hdecision <;> exact ⟨rfl, rfl⟩

@[simp] theorem send_drivers (s : Inlets) (p : Pump) :
    (s.send p).driver = s.driver ∧ (s.send p).told = s.told := by
  unfold Inlets.send
  split <;> exact ⟨rfl, rfl⟩

/-- A step leaves the Nostr driver alone, or lets it handle a frame and tell what it says. -/
private theorem step_relay (c : BridgeContext) (s : Inlets) (e : BridgeEvent) :
    (s.step c e).driver =
        run (Nostr.Driver.step c.envelopes c.externals c.shared) s.driver (relayFrames [e]) ∧
      (s.step c e).told .nostr = s.told .nostr ++
        (Nostr.tellings c.envelopes c.externals c.shared s.driver (relayFrames [e])).map
          .nostr := by
  cases e with
  | relayFrame frame =>
    have hframe : relayFrames [.relayFrame frame] = [frame] := rfl
    rw [hframe, Nostr.tellings, Nostr.tellings, List.append_nil, run_cons, run_nil]
    unfold Nostr.Driver.step Nostr.Driver.tells Inlets.step
    simp only
    generalize s.driver.handleInboundFrame c.envelopes c.externals c.shared frame = r
    obtain ⟨d, i⟩ := r
    cases i with
    | error e => simp
    | ok i => cases i <;> simp [Inlets.tell]
  | browse e => simp [Inlets.step, Inlets.tell, relayFrames, Nostr.tellings, run_nil]
  | reannounce => simp [Inlets.step, Inlets.tell, relayFrames, Nostr.tellings, run_nil]
  | line line =>
    unfold Inlets.step
    simp only
    split <;> simp [Inlets.tell, relayFrames, Nostr.tellings, run_nil]
  | take p => simp [Inlets.step, relayFrames, Nostr.tellings, run_nil]
  | send p => simp [Inlets.step, relayFrames, Nostr.tellings, run_nil]

/-- After a run the Nostr driver has told what its readings of the relays' frames say. -/
theorem told_nostr_run (c : BridgeContext) (events : List BridgeEvent) (s : Inlets) :
    (run (Inlets.step c) s events).told .nostr = s.told .nostr ++
      (Nostr.tellings c.envelopes c.externals c.shared s.driver (relayFrames events)).map
        .nostr := by
  induction events generalizing s with
  | nil => simp [run_nil, relayFrames, Nostr.tellings]
  | cons e events ih =>
    obtain ⟨hdriver, htold⟩ := step_relay c s e
    have hsplit : relayFrames (e :: events) = relayFrames [e] ++ relayFrames events :=
      List.filterMap_append (l := [e])
    rw [run_cons, ih, htold, hdriver, hsplit, Nostr.tellings_append, List.map_append,
      List.append_assoc]

/-- What a driver has told stays told. -/
theorem told_prefix_run (c : BridgeContext) (events : List BridgeEvent) (s : Inlets) (p : Pump) :
    s.told p <+: (run (Inlets.step c) s events).told p := by
  induction events generalizing s with
  | nil => exact List.prefix_rfl
  | cons e events ih =>
    have htell : ∀ (q : Pump) (is : List DriverInbound), s.told p <+: (s.tell q is).told p := by
      intro q is
      by_cases hq : p = q
      · subst hq
        simp [Inlets.tell]
      · simp [Inlets.tell, Function.update_of_ne hq]
    rw [run_cons]
    refine List.IsPrefix.trans ?_ (ih _)
    cases e with
    | relayFrame frame =>
      unfold Inlets.step
      simp only
      split
      · exact htell _ _
      · exact List.prefix_rfl
    | browse e => exact htell _ _
    | reannounce => exact htell _ _
    | line line =>
      unfold Inlets.step
      simp only
      split
      · exact htell _ _
      · exact List.prefix_rfl
      · exact List.prefix_rfl
    | take q => simp [Inlets.step]
    | send q => simp [Inlets.step]

end Inlets

/-! ### One emission, two drivers -/

open Inlets

/-- The message that an event of the outside brings for the engine, before any memory is asked. -/
def BridgeEvent.carries (c : BridgeContext) : BridgeEvent → Option SignalingInbound
  | .relayFrame frame =>
    ((Nostr.eventOf c.externals frame).filter (Nostr.acceptable c.externals c.shared)).bind
      fun ev ↦ (Nostr.saying c.envelopes c.shared ev).bind fun i ↦
        DriverInbound.translate c.primitives (.nostr i)
  | .line text =>
    match Mdns.readLine c.frames c.mdnsShared text with
    | .tell i => DriverInbound.translate c.primitives (.exchange i)
    | .close | .skip => none
  | _ => none

/-- Acceptable events with one id are of one kind and have one content. The id is a digest of
both. -/
def DigestsBind (c : BridgeContext) (events : List BridgeEvent) : Prop :=
  ∀ frame ∈ relayFrames events, ∀ frame' ∈ relayFrames events, ∀ ev ev',
    Nostr.eventOf c.externals frame = some ev → Nostr.eventOf c.externals frame' = some ev' →
    Nostr.acceptable c.externals c.shared ev = true →
    Nostr.acceptable c.externals c.shared ev' = true →
    ev.id = ev'.id → ev.kind = ev'.kind ∧ ev.content = ev'.content

/-- Nothing waits for a pump and no pump holds anything. -/
def Inlets.Quiet (s : Inlets) : Prop := ∀ p, s.taken p = (s.told p).length ∧ s.held p = none

/-- Messages with one key have one content. -/
def KeysBind (hash : GateContent → UInt64) (l : List (Pump × SignalingInbound)) : Prop :=
  ∀ e ∈ l, ∀ e' ∈ l, dedupKey hash e.2 = dedupKey hash e'.2 → e.2.content = e'.2.content

/-- How many messages have this content. -/
def copies (x : GateContent) (l : List SignalingInbound) : ℕ := l.countP (·.content = some x)

/-- Copies are counted for each pump on its own. -/
theorem copies_eq_ofPump (x : GateContent) (l : List (Pump × SignalingInbound)) :
    copies x (l.map Prod.snd) = copies x (ofPump .nostr l) + copies x (ofPump .mdns l) := by
  induction l with
  | nil => rfl
  | cons e l ih =>
    obtain ⟨p, m⟩ := e
    have hcons : ∀ q, ofPump q ((p, m) :: l) = ofPump q [(p, m)] ++ ofPump q l :=
      fun q ↦ ofPump_append (l := [(p, m)])
    rw [List.map_cons, hcons, hcons]
    unfold copies at ih ⊢
    rw [List.countP_cons, ih, List.countP_append, List.countP_append]
    dsimp only
    cases p with
    | nostr =>
      rw [ofPump_singleton_self, ofPump_singleton_of_ne (by decide), List.countP_nil,
        List.countP_singleton]
      omega
    | mdns =>
      rw [ofPump_singleton_self, ofPump_singleton_of_ne (by decide), List.countP_nil,
        List.countP_singleton]
      omega

/-- As many messages have a content as keys are the content's, at most. -/
theorem copies_le_count (hash : GateContent → UInt64) (x : GateContent)
    (l : List (Pump × SignalingInbound)) :
    copies x (l.map Prod.snd) ≤ (gateKeys hash l).count (hash x) := by
  induction l with
  | nil => exact Nat.le_refl 0
  | cons e l ih =>
    have hcons : gateKeys hash (e :: l) = gateKeys hash [e] ++ gateKeys hash l :=
      gateKeys_append (l := [e])
    unfold copies at ih ⊢
    rw [List.map_cons, List.countP_cons, hcons, List.count_append]
    by_cases hx : e.2.content = some x
    · have hkey : gateKeys hash [e] = [hash x] := by simp [gateKeys, dedupKey, hx]
      rw [hkey, List.count_singleton_self]
      simp only [hx, decide_true, ↓reduceIte]
      omega
    · simp only [hx, decide_false, Bool.false_eq_true, ↓reduceIte]
      omega

section Copies

variable {c : BridgeContext} {events : List BridgeEvent} {s : Inlets}

/-- What an event of the run carries, a driver has told. -/
theorem told_of_carries {e : BridgeEvent} {m : SignalingInbound}
    (hdigests : DigestsBind c events) (he : e ∈ events) (hm : e.carries c = some m) :
    ∃ p, ∃ i ∈ (run (Inlets.step c) Inlets.new events).told p,
      i.translate c.primitives = some m := by
  unfold BridgeEvent.carries at hm
  split at hm
  · next frame =>
    obtain ⟨ev, hev, hsaid⟩ := Option.bind_eq_some_iff.mp hm
    obtain ⟨hevent, hok⟩ := Option.filter_eq_some_iff.mp hev
    obtain ⟨i, hi, htranslate⟩ := Option.bind_eq_some_iff.mp hsaid
    have hframe : frame ∈ relayFrames events := List.mem_filterMap.mpr ⟨_, he, rfl⟩
    -- the event that was read under this id says the same
    have hread := Nostr.id_mem_readings c.envelopes c.externals c.shared (d := Nostr.Driver.new)
      SeenRing.Ring.nil hframe hevent hok
    rw [List.nil_append] at hread
    obtain ⟨ev', hev', hid⟩ := List.mem_map.mp hread
    have hhistory := (Nostr.readings_sublist c.envelopes c.externals c.shared
      (relayFrames events) Nostr.Driver.new).subset hev'
    rw [List.mem_filter, List.mem_filterMap] at hhistory
    obtain ⟨⟨frame', hframe', hevent'⟩, hok'⟩ := hhistory
    obtain ⟨hkind, hcontent⟩ :=
      hdigests frame' hframe' frame hframe ev' ev hevent' hevent hok' hok hid
    have hsame : Nostr.saying c.envelopes c.shared ev' = some i := by
      rw [← hi, Nostr.saying, Nostr.saying, hkind, hcontent]
    refine ⟨.nostr, .nostr i, ?_, htranslate⟩
    rw [told_nostr_run]
    refine List.mem_append_right _ (List.mem_map_of_mem ?_)
    rw [show Inlets.new.driver = Nostr.Driver.new from rfl, Nostr.tellings_eq]
    exact List.mem_filterMap.mpr ⟨ev', hev', hsame⟩
  · next text =>
    split at hm
    · next i hread =>
      obtain ⟨before, after, rfl⟩ := List.append_of_mem he
      refine ⟨.mdns, .exchange i, ?_, hm⟩
      rw [run_append, run_cons]
      refine (told_prefix_run c after _ .mdns).subset ?_
      simp [Inlets.step, hread, Inlets.tell]
    · cases hm
    · cases hm
  · cases hm

/-- In a run in which at most 2049 messages with a key have passed, and in which neither digests
nor keys collide: the engine receives no content twice, and once every pump has caught up it has
received each content that a relay's frame or a line of the exchange carried, exactly once. -/
theorem engine_receives_one_copy
    (hwindow : (gateKeys c.hash (run (Inlets.step c) Inlets.new events).passed).length ≤
      gateSeenCapacity + 1)
    (hdigests : DigestsBind c events)
    (hkeys : KeysBind c.hash (run (Inlets.step c) Inlets.new events).decided) :
    (∀ x, copies x ((run (Inlets.step c) Inlets.new events).engine.map Prod.snd) ≤ 1) ∧
    ((run (Inlets.step c) Inlets.new events).Quiet →
      ∀ e ∈ events, ∀ m x, e.carries c = some m → m.content = some x →
        copies x ((run (Inlets.step c) Inlets.new events).engine.map Prod.snd) = 1) := by
  have hinv := inv_run c events
  have hcarried : ∀ e ∈ events, ∀ m, e.carries c = some m →
      ∃ p, ∃ i ∈ (run (Inlets.step c) Inlets.new events).told p,
        i.translate c.primitives = some m :=
    fun e he m hm ↦ told_of_carries hdigests he hm
  generalize run (Inlets.step c) Inlets.new events = s at *
  have hpassed : ∀ x, copies x (s.passed.map Prod.snd) ≤ 1 := fun x ↦
    (copies_le_count c.hash x s.passed).trans
      (List.nodup_iff_count_le_one.mp (hinv.ring.nodup_log hwindow) _)
  have hsplit : ∀ x p, copies x (ofPump p s.engine) ≤ copies x (ofPump p s.passed) := by
    intro x p
    rw [hinv.sent p, copies, copies, List.countP_append]
    exact Nat.le_add_right _ _
  constructor
  · intro x
    refine le_trans ?_ (hpassed x)
    rw [copies_eq_ofPump, copies_eq_ofPump]
    exact Nat.add_le_add (hsplit x .nostr) (hsplit x .mdns)
  · intro hquiet e he m x hm hx
    have hall : ∀ p, ofPump p s.passed = ofPump p s.engine := by
      intro p
      rw [hinv.sent p, (hquiet p).2, Option.toList_none, List.append_nil]
    rw [copies_eq_ofPump, ← hall, ← hall, ← copies_eq_ofPump]
    refine le_antisymm (hpassed x) ?_
    -- the message was decided, so that its key passed, and with the key its content
    obtain ⟨p, i, hi, htranslate⟩ := hcarried e he m hm
    have hdecided : (p, m) ∈ s.decided := by
      rw [← mem_ofPump, hinv.order p, (hquiet p).1, List.take_length]
      exact List.mem_filterMap.mpr ⟨i, hi, htranslate⟩
    have hkey : dedupKey c.hash m = some (c.hash x) := by rw [dedupKey, hx, Option.map_some]
    obtain ⟨e', he', hkey'⟩ := mem_gateKeys.mp (hinv.keyed _ hdecided _ hkey)
    have hcontent := hkeys e' (hinv.sub.subset he') (p, m) hdecided (hkey'.trans hkey.symm)
    rw [copies, Nat.one_le_iff_ne_zero, Nat.ne_zero_iff_zero_lt, List.countP_pos_iff]
    exact ⟨e'.2, List.mem_map_of_mem he', by simpa using hcontent.trans hx⟩

/-! ### From one engine to the other -/

/-- What the engine of the recipient receives for an emission, with its content. -/
def SignalingOutbound.received (sender : String) : SignalingOutbound → Option SignalingInbound
  | .announce => none
  | .leave => none
  | .offer _ offerId sdp => some (.offer sender offerId sdp)
  | .answer _ offerId sdp => some (.answer sender offerId sdp)
  | .candidate _ c => some (.candidate sender c)

/-- The event is a copy of an emission that the sender directed to us: the sender's Nostr driver
built it, or its mDNS driver did. -/
inductive CopyOf (c : BridgeContext) (sender : String) (o : SignalingOutbound) :
    BridgeEvent → Prop
  | relay {frame : String} (X : SignalingServer.Externals) (created : UInt64)
      {msg : Nostr.SignalingMessage} (hmsg : o.directed sender = some (c.shared.deviceId, msg))
      (hevent : Nostr.eventOf c.externals frame =
        some (Nostr.outboundEvent c.envelopes X ⟨sender, c.shared.roomHandle⟩ created
          (.directedToPeer c.shared.deviceId msg)))
      (hverify : (Nostr.outboundEvent c.envelopes X ⟨sender, c.shared.roomHandle⟩ created
        (.directedToPeer c.shared.deviceId msg)).verify c.externals = true)
      (hkey : X.pubkey ≠ c.externals.pubkey)
      (hserde : c.envelopes.fromStr (c.envelopes.toString
        ⟨sender, some c.shared.deviceId, msg⟩) = some ⟨sender, some c.shared.deviceId, msg⟩) :
    CopyOf c sender o (.relayFrame frame)
  | lan {text : String} {msg : Nostr.SignalingMessage}
      (hmsg : o.directed sender = some (c.shared.deviceId, msg)) (htext : Text.trim text ≠ "")
      (hframe : c.frames.decodeFrame text =
        some (Mdns.directedFrame ⟨c.shared.roomHandle, sender⟩ c.shared.deviceId msg)) :
    CopyOf c sender o (.line text)

/-- The message of an emission is translated to what the engine receives. -/
private theorem translate_directed {sender us : String} {o : SignalingOutbound}
    {msg : Nostr.SignalingMessage} (hmsg : o.directed sender = some (us, msg))
    (hsender : canonicalWireDeviceId c.primitives sender = some sender) :
    msg.peerId = sender ∧
      translateMessage c.primitives sender msg = o.received sender := by
  cases o with
  | announce => cases hmsg
  | leave => cases hmsg
  | offer recipient offerId sdp =>
    cases hmsg
    exact ⟨rfl, by simp [translateMessage, Nostr.SignalingMessage.peerId, hsender,
      SignalingOutbound.received]⟩
  | answer recipient offerId sdp =>
    cases hmsg
    exact ⟨rfl, by simp [translateMessage, Nostr.SignalingMessage.peerId, hsender,
      SignalingOutbound.received]⟩
  | candidate recipient candidate =>
    cases hmsg
    exact ⟨rfl, by simp [translateMessage, Nostr.SignalingMessage.peerId, hsender,
      SignalingOutbound.received]⟩

/-- The event of an emission means its message. -/
private theorem says_directed {sender us room : String} {o : SignalingOutbound}
    {msg : Nostr.SignalingMessage} (hmsg : o.directed sender = some (us, msg)) :
    Nostr.Says ⟨us, room⟩ SignalingServer.signalingEphemeralKind ⟨sender, some us, msg⟩
      (.message sender msg) := by
  cases o with
  | announce | leave => cases hmsg
  | offer | answer | candidate =>
    cases hmsg
    constructor

/-- Both copies of an emission carry the same message. -/
theorem carries_of_copyOf {sender : String} {o : SignalingOutbound} {e : BridgeEvent}
    (hsender : canonicalWireDeviceId c.primitives sender = some sender)
    (hcopy : CopyOf c sender o e) : e.carries c = o.received sender := by
  cases hcopy with
  | @relay frame X created msg hmsg hevent hverify hkey hserde =>
    have hok : Nostr.acceptable c.externals c.shared
        (Nostr.outboundEvent c.envelopes X ⟨sender, c.shared.roomHandle⟩ created
          (.directedToPeer c.shared.deviceId msg)) = true := by
      rw [Nostr.acceptable, hverify]
      simp [Nostr.outboundEvent, SignalingServer.makeEvent, hkey]
    have hsays : Nostr.saying c.envelopes c.shared
        (Nostr.outboundEvent c.envelopes X ⟨sender, c.shared.roomHandle⟩ created
          (.directedToPeer c.shared.deviceId msg)) = some (.message sender msg) :=
      Nostr.saying_eq_some_iff.mpr ⟨_, hserde, says_directed hmsg⟩
    rw [BridgeEvent.carries, hevent, Option.filter_some, if_pos hok, Option.bind_some, hsays,
      Option.bind_some]
    exact (translate_directed hmsg hsender).2
  | @lan text msg hmsg htext hframe =>
    obtain ⟨hpeer, htranslate⟩ := translate_directed (c := c) hmsg hsender
    have hours : Mdns.frameIsForUs (Mdns.directedFrame ⟨c.shared.roomHandle, sender⟩
        c.shared.deviceId msg) c.shared.roomHandle c.shared.deviceId = true := by
      simp [Mdns.frameIsForUs, Mdns.directedFrame, Mdns.protocolVersion]
    have hread : Mdns.readLine c.frames c.mdnsShared text =
        .tell (.message sender msg) := by
      refine Mdns.readLine_eq_tell_iff.mpr ⟨htext, _, hframe, hours, hpeer, ?_⟩
      cases o with
      | announce | leave => cases hmsg
      | offer | answer | candidate =>
        cases hmsg
        rfl
    rw [BridgeEvent.carries, hread]
    exact htranslate

/-- The message that a content is hashed for. -/
def GateContent.message : GateContent → SignalingInbound
  | .description tag deviceId offerId sdp =>
    if tag = 1 then .offer deviceId offerId sdp else .answer deviceId offerId sdp
  | .candidate _ deviceId line sdpMid sdpMlineIndex usernameFragment =>
    .candidate deviceId ⟨line, sdpMid, sdpMlineIndex, usernameFragment⟩

/-- A message is determined by its content. -/
theorem message_of_content {m : SignalingInbound} {x : GateContent} (h : m.content = some x) :
    x.message = m := by
  cases m with
  | discoveryLost | peerAnnounced | peerLeft => cases h
  | offer | answer | candidate =>
    cases h
    rfl

theorem copies_eq_count {m : SignalingInbound} {x : GateContent} (h : m.content = some x)
    (l : List SignalingInbound) : copies x l = l.count m := by
  rw [copies, List.count]
  congr 1
  funext m'
  rw [beq_eq_decide, decide_eq_decide]
  constructor
  · intro h'
    rw [← message_of_content h', message_of_content h]
  · rintro rfl
    exact h

/-- Two engines over one room. The sender's engine emits an offer, an answer or a candidate for
us, and at least one copy of it arrives by a relay or by the exchange, among whatever else
arrives, in any order and any number of times, while the pumps run as they like. In a run in
which at most 2049 messages with a key pass and nothing collides, our engine never receives the
message twice; once every pump has caught up it has received it exactly once. -/
theorem emission_is_received_once (c : BridgeContext) (events : List BridgeEvent)
    (hwindow : (gateKeys c.hash (run (Inlets.step c) Inlets.new events).passed).length ≤
      gateSeenCapacity + 1)
    (hdigests : DigestsBind c events)
    (hkeys : KeysBind c.hash (run (Inlets.step c) Inlets.new events).decided)
    {sender : String} (hsender : canonicalWireDeviceId c.primitives sender = some sender)
    {o : SignalingOutbound} {e : BridgeEvent} (he : e ∈ events) (hcopy : CopyOf c sender o e) :
    ∃ m, o.received sender = some m ∧
      ((run (Inlets.step c) Inlets.new events).engine.map Prod.snd).count m ≤ 1 ∧
      ((run (Inlets.step c) Inlets.new events).Quiet →
        ((run (Inlets.step c) Inlets.new events).engine.map Prod.snd).count m = 1) := by
  obtain ⟨hmost, hexact⟩ := engine_receives_one_copy hwindow hdigests hkeys
  have hcarries := carries_of_copyOf hsender hcopy
  have hdirected : ∃ msg, o.directed sender = some (c.shared.deviceId, msg) := by
    cases hcopy with
    | relay X created hmsg => exact ⟨_, hmsg⟩
    | lan hmsg => exact ⟨_, hmsg⟩
  obtain ⟨msg, hmsg⟩ := hdirected
  have hreceived : ∃ m x, o.received sender = some m ∧ m.content = some x := by
    cases o with
    | announce | leave => cases hmsg
    | offer | answer | candidate => exact ⟨_, _, rfl, rfl⟩
  obtain ⟨m, x, hm, hx⟩ := hreceived
  refine ⟨m, hm, ?_, fun hquiet ↦ ?_⟩
  · rw [← copies_eq_count hx]
    exact hmost x
  · rw [← copies_eq_count hx]
    exact hexact hquiet e he m x (hcarries.trans hm) hx

end Copies

/-! ### A run over both drivers -/

/-- A message comes by a frame and by a line, both pumps take it, and both may send. -/
private theorem run_twice {c : BridgeContext} {frame text : String} {d : Nostr.Driver}
    {i : Nostr.NostrInbound} {j : Mdns.ExchangeInbound} {m : SignalingInbound} {k : UInt64}
    (hhandle : Nostr.Driver.new.handleInboundFrame c.envelopes c.externals c.shared frame =
      (d, .ok (some i)))
    (hline : Mdns.readLine c.frames c.mdnsShared text = .tell j)
    (hi : DriverInbound.translate c.primitives (.nostr i) = some m)
    (hj : DriverInbound.translate c.primitives (.exchange j) = some m)
    (hkey : dedupKey c.hash m = some k) :
    (run (Inlets.step c) Inlets.new [.relayFrame frame, .line text, .take .mdns, .take .nostr,
      .send .nostr, .send .mdns]).Quiet ∧
    (run (Inlets.step c) Inlets.new [.relayFrame frame, .line text, .take .mdns, .take .nostr,
      .send .nostr, .send .mdns]).passed = [(.mdns, m)] ∧
    (run (Inlets.step c) Inlets.new [.relayFrame frame, .line text, .take .mdns, .take .nostr,
      .send .nostr, .send .mdns]).decided = [(.mdns, m), (.nostr, m)] := by
  refine ⟨?_, ?_, ?_⟩
  · rintro (_ | _) <;>
      simp [run_cons, run_nil, Inlets.step, Inlets.new, hhandle, hline, Inlets.tell, Inlets.take,
        Inlets.send, hi, hj, Inlets.decide, gateDecide, hkey, SeenRing.remember,
        gateSeenCapacity]
  · simp [run_cons, run_nil, Inlets.step, Inlets.new, hhandle, hline, Inlets.tell, Inlets.take,
      Inlets.send, hi, hj, Inlets.decide, gateDecide, hkey, SeenRing.remember, gateSeenCapacity]
  · simp [run_cons, run_nil, Inlets.step, Inlets.new, hhandle, hline, Inlets.tell, Inlets.take,
      Inlets.send, hi, hj, Inlets.decide, gateDecide, hkey, SeenRing.remember, gateSeenCapacity]

/-- The fields of an offer. -/
def offerFields (sender : String) : List (String × List Char) :=
  [("kind", Json.quote "offer"), ("peer_id", Json.quote sender), ("offer_id", Json.quote "o-1"),
    ("sdp", Json.quote "v=0")]

/-- The offer that one device sends another. -/
def offered : Nostr.SignalingEnvelope :=
  ⟨seededDevice 1, some (seededDevice 2), .offer (seededDevice 1) "o-1" "v=0"⟩

/-- The text of an envelope with an offer. -/
def envelopeText (e : Nostr.SignalingEnvelope) : String :=
  String.ofList (Nostr.objectText (("from", Json.quote e.sender) ::
    ("to", (e.recipient.map Json.quote).getD "null".toList) :: offerFields e.sender))

/-- A serializer that knows one envelope. -/
def envelopeSerde : Nostr.Serde where
  toString := envelopeText
  fromStr text := if text = envelopeText offered then some offered else none

/-- The event of the offer. -/
def offeredEvent : SignalingServer.NostrEvent :=
  Nostr.outboundEvent envelopeSerde (Nostr.keyed "theirs" []) ⟨seededDevice 1, "room"⟩ 7
    (.directedToPeer (seededDevice 2) offered.msg)

/-- The line of the offer. -/
def offeredLine : String :=
  String.ofList (Nostr.objectText [("v", Json.number 1), ("room", Json.quote "room"),
    ("from", Json.quote offered.sender), ("to", Json.quote (seededDevice 2)),
    ("msg", Nostr.objectText (offerFields offered.sender))])

/-- A device that both drivers of the other reach. -/
def reachedTwice : BridgeContext where
  primitives := seeded
  externals := Nostr.keyed "ours" [offeredEvent]
  envelopes := envelopeSerde
  frames :=
    { encodeFrame := fun _ ↦ offeredLine
      decodeFrame := fun text ↦
        if text = offeredLine then
          some (Mdns.directedFrame ⟨"room", seededDevice 1⟩ (seededDevice 2) offered.msg)
        else none }
  hash x := match x with
    | .description tag _ _ _ => tag.toUInt64
    | .candidate tag _ _ _ _ _ => tag.toUInt64
  shared := ⟨seededDevice 2, "room"⟩

/-- The offer arrives by a relay and by the exchange, and the pumps take both before either
sends. -/
def offerTwice : List BridgeEvent :=
  [.relayFrame (Nostr.eventText offeredEvent), .line offeredLine, .take .mdns, .take .nostr,
    .send .nostr, .send .mdns]

private theorem verify_offeredEvent : offeredEvent.verify reachedTwice.externals = true := by
  simp [SignalingServer.NostrEvent.verify, offeredEvent, Nostr.outboundEvent,
    SignalingServer.makeEvent, reachedTwice, Nostr.keyed]

private theorem envelopes_reachedTwice : reachedTwice.envelopes = envelopeSerde := rfl

private theorem shared_reachedTwice : reachedTwice.shared = ⟨seededDevice 2, "room"⟩ := rfl

private theorem fromStr_envelopeText :
    envelopeSerde.fromStr (envelopeText offered) = some offered := by
  simp [envelopeSerde]

/-- The relay's copy is the offer's. -/
private theorem copyOf_offered : CopyOf reachedTwice (seededDevice 1)
    (.offer (seededDevice 2) "o-1" "v=0") (.relayFrame (Nostr.eventText offeredEvent)) := by
  have hkey : (Nostr.keyed "theirs" []).pubkey ≠ reachedTwice.externals.pubkey := by
    show "theirs" ≠ "ours"
    decide
  refine .relay (Nostr.keyed "theirs" []) 7 rfl (Nostr.eventOf_keyed _ (List.mem_singleton_self _)
      fun _ h _ ↦ List.mem_singleton.mp h) verify_offeredEvent hkey ?_
  rw [envelopes_reachedTwice, shared_reachedTwice]
  exact fromStr_envelopeText

private theorem saying_offeredEvent :
    Nostr.saying reachedTwice.envelopes reachedTwice.shared offeredEvent =
      some (.message (seededDevice 1) offered.msg) := by
  rw [envelopes_reachedTwice, shared_reachedTwice]
  exact Nostr.saying_eq_some_iff.mpr ⟨offered, fromStr_envelopeText, .offer _ _ _⟩

private theorem reads_offeredEvent :
    Nostr.Driver.reads reachedTwice.externals reachedTwice.shared Nostr.Driver.new
      (Nostr.eventText offeredEvent) = some offeredEvent := by
  have hok : Nostr.acceptable reachedTwice.externals reachedTwice.shared offeredEvent = true := by
    rw [Nostr.acceptable, verify_offeredEvent]
    simp [offeredEvent, Nostr.outboundEvent, SignalingServer.makeEvent, reachedTwice, Nostr.keyed]
  have hevent : Nostr.eventOf reachedTwice.externals (Nostr.eventText offeredEvent) =
      some offeredEvent :=
    Nostr.eventOf_keyed _ (List.mem_singleton_self _) fun _ h _ ↦ List.mem_singleton.mp h
  rw [Nostr.Driver.reads, hevent, Option.filter_some, if_pos]
  simpa [Nostr.Driver.new] using hok

private theorem handle_offeredEvent : ∃ d,
    Nostr.Driver.new.handleInboundFrame reachedTwice.envelopes reachedTwice.externals
      reachedTwice.shared (Nostr.eventText offeredEvent) =
        (d, .ok (some (.message (seededDevice 1) offered.msg))) := by
  have htells : Nostr.Driver.new.tells reachedTwice.envelopes reachedTwice.externals
      reachedTwice.shared (Nostr.eventText offeredEvent) = _ :=
    (Nostr.frame_spec Nostr.Driver.new (Nostr.eventText offeredEvent)).2
  rw [reads_offeredEvent, Option.bind_some, saying_offeredEvent, Nostr.Driver.tells] at htells
  generalize Nostr.Driver.new.handleInboundFrame reachedTwice.envelopes
    reachedTwice.externals reachedTwice.shared (Nostr.eventText offeredEvent) = r at htells
  obtain ⟨d, _ | i⟩ := r
  · cases htells
  · exact ⟨d, by rw [show i = _ from htells]⟩

private theorem trim_offeredLine : Text.trim offeredLine ≠ "" := by
  intro h
  have hkept := Text.filter_trim (p := fun c ↦ c = '\x7b') (by simp; decide) offeredLine
  rw [h, offeredLine, Nostr.objectText, String.toList_ofList] at hkept
  simp at hkept

private theorem digestsBind_offerTwice : DigestsBind reachedTwice offerTwice := by
  have hframes : relayFrames offerTwice = [Nostr.eventText offeredEvent] := rfl
  intro frame hframe frame' hframe' ev ev' hev hev' _ _ _
  rw [hframes, List.mem_singleton] at hframe hframe'
  rw [hframe'] at hev'
  rw [hframe, hev', Option.some_inj] at hev
  rw [hev]
  exact ⟨rfl, rfl⟩

private theorem readLine_offeredLine :
    Mdns.readLine reachedTwice.frames reachedTwice.mdnsShared offeredLine =
      .tell (.message (seededDevice 1) offered.msg) := by
  have hframe : reachedTwice.frames.decodeFrame offeredLine =
      some (Mdns.directedFrame ⟨"room", seededDevice 1⟩ (seededDevice 2) offered.msg) := by
    simp [reachedTwice]
  refine Mdns.readLine_eq_tell_iff.mpr ⟨trim_offeredLine, _, hframe, ?_, rfl, rfl⟩
  simp [Mdns.frameIsForUs, Mdns.directedFrame, Mdns.protocolVersion, BridgeContext.mdnsShared,
    shared_reachedTwice]

private theorem canonicalWire_seededDevice (seed : UInt8) :
    canonicalWireDeviceId reachedTwice.primitives (seededDevice seed) =
      some (seededDevice seed) := by
  have hnormal : normalizeDeviceId reachedTwice.primitives (seededDevice seed) =
      .ok (seededDevice seed) := normalizeDeviceId_publicId seeded seed
  rw [canonicalWireDeviceId, hnormal]
  exact if_pos rfl

private theorem translate_offered :
    translateMessage reachedTwice.primitives (seededDevice 1) offered.msg =
      some (.offer (seededDevice 1) "o-1" "v=0") := by
  simp [translateMessage, canonicalWire_seededDevice, offered, Nostr.SignalingMessage.peerId]

/-- The offer comes twice and is received once. -/
theorem offer_is_received_once :
    (run (Inlets.step reachedTwice) Inlets.new offerTwice).Quiet ∧
    ∃ m, SignalingOutbound.received (seededDevice 1)
        (.offer (seededDevice 2) "o-1" "v=0") = some m ∧
      ((run (Inlets.step reachedTwice) Inlets.new offerTwice).engine.map Prod.snd).count m ≤ 1 ∧
      ((run (Inlets.step reachedTwice) Inlets.new offerTwice).Quiet →
        ((run (Inlets.step reachedTwice) Inlets.new offerTwice).engine.map Prod.snd).count m =
          1) := by
  obtain ⟨d, hhandle⟩ := handle_offeredEvent
  have hkey : dedupKey reachedTwice.hash (.offer (seededDevice 1) "o-1" "v=0") = some 1 := rfl
  obtain ⟨hquiet, hpassed, hdecided⟩ := run_twice hhandle readLine_offeredLine
    translate_offered translate_offered hkey
  have hwindow : (gateKeys reachedTwice.hash
      (run (Inlets.step reachedTwice) Inlets.new offerTwice).passed).length ≤
        gateSeenCapacity + 1 := by
    rw [offerTwice, hpassed]
    exact Nat.one_le_iff_ne_zero.mpr (by decide)
  have hkeys : KeysBind reachedTwice.hash
      (run (Inlets.step reachedTwice) Inlets.new offerTwice).decided := by
    rw [offerTwice, hdecided]
    simp [KeysBind]
  exact ⟨hquiet, emission_is_received_once reachedTwice offerTwice hwindow digestsBind_offerTwice
    hkeys (canonicalWire_seededDevice 1) List.mem_cons_self copyOf_offered⟩

end MyOwnMesh
