import MyOwnMesh.Engine.Routes
import MyOwnMesh.Identity.Signing

/-!
# A routed frame is handled once

Whoever injects a frame, and whatever the connections are: a node delivers it to its channels at
most once and sends it on at most once, because it remembers the frame's origin and id. It
remembers nothing of a frame without an id; such a frame is held by its hop count alone.
-/

namespace MyOwnMesh

open Lib Lib.Replay Lib.Network

variable {P : Primitives} {mesh : RoutedMesh}

/-- A peer sends one envelope to some of its neighbours. -/
def inject (seen : String → List (String × UInt64)) (injector : String) (targets : List String)
    (payload : Value) : Net String Value Station :=
  .start (fun m ↦ { seen := seen m }) (targets.map fun t ↦ ⟨injector, t, payload⟩)

/-! ### Frames with an id -/

/-- The letter is a copy of the frame with this origin and id. -/
def Carries (key : String × UInt64) (l : Letter String Value) : Prop :=
  ∃ e w, RelayEnvelope.decode l.body = some e ∧ parseWrapper e.payload = some w ∧
    (e.origin l.source, w.id) = key

/-- Copies that are sent on carry what they are copies of. -/
theorem carries_outgoing {me carrier : String} {e : RelayEnvelope} {w : Wrapper}
    (hw : parseWrapper e.payload = some w) (horigin : e.origin carrier ≠ "")
    {o : String × RelayEnvelope} (h : o ∈ mesh.outgoing P me carrier e w) :
    Carries (e.origin carrier, w.id) ⟨me, o.1, o.2.encode⟩ := by
  have hout := (mem_outgoing h).1
  refine ⟨o.2, ⟨w.channel, w.body, w.ttl - 1, w.id⟩, RelayEnvelope.decode_encode _, ?_, ?_⟩
  · rw [hout]
    exact parseWrapper_wrap (channel_of_parseWrapper hw) _ _ _
  · have hsrc : o.2.src = e.origin carrier := by rw [hout]
    rw [origin_of_src (hsrc ▸ horigin), hsrc]

/-- A node handled the frame at most once, and remembers it if it did, as long as fewer other
frames passed through than it remembers. -/
structure HandledOnce (key : String × UInt64) (st : Station) : Prop where
  ring : st.seen.length ≤ routingSeenCapacity
  once : st.others < routingSeenCapacity → st.delivered.length ≤ 1 ∧ st.forwarded ≤ 1
  known : st.others < routingSeenCapacity →
    st.delivered = [] ∧ st.forwarded = 0 ∨ Recent key st.others st.seen

/-- A copy arrives. -/
theorem HandledOnce.receive {me carrier : String} {payload : Value} {e : RelayEnvelope}
    {w : Wrapper} {st : Station} (h : HandledOnce (e.origin carrier, w.id) st)
    (hd : RelayEnvelope.decode payload = some e) (hw : parseWrapper e.payload = some w)
    (hid : w.id ≠ 0) :
    HandledOnce (e.origin carrier, w.id) (mesh.receive P me st carrier payload).1 := by
  by_cases hdrop : mesh.Drops me st.seen carrier e w
  · rw [receive_of_drops hd hw hdrop]
    exact h
  · have hnew : (firstSighting st.seen (e.origin carrier) w.id).2 = true := by
      simpa using (not_or.mp hdrop).2
    -- A frame that is new was not handled: it would be in the ring.
    have hfirst : st.others < routingSeenCapacity → st.delivered = [] ∧ st.forwarded = 0 := by
      intro hfew
      refine (h.known hfew).resolve_right fun hrecent ↦ ?_
      rw [firstSighting_of_mem hid hrecent.mem] at hnew
      cases hnew
    rw [receive_of_not_drops hd hw hdrop]
    refine ⟨length_firstSighting_le h.ring _ _, fun hfew ↦ ?_, fun _ ↦ .inr ?_⟩
    · obtain ⟨hdelivered, hforwarded⟩ := hfirst hfew
      constructor
      · simp only [hdelivered, List.nil_append]
        split <;> simp
      · simp only [hforwarded, Nat.zero_add]
        split <;> simp
    · exact (recent_firstSighting hid hnew).mono (Nat.zero_le _)

/-- Another frame passes through. -/
theorem HandledOnce.hear {key : String × UInt64} {st : Station} (h : HandledOnce key st)
    (me carrier : String) (payload : Value) :
    HandledOnce key (mesh.hear P me st carrier payload) := by
  rcases hear_cases P mesh me st carrier payload with heq | ⟨e, w, -, -, heq⟩
  · rw [heq]
    exact ⟨h.ring, fun hfew ↦ h.once (Nat.lt_of_succ_lt hfew), fun hfew ↦
      (h.known (Nat.lt_of_succ_lt hfew)).imp id (Recent.mono · (Nat.le_succ _))⟩
  · rw [heq]
    exact ⟨length_firstSighting_le h.ring _ _, fun hfew ↦ h.once (Nat.lt_of_succ_lt hfew),
      fun hfew ↦ (h.known (Nat.lt_of_succ_lt hfew)).imp id
        (Recent.firstSighting · h.ring hfew _ _)⟩

/-- All that is in flight are copies, and every node handled the frame at most once. -/
structure AtMostOnce (key : String × UInt64) (s : Net String Value Station) : Prop where
  copies : ∀ l ∈ s.flight, Carries key l
  handled : ∀ m, HandledOnce key (s.node m)

/-- A step of the mesh keeps it so. -/
theorem AtMostOnce.step (P : Primitives) (mesh : RoutedMesh) {key : String × UInt64}
    (horigin : key.1 ≠ "") (hid : key.2 ≠ 0)
    {s : Net String Value Station} (h : AtMostOnce key s) (a : RouteAct) :
    AtMostOnce key (mesh.step P s a) := by
  cases a with
  | arrive i =>
    rcases deliver_cases (mesh.receive P) s i with hsame | ⟨before, l, after, hflight, heq⟩
    · rw [RoutedMesh.step, hsame]
      exact h
    rw [RoutedMesh.step, heq]
    obtain ⟨e, w, hd, hw, rfl⟩ := h.copies l (by simp [hflight])
    refine ⟨fun x hx ↦ ?_, fun m ↦ ?_⟩
    · simp only [Net.arrive, letters, List.mem_append, List.mem_map] at hx
      rcases hx with (hx | hx) | ⟨out, hout, rfl⟩
      · exact h.copies x (by simp [hflight, hx])
      · exact h.copies x (by simp [hflight, hx])
      · by_cases hdrop : mesh.Drops l.target (s.node l.target).seen l.source e w
        · simp [receive_of_drops hd hw hdrop] at hout
        · rw [receive_of_not_drops hd hw hdrop] at hout
          obtain ⟨o, ho, rfl⟩ := List.mem_map.mp hout
          exact carries_outgoing hw horigin ho
    · by_cases hm : m = l.target
      · subst hm
        simp only [Net.arrive, Function.update_self]
        exact (h.handled _).receive hd hw hid
      · simp only [Net.arrive, Function.update_of_ne hm]
        exact h.handled m
  | other node carrier payload =>
    refine ⟨h.copies, fun m ↦ ?_⟩
    by_cases hm : m = node
    · subst hm
      simp only [RoutedMesh.step, Function.update_self]
      exact (h.handled m).hear m carrier payload
    · simp only [RoutedMesh.step, Function.update_of_ne hm]
      exact h.handled m

/-! ### Frames without hops -/

/-- The letter may not be sent on. -/
def Spent (l : Letter String Value) : Prop :=
  ∃ e w, RelayEnvelope.decode l.body = some e ∧ parseWrapper e.payload = some w ∧ w.ttl = 0

/-- All that is in flight is spent, and a node delivered no more letters than were for it. -/
structure SpentOnce (s : Net String Value Station) : Prop where
  spent : ∀ l ∈ s.flight, Spent l
  handled : ∀ m, (s.node m).delivered.length + (s.flight.map Letter.target).count m ≤ 1 ∧
    (s.node m).forwarded = 0

/-- A spent letter is delivered once or not at all, and not sent on. -/
theorem receive_of_spent (P : Primitives) (mesh : RoutedMesh) (me carrier : String)
    {payload : Value} {e : RelayEnvelope} {w : Wrapper}
    (hd : RelayEnvelope.decode payload = some e) (hw : parseWrapper e.payload = some w)
    (hspent : w.ttl = 0) (st : Station) :
    (mesh.receive P me st carrier payload).2 = [] ∧
      (mesh.receive P me st carrier payload).1.delivered.length ≤ st.delivered.length + 1 ∧
      (mesh.receive P me st carrier payload).1.forwarded = st.forwarded := by
  have hout : mesh.outgoing P me carrier e w = [] :=
    List.eq_nil_iff_forall_not_mem.mpr fun o ho ↦ (mem_outgoing ho).2 hspent
  by_cases hdrop : mesh.Drops me st.seen carrier e w
  · rw [receive_of_drops hd hw hdrop]
    exact ⟨rfl, Nat.le_succ _, rfl⟩
  · rw [receive_of_not_drops hd hw hdrop, hout]
    refine ⟨rfl, ?_, rfl⟩
    simp only [List.length_append]
    split <;> simp

theorem SpentOnce.step (P : Primitives) (mesh : RoutedMesh) {s : Net String Value Station}
    (h : SpentOnce s) (a : RouteAct) :
    SpentOnce (mesh.step P s a) := by
  cases a with
  | arrive i =>
    rcases deliver_cases (mesh.receive P) s i with hsame | ⟨before, l, after, hflight, heq⟩
    · rw [RoutedMesh.step, hsame]
      exact h
    rw [RoutedMesh.step, heq]
    obtain ⟨e, w, hd, hw, hspent⟩ := h.spent l (by simp [hflight])
    obtain ⟨hout, hdelivered, hforwarded⟩ :=
      receive_of_spent P mesh l.target l.source hd hw hspent (s.node l.target)
    have hflight' : (s.arrive (mesh.receive P) before l after).flight = before ++ after := by
      simp [Net.arrive, hout, letters]
    refine ⟨fun x hx ↦ h.spent x ?_, fun m ↦ ?_⟩
    · rw [hflight', List.mem_append] at hx
      rw [hflight, List.mem_append, List.mem_cons]
      exact hx.imp id .inr
    · obtain ⟨hcount, hnone⟩ := h.handled m
      rw [hflight, List.map_append, List.map_cons, List.count_append, List.count_cons] at hcount
      rw [hflight', List.map_append, List.count_append]
      by_cases hm : m = l.target
      · subst hm
        simp only [BEq.rfl, ↓reduceIte] at hcount
        simp only [Net.arrive, Function.update_self]
        exact ⟨by omega, hforwarded.trans hnone⟩
      · simp only [Net.arrive, Function.update_of_ne hm]
        refine ⟨?_, hnone⟩
        split at hcount <;> omega
  | other node carrier payload =>
    refine ⟨h.spent, fun m ↦ ?_⟩
    by_cases hm : m = node
    · subst hm
      simp only [RoutedMesh.step, Function.update_self]
      rcases hear_cases P mesh m (s.node m) carrier payload with heq | ⟨e, w, -, -, heq⟩
      · rw [heq]
        exact h.handled m
      · rw [heq]
        exact h.handled m
    · simp only [RoutedMesh.step, Function.update_of_ne hm]
      exact h.handled m

/-! ### Any injected envelope -/

/-- A peer injects an envelope, its copies arrive in any order and other frames pass through. A
node through which fewer other frames passed than it remembers delivers the envelope at most once
and sends it on at most once, if the envelope has an id or may not be sent on. -/
theorem injected_handled_once (P : Primitives) (mesh : RoutedMesh)
    (seen : String → List (String × UInt64))
    (hseen : ∀ m, (seen m).length ≤ routingSeenCapacity) (injector : String)
    (hinjector : injector ≠ "") (targets : List String) (hnodup : targets.Nodup)
    (payload : Value) (e : RelayEnvelope) (w : Wrapper)
    (hd : RelayEnvelope.decode payload = some e) (hw : parseWrapper e.payload = some w)
    (hbounded : w.id ≠ 0 ∨ w.ttl = 0) (acts : List RouteAct) (m : String)
    (hfew : ((run (mesh.step P) (inject seen injector targets payload) acts).node m).others <
      routingSeenCapacity) :
    ((run (mesh.step P) (inject seen injector targets payload) acts).node m).delivered.length ≤ 1 ∧
      ((run (mesh.step P) (inject seen injector targets payload) acts).node m).forwarded ≤ 1 := by
  rcases hbounded with hid | hspent
  · have horigin : e.origin injector ≠ "" := by
      unfold RelayEnvelope.origin
      split
      · exact hinjector
      · assumption
    have hstart : AtMostOnce (e.origin injector, w.id) (inject seen injector targets payload) := by
      refine ⟨fun l hl ↦ ?_, fun m ↦ ⟨hseen m, fun _ ↦ ⟨by simp [inject, Net.start],
        by simp [inject, Net.start]⟩, fun _ ↦ .inl ⟨rfl, rfl⟩⟩⟩
      obtain ⟨t, -, rfl⟩ := List.mem_map.mp hl
      exact ⟨e, w, hd, hw, rfl⟩
    have hend := run_invariant (I := AtMostOnce (e.origin injector, w.id))
      (fun _ a hs ↦ AtMostOnce.step P mesh horigin hid hs a) hstart acts
    exact (hend.handled m).once hfew
  · have hstart : SpentOnce (inject seen injector targets payload) := by
      refine ⟨fun l hl ↦ ?_, fun m ↦ ⟨?_, rfl⟩⟩
      · obtain ⟨t, -, rfl⟩ := List.mem_map.mp hl
        exact ⟨e, w, hd, hw, hspent⟩
      · simp only [inject, Net.start, List.length_nil, Nat.zero_add, List.map_map]
        have hid : (Letter.target ∘ fun t : String ↦ (⟨injector, t, payload⟩ :
            Letter String Value)) = id := rfl
        rw [hid, List.map_id]
        exact List.nodup_iff_count_le_one.mp hnodup m
    have hend := run_invariant (I := SpentOnce)
      (fun _ a hs ↦ SpentOnce.step P mesh hs a) hstart acts
    obtain ⟨hcount, hforwarded⟩ := hend.handled m
    exact ⟨Nat.le_trans (Nat.le_add_right _ _) hcount, by rw [hforwarded]; exact Nat.zero_le 1⟩

/-! ### Two runs around a triangle -/

/-- Three members of a ring, each connected to the others. -/
def triangle : RoutedMesh where
  mode := fun _ ↦ .ring none
  connected := fun me ↦ ["a", "b", "c"].filter (· != me)
  accepts := fun _ _ ↦ true

/-- A greeting to everyone that claims to come from `y`. -/
def greeting (id : UInt64) : Value := RelayEnvelope.encode ⟨"", "y", wrap "chat" .null 8 id⟩

/-- The frame goes from `a` to `b` and `c`, from `b` to `c`, and from `c` back to `a`. -/
def aroundTriangle : List RouteAct := [.arrive 0, .arrive 0, .arrive 1, .arrive 1]

/-- With an id, the frame that comes back is known. -/
theorem greeting_handled_once :
    ((run (triangle.step seeded) (inject (fun _ ↦ []) "x" ["a"] (greeting 5))
        aroundTriangle).node "a").delivered.length ≤ 1 ∧
      ((run (triangle.step seeded) (inject (fun _ ↦ []) "x" ["a"] (greeting 5))
        aroundTriangle).node "a").forwarded ≤ 1 :=
  injected_handled_once seeded triangle (fun _ ↦ []) (fun _ ↦ Nat.zero_le _) "x" (by decide) ["a"]
    (by decide) (greeting 5) ⟨"", "y", wrap "chat" .null 8 5⟩ ⟨"chat", .null, 8, 5⟩
    (RelayEnvelope.decode_encode _) (parseWrapper_wrap (by decide) _ _ _) (.inl (by decide))
    aroundTriangle "a" (by decide +kernel)

/-- Without an id, the node that is met again delivers and sends on again. -/
theorem greeting_without_id_handled_twice :
    ¬ ∀ (P : Primitives) (mesh : RoutedMesh) (seen : String → List (String × UInt64)),
      (∀ m, (seen m).length ≤ routingSeenCapacity) → ∀ (injector : String), injector ≠ "" →
      ∀ (targets : List String), targets.Nodup → ∀ (payload : Value) (e : RelayEnvelope)
        (w : Wrapper), RelayEnvelope.decode payload = some e → parseWrapper e.payload = some w →
      ∀ (acts : List RouteAct) (m : String),
        ((run (mesh.step P) (inject seen injector targets payload) acts).node m).others <
          routingSeenCapacity →
        ((run (mesh.step P) (inject seen injector targets payload) acts).node m).delivered.length
            ≤ 1 ∧
          ((run (mesh.step P) (inject seen injector targets payload) acts).node m).forwarded
            ≤ 1 := by
  intro h
  have hclaim := h seeded triangle (fun _ ↦ []) (fun _ ↦ Nat.zero_le _) "x" (by decide) ["a"]
    (by decide) (greeting 0) ⟨"", "y", wrap "chat" .null 8 0⟩ ⟨"chat", .null, 8, 0⟩
    (RelayEnvelope.decode_encode _) (parseWrapper_wrap (by decide) _ _ _) aroundTriangle "a"
    (by decide +kernel)
  revert hclaim
  decide +kernel

end MyOwnMesh
