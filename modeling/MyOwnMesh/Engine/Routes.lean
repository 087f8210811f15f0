import MyOwnMesh.Lib.Network
import MyOwnMesh.Engine.Routing

/-!
# Routed frames across a mesh

What one node does with a routed frame is `onRelayFrame`. Here the nodes are put together: each
has a mode, lists its connections in some order, and keeps its own dedup ring. One frame and its
copies travel as letters that arrive in any order; frames of other origins or ids pass through
the nodes meanwhile and leave their marks in the dedup rings.
-/

namespace MyOwnMesh

open Lib Lib.Network

/-! ### Envelopes on the wire -/

/-- `serde_json::to_value` of an envelope; `services/relay.rs:38–53`. -/
def RelayEnvelope.encode (e : RelayEnvelope) : Value :=
  .object [("dst", .string e.dst), ("src", .string e.src), ("payload", e.payload)]

/-- `serde_json::from_value` of an envelope: destination and source default to empty, and the
three fields may come as a sequence; `services/relay.rs:38–53`. -/
def RelayEnvelope.decode (v : Value) : Option RelayEnvelope :=
  match v with
  | .object _ => do
    let dst ← ((v.get? "dst").map Value.asStr).getD (some "")
    let src ← ((v.get? "src").map Value.asStr).getD (some "")
    let payload ← v.get? "payload"
    return { dst := dst, src := src, payload := payload }
  | .array [.string dst, .string src, payload] =>
    some { dst := dst, src := src, payload := payload }
  | _ => none

@[simp] theorem RelayEnvelope.decode_encode (e : RelayEnvelope) : decode e.encode = some e := by
  simp [encode, decode, Value.get?, Value.asStr]

/-- A wrapper that was read does not name the relay channel. -/
theorem channel_of_parseWrapper {payload : Value} {w : Wrapper}
    (h : parseWrapper payload = some w) : w.channel ≠ relayChannel := by
  unfold parseWrapper at h
  simp only [Option.bind_eq_bind, Option.bind_eq_some_iff] at h
  obtain ⟨v, -, channel, -, h⟩ := h
  by_cases hc : channel = relayChannel
  · simp [hc] at h
  · simp only [hc, ↓reduceIte, Option.pure_def, Option.some.injEq] at h
    rw [← h]
    exact hc

/-- A wrapper is read as it was built. -/
theorem parseWrapper_wrap {channel : String} (h : channel ≠ relayChannel) (body : Value)
    (ttl : UInt8) (id : UInt64) :
    parseWrapper (wrap channel body ttl id) = some ⟨channel, body, ttl, id⟩ := by
  simp [parseWrapper, wrap, Value.get?, Value.asStr, Value.asU64, h]

/-! ### The dedup ring -/

/-- A frame without an id is always new and leaves no mark. -/
theorem firstSighting_zero (seen : List (String × UInt64)) (origin : String) :
    firstSighting seen origin 0 = (seen, true) := by simp [firstSighting]

/-- A frame that is in the ring is not new. -/
theorem firstSighting_of_mem {seen : List (String × UInt64)} {origin : String} {id : UInt64}
    (h : id ≠ 0) (hmem : (origin, id) ∈ seen) : firstSighting seen origin id = (seen, false) := by
  have hany : seen.any (fun e ↦ e.2 == id && e.1 == origin) = true :=
    List.any_eq_true.mpr ⟨(origin, id), hmem, by simp⟩
  simp [firstSighting, h, hany]

/-- A frame that is not in the ring is new and goes to its end; a full ring forgets its first
entry. -/
theorem firstSighting_of_notMem {seen : List (String × UInt64)} {origin : String} {id : UInt64}
    (h : id ≠ 0) (hmem : (origin, id) ∉ seen) :
    firstSighting seen origin id =
      ((if routingSeenCapacity ≤ seen.length then seen.tail else seen) ++ [(origin, id)],
        true) := by
  have hany : seen.any (fun e ↦ e.2 == id && e.1 == origin) = false := by
    rw [List.any_eq_false]
    rintro ⟨o, i⟩ he hsame
    simp only [Bool.and_eq_true, beq_iff_eq] at hsame
    exact hmem (by rw [← hsame.1, ← hsame.2]; exact he)
  simp [firstSighting, h, hany]

/-- What a sighting does to the ring. -/
theorem firstSighting_cases (seen : List (String × UInt64)) (origin : String) (id : UInt64) :
    firstSighting seen origin id = (seen, true) ∧ id = 0 ∨
    firstSighting seen origin id = (seen, false) ∧ id ≠ 0 ∧ (origin, id) ∈ seen ∨
    firstSighting seen origin id =
      ((if routingSeenCapacity ≤ seen.length then seen.tail else seen) ++ [(origin, id)], true) ∧
      id ≠ 0 ∧ (origin, id) ∉ seen := by
  by_cases h : id = 0
  · subst h
    exact .inl ⟨firstSighting_zero seen origin, rfl⟩
  · by_cases hmem : (origin, id) ∈ seen
    · exact .inr (.inl ⟨firstSighting_of_mem h hmem, h, hmem⟩)
    · exact .inr (.inr ⟨firstSighting_of_notMem h hmem, h, hmem⟩)

/-- A frame that is not new leaves the ring as it is. -/
theorem firstSighting_of_not_new {seen : List (String × UInt64)} {origin : String} {id : UInt64}
    (h : (firstSighting seen origin id).2 = false) : (firstSighting seen origin id).1 = seen := by
  rcases firstSighting_cases seen origin id with ⟨heq, -⟩ | ⟨heq, -⟩ | ⟨heq, -⟩
  · rw [heq]
  · rw [heq]
  · simp [heq] at h

/-- A key in the ring, with no more than so many others after it. -/
def Recent (key : String × UInt64) (n : Nat) (seen : List (String × UInt64)) : Prop :=
  ∃ before after, seen = before ++ key :: after ∧ after.length ≤ n

theorem Recent.mem {key : String × UInt64} {n : Nat} {seen : List (String × UInt64)}
    (h : Recent key n seen) : key ∈ seen := by
  obtain ⟨before, after, rfl, -⟩ := h
  simp

theorem Recent.mono {key : String × UInt64} {n m : Nat} {seen : List (String × UInt64)}
    (h : Recent key n seen) (hnm : n ≤ m) : Recent key m seen := by
  obtain ⟨before, after, hseen, hlen⟩ := h
  exact ⟨before, after, hseen, hlen.trans hnm⟩

/-- The ring never grows past its capacity. -/
theorem length_firstSighting_le {seen : List (String × UInt64)}
    (h : seen.length ≤ routingSeenCapacity) (origin : String) (id : UInt64) :
    (firstSighting seen origin id).1.length ≤ routingSeenCapacity := by
  rcases firstSighting_cases seen origin id with ⟨heq, -⟩ | ⟨heq, -⟩ | ⟨heq, -⟩
  · rw [heq]
    exact h
  · rw [heq]
    exact h
  · rw [heq, List.length_append, List.length_singleton]
    split
    · rw [List.length_tail]
      unfold routingSeenCapacity at *
      omega
    · omega

/-- A frame that is new is the last entry of the ring. -/
theorem recent_firstSighting {seen : List (String × UInt64)} {origin : String} {id : UInt64}
    (h : id ≠ 0) (hnew : (firstSighting seen origin id).2 = true) :
    Recent (origin, id) 0 (firstSighting seen origin id).1 := by
  rcases firstSighting_cases seen origin id with ⟨-, hzero⟩ | ⟨heq, -⟩ | ⟨heq, -⟩
  · exact absurd hzero h
  · simp [heq] at hnew
  · rw [heq]
    exact ⟨_, [], rfl, Nat.le_refl 0⟩

/-- An entry outlives sightings of other frames as long as they are fewer than the capacity. -/
theorem Recent.firstSighting {key : String × UInt64} {n : Nat} {seen : List (String × UInt64)}
    (h : Recent key n seen) (hlen : seen.length ≤ routingSeenCapacity)
    (hn : n + 1 < routingSeenCapacity) (origin : String) (id : UInt64) :
    Recent key (n + 1) (MyOwnMesh.firstSighting seen origin id).1 := by
  rcases firstSighting_cases seen origin id with ⟨heq, -⟩ | ⟨heq, -⟩ | ⟨heq, -⟩
  · rw [heq]
    exact h.mono (Nat.le_succ n)
  · rw [heq]
    exact h.mono (Nat.le_succ n)
  · rw [heq]
    obtain ⟨before, after, rfl, hafter⟩ := h
    simp only [List.length_append, List.length_cons] at hlen ⊢
    split
    · -- The ring is full, and the first entry is not ours.
      cases before with
      | nil =>
        simp only [List.length_nil] at *
        omega
      | cons b before =>
        refine ⟨before, after ++ [(origin, id)], by simp, ?_⟩
        rw [List.length_append, List.length_singleton]
        omega
    · refine ⟨before, after ++ [(origin, id)], by simp, ?_⟩
      rw [List.length_append, List.length_singleton]
      omega

/-- A copy with hops left has one less when it is sent on. -/
theorem toNat_sub_one_add_one {ttl : UInt8} (h : ttl ≠ 0) : (ttl - 1).toNat + 1 = ttl.toNat := by
  have hpos : 1 ≤ ttl.toNat := Nat.one_le_iff_ne_zero.mpr fun hz ↦ h (UInt8.toNat_inj.mp hz)
  have hone : (1 : UInt8) ≤ ttl := UInt8.le_iff_toNat_le.mpr hpos
  rw [UInt8.toNat_sub_of_le _ _ hone]
  exact Nat.sub_add_cancel hpos

/-! ### One node -/

variable (P : Primitives)

/-- What a routed frame does at a node. -/
def routedEffects (env : RelayEnv) (r : Router) (carrier : String) (e : RelayEnvelope)
    (w : Wrapper) : RelayEffects :=
  let origin := e.origin carrier
  if (origin ≠ carrier ∧ r.mode.forwards carrier = false) ∨
      (firstSighting r.seen origin w.id).2 = false then
    { seen := r.seen }
  else
    { seen := (firstSighting r.seen origin w.id).1
      delivered :=
        if e.dst = "" ∨ e.dst = r.me then some (origin, w.channel, w.body) else none
      onward :=
        if (e.dst ≠ "" ∧ e.dst = r.me) ∨ r.mode.forwards r.me = false ∨ w.ttl = 0 then []
        else onward P env r carrier origin e w }

/-- A call without diagnostics. Where a diagnostic panics, all of this has happened before. -/
theorem onRelayFrame_eq_routed (env : RelayEnv) (hdebug : env.debugOn = false)
    (htrace : env.traceOn = false) (r : Router) (carrier : String) {payload : Value}
    {e : RelayEnvelope} {w : Wrapper} (hd : env.decode payload = some e)
    (hw : parseWrapper e.payload = some w) :
    onRelayFrame P env r carrier payload = some (some (routedEffects P env r carrier e w)) := by
  unfold onRelayFrame routedEffects
  simp only [hd, hw, hdebug, htrace]
  by_cases hlaunder : e.origin carrier ≠ carrier ∧ r.mode.forwards carrier = false
  · simp [hlaunder]
  · simp only [hlaunder, ↓reduceIte, false_or]
    cases hnew : (firstSighting r.seen (e.origin carrier) w.id).2 with
    | false => simp [firstSighting_of_not_new hnew]
    | true =>
      simp only [Bool.true_eq_false, ↓reduceIte, Bool.false_eq_true, and_false]
      by_cases hme : e.dst ≠ "" ∧ e.dst = r.me
      · have hend : (e.dst ≠ "" ∧ e.dst = r.me) ∨ r.mode.forwards r.me = false ∨ w.ttl = 0 :=
          .inl hme
        simp only [if_pos hme, if_pos hend]
      · by_cases hstop : r.mode.forwards r.me = false ∨ w.ttl = 0
        · have hend : (e.dst ≠ "" ∧ e.dst = r.me) ∨ r.mode.forwards r.me = false ∨ w.ttl = 0 :=
            .inr hstop
          simp only [if_neg hme, if_pos hstop, if_pos hend]
        · have hend : ¬ ((e.dst ≠ "" ∧ e.dst = r.me) ∨ r.mode.forwards r.me = false ∨
              w.ttl = 0) := fun h ↦ h.elim hme hstop
          simp only [if_neg hme, if_neg hstop, if_neg hend]

/-- A named source is the origin, whoever carries the frame. -/
theorem origin_of_src {e : RelayEnvelope} (h : e.src ≠ "") (carrier : String) :
    e.origin carrier = e.src := if_neg h

/-- What is sent on is the frame with one hop less, and the origin named. -/
theorem envelope_of_mem_onward {env : RelayEnv} {r : Router} {carrier origin : String}
    {e : RelayEnvelope} {w : Wrapper} {o : String × RelayEnvelope}
    (h : o ∈ onward P env r carrier origin e w) :
    o.2 = { dst := e.dst, src := origin, payload := wrap w.channel w.body (w.ttl - 1) w.id } := by
  unfold onward at h
  by_cases hb : e.dst = ""
  · simp only [hb, ↓reduceIte, List.mem_map] at h
    obtain ⟨-, -, rfl⟩ := h
    simp [hb]
  · simp only [hb, ↓reduceIte, Option.mem_toList, Option.map_eq_some_iff] at h
    obtain ⟨-, -, rfl⟩ := h
    rfl

/-! ### A mesh of nodes -/

/-- Every node's mode, its connections in the order it lists them, and which of them take a
frame. -/
structure RoutedMesh where
  mode : String → TopologyMode
  connected : String → List String
  accepts : String → String → Bool

/-- What a node keeps: its dedup ring, what its channels got of the frame that is followed, how
often it sent that frame on, and how many other frames it handled. -/
structure Station where
  seen : List (String × UInt64)
  delivered : List (String × String × Value) := []
  forwarded : Nat := 0
  others : Nat := 0

namespace RoutedMesh

variable (mesh : RoutedMesh)

/-- What a call at a node reads from outside. -/
def env (me : String) : RelayEnv where
  decode := RelayEnvelope.decode
  debugOn := false
  traceOn := false
  accepts := mesh.accepts me

/-- The node when a frame arrives. -/
def router (me : String) (seen : List (String × UInt64)) : Router where
  me := me
  mode := mesh.mode me
  connected := mesh.connected me
  seen := seen

/-- A copy of the frame arrives at a node; `routing.rs:124–232`. -/
def receive : Handler String Value Station := fun me st carrier payload ↦
  match onRelayFrame P (mesh.env me) (mesh.router me st.seen) carrier payload with
  | some (some e) =>
    ({ st with
        seen := e.seen
        delivered := st.delivered ++ e.delivered.toList
        forwarded := st.forwarded + if e.onward.isEmpty then 0 else 1 },
      e.onward.map fun o ↦ (o.1, o.2.encode))
  | _ => (st, [])

/-- Another frame passes through a node. -/
def hear (me : String) (st : Station) (carrier : String) (payload : Value) : Station :=
  match onRelayFrame P (mesh.env me) (mesh.router me st.seen) carrier payload with
  | some (some e) => { st with seen := e.seen, others := st.others + 1 }
  | _ => { st with others := st.others + 1 }

end RoutedMesh

/-- What happens in a mesh: a copy of the frame arrives, or another frame passes through. -/
inductive RouteAct where
  | arrive (i : Nat)
  | other (node carrier : String) (payload : Value)

/-- One step of a mesh. -/
def RoutedMesh.step (mesh : RoutedMesh) (s : Net String Value Station) :
    RouteAct → Net String Value Station
  | .arrive i => deliver (mesh.receive P) s i
  | .other m carrier payload =>
    { s with node := Function.update s.node m (mesh.hear P m (s.node m) carrier payload) }

/-- The other frames that pass through have another origin or id. -/
def RouteAct.Apart (key : String × UInt64) : RouteAct → Prop
  | .arrive _ => True
  | .other _ carrier payload => ∀ e w, RelayEnvelope.decode payload = some e →
    parseWrapper e.payload = some w → (e.origin carrier, w.id) ≠ key

variable {P} {mesh : RoutedMesh} {me carrier : String} {e : RelayEnvelope} {w : Wrapper}

/-- The node drops the frame: its carrier may not speak for its origin, or it was seen. -/
def RoutedMesh.Drops (mesh : RoutedMesh) (me : String) (seen : List (String × UInt64))
    (carrier : String) (e : RelayEnvelope) (w : Wrapper) : Prop :=
  (e.origin carrier ≠ carrier ∧ (mesh.mode me).forwards carrier = false) ∨
    (firstSighting seen (e.origin carrier) w.id).2 = false

variable (P) in
/-- What a node sends on of a frame that is new to it. -/
def RoutedMesh.outgoing (mesh : RoutedMesh) (me carrier : String) (e : RelayEnvelope)
    (w : Wrapper) : List (String × RelayEnvelope) :=
  if (e.dst ≠ "" ∧ e.dst = me) ∨ (mesh.mode me).forwards me = false ∨ w.ttl = 0 then []
  else onward P (mesh.env me) (mesh.router me []) carrier (e.origin carrier) e w

/-- A frame that is dropped changes nothing. -/
theorem receive_of_drops {payload : Value} (hd : RelayEnvelope.decode payload = some e)
    (hw : parseWrapper e.payload = some w) {st : Station}
    (h : mesh.Drops me st.seen carrier e w) :
    mesh.receive P me st carrier payload = (st, []) := by
  have hdrop : routedEffects P (mesh.env me) (mesh.router me st.seen) carrier e w =
      { seen := st.seen } := if_pos h
  unfold RoutedMesh.receive
  rw [onRelayFrame_eq_routed P (mesh.env me) rfl rfl _ _ hd hw, hdrop]
  simp

/-- A frame that is not dropped is marked, delivered if it is for the node, and sent on. -/
theorem receive_of_not_drops {payload : Value} (hd : RelayEnvelope.decode payload = some e)
    (hw : parseWrapper e.payload = some w) {st : Station}
    (h : ¬ mesh.Drops me st.seen carrier e w) :
    mesh.receive P me st carrier payload =
      ({ st with
          seen := (firstSighting st.seen (e.origin carrier) w.id).1
          delivered := st.delivered ++ (if e.dst = "" ∨ e.dst = me then
            [(e.origin carrier, w.channel, w.body)] else [])
          forwarded := st.forwarded + if (mesh.outgoing P me carrier e w).isEmpty then 0 else 1 },
        (mesh.outgoing P me carrier e w).map fun o ↦ (o.1, o.2.encode)) := by
  have hnew : routedEffects P (mesh.env me) (mesh.router me st.seen) carrier e w =
      { seen := (firstSighting st.seen (e.origin carrier) w.id).1
        delivered :=
          if e.dst = "" ∨ e.dst = me then some (e.origin carrier, w.channel, w.body) else none
        onward := mesh.outgoing P me carrier e w } := if_neg h
  unfold RoutedMesh.receive
  rw [onRelayFrame_eq_routed P (mesh.env me) rfl rfl _ _ hd hw, hnew]
  by_cases hmine : e.dst = "" ∨ e.dst = me
  · simp [hmine]
  · simp [hmine]

/-- Only a frame with hops left is sent on, with one hop less and the origin named. -/
theorem mem_outgoing {o : String × RelayEnvelope} (h : o ∈ mesh.outgoing P me carrier e w) :
    o.2 = { dst := e.dst, src := e.origin carrier,
            payload := wrap w.channel w.body (w.ttl - 1) w.id } ∧ w.ttl ≠ 0 := by
  unfold RoutedMesh.outgoing at h
  split at h
  · simp at h
  · next hends => exact ⟨envelope_of_mem_onward P h, fun hz ↦ hends (.inr (.inr hz))⟩

/-- What passes through a node at most sights another frame. -/
theorem hear_cases (P : Primitives) (mesh : RoutedMesh) (me : String) (st : Station)
    (carrier : String) (payload : Value) :
    mesh.hear P me st carrier payload = { st with others := st.others + 1 } ∨
      ∃ e w, RelayEnvelope.decode payload = some e ∧ parseWrapper e.payload = some w ∧
        mesh.hear P me st carrier payload = { st with
          seen := (firstSighting st.seen (e.origin carrier) w.id).1
          others := st.others + 1 } := by
  cases hd : RelayEnvelope.decode payload with
  | none => exact .inl (by simp [RoutedMesh.hear, onRelayFrame, RoutedMesh.env, hd])
  | some e =>
    cases hw : parseWrapper e.payload with
    | none => exact .inl (by simp [RoutedMesh.hear, onRelayFrame, RoutedMesh.env, hd, hw])
    | some w =>
      have hcall := onRelayFrame_eq_routed P (mesh.env me) rfl rfl
        (mesh.router me st.seen) carrier hd hw
      simp only [RoutedMesh.hear, hcall, routedEffects]
      split
      · exact .inl rfl
      · exact .inr ⟨e, w, rfl, hw, rfl⟩

/-! ### Copies of one frame -/

/-- A frame as its origin wraps it, but for the hops that are left. An empty destination is a
broadcast. -/
structure RoutedFrame where
  origin : String
  dst : String
  channel : String
  body : Value
  id : UInt64
  origin_ne : origin ≠ ""
  channel_ne : channel ≠ relayChannel
  id_ne : id ≠ 0

/-- What the dedup rings know a frame by. -/
def RoutedFrame.key (f : RoutedFrame) : String × UInt64 := (f.origin, f.id)

/-- A copy of the frame on the wire. -/
def RoutedFrame.copy (f : RoutedFrame) (ttl : UInt8) : Value :=
  RelayEnvelope.encode ⟨f.dst, f.origin, wrap f.channel f.body ttl f.id⟩

/-- What a channel gets of the frame. -/
def RoutedFrame.message (f : RoutedFrame) : String × String × Value :=
  (f.origin, f.channel, f.body)

/-- A ring with one more entry. -/
def mark (key : String × UInt64) (seen : List (String × UInt64)) : List (String × UInt64) :=
  (if routingSeenCapacity ≤ seen.length then seen.tail else seen) ++ [key]

variable (P) in
/-- Where a node sends a directed frame on to: straight to the destination if it is connected,
else to the first hop of the topology that takes it, and never back. -/
def RoutedMesh.hop (mesh : RoutedMesh) (me carrier dst : String) : Option String :=
  let hops :=
    if dst ∈ mesh.connected me then [dst]
    else nextHops P (mesh.mode me) me dst (mesh.connected me)
  (hops.filter (· != carrier)).find? (mesh.accepts me)

variable (P) in
/-- Who gets a copy from a node that the frame is new to. -/
def RoutedMesh.targets (mesh : RoutedMesh) (me carrier : String) (f : RoutedFrame)
    (ttl : UInt8) : List String :=
  if (f.dst ≠ "" ∧ f.dst = me) ∨ (mesh.mode me).forwards me = false ∨ ttl = 0 then []
  else if f.dst = "" then
    ((mesh.connected me).filter fun p ↦ p != carrier && p != f.origin).filter (mesh.accepts me)
  else (mesh.hop P me carrier f.dst).toList

variable {f : RoutedFrame} {ttl : UInt8} {st : Station}

/-- A carrier may speak for the frame's origin: it is the origin or a forwarder. -/
def RoutedMesh.Gate (mesh : RoutedMesh) (me carrier : String) (f : RoutedFrame) : Prop :=
  f.origin = carrier ∨ (mesh.mode me).forwards carrier = true

/-- A copy of a frame that is known changes nothing. -/
theorem receive_copy_of_mem (h : f.key ∈ st.seen) :
    mesh.receive P me st carrier (f.copy ttl) = (st, []) := by
  refine receive_of_drops (RelayEnvelope.decode_encode _)
    (parseWrapper_wrap f.channel_ne _ _ _) (.inr ?_)
  rw [origin_of_src f.origin_ne, firstSighting_of_mem f.id_ne h]

/-- A copy of a frame that is new, from a carrier that may speak for its origin. -/
theorem receive_copy_of_notMem (hgate : mesh.Gate me carrier f) (h : f.key ∉ st.seen) :
    mesh.receive P me st carrier (f.copy ttl) =
      ({ st with
          seen := mark f.key st.seen
          delivered := st.delivered ++ (if f.dst = "" ∨ f.dst = me then [f.message] else [])
          forwarded := st.forwarded + if (mesh.targets P me carrier f ttl).isEmpty then 0 else 1 },
        (mesh.targets P me carrier f ttl).map fun t ↦ (t, f.copy (ttl - 1))) := by
  have hnew := firstSighting_of_notMem f.id_ne h
  have hw := parseWrapper_wrap f.channel_ne f.body ttl f.id
  have horigin : RelayEnvelope.origin ⟨f.dst, f.origin, wrap f.channel f.body ttl f.id⟩ carrier =
      f.origin := origin_of_src f.origin_ne carrier
  have hdrop : ¬ mesh.Drops me st.seen carrier
      ⟨f.dst, f.origin, wrap f.channel f.body ttl f.id⟩ ⟨f.channel, f.body, ttl, f.id⟩ := by
    unfold RoutedMesh.Drops
    rw [horigin, hnew]
    rcases hgate with hsame | hforwards
    · simp [hsame]
    · simp [hforwards]
  have hout : mesh.outgoing P me carrier ⟨f.dst, f.origin, wrap f.channel f.body ttl f.id⟩
      ⟨f.channel, f.body, ttl, f.id⟩ = (mesh.targets P me carrier f ttl).map fun t ↦
        (t, ⟨f.dst, f.origin, wrap f.channel f.body (ttl - 1) f.id⟩) := by
    unfold RoutedMesh.outgoing RoutedMesh.targets
    rw [horigin]
    split
    · rfl
    · by_cases hb : f.dst = ""
      · simp only [onward, hb, ↓reduceIte, RoutedMesh.router, RoutedMesh.env]
      · simp only [onward, hb, ↓reduceIte, RoutedMesh.router, RoutedMesh.env, RoutedMesh.hop]
        exact Option.toList_map
  unfold RoutedFrame.copy
  rw [receive_of_not_drops (RelayEnvelope.decode_encode _) hw hdrop, horigin, hnew, hout]
  simp [List.map_map, mark, RoutedFrame.key, RoutedFrame.message, Function.comp_def]

end MyOwnMesh
