import MyOwnMesh.Topology

/-!
# Routed frames

`crates/myownmesh-core/src/engine/routing.rs` with the envelope of `services/relay.rs` and
`short_peer` of `engine/mod.rs`. A routed frame is an envelope on the relay channel; a node
that receives one drops it, hands it to its own channels or sends it on. The diagnostics of the
two drops shorten ids that the sender chose. A cut inside a character is a panic, which is
`none` here.
-/

namespace MyOwnMesh

open Lib

/-! ### Shortened names -/

/-- A long id as its first six and last four bytes; `mod.rs:1000–1005`. -/
def shortPeer (id : String) : Option String :=
  if id.utf8ByteSize ≤ 12 then some id
  else do
    let head ← Text.sliceTo id 6
    let tail ← Text.sliceFrom id (id.utf8ByteSize - 4)
    return head ++ "…" ++ tail

/-- At most the first twelve bytes of an id, as `governance.rs` cuts it in its diagnostics. -/
def clip (id : String) : Option String := Text.sliceTo id (min id.utf8ByteSize 12)

/-- Both cuts of `short_peer` fall between characters. -/
def Shortens (id : String) : Prop :=
  id.utf8ByteSize ≤ 12 ∨ ((⟨6⟩ : String.Pos.Raw).IsValid id ∧
    (⟨id.utf8ByteSize - 4⟩ : String.Pos.Raw).IsValid id)

/-- The cut after twelve bytes falls between characters. -/
def Clips (id : String) : Prop := (⟨min id.utf8ByteSize 12⟩ : String.Pos.Raw).IsValid id

instance (id : String) : Decidable (Shortens id) :=
  inferInstanceAs (Decidable (_ ∨ _))

instance (id : String) : Decidable (Clips id) :=
  inferInstanceAs (Decidable (String.Pos.Raw.IsValid _ _))

/-- Shortening an id panics exactly when a cut falls into a character. -/
theorem isSome_shortPeer_iff (id : String) : (shortPeer id).isSome ↔ Shortens id := by
  unfold shortPeer Shortens Text.sliceTo Text.sliceFrom
  by_cases hshort : id.utf8ByteSize ≤ 12
  · simp [hshort]
  · by_cases hhead : (⟨6⟩ : String.Pos.Raw).IsValid id
    · by_cases htail : (⟨id.utf8ByteSize - 4⟩ : String.Pos.Raw).IsValid id
      · simp [hshort, hhead, htail]
      · simp [hshort, hhead, htail]
    · simp [hshort, hhead]

/-- Clipping an id panics exactly when the cut falls into a character. -/
theorem isSome_clip_iff (id : String) : (clip id).isSome ↔ Clips id := by
  unfold clip Clips Text.sliceTo
  split <;> simp [*]

/-- An ASCII id can be shortened. -/
theorem Shortens.of_ascii {id : String} (h : ∀ c ∈ id.toList, c.toNat < 128) : Shortens id := by
  by_cases hshort : id.utf8ByteSize ≤ 12
  · exact .inl hshort
  · exact .inr ⟨Text.isValid_of_ascii h (by omega), Text.isValid_of_ascii h (by omega)⟩

/-- An ASCII id can be clipped. -/
theorem Clips.of_ascii {id : String} (h : ∀ c ∈ id.toList, c.toNat < 128) : Clips id :=
  Text.isValid_of_ascii h (by omega)

/-! ### Envelopes -/

/-- A JSON value. Numbers are told apart as the deserializer does. -/
inductive Value where
  | null
  | bool (b : Bool)
  | posInt (n : UInt64)
  | negInt (n : Int64)
  | float (text : String)
  | string (s : String)
  | array (items : List Value)
  | object (fields : List (String × Value))

/-- A field of an object. -/
def Value.get? (v : Value) (name : String) : Option Value :=
  match v with
  | .object fields => (fields.find? (·.1 == name)).map Prod.snd
  | _ => none

/-- The text of a string. -/
def Value.asStr : Value → Option String
  | .string s => some s
  | _ => none

/-- The value of a number that is a `u64`. -/
def Value.asU64 : Value → Option UInt64
  | .posInt n => some n
  | _ => none

/-- The reserved channel; `services/relay.rs:34`. -/
def relayChannel : String := "__mesh_relay__/v1"

/-- One relayed frame; `services/relay.rs:39–53`. An empty destination is a broadcast. -/
structure RelayEnvelope where
  dst : String
  src : String
  payload : Value

/-- What a routed frame carries inside the envelope; `routing.rs:51–56`. -/
structure Wrapper where
  channel : String
  body : Value
  ttl : UInt8
  id : UInt64

/-- Read the wrapper; `routing.rs:58–72`. One that names the relay channel is refused. -/
def parseWrapper (payload : Value) : Option Wrapper := do
  let channel ← (← payload.get? "__channel").asStr
  if channel = relayChannel then none
  else
    return {
      channel := channel
      body := (payload.get? "__body").getD .null
      ttl := (((payload.get? "__ttl").bind Value.asU64).getD 0).toUInt8
      id := ((payload.get? "__id").bind Value.asU64).getD 0 }

/-- Build the wrapper; `routing.rs:74–81`. -/
def wrap (channel : String) (body : Value) (ttl : UInt8) (id : UInt64) : Value :=
  .object [("__channel", .string channel), ("__body", body), ("__ttl", .posInt ttl.toUInt64),
    ("__id", .posInt id)]

/-- Capacity of the dedup ring; `routing.rs:48`. -/
def routingSeenCapacity : Nat := 2048

/-- Record a frame in the dedup ring, and whether it is new; `routing.rs:89–106`. -/
def firstSighting (seen : List (String × UInt64)) (origin : String) (id : UInt64) :
    List (String × UInt64) × Bool :=
  if id = 0 then (seen, true)
  else if seen.any (fun e ↦ e.2 == id && e.1 == origin) then (seen, false)
  else
    let room := if routingSeenCapacity ≤ seen.length then seen.tail else seen
    (room ++ [(origin, id)], true)

/-! ### Receiving -/

/-- What a node knows when a routed frame arrives. -/
structure Router where
  me : String
  mode : TopologyMode
  connected : List String
  seen : List (String × UInt64)

/-- What the call reads from outside: the JSON decoder of envelopes, whether diagnostics of
either level are recorded, and which peers take a frame. -/
structure RelayEnv where
  decode : Value → Option RelayEnvelope
  debugOn : Bool
  traceOn : Bool
  accepts : String → Bool

/-- What the call does: the dedup ring after it, what the node's own channels get (sender,
channel and body), and what was sent on. -/
structure RelayEffects where
  seen : List (String × UInt64)
  delivered : Option (String × String × Value) := none
  onward : List (String × RelayEnvelope) := []

variable (P : Primitives)

/-- The onward duty of a forwarder; `routing.rs:189–229`. -/
def onward (env : RelayEnv) (r : Router) (carrier origin : String) (envelope : RelayEnvelope)
    (w : Wrapper) : List (String × RelayEnvelope) :=
  let out : RelayEnvelope :=
    { dst := envelope.dst, src := origin, payload := wrap w.channel w.body (w.ttl - 1) w.id }
  if envelope.dst = "" then
    ((r.connected.filter fun p ↦ p != carrier && p != origin).filter env.accepts).map (·, out)
  else
    let hops :=
      if envelope.dst ∈ r.connected then [envelope.dst]
      else nextHops P r.mode r.me envelope.dst r.connected
    (((hops.filter (· != carrier)).find? env.accepts).map (·, out)).toList

/-- Who a routed frame says it is from; `routing.rs:135–139`. -/
def RelayEnvelope.origin (envelope : RelayEnvelope) (carrier : String) : String :=
  if envelope.src = "" then carrier else envelope.src

/-- A frame arrives on the relay channel; `routing.rs:124–232`. The inner `none` is a frame
that is not a routed one and goes to the channel's subscribers. -/
def onRelayFrame (env : RelayEnv) (r : Router) (carrier : String) (payload : Value) :
    Option (Option RelayEffects) :=
  match env.decode payload with
  | none => some none
  | some envelope =>
    match parseWrapper envelope.payload with
    | none => some none
    | some w =>
      let origin := envelope.origin carrier
      if origin ≠ carrier ∧ r.mode.forwards carrier = false then
        if env.debugOn then do
          let _ ← shortPeer carrier
          let _ ← shortPeer origin
          return some { seen := r.seen }
        else some (some { seen := r.seen })
      else
        let (seen, isNew) := firstSighting r.seen origin w.id
        if isNew = false then some (some { seen := seen })
        else
          let delivered :=
            if envelope.dst = "" ∨ envelope.dst = r.me then some (origin, w.channel, w.body)
            else none
          if envelope.dst ≠ "" ∧ envelope.dst = r.me then
            some (some { seen := seen, delivered := delivered })
          else if r.mode.forwards r.me = false ∨ w.ttl = 0 then
            if (envelope.dst ≠ "" ∧ r.mode.forwards r.me = false) ∧ env.traceOn then do
              let _ ← shortPeer envelope.dst
              return some { seen := seen, delivered := delivered }
            else some (some { seen := seen, delivered := delivered })
          else
            some (some {
              seen := seen
              delivered := delivered
              onward := onward P env r carrier origin envelope w })

/-- The ids that the two drops shorten can be shortened. -/
def RelayNamesCut (env : RelayEnv) (r : Router) (carrier : String) (payload : Value) : Prop :=
  ∀ envelope, env.decode payload = some envelope → ∀ w, parseWrapper envelope.payload = some w →
    (envelope.origin carrier ≠ carrier ∧ r.mode.forwards carrier = false → env.debugOn = true →
      Shortens (envelope.origin carrier)) ∧
    (¬ (envelope.origin carrier ≠ carrier ∧ r.mode.forwards carrier = false) →
      (firstSighting r.seen (envelope.origin carrier) w.id).2 = true →
      envelope.dst ≠ "" → envelope.dst ≠ r.me → r.mode.forwards r.me = false →
      env.traceOn = true → Shortens envelope.dst)

/-- A routed frame is handled without a panic exactly when the ids it makes the node shorten
can be. -/
theorem isSome_onRelayFrame_iff (env : RelayEnv) (r : Router) {carrier : String}
    (hcarrier : Shortens carrier) (payload : Value) :
    (onRelayFrame P env r carrier payload).isSome ↔ RelayNamesCut env r carrier payload := by
  have hc := (isSome_shortPeer_iff carrier).mpr hcarrier
  obtain ⟨name, hname⟩ := Option.isSome_iff_exists.mp hc
  unfold onRelayFrame RelayNamesCut
  cases hd : env.decode payload with
  | none => simp
  | some envelope =>
    cases hw : parseWrapper envelope.payload with
    | none => simp [hw]
    | some w =>
      simp only [Option.some.injEq, forall_eq', hw]
      by_cases hlaunder : envelope.origin carrier ≠ carrier ∧ r.mode.forwards carrier = false
      · simp only [hlaunder, ne_eq, not_false_eq_true, and_self, ↓reduceIte, forall_const,
          not_true_eq_false, false_implies, and_true]
        cases hdebug : env.debugOn with
        | false => simp
        | true => simp [hname, ← isSome_shortPeer_iff, Option.isSome_bind]
      · rw [if_neg hlaunder]
        simp only [hlaunder, false_implies, not_false_eq_true, forall_const, true_and]
        cases hnew : (firstSighting r.seen (envelope.origin carrier) w.id).2 with
        | false => simp
        | true =>
          by_cases hb : envelope.dst = ""
          · by_cases hf : r.mode.forwards r.me = false ∨ w.ttl = 0 <;> simp [hb, hf]
          · by_cases hme : envelope.dst = r.me
            · have hself : r.me ≠ "" := hme ▸ hb
              simp [hme, hself]
            · cases hf : r.mode.forwards r.me with
              | true => by_cases hz : w.ttl = 0 <;> simp [hb, hme, hz]
              | false =>
                cases htrace : env.traceOn with
                | false => simp [hb, hme]
                | true => simp [hb, hme, ← isSome_shortPeer_iff, Option.isSome_bind]

end MyOwnMesh
