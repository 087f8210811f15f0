import MyOwnMesh.Engine.Routes

/-!
# Directed frames

A frame for a member that is not connected is handed to one hop, which hands it to one hop, until
it is there. At any time there is one copy of it. Where it goes is settled by the shape: `Route`
says so, and a route that meets no node twice and is no longer than the hop budget delivers the
frame, once.
-/

namespace MyOwnMesh

open Lib Lib.Replay Lib.Network

variable (P : Primitives)

/-! ### Sending -/

/-- `fresh_frame_id`: any number, made odd; `routing.rs:83–86`. -/
def freshFrameId (random : UInt64) : UInt64 := random ||| 1

/-- Why a frame was not sent. -/
inductive SendError where
  | noRoute (text : String)
  | refused (hop : String)

/-- A member sends a frame to a member it is not connected to; `routing.rs:250–285`. The frame
goes to the first hop that takes it; if none does, the last refusal is the error. -/
def RoutedMesh.sendRouted (mesh : RoutedMesh) (me dest channel : String) (body : Value)
    (id : UInt64) (st : Station) : Station × Except SendError (String × Value) :=
  let hops := nextHops P (mesh.mode me) me dest (mesh.connected me)
  match hops.getLast? with
  | none =>
    (st, .error (.noRoute ("no route to " ++ dest ++
      ": not directly connected and the topology names no next hop")))
  | some last =>
    let st' := { st with seen := (firstSighting st.seen me id).1 }
    let envelope : RelayEnvelope :=
      { dst := dest, src := me, payload := wrap channel body (mesh.mode me).floodTtl id }
    match hops.find? (mesh.accepts me) with
    | some hop => (st', .ok (hop, envelope.encode))
    | none => (st', .error (.refused last))

/-- The mesh after a member has sent a frame. -/
def RoutedMesh.afterSend (mesh : RoutedMesh) (seen : String → List (String × UInt64))
    (me dest channel : String) (body : Value) (id : UInt64) : Net String Value Station :=
  let r := mesh.sendRouted P me dest channel body id { seen := seen me }
  .start (Function.update (fun m ↦ { seen := seen m }) me r.1)
    (match r.2 with
      | .ok (hop, value) => [⟨me, hop, value⟩]
      | .error _ => [])

section AfterSend

variable (mesh : RoutedMesh) (seen : String → List (String × UInt64)) (me dest channel : String)
  (body : Value) (id : UInt64)

/-- The frame is on its way to the first hop that takes it, if there is one. -/
theorem flight_afterSend : (mesh.afterSend P seen me dest channel body id).flight =
    (((nextHops P (mesh.mode me) me dest (mesh.connected me)).find? (mesh.accepts me)).map
      fun hop ↦ (⟨me, hop, RelayEnvelope.encode
        ⟨dest, me, wrap channel body (mesh.mode me).floodTtl id⟩⟩ :
          Letter String Value)).toList := by
  simp only [RoutedMesh.afterSend, RoutedMesh.sendRouted, Net.start]
  cases hops : nextHops P (mesh.mode me) me dest (mesh.connected me) with
  | nil => rfl
  | cons x xs =>
    rw [List.getLast?_cons]
    cases hfind : (x :: xs).find? (mesh.accepts me) <;> simp

/-- Nothing is delivered yet, and only the sender has marked its ring. -/
theorem node_afterSend (m : String) :
    ((mesh.afterSend P seen me dest channel body id).node m).delivered = [] ∧
      (m ≠ me → ((mesh.afterSend P seen me dest channel body id).node m).seen = seen m) := by
  by_cases hm : m = me
  · subst hm
    refine ⟨?_, fun hne ↦ absurd rfl hne⟩
    simp only [RoutedMesh.afterSend, RoutedMesh.sendRouted, Net.start, Function.update_self]
    split
    · rfl
    · split <;> rfl
  · simp [RoutedMesh.afterSend, Net.start, Function.update_of_ne hm]

end AfterSend

/-! ### What a shape connects -/

/-- The members of a network all follow one mode, and exactly the pairs with an edge are
connected; connections may be listed in any order and take every frame. Members go by the bare
form of their ids. -/
structure Shaped (mode : TopologyMode) (members : List String) (mesh : RoutedMesh) : Prop where
  nodup : members.Nodup
  names : ∀ m ∈ members, m ≠ "" ∧ pubkeyPart m = m
  mode_eq : ∀ m ∈ members, mesh.mode m = mode
  connected_iff : ∀ a ∈ members, ∀ b, b ∈ mesh.connected a ↔
    b ∈ members ∧ b ≠ a ∧ mode.edge P a b members = true
  connected_nodup : ∀ a ∈ members, (mesh.connected a).Nodup
  accepts : ∀ a ∈ members, ∀ b ∈ mesh.connected a, mesh.accepts a b = true

/-- The mesh in which every member lists its connections in the order of the members. -/
def RoutedMesh.ofMembers (P : Primitives) (mode : TopologyMode) (members : List String) :
    RoutedMesh where
  mode := fun _ ↦ mode
  connected := fun a ↦ members.filter fun b ↦ b != a && mode.edge P a b members
  accepts := fun _ _ ↦ true

theorem shaped_ofMembers (P : Primitives) (mode : TopologyMode) {members : List String}
    (hnodup : members.Nodup) (hnames : ∀ m ∈ members, m ≠ "" ∧ pubkeyPart m = m) :
    Shaped P mode members (.ofMembers P mode members) where
  nodup := hnodup
  names := hnames
  mode_eq := fun _ _ ↦ rfl
  connected_iff := fun a _ b ↦ by simp [RoutedMesh.ofMembers, List.mem_filter]
  connected_nodup := fun _ _ ↦ hnodup.filter _
  accepts := fun _ _ _ _ ↦ rfl

/-- In every order of arrivals, the destination's channels get the message and nothing else, and
nobody else's get anything; no more letters than the budget arrive, each from a carrier that may
speak for the origin, and so many arrivals finish the delivery. -/
structure DeliveredOnce (mesh : RoutedMesh) (s : Net String Value Station) (dst : String)
    (message : String × String × Value) (budget : Nat) : Prop where
  delivered : ∀ is, ((run (deliver (mesh.receive P)) s is).node dst).delivered =
    if (run (deliver (mesh.receive P)) s is).flight.isEmpty then [message] else []
  elsewhere : ∀ is m, m ≠ dst → ((run (deliver (mesh.receive P)) s is).node m).delivered = []
  budgeted : ∀ is, (run (deliver (mesh.receive P)) s is).arrived.length ≤ budget
  gated : ∀ is, ∀ l ∈ (run (deliver (mesh.receive P)) s is).arrived,
    message.1 = l.source ∨ (mesh.mode l.target).forwards l.source = true
  finished : ∀ is, (run (deliver (mesh.receive P)) s (is ++ List.replicate budget 0)).flight = []

/-! ### Routes -/

/-- The frame goes from a node, that has it from a carrier, over these nodes to its
destination. -/
def RoutedMesh.Route (mesh : RoutedMesh) (dst : String) : String → String → List String → Prop
  | _, me, [] => me = dst
  | carrier, me, next :: rest =>
    me ≠ dst ∧ (mesh.mode me).forwards me = true ∧ (mesh.mode next).forwards me = true ∧
      mesh.hop P me carrier dst = some next ∧ mesh.Route dst me next rest

variable {P} {mesh : RoutedMesh} {f : RoutedFrame} {s : Net String Value Station}

/-- Where a frame stands on its way, after a run from `s` to `t` along a route of so many
nodes. -/
structure Underway (mesh : RoutedMesh) (f : RoutedFrame) (s t : Net String Value Station)
    (nodes : Nat) : Prop where
  delivered : (t.node f.dst).delivered =
    (s.node f.dst).delivered ++ if t.flight.isEmpty then [f.message] else []
  elsewhere : ∀ m, m ≠ f.dst → (t.node m).delivered = (s.node m).delivered
  budgeted : t.flight = [] ∧ t.arrived.length ≤ s.arrived.length + nodes ∨
    t.arrived.length < s.arrived.length + nodes
  gated : ∀ l ∈ t.arrived, l ∈ s.arrived ∨ mesh.Gate l.target l.source f

/-- A copy arrives at the destination. -/
theorem arrive_at_destination {carrier : String} {ttl : UInt8} (hdst : f.dst ≠ "")
    (hgate : mesh.Gate f.dst carrier f) (hnew : f.key ∉ (s.node f.dst).seen)
    (hflight : s.flight = [⟨carrier, f.dst, f.copy ttl⟩]) (is : List Nat) :
    Underway mesh f s (run (deliver (mesh.receive P)) s is) 1 := by
  have htargets : mesh.targets P f.dst carrier f ttl = [] := by
    simp [RoutedMesh.targets, hdst]
  rcases run_of_lone (mesh.receive P) hflight is with hsame | ⟨js, hrun⟩
  · rw [hsame]
    exact ⟨by simp [hflight], fun _ _ ↦ rfl, .inr (Nat.lt_succ_self _), fun l hl ↦ .inl hl⟩
  · have hafter : (s.arrive (mesh.receive P) [] ⟨carrier, f.dst, f.copy ttl⟩ []).flight = [] := by
      simp [Net.arrive, receive_copy_of_notMem hgate hnew, htargets, letters]
    rw [hrun, run_of_quiet hafter]
    refine ⟨?_, fun m hm ↦ ?_, .inl ⟨hafter, by simp [Net.arrive]⟩, fun l hl ↦ ?_⟩
    · rw [hafter]
      simp [Net.arrive, receive_copy_of_notMem hgate hnew]
    · simp [Net.arrive, Function.update_of_ne hm]
    · simp only [Net.arrive, List.mem_append, List.mem_singleton] at hl
      rcases hl with hl | rfl
      · exact .inl hl
      · exact .inr hgate

/-- A copy on a route that meets no node twice and has hops left for it gets there. -/
theorem underway_of_route {carrier me : String} {rest : List String} {ttl : UInt8}
    (hdst : f.dst ≠ "") (hroute : mesh.Route P f.dst carrier me rest)
    (hnodup : (me :: rest).Nodup) (httl : rest.length ≤ ttl.toNat)
    (hgate : mesh.Gate me carrier f) (hnew : ∀ n ∈ me :: rest, f.key ∉ (s.node n).seen)
    (hflight : s.flight = [⟨carrier, me, f.copy ttl⟩]) (is : List Nat) :
    Underway mesh f s (run (deliver (mesh.receive P)) s is) (rest.length + 1) := by
  induction rest generalizing carrier me ttl s is with
  | nil =>
    obtain rfl : me = f.dst := hroute
    exact arrive_at_destination hdst hgate (hnew f.dst (by simp)) hflight is
  | cons next rest ih =>
    obtain ⟨hme, hforwards, hnextGate, hhop, hroute⟩ := hroute
    have hpos : ttl ≠ 0 := by
      rintro rfl
      simp at httl
    have htargets : mesh.targets P me carrier f ttl = [next] := by
      simp [RoutedMesh.targets, Ne.symm hme, hdst, hforwards, hpos, hhop]
    rcases run_of_lone (mesh.receive P) hflight is with hsame | ⟨js, hrun⟩
    · rw [hsame]
      refine ⟨by simp [hflight], fun _ _ ↦ rfl, .inr ?_, fun l hl ↦ .inl hl⟩
      simp only [List.length_cons]
      omega
    rw [hrun]
    obtain ⟨s', hs'⟩ : ∃ s', s' =
      s.arrive (mesh.receive P) [] ⟨carrier, me, f.copy ttl⟩ [] := ⟨_, rfl⟩
    rw [← hs']
    have hreceive : mesh.receive P me (s.node me) carrier (f.copy ttl) = _ :=
      receive_copy_of_notMem hgate (hnew me (by simp))
    rw [htargets] at hreceive
    have hflight' : s'.flight = [⟨me, next, f.copy (ttl - 1)⟩] := by
      simp [hs', Net.arrive, hreceive, letters]
    have hother : ∀ n, n ≠ me → s'.node n = s.node n := fun n hn ↦ by
      simp [hs', Net.arrive, Function.update_of_ne hn]
    have hdelivered : ∀ n, (s'.node n).delivered = (s.node n).delivered := by
      intro n
      by_cases hn : n = me
      · subst hn
        simp [hs', Net.arrive, hreceive, hdst, Ne.symm hme]
      · rw [hother n hn]
    have harrived : s'.arrived = s.arrived ++ [⟨carrier, me, f.copy ttl⟩] := by
      simp [hs', Net.arrive]
    have httl' : rest.length ≤ (ttl - 1).toNat := by
      have hsub := toNat_sub_one_add_one hpos
      simp only [List.length_cons] at httl
      omega
    have hfresh : ∀ n ∈ next :: rest, f.key ∉ (s'.node n).seen := by
      intro n hn
      have hne : n ≠ me := by
        rintro rfl
        exact (List.nodup_cons.mp hnodup).1 hn
      rw [hother n hne]
      exact hnew n (List.mem_cons_of_mem _ hn)
    have hrest := ih hroute (List.nodup_cons.mp hnodup).2 httl' (.inr hnextGate) hfresh
      hflight' js
    refine ⟨?_, fun m hm ↦ ?_, ?_, fun l hl ↦ ?_⟩
    · rw [hrest.delivered, hdelivered]
    · rw [hrest.elsewhere m hm, hdelivered]
    · have hlength : s'.arrived.length = s.arrived.length + 1 := by simp [harrived]
      rw [List.length_cons]
      rcases hrest.budgeted with ⟨hdone, hle⟩ | hlt
      · exact .inl ⟨hdone, by omega⟩
      · exact .inr (by omega)
    · rcases hrest.gated l hl with hl | hl
      · rw [harrived, List.mem_append, List.mem_singleton] at hl
        rcases hl with hl | rfl
        · exact .inl hl
        · exact .inr hgate
      · exact .inr hl

/-- A sent frame whose route meets no node twice and fits the hop budget is delivered once. -/
theorem deliveredOnce_of_route {seen : String → List (String × UInt64)}
    {me dest channel first : String} {body : Value} {id : UInt64} {rest : List String}
    (hme : me ≠ "") (hdest : dest ≠ "") (hchannel : channel ≠ relayChannel) (hid : id ≠ 0)
    (hfresh : ∀ m, (me, id) ∉ seen m)
    (hfirst : (nextHops P (mesh.mode me) me dest (mesh.connected me)).find? (mesh.accepts me) =
      some first)
    (hroute : mesh.Route P dest me first rest) (hnodup : (me :: first :: rest).Nodup)
    (httl : rest.length + 1 ≤ (mesh.mode me).floodTtl.toNat) :
    DeliveredOnce P mesh (mesh.afterSend P seen me dest channel body id) dest (me, channel, body)
      (mesh.mode me).floodTtl.toNat := by
  obtain ⟨f, hf⟩ : ∃ f : RoutedFrame, f = ⟨me, dest, channel, body, id, hme, hchannel, hid⟩ :=
    ⟨_, rfl⟩
  obtain ⟨s, hs⟩ : ∃ s, s = mesh.afterSend P seen me dest channel body id := ⟨_, rfl⟩
  have hflight : s.flight = [⟨me, first, f.copy (mesh.mode me).floodTtl⟩] := by
    rw [hs, flight_afterSend, hfirst, hf, RoutedFrame.copy]
    rfl
  have hquiet : ∀ m, (s.node m).delivered = [] := by
    intro m
    rw [hs]
    exact (node_afterSend P mesh seen me dest channel body id m).1
  have hnew : ∀ n ∈ first :: rest, f.key ∉ (s.node n).seen := by
    intro n hn
    have hne : n ≠ me := by
      rintro rfl
      exact (List.nodup_cons.mp hnodup).1 hn
    rw [hs, (node_afterSend P mesh seen me dest channel body id n).2 hne, hf, RoutedFrame.key]
    exact hfresh n
  have harrived : s.arrived = [] := by simp [hs, RoutedMesh.afterSend, Net.start]
  have hgate : mesh.Gate first me f := .inl (by rw [hf])
  have hunder := underway_of_route (P := P) (f := f) (by rw [hf]; exact hdest)
    (by rw [hf]; exact hroute) (List.nodup_cons.mp hnodup).2 (by omega) hgate hnew hflight
  have hdst : f.dst = dest := by rw [hf]
  have hmessage : f.message = (me, channel, body) := by rw [hf, RoutedFrame.message]
  have hcount : ∀ is, (run (deliver (mesh.receive P)) s is).flight = [] ∧
      (run (deliver (mesh.receive P)) s is).arrived.length ≤ rest.length + 1 ∨
      (run (deliver (mesh.receive P)) s is).arrived.length < rest.length + 1 := by
    intro is
    have hbudget := (hunder is).budgeted
    rwa [harrived, List.length_nil, Nat.zero_add] at hbudget
  rw [← hs]
  refine ⟨fun is ↦ ?_, fun is m hm ↦ ?_, fun is ↦ ?_, fun is l hl ↦ ?_, fun is ↦ ?_⟩
  · rw [← hdst, (hunder is).delivered, hquiet, List.nil_append, hmessage]
  · rw [(hunder is).elsewhere m (hdst ▸ hm), hquiet]
  · rcases hcount is with ⟨-, hle⟩ | hlt <;> omega
  · rcases (hunder is).gated l hl with hl | hl
    · rw [harrived] at hl
      exact absurd hl List.not_mem_nil
    · rwa [RoutedMesh.Gate, hf] at hl
  · refine flight_of_bounded (mesh.receive P) (fun js ↦ ?_) is
    rcases hcount js with ⟨hdone, -⟩ | hlt
    · exact .inl hdone
    · exact .inr (by omega)

/-- Made odd, an id is not zero. -/
theorem freshFrameId_ne_zero (random : UInt64) : freshFrameId random ≠ 0 := by
  intro h
  rw [freshFrameId, UInt64.or_eq_zero_iff] at h
  exact absurd h.2 (by decide)

end MyOwnMesh
