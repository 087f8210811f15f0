import MyOwnMesh.Engine.HubRoutes
import MyOwnMesh.Engine.RingFlood

/-!
# A broadcast reaches everyone once

The three shapes that prune connections keep their members connected over forwarders: over the
hub of a star, over the hubs, and around the ring. So a flood reaches all of them, as long as
nobody is cut off by a forwarder that heard the frame first with the hops used up. That cannot
happen where no more members forward than the budget has hops. It happens among six hubs, where
the first copy to arrive need not be the one that came the short way, and on rings of 68.
-/

namespace MyOwnMesh

open Lib Lib.Replay Lib.Network

variable {P : Primitives} {mesh : RoutedMesh} {members : List String} {origin m : String}

/-- A mode that prunes connections and leaves no member alone: the hub of a star is a member, and
of the hubs that a spoke attaches to one is. -/
def TopologyMode.Spans (P : Primitives) (members : List String) : TopologyMode → Prop
  | .ring _ => True
  | .star hub => pubkeyPart hub ∈ members
  | .hubs hubIds redundancy => ∀ m ∈ members, isHub hubIds m = true ∨
      ∃ hub ∈ hubsFor P hubIds (redundancy.getD defaultSpokeRedundancy) m, hub ∈ members
  | .fullMesh => False

/-! ### Over hubs -/

/-- In a star the hub is reached, and from it everyone. -/
theorem star_reached {hub : String} (h : Shaped P (.star hub) members mesh)
    (hhub : pubkeyPart hub ∈ members) (ho : origin ∈ members) (hm : m ∈ members) :
    Relation.ReflTransGen (mesh.Passes origin) origin m := by
  have hname := (h.names _ hhub).2
  have hfirst : Relation.ReflTransGen (mesh.Passes origin) origin (pubkeyPart hub) := by
    by_cases heq : origin = pubkeyPart hub
    · rw [heq]
    · refine .single ⟨.inl rfl, (h.connected_iff _ ho _).mpr ⟨hhub, Ne.symm heq, ?_⟩⟩
      simp [TopologyMode.edge, hname]
  by_cases heq : m = pubkeyPart hub
  · rw [heq]
    exact hfirst
  · refine hfirst.tail ⟨.inr ?_, (h.connected_iff _ hhub _).mpr ⟨hm, heq, ?_⟩⟩
    · rw [h.mode_eq _ hhub]
      simp [TopologyMode.forwards, hname]
    · simp [TopologyMode.edge, hname]

section Hubs

variable {hubIds : List String} {redundancy : Option UInt32}
  (h : Shaped P (.hubs hubIds redundancy) members mesh)
  (hspans : (TopologyMode.hubs hubIds redundancy).Spans P members)

include h hspans

/-- A spoke is connected to a hub, and the hub to it. -/
theorem exists_hub_of_spoke (hm : m ∈ members) (hspoke : isHub hubIds m = false) :
    ∃ hub ∈ members, isHub hubIds hub = true ∧ hub ∈ mesh.connected m ∧
      m ∈ mesh.connected hub := by
  obtain ⟨key, hkey, hmem⟩ := (hspans m hm).resolve_left (by simp [hspoke])
  obtain ⟨hub, hhub, rfl⟩ := exists_hub_of_mem_hubsFor P hkey
  have hname := (h.names _ hmem).2
  have hHub : isHub hubIds (pubkeyPart hub) = true :=
    List.any_eq_true.mpr ⟨hub, hhub, by rw [hname]; exact beq_self_eq_true _⟩
  have hdiff : pubkeyPart hub ≠ m := by
    rintro rfl
    simp [hHub] at hspoke
  refine ⟨pubkeyPart hub, hmem, hHub, (h.connected_iff m hm _).mpr ⟨hmem, hdiff, ?_⟩,
    (connected_iff_of_spoke h hmem hm hHub hspoke).mpr hkey⟩
  simp only [TopologyMode.edge, hubEdge, hspoke, hHub, hname]
  exact List.any_eq_true.mpr ⟨_, hkey, beq_self_eq_true _⟩

/-- Some hub is reached, from it all hubs, and from them everyone. -/
theorem hubs_reached (ho : origin ∈ members) (hm : m ∈ members) :
    Relation.ReflTransGen (mesh.Passes origin) origin m := by
  have hforwards : ∀ a ∈ members, isHub hubIds a = true → (mesh.mode a).forwards a = true :=
    fun a ha hHub ↦ by
      rw [h.mode_eq a ha]
      exact hHub
  have hfirst : ∃ hub ∈ members, isHub hubIds hub = true ∧
      Relation.ReflTransGen (mesh.Passes origin) origin hub := by
    cases hHub : isHub hubIds origin with
    | true => exact ⟨origin, ho, hHub, .refl⟩
    | false =>
      obtain ⟨hub, hmem, hHub, hconn, -⟩ := exists_hub_of_spoke h hspans ho hHub
      exact ⟨hub, hmem, hHub, .single ⟨.inl rfl, hconn⟩⟩
  obtain ⟨first, hfirstMem, hfirstHub, hfirst⟩ := hfirst
  have hall : ∀ a ∈ members, isHub hubIds a = true →
      Relation.ReflTransGen (mesh.Passes origin) origin a := by
    intro a ha hHub
    by_cases heq : a = first
    · rw [heq]
      exact hfirst
    · exact hfirst.tail ⟨.inr (hforwards first hfirstMem hfirstHub),
        connected_of_hubs h hfirstMem ha heq hfirstHub hHub⟩
  cases hHub : isHub hubIds m with
  | true => exact hall m hm hHub
  | false =>
    obtain ⟨hub, hmem, hHub, -, hconn⟩ := exists_hub_of_spoke h hspans hm hHub
    exact (hall hub hmem hHub).tail ⟨.inr (hforwards hub hmem hHub), hconn⟩

end Hubs

/-! ### Around the ring -/

section Ring

variable {nPreferred : Option UInt32} (h : Shaped P (.ring nPreferred) members mesh)

include h

/-- Going on to the next member, everyone is reached. -/
theorem ring_reached (ho : origin ∈ members) (hm : m ∈ members) :
    Relation.ReflTransGen (mesh.Passes origin) origin m := by
  have hperm := List.perm_insertionSort (· ≤ ·) members
  have hlen : (Text.sortStrings members).length = members.length := hperm.length_eq
  obtain ⟨i, hi⟩ := List.mem_iff_getElem?.mp (hperm.mem_iff.mpr ho)
  obtain ⟨k, hk⟩ := List.mem_iff_getElem?.mp (hperm.mem_iff.mpr hm)
  obtain ⟨hilt, -⟩ := List.getElem?_eq_some_iff.mp hi
  obtain ⟨hklt, -⟩ := List.getElem?_eq_some_iff.mp hk
  rw [hperm.length_eq] at hilt hklt
  have hgo : ∀ j x, (Text.sortStrings members)[(i + j) % members.length]? = some x →
      Relation.ReflTransGen (mesh.Passes origin) origin x := by
    intro j
    induction j with
    | zero =>
      intro x hx
      rw [Nat.add_zero, Nat.mod_eq_of_lt hilt] at hx
      rw [Option.some.inj (hi.symm.trans hx)]
    | succ j ih =>
      intro x hx
      have hpos : (i + j) % members.length < (Text.sortStrings members).length := by
        rw [hlen]
        exact Nat.mod_lt _ (Nat.zero_lt_of_lt hilt)
      obtain ⟨y, hy⟩ : ∃ y, (Text.sortStrings members)[(i + j) % members.length]? = some y :=
        ⟨_, List.getElem?_eq_getElem hpos⟩
      by_cases hxy : x = y
      · rw [hxy]
        exact ih y hy
      · have hnext : (Text.sortStrings members)[((i + j) % members.length + 1) %
            members.length]? = some x := by
          rw [Nat.mod_add_mod]
          exact hx
        have hymem := hperm.mem_iff.mp (List.mem_of_getElem? hy)
        refine (ih y hy).tail ⟨.inr ?_, next_mem_connected h hy hnext hxy⟩
        rw [h.mode_eq y hymem]
        rfl
  refine hgo (members.length - i + k) m ?_
  have hround : i + (members.length - i + k) = k + members.length := by omega
  rw [hround, Nat.add_mod_right, Nat.mod_eq_of_lt hklt]
  exact hk

end Ring

/-! ### Every shape -/

/-- The forwarders of a shape connect all its members. -/
theorem Shaped.reached {mode : TopologyMode} (h : Shaped P mode members mesh)
    (hspans : mode.Spans P members) (ho : origin ∈ members) (hm : m ∈ members) :
    Relation.ReflTransGen (mesh.Passes origin) origin m := by
  cases mode with
  | ring nPreferred => exact ring_reached h ho hm
  | star hub => exact star_reached h hspans ho hm
  | hubs hubIds redundancy => exact hubs_reached h hspans ho hm
  | fullMesh => exact absurd hspans id

/-- A member of a ring, a star or a network of hubs broadcasts, the copies arrive in any order and
other frames pass through, fewer at each member than it remembers. Then every member delivers the
payload at most once, arrivals alone bring the mesh to rest, and at rest every other member has
delivered it once: if nobody was cut off by a forwarder that heard it first with the hops used up,
and whenever no more other members forward than the budget has hops. On a ring whose members
prefer no more than two that is so exactly for up to 67 members. -/
theorem flood_reaches_everyone (P : Primitives) (mode : TopologyMode) (members : List String)
    (mesh : RoutedMesh) (h : Shaped P mode members mesh) (hspans : mode.Spans P members)
    (me : String) (hme : me ∈ members) (shelved : String → Bool)
    (hopen : ∀ p ∈ mesh.connected me, shelved p = false)
    (seen : String → List (String × UInt64))
    (hseen : ∀ m, (seen m).length ≤ routingSeenCapacity) (channel : String)
    (hchannel : channel ≠ relayChannel) (body : Value) (random : UInt64)
    (hfresh : ∀ m, (me, freshFrameId random) ∉ seen m) (acts : List RouteAct)
    (hapart : ∀ a ∈ acts, a.Apart (me, freshFrameId random))
    (start s : Net String Value Station)
    (hstart : start = mesh.afterFlood shelved seen me channel body (freshFrameId random))
    (hs : s = run (mesh.step P) start acts)
    (hfew : ∀ m ∈ members, (s.node m).others < routingSeenCapacity) :
    (s.node me).delivered = [] ∧
      (∀ m ∈ members, (s.node m).delivered = [] ∨ (s.node m).delivered = [(me, channel, body)]) ∧
      (∃ n, (run (mesh.step P) s (List.replicate n (.arrive 0))).flight = []) ∧
      (s.flight = [] →
        AllSteps (mesh.step P) (mesh.HasHops (me, freshFrameId random)) start acts ∨
          (members.filter fun m ↦ m != me && mode.forwards m).length ≤ mode.floodTtl.toNat →
        ∀ m ∈ members, m ≠ me → (s.node m).delivered = [(me, channel, body)]) ∧
      (∀ nPreferred, mode = .ring nPreferred →
        (nPreferred.getD defaultRingNPreferred).toNat ≤ 2 → s.flight = [] →
        ((∀ m ∈ members, m ≠ me → (s.node m).delivered = [(me, channel, body)]) ↔
          members.length ≤ 67)) := by
  obtain ⟨f, hf⟩ : ∃ f : RoutedFrame, f = ⟨me, "", channel, body, freshFrameId random,
    (h.names me hme).1, hchannel, freshFrameId_ne_zero random⟩ := ⟨_, rfl⟩
  obtain rfl : me = f.origin := by rw [hf]
  obtain rfl : channel = f.channel := by rw [hf]
  obtain rfl : body = f.body := by rw [hf]
  have hdst : f.dst = "" := by rw [hf]
  have hid : freshFrameId random = f.id := by rw [hf]
  have hkey : (f.origin, freshFrameId random) = f.key := by rw [RoutedFrame.key, hid]
  rw [hid] at hstart
  rw [hkey] at hapart ⊢
  have hflood : Flooding mesh members f start := by
    rw [hstart]
    exact flooding_afterFlood h hme hdst hopen hseen (fun m ↦ hkey ▸ hfresh m)
  have hend : Flooding mesh members f s := by
    rw [hs]
    exact flooding_run h hdst hflood hapart
  have hdelivered : ∀ m ∈ members, m ≠ f.origin → Aware f m (s.node m) →
      (s.node m).delivered = [(f.origin, f.channel, f.body)] := fun m hm hne haware ↦
    (((hend.attends m hm).once (hfew m hm)).resolve_left (haware.resolve_left hne)).2
  have hall : s.flight = [] →
      AllSteps (mesh.step P) (mesh.HasHops f.key) start acts ∨
        (members.filter fun m ↦ m != f.origin && mode.forwards m).length ≤ mode.floodTtl.toNat →
      ∀ m ∈ members, m ≠ f.origin →
        (s.node m).delivered = [(f.origin, f.channel, f.body)] := by
    intro hquiet hbudget m hm hne
    have hops : AllSteps (mesh.step P) (mesh.HasHops f.key) start acts := by
      refine hbudget.elim (fun h ↦ h) fun hforwarders ↦ ?_
      have hfilter : (members.filter fun m ↦ m != f.origin && (mesh.mode m).forwards m) =
          members.filter fun m ↦ m != f.origin && mode.forwards m :=
        List.filter_congr fun m hm ↦ by rw [h.mode_eq m hm]
      rw [← hfilter] at hforwarders
      refine allSteps_hasHops hdst h hforwarders hapart ?_ hflood (hs ▸ hfew)
      rw [hstart]
      exact travelled_afterFlood h hme hdst hopen
    have hcovered : Covered mesh members f s := by
      rw [hs]
      refine covered_run h hdst ?_ hflood hapart hops
      rw [hstart]
      exact covered_afterFlood h hme hdst hopen
    exact hdelivered m hm hne
      (hcovered.aware_of_reached h hme hquiet (h.reached hspans hme hm)).2
  refine ⟨?_, fun m hm ↦ ?_, hend.exists_quiet h hdst, hall, ?_⟩
  · exact ((hend.attends _ hme).once (hfew _ hme)).resolve_right fun hother ↦ hother.1 rfl
  · exact ((hend.attends m hm).once (hfew m hm)).imp (fun h ↦ h) And.right
  · rintro nPreferred rfl htwo hquiet
    by_cases hshort : members.length ≤ 3
    · -- So few members cannot use the hops up.
      refine iff_of_true (hall hquiet (.inr ?_)) (by omega)
      have hle := (List.filter_sublist (l := members)
        (p := fun m ↦ m != f.origin && (TopologyMode.ring nPreferred).forwards m)).length_le
      have hbudget : (TopologyMode.ring nPreferred).floodTtl.toNat = 32 := rfl
      omega
    have hways := bothWays_ring h htwo (Nat.not_le.mp hshort) hme
    have hcircling : Circling members f 33 (stepsUp members f.origin)
        (stepsDown members f.origin) s := by
      rw [hs]
      refine circling_run h hdst hways ?_ hflood hapart
      rw [hstart]
      exact circling_afterFlood h hdst hways hme hopen
    constructor
    · intro hreached
      by_contra hlong
      -- The member on the other side is too far away in both directions.
      obtain ⟨m, hm, hup⟩ := exists_stepsUp h htwo (Nat.not_le.mp hshort) hme
        (k := 34) (by omega)
      have hne : m ≠ f.origin := by
        rintro rfl
        rw [hways.upward.origin_eq] at hup
        exact absurd hup (by decide)
      have hsum := hways.sum m hm hne
      have haware : Aware f m (s.node m) := .inr (by simp [hreached m hm hne])
      have hnear := (hcircling.aware_iff hways hme hm).1 haware
      omega
    · intro hlen m hm hne
      have hsum := hways.sum m hm hne
      exact hdelivered m hm hne
        ((hcircling.aware_iff hways hme hm).2 hquiet (by omega))

/-- Ann and Bob of a star whose hub is `hub`. -/
def smallStar : RoutedMesh := .ofMembers seeded (.star "hub") ["ann", "bob", "hub"]

/-- The greeting goes from Ann to the hub, and from the hub to Bob. -/
theorem smallStar_reaches_bob :
    ((run (smallStar.step seeded) (smallStar.afterFlood (fun _ ↦ false) (fun _ ↦ []) "ann" "chat"
      .null (freshFrameId 6)) [.arrive 0, .arrive 0]).node "bob").delivered =
        [("ann", "chat", .null)] := by
  have hall := flood_reaches_everyone seeded (.star "hub") ["ann", "bob", "hub"] smallStar
    (shaped_ofMembers seeded _ (by decide) (by decide +kernel))
    (show pubkeyPart "hub" ∈ ["ann", "bob", "hub"] by decide +kernel) "ann" (by decide)
    (fun _ ↦ false) (fun _ _ ↦ rfl) (fun _ ↦ []) (fun _ ↦ Nat.zero_le _) "chat" (by decide) .null 6
    (fun _ ↦ List.not_mem_nil) [.arrive 0, .arrive 0]
    (by
      intro a ha
      rcases List.mem_cons.mp ha with rfl | ha
      · trivial
      · rw [List.mem_singleton.mp ha]
        trivial)
    _ _ rfl rfl (by decide +kernel)
  exact hall.2.2.2.1 (List.isEmpty_iff.mp (by decide +kernel)) (.inr (by decide +kernel)) "bob"
    (by decide) (by decide)

/-! ### Hubs that hear the long way first -/

/-- Six hubs. -/
def sixHubs : List String := ["h0", "h1", "h2", "h3", "h4", "h5"]

/-- The hubs, and a spoke that is connected to the first of them. -/
def sixHubsMembers : List String := sixHubs ++ ["z"]

/-- The pairs that are connected. -/
def sixHubsLinked (a b : String) : Bool :=
  isHub sixHubs a && isHub sixHubs b || a == "z" && b == "h0" || a == "h0" && b == "z"

/-- The mesh of the six hubs and their spoke. -/
def sixHubsMesh : RoutedMesh where
  mode := fun _ ↦ .hubs sixHubs (some 1)
  connected := fun a ↦ sixHubsMembers.filter fun b ↦ b != a && sixHubsLinked a b
  accepts := fun _ _ ↦ true

private theorem hubsFor_z : hubsFor seeded sixHubs 1 "z" = ["h0"] := by
  unfold hubsFor
  simp only
  rw [List.mergeSort_of_pairwise (by decide +kernel)]
  decide +kernel

private theorem spoke_sixHubs : ∀ x ∈ sixHubsMembers, isHub sixHubs x = false → x = "z" := by
  decide +kernel

/-- The connections are those that the mode asks for. -/
private theorem edge_sixHubs {a b : String} (ha : a ∈ sixHubsMembers) (hb : b ∈ sixHubsMembers) :
    (TopologyMode.hubs sixHubs (some 1)).edge seeded a b sixHubsMembers = sixHubsLinked a b := by
  have hname : ∀ x ∈ sixHubsMembers, pubkeyPart x = x := by decide +kernel
  simp only [TopologyMode.edge, hubEdge, Option.getD_some]
  cases hA : isHub sixHubs a with
  | true =>
    cases hB : isHub sixHubs b with
    | true => simp [sixHubsLinked, hA, hB]
    | false =>
      obtain rfl := spoke_sixHubs b hb hB
      simp [sixHubsLinked, hB, hubsFor_z, hname a ha, Bool.beq_comm]
  | false =>
    obtain rfl := spoke_sixHubs a ha hA
    cases hB : isHub sixHubs b with
    | true => simp [sixHubsLinked, hA, hubsFor_z, hname b hb, eq_comm]
    | false =>
      obtain rfl := spoke_sixHubs b hb hB
      simp [sixHubsLinked, hA]

private theorem shaped_sixHubs :
    Shaped seeded (.hubs sixHubs (some 1)) sixHubsMembers sixHubsMesh where
  nodup := by decide
  names := by decide +kernel
  mode_eq := fun _ _ ↦ rfl
  connected_iff := fun a ha b ↦ by
    simp only [sixHubsMesh, List.mem_filter, Bool.and_eq_true, bne_iff_ne]
    exact and_congr_right fun hb ↦ by rw [edge_sixHubs ha hb]
  connected_nodup := fun _ _ ↦ List.Nodup.filter _ (by decide)
  accepts := fun _ _ _ _ ↦ rfl

/-- The last hub broadcasts, and the copy that goes the round of the others reaches the first hub
before the one it was sent itself: it has no hops left, and the spoke there gets nothing. -/
theorem sixHubs_spoke_unreached :
    ¬ ∀ (P : Primitives) (mode : TopologyMode) (members : List String) (mesh : RoutedMesh),
      Shaped P mode members mesh → mode.Spans P members → ∀ me ∈ members,
      ∀ shelved : String → Bool, (∀ p ∈ mesh.connected me, shelved p = false) →
      ∀ seen : String → List (String × UInt64), (∀ m, (seen m).length ≤ routingSeenCapacity) →
      ∀ channel : String, channel ≠ relayChannel → ∀ (body : Value) (random : UInt64),
      (∀ m, (me, freshFrameId random) ∉ seen m) → ∀ acts : List RouteAct,
      (∀ a ∈ acts, a.Apart (me, freshFrameId random)) → ∀ s : Net String Value Station,
      s = run (mesh.step P)
        (mesh.afterFlood shelved seen me channel body (freshFrameId random)) acts →
      (∀ m ∈ members, (s.node m).others < routingSeenCapacity) → s.flight = [] →
      ∀ m ∈ members, m ≠ me → (s.node m).delivered = [(me, channel, body)] := by
  intro hclaim
  have hspans : (TopologyMode.hubs sixHubs (some 1)).Spans seeded sixHubsMembers := by
    intro m hm
    cases hHub : isHub sixHubs m with
    | true => exact .inl rfl
    | false =>
      obtain rfl := spoke_sixHubs m hm hHub
      exact .inr ⟨"h0", by rw [Option.getD_some, hubsFor_z]; decide, by decide⟩
  -- The arrivals at h1, h2, h3, h4 and h0, and then the rest.
  have hall := hclaim seeded _ sixHubsMembers sixHubsMesh shaped_sixHubs hspans "h5" (by decide)
    (fun _ ↦ false) (fun _ _ ↦ rfl) (fun _ ↦ []) (fun _ ↦ Nat.zero_le _) "chat" (by decide) .null 6
    (fun _ ↦ List.not_mem_nil)
    (([1, 5, 8, 11, 11] ++ List.replicate 13 0).map .arrive)
    (fun a ha ↦ by
      obtain ⟨i, -, rfl⟩ := List.mem_map.mp ha
      trivial)
    _ rfl (by decide +kernel) (List.isEmpty_iff.mp (by decide +kernel)) "z" (by decide) (by decide)
  have hlength := congrArg List.length hall
  revert hlength
  decide +kernel

end MyOwnMesh
