import MyOwnMesh.Engine.Directed
import MyOwnMesh.Identity.Signing

/-!
# Routes over hubs

In a star every frame goes over the hub. With several hubs a spoke is attached to some of them by
a ranking that everybody computes alike, and the hubs are connected to each other. A frame goes to
a hub of its destination if the sender has one, else to any hub, which is connected to all of
them. The sender, the hubs on the way and the destination evaluate different functions of the
selector; they agree.
-/

namespace MyOwnMesh

open Lib Lib.Replay Lib.Network

variable {P : Primitives} {mesh : RoutedMesh} {mode : TopologyMode} {members : List String}

/-- The first entry that fits a list in which every entry does. -/
private theorem exists_find?_eq {l : List String} {p : String → Bool} (hne : l ≠ [])
    (hall : ∀ x ∈ l, p x = true) : ∃ x ∈ l, l.find? p = some x := by
  cases l with
  | nil => exact absurd rfl hne
  | cons x xs => exact ⟨x, List.mem_cons_self, List.find?_cons_of_pos (hall x List.mem_cons_self)⟩

/-- A member that is connected to the destination hands the frame to it. -/
theorem Shaped.hop_direct (h : Shaped P mode members mesh) {me carrier dst : String}
    (hme : me ∈ members) (hconn : dst ∈ mesh.connected me) (hne : dst ≠ carrier) :
    mesh.hop P me carrier dst = some dst := by
  simp [RoutedMesh.hop, hconn, hne, h.accepts me hme dst hconn]

/-- The last leg of a route: a forwarder that is connected to the destination. -/
theorem Shaped.route_direct (h : Shaped P mode members mesh) {me carrier dst : String}
    (hme : me ∈ members) (hdst : dst ∈ members) (hforwards : mode.forwards me = true)
    (hconn : dst ∈ mesh.connected me) (hne : dst ≠ carrier) :
    mesh.Route P dst carrier me [dst] := by
  have hself : dst ≠ me := ((h.connected_iff me hme dst).mp hconn).2.1
  refine ⟨Ne.symm hself, ?_, ?_, h.hop_direct hme hconn hne, rfl⟩
  · rw [h.mode_eq me hme]
    exact hforwards
  · rw [h.mode_eq dst hdst]
    exact hforwards

/-! ### The star -/

/-- A spoke's only hop is the hub. -/
theorem star_first {hub me dest : String} (h : Shaped P (.star hub) members mesh)
    (hhub : pubkeyPart hub ∈ members) (hme : me ∈ members) (hspoke : me ≠ pubkeyPart hub) :
    (nextHops P (mesh.mode me) me dest (mesh.connected me)).find? (mesh.accepts me) =
      some (pubkeyPart hub) := by
  have hname := (h.names _ hhub).2
  have hconn : pubkeyPart hub ∈ mesh.connected me :=
    (h.connected_iff me hme _).mpr ⟨hhub, Ne.symm hspoke, by simp [TopologyMode.edge, hname]⟩
  have hnot : pubkeyPart me ≠ pubkeyPart hub := by rw [(h.names me hme).2]; exact hspoke
  have hall : ∀ c ∈ (mesh.connected me).filter (fun c ↦ pubkeyPart c == pubkeyPart hub),
      c = pubkeyPart hub := by
    intro c hc
    obtain ⟨hc, hkey⟩ := List.mem_filter.mp hc
    have hcm := ((h.connected_iff me hme c).mp hc).1
    rw [beq_iff_eq, (h.names c hcm).2] at hkey
    exact hkey
  have hmem : pubkeyPart hub ∈
      (mesh.connected me).filter (fun c ↦ pubkeyPart c == pubkeyPart hub) := by
    simp [List.mem_filter, hconn, hname]
  rw [h.mode_eq me hme]
  simp only [nextHops, if_neg hnot]
  obtain ⟨x, hx, hfind⟩ := exists_find?_eq (p := mesh.accepts me) (List.ne_nil_of_mem hmem)
    (fun c hc ↦ h.accepts me hme c (List.mem_filter.mp hc).1)
  rw [hfind, hall x hx]

/-- Two spokes of a star, over the hub. -/
theorem star_route {hub me dest : String} (h : Shaped P (.star hub) members mesh)
    (hhub : pubkeyPart hub ∈ members) (hme : me ∈ members) (hdest : dest ∈ members)
    (hne : me ≠ dest) (hconn : dest ∉ mesh.connected me) :
    ∃ first rest,
      (nextHops P (mesh.mode me) me dest (mesh.connected me)).find? (mesh.accepts me) =
        some first ∧
      mesh.Route P dest me first rest ∧ (me :: first :: rest).Nodup ∧
      rest.length + 1 ≤ (TopologyMode.star hub).floodTtl.toNat := by
  have hspokes : me ≠ pubkeyPart hub ∧ dest ≠ pubkeyPart hub := by
    rw [h.connected_iff me hme] at hconn
    simp only [hdest, Ne.symm hne, ne_eq, not_false_eq_true, TopologyMode.edge,
      (h.names me hme).2, (h.names dest hdest).2, Bool.or_eq_true, beq_iff_eq, true_and,
      not_or] at hconn
    exact hconn
  refine ⟨pubkeyPart hub, [dest], star_first h hhub hme hspokes.1, ?_, ?_, Nat.le_succ 2⟩
  · refine h.route_direct hhub hdest ?_ ?_ (Ne.symm hne)
    · simp [TopologyMode.forwards, (h.names _ hhub).2]
    · exact (h.connected_iff _ hhub dest).mpr ⟨hdest, hspokes.2, by
        simp [TopologyMode.edge, (h.names _ hhub).2]⟩
  · simp [hspokes.1, Ne.symm hspokes.2, hne]

/-! ### Several hubs -/

/-- A configuration of hubs: some, with distinct keys, and all of them members. -/
structure HubSet (hubs members : List String) : Prop where
  nonempty : hubs ≠ []
  distinct : (hubs.map pubkeyPart).Nodup
  mem : ∀ h ∈ hubs, pubkeyPart h ∈ members

section Hubs

variable {hubs : List String} {redundancy : Option UInt32}

/-- A spoke ranks at least one hub. -/
theorem hubsFor_ne_nil (hne : hubs ≠ []) (r : UInt32) (spoke : String) :
    hubsFor P hubs r spoke ≠ [] := by
  unfold hubsFor
  rw [Ne, List.map_eq_nil_iff, List.take_eq_nil_iff]
  have hmax : max r.toNat 1 ≠ 0 := by omega
  rintro (hzero | hnil)
  · exact hmax hzero
  · have hlen := congrArg List.length hnil
    rw [List.length_mergeSort, List.length_map, List.length_nil] at hlen
    exact hne (List.eq_nil_of_length_eq_zero hlen)

variable (h : Shaped P (.hubs hubs redundancy) members mesh) (hset : HubSet hubs members)

include h hset

/-- The hubs that a spoke ranks are members and hubs. -/
theorem hub_of_mem_hubsFor {r : UInt32} {spoke key : String}
    (hkey : key ∈ hubsFor P hubs r spoke) : key ∈ members ∧ isHub hubs key = true := by
  obtain ⟨hub, hhub, rfl⟩ := exists_hub_of_mem_hubsFor P hkey
  have hmem := hset.mem hub hhub
  refine ⟨hmem, List.any_eq_true.mpr ⟨hub, hhub, ?_⟩⟩
  rw [(h.names _ hmem).2]
  exact beq_self_eq_true _

omit hset in
/-- Hubs are connected to each other. -/
theorem connected_of_hubs {a b : String} (ha : a ∈ members) (hb : b ∈ members) (hne : b ≠ a)
    (haHub : isHub hubs a = true) (hbHub : isHub hubs b = true) : b ∈ mesh.connected a :=
  (h.connected_iff a ha b).mpr ⟨hb, hne, by simp [TopologyMode.edge, hubEdge, haHub, hbHub]⟩

omit hset in
/-- A hub is connected to the spokes that rank it. -/
theorem connected_iff_of_spoke {a b : String} (ha : a ∈ members) (hb : b ∈ members)
    (haHub : isHub hubs a = true) (hbSpoke : isHub hubs b = false) :
    b ∈ mesh.connected a ↔ a ∈ hubsFor P hubs (redundancy.getD defaultSpokeRedundancy) b := by
  have hne : b ≠ a := by
    rintro rfl
    simp [haHub] at hbSpoke
  rw [h.connected_iff a ha]
  simp [hb, hne, TopologyMode.edge, hubEdge, haHub, hbSpoke, (h.names a ha).2]

omit hset in
/-- A spoke is connected to hubs only, and to those it ranks. -/
theorem hub_of_spoke_connected {a b : String} (ha : a ∈ members)
    (haSpoke : isHub hubs a = false) (hb : b ∈ mesh.connected a) : isHub hubs b = true := by
  obtain ⟨-, -, hedge⟩ := (h.connected_iff a ha b).mp hb
  cases hbHub : isHub hubs b with
  | true => rfl
  | false => simp [TopologyMode.edge, hubEdge, haSpoke, hbHub] at hedge

/-- A spoke has a hub. -/
theorem exists_connected_of_spoke {a : String} (ha : a ∈ members)
    (haSpoke : isHub hubs a = false) : ∃ b, b ∈ mesh.connected a := by
  obtain ⟨key, hkey⟩ := List.exists_mem_of_ne_nil _
    (hubsFor_ne_nil (P := P) hset.nonempty (redundancy.getD defaultSpokeRedundancy) a)
  obtain ⟨hmem, hHub⟩ := hub_of_mem_hubsFor h hset hkey
  have hne : key ≠ a := by
    rintro rfl
    simp [hHub] at haSpoke
  refine ⟨key, (h.connected_iff a ha key).mpr ⟨hmem, hne, ?_⟩⟩
  simp only [TopologyMode.edge, hubEdge, haSpoke, hHub, (h.names key hmem).2]
  exact List.any_eq_true.mpr ⟨key, hkey, beq_self_eq_true _⟩

omit hset in
/-- The hops towards a spoke are the connected hubs that it ranks, if there are any. -/
theorem hubHops_of_spoke {me dest : String} (hme : me ∈ members) (hdest : dest ∈ members)
    (hspoke : isHub hubs dest = false) {r : UInt32}
    (hsome : ∃ c ∈ mesh.connected me, c ∈ hubsFor P hubs r dest) :
    hubHops P hubs r me dest (mesh.connected me) =
      (mesh.connected me).filter (· ∈ hubsFor P hubs r dest) := by
  have hdestName := (h.names dest hdest).2
  have hfilter : (mesh.connected me).filter
      (fun c ↦ (hubsFor P hubs r dest).any (· == pubkeyPart c)) =
      (mesh.connected me).filter (· ∈ hubsFor P hubs r dest) := by
    refine List.filter_congr fun c hc ↦ ?_
    have hcm := ((h.connected_iff me hme c).mp hc).1
    rw [(h.names c hcm).2, List.any_beq', List.contains_eq_mem]
  obtain ⟨c, hc, hranked⟩ := hsome
  have hne : ((mesh.connected me).filter (· ∈ hubsFor P hubs r dest)).isEmpty = false := by
    rw [List.isEmpty_eq_false_iff]
    exact List.ne_nil_of_mem (List.mem_filter.mpr ⟨hc, by simpa using hranked⟩)
  simp only [hubHops, hdestName, hspoke, Bool.false_eq_true, ↓reduceIte, hfilter, hne]

/-- A hub that is not connected to the destination is connected to all hubs of it. -/
theorem hub_ranked_connected {me dest : String} (hme : me ∈ members) (hdest : dest ∈ members)
    (hHub : isHub hubs me = true) (hne : dest ≠ me) (hconn : dest ∉ mesh.connected me) :
    isHub hubs dest = false ∧
      ∀ key ∈ hubsFor P hubs (redundancy.getD defaultSpokeRedundancy) dest,
        key ∈ mesh.connected me ∧ key ≠ me := by
  have hspoke : isHub hubs dest = false := by
    cases hd : isHub hubs dest with
    | false => rfl
    | true => exact absurd (connected_of_hubs h hme hdest hne hHub hd) hconn
  refine ⟨hspoke, fun key hkey ↦ ?_⟩
  have hnot : key ≠ me := by
    rintro rfl
    exact hconn ((connected_iff_of_spoke h hme hdest hHub hspoke).mpr hkey)
  obtain ⟨hmem, hkeyHub⟩ := hub_of_mem_hubsFor h hset hkey
  exact ⟨connected_of_hubs h hme hmem hnot hHub hkeyHub, hnot⟩

omit hset in
/-- Among the connections that the destination ranks, the first takes the frame. -/
theorem exists_ranked_hop {me dest : String} (hme : me ∈ members) {r : UInt32}
    (hsome : ∃ c ∈ mesh.connected me, c ∈ hubsFor P hubs r dest) :
    ∃ next ∈ mesh.connected me, next ∈ hubsFor P hubs r dest ∧
      ((mesh.connected me).filter (· ∈ hubsFor P hubs r dest)).find? (mesh.accepts me) =
        some next := by
  obtain ⟨c, hc, hranked⟩ := hsome
  have hmem : c ∈ (mesh.connected me).filter (· ∈ hubsFor P hubs r dest) :=
    List.mem_filter.mpr ⟨hc, by simpa using hranked⟩
  obtain ⟨next, hnext, hfind⟩ := exists_find?_eq (List.ne_nil_of_mem hmem)
    (fun c hc ↦ h.accepts me hme c (List.mem_filter.mp hc).1)
  obtain ⟨hconn, hranked⟩ := List.mem_filter.mp hnext
  exact ⟨next, hconn, by simpa using hranked, hfind⟩

omit h hset in
/-- Hops are the connected hubs, or some of the connections. -/
theorem hubHops_cases (P : Primitives) (r : UInt32) (me dest : String)
    (connected : List String) :
    hubHops P hubs r me dest connected =
        connected.filter (fun c ↦ isHub hubs c && pubkeyPart c != pubkeyPart me) ∨
      hubHops P hubs r me dest connected ≠ [] ∧
        ∀ c ∈ hubHops P hubs r me dest connected, c ∈ connected := by
  simp only [hubHops]
  generalize (if isHub hubs (pubkeyPart dest) = true then [pubkeyPart dest]
    else hubsFor P hubs r (pubkeyPart dest)) = destHubs
  split
  · exact .inl rfl
  · next hne => exact .inr ⟨by simpa using hne, fun c hc ↦ (List.mem_filter.mp hc).1⟩

/-- From a hub, a frame of a spoke is at its destination directly or over one of its hubs. -/
theorem route_from_hub {me carrier dest : String} (hme : me ∈ members) (hdest : dest ∈ members)
    (hHub : isHub hubs me = true) (hne : dest ≠ me) (hcarrier : dest ≠ carrier)
    (hspoke : isHub hubs carrier = false ∨ dest ∈ mesh.connected me) :
    ∃ rest, mesh.Route P dest carrier me rest ∧ (me :: rest).Nodup ∧ rest.length ≤ 2 ∧
      ∀ n ∈ rest, n = dest ∨ (isHub hubs n = true ∧ dest ∉ mesh.connected me) := by
  have hforwards : ∀ n, isHub hubs n = true →
      (TopologyMode.hubs hubs redundancy).forwards n = true := fun n hn ↦ hn
  by_cases hconn : dest ∈ mesh.connected me
  · exact ⟨[dest], h.route_direct hme hdest (hforwards me hHub) hconn hcarrier,
      by simp [Ne.symm hne], by simp, by simp⟩
  have hspoke := hspoke.resolve_right hconn
  obtain ⟨hdestSpoke, hranked⟩ := hub_ranked_connected h hset hme hdest hHub hne hconn
  obtain ⟨some, hsome⟩ := List.exists_mem_of_ne_nil _
    (hubsFor_ne_nil (P := P) hset.nonempty (redundancy.getD defaultSpokeRedundancy) dest)
  have hhops := hubHops_of_spoke h hme hdest hdestSpoke ⟨some, (hranked some hsome).1, hsome⟩
  -- The carrier is a spoke, so no hub of the destination is left out for it.
  have hall : (hubHops P hubs (redundancy.getD defaultSpokeRedundancy) me dest
      (mesh.connected me)).filter (· != carrier) =
      (mesh.connected me).filter
        (· ∈ hubsFor P hubs (redundancy.getD defaultSpokeRedundancy) dest) := by
    rw [hhops, List.filter_eq_self]
    intro c hc
    have hc := (hub_of_mem_hubsFor h hset (by simpa using (List.mem_filter.mp hc).2)).2
    rw [bne_iff_ne]
    rintro rfl
    simp [hspoke] at hc
  obtain ⟨next, hnextConn, hnextRanked, hfind⟩ :=
    exists_ranked_hop h hme ⟨some, (hranked some hsome).1, hsome⟩
  obtain ⟨hnextMem, hnextHub⟩ := hub_of_mem_hubsFor h hset hnextRanked
  have hlast : dest ∈ mesh.connected next :=
    (connected_iff_of_spoke h hnextMem hdest hnextHub hdestSpoke).mpr hnextRanked
  have hnextDest : dest ≠ next := by
    rintro rfl
    simp [hnextHub] at hdestSpoke
  refine ⟨[next, dest], ⟨Ne.symm hne, ?_, ?_, ?_,
    h.route_direct hnextMem hdest (hforwards next hnextHub) hlast hne⟩, ?_, by simp, ?_⟩
  · rw [h.mode_eq me hme]
    exact hHub
  · rw [h.mode_eq next hnextMem]
    exact hHub
  · simp only [RoutedMesh.hop, hconn, ↓reduceIte, h.mode_eq me hme, nextHops, hall]
    exact hfind
  · simp [Ne.symm hne, Ne.symm hnextDest, Ne.symm (hranked next hnextRanked).2]
  · simp [hnextHub, hconn]

/-- The first hop is a hub; from a hub, one of the destination's. -/
theorem hub_first {me dest : String} (hme : me ∈ members) (hdest : dest ∈ members)
    (hne : me ≠ dest) (hconn : dest ∉ mesh.connected me) :
    ∃ first,
      (nextHops P (mesh.mode me) me dest (mesh.connected me)).find? (mesh.accepts me) =
        some first ∧ first ∈ mesh.connected me ∧ isHub hubs first = true ∧
      (isHub hubs me = false ∨ dest ∈ mesh.connected first) := by
  rw [h.mode_eq me hme]
  simp only [nextHops]
  cases hHub : isHub hubs me with
  | true =>
    obtain ⟨hdestSpoke, hranked⟩ := hub_ranked_connected h hset hme hdest hHub hne.symm hconn
    obtain ⟨some, hsome⟩ := List.exists_mem_of_ne_nil _
      (hubsFor_ne_nil (P := P) hset.nonempty (redundancy.getD defaultSpokeRedundancy) dest)
    rw [hubHops_of_spoke h hme hdest hdestSpoke ⟨some, (hranked some hsome).1, hsome⟩]
    obtain ⟨first, hfirstConn, hfirstRanked, hfind⟩ :=
      exists_ranked_hop h hme ⟨some, (hranked some hsome).1, hsome⟩
    obtain ⟨hmem, hfirstHub⟩ := hub_of_mem_hubsFor h hset hfirstRanked
    exact ⟨first, hfind, hfirstConn, hfirstHub, .inr
      ((connected_iff_of_spoke h hmem hdest hfirstHub hdestSpoke).mpr hfirstRanked)⟩
  | false =>
    -- Whichever hops there are, they are connections of a spoke.
    have hhops : hubHops P hubs (redundancy.getD defaultSpokeRedundancy) me dest
        (mesh.connected me) ≠ [] ∧ ∀ c ∈ hubHops P hubs
          (redundancy.getD defaultSpokeRedundancy) me dest (mesh.connected me),
        c ∈ mesh.connected me := by
      rcases hubHops_cases P (redundancy.getD defaultSpokeRedundancy) me dest
        (mesh.connected me) with heq | hsome
      · rw [heq]
        refine ⟨?_, fun c hc ↦ (List.mem_filter.mp hc).1⟩
        obtain ⟨c, hc⟩ := exists_connected_of_spoke h hset hme hHub
        have hcHub := hub_of_spoke_connected h hme hHub hc
        have hcm := (h.connected_iff me hme c).mp hc
        refine List.ne_nil_of_mem (List.mem_filter.mpr ⟨hc, ?_⟩)
        simp [hcHub, (h.names c hcm.1).2, (h.names me hme).2, hcm.2.1]
      · exact hsome
    obtain ⟨first, hfirst, hfind⟩ := exists_find?_eq hhops.1
      (fun c hc ↦ h.accepts me hme c (hhops.2 c hc))
    have hfirstConn := hhops.2 first hfirst
    exact ⟨first, hfind, hfirstConn, hub_of_spoke_connected h hme hHub hfirstConn, .inl rfl⟩

/-- Two members that are not connected, over one hub or two. -/
theorem hub_route {me dest : String} (hme : me ∈ members) (hdest : dest ∈ members)
    (hne : me ≠ dest) (hconn : dest ∉ mesh.connected me) :
    ∃ first rest,
      (nextHops P (mesh.mode me) me dest (mesh.connected me)).find? (mesh.accepts me) =
        some first ∧
      mesh.Route P dest me first rest ∧ (me :: first :: rest).Nodup ∧
      rest.length + 1 ≤ (TopologyMode.hubs hubs redundancy).floodTtl.toNat := by
  obtain ⟨first, hfind, hfirst, hfirstHub, hspoke⟩ := hub_first h hset hme hdest hne hconn
  obtain ⟨hfirstMem, hfirstNe, -⟩ := (h.connected_iff me hme first).mp hfirst
  have hdestFirst : dest ≠ first := by
    rintro rfl
    exact hconn hfirst
  obtain ⟨rest, hroute, hnodup, hlen, hrest⟩ :=
    route_from_hub h hset hfirstMem hdest hfirstHub hdestFirst hne.symm hspoke
  refine ⟨first, rest, hfind, hroute, List.nodup_cons.mpr ⟨?_, hnodup⟩, ?_⟩
  · -- A sender that is a hub is not met again: its frame is one hop from its destination.
    rw [List.mem_cons, not_or]
    refine ⟨Ne.symm hfirstNe, fun hmem ↦ ?_⟩
    rcases hrest me hmem with heq | ⟨hmeHub, hfar⟩
    · exact hne heq
    · rcases hspoke with hmeSpoke | hnear
      · simp [hmeHub] at hmeSpoke
      · exact hfar hnear
  · exact Nat.le_trans (Nat.succ_le_succ hlen) (Nat.le_succ 3)

end Hubs

/-! ### Any two members -/

/-- The shapes in which frames go over hubs. -/
def HubShape (mode : TopologyMode) (members : List String) : Prop :=
  match mode with
  | .star hub => pubkeyPart hub ∈ members
  | .hubs hubs _ => HubSet hubs members
  | _ => False

/-- In a star, and with any hubs and any redundancy, a frame on an application channel for a
member that is not connected is delivered to that member, once, with its sender named, within the
hop budget and by carriers that may speak for the sender. -/
theorem hub_routing_delivers (P : Primitives) (mode : TopologyMode) (members : List String)
    (mesh : RoutedMesh) (h : Shaped P mode members mesh) (hshape : HubShape mode members)
    (me dest : String) (hme : me ∈ members) (hdest : dest ∈ members) (hne : me ≠ dest)
    (hconn : dest ∉ mesh.connected me) (channel : String) (hchannel : channel ≠ relayChannel)
    (body : Value) (random : UInt64) (seen : String → List (String × UInt64))
    (hfresh : ∀ m, (me, freshFrameId random) ∉ seen m) :
    DeliveredOnce P mesh (mesh.afterSend P seen me dest channel body (freshFrameId random)) dest
      (me, channel, body) mode.floodTtl.toNat := by
  have hroute : ∃ first rest,
      (nextHops P (mesh.mode me) me dest (mesh.connected me)).find? (mesh.accepts me) =
        some first ∧
      mesh.Route P dest me first rest ∧ (me :: first :: rest).Nodup ∧
      rest.length + 1 ≤ mode.floodTtl.toNat := by
    cases mode with
    | star hub => exact star_route h hshape hme hdest hne hconn
    | hubs hubIds redundancy => exact hub_route h hshape hme hdest hne hconn
    | ring n => exact hshape.elim
    | fullMesh => exact hshape.elim
  obtain ⟨first, rest, hfirst, hroute, hnodup, hbudget⟩ := hroute
  rw [← h.mode_eq me hme] at hbudget ⊢
  exact deliveredOnce_of_route (h.names me hme).1 (h.names dest hdest).1 hchannel
    (freshFrameId_ne_zero random) hfresh hfirst hroute hnodup hbudget

/-- A hub and two spokes. -/
def starMembers : List String := ["hub", "ann", "bob"]

theorem shaped_starMembers :
    Shaped seeded (.star "hub") starMembers (.ofMembers seeded (.star "hub") starMembers) :=
  shaped_ofMembers seeded _ (by decide) (by decide +kernel)

/-- One spoke of a star sends to the other. -/
theorem star_ann_to_bob :
    DeliveredOnce seeded (.ofMembers seeded (.star "hub") starMembers)
      (RoutedMesh.afterSend seeded (.ofMembers seeded (.star "hub") starMembers) (fun _ ↦ [])
        "ann" "bob" "chat" .null (freshFrameId 6)) "bob" ("ann", "chat", .null) 3 :=
  hub_routing_delivers seeded (.star "hub") starMembers _ shaped_starMembers
    (by change pubkeyPart "hub" ∈ starMembers; decide +kernel) "ann" "bob" (by decide) (by decide)
    (by decide) (by decide +kernel) "chat" (by decide) .null 6 (fun _ ↦ [])
    (fun _ ↦ List.not_mem_nil)

/-- A frame on the relay's own channel is not unwrapped by the hub and never arrives. -/
theorem relay_channel_not_delivered :
    ¬ ∀ (P : Primitives) (mode : TopologyMode) (members : List String) (mesh : RoutedMesh),
      Shaped P mode members mesh → HubShape mode members →
      ∀ (me dest : String), me ∈ members → dest ∈ members → me ≠ dest →
      dest ∉ mesh.connected me → ∀ (channel : String) (body : Value) (random : UInt64)
        (seen : String → List (String × UInt64)),
      (∀ m, (me, freshFrameId random) ∉ seen m) →
      DeliveredOnce P mesh (mesh.afterSend P seen me dest channel body (freshFrameId random)) dest
        (me, channel, body) mode.floodTtl.toNat := by
  intro h
  have hclaim := (h seeded (.star "hub") starMembers _ shaped_starMembers
    (by change pubkeyPart "hub" ∈ starMembers; decide +kernel) "ann" "bob" (by decide) (by decide)
    (by decide) (by decide +kernel) relayChannel .null 6 (fun _ ↦ [])
    (fun _ ↦ List.not_mem_nil)).delivered [0]
  have hlength := congrArg List.length hclaim
  revert hlength
  decide +kernel

end MyOwnMesh
