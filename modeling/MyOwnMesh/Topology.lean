import MyOwnMesh.NetworkState.Types

/-!
# Topology selectors

`crates/myownmesh-core/src/topology/`. Which of the connected peers carry frames, who forwards
for members that are not connected, and where a frame for such a member goes next. The ring
selector indexes a sorted ring by positions taken modulo its length; an index past the end
would be a panic, which is `none` here.
-/

namespace MyOwnMesh

open Lib

/-! ### The ring -/

/-- `HashSet::insert`, on the list of a set's elements. -/
def insertNew (x : String) (xs : List String) : List String := if x ∈ xs then xs else xs ++ [x]

/-- The outward walk that fills the preferred set; `ring.rs:142–157`. The first number is how
many distances are left. -/
def ringWalk (ring : List String) (selfPubkey : String) (myIdx n : Nat) :
    Nat → Nat → List String → Option (List String)
  | 0, _, preferred => some preferred
  | left + 1, dist, preferred =>
    if preferred.length < n then do
      let cw ← ring[(myIdx + dist) % ring.length]?
      let withCw := if cw = selfPubkey then preferred else insertNew cw preferred
      if preferred.length < withCw.length ∧ n ≤ withCw.length then return withCw
      let ccw ← ring[(myIdx + ring.length - dist) % ring.length]?
      let withCcw := if ccw = selfPubkey then withCw else insertNew ccw withCw
      ringWalk ring selfPubkey myIdx n left (dist + 1) withCcw
    else some preferred

/-- The two ring neighbours and the closest shortcuts; `ring.rs:95–158`. -/
def selectRingNeighbors (selfPubkey : String) (peerPubkeys : List String)
    (nPreferred : UInt32) : Option (List String) :=
  let n := nPreferred.toNat
  if peerPubkeys = [] then some []
  else if peerPubkeys.length ≤ n then some peerPubkeys.dedup
  else do
    let ring := Text.sortStrings (selfPubkey :: peerPubkeys).dedup
    let myIdx ← ring.findIdx? (· == selfPubkey)
    let neighbours ←
      if 1 < ring.length then do
        let next ← ring[(myIdx + 1) % ring.length]?
        let previous ← ring[(myIdx + ring.length - 1) % ring.length]?
        pure (insertNew previous [next])
      else pure []
    ringWalk ring selfPubkey myIdx n (ring.length - 2) 2 neighbours

/-- How far two ids are apart in the sorted id space: the bytes after their common beginning;
`ring.rs:87–91`. -/
def ringDistance (a b : String) : Nat :=
  let common := (((Text.utf8 a).zip (Text.utf8 b)).takeWhile fun e ↦ e.1 == e.2).length
  let maxLen := max (max a.utf8ByteSize b.utf8ByteSize) 1
  maxLen - min common maxLen

/-- The connected peer closest to the destination, the first of several; `ring.rs:64–79`. -/
def closestHop (selfId dest : String) (connected : List String) : Option (Nat × String) :=
  connected.foldl
    (fun best c ↦
      if pubkeyPart c = pubkeyPart selfId then best
      else
        let d := ringDistance (pubkeyPart c) (pubkeyPart dest)
        match best with
        | some (bd, b) => if d < bd then some (d, c) else some (bd, b)
        | none => some (d, c))
    none

/-! ### Hubs -/

/-- The device is one of the hubs; `hubs.rs:33–37`. -/
def isHub (hubs : List String) (id : String) : Bool :=
  hubs.any fun h ↦ pubkeyPart h == pubkeyPart id

variable (P : Primitives)

/-- The first eight digest bytes, little-endian; `hubs.rs:64–73`. -/
def rendezvousScore (spoke hub : String) : Nat :=
  ((P.sha256 (Text.utf8 (spoke ++ ":" ++ hub))).take 8).foldr (fun b acc ↦ b.toNat + 256 * acc) 0

/-- The hubs a spoke attaches to: the best of the rendezvous ranking; `hubs.rs:39–62`. -/
def hubsFor (hubs : List String) (spokeRedundancy : UInt32) (spoke : String) : List String :=
  let ranked := hubs.map fun h ↦
    (rendezvousScore P (pubkeyPart spoke) (pubkeyPart h), pubkeyPart h)
  let before : Nat × String → Nat × String → Bool := fun a b ↦
    decide (b.1 < a.1) || (a.1 == b.1 && decide (a.2 ≤ b.2))
  ((ranked.mergeSort before).take (max spokeRedundancy.toNat 1)).map Prod.snd

/-- What a spoke ranks are keys of hubs. -/
theorem exists_hub_of_mem_hubsFor {hubs : List String} {r : UInt32} {spoke key : String}
    (h : key ∈ hubsFor P hubs r spoke) : ∃ hub ∈ hubs, pubkeyPart hub = key := by
  unfold hubsFor at h
  obtain ⟨e, he, rfl⟩ := List.mem_map.mp h
  have hranked := List.mem_mergeSort.mp (List.mem_of_mem_take he)
  obtain ⟨hub, hhub, rfl⟩ := List.mem_map.mp hranked
  exact ⟨hub, hhub, rfl⟩

/-- Hubs connect to each other, a spoke to the hubs it ranks; `hubs.rs:85–102`. -/
def hubEdge (hubs : List String) (spokeRedundancy : UInt32) (a b : String) : Bool :=
  match isHub hubs a, isHub hubs b with
  | true, true => true
  | false, true => (hubsFor P hubs spokeRedundancy a).any (· == pubkeyPart b)
  | true, false => (hubsFor P hubs spokeRedundancy b).any (· == pubkeyPart a)
  | false, false => false

/-- The hubs on the way to a destination, else any other hub; `hubs.rs:112–139`. -/
def hubHops (hubs : List String) (spokeRedundancy : UInt32) (selfId dest : String)
    (connected : List String) : List String :=
  let destKey := pubkeyPart dest
  let destHubs := if isHub hubs destKey then [destKey] else hubsFor P hubs spokeRedundancy destKey
  let hops := connected.filter fun c ↦ destHubs.any (· == pubkeyPart c)
  if hops.isEmpty then
    connected.filter fun c ↦ isHub hubs c && pubkeyPart c != pubkeyPart selfId
  else hops

/-! ### The modes -/

/-- Defaults of the modes; `config.rs:83–88`. -/
def defaultRingNPreferred : UInt32 := 3

/-- How many hubs a spoke attaches to if the configuration does not say; `config.rs:88`. -/
def defaultSpokeRedundancy : UInt32 := 2

/-- The peers that keep carrying application frames; `select_preferred` of each mode. -/
def selectPreferred (mode : TopologyMode) (selfId : String) (peerIds : List String) :
    Option (List String) :=
  match mode with
  | .ring nPreferred =>
    selectRingNeighbors selfId peerIds (nPreferred.getD defaultRingNPreferred)
  | .star hub =>
    if pubkeyPart selfId = pubkeyPart hub then some peerIds
    else some (peerIds.filter fun p ↦ pubkeyPart p == pubkeyPart hub)
  | .hubs hubs redundancy =>
    some (peerIds.filter (hubEdge P hubs (redundancy.getD defaultSpokeRedundancy) selfId))
  | .fullMesh => some peerIds

/-- The device forwards frames for others; `forwards` of each mode. -/
def TopologyMode.forwards (mode : TopologyMode) (selfId : String) : Bool :=
  match mode with
  | .ring _ => true
  | .star hub => pubkeyPart selfId == pubkeyPart hub
  | .hubs hubIds _ => isHub hubIds selfId
  | .fullMesh => false

/-- Where a frame goes next; `next_hops` of each mode. -/
def nextHops (mode : TopologyMode) (selfId dest : String) (connected : List String) :
    List String :=
  match mode with
  | .ring _ => ((closestHop selfId dest connected).map Prod.snd).toList
  | .star hub =>
    if pubkeyPart selfId = pubkeyPart hub then []
    else connected.filter fun c ↦ pubkeyPart c == pubkeyPart hub
  | .hubs hubs redundancy =>
    hubHops P hubs (redundancy.getD defaultSpokeRedundancy) selfId dest connected
  | .fullMesh => []

/-- Who a member of a ring looks at: the known members but itself, with both ends of the pair in
question; `ring.rs:41–49`. -/
def ringOthers (all : List String) (a b me : String) : List String :=
  [a, b].foldl (fun v extra ↦ if extra ≠ me ∧ extra ∉ v then v ++ [extra] else v)
    (all.filter (· != me))

/-- Either of the two prefers the other; `ring.rs:35–52`. -/
def ringEdge (nPreferred : UInt32) (a b : String) (all : List String) : Bool :=
  ((selectRingNeighbors a (ringOthers all a b a) nPreferred).getD []).contains b ||
    ((selectRingNeighbors b (ringOthers all a b b) nPreferred).getD []).contains a

/-- A connection should exist between two members; `edge` of each mode. -/
def TopologyMode.edge (mode : TopologyMode) (a b : String) (all : List String) : Bool :=
  match mode with
  | .ring nPreferred => ringEdge (nPreferred.getD defaultRingNPreferred) a b all
  | .star hub => pubkeyPart a == pubkeyPart hub || pubkeyPart b == pubkeyPart hub
  | .hubs hubIds redundancy => hubEdge P hubIds (redundancy.getD defaultSpokeRedundancy) a b
  | .fullMesh => true

/-- The hop budget of forwarded frames; `flood_ttl` of each mode. -/
def TopologyMode.floodTtl : TopologyMode → UInt8
  | .ring _ => 32
  | .star _ => 3
  | .hubs _ _ => 4
  | .fullMesh => 4

/-! ### Every index of the ring is defined -/

private theorem isSome_getElem?_mod {ring : List String} (h : ring ≠ []) (i : Nat) :
    ∃ x, ring[i % ring.length]? = some x := by
  have hpos : 0 < ring.length := List.length_pos_iff.mpr h
  exact ⟨_, List.getElem?_eq_getElem (Nat.mod_lt i hpos)⟩

/-- The walk never leaves the ring. -/
theorem exists_ringWalk {ring : List String} (h : ring ≠ []) (selfPubkey : String)
    (myIdx n left dist : Nat) (preferred : List String) :
    ∃ xs, ringWalk ring selfPubkey myIdx n left dist preferred = some xs := by
  induction left generalizing dist preferred with
  | zero => exact ⟨preferred, rfl⟩
  | succ left ih =>
    rw [ringWalk]
    split
    · obtain ⟨cw, hcw⟩ := isSome_getElem?_mod h (myIdx + dist)
      obtain ⟨ccw, hccw⟩ := isSome_getElem?_mod h (myIdx + ring.length - dist)
      simp only [hcw, hccw, Option.bind_eq_bind, Option.bind_some]
      generalize (if cw = selfPubkey then preferred else insertNew cw preferred) = withCw
      split
      · exact ⟨withCw, rfl⟩
      · exact ih _ _
    · exact ⟨preferred, rfl⟩

/-- The ring selector finds itself in the ring and answers. -/
theorem exists_selectRingNeighbors (selfPubkey : String) (peerPubkeys : List String)
    (nPreferred : UInt32) :
    ∃ xs, selectRingNeighbors selfPubkey peerPubkeys nPreferred = some xs := by
  have hmem : selfPubkey ∈ Text.sortStrings (selfPubkey :: peerPubkeys).dedup := by
    rw [Text.sortStrings, List.mem_insertionSort, List.mem_dedup]
    exact List.mem_cons_self
  have hring : Text.sortStrings (selfPubkey :: peerPubkeys).dedup ≠ [] :=
    List.ne_nil_of_mem hmem
  unfold selectRingNeighbors
  simp only
  split
  · exact ⟨[], rfl⟩
  · split
    · exact ⟨_, rfl⟩
    · have hidx : ∃ i, (Text.sortStrings (selfPubkey :: peerPubkeys).dedup).findIdx?
          (· == selfPubkey) = some i := by
        rw [← Option.isSome_iff_exists, List.findIdx?_isSome, List.any_eq_true]
        exact ⟨selfPubkey, hmem, beq_self_eq_true selfPubkey⟩
      obtain ⟨myIdx, hidx⟩ := hidx
      obtain ⟨next, hnext⟩ := isSome_getElem?_mod hring (myIdx + 1)
      obtain ⟨previous, hprev⟩ := isSome_getElem?_mod hring
        (myIdx + (Text.sortStrings (selfPubkey :: peerPubkeys).dedup).length - 1)
      simp only [hidx, hnext, hprev, Option.bind_eq_bind, Option.bind_some, Option.pure_def]
      split
      · exact exists_ringWalk hring _ _ _ _ _ _
      · exact exists_ringWalk hring _ _ _ _ _ _

/-- Every selector answers. -/
theorem exists_selectPreferred (mode : TopologyMode) (selfId : String) (peerIds : List String) :
    ∃ xs, selectPreferred P mode selfId peerIds = some xs := by
  cases mode with
  | ring nPreferred => exact exists_selectRingNeighbors _ _ _
  | star hub =>
    simp only [selectPreferred]
    split <;> exact ⟨_, rfl⟩
  | hubs hubs redundancy => exact ⟨_, rfl⟩
  | fullMesh => exact ⟨_, rfl⟩

end MyOwnMesh
