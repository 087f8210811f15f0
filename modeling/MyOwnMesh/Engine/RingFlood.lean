import MyOwnMesh.Engine.Flood
import MyOwnMesh.Topology.Ring

/-!
# A broadcast around a ring

`crates/myownmesh-core/src/topology/ring.rs:35–158`. Members that prefer no more than two are
connected to the next and the previous one, and to nobody else. A copy of a broadcast then makes
its steps in one direction and has lost a hop at each of them, so in every order of arrivals
those hear the broadcast that are within the hop budget in one of the two directions, and
nobody else does.
-/

namespace MyOwnMesh

open Lib Lib.Replay Lib.Network

variable {P : Primitives} {mesh : RoutedMesh} {members : List String} {origin : String}

/-! ### Who is connected -/

/-- Every member sorts the same ring. -/
theorem sortStrings_others {all : List String} {me : String} (hnodup : all.Nodup)
    (hme : me ∈ all) :
    Text.sortStrings (me :: all.filter (· != me)).dedup = Text.sortStrings all := by
  have hothers : (me :: all.filter (· != me)).Nodup :=
    List.nodup_cons.mpr ⟨by simp, hnodup.filter _⟩
  rw [hothers.dedup]
  refine Text.sortStrings_of_perm ?_
  rw [← hnodup.erase_eq_filter]
  exact (List.perm_cons_erase hme).symm

/-- A member is found at its position. -/
theorem findIdx?_sortStrings (hnodup : members.Nodup) {i : Nat} {a : String}
    (hi : (Text.sortStrings members)[i]? = some a) :
    (Text.sortStrings members).findIdx? (· == a) = some i := by
  have hsorted : (Text.sortStrings members).Nodup :=
    (List.perm_insertionSort _ members).nodup_iff.mpr hnodup
  obtain ⟨hlt, hget⟩ := List.getElem?_eq_some_iff.mp hi
  rw [List.findIdx?_eq_some_iff_getElem]
  refine ⟨hlt, by simp [hget], fun j hj hsame ↦ ?_⟩
  have hji : j = i := (hsorted.getElem_inj_iff).mp (by
    rw [hget]
    simpa using hsame)
  omega

/-- A member of a ring is connected to the next one. -/
theorem next_mem_connected {nPreferred : Option UInt32}
    (h : Shaped P (.ring nPreferred) members mesh) {i : Nat} {a b : String}
    (hi : (Text.sortStrings members)[i]? = some a)
    (hb : (Text.sortStrings members)[(i + 1) % members.length]? = some b) (hne : b ≠ a) :
    b ∈ mesh.connected a := by
  have hmem : ∀ {x : String} {k : Nat}, (Text.sortStrings members)[k]? = some x → x ∈ members :=
    fun hx ↦ (List.perm_insertionSort _ members).mem_iff.mp (List.mem_of_getElem? hx)
  have hcircle : Circle.circle members = Text.sortStrings members := by
    rw [Circle.circle, h.nodup.dedup]
    rfl
  have hlen : (Text.sortStrings members).length = members.length :=
    (List.perm_insertionSort _ members).length_eq
  have hnext : (Circle.around a members).head? = some b :=
    Circle.head?_around (by rw [hcircle, hi]) (by rw [hcircle, hlen, hb]) hne
  obtain ⟨-, -, -, hedge⟩ := adj_next (n := nPreferred.getD defaultRingNPreferred)
    (hmem hi) (hmem hb) hnext
  exact (h.connected_iff a (hmem hi) b).mpr ⟨hmem hb, hne, hedge⟩

/-- A full set of preferred members stays as it is. -/
private theorem ringWalk_of_full (ring : List String) (me : String) (myIdx : Nat) {n : Nat}
    (left dist : Nat) {preferred : List String} (h : n ≤ preferred.length) :
    ringWalk ring me myIdx n left dist preferred = some preferred := by
  cases left with
  | zero => rfl
  | succ left =>
    rw [ringWalk, if_neg (Nat.not_lt.mpr h)]

/-- With at most two preferred members, these are the next and the previous one. -/
private theorem mem_selectRingNeighbors_few {n : UInt32} (hn : n.toNat ≤ 2)
    (hnodup : members.Nodup) (hlong : 3 < members.length) {i : Nat} {a b : String}
    (hi : (Text.sortStrings members)[i]? = some a)
    (hb : b ∈ (selectRingNeighbors a (members.filter (· != a)) n).getD []) :
    (Text.sortStrings members)[(i + 1) % members.length]? = some b ∨
      (Text.sortStrings members)[(i + members.length - 1) % members.length]? = some b := by
  have hperm := List.perm_insertionSort (· ≤ ·) members
  have hlen : (Text.sortStrings members).length = members.length := hperm.length_eq
  have hsorted : (Text.sortStrings members).Nodup := hperm.nodup_iff.mpr hnodup
  have ha : a ∈ members := hperm.mem_iff.mp (List.mem_of_getElem? hi)
  have hothers : (members.filter (· != a)).length = members.length - 1 := by
    rw [← hnodup.erase_eq_filter, List.length_erase_of_mem ha]
  obtain ⟨hilt, -⟩ := List.getElem?_eq_some_iff.mp hi
  have hpos : ∀ k, k % members.length < (Text.sortStrings members).length := fun k ↦ by
    rw [hlen]
    exact Nat.mod_lt k (by omega)
  obtain ⟨next, hnext⟩ : ∃ x, (Text.sortStrings members)[(i + 1) % members.length]? = some x :=
    ⟨_, List.getElem?_eq_getElem (hpos _)⟩
  obtain ⟨previous, hprevious⟩ : ∃ x,
      (Text.sortStrings members)[(i + members.length - 1) % members.length]? = some x :=
    ⟨_, List.getElem?_eq_getElem (hpos _)⟩
  have hne : previous ≠ next := by
    rintro rfl
    have hsame := (List.getElem?_inj (hpos _) hsorted).mp (hnext.trans hprevious.symm)
    rw [hlen] at hilt
    have hback : (i + members.length - 1) % members.length =
        if i = 0 then members.length - 1 else i - 1 := by
      split
      · next hz =>
        rw [hz, Nat.zero_add, Nat.mod_eq_of_lt (by omega)]
      · have hround : i + members.length - 1 = i - 1 + members.length := by omega
        rw [hround, Nat.add_mod_right, Nat.mod_eq_of_lt (by omega)]
    have hforth : (i + 1) % members.length = if i + 1 = members.length then 0 else i + 1 := by
      split
      · next hz => rw [hz, Nat.mod_self]
      · exact Nat.mod_eq_of_lt (by omega)
    rw [hback, hforth] at hsame
    split at hsame <;> split at hsame <;> omega
  have hfull : n.toNat ≤ (insertNew previous [next]).length := by
    have htwo : (insertNew previous [next]).length = 2 := by simp [insertNew, hne]
    omega
  have hselect : selectRingNeighbors a (members.filter (· != a)) n =
      some (insertNew previous [next]) := by
    unfold selectRingNeighbors
    have hsome : members.filter (· != a) ≠ [] := by
      rw [← List.length_pos_iff]
      omega
    have hmany : ¬ (members.filter (· != a)).length ≤ n.toNat := by
      rw [hothers]
      omega
    simp only [if_neg hsome, if_neg hmany, sortStrings_others hnodup ha,
      findIdx?_sortStrings hnodup hi, Option.bind_eq_bind, Option.bind_some, hlen,
      if_pos (Nat.lt_trans (by omega : 1 < 3) hlong), hnext, hprevious, Option.pure_def]
    exact ringWalk_of_full _ _ _ _ _ hfull
  rw [hselect, Option.getD_some] at hb
  simp only [insertNew, hne, ↓reduceIte, List.cons_append, List.nil_append, List.mem_cons,
    List.not_mem_nil, or_false] at hb
  rcases hb with rfl | rfl
  · exact .inl hnext
  · exact .inr hprevious

/-- The position of a member on the ring. -/
def ringIdx (members : List String) (m : String) : Nat := (Text.sortStrings members).idxOf m

/-- One position is next to the other on a ring of that length. -/
def NextTo (n i k : Nat) : Prop := k = i + 1 ∨ i + 1 = n ∧ k = 0

private theorem getElem?_ringIdx {m : String} (hm : m ∈ members) :
    (Text.sortStrings members)[ringIdx members m]? = some m ∧
      ringIdx members m < members.length := by
  have hperm := List.perm_insertionSort (· ≤ ·) members
  have hlt := List.idxOf_lt_length_of_mem (hperm.mem_iff.mpr hm)
  exact ⟨(List.getElem?_eq_getElem hlt).trans (congrArg some (List.getElem_idxOf hlt)),
    hlt.trans_eq hperm.length_eq⟩

private theorem ringIdx_eq (hnodup : members.Nodup) {k : Nat} {m : String}
    (h : (Text.sortStrings members)[k]? = some m) : ringIdx members m = k := by
  have hsorted : (Text.sortStrings members).Nodup :=
    (List.perm_insertionSort _ members).nodup_iff.mpr hnodup
  obtain ⟨hlt, rfl⟩ := List.getElem?_eq_some_iff.mp h
  exact hsorted.idxOf_getElem k hlt

private theorem eq_of_ringIdx_eq {a b : String} (ha : a ∈ members) (hb : b ∈ members)
    (h : ringIdx members a = ringIdx members b) : a = b := by
  have hget := (getElem?_ringIdx ha).1
  rw [h, (getElem?_ringIdx hb).1] at hget
  exact (Option.some.inj hget).symm

private theorem exists_ringIdx (hnodup : members.Nodup) {k : Nat} (hk : k < members.length) :
    ∃ m ∈ members, ringIdx members m = k := by
  have hperm := List.perm_insertionSort (· ≤ ·) members
  obtain ⟨m, hm⟩ : ∃ m, (Text.sortStrings members)[k]? = some m :=
    ⟨_, List.getElem?_eq_getElem (hk.trans_eq hperm.length_eq.symm)⟩
  exact ⟨m, hperm.mem_iff.mp (List.mem_of_getElem? hm), ringIdx_eq hnodup hm⟩

private theorem mod_of_nextTo {n i k : Nat} (hk : k < n) (h : NextTo n i k) : (i + 1) % n = k := by
  rcases h with rfl | ⟨hn, rfl⟩
  · exact Nat.mod_eq_of_lt hk
  · rw [hn, Nat.mod_self]

/-- On a ring of members that prefer at most two, the connections are those next to each
other. -/
theorem mem_connected_iff_nextTo {nPreferred : Option UInt32}
    (h : Shaped P (.ring nPreferred) members mesh)
    (hfew : (nPreferred.getD defaultRingNPreferred).toNat ≤ 2) (hlong : 3 < members.length)
    {a b : String} (ha : a ∈ members) (hb : b ∈ members) :
    b ∈ mesh.connected a ↔ NextTo members.length (ringIdx members a) (ringIdx members b) ∨
      NextTo members.length (ringIdx members b) (ringIdx members a) := by
  obtain ⟨hia, hialt⟩ := getElem?_ringIdx ha
  obtain ⟨hib, hiblt⟩ := getElem?_ringIdx hb
  constructor
  · intro hconn
    have hedge := ((h.connected_iff a ha b).mp hconn).2.2
    simp only [TopologyMode.edge, ringEdge, ringOthers_of_mem ha hb, Bool.or_eq_true,
      List.contains_iff_mem] at hedge
    have hnear : ∀ {x y : String}, (Text.sortStrings members)[ringIdx members x]? = some x →
        ringIdx members x < members.length → ringIdx members y < members.length →
        y ∈ (selectRingNeighbors x (members.filter (· != x))
          (nPreferred.getD defaultRingNPreferred)).getD [] →
        NextTo members.length (ringIdx members x) (ringIdx members y) ∨
          NextTo members.length (ringIdx members y) (ringIdx members x) := by
      intro x y hx hxlt hylt hy
      unfold NextTo
      rcases mem_selectRingNeighbors_few hfew h.nodup hlong hx hy with hnext | hprevious
      · have hmod := ringIdx_eq h.nodup hnext
        by_cases hlast : ringIdx members x + 1 = members.length
        · rw [hlast, Nat.mod_self] at hmod
          omega
        · rw [Nat.mod_eq_of_lt (by omega)] at hmod
          omega
      · have hmod := ringIdx_eq h.nodup hprevious
        by_cases hfirst : ringIdx members x = 0
        · rw [hfirst, Nat.zero_add, Nat.mod_eq_of_lt (by omega)] at hmod
          omega
        · have hround : ringIdx members x + members.length - 1 =
              ringIdx members x - 1 + members.length := by omega
          rw [hround, Nat.add_mod_right, Nat.mod_eq_of_lt (by omega)] at hmod
          omega
    cases hedge with
    | inl hedge => exact hnear hia hialt hiblt hedge
    | inr hedge => exact (hnear hib hiblt hialt hedge).symm
  · rintro (hnext | hnext)
    · refine next_mem_connected h hia (by rw [mod_of_nextTo hiblt hnext, hib]) ?_
      rintro rfl
      unfold NextTo at hnext
      omega
    · have hne : a ≠ b := by
        rintro rfl
        unfold NextTo at hnext
        omega
      have hback := next_mem_connected h hib (by rw [mod_of_nextTo hialt hnext, hia]) hne
      have hedge := ((h.connected_iff b hb a).mp hback).2.2
      refine (h.connected_iff a ha b).mpr ⟨hb, hne.symm, ?_⟩
      simp only [TopologyMode.edge] at hedge ⊢
      rw [ringEdge_symm, hedge]

/-! ### Steps in one direction -/

/-- The steps from the origin to each member in one direction of a ring. -/
structure RingSteps (mesh : RoutedMesh) (members : List String) (origin : String)
    (d : String → Nat) : Prop where
  origin_eq : d origin = 0
  eq_of_eq : ∀ a ∈ members, ∀ b ∈ members, d a = d b → a = b
  previous : ∀ a ∈ members, a ≠ origin → ∃ y ∈ members, d y + 1 = d a
  connected : ∀ a ∈ members, ∀ b ∈ members, d b = d a + 1 → b ∈ mesh.connected a
  near : ∀ a ∈ members, a ≠ origin → ∀ b ∈ mesh.connected a, b ≠ origin →
    d b = d a + 1 ∨ d a = d b + 1

/-- The two directions make up the ring, and the origin sends both ways. -/
structure BothWays (mesh : RoutedMesh) (members : List String) (origin : String)
    (up down : String → Nat) : Prop where
  upward : RingSteps mesh members origin up
  downward : RingSteps mesh members origin down
  sum : ∀ a ∈ members, a ≠ origin → up a + down a = members.length
  first : ∀ b ∈ mesh.connected origin, up b = 1 ∨ down b = 1

theorem BothWays.symm {up down : String → Nat} (h : BothWays mesh members origin up down) :
    BothWays mesh members origin down up where
  upward := h.downward
  downward := h.upward
  sum a ha hne := by rw [Nat.add_comm, h.sum a ha hne]
  first b hb := (h.first b hb).symm

/-- The steps from one place to another on a ring of that length, going up. -/
def stepsBetween (n i k : Nat) : Nat := if i ≤ k then k - i else k + n - i

/-- The steps up the sorted ring. -/
def stepsUp (members : List String) (origin m : String) : Nat :=
  stepsBetween members.length (ringIdx members origin) (ringIdx members m)

/-- The steps down the sorted ring, which are those up the ring read from its end. -/
def stepsDown (members : List String) (origin m : String) : Nat :=
  stepsBetween members.length (members.length - 1 - ringIdx members origin)
    (members.length - 1 - ringIdx members m)

/-- Places on a ring, each held by one member, those next to each other connected. -/
private structure Placed (mesh : RoutedMesh) (members : List String) (place : String → Nat) :
    Prop where
  lt : ∀ m ∈ members, place m < members.length
  eq_of_eq : ∀ a ∈ members, ∀ b ∈ members, place a = place b → a = b
  exists_of_lt : ∀ k < members.length, ∃ m ∈ members, place m = k
  mem : ∀ a ∈ members, ∀ b ∈ mesh.connected a, b ∈ members
  connected_iff : ∀ a ∈ members, ∀ b ∈ members, b ∈ mesh.connected a ↔
    NextTo members.length (place a) (place b) ∨ NextTo members.length (place b) (place a)

/-- Places count steps in their direction. -/
private theorem Placed.ringSteps {place : String → Nat} (h : Placed mesh members place)
    (ho : origin ∈ members) : RingSteps mesh members origin fun m ↦
      stepsBetween members.length (place origin) (place m) := by
  have hio := h.lt _ ho
  have hother : ∀ a ∈ members, a ≠ origin → place a ≠ place origin :=
    fun a ha hne heq ↦ hne (h.eq_of_eq a ha _ ho heq)
  unfold stepsBetween
  refine ⟨by simp, fun a ha b hb heq ↦ ?_, fun a ha hne ↦ ?_, fun a ha b hb heq ↦ ?_,
    fun a ha hne b hconn hbne ↦ ?_⟩
  · have hia := h.lt a ha
    have hib := h.lt b hb
    refine h.eq_of_eq a ha b hb ?_
    split at heq <;> split at heq <;> omega
  · have hia := h.lt a ha
    have hdiff := hother a ha hne
    -- The member before it is the last one if it is the first.
    obtain ⟨y, hy, hiy⟩ := h.exists_of_lt
      (if place a = 0 then members.length - 1 else place a - 1) (by split <;> omega)
    refine ⟨y, hy, ?_⟩
    simp only [hiy]
    split <;> split <;> split <;> omega
  · have hia := h.lt a ha
    have hib := h.lt b hb
    refine (h.connected_iff a ha b hb).mpr (.inl ?_)
    unfold NextTo
    split at heq <;> split at heq <;> omega
  · have hb : b ∈ members := h.mem a ha b hconn
    have hia := h.lt a ha
    have hib := h.lt b hb
    have hadiff := hother a ha hne
    have hbdiff := hother b hb hbne
    have hnext := (h.connected_iff a ha b hb).mp hconn
    unfold NextTo at hnext
    split <;> split <;> omega

section Directions

variable {nPreferred : Option UInt32} (h : Shaped P (.ring nPreferred) members mesh)
  (hfew : (nPreferred.getD defaultRingNPreferred).toNat ≤ 2) (hlong : 3 < members.length)

include h hfew hlong

private theorem placed_ringIdx : Placed mesh members (ringIdx members) where
  lt _ hm := (getElem?_ringIdx hm).2
  eq_of_eq _ ha _ hb := eq_of_ringIdx_eq ha hb
  exists_of_lt _ hk := exists_ringIdx h.nodup hk
  mem a ha b hb := ((h.connected_iff a ha b).mp hb).1
  connected_iff _ ha _ hb := mem_connected_iff_nextTo h hfew hlong ha hb

/-- Counted from the other end, the places go the other way. -/
private theorem placed_reverse :
    Placed mesh members fun m ↦ members.length - 1 - ringIdx members m := by
  have hup := placed_ringIdx h hfew hlong
  refine ⟨fun m hm ↦ ?_, fun a ha b hb heq ↦ ?_, fun k hk ↦ ?_, hup.mem, fun a ha b hb ↦ ?_⟩
  · have him := hup.lt m hm
    omega
  · have hia := hup.lt a ha
    have hib := hup.lt b hb
    exact hup.eq_of_eq a ha b hb (by omega)
  · obtain ⟨m, hm, him⟩ := hup.exists_of_lt (members.length - 1 - k) (by omega)
    exact ⟨m, hm, by omega⟩
  · have hia := hup.lt a ha
    have hib := hup.lt b hb
    rw [hup.connected_iff a ha b hb]
    unfold NextTo
    omega

/-- On a ring of members that prefer at most two, there are two ways around. -/
theorem bothWays_ring (ho : origin ∈ members) :
    BothWays mesh members origin (stepsUp members origin) (stepsDown members origin) := by
  have hup := placed_ringIdx h hfew hlong
  have hio := hup.lt _ ho
  have hdown := placed_reverse h hfew hlong
  refine ⟨hup.ringSteps ho, hdown.ringSteps ho, fun a ha hne ↦ ?_, fun b hconn ↦ ?_⟩
  · have hia := hup.lt a ha
    have hdiff : ringIdx members a ≠ ringIdx members origin :=
      fun heq ↦ hne (hup.eq_of_eq a ha _ ho heq)
    unfold stepsUp stepsDown stepsBetween
    split <;> split <;> omega
  · have hb : b ∈ members := hup.mem _ ho b hconn
    have hib := hup.lt b hb
    have hnext := (hup.connected_iff _ ho b hb).mp hconn
    unfold NextTo at hnext
    unfold stepsUp stepsDown stepsBetween
    split <;> split <;> omega

/-- Some member is any number of steps up that fits on the ring. -/
theorem exists_stepsUp (ho : origin ∈ members) {k : Nat} (hk : k < members.length) :
    ∃ m ∈ members, stepsUp members origin m = k := by
  have hup := placed_ringIdx h hfew hlong
  have hio := hup.lt _ ho
  obtain ⟨m, hm, him⟩ := hup.exists_of_lt
    (if ringIdx members origin + k < members.length then ringIdx members origin + k
      else ringIdx members origin + k - members.length) (by split <;> omega)
  refine ⟨m, hm, ?_⟩
  unfold stepsUp stepsBetween
  rw [him]
  split <;> split <;> omega

end Directions

/-! ### Copies going round -/

section Circling

variable (members : List String) (f : RoutedFrame) (budget : Nat)

/-- A copy has come step by step in one direction, and those before its target have the frame. -/
structure Along (d : String → Nat) (s : Net String Value Station) (l : Letter String Value) :
    Prop where
  source : l.source ∈ members
  step : d l.source + 1 = d l.target
  hops : hopsLeft l.body + d l.target = budget
  before : ∀ m ∈ members, d m < d l.target → Aware f m (s.node m)

/-- A member has the frame from one direction: so have those before it, and it sends the frame
on while hops are left. -/
structure HeardAlong (d : String → Nat) (s : Net String Value Station) (a : String) : Prop where
  within : d a ≤ budget
  before : ∀ m ∈ members, d m ≤ d a → Aware f m (s.node m)
  next : budget ≤ d a ∨
    ∀ b ∈ members, d b = d a + 1 → Aware f b (s.node b) ∨ ∃ l ∈ s.flight, l.target = b

/-- Every copy comes from one of the two directions, and every member with the frame heard it
from one of them; the origin sends it both ways. -/
structure Circling (up down : String → Nat) (s : Net String Value Station) : Prop where
  copies : ∀ l ∈ s.flight, Along members f budget up s l ∨ Along members f budget down s l
  heard : ∀ a ∈ members, a ≠ f.origin → Aware f a (s.node a) →
    HeardAlong members f budget up s a ∨ HeardAlong members f budget down s a
  upward : HeardAlong members f budget up s f.origin
  downward : HeardAlong members f budget down s f.origin

end Circling

variable {f : RoutedFrame} {budget : Nat} {d up down : String → Nat}
  {s t : Net String Value Station}

theorem Circling.symm (h : Circling members f budget up down s) :
    Circling members f budget down up s :=
  ⟨fun l hl ↦ (h.copies l hl).symm, fun a ha hne haware ↦ (h.heard a ha hne haware).symm,
    h.downward, h.upward⟩

/-- Nobody loses the frame, and a copy is in flight until its target has the frame. -/
structure Spreads (f : RoutedFrame) (s t : Net String Value Station) : Prop where
  keeps : ∀ m, Aware f m (s.node m) → Aware f m (t.node m)
  flies : ∀ l ∈ s.flight, l ∈ t.flight ∨ Aware f l.target (t.node l.target)

theorem Along.mono {l : Letter String Value} (h : Along members f budget d s l)
    (hst : Spreads f s t) : Along members f budget d t l :=
  ⟨h.source, h.step, h.hops, fun m hm hlt ↦ hst.keeps m (h.before m hm hlt)⟩

theorem HeardAlong.mono {a : String} (h : HeardAlong members f budget d s a) (hst : Spreads f s t) :
    HeardAlong members f budget d t a := by
  refine ⟨h.within, fun m hm hle ↦ hst.keeps m (h.before m hm hle), h.next.imp_right ?_⟩
  intro hnext b hb hstep
  rcases hnext b hb hstep with haware | ⟨l, hl, rfl⟩
  · exact .inl (hst.keeps b haware)
  · exact (hst.flies l hl).symm.imp_right fun hl ↦ ⟨l, hl, rfl⟩

section Step

variable {nPreferred : Option UInt32} (h : Shaped P (.ring nPreferred) members mesh)
  (hdst : f.dst = "")

include hdst

/-- What a step does to those who have the frame and to the copies in flight. -/
theorem Flooding.spreads (hs : Flooding mesh members f s) (a : RouteAct) :
    Spreads f s (mesh.step P s a) := by
  refine ⟨fun m hm ↦ hm.step hs hdst, fun x hx ↦ ?_⟩
  cases a with
  | other node carrier payload => exact .inl hx
  | arrive i =>
    rcases deliver_cases (mesh.receive P) s i with hsame | ⟨before, l, after, hflight, heq⟩
    · rw [RoutedMesh.step, hsame]
      exact .inl hx
    rw [RoutedMesh.step, heq]
    obtain ⟨-, -, hmem, -, -, -⟩ := hs.copies l (by simp [hflight])
    obtain ⟨ttl, -, ⟨hseen, hnode, hflight'⟩ | ⟨-, hnode, hflight'⟩⟩ :=
      hs.arrive_cases (P := P) hdst hflight
    · rw [hnode, hflight', List.mem_append]
      rw [hflight, List.mem_append, List.mem_cons] at hx
      rcases hx with hx | rfl | hx
      · exact .inl (.inl hx)
      · exact .inr (Classical.not_not.mp fun hnot ↦ (hs.attends _ hmem).fresh hnot hseen)
      · exact .inl (.inr hx)
    · rw [hnode, hflight', List.mem_append, List.mem_append]
      rw [hflight, List.mem_append, List.mem_cons] at hx
      rcases hx with hx | rfl | hx
      · exact .inl (.inl (.inl hx))
      · rw [Function.update_self]
        exact .inr (Station.aware_hearing _ _ _ _)
      · exact .inl (.inl (.inr hx))

include h

/-- The member that hears a copy new has it from the copy's direction and sends it on that
way. -/
theorem Along.arrive (hsteps : RingSteps mesh members f.origin d)
    (hs : Flooding mesh members f s) {before after : List (Letter String Value)}
    {l : Letter String Value} (hflight : s.flight = before ++ l :: after) {ttl : UInt8}
    (hbody : l.body = f.copy ttl) (hl : Along members f budget d s l)
    (hspreads : Spreads f s t)
    (hnode : t.node l.target =
      (s.node l.target).hearing f (mesh.targets P l.target l.source f ttl))
    (hflight' : t.flight = before ++ after ++
      (mesh.targets P l.target l.source f ttl).map fun p ↦ ⟨l.target, p, f.copy (ttl - 1)⟩) :
    HeardAlong members f budget d t l.target ∧
      ∀ p ∈ mesh.targets P l.target l.source f ttl,
        Along members f budget d t ⟨l.target, p, f.copy (ttl - 1)⟩ := by
  obtain ⟨-, -, hmem, hne, -, -⟩ := hs.copies l (by simp [hflight])
  obtain ⟨hsource, hstep, hhops, hbefore⟩ := hl
  rw [hbody, hopsLeft_copy] at hhops
  have haware : ∀ m ∈ members, d m ≤ d l.target → Aware f m (t.node m) := by
    intro m hm hle
    rcases Nat.lt_or_eq_of_le hle with hlt | heq
    · exact hspreads.keeps m (hbefore m hm hlt)
    · rw [hsteps.eq_of_eq m hm _ hmem heq, hnode]
      exact Station.aware_hearing _ _ _ _
  refine ⟨⟨by omega, haware, ?_⟩, fun p hp ↦ ?_⟩
  · by_cases hzero : ttl = 0
    · subst hzero
      refine .inl ?_
      rw [← hhops]
      simp
    · refine .inr fun b hb hnext ↦ ?_
      by_cases horigin : b = f.origin
      · exact .inl (.inl horigin)
      · have hcarrier : b ≠ l.source := by
          rintro rfl
          omega
        have hconn := hsteps.connected _ hmem b hb hnext
        refine .inr ⟨⟨l.target, b, f.copy (ttl - 1)⟩, ?_, rfl⟩
        rw [hflight']
        refine List.mem_append_right _ (List.mem_map.mpr ⟨b, ?_, rfl⟩)
        refine (mem_targets_of_broadcast hdst).mpr
          ⟨?_, hzero, hconn, hcarrier, horigin, h.accepts _ hmem b hconn⟩
        rw [h.mode_eq _ hmem]
        rfl
  · obtain ⟨-, hzero, hconn, hcarrier, horigin, -⟩ := (mem_targets_of_broadcast hdst).mp hp
    have hpm : p ∈ members := ((h.connected_iff _ hmem p).mp hconn).1
    have hsub := toNat_sub_one_add_one hzero
    -- Going back it would meet the carrier.
    have hforth : d p = d l.target + 1 := by
      refine (hsteps.near _ hmem hne p hconn horigin).resolve_right fun hback ↦ hcarrier ?_
      exact hsteps.eq_of_eq p hpm _ hsource (by omega)
    refine ⟨hmem, hforth.symm, ?_, fun m hm hlt ↦ haware m hm ?_⟩
    · rw [hopsLeft_copy, hforth]
      omega
    · rw [hforth] at hlt
      omega

/-- A step keeps the broadcast going round. -/
theorem Circling.step (hways : BothWays mesh members f.origin up down)
    (hc : Circling members f budget up down s) (hs : Flooding mesh members f s) (a : RouteAct) :
    Circling members f budget up down (mesh.step P s a) := by
  have hspreads := hs.spreads (P := P) hdst a
  have hupward := hc.upward.mono hspreads
  have hdownward := hc.downward.mono hspreads
  cases a with
  | other node carrier payload =>
    refine ⟨fun l hl ↦ ?_, fun m hm hne haware ↦ ?_, hupward, hdownward⟩
    · exact (hc.copies l hl).imp (fun hl ↦ hl.mono hspreads) fun hl ↦ hl.mono hspreads
    · exact (hc.heard m hm hne (aware_other_iff.mp haware)).imp (fun hl ↦ hl.mono hspreads)
        fun hl ↦ hl.mono hspreads
  | arrive i =>
    rcases deliver_cases (mesh.receive P) s i with hsame | ⟨before, l, after, hflight, heq⟩
    · rw [RoutedMesh.step, hsame]
      exact hc
    rw [RoutedMesh.step, heq] at hspreads hupward hdownward ⊢
    have hold : ∀ x ∈ before ++ after,
        Along members f budget up (s.arrive (mesh.receive P) before l after) x ∨
          Along members f budget down (s.arrive (mesh.receive P) before l after) x := by
      intro x hx
      have hxs : x ∈ s.flight := by
        rw [hflight, List.mem_append, List.mem_cons]
        exact (List.mem_append.mp hx).imp id .inr
      exact (hc.copies x hxs).imp (fun hl ↦ hl.mono hspreads) fun hl ↦ hl.mono hspreads
    obtain ⟨ttl, hbody, ⟨-, hnode, hflight'⟩ | ⟨-, hnode, hflight'⟩⟩ :=
      hs.arrive_cases (P := P) hdst hflight
    · refine ⟨fun x hx ↦ hold x (by rwa [hflight'] at hx), fun m hm hne haware ↦ ?_, hupward,
        hdownward⟩
      rw [hnode] at haware
      exact (hc.heard m hm hne haware).imp (fun hl ↦ hl.mono hspreads) fun hl ↦ hl.mono hspreads
    · have hself : (s.arrive (mesh.receive P) before l after).node l.target =
          (s.node l.target).hearing f (mesh.targets P l.target l.source f ttl) := by
        rw [hnode, Function.update_self]
      have hnew :
          (HeardAlong members f budget up (s.arrive (mesh.receive P) before l after) l.target ∨
            HeardAlong members f budget down (s.arrive (mesh.receive P) before l after) l.target) ∧
          ∀ p ∈ mesh.targets P l.target l.source f ttl,
            Along members f budget up (s.arrive (mesh.receive P) before l after)
                ⟨l.target, p, f.copy (ttl - 1)⟩ ∨
              Along members f budget down (s.arrive (mesh.receive P) before l after)
                ⟨l.target, p, f.copy (ttl - 1)⟩ := by
        rcases hc.copies l (by simp [hflight]) with hl | hl
        · obtain ⟨hheard, hsent⟩ := hl.arrive h hdst hways.upward hs hflight hbody hspreads
            hself hflight'
          exact ⟨.inl hheard, fun p hp ↦ .inl (hsent p hp)⟩
        · obtain ⟨hheard, hsent⟩ := hl.arrive h hdst hways.downward hs hflight hbody hspreads
            hself hflight'
          exact ⟨.inr hheard, fun p hp ↦ .inr (hsent p hp)⟩
      refine ⟨fun x hx ↦ ?_, fun m hm hne haware ↦ ?_, hupward, hdownward⟩
      · rw [hflight', List.mem_append, List.mem_map] at hx
        rcases hx with hx | ⟨p, hp, rfl⟩
        · exact hold x hx
        · exact hnew.2 p hp
      · by_cases hat : m = l.target
        · rw [hat]
          exact hnew.1
        · rw [hnode, Function.update_of_ne hat] at haware
          exact (hc.heard m hm hne haware).imp (fun hl ↦ hl.mono hspreads)
            fun hl ↦ hl.mono hspreads

/-- So does a run. -/
theorem circling_run (hways : BothWays mesh members f.origin up down) {acts : List RouteAct}
    (hc : Circling members f budget up down s) (hs : Flooding mesh members f s)
    (hapart : ∀ a ∈ acts, a.Apart f.key) :
    Circling members f budget up down (run (mesh.step P) s acts) := by
  induction acts generalizing s with
  | nil => exact hc
  | cons a acts ih =>
    exact ih (hc.step h hdst hways hs a) (hs.step h hdst (hapart a List.mem_cons_self))
      fun b hb ↦ hapart b (List.mem_cons_of_mem _ hb)

/-- The origin sends both ways. -/
theorem circling_afterFlood (hways : BothWays mesh members f.origin up down)
    {shelved : String → Bool} {seen : String → List (String × UInt64)}
    (hme : f.origin ∈ members) (hopen : ∀ p ∈ mesh.connected f.origin, shelved p = false) :
    Circling members f ((TopologyMode.ring nPreferred).floodTtl.toNat + 1) up down
      (mesh.afterFlood shelved seen f.origin f.channel f.body f.id) := by
  obtain ⟨s, hs⟩ : ∃ s, s = mesh.afterFlood shelved seen f.origin f.channel f.body f.id :=
    ⟨_, rfl⟩
  have hflight : s.flight = (mesh.connected f.origin).map fun p ↦
      ⟨f.origin, p, f.copy (TopologyMode.ring nPreferred).floodTtl⟩ :=
    hs ▸ flight_afterFlood h hme hdst hopen
  have hcovered : Covered mesh members f s := hs ▸ covered_afterFlood h hme hdst hopen
  rw [← hs]
  have hfirst : ∀ {d : String → Nat}, RingSteps mesh members f.origin d → ∀ m ∈ members,
      d m ≤ 0 → Aware f m (s.node m) := fun hd m hm hle ↦ .inl
    (hd.eq_of_eq m hm _ hme (by rw [hd.origin_eq]; omega))
  have hends : ∀ {d : String → Nat}, RingSteps mesh members f.origin d →
      HeardAlong members f ((TopologyMode.ring nPreferred).floodTtl.toNat + 1) d s f.origin := by
    intro d hd
    refine ⟨by rw [hd.origin_eq]; omega, fun m hm hle ↦ hfirst hd m hm ?_, .inr fun b hb hnext ↦ ?_⟩
    · rwa [hd.origin_eq] at hle
    · exact hcovered _ hme (.inl rfl) (.inl rfl) b (hd.connected _ hme b hb hnext)
  refine ⟨fun l hl ↦ ?_, fun a _ hne haware ↦ ?_, hends hways.upward, hends hways.downward⟩
  · rw [hflight, List.mem_map] at hl
    obtain ⟨p, hp, rfl⟩ := hl
    have halong : ∀ {d : String → Nat}, RingSteps mesh members f.origin d → d p = 1 →
        Along members f ((TopologyMode.ring nPreferred).floodTtl.toNat + 1) d s
          ⟨f.origin, p, f.copy (TopologyMode.ring nPreferred).floodTtl⟩ := by
      intro d hd hone
      refine ⟨hme, by rw [hd.origin_eq, hone], by rw [hopsLeft_copy, hone], fun m hm hlt ↦ ?_⟩
      exact hfirst hd m hm (by rw [hone] at hlt; omega)
    exact (hways.first p hp).imp (halong hways.upward) (halong hways.downward)
  · refine absurd ?_ (haware.resolve_left hne)
    rw [hs]
    simp [RoutedMesh.afterFlood, Net.start, Function.update_of_ne hne]

end Step

/-- At rest, everyone within the budget in one direction has the frame. -/
private theorem Circling.aware_of_le (hc : Circling members f budget up down s)
    (hways : BothWays mesh members f.origin up down) (hme : f.origin ∈ members)
    (hquiet : s.flight = []) {m : String} (hm : m ∈ members) (hle : up m ≤ budget) :
    Aware f m (s.node m) := by
  obtain ⟨k, hk⟩ : ∃ k, k = up m := ⟨_, rfl⟩
  induction k generalizing m with
  | zero => exact .inl (hways.upward.eq_of_eq m hm _ hme (by rw [hways.upward.origin_eq, hk]))
  | succ k ih =>
    by_cases horigin : m = f.origin
    · exact .inl horigin
    obtain ⟨y, hy, hstep⟩ := hways.upward.previous m hm horigin
    have hyaware := ih hy (by omega) (by omega)
    have hnext : ∀ {a : String}, up a + 1 = up m → HeardAlong members f budget up s a →
        Aware f m (s.node m) := by
      intro a hstep ha
      have hgo := ha.next.resolve_left (by omega)
      refine (hgo m hm hstep.symm).resolve_right ?_
      rintro ⟨l, hl, -⟩
      rw [hquiet] at hl
      exact absurd hl List.not_mem_nil
    by_cases hyo : y = f.origin
    · exact hnext (by rw [← hyo, hstep]) hc.upward
    · rcases hc.heard y hy hyo hyaware with hup | hdown
      · exact hnext hstep hup
      · -- The frame came down to the member before, hence past this one.
        have hsum := hways.sum m hm horigin
        have hysum := hways.sum y hy hyo
        exact hdown.before m hm (by omega)

/-- Only those within the budget in one of the directions ever have the frame, and at rest all of
them do. -/
theorem Circling.aware_iff (hc : Circling members f budget up down s)
    (hways : BothWays mesh members f.origin up down) (hme : f.origin ∈ members) {m : String}
    (hm : m ∈ members) :
    (Aware f m (s.node m) → up m ≤ budget ∨ down m ≤ budget) ∧
      (s.flight = [] → up m ≤ budget ∨ down m ≤ budget → Aware f m (s.node m)) := by
  refine ⟨fun haware ↦ ?_, fun hquiet hle ↦ ?_⟩
  · by_cases horigin : m = f.origin
    · refine .inl ?_
      rw [horigin, hways.upward.origin_eq]
      exact Nat.zero_le _
    · exact (hc.heard m hm horigin haware).imp (fun h ↦ h.within) fun h ↦ h.within
  · cases hle with
    | inl hle => exact hc.aware_of_le hways hme hquiet hm hle
    | inr hle => exact hc.symm.aware_of_le hways.symm hme hquiet hm hle

end MyOwnMesh
