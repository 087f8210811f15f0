import MyOwnMesh.Lib.Circle
import MyOwnMesh.Topology

/-!
# The members a ring selects

`crates/myownmesh-core/src/topology/ring.rs`. The outward walk keeps the nearest members of the
ring and nobody else, whatever the preferred count; edges are symmetric, and since both
immediate neighbours are always kept, they connect the whole membership.
-/

namespace MyOwnMesh

open Lib Lib.Circle

/-! ### The set under construction -/

theorem mem_insertNew {x p : String} {xs : List String} :
    p ∈ insertNew x xs ↔ p ∈ xs ∨ p = x := by
  unfold insertNew
  split
  · next hmem =>
    refine ⟨.inl, ?_⟩
    rintro (hp | rfl)
    · exact hp
    · exact hmem
  · rw [List.mem_append, List.mem_singleton]

theorem nodup_insertNew {x : String} {xs : List String} (h : xs.Nodup) :
    (insertNew x xs).Nodup := by
  unfold insertNew
  split
  · exact h
  · next hnot => exact List.nodup_append.mpr ⟨h, List.nodup_singleton x, by grind⟩

theorem length_insertNew_le (x : String) (xs : List String) :
    xs.length ≤ (insertNew x xs).length ∧ (insertNew x xs).length ≤ xs.length + 1 := by
  unfold insertNew
  split
  · omega
  · rw [List.length_append, List.length_singleton]
    omega

/-! ### Indices of the ring -/

section Walk

variable {me : String} {peers : List String}

/-- The selector sorts itself and its peers to a ring. -/
private theorem circle_eq : Text.sortStrings (me :: peers).dedup = circle (me :: peers) := rfl

/-- From its own place on, the ring is the device and then the others. -/
private theorem rotate_circle {i : Nat}
    (h : (circle (me :: peers)).findIdx? (· == me) = some i) :
    (circle (me :: peers)).rotate i = me :: around me (me :: peers) := by
  obtain ⟨hlt, hme, -⟩ := List.findIdx?_eq_some_iff_getElem.mp h
  have hsplit : circle (me :: peers) =
      (circle (me :: peers)).take i ++ me :: (circle (me :: peers)).drop (i + 1) := by
    conv_lhs => rw [← List.take_append_drop i (circle (me :: peers)),
      List.drop_eq_getElem_cons hlt, eq_of_beq hme]
  rw [around_of_split hsplit, List.rotate_eq_drop_append_take hlt.le,
    List.drop_eq_getElem_cons hlt, eq_of_beq hme, List.cons_append]

private theorem length_circle {i : Nat}
    (h : (circle (me :: peers)).findIdx? (· == me) = some i) :
    (circle (me :: peers)).length = (around me (me :: peers)).length + 1 := by
  rw [← List.length_rotate (circle (me :: peers)) i, rotate_circle h, List.length_cons]

/-- The index `d + 1` places further on. -/
private theorem getElem?_clockwise {i d : Nat}
    (h : (circle (me :: peers)).findIdx? (· == me) = some i)
    (hd : d < (around me (me :: peers)).length) :
    (circle (me :: peers))[(i + (d + 1)) % (circle (me :: peers)).length]? =
      some (around me (me :: peers))[d] := by
  have hlt : d + 1 < (circle (me :: peers)).length := by
    rw [length_circle h]
    omega
  rw [Nat.add_comm i, ← List.getElem?_rotate hlt, rotate_circle h, List.getElem?_cons_succ,
    List.getElem?_eq_getElem hd]

/-- The index `d + 1` places back. -/
private theorem getElem?_counterclockwise {i d : Nat}
    (h : (circle (me :: peers)).findIdx? (· == me) = some i)
    (hd : d < (around me (me :: peers)).length)
    (hlast : (around me (me :: peers)).length - 1 - d < (around me (me :: peers)).length) :
    (circle (me :: peers))[(i + (circle (me :: peers)).length - (d + 1)) %
        (circle (me :: peers)).length]? =
      some (around me (me :: peers))[(around me (me :: peers)).length - 1 - d] := by
  have hback : i + (circle (me :: peers)).length - (d + 1) =
      i + (((around me (me :: peers)).length - 1 - d) + 1) := by
    rw [length_circle h]
    omega
  rw [hback, getElem?_clockwise h hlast]

/-! ### The walk -/

/-- What the selector answers with: a choice of the nearest members that extends another one and
is stopped by the preferred count or by the end of the ring. -/
private structure Walked (me : String) (peers : List String) (n : Nat)
    (chosen xs : List String) : Prop where
  nearest : Nearest me (me :: peers) xs
  extends_ : chosen ⊆ xs
  length_le : xs.length ≤ max n 2
  stopped : n ≤ xs.length ∨ xs.Perm (around me (me :: peers))

/-- One more member at the current distance. -/
private theorem grow {p : String} (hp : p ∈ around me (me :: peers)) (chosen : List String) :
    (if p = me then chosen else insertNew p chosen) = insertNew p chosen :=
  if_neg (mem_around.mp hp).2

/-- The walk widens the choice by one distance at a time. -/
private theorem ringWalk_spec {i n : Nat}
    (h : (circle (me :: peers)).findIdx? (· == me) = some i) {left d : Nat}
    {chosen : List String} (hwithin : Within me (me :: peers) (d + 1) chosen)
    (hleft : left + d = (around me (me :: peers)).length) (hlen : chosen.length ≤ max n 2) :
    ∃ xs, ringWalk (circle (me :: peers)) me i n left (d + 1) chosen = some xs ∧
      Walked me peers n chosen xs := by
  induction left generalizing d chosen with
  | zero =>
    have hall := hwithin.perm_around (by omega)
    exact ⟨chosen, rfl, hwithin.nearest, List.Subset.refl chosen, hlen, .inr hall⟩
  | succ left ih =>
    rw [ringWalk]
    by_cases hfull : chosen.length < n
    · have hd : d < (around me (me :: peers)).length := by omega
      have hcw := List.getElem_mem hd
      have hlast : (around me (me :: peers)).length - 1 - d < (around me (me :: peers)).length := by
        omega
      have hccw := List.getElem_mem hlast
      simp only [if_pos hfull, getElem?_clockwise h hd, getElem?_counterclockwise h hd hlast,
        Option.bind_eq_bind, Option.bind_some, grow hcw, grow hccw]
      obtain ⟨withCw, hwithCw⟩ : ∃ l, l = insertNew (around me (me :: peers))[d] chosen :=
        ⟨_, rfl⟩
      have hnodup : withCw.Nodup := hwithCw ▸ nodup_insertNew hwithin.nodup
      have hmem (p : String) :
          p ∈ withCw ↔ p ∈ chosen ∨ p = (around me (me :: peers))[d] := by
        rw [hwithCw, mem_insertNew]
      have hgrown := length_insertNew_le (around me (me :: peers))[d] chosen
      rw [← hwithCw] at hgrown ⊢
      split
      · -- the clockwise one was the last that fits
        next hstop =>
        exact ⟨withCw, rfl, hwithin.nearest_half hd hnodup hmem,
          fun p hp ↦ (hmem p).mpr (.inl hp), by omega, .inl hstop.2⟩
      · next hgo =>
        have hgrown' := length_insertNew_le (around me (me :: peers))[
          (around me (me :: peers)).length - 1 - d] withCw
        obtain ⟨xs, hxs, hwalked⟩ := ih (hwithin.widen hd (nodup_insertNew hnodup) fun p ↦ by
          rw [mem_insertNew, hmem, or_assoc]) (by omega) (by omega)
        refine ⟨xs, hxs, hwalked.nearest, fun p hp ↦ hwalked.extends_ ?_, hwalked.length_le,
          hwalked.stopped⟩
        exact mem_insertNew.mpr (.inl ((hmem p).mpr (.inl hp)))
    · rw [if_neg hfull]
      exact ⟨chosen, rfl, hwithin.nearest, List.Subset.refl chosen, hlen, .inl (by omega)⟩

/-- Next to the device on either side. -/
private theorem neighbours_within (hpos : 0 < (around me (me :: peers)).length) :
    Within me (me :: peers) 2
      (insertNew (around me (me :: peers))[(around me (me :: peers)).length - 1]
        [(around me (me :: peers))[0]]) := by
  refine Within.zero.widen hpos (nodup_insertNew (List.nodup_singleton _)) fun p ↦ ?_
  rw [mem_insertNew, List.mem_singleton]
  simp

/-- They are two unless there is only one other member. -/
private theorem le_length_neighbours (hpos : 0 < (around me (me :: peers)).length) :
    min 2 (around me (me :: peers)).length ≤
      (insertNew (around me (me :: peers))[(around me (me :: peers)).length - 1]
        [(around me (me :: peers))[0]]).length := by
  by_cases hone : (around me (me :: peers)).length = 1
  · have hle := (length_insertNew_le (around me (me :: peers))[(around me (me :: peers)).length - 1]
      [(around me (me :: peers))[0]]).1
    rw [List.length_singleton] at hle
    omega
  · have hne : (around me (me :: peers))[(around me (me :: peers)).length - 1] ≠
        (around me (me :: peers))[0] := by
      rw [ne_eq, (nodup_around me (me :: peers)).getElem_inj_iff]
      omega
    rw [insertNew, if_neg (by simpa using hne), List.length_append]
    exact Nat.min_le_left _ _

/-- More peers than the preferred count: the walk from the two neighbours. -/
private theorem selectRingNeighbors_of_lt {n : UInt32} (hnot : me ∉ peers)
    (hlt : n.toNat < peers.length) :
    ∃ (hpos : 0 < (around me (me :: peers)).length) (xs : List String),
      selectRingNeighbors me peers n = some xs ∧
      Walked me peers n.toNat
        (insertNew (around me (me :: peers))[(around me (me :: peers)).length - 1]
          [(around me (me :: peers))[0]]) xs := by
  have hne : peers ≠ [] := List.ne_nil_of_length_pos (Nat.zero_lt_of_lt hlt)
  obtain ⟨peer, hpeer⟩ := List.exists_mem_of_ne_nil peers hne
  have hpos : 0 < (around me (me :: peers)).length :=
    List.length_pos_of_mem (mem_around.mpr ⟨List.mem_cons_of_mem me hpeer, fun heq ↦
      hnot (heq ▸ hpeer)⟩)
  have hidx : ∃ i, (circle (me :: peers)).findIdx? (· == me) = some i := by
    rw [← Option.isSome_iff_exists, List.findIdx?_isSome, List.any_eq_true]
    exact ⟨me, mem_circle.mpr List.mem_cons_self, beq_self_eq_true me⟩
  obtain ⟨i, hi⟩ := hidx
  have hlen := length_circle hi
  have hnext := getElem?_clockwise hi hpos
  have hprev := getElem?_counterclockwise hi hpos (by omega)
  have htwo : (insertNew (around me (me :: peers))[(around me (me :: peers)).length - 1]
      [(around me (me :: peers))[0]]).length ≤ max n.toNat 2 := by
    have hle := (length_insertNew_le (around me (me :: peers))[
      (around me (me :: peers)).length - 1] [(around me (me :: peers))[0]]).2
    rw [List.length_singleton] at hle
    omega
  have hleft : (circle (me :: peers)).length - 2 + 1 = (around me (me :: peers)).length := by
    omega
  obtain ⟨xs, hxs, hwalked⟩ := ringWalk_spec hi (neighbours_within hpos) hleft htwo
  refine ⟨hpos, xs, ?_, hwalked⟩
  have hlong : 1 < (circle (me :: peers)).length := by omega
  simp only [Nat.zero_add] at hnext hprev
  unfold selectRingNeighbors
  rw [circle_eq]
  simp only [if_neg hne, if_neg (Nat.not_le.mpr hlt), hi, Option.bind_eq_bind, Option.bind_some,
    if_pos hlong, hnext, hprev, Option.pure_def, Nat.sub_zero]
  exact hxs

/-- No more peers than the preferred count: all of them. -/
private theorem selectRingNeighbors_of_le {n : UInt32} (hle : peers.length ≤ n.toNat) :
    selectRingNeighbors me peers n = some peers.dedup := by
  unfold selectRingNeighbors
  by_cases hnil : peers = []
  · simp [hnil]
  · simp only [if_neg hnil, if_pos hle]

/-- All peers are the nearest ones. -/
private theorem nearest_dedup (hnot : me ∉ peers) : Nearest me (me :: peers) peers.dedup where
  nodup := List.nodup_dedup peers
  mem_around p hp := by
    rw [List.mem_dedup] at hp
    exact mem_around.mpr ⟨List.mem_cons_of_mem me hp, fun heq ↦ hnot (heq ▸ hp)⟩
  rank_lt p _ q hq hnotin := by
    have hq := mem_around.mp hq
    exact absurd (List.mem_dedup.mpr (List.mem_of_ne_of_mem hq.2 hq.1)) hnotin

end Walk

/-- The two members next to `me` on the ring with `peers`. -/
def Adjoins (me : String) (peers : List String) (p : String) : Prop :=
  clockwise me (me :: peers) p = 1 ∨ counterclockwise me (me :: peers) p = 1

section Selection

variable {me : String} {peers : List String} {n : UInt32}

/-- The selector keeps the nearest members, the two adjoining ones always among them. -/
theorem selectRingNeighbors_spec (hnot : me ∉ peers) :
    ∃ xs, selectRingNeighbors me peers n = some xs ∧ Nearest me (me :: peers) xs ∧
      ∀ p ∈ peers, Adjoins me peers p → p ∈ xs := by
  by_cases hle : peers.length ≤ n.toNat
  · refine ⟨peers.dedup, selectRingNeighbors_of_le hle, nearest_dedup hnot, fun p hp _ ↦ ?_⟩
    exact List.mem_dedup.mpr hp
  · obtain ⟨hpos, xs, hxs, hwalked⟩ := selectRingNeighbors_of_lt (n := n) hnot (by omega)
    refine ⟨xs, hxs, hwalked.nearest, fun p hp hadjoins ↦ hwalked.extends_ ?_⟩
    have hp : p ∈ around me (me :: peers) :=
      mem_around.mpr ⟨List.mem_cons_of_mem me hp, fun heq ↦ hnot (heq ▸ hp)⟩
    refine ((neighbours_within hpos).mem_iff p).mpr ⟨hp, ?_⟩
    unfold Adjoins at hadjoins
    omega

/-- How many it keeps. -/
theorem length_selectRingNeighbors (hnodup : peers.Nodup) (hnot : me ∉ peers) {xs : List String}
    (h : selectRingNeighbors me peers n = some xs) :
    xs.length = if n.toNat < peers.length then min (max n.toNat 2) peers.length
      else peers.length := by
  split
  · next hlt =>
    obtain ⟨hpos, ys, hys, hwalked⟩ := selectRingNeighbors_of_lt hnot hlt
    obtain rfl : ys = xs := Option.some.inj (hys.symm.trans h)
    have hperm : (around me (me :: peers)).Perm peers := by
      rw [List.perm_ext_iff_of_nodup (nodup_around _ _) hnodup]
      intro p
      rw [mem_around, List.mem_cons]
      refine ⟨fun hp ↦ hp.1.resolve_left hp.2, fun hp ↦ ⟨.inr hp, fun heq ↦ hnot (heq ▸ hp)⟩⟩
    have hsub : ys.length ≤ (around me (me :: peers)).length :=
      (hwalked.nearest.nodup.subperm hwalked.nearest.mem_around).length_le
    have hext := ((neighbours_within hpos).nodup.subperm hwalked.extends_).length_le
    have htwo := le_length_neighbours hpos
    have hmost := hwalked.length_le
    have hstopped : n.toNat ≤ ys.length ∨ ys.length = (around me (me :: peers)).length :=
      hwalked.stopped.imp_right List.Perm.length_eq
    have hlen := hperm.length_eq
    omega
  · next hle =>
    rw [selectRingNeighbors_of_le (by omega), Option.some.injEq] at h
    rw [← h, hnodup.dedup]

end Selection

/-! ### Edges -/

/-- Between members, a member looks at the others. -/
theorem ringOthers_of_mem {all : List String} {a b : String} (ha : a ∈ all) (hb : b ∈ all)
    (me : String) : ringOthers all a b me = all.filter (· != me) := by
  have hskip : ∀ x ∈ all, ¬ (x ≠ me ∧ x ∉ all.filter (· != me)) := by
    rintro x hx ⟨hne, hnot⟩
    exact hnot (List.mem_filter.mpr ⟨hx, by simpa using hne⟩)
  simp only [ringOthers, List.foldl_cons, List.foldl_nil, if_neg (hskip a ha),
    if_neg (hskip b hb)]

/-- Each end of a pair adds only the other one to those it looks at, whoever is named first. -/
private theorem ringOthers_comm (all : List String) (a b : String) :
    ringOthers all a b a = ringOthers all b a a ∧
      ringOthers all a b b = ringOthers all b a b := by
  constructor <;> simp [ringOthers]

/-- An edge is seen from both ends. -/
theorem ringEdge_symm (n : UInt32) (a b : String) (all : List String) :
    ringEdge n a b all = ringEdge n b a all := by
  rw [ringEdge, ringEdge, (ringOthers_comm all a b).1, (ringOthers_comm all a b).2, Bool.or_comm]

/-- The connections that should exist between the members. -/
def ringGraph (n : UInt32) (all : List String) : SimpleGraph String where
  Adj a b := a ≠ b ∧ a ∈ all ∧ b ∈ all ∧ ringEdge n a b all = true
  symm := ⟨fun _ _ h ↦ ⟨h.1.symm, h.2.2.1, h.2.1, by rw [ringEdge_symm, h.2.2.2]⟩⟩
  loopless := ⟨fun _ h ↦ h.1 rfl⟩

/-- A member is joined to the next one. -/
theorem adj_next {n : UInt32} {all : List String} {a b : String} (ha : a ∈ all) (hb : b ∈ all)
    (h : (around a all).head? = some b) : (ringGraph n all).Adj a b := by
  have hmem : b ∈ around a all := List.mem_of_head? h
  have hne : b ≠ a := (mem_around.mp hmem).2
  have hothers : around a (a :: all.filter (· != a)) = around a all := by
    apply around_congr
    intro p hp
    simp [hp]
  have hpeer : b ∈ all.filter (· != a) := List.mem_filter.mpr ⟨hb, by simpa using hne⟩
  have hfirst : clockwise a (a :: all.filter (· != a)) b = 1 := by
    obtain ⟨rest, hrest⟩ : ∃ rest, around a all = b :: rest := List.head?_eq_some_iff.mp h
    rw [clockwise, hothers, hrest, List.idxOf_cons_self]
  have hself : a ∉ all.filter (· != a) := by simp
  obtain ⟨xs, hxs, -, hadjoining⟩ := selectRingNeighbors_spec (n := n) hself
  refine ⟨hne.symm, ha, hb, ?_⟩
  rw [ringEdge, ringOthers_of_mem ha hb, hxs, Option.getD_some, Bool.or_eq_true,
    List.contains_iff_mem]
  exact .inl (hadjoining b hpeer (.inl hfirst))

/-! ### The selector as a whole -/

/-- With more peers than the preferred count, the selector keeps that many of them, but two if
the count is less and there are two, and otherwise all; they are the nearest ones, with both
adjoining members among them. An edge is seen from both ends, and the edges connect every
membership. -/
theorem ring_selects_nearest (n : UInt32) :
    (∀ (me : String) (peers : List String), peers.Nodup → me ∉ peers →
      ∃ chosen, selectRingNeighbors me peers n = some chosen ∧
        Nearest me (me :: peers) chosen ∧
        chosen.length = (if n.toNat < peers.length then min (max n.toNat 2) peers.length
          else peers.length) ∧
        ∀ p ∈ peers, Adjoins me peers p → p ∈ chosen) ∧
    (∀ (a b : String) (all : List String), ringEdge n a b all = ringEdge n b a all) ∧
    ∀ (all : List String), ∀ a ∈ all, ∀ b ∈ all, (ringGraph n all).Reachable a b := by
  refine ⟨fun me peers hnodup hnot ↦ ?_, ringEdge_symm n, fun all a ha b hb ↦ ?_⟩
  · obtain ⟨chosen, hchosen, hnearest, hadjoining⟩ := selectRingNeighbors_spec (n := n) hnot
    exact ⟨chosen, hchosen, hnearest, length_selectRingNeighbors hnodup hnot hchosen, hadjoining⟩
  · exact reachable_of_next (fun x hx y hy hnext ↦ adj_next hx hy hnext) ha hb

/-- Three of the four others on a ring of five. -/
theorem ring_of_five_selects_three :
    (["b", "c", "d", "e"] : List String).Nodup ∧ "a" ∉ ["b", "c", "d", "e"] ∧
    ∃ chosen, selectRingNeighbors "a" ["b", "c", "d", "e"] 3 = some chosen ∧
      Nearest "a" ["a", "b", "c", "d", "e"] chosen ∧ chosen.length = 3 ∧
      ∀ p ∈ ["b", "c", "d", "e"], Adjoins "a" ["b", "c", "d", "e"] p → p ∈ chosen :=
  ⟨by decide, by decide,
    (ring_selects_nearest 3).1 "a" ["b", "c", "d", "e"] (by decide) (by decide)⟩

/-- A single peer cannot be two, though the preferred count of zero is exceeded. -/
theorem single_peer_is_one :
    ¬ ∀ (n : UInt32) (me : String) (peers : List String), peers.Nodup → me ∉ peers →
      ∃ chosen, selectRingNeighbors me peers n = some chosen ∧
        chosen.length = if n.toNat < peers.length then max n.toNat 2 else peers.length := by
  intro h
  obtain ⟨chosen, hchosen, htwo⟩ := h 0 "a" ["b"] (by decide) (by decide)
  have hone := length_selectRingNeighbors (by decide) (by decide) hchosen
  rw [htwo] at hone
  revert hone
  decide

end MyOwnMesh
