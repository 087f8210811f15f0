import MyOwnMesh.Lib.Best
import MyOwnMesh.Topology

/-!
# Who moves when a hub leaves

`crates/myownmesh-core/src/topology/hubs.rs`. A spoke attaches to the best hubs of its own
ranking. A ranking of fewer hubs differs from it by the missing ones only, so the departure of
a hub concerns its own spokes and nobody else.
-/

namespace MyOwnMesh

open Lib Lib.Best

variable (P : Primitives)

/-- A hub with its score for a spoke, both without their display suffixes; `hubs.rs:48–51`. -/
def scored (spoke h : String) : Nat × String :=
  (rendezvousScore P (pubkeyPart spoke) (pubkeyPart h), pubkeyPart h)

/-- The higher score first, the lower id of two that score the same; `hubs.rs:55`. -/
def ranksBefore (a b : Nat × String) : Bool :=
  decide (b.1 < a.1) || (a.1 == b.1 && decide (a.2 ≤ b.2))

theorem ranking_ranksBefore : Ranking ranksBefore where
  trans a b c hab hbc := by
    simp only [ranksBefore, Bool.or_eq_true, decide_eq_true_eq, Bool.and_eq_true,
      beq_iff_eq] at hab hbc ⊢
    rcases hab with hab | ⟨hab, hab'⟩
    · left
      rcases hbc with hbc | ⟨hbc, -⟩
      · exact Nat.lt_trans hbc hab
      · rwa [← hbc]
    · rcases hbc with hbc | ⟨hbc, hbc'⟩
      · left
        rwa [hab]
      · exact .inr ⟨hab.trans hbc, String.le_trans hab' hbc'⟩
  total a b := by
    simp only [ranksBefore, Bool.or_eq_true, decide_eq_true_eq, Bool.and_eq_true, beq_iff_eq]
    rcases Nat.lt_trichotomy a.1 b.1 with h | h | h
    · exact .inr (.inl h)
    · rcases String.le_total a.2 b.2 with h' | h'
      · exact .inl (.inr ⟨h, h'⟩)
      · exact .inr (.inr ⟨h.symm, h'⟩)
    · exact .inl (.inl h)
  antisymm a b hab hba := by
    simp only [ranksBefore, Bool.or_eq_true, decide_eq_true_eq, Bool.and_eq_true,
      beq_iff_eq] at hab hba
    have hscore : a.1 = b.1 := by omega
    have hid : a.2 = b.2 := by
      have hle := hab.resolve_left (by omega)
      have hge := hba.resolve_left (by omega)
      exact String.le_antisymm hle.2 hge.2
    exact Prod.ext hscore hid

section Hubs

variable {hubs : List String} (r : UInt32) (spoke : String)

/-- The best of the ranking, by their ids. -/
theorem hubsFor_eq (hubs : List String) : hubsFor P hubs r spoke =
    (best ranksBefore (max r.toNat 1) (hubs.map (scored P spoke))).map Prod.snd := rfl

/-- A spoke is assigned as many hubs as it asks for, if there are that many, but always one. -/
theorem length_hubsFor (hubs : List String) :
    (hubsFor P hubs r spoke).length = min (max r.toNat 1) hubs.length := by
  rw [hubsFor_eq, List.length_map, length_best, List.length_map]

/-- The order of the configuration does not matter. -/
theorem hubsFor_of_perm {hubs' : List String} (h : hubs'.Perm hubs) :
    hubsFor P hubs' r spoke = hubsFor P hubs r spoke := by
  rw [hubsFor_eq, hubsFor_eq, best_eq_of_perm ranking_ranksBefore (h.map (scored P spoke))]

/-- Hubs that agree in the score agree in the key. -/
private theorem scored_inj {h h' : String} (heq : scored P spoke h = scored P spoke h') :
    pubkeyPart h = pubkeyPart h' := congrArg Prod.snd heq

section Distinct

variable (hkeys : (hubs.map pubkeyPart).Nodup)
include hkeys

private theorem nodup_scored : (hubs.map (scored P spoke)).Nodup := by
  rw [List.nodup_map_iff_inj_on (hkeys.of_map _)]
  intro a ha b hb heq
  exact List.inj_on_of_nodup_map hkeys ha hb (scored_inj P spoke heq)

/-- Of the best, no two have the same id. -/
private theorem snd_inj_on {a b : Nat × String} (ha : a ∈ hubs.map (scored P spoke))
    (hb : b ∈ hubs.map (scored P spoke)) (h : a.2 = b.2) : a = b := by
  obtain ⟨x, hx, rfl⟩ := List.mem_map.mp ha
  obtain ⟨y, hy, rfl⟩ := List.mem_map.mp hb
  rw [List.inj_on_of_nodup_map hkeys hx hy h]

theorem nodup_hubsFor : (hubsFor P hubs r spoke).Nodup := by
  rw [hubsFor_eq]
  refine (nodup_best (nodup_scored P spoke hkeys)).map_on ?_
  intro a ha b hb h
  exact snd_inj_on P spoke hkeys (mem_of_mem_best ha) (mem_of_mem_best hb) h

/-- A hub is assigned exactly when it is among the best. -/
private theorem mem_hubsFor_iff {h : String} (hh : h ∈ hubs) :
    pubkeyPart h ∈ hubsFor P hubs r spoke ↔
      scored P spoke h ∈ best ranksBefore (max r.toNat 1) (hubs.map (scored P spoke)) := by
  rw [hubsFor_eq, List.mem_map]
  constructor
  · rintro ⟨e, he, hsame⟩
    rwa [← snd_inj_on P spoke hkeys (mem_of_mem_best he) (List.mem_map_of_mem hh) hsame]
  · exact fun he ↦ ⟨_, he, rfl⟩

/-- Removing a hub removes its score. -/
private theorem map_scored_erase {h : String} (hh : h ∈ hubs) :
    (hubs.erase h).map (scored P spoke) = (hubs.map (scored P spoke)).erase (scored P spoke h) := by
  rw [(hkeys.of_map _).erase_eq_filter, (nodup_scored P spoke hkeys).erase_eq_filter,
    List.filter_map]
  congr 1
  refine List.filter_congr fun x hx ↦ ?_
  simp only [Function.comp_apply, bne, Bool.not_inj_iff, Bool.beq_eq_decide_eq, decide_eq_decide]
  refine ⟨fun heq ↦ by rw [heq], fun heq ↦ ?_⟩
  exact List.inj_on_of_nodup_map hkeys hx hh (scored_inj P spoke heq)

/-- The spokes of another hub keep theirs. -/
theorem hubsFor_erase_of_not_mem {h : String} (hh : h ∈ hubs)
    (hnot : pubkeyPart h ∉ hubsFor P hubs r spoke) :
    hubsFor P (hubs.erase h) r spoke = hubsFor P hubs r spoke := by
  rw [mem_hubsFor_iff P r spoke hkeys hh] at hnot
  rw [hubsFor_eq, hubsFor_eq, map_scored_erase P spoke hkeys hh,
    best_erase_of_not_mem ranking_ranksBefore hnot]

/-- Its own spokes turn to the next hub of their ranking. -/
theorem hubsFor_erase_of_mem {h : String} (hh : h ∈ hubs)
    (hmem : pubkeyPart h ∈ hubsFor P hubs r spoke) :
    ∃ next : Option String,
      hubsFor P (hubs.erase h) r spoke =
        (hubsFor P hubs r spoke).erase (pubkeyPart h) ++ next.toList ∧
      ∀ key ∈ next, key ∉ hubsFor P hubs r spoke ∧ ∃ hub ∈ hubs, pubkeyPart hub = key := by
  rw [mem_hubsFor_iff P r spoke hkeys hh] at hmem
  obtain ⟨rest, hrest⟩ : ∃ rest, rest = (((hubs.map (scored P spoke)).mergeSort
      ranksBefore).drop (max r.toNat 1)).take 1 := ⟨_, rfl⟩
  have hone : rest.length ≤ 1 := hrest ▸ List.length_take_le 1 _
  have herase : ((best ranksBefore (max r.toNat 1) (hubs.map (scored P spoke))).erase
      (scored P spoke h)).map Prod.snd = (hubsFor P hubs r spoke).erase (pubkeyPart h) := by
    have hnodup : (best ranksBefore (max r.toNat 1) (hubs.map (scored P spoke))).Nodup :=
      nodup_best (nodup_scored P spoke hkeys)
    rw [hnodup.erase_eq_filter, (nodup_hubsFor P r spoke hkeys).erase_eq_filter, hubsFor_eq,
      List.filter_map]
    congr 1
    refine List.filter_congr fun e he ↦ ?_
    simp only [Function.comp_apply, bne, Bool.not_inj_iff, Bool.beq_eq_decide_eq,
      decide_eq_decide]
    refine ⟨fun heq ↦ by rw [heq]; rfl, fun heq ↦ ?_⟩
    exact snd_inj_on P spoke hkeys (mem_of_mem_best he) (List.mem_map_of_mem hh) heq
  refine ⟨(rest.map Prod.snd).head?, ?_, ?_⟩
  · rw [← herase, hubsFor_eq, map_scored_erase P spoke hkeys hh,
      best_erase_of_mem ranking_ranksBefore hmem, ← hrest, List.map_append]
    match rest, hone with
    | [], _ => rfl
    | [e], _ => rfl
  · intro key hkey
    obtain ⟨e, he, rfl⟩ := List.mem_map.mp (List.mem_of_head? hkey)
    rw [hrest] at he
    obtain ⟨hmem', hnot⟩ := not_mem_best_of_next (nodup_scored P spoke hkeys) he
    obtain ⟨hub, hhub, rfl⟩ := List.mem_map.mp hmem'
    exact ⟨(mem_hubsFor_iff P r spoke hkeys hhub).not.mpr hnot, hub, hhub, rfl⟩

end Distinct

/-- An edge is seen from both ends. -/
theorem hubEdge_symm (hubs : List String) (a b : String) :
    hubEdge P hubs r a b = hubEdge P hubs r b a := by
  unfold hubEdge
  cases isHub hubs a <;> cases isHub hubs b <;> rfl

end Hubs

/-! ### The assignment as a whole -/

/-- Hubs with keys of their own: the departure of one leaves the assignment of every spoke as it
was, but that its own spokes exchange it for at most one other; every spoke is assigned as many
different hubs as it asks for, as long as there are that many; the order of the hubs does not
matter; and an edge is seen from both ends. -/
theorem rendezvous_moves_only_who_must (hubs : List String) (r : UInt32)
    (hkeys : (hubs.map pubkeyPart).Nodup) :
    (∀ (spoke : String), ∀ h ∈ hubs,
      if pubkeyPart h ∈ hubsFor P hubs r spoke then
        ∃ next : Option String,
          hubsFor P (hubs.erase h) r spoke =
            (hubsFor P hubs r spoke).erase (pubkeyPart h) ++ next.toList ∧
          ∀ key ∈ next, key ∉ hubsFor P hubs r spoke ∧ ∃ hub ∈ hubs, pubkeyPart hub = key
      else hubsFor P (hubs.erase h) r spoke = hubsFor P hubs r spoke) ∧
    (∀ spoke : String, (hubsFor P hubs r spoke).Nodup ∧
      (hubsFor P hubs r spoke).length = min (max r.toNat 1) hubs.length ∧
      ∀ key ∈ hubsFor P hubs r spoke, ∃ hub ∈ hubs, pubkeyPart hub = key) ∧
    (∀ hubs' : List String, hubs'.Perm hubs → ∀ spoke : String,
      hubsFor P hubs' r spoke = hubsFor P hubs r spoke) ∧
    ∀ a b : String, hubEdge P hubs r a b = hubEdge P hubs r b a := by
  refine ⟨fun spoke h hh ↦ ?_, fun spoke ↦ ⟨nodup_hubsFor P r spoke hkeys,
    length_hubsFor P r spoke hubs, fun _ ↦ exists_hub_of_mem_hubsFor P⟩,
    fun hubs' hperm spoke ↦ hubsFor_of_perm P r spoke hperm, hubEdge_symm P r hubs⟩
  split
  · next hmem => exact hubsFor_erase_of_mem P r spoke hkeys hh hmem
  · next hnot => exact hubsFor_erase_of_not_mem P r spoke hkeys hh hnot

def threeHubs : List String := ["hub-a", "hub-b", "hub-c"]

theorem hubsFor_threeHubs : hubsFor seeded threeHubs 2 "spoke" = ["hub-a", "hub-b"] := by
  unfold hubsFor
  dsimp only
  rw [List.mergeSort_of_pairwise (by decide +kernel)]
  decide +kernel

/-- A spoke is attached to the first two of three hubs. Where one of them leaves, it keeps the other
one and gets the third; it stays where it is when the third one leaves. -/
theorem three_hubs_move_only_who_must :
    hubsFor seeded threeHubs 2 "spoke" = ["hub-a", "hub-b"] ∧
    hubsFor seeded ["hub-b", "hub-c"] 2 "spoke" = ["hub-b", "hub-c"] ∧
    hubsFor seeded ["hub-a", "hub-b"] 2 "spoke" = ["hub-a", "hub-b"] ∧
    hubsFor seeded ["hub-c", "hub-a", "hub-b"] 2 "spoke" = ["hub-a", "hub-b"] ∧
    hubEdge seeded threeHubs 2 "spoke" "hub-c" = hubEdge seeded threeHubs 2 "hub-c" "spoke" := by
  obtain ⟨hmoves, -, hperm, hsymm⟩ :=
    rendezvous_moves_only_who_must seeded threeHubs 2 (by decide)
  obtain ⟨-, hlength, -⟩ :=
    (rendezvous_moves_only_who_must seeded ["hub-b", "hub-c"] 2 (by decide)).2.1 "spoke"
  have hfirst := hmoves "spoke" "hub-a" (by decide)
  have hthird := hmoves "spoke" "hub-c" (by decide)
  rw [hubsFor_threeHubs] at hfirst hthird
  refine ⟨hubsFor_threeHubs, ?_, hthird, ?_, hsymm "spoke" "hub-c"⟩
  · obtain ⟨next, hnext, hnew⟩ := hfirst
    replace hnext : hubsFor seeded ["hub-b", "hub-c"] 2 "spoke" = "hub-b" :: next.toList := hnext
    rw [hnext] at hlength
    cases next with
    | none => cases hlength
    | some key =>
      obtain ⟨hother, hub, hhub, rfl⟩ := hnew key rfl
      simp only [threeHubs, List.mem_cons, List.not_mem_nil, or_false] at hhub
      rcases hhub with rfl | rfl | rfl
      · exact absurd (by decide) hother
      · exact absurd (by decide) hother
      · exact hnext
  · rw [hperm ["hub-c", "hub-a", "hub-b"] (by decide) "spoke"]
    exact hubsFor_threeHubs

end MyOwnMesh
