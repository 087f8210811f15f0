import MyOwnMesh.Engine.Operations

/-!
# The canonical order of co-signatures

`crates/myownmesh-core/src/engine/governance.rs:1435–1469`. A ratified entry lists its proposer
first and the other signers by id, each with its own signature, so that the order in which the
co-signatures came in leaves no trace in it.
-/

namespace MyOwnMesh

open Lib

variable {proposer : String} {signers signatures : List String}

/-- The sort of the pairs. -/
private def sortPairs (proposer : String) (pairs : List (String × String)) :
    List (String × String) :=
  pairs.insertionSort fun a b ↦ signerRank proposer a.1 ≤ signerRank proposer b.1

private theorem canonicalizeSigners_eq (h : signers.length = signatures.length) :
    canonicalizeSigners proposer signers signatures =
      (sortPairs proposer (signers.zip signatures)).unzip := by
  rw [canonicalizeSigners, if_neg (not_not.mpr h), sortPairs]

private theorem pairwise_sortPairs (proposer : String) (pairs : List (String × String)) :
    (sortPairs proposer pairs).Pairwise fun a b ↦
      signerRank proposer a.1 ≤ signerRank proposer b.1 := by
  have : Std.Total fun a b : String × String ↦
      signerRank proposer a.1 ≤ signerRank proposer b.1 := ⟨fun _ _ ↦ le_total _ _⟩
  have : IsTrans (String × String) fun a b ↦
      signerRank proposer a.1 ≤ signerRank proposer b.1 := ⟨fun _ _ _ ↦ le_trans⟩
  exact List.pairwise_insertionSort _ pairs

/-- Signers of one rank are one signer. -/
theorem signerRank_inj {a b : String} (h : signerRank proposer a = signerRank proposer b) :
    a = b := congrArg Prod.snd (toLex.injective h)

/-- Nobody ranks before the proposer. -/
theorem eq_of_signerRank_le {a : String}
    (h : signerRank proposer a ≤ signerRank proposer proposer) : a = proposer := by
  rw [signerRank, signerRank, if_pos rfl, Prod.Lex.toLex_le_toLex] at h
  by_contra hne
  rw [if_neg hne] at h
  rcases h with h | h
  · exact absurd h (Nat.not_lt_zero 1)
  · exact absurd h.1 Nat.one_ne_zero

/-! ### What the order keeps -/

/-- Every signature stays with its signer. -/
theorem perm_zip_canonicalizeSigners (proposer : String)
    (h : signers.length = signatures.length) :
    ((canonicalizeSigners proposer signers signatures).1.zip
      (canonicalizeSigners proposer signers signatures).2).Perm (signers.zip signatures) := by
  rw [canonicalizeSigners_eq h, List.zip_unzip]
  exact List.perm_insertionSort _ _

theorem length_canonicalizeSigners (proposer : String)
    (h : signers.length = signatures.length) :
    (canonicalizeSigners proposer signers signatures).1.length =
      (canonicalizeSigners proposer signers signatures).2.length := by
  rw [canonicalizeSigners_eq h, List.unzip_fst, List.unzip_snd, List.length_map, List.length_map]

/-- The signers are the same. -/
theorem perm_canonicalizeSigners (proposer : String) (h : signers.length = signatures.length) :
    (canonicalizeSigners proposer signers signatures).1.Perm signers := by
  have hpairs := (perm_zip_canonicalizeSigners proposer h).map Prod.fst
  rw [List.map_fst_zip (length_canonicalizeSigners proposer h).le, List.map_fst_zip h.le] at hpairs
  exact hpairs

/-- The proposer comes first. -/
theorem head?_canonicalizeSigners (h : signers.length = signatures.length)
    (hmem : proposer ∈ signers) :
    (canonicalizeSigners proposer signers signatures).1.head? = some proposer := by
  have hin := (perm_canonicalizeSigners proposer h).mem_iff.mpr hmem
  rw [canonicalizeSigners_eq h, List.unzip_fst] at hin ⊢
  obtain ⟨e, he, hproposer⟩ := List.mem_map.mp hin
  have hsorted := pairwise_sortPairs proposer (signers.zip signatures)
  cases hcases : sortPairs proposer (signers.zip signatures) with
  | nil =>
    rw [hcases] at he
    exact absurd he List.not_mem_nil
  | cons first rest =>
    rw [hcases] at he hsorted
    have hle : signerRank proposer first.1 ≤ signerRank proposer e.1 := by
      rcases List.mem_cons.mp he with rfl | he
      · exact le_refl _
      · exact (List.pairwise_cons.mp hsorted).1 e he
    rw [hproposer] at hle
    rw [List.map_cons, List.head?_cons, eq_of_signerRank_le hle]

/-- The order in which different signers came in does not matter. -/
theorem canonicalizeSigners_of_perm {signers' signatures' : List String} (hnodup : signers.Nodup)
    (h : signers.length = signatures.length) (h' : signers'.length = signatures'.length)
    (hperm : (signers'.zip signatures').Perm (signers.zip signatures)) :
    canonicalizeSigners proposer signers' signatures' =
      canonicalizeSigners proposer signers signatures := by
  have hkeys : ((signers.zip signatures).map Prod.fst).Nodup := by
    rw [List.map_fst_zip h.le]
    exact hnodup
  have hsort : sortPairs proposer (signers'.zip signatures') =
      sortPairs proposer (signers.zip signatures) := by
    have hall : (sortPairs proposer (signers'.zip signatures')).Perm
        (sortPairs proposer (signers.zip signatures)) :=
      (List.perm_insertionSort _ _).trans (hperm.trans (List.perm_insertionSort _ _).symm)
    refine hall.eq_of_pairwise ?_ (pairwise_sortPairs proposer _) (pairwise_sortPairs proposer _)
    intro a b ha hb hab hba
    have ha : a ∈ signers.zip signatures :=
      hperm.mem_iff.mp ((List.mem_insertionSort _).mp ha)
    have hb : b ∈ signers.zip signatures := (List.mem_insertionSort _).mp hb
    exact List.inj_on_of_nodup_map hkeys ha hb (signerRank_inj (le_antisymm hab hba))
  rw [canonicalizeSigners_eq h, canonicalizeSigners_eq h', hsort]

/-- The signature check accepts the reordered entry exactly when it accepts the original. -/
theorem verifyTransitionSignatures_canonicalizeSigners (P : Primitives) (networkId : String)
    (t : Transition) (proposer : String) :
    verifyTransitionSignatures P networkId
        { t with
          signers := (canonicalizeSigners proposer t.signers t.signatures).1
          signatures := (canonicalizeSigners proposer t.signers t.signatures).2 } = .ok () ↔
      verifyTransitionSignatures P networkId t = .ok () := by
  by_cases h : t.signers.length = t.signatures.length
  · have hnil : (canonicalizeSigners proposer t.signers t.signatures).1 ≠ [] ↔ t.signers ≠ [] := by
      rw [ne_eq, ne_eq, List.perm_nil.symm, List.perm_nil.symm,
        (perm_canonicalizeSigners proposer h).congr_left]
    simp only [verifyTransitionSignatures_ok_iff, length_canonicalizeSigners proposer h, h, hnil,
      (perm_zip_canonicalizeSigners proposer h).mem_iff]
  · rw [canonicalizeSigners, if_pos h]

/-! ### The canonical form -/

/-- Lists of one length: their canonical form has the same pairs, the proposer first where it
signed, and is the same for every order in which different signers came in. Whatever the
lengths, the signature check accepts the form exactly when it accepts the lists. -/
theorem canonicalizeSigners_canonical (P : Primitives) (proposer : String)
    (signers signatures : List String) :
    (signers.length = signatures.length →
      ((canonicalizeSigners proposer signers signatures).1.length =
          (canonicalizeSigners proposer signers signatures).2.length ∧
        ((canonicalizeSigners proposer signers signatures).1.zip
          (canonicalizeSigners proposer signers signatures).2).Perm (signers.zip signatures)) ∧
      (proposer ∈ signers →
        (canonicalizeSigners proposer signers signatures).1.head? = some proposer) ∧
      (signers.Nodup → ∀ signers' signatures' : List String,
        signers'.length = signatures'.length →
        (signers'.zip signatures').Perm (signers.zip signatures) →
        canonicalizeSigners proposer signers' signatures' =
          canonicalizeSigners proposer signers signatures)) ∧
    ∀ (networkId : String) (at_ : UInt64) (variant : TransitionVariant),
      verifyTransitionSignatures P networkId
          ⟨at_, variant, (canonicalizeSigners proposer signers signatures).1,
            (canonicalizeSigners proposer signers signatures).2⟩ = .ok () ↔
        verifyTransitionSignatures P networkId ⟨at_, variant, signers, signatures⟩ = .ok () := by
  refine ⟨fun h ↦ ⟨⟨length_canonicalizeSigners proposer h, perm_zip_canonicalizeSigners proposer h⟩,
    head?_canonicalizeSigners h, fun hnodup signers' signatures' h' hperm ↦ ?_⟩,
    fun networkId at_ variant ↦ ?_⟩
  · exact canonicalizeSigners_of_perm hnodup h h' hperm
  · exact verifyTransitionSignatures_canonicalizeSigners P networkId
      ⟨at_, variant, signers, signatures⟩ proposer

/-- The proposer `b` and a co-signer, in either order. -/
theorem two_signers_canonical :
    (canonicalizeSigners "b" ["a", "b"] ["sa", "sb"]).1.head? = some "b" ∧
    canonicalizeSigners "b" ["b", "a"] ["sb", "sa"] =
      canonicalizeSigners "b" ["a", "b"] ["sa", "sb"] :=
  have h := (canonicalizeSigners_canonical seeded "b" ["a", "b"] ["sa", "sb"]).1 rfl
  ⟨h.2.1 (by decide), h.2.2 (by decide) ["b", "a"] ["sb", "sa"] rfl (by decide)⟩

end MyOwnMesh
