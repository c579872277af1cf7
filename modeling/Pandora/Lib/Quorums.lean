import Mathlib

/-! # Quorums

Two sets of at least `q` out of `n` share at least `2 * q - n` elements (`card_inter_ge`), and some
two share no more (`exists_two_quorums`). -/

namespace Pandora.Lib.Quorums

open Finset

variable {α : Type} [DecidableEq α] {nodes A B : Finset α} {q : ℕ}

theorem card_inter_ge (hA : A ⊆ nodes) (hB : B ⊆ nodes) (hqA : q ≤ A.card) (hqB : q ≤ B.card) :
    2 * q ≤ nodes.card + (A ∩ B).card := by
  have hunion : (A ∪ B).card ≤ nodes.card := card_le_card (union_subset hA hB)
  have hcount := card_union_add_card_inter A B
  omega

theorem exists_two_quorums (hq : q ≤ nodes.card) :
    ∃ A B, A ⊆ nodes ∧ B ⊆ nodes ∧ A.card = q ∧ B.card = q ∧ (A ∩ B).card = 2 * q - nodes.card := by
  obtain ⟨A, hA, hcardA⟩ := exists_subset_card_eq hq
  have hrest : (nodes \ A).card = nodes.card - q := by
    rw [card_sdiff_of_subset hA, hcardA]
  by_cases hroom : q ≤ nodes.card - q
  · -- enough nodes are left for a disjoint quorum
    obtain ⟨B, hB, hcardB⟩ := exists_subset_card_eq (hroom.trans_eq hrest.symm)
    have hdisjoint : A ∩ B = ∅ := by
      rw [← disjoint_iff_inter_eq_empty]
      exact disjoint_of_subset_right hB disjoint_sdiff
    refine ⟨A, B, hA, hB.trans sdiff_subset, hcardA, hcardB, ?_⟩
    rw [hdisjoint, card_empty]
    omega
  · -- the second quorum takes all nodes that are left
    obtain ⟨B, hrestB, hB, hcardB⟩ := exists_subsuperset_card_eq
      (sdiff_subset : nodes \ A ⊆ nodes) (n := q) (by omega) hq
    have hunion : A ∪ B = nodes := by
      refine Finset.Subset.antisymm (union_subset hA hB) fun x hx => ?_
      by_cases hxA : x ∈ A
      · exact mem_union_left B hxA
      · exact mem_union_right A (hrestB (Finset.mem_sdiff.mpr ⟨hx, hxA⟩))
    have hcount := card_union_add_card_inter A B
    rw [hunion] at hcount
    exact ⟨A, B, hA, hB, hcardA, hcardB, by omega⟩

end Pandora.Lib.Quorums
