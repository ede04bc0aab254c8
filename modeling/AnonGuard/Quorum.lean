import Mathlib.Data.Finset.Card
import Mathlib.Tactic

/-!
# Quorum intersection

Two sets of more than two thirds of all members share a member that is not among
fewer than one third.
-/
namespace AnonGuard

/-- More than two thirds of `n`. -/
def quorum (n : ℕ) : ℕ := 2 * n / 3 + 1

theorem exists_common_honest {α : Type*} [DecidableEq α] {all A B bad : Finset α} {t : ℕ}
    (hA : A ⊆ all) (hB : B ⊆ all) (hbad : 3 * bad.card < all.card) (ht : quorum all.card ≤ t)
    (htA : t ≤ A.card) (htB : t ≤ B.card) : ∃ x ∈ A ∩ B, x ∉ bad := by
  have hunion : (A ∪ B).card ≤ all.card := Finset.card_le_card (Finset.union_subset hA hB)
  have hsum := Finset.card_union_add_card_inter A B
  have hlt : bad.card < (A ∩ B).card := by
    unfold quorum at ht
    omega
  exact Finset.exists_mem_notMem_of_card_lt_card hlt

end AnonGuard
