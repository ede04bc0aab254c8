import Mathlib.Tactic

/-!
# Counting the members of a changing list

Tasks are kept in a list by their index. When one of them changes or goes, the count of those
with a property changes by at most that one.
-/
namespace AnonGuard

section Tally
variable {α : Type*} {p : α → Bool} {l : List α} {i : ℕ} {a : α}

/-- One member goes. -/
lemma countP_eraseIdx_add (h : l[i]? = some a) :
    (l.eraseIdx i).countP p + (if p a then 1 else 0) = l.countP p := by
  obtain ⟨hlt, rfl⟩ := List.getElem?_eq_some_iff.mp h
  rw [← (List.getElem_cons_eraseIdx_perm hlt).countP_eq p, List.countP_cons]

/-- One member is replaced. -/
lemma countP_set_add (h : l[i]? = some a) (b : α) :
    (l.set i b).countP p + (if p a then 1 else 0) = l.countP p + (if p b then 1 else 0) := by
  have hlt := (List.getElem?_eq_some_iff.mp h).1
  have herase := countP_eraseIdx_add (p := p) h
  rw [(List.set_perm_cons_eraseIdx hlt b).countP_eq p, List.countP_cons]
  omega

/-- Members at different places are counted one by one. -/
lemma length_le_countP {ks : List ℕ} (hnodup : ks.Nodup)
    (h : ∀ k ∈ ks, ∃ a, l[k]? = some a ∧ p a = true) : ks.length ≤ l.countP p := by
  have hsub : ks ⊆ l.findIdxs p := by
    intro k hk
    obtain ⟨a, ha, hp⟩ := h k hk
    obtain ⟨hlt, rfl⟩ := List.getElem?_eq_some_iff.mp ha
    exact (List.mem_findIdxs_iff_pos_getElem hlt).mpr hp
  calc ks.length
    _ ≤ (l.findIdxs p).length := (List.subperm_of_subset hnodup hsub).length_le
    _ = l.countP p := List.length_findIdxs

end Tally

end AnonGuard
