import Mathlib.Tactic

/-!
# Putting numbered items back in order

Items are sent in order and carry their number. A receiver releases the item that is next and
holds back some of the later ones, under keys that stand for their numbers. As long as it only
holds items that were sent, and releases the next one, what it has released is a beginning of
what was sent.
-/
namespace AnonGuard

section Resequencing
variable {κ α : Type*} {num : κ → ℕ} {sent released : List α} {next : ℕ} {held held' : κ → Option α}
  {k : κ} {a : α}

/-- The items below `next` are released. Every item that is held is a later one. -/
structure InSequence (num : κ → ℕ) (sent released : List α) (next : ℕ) (held : κ → Option α) :
    Prop where
  next_le : next ≤ sent.length
  released_eq : released = sent.take next
  held_sent : ∀ (k : κ) (a : α), held k = some a → next ≤ num k ∧ sent[num k]? = some a

namespace InSequence

theorem isPrefix (h : InSequence num sent released next held) : released <+: sent := by
  rw [h.released_eq]
  exact List.take_prefix next sent

theorem send (h : InSequence num sent released next held) (a : α) :
    InSequence num (sent ++ [a]) released next held := by
  refine ⟨?_, ?_, fun k b hb => ?_⟩
  · rw [List.length_append]
    exact h.next_le.trans (Nat.le_add_right _ _)
  · rw [List.take_append_of_le_length h.next_le, h.released_eq]
  · obtain ⟨hnext, hsent⟩ := h.held_sent k b hb
    refine ⟨hnext, ?_⟩
    rw [List.getElem?_append_left (List.getElem?_eq_some_iff.mp hsent).1, hsent]

/-- An item may be held if it was sent and is not released. -/
theorem hold (h : InSequence num sent released next held) (hnext : next ≤ num k)
    (ha : sent[num k]? = some a)
    (hheld : ∀ (j : κ) (b : α), held' j = some b → k = j ∧ b = a ∨ held j = some b) :
    InSequence num sent released next held' := by
  refine ⟨h.next_le, h.released_eq, fun j b hb => ?_⟩
  obtain ⟨rfl, rfl⟩ | hb := hheld j b hb
  · exact ⟨hnext, ha⟩
  · exact h.held_sent j b hb

/-- The next item may be released if it is held no longer. -/
theorem release (h : InSequence num sent released next held) (ha : sent[next]? = some a)
    (hheld : ∀ (j : κ) (b : α), held' j = some b → num j ≠ next ∧ held j = some b) :
    InSequence num sent (released ++ [a]) (next + 1) held' := by
  refine ⟨(List.getElem?_eq_some_iff.mp ha).1, ?_, fun j b hb => ?_⟩
  · rw [List.take_add_one, ha, ← h.released_eq, Option.toList_some]
  · obtain ⟨hne, hb⟩ := hheld j b hb
    obtain ⟨hnext, hsent⟩ := h.held_sent j b hb
    exact ⟨by omega, hsent⟩

end InSequence

end Resequencing

end AnonGuard
