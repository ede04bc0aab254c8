import Mathlib.Tactic

/-!
# Round robin over a changing set of keys

A round robin with a cursor visits the keys after the cursor first and then the others, each
part in order, and moves the cursor to the key that it serves. A key that waits is not passed
by the cursor, and the key that was served first comes after it, whatever keys are added or
removed in between.
-/
namespace AnonGuard

namespace RoundRobin
variable {α : Type*} [LinearOrder α] {cursor first x y : α} {keys : List α}

/-- The keys in the order in which they are visited. -/
def order (cursor : α) (keys : List α) : List α :=
  keys.filter (fun x => decide (x > cursor)) ++ keys.filter (fun x => decide (x ≤ cursor))

/-- One key is visited before another. -/
def Before (cursor x y : α) : Prop :=
  cursor < x ∧ x < y ∨ cursor < x ∧ y ≤ cursor ∨ x < y ∧ y ≤ cursor

lemma pairwise_order (h : keys.Pairwise (· < ·)) : (order cursor keys).Pairwise (Before cursor) := by
  refine List.pairwise_append.mpr ⟨?_, ?_, ?_⟩
  · refine (List.Pairwise.and_mem.mp (h.filter _)).imp ?_
    rintro x y ⟨hx, -, hlt⟩
    exact .inl ⟨of_decide_eq_true (List.mem_filter.mp hx).2, hlt⟩
  · refine (List.Pairwise.and_mem.mp (h.filter _)).imp ?_
    rintro x y ⟨-, hy, hlt⟩
    exact .inr (.inr ⟨hlt, of_decide_eq_true (List.mem_filter.mp hy).2⟩)
  · intro x hx y hy
    exact .inr (.inl ⟨of_decide_eq_true (List.mem_filter.mp hx).2,
      of_decide_eq_true (List.mem_filter.mp hy).2⟩)

lemma mem_order : x ∈ order cursor keys ↔ x ∈ keys := by
  rw [order, List.mem_append, List.mem_filter, List.mem_filter]
  constructor
  · rintro (⟨hx, -⟩ | ⟨hx, -⟩) <;> exact hx
  · intro hx
    by_cases hlt : x > cursor
    · exact .inl ⟨hx, decide_eq_true hlt⟩
    · exact .inr ⟨hx, decide_eq_true (not_lt.mp hlt)⟩

/-- The key that is served is the waiting one or comes before it. -/
lemma before_of_find {p : α → Bool} (h : keys.Pairwise (· < ·))
    (hfind : (order cursor keys).find? p = some x) (hy : y ∈ keys) (hp : p y = true) :
    x = y ∨ Before cursor x y := by
  obtain ⟨-, earlier, later, hsplit, hskipped⟩ := List.find?_eq_some_iff_append.mp hfind
  have hmem : y ∈ earlier ++ x :: later := hsplit ▸ mem_order.mpr hy
  rcases List.mem_append.mp hmem with hearlier | htail
  · have hnot := hskipped y hearlier
    rw [hp] at hnot
    cases hnot
  · rcases List.mem_cons.mp htail with heq | hlater
    · exact .inl heq.symm
    · have hpairs : (order cursor keys).Pairwise (Before cursor) := pairwise_order h
      rw [hsplit] at hpairs
      exact .inr ((List.pairwise_cons.mp (List.pairwise_append.mp hpairs).2.1).1 y hlater)

/-- The key at the cursor comes last. -/
lemma not_before_cursor : ¬ Before cursor cursor y := by
  rintro (⟨hlt, -⟩ | ⟨hlt, -⟩ | ⟨hlt, hle⟩)
  · exact lt_irrefl _ hlt
  · exact lt_irrefl _ hlt
  · exact absurd hle (not_le.mpr hlt)

/-- Since `first` was served, the cursor has not passed the key `y`. -/
def Unpassed (first cursor y : α) : Prop := cursor = first ∨ Before first cursor y

/-- A turn of a key that comes before `y` keeps the cursor before `y`. -/
lemma Unpassed.before (h : Unpassed first cursor y) (hx : Before cursor x y) : Before first x y := by
  rcases h with rfl | (⟨hfirst, hlt⟩ | ⟨hfirst, hle⟩ | ⟨hlt, hle⟩)
  · exact hx
  · rcases hx with ⟨hcx, hxy⟩ | ⟨-, hyc⟩ | ⟨-, hyc⟩
    · exact .inl ⟨hfirst.trans hcx, hxy⟩
    · exact absurd hyc (not_le.mpr hlt)
    · exact absurd hyc (not_le.mpr hlt)
  · rcases hx with ⟨hcx, hxy⟩ | ⟨hcx, -⟩ | ⟨hxy, -⟩
    · exact absurd (hfirst.trans (hcx.trans hxy)) (not_lt.mpr hle)
    · exact .inr (.inl ⟨hfirst.trans hcx, hle⟩)
    · exact .inr (.inr ⟨hxy, hle⟩)
  · rcases hx with ⟨-, hxy⟩ | ⟨-, hyc⟩ | ⟨-, hyc⟩
    · exact .inr (.inr ⟨hxy, hle⟩)
    · exact absurd hyc (not_le.mpr hlt)
    · exact absurd hyc (not_le.mpr hlt)

end RoundRobin

end AnonGuard
