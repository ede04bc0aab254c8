import Mathlib.Data.List.Perm.Basic
import Mathlib.Tactic

/-!
# Maps and the order of their elements

A hash map is a tree map here, which lists its elements in one fixed order. A
`HashOrder` brings back the others: it permutes every list in some way. It also
stands for a random shuffle.
-/
namespace AnonGuard

structure HashOrder (α : Type*) where
  order : List α → List α
  perm (l : List α) : (order l).Perm l

namespace HashOrder
variable {α : Type*} (o : HashOrder α) {l : List α}

@[simp] theorem mem_order {a : α} : a ∈ o.order l ↔ a ∈ l := (o.perm l).mem_iff

/-- The order of the list itself. -/
def listed (α : Type*) : HashOrder α := ⟨id, fun l => .refl l⟩

/-- An order that starts with a given element. -/
def startingWith [DecidableEq α] (a : α) : HashOrder α where
  order l := if a ∈ l then a :: l.erase a else l
  perm l := by
    split_ifs with ha
    · exact (List.perm_cons_erase ha).symm
    · exact .refl l

lemma order_startingWith [DecidableEq α] {a : α} (ha : a ∈ l) :
    (startingWith a).order l = a :: l.erase a := if_pos ha

end HashOrder

lemma mem_of_lookup {κ α : Type*} [BEq κ] [LawfulBEq κ] {l : List (κ × α)} {k : κ} {a : α}
    (h : l.lookup k = some a) : (k, a) ∈ l := by
  obtain ⟨l₁, l₂, rfl, -⟩ := List.lookup_eq_some_iff.mp h
  exact List.mem_append_right _ (List.mem_cons_self ..)

section Values
variable {κ α : Type*} [Ord κ]

/-- The values of a map. -/
def valuesOf (m : Std.TreeMap κ α) : List α := m.toList.map Prod.snd

@[simp] theorem length_valuesOf (m : Std.TreeMap κ α) : (valuesOf m).length = m.size := by
  simp [valuesOf, Std.TreeMap.length_toList]

variable [Std.TransOrd κ] [Std.LawfulEqOrd κ] {m : Std.TreeMap κ α}

theorem mem_valuesOf {a : α} : a ∈ valuesOf m ↔ ∃ k : κ, m[k]? = some a := by
  simp only [valuesOf, List.mem_map, Prod.exists, exists_eq_right,
    Std.TreeMap.mem_toList_iff_getElem?_eq_some]

/-- Two values in the list belong to different keys. -/
theorem pairwise_valuesOf {R : α → α → Prop}
    (h : ∀ (k k' : κ) (a b : α), m[k]? = some a → m[k']? = some b → k ≠ k' → R a b) :
    (valuesOf m).Pairwise R := by
  refine List.pairwise_map.mpr (List.Pairwise.imp_of_mem (fun {p q} hp hq hne => ?_)
    Std.TreeMap.distinct_keys_toList)
  refine h p.1 q.1 p.2 q.2 (Std.TreeMap.mem_toList_iff_getElem?_eq_some.mp hp)
    (Std.TreeMap.mem_toList_iff_getElem?_eq_some.mp hq) ?_
  simpa using hne

end Values

section Lookup
variable {κ α : Type*} [Ord κ] [Std.TransOrd κ] [Std.LawfulEqOrd κ] {m : Std.TreeMap κ α}
  {k k' : κ} {a b : α}

lemma getElem?_insert_cases (h : (m.insert k a)[k']? = some b) :
    k = k' ∧ b = a ∨ k ≠ k' ∧ m[k']? = some b := by
  rw [Std.TreeMap.getElem?_insert] at h
  split_ifs at h with heq
  · exact .inl ⟨Std.compare_eq_iff_eq.mp heq, (Option.some.inj h).symm⟩
  · exact .inr ⟨fun hk => heq (Std.compare_eq_iff_eq.mpr hk), h⟩

lemma getElem?_of_erase (h : (m.erase k)[k']? = some b) : k ≠ k' ∧ m[k']? = some b := by
  rw [Std.TreeMap.getElem?_erase] at h
  split_ifs at h with heq
  exact ⟨fun hk => heq (Std.compare_eq_iff_eq.mpr hk), h⟩

end Lookup

end AnonGuard
