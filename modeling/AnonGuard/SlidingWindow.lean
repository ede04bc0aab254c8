import Mathlib.Tactic

/-!
# Sliding windows over accepted numbers

A receiver accepts each number at most once. It remembers exactly the numbers that are at most
`width` behind the next expected one, and refuses numbers further back and numbers more than
`gap` ahead. `SetWindow` says this with the set of all accepted numbers; a word of `width` bits
represents it, bit `i` standing for the number `i + 1` before the next expected one.
-/
namespace AnonGuard

/-- All accepted numbers, and the number after the highest of them. -/
structure SetWindow where
  accepted : Finset ℕ
  next : ℕ

namespace SetWindow

def Accepts (width gap : ℕ) (w : SetWindow) (c : ℕ) : Prop :=
  c ∉ w.accepted ∧ w.next ≤ c + width ∧ c ≤ w.next + gap

def accept (w : SetWindow) (c : ℕ) : SetWindow := ⟨insert c w.accepted, max w.next (c + 1)⟩

/-- The next expected number is above all accepted ones. -/
def Ahead (w : SetWindow) : Prop := ∀ a ∈ w.accepted, a < w.next

lemma Ahead.accept {w : SetWindow} (h : w.Ahead) (c : ℕ) : (w.accept c).Ahead := by
  intro a ha
  rcases Finset.mem_insert.mp ha with rfl | ha
  · exact lt_of_lt_of_le (Nat.lt_succ_self a) (le_max_right _ _)
  · exact lt_of_lt_of_le (h a ha) (le_max_left _ _)

/-- A bit is tested with a mask. -/
lemma and_mask_ne_zero_iff {width : ℕ} (bits : BitVec width) {k : ℕ} (hk : k < width) :
    bits &&& (BitVec.ofNat width 1 <<< k) ≠ 0 ↔ bits.getLsbD k = true := by
  have hmask : BitVec.twoPow width k ≠ BitVec.ofNat width 0 := by
    intro hzero
    have hbit := congrArg (fun b => b.getLsbD k) hzero
    simp [hk] at hbit
  rw [← BitVec.twoPow_eq, BitVec.and_twoPow]
  split_ifs with h
  · simp [h, hmask]
  · simp [h]

/-- The word holds the last `width` numbers before the next expected one. -/
def Represents {width : ℕ} (bits : BitVec width) (w : SetWindow) : Prop :=
  ∀ i < width, bits.getLsbD i = true ↔ ∃ a ∈ w.accepted, a + i + 1 = w.next

section Represents
variable {width : ℕ} {bits : BitVec width} {w : SetWindow} {c : ℕ}

lemma Represents.empty (width next : ℕ) : Represents (0 : BitVec width) ⟨∅, next⟩ := by
  intro i _
  simp

/-- The bit of a number tells whether it was accepted. -/
lemma Represents.getLsbD_iff (h : Represents bits w) (hlt : c < w.next)
    (hnear : w.next ≤ c + width) : bits.getLsbD (w.next - c - 1) = true ↔ c ∈ w.accepted := by
  rw [h _ (by omega)]
  constructor
  · rintro ⟨a, ha, heq⟩
    obtain rfl : a = c := by omega
    exact ha
  · intro hc
    exact ⟨c, hc, by omega⟩

/-- An accepted number behind the next expected one sets its bit. -/
lemma Represents.accept_behind (h : Represents bits w) (hlt : c < w.next) :
    Represents (bits ||| (BitVec.ofNat width 1 <<< (w.next - c - 1))) (w.accept c) := by
  intro i hi
  have hnext : (w.accept c).next = w.next := max_eq_left hlt
  have hbit : (BitVec.ofNat width 1 <<< (w.next - c - 1)).getLsbD i = true ↔ c + i + 1 = w.next := by
    rw [BitVec.getLsbD_shiftLeft, BitVec.getLsbD_one]
    simp only [Bool.and_eq_true, Bool.not_eq_true', decide_eq_true_eq, decide_eq_false_iff_not]
    omega
  rw [BitVec.getLsbD_or, Bool.or_eq_true, h i hi, hbit, hnext]
  simp [accept, or_comm]

/-- An accepted number from the next expected one on shifts the word behind it. -/
lemma Represents.accept_ahead (h : Represents bits w) (hw : w.Ahead) (hle : w.next ≤ c) :
    Represents ((bits <<< (c - w.next + 1)) ||| BitVec.ofNat width 1) (w.accept c) := by
  intro i hi
  have hnext : (w.accept c).next = c + 1 := max_eq_right (by omega)
  have hold : (bits <<< (c - w.next + 1)).getLsbD i = true ↔
      ∃ a ∈ w.accepted, a + i + 1 = c + 1 := by
    rw [BitVec.getLsbD_shiftLeft]
    simp only [Bool.and_eq_true, Bool.not_eq_true', decide_eq_true_eq, decide_eq_false_iff_not]
    constructor
    · rintro ⟨⟨-, hge⟩, hbit⟩
      obtain ⟨a, ha, heq⟩ := (h _ (by omega)).mp hbit
      exact ⟨a, ha, by omega⟩
    · rintro ⟨a, ha, heq⟩
      have hbehind := hw a ha
      exact ⟨⟨hi, by omega⟩, (h _ (by omega)).mpr ⟨a, ha, by omega⟩⟩
  have hfirst : (BitVec.ofNat width 1).getLsbD i = true ↔ c + i + 1 = c + 1 := by
    rw [BitVec.getLsbD_one, Bool.and_eq_true, decide_eq_true_eq, decide_eq_true_eq]
    omega
  rw [BitVec.getLsbD_or, Bool.or_eq_true, hold, hfirst, hnext]
  simp [accept, or_comm]

end Represents

end SetWindow

end AnonGuard
