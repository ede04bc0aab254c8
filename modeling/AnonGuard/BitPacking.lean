import AnonGuard.Chunks

/-!
# Numbers packed bit by bit

Numbers of one width are written one after another, each with its low bit first. The bits can be
read back in groups of any width. Reading them with the width they were written with gives the
numbers back, and writing what was read gives the bits back.
-/
namespace AnonGuard

namespace BitPacking
variable {v w : ℕ}

/-- The `w` low bits of a number, the lowest first. -/
def bitsOf : ℕ → ℕ → List Bool
  | 0, _ => []
  | w + 1, n => n.testBit 0 :: bitsOf w (n / 2)

/-- The number with these bits. -/
def ofBits : List Bool → ℕ
  | [] => 0
  | bit :: bits => bit.toNat + 2 * ofBits bits

/-- Numbers of `w` bits, one after another. -/
def pack (w : ℕ) (ns : List ℕ) : List Bool := ns.flatMap (bitsOf w)

/-- Groups of `w` bits, each read as a number. -/
def unpack (w : ℕ) (bits : List Bool) : List ℕ := (bits.toChunks w).map ofBits

@[simp] theorem length_bitsOf (w n : ℕ) : (bitsOf w n).length = w := by
  induction w generalizing n with
  | zero => rfl
  | succ w ih => rw [bitsOf, List.length_cons, ih]

@[simp] theorem length_pack (w : ℕ) (ns : List ℕ) : (pack w ns).length = ns.length * w := by
  rw [pack, List.length_flatMap]
  simp

lemma length_unpack (hw : 0 < w) (bits : List Bool) :
    (unpack w bits).length = (bits.length + w - 1) / w := by
  rw [unpack, List.length_map, length_toChunks hw]

lemma ofBits_lt (bits : List Bool) : ofBits bits < 2 ^ bits.length := by
  induction bits with
  | nil => decide
  | cons bit =>
    have hbit := bit.toNat_lt
    rw [ofBits, List.length_cons, pow_succ]
    omega

lemma ofBits_append (xs ys : List Bool) : ofBits (xs ++ ys) = ofBits xs + 2 ^ xs.length * ofBits ys := by
  induction xs with
  | nil => simp [ofBits]
  | cons bit xs ih =>
    rw [List.cons_append, ofBits, ofBits, ih, List.length_cons, pow_succ]
    ring

lemma ofBits_bitsOf (w n : ℕ) : ofBits (bitsOf w n) = n % 2 ^ w := by
  induction w generalizing n with
  | zero => simp [bitsOf, ofBits, Nat.mod_one]
  | succ w ih =>
    have hbit : (n.testBit 0).toNat = n % 2 := by
      rw [Nat.testBit_zero]
      have := Nat.mod_two_eq_zero_or_one n
      rcases this with h | h <;> simp [h]
    rw [bitsOf, ofBits, ih, hbit, pow_succ', Nat.mod_mul]

lemma bitsOf_ofBits (bits : List Bool) : bitsOf bits.length (ofBits bits) = bits := by
  induction bits with
  | nil => rfl
  | cons bit bits ih =>
    have hlow : (bit.toNat + 2 * ofBits bits).testBit 0 = bit := by
      cases bit <;> simp [Nat.testBit_zero, Nat.add_mod]
    have hhigh : (bit.toNat + 2 * ofBits bits) / 2 = ofBits bits := by
      have hbit := bit.toNat_lt
      omega
    rw [List.length_cons, ofBits, bitsOf, hlow, hhigh, ih]

/-- The low bits come first. -/
lemma bitsOf_add (v w n : ℕ) : bitsOf (v + w) n = bitsOf v n ++ bitsOf w (n / 2 ^ v) := by
  induction v generalizing n with
  | zero => simp [bitsOf]
  | succ v ih =>
    rw [Nat.add_right_comm, bitsOf, bitsOf, ih, Nat.div_div_eq_div_mul, pow_succ', List.cons_append]

lemma unpack_append (hw : 0 < w) {group : List Bool} (hgroup : group.length = w) (bits : List Bool) :
    unpack w (group ++ bits) = ofBits group :: unpack w bits := by
  have hne : group ≠ [] := by
    rintro rfl
    rw [List.length_nil] at hgroup
    omega
  rw [unpack, toChunks_append hw hne (.inl hgroup), List.map_cons, unpack]

theorem unpack_pack (hw : 0 < w) (ns : List ℕ) : unpack w (pack w ns) = ns.map (· % 2 ^ w) := by
  induction ns with
  | nil => simp [pack, unpack, toChunks_nil]
  | cons n ns ih =>
    have hpack : pack w (n :: ns) = bitsOf w n ++ pack w ns := by rw [pack, List.flatMap_cons, pack]
    rw [hpack, unpack_append hw (length_bitsOf w n), ofBits_bitsOf, ih, List.map_cons]

theorem pack_unpack (hw : 0 < w) {bits : List Bool} (hlength : w ∣ bits.length) :
    pack w (unpack w bits) = bits := by
  obtain ⟨k, hk⟩ := hlength
  induction k generalizing bits with
  | zero =>
    have hnil : bits = [] := List.length_eq_zero_iff.mp (by simpa using hk)
    simp [hnil, pack, unpack, toChunks_nil]
  | succ k ih =>
    have hgroup : (bits.take w).length = w := by
      rw [List.length_take, hk, Nat.mul_succ]
      omega
    have hrest : (bits.drop w).length = w * k := by
      rw [List.length_drop, hk, Nat.mul_succ]
      omega
    have hfirst := bitsOf_ofBits (bits.take w)
    rw [hgroup] at hfirst
    conv_lhs => rw [← List.take_append_drop w bits]
    rw [unpack_append hw hgroup, pack, List.flatMap_cons, hfirst, ← pack, ih hrest,
      List.take_append_drop]

lemma lt_of_mem_unpack (hw : 0 < w) {bits : List Bool} {n : ℕ} (hn : n ∈ unpack w bits) :
    n < 2 ^ w := by
  obtain ⟨group, hgroup, rfl⟩ := List.mem_map.mp hn
  obtain ⟨i, hi⟩ := List.mem_iff_getElem?.mp hgroup
  rw [getElem?_toChunks hw] at hi
  split_ifs at hi
  have hlength : group.length ≤ w := by
    rw [← Option.some.inj hi]
    exact List.length_take_le w _
  exact (ofBits_lt group).trans_le (Nat.pow_le_pow_right (by decide) hlength)

end BitPacking

end AnonGuard
