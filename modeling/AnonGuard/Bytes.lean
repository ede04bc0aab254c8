import Mathlib.Tactic

/-!
# Byte strings, big-endian numbers and keystreams

Byte strings are lists of octets. A fixed-width number is written most
significant octet first, and a keystream is combined with a buffer octet by
octet. Nothing here depends on a particular protocol.
-/
namespace AnonGuard

abbrev Bytes := List UInt8

/-- Every test whether a byte string is in a list uses this instance. -/
instance lawfulBEqBytes : LawfulBEq Bytes := inferInstance

/-- The `w` low octets of `n`, most significant first. -/
def toBe : ℕ → ℕ → Bytes
  | 0, _ => []
  | w + 1, n => UInt8.ofNat (n / 256 ^ w) :: toBe w n

def ofBe (b : Bytes) : ℕ := b.foldl (fun acc x => acc * 256 + x.toNat) 0

@[simp] theorem length_toBe (w n : ℕ) : (toBe w n).length = w := by
  induction w with
  | zero => rfl
  | succ w ih => simp [toBe, ih]

lemma foldl_be_toBe (w n acc : ℕ) :
    (toBe w n).foldl (fun acc x => acc * 256 + x.toNat) acc = acc * 256 ^ w + n % 256 ^ w := by
  induction w generalizing acc with
  | zero => simp [toBe, Nat.mod_one]
  | succ w ih =>
    have hsplit : n % 256 ^ (w + 1) = n / 256 ^ w % 256 * 256 ^ w + n % 256 ^ w := by
      rw [pow_succ, Nat.mod_mul]
      ring
    simp only [toBe, List.foldl_cons, UInt8.toNat_ofNat', ih, hsplit]
    ring

/-- Reading back a number that fits its width. -/
@[simp] theorem ofBe_toBe (w n : ℕ) : ofBe (toBe w n) = n % 256 ^ w := by
  simp [ofBe, foldl_be_toBe]

lemma ofBe_cons (x : UInt8) (b : Bytes) : ofBe (x :: b) = x.toNat * 256 ^ b.length + ofBe b := by
  have hfold (acc : ℕ) : b.foldl (fun acc x => acc * 256 + x.toNat) acc =
      acc * 256 ^ b.length + ofBe b := by
    unfold ofBe
    induction b generalizing acc with
    | nil => simp
    | cons y b ih =>
      rw [List.foldl_cons, List.foldl_cons, ih, ih (0 * 256 + y.toNat), List.length_cons, pow_succ]
      ring
  rw [ofBe, List.foldl_cons, hfold, Nat.zero_mul, Nat.zero_add]

lemma ofBe_lt (b : Bytes) : ofBe b < 256 ^ b.length := by
  induction b with
  | nil => decide
  | cons x =>
    have hx := x.toNat_lt
    rw [ofBe_cons, List.length_cons, pow_succ]
    nlinarith

lemma toBe_add_mul (w k n : ℕ) : toBe w (k * 256 ^ w + n) = toBe w n := by
  induction w generalizing k with
  | zero => rfl
  | succ w ih =>
    have hhigh : (k * 256 ^ (w + 1) + n) / 256 ^ w = k * 256 + n / 256 ^ w := by
      rw [pow_succ, show k * (256 ^ w * 256) + n = n + k * 256 * 256 ^ w by ring,
        Nat.add_mul_div_right _ _ (by positivity), Nat.add_comm]
    have hlow : k * 256 ^ (w + 1) + n = k * 256 * 256 ^ w + n := by ring
    rw [toBe, toBe, hhigh, hlow, ih]
    congr 1
    apply UInt8.toNat_inj.mp
    simp

/-- Writing back a number with the width of its text. -/
@[simp] theorem toBe_ofBe (b : Bytes) : toBe b.length (ofBe b) = b := by
  induction b with
  | nil => rfl
  | cons x b ih =>
    have hlow := ofBe_lt b
    have hhigh : (x.toNat * 256 ^ b.length + ofBe b) / 256 ^ b.length = x.toNat := by
      rw [Nat.add_comm, Nat.add_mul_div_right _ _ (by positivity), Nat.div_eq_of_lt hlow,
        Nat.zero_add]
    rw [List.length_cons, toBe, ofBe_cons, toBe_add_mul, ih, hhigh]
    simp

def be16 (x : UInt16) : Bytes := toBe 2 x.toNat
def be32 (x : UInt32) : Bytes := toBe 4 x.toNat
def be64 (x : UInt64) : Bytes := toBe 8 x.toNat
def u16OfBe (b : Bytes) : UInt16 := UInt16.ofNat (ofBe b)
def u32OfBe (b : Bytes) : UInt32 := UInt32.ofNat (ofBe b)
def u64OfBe (b : Bytes) : UInt64 := UInt64.ofNat (ofBe b)

@[simp] theorem length_be16 (x : UInt16) : (be16 x).length = 2 := length_toBe 2 _
@[simp] theorem length_be32 (x : UInt32) : (be32 x).length = 4 := length_toBe 4 _

@[simp] theorem u16OfBe_be16 (x : UInt16) : u16OfBe (be16 x) = x := by
  simp [u16OfBe, be16]

theorem be16_u16OfBe {b : Bytes} (h : b.length = 2) : be16 (u16OfBe b) = b := by
  have hlt := ofBe_lt b
  rw [h] at hlt
  have hvalue : (u16OfBe b).toNat = ofBe b := by
    rw [u16OfBe, UInt16.toNat_ofNat']
    exact Nat.mod_eq_of_lt hlt
  rw [be16, hvalue, ← h, toBe_ofBe]

@[simp] theorem u32OfBe_be32 (x : UInt32) : u32OfBe (be32 x) = x := by
  simp [u32OfBe, be32]

@[simp] theorem u64OfBe_be64 (x : UInt64) : u64OfBe (be64 x) = x := by
  simp [u64OfBe, be64]

lemma be64_inj {x y : UInt64} (h : be64 x = be64 y) : x = y := by
  rw [← u64OfBe_be64 x, h, u64OfBe_be64]

/-- `checked_add(1)` on a 32-bit counter. -/
def checkedSucc (x : UInt32) : Option UInt32 :=
  if x.toNat + 1 < 2 ^ 32 then some (x + 1) else none

theorem checkedSucc_eq_some {x y : UInt32} :
    checkedSucc x = some y ↔ x.toNat + 1 < 2 ^ 32 ∧ y.toNat = x.toNat + 1 := by
  have hadd : x.toNat + 1 < 2 ^ 32 → (x + 1).toNat = x.toNat + 1 := by
    intro h
    rw [UInt32.toNat_add]
    exact Nat.mod_eq_of_lt h
  unfold checkedSucc
  split_ifs with h
  · constructor
    · intro he
      cases he
      exact ⟨h, hadd h⟩
    · rintro ⟨_, hy⟩
      have : x + 1 = y := UInt32.toNat_inj.mp (by rw [hadd h, hy])
      rw [this]
  · constructor
    · intro he
      cases he
    · rintro ⟨h', _⟩
      exact absurd h' h

/-- Combine a buffer with the keystream octet of each position. -/
def xorStream (ks : ℕ → UInt8) (data : Bytes) : Bytes := data.mapIdx (fun i b => b ^^^ ks i)

@[simp] theorem length_xorStream (ks : ℕ → UInt8) (data : Bytes) :
    (xorStream ks data).length = data.length := by simp [xorStream]

/-- Applying one keystream twice restores the buffer. -/
@[simp] theorem xorStream_xorStream (ks : ℕ → UInt8) (data : Bytes) :
    xorStream ks (xorStream ks data) = data := by
  simp only [xorStream, List.mapIdx_mapIdx]
  apply List.ext_getElem
  · simp
  · intro i _ _
    simp [UInt8.xor_assoc]

end AnonGuard
