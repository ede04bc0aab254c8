import AnonGuard.BitPacking
import AnonGuard.Handshake

/-!
# The modulus check of an encapsulation key

FIPS 203 has a key decoded into coefficients of 12 bits and encoded again, and refuses it if this
does not give the same octets. The check of the code reads the coefficients out of three octets at
a time and compares them with the modulus.
-/
namespace AnonGuard
open BitPacking

/-- The modulus of ML-KEM. -/
def MLKEM_Q : ℕ := 3329

/-- `ByteDecode` of FIPS 203 for coefficients of 12 bits, before they are reduced. -/
def byteDecode12 (bytes : Bytes) : List ℕ := unpack 12 (pack 8 (bytes.map UInt8.toNat))

/-- `ByteEncode` of FIPS 203 for coefficients of 12 bits. -/
def byteEncode12 (coefficients : List ℕ) : Bytes := (unpack 8 (pack 12 coefficients)).map UInt8.ofNat

section Coding
variable {bytes : Bytes} {coefficients : List ℕ}

/-- Two coefficients are in three octets. -/
lemma byteDecode12_cons (a b c : UInt8) (rest : Bytes) : byteDecode12 (a :: b :: c :: rest) =
    (a.toNat + 256 * (b.toNat % 16)) :: (b.toNat / 16 + 16 * c.toNat) :: byteDecode12 rest := by
  have ha := a.toNat_lt
  have hb := b.toNat_lt
  have hc := c.toNat_lt
  have hbits : pack 8 ((a :: b :: c :: rest).map UInt8.toNat) =
      (bitsOf 8 a.toNat ++ bitsOf 4 b.toNat) ++ ((bitsOf 4 (b.toNat / 2 ^ 4) ++ bitsOf 8 c.toNat) ++
        pack 8 (rest.map UInt8.toNat)) := by
    have hmiddle : bitsOf 8 b.toNat = bitsOf 4 b.toNat ++ bitsOf 4 (b.toNat / 2 ^ 4) :=
      bitsOf_add 4 4 b.toNat
    simp only [pack, List.map_cons, List.flatMap_cons, hmiddle, List.append_assoc]
  have hfirst : ofBits (bitsOf 8 a.toNat ++ bitsOf 4 b.toNat) = a.toNat + 256 * (b.toNat % 16) := by
    rw [ofBits_append, ofBits_bitsOf, ofBits_bitsOf, length_bitsOf]
    omega
  have hsecond : ofBits (bitsOf 4 (b.toNat / 2 ^ 4) ++ bitsOf 8 c.toNat) =
      b.toNat / 16 + 16 * c.toNat := by
    rw [ofBits_append, ofBits_bitsOf, ofBits_bitsOf, length_bitsOf]
    omega
  rw [byteDecode12, hbits, unpack_append (by decide) (by simp), unpack_append (by decide) (by simp),
    hfirst, hsecond, byteDecode12]

/-- Octets that hold whole coefficients are encoded again. -/
theorem byteEncode12_byteDecode12 (hlength : 3 ∣ bytes.length) :
    byteEncode12 (byteDecode12 bytes) = bytes := by
  have hbits : 12 ∣ (pack 8 (bytes.map UInt8.toNat)).length := by
    rw [length_pack, List.length_map]
    omega
  have hoctets : (bytes.map UInt8.toNat).map (· % 2 ^ 8) = bytes.map UInt8.toNat := by
    rw [List.map_map]
    refine List.map_congr_left fun b _ => ?_
    exact Nat.mod_eq_of_lt b.toNat_lt
  rw [byteEncode12, byteDecode12, pack_unpack (by decide) hbits, unpack_pack (by decide), hoctets,
    List.map_map]
  exact (List.map_congr_left fun b _ => UInt8.ofNat_toNat).trans (List.map_id _)

/-- Coefficients of 12 bits that fill whole octets are decoded again. -/
theorem byteDecode12_byteEncode12 (hlength : 2 ∣ coefficients.length)
    (hsmall : ∀ c ∈ coefficients, c < 2 ^ 12) :
    byteDecode12 (byteEncode12 coefficients) = coefficients := by
  have hbits : 8 ∣ (pack 12 coefficients).length := by
    rw [length_pack]
    omega
  have hoctets : ((unpack 8 (pack 12 coefficients)).map UInt8.ofNat).map UInt8.toNat =
      unpack 8 (pack 12 coefficients) := by
    rw [List.map_map]
    refine (List.map_congr_left fun n hn => ?_).trans (List.map_id _)
    have hlt := lt_of_mem_unpack (by decide) hn
    simp only [Function.comp_apply, UInt8.toNat_ofNat', id_eq]
    exact Nat.mod_eq_of_lt hlt
  have hreduced : coefficients.map (· % 2 ^ 12) = coefficients :=
    (List.map_congr_left fun c hc => Nat.mod_eq_of_lt (hsmall c hc)).trans (List.map_id _)
  rw [byteDecode12, byteEncode12, hoctets, pack_unpack (by decide) hbits, unpack_pack (by decide),
    hreduced]

lemma length_byteDecode12 (hlength : 3 ∣ bytes.length) :
    (byteDecode12 bytes).length = 2 * (bytes.length / 3) := by
  rw [byteDecode12, length_unpack (by decide), length_pack, List.length_map]
  omega

end Coding

/-- The bits of two numbers that do not overlap. -/
lemma or_shiftLeft_eq_add {m n i : ℕ} (hm : m < 2 ^ i) : m ||| n <<< i = m + 2 ^ i * n := by
  rw [Nat.shiftLeft_eq, Nat.mul_comm n, Nat.or_comm, ← Nat.two_pow_add_eq_or_of_lt hm, Nat.add_comm]

lemma toNat_first (a b : UInt8) :
    (a.toUInt16 ||| ((b &&& 15).toUInt16 <<< 8)).toNat = a.toNat + 256 * (b.toNat % 16) := by
  have ha := a.toNat_lt
  have hmask : (b &&& 15).toNat = b.toNat % 16 := by
    rw [UInt8.toNat_and]
    exact Nat.and_two_pow_sub_one_eq_mod b.toNat 4
  rw [UInt16.toNat_or, UInt16.toNat_shiftLeft, UInt8.toNat_toUInt16, UInt8.toNat_toUInt16, hmask]
  have hshift : (b.toNat % 16) <<< (UInt16.toNat 8 % 16) % 2 ^ 16 = (b.toNat % 16) <<< 8 := by
    apply Nat.mod_eq_of_lt
    rw [Nat.shiftLeft_eq]
    have hlt := Nat.mod_lt b.toNat (by decide : 16 > 0)
    exact (Nat.mul_lt_mul_of_pos_right hlt (by decide)).trans (by decide)
  rw [hshift, or_shiftLeft_eq_add ha]
  rfl

lemma toNat_second (b c : UInt8) :
    ((b >>> 4).toUInt16 ||| (c.toUInt16 <<< 4)).toNat = b.toNat / 16 + 16 * c.toNat := by
  have hb := b.toNat_lt
  have hc := c.toNat_lt
  rw [UInt16.toNat_or, UInt16.toNat_shiftLeft, UInt8.toNat_toUInt16, UInt8.toNat_toUInt16,
    UInt8.toNat_shiftRight]
  have hlow : b.toNat >>> (UInt8.toNat 4 % 8) = b.toNat / 16 := Nat.shiftRight_eq_div_pow b.toNat 4
  have hshift : c.toNat <<< (UInt16.toNat 4 % 16) % 2 ^ 16 = c.toNat <<< 4 := by
    apply Nat.mod_eq_of_lt
    rw [Nat.shiftLeft_eq]
    exact (Nat.mul_lt_mul_of_pos_right hc (by decide)).trans (by decide)
  rw [hlow, hshift, or_shiftLeft_eq_add (by omega)]
  rfl

/-- The loop of the check compares the decoded coefficients. -/
lemma coefficientsReduced_iff {bytes : Bytes} (hlength : 3 ∣ bytes.length) :
    coefficientsReduced bytes = true ↔ ∀ c ∈ byteDecode12 bytes, c < MLKEM_Q := by
  fun_induction coefficientsReduced bytes with
  | case1 a b c rest first second ih =>
    have hrest : 3 ∣ rest.length := by
      simp only [List.length_cons] at hlength
      omega
    have hfirst : first < 3329 ↔ a.toNat + 256 * (b.toNat % 16) < MLKEM_Q := by
      rw [UInt16.lt_iff_toNat_lt, toNat_first]
      rfl
    have hsecond : second < 3329 ↔ b.toNat / 16 + 16 * c.toNat < MLKEM_Q := by
      rw [UInt16.lt_iff_toNat_lt, toNat_second]
      rfl
    rw [Bool.and_eq_true, Bool.and_eq_true, decide_eq_true_iff, decide_eq_true_iff, hfirst, hsecond,
      ih hrest, byteDecode12_cons, List.forall_mem_cons, List.forall_mem_cons, and_assoc]
  | case2 bytes hshort =>
    -- fewer than three octets are left, and no single ones
    have hnil : bytes = [] := by
      cases bytes with
      | nil => rfl
      | cons a bytes =>
        cases bytes with
        | nil => simp at hlength
        | cons b bytes =>
          cases bytes with
          | nil => simp at hlength
          | cons c rest => exact (hshort a b c rest rfl).elim
    rw [hnil]
    simp [byteDecode12, pack, unpack, toChunks_nil]

/-- The check of the code is the modulus check of FIPS 203: a key has 1184 octets, and one gets its
first 1152 octets back by decoding their 768 coefficients, reducing them and encoding them again. -/
theorem mlkem768PublicIsCanonical_iff (bytes : Bytes) : mlkem768PublicIsCanonical bytes = true ↔
    bytes.length = 1184 ∧ (byteDecode12 (bytes.take 1152)).length = 768 ∧
      byteEncode12 ((byteDecode12 (bytes.take 1152)).map (· % MLKEM_Q)) = bytes.take 1152 := by
  unfold mlkem768PublicIsCanonical
  rw [Bool.and_eq_true, beq_iff_eq]
  refine and_congr_right fun hlength => ?_
  have htake : (bytes.take 1152).length = 1152 := by
    rw [List.length_take, hlength]
    rfl
  have hthree : 3 ∣ (bytes.take 1152).length := by
    rw [htake]
    decide
  have hcount : (byteDecode12 (bytes.take 1152)).length = 768 := by
    rw [length_byteDecode12 hthree, htake]
  rw [coefficientsReduced_iff hthree]
  constructor
  · intro hreduced
    have hsame : (byteDecode12 (bytes.take 1152)).map (· % MLKEM_Q) = byteDecode12 (bytes.take 1152) :=
      (List.map_congr_left fun c hc => Nat.mod_eq_of_lt (hreduced c hc)).trans (List.map_id _)
    exact ⟨hcount, by rw [hsame, byteEncode12_byteDecode12 hthree]⟩
  · rintro ⟨-, hencode⟩
    -- an encoding has one decoding only, so the coefficients were reduced before
    have hdecode := congrArg byteDecode12 hencode
    rw [byteDecode12_byteEncode12] at hdecode
    · intro c hc
      rw [← hdecode] at hc
      obtain ⟨n, -, rfl⟩ := List.mem_map.mp hc
      exact Nat.mod_lt n (by decide)
    · rw [List.length_map, hcount]
      decide
    · intro c hc
      obtain ⟨n, -, rfl⟩ := List.mem_map.mp hc
      exact (Nat.mod_lt n (by decide)).trans (by decide)

end AnonGuard
