import Mathlib.Data.UInt
import AnonGuard.AuthorityRelays

/-!
# Searching for a proof of work

A proof of work is a nonce for which the hash of the node, the time and the nonce starts with
enough zero bits: read as a number, the hash is small enough. The search tries ten million nonces
in turn, past the end of the 64 bits if need be, and the verifier hashes the one it is given again.
-/
namespace AnonGuard

section LeadingZeros

/-- The first octet decides whether there are up to eight zeros. -/
lemma le_countLeadingZeroBits_cons_iff {x : UInt8} {rest : Bytes} {d : ℕ} (hd : d ≤ 8) :
    d ≤ countLeadingZeroBits (x :: rest) ↔ x.toNat < 2 ^ (8 - d) := by
  rw [countLeadingZeroBits]
  by_cases hx : x = 0
  · rw [if_pos hx, hx]
    have hpos : 0 < 2 ^ (8 - d) := Nat.two_pow_pos _
    exact iff_of_true (by omega) hpos
  · have hne : x.toNat ≠ 0 := fun h => hx (UInt8.toNat_inj.1 h)
    have hlog : x.toNat.log2 < 8 := (Nat.log2_lt hne).2 x.toNat_lt
    rw [if_neg hx, ← Nat.log2_lt hne]
    omega

/-- The loop over the octets counts the zeros before the number that they stand for. -/
theorem le_countLeadingZeroBits_iff {b : Bytes} {d : ℕ} (hd : d ≤ 8 * b.length) :
    d ≤ countLeadingZeroBits b ↔ ofBe b < 2 ^ (8 * b.length - d) := by
  induction b generalizing d with
  | nil =>
    obtain rfl : d = 0 := by simpa using hd
    decide
  | cons x rest ih =>
    have hbase : 256 ^ rest.length = 2 ^ (8 * rest.length) := by rw [Nat.pow_mul]
    have hrest : ofBe rest < 2 ^ (8 * rest.length) := hbase ▸ ofBe_lt rest
    rw [List.length_cons] at hd ⊢
    rw [ofBe_cons, hbase]
    by_cases hfirst : d ≤ 8
    · have hpow : 2 ^ (8 * (rest.length + 1) - d) = 2 ^ (8 - d) * 2 ^ (8 * rest.length) := by
        rw [← Nat.pow_add]
        congr 1
        omega
      rw [le_countLeadingZeroBits_cons_iff hfirst, hpow]
      constructor
      · intro hx
        calc x.toNat * 2 ^ (8 * rest.length) + ofBe rest
            < (x.toNat + 1) * 2 ^ (8 * rest.length) := by rw [Nat.add_mul x.toNat 1]; omega
          _ ≤ 2 ^ (8 - d) * 2 ^ (8 * rest.length) := Nat.mul_le_mul_right _ hx
      · intro hlt
        exact lt_of_mul_lt_mul_right ((Nat.le_add_right _ _).trans_lt hlt) (Nat.zero_le _)
    · have hexp : 8 * (rest.length + 1) - d = 8 * rest.length - (d - 8) := by omega
      have hle : 2 ^ (8 * rest.length - (d - 8)) ≤ 2 ^ (8 * rest.length) :=
        Nat.pow_le_pow_right (by decide) (Nat.sub_le _ _)
      rw [countLeadingZeroBits, hexp]
      by_cases hx : x = 0
      · have htail := ih (d := d - 8) (by omega)
        rw [if_pos hx, hx, UInt8.toNat_zero, Nat.zero_mul, Nat.zero_add, ← htail]
        omega
      · -- more than eight zeros are asked for and the first octet has a one
        have hne : 1 ≤ x.toNat := Nat.pos_of_ne_zero fun h => hx (UInt8.toNat_inj.1 h)
        have hge : 2 ^ (8 * rest.length) ≤ x.toNat * 2 ^ (8 * rest.length) :=
          Nat.le_mul_of_pos_left _ hne
        rw [if_neg hx]
        omega

end LeadingZeros

/-- The loop of `solvePowBoundedFrom`, with the attempts that are left. -/
def searchPow (S : IdentityScheme) (nodeId : String) (timestamp : UInt64) (difficultyBits : ℕ) :
    ℕ → UInt64 → Option UInt64
  | 0, _ => none
  | attempts + 1, nonce =>
    if difficultyBits ≤
        countLeadingZeroBits (S.sha256 (utf8 nodeId ++ be64 timestamp ++ be64 nonce)) then
      some nonce
    else searchPow S nodeId timestamp difficultyBits attempts (nonce + 1)

def solvePowBoundedFrom (S : IdentityScheme) (nodeId : String) (timestamp : UInt64)
    (difficultyBits : ℕ) (start : UInt64) : Option UInt64 :=
  searchPow S nodeId timestamp difficultyBits 10000000 start

/-- The hash, as a number of 256 bits, is below the bound of the difficulty. -/
def PowValid (S : IdentityScheme) (nodeId : String) (timestamp : UInt64) (difficultyBits : ℕ)
    (nonce : UInt64) : Prop :=
  ofBe (S.sha256 (utf8 nodeId ++ be64 timestamp ++ be64 nonce)) < 2 ^ (256 - difficultyBits)

section Search

variable {S : IdentityScheme} {nodeId : String} {timestamp start nonce : UInt64} {d : ℕ}

lemma powValid_iff (hash : ∀ b, (S.sha256 b).length = 32) (hd : d ≤ 256) :
    d ≤ countLeadingZeroBits (S.sha256 (utf8 nodeId ++ be64 timestamp ++ be64 nonce)) ↔
      PowValid S nodeId timestamp d nonce := by
  have hlen := hash (utf8 nodeId ++ be64 timestamp ++ be64 nonce)
  rw [le_countLeadingZeroBits_iff (by rw [hlen]; exact hd), hlen]
  rfl

lemma verifyPow_iff_powValid (hash : ∀ b, (S.sha256 b).length = 32) (hd : d ≤ 256) {now : UInt64}
    (hnow : absDiff now timestamp ≤ MAX_TIMESTAMP_DRIFT_SECS) :
    verifyPow S nodeId timestamp nonce d now = true ↔ PowValid S nodeId timestamp d nonce := by
  unfold verifyPow
  rw [if_neg (UInt64.not_lt.2 hnow), decide_eq_true_iff]
  exact powValid_iff hash hd

/-- The search takes the first place, counted from the start, at which the zeros suffice. -/
lemma searchPow_eq_find? (n : ℕ) (start : UInt64) :
    searchPow S nodeId timestamp d n start =
      ((List.range n).map fun i => start + UInt64.ofNat i).find? fun nonce =>
        d ≤ countLeadingZeroBits (S.sha256 (utf8 nodeId ++ be64 timestamp ++ be64 nonce)) := by
  induction n generalizing start with
  | zero => rfl
  | succ n ih =>
    have hshift : ∀ i, start + UInt64.ofNat (i + 1) = start + 1 + UInt64.ofNat i := by
      intro i
      rw [UInt64.ofNat_add, UInt64.add_comm (UInt64.ofNat i), ← UInt64.add_assoc]
      rfl
    have hstart : start + UInt64.ofNat 0 = start := UInt64.add_zero start
    rw [searchPow, List.range_succ_eq_map, List.map_cons, List.map_map, List.find?_cons, hstart]
    have htail : (List.range n).map ((fun i => start + UInt64.ofNat i) ∘ Nat.succ) =
        (List.range n).map fun i => start + 1 + UInt64.ofNat i :=
      List.map_congr_left fun i _ => hshift i
    rw [htail, ← ih]
    by_cases hzeros : d ≤
        countLeadingZeroBits (S.sha256 (utf8 nodeId ++ be64 timestamp ++ be64 start))
    · rw [if_pos hzeros, decide_eq_true hzeros]
    · rw [if_neg hzeros, decide_eq_false hzeros]

lemma searchPow_eq_some_iff (hash : ∀ b, (S.sha256 b).length = 32) (hd : d ≤ 256) {n : ℕ} :
    searchPow S nodeId timestamp d n start = some nonce ↔
      ∃ i < n, nonce = start + UInt64.ofNat i ∧ PowValid S nodeId timestamp d nonce ∧
        ∀ j < i, ¬ PowValid S nodeId timestamp d (start + UInt64.ofNat j) := by
  rw [searchPow_eq_find?, List.find?_eq_some_iff_getElem]
  simp only [List.length_map, List.length_range, List.getElem_map, List.getElem_range,
    decide_eq_true_iff, Bool.not_eq_true', decide_eq_false_iff_not, powValid_iff hash hd]
  constructor
  · rintro ⟨hvalid, i, hi, hplace, hbefore⟩
    exact ⟨i, hi, hplace.symm, hvalid, hbefore⟩
  · rintro ⟨i, hi, hplace, hvalid, hbefore⟩
    exact ⟨hvalid, i, hi, hplace.symm, hbefore⟩

lemma searchPow_eq_none_iff (hash : ∀ b, (S.sha256 b).length = 32) (hd : d ≤ 256) {n : ℕ} :
    searchPow S nodeId timestamp d n start = none ↔
      ∀ i < n, ¬ PowValid S nodeId timestamp d (start + UInt64.ofNat i) := by
  rw [searchPow_eq_find?, List.find?_eq_none]
  simp only [List.forall_mem_map, List.mem_range, decide_eq_true_iff, powValid_iff hash hd]

end Search

/-- Of the ten million nonces from the start on, around the end of the 64 bits, the search returns
the first one that the verifier accepts while the time is fresh; it fails when none is valid. -/
theorem solvePowBoundedFrom_spec (S : IdentityScheme) (hash : ∀ b, (S.sha256 b).length = 32)
    (nodeId : String) (timestamp start : UInt64) (d : ℕ) (hd : d ≤ 256) :
    (∀ nonce now, absDiff now timestamp ≤ MAX_TIMESTAMP_DRIFT_SECS →
      (verifyPow S nodeId timestamp nonce d now = true ↔ PowValid S nodeId timestamp d nonce)) ∧
    (∀ nonce, solvePowBoundedFrom S nodeId timestamp d start = some nonce ↔
      ∃ i < 10000000, nonce = start + UInt64.ofNat i ∧
        (∀ now, absDiff now timestamp ≤ MAX_TIMESTAMP_DRIFT_SECS →
          verifyPow S nodeId timestamp nonce d now = true) ∧
        ∀ j < i, ¬ PowValid S nodeId timestamp d (start + UInt64.ofNat j)) ∧
    (solvePowBoundedFrom S nodeId timestamp d start = none ↔
      ∀ i < 10000000, ¬ PowValid S nodeId timestamp d (start + UInt64.ofNat i)) := by
  have hverify : ∀ nonce now, absDiff now timestamp ≤ MAX_TIMESTAMP_DRIFT_SECS →
      (verifyPow S nodeId timestamp nonce d now = true ↔ PowValid S nodeId timestamp d nonce) :=
    fun nonce now hnow => verifyPow_iff_powValid hash hd hnow
  have hfresh : absDiff timestamp timestamp ≤ MAX_TIMESTAMP_DRIFT_SECS := by
    unfold absDiff
    rw [if_pos (UInt64.le_refl _), UInt64.sub_self]
    decide
  have hvalid : ∀ nonce, PowValid S nodeId timestamp d nonce ↔
      ∀ now, absDiff now timestamp ≤ MAX_TIMESTAMP_DRIFT_SECS →
        verifyPow S nodeId timestamp nonce d now = true := by
    intro nonce
    constructor
    · exact fun h now hnow => (hverify nonce now hnow).2 h
    · exact fun h => (hverify nonce timestamp hfresh).1 (h timestamp hfresh)
  refine ⟨hverify, fun nonce => ?_, searchPow_eq_none_iff hash hd⟩
  rw [← hvalid nonce]
  exact searchPow_eq_some_iff hash hd

/-- A hash that starts with the last octet of what is hashed. -/
def reversedHash : IdentityScheme :=
  { sampleScheme with sha256 := fun b => (b.reverse ++ List.replicate 32 0).take 32 }

/-- Two nonces before the end of the 64 bits fail, and the search goes on at 0. -/
theorem solvePowBoundedFrom_wraps :
    solvePowBoundedFrom reversedHash "relay-1" 1000 8 (2 ^ 64 - 2) = some 0 ∧
      verifyPow reversedHash "relay-1" 1000 0 8 1300 = true := by
  have hspec := solvePowBoundedFrom_spec reversedHash
    (fun b => by simp [reversedHash]) "relay-1" 1000 (2 ^ 64 - 2) 8 (by decide)
  have hzero : PowValid reversedHash "relay-1" 1000 8 0 := by
    unfold PowValid
    decide +kernel
  refine ⟨(hspec.2.1 0).2 ⟨2, by omega, by decide +kernel,
    fun now hnow => (hspec.1 0 now hnow).2 hzero, ?_⟩, (hspec.1 0 1300 (by decide)).2 hzero⟩
  unfold PowValid
  decide +kernel

end AnonGuard
