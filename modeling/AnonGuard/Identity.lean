import AnonGuard.Bytes

/-!
# Composite identities

A relay or an authority is known by a pin, the hash of its Ed25519 and ML-DSA
public keys. A proof carries both keys and a signature by each over one
transcript. Hash function and signature algorithms are parameters.
-/
namespace AnonGuard

/-- The octets of a string. -/
def utf8 (s : String) : Bytes := s.toUTF8.data.toList

lemma fromUTF8_utf8 (s : String) : String.fromUTF8? ⟨(utf8 s).toArray⟩ = some s := by
  have hbytes : (⟨(utf8 s).toArray⟩ : ByteArray) = s.toByteArray := by
    rw [utf8, Array.toArray_toList]
    rfl
  rw [hbytes, String.fromUTF8?, dif_pos s.isValidUTF8]
  rfl

lemma utf8_of_fromUTF8 {b : Bytes} {s : String} (h : String.fromUTF8? ⟨b.toArray⟩ = some s) :
    utf8 s = b := by
  unfold String.fromUTF8? at h
  split_ifs at h
  cases h
  rfl

lemma utf8_inj {a b : String} (h : utf8 a = utf8 b) : a = b := by
  have hread := fromUTF8_utf8 a
  rw [h, fromUTF8_utf8] at hread
  exact (Option.some.inj hread).symm

lemma utf8_append (a b : String) : utf8 (a ++ b) = utf8 a ++ utf8 b := by
  simp [utf8]

lemma utf8_ofList (l : List Char) : utf8 (String.ofList l) = l.flatMap String.utf8EncodeChar := by
  simp [utf8, List.utf8Encode]

lemma utf8_eq_flatMap (s : String) : utf8 s = s.toList.flatMap String.utf8EncodeChar := by
  rw [← utf8_ofList, String.ofList_toList]

lemma utf8EncodeChar_subset {s : String} {c : Char} (h : c ∈ s.toList) :
    String.utf8EncodeChar c ⊆ utf8 s := by
  intro octet hoctet
  rw [utf8_eq_flatMap]
  exact List.mem_flatMap.mpr ⟨c, h, hoctet⟩

/-- A character of ASCII is encoded as itself; all octets of another one are not ASCII. -/
lemma utf8EncodeChar_cases (c : Char) :
    (c.toNat < 128 ∧ String.utf8EncodeChar c = [UInt8.ofNat c.toNat]) ∨
      (128 ≤ c.toNat ∧ String.utf8EncodeChar c ≠ [] ∧
        ∀ octet ∈ String.utf8EncodeChar c, 128 ≤ octet.toNat) := by
  have hc : c.val.toNat = c.toNat := rfl
  unfold String.utf8EncodeChar
  rw [hc]
  dsimp only
  split_ifs with h1
  · exact .inl ⟨by omega, rfl⟩
  all_goals
    refine .inr ⟨by omega, List.cons_ne_nil _ _, ?_⟩
    simp only [List.mem_cons, List.not_mem_nil, or_false, forall_eq_or_imp, forall_eq,
      UInt8.toNat_ofNat']
    omega

lemma exists_mem_utf8EncodeChar (c : Char) :
    ∃ octet ∈ String.utf8EncodeChar c, octet.toNat = c.toNat ∨ 128 ≤ octet.toNat := by
  obtain ⟨hc, hself⟩ | ⟨-, hne, hall⟩ := utf8EncodeChar_cases c
  · refine ⟨UInt8.ofNat c.toNat, hself ▸ List.mem_singleton_self _, .inl ?_⟩
    rw [UInt8.toNat_ofNat']
    omega
  · obtain ⟨octet, hoctet⟩ := List.exists_mem_of_ne_nil _ hne
    exact ⟨octet, hoctet, .inr (hall octet hoctet)⟩

structure IdentityScheme where
  sha256 : Bytes → Bytes
  /-- Whether 32 octets are a usable Ed25519 public key. -/
  edPoint : Bytes → Bool
  edVerify : Bytes → Bytes → Bytes → Bool
  mlDsaVerify : Bytes → Bytes → Bytes → Bool

def MAGIC : Bytes := utf8 "AGID0001"
def PUBLIC_KEY_SIZE : ℕ := 8 + 32 + 1952
def SIGNATURE_SIZE : ℕ := 8 + 64 + 3309
def PROOF_SIZE : ℕ := PUBLIC_KEY_SIZE + SIGNATURE_SIZE
def MAX_MESSAGE : ℕ := 16 * 1024 * 1024

/-- `bytes[start..stop]`. -/
def slice (start stop : ℕ) (bytes : Bytes) : Bytes := (bytes.take stop).drop start

/-- The Ed25519 key in an encoded public key, or in a proof, which starts with one. -/
def classicalBytes (encoded : Bytes) : Bytes := slice 8 40 encoded

/-- The ML-DSA key in an encoded public key or a proof. -/
def postQuantumBytes (encoded : Bytes) : Bytes := slice 40 PUBLIC_KEY_SIZE encoded

namespace IdentityScheme
variable (S : IdentityScheme)

/-- `HybridPublicKey::decode`: the encoding, if it is one. -/
def decodeKey (encoded : Bytes) : Option Bytes :=
  if encoded.length ≠ PUBLIC_KEY_SIZE ∨ encoded.take 8 ≠ MAGIC then none
  else if S.edPoint (classicalBytes encoded) = false then none
  else some encoded

def fingerprint (encoded : Bytes) : Bytes :=
  S.sha256 (utf8 "AnonGuard-HybridIdentity-Pin-v1" ++ encoded)

def transcript (key purpose message : Bytes) : Option Bytes :=
  if purpose = [] ∨ purpose.length > 255 ∨ message.length > MAX_MESSAGE then none
  else some (utf8 "AnonGuard-HybridIdentity-Proof-v1" ++ S.fingerprint key ++
    [UInt8.ofNat purpose.length] ++ purpose ++ toBe 8 message.length ++ message)

/-- `HybridPublicKey::verify`. -/
def verify (key purpose message proof : Bytes) : Bool :=
  if proof.length ≠ SIGNATURE_SIZE ∨ proof.take 8 ≠ MAGIC then false
  else
    match S.transcript key purpose message with
    | none => false
    | some t => S.edVerify (classicalBytes key) t (slice 8 72 proof) &&
        S.mlDsaVerify (postQuantumBytes key) t (proof.drop 72)

/-- The purpose of every signature of the network protocol. -/
def networkIdentity : Bytes := utf8 "network-identity-v6"

/-- `Signature::public_key`. -/
def publicKey (signature : Bytes) : Option Bytes :=
  if signature.length ≠ PROOF_SIZE then none
  else S.decodeKey (signature.take PUBLIC_KEY_SIZE)

/-- `Signature::component_pins`. -/
def componentPins (signature : Bytes) : Option (Bytes × Bytes) :=
  (S.publicKey signature).map fun key => (classicalBytes key, S.sha256 (postQuantumBytes key))

/-- `VerifyingKey::verify_strict`. -/
def verifyStrict (pin message signature : Bytes) : Bool :=
  match S.publicKey signature with
  | none => false
  | some key =>
    if S.fingerprint key ≠ pin then false
    else S.verify key networkIdentity message (signature.drop PUBLIC_KEY_SIZE)

end IdentityScheme

/-- `Signature::from_slice`. -/
def signatureFromSlice (bytes : Bytes) : Option Bytes :=
  if bytes.length ≠ PROOF_SIZE then none else some bytes

/-- The pin of no identity. -/
def ZERO_PIN : Bytes := List.replicate 32 0

/-- `VerifyingKey::from_bytes`. -/
def verifyingKeyFromBytes (pin : Bytes) : Option Bytes := if pin = ZERO_PIN then none else some pin

namespace IdentityScheme
variable {S : IdentityScheme} {pin message signature key : Bytes}

lemma publicKey_eq_some (h : S.publicKey signature = some key) :
    signature.length = PROOF_SIZE ∧ key = signature.take PUBLIC_KEY_SIZE ∧
      S.decodeKey key = some key := by
  unfold publicKey at h
  split_ifs at h with hlen
  have hkey : key = signature.take PUBLIC_KEY_SIZE := by
    have hdecode := h
    unfold decodeKey at hdecode
    split_ifs at hdecode
    cases hdecode
    rfl
  exact ⟨not_not.mp hlen, hkey, hkey ▸ h⟩

/-- A proof that verifies carries the key of the pin. -/
theorem publicKey_of_verifyStrict (h : S.verifyStrict pin message signature = true) :
    ∃ key, S.publicKey signature = some key ∧ S.fingerprint key = pin := by
  unfold verifyStrict at h
  split at h
  · cases h
  · rename_i key hkey
    split_ifs at h with hpin
    exact ⟨key, hkey, not_not.mp hpin⟩

theorem length_of_verifyStrict (h : S.verifyStrict pin message signature = true) :
    signature.length = PROOF_SIZE := by
  obtain ⟨key, hkey, -⟩ := publicKey_of_verifyStrict h
  exact (publicKey_eq_some hkey).1

theorem signatureFromSlice_of_verifyStrict (h : S.verifyStrict pin message signature = true) :
    signatureFromSlice signature = some signature := by
  simp [signatureFromSlice, length_of_verifyStrict h]

/-- A proof verifies under one pin only. -/
theorem pin_of_verifyStrict {pin' message' : Bytes} (h : S.verifyStrict pin message signature = true)
    (h' : S.verifyStrict pin' message' signature = true) : pin = pin' := by
  obtain ⟨key, hkey, rfl⟩ := publicKey_of_verifyStrict h
  obtain ⟨key', hkey', rfl⟩ := publicKey_of_verifyStrict h'
  rw [hkey] at hkey'
  rw [Option.some.inj hkey']

/-- A proof starts with its public key. -/
theorem components_of_publicKey (h : S.publicKey signature = some key) :
    classicalBytes signature = classicalBytes key ∧
      postQuantumBytes signature = postQuantumBytes key := by
  obtain ⟨-, rfl, -⟩ := publicKey_eq_some h
  simp [classicalBytes, postQuantumBytes, slice, PUBLIC_KEY_SIZE, List.take_take]

end IdentityScheme

/-- A signing key whose two components verify under its public key. -/
structure SigningKey (S : IdentityScheme) where
  publicKey : Bytes
  edSign : Bytes → Bytes
  mlDsaSign : Bytes → Bytes
  decodes : S.decodeKey publicKey = some publicKey
  length_edSign (t : Bytes) : (edSign t).length = 64
  length_mlDsaSign (t : Bytes) : (mlDsaSign t).length = 3309
  ed_verifies (t : Bytes) : S.edVerify (classicalBytes publicKey) t (edSign t) = true
  mlDsa_verifies (t : Bytes) :
    S.mlDsaVerify (postQuantumBytes publicKey) t (mlDsaSign t) = true

namespace SigningKey
variable {S : IdentityScheme} (k : SigningKey S)

/-- `SigningKey::verifying_key`. -/
def verifyingKey : Bytes := S.fingerprint k.publicKey

/-- `SigningKey::sign`, for the messages that the protocol signs. -/
def sign (message : Bytes) : Bytes :=
  match S.transcript k.publicKey IdentityScheme.networkIdentity message with
  | none => []
  | some t => k.publicKey ++ (MAGIC ++ k.edSign t ++ k.mlDsaSign t)

theorem length_publicKey : k.publicKey.length = PUBLIC_KEY_SIZE := by
  have h := k.decodes
  unfold IdentityScheme.decodeKey at h
  split_ifs at h with h1
  exact not_not.mp (not_or.mp h1).1

lemma length_MAGIC : MAGIC.length = 8 := by decide +kernel

/-- A signature over a message that is not too long. -/
lemma exists_transcript (message : Bytes) (h : message.length ≤ MAX_MESSAGE) :
    ∃ t, S.transcript k.publicKey IdentityScheme.networkIdentity message = some t ∧
      k.sign message = k.publicKey ++ (MAGIC ++ k.edSign t ++ k.mlDsaSign t) := by
  have hpurpose : ¬ (IdentityScheme.networkIdentity = [] ∨
      IdentityScheme.networkIdentity.length > 255) := by decide +kernel
  obtain ⟨t, ht⟩ : ∃ t, S.transcript k.publicKey IdentityScheme.networkIdentity message = some t := by
    unfold IdentityScheme.transcript
    rw [if_neg (by rw [← or_assoc]; exact not_or.mpr ⟨hpurpose, by omega⟩)]
    exact ⟨_, rfl⟩
  exact ⟨t, ht, by simp [sign, ht]⟩

lemma length_proof (t : Bytes) : (MAGIC ++ k.edSign t ++ k.mlDsaSign t).length = SIGNATURE_SIZE := by
  simp [length_MAGIC, k.length_edSign, k.length_mlDsaSign, SIGNATURE_SIZE]

theorem publicKey_sign (message : Bytes) (h : message.length ≤ MAX_MESSAGE) :
    S.publicKey (k.sign message) = some k.publicKey := by
  obtain ⟨t, -, hsign⟩ := k.exists_transcript message h
  have hlen : (k.sign message).length = PROOF_SIZE := by
    rw [hsign, List.length_append, k.length_publicKey, k.length_proof, PROOF_SIZE]
  have htake : (k.sign message).take PUBLIC_KEY_SIZE = k.publicKey := by
    rw [hsign, ← k.length_publicKey, List.take_left]
  simp [IdentityScheme.publicKey, hlen, htake, k.decodes]

/-- Both parts of a signature verify. -/
lemma verify_proof {message t : Bytes}
    (ht : S.transcript k.publicKey IdentityScheme.networkIdentity message = some t) :
    S.verify k.publicKey IdentityScheme.networkIdentity message
      (MAGIC ++ k.edSign t ++ k.mlDsaSign t) = true := by
  have hstart : (MAGIC ++ k.edSign t).length = 72 := by simp [length_MAGIC, k.length_edSign]
  have hhead : (MAGIC ++ k.edSign t ++ k.mlDsaSign t).take 8 = MAGIC := by
    rw [List.append_assoc, ← length_MAGIC, List.take_left]
  have hed : slice 8 72 (MAGIC ++ k.edSign t ++ k.mlDsaSign t) = k.edSign t := by
    rw [slice, ← hstart, List.take_left, ← length_MAGIC, List.drop_left]
  have hpq : (MAGIC ++ k.edSign t ++ k.mlDsaSign t).drop 72 = k.mlDsaSign t := by
    rw [← hstart, List.drop_left]
  unfold IdentityScheme.verify
  rw [if_neg (by simp only [k.length_proof, hhead, ne_eq, not_true, or_self, not_false_iff]), ht]
  simp only [hed, hpq, k.ed_verifies, k.mlDsa_verifies, Bool.and_self]

/-- Every signature verifies under the pin of its key. -/
theorem verifyStrict_sign (message : Bytes) (h : message.length ≤ MAX_MESSAGE) :
    S.verifyStrict k.verifyingKey message (k.sign message) = true := by
  obtain ⟨t, ht, hsign⟩ := k.exists_transcript message h
  have hdrop : (k.sign message).drop PUBLIC_KEY_SIZE = MAGIC ++ k.edSign t ++ k.mlDsaSign t := by
    rw [hsign, ← k.length_publicKey, List.drop_left]
  simp only [IdentityScheme.verifyStrict, k.publicKey_sign message h, verifyingKey, ne_eq, not_true,
    if_false, hdrop, k.verify_proof ht]

end SigningKey

end AnonGuard
