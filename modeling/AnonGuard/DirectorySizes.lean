import AnonGuard.JsonText
import AnonGuard.SignedMessages
import AnonGuard.Transport

/-!
# The sizes of directory documents

Authorities send relay lists and consensus documents as JSON in envelopes of six frames, and
keep the votes of thirteen epochs in a file of which they read back at most 64 MiB. Both
limits leave room for the longest descriptors that pass the checks.
-/
namespace AnonGuard

/-- An array of octets. -/
def octetsJson (bytes : Bytes) : Bytes :=
  JsonText.array (bytes.map fun b => JsonText.number b.toNat)

/-- A proof, as `proof_encoding` writes it. -/
def proofJson (proof : Bytes) : Bytes := JsonText.string (JsonText.base64 proof)

def RelayDescriptor.json (r : RelayDescriptor) : Bytes :=
  JsonText.object [
    (utf8 "node_id", JsonText.string (utf8 r.nodeId)),
    (utf8 "host", JsonText.string (utf8 r.host)),
    (utf8 "port", JsonText.number r.port.toNat),
    (utf8 "onion_key_x25519", octetsJson r.onionKeyX25519),
    (utf8 "identity_pin", octetsJson r.identityPin),
    (utf8 "is_exit", JsonText.bool r.isExit),
    (utf8 "pow_nonce", JsonText.number r.powNonce.toNat),
    (utf8 "registered_at", JsonText.number r.registeredAt.toNat),
    (utf8 "signature", proofJson r.signature)]

def AuthoritySignature.json (sig : AuthoritySignature) : Bytes :=
  JsonText.object [
    (utf8 "authority_id", JsonText.string (utf8 sig.authorityId)),
    (utf8 "signature_bytes", proofJson sig.signatureBytes)]

/-- What `GET_RELAY_LIST` is answered with. -/
def relayListJson (relays : List RelayDescriptor) : Bytes :=
  JsonText.array (relays.map RelayDescriptor.json)

def ConsensusDocument.json (d : ConsensusDocument) : Bytes :=
  JsonText.object [
    (utf8 "valid_after", JsonText.number d.validAfter.toNat),
    (utf8 "valid_until", JsonText.number d.validUntil.toNat),
    (utf8 "relays", relayListJson d.relays),
    (utf8 "signatures", JsonText.array (d.signatures.map AuthoritySignature.json))]

/-- The octets of the vote file. -/
def votesJson (docs : List ConsensusDocument) : Bytes :=
  JsonText.array (docs.map ConsensusDocument.json)

/-- `read_bounded_file`, of a regular file. -/
def readBoundedFile (maximum : ℕ) (contents : Bytes) : Except String Bytes :=
  if contents.length > maximum then .error "Security input must be a bounded regular file"
  else
    let bytes := contents.take (maximum + 1)
    if bytes.length > maximum then .error "Security input exceeds size limit" else .ok bytes

/-- The limit on the vote file. -/
def MAX_VOTE_FILE : ℕ := 64 * 1024 * 1024

/-- An id of letters, digits, dots, dashes and underscores. -/
structure ShortId (id : String) : Prop where
  length : (utf8 id).length ≤ 128
  octets : (utf8 id).all (fun b => RelayDescriptor.isLower b || RelayDescriptor.isUpper b ||
    RelayDescriptor.isDigit b || b == 45 || b == 95 || b == 46) = true

/-- The relays pass `verify_identity`, and so many may be in a directory. -/
structure ListedRelays (S : DirectoryEnv) (relays : List RelayDescriptor) : Prop where
  length : relays.length ≤ MAX_DIRECTORY_RELAYS
  verified : ∀ r ∈ relays, r.KeysSized ∧ r.verifyIdentity S = true

/-- A document with at most so many signatures of authorities. -/
structure SignedDocument (S : DirectoryEnv) (count : ℕ) (d : ConsensusDocument) : Prop where
  relays : ListedRelays S d.relays
  length : d.signatures.length ≤ count
  signatures : ∀ sig ∈ d.signatures,
    ShortId sig.authorityId ∧ sig.signatureBytes.length = PROOF_SIZE

section Lengths
variable {S : DirectoryEnv} {r : RelayDescriptor} {d : ConsensusDocument} {count : ℕ}

lemma ShortId.length_string {id : String} (h : ShortId id) :
    (JsonText.string (utf8 id)).length ≤ 130 := by
  have hplain : ∀ b ∈ utf8 id, JsonText.Plain b := by
    intro b hb
    have hoctet := List.all_eq_true.mp h.octets b hb
    simp only [RelayDescriptor.isLower, RelayDescriptor.isUpper, RelayDescriptor.isDigit,
      Bool.or_eq_true, Bool.and_eq_true, decide_eq_true_eq, beq_iff_eq] at hoctet
    refine JsonText.plain_of_le ?_ ?_ ?_ <;> grind
  have hlength := h.length
  rw [JsonText.length_string_of_plain hplain]
  omega

lemma length_proofJson {proof : Bytes} (h : proof.length = PROOF_SIZE) :
    (proofJson proof).length = 7166 := by
  rw [proofJson, JsonText.length_string_base64, h]
  rfl

lemma length_octetsJson_le {bytes : Bytes} (h : bytes.length = 32) :
    (octetsJson bytes).length ≤ 130 := by
  have harray : (octetsJson bytes).length ≤
      (bytes.map fun b => JsonText.number b.toNat).length * 4 + 2 :=
    JsonText.length_array_le (by
      rw [List.forall_mem_map]
      exact fun b _ => JsonText.length_number_le (by decide) (b.toNat_lt.trans (by decide)))
  rw [List.length_map, h] at harray
  exact harray

lemma length_number64_le (n : UInt64) : (JsonText.number n.toNat).length ≤ 20 :=
  JsonText.length_number_le (by decide) (n.toNat_lt.trans (by decide))

lemma RelayDescriptor.length_json_le (hkeys : r.KeysSized) (h : r.verifyIdentity S = true) :
    r.json.length ≤ 9700 := by
  have hformed := (of_verifyIdentity h).1
  simp only [wellFormed, Bool.and_eq_true, decide_eq_true_eq, beq_iff_eq] at hformed
  obtain ⟨⟨⟨⟨⟨⟨⟨-, -⟩, hlength⟩, hoctets⟩, -⟩, hlengthHost⟩, -⟩, hlengthProof⟩ := hformed
  have hid := ShortId.length_string ⟨hlength, hoctets⟩
  have hhost := JsonText.length_string_le (utf8 r.host)
  have hport : (JsonText.number r.port.toNat).length ≤ 5 :=
    JsonText.length_number_le (by decide) (r.port.toNat_lt.trans (by decide))
  have honion := length_octetsJson_le hkeys.onionKeyX25519
  have hpin := length_octetsJson_le hkeys.identityPin
  have hexit := JsonText.length_bool_le r.isExit
  have hpow := length_number64_le r.powNonce
  have hregistered := length_number64_le r.registeredAt
  have hproof := length_proofJson hlengthProof
  have hnames : (utf8 "node_id").length = 7 ∧ (utf8 "host").length = 4 ∧ (utf8 "port").length = 4 ∧
      (utf8 "onion_key_x25519").length = 16 ∧ (utf8 "identity_pin").length = 12 ∧
      (utf8 "is_exit").length = 7 ∧ (utf8 "pow_nonce").length = 9 ∧
      (utf8 "registered_at").length = 13 ∧ (utf8 "signature").length = 9 := by
    decide +kernel
  refine (JsonText.length_object_le _).trans ?_
  simp only [List.map_cons, List.map_nil, List.sum_cons, List.sum_nil, hnames]
  omega

lemma length_relayListJson_le {relays : List RelayDescriptor} (h : ListedRelays S relays) :
    (relayListJson relays).length ≤ 4966914 := by
  have hlist : (relayListJson relays).length ≤
      (relays.map RelayDescriptor.json).length * (9700 + 1) + 2 :=
    JsonText.length_array_le (by
      rw [List.forall_mem_map]
      exact fun r hr => r.length_json_le (h.verified r hr).1 (h.verified r hr).2)
  have hlength := h.length
  have hmax : MAX_DIRECTORY_RELAYS = 512 := rfl
  rw [List.length_map] at hlist
  omega

lemma AuthoritySignature.length_json_le {sig : AuthoritySignature} (hid : ShortId sig.authorityId)
    (hproof : sig.signatureBytes.length = PROOF_SIZE) : sig.json.length ≤ 7500 := by
  have hid := hid.length_string
  have hproof := length_proofJson hproof
  have hnames : (utf8 "authority_id").length = 12 ∧ (utf8 "signature_bytes").length = 15 := by
    decide +kernel
  refine (JsonText.length_object_le _).trans ?_
  simp only [List.map_cons, List.map_nil, List.sum_cons, List.sum_nil, hnames]
  omega

lemma SignedDocument.length_json_le (h : SignedDocument S count d) :
    d.json.length ≤ 4967300 + 7501 * count := by
  have hafter := length_number64_le d.validAfter
  have huntil := length_number64_le d.validUntil
  have hrelays := length_relayListJson_le h.relays
  have hsignatures : (JsonText.array (d.signatures.map AuthoritySignature.json)).length ≤
      (d.signatures.map AuthoritySignature.json).length * (7500 + 1) + 2 :=
    JsonText.length_array_le (by
      rw [List.forall_mem_map]
      exact fun sig hsig =>
        sig.length_json_le (h.signatures sig hsig).1 (h.signatures sig hsig).2)
  have hcount := h.length
  have hnames : (utf8 "valid_after").length = 11 ∧ (utf8 "valid_until").length = 11 ∧
      (utf8 "relays").length = 6 ∧ (utf8 "signatures").length = 10 := by
    decide +kernel
  rw [List.length_map] at hsignatures
  refine (JsonText.length_object_le _).trans ?_
  simp only [List.map_cons, List.map_nil, List.sum_cons, List.sum_nil, hnames]
  omega

/-- A document that fits is sent, and the reader takes its header. -/
def FitsEnvelope (document : Bytes) : Prop :=
  ¬(document = [] ∨ 6 * MAX_FRAME_LEN < document.length) ∧
    documentTotal (documentHeader document) = .ok document.length

lemma fitsEnvelope_of_length {document : Bytes} (hne : document ≠ [])
    (hle : document.length ≤ 6 * MAX_FRAME_LEN) : FitsEnvelope document := by
  have hpos := List.length_pos_iff.mpr hne
  have hmax : MAX_FRAME_LEN = 1048576 := rfl
  have hmagic : documentMagic.length = 8 := by decide +kernel
  have hhead : (documentHeader document).take 8 = documentMagic := List.take_left' hmagic
  have htail : (documentHeader document).drop 8 = toBe 4 document.length := List.drop_left' hmagic
  have hlength : (documentHeader document).length = 12 := by
    rw [documentHeader, List.length_append, hmagic, length_toBe]
  have htotal : ofBe (toBe 4 document.length) = document.length := by
    rw [ofBe_toBe, Nat.mod_eq_of_lt (by omega)]
  refine ⟨?_, ?_⟩
  · rintro (rfl | hlarge)
    · exact hne rfl
    · omega
  · rw [documentTotal, if_neg (by simp [hhead, hlength]), htail, htotal]
    exact if_neg (by omega)

lemma length_votesJson_le {docs : List ConsensusDocument} (hlength : docs.length ≤ 13)
    (h : ∀ d ∈ docs, SignedDocument S 1 d) : (votesJson docs).length ≤ MAX_VOTE_FILE := by
  have hlist : (votesJson docs).length ≤
      (docs.map ConsensusDocument.json).length * (4967300 + 7501 * 1 + 1) + 2 :=
    JsonText.length_array_le (by
      rw [List.forall_mem_map]
      exact fun d hd => (h d hd).length_json_le)
  have hmax : MAX_VOTE_FILE = 67108864 := rfl
  rw [List.length_map] at hlist
  omega

lemma readBoundedFile_of_length {maximum : ℕ} {contents : Bytes} (h : contents.length ≤ maximum) :
    readBoundedFile maximum contents = .ok contents := by
  have hwhole : contents.take (maximum + 1) = contents := List.take_of_length_le (by omega)
  rw [readBoundedFile, if_neg (by omega), hwhole]
  exact if_neg (by omega)

end Lengths

/-- Relay lists of verified descriptors and documents with at most sixteen signatures fit the
envelope, and the votes of thirteen epochs fit the file. -/
theorem directory_state_fits (S : DirectoryEnv) :
    (∀ relays, ListedRelays S relays → FitsEnvelope (relayListJson relays)) ∧
    (∀ d, SignedDocument S 16 d → FitsEnvelope d.json) ∧
    ∀ docs : List ConsensusDocument, docs.length ≤ 13 → (∀ d ∈ docs, SignedDocument S 1 d) →
      readBoundedFile MAX_VOTE_FILE (votesJson docs) = .ok (votesJson docs) := by
  have hmax : MAX_FRAME_LEN = 1048576 := rfl
  refine ⟨fun relays h => ?_, fun d h => ?_, fun docs hlength h => ?_⟩
  · have hle := length_relayListJson_le h
    exact fitsEnvelope_of_length (List.cons_ne_nil _ _) (by omega)
  · have hle := h.length_json_le
    exact fitsEnvelope_of_length (List.cons_ne_nil _ _) (by omega)
  · exact readBoundedFile_of_length (length_votesJson_le hlength h)

end AnonGuard
