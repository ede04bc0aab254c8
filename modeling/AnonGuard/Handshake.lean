import AnonGuard.Circuit
import AnonGuard.Identity

/-!
# The handshake of one hop

The client sends an X25519 key and an ML-KEM key in a CREATE cell. The relay
answers with a key of its own, a ciphertext and a signature by its identity over
both sides' contributions, and the keys of the hop are derived from the shared
secrets and the signed transcript. The EXTEND payload carries the client's half
of a handshake through the circuit built so far.

X25519, ML-KEM-768 and HKDF-SHA256 are parameters, with the sizes of the
program's array types as laws. Secrets and randomness are arguments.
-/
namespace AnonGuard

/-- The key agreements and the key derivation, next to the signatures of identities. -/
structure HandshakeScheme extends IdentityScheme where
  x25519Public : (secret : Bytes) → Bytes
  diffieHellman : (secret peer : Bytes) → Bytes
  mlkemPublic : (decapsulationKey : Bytes) → Bytes
  encapsulate : (encapsulationKey coins : Bytes) → Option (Bytes × Bytes)
  decapsulate : (decapsulationKey cipher : Bytes) → Option Bytes
  /-- 32 octets of HKDF output. -/
  expand : (salt secret info : Bytes) → Option Bytes
  length_x25519Public (secret : Bytes) : (x25519Public secret).length = 32
  length_mlkemPublic (key : Bytes) : (mlkemPublic key).length = 1184
  length_cipher (key coins cipher shared : Bytes) :
    encapsulate key coins = some (cipher, shared) → cipher.length = 1088

/-- Both sides of a key agreement compute the same secret, and a hash has 32 octets. -/
structure HandshakeScheme.Correct (S : HandshakeScheme) : Prop where
  length_sha256 : ∀ b, (S.sha256 b).length = 32
  dh_comm : ∀ a b, S.diffieHellman a (S.x25519Public b) = S.diffieHellman b (S.x25519Public a)
  decapsulate_cipher : ∀ key coins cipher shared,
    S.encapsulate (S.mlkemPublic key) coins = some (cipher, shared) →
      S.decapsulate key cipher = some shared

/-- The random padding of a cell. -/
abbrev Padding := { p : Bytes // p.length = 32 }

/-- What the client draws for one hop. -/
structure ClientEphemeral where
  secret : Bytes
  decapsulationKey : Bytes
  padding : Padding

/-- What a relay draws for one circuit. -/
structure RelayEphemeral where
  secret : Bytes
  kemCoins : Bytes
  padding : Padding

/-- The 12-bit coefficients of the triples are reduced; a rest of one or two octets is
left out. -/
def coefficientsReduced : Bytes → Bool
  | a :: b :: c :: rest =>
    let first := a.toUInt16 ||| ((b &&& 15).toUInt16 <<< 8)
    let second := (b >>> 4).toUInt16 ||| (c.toUInt16 <<< 4)
    decide (first < 3329) && decide (second < 3329) && coefficientsReduced rest
  | _ => true

def mlkem768PublicIsCanonical (bytes : Bytes) : Bool :=
  bytes.length == 1184 && coefficientsReduced (bytes.take 1152)

/-- The contributions that the signature of a handshake covers. -/
structure Transcript where
  contextId : UInt32
  hopIndex : ℕ
  identityPub : Bytes
  relayPub : Bytes
  clientPub : Bytes
  clientMlkemPub : Bytes
  mlkemCt : Bytes
  deriving DecidableEq, Repr

namespace Transcript

/-- The signed octets. -/
def preimage (t : Transcript) : Bytes :=
  utf8 "AnonGuard-handshake-v6" ++ (be32 t.contextId ++ (UInt8.ofNat t.hopIndex ::
    (t.identityPub ++ (t.relayPub ++ (t.clientPub ++ (t.clientMlkemPub ++ t.mlkemCt))))))

/-- The fields have the sizes of the program's types. -/
structure Sized (t : Transcript) : Prop where
  hopIndex : t.hopIndex < 256
  identityPub : t.identityPub.length = 32
  relayPub : t.relayPub.length = 32
  clientPub : t.clientPub.length = 32
  clientMlkemPub : t.clientMlkemPub.length = 1184
  mlkemCt : t.mlkemCt.length = 1088

end Transcript

def NON_CONTRIBUTORY : Bytes := List.replicate 32 0

/-- The size of the payload of a CREATE cell. -/
def CREATE_SIZE : ℕ := 1 + 32 + 1184 + 4 + 1

/-- The size of the payload of a CREATED cell. -/
def CREATED_SIZE : ℕ := 64 + PROOF_SIZE + 1088

/-- The names of the commands in error texts. -/
def CellCommand.debug : CellCommand → String
  | create => "Create"
  | created => "Created"
  | relay => "Relay"
  | destroy => "Destroy"
  | extend => "Extend"
  | extended => "Extended"
  | data => "Data"
  | dataAck => "DataAck"
  | dummy => "Dummy"
  | «end» => "End"
  | session => "Session"
  | sessionAccepted => "SessionAccepted"
  | sessionOpen => "SessionOpen"
  | sessionOpened => "SessionOpened"
  | sessionRefused => "SessionRefused"
  | sessionFinish => "SessionFinish"
  | sessionFinished => "SessionFinished"
  | sessionReset => "SessionReset"

def buildCreateCell (circuitId : UInt32) (clientPub clientMlkemPub : Bytes) (hopIndex : ℕ)
    (padding : Padding) : Except CircuitError OnionCell :=
  if hopIndex ≥ MAX_HOPS then .error (.hopIndexOutOfRange hopIndex)
  else
    let payload := UInt8.ofNat hopIndex :: (clientPub ++ (clientMlkemPub ++ (be32 circuitId ++ [6])))
    match OnionCell.new circuitId 0 .create 0 payload padding with
    | .error e => .error (.general e)
    | .ok cell => .ok cell

namespace HandshakeScheme
variable (S : HandshakeScheme)

def deriveHopKeysWithContext (sharedSecret transcript : Bytes) : Except CircuitError HopKeys :=
  let expand := S.expand (S.sha256 transcript) sharedSecret
  match expand (utf8 "AnonGuard-Forward-Key-v6"), expand (utf8 "AnonGuard-Backward-Key-v6"),
    expand (utf8 "AnonGuard-Forward-MAC-v6"), expand (utf8 "AnonGuard-Backward-MAC-v6"),
    expand (utf8 "AnonGuard-Forward-AEAD-Key-v6"), expand (utf8 "AnonGuard-Backward-AEAD-Key-v6") with
  | some forwardKey, some backwardKey, some _, some _, some forwardAeadKey, some backwardAeadKey =>
    .ok ⟨forwardKey, backwardKey, forwardAeadKey, backwardAeadKey⟩
  | _, _, _, _, _, _ => .error .keyDerivationFailed

/-- `handle_create_cell` up to the signature: what the relay signs, and the hybrid secret. -/
def relayAgreement (createCell : OnionCell) (relayKey : SigningKey S.toIdentityScheme)
    (eph : RelayEphemeral) : Except CircuitError (Transcript × Bytes) :=
  if createCell.command ≠ .create then
    .error (.parseError ("Expected CREATE, got " ++ createCell.command.debug))
  else if createCell.length ≠ 1222 ∨ createCell.payload.getD 1221 0 ≠ 6 then .error .payloadTooShort
  else
    let contextId := u32OfBe (slice 1217 1221 createCell.payload)
    let hopIndex := (createCell.payload.getD 0 0).toNat
    if hopIndex ≥ MAX_HOPS then .error (.hopIndexOutOfRange hopIndex)
    else
      let clientPub := slice 1 33 createCell.payload
      let clientMlkemPub := slice 33 1217 createCell.payload
      if mlkem768PublicIsCanonical clientMlkemPub = false then
        .error (.parseError "Non-canonical ML-KEM public key")
      else
        let x25519Shared := S.diffieHellman eph.secret clientPub
        if x25519Shared = NON_CONTRIBUTORY then .error (.general "Non-contributory DH key rejected")
        else
          match S.encapsulate clientMlkemPub eph.kemCoins with
          | none => .error (.general "ML-KEM encapsulation failed")
          | some (mlkemCt, mlkemShared) =>
            .ok (⟨contextId, hopIndex, relayKey.verifyingKey, S.x25519Public eph.secret, clientPub,
              clientMlkemPub, mlkemCt⟩, x25519Shared ++ mlkemShared)

/-- The payload of the answer to a CREATE cell. -/
def createdPayload (relayKey : SigningKey S.toIdentityScheme) (t : Transcript) : Bytes :=
  t.relayPub ++ (t.identityPub ++ (relayKey.sign t.preimage ++ t.mlkemCt))

def handleCreateCell (createCell : OnionCell) (relayKey : SigningKey S.toIdentityScheme)
    (eph : RelayEphemeral) : Except CircuitError (RelayCircuitHop × OnionCell) :=
  match S.relayAgreement createCell relayKey eph with
  | .error e => .error e
  | .ok (t, hybridSecret) =>
    match S.deriveHopKeysWithContext hybridSecret t.preimage with
    | .error e => .error e
    | .ok keys =>
      match OnionCell.new createCell.circuitId 0 .created 0 (S.createdPayload relayKey t)
          eph.padding with
      | .error e => .error (.general e)
      | .ok createdCell =>
        .ok ({ RelayCircuitHop.new createCell.circuitId keys t.hopIndex with
          contextId := t.contextId }, createdCell)

/-- `process_created_cell` up to the key derivation: the transcript whose signature it has
checked, and the hybrid secret. -/
def clientAgreement (createdCell : OnionCell) (eph : ClientEphemeral) (pinnedIdentityKey : Bytes)
    (cid : UInt32) (hopIndex : ℕ) : Except CircuitError (Transcript × Bytes) :=
  if hopIndex ≥ MAX_HOPS then .error (.hopIndexOutOfRange hopIndex)
  else if createdCell.command ≠ .created ∧ createdCell.command ≠ .extended then
    .error (.parseError ("Expected CREATED or EXTENDED cell, got " ++ createdCell.command.debug))
  else if createdCell.length.toNat ≠ CREATED_SIZE then .error .payloadTooShort
  else
    let relayPub := slice 0 32 createdCell.payload
    let identityPub := slice 32 64 createdCell.payload
    let signature := slice 64 (64 + PROOF_SIZE) createdCell.payload
    let mlkemCt := slice (64 + PROOF_SIZE) CREATED_SIZE createdCell.payload
    if pinnedIdentityKey = ZERO_PIN ∨ identityPub ≠ pinnedIdentityKey then .error .unpinnedRelay
    else
      match verifyingKeyFromBytes identityPub with
      | none => .error (.parseError "Invalid relay composite identity key: Zero identity pin")
      | some verifyingKey =>
        let t : Transcript := ⟨cid, hopIndex, identityPub, relayPub, S.x25519Public eph.secret,
          S.mlkemPublic eph.decapsulationKey, mlkemCt⟩
        if S.verifyStrict verifyingKey t.preimage signature = false then
          .error (.general "Handshake hybrid signature verification failed")
        else
          let x25519Shared := S.diffieHellman eph.secret relayPub
          if x25519Shared = NON_CONTRIBUTORY then
            .error (.general "Non-contributory DH key rejected")
          else
            match S.decapsulate eph.decapsulationKey mlkemCt with
            | none => .error (.general "ML-KEM decapsulation failed")
            | some mlkemShared => .ok (t, x25519Shared ++ mlkemShared)

def processCreatedCell (createdCell : OnionCell) (eph : ClientEphemeral) (pinnedIdentityKey : Bytes)
    (cid : UInt32) (hopIndex : ℕ) : Except CircuitError HopKeys :=
  match S.clientAgreement createdCell eph pinnedIdentityKey cid hopIndex with
  | .error e => .error e
  | .ok (t, hybridSecret) => S.deriveHopKeysWithContext hybridSecret t.preimage

end HandshakeScheme

/-- The size of an EXTEND payload without its host. -/
def EXTEND_FIXED : ℕ := 1 + 1 + 2 + 32 + 1184

/-- What a relay reads from an EXTEND payload. -/
structure ExtendBody where
  host : String
  port : UInt16
  clientPub : Bytes
  clientMlkemPub : Bytes
  hopIndex : ℕ
  deriving DecidableEq, Repr

def encodeExtendPayload (nextHost : String) (nextPort : UInt16) (clientPub clientMlkemPub : Bytes)
    (hopIndex : ℕ) : Except CircuitError Bytes :=
  if hopIndex ≥ MAX_HOPS then .error (.hopIndexOutOfRange hopIndex)
  else if (utf8 nextHost).length > 255 then
    .error (.general "Host string exceeds 255 bytes limit")
  else .ok (UInt8.ofNat hopIndex :: (UInt8.ofNat (utf8 nextHost).length :: (utf8 nextHost ++
    (be16 nextPort ++ (clientPub ++ clientMlkemPub)))))

def decodeExtendPayload (payload : Bytes) : Except CircuitError ExtendBody :=
  if payload.length < EXTEND_FIXED then .error .payloadTooShort
  else
    let hopIndex := (payload.getD 0 0).toNat
    if hopIndex ≥ MAX_HOPS then .error (.hopIndexOutOfRange hopIndex)
    else
      let hostLen := (payload.getD 1 0).toNat
      if payload.length < EXTEND_FIXED + hostLen then .error .payloadTooShort
      else if payload.length ≠ EXTEND_FIXED + hostLen then
        .error (.parseError "Trailing EXTEND payload bytes")
      else
        match String.fromUTF8? ⟨(slice 2 (2 + hostLen) payload).toArray⟩ with
        | none => .error (.parseError "Invalid UTF-8 in EXTEND host")
        | some host =>
          let port := u16OfBe (slice (2 + hostLen) (2 + hostLen + 2) payload)
          let clientPub := slice (2 + hostLen + 2) (2 + hostLen + 2 + 32) payload
          let clientMlkemPub := slice (2 + hostLen + 2 + 32) (2 + hostLen + 2 + 32 + 1184) payload
          if mlkem768PublicIsCanonical clientMlkemPub = false then
            .error (.parseError "Non-canonical ML-KEM public key")
          else .ok ⟨host, port, clientPub, clientMlkemPub, hopIndex⟩

section Slices
variable {x y : Bytes} {n a b : ℕ}

lemma slice_zero_append (h : x.length = n) : slice 0 n (x ++ y) = x := by
  rw [slice, List.drop_zero, ← h, List.take_left]

lemma slice_add_append (h : x.length = n) : slice (n + a) (n + b) (x ++ y) = slice a b y := by
  subst h
  rw [slice, slice, List.take_length_add_append, List.drop_length_add_append]

lemma slice_append_slice {c : ℕ} (hab : a ≤ b) (hbc : b ≤ c) :
    slice a b x ++ slice b c x = slice a c x := by
  obtain ⟨k, rfl⟩ := Nat.exists_eq_add_of_le hab
  obtain ⟨m, rfl⟩ := Nat.exists_eq_add_of_le hbc
  simp only [slice, List.drop_take, Nat.add_sub_cancel_left, ← List.drop_drop]
  rw [Nat.add_assoc, Nat.add_sub_cancel_left, List.take_add]

lemma length_slice (h : b ≤ x.length) : (slice a b x).length = b - a := by
  rw [slice, List.length_drop, List.length_take_of_le h]

end Slices

/-- What a new cell holds. -/
lemma OnionCell.new_eq_ok (circuitId sequenceNo : UInt32) (command : CellCommand)
    (streamId : UInt16) {data : Bytes} (padding : Padding) (h : data.length ≤ PAYLOAD_SIZE) :
    ∃ cell, OnionCell.new circuitId sequenceNo command streamId data padding = .ok cell ∧
      cell.circuitId = circuitId ∧ cell.command = command ∧ cell.length.toNat = data.length ∧
      cell.payload = data ++ List.replicate (PAYLOAD_SIZE - data.length) 0 := by
  have hlt : data.length < 2 ^ 16 := lt_of_le_of_lt h (by decide)
  refine ⟨_, dif_neg (Nat.not_lt.mpr h), rfl, rfl, ?_, rfl⟩
  rw [UInt16.toNat_ofNat', Nat.mod_eq_of_lt hlt]

namespace Transcript
variable {t t' : Transcript}

lemma length_preimage (h : t.Sized) : t.preimage.length = 2395 := by
  have hlabel : (utf8 "AnonGuard-handshake-v6").length = 22 := by decide +kernel
  simp only [preimage, List.length_append, List.length_cons, length_be32, hlabel, h.identityPub,
    h.relayPub, h.clientPub, h.clientMlkemPub, h.mlkemCt]

lemma length_preimage_le (h : t.Sized) : t.preimage.length ≤ MAX_MESSAGE := by
  rw [length_preimage h]
  decide

/-- The signed octets determine all contributions. -/
theorem preimage_injective (h : t.Sized) (h' : t'.Sized) (heq : t.preimage = t'.preimage) :
    t = t' := by
  have hrest := (List.append_inj heq rfl).2
  obtain ⟨hcontext, hrest⟩ := List.append_inj hrest (by simp)
  obtain ⟨hindex, hrest⟩ := List.cons.inj hrest
  obtain ⟨hpin, hrest⟩ := List.append_inj hrest (h.identityPub.trans h'.identityPub.symm)
  obtain ⟨hrelay, hrest⟩ := List.append_inj hrest (h.relayPub.trans h'.relayPub.symm)
  obtain ⟨hclient, hrest⟩ := List.append_inj hrest (h.clientPub.trans h'.clientPub.symm)
  obtain ⟨hkem, hcipher⟩ := List.append_inj hrest (h.clientMlkemPub.trans h'.clientMlkemPub.symm)
  have hcontext' : t.contextId = t'.contextId := by
    rw [← u32OfBe_be32 t.contextId, hcontext, u32OfBe_be32]
  have hindex' : t.hopIndex = t'.hopIndex := by
    have hnat := congrArg UInt8.toNat hindex
    rwa [UInt8.toNat_ofNat', UInt8.toNat_ofNat', Nat.mod_eq_of_lt h.hopIndex,
      Nat.mod_eq_of_lt h'.hopIndex] at hnat
  cases t
  cases t'
  simp_all

end Transcript

section Agreement
variable {S : HandshakeScheme} {createCell createdCell : OnionCell}
  {relayKey : SigningKey S.toIdentityScheme} {eph : RelayEphemeral} {client : ClientEphemeral}
  {pin hybridSecret : Bytes} {cid : UInt32} {hopIndex : ℕ} {t : Transcript} {keys : HopKeys}

lemma HandshakeScheme.Correct.length_verifyingKey (hS : S.Correct)
    (relayKey : SigningKey S.toIdentityScheme) : relayKey.verifyingKey.length = 32 :=
  hS.length_sha256 _

/-- The contributions that a relay has signed, by the fields of the CREATE cell. -/
lemma HandshakeScheme.relayAgreement_eq_ok
    (h : S.relayAgreement createCell relayKey eph = .ok (t, hybridSecret)) :
    ∃ mlkemShared, t.hopIndex < MAX_HOPS ∧ t.identityPub = relayKey.verifyingKey ∧
      t.relayPub = S.x25519Public eph.secret ∧ t.clientPub = slice 1 33 createCell.payload ∧
      t.clientMlkemPub = slice 33 1217 createCell.payload ∧
      S.encapsulate t.clientMlkemPub eph.kemCoins = some (t.mlkemCt, mlkemShared) ∧
      hybridSecret = S.diffieHellman eph.secret t.clientPub ++ mlkemShared := by
  unfold relayAgreement at h
  split_ifs at h with hcommand hsize
  dsimp only at h
  split_ifs at h with hindex hcanonical hcontributory
  cases hkem : S.encapsulate (slice 33 1217 createCell.payload) eph.kemCoins with
  | none => simp [hkem] at h
  | some out =>
    obtain ⟨mlkemCt, mlkemShared⟩ := out
    rw [hkem] at h
    cases h
    exact ⟨mlkemShared, Nat.lt_of_not_le hindex, rfl, rfl, rfl, rfl, hkem, rfl⟩

lemma HandshakeScheme.sized_of_relayAgreement (hS : S.Correct)
    (h : S.relayAgreement createCell relayKey eph = .ok (t, hybridSecret)) : t.Sized := by
  obtain ⟨mlkemShared, hindex, hpin, hrelay, hclient, hkem, hcipher, -⟩ := relayAgreement_eq_ok h
  have hsize : 1217 ≤ createCell.payload.length := by
    rw [createCell.payload_size]
    decide
  have hmax : MAX_HOPS < 256 := by decide
  exact {
    hopIndex := hindex.trans hmax
    identityPub := hpin ▸ hS.length_verifyingKey relayKey
    relayPub := hrelay ▸ S.length_x25519Public _
    clientPub := hclient ▸ length_slice (by omega)
    clientMlkemPub := hkem ▸ length_slice hsize
    mlkemCt := S.length_cipher _ _ _ _ hcipher }

/-- A relay that has accepted a CREATE cell has signed a transcript, derived its keys from
it, and is at the place in the circuit that the transcript names. -/
lemma HandshakeScheme.handleCreateCell_eq_ok {hop : RelayCircuitHop}
    (h : S.handleCreateCell createCell relayKey eph = .ok (hop, createdCell)) :
    ∃ t hybridSecret, S.relayAgreement createCell relayKey eph = .ok (t, hybridSecret) ∧
      S.deriveHopKeysWithContext hybridSecret t.preimage = .ok hop.keys ∧
      hop = { RelayCircuitHop.new createCell.circuitId hop.keys t.hopIndex with
        contextId := t.contextId } ∧
      OnionCell.new createCell.circuitId 0 .created 0 (S.createdPayload relayKey t) eph.padding =
        .ok createdCell := by
  unfold handleCreateCell at h
  cases hagree : S.relayAgreement createCell relayKey eph with
  | error => simp [hagree] at h
  | ok out =>
    obtain ⟨t, hybridSecret⟩ := out
    simp only [hagree] at h
    cases hkeys : S.deriveHopKeysWithContext hybridSecret t.preimage with
    | error => simp [hkeys] at h
    | ok =>
      simp only [hkeys] at h
      cases hnew : OnionCell.new createCell.circuitId 0 .created 0 (S.createdPayload relayKey t)
          eph.padding with
      | error => simp [hnew] at h
      | ok =>
        simp only [hnew, Except.ok.injEq, Prod.mk.injEq] at h
        obtain ⟨rfl, rfl⟩ := h
        exact ⟨t, hybridSecret, rfl, hkeys, rfl, hnew⟩

/-- What the client has checked when it accepts an answer: the pinned identity has signed
the transcript of its own contributions, and the secret is that of these contributions. -/
lemma HandshakeScheme.clientAgreement_eq_ok
    (h : S.clientAgreement createdCell client pin cid hopIndex = .ok (t, hybridSecret)) :
    ∃ mlkemShared, hopIndex < MAX_HOPS ∧
      t = ⟨cid, hopIndex, pin, slice 0 32 createdCell.payload, S.x25519Public client.secret,
        S.mlkemPublic client.decapsulationKey,
        slice (64 + PROOF_SIZE) CREATED_SIZE createdCell.payload⟩ ∧
      pin = slice 32 64 createdCell.payload ∧
      S.verifyStrict pin t.preimage (slice 64 (64 + PROOF_SIZE) createdCell.payload) = true ∧
      S.decapsulate client.decapsulationKey t.mlkemCt = some mlkemShared ∧
      hybridSecret = S.diffieHellman client.secret t.relayPub ++ mlkemShared := by
  unfold clientAgreement at h
  split_ifs at h with hindex hcommand hsize
  dsimp only at h
  by_cases hpin : pin = ZERO_PIN ∨ slice 32 64 createdCell.payload ≠ pin
  · rw [if_pos hpin] at h
    cases h
  obtain ⟨hzero, hsame⟩ := not_or.mp hpin
  have hsame := not_not.mp hsame
  rw [if_neg hpin, verifyingKeyFromBytes, hsame, if_neg hzero] at h
  dsimp only at h
  split_ifs at h with hverify
  cases hkem : S.decapsulate client.decapsulationKey
      (slice (64 + PROOF_SIZE) CREATED_SIZE createdCell.payload) with
  | none => simp [hkem] at h
  | some mlkemShared =>
    rw [hkem] at h
    cases h
    exact ⟨mlkemShared, Nat.lt_of_not_le hindex, rfl, hsame.symm, by simpa using hverify, hkem, rfl⟩

lemma HandshakeScheme.sized_of_clientAgreement
    (h : S.clientAgreement createdCell client pin cid hopIndex = .ok (t, hybridSecret)) :
    t.Sized := by
  obtain ⟨mlkemShared, hindex, rfl, hpin, -⟩ := clientAgreement_eq_ok h
  have hsize : CREATED_SIZE ≤ createdCell.payload.length := by
    rw [createdCell.payload_size]
    decide
  have hproof : CREATED_SIZE = 64 + PROOF_SIZE + 1088 := rfl
  have hmax : MAX_HOPS < 256 := by decide
  exact {
    hopIndex := hindex.trans hmax
    identityPub := hpin ▸ length_slice (by omega)
    relayPub := length_slice (by omega)
    clientPub := S.length_x25519Public _
    clientMlkemPub := S.length_mlkemPublic _
    mlkemCt := (length_slice hsize).trans (by omega) }

/-- Both sides of one transcript hold the same secret. -/
theorem HandshakeScheme.secret_of_transcript (hS : S.Correct) {relaySecret : Bytes}
    (hrelay : S.relayAgreement createCell relayKey eph = .ok (t, relaySecret))
    (hclient : S.clientAgreement createdCell client pin cid hopIndex = .ok (t, hybridSecret)) :
    relaySecret = hybridSecret := by
  obtain ⟨shared, -, -, hpub, -, -, hcipher, rfl⟩ := relayAgreement_eq_ok hrelay
  obtain ⟨shared', -, ht, -, -, hopen, rfl⟩ := clientAgreement_eq_ok hclient
  have hclientPub : t.clientPub = S.x25519Public client.secret := by rw [ht]
  have hclientKem : t.clientMlkemPub = S.mlkemPublic client.decapsulationKey := by rw [ht]
  have hshared : S.decapsulate client.decapsulationKey t.mlkemCt = some shared :=
    hS.decapsulate_cipher _ _ _ _ (hclientKem ▸ hcipher)
  rw [hopen] at hshared
  cases hshared
  rw [hclientPub, hpub, hS.dh_comm]

end Agreement

section Honest
variable {S : HandshakeScheme} {cid : UInt32} {hopIndex : ℕ}
  {relayKey : SigningKey S.toIdentityScheme} {eph : RelayEphemeral} {client : ClientEphemeral}
  {keys : HopKeys} {clientPub clientMlkemPub payload : Bytes}

/-- What both sides sign and verify when nothing is changed on the way. -/
def HandshakeScheme.honestTranscript (S : HandshakeScheme) (cid : UInt32) (hopIndex : ℕ)
    (relayKey : SigningKey S.toIdentityScheme) (eph : RelayEphemeral) (client : ClientEphemeral)
    (mlkemCt : Bytes) : Transcript :=
  ⟨cid, hopIndex, relayKey.verifyingKey, S.x25519Public eph.secret, S.x25519Public client.secret,
    S.mlkemPublic client.decapsulationKey, mlkemCt⟩

/-- No primitive fails on the draws of the two sides, and they lead to `keys`. -/
structure HandshakeScheme.Completes (S : HandshakeScheme) (cid : UInt32) (hopIndex : ℕ)
    (relayKey : SigningKey S.toIdentityScheme) (eph : RelayEphemeral) (client : ClientEphemeral)
    (keys : HopKeys) : Prop where
  canonical : mlkem768PublicIsCanonical (S.mlkemPublic client.decapsulationKey) = true
  contributory : S.diffieHellman client.secret (S.x25519Public eph.secret) ≠ NON_CONTRIBUTORY
  derived : ∃ mlkemCt mlkemShared,
    S.encapsulate (S.mlkemPublic client.decapsulationKey) eph.kemCoins =
      some (mlkemCt, mlkemShared) ∧
    S.deriveHopKeysWithContext
      (S.diffieHellman client.secret (S.x25519Public eph.secret) ++ mlkemShared)
      (S.honestTranscript cid hopIndex relayKey eph client mlkemCt).preimage = .ok keys

lemma buildCreateCell_eq_ok (cid : UInt32) {clientPub clientMlkemPub : Bytes} (hindex : hopIndex < MAX_HOPS)
    (hpub : clientPub.length = 32) (hkem : clientMlkemPub.length = 1184) (padding : Padding) :
    ∃ cell rest, buildCreateCell cid clientPub clientMlkemPub hopIndex padding = .ok cell ∧
      cell.circuitId = cid ∧ cell.command = .create ∧ cell.length.toNat = CREATE_SIZE ∧
      cell.payload = [UInt8.ofNat hopIndex] ++
        (clientPub ++ (clientMlkemPub ++ (be32 cid ++ ([6] ++ rest)))) := by
  have hsize : (UInt8.ofNat hopIndex ::
      (clientPub ++ (clientMlkemPub ++ (be32 cid ++ [6])))).length = CREATE_SIZE := by
    simp [hpub, hkem, CREATE_SIZE]
  have hfits : CREATE_SIZE ≤ PAYLOAD_SIZE := by decide
  obtain ⟨cell, hnew, hid, hcommand, hlength, hpayload⟩ :=
    OnionCell.new_eq_ok cid 0 .create 0 padding (hsize.le.trans hfits)
  refine ⟨cell, List.replicate (PAYLOAD_SIZE - CREATE_SIZE) 0, ?_, hid, hcommand,
    hlength.trans hsize, ?_⟩
  · rw [buildCreateCell, if_neg (Nat.not_le.mpr hindex)]
    simp only [hnew]
  · rw [hpayload, hsize]
    simp only [List.cons_append, List.append_assoc, List.nil_append]

/-- The relay reads from a CREATE cell what the client has put there. -/
lemma HandshakeScheme.relayAgreement_create {createCell : OnionCell}
    {clientPub clientMlkemPub rest mlkemCt mlkemShared : Bytes} (hindex : hopIndex < MAX_HOPS)
    (hpub : clientPub.length = 32) (hkem : clientMlkemPub.length = 1184)
    (hcommand : createCell.command = .create) (hlength : createCell.length.toNat = CREATE_SIZE)
    (hpayload : createCell.payload = [UInt8.ofNat hopIndex] ++
      (clientPub ++ (clientMlkemPub ++ (be32 cid ++ ([6] ++ rest)))))
    (hcanonical : mlkem768PublicIsCanonical clientMlkemPub = true)
    (hcontributory : S.diffieHellman eph.secret clientPub ≠ NON_CONTRIBUTORY)
    (hcipher : S.encapsulate clientMlkemPub eph.kemCoins = some (mlkemCt, mlkemShared)) :
    S.relayAgreement createCell relayKey eph =
      .ok (⟨cid, hopIndex, relayKey.verifyingKey, S.x25519Public eph.secret, clientPub,
        clientMlkemPub, mlkemCt⟩, S.diffieHellman eph.secret clientPub ++ mlkemShared) := by
  have hversion : createCell.payload.getD 1221 0 = 6 := by
    have hsplit : createCell.payload = ([UInt8.ofNat hopIndex] ++
        (clientPub ++ (clientMlkemPub ++ be32 cid))) ++ ([6] ++ rest) := by
      rw [hpayload]
      simp only [List.append_assoc]
    have hbefore : ([UInt8.ofNat hopIndex] ++
        (clientPub ++ (clientMlkemPub ++ be32 cid))).length = 1221 := by
      simp [hpub, hkem]
    rw [hsplit, List.getD_eq_getElem?_getD, List.getElem?_append_right hbefore.le, hbefore]
    rfl
  have hfirst : [UInt8.ofNat hopIndex].length = 1 := rfl
  have hcid : slice 1217 1221 createCell.payload = be32 cid := by
    rw [hpayload]
    calc slice (1 + (32 + (1184 + 0))) (1 + (32 + (1184 + 4))) _
      _ = slice (1184 + 0) (1184 + 4) (clientMlkemPub ++ (be32 cid ++ ([6] ++ rest))) := by
        rw [slice_add_append hfirst, slice_add_append hpub]
      _ = be32 cid := by rw [slice_add_append hkem, slice_zero_append (length_be32 cid)]
  have hclient : slice 1 33 createCell.payload = clientPub := by
    rw [hpayload]
    exact (slice_add_append hfirst).trans (slice_zero_append hpub)
  have hek : slice 33 1217 createCell.payload = clientMlkemPub := by
    rw [hpayload]
    calc slice (1 + (32 + 0)) (1 + (32 + 1184)) _
      _ = slice 0 1184 (clientMlkemPub ++ (be32 cid ++ ([6] ++ rest))) := by
        rw [slice_add_append hfirst, slice_add_append hpub]
      _ = clientMlkemPub := slice_zero_append hkem
  have hat : (createCell.payload.getD 0 0).toNat = hopIndex := by
    have hsmall : hopIndex < 2 ^ 8 := hindex.trans (by decide)
    rw [hpayload, List.singleton_append, List.getD_cons_zero, UInt8.toNat_ofNat',
      Nat.mod_eq_of_lt hsmall]
  have hsize : createCell.length = 1222 := UInt16.toNat_inj.mp hlength
  unfold relayAgreement
  simp only [hcommand, hsize, hversion, hcid, hclient, hek, hat, u32OfBe_be32, hcanonical, hcipher,
    ne_eq, not_true_eq_false, or_self, if_false, if_neg (Nat.not_le.mpr hindex),
    if_neg hcontributory, Bool.true_eq_false]

lemma HandshakeScheme.length_createdPayload (relayKey : SigningKey S.toIdentityScheme)
    {t : Transcript} (hsized : t.Sized) :
    (S.createdPayload relayKey t).length = CREATED_SIZE := by
  have hproof := IdentityScheme.length_of_verifyStrict
    (relayKey.verifyStrict_sign _ (Transcript.length_preimage_le hsized))
  have hsize : CREATED_SIZE = 32 + (32 + (PROOF_SIZE + 1088)) := by decide
  simp only [createdPayload, List.length_append, hproof, hsized.relayPub, hsized.identityPub,
    hsized.mlkemCt, hsize]

/-- The client accepts the answer of the relay that its pin names. -/
lemma HandshakeScheme.clientAgreement_created {createdCell : OnionCell} {rest mlkemCt mlkemShared : Bytes}
    (hindex : hopIndex < MAX_HOPS) (hzero : relayKey.verifyingKey ≠ ZERO_PIN)
    (hcommand : createdCell.command = .created) (hlength : createdCell.length.toNat = CREATED_SIZE)
    (hsized : (S.honestTranscript cid hopIndex relayKey eph client mlkemCt).Sized)
    (hpayload : createdCell.payload = S.createdPayload relayKey
      (S.honestTranscript cid hopIndex relayKey eph client mlkemCt) ++ rest)
    (hcontributory : S.diffieHellman client.secret (S.x25519Public eph.secret) ≠ NON_CONTRIBUTORY)
    (hopen : S.decapsulate client.decapsulationKey mlkemCt = some mlkemShared) :
    S.clientAgreement createdCell client relayKey.verifyingKey cid hopIndex =
      .ok (S.honestTranscript cid hopIndex relayKey eph client mlkemCt,
        S.diffieHellman client.secret (S.x25519Public eph.secret) ++ mlkemShared) := by
  have hverify := relayKey.verifyStrict_sign _ (Transcript.length_preimage_le hsized)
  have hproof := IdentityScheme.length_of_verifyStrict hverify
  have hlayout : createdCell.payload = S.x25519Public eph.secret ++ (relayKey.verifyingKey ++
      (relayKey.sign (S.honestTranscript cid hopIndex relayKey eph client mlkemCt).preimage ++
        (mlkemCt ++ rest))) := by
    rw [hpayload, createdPayload]
    simp only [List.append_assoc]
    rfl
  have hx25519 := S.length_x25519Public eph.secret
  have hidentity : relayKey.verifyingKey.length = 32 := hsized.identityPub
  have hrelay : slice 0 32 createdCell.payload = S.x25519Public eph.secret := by
    rw [hlayout]
    exact slice_zero_append hx25519
  have hpin : slice 32 64 createdCell.payload = relayKey.verifyingKey := by
    rw [hlayout]
    exact (slice_add_append hx25519).trans (slice_zero_append hidentity)
  have hsignature : slice 64 (64 + PROOF_SIZE) createdCell.payload =
      relayKey.sign (S.honestTranscript cid hopIndex relayKey eph client mlkemCt).preimage := by
    rw [hlayout]
    calc slice (32 + (32 + 0)) (32 + (32 + PROOF_SIZE)) _
      _ = slice 0 PROOF_SIZE (relayKey.sign _ ++ (mlkemCt ++ rest)) := by
        rw [slice_add_append hx25519, slice_add_append hidentity]
      _ = _ := slice_zero_append hproof
  have hct : slice (64 + PROOF_SIZE) CREATED_SIZE createdCell.payload = mlkemCt := by
    rw [hlayout]
    calc slice (32 + (32 + (PROOF_SIZE + 0))) (32 + (32 + (PROOF_SIZE + 1088))) _
      _ = slice (PROOF_SIZE + 0) (PROOF_SIZE + 1088) (relayKey.sign _ ++ (mlkemCt ++ rest)) := by
        rw [slice_add_append hx25519, slice_add_append hidentity]
      _ = mlkemCt := (slice_add_append hproof).trans (slice_zero_append hsized.mlkemCt)
  have hnamed : ¬ (relayKey.verifyingKey = ZERO_PIN ∨
      relayKey.verifyingKey ≠ relayKey.verifyingKey) := by
    simpa using hzero
  have hanswer : ¬ (createdCell.command ≠ .created ∧ createdCell.command ≠ .extended) :=
    fun h => h.1 hcommand
  unfold clientAgreement
  rw [if_neg (Nat.not_le.mpr hindex), if_neg hanswer, if_neg (not_not.mpr hlength)]
  simp only [hrelay, hpin, hsignature, hct, if_neg hnamed, verifyingKeyFromBytes, if_neg hzero]
  unfold honestTranscript at hverify
  simp only [honestTranscript, hverify, Bool.true_eq_false, if_false, if_neg hcontributory, hopen]

/-- A handshake whose cells arrive unchanged, under any link id, gives both sides the same
keys. The relay's place in the circuit is the one that the client has asked for. -/
theorem HandshakeScheme.Completes.handshake (hS : S.Correct)
    (h : S.Completes cid hopIndex relayKey eph client keys) (hindex : hopIndex < MAX_HOPS)
    (hzero : relayKey.verifyingKey ≠ ZERO_PIN) {padding : Padding} {createCell received : OnionCell}
    (hcreate : buildCreateCell cid (S.x25519Public client.secret)
      (S.mlkemPublic client.decapsulationKey) hopIndex padding = .ok createCell)
    (hreceived : received.SameContent createCell) :
    ∃ createdCell, S.handleCreateCell received relayKey eph =
        .ok (⟨received.circuitId, cid, keys, 1, 1, hopIndex⟩, createdCell) ∧
      createdCell.circuitId = received.circuitId ∧
      ∀ answer : OnionCell, answer.SameContent createdCell →
        S.processCreatedCell answer client relayKey.verifyingKey cid hopIndex = .ok keys := by
  obtain ⟨mlkemCt, mlkemShared, hcipher, hderive⟩ := h.derived
  obtain ⟨cell, rest, hbuilt, -, hcommand, hlength, hpayload⟩ := buildCreateCell_eq_ok cid
    hindex (S.length_x25519Public client.secret) (S.length_mlkemPublic client.decapsulationKey)
    padding
  rw [hbuilt] at hcreate
  cases hcreate
  obtain ⟨hc, -, hl, hp⟩ := hreceived
  have hcontributory : S.diffieHellman eph.secret (S.x25519Public client.secret) ≠
      NON_CONTRIBUTORY := by
    rw [hS.dh_comm]
    exact h.contributory
  have hrelay : S.relayAgreement received relayKey eph =
      .ok (S.honestTranscript cid hopIndex relayKey eph client mlkemCt,
        S.diffieHellman client.secret (S.x25519Public eph.secret) ++ mlkemShared) := by
    rw [hS.dh_comm]
    exact relayAgreement_create hindex (S.length_x25519Public _) (S.length_mlkemPublic _)
      (hc.trans hcommand) (hl ▸ hlength) (hp.trans hpayload) h.canonical hcontributory hcipher
  have hsized := sized_of_relayAgreement hS hrelay
  have hsize := length_createdPayload relayKey hsized
  have hfits : CREATED_SIZE ≤ PAYLOAD_SIZE := by decide
  obtain ⟨createdCell, hnew, hid, hcommand', hlength', hpayload'⟩ := OnionCell.new_eq_ok
    received.circuitId 0 .created 0 eph.padding (hsize.le.trans hfits)
  refine ⟨createdCell, ?_, hid, ?_⟩
  · simp only [handleCreateCell, hrelay, hderive, hnew]
    rfl
  · rintro answer ⟨ha, -, hal, hap⟩
    have hclient := clientAgreement_created hindex hzero (ha.trans hcommand')
      (hal ▸ hlength'.trans hsize) hsized (hap.trans hpayload') h.contributory
      (hS.decapsulate_cipher _ _ _ _ hcipher)
    simp only [processCreatedCell, hclient, hderive]

lemma length_encodeExtendPayload {host : String} {port : UInt16} (hpub : clientPub.length = 32)
    (hkem : clientMlkemPub.length = 1184)
    (h : encodeExtendPayload host port clientPub clientMlkemPub hopIndex = .ok payload) :
    payload.length = EXTEND_FIXED + (utf8 host).length := by
  unfold encodeExtendPayload at h
  split_ifs at h with hindex hhost
  cases h
  simp only [List.length_cons, List.length_append, length_be16, hpub, hkem, EXTEND_FIXED]
  omega

/-- A relay reads from an EXTEND payload what the client has put there. -/
theorem decodeExtendPayload_encode {host : String} {port : UInt16} (hpub : clientPub.length = 32)
    (hcanonical : mlkem768PublicIsCanonical clientMlkemPub = true)
    (h : encodeExtendPayload host port clientPub clientMlkemPub hopIndex = .ok payload) :
    decodeExtendPayload payload = .ok ⟨host, port, clientPub, clientMlkemPub, hopIndex⟩ := by
  have hkem : clientMlkemPub.length = 1184 := by
    simp only [mlkem768PublicIsCanonical, Bool.and_eq_true, beq_iff_eq] at hcanonical
    exact hcanonical.1
  have hlength := length_encodeExtendPayload hpub hkem h
  unfold encodeExtendPayload at h
  split_ifs at h with hindex hhost
  have hpayload := (Except.ok.inj h).symm
  have hat : (payload.getD 0 0).toNat = hopIndex := by
    have hsmall : hopIndex < 2 ^ 8 := (Nat.lt_of_not_le hindex).trans (by decide)
    rw [hpayload, List.getD_cons_zero, UInt8.toNat_ofNat', Nat.mod_eq_of_lt hsmall]
  have hhostLen : (payload.getD 1 0).toNat = (utf8 host).length := by
    rw [hpayload, List.getD_cons_succ, List.getD_cons_zero, UInt8.toNat_ofNat',
      Nat.mod_eq_of_lt (by omega)]
  have hlayout : payload = [UInt8.ofNat hopIndex, UInt8.ofNat (utf8 host).length] ++
      (utf8 host ++ (be16 port ++ (clientPub ++ (clientMlkemPub ++ [])))) := by
    rw [hpayload, List.append_nil]
    rfl
  have hfirst : [UInt8.ofNat hopIndex, UInt8.ofNat (utf8 host).length].length = 2 := rfl
  have hname : slice 2 (2 + (utf8 host).length) payload = utf8 host := by
    rw [hlayout]
    exact (slice_add_append hfirst).trans (slice_zero_append rfl)
  have hport : slice (2 + (utf8 host).length) (2 + (utf8 host).length + 2) payload = be16 port := by
    rw [hlayout, Nat.add_assoc, slice_add_append hfirst]
    exact (slice_add_append rfl).trans (slice_zero_append (length_be16 port))
  have hclient : slice (2 + (utf8 host).length + 2) (2 + (utf8 host).length + 2 + 32) payload =
      clientPub := by
    have hstart : 2 + (utf8 host).length + 2 = 2 + ((utf8 host).length + (2 + 0)) := by omega
    have hstop : 2 + (utf8 host).length + 2 + 32 = 2 + ((utf8 host).length + (2 + 32)) := by omega
    rw [hstop, hstart, hlayout, slice_add_append hfirst, slice_add_append rfl,
      slice_add_append (length_be16 port), slice_zero_append hpub]
  have hek : slice (2 + (utf8 host).length + 2 + 32) (2 + (utf8 host).length + 2 + 32 + 1184)
      payload = clientMlkemPub := by
    have hstart : 2 + (utf8 host).length + 2 + 32 =
        2 + ((utf8 host).length + (2 + (32 + 0))) := by omega
    have hstop : 2 + (utf8 host).length + 2 + 32 + 1184 =
        2 + ((utf8 host).length + (2 + (32 + 1184))) := by omega
    rw [hstop, hstart, hlayout, slice_add_append hfirst, slice_add_append rfl,
      slice_add_append (length_be16 port), slice_add_append hpub, slice_zero_append hkem]
  have hlong : ¬ payload.length < EXTEND_FIXED := by omega
  have hexact : ¬ payload.length ≠ EXTEND_FIXED + (utf8 host).length := not_not.mpr hlength
  have hfull : ¬ payload.length < EXTEND_FIXED + (utf8 host).length := by omega
  simp only [decodeExtendPayload, if_neg hlong, hat, if_neg hindex, hhostLen, if_neg hfull,
    if_neg hexact, hname, fromUTF8_utf8, hport, hclient, hek, hcanonical, u16OfBe_be16,
    Bool.true_eq_false, if_false]

end Honest

section Sample

lemma length_samplePadding : (List.replicate 32 0 : Bytes).length = 32 := List.length_replicate

def samplePadding : Padding := ⟨List.replicate 32 0, length_samplePadding⟩

/-- Key agreements with constant secrets, a hash that keeps 32 octets of its input, and
signatures that all verify. They serve for concrete circuits only. -/
def sampleHandshake : HandshakeScheme where
  sha256 b := (b.drop 39 ++ List.replicate 32 0).take 32
  edPoint _ := true
  edVerify _ _ _ := true
  mlDsaVerify _ _ _ := true
  x25519Public _ := List.replicate 32 9
  diffieHellman _ _ := [1]
  mlkemPublic _ := List.replicate 1184 0
  encapsulate _ _ := some (List.replicate 1088 0, [2])
  decapsulate _ _ := some [2]
  expand _ _ info := some info
  length_x25519Public _ := List.length_replicate
  length_mlkemPublic _ := List.length_replicate
  length_cipher := by
    rintro key coins cipher shared h
    cases h
    exact List.length_replicate

lemma sampleHandshake_correct : sampleHandshake.Correct where
  length_sha256 b := by
    simp only [sampleHandshake, List.length_take, List.length_append, List.length_replicate]
    omega
  dh_comm _ _ := rfl
  decapsulate_cipher := by
    rintro key coins cipher shared h
    cases h
    rfl

end Sample

end AnonGuard
