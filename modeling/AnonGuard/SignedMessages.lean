import AnonGuard.Framing
import AnonGuard.Relay
import AnonGuard.Revocation
import AnonGuard.TrackerControl

/-!
# What an identity signs

One identity key signs statements of several kinds under one purpose: descriptors,
handshakes, channel proofs, registrations with a tracker, and the digests of consensus
documents and of retirement policies. Each kind has its own label, but the fields after
the label are put together by hand. The signed octets still determine the kind and every
field, and a digest does so up to collisions of the hash.
-/
namespace AnonGuard

namespace RelayDescriptor

/-- The descriptor that is signed. -/
def unsigned (r : RelayDescriptor) : RelayDescriptor := { r with signature := [] }

/-- The keys have the size of the program's arrays. -/
structure KeysSized (r : RelayDescriptor) : Prop where
  onionKeyX25519 : r.onionKeyX25519.length = 32
  identityPin : r.identityPin.length = 32

/-- The length of each text is written in full. -/
structure Framed (r : RelayDescriptor) : Prop extends KeysSized r where
  nodeId : (utf8 r.nodeId).length < 256 ^ 4
  host : (utf8 r.host).length < 256 ^ 4

end RelayDescriptor

/-- The protocols of an authenticated channel. -/
inductive ChannelProtocol
  | relay (profile : CoverProfile)
  | tracker
  deriving DecidableEq, Repr

def ChannelProtocol.alpn : ChannelProtocol → Bytes
  | relay .strict => utf8 "anonguard/6"
  | relay .economy => utf8 "anonguard/6-cover40"
  | tracker => utf8 "anonguard-tracker/2"

/-- What a relay or a tracker proves on a TLS channel. -/
structure ChannelAuth where
  protocol : ChannelProtocol
  challenge : Bytes
  exporter : Bytes
  deriving DecidableEq, Repr

/-- `channel_auth_message`. -/
def ChannelAuth.message (c : ChannelAuth) : Bytes :=
  utf8 "AnonGuard-relay-channel-auth-v6" ++ c.protocol.alpn ++ c.challenge ++ c.exporter

/-- What a relay proves to a tracker: the command, on the TLS channel of the command. -/
structure Registration where
  node : Bytes
  token : String
  timestamp : UInt64
  nonce : UInt64
  challenge : Bytes
  exporter : Bytes
  deriving DecidableEq, Repr

namespace Registration

def command (g : Registration) : String :=
  "REGISTER_REVERSE " ++ hexEncode g.node ++ " " ++ g.token ++ " " ++ toString g.timestamp.toNat ++
    " " ++ toString g.nonce.toNat

/-- `registration_message`. -/
def message (g : Registration) : Bytes :=
  utf8 "AnonGuard-tracker-registration-v2\x00" ++ toBe 4 (utf8 g.command).length ++
    utf8 g.command ++ g.challenge ++ g.exporter

/-- `register_reverse` checks the token and, to send it, the length of the command before it
signs. -/
structure Sized (g : Registration) : Prop where
  node : g.node.length = 32
  token : validToken g.token = true
  command : (utf8 g.command).length ≤ MAX_CONTROL
  challenge : g.challenge.length = 32
  exporter : g.exporter.length = 32

end Registration

namespace RevocationPolicy

/-- The octets that the digest covers. -/
def contentBytes (p : RevocationPolicy) : Bytes :=
  utf8 "AnonGuard-IdentityRetirement-v1" ++ toBe 4 p.version.toNat ++ be64 p.generation ++
    p.authoritySet ++ toBe 4 p.revoked.length ++ (p.revoked.insertionSort (· ≤ ·)).flatten

/-- `sign` refuses other shapes, and the identities are arrays of 32 octets. -/
structure Sized (p : RevocationPolicy) : Prop where
  shape : p.validateShape = .ok ()
  authoritySet : p.authoritySet.length = 32
  revoked : ∀ identity ∈ p.revoked, identity.length = 32

end RevocationPolicy

/-- The statements that are signed with an identity key. -/
inductive SignedMessage
  | descriptor (r : RelayDescriptor)
  | handshake (t : Transcript)
  | channel (c : ChannelAuth)
  | registration (g : Registration)
  | consensus (d : ConsensusDocument)
  | retirement (p : RevocationPolicy)

namespace SignedMessage

/-- The octets given to `SigningKey::sign`. -/
def message (S : DirectoryEnv) : SignedMessage → Bytes
  | descriptor r => r.computeSigningBytes
  | handshake t => t.preimage
  | channel c => c.message
  | registration g => g.message
  | consensus d => d.computeDigest S
  | retirement p => p.digest S.toIdentityScheme

/-- The statements that the program signs. A message that is too long is not signed, and
the relays of a document have been verified. -/
def Signable (S : DirectoryEnv) : SignedMessage → Prop
  | descriptor r => r.KeysSized ∧ r.computeSigningBytes.length ≤ MAX_MESSAGE
  | handshake t => t.Sized
  | channel c => c.challenge.length = 32 ∧ c.exporter.length = 32
  | registration g => g.Sized
  | consensus d => ∀ r ∈ d.relays, r.KeysSized ∧ r.verifyIdentity S = true
  | retirement p => p.Sized

/-- What a signature is about: the statement without the signatures it carries itself, and
with its relays or identities in order. -/
def covered : SignedMessage → SignedMessage
  | descriptor r => descriptor r.unsigned
  | consensus d => consensus ⟨d.validAfter, d.validUntil,
      (d.relays.insertionSort fun a b => a.nodeId ≤ b.nodeId).map RelayDescriptor.unsigned, []⟩
  | retirement p => retirement { p with
      revoked := p.revoked.insertionSort (· ≤ ·)
      signatures := [] }
  | m => m

/-- The octets of the fields, before they are hashed where only a digest is signed. -/
def fields : SignedMessage → Bytes
  | descriptor r => r.computeSigningBytes
  | handshake t => t.preimage
  | channel c => c.message
  | registration g => g.message
  | consensus d => d.contentBytes
  | retirement p => p.contentBytes

def IsDigest : SignedMessage → Prop
  | consensus _ | retirement _ => True
  | _ => False

/-- Two statements of which only the digests are signed, and whose hashes collide. -/
def Collides (S : DirectoryEnv) (m m' : SignedMessage) : Prop :=
  m.IsDigest ∧ m'.IsDigest ∧ m.fields ≠ m'.fields ∧ S.sha256 m.fields = S.sha256 m'.fields

end SignedMessage

namespace RelayDescriptor

/-- The fields of a descriptor are determined, and so is where they end. -/
lemma reads_fieldBytes : Reads Framed fieldBytes unsigned := by
  have hidLength := Reads.first (P := Framed) (fun r => toBe 4 (utf8 r.nodeId).length)
    (fun r => (utf8 r.nodeId).length) (fun _ _ _ _ => by simp)
    fun _ _ ha ha' => toBe_inj ha.nodeId ha'.nodeId
  have hid := hidLength.field (fun r => utf8 r.nodeId) (·.nodeId) (fun _ _ _ _ h => h)
    fun _ _ _ _ => utf8_inj
  have hhostLength := hid.field (fun r => toBe 4 (utf8 r.host).length)
    (fun r => (utf8 r.host).length) (fun _ _ _ _ _ => by simp)
    fun _ _ ha ha' => toBe_inj ha.host ha'.host
  have hhost := hhostLength.field (fun r => utf8 r.host) (·.host)
    (fun _ _ _ _ h => (Prod.ext_iff.mp h).2) fun _ _ _ _ => utf8_inj
  have hport := hhost.field (fun r => be16 r.port) (·.port) (fun _ _ _ _ _ => by simp)
    fun a a' _ _ h => by rw [← u16OfBe_be16 a.port, h, u16OfBe_be16]
  have honion := hport.field (·.onionKeyX25519) (·.onionKeyX25519)
    (fun _ _ ha ha' _ => ha.onionKeyX25519.trans ha'.onionKeyX25519.symm) fun _ _ _ _ h => h
  have hpin := honion.field (·.identityPin) (·.identityPin)
    (fun _ _ ha ha' _ => ha.identityPin.trans ha'.identityPin.symm) fun _ _ _ _ h => h
  have hexit := hpin.field (fun r => [if r.isExit then 1 else 0]) (·.isExit)
    (fun _ _ _ _ _ => rfl) fun a a' _ _ h => by
      cases hb : a.isExit <;> cases hb' : a'.isExit <;> simp_all
  have hpow := hexit.field (fun r => be64 r.powNonce) (·.powNonce)
    (fun _ _ _ _ _ => by simp [be64]) fun _ _ _ _ => be64_inj
  have hall := hpow.field (fun r => be64 r.registeredAt) (·.registeredAt)
    (fun _ _ _ _ _ => by simp [be64]) fun _ _ _ _ => be64_inj
  refine hall.map unsigned fun a a' h => ?_
  simp only [Prod.mk.injEq] at h
  simp only [unsigned, RelayDescriptor.mk.injEq]
  tauto

/-- The texts of a message that can be signed are short enough. -/
lemma KeysSized.framed {r : RelayDescriptor} (h : r.KeysSized)
    (hlen : r.computeSigningBytes.length ≤ MAX_MESSAGE) : r.Framed := by
  have hmax : MAX_MESSAGE < 256 ^ 4 := by decide
  simp only [computeSigningBytes, fieldBytes, List.length_append] at hlen
  exact ⟨h, by omega, by omega⟩

lemma KeysSized.framed_of_verifyIdentity {S : DirectoryEnv} {r : RelayDescriptor}
    (h : r.KeysSized) (hverify : r.verifyIdentity S = true) : r.Framed := by
  have hformed := (of_verifyIdentity hverify).1
  simp only [wellFormed, Bool.and_eq_true, decide_eq_true_eq] at hformed
  exact ⟨h, by omega, by omega⟩

lemma fieldBytes_ne_nil (r : RelayDescriptor) : r.fieldBytes ≠ [] := by
  intro h
  have hlen := congrArg List.length h
  simp only [fieldBytes, be64, List.length_append, length_toBe, List.length_nil] at hlen
  omega

end RelayDescriptor

lemma ChannelProtocol.alpn_inj {p p' : ChannelProtocol} (h : p.alpn = p'.alpn) : p = p' := by
  rcases p with (_ | _) | _ <;> rcases p' with (_ | _) | _ <;>
    first | rfl | (revert h; decide +kernel)

/-- The protocol has no length of its own; the lengths of the two last fields tell where
it ends. -/
lemma ChannelAuth.message_injective {c c' : ChannelAuth}
    (h : c.challenge.length = 32 ∧ c.exporter.length = 32)
    (h' : c'.challenge.length = 32 ∧ c'.exporter.length = 32) (heq : c.message = c'.message) :
    c = c' := by
  have hlen := congrArg List.length heq
  simp only [message, List.length_append] at hlen
  simp only [message, List.append_assoc] at heq
  obtain ⟨halpn, htail⟩ := List.append_inj (List.append_cancel_left heq) (by omega)
  obtain ⟨hchallenge, hexporter⟩ := List.append_inj htail (h.1.trans h'.1.symm)
  have hprotocol := ChannelProtocol.alpn_inj halpn
  cases c
  cases c'
  exact ChannelAuth.mk.injEq .. ▸ ⟨hprotocol, hchallenge, hexporter⟩

section Command

lemma toList_append_blank (s t : String) :
    (s ++ " " ++ t).toList = s.toList ++ ([' '] ++ t.toList) := by
  have hblank : " ".toList = [' '] := rfl
  rw [String.toList_append, String.toList_append, hblank, List.append_assoc]

lemma hexEncode_inj {a b : Bytes} (h : hexEncode a = hexEncode b) : a = b := by
  have hread := hexDecode_hexEncode a
  rw [h, hexDecode_hexEncode] at hread
  exact (Option.some.inj hread).symm

lemma toString_inj {m n : ℕ} (h : (toString m).toList = (toString n).toList) : m = n := by
  rw [Nat.toString_eq_ofList_toDigits, Nat.toString_eq_ofList_toDigits, String.toList_ofList,
    String.toList_ofList] at h
  rw [← Nat.ofDigitChars_ten_toDigits (n := m), h, Nat.ofDigitChars_ten_toDigits]

/-- Words that are separated by blanks. -/
lemma toList_words (name a b c d : String) :
    (name ++ a ++ " " ++ b ++ " " ++ c ++ " " ++ d).toList =
      name.toList ++ (a.toList ++ [' ']) ++ (b.toList ++ [' ']) ++ (c.toList ++ [' ']) ++
        d.toList := by
  rw [toList_append_blank, toList_append_blank, toList_append_blank, String.toList_append]
  simp only [List.append_assoc]

namespace Registration

/-- No field of the command contains the space that ends it. -/
lemma command_inj {g g' : Registration} (h : g.Sized) (h' : g'.Sized) (heq : g.command = g'.command) :
    g.node = g'.node ∧ g.token = g'.token ∧ g.timestamp = g'.timestamp ∧ g.nonce = g'.nonce := by
  have hname := Reads.literal Sized "REGISTER_REVERSE ".toList
  have hnode := hname.upTo ' ' (fun g => (hexEncode g.node).toList) (·.node)
    (fun _ hg => (isWord_of_validToken (validToken_hexEncode hg.node)).space_notMem)
    fun _ _ _ _ h => hexEncode_inj (String.toList_inj.mp h)
  have htoken := hnode.upTo ' ' (fun g => g.token.toList) (·.token)
    (fun _ hg => (isWord_of_validToken hg.token).space_notMem) fun _ _ _ _ => String.toList_inj.mp
  have htime := htoken.upTo ' ' (fun g => (toString g.timestamp.toNat).toList) (·.timestamp)
    (fun g _ => (isWord_toString g.timestamp.toNat).space_notMem)
    fun _ _ _ _ h => UInt64.toNat_inj.mp (toString_inj h)
  have hchars := (toList_words ..).symm.trans ((congrArg String.toList heq).trans (toList_words ..))
  obtain ⟨hparts, hnonce⟩ := htime h h' hchars
  simp only [Prod.mk.injEq, true_and] at hparts
  exact ⟨hparts.1.1, hparts.1.2, hparts.2, UInt64.toNat_inj.mp (toString_inj hnonce)⟩

lemma message_injective {g g' : Registration} (h : g.Sized) (h' : g'.Sized)
    (heq : g.message = g'.message) : g = g' := by
  have hlabel := Reads.literal Sized (utf8 "AnonGuard-tracker-registration-v2\x00")
  have hlength := hlabel.field (fun g => toBe 4 (utf8 g.command).length)
    (fun g => (utf8 g.command).length) (fun _ _ _ _ _ => by simp)
    fun _ _ ha ha' => toBe_inj (ha.command.trans_lt (by decide)) (ha'.command.trans_lt (by decide))
  have hcommand := hlength.field (fun g => utf8 g.command) (·.command)
    (fun _ _ _ _ h => (Prod.ext_iff.mp h).2) fun _ _ _ _ => utf8_inj
  have hchallenge := hcommand.field (·.challenge) (·.challenge)
    (fun _ _ ha ha' _ => ha.challenge.trans ha'.challenge.symm) fun _ _ _ _ h => h
  have hall := hchallenge.field (·.exporter) (·.exporter)
    (fun _ _ ha ha' _ => ha.exporter.trans ha'.exporter.symm) fun _ _ _ _ h => h
  have hparts := hall.injective h h' heq
  simp only [Prod.mk.injEq, true_and] at hparts
  obtain ⟨⟨⟨-, hcommandEq⟩, hchallengeEq⟩, hexporterEq⟩ := hparts
  obtain ⟨hnode, htoken, htime, hnonce⟩ := command_inj h h' hcommandEq
  cases g
  cases g'
  exact Registration.mk.injEq .. ▸ ⟨hnode, htoken, htime, hnonce, hchallengeEq, hexporterEq⟩

end Registration

end Command

namespace ConsensusDocument

/-- The relays of a document have no count; each one tells where it ends. -/
lemma contentBytes_injective {d d' : ConsensusDocument} (h : ∀ r ∈ d.relays, r.Framed)
    (h' : ∀ r ∈ d'.relays, r.Framed) (heq : d.contentBytes = d'.contentBytes) :
    d.validAfter = d'.validAfter ∧ d.validUntil = d'.validUntil ∧
      (d.relays.insertionSort fun a b => a.nodeId ≤ b.nodeId).map RelayDescriptor.unsigned =
        (d'.relays.insertionSort fun a b => a.nodeId ≤ b.nodeId).map RelayDescriptor.unsigned := by
  have hlabel := Reads.literal (fun _ : ConsensusDocument => True) (utf8 "AnonGuard-Consensus-v6")
  have hafter := hlabel.field (fun d => be64 d.validAfter) (·.validAfter)
    (fun _ _ _ _ _ => by simp [be64]) fun _ _ _ _ => be64_inj
  have hwindow := hafter.field (fun d => be64 d.validUntil) (·.validUntil)
    (fun _ _ _ _ _ => by simp [be64]) fun _ _ _ _ => be64_inj
  obtain ⟨htimes, hrelays⟩ := hwindow trivial trivial heq
  simp only [Prod.mk.injEq, true_and] at htimes
  refine ⟨htimes.1, htimes.2, ?_⟩
  refine RelayDescriptor.reads_fieldBytes.flatMap_injective
    (fun r _ => r.fieldBytes_ne_nil) (fun r hr => ?_) (fun r hr => ?_) hrelays
  · exact h r ((List.mem_insertionSort _).mp hr)
  · exact h' r ((List.mem_insertionSort _).mp hr)

end ConsensusDocument

namespace RevocationPolicy

lemma Sized.length_revoked {p : RevocationPolicy} (h : p.Sized) : p.revoked.length < 256 ^ 4 := by
  have hshape := h.shape
  unfold validateShape at hshape
  by_cases hbounds : p.version ≠ 2 ∨ p.generation = 0 ∨
      MAX_REVOKED_IDENTITIES < p.revoked.length ∨ 16 < p.signatures.length
  · rw [if_pos hbounds] at hshape
    cases hshape
  have hmax : MAX_REVOKED_IDENTITIES < 256 ^ 4 := by decide
  simp only [not_or, not_lt] at hbounds
  omega

lemma contentBytes_injective {p p' : RevocationPolicy} (h : p.Sized) (h' : p'.Sized)
    (heq : p.contentBytes = p'.contentBytes) :
    p.version = p'.version ∧ p.generation = p'.generation ∧ p.authoritySet = p'.authoritySet ∧
      p.revoked.insertionSort (· ≤ ·) = p'.revoked.insertionSort (· ≤ ·) := by
  have hlabel := Reads.literal Sized (utf8 "AnonGuard-IdentityRetirement-v1")
  have hversion := hlabel.field (fun p => toBe 4 p.version.toNat) (·.version)
    (fun _ _ _ _ _ => by simp) fun a a' _ _ h =>
      UInt32.toNat_inj.mp (toBe_inj a.version.toNat_lt a'.version.toNat_lt h)
  have hgeneration := hversion.field (fun p => be64 p.generation) (·.generation)
    (fun _ _ _ _ _ => by simp [be64]) fun _ _ _ _ => be64_inj
  have hset := hgeneration.field (·.authoritySet) (·.authoritySet)
    (fun _ _ ha ha' _ => ha.authoritySet.trans ha'.authoritySet.symm) fun _ _ _ _ h => h
  have hcount := hset.field (fun p => toBe 4 p.revoked.length) (·.revoked.length)
    (fun _ _ _ _ _ => by simp) fun _ _ ha ha' => toBe_inj ha.length_revoked ha'.length_revoked
  obtain ⟨hparts, hidentities⟩ := hcount h h' heq
  simp only [Prod.mk.injEq, true_and] at hparts
  obtain ⟨⟨⟨hv, hg⟩, hs⟩, hc⟩ := hparts
  refine ⟨hv, hg, hs, flatten_inj_of_length (n := 32) ?_ ?_ ?_ hidentities⟩
  · exact fun identity hmem => h.revoked identity ((List.mem_insertionSort _).mp hmem)
  · exact fun identity hmem => h'.revoked identity ((List.mem_insertionSort _).mp hmem)
  · rw [List.length_insertionSort, List.length_insertionSort, hc]

end RevocationPolicy

namespace SignedMessage
variable {S : DirectoryEnv} {m m' : SignedMessage}

/-- The octet of the label in which the kinds differ. -/
def tag : SignedMessage → UInt8
  | descriptor _ => 82
  | handshake _ => 104
  | channel _ => 114
  | registration _ => 116
  | consensus _ => 67
  | retirement _ => 73

lemma getElem?_label {label : String} {octet : UInt8} (h : (utf8 label)[10]? = some octet)
    (rest : Bytes) : (utf8 label ++ rest)[10]? = some octet := by
  obtain ⟨hlt, -⟩ := List.getElem?_eq_some_iff.mp h
  rw [List.getElem?_append_left hlt, h]

lemma getElem?_fields (m : SignedMessage) : m.fields[10]? = some m.tag := by
  cases m with
  | descriptor =>
    have hlabel : (utf8 "AnonGuard-RelayDescriptor-v6")[10]? = some 82 := by decide +kernel
    exact getElem?_label hlabel _
  | handshake =>
    have hlabel : (utf8 "AnonGuard-handshake-v6")[10]? = some 104 := by decide +kernel
    exact getElem?_label hlabel _
  | channel =>
    have hlabel : (utf8 "AnonGuard-relay-channel-auth-v6")[10]? = some 114 := by decide +kernel
    simp only [fields, ChannelAuth.message, List.append_assoc]
    exact getElem?_label hlabel _
  | registration =>
    have hlabel : (utf8 "AnonGuard-tracker-registration-v2\x00")[10]? = some 116 := by decide +kernel
    simp only [fields, Registration.message, List.append_assoc]
    exact getElem?_label hlabel _
  | consensus =>
    have hlabel : (utf8 "AnonGuard-Consensus-v6")[10]? = some 67 := by decide +kernel
    simp only [fields, ConsensusDocument.contentBytes, List.append_assoc]
    exact getElem?_label hlabel _
  | retirement =>
    have hlabel : (utf8 "AnonGuard-IdentityRetirement-v1")[10]? = some 73 := by decide +kernel
    simp only [fields, RevocationPolicy.contentBytes, List.append_assoc]
    exact getElem?_label hlabel _

lemma tag_eq (h : m.fields = m'.fields) : m.tag = m'.tag := by
  have hm := m.getElem?_fields
  rw [h, m'.getElem?_fields] at hm
  exact (Option.some.inj hm).symm

/-- The octets of the fields determine the kind and the fields. -/
theorem covered_eq_of_fields (hm : m.Signable S) (hm' : m'.Signable S)
    (h : m.fields = m'.fields) : m.covered = m'.covered := by
  have htag := tag_eq h
  cases m <;> cases m' <;> first | exact absurd htag (by simp only [tag]; decide) | skip
  case descriptor.descriptor r r' =>
    exact congrArg descriptor (RelayDescriptor.reads_fieldBytes.injective (hm.1.framed hm.2)
      (hm'.1.framed hm'.2) (List.append_cancel_left h))
  case handshake.handshake t t' => exact congrArg handshake (Transcript.preimage_injective hm hm' h)
  case channel.channel c c' => exact congrArg channel (ChannelAuth.message_injective hm hm' h)
  case registration.registration g g' =>
    exact congrArg registration (Registration.message_injective hm hm' h)
  case consensus.consensus d d' =>
    obtain ⟨hafter, huntil, hrelays⟩ := ConsensusDocument.contentBytes_injective
      (fun r hr => (hm r hr).1.framed_of_verifyIdentity (hm r hr).2)
      (fun r hr => (hm' r hr).1.framed_of_verifyIdentity (hm' r hr).2) h
    simp only [covered, hafter, huntil, hrelays]
  case retirement.retirement p p' =>
    obtain ⟨hversion, hgeneration, hset, hrevoked⟩ :=
      RevocationPolicy.contentBytes_injective hm hm' h
    simp only [covered, hversion, hgeneration, hset, hrevoked]

lemma message_of_isDigest (h : m.IsDigest) : m.message S = S.sha256 m.fields := by
  cases m <;> first | exact h.elim | rfl

lemma message_of_not_isDigest (h : ¬ m.IsDigest) : m.message S = m.fields := by
  cases m <;> first | exact absurd trivial h | rfl

/-- No other statement is as short as a digest. -/
lemma lt_length_fields (hm : m.Signable S) (h : ¬ m.IsDigest) : 32 < m.fields.length := by
  cases m with
  | descriptor =>
    have hsizes := hm.1
    simp only [fields, RelayDescriptor.computeSigningBytes, RelayDescriptor.fieldBytes,
      List.length_append, hsizes.onionKeyX25519, hsizes.identityPin]
    omega
  | handshake =>
    rw [fields, Transcript.length_preimage hm]
    decide
  | channel =>
    simp only [fields, ChannelAuth.message, List.length_append, hm.1, hm.2]
    omega
  | registration =>
    simp only [fields, Registration.message, List.length_append, hm.challenge, hm.exporter]
    omega
  | consensus | retirement => exact absurd trivial h

/-- Equal signed octets are about the same statement. Only two documents of which digests
are signed can differ, by a collision of the hash, and never a consensus document and a
retirement policy with the same octets. -/
theorem message_determines_statement (hS : ∀ b, (S.sha256 b).length = 32) :
    (∀ m m' : SignedMessage, m.Signable S → m'.Signable S → m.message S = m'.message S →
      m.covered = m'.covered ∨ Collides S m m') ∧
    ∀ (d : ConsensusDocument) (p : RevocationPolicy), d.contentBytes ≠ p.contentBytes := by
  refine ⟨fun m m' hm hm' heq => ?_, fun d p heq => ?_⟩
  · by_cases hdigest : m.IsDigest
    · by_cases hdigest' : m'.IsDigest
      · rw [message_of_isDigest hdigest, message_of_isDigest hdigest'] at heq
        by_cases hfields : m.fields = m'.fields
        · exact .inl (covered_eq_of_fields hm hm' hfields)
        · exact .inr ⟨hdigest, hdigest', hfields, heq⟩
      · -- A digest is shorter than every other statement.
        rw [message_of_isDigest hdigest, message_of_not_isDigest hdigest'] at heq
        have hlong := lt_length_fields hm' hdigest'
        have hshort := hS m.fields
        rw [heq] at hshort
        omega
    · by_cases hdigest' : m'.IsDigest
      · rw [message_of_not_isDigest hdigest, message_of_isDigest hdigest'] at heq
        have hlong := lt_length_fields hm hdigest
        have hshort := hS m'.fields
        rw [← heq] at hshort
        omega
      · rw [message_of_not_isDigest hdigest, message_of_not_isDigest hdigest'] at heq
        exact .inl (covered_eq_of_fields hm hm' heq)
  · have htag : (consensus d).tag = (retirement p).tag := tag_eq heq
    exact absurd htag (by simp only [tag]; decide)

/-- A hash that keeps the first 32 octets only. -/
def truncatingEnv : DirectoryEnv where
  toIdentityScheme := { sampleScheme with sha256 := fun b => (b ++ List.replicate 32 0).take 32 }
  parseIp _ := none
  ipText _ := ""

/-- Under a weak hash, two documents with different ends of validity collide. -/
theorem truncated_documents_collide :
    Collides truncatingEnv (consensus ⟨0, 600, [], []⟩) (consensus ⟨0, 1200, [], []⟩) := by
  have hhash : ∀ b, (truncatingEnv.sha256 b).length = 32 := fun b => by
    simp [truncatingEnv, -List.reduceReplicate]
  have hsame : (consensus ⟨0, 600, [], []⟩).message truncatingEnv =
      (consensus ⟨0, 1200, [], []⟩).message truncatingEnv := by decide +kernel
  refine ((message_determines_statement hhash).1 _ _ (by simp [Signable]) (by simp [Signable])
    hsame).resolve_left fun hcovered => ?_
  simp [covered] at hcovered

end SignedMessage

end AnonGuard
