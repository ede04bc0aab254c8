import AnonGuard.Identity
import Mathlib.Data.List.Sort

/-!
# Relay descriptors and consensus documents

A relay signs its descriptor, and authorities sign the digest of a document that
lists descriptors. A document passes `verifyQuorum` if enough trusted authorities
with independent keys have signed its digest.
-/
namespace AnonGuard

inductive IpAddr
  | v4 (octets : Bytes)
  | v6 (octets : Bytes)
  deriving DecidableEq, Repr

/-- Identities, and how addresses are read and written. -/
structure DirectoryEnv extends IdentityScheme where
  parseIp : String → Option IpAddr
  ipText : IpAddr → String

def MAX_DIRECTORY_RELAYS : ℕ := 512

structure RelayDescriptor where
  nodeId : String
  host : String
  port : UInt16
  onionKeyX25519 : Bytes
  identityPin : Bytes
  isExit : Bool
  powNonce : UInt64
  registeredAt : UInt64
  signature : Bytes
  deriving DecidableEq, Repr

namespace RelayDescriptor

/-- The fields that both the relay and the authorities sign, in their order. -/
def fieldBytes (r : RelayDescriptor) : Bytes :=
  toBe 4 (utf8 r.nodeId).length ++ utf8 r.nodeId ++ toBe 4 (utf8 r.host).length ++ utf8 r.host ++
    be16 r.port ++ r.onionKeyX25519 ++ r.identityPin ++ [if r.isExit then 1 else 0] ++
    be64 r.powNonce ++ be64 r.registeredAt

def computeSigningBytes (r : RelayDescriptor) : Bytes :=
  utf8 "AnonGuard-RelayDescriptor-v6" ++ r.fieldBytes

def isLower (b : UInt8) : Bool := 97 ≤ b && b ≤ 122
def isUpper (b : UInt8) : Bool := 65 ≤ b && b ≤ 90
def isDigit (b : UInt8) : Bool := 48 ≤ b && b ≤ 57

/-- A label of a DNS name in lower case. -/
def validLabel (label : Bytes) : Bool :=
  label ≠ [] && label.length ≤ 63 && label.head? ≠ some 45 && label.getLast? ≠ some 45 &&
    label.all fun b => isLower b || isDigit b || b == 45

/-- A numeric address in its canonical spelling, or a DNS name in lower case. -/
def validHost (S : DirectoryEnv) (host : String) : Bool :=
  match S.parseIp host with
  | some ip => S.ipText ip == host
  | none => ((utf8 host).splitOn 46).all validLabel

/-- The syntax checks of `verify_identity`. -/
def wellFormed (S : DirectoryEnv) (r : RelayDescriptor) : Bool :=
  validHost S r.host && r.nodeId ≠ "" && (utf8 r.nodeId).length ≤ 128 &&
    ((utf8 r.nodeId).all fun b =>
      isLower b || isUpper b || isDigit b || b == 45 || b == 95 || b == 46) &&
    r.host ≠ "" && (utf8 r.host).length ≤ 253 && r.port ≠ 0 && r.signature.length == PROOF_SIZE

def verifyIdentity (S : DirectoryEnv) (r : RelayDescriptor) : Bool :=
  if r.wellFormed S = false then false
  else
    match verifyingKeyFromBytes r.identityPin with
    | none => false
    | some key => S.verifyStrict key r.computeSigningBytes r.signature

end RelayDescriptor

structure AuthoritySignature where
  authorityId : String
  signatureBytes : Bytes
  deriving DecidableEq, Repr

structure ConsensusDocument where
  validAfter : UInt64
  validUntil : UInt64
  relays : List RelayDescriptor
  signatures : List AuthoritySignature
  deriving DecidableEq, Repr

/-- The trusted authorities, by id. -/
abbrev Authorities := Std.TreeMap String Bytes

namespace ConsensusDocument

/-- The octets that a digest covers: the validity times and the relays in the
order of their ids, without the relays' own signatures. -/
def contentBytes (d : ConsensusDocument) : Bytes :=
  utf8 "AnonGuard-Consensus-v6" ++ be64 d.validAfter ++ be64 d.validUntil ++
    (d.relays.insertionSort fun a b => a.nodeId ≤ b.nodeId).flatMap RelayDescriptor.fieldBytes

def computeDigest (S : DirectoryEnv) (d : ConsensusDocument) : Bytes := S.sha256 d.contentBytes

def signWithAuthority {S : DirectoryEnv} (d : ConsensusDocument) (authorityId : String)
    (key : SigningKey S.toIdentityScheme) : ConsensusDocument :=
  { d with signatures := d.signatures ++ [⟨authorityId, key.sign (d.computeDigest S)⟩] }

/-- What `verify_quorum` has counted so far. -/
structure Tally where
  count : ℕ
  authorities : List String
  keys : List Bytes
  classical : List Bytes
  postQuantum : List Bytes

def Tally.empty : Tally := ⟨0, [], [], [], []⟩

/-- One signature of the document; `none` if it makes the whole document fail. -/
def Tally.vote (S : DirectoryEnv) (trusted : Authorities) (digest : Bytes) (t : Tally)
    (sig : AuthoritySignature) : Option Tally :=
  if sig.authorityId ∈ t.authorities then some t
  else
    match trusted[sig.authorityId]? with
    | none => some t
    | some key =>
      match signatureFromSlice sig.signatureBytes with
      | none => some t
      | some signature =>
        if S.verifyStrict key digest signature = true ∧ key ∉ t.keys then
          match S.componentPins signature with
          | none => none
          | some (classical, pq) =>
            if classical ∈ t.classical ∨ pq ∈ t.postQuantum then none
            else some ⟨t.count + 1, t.authorities ++ [sig.authorityId], key :: t.keys,
              classical :: t.classical, pq :: t.postQuantum⟩
        else some t

def Tally.run (S : DirectoryEnv) (trusted : Authorities) (digest : Bytes) :
    List AuthoritySignature → Tally → Option Tally
  | [], t => some t
  | sig :: rest, t =>
    match t.vote S trusted digest sig with
    | none => none
    | some t => run S trusted digest rest t

/-- The validity checks of `verify_quorum`. -/
def inWindow (d : ConsensusDocument) (currentTime : UInt64) : Bool :=
  d.validAfter < d.validUntil && d.validAfter ≤ currentTime && currentTime < d.validUntil

def verifyQuorum (S : DirectoryEnv) (d : ConsensusDocument) (trusted : Authorities) (threshold : ℕ)
    (currentTime : UInt64) : Bool :=
  if threshold = 0 ∨ d.inWindow currentTime = false then false
  else
    match Tally.run S trusted (d.computeDigest S) d.signatures .empty with
    | none => false
    | some t => threshold ≤ t.count

/-- Whether the document carries a valid signature by a trusted authority. -/
def signedBy (S : DirectoryEnv) (d : ConsensusDocument) (trusted : Authorities) (id : String) :
    Bool :=
  match trusted[id]? with
  | none => false
  | some key => d.signatures.any fun sig => sig.authorityId == id &&
      S.verifyStrict key (d.computeDigest S) sig.signatureBytes

/-- The trusted authorities that have signed the document. -/
def signers (S : DirectoryEnv) (d : ConsensusDocument) (trusted : Authorities) : List String :=
  trusted.keys.filter (d.signedBy S trusted)

/-- The signatures of `other` under ids that `self` does not have. -/
def newSignatures (self other : ConsensusDocument) : List AuthoritySignature :=
  other.signatures.filter fun sig => sig.authorityId ∉ self.signatures.map (·.authorityId)

def mergeSignaturesFrom (S : DirectoryEnv) (self other : ConsensusDocument) :
    ConsensusDocument × ℕ :=
  if self.computeDigest S ≠ other.computeDigest S then (self, 0)
  else ({ self with signatures := self.signatures ++ self.newSignatures other },
    (self.newSignatures other).length)

end ConsensusDocument

/-- Distinct authorities have distinct pins and distinct key components. -/
def Authorities.Independent (S : DirectoryEnv) (trusted : Authorities) : Prop :=
  ∀ (id id' : String) (key key' : Bytes), trusted[id]? = some key → trusted[id']? = some key' →
    id ≠ id' → key ≠ key' ∧
      ∀ k k', S.decodeKey k = some k → S.fingerprint k = key → S.decodeKey k' = some k' →
        S.fingerprint k' = key' → classicalBytes k ≠ classicalBytes k' ∧
          S.sha256 (postQuantumBytes k) ≠ S.sha256 (postQuantumBytes k')

namespace ConsensusDocument
variable {S : DirectoryEnv} {trusted : Authorities} {digest : Bytes} {d : ConsensusDocument}
  {threshold : ℕ} {now : UInt64}

/-- A signature by a trusted authority over the digest. -/
def ValidVote (S : DirectoryEnv) (trusted : Authorities) (digest : Bytes)
    (sig : AuthoritySignature) : Prop :=
  ∃ key, trusted[sig.authorityId]? = some key ∧
    S.verifyStrict key digest sig.signatureBytes = true

instance (sig : AuthoritySignature) : Decidable (ValidVote S trusted digest sig) :=
  decidable_of_iff ((trusted[sig.authorityId]?.any fun key =>
    S.verifyStrict key digest sig.signatureBytes) = true) (by simp [ValidVote, Option.any_eq_true])

/-- Two keys or proofs have neither component in common. -/
def DistinctComponents (S : DirectoryEnv) (a b : Bytes) : Prop :=
  classicalBytes a ≠ classicalBytes b ∧ S.sha256 (postQuantumBytes a) ≠ S.sha256 (postQuantumBytes b)

instance (a b : Bytes) : Decidable (DistinctComponents S a b) :=
  inferInstanceAs (Decidable (_ ∧ _))

/-- The valid signatures of distinct authorities are under distinct pins, and the keys that they
show have no component in common. -/
def DistinctKeys (S : DirectoryEnv) (trusted : Authorities) (digest : Bytes)
    (signatures : List AuthoritySignature) : Prop :=
  ∀ a ∈ signatures, ∀ b ∈ signatures, ValidVote S trusted digest a → ValidVote S trusted digest b →
    a.authorityId ≠ b.authorityId → trusted[a.authorityId]? ≠ trusted[b.authorityId]? ∧
      DistinctComponents S a.signatureBytes b.signatureBytes

instance (signatures : List AuthoritySignature) :
    Decidable (DistinctKeys S trusted digest signatures) :=
  inferInstanceAs (Decidable (∀ a ∈ signatures, ∀ b ∈ signatures, _ → _ → _ → _ ∧ _))

/-- A valid signature among those seen, by a counted authority. -/
def Tally.Counted (S : DirectoryEnv) (trusted : Authorities) (digest : Bytes) (t : Tally)
    (seen : List AuthoritySignature) (sig : AuthoritySignature) : Prop :=
  sig ∈ seen ∧ sig.authorityId ∈ t.authorities ∧ ValidVote S trusted digest sig

/-- What the tally holds after the signatures `seen`. -/
structure Tally.Counts (S : DirectoryEnv) (trusted : Authorities) (digest : Bytes) (t : Tally)
    (seen : List AuthoritySignature) : Prop where
  count : t.count = t.authorities.length
  nodup : t.authorities.Nodup
  signed : ∀ id ∈ t.authorities, ∃ sig, t.Counted S trusted digest seen sig ∧ sig.authorityId = id
  keys : ∀ key ∈ t.keys, ∃ sig, t.Counted S trusted digest seen sig ∧
    trusted[sig.authorityId]? = some key
  classical : ∀ c ∈ t.classical, ∃ sig, t.Counted S trusted digest seen sig ∧
    classicalBytes sig.signatureBytes = c
  postQuantum : ∀ c ∈ t.postQuantum, ∃ sig, t.Counted S trusted digest seen sig ∧
    S.sha256 (postQuantumBytes sig.signatureBytes) = c

namespace Tally
variable {t t' : Tally} {sig : AuthoritySignature} {seen : List AuthoritySignature}

lemma vote_of_valid {key : Bytes} (htrusted : trusted[sig.authorityId]? = some key)
    (hverify : S.verifyStrict key digest sig.signatureBytes = true)
    (hid : sig.authorityId ∉ t.authorities) (hkey : key ∉ t.keys) :
    t.vote S trusted digest sig =
      if classicalBytes sig.signatureBytes ∈ t.classical ∨
        S.sha256 (postQuantumBytes sig.signatureBytes) ∈ t.postQuantum then none
      else some ⟨t.count + 1, t.authorities ++ [sig.authorityId], key :: t.keys,
        classicalBytes sig.signatureBytes :: t.classical,
        S.sha256 (postQuantumBytes sig.signatureBytes) :: t.postQuantum⟩ := by
  obtain ⟨k, hk, -⟩ := IdentityScheme.publicKey_of_verifyStrict hverify
  obtain ⟨hc, hpq⟩ := IdentityScheme.components_of_publicKey hk
  have hpins : S.componentPins sig.signatureBytes = some (classicalBytes sig.signatureBytes,
      S.sha256 (postQuantumBytes sig.signatureBytes)) := by
    rw [IdentityScheme.componentPins, hk, hc, hpq]
    rfl
  simp only [vote, hid, if_false, htrusted, IdentityScheme.signatureFromSlice_of_verifyStrict hverify,
    hverify, hkey, not_false_iff, and_self, if_true, hpins]

lemma vote_of_not_valid (h : ¬ ValidVote S trusted digest sig) :
    t.vote S trusted digest sig = some t := by
  unfold vote
  split_ifs with hid
  · rfl
  cases htrusted : trusted[sig.authorityId]? with
  | none => rfl
  | some key =>
    have hverify : S.verifyStrict key digest sig.signatureBytes ≠ true :=
      fun hv => h ⟨key, htrusted, hv⟩
    cases hslice : signatureFromSlice sig.signatureBytes with
    | none => rfl
    | some signature =>
      have hsame : signature = sig.signatureBytes := by
        unfold signatureFromSlice at hslice
        split_ifs at hslice
        exact (Option.some.inj hslice).symm
      simp only [hsame, hverify, Bool.false_eq_true, false_and, if_false]

/-- A signature is passed over, or it is a valid one by an authority that was not
counted yet, with a key that was not counted either. -/
lemma vote_cases (S : DirectoryEnv) (trusted : Authorities) (digest : Bytes) (t : Tally)
    (sig : AuthoritySignature) :
    t.vote S trusted digest sig = some t ∧ (sig.authorityId ∈ t.authorities ∨
        ¬ ValidVote S trusted digest sig ∨
        ∃ key ∈ t.keys, trusted[sig.authorityId]? = some key) ∨
      ∃ key, ValidVote S trusted digest sig ∧ trusted[sig.authorityId]? = some key ∧
        sig.authorityId ∉ t.authorities ∧ t.vote S trusted digest sig =
          if classicalBytes sig.signatureBytes ∈ t.classical ∨
            S.sha256 (postQuantumBytes sig.signatureBytes) ∈ t.postQuantum then none
          else some ⟨t.count + 1, t.authorities ++ [sig.authorityId], key :: t.keys,
            classicalBytes sig.signatureBytes :: t.classical,
            S.sha256 (postQuantumBytes sig.signatureBytes) :: t.postQuantum⟩ := by
  by_cases hvalid : ValidVote S trusted digest sig
  · by_cases hid : sig.authorityId ∈ t.authorities
    · exact .inl ⟨if_pos hid, .inl hid⟩
    · obtain ⟨key, htrusted, hverify⟩ := id hvalid
      by_cases hkey : key ∈ t.keys
      · refine .inl ⟨?_, .inr (.inr ⟨key, hkey, htrusted⟩)⟩
        simp only [vote, hid, if_false, htrusted,
          IdentityScheme.signatureFromSlice_of_verifyStrict hverify, hkey, not_true, and_false]
      · exact .inr ⟨key, hvalid, htrusted, hid, vote_of_valid htrusted hverify hid hkey⟩
  · exact .inl ⟨vote_of_not_valid hvalid, .inr (.inl hvalid)⟩

lemma Counted.mono {s : AuthoritySignature} (h : t.Counted S trusted digest seen s)
    (hsub : ∀ id ∈ t.authorities, id ∈ t'.authorities) :
    t'.Counted S trusted digest (seen ++ [sig]) s :=
  ⟨List.mem_append_left _ h.1, hsub _ h.2.1, h.2.2⟩

lemma Counts.vote (h : t.Counts S trusted digest seen) (hvote : t.vote S trusted digest sig = some t') :
    t'.Counts S trusted digest (seen ++ [sig]) := by
  -- what was counted before stays counted
  have hkept : ∀ {P : AuthoritySignature → Prop}, (∀ id ∈ t.authorities, id ∈ t'.authorities) →
      (∃ s, t.Counted S trusted digest seen s ∧ P s) →
      ∃ s, t'.Counted S trusted digest (seen ++ [sig]) s ∧ P s := by
    rintro P hsub ⟨s, hs, hP⟩
    exact ⟨s, hs.mono hsub, hP⟩
  obtain ⟨hsame, -⟩ | ⟨key, hvalid, htrusted, hnew, heq⟩ := vote_cases S trusted digest t sig
  · rw [hsame] at hvote
    cases hvote
    have hsub : ∀ id ∈ t.authorities, id ∈ t.authorities := fun _ hid => hid
    exact ⟨h.count, h.nodup, fun id hid => hkept hsub (h.signed id hid),
      fun c hc => hkept hsub (h.keys c hc), fun c hc => hkept hsub (h.classical c hc),
      fun c hc => hkept hsub (h.postQuantum c hc)⟩
  · rw [heq] at hvote
    split_ifs at hvote
    cases hvote
    have hsub : ∀ id ∈ t.authorities, id ∈ t.authorities ++ [sig.authorityId] :=
      fun _ => List.mem_append_left _
    have hsig : Counted S trusted digest (⟨t.count + 1, t.authorities ++ [sig.authorityId],
        key :: t.keys, classicalBytes sig.signatureBytes :: t.classical,
        S.sha256 (postQuantumBytes sig.signatureBytes) :: t.postQuantum⟩ : Tally)
        (seen ++ [sig]) sig :=
      ⟨by simp, by simp, hvalid⟩
    refine ⟨by simp [h.count], ?_, fun id hid => ?_, fun c hc => ?_, fun c hc => ?_, fun c hc => ?_⟩
    · exact List.nodup_append.mpr ⟨h.nodup, List.nodup_singleton _, fun a ha b hb hab =>
        hnew (by rw [List.mem_singleton.mp hb] at hab; exact hab ▸ ha)⟩
    · rcases List.mem_append.mp hid with hid | hid
      · exact hkept hsub (h.signed id hid)
      · exact ⟨sig, hsig, (List.mem_singleton.mp hid).symm⟩
    · rcases List.mem_cons.mp hc with rfl | hc
      · exact ⟨sig, hsig, htrusted⟩
      · exact hkept hsub (h.keys c hc)
    · rcases List.mem_cons.mp hc with rfl | hc
      · exact ⟨sig, hsig, rfl⟩
      · exact hkept hsub (h.classical c hc)
    · rcases List.mem_cons.mp hc with rfl | hc
      · exact ⟨sig, hsig, rfl⟩
      · exact hkept hsub (h.postQuantum c hc)

lemma Counts.run (h : t.Counts S trusted digest seen) (rest : List AuthoritySignature)
    (hrun : Tally.run S trusted digest rest t = some t') :
    t'.Counts S trusted digest (seen ++ rest) := by
  induction rest generalizing t seen with
  | nil =>
    cases hrun
    rwa [List.append_nil]
  | cons sig rest ih =>
    simp only [Tally.run] at hrun
    split at hrun
    · cases hrun
    · rename_i t₁ hvote
      have hrest := ih (h.vote hvote) hrun
      rwa [List.append_assoc] at hrest

lemma counts_empty : Tally.empty.Counts S trusted digest [] :=
  ⟨rfl, .nil, by simp [empty], by simp [empty], by simp [empty], by simp [empty]⟩

/-- If the keys are distinct, no vote fails the document, and every valid one is counted. -/
lemma vote_of_distinctKeys (h : t.Counts S trusted digest seen)
    (hkeys : DistinctKeys S trusted digest (seen ++ [sig])) :
    ∃ t', t.vote S trusted digest sig = some t' ∧ (∀ id ∈ t.authorities, id ∈ t'.authorities) ∧
      (ValidVote S trusted digest sig → sig.authorityId ∈ t'.authorities) := by
  -- a signature that was counted is by another authority, so it shows another key
  have hother : sig.authorityId ∉ t.authorities → ValidVote S trusted digest sig →
      ∀ s, t.Counted S trusted digest seen s →
        trusted[sig.authorityId]? ≠ trusted[s.authorityId]? ∧
          DistinctComponents S sig.signatureBytes s.signatureBytes := by
    intro hnew hvalid s hs
    refine hkeys sig (by simp) s (List.mem_append_left _ hs.1) hvalid hs.2.2 ?_
    intro heq
    exact hnew (heq ▸ hs.2.1)
  obtain ⟨hsame, hwhy⟩ | ⟨key, hvalid, htrusted, hnew, heq⟩ := vote_cases S trusted digest t sig
  · refine ⟨t, hsame, fun _ h => h, fun hvalid => ?_⟩
    obtain hid | hinvalid | ⟨key, hkey, htrusted⟩ := hwhy
    · exact hid
    · exact absurd hvalid hinvalid
    · obtain ⟨s, hs, hpin⟩ := h.keys key hkey
      by_contra hnew
      exact (hother hnew hvalid s hs).1 (htrusted.trans hpin.symm)
  · have hfresh : ¬ (classicalBytes sig.signatureBytes ∈ t.classical ∨
        S.sha256 (postQuantumBytes sig.signatureBytes) ∈ t.postQuantum) := by
      rintro (hc | hc)
      · obtain ⟨s, hs, hc⟩ := h.classical _ hc
        exact (hother hnew hvalid s hs).2.1 hc.symm
      · obtain ⟨s, hs, hc⟩ := h.postQuantum _ hc
        exact (hother hnew hvalid s hs).2.2 hc.symm
    rw [if_neg hfresh] at heq
    exact ⟨_, heq, fun _ => List.mem_append_left _, fun _ => List.mem_append_right _ (by simp)⟩

lemma run_of_distinctKeys (h : t.Counts S trusted digest seen) (rest : List AuthoritySignature)
    (hkeys : DistinctKeys S trusted digest (seen ++ rest)) :
    ∃ t', Tally.run S trusted digest rest t = some t' ∧
      (∀ id ∈ t.authorities, id ∈ t'.authorities) ∧
      ∀ sig ∈ rest, ValidVote S trusted digest sig → sig.authorityId ∈ t'.authorities := by
  induction rest generalizing t seen with
  | nil => exact ⟨t, rfl, fun _ h => h, by simp⟩
  | cons sig rest ih =>
    have hfirst : DistinctKeys S trusted digest (seen ++ [sig]) := by
      intro a ha b hb
      exact hkeys a (by simp at ha ⊢; tauto) b (by simp at hb ⊢; tauto)
    obtain ⟨t₁, hvote, hmono, hvalid⟩ := vote_of_distinctKeys h hfirst
    obtain ⟨t', hrun, hmono', hrest⟩ := ih (h.vote hvote) (by rwa [List.append_assoc])
    refine ⟨t', by simp only [Tally.run, hvote, hrun], fun id hid => hmono' id (hmono id hid), ?_⟩
    rintro s hs hv
    rcases List.mem_cons.mp hs with rfl | hs
    · exact hmono' _ (hvalid hv)
    · exact hrest s hs hv

/-- If the valid signatures are by different keys, all of them are counted, unless
two of them share a component. -/
lemma run_of_distinct {rest : List AuthoritySignature} {n : ℕ}
    (hdistinct : (rest.filter (ValidVote S trusted digest)).Pairwise
      fun a b => trusted[a.authorityId]? ≠ trusted[b.authorityId]?)
    (hnew : ∀ sig ∈ rest, ∀ key, trusted[sig.authorityId]? = some key →
      S.verifyStrict key digest sig.signatureBytes = true →
      sig.authorityId ∉ t.authorities ∧ key ∉ t.keys) :
    (∃ t', Tally.run S trusted digest rest t = some t' ∧ n ≤ t'.count) ↔
      ((rest.filter (ValidVote S trusted digest)).Pairwise
        fun a b => DistinctComponents S a.signatureBytes b.signatureBytes) ∧
      (∀ sig ∈ rest.filter (ValidVote S trusted digest),
        classicalBytes sig.signatureBytes ∉ t.classical ∧
        S.sha256 (postQuantumBytes sig.signatureBytes) ∉ t.postQuantum) ∧
      n ≤ t.count + (rest.filter (ValidVote S trusted digest)).length := by
  induction rest generalizing t with
  | nil => simp [Tally.run]
  | cons sig rest ih =>
    by_cases hvalid : ValidVote S trusted digest sig
    · obtain ⟨key, htrusted, hverify⟩ := id hvalid
      obtain ⟨hid, hkey⟩ := hnew sig (by simp) key htrusted hverify
      have hfilter : (sig :: rest).filter (ValidVote S trusted digest) =
          sig :: rest.filter (ValidVote S trusted digest) := by simp [hvalid]
      rw [hfilter] at hdistinct ⊢
      obtain ⟨hhead, htail⟩ := List.pairwise_cons.mp hdistinct
      simp only [Tally.run, vote_of_valid htrusted hverify hid hkey]
      by_cases hshared : classicalBytes sig.signatureBytes ∈ t.classical ∨
          S.sha256 (postQuantumBytes sig.signatureBytes) ∈ t.postQuantum
      · simp only [if_pos hshared, reduceCtorEq, false_and, exists_false, false_iff, not_and]
        intro _ hfresh
        have := hfresh sig (by simp)
        tauto
      · simp only [if_neg hshared]
        rw [ih htail ?_]
        · simp only [List.pairwise_cons, List.mem_cons, List.length_cons, DistinctComponents,
            forall_eq_or_imp, not_or]
          constructor
          · rintro ⟨hpair, hfresh, hle⟩
            exact ⟨⟨fun s hs => ⟨Ne.symm (hfresh s hs).1.1, Ne.symm (hfresh s hs).2.1⟩, hpair⟩,
              ⟨not_or.mp hshared, fun s hs => ⟨(hfresh s hs).1.2, (hfresh s hs).2.2⟩⟩, by omega⟩
          · rintro ⟨⟨hsig, hpair⟩, ⟨-, hfresh⟩, hle⟩
            exact ⟨hpair, fun s hs => ⟨⟨(hsig s hs).1.symm, (hfresh s hs).1⟩,
              ⟨(hsig s hs).2.symm, (hfresh s hs).2⟩⟩, by omega⟩
        · intro s hs key' htrusted' hverify'
          obtain ⟨hid', hkey'⟩ := hnew s (by simp [hs]) key' htrusted' hverify'
          have hne := hhead s (List.mem_filter.mpr ⟨hs, decide_eq_true ⟨key', htrusted', hverify'⟩⟩)
          rw [htrusted, htrusted'] at hne
          refine ⟨?_, ?_⟩
          · simp only [List.mem_append, List.mem_singleton, not_or]
            refine ⟨hid', fun heq => hne ?_⟩
            rw [← htrusted, ← htrusted', heq]
          · simp only [List.mem_cons, not_or]
            exact ⟨fun heq => hne (heq ▸ rfl), hkey'⟩
    · have hfilter : (sig :: rest).filter (ValidVote S trusted digest) =
          rest.filter (ValidVote S trusted digest) := by simp [hvalid]
      rw [hfilter] at hdistinct ⊢
      simp only [Tally.run, vote_of_not_valid hvalid]
      exact ih hdistinct fun s hs => hnew s (by simp [hs])

end Tally

/-- The order in which the relays are listed makes no difference. -/
lemma contentBytes_of_perm {d d' : ConsensusDocument} (hafter : d.validAfter = d'.validAfter)
    (huntil : d.validUntil = d'.validUntil) (hperm : d.relays.Perm d'.relays)
    (hids : ∀ r ∈ d.relays, ∀ r' ∈ d.relays, r.nodeId = r'.nodeId → r = r') :
    d.contentBytes = d'.contentBytes := by
  have : Std.Total fun r r' : RelayDescriptor => r.nodeId ≤ r'.nodeId :=
    ⟨fun r r' => String.le_total _ _⟩
  have : IsTrans RelayDescriptor fun r r' => r.nodeId ≤ r'.nodeId :=
    ⟨fun _ _ _ h h' => String.le_trans h h'⟩
  have hsorted : d.relays.insertionSort (fun r r' => r.nodeId ≤ r'.nodeId) =
      d'.relays.insertionSort (fun r r' => r.nodeId ≤ r'.nodeId) := by
    refine List.Perm.eq_of_pairwise (fun r r' hr hr' hle hge => ?_)
      (List.pairwise_insertionSort _ _) (List.pairwise_insertionSort _ _)
      ((List.perm_insertionSort _ _).trans (hperm.trans (List.perm_insertionSort _ _).symm))
    refine hids r ((List.perm_insertionSort _ _).mem_iff.mp hr) r' ?_ (String.le_antisymm hle hge)
    exact hperm.mem_iff.mpr ((List.perm_insertionSort _ _).mem_iff.mp hr')
  rw [contentBytes, contentBytes, hafter, huntil, hsorted]

lemma signedBy_eq_true {id : String} : d.signedBy S trusted id = true ↔
    ∃ sig ∈ d.signatures, sig.authorityId = id ∧ ValidVote S trusted (d.computeDigest S) sig := by
  unfold signedBy ValidVote
  cases htrusted : trusted[id]? with
  | none =>
    simp only [Bool.false_eq_true, false_iff]
    rintro ⟨sig, -, rfl, key, hkey, -⟩
    rw [htrusted] at hkey
    cases hkey
  | some key =>
    simp only [List.any_eq_true, Bool.and_eq_true, beq_iff_eq]
    constructor
    · rintro ⟨sig, hsig, rfl, hv⟩
      exact ⟨sig, hsig, rfl, key, htrusted, hv⟩
    · rintro ⟨sig, hsig, rfl, key', hkey', hv⟩
      rw [htrusted] at hkey'
      cases hkey'
      exact ⟨sig, hsig, rfl, hv⟩

lemma mem_signers {id : String} :
    id ∈ d.signers S trusted ↔ d.signedBy S trusted id = true := by
  unfold signers
  rw [List.mem_filter, Std.TreeMap.mem_keys]
  refine ⟨And.right, fun h => ⟨?_, h⟩⟩
  obtain ⟨sig, -, rfl, key, hkey, -⟩ := signedBy_eq_true.mp h
  rw [Std.TreeMap.mem_iff_isSome_getElem?, hkey]
  rfl

lemma nodup_signers : (d.signers S trusted).Nodup := by
  refine List.Nodup.filter _ ?_
  rw [List.nodup_iff_pairwise_ne]
  refine Std.TreeMap.distinct_keys.imp fun hne => ?_
  simpa using hne

/-- A document that passes was signed by so many trusted authorities. -/
theorem signers_of_verifyQuorum (h : d.verifyQuorum S trusted threshold now = true) :
    0 < threshold ∧ d.inWindow now = true ∧ threshold ≤ (d.signers S trusted).length := by
  unfold verifyQuorum at h
  split_ifs at h with hcheck
  obtain ⟨hpos, hwindow⟩ := not_or.mp hcheck
  refine ⟨Nat.pos_of_ne_zero hpos, by simpa using hwindow, ?_⟩
  split at h
  · cases h
  · rename_i t hrun
    have hcounts := Tally.counts_empty.run d.signatures hrun
    have hsub : t.authorities ⊆ d.signers S trusted := fun id hid => by
      obtain ⟨sig, hsig, rfl⟩ := hcounts.signed id hid
      exact mem_signers.mpr (signedBy_eq_true.mpr ⟨sig, hsig.1, rfl, hsig.2.2⟩)
    calc threshold ≤ t.count := of_decide_eq_true h
      _ = t.authorities.length := hcounts.count
      _ ≤ (d.signers S trusted).length := (hcounts.nodup.subperm hsub).length_le

/-- If the keys are distinct, the converse holds too. -/
lemma verifyQuorum_iff_of_distinctKeys
    (hkeys : DistinctKeys S trusted (d.computeDigest S) d.signatures) :
    d.verifyQuorum S trusted threshold now = true ↔
      0 < threshold ∧ d.inWindow now = true ∧ threshold ≤ (d.signers S trusted).length := by
  refine ⟨signers_of_verifyQuorum, ?_⟩
  rintro ⟨hpos, hwindow, hle⟩
  have hempty : Tally.empty.Counts S trusted (d.computeDigest S) [] := Tally.counts_empty
  obtain ⟨t, hrun, -, hall⟩ := Tally.run_of_distinctKeys hempty d.signatures hkeys
  have hcounts := hempty.run d.signatures hrun
  have hsub : d.signers S trusted ⊆ t.authorities := fun id hid => by
    obtain ⟨sig, hsig, rfl, hvalid⟩ := signedBy_eq_true.mp (mem_signers.mp hid)
    exact hall sig hsig hvalid
  unfold verifyQuorum
  rw [if_neg (by simp [hwindow]; omega), hrun]
  refine decide_eq_true (hle.trans ?_)
  rw [hcounts.count]
  exact (nodup_signers.subperm hsub).length_le

/-- Independent authorities have distinct keys in every list of signatures. -/
lemma distinctKeys_of_independent (hind : trusted.Independent S)
    (signatures : List AuthoritySignature) : DistinctKeys S trusted digest signatures := by
  rintro a - b - ⟨key, htrusted, hverify⟩ ⟨key', htrusted', hverify'⟩ hne
  obtain ⟨k, hk, hpin⟩ := IdentityScheme.publicKey_of_verifyStrict hverify
  obtain ⟨k', hk', hpin'⟩ := IdentityScheme.publicKey_of_verifyStrict hverify'
  obtain ⟨-, -, hdecode⟩ := IdentityScheme.publicKey_eq_some hk
  obtain ⟨-, -, hdecode'⟩ := IdentityScheme.publicKey_eq_some hk'
  obtain ⟨hc, hpq⟩ := IdentityScheme.components_of_publicKey hk
  obtain ⟨hc', hpq'⟩ := IdentityScheme.components_of_publicKey hk'
  obtain ⟨hpins, hcomponents⟩ := hind _ _ _ _ htrusted htrusted' hne
  rw [htrusted, htrusted', DistinctComponents, hc, hpq, hc', hpq']
  exact ⟨fun heq => hpins (Option.some.inj heq), hcomponents k k' hdecode hpin hdecode' hpin'⟩

theorem verifyQuorum_iff (hind : trusted.Independent S) :
    d.verifyQuorum S trusted threshold now = true ↔
      0 < threshold ∧ d.inWindow now = true ∧ threshold ≤ (d.signers S trusted).length :=
  verifyQuorum_iff_of_distinctKeys (distinctKeys_of_independent hind _)

lemma inWindow_eq_true :
    d.inWindow now = true ↔ d.validAfter ≤ now ∧ now < d.validUntil := by
  unfold inWindow
  simp only [Bool.and_eq_true, decide_eq_true_eq]
  constructor
  · rintro ⟨⟨-, hafter⟩, huntil⟩
    exact ⟨hafter, huntil⟩
  · rintro ⟨hafter, huntil⟩
    exact ⟨⟨UInt64.lt_of_le_of_lt hafter huntil, hafter⟩, huntil⟩

/-- There are so many signers if there is a set of so many signers. -/
lemma le_length_signers {n : ℕ} : n ≤ (d.signers S trusted).length ↔
    ∃ ids : Finset String, n ≤ ids.card ∧ ∀ id ∈ ids, d.signedBy S trusted id = true := by
  constructor
  · intro hle
    refine ⟨(d.signers S trusted).toFinset, ?_, fun id hid => ?_⟩
    · rwa [List.toFinset_card_of_nodup nodup_signers]
    · exact mem_signers.mp (List.mem_toFinset.mp hid)
  · rintro ⟨ids, hle, hids⟩
    have hsub : ids ⊆ (d.signers S trusted).toFinset := fun id hid =>
      List.mem_toFinset.mpr (mem_signers.mpr (hids id hid))
    have hcard := Finset.card_le_card hsub
    rw [List.toFinset_card_of_nodup nodup_signers] at hcard
    exact hle.trans hcard

/-- For any keys: if the valid signatures are by different keys, a document passes
when they are enough and no two of them share a component. -/
theorem verifyQuorum_iff_of_distinct
    (hdistinct : (d.signatures.filter (ValidVote S trusted (d.computeDigest S))).Pairwise
      fun a b => trusted[a.authorityId]? ≠ trusted[b.authorityId]?) :
    d.verifyQuorum S trusted threshold now = true ↔
      0 < threshold ∧ d.inWindow now = true ∧
      ((d.signatures.filter (ValidVote S trusted (d.computeDigest S))).Pairwise
        fun a b => DistinctComponents S a.signatureBytes b.signatureBytes) ∧
      threshold ≤ (d.signatures.filter (ValidVote S trusted (d.computeDigest S))).length := by
  have hrun := Tally.run_of_distinct (t := .empty) (n := threshold) hdistinct (by simp [Tally.empty])
  unfold verifyQuorum
  by_cases hcheck : threshold = 0 ∨ d.inWindow now = false
  · rw [if_pos hcheck]
    simp only [Bool.false_eq_true, false_iff]
    rintro ⟨hpos, hwindow, -⟩
    rcases hcheck with h | h
    · omega
    · rw [hwindow] at h
      cases h
  · rw [if_neg hcheck]
    obtain ⟨hpos, hwindow⟩ := not_or.mp hcheck
    have hwindow' : d.inWindow now = true := by simpa using hwindow
    simp only [Tally.empty, List.not_mem_nil, not_false_iff, and_self, implies_true, true_and,
      zero_add] at hrun
    rw [← hrun]
    simp only [Nat.pos_of_ne_zero hpos, hwindow', true_and, Tally.empty]
    cases Tally.run S trusted (d.computeDigest S) d.signatures ⟨0, [], [], [], []⟩ with
    | none | some => simp

end ConsensusDocument

/-- A result that passes a test. -/
lemma exists_ok_of_any {ε α : Type*} {x : Except ε α} {p : α → Bool}
    (h : x.toOption.any p = true) : ∃ a, x = .ok a ∧ p a = true := by
  cases x with
  | error => cases h
  | ok a => exact ⟨a, rfl, h⟩

/-- A hash that keeps the start and the end of its input, and signatures that show
the start of the message. They serve for concrete documents only. -/
def sampleScheme : IdentityScheme where
  sha256 b := b.take 64 ++ b.drop (b.length - 8)
  edPoint _ := true
  edVerify _ t sig := sig == (t.drop 133 ++ List.replicate 64 0).take 64
  mlDsaVerify _ _ _ := true

def sampleEnv : DirectoryEnv := ⟨sampleScheme, fun _ => none, fun _ => ""⟩

def samplePublicKey (n : UInt8) : Bytes := MAGIC ++ List.replicate 1984 n

def sampleKey (n : UInt8) : SigningKey sampleEnv.toIdentityScheme where
  publicKey := samplePublicKey n
  edSign t := (t.drop 133 ++ List.replicate 64 0).take 64
  mlDsaSign _ := List.replicate 3309 0
  decodes := by
    have hmagic : MAGIC.length = 8 := by decide +kernel
    have hhead : (samplePublicKey n).take 8 = MAGIC := by
      rw [samplePublicKey, ← hmagic, List.take_left]
    have hlen : (samplePublicKey n).length = PUBLIC_KEY_SIZE := by
      simp [samplePublicKey, hmagic, PUBLIC_KEY_SIZE, -List.reduceReplicate]
    simp [-List.reduceReplicate, IdentityScheme.decodeKey, hhead, hlen, sampleEnv, sampleScheme]
  length_edSign t := by simp [-List.reduceReplicate]
  length_mlDsaSign _ := List.length_replicate
  ed_verifies t := by simp [sampleEnv, sampleScheme, -List.reduceReplicate]
  mlDsa_verifies t := by simp [sampleEnv, sampleScheme, -List.reduceReplicate]

/-- A relay that the key `n` has signed. -/
def sampleRelay (n : UInt8) : RelayDescriptor :=
  let r : RelayDescriptor := ⟨"relay-" ++ toString n, "r" ++ toString n, 9001, [n],
    (sampleKey n).verifyingKey, n % 2 == 0, 0, 1000, []⟩
  { r with signature := (sampleKey n).sign r.computeSigningBytes }

namespace ConsensusDocument
variable {S : DirectoryEnv} {trusted : Authorities} {d : ConsensusDocument}

/-- Only the valid signatures matter for the keys. -/
lemma DistinctKeys.of_valid {digest : Bytes} {signatures signatures' : List AuthoritySignature}
    (hkeys : DistinctKeys S trusted digest signatures)
    (hsame : ∀ sig, ValidVote S trusted digest sig → (sig ∈ signatures' ↔ sig ∈ signatures)) :
    DistinctKeys S trusted digest signatures' := by
  intro a ha b hb hvalid hvalid'
  exact hkeys a ((hsame a hvalid).mp ha) b ((hsame b hvalid').mp hb) hvalid hvalid'

/-- A document passes exactly if it is in its window and enough trusted authorities each have a
valid signature in the list under their own id. So the answer is the same for any list with the
same valid signatures, in any order, repeated and among any others, and for other valid signatures
by the same authorities. -/
theorem verifyQuorum_counts_authorities (threshold : ℕ) (now : UInt64)
    (hkeys : DistinctKeys S trusted (d.computeDigest S) d.signatures) :
    (d.verifyQuorum S trusted threshold now = true ↔
      1 ≤ threshold ∧ (d.validAfter ≤ now ∧ now < d.validUntil) ∧
        ∃ ids : Finset String, threshold ≤ ids.card ∧ ∀ id ∈ ids, ∃ sig ∈ d.signatures,
          sig.authorityId = id ∧ ValidVote S trusted (d.computeDigest S) sig) ∧
    (∀ signatures, (∀ sig, ValidVote S trusted (d.computeDigest S) sig →
        (sig ∈ signatures ↔ sig ∈ d.signatures)) →
      { d with signatures }.verifyQuorum S trusted threshold now =
        d.verifyQuorum S trusted threshold now) ∧
    ∀ signatures, DistinctKeys S trusted (d.computeDigest S) signatures →
      (∀ id, (∃ sig ∈ signatures, sig.authorityId = id ∧
          ValidVote S trusted (d.computeDigest S) sig) ↔
        ∃ sig ∈ d.signatures, sig.authorityId = id ∧
          ValidVote S trusted (d.computeDigest S) sig) →
      { d with signatures }.verifyQuorum S trusted threshold now =
        d.verifyQuorum S trusted threshold now := by
  have hiff : ∀ d : ConsensusDocument, DistinctKeys S trusted (d.computeDigest S) d.signatures →
      (d.verifyQuorum S trusted threshold now = true ↔
        1 ≤ threshold ∧ (d.validAfter ≤ now ∧ now < d.validUntil) ∧
          ∃ ids : Finset String, threshold ≤ ids.card ∧ ∀ id ∈ ids, ∃ sig ∈ d.signatures,
            sig.authorityId = id ∧ ValidVote S trusted (d.computeDigest S) sig) := by
    intro d hkeys
    rw [verifyQuorum_iff_of_distinctKeys hkeys, inWindow_eq_true, le_length_signers]
    simp only [signedBy_eq_true, Nat.lt_iff_add_one_le, zero_add]
  have hother : ∀ signatures, DistinctKeys S trusted (d.computeDigest S) signatures →
      (∀ id, (∃ sig ∈ signatures, sig.authorityId = id ∧
          ValidVote S trusted (d.computeDigest S) sig) ↔
        ∃ sig ∈ d.signatures, sig.authorityId = id ∧
          ValidVote S trusted (d.computeDigest S) sig) →
      { d with signatures }.verifyQuorum S trusted threshold now =
        d.verifyQuorum S trusted threshold now := by
    intro signatures hkeys' hsame
    have hdigest : ({ d with signatures } : ConsensusDocument).computeDigest S =
        d.computeDigest S := rfl
    rw [Bool.eq_iff_iff, hiff d hkeys, hiff { d with signatures } hkeys']
    simp only [hdigest, hsame]
  refine ⟨hiff d hkeys, fun signatures hsame => ?_, hother⟩
  refine hother signatures (hkeys.of_valid hsame) fun id => exists_congr fun sig => ?_
  constructor
  · rintro ⟨hmem, hid, hvalid⟩
    exact ⟨(hsame sig hvalid).mp hmem, hid, hvalid⟩
  · rintro ⟨hmem, hid, hvalid⟩
    exact ⟨(hsame sig hvalid).mpr hmem, hid, hvalid⟩

def samplePins : Authorities :=
  (∅ : Authorities).insert "a" (sampleKey 11).verifyingKey |>.insert "b" (sampleKey 12).verifyingKey

/-- An empty directory under the signatures of both authorities. -/
def sampleDirectory : ConsensusDocument :=
  ((⟨900, 1500, [], []⟩ : ConsensusDocument).signWithAuthority "a" (sampleKey 11)).signWithAuthority
    "b" (sampleKey 12)

/-- The two signatures are enough in the other order too, behind an empty one. -/
theorem sampleDirectory_passes_reversed :
    DistinctKeys sampleEnv samplePins (sampleDirectory.computeDigest sampleEnv)
        sampleDirectory.signatures ∧
      ({ sampleDirectory with
        signatures := ⟨"b", []⟩ :: sampleDirectory.signatures.reverse } : ConsensusDocument).verifyQuorum
          sampleEnv samplePins 2 1000 = true := by
  have hchecks : DistinctKeys sampleEnv samplePins (sampleDirectory.computeDigest sampleEnv)
        sampleDirectory.signatures ∧
      ¬ ValidVote sampleEnv samplePins (sampleDirectory.computeDigest sampleEnv) ⟨"b", []⟩ ∧
      sampleDirectory.verifyQuorum sampleEnv samplePins 2 1000 = true := by decide +kernel
  obtain ⟨hkeys, hforged, hpasses⟩ := hchecks
  refine ⟨hkeys, ((verifyQuorum_counts_authorities 2 1000 hkeys).2.1 _ fun sig hvalid => ?_).trans
    hpasses⟩
  rw [List.mem_cons, List.mem_reverse]
  refine ⟨fun h => h.resolve_left fun heq => hforged (heq ▸ hvalid), .inr⟩

end ConsensusDocument

end AnonGuard
