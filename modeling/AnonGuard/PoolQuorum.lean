import AnonGuard.PoolLoad

/-!
# Which documents a load can publish

A load merges the copies of a document into the first one, and takes over the
signatures under an id only if it has none under that id yet, valid or not. So an
authority counts for a document if the first copy that mentions it carries its
valid signature.
-/
namespace AnonGuard

variable {d : ConsensusDocument}

namespace ConsensusDocument

/-- The documents with a digest that a load looks at, in their order. -/
def copiesOf (S : DirectoryEnv) (docs : List ConsensusDocument) (now : UInt64) (digest : Bytes) :
    List ConsensusDocument :=
  (docs.filter (·.admissible now)).filter (·.computeDigest S = digest)

/-- Whether the document has a signature under the id. -/
def mentions (d : ConsensusDocument) (id : String) : Bool :=
  d.signatures.any (·.authorityId == id)

/-- The trusted authorities that have signed one of the copies. -/
def jointSigners (S : DirectoryEnv) (trusted : Authorities) (copies : List ConsensusDocument) :
    List String :=
  trusted.keys.filter fun id => copies.any (·.signedBy S trusted id)

/-- The trusted authorities that have signed the first copy that mentions them. -/
def confirmedBy (S : DirectoryEnv) (trusted : Authorities) (copies : List ConsensusDocument) :
    List String :=
  trusted.keys.filter fun id => (copies.find? (·.mentions id)).any (·.signedBy S trusted id)

variable {digest : Bytes}

section Merging
variable {S : DirectoryEnv} {trusted : Authorities} {id : String} {copies : List ConsensusDocument}
  {d other : ConsensusDocument} {m : ConsensusDocument}

/-- The signatures under one id. -/
def under (d : ConsensusDocument) (id : String) : List AuthoritySignature :=
  d.signatures.filter (·.authorityId = id)

lemma under_eq_nil : d.under id = [] ↔ d.mentions id = false := by
  simp [under, mentions]

/-- Only the signatures under an id count for it. -/
lemma signedBy_eq_any_under (d : ConsensusDocument) (id : String) :
    d.signedBy S trusted id = match trusted[id]? with
      | none => false
      | some key => (d.under id).any fun sig =>
          S.verifyStrict key (d.computeDigest S) sig.signatureBytes := by
  unfold signedBy under
  cases trusted[id]? with
  | none => rfl
  | some =>
    dsimp only
    rw [List.any_filter]
    rfl

/-- Merging takes over the signatures under an id if there is none yet. -/
lemma under_merge (h : d.computeDigest S = other.computeDigest S) (id : String) :
    (d.mergeSignaturesFrom S other).1.under id =
      if d.mentions id then d.under id else other.under id := by
  have hmerge : (d.mergeSignaturesFrom S other).1.signatures =
      d.signatures ++ d.newSignatures other := by
    simp [mergeSignaturesFrom, h]
  have hnew : (d.newSignatures other).filter (·.authorityId = id) =
      if d.mentions id then [] else other.under id := by
    rw [newSignatures, List.filter_filter]
    split_ifs with hmentions
    · refine List.filter_eq_nil_iff.mpr fun sig _ => ?_
      obtain ⟨x, hx, hid⟩ := List.any_eq_true.mp hmentions
      simp only [Bool.and_eq_true, decide_eq_true_eq, not_and, not_not]
      rintro rfl
      exact List.mem_map.mpr ⟨x, hx, beq_iff_eq.mp hid⟩
    · refine List.filter_congr fun sig _ => ?_
      have hnot : ∀ x ∈ d.signatures, x.authorityId ≠ id := by simpa [mentions] using hmentions
      by_cases hid : sig.authorityId = id
      · simpa [hid] using hnot
      · simp [hid]
  rw [under, hmerge, List.filter_append, hnew]
  split_ifs with hmentions
  · rw [List.append_nil]
    rfl
  · rw [← under, under_eq_nil.mpr (by simpa using hmentions), List.nil_append]

lemma mentions_merge (h : d.computeDigest S = other.computeDigest S) :
    (d.mergeSignaturesFrom S other).1.mentions id = (d.mentions id || other.mentions id) := by
  have hunder := under_merge h id
  cases hd : d.mentions id with
  | true =>
    rw [hd, if_pos rfl] at hunder
    rw [Bool.true_or, ← Bool.not_eq_false, ← under_eq_nil, hunder, under_eq_nil, hd]
    simp
  | false =>
    rw [hd, if_neg (by simp)] at hunder
    rw [Bool.false_or, Bool.eq_iff_iff, ← Bool.not_eq_false, ← Bool.not_eq_false, not_iff_not,
      ← under_eq_nil, ← under_eq_nil, hunder]

section
variable (hdigest : ∀ d ∈ copies, d.computeDigest S = digest) (h : mergeCopies S copies = some m)
include hdigest h

/-- The signatures under an id are those of the first copy that mentions it. -/
lemma under_mergeCopies (id : String) :
    m.under id = ((copies.find? (·.mentions id)).map (·.under id)).getD [] := by
  cases copies with
  | nil => cases h
  | cons d ds =>
    cases h
    induction ds generalizing d with
    | nil =>
      cases hd : d.mentions id with
      | true => simp [hd]
      | false => simp [hd, under_eq_nil]
    | cons d' ds ih =>
      have hsame : d.computeDigest S = d'.computeDigest S := by
        rw [hdigest d (by simp), hdigest d' (by simp)]
      have hmerged : ∀ x ∈ (d.mergeSignaturesFrom S d').1 :: ds, x.computeDigest S = digest := by
        intro x hx
        rcases List.mem_cons.mp hx with rfl | hx
        · rw [(sameContents_merge d d').computeDigest, hdigest d (by simp)]
        · exact hdigest x (by simp [hx])
      rw [List.foldl_cons, ih _ hmerged, List.find?_cons, List.find?_cons, mentions_merge hsame]
      have hunder := under_merge hsame id
      cases hd : d.mentions id with
      | true => simpa [hd] using hunder
      | false =>
        cases hd' : d'.mentions id with
        | true => simpa [hd, hd'] using hunder
        | false => simp [hd']

lemma signedBy_mergeCopies :
    m.signedBy S trusted id = (copies.find? (·.mentions id)).any (·.signedBy S trusted id) := by
  have hunder := under_mergeCopies hdigest h id
  obtain ⟨first, rest, rfl, hsame⟩ := sameContents_mergeCopies h
  have hm : m.computeDigest S = digest := by
    rw [hsame.computeDigest, hdigest first (by simp)]
  cases hfind : (first :: rest).find? (·.mentions id) with
  | none =>
    rw [hfind] at hunder
    rw [signedBy_eq_any_under, hunder]
    cases trusted[id]? <;> rfl
  | some d =>
    rw [hfind] at hunder
    rw [Option.any_some, signedBy_eq_any_under, signedBy_eq_any_under, hunder, hm,
      hdigest d (List.mem_of_find?_eq_some hfind)]
    rfl

lemma signers_mergeCopies : m.signers S trusted = confirmedBy S trusted copies :=
  List.filter_congr fun _ _ => signedBy_mergeCopies hdigest h

end

lemma length_confirmedBy_le (copies : List ConsensusDocument) :
    (confirmedBy S trusted copies).length ≤ (jointSigners S trusted copies).length := by
  refine (List.monotone_filter_right _ fun id hid => ?_).length_le
  obtain ⟨d, hd, hsigned⟩ := (Option.any_eq_true _ _).mp hid
  exact List.any_eq_true.mpr ⟨d, List.mem_of_find?_eq_some hd, hsigned⟩

end Merging

section Selection
variable {S : DirectoryEnv} {docs : List ConsensusDocument} {trusted : Authorities} {threshold : ℕ}
  {now : UInt64} {order : HashOrder ConsensusDocument} {c : ConsensusDocument}

/-- There is one snapshot for each digest: its copies, merged. -/
lemma mem_snapshotsOf : c ∈ snapshotsOf S docs now ↔
    mergeCopies S (copiesOf S docs now (c.computeDigest S)) = some c := by
  have hfilter : c ∈ snapshotsOf S docs now ↔
      c ∈ (snapshotsOf S docs now).filter (·.computeDigest S = c.computeDigest S) := by
    rw [List.mem_filter]
    simp
  rw [hfilter, merged_snapshotsOf, Option.mem_toList]
  rfl

lemma computeDigest_of_mem_copiesOf (h : d ∈ copiesOf S docs now digest) : d.computeDigest S = digest :=
  of_decide_eq_true (List.mem_filter.mp h).2

/-- The copies of a document make a snapshot with the contents of the first one. -/
lemma exists_snapshot_of_head {first : ConsensusDocument}
    (h : (copiesOf S docs now digest).head? = some first) :
    ∃ m ∈ snapshotsOf S docs now, m.SameContents first ∧ m.computeDigest S = digest := by
  obtain ⟨rest, hcopies⟩ := List.head?_eq_some_iff.mp h
  have hmerge : mergeCopies S (copiesOf S docs now digest) =
      some (rest.foldl (fun m d => (m.mergeSignaturesFrom S d).1) first) := by
    rw [hcopies]
    rfl
  obtain ⟨d, ds, hd, hsame⟩ := sameContents_mergeCopies hmerge
  obtain rfl : first = d := (List.cons.inj (hcopies.symm.trans hd)).1
  have hfirst : first ∈ copiesOf S docs now digest := List.mem_of_head? h
  have hdigest := hsame.computeDigest (S := S)
  rw [computeDigest_of_mem_copiesOf hfirst] at hdigest
  exact ⟨_, mem_snapshotsOf.mpr (hdigest.symm ▸ hmerge), hsame, hdigest⟩

/-- A snapshot has a quorum if enough authorities are confirmed. -/
lemma verifyQuorum_of_mem_snapshotsOf (hind : trusted.Independent S) (hpos : 0 < threshold)
    (h : c ∈ snapshotsOf S docs now) : c.verifyQuorum S trusted threshold now = true ↔
      threshold ≤ (confirmedBy S trusted (copiesOf S docs now (c.computeDigest S))).length := by
  have hmerge := mem_snapshotsOf.mp h
  obtain ⟨d, -, hadmissible, hafter, huntil, -⟩ := exists_of_mem_snapshotsOf h
  have hwindow : c.inWindow now = true := by
    simp only [admissible, Bool.and_eq_true] at hadmissible
    rw [inWindow, hafter, huntil]
    exact hadmissible.2
  rw [verifyQuorum_iff hind, signers_mergeCopies (fun _ => computeDigest_of_mem_copiesOf) hmerge]
  simp [hpos, hwindow]

/-- A digest without enough signers is not that of a candidate. -/
lemma digest_of_mem_candidates {epoch : UInt64} (hind : trusted.Independent S) (hpos : 0 < threshold)
    (hother : ∀ d ∈ docs, d.admissible now = true → d.computeDigest S ≠ digest →
      epoch ≤ d.validAfter →
      (jointSigners S trusted (copiesOf S docs now (d.computeDigest S))).length < threshold)
    (h : c ∈ candidates S docs trusted threshold now order) (hepoch : epoch ≤ c.validAfter) :
    c.computeDigest S = digest := by
  by_contra hne
  obtain ⟨hsnapshot, hquorum⟩ := mem_candidates.mp h
  obtain ⟨d, hd, hadmissible, hsame⟩ := exists_of_mem_snapshotsOf hsnapshot
  have hdigest : c.computeDigest S = d.computeDigest S := hsame.computeDigest
  have hfew := hother d hd hadmissible (hdigest ▸ hne) (hsame.1 ▸ hepoch)
  have hmany := (verifyQuorum_of_mem_snapshotsOf hind hpos hsnapshot).mp hquorum
  rw [hdigest] at hmany
  exact absurd (hmany.trans (length_confirmedBy_le _)) (by omega)

lemma pairwise_candidates : (candidates S docs trusted threshold now order).Pairwise
    fun a b => b.validAfter ≤ a.validAfter := by
  have : Std.Total fun a b : ConsensusDocument => b.validAfter ≤ a.validAfter :=
    ⟨fun a b => UInt64.le_total _ _⟩
  have : IsTrans ConsensusDocument fun a b => b.validAfter ≤ a.validAfter :=
    ⟨fun _ _ _ hab hbc => UInt64.le_trans hbc hab⟩
  exact List.pairwise_insertionSort _ _

/-- A candidate is selected if no other digest competes with it. -/
lemma selectSnapshot_of_mem (hind : trusted.Independent S) (hpos : 0 < threshold)
    (hle : threshold ≤ trusted.size) (h : c ∈ candidates S docs trusted threshold now order)
    (hother : ∀ d ∈ candidates S docs trusted threshold now order, c.validAfter ≤ d.validAfter →
      d.computeDigest S = c.computeDigest S) :
    selectSnapshot S docs trusted threshold now order = .ok c := by
  have hkeys : (valuesOf trusted).dedup.length = trusted.size := by
    have hnodup : (valuesOf trusted).Nodup :=
      pairwise_valuesOf fun id id' k k' hk hk' hne => (hind id id' k k' hk hk' hne).1
    rw [hnodup.dedup, length_valuesOf]
  unfold selectSnapshot
  rw [if_neg (by omega), if_neg (not_not.mpr hkeys)]
  have hsorted : (candidates S docs trusted threshold now order).Pairwise
      fun a b => b.validAfter ≤ a.validAfter := pairwise_candidates
  cases hcandidates : candidates S docs trusted threshold now order with
  | nil =>
    rw [hcandidates] at h
    cases h
  | cons first rest =>
    rw [hcandidates] at h hother hsorted
    have hfirst : c.validAfter ≤ first.validAfter := by
      rcases List.mem_cons.mp h with rfl | hmem
      · exact UInt64.le_refl _
      · exact (List.pairwise_cons.mp hsorted).1 c hmem
    have hsame : first = c := by
      have hdigest := hother first (by simp) hfirst
      have hc : c ∈ snapshotsOf S docs now := (mem_candidates.mp (hcandidates ▸ h)).1
      have hf : first ∈ snapshotsOf S docs now :=
        (mem_candidates.mp (hcandidates ▸ List.mem_cons_self ..)).1
      rw [mem_snapshotsOf, hdigest] at hf
      exact Option.some.inj (hf.symm.trans (mem_snapshotsOf.mp hc))
    subst hsame
    have hconflict : ¬ ((first :: rest).any fun d => d.validAfter == first.validAfter &&
        decide (d.computeDigest S ≠ first.computeDigest S)) = true := by
      rw [List.any_eq_true]
      rintro ⟨d, hd, htest⟩
      simp only [Bool.and_eq_true, beq_iff_eq, decide_eq_true_eq] at htest
      exact htest.2 (hother d hd (htest.1 ▸ UInt64.le_refl _))
    dsimp only
    rw [if_neg hconflict]

end Selection

end ConsensusDocument

section Sample

/-- A pin shows the first octet of the Ed25519 key and the last one of the ML-DSA key. -/
lemma marks_of_fingerprint {k : Bytes} (hk : k.length = PUBLIC_KEY_SIZE) :
    (sampleScheme.fingerprint k)[39]? = k[8]? ∧
      (sampleScheme.fingerprint k).getLast? = k.getLast? := by
  have hlabel : (utf8 "AnonGuard-HybridIdentity-Pin-v1").length = 31 := by decide +kernel
  have hlength : k.length = 1992 := hk
  constructor
  · rw [IdentityScheme.fingerprint, sampleScheme, List.getElem?_append_left (by simp [hlabel, hlength]),
      List.getElem?_take_of_lt (by decide), List.getElem?_append_right (by omega), hlabel]
  · rw [IdentityScheme.fingerprint, sampleScheme, List.getLast?_append_of_ne_nil,
      List.getLast?_drop, if_neg (by simp [hlabel, hlength]), List.getLast?_append_of_ne_nil]
    · exact List.ne_nil_of_length_pos (by omega)
    · exact List.ne_nil_of_length_pos (by simp [hlabel, hlength])

/-- Keys with the pin of a sample key show its number in both components. -/
lemma components_of_fingerprint {k : Bytes} {n : UInt8} (hk : sampleScheme.decodeKey k = some k)
    (hpin : sampleScheme.fingerprint k = (sampleKey n).verifyingKey) :
    (classicalBytes k).head? = some n ∧
      (sampleScheme.sha256 (postQuantumBytes k)).getLast? = some n := by
  have hlength : k.length = 1992 := by
    unfold IdentityScheme.decodeKey at hk
    split_ifs at hk with h
    exact not_not.mp (not_or.mp h).1
  have hmark := marks_of_fingerprint (k := k) hlength
  have hsample := marks_of_fingerprint (sampleKey n).length_publicKey
  have hmagic : MAGIC.length = 8 := SigningKey.length_MAGIC
  have hfirst : (sampleKey n).publicKey[8]? = some n := by
    show (MAGIC ++ List.replicate 1984 n)[8]? = some n
    rw [List.getElem?_append_right hmagic.le, hmagic]
    exact List.getElem?_replicate_of_lt (by decide)
  have hlast : (sampleKey n).publicKey.getLast? = some n := by
    show (MAGIC ++ List.replicate 1984 n).getLast? = some n
    rw [List.getLast?_append_of_ne_nil]
    · exact List.getLast?_replicate
    · exact List.ne_nil_of_length_pos (by rw [List.length_replicate]; decide)
  rw [hfirst, hlast] at hsample
  have hshown : k[8]? = some n ∧ k.getLast? = some n := by
    rw [← hmark.1, ← hmark.2, hpin]
    exact hsample
  constructor
  · rw [classicalBytes, slice, List.head?_drop, List.getElem?_take_of_lt (by decide)]
    exact hshown.1
  · have hpq : postQuantumBytes k = k.drop 40 := by
      rw [postQuantumBytes, slice, List.take_of_length_le (by rw [hlength]; decide)]
    have hdrop : (k.drop 40).length = 1952 := by rw [List.length_drop, hlength]
    rw [hpq, sampleScheme, List.getLast?_append_of_ne_nil, List.getLast?_drop, if_neg (by omega),
      List.getLast?_drop, if_neg (by omega)]
    · exact hshown.2
    · exact List.ne_nil_of_length_pos (by rw [List.length_drop]; omega)

end Sample

namespace Pool
variable {E : PoolEnv} {p : Pool} {file : Option AcceptedSnapshot} {docs : List ConsensusDocument}
  {trusted : Authorities} {threshold : ℕ} {now : UInt64} {order : HashOrder ConsensusDocument}

/-- The copies can be published: enough authorities have signed the first copy that
mentions them, and the relays of the first copy pass all checks. -/
structure Confirmed (E : PoolEnv) (p : Pool) (trusted : Authorities) (threshold : ℕ)
    (copies : List ConsensusDocument) : Prop where
  signed : threshold ≤ (ConsensusDocument.confirmedBy E.toDirectoryEnv trusted copies).length
  staged : ∃ first staged, copies.head? = some first ∧
    stageDirectory E p.revoked first.relays = .ok staged ∧ staged.replacement ≠ []

lemma rollsBack_eq_false {accepted : Option AcceptedSnapshot}
    {S : DirectoryEnv} : d.rollsBack S accepted = false ↔ ∀ previous, accepted = some previous →
      previous.epoch < d.validAfter ∨
        previous.epoch = d.validAfter ∧ previous.digest = d.computeDigest S := by
  unfold ConsensusDocument.rollsBack
  cases accepted with
  | none => simp
  | some =>
    simp only [Bool.or_eq_false_iff, decide_eq_false_iff_not, Bool.and_eq_false_iff, beq_eq_false_iff_ne,
      Option.some.injEq, forall_eq', ne_eq, not_not]
    constructor
    · rintro ⟨hlt, hne | heq⟩
      · exact .inl (by grind)
      · exact (by grind)
    · rintro (hlt | ⟨heq, hdigest⟩)
      · exact ⟨by grind, .inl (by grind)⟩
      · exact ⟨by grind, .inr hdigest.symm⟩

lemma load_of_prepareLoad {selected : ConsensusDocument} {staged : Staged}
    (file : Option AcceptedSnapshot)
    (h : p.prepareLoad E docs trusted threshold now order = .ok (selected, staged)) :
    (p.loadFromMultiConsensus E file docs trusted threshold now order .done).result =
        .ok staged.replacement.length ∧
      (p.loadFromMultiConsensus E file docs trusted threshold now order .done).pool =
        p.publish E selected staged := by
  unfold loadFromMultiConsensus
  rw [h]
  cases hpersistent : p.persistent <;> exact ⟨rfl, rfl⟩

/-- The two sample authorities share no key component. -/
lemma independent_twoAuthorities : twoAuthorities.Independent samplePool.toDirectoryEnv := by
  have hids : ∀ {id : String} {key : Bytes}, twoAuthorities[id]? = some key →
      id = "a" ∧ key = (sampleKey 11).verifyingKey ∨ id = "b" ∧ key = (sampleKey 12).verifyingKey := by
    intro id key h
    simp only [twoAuthorities, Std.TreeMap.getElem?_insert, Std.compare_eq_iff_eq] at h
    split_ifs at h with hb ha
    · exact .inr ⟨hb.symm, (Option.some.inj h).symm⟩
    · exact .inl ⟨ha.symm, (Option.some.inj h).symm⟩
    · simp at h
  have hkeys : ∀ {n n' : UInt8} {k k' : Bytes}, n ≠ n' →
      sampleScheme.decodeKey k = some k → sampleScheme.fingerprint k = (sampleKey n).verifyingKey →
      sampleScheme.decodeKey k' = some k' →
      sampleScheme.fingerprint k' = (sampleKey n').verifyingKey →
      classicalBytes k ≠ classicalBytes k' ∧ sampleScheme.sha256 (postQuantumBytes k) ≠
        sampleScheme.sha256 (postQuantumBytes k') := by
    intro n n' k k' hne hk hpin hk' hpin'
    obtain ⟨hfirst, hlast⟩ := components_of_fingerprint hk hpin
    obtain ⟨hfirst', hlast'⟩ := components_of_fingerprint hk' hpin'
    refine ⟨fun heq => hne ?_, fun heq => hne ?_⟩
    · rw [heq, hfirst'] at hfirst
      exact (Option.some.inj hfirst).symm
    · rw [heq, hlast'] at hlast
      exact (Option.some.inj hlast).symm
  intro id id' key key' h h' hne
  rcases hids h with ⟨rfl, rfl⟩ | ⟨rfl, rfl⟩ <;> rcases hids h' with ⟨rfl, rfl⟩ | ⟨rfl, rfl⟩
  · exact absurd rfl hne
  · exact ⟨by decide +kernel, fun k k' => hkeys (by decide)⟩
  · exact ⟨by decide +kernel, fun k k' => hkeys (by decide)⟩
  · exact absurd rfl hne

/-- A directory that has not been signed yet. -/
def unsignedDirectory : ConsensusDocument := ⟨900, 1500, [poolRelay 2], []⟩

/-- The directory once under each authority's signature. -/
def signedCopies : List ConsensusDocument :=
  [unsignedDirectory.signWithAuthority "a" (sampleKey 11),
    unsignedDirectory.signWithAuthority "b" (sampleKey 12)]

/-- The directory with an empty signature under the id of the second authority. -/
def forgedCopy : ConsensusDocument := { unsignedDirectory with signatures := [⟨"b", []⟩] }

end Pool

end AnonGuard
