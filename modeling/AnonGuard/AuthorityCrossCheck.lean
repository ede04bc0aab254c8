import AnonGuard.AuthorityQuorum

/-!
# The cross-check of a new document

Before it hands out a document, an authority asks its peers to sign the digest.
It checks every answer against the key it dialled; clients look the key up by the
id written in the answer. The two agree on the answers that carry the id of
their own authority.
-/
namespace AnonGuard

/-- A peer authority: its address, and its pinned key. -/
structure Peer where
  addr : String
  key : Option Bytes

/-- The addresses that an authority is configured with. -/
structure PeerConfig where
  listenAddr : String
  peerAuthorities : List Peer

/-- What `fetch_peer_cross_check` gives. -/
inductive CrossReply
  | signed (sig : AuthoritySignature)
  | rejected
  | failed (error : String)
  | timeout

/-- The signatures of the document and the keys that have signed it. -/
structure CrossCheck where
  signatures : List AuthoritySignature
  receivedKeys : List Bytes

def CrossCheck.receive (S : DirectoryEnv) (digest : Bytes) (c : CrossCheck)
    (answer : Peer × CrossReply) : CrossCheck :=
  match answer.2 with
  | .signed peerSig =>
    match answer.1.key with
    | some pubkey =>
      match signatureFromSlice peerSig.signatureBytes with
      | some edSig =>
        if S.verifyStrict pubkey digest edSig = true ∧ pubkey ∉ c.receivedKeys then
          ⟨c.signatures ++ [peerSig], pubkey :: c.receivedKeys⟩
        else c
      | none => c
    | none => c
  | .rejected | .failed _ | .timeout => c

namespace PeerConfig

/-- The pinned keys of the peers. -/
def pinnedKeys (net : PeerConfig) : Except String (List Bytes) :=
  net.peerAuthorities.mapM fun peer =>
    match peer.key with
    | none => .error "Authority peer lacks an identity pin"
    | some key => .ok key

/-- The peers that are asked, with their answers. -/
def crossChecks (net : PeerConfig) (replies : List CrossReply) : List (Peer × CrossReply) :=
  (net.peerAuthorities.filter (·.addr ≠ net.listenAddr)).zip replies

/-- More than two thirds of the distinct keys, one's own included. -/
def requiredSignatures (own : Bytes) (keys : List Bytes) : ℕ := quorum (own :: keys).dedup.length

/-- The signatures that an authority with these peers needs. -/
def required (net : PeerConfig) (own : Bytes) : ℕ :=
  requiredSignatures own (net.peerAuthorities.filterMap (·.key))

end PeerConfig

namespace DirectoryAuthority
variable {S : DirectoryEnv} (a : DirectoryAuthority S)

/-- `generate_consensus` from the frozen view on. -/
def crossCheck (net : PeerConfig) (replies : List CrossReply) (consensus : ConsensusDocument) :
    Except String ConsensusDocument :=
  match net.pinnedKeys with
  | .error e => .error e
  | .ok keys =>
    let own := a.signingKey.verifyingKey
    let required := PeerConfig.requiredSignatures own keys
    let checked := (net.crossChecks replies).foldl
      (CrossCheck.receive S (consensus.computeDigest S)) ⟨consensus.signatures, [own]⟩
    if required ≤ checked.signatures.length then
      .ok { consensus with signatures := checked.signatures }
    else
      .error ("Authority [" ++ a.authorityId ++ "]: BFT Cross-check failed (only " ++
        toString checked.signatures.length ++ " signatures acquired, required " ++
        toString required ++ ")")

/-- `generate_consensus` once the relays are reconciled. -/
def generateConsensus (votes : Votes) (file : VoteFile) (now : UInt64)
    (relays : List RelayDescriptor) (write : WriteResult) (order : HashOrder ConsensusDocument)
    (net : PeerConfig) (replies : List CrossReply) : FrozenView :=
  let view := a.frozenView votes file now relays write order
  match view.result with
  | .error _ => view
  | .ok doc => { view with result := a.crossCheck net replies doc }

end DirectoryAuthority

section Answers
variable (S : DirectoryEnv) (digest : Bytes)

/-- The signature in an answer, if the answer is from the key and the key verifies it. -/
def validReply (key : Bytes) (answer : Peer × CrossReply) : Option AuthoritySignature :=
  match answer.2 with
  | .signed sig =>
    if answer.1.key = some key ∧ S.verifyStrict key digest sig.signatureBytes = true then some sig
    else none
  | .rejected | .failed _ | .timeout => none

/-- The first valid signature under a key. -/
def firstValid (answers : List (Peer × CrossReply)) (key : Bytes) : Option AuthoritySignature :=
  answers.findSome? (validReply S digest key)

/-- The first valid signatures under the keys of the other authorities, as far as
they carry the id of their authority. -/
def cosignatures (real : Authorities) (own : String) (answers : List (Peer × CrossReply)) :
    List AuthoritySignature :=
  real.keys.filterMap fun id =>
    if id = own then none
    else real[id]?.bind fun key => (firstValid S digest answers key).filter (·.authorityId = id)

/-- Enough other authorities have signed under their own ids, and no two of the
signing keys share a component. -/
structure Corroborated (real : Authorities) (own : String) (key : Bytes) (required : ℕ)
    (answers : List (Peer × CrossReply)) : Prop where
  enough : required ≤ (cosignatures S digest real own answers).length + 1
  distinct : (key :: (cosignatures S digest real own answers).map (·.signatureBytes)).Pairwise
    (ConsensusDocument.DistinctComponents S)

instance (real : Authorities) (own : String) (key : Bytes) (required : ℕ)
    (answers : List (Peer × CrossReply)) :
    Decidable (Corroborated S digest real own key required answers) :=
  decidable_of_iff (_ ∧ _) ⟨fun h => ⟨h.1, h.2⟩, fun h => ⟨h.1, h.2⟩⟩

end Answers

section Receive
variable {S : DirectoryEnv} {digest : Bytes}

/-- An answer is passed over, or it adds the first valid signature of its key. -/
lemma CrossCheck.receive_cases (c : CrossCheck) (answer : Peer × CrossReply) :
    (c.receive S digest answer = c ∧
        ∀ key, key ∉ c.receivedKeys → validReply S digest key answer = none) ∨
      ∃ key sig, key ∉ c.receivedKeys ∧ validReply S digest key answer = some sig ∧
        c.receive S digest answer = ⟨c.signatures ++ [sig], key :: c.receivedKeys⟩ ∧
        ∀ key', key' ≠ key → validReply S digest key' answer = none := by
  obtain ⟨⟨addr, pinned⟩, reply⟩ := answer
  cases reply with
  | rejected | timeout => exact .inl ⟨rfl, fun _ _ => rfl⟩
  | failed => exact .inl ⟨rfl, fun _ _ => rfl⟩
  | signed sig =>
    cases pinned with
    | none => exact .inl ⟨rfl, fun _ _ => by simp [validReply]⟩
    | some pubkey =>
      by_cases hverify : S.verifyStrict pubkey digest sig.signatureBytes = true
      · have hslice := IdentityScheme.signatureFromSlice_of_verifyStrict hverify
        have hother : ∀ key', key' ≠ pubkey →
            validReply S digest key' (⟨addr, some pubkey⟩, .signed sig) = none :=
          fun key' hne => by simp [validReply, hne.symm]
        by_cases hmem : pubkey ∈ c.receivedKeys
        · refine .inl ⟨by simp [receive, hslice, hmem], fun key hkey => hother key ?_⟩
          rintro rfl
          exact hkey hmem
        · exact .inr ⟨pubkey, sig, hmem, by simp [validReply, hverify],
            by simp [receive, hslice, hverify, hmem], hother⟩
      · refine .inl ⟨?_, fun key _ => ?_⟩
        · unfold receive signatureFromSlice
          by_cases hlen : sig.signatureBytes.length = PROOF_SIZE <;> simp [hlen, hverify]
        · by_cases hkey : pubkey = key
          · subst hkey
            simp [validReply, hverify]
          · simp [validReply, hkey]

/-- The answers add the first valid signature of each new key. -/
lemma CrossCheck.exists_accepted (S : DirectoryEnv) (digest : Bytes)
    (answers : List (Peer × CrossReply)) (c : CrossCheck) :
    ∃ accepted : List (Bytes × AuthoritySignature),
      (answers.foldl (receive S digest) c).signatures = c.signatures ++ accepted.map Prod.snd ∧
      (accepted.map Prod.fst).Nodup ∧
      ∀ key sig, (key, sig) ∈ accepted ↔
        key ∉ c.receivedKeys ∧ firstValid S digest answers key = some sig := by
  induction answers generalizing c with
  | nil => exact ⟨[], by simp, by simp, by simp [firstValid]⟩
  | cons answer answers ih =>
    obtain ⟨hsame, hnone⟩ | ⟨key, sig, hnew, hvalid, hreceive, hother⟩ :=
      receive_cases c answer
    · obtain ⟨accepted, hsignatures, hnodup, hmem⟩ := ih c
      refine ⟨accepted, by rw [List.foldl_cons, hsame, hsignatures], hnodup, fun k s => ?_⟩
      rw [hmem, firstValid, firstValid, List.findSome?_cons]
      constructor
      · rintro ⟨hk, hs⟩
        rw [hnone k hk]
        exact ⟨hk, hs⟩
      · rintro ⟨hk, hs⟩
        rw [hnone k hk] at hs
        exact ⟨hk, hs⟩
    · obtain ⟨accepted, hsignatures, hnodup, hmem⟩ := ih ⟨c.signatures ++ [sig], key :: c.receivedKeys⟩
      have hfresh : key ∉ accepted.map Prod.fst := by
        rintro hin
        obtain ⟨⟨k, s⟩, hks, rfl⟩ := List.mem_map.mp hin
        exact ((hmem k s).mp hks).1 (by simp)
      refine ⟨(key, sig) :: accepted, ?_, ?_, fun k s => ?_⟩
      · rw [List.foldl_cons, hreceive, hsignatures, List.map_cons, List.append_assoc,
          List.singleton_append]
      · exact List.nodup_cons.mpr ⟨hfresh, hnodup⟩
      · rw [List.mem_cons, hmem, firstValid, firstValid, List.findSome?_cons]
        by_cases hk : k = key
        · subst hk
          simp [hvalid, hnew, eq_comm]
        · simp [hother k hk, hk]

end Receive

/-- The document carries the signature of its authority and no other. -/
def OwnVote {S : DirectoryEnv} (authorityId : String) (key : SigningKey S.toIdentityScheme)
    (doc : ConsensusDocument) : Prop :=
  doc.signatures = [⟨authorityId, key.sign (doc.computeDigest S)⟩]

/-- All votes in memory are of the authority. -/
def Votes.Own {S : DirectoryEnv} (authorityId : String) (key : SigningKey S.toIdentityScheme)
    (votes : Votes) : Prop :=
  ∀ (epoch : UInt64) (doc : ConsensusDocument), votes[epoch]? = some doc → OwnVote authorityId key doc

variable {relays : List RelayDescriptor}

namespace DirectoryAuthority
variable {S : DirectoryEnv} {a : DirectoryAuthority S} {votes : Votes}
  {key : SigningKey S.toIdentityScheme} {doc : ConsensusDocument}

lemma own_insert {authorityId : String} {epoch : UInt64}
    (hvotes : votes.Own authorityId key) (hdoc : OwnVote authorityId key doc) :
    Votes.Own authorityId key (votes.insert epoch doc) := by
  intro e d hd
  obtain ⟨-, rfl⟩ | ⟨-, hd⟩ := getElem?_insert_cases hd
  · exact hdoc
  · exact hvotes e d hd

lemma prepareVote_own {now : UInt64}
    {next : Option Votes} (hvotes : votes.Own a.authorityId a.signingKey)
    (h : a.prepareVote votes now relays = .ok (doc, next)) :
    ∀ votes' ∈ next, Votes.Own a.authorityId a.signingKey votes' := by
  obtain ⟨-, ⟨rfl, -⟩ | ⟨rfl, -, rfl⟩⟩ := prepareVote_cases h
  · simp
  · rintro _ ⟨⟩
    refine own_insert (fun e d hd => ?_) rfl
    rw [Std.TreeMap.getElem?_filter'] at hd
    exact hvotes e d (Option.filter_eq_some_iff.mp hd).1

lemma readVotes_own {authorityId : String}
    {docs : List ConsensusDocument} {votes' : Votes} (hvotes : votes.Own authorityId key)
    (hdocs : ∀ doc ∈ docs, OwnVote authorityId key doc) (h : a.readVotes docs votes = some votes') :
    votes'.Own authorityId key := by
  induction docs generalizing votes with
  | nil =>
    cases h
    exact hvotes
  | cons doc docs ih =>
    simp only [readVotes] at h
    split_ifs at h
    exact ih (own_insert hvotes (hdocs doc (by simp))) (fun d hd => hdocs d (by simp [hd])) h

lemma frozenView_own {file : VoteFile} (now : UInt64) (relays : List RelayDescriptor)
    (write : WriteResult) (order : HashOrder ConsensusDocument)
    (hvotes : votes.Own a.authorityId a.signingKey)
    (hfile : ∀ doc ∈ file.getD [], OwnVote a.authorityId a.signingKey doc) :
    (a.frozenView votes file now relays write order).votes.Own a.authorityId a.signingKey ∧
      ∀ doc ∈ (a.frozenView votes file now relays write order).file.getD [],
        OwnVote a.authorityId a.signingKey doc := by
  obtain ⟨-, hv, hf, -⟩ | ⟨doc, next, hprepare, hcase⟩ :=
    frozenView_cases (rfl : a.frozenView votes file now relays write order = _)
  · rw [hv, hf]
    exact ⟨hvotes, hfile⟩
  · have hnext := prepareVote_own hvotes hprepare next rfl
    have hvalues : ∀ doc ∈ order.order (valuesOf next), OwnVote a.authorityId a.signingKey doc := by
      intro doc hdoc
      obtain ⟨epoch, hepoch⟩ := mem_valuesOf.mp (order.mem_order.mp hdoc)
      exact hnext epoch doc hepoch
    rcases hcase with ⟨-, hv, hf, -⟩ | ⟨-, hv, hf⟩
    · rw [hv, hf]
      cases write with
      | done => exact ⟨hnext, hvalues⟩
      | failedBefore => exact ⟨hvotes, hfile⟩
      | failedAfter => exact ⟨hvotes, hvalues⟩
    · rw [hv, hf]
      exact ⟨hnext, hfile⟩

end DirectoryAuthority

namespace AuthorityState
variable {S : DirectoryEnv} {s s' : AuthorityState S} {authorityId : String}
  {key : SigningKey S.toIdentityScheme}

/-- Every vote of the authority, in memory or in the file, is signed by it alone. -/
structure OwnVotes (authorityId : String) (key : SigningKey S.toIdentityScheme)
    (s : AuthorityState S) : Prop where
  sameId : s.authority.authorityId = authorityId
  sameKey : s.authority.signingKey = key
  process : ∀ votes ∈ s.process, votes.Own authorityId key
  file : ∀ doc ∈ s.file.getD [], OwnVote authorityId key doc

lemma OwnVotes.step {i : VoteInput} (h : s.OwnVotes authorityId key) (hs : s.step i = some s') :
    s'.OwnVotes authorityId key := by
  obtain ⟨a, process, file, returned⟩ := s
  obtain ⟨rfl, rfl, hprocess, hfile⟩ := h
  cases i with
  | crash =>
    cases hs
    exact ⟨rfl, rfl, by simp, hfile⟩
  | start =>
    obtain ⟨started, hstarted, -, rfl⟩ := of_step_start hs
    refine ⟨rfl, rfl, fun votes hvotes => ?_, hfile⟩
    have hload := hstarted votes hvotes
    have hempty : Votes.Own a.authorityId a.signingKey ∅ := fun _ _ h => by simp at h
    cases file with
    | none =>
      cases hload
      exact hempty
    | some =>
      simp only [DirectoryAuthority.loadVotes] at hload
      split_ifs at hload
      exact DirectoryAuthority.readVotes_own hempty hfile hload
  | frozenView now relays write order =>
    obtain ⟨votes, rfl, rfl⟩ := Option.map_eq_some_iff.mp hs
    have hview := DirectoryAuthority.frozenView_own now relays write order (hprocess votes rfl) hfile
    exact ⟨rfl, rfl, fun _ hv => Option.some.inj hv ▸ hview.1, hview.2⟩

lemma ownVotes_of_run (h : Run AuthorityState.step (stopped authorityId key none) s) :
    s.OwnVotes authorityId key := by
  have hstart : (stopped authorityId key none).OwnVotes authorityId key :=
    ⟨rfl, rfl, by rintro _ ⟨⟩, by simp [stopped]⟩
  exact h.invariant hstart fun _ _ _ hown _ hs => hown.step hs

/-- What `frozen_view` returns is signed by the authority alone. -/
lemma ownVote_of_frozenView {votes : Votes} {now : UInt64}
    {write : WriteResult} {order : HashOrder ConsensusDocument} {vote : ConsensusDocument}
    (h : Run AuthorityState.step (stopped authorityId key none) s) (hvotes : s.process = some votes)
    (hvote : (s.authority.frozenView votes s.file now relays write order).result = .ok vote) :
    s.authority.signingKey = key ∧ OwnVote authorityId key vote := by
  obtain ⟨hid, hkey, hprocess, hfile⟩ := ownVotes_of_run h
  have hconsistent := consistent_of_run h
  have hspec := (frozenView_spec hconsistent.votePath (hconsistent.keyed votes hvotes) rfl).2.2
    vote hvote
  subst hid hkey
  exact ⟨rfl, (DirectoryAuthority.frozenView_own _ _ _ _ (hprocess votes hvotes) hfile).1 _ _ hspec.1⟩

end AuthorityState

section Cosignatures
variable {S : DirectoryEnv} {digest ownKey : Bytes} {real : Authorities} {own : String}
  {answers : List (Peer × CrossReply)} {accepted : List (Bytes × AuthoritySignature)}
  {key : Bytes} {sig : AuthoritySignature} {counted : List AuthoritySignature}
  {ownSig : AuthoritySignature}

lemma verifyStrict_of_firstValid (h : firstValid S digest answers key = some sig) :
    S.verifyStrict key digest sig.signatureBytes = true := by
  obtain ⟨⟨peer, reply⟩, -, hreply⟩ := List.exists_of_findSome?_eq_some h
  cases reply with
  | signed =>
    simp only [validReply] at hreply
    split_ifs at hreply with hvalid
    cases hreply
    exact hvalid.2
  | rejected | failed | timeout => cases hreply

/-- Clients count an accepted signature if it carries the id of its key. -/
lemma validVote_iff_of_firstValid (h : firstValid S digest answers key = some sig) :
    ConsensusDocument.ValidVote S real digest sig ↔ real[sig.authorityId]? = some key := by
  have hverify := verifyStrict_of_firstValid h
  constructor
  · rintro ⟨key', hkey', hverify'⟩
    rw [hkey', IdentityScheme.pin_of_verifyStrict hverify' hverify]
  · intro hkey
    exact ⟨key, hkey, hverify⟩

lemma mem_cosignatures : sig ∈ cosignatures S digest real own answers ↔
    sig.authorityId ≠ own ∧
      ∃ key, real[sig.authorityId]? = some key ∧ firstValid S digest answers key = some sig := by
  unfold cosignatures
  rw [List.mem_filterMap]
  constructor
  · rintro ⟨id, -, hid⟩
    split_ifs at hid with hne
    obtain ⟨key, hkey, hfilter⟩ := Option.bind_eq_some_iff.mp hid
    obtain ⟨hfirst, hlabel⟩ := Option.filter_eq_some_iff.mp hfilter
    obtain rfl := of_decide_eq_true hlabel
    exact ⟨hne, key, hkey, hfirst⟩
  · rintro ⟨hne, key, hkey, hfirst⟩
    refine ⟨sig.authorityId, ?_, by simp [hne, hkey, hfirst]⟩
    rw [Std.TreeMap.mem_keys, Std.TreeMap.mem_iff_isSome_getElem?, hkey]
    rfl

lemma nodup_cosignatures : (cosignatures S digest real own answers).Nodup := by
  refine List.Nodup.filterMap (fun id id' sig hid hid' => ?_) ?_
  · have hlabel : ∀ {id : String}, sig ∈ (if id = own then none else real[id]?.bind fun key =>
        (firstValid S digest answers key).filter (·.authorityId = id)) → sig.authorityId = id := by
      intro id h
      split_ifs at h
      · cases h
      · obtain ⟨_, -, hfilter⟩ := Option.bind_eq_some_iff.mp h
        exact of_decide_eq_true (Option.filter_eq_some_iff.mp hfilter).2
    rw [← hlabel hid, ← hlabel hid']
  · rw [List.nodup_iff_pairwise_ne]
    refine Std.TreeMap.distinct_keys.imp fun hne => ?_
    simpa using hne

/-- What clients count among the accepted signatures. -/
lemma perm_cosignatures (hown : real[own]? = some ownKey)
    (hreal : ∀ (id id' : String) (k : Bytes), real[id]? = some k → real[id']? = some k → id = id')
    (hnodup : (accepted.map Prod.fst).Nodup) (hmem : ∀ key sig, (key, sig) ∈ accepted ↔
      key ∉ [ownKey] ∧ firstValid S digest answers key = some sig) :
    ((accepted.map Prod.snd).filter (ConsensusDocument.ValidVote S real digest)).Perm
      (cosignatures S digest real own answers) := by
  have hsnd : (accepted.map Prod.snd).Nodup := by
    refine List.Nodup.map_on (fun p hp q hq heq => ?_) (List.Nodup.of_map _ hnodup)
    have hp' := verifyStrict_of_firstValid ((hmem p.1 p.2).mp hp).2
    have hq' := verifyStrict_of_firstValid ((hmem q.1 q.2).mp hq).2
    rw [heq] at hp'
    exact Prod.ext (IdentityScheme.pin_of_verifyStrict hp' hq') heq
  refine (List.perm_ext_iff_of_nodup (hsnd.filter _) nodup_cosignatures).mpr fun sig => ?_
  simp only [List.mem_filter, List.mem_map, Prod.exists, exists_eq_right, hmem, decide_eq_true_eq,
    mem_cosignatures, List.mem_singleton]
  constructor
  · rintro ⟨⟨key, hne, hfirst⟩, hvalid⟩
    have hkey := (validVote_iff_of_firstValid hfirst).mp hvalid
    refine ⟨fun heq => hne ?_, key, hkey, hfirst⟩
    rw [heq, hown] at hkey
    exact (Option.some.inj hkey).symm
  · rintro ⟨hne, key, hkey, hfirst⟩
    refine ⟨⟨key, fun heq => hne ?_, hfirst⟩, (validVote_iff_of_firstValid hfirst).mpr hkey⟩
    exact hreal _ _ key hkey (heq ▸ hown)

/-- The authority's own signature and its cosignatures are by different keys. -/
lemma pairwise_keys
    (hreal : ∀ (id id' : String) (k : Bytes), real[id]? = some k → real[id']? = some k → id = id')
    (hperm : counted.Perm (cosignatures S digest real own answers)) (hid : ownSig.authorityId = own) :
    (ownSig :: counted).Pairwise fun s s' => real[s.authorityId]? ≠ real[s'.authorityId]? := by
  have hkeys : ∀ sig ∈ counted, sig.authorityId ≠ own ∧
      ∃ key, real[sig.authorityId]? = some key ∧ firstValid S digest answers key = some sig :=
    fun sig hsig => mem_cosignatures.mp (hperm.mem_iff.mp hsig)
  refine List.pairwise_cons.mpr ⟨fun s hs heq => ?_, ?_⟩
  · obtain ⟨hne, key, hkey, -⟩ := hkeys s hs
    rw [hid, hkey] at heq
    exact hne (hreal _ _ key hkey heq)
  · refine (hperm.nodup_iff.mpr nodup_cosignatures).imp_of_mem fun {s s'} hs hs' hne heq => hne ?_
    obtain ⟨-, key, hkey, hfirst⟩ := hkeys s hs
    obtain ⟨-, key', hkey', hfirst'⟩ := hkeys s' hs'
    rw [hkey, hkey', Option.some.injEq] at heq
    rw [heq, hfirst', Option.some.injEq] at hfirst
    exact hfirst.symm

lemma pairwise_components
    {publicKey : Bytes} (hperm : counted.Perm (cosignatures S digest real own answers))
    (hkey : S.publicKey ownSig.signatureBytes = some publicKey) :
    ((ownSig :: counted).Pairwise fun s s' =>
        ConsensusDocument.DistinctComponents S s.signatureBytes s'.signatureBytes) ↔
      (publicKey :: (cosignatures S digest real own answers).map (·.signatureBytes)).Pairwise
        (ConsensusDocument.DistinctComponents S) := by
  obtain ⟨hclassical, hpostQuantum⟩ := IdentityScheme.components_of_publicKey hkey
  have hhead : ∀ b, ConsensusDocument.DistinctComponents S ownSig.signatureBytes b ↔
      ConsensusDocument.DistinctComponents S publicKey b := fun b => by
    simp only [ConsensusDocument.DistinctComponents, hclassical, hpostQuantum]
  rw [List.pairwise_cons, List.pairwise_cons, List.pairwise_map,
    hperm.pairwise_iff fun {s s'} h => ⟨h.1.symm, h.2.symm⟩]
  simp only [hhead, List.forall_mem_map, hperm.mem_iff]

end Cosignatures

namespace DirectoryAuthority
variable {S : DirectoryEnv} {a : DirectoryAuthority S} {net : PeerConfig}
  {replies : List CrossReply} {vote doc : ConsensusDocument}

/-- What a cross-check that succeeds returns. -/
lemma crossCheck_eq_ok (h : a.crossCheck net replies vote = .ok doc) :
    ∃ keys, net.pinnedKeys = .ok keys ∧
      doc = { vote with signatures := ((net.crossChecks replies).foldl
        (CrossCheck.receive S (vote.computeDigest S))
        ⟨vote.signatures, [a.signingKey.verifyingKey]⟩).signatures } := by
  unfold crossCheck at h
  split at h
  · cases h
  · rename_i keys hkeys
    dsimp only at h
    split_ifs at h
    cases h
    exact ⟨keys, hkeys, rfl⟩

/-- Clients accept a cross-checked document when it is corroborated. -/
theorem verifyQuorum_crossCheck_iff {real : Authorities} {own : String} {threshold : ℕ}
    {time : UInt64} (hhash : ∀ b, (S.sha256 b).length ≤ MAX_MESSAGE)
    (hvote : OwnVote own a.signingKey vote) (hown : real[own]? = some a.signingKey.verifyingKey)
    (hreal : ∀ (id id' : String) (k : Bytes), real[id]? = some k → real[id']? = some k → id = id')
    (h : a.crossCheck net replies vote = .ok doc) (hpos : 0 < threshold)
    (htime : doc.inWindow time = true) :
    doc.verifyQuorum S real threshold time = true ↔
      Corroborated S (vote.computeDigest S) real own a.signingKey.publicKey threshold
        (net.crossChecks replies) := by
  obtain ⟨keys, -, hdoc⟩ := crossCheck_eq_ok h
  obtain ⟨accepted, hsignatures, hnodup, hmem⟩ := CrossCheck.exists_accepted S
    (vote.computeDigest S) (net.crossChecks replies) ⟨vote.signatures, [a.signingKey.verifyingKey]⟩
  let ownSig : AuthoritySignature := ⟨own, a.signingKey.sign (vote.computeDigest S)⟩
  have hdigest : doc.computeDigest S = vote.computeDigest S := by rw [hdoc]; rfl
  have hperm := perm_cosignatures hown hreal hnodup hmem
  -- the authority's own signature comes first and is valid
  have hvalid : doc.signatures.filter (ConsensusDocument.ValidVote S real (doc.computeDigest S)) =
      ownSig :: (accepted.map Prod.snd).filter
        (ConsensusDocument.ValidVote S real (vote.computeDigest S)) := by
    have hself : ConsensusDocument.ValidVote S real (vote.computeDigest S) ownSig :=
      ⟨_, hown, a.signingKey.verifyStrict_sign _ (hhash _)⟩
    have hlist : doc.signatures = ownSig :: accepted.map Prod.snd := by
      rw [hdoc, hsignatures, hvote, List.singleton_append]
    rw [hlist, hdigest, List.filter_cons, if_pos (decide_eq_true hself)]
  rw [ConsensusDocument.verifyQuorum_iff_of_distinct (hvalid ▸ pairwise_keys hreal hperm rfl),
    hvalid, pairwise_components hperm (a.signingKey.publicKey_sign _ (hhash _)), List.length_cons,
    hperm.length_eq]
  constructor
  · rintro ⟨-, -, hdistinct, henough⟩
    exact ⟨henough, hdistinct⟩
  · rintro ⟨henough, hdistinct⟩
    exact ⟨hpos, htime, hdistinct, henough⟩

end DirectoryAuthority

namespace AuthorityState
variable {S : DirectoryEnv} {s : AuthorityState S} {authorityId : String}
  {key : SigningKey S.toIdentityScheme}

/-- Let `real` give every configured authority's key under its id. A document that
`generate_consensus` returns passes `verify_quorum` against it if and only if enough
peers have signed under their own ids, with keys that share no component. -/
theorem consensus_passes_iff_corroborated {votes : Votes} {now time : UInt64}
    {relays : List RelayDescriptor} {write : WriteResult} {order : HashOrder ConsensusDocument}
    {net : PeerConfig} {replies : List CrossReply} {vote doc : ConsensusDocument}
    {real : Authorities}
    (hhash : ∀ b, (S.sha256 b).length ≤ MAX_MESSAGE)
    (hrun : Run AuthorityState.step (stopped authorityId key none) s) (hvotes : s.process = some votes)
    (hown : real[authorityId]? = some key.verifyingKey)
    (hreal : ∀ (id id' : String) (k : Bytes), real[id]? = some k → real[id']? = some k → id = id')
    (hvote : (s.authority.frozenView votes s.file now relays write order).result = .ok vote)
    (hdoc : (s.authority.generateConsensus votes s.file now relays write order net replies).result =
      .ok doc) (htime : doc.inWindow time = true) :
    doc.verifyQuorum S real (net.required key.verifyingKey) time = true ↔
      Corroborated S (vote.computeDigest S) real authorityId key.publicKey
        (net.required key.verifyingKey) (net.crossChecks replies) := by
  obtain ⟨rfl, hown'⟩ := ownVote_of_frozenView hrun hvotes hvote
  have hcross : s.authority.crossCheck net replies vote = .ok doc := by
    simpa only [DirectoryAuthority.generateConsensus, hvote] using hdoc
  exact DirectoryAuthority.verifyQuorum_crossCheck_iff hhash hown' hown hreal hcross
    (Nat.succ_pos _) htime

/-- An authority that has started, with three peers. -/
def startedAuthority : AuthorityState sampleEnv :=
  (runInputs step (stopped "a" (sampleKey 1) none) [.start [] false true]).getD
    (stopped "a" (sampleKey 1) none)

def threePeers : PeerConfig :=
  ⟨"10.0.0.1:9030", [⟨"10.0.0.2:9030", some (sampleKey 2).verifyingKey⟩,
    ⟨"10.0.0.3:9030", some (sampleKey 3).verifyingKey⟩,
    ⟨"10.0.0.4:9030", some (sampleKey 4).verifyingKey⟩]⟩

/-- The second and the third authority sign, the third one under the given id, and
the fourth does not answer. -/
def twoReplies (id : String) : List CrossReply :=
  [.signed ⟨"b", (sampleKey 2).sign ((sharedVote []).computeDigest sampleEnv)⟩,
    .signed ⟨id, (sampleKey 3).sign ((sharedVote []).computeDigest sampleEnv)⟩, .timeout]

/-- Three signatures are acquired where three are required, but clients count two. -/
theorem mislabelled_cosignature :
    Run step (stopped "a" (sampleKey 1) none) startedAuthority ∧
      startedAuthority.process = some ∅ ∧ startedAuthority.file = none ∧
      threePeers.required (sampleKey 1).verifyingKey = 3 ∧
      ∃ doc, (startedAuthority.authority.generateConsensus ∅ none 1000 [] .done (.listed _)
        threePeers (twoReplies "x")).result = .ok doc ∧ doc.inWindow 1000 = true ∧
        doc.verifyQuorum sampleEnv fourAuthorities 3 1000 = false := by
  refine ⟨Run.getD_inputs _, rfl, rfl, by decide +kernel, ?_⟩
  obtain ⟨doc, hdoc, htest⟩ := exists_ok_of_any (x := (startedAuthority.authority.generateConsensus ∅
    none 1000 [] .done (.listed _) threePeers (twoReplies "x")).result)
    (p := fun doc => doc.inWindow 1000 && !doc.verifyQuorum sampleEnv fourAuthorities 3 1000)
    (by decide +kernel)
  simp only [Bool.and_eq_true, Bool.not_eq_true'] at htest
  exact ⟨doc, hdoc, htest⟩

/-- With its own id on the third signature, clients accept the document. -/
theorem labelled_cosignature :
    ∃ doc, (startedAuthority.authority.generateConsensus ∅ none 1000 [] .done (.listed _)
        threePeers (twoReplies "c")).result = .ok doc ∧
      doc.verifyQuorum sampleEnv fourAuthorities (threePeers.required (sampleKey 1).verifyingKey)
        1000 = true := by
  have hruns : ((startedAuthority.authority.frozenView ∅ none 1000 [] .done
        (.listed _)).result.toOption.any fun vote => decide (Corroborated sampleEnv
          (vote.computeDigest sampleEnv) fourAuthorities "a" (sampleKey 1).publicKey
          (threePeers.required (sampleKey 1).verifyingKey)
          (threePeers.crossChecks (twoReplies "c")))) = true ∧
      ((startedAuthority.authority.generateConsensus ∅ none 1000 [] .done (.listed _) threePeers
        (twoReplies "c")).result.toOption.any fun doc => doc.inWindow 1000) = true := by
    decide +kernel
  obtain ⟨vote, hvote, hcorroborated⟩ := exists_ok_of_any hruns.1
  obtain ⟨doc, hdoc, htime⟩ := exists_ok_of_any hruns.2
  have hhash : ∀ b, (sampleEnv.sha256 b).length ≤ MAX_MESSAGE := fun b => by
    have : (sampleEnv.sha256 b).length ≤ 72 := by
      simp only [sampleEnv, sampleScheme, List.length_append, List.length_take, List.length_drop]
      omega
    exact this.trans (by decide)
  have hrun : Run step (stopped "a" (sampleKey 1) none) startedAuthority := Run.getD_inputs _
  have hreal : ∀ (id id' : String) (k : Bytes), fourAuthorities[id]? = some k →
      fourAuthorities[id']? = some k → id = id' := by
    have hlist : ∀ p ∈ fourAuthorities.toList, ∀ q ∈ fourAuthorities.toList, p.2 = q.2 → p.1 = q.1 := by
      decide +kernel
    exact fun id id' k hid hid' => hlist (id, k) (Std.TreeMap.mem_toList_iff_getElem?_eq_some.mpr hid)
      (id', k) (Std.TreeMap.mem_toList_iff_getElem?_eq_some.mpr hid') rfl
  exact ⟨doc, hdoc, (consensus_passes_iff_corroborated hhash hrun rfl (by decide +kernel) hreal hvote
    hdoc htime).mpr (of_decide_eq_true hcorroborated)⟩

end AuthorityState

end AnonGuard
