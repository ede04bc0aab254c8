import AnonGuard.AuthorityCrossCheck
import AnonGuard.DirectorySizes

/-!
# Reading back the vote file

An authority exits at its start if the vote file does not pass a number of checks. It never
locks itself out: whatever has been written, also by writes that reported an error, passes the
checks and holds the votes that were in memory. The epochs are multiples of five minutes and
votes are dropped after an hour, so there are never more than the thirteen that are read.
-/
namespace AnonGuard

/-- A document as an authority stores it. -/
structure StoredVote (S : DirectoryEnv) (authorityId : String)
    (key : SigningKey S.toIdentityScheme) (doc : ConsensusDocument) : Prop where
  aligned : doc.validAfter.toNat % 300 = 0
  window : doc.validAfter < doc.validUntil
  relays : ListedRelays S doc.relays
  own : OwnVote authorityId key doc

/-- A file that an authority has written. -/
structure GoodFile (S : DirectoryEnv) (authorityId : String) (key : SigningKey S.toIdentityScheme)
    (file : VoteFile) : Prop where
  unique : (file.getD []).Pairwise fun d d' => d.validAfter ≠ d'.validAfter
  stored : ∀ doc ∈ file.getD [], StoredVote S authorityId key doc
  recent : ∀ doc ∈ file.getD [], ∀ doc' ∈ file.getD [],
    doc'.validAfter.toNat ≤ doc.validAfter.toNat + 3600

section Loading
variable {S : DirectoryEnv} {authorityId : String} {key : SigningKey S.toIdentityScheme}
  {file : VoteFile} {doc : ConsensusDocument} {a : DirectoryAuthority S}

/-- Multiples of 300 that are at most 3600 apart. -/
lemma length_le_of_aligned {l : List ℕ} (hnodup : l.Nodup) (haligned : ∀ n ∈ l, n % 300 = 0)
    (hspread : ∀ m ∈ l, ∀ n ∈ l, n ≤ m + 3600) : l.length ≤ 13 := by
  by_cases hempty : l = []
  · simp [hempty]
  · obtain ⟨first, hfirst, hleast⟩ :=
      l.toFinset.exists_min_image id (List.toFinset_nonempty_iff l |>.mpr hempty)
    rw [List.mem_toFinset] at hfirst
    have hsub : l ⊆ (List.range 13).map (first + 300 * ·) := by
      intro n hn
      have hle : first ≤ n := hleast n (List.mem_toFinset.mpr hn)
      have hspread := hspread first hfirst n hn
      have hmod := haligned first hfirst
      have hmod' := haligned n hn
      exact List.mem_map.mpr ⟨(n - first) / 300, List.mem_range.mpr (by omega), by omega⟩
    simpa using (hnodup.subperm hsub).length_le

lemma GoodFile.length_le (h : GoodFile S authorityId key file) : (file.getD []).length ≤ 13 := by
  have hnodup : ((file.getD []).map (·.validAfter.toNat)).Nodup :=
    List.pairwise_map.mpr (h.unique.imp fun hne heq => hne (UInt64.toNat_inj.mp heq))
  rw [← List.length_map (·.validAfter.toNat)]
  refine length_le_of_aligned hnodup ?_ ?_
  · rw [List.forall_mem_map]
    exact fun doc hdoc => (h.stored doc hdoc).aligned
  · simp only [List.forall_mem_map]
    exact h.recent

variable (hS : ∀ b, (S.sha256 b).length = 32)
include hS

lemma verifyStrict_digest (key : SigningKey S.toIdentityScheme) (doc : ConsensusDocument) :
    S.verifyStrict key.verifyingKey (doc.computeDigest S) (key.sign (doc.computeDigest S)) = true :=
  key.verifyStrict_sign _ ((hS _).trans_le (show 32 ≤ MAX_MESSAGE by decide))

/-- The authority's own signature is a quorum of one. -/
lemma StoredVote.verifyQuorum (h : StoredVote S authorityId key doc) :
    doc.verifyQuorum S ((∅ : Authorities).insert authorityId key.verifyingKey) 1
      doc.validAfter = true := by
  have hvalid : ConsensusDocument.ValidVote S ((∅ : Authorities).insert authorityId key.verifyingKey)
      (doc.computeDigest S) ⟨authorityId, key.sign (doc.computeDigest S)⟩ :=
    ⟨key.verifyingKey, by simp, verifyStrict_digest hS key doc⟩
  have hfilter : doc.signatures.filter (ConsensusDocument.ValidVote S
      ((∅ : Authorities).insert authorityId key.verifyingKey) (doc.computeDigest S)) =
        [⟨authorityId, key.sign (doc.computeDigest S)⟩] := by
    rw [h.own]
    exact List.filter_eq_self.mpr (by simpa using hvalid)
  rw [ConsensusDocument.verifyQuorum_iff_of_distinct (hfilter ▸ List.pairwise_singleton _ _), hfilter]
  refine ⟨one_pos, ?_, List.pairwise_singleton _ _, le_rfl⟩
  rw [ConsensusDocument.inWindow_eq_true]
  exact ⟨UInt64.le_refl _, h.window⟩

lemma StoredVote.admitsVote (h : StoredVote S a.authorityId a.signingKey doc) {votes : Votes}
    (hnew : votes[doc.validAfter]? = none) : a.admitsVote votes doc = true := by
  have hsignatures : doc.signatures.length = 1 := by rw [h.own, List.length_singleton]
  simp only [DirectoryAuthority.admitsVote, Bool.and_eq_true, decide_eq_true_eq, List.all_eq_true,
    Bool.not_eq_true', Std.TreeMap.contains_eq_isSome_getElem?, hnew, Option.isSome_none]
  exact ⟨⟨⟨⟨h.relays.length, by omega⟩, fun r hr => (h.relays.verified r hr).2⟩,
    h.verifyQuorum hS⟩, trivial⟩

lemma exists_readVotes {docs : List ConsensusDocument}
    (hunique : docs.Pairwise fun d d' => d.validAfter ≠ d'.validAfter)
    (hstored : ∀ doc ∈ docs, StoredVote S a.authorityId a.signingKey doc) (votes : Votes)
    (hnew : ∀ doc ∈ docs, votes[doc.validAfter]? = none) :
    ∃ votes', a.readVotes docs votes = some votes' := by
  induction docs generalizing votes with
  | nil => exact ⟨votes, rfl⟩
  | cons doc docs ih =>
    rw [List.pairwise_cons] at hunique
    rw [List.forall_mem_cons] at hstored hnew
    rw [DirectoryAuthority.readVotes, if_pos (hstored.1.admitsVote hS hnew.1)]
    refine ih hunique.2 hstored.2 _ fun doc' hdoc' => ?_
    rw [Std.TreeMap.getElem?_insert, if_neg fun heq => hunique.1 doc' hdoc' (by simpa using heq)]
    exact hnew.2 doc' hdoc'

/-- A good file is accepted, and the votes are those that it holds. -/
lemma GoodFile.loadVotes (h : GoodFile S a.authorityId a.signingKey file) :
    ∃ votes, a.loadVotes file = some votes ∧ votes.Keyed ∧ votes.lookup = file.lookup := by
  have hload : ∃ votes, a.loadVotes file = some votes := by
    cases file with
    | none => exact ⟨∅, rfl⟩
    | some =>
      have hlength := h.length_le
      rw [DirectoryAuthority.loadVotes, if_neg (by simpa using hlength)]
      exact exists_readVotes hS h.unique h.stored ∅ (by simp)
  obtain ⟨votes, hvotes⟩ := hload
  exact ⟨votes, hvotes, lookup_loadVotes hvotes⟩

lemma StoredVote.signedDocument (h : StoredVote S authorityId key doc)
    (hid : ShortId authorityId) : SignedDocument S 1 doc := by
  refine ⟨h.relays, by rw [h.own, List.length_singleton], ?_⟩
  rw [h.own, List.forall_mem_singleton]
  exact ⟨hid, IdentityScheme.length_of_verifyStrict (verifyStrict_digest hS key doc)⟩

end Loading

namespace DirectoryAuthority
variable {S : DirectoryEnv} {a : DirectoryAuthority S} {votes next : Votes} {written : VoteFile}
  {now : UInt64} {relays : List RelayDescriptor} {doc : ConsensusDocument}

/-- A system clock counts in 63 bits, so an epoch does not end after the last number. -/
def IsClock (now : UInt64) : Prop := (epochOf now).toNat + 600 < 2 ^ 64

instance : DecidablePred IsClock := fun now =>
  inferInstanceAs (Decidable ((epochOf now).toNat + 600 < 2 ^ 64))

lemma toNat_epochOf (now : UInt64) : (epochOf now).toNat = now.toNat / 300 * 300 := by
  have hlt := now.toNat_lt
  have h300 : (300 : UInt64).toNat = 300 := rfl
  rw [epochOf, UInt64.toNat_mul, UInt64.toNat_div, h300, Nat.mod_eq_of_lt (by omega)]

lemma toNat_le_of_le_saturatingAdd {epoch previous : UInt64}
    (h : epoch ≤ saturatingAdd previous 3600) : epoch.toNat ≤ previous.toNat + 3600 := by
  have hepoch := epoch.toNat_lt
  have hsum : (previous + 3600).toNat = (previous.toNat + 3600) % 2 ^ 64 := UInt64.toNat_add ..
  unfold saturatingAdd at h
  split_ifs at h with hoverflow
  · rw [UInt64.lt_iff_toNat_lt] at hoverflow
    omega
  · rw [UInt64.le_iff_toNat_le] at h
    omega

lemma storedVote_newVote (hnow : IsClock now) (hrelays : ListedRelays S relays) :
    StoredVote S a.authorityId a.signingKey (a.newVote now relays) := by
  have hepoch := toNat_epochOf now
  refine ⟨?_, ?_, hrelays, rfl⟩
  · show (epochOf now).toNat % 300 = 0
    omega
  · show epochOf now < epochOf now + 600
    have h600 : (600 : UInt64).toNat = 600 := rfl
    rw [UInt64.lt_iff_toNat_lt, UInt64.toNat_add, h600, Nat.mod_eq_of_lt hnow]
    omega

/-- What a new vote lists has been counted and verified. -/
lemma listedRelays_of_prepareVote (hrelays : ∀ r ∈ relays, r.KeysSized)
    (h : a.prepareVote votes now relays = .ok (doc, some next)) :
    ListedRelays S (relays.filter (a.eligible now)) := by
  have hlength : relays.length ≤ MAX_DIRECTORY_RELAYS := by
    by_contra hlarge
    obtain ⟨-, ⟨hnone, -⟩ | ⟨-, hvote, -⟩⟩ := prepareVote_cases h
    · cases hnone
    · simp only [prepareVote, hvote, if_pos (Nat.lt_of_not_le hlarge)] at h
      split_ifs at h
  refine ⟨(List.length_filter_le _ _).trans hlength, fun r hr => ?_⟩
  obtain ⟨hmem, heligible⟩ := List.mem_filter.mp hr
  simp only [eligible, Bool.and_eq_true] at heligible
  exact ⟨hrelays r hmem, heligible.1.1.2⟩

/-- A document among the next votes is the new one, or an old one that is kept. -/
lemma mem_nextVotes {epoch : UInt64} {d : ConsensusDocument}
    (h : d ∈ valuesOf (nextVotes votes epoch doc)) :
    d = doc ∨ ∃ previous, votes[previous]? = some d ∧ epoch ≤ saturatingAdd previous 3600 := by
  obtain ⟨previous, hprevious⟩ := mem_valuesOf.mp h
  rw [nextVotes, Std.TreeMap.getElem?_insert, Std.TreeMap.getElem?_filter'] at hprevious
  split_ifs at hprevious
  · exact .inl (Option.some.inj hprevious).symm
  · obtain ⟨hold, hkept⟩ := Option.filter_eq_some_iff.mp hprevious
    exact .inr ⟨previous, hold, by simpa using hkept⟩

/-- The votes that are about to be written. -/
lemma goodFile_nextVotes (hkeyed : votes.Keyed) (hlookup : votes.lookup = written.lookup)
    (hwritten : GoodFile S a.authorityId a.signingKey written) (hnow : IsClock now)
    (hrelays : ∀ r ∈ relays, r.KeysSized) (h : a.prepareVote votes now relays = .ok (doc, some next))
    (order : HashOrder ConsensusDocument) : next.Keyed ∧
      next.lookup = VoteFile.lookup (some (order.order (valuesOf next))) ∧
      GoodFile S a.authorityId a.signingKey (some (order.order (valuesOf next))) := by
  have hlisted := listedRelays_of_prepareVote hrelays h
  have hafter := validAfter_of_prepareVote hkeyed h
  obtain ⟨hle, ⟨hnone, -⟩ | ⟨hnext, -, hdoc⟩⟩ := prepareVote_cases h
  · cases hnone
  obtain rfl := Option.some.inj hnext
  have hnextKeyed := keyed_nextVotes hkeyed hafter
  have hstored : StoredVote S a.authorityId a.signingKey doc := hdoc ▸ storedVote_newVote hnow hlisted
  -- the old votes are those of the file
  have hold {previous : UInt64} {d : ConsensusDocument} (hd : votes[previous]? = some d) :
      d ∈ written.getD [] ∧ d.validAfter = previous ∧ previous ≤ epochOf now := by
    have hfind : (written.getD []).find? (·.validAfter == previous) = some d := by
      rw [← hd]
      exact (congrFun hlookup previous).symm
    exact ⟨List.mem_of_find?_eq_some hfind, hkeyed _ _ hd, hle previous (by simp [Votes.lookup, hd])⟩
  refine ⟨hnextKeyed, (lookup_values hnextKeyed order).symm, ?_, fun d hd => ?_,
    fun d hd d' hd' => ?_⟩
  · refine (order.perm _).symm.pairwise (pairwise_valuesOf fun e e' d d' hd hd' hne => ?_)
      fun {d d'} h => h.symm
    rwa [hnextKeyed e d hd, hnextKeyed e' d' hd']
  · rcases mem_nextVotes (order.mem_order.mp hd) with rfl | ⟨previous, hprevious, -⟩
    · exact hstored
    · exact hwritten.stored d (hold hprevious).1
  · rcases mem_nextVotes (order.mem_order.mp hd) with rfl | ⟨previous, hprevious, hkept⟩
    · rcases mem_nextVotes (order.mem_order.mp hd') with rfl | ⟨previous', hprevious', -⟩
      · omega
      · obtain ⟨-, hkey, hle'⟩ := hold hprevious'
        rw [hafter, hkey]
        exact (UInt64.le_iff_toNat_le.mp hle').trans (Nat.le_add_right _ _)
    · obtain ⟨hmem, hkey, -⟩ := hold hprevious
      rcases mem_nextVotes (order.mem_order.mp hd') with rfl | ⟨previous', hprevious', -⟩
      · rw [hafter, hkey]
        exact toNat_le_of_le_saturatingAdd hkept
      · exact hwritten.recent d hmem d' (hold hprevious').1

end DirectoryAuthority

/-- What the program's types say about a call: the clock, and the keys of the relays. -/
def VoteInput.Typed : VoteInput → Prop
  | .frozenView now relays _ _ => DirectoryAuthority.IsClock now ∧ ∀ r ∈ relays, r.KeysSized
  | .crash | .start .. => True

namespace AuthorityState
variable {S : DirectoryEnv} {authorityId : String} {key : SigningKey S.toIdentityScheme}
  {x x' : AuthorityState S × VoteFile}

/-- The file that the process has started from, or has last written without an error. -/
def lastWritten (s : AuthorityState S) (written : VoteFile) : VoteInput → VoteFile
  | .frozenView now relays .done order =>
    match s.process.map fun votes => s.authority.prepareVote votes now relays with
    | some (.ok (_, some next)) => some (order.order (valuesOf next))
    | _ => written
  | .frozenView .. | .crash => written
  | .start .. => s.file

/-- A step of the authority, with that file. -/
def stepWritten (x : AuthorityState S × VoteFile) (i : VoteInput) :
    Option (AuthorityState S × VoteFile) :=
  (x.1.step i).map fun s => (s, x.1.lastWritten x.2 i)

/-- The votes in memory are those of the last file, and it can be read back. So can the file
that is there, which may be a later one. -/
structure Reloads (authorityId : String) (key : SigningKey S.toIdentityScheme)
    (x : AuthorityState S × VoteFile) : Prop where
  sameId : x.1.authority.authorityId = authorityId
  sameKey : x.1.authority.signingKey = key
  votePath : x.1.authority.votePath = true
  process : ∀ votes ∈ x.1.process, votes.Keyed ∧ votes.lookup = x.2.lookup
  written : GoodFile S authorityId key x.2
  file : GoodFile S authorityId key x.1.file

lemma Reloads.frozenView {votes : Votes} (h : Reloads authorityId key x)
    (hvotes : x.1.process = some votes) {now : UInt64} {relays : List RelayDescriptor}
    {write : WriteResult} {order : HashOrder ConsensusDocument}
    (htyped : VoteInput.Typed (.frozenView now relays write order)) {view : FrozenView}
    (hview : x.1.authority.frozenView votes x.1.file now relays write order = view) {written : VoteFile}
    (hwritten : x.1.lastWritten x.2 (.frozenView now relays write order) = written) :
    (view.votes.Keyed ∧ view.votes.lookup = written.lookup) ∧ GoodFile S authorityId key written ∧
      GoodFile S authorityId key view.file := by
  obtain ⟨⟨a, process, file, returned⟩, old⟩ := x
  obtain ⟨rfl, rfl, hpath, hprocess, hold, hfile⟩ := h
  dsimp only at *
  subst hvotes
  obtain ⟨hkeyed, hlookup⟩ := hprocess votes rfl
  obtain ⟨hnone, hvotes, hkept, -⟩ | ⟨doc, next, hprepare, ⟨-, hvotes, hkept, -⟩ | ⟨hno, -⟩⟩ :=
    DirectoryAuthority.frozenView_cases hview
  · have hsame : written = old := by
      rw [← hwritten]
      cases write with
      | failedBefore | failedAfter => rfl
      | done =>
        dsimp only [lastWritten]
        split
        · rename_i hprepared
          exact absurd (Option.some.inj hprepared) (hnone _ _)
        · rfl
    subst hsame
    rw [hvotes, hkept]
    exact ⟨⟨hkeyed, hlookup⟩, hold, hfile⟩
  · obtain ⟨hnextKeyed, hnextLookup, hnext⟩ := DirectoryAuthority.goodFile_nextVotes hkeyed hlookup
      hold htyped.1 htyped.2 hprepare order
    rw [hvotes, hkept]
    cases write with
    | done =>
      have hnew : written = some (order.order (valuesOf next)) := by
        rw [← hwritten]
        simp [lastWritten, hprepare]
      subst hnew
      exact ⟨⟨hnextKeyed, hnextLookup⟩, hnext, hnext⟩
    | failedBefore =>
      subst hwritten
      exact ⟨⟨hkeyed, hlookup⟩, hold, hfile⟩
    | failedAfter =>
      subst hwritten
      exact ⟨⟨hkeyed, hlookup⟩, hold, hnext⟩
  · rw [hpath] at hno
    cases hno

lemma Reloads.step {i : VoteInput} (h : Reloads authorityId key x) (htyped : i.Typed)
    (hs : stepWritten x i = some x') : Reloads authorityId key x' := by
  obtain ⟨s', hstep, rfl⟩ := Option.map_eq_some_iff.mp hs
  cases i with
  | crash =>
    cases hstep
    exact ⟨h.sameId, h.sameKey, h.votePath, by rintro _ ⟨⟩, h.written, h.file⟩
  | start =>
    obtain ⟨process, hloaded, -, rfl⟩ := of_step_start hstep
    exact ⟨h.sameId, h.sameKey, h.votePath, fun votes hvotes => lookup_loadVotes (hloaded votes hvotes),
      h.file, h.file⟩
  | frozenView =>
    obtain ⟨votes, hvotes, rfl⟩ := Option.map_eq_some_iff.mp hstep
    obtain ⟨hmemory, hwritten, hfile⟩ := h.frozenView hvotes htyped rfl rfl
    refine ⟨h.sameId, h.sameKey, h.votePath, fun votes' hvotes' => ?_, hwritten, hfile⟩
    exact Option.some.inj hvotes' ▸ hmemory

/-- At every point of every history of calls, failed writes, crashes and restarts, the file that
was last written without an error is accepted for the same id and key and gives back the votes
in memory, and the file that is there is accepted too. If the id is short, the size of the
file does not keep it from being read. -/
theorem written_votes_reload (hS : ∀ b, (S.sha256 b).length = 32)
    (h : GuardedRun stepWritten (fun _ i => i.Typed) (stopped authorityId key none, none) x)
    (a : DirectoryAuthority S) (hid : a.authorityId = authorityId) (hkey : a.signingKey = key) :
    (∀ votes ∈ x.1.process, ∃ loaded, a.loadVotes x.2 = some loaded ∧
      ∀ epoch : UInt64, loaded[epoch]? = votes[epoch]?) ∧
    (∃ loaded, a.loadVotes x.1.file = some loaded) ∧
    (ShortId authorityId → ∀ docs ∈ x.2,
      readBoundedFile MAX_VOTE_FILE (votesJson docs) = .ok (votesJson docs)) := by
  have hstart : Reloads authorityId key (stopped authorityId key none, none) :=
    ⟨rfl, rfl, rfl, by rintro _ ⟨⟩, ⟨.nil, by simp, by simp⟩,
      ⟨.nil, by simp [stopped], by simp [stopped]⟩⟩
  have hreloads := h.invariant hstart fun _ _ _ hx htyped hs => hx.step htyped hs
  subst hid hkey
  obtain ⟨loaded, hloaded, -, hlookup⟩ := hreloads.written.loadVotes hS
  obtain ⟨current, hcurrent, -⟩ := hreloads.file.loadVotes hS
  refine ⟨fun votes hvotes => ⟨loaded, hloaded, fun epoch => ?_⟩, ⟨current, hcurrent⟩,
    fun hid docs hdocs => ?_⟩
  · exact congrFun (hlookup.trans (hreloads.process votes hvotes).2.symm) epoch
  · have hgood := hreloads.written
    rw [Option.mem_def.mp hdocs] at hgood
    exact readBoundedFile_of_length (length_votesJson_le hgood.length_le fun doc hdoc =>
      (hgood.stored doc hdoc).signedDocument hS hid)

/-- The sample key, with a hash of the right length. -/
def truncatingKey : SigningKey SignedMessage.truncatingEnv.toIdentityScheme where
  publicKey := samplePublicKey 1
  edSign := (sampleKey 1).edSign
  mlDsaSign := (sampleKey 1).mlDsaSign
  decodes := (sampleKey 1).decodes
  length_edSign := (sampleKey 1).length_edSign
  length_mlDsaSign := (sampleKey 1).length_mlDsaSign
  ed_verifies := (sampleKey 1).ed_verifies
  mlDsa_verifies := (sampleKey 1).mlDsa_verifies

/-- An authority that votes in two epochs. The third write reports an error after the file has been
replaced. -/
def votedTwice : List VoteInput :=
  [.start [] false true, .frozenView 1000 [] .done (.listed _),
    .frozenView 1300 [] .done (.listed _), .frozenView 1600 [] (.failedAfter "sync") (.listed _)]

theorem votedTwice_reload :
    ∃ x, runInputs stepWritten (stopped "a" truncatingKey none, none) votedTwice = some x ∧
      x.1.process.map (·.keys) = some [900, 1200] ∧ x.1.file.map List.length = some 3 ∧
      ∀ votes ∈ x.1.process, ∃ loaded,
        DirectoryAuthority.loadVotes ⟨"a", truncatingKey, [], true, true⟩ x.2 = some loaded ∧
        ∀ epoch : UInt64, loaded[epoch]? = votes[epoch]? := by
  have hhash (b : Bytes) : (SignedMessage.truncatingEnv.sha256 b).length = 32 := by
    simp [SignedMessage.truncatingEnv, -List.reduceReplicate]
  have hruns : (runInputs stepWritten (stopped "a" truncatingKey none, none) votedTwice).isSome := by
    decide +kernel
  obtain ⟨x, hx⟩ := Option.isSome_iff_exists.mp hruns
  have hkeys : (runInputs stepWritten (stopped "a" truncatingKey none, none) votedTwice).map
      (fun x => (x.1.process.map (·.keys), x.1.file.map List.length)) =
        some (some [900, 1200], some 3) := by
    decide +kernel
  rw [hx, Option.map_some, Option.some.injEq, Prod.mk.injEq] at hkeys
  have htyped : ∀ i ∈ votedTwice, i.Typed := by
    simp only [votedTwice, VoteInput.Typed, List.forall_mem_cons, List.not_mem_nil, false_imp_iff,
      implies_true, and_true, true_and]
    decide
  have hrun : GuardedRun stepWritten (fun _ i => i.Typed) (stopped "a" truncatingKey none, none)
      ((runInputs stepWritten (stopped "a" truncatingKey none, none) votedTwice).getD
        (stopped "a" truncatingKey none, none)) :=
    .getD_inputs_of_forall votedTwice fun _ => htyped
  rw [hx, Option.getD_some] at hrun
  exact ⟨x, hx, hkeys.1, hkeys.2, (written_votes_reload hhash hrun _ rfl rfl).1⟩

end AuthorityState

end AnonGuard
