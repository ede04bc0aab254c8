import AnonGuard.AuthorityVotes
import AnonGuard.Quorum

/-!
# Quorums of authorities

An honest authority signs only the votes that its `frozen_view` returns, one for
each epoch, so two quorums for one epoch sign the same digest. The authority that
assembles a quorum checks each answer against the key it dialled; clients look
the key up by the id written in the answer.
-/
namespace AnonGuard

variable {d d' : ConsensusDocument}

/-- Documents with the same contents are of the same epoch. -/
lemma ConsensusDocument.validAfter_eq
    (h : d.contentBytes = d'.contentBytes) : d.validAfter = d'.validAfter := by
  simp only [contentBytes, List.append_assoc] at h
  exact be64_inj (List.append_inj (List.append_cancel_left h) (by simp [be64])).1

section Uniqueness
variable {S : DirectoryEnv}

/-- An authority that signs what its `frozen_view` returns and nothing else, so
that a valid signature of it in one of the documents is over one of its votes.
Its votes do not collide with the documents under the hash. -/
def SignsOwnVotes (S : DirectoryEnv) (trusted : Authorities) (docs : List ConsensusDocument)
    (id : String) : Prop :=
  ∃ (key : SigningKey S.toIdentityScheme) (file : VoteFile) (s : AuthorityState S),
    Run AuthorityState.step (.stopped id key file) s ∧ trusted[id]? = some key.verifyingKey ∧
    ∀ d ∈ docs,
      (∀ sig ∈ d.signatures, sig.authorityId = id →
        S.verifyStrict key.verifyingKey (d.computeDigest S) sig.signatureBytes = true →
        ∃ vote ∈ s.returned, vote.computeDigest S = d.computeDigest S) ∧
      ∀ vote ∈ s.returned, vote.computeDigest S = d.computeDigest S →
        vote.contentBytes = d.contentBytes

/-- An honest authority that has signed two documents of one epoch has signed one
digest. -/
lemma SignsOwnVotes.digest_eq {trusted : Authorities} {id : String}
    (h : SignsOwnVotes S trusted [d, d'] id) (hepoch : d.validAfter = d'.validAfter)
    (hd : d.signedBy S trusted id = true) (hd' : d'.signedBy S trusted id = true) :
    d.computeDigest S = d'.computeDigest S := by
  obtain ⟨key, file, s, hrun, htrusted, hsigned⟩ := h
  have hvote : ∀ x ∈ [d, d'], x.signedBy S trusted id = true → ∃ vote ∈ s.returned,
      vote.computeDigest S = x.computeDigest S ∧ vote.validAfter = x.validAfter := by
    intro x hx hsign
    obtain ⟨sig, hsig, hid, key', hkey', hverify⟩ := ConsensusDocument.signedBy_eq_true.mp hsign
    rw [hid, htrusted] at hkey'
    cases hkey'
    obtain ⟨hown, hcollision⟩ := hsigned x hx
    obtain ⟨vote, hmem, hdigest⟩ := hown sig hsig hid hverify
    exact ⟨vote, hmem, hdigest, ConsensusDocument.validAfter_eq (hcollision vote hmem hdigest)⟩
  obtain ⟨v, hv, hvd, hva⟩ := hvote d (by simp) hd
  obtain ⟨v', hv', hvd', hva'⟩ := hvote d' (by simp) hd'
  have hsame : v = v' := by
    have hafter : v.validAfter = v'.validAfter := by rw [hva, hva', hepoch]
    exact (AuthorityState.consistent_of_run hrun).eq_of_validAfter hv hv' hafter
  rw [← hvd, ← hvd', hsame]

lemma card_authorities (trusted : Authorities) : trusted.keys.toFinset.card = trusted.size := by
  rw [List.toFinset_card_of_nodup, Std.TreeMap.length_keys]
  rw [List.nodup_iff_pairwise_ne]
  refine Std.TreeMap.distinct_keys.imp fun hne => ?_
  simpa using hne

/-- With fewer than a third of the authorities Byzantine, two documents of one
epoch that pass a quorum of more than two thirds, at any times, have one digest. -/
theorem one_digest_per_epoch (trusted : Authorities) (byzantine : Finset String) (t : ℕ)
    {d d' : ConsensusDocument} {now now' : UInt64} (hbyzantine : 3 * byzantine.card < trusted.size)
    (hhonest : ∀ id ∈ trusted, id ∉ byzantine → SignsOwnVotes S trusted [d, d'] id)
    (ht : quorum trusted.size ≤ t) (hepoch : d.validAfter = d'.validAfter)
    (hd : d.verifyQuorum S trusted t now = true) (hd' : d'.verifyQuorum S trusted t now' = true) :
    d.computeDigest S = d'.computeDigest S := by
  have hsigners : ∀ x : ConsensusDocument, (x.signers S trusted).toFinset ⊆ trusted.keys.toFinset :=
    fun x id hid => by
      rw [List.mem_toFinset] at hid ⊢
      exact (List.mem_filter.mp hid).1
  have hcard : ∀ {x : ConsensusDocument} {time : UInt64}, x.verifyQuorum S trusted t time = true →
      t ≤ (x.signers S trusted).toFinset.card := fun hx => by
    rw [List.toFinset_card_of_nodup ConsensusDocument.nodup_signers]
    exact (ConsensusDocument.signers_of_verifyQuorum hx).2.2
  rw [← card_authorities] at hbyzantine ht
  obtain ⟨id, hboth, hnot⟩ := exists_common_honest (hsigners d) (hsigners d') hbyzantine ht
    (hcard hd) (hcard hd')
  obtain ⟨hid, hid'⟩ := Finset.mem_inter.mp hboth
  rw [List.mem_toFinset] at hid hid'
  have hmem : id ∈ trusted := Std.TreeMap.mem_keys.mp (List.mem_filter.mp hid).1
  exact (hhonest id hmem hnot).digest_eq hepoch (ConsensusDocument.mem_signers.mp hid)
    (ConsensusDocument.mem_signers.mp hid')

/-- Four authorities. -/
def fourAuthorities : Authorities :=
  ((((∅ : Authorities).insert "a" (sampleKey 1).verifyingKey).insert "b"
    (sampleKey 2).verifyingKey).insert "c" (sampleKey 3).verifyingKey).insert "d"
    (sampleKey 4).verifyingKey

/-- An authority that has voted once. -/
def votedOnce (id : String) (n : UInt8) : AuthorityState sampleEnv :=
  (runInputs AuthorityState.step (.stopped id (sampleKey n) none) [
    .start [] false true, .frozenView 1000 [] .done (.listed _)]).getD (.stopped id (sampleKey n) none)

/-- The vote of all of them, with three signatures. -/
def sharedVote (signers : List (String × UInt8)) : ConsensusDocument :=
  signers.foldl (fun d p => d.signWithAuthority p.1 (sampleKey p.2)) ⟨900, 1500, [], []⟩

lemma signsOwnVotes_votedOnce {id : String} {n : UInt8} {docs : List ConsensusDocument}
    (htrusted : fourAuthorities[id]? = some (sampleKey n).verifyingKey)
    (hvoted : (votedOnce id n).returned.map (·.contentBytes) = [(sharedVote []).contentBytes])
    (hdocs : ∀ d ∈ docs, d.contentBytes = (sharedVote []).contentBytes) :
    SignsOwnVotes sampleEnv fourAuthorities docs id := by
  have hall : ∀ vote ∈ (votedOnce id n).returned, ∀ d ∈ docs,
      vote.contentBytes = d.contentBytes := by
    intro vote hvote d hd
    have hmem : vote.contentBytes ∈ (votedOnce id n).returned.map (·.contentBytes) :=
      List.mem_map_of_mem hvote
    rw [hvoted, List.mem_singleton] at hmem
    rw [hmem, hdocs d hd]
  obtain ⟨vote, hvote⟩ : ∃ vote, vote ∈ (votedOnce id n).returned := by
    refine List.exists_mem_of_length_pos ?_
    rw [← List.length_map fun d => d.contentBytes, hvoted]
    exact Nat.one_pos
  exact ⟨sampleKey n, none, votedOnce id n, Run.getD_inputs _, htrusted, fun d hd =>
    ⟨fun _ _ _ _ => ⟨vote, hvote, congrArg sampleEnv.sha256 (hall vote hvote d hd)⟩,
      fun vote hvote _ => hall vote hvote d hd⟩⟩

theorem one_digest_per_epoch_four :
    (sharedVote [("a", 1), ("b", 2), ("c", 3)]).computeDigest sampleEnv =
      (sharedVote [("d", 4), ("b", 2), ("a", 1)]).computeDigest sampleEnv := by
  have hdocs : ∀ d ∈ [sharedVote [("a", 1), ("b", 2), ("c", 3)],
      sharedVote [("d", 4), ("b", 2), ("a", 1)]],
      d.contentBytes = (sharedVote []).contentBytes := by decide +kernel
  have hids : ∀ id ∈ fourAuthorities, id = "a" ∨ id = "b" ∨ id = "c" ∨ id = "d" := by
    intro id hid
    simp only [fourAuthorities, Std.TreeMap.mem_insert, Std.compare_eq_iff_eq] at hid
    simp only [Std.TreeMap.not_mem_emptyc, or_false] at hid
    tauto
  have hfirst : (sharedVote [("a", 1), ("b", 2), ("c", 3)]).verifyQuorum sampleEnv
      fourAuthorities 3 1000 = true := by decide +kernel
  have hsecond : (sharedVote [("d", 4), ("b", 2), ("a", 1)]).verifyQuorum sampleEnv
      fourAuthorities 3 1400 = true := by decide +kernel
  refine one_digest_per_epoch fourAuthorities {"d"} 3 (by decide +kernel) (fun id hid hnot => ?_)
    (by decide +kernel) rfl hfirst hsecond
  rcases hids id hid with rfl | rfl | rfl | rfl
  · exact signsOwnVotes_votedOnce (n := 1) (by decide +kernel) (by decide +kernel) hdocs
  · exact signsOwnVotes_votedOnce (n := 2) (by decide +kernel) (by decide +kernel) hdocs
  · exact signsOwnVotes_votedOnce (n := 3) (by decide +kernel) (by decide +kernel) hdocs
  · exact absurd (Finset.mem_singleton_self _) hnot

end Uniqueness

end AnonGuard
