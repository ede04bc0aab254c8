import AnonGuard.AuthorityRelays
import AnonGuard.LatestMap

/-!
# Convergence of two authorities

Two authorities take in each other's relays. Where no two of these conflict, each map keeps the
latest descriptor under every id, so both end with the same map and freeze the same digest. Two
descriptors of one identity with the same time are the exception: each authority keeps its own.
-/
namespace AnonGuard

namespace AdmissionPolicy

/-- `reconcile_relays` with the list of one peer, when nothing else changes the relays. -/
def reconcileRelays (S : DirectoryEnv) (p : AdmissionPolicy) (now : UInt64) (active : RelayMap)
    (peerRelays : List RelayDescriptor) (order : HashOrder (String × RelayDescriptor)) : RelayMap :=
  p.writeBack active (peerRelays.foldl (p.mergeGossip S now) (p.retain active)) order

/-- These are the three parts of a reconciliation in a row. -/
lemma reconcileRelays_of_steps (S : DirectoryEnv) (p : AdmissionPolicy) (s : RelayState)
    (now : UInt64) (peerRelays : List RelayDescriptor) (order : HashOrder (String × RelayDescriptor)) :
    runInputs (RelayState.step S p) s [.snapshot, .gossip s.reconciling.length now peerRelays,
      .writeBack s.reconciling.length order] =
      some { s with active := p.reconcileRelays S now s.active peerRelays order } := by
  simp [runInputs, RelayState.step, reconcileRelays, List.eraseIdx_append_of_length_le]

end AdmissionPolicy

/-- The relays that two authorities list. -/
def listedRelays (a b : RelayMap) : List RelayDescriptor := valuesOf a ++ valuesOf b

/-- Two maps of relays that could be merged into one directory: valid, fresh and not too many, and
different identities have nothing in common. -/
structure JointlyValid (S : DirectoryEnv) (p : AdmissionPolicy) (now : UInt64) (a b : RelayMap) :
    Prop where
  first : a.Admitted S []
  second : b.Admitted S []
  fresh : ∀ r ∈ listedRelays a b, p.validPow S now r = true
  size : ((listedRelays a b).map (·.nodeId)).toFinset.card ≤ MAX_DIRECTORY_RELAYS
  separate : ∀ r ∈ listedRelays a b, ∀ r' ∈ listedRelays a b, r.identityPin ≠ r'.identityPin →
    r.nodeId ≠ r'.nodeId ∧ r.Distinct r'

/-- An identity has one id, and one descriptor for each time. -/
def OneDescriptor (relays : List RelayDescriptor) : Prop :=
  ∀ r ∈ relays, ∀ r' ∈ relays, r.identityPin = r'.identityPin →
    r.nodeId = r'.nodeId ∧ (r.registeredAt = r'.registeredAt → r = r')

/-- The map holds the latest descriptors of a set of relays. -/
abbrev HoldsLatest (m : RelayMap) (s : Set RelayDescriptor) : Prop :=
  LatestMap.Holds RelayDescriptor.nodeId (fun r => r.registeredAt.toNat) m s

abbrev upsertRelay (m : RelayMap) (r : RelayDescriptor) : RelayMap :=
  LatestMap.upsert RelayDescriptor.nodeId (fun r => r.registeredAt.toNat) m r

section Merge
variable {S : DirectoryEnv} {p : AdmissionPolicy} {now : UInt64} {a b m : RelayMap}
  {s : Set RelayDescriptor} {r : RelayDescriptor}

lemma mem_listedRelays : r ∈ listedRelays a b ↔ r ∈ valuesOf a ∨ r ∈ valuesOf b := List.mem_append

lemma JointlyValid.symm (h : JointlyValid S p now a b) : JointlyValid S p now b a := by
  have hmem : ∀ {r}, r ∈ listedRelays b a → r ∈ listedRelays a b := by
    intro r hr
    exact mem_listedRelays.mpr (mem_listedRelays.mp hr).symm
  have hids : ((listedRelays b a).map (·.nodeId)).toFinset =
      ((listedRelays a b).map (·.nodeId)).toFinset := by
    rw [listedRelays, listedRelays, List.map_append, List.map_append, List.toFinset_append,
      List.toFinset_append, Finset.union_comm]
  exact ⟨h.second, h.first, fun r hr => h.fresh r (hmem hr), hids ▸ h.size,
    fun r hr r' hr' => h.separate r (hmem hr) r' (hmem hr')⟩

lemma OneDescriptor.symm (h : OneDescriptor (listedRelays a b)) :
    OneDescriptor (listedRelays b a) := by
  intro r hr r' hr'
  exact h r (mem_listedRelays.mpr (mem_listedRelays.mp hr).symm) r'
    (mem_listedRelays.mpr (mem_listedRelays.mp hr').symm)

lemma JointlyValid.verified (h : JointlyValid S p now a b) (hr : r ∈ listedRelays a b) :
    r.verifyIdentity S = true := by
  rcases mem_listedRelays.mp hr with hr | hr
  · obtain ⟨id, hid⟩ := mem_valuesOf.mp hr
    exact h.first.verified id r hid
  · obtain ⟨id, hid⟩ := mem_valuesOf.mp hr
    exact h.second.verified id r hid

/-- No listed relay conflicts with a map of listed relays. -/
lemma JointlyValid.not_conflicts (h : JointlyValid S p now a b)
    (hone : OneDescriptor (listedRelays a b)) (hm : HoldsLatest m s)
    (hs : s ⊆ {r | r ∈ listedRelays a b}) (hr : r ∈ listedRelays a b) :
    relayConflicts m r = false := by
  refine List.any_eq_false.mpr fun x hx => ?_
  obtain ⟨id, hid⟩ := mem_valuesOf.mp hx
  have hlisted : x ∈ listedRelays a b := hs (hm.mem id x hid).1
  by_cases hnode : x.nodeId = r.nodeId
  · simp [hnode]
  · have hpin : x.identityPin ≠ r.identityPin := fun heq => hnode (hone x hlisted r hr heq).1
    obtain ⟨-, hclassical, hpq, hendpoint⟩ := (h.separate x hlisted r hr hpin).2
    have hhost : x.host = r.host → x.port ≠ r.port := by
      intro hhost hport
      exact hendpoint (by rw [hhost, hport])
    simp only [Bool.and_eq_true, Bool.or_eq_true, beq_iff_eq, not_and, not_or]
    intro _
    exact ⟨⟨hpin, fun _ => ⟨hclassical, hpq⟩⟩, hhost⟩

/-- A map of listed relays has room for a listed id that it does not have. -/
lemma JointlyValid.size_lt (h : JointlyValid S p now a b) (hm : HoldsLatest m s)
    (hs : s ⊆ {r | r ∈ listedRelays a b}) (hr : r ∈ listedRelays a b)
    (hnew : m[r.nodeId]? = none) : m.size < MAX_DIRECTORY_RELAYS := by
  have hids : ∀ {id}, id ∈ m.keys → ∃ x, m[id]? = some x := by
    intro id hid
    rw [Std.TreeMap.mem_keys, Std.TreeMap.mem_iff_isSome_getElem?] at hid
    exact Option.isSome_iff_exists.mp hid
  have hnodup : m.keys.Nodup := by
    rw [List.nodup_iff_pairwise_ne]
    exact Std.TreeMap.distinct_keys.imp fun hne => by simpa using hne
  have hnot : r.nodeId ∉ m.keys := by
    intro hmem
    obtain ⟨x, hx⟩ := hids hmem
    rw [hnew] at hx
    cases hx
  have hsub : (r.nodeId :: m.keys).toFinset ⊆ ((listedRelays a b).map (·.nodeId)).toFinset := by
    intro id hid
    rw [List.mem_toFinset, List.mem_map]
    rcases List.mem_cons.mp (List.mem_toFinset.mp hid) with rfl | hid
    · exact ⟨r, hr, rfl⟩
    · obtain ⟨x, hx⟩ := hids hid
      exact ⟨x, hs (hm.mem id x hx).1, (hm.mem id x hx).2⟩
  have hcard := (Finset.card_le_card hsub).trans h.size
  rw [List.toFinset_card_of_nodup (List.nodup_cons.mpr ⟨hnot, hnodup⟩), List.length_cons,
    Std.TreeMap.length_keys] at hcard
  exact hcard

/-- Under one id there is one identity. -/
lemma JointlyValid.pin_eq (h : JointlyValid S p now a b) (hm : HoldsLatest m s)
    (hs : s ⊆ {r | r ∈ listedRelays a b}) (hr : r ∈ listedRelays a b) {x : RelayDescriptor}
    (hx : m[r.nodeId]? = some x) : x.identityPin = r.identityPin := by
  obtain ⟨hmem, hnode⟩ := hm.mem _ x hx
  by_contra hpin
  exact (h.separate x (hs hmem) r hr hpin).1 hnode

/-- A listed relay that is not retired is taken in if it is later. -/
lemma JointlyValid.mergeGossip_eq (h : JointlyValid S p now a b)
    (hone : OneDescriptor (listedRelays a b)) (hm : HoldsLatest m s)
    (hs : s ⊆ {r | r ∈ listedRelays a b}) (hr : r ∈ listedRelays a b)
    (hallowed : r.identityPin ∉ p.revoked) : p.mergeGossip S now m r = upsertRelay m r := by
  have hconflict := h.not_conflicts hone hm hs hr
  have hpow := h.fresh r hr
  unfold AdmissionPolicy.mergeGossip upsertRelay LatestMap.upsert
  cases hx : m[r.nodeId]? with
  | none =>
    have hroom : ¬ MAX_DIRECTORY_RELAYS ≤ m.size := not_le.mpr (h.size_lt hm hs hr hx)
    simp [hconflict, hroom, hallowed, h.verified hr, hpow]
  | some =>
    have hcontains : m.contains r.nodeId = true := by
      rw [Std.TreeMap.contains_eq_isSome_getElem?, hx]
      rfl
    simp [hconflict, hcontains, hallowed, h.verified hr, hpow, h.pin_eq hm hs hr hx,
      UInt64.lt_iff_toNat_lt]

/-- A retired one is passed over. -/
lemma mergeGossip_of_revoked (hrevoked : r.identityPin ∈ p.revoked) :
    p.mergeGossip S now m r = m := by
  unfold AdmissionPolicy.mergeGossip
  simp [hrevoked]

lemma JointlyValid.persist_eq (h : JointlyValid S p now a b)
    (hone : OneDescriptor (listedRelays a b)) (hm : HoldsLatest m s)
    (hs : s ⊆ {r | r ∈ listedRelays a b}) (hr : r ∈ listedRelays a b) :
    AdmissionPolicy.persist m (r.nodeId, r) = upsertRelay m r := by
  have hconflict := h.not_conflicts hone hm hs hr
  unfold AdmissionPolicy.persist upsertRelay LatestMap.upsert
  cases hx : m[r.nodeId]? with
  | none =>
    have hroom : ¬ MAX_DIRECTORY_RELAYS ≤ m.size := not_le.mpr (h.size_lt hm hs hr hx)
    simp [hconflict, hroom]
  | some x =>
    have htime : (x.registeredAt ≥ r.registeredAt) ↔
        ¬ r.registeredAt.toNat > x.registeredAt.toNat := by
      rw [ge_iff_le, UInt64.le_iff_toNat_le, not_lt]
    by_cases hlater : r.registeredAt.toNat > x.registeredAt.toNat
    · simp [hconflict, h.pin_eq hm hs hr hx, htime, hlater]
    · simp [hconflict, h.pin_eq hm hs hr hx, htime, hlater]

/-- The listed relays that are not retired. -/
def allowedRelays (p : AdmissionPolicy) (relays : List RelayDescriptor) : Set RelayDescriptor :=
  {r | r ∈ relays ∧ r.identityPin ∉ p.revoked}

lemma mem_valuesOf_retain : r ∈ valuesOf (p.retain m) ↔ r ∈ allowedRelays p (valuesOf m) := by
  have hfilter : r ∈ valuesOf (p.retain m) ↔ ∃ id : String, m[id]? = some r ∧
      r.identityPin ∉ p.revoked := by
    simp [mem_valuesOf, AdmissionPolicy.retain, Option.filter_eq_some_iff]
  rw [hfilter, allowedRelays, Set.mem_ofPred_eq, mem_valuesOf]
  exact exists_and_right

lemma JointlyValid.holds_retain (h : JointlyValid S p now a b) :
    HoldsLatest (p.retain a) (allowedRelays p (valuesOf a)) := by
  have hset : allowedRelays p (valuesOf a) = {r | r ∈ valuesOf (p.retain a)} := by
    ext r
    exact mem_valuesOf_retain.symm
  rw [hset]
  refine LatestMap.holds_valuesOf fun id r hr => ?_
  rw [AdmissionPolicy.retain, Std.TreeMap.getElem?_filter'] at hr
  exact h.first.keyed id r (Option.filter_eq_some_iff.mp hr).1

/-- What the map holds after a reconciliation with a list of relays. -/
lemma JointlyValid.holds_reconcile (h : JointlyValid S p now a b)
    (hone : OneDescriptor (listedRelays a b)) {peer : List RelayDescriptor}
    (hpeer : ∀ r ∈ peer, r ∈ listedRelays a b) (order : HashOrder (String × RelayDescriptor)) :
    HoldsLatest (p.reconcileRelays S now a peer order)
      (allowedRelays p (valuesOf a) ∪ allowedRelays p peer) := by
  have hown : allowedRelays p (valuesOf a) ⊆ {r | r ∈ listedRelays a b} :=
    fun r hr => mem_listedRelays.mpr (.inl hr.1)
  -- the clone takes in the peer's relays
  have hgossip : HoldsLatest (peer.foldl (p.mergeGossip S now) (p.retain a))
      (allowedRelays p (valuesOf a) ∪ allowedRelays p peer) := by
    have hloop := LatestMap.Holds.foldl (f := p.mergeGossip S now) (l := peer)
      (u := {r | r ∈ listedRelays a b}) (fun r => r.identityPin ∉ p.revoked) id
      (fun m s hm hs r hr => ⟨h.mergeGossip_eq hone hm hs (hpeer r hr), fun hrevoked =>
        mergeGossip_of_revoked (not_not.mp hrevoked)⟩) hpeer h.holds_retain hown
    have hset : {r | ∃ r' ∈ peer, r'.identityPin ∉ p.revoked ∧ id r' = r} = allowedRelays p peer := by
      ext r
      simp [allowedRelays]
    rwa [hset] at hloop
  have hlisted : allowedRelays p (valuesOf a) ∪ allowedRelays p peer ⊆
      {r | r ∈ listedRelays a b} :=
    Set.union_subset hown fun r hr => hpeer r hr.1
  -- the map takes in the clone
  have hentry : ∀ entry ∈ order.order (peer.foldl (p.mergeGossip S now) (p.retain a)).toList,
      entry.2 ∈ listedRelays a b ∧ entry.2.nodeId = entry.1 := by
    intro entry hentry
    have hmem := hgossip.mem entry.1 entry.2
      (Std.TreeMap.mem_toList_iff_getElem?_eq_some.mp (order.mem_order.mp hentry))
    exact ⟨hlisted hmem.1, hmem.2⟩
  have hwrite := LatestMap.Holds.foldl (f := AdmissionPolicy.persist)
    (u := {r | r ∈ listedRelays a b})
    (l := order.order (peer.foldl (p.mergeGossip S now) (p.retain a)).toList)
    (fun _ => True) Prod.snd (fun m s hm hs entry hmem => by
      obtain ⟨hr, hkey⟩ := hentry entry hmem
      have hpair : entry = (entry.2.nodeId, entry.2) := by rw [hkey]
      exact ⟨fun _ => hpair ▸ h.persist_eq hone hm hs hr, fun hnot => absurd trivial hnot⟩)
    (fun entry hmem => (hentry entry hmem).1) h.holds_retain hown
  have hset : {r | ∃ entry ∈ order.order (peer.foldl (p.mergeGossip S now) (p.retain a)).toList,
      True ∧ entry.2 = r} = {r | r ∈ valuesOf (peer.foldl (p.mergeGossip S now) (p.retain a))} := by
    ext r
    simp [valuesOf]
  rw [hset] at hwrite
  have hall := hwrite.absorb hgossip
  rwa [← Set.union_assoc, Set.union_self] at hall

/-- Authorities that hold the same relays freeze the same digest. -/
lemma frozen_digest_eq {m' : RelayMap} (hm : HoldsLatest m s) (hsame : m.toList = m'.toList)
    {x y : DirectoryAuthority S} (hrevoked : x.revoked = y.revoked) {time : UInt64}
    {votes votes' next next' : Votes} {doc doc' : ConsensusDocument}
    {order order' : HashOrder RelayDescriptor}
    (hx : x.prepareVote votes time (order.order (valuesOf m)) = .ok (doc, some next))
    (hy : y.prepareVote votes' time (order'.order (valuesOf m')) = .ok (doc', some next')) :
    doc.computeDigest S = doc'.computeDigest S := by
  have hnew : ∀ {z : DirectoryAuthority S} {votes next : Votes} {doc : ConsensusDocument}
      {relays : List RelayDescriptor}, z.prepareVote votes time relays = .ok (doc, some next) →
      doc = z.newVote time (relays.filter (z.eligible time)) := by
    intro z votes next doc relays h
    obtain ⟨-, ⟨hnone, -⟩ | ⟨-, -, hdoc⟩⟩ := DirectoryAuthority.prepareVote_cases h
    · cases hnone
    · exact hdoc
  have helig : x.eligible time = y.eligible time := by
    funext r
    rw [DirectoryAuthority.eligible, DirectoryAuthority.eligible, hrevoked]
  have hvalues : valuesOf m = valuesOf m' := congrArg (List.map Prod.snd) hsame
  rw [hnew hx, hnew hy]
  -- the digest covers the relays in the order of their ids, however they are listed
  refine congrArg S.sha256 (ConsensusDocument.contentBytes_of_perm rfl rfl ?_ ?_)
  · show ((order.order (valuesOf m)).filter (x.eligible time)).Perm
      ((order'.order (valuesOf m')).filter (y.eligible time))
    rw [helig, ← hvalues]
    exact ((order.perm _).trans (order'.perm _).symm).filter _
  · intro r hr r' hr' hid
    have hlisted : ∀ {r}, r ∈ (order.order (valuesOf m)).filter (x.eligible time) →
        m[r.nodeId]? = some r := by
      intro r hr
      obtain ⟨id, hid⟩ := mem_valuesOf.mp (order.mem_order.mp (List.mem_filter.mp hr).1)
      rw [(hm.mem id r hid).2]
      exact hid
    have hfirst := hlisted hr
    rw [hid, hlisted hr'] at hfirst
    exact (Option.some.inj hfirst).symm

end Merge

section Samples

instance (r r' : RelayDescriptor) : Decidable (r.Distinct r') :=
  inferInstanceAs (Decidable (_ ∧ _ ∧ _ ∧ _))

lemma oneDescriptor_of_nodup {relays : List RelayDescriptor}
    (hids : ∀ r ∈ relays, ∀ r' ∈ relays, r.identityPin = r'.identityPin → r.nodeId = r'.nodeId)
    (hnodup : (relays.map fun r => (r.identityPin, r.registeredAt)).Nodup) :
    OneDescriptor relays := by
  intro r hr r' hr' hpin
  refine ⟨hids r hr r' hr' hpin, fun htime => ?_⟩
  exact List.inj_on_of_nodup_map hnodup hr hr' (Prod.ext hpin htime)

/-- The map of an authority after some relays have registered. -/
def registered (relays : List RelayDescriptor) : RelayMap :=
  ((runInputs (RelayState.step samplePool.toDirectoryEnv ⟨[], 0⟩) .empty
    (relays.map (.register 1100))).getD .empty).active

/-- The conditions on two lists of registrations that can be evaluated. -/
def jointChecks (a b : RelayMap) : Bool :=
  (listedRelays a b).all (AdmissionPolicy.validPow samplePool.toDirectoryEnv ⟨[], 0⟩ 1100) &&
    decide (((listedRelays a b).map (·.nodeId)).toFinset.card ≤ MAX_DIRECTORY_RELAYS) &&
    decide (∀ r ∈ listedRelays a b, ∀ r' ∈ listedRelays a b, r.identityPin ≠ r'.identityPin →
      r.nodeId ≠ r'.nodeId ∧ r.Distinct r')

lemma jointlyValid_of_checks {relays relays' : List RelayDescriptor}
    (h : jointChecks (registered relays) (registered relays') = true) :
    JointlyValid samplePool.toDirectoryEnv ⟨[], 0⟩ 1100 (registered relays) (registered relays') := by
  simp only [jointChecks, Bool.and_eq_true, List.all_eq_true, decide_eq_true_eq] at h
  have hadmitted : ∀ relays, (registered relays).Admitted samplePool.toDirectoryEnv [] :=
    fun relays => (RelayState.admitted_of_run (p := ⟨[], 0⟩) (Run.getD_inputs _)).active
  exact ⟨hadmitted _, hadmitted _, h.1.1, h.1.2, h.2⟩

/-- Another descriptor of relay 1 for the same time, with another nonce. -/
def otherNonce : RelayDescriptor :=
  let r : RelayDescriptor := { poolRelay 1 with powNonce := 7, signature := [] }
  { r with signature := (sampleKey 1).sign r.computeSigningBytes }

/-- Two authorities with which relay 1 and one other relay have registered. -/
def earlierMap : RelayMap := registered [poolRelay 1, poolRelay 2]
def laterMap : RelayMap := registered [poolRelayAt 1 1100, poolRelay 3]

def mergedEarlier : RelayMap :=
  AdmissionPolicy.reconcileRelays samplePool.toDirectoryEnv ⟨[], 0⟩ 1100 earlierMap
    ((HashOrder.listed _).order (valuesOf laterMap)) (.listed _)

def mergedLater : RelayMap :=
  AdmissionPolicy.reconcileRelays samplePool.toDirectoryEnv ⟨[], 0⟩ 1100 laterMap
    ((HashOrder.listed _).order (valuesOf earlierMap)) (.listed _)

end Samples

end AnonGuard
