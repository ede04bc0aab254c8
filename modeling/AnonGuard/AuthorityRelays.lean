import AnonGuard.AuthorityVotes
import AnonGuard.PoolNode

/-!
# The relays of a directory authority

Relays register directly or are learnt from other authorities. A reconciliation
clones the map, merges the lists of its peers into the clone, and writes the
clone back into a map that may have changed meanwhile. However these overlap, a
new entry never conflicts with another one, and an entry only gives way to a
later descriptor of the same identity.
-/
namespace AnonGuard

abbrev RelayMap := Std.TreeMap String RelayDescriptor

def relayConflicts (relays : RelayMap) (candidate : RelayDescriptor) : Bool :=
  (valuesOf relays).any fun existing =>
    existing.nodeId ≠ candidate.nodeId &&
      (existing.identityPin == candidate.identityPin ||
        (existing.signature.length == PROOF_SIZE && candidate.signature.length == PROOF_SIZE &&
          (classicalBytes existing.signature == classicalBytes candidate.signature ||
            postQuantumBytes existing.signature == postQuantumBytes candidate.signature)) ||
        (existing.host == candidate.host && existing.port == candidate.port))

section ProofOfWork

def MAX_TIMESTAMP_DRIFT_SECS : UInt64 := 300

def absDiff (a b : UInt64) : UInt64 := if a ≤ b then b - a else a - b

def saturatingSub (a b : UInt64) : UInt64 := if a ≤ b then 0 else a - b

def countLeadingZeroBits : Bytes → ℕ
  | [] => 0
  | b :: rest => if b = 0 then 8 + countLeadingZeroBits rest else 7 - b.toNat.log2

def verifyPow (S : IdentityScheme) (nodeId : String) (timestamp nonce : UInt64)
    (difficultyBits : ℕ) (currentTime : UInt64) : Bool :=
  if absDiff currentTime timestamp > MAX_TIMESTAMP_DRIFT_SECS then false
  else difficultyBits ≤
    countLeadingZeroBits (S.sha256 (utf8 nodeId ++ be64 timestamp ++ be64 nonce))

/-- The nonces seen, with the time of their first use. -/
structure NonceRegistry where
  seen : List ((String × UInt64) × UInt64)
  lastPurge : UInt64

namespace NonceRegistry

def purge (n : NonceRegistry) (currentTime : UInt64) : NonceRegistry :=
  if saturatingSub currentTime n.lastPurge ≥ 10 then
    ⟨n.seen.filter fun entry => saturatingSub currentTime entry.2 ≤ MAX_TIMESTAMP_DRIFT_SECS * 2,
      currentTime⟩
  else n

/-- Whether admission must be refused. -/
def checkAndRecord (n : NonceRegistry) (nodeId : String) (nonce currentTime : UInt64) :
    Bool × NonceRegistry :=
  if nodeId = "" ∨ (utf8 nodeId).length > 128 then (true, n)
  else if currentTime < n.lastPurge then (true, n)
  else
    let n := n.purge currentTime
    if n.seen.any (·.1 == (nodeId, nonce)) || n.seen.length ≥ 100000 then (true, n)
    else (false, { n with seen := ((nodeId, nonce), currentTime) :: n.seen })

end NonceRegistry

end ProofOfWork

/-- The settings of an authority that admission depends on. -/
structure AdmissionPolicy where
  revoked : List Bytes
  powDifficulty : ℕ

/-- The relays of a running authority. `reconciling` has the clones of the
reconciliations that wait for their peers. -/
structure RelayState where
  active : RelayMap
  nonces : NonceRegistry
  reconciling : List RelayMap

namespace AdmissionPolicy
variable (S : DirectoryEnv) (p : AdmissionPolicy)

def validPow (now : UInt64) (r : RelayDescriptor) : Bool :=
  verifyPow S.toIdentityScheme r.nodeId r.registeredAt r.powNonce p.powDifficulty now

/-- The checks of `register_relay` against the relay of the same id. -/
def replaces (relays : RelayMap) (r : RelayDescriptor) : Except String Unit :=
  match relays[r.nodeId]? with
  | none =>
    if relays.size ≥ MAX_DIRECTORY_RELAYS then .error "Directory capacity exceeded" else .ok ()
  | some existing =>
    if existing.identityPin ≠ r.identityPin then
      .error ("Relay impersonation prevented: node_id '" ++ r.nodeId ++
        "' already claimed by another hybrid key")
    else if r.registeredAt ≤ existing.registeredAt then
      .error "Replay attack prevented: registration timestamp is not newer"
    else .ok ()

def registerRelay (s : RelayState) (now : UInt64) (r : RelayDescriptor) :
    Except String Unit × RelayState :=
  if r.identityPin ∈ p.revoked then (.error "Relay identity is retired", s)
  else if r.verifyIdentity S = false then
    (.error "Invalid or missing hybrid cryptographic identity signature", s)
  else if p.validPow S now r = false then
    (.error "Invalid or insufficient Proof-of-Work challenge solution", s)
  else if relayConflicts s.active r then (.error "Duplicate relay identity or endpoint", s)
  else
    match replaces s.active r with
    | .error e => (.error e, s)
    | .ok () =>
      match s.nonces.checkAndRecord r.nodeId r.powNonce now with
      | (true, nonces) => (.error "PoW replay attack detected", { s with nonces := nonces })
      | (false, nonces) =>
        (.ok (), { s with active := s.active.insert r.nodeId r, nonces := nonces })

/-- The relays that are not retired. -/
def retain (relays : RelayMap) : RelayMap := relays.filter fun _ r => r.identityPin ∉ p.revoked

/-- One descriptor of a peer's list. -/
def mergeGossip (now : UInt64) (localMap : RelayMap) (r : RelayDescriptor) : RelayMap :=
  if relayConflicts localMap r then localMap
  else if !localMap.contains r.nodeId && localMap.size ≥ MAX_DIRECTORY_RELAYS then localMap
  else if r.identityPin ∉ p.revoked && r.verifyIdentity S then
    if p.validPow S now r = false then localMap
    else
      match localMap[r.nodeId]? with
      | some existing =>
        if r.identityPin ≠ existing.identityPin then localMap
        else if r.registeredAt > existing.registeredAt then localMap.insert r.nodeId r
        else localMap
      | none => localMap.insert r.nodeId r
  else localMap

/-- One entry of the clone. -/
def persist (active : RelayMap) (entry : String × RelayDescriptor) : RelayMap :=
  if relayConflicts active entry.2 then active
  else
    match active[entry.1]? with
    | some existing =>
      if existing.identityPin ≠ entry.2.identityPin then active
      else if existing.registeredAt ≥ entry.2.registeredAt then active
      else active.insert entry.1 entry.2
    | none =>
      if active.size ≥ MAX_DIRECTORY_RELAYS then active else active.insert entry.1 entry.2

def writeBack (active localMap : RelayMap) (order : HashOrder (String × RelayDescriptor)) :
    RelayMap :=
  (order.order localMap.toList).foldl persist (p.retain active)

end AdmissionPolicy

/-- A registration, the three parts of a reconciliation, and the evictions of
`generate_consensus` and of the periodic task. -/
inductive RelayInput
  | register (now : UInt64) (r : RelayDescriptor)
  | snapshot
  | gossip (task : ℕ) (now : UInt64) (peerRelays : List RelayDescriptor)
  | writeBack (task : ℕ) (order : HashOrder (String × RelayDescriptor))
  | evictStale (now : UInt64)
  | evictExpired (now : UInt64)

namespace RelayState

def empty : RelayState := ⟨∅, ⟨[], 0⟩, []⟩

def step (S : DirectoryEnv) (p : AdmissionPolicy) (s : RelayState) : RelayInput → Option RelayState
  | .register now r => some (p.registerRelay S s now r).2
  | .snapshot => some { s with reconciling := s.reconciling ++ [p.retain s.active] }
  | .gossip task now peerRelays =>
    s.reconciling[task]?.map fun localMap =>
      { s with reconciling := s.reconciling.set task (peerRelays.foldl (p.mergeGossip S now) localMap) }
  | .writeBack task order =>
    s.reconciling[task]?.map fun localMap =>
      { s with
        active := p.writeBack s.active localMap order
        reconciling := s.reconciling.eraseIdx task }
  | .evictStale now => some { s with
      active := s.active.filter fun _ r => saturatingSub now r.registeredAt ≤ RELAY_TTL_SECS }
  | .evictExpired now => some { s with
      active := s.active.filter fun _ r => saturatingSub now r.registeredAt < RELAY_TTL_SECS }

end RelayState

namespace RelayMap
variable {S : DirectoryEnv} {revoked : List Bytes} {m m' : RelayMap} {r : RelayDescriptor}

/-- What every map of relays satisfies. -/
structure Admitted (S : DirectoryEnv) (revoked : List Bytes) (m : RelayMap) : Prop where
  keyed (id : String) (r : RelayDescriptor) : m[id]? = some r → r.nodeId = id
  size : m.size ≤ MAX_DIRECTORY_RELAYS
  verified (id : String) (r : RelayDescriptor) : m[id]? = some r → r.verifyIdentity S = true
  allowed (id : String) (r : RelayDescriptor) : m[id]? = some r → r.identityPin ∉ revoked
  distinct (id id' : String) (r r' : RelayDescriptor) :
    m[id]? = some r → m[id']? = some r' → id ≠ id' → r.Distinct r'

/-- One change to a map of relays: none, or a relay that conflicts with no other
one, new or later than the entry of its id. -/
def Admits (S : DirectoryEnv) (revoked : List Bytes) (m m' : RelayMap) : Prop :=
  m' = m ∨ ∃ r, relayConflicts m r = false ∧ r.verifyIdentity S = true ∧ r.identityPin ∉ revoked ∧
    (m[r.nodeId]? = none → m.size < MAX_DIRECTORY_RELAYS) ∧
    (∀ existing, m[r.nodeId]? = some existing →
      existing.identityPin = r.identityPin ∧ existing.registeredAt ≤ r.registeredAt) ∧
    m' = m.insert r.nodeId r

lemma admitted_empty : Admitted S revoked ∅ :=
  ⟨by simp, by simp, by simp, by simp, by simp⟩

lemma Admitted.filter (h : m.Admitted S revoked) (p : String → RelayDescriptor → Bool) :
    Admitted S revoked (m.filter p) := by
  have hsub : ∀ {id : String} {r : RelayDescriptor}, (m.filter p)[id]? = some r → m[id]? = some r :=
    fun {id r} hr => by
      rw [Std.TreeMap.getElem?_filter'] at hr
      exact (Option.filter_eq_some_iff.mp hr).1
  exact ⟨fun id r hr => h.keyed id r (hsub hr), Std.TreeMap.size_filter_le_size.trans h.size,
    fun id r hr => h.verified id r (hsub hr), fun id r hr => h.allowed id r (hsub hr),
    fun id id' r r' hr hr' => h.distinct id id' r r' (hsub hr) (hsub hr')⟩

/-- Without a conflict, a verified relay is distinct from the others. -/
lemma Admitted.distinct_of_not_conflicts (h : m.Admitted S revoked) (hr : r.verifyIdentity S = true)
    (hconflict : relayConflicts m r = false) {id : String} {x : RelayDescriptor}
    (hx : m[id]? = some x) (hid : id ≠ r.nodeId) : x.Distinct r := by
  have hlength : ∀ {y : RelayDescriptor}, y.verifyIdentity S = true → y.signature.length = PROOF_SIZE :=
    fun hy => IdentityScheme.length_of_verifyStrict (RelayDescriptor.of_verifyIdentity hy).2
  have hnone := List.any_eq_false.mp hconflict x (mem_valuesOf.mpr ⟨id, hx⟩)
  rw [h.keyed id x hx, hlength (h.verified id x hx), hlength hr] at hnone
  simp only [ne_eq, hid, not_false_iff, decide_true, beq_self_eq_true, Bool.true_and, Bool.or_eq_true,
    Bool.and_eq_true, beq_iff_eq, not_or, not_and] at hnone
  obtain ⟨⟨hpin, hclassical, hpq⟩, hendpoint⟩ := hnone
  exact ⟨hpin, hclassical, hpq, fun heq => hendpoint (congrArg Prod.fst heq) (congrArg Prod.snd heq)⟩

lemma Admitted.admits (h : m.Admitted S revoked) (hadmits : Admits S revoked m m') :
    m'.Admitted S revoked := by
  obtain rfl | ⟨r, hconflict, hverified, hallowed, hcapacity, -, rfl⟩ := hadmits
  · exact h
  refine ⟨fun id x hx => ?_, ?_, fun id x hx => ?_, fun id x hx => ?_, fun id id' x x' hx hx' hne => ?_⟩
  · obtain ⟨rfl, rfl⟩ | ⟨-, hx⟩ := getElem?_insert_cases hx
    · rfl
    · exact h.keyed id x hx
  · rw [Std.TreeMap.size_insert]
    split_ifs with hmem
    · exact h.size
    · exact hcapacity (Std.TreeMap.getElem?_eq_none hmem)
  · obtain ⟨rfl, rfl⟩ | ⟨-, hx⟩ := getElem?_insert_cases hx
    · exact hverified
    · exact h.verified id x hx
  · obtain ⟨rfl, rfl⟩ | ⟨-, hx⟩ := getElem?_insert_cases hx
    · exact hallowed
    · exact h.allowed id x hx
  · obtain ⟨rfl, rfl⟩ | ⟨hid, hold⟩ := getElem?_insert_cases hx
    · obtain ⟨rfl, rfl⟩ | ⟨hid', hold'⟩ := getElem?_insert_cases hx'
      · exact absurd rfl hne
      · exact (h.distinct_of_not_conflicts hverified hconflict hold' hid'.symm).symm
    · obtain ⟨rfl, rfl⟩ | ⟨hid', hold'⟩ := getElem?_insert_cases hx'
      · exact h.distinct_of_not_conflicts hverified hconflict hold hid.symm
      · exact h.distinct id id' x x' hold hold' hne

/-- The identity listed under an id stays, and does not get older. -/
def Advances (id : String) (m m' : RelayMap) : Prop :=
  ∀ r, m[id]? = some r → ∃ r', m'[id]? = some r' ∧ r'.identityPin = r.identityPin ∧
    r.registeredAt ≤ r'.registeredAt

lemma Advances.refl (id : String) (m : RelayMap) : Advances id m m :=
  fun r hr => ⟨r, hr, rfl, UInt64.le_refl _⟩

lemma Advances.trans {id : String} {m'' : RelayMap} (h : Advances id m m') (h' : Advances id m' m'') :
    Advances id m m'' := by
  intro r hr
  obtain ⟨r', hr', hpin, hle⟩ := h r hr
  obtain ⟨r'', hr'', hpin', hle'⟩ := h' r' hr'
  exact ⟨r'', hr'', hpin'.trans hpin, UInt64.le_trans hle hle'⟩

lemma Admits.advances (h : Admits S revoked m m') (id : String) : Advances id m m' := by
  obtain rfl | ⟨r, -, -, -, -, hlater, rfl⟩ := h
  · exact .refl id _
  intro x hx
  by_cases hid : id = r.nodeId
  · subst hid
    obtain ⟨hpin, hle⟩ := hlater x hx
    exact ⟨r, by simp, hpin.symm, hle⟩
  · refine ⟨x, ?_, rfl, UInt64.le_refl _⟩
    rw [Std.TreeMap.getElem?_insert, if_neg fun heq => hid (Std.compare_eq_iff_eq.mp heq).symm, hx]

/-- What a loop of changes keeps. -/
lemma admitted_foldl {α : Type*} {f : RelayMap → α → RelayMap} {l : List α}
    (hf : ∀ m, ∀ a ∈ l, m.Admitted S revoked → Admits S revoked m (f m a))
    (h : m.Admitted S revoked) : (l.foldl f m).Admitted S revoked ∧ ∀ id, Advances id m (l.foldl f m) := by
  induction l generalizing m with
  | nil => exact ⟨h, fun id => .refl id m⟩
  | cons a l ih =>
    have hstep := hf m a (by simp) h
    obtain ⟨hadmitted, hadvances⟩ := ih (fun m a ha => hf m a (by simp [ha])) (h.admits hstep)
    exact ⟨hadmitted, fun id => (hstep.advances id).trans (hadvances id)⟩

end RelayMap

namespace AdmissionPolicy
variable {S : DirectoryEnv} {p : AdmissionPolicy} {m : RelayMap} {r : RelayDescriptor} {now : UInt64}

lemma replaces_eq_ok (h : replaces m r = .ok ()) :
    (m[r.nodeId]? = none → m.size < MAX_DIRECTORY_RELAYS) ∧
      ∀ existing, m[r.nodeId]? = some existing →
        existing.identityPin = r.identityPin ∧ existing.registeredAt ≤ r.registeredAt := by
  unfold replaces at h
  cases hm : m[r.nodeId]? with
  | none =>
    simp only [hm] at h
    split_ifs at h with hsize
    exact ⟨fun _ => not_le.mp hsize, by simp⟩
  | some =>
    simp only [hm] at h
    split_ifs at h with hpin htime
    refine ⟨by simp, ?_⟩
    rintro _ ⟨⟩
    exact ⟨not_not.mp hpin, by grind⟩

lemma registerRelay_spec (s : RelayState) (now : UInt64) (r : RelayDescriptor) :
    RelayMap.Admits S p.revoked s.active (p.registerRelay S s now r).2.active ∧
      (p.registerRelay S s now r).2.reconciling = s.reconciling := by
  unfold registerRelay
  split_ifs with hrevoked hverified hpow hconflict
  · exact ⟨.inl rfl, rfl⟩
  · exact ⟨.inl rfl, rfl⟩
  · exact ⟨.inl rfl, rfl⟩
  · exact ⟨.inl rfl, rfl⟩
  split
  · exact ⟨.inl rfl, rfl⟩
  rename_i hreplaces
  split
  · exact ⟨.inl rfl, rfl⟩
  · obtain ⟨hcapacity, hlater⟩ := replaces_eq_ok hreplaces
    exact ⟨.inr ⟨r, by simpa using hconflict, by simpa using hverified, hrevoked, hcapacity, hlater, rfl⟩,
      rfl⟩

lemma mergeGossip_admits : RelayMap.Admits S p.revoked m (p.mergeGossip S now m r) := by
  unfold mergeGossip
  split_ifs with hconflict hcapacity hallowed hpow
  · exact .inl rfl
  · exact .inl rfl
  · exact .inl rfl
  · simp only [Bool.and_eq_true, decide_eq_true_eq] at hallowed
    cases hm : m[r.nodeId]? with
    | some =>
      dsimp only
      split_ifs with hpin htime
      · exact .inl rfl
      · refine .inr ⟨r, by simpa using hconflict, hallowed.2, hallowed.1, ?_, ?_, rfl⟩
        · rw [hm]
          simp
        · rw [hm]
          rintro _ ⟨⟩
          exact ⟨(not_not.mp hpin).symm, by grind⟩
      · exact .inl rfl
    | none =>
      have hnot : m.contains r.nodeId = false := by
        rw [Std.TreeMap.contains_eq_isSome_getElem?, hm]
        rfl
      refine .inr ⟨r, by simpa using hconflict, hallowed.2, hallowed.1, fun _ => ?_, ?_, rfl⟩
      · simpa [hnot] using hcapacity
      · rw [hm]
        simp
  · exact .inl rfl

lemma persist_admits (hverified : r.verifyIdentity S = true) (hallowed : r.identityPin ∉ p.revoked) :
    RelayMap.Admits S p.revoked m (persist m (r.nodeId, r)) := by
  unfold persist
  by_cases hconflict : relayConflicts m r = true
  · rw [if_pos hconflict]
    exact .inl rfl
  rw [if_neg hconflict]
  cases hm : m[r.nodeId]? with
  | some =>
    dsimp only
    split_ifs with hpin htime
    · exact .inl rfl
    · exact .inl rfl
    · refine .inr ⟨r, by simpa using hconflict, hverified, hallowed, ?_, ?_, rfl⟩
      · rw [hm]
        simp
      · rw [hm]
        rintro _ ⟨⟩
        exact ⟨not_not.mp hpin, by grind⟩
  | none =>
    dsimp only
    split_ifs with hcapacity
    · exact .inl rfl
    · refine .inr ⟨r, by simpa using hconflict, hverified, hallowed, fun _ => not_le.mp hcapacity, ?_, rfl⟩
      rw [hm]
      simp

/-- No admitted relay is retired, so nothing is dropped. -/
lemma advances_retain (h : m.Admitted S p.revoked) (id : String) :
    RelayMap.Advances id m (p.retain m) := by
  intro r hr
  refine ⟨r, ?_, rfl, UInt64.le_refl _⟩
  rw [retain, Std.TreeMap.getElem?_filter', hr]
  simpa using h.allowed id r hr

lemma writeBack_spec {localMap : RelayMap} (order : HashOrder (String × RelayDescriptor))
    (h : m.Admitted S p.revoked) (hlocal : localMap.Admitted S p.revoked) :
    (p.writeBack m localMap order).Admitted S p.revoked ∧
      ∀ id, RelayMap.Advances id m (p.writeBack m localMap order) := by
  have hpersist : ∀ m', ∀ entry ∈ order.order localMap.toList, RelayMap.Admitted S p.revoked m' →
      RelayMap.Admits S p.revoked m' (persist m' entry) := by
    rintro m' ⟨id, r⟩ hentry -
    have hr := Std.TreeMap.mem_toList_iff_getElem?_eq_some.mp (order.mem_order.mp hentry)
    obtain rfl := hlocal.keyed id r hr
    exact persist_admits (hlocal.verified _ r hr) (hlocal.allowed _ r hr)
  have hretain : (p.retain m).Admitted S p.revoked := h.filter _
  obtain ⟨hadmitted, hadvances⟩ := RelayMap.admitted_foldl hpersist hretain
  exact ⟨hadmitted, fun id => (advances_retain h id).trans (hadvances id)⟩

end AdmissionPolicy

/-- The relays of an admitted map, in any order and with some left out. -/
lemma RelayMap.pairwise_filter_order {m : RelayMap} {R : RelayDescriptor → RelayDescriptor → Prop}
    (hR : ∀ (id id' : String) (r r' : RelayDescriptor), m[id]? = some r → m[id']? = some r' →
      id ≠ id' → R r r') (hsymm : ∀ {r r'}, R r r' → R r' r) (order : HashOrder RelayDescriptor)
    (q : RelayDescriptor → Bool) : ((order.order (valuesOf m)).filter q).Pairwise R :=
  ((order.perm _).symm.pairwise (pairwise_valuesOf hR) hsymm).filter q

namespace RelayState
variable {S : DirectoryEnv} {p : AdmissionPolicy} {s s' : RelayState}

/-- The map and all clones of it are admitted. -/
structure Admitted (S : DirectoryEnv) (p : AdmissionPolicy) (s : RelayState) : Prop where
  active : s.active.Admitted S p.revoked
  reconciling : ∀ m ∈ s.reconciling, m.Admitted S p.revoked

lemma Admitted.step {i : RelayInput} (h : s.Admitted S p) (hs : s.step S p i = some s') :
    s'.Admitted S p ∧ ∀ id ∈ s'.active, RelayMap.Advances id s.active s'.active := by
  have hfilter : ∀ q : String → RelayDescriptor → Bool, ∀ id ∈ s.active.filter q,
      RelayMap.Advances id s.active (s.active.filter q) := by
    intro q id hid r hr
    rw [Std.TreeMap.mem_iff_isSome_getElem?, Std.TreeMap.getElem?_filter', hr] at hid
    refine ⟨r, ?_, rfl, UInt64.le_refl _⟩
    rw [Std.TreeMap.getElem?_filter', hr]
    cases hq : q id r with
    | true => simp [hq]
    | false => simp [hq] at hid
  cases i with
  | register now r =>
    cases hs
    obtain ⟨hadmits, hreconciling⟩ := AdmissionPolicy.registerRelay_spec (S := S) (p := p) s now r
    exact ⟨⟨h.active.admits hadmits, hreconciling ▸ h.reconciling⟩, fun id _ => hadmits.advances id⟩
  | snapshot =>
    cases hs
    refine ⟨⟨h.active, fun m hm => ?_⟩, fun id _ => .refl id _⟩
    rcases List.mem_append.mp hm with hm | hm
    · exact h.reconciling m hm
    · rw [List.mem_singleton.mp hm]
      exact h.active.filter _
  | gossip =>
    obtain ⟨localMap, hlocal, rfl⟩ := Option.map_eq_some_iff.mp hs
    refine ⟨⟨h.active, fun m hm => ?_⟩, fun id _ => .refl id _⟩
    rcases List.mem_or_eq_of_mem_set hm with hm | rfl
    · exact h.reconciling m hm
    · exact (RelayMap.admitted_foldl (fun _ _ _ _ => AdmissionPolicy.mergeGossip_admits)
        (h.reconciling localMap (List.mem_of_getElem? hlocal))).1
  | writeBack task order =>
    obtain ⟨localMap, hlocal, rfl⟩ := Option.map_eq_some_iff.mp hs
    obtain ⟨hadmitted, hadvances⟩ := AdmissionPolicy.writeBack_spec order h.active
      (h.reconciling localMap (List.mem_of_getElem? hlocal))
    exact ⟨⟨hadmitted, fun m hm => h.reconciling m (List.mem_of_mem_eraseIdx hm)⟩,
      fun id _ => hadvances id⟩
  | evictStale | evictExpired =>
    cases hs
    exact ⟨⟨h.active.filter _, h.reconciling⟩, hfilter _⟩

theorem admitted_of_run (h : Run (RelayState.step S p) .empty s) : s.Admitted S p :=
  h.invariant ⟨RelayMap.admitted_empty, by simp [empty]⟩ fun _ _ _ hadmitted _ hs => (hadmitted.step hs).1

/-- Over every run, the map has at most 512 relays, each under its own id and
verified, no two with the same pin, key component or endpoint. A document frozen
from it passes every client's checks on relays, if it has any relay. -/
theorem relays_pass_client_checks {E : PoolEnv}
    (h : Run (RelayState.step E.toDirectoryEnv p) .empty s) :
    (∀ (id : String) (r : RelayDescriptor), s.active[id]? = some r →
      r.nodeId = id ∧ r.verifyIdentity E.toDirectoryEnv = true) ∧
    s.active.size ≤ MAX_DIRECTORY_RELAYS ∧
    (∀ (id id' : String) (r r' : RelayDescriptor), s.active[id]? = some r →
      s.active[id']? = some r' → id ≠ id' → r.Distinct r') ∧
    ∀ (hostOf : String → String), E.KeepsEndpoints hostOf →
      (∀ r ∈ valuesOf s.active, ∀ r' ∈ valuesOf s.active,
        postQuantumBytes r.signature ≠ postQuantumBytes r'.signature →
        E.sha256 (postQuantumBytes r.signature) ≠ E.sha256 (postQuantumBytes r'.signature)) →
      ∀ (a : DirectoryAuthority E.toDirectoryEnv) (votes : Votes) (now : UInt64)
        (order : HashOrder RelayDescriptor) (doc : ConsensusDocument) (next : Votes),
        a.prepareVote votes now (order.order (valuesOf s.active)) = .ok (doc, some next) →
        doc.relays ≠ [] →
        ∀ revoked, ∃ staged, stageDirectory E revoked doc.relays = .ok staged := by
  have hactive := (admitted_of_run h).active
  refine ⟨fun id r hr => ⟨hactive.keyed id r hr, hactive.verified id r hr⟩, hactive.size,
    hactive.distinct, fun hostOf hurl hhash a votes now order doc next hvote hne revoked => ?_⟩
  have hrelays : doc.relays = (order.order (valuesOf s.active)).filter (a.eligible now) := by
    obtain ⟨-, ⟨hnone, -⟩ | ⟨-, -, rfl⟩⟩ := DirectoryAuthority.prepareVote_cases hvote
    · cases hnone
    · rfl
  rw [hrelays] at hne ⊢
  refine stageDirectory_of_distinct hurl hne (fun r hr => ?_) ?_ ?_ ?_
  · obtain ⟨id, hid⟩ := mem_valuesOf.mp (order.mem_order.mp (List.mem_filter.mp hr).1)
    exact hactive.verified id r hid
  · refine RelayMap.pairwise_filter_order (fun id id' r r' hr hr' hids => ?_) Ne.symm order _
    rwa [hactive.keyed id r hr, hactive.keyed id' r' hr']
  · exact RelayMap.pairwise_filter_order hactive.distinct RelayDescriptor.Distinct.symm order _
  · refine RelayMap.pairwise_filter_order (fun id id' r r' hr hr' hids => ?_) Ne.symm order _
    exact hhash r (mem_valuesOf.mpr ⟨id, hr⟩) r' (mem_valuesOf.mpr ⟨id', hr'⟩)
      (hactive.distinct id id' r r' hr hr' hids).2.2.1

/-- One relay registers, another one while the authority reconciles, and a third
one is learnt from a peer. -/
def threeRelays : RelayState :=
  (runInputs (RelayState.step samplePool.toDirectoryEnv ⟨[], 0⟩) .empty [
    .register 1000 (poolRelay 1), .snapshot, .register 1000 (poolRelay 2),
    .gossip 0 1000 [poolRelay 3, poolRelay 1], .writeBack 0 (.listed _)]).getD .empty

def poolAuthority : DirectoryAuthority samplePool.toDirectoryEnv := ⟨"a", sampleKey 9, [], true, true⟩

theorem threeRelays_pass_client_checks :
    ∃ doc next, poolAuthority.prepareVote ∅ 1000
        ((HashOrder.listed _).order (valuesOf threeRelays.active)) = .ok (doc, some next) ∧
      doc.relays.length = 3 ∧ ∃ staged, stageDirectory samplePool [] doc.relays = .ok staged := by
  have hchecks : ((poolAuthority.prepareVote ∅ 1000
        ((HashOrder.listed _).order (valuesOf threeRelays.active))).toOption.any
          fun vote => vote.1.relays.length == 3 && vote.2.isSome) = true ∧
      ∀ r ∈ valuesOf threeRelays.active, ∀ r' ∈ valuesOf threeRelays.active,
        postQuantumBytes r.signature ≠ postQuantumBytes r'.signature →
        samplePool.sha256 (postQuantumBytes r.signature) ≠
          samplePool.sha256 (postQuantumBytes r'.signature) := by decide +kernel
  obtain ⟨⟨doc, next⟩, hvote, htest⟩ := exists_ok_of_any hchecks.1
  simp only [Bool.and_eq_true, beq_iff_eq] at htest
  obtain ⟨next, rfl⟩ := Option.isSome_iff_exists.mp htest.2
  have hrun : Run (RelayState.step samplePool.toDirectoryEnv ⟨[], 0⟩) .empty threeRelays :=
    Run.getD_inputs _
  refine ⟨doc, next, hvote, htest.1, ?_⟩
  exact (relays_pass_client_checks hrun).2.2.2 id keepsEndpoints_sample hchecks.2 poolAuthority ∅ 1000
    (.listed _) doc next hvote (List.ne_nil_of_length_pos (by omega)) []

/-- Over every run in which an id stays listed, its pin does not change and its
registration time does not go back. -/
theorem identity_kept_while_listed {s₀ : RelayState} {id : String} {r₀ r : RelayDescriptor}
    (h₀ : Run (RelayState.step S p) .empty s₀)
    (h : GuardedRun (RelayState.step S p) (fun s _ => id ∈ s.active) s₀ s)
    (hr₀ : s₀.active[id]? = some r₀) (hr : s.active[id]? = some r) :
    r.identityPin = r₀.identityPin ∧ r₀.registeredAt ≤ r.registeredAt := by
  have hadvances : id ∈ s.active → RelayMap.Advances id s₀.active s.active := by
    clear hr
    induction h with
    | start => exact fun _ => .refl id _
    | step hrun hmem hs ih =>
      intro hid
      have hadmitted := admitted_of_run (h₀.trans hrun.toRun)
      exact (ih hmem).trans ((hadmitted.step hs).2 id hid)
  have hid : id ∈ s.active := by
    rw [Std.TreeMap.mem_iff_isSome_getElem?, hr]
    rfl
  obtain ⟨r', hr', hpin, hle⟩ := hadvances hid r₀ hr₀
  rw [hr, Option.some.injEq] at hr'
  subst hr'
  exact ⟨hpin, hle⟩

def oneRelay : RelayState :=
  (runInputs (RelayState.step samplePool.toDirectoryEnv ⟨[], 0⟩) .empty
    [.register 1000 (poolRelay 1)]).getD .empty

/-- The relay registers anew while the authority reconciles, and a peer still
lists the old descriptor. -/
def renewals : List RelayInput :=
  [.snapshot, .register 1100 (poolRelayAt 1 1100), .gossip 0 1100 [poolRelay 1],
    .writeBack 0 (.listed _)]

def renewedRelay : RelayState :=
  (runInputs (RelayState.step samplePool.toDirectoryEnv ⟨[], 0⟩) oneRelay renewals).getD oneRelay

theorem renewedRelay_keeps_identity :
    ∃ r₀ r, oneRelay.active["relay-1"]? = some r₀ ∧ renewedRelay.active["relay-1"]? = some r ∧
      r.registeredAt = 1100 ∧ r.identityPin = r₀.identityPin ∧ r₀.registeredAt ≤ r.registeredAt := by
  have hruns : oneRelay.active["relay-1"]?.isSome = true ∧
      renewedRelay.active["relay-1"]?.map (·.registeredAt) = some 1100 ∧
      inputsOk (RelayState.step samplePool.toDirectoryEnv ⟨[], 0⟩)
        (fun s _ => "relay-1" ∈ s.active) oneRelay renewals = true := by decide +kernel
  obtain ⟨hlisted, htime, hstays⟩ := hruns
  obtain ⟨r₀, hr₀⟩ := Option.isSome_iff_exists.mp hlisted
  obtain ⟨r, hr, htime⟩ := Option.map_eq_some_iff.mp htime
  have h₀ : Run (RelayState.step samplePool.toDirectoryEnv ⟨[], 0⟩) .empty oneRelay :=
    Run.getD_inputs _
  have h : GuardedRun (RelayState.step samplePool.toDirectoryEnv ⟨[], 0⟩)
      (fun s _ => "relay-1" ∈ s.active) oneRelay renewedRelay :=
    GuardedRun.getD_inputs renewals hstays oneRelay
  exact ⟨r₀, r, hr₀, hr, htime, identity_kept_while_listed h₀ h hr₀ hr⟩

end RelayState

end AnonGuard
