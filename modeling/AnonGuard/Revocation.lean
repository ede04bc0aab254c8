import AnonGuard.Consensus
import AnonGuard.Durable
import AnonGuard.Maps
import AnonGuard.Transition

/-!
# Retired identities

A quorum of authorities signs a policy that lists retired identities. At every start
the program checks the policy against the one in its journal, which it then replaces.
The journal is read under a lock file, a call may fail or the process may crash at any
point, and a replacement that was not synced may be lost. A later policy still never
goes back behind an earlier one that was accepted.
-/
namespace AnonGuard

def MAX_REVOKED_IDENTITIES : ℕ := 512

structure RevocationPolicy where
  version : UInt32
  generation : UInt64
  authoritySet : Bytes
  revoked : List Bytes
  signatures : List AuthoritySignature

def authoritySetDigest (S : IdentityScheme) (keys : Authorities) : Bytes :=
  S.sha256 (utf8 "AnonGuard-RevocationAuthoritySet-v1" ++ toBe 4 keys.size ++
    keys.toList.flatMap fun entry => toBe 4 (utf8 entry.1).length ++ utf8 entry.1 ++ entry.2)

/-- `VerifyingKey::is_weak`. -/
def isWeak (pin : Bytes) : Bool := pin = ZERO_PIN

namespace RevocationPolicy

/-- The loop of `validate_shape` over the identities. -/
def checkIdentities : List Bytes → List Bytes → Except String Unit
  | [], _ => .ok ()
  | identity :: rest, seen =>
    match verifyingKeyFromBytes identity with
    | none => .error "Invalid retired identity"
    | some key =>
      if isWeak key = true ∨ identity ∈ seen then .error "Weak or duplicate retired identity"
      else checkIdentities rest (identity :: seen)

def validateShape (p : RevocationPolicy) : Except String Unit :=
  if p.version ≠ 2 ∨ p.generation = 0 ∨ MAX_REVOKED_IDENTITIES < p.revoked.length ∨
      16 < p.signatures.length then
    .error "Unsupported or oversized identity retirement policy"
  else
    match checkIdentities p.revoked [] with
    | .error e => .error e
    | .ok () =>
      if p.signatures.any fun signature => signature.authorityId == "" ||
          128 < (utf8 signature.authorityId).length ||
          signature.signatureBytes.length != PROOF_SIZE then
        .error "Invalid retirement signature shape"
      else .ok ()

def digest (S : IdentityScheme) (p : RevocationPolicy) : Bytes :=
  S.sha256 (utf8 "AnonGuard-IdentityRetirement-v1" ++ toBe 4 p.version.toNat ++
    be64 p.generation ++ p.authoritySet ++ toBe 4 p.revoked.length ++
    (p.revoked.insertionSort (· ≤ ·)).flatten)

def new (S : IdentityScheme) (generation : UInt64) (keys : Authorities) (revoked : List Bytes) :
    RevocationPolicy :=
  ⟨2, generation, authoritySetDigest S keys, revoked, []⟩

def sign {S : IdentityScheme} (p : RevocationPolicy) (authorityId : String) (key : SigningKey S) :
    Except String RevocationPolicy :=
  match p.validateShape with
  | .error e => .error e
  | .ok () =>
    if authorityId = "" ∨ 128 < (utf8 authorityId).length ∨
        authorityId ∈ p.signatures.map (·.authorityId) ∨ p.signatures.length = 16 then
      .error "Invalid or duplicate retirement signer"
    else .ok { p with signatures := p.signatures ++ [⟨authorityId, key.sign (p.digest S)⟩] }

/-- What `verify` has counted so far. -/
structure Signers where
  keys : List Bytes
  classical : List Bytes
  postQuantum : List Bytes

/-- The loop of `verify` over the signatures. -/
def countSigners (S : IdentityScheme) (keys : Authorities) (digest : Bytes) :
    List AuthoritySignature → Signers → Except String Signers
  | [], t => .ok t
  | signature :: rest, t =>
    match keys[signature.authorityId]? with
    | none => countSigners S keys digest rest t
    | some key =>
      match signatureFromSlice signature.signatureBytes with
      | none => .error "Invalid retirement signature"
      | some proof =>
        if S.verifyStrict key digest proof = false then countSigners S keys digest rest t
        else
          match S.componentPins proof with
          | none => .error "Invalid retirement identity"
          | some (classical, pq) =>
            if classical ∈ t.classical ∨ pq ∈ t.postQuantum then
              .error "Retirement signers alias an identity component"
            else countSigners S keys digest rest
              ⟨key :: t.keys, classical :: t.classical, pq :: t.postQuantum⟩

def verify (S : IdentityScheme) (p : RevocationPolicy) (keys : Authorities) (quorum : ℕ) :
    Except String Unit :=
  match p.validateShape with
  | .error e => .error e
  | .ok () =>
    if keys.size = 0 ∨ 16 < keys.size ∨ (valuesOf keys).dedup.length ≠ keys.size ∨
        (valuesOf keys).any isWeak = true ∨ quorum ≤ 2 * keys.size / 3 ∨ keys.size < quorum ∨
        p.authoritySet ≠ authoritySetDigest S keys then
      .error "Identity retirement requires the exact pinned authority set and >2/3 quorum"
    else
      match countSigners S keys (p.digest S) p.signatures ⟨[], [], []⟩ with
      | .error e => .error e
      | .ok t =>
        if t.keys.dedup.length < quorum then
          .error "Identity retirement policy lacks a valid authority quorum"
        else .ok ()

end RevocationPolicy

structure AcceptedPolicy where
  generation : UInt64
  digest : Bytes
  revoked : List Bytes
  deriving DecidableEq

/-- The journal as a read finds it. -/
inductive JournalFile
  | absent
  | unreadable
  | invalid
  | accepted (policy : AcceptedPolicy)
  deriving DecidableEq

inductive PolicyFile
  | unreadable
  | invalid
  | policy (policy : RevocationPolicy)

/-- A call of `load_and_commit`, with what the file system answers. -/
structure LoadCall where
  policyPath : Option PolicyFile
  keys : Authorities
  quorum : ℕ
  directoryFails : Bool := false
  lockFails : Bool := false
  readFails : Bool := false
  statFails : Bool := false
  write : WriteResult := .done
  unlockFails : Bool := false

def PERSIST_FAILURE : String := "Cannot persist identity retirement policy"

namespace LoadCall
variable (S : IdentityScheme)

/-- Whether the call gets hold of the lock file; without a policy it takes none. -/
def acquire (c : LoadCall) (locked : Bool) : Except String Bool :=
  match c.policyPath with
  | none => .ok false
  | some _ =>
    if c.directoryFails then .error "Cannot prepare retirement state directory"
    else if locked || c.lockFails then
      .error "Retirement state is locked; inspect concurrent process or interrupted startup"
    else .ok true

def readJournal (c : LoadCall) (journal : JournalFile) : Except String (Option AcceptedPolicy) :=
  if c.readFails then .error "Cannot read retirement rollback state"
  else
    match journal with
    | .absent => .ok none
    | .unreadable => .error "Cannot read retirement rollback state"
    | .invalid => .error "Invalid retirement rollback state"
    | .accepted previous => .ok (some previous)

/-- The comparison with the policy in the journal. -/
def checkPrevious (previous : Option AcceptedPolicy) (digest : Bytes) (p : RevocationPolicy) :
    Except String Unit :=
  match previous with
  | none => .ok ()
  | some previous =>
    if previous.generation = 0 ∨ MAX_REVOKED_IDENTITIES < previous.revoked.length ∨
        previous.revoked.dedup.length ≠ previous.revoked.length then
      .error "Invalid retirement rollback state"
    else if p.generation < previous.generation ∨
        (p.generation = previous.generation ∧ digest ≠ previous.digest) ∨
        previous.revoked.any (fun identity => identity ∉ p.revoked) = true then
      .error "Retirement rollback, equivocation or identity resurrection rejected"
    else .ok ()

def checkPolicy (c : LoadCall) (previous : Option AcceptedPolicy) (file : PolicyFile) :
    Except String AcceptedPolicy :=
  match file with
  | .unreadable => .error "Cannot read identity retirement policy"
  | .invalid => .error "Invalid identity retirement policy JSON"
  | .policy p =>
    match p.verify S c.keys c.quorum with
    | .error e => .error e
    | .ok () =>
      match checkPrevious previous (p.digest S) p with
      | .error e => .error e
      | .ok () => .ok ⟨p.generation, p.digest S, p.revoked⟩

/-- Everything before the write: the new contents of the journal, or none if the call
has no policy. -/
def prepare (c : LoadCall) (journal : JournalFile) (locked : Bool) :
    Except String (Option AcceptedPolicy) :=
  match c.acquire locked with
  | .error e => .error e
  | .ok _ =>
    match c.readJournal journal with
    | .error e => .error e
    | .ok previous =>
      match c.policyPath with
      | none =>
        if locked || c.statFails then
          .error "Retirement enrollment is in progress or interrupted; inspect persistent state"
        else if previous.isSome then
          .error "Enrolled deployment requires its signed identity retirement policy"
        else .ok none
      | some file =>
        match c.checkPolicy S previous file with
        | .error e => .error e
        | .ok accepted => .ok (some accepted)

end LoadCall

/-- A call that has returned its identities, and the policy it has committed. -/
structure Success where
  committed : Option AcceptedPolicy
  revoked : List Bytes

/-- The journal, what a power failure leaves of it, the lock file, and the successful
calls, newest first. -/
structure RetirementState where
  journal : JournalFile
  synced : JournalFile
  locked : Bool
  successes : List Success

/-- How far a call has come when the process crashes. -/
inductive CrashPoint
  | starting
  | holding
  | replaced
  | synced
  | released
  deriving DecidableEq

inductive RetirementInput
  | call (c : LoadCall)
  | crash (c : LoadCall) (point : CrashPoint)
  | powerFailure (lost : Bool)
  | unlock

namespace RetirementState
variable (S : IdentityScheme)

def start (journal synced : JournalFile) (locked : Bool) : RetirementState :=
  ⟨journal, synced, locked, []⟩

/-- The lock file after a call that has come to its end. -/
def released (s : RetirementState) (c : LoadCall) : Bool :=
  match c.acquire s.locked with
  | .ok true => c.unlockFails
  | _ => s.locked

def loadAndCommit (s : RetirementState) (c : LoadCall) :
    Except String (List Bytes) × RetirementState :=
  let s' := { s with locked := s.released c }
  match c.prepare S s.journal s.locked with
  | .error e => (.error e, s')
  | .ok none => (.ok [], { s' with successes := ⟨none, []⟩ :: s.successes })
  | .ok (some accepted) =>
    let s' := { s' with journal := c.write.contents s.journal (.accepted accepted) }
    match c.write with
    | .done => (.ok accepted.revoked, { s' with
        synced := .accepted accepted
        successes := ⟨some accepted, accepted.revoked⟩ :: s.successes })
    | .failedBefore _ | .failedAfter _ => (.error PERSIST_FAILURE, s')

/-- What a call leaves behind that never returns. -/
def crash (s : RetirementState) (c : LoadCall) (point : CrashPoint) : RetirementState :=
  let held := match c.acquire s.locked with
    | .ok true => true
    | _ => s.locked
  match c.prepare S s.journal s.locked, point with
  | _, .starting => s
  | .ok (some accepted), .replaced => { s with journal := .accepted accepted, locked := held }
  | .ok (some accepted), .synced =>
    { s with journal := .accepted accepted, synced := .accepted accepted, locked := held }
  | .ok (some accepted), .released =>
    { s with journal := .accepted accepted, synced := .accepted accepted, locked := s.released c }
  | _, .released => { s with locked := s.released c }
  | _, _ => { s with locked := held }

def step (s : RetirementState) : RetirementInput → Option RetirementState
  | .call c => some (s.loadAndCommit S c).2
  | .crash c point => some (s.crash S c point)
  | .powerFailure lost =>
    let kept := if lost then s.synced else s.journal
    some { s with journal := kept, synced := kept }
  | .unlock => some { s with locked := false }

end RetirementState

/-- The order in which policies may follow each other. -/
structure AcceptedPolicy.Precedes (a b : AcceptedPolicy) : Prop where
  generation : a.generation ≤ b.generation
  digest : a.generation = b.generation → a.digest = b.digest
  revoked : a.revoked ⊆ b.revoked

lemma AcceptedPolicy.Precedes.refl (a : AcceptedPolicy) : a.Precedes a :=
  ⟨UInt64.le_refl _, fun _ => rfl, fun _ h => h⟩

lemma AcceptedPolicy.Precedes.trans {a b c : AcceptedPolicy} (h : a.Precedes b)
    (h' : b.Precedes c) : a.Precedes c := by
  refine ⟨UInt64.le_trans h.generation h'.generation, fun heq => ?_,
    List.Subset.trans h.revoked h'.revoked⟩
  have hab : a.generation = b.generation :=
    UInt64.le_antisymm h.generation (heq ▸ h'.generation)
  exact (h.digest hab).trans (h'.digest (hab ▸ heq))

/-- The journal holds a policy that may follow `a`. -/
def JournalFile.Covers (f : JournalFile) (a : AcceptedPolicy) : Prop :=
  ∃ b, f = .accepted b ∧ a.Precedes b

/-- The policy `a` may replace the journal. -/
def JournalFile.Admits (f : JournalFile) (a : AcceptedPolicy) : Prop :=
  f = .absent ∨ ∃ b, f = .accepted b ∧ b.Precedes a

lemma JournalFile.Covers.replace {f : JournalFile} {a b : AcceptedPolicy} (h : f.Covers a)
    (hb : f.Admits b) : a.Precedes b := by
  obtain ⟨c, rfl, hac⟩ := h
  rcases hb with habsent | ⟨c', hc', hcb⟩
  · cases habsent
  · cases hc'
    exact hac.trans hcb

namespace LoadCall
variable {S : IdentityScheme} {c : LoadCall} {journal : JournalFile} {locked : Bool}
  {previous : Option AcceptedPolicy}

lemma readJournal_eq_ok (h : c.readJournal journal = .ok previous) :
    (journal = .absent ∧ previous = none) ∨ ∃ b, journal = .accepted b ∧ previous = some b := by
  unfold readJournal at h
  split_ifs at h
  cases journal with
  | absent =>
    cases h
    exact .inl ⟨rfl, rfl⟩
  | unreadable | invalid => cases h
  | accepted b =>
    cases h
    exact .inr ⟨b, rfl, rfl⟩

lemma precedes_of_checkPrevious {previous : AcceptedPolicy} {digest : Bytes} {p : RevocationPolicy}
    (h : checkPrevious (some previous) digest p = .ok ()) :
    previous.Precedes ⟨p.generation, digest, p.revoked⟩ := by
  simp only [checkPrevious] at h
  split_ifs at h with hshape hback
  simp only [not_or, not_and, not_not, List.any_eq_true, decide_eq_true_eq, not_exists] at hback
  obtain ⟨hgeneration, hdigest, hrevoked⟩ := hback
  exact ⟨UInt64.not_lt.mp hgeneration, fun heq => (hdigest heq.symm).symm, hrevoked⟩

lemma checkPolicy_eq_ok {file : PolicyFile}
    {accepted : AcceptedPolicy} (h : c.checkPolicy S previous file = .ok accepted)
    (b : AcceptedPolicy) (hb : previous = some b) : b.Precedes accepted := by
  subst hb
  cases file with
  | unreadable | invalid => cases h
  | policy p =>
    simp only [checkPolicy] at h
    split at h
    · cases h
    · split at h
      · cases h
      · rename_i hprevious
        cases h
        exact precedes_of_checkPrevious hprevious

/-- A call without a policy comes to its end only if there is no journal, and one with a
policy only if the policy follows the one in the journal. -/
lemma prepare_eq_ok {plan : Option AcceptedPolicy} (h : c.prepare S journal locked = .ok plan) :
    (c.policyPath = none ∧ plan = none ∧ journal = .absent) ∨
      ∃ accepted, c.policyPath.isSome = true ∧ plan = some accepted ∧ journal.Admits accepted := by
  unfold prepare at h
  split at h
  · cases h
  · split at h
    · cases h
    · rename_i previous hread
      have hprevious := readJournal_eq_ok hread
      cases hpath : c.policyPath with
      | none =>
        simp only [hpath] at h
        split_ifs at h with _ hsome
        cases h
        rcases hprevious with ⟨habsent, -⟩ | ⟨b, -, hb⟩
        · exact .inl ⟨rfl, rfl, habsent⟩
        · rw [hb] at hsome
          exact absurd rfl hsome
      | some file =>
        simp only [hpath] at h
        split at h
        · cases h
        · rename_i accepted hcheck
          cases h
          refine .inr ⟨accepted, rfl, rfl, ?_⟩
          rcases hprevious with ⟨habsent, -⟩ | ⟨b, hjournal, hb⟩
          · exact .inl habsent
          · exact .inr ⟨b, hjournal, checkPolicy_eq_ok hcheck b hb⟩

end LoadCall

namespace RetirementState
variable {S : IdentityScheme} {s s' : RetirementState} {i : RetirementInput}
  {journal synced : JournalFile}

/-- What a step can do. -/
inductive Effect (s : RetirementState) : RetirementState → Prop
  | keep (locked : Bool) : Effect s { s with locked := locked }
  | recover (kept : JournalFile) (h : kept = s.journal ∨ kept = s.synced) :
      Effect s { s with journal := kept, synced := kept }
  | replace (a : AcceptedPolicy) (synced : JournalFile) (locked : Bool) (h : s.journal.Admits a)
      (hsynced : synced = s.synced ∨ synced = .accepted a) :
      Effect s { s with journal := .accepted a, synced := synced, locked := locked }
  | unenrolled (locked : Bool) (h : s.journal = .absent) :
      Effect s { s with locked := locked, successes := ⟨none, []⟩ :: s.successes }
  | commit (a : AcceptedPolicy) (locked : Bool) (h : s.journal.Admits a) :
      Effect s ⟨.accepted a, .accepted a, locked, ⟨some a, a.revoked⟩ :: s.successes⟩

lemma effect_of_call (c : LoadCall) : s.Effect (s.loadAndCommit S c).2 := by
  unfold loadAndCommit
  dsimp only
  cases hplan : c.prepare S s.journal s.locked with
  | error => exact .keep _
  | ok =>
    rcases LoadCall.prepare_eq_ok hplan with ⟨-, rfl, habsent⟩ | ⟨a, -, rfl, hadmits⟩
    · exact .unenrolled _ habsent
    · dsimp only
      cases c.write with
      | done => exact .commit a _ hadmits
      | failedBefore => exact .keep _
      | failedAfter => exact .replace a s.synced _ hadmits (.inl rfl)

lemma effect_of_crash (c : LoadCall) (point : CrashPoint) : s.Effect (s.crash S c point) := by
  unfold crash
  dsimp only
  cases hplan : c.prepare S s.journal s.locked with
  | error => cases point <;> exact .keep _
  | ok =>
    rcases LoadCall.prepare_eq_ok hplan with ⟨-, rfl, habsent⟩ | ⟨a, -, rfl, hadmits⟩
    · cases point <;> exact .keep _
    · cases point with
      | starting | holding => exact .keep _
      | replaced => exact .replace a s.synced _ hadmits (.inl rfl)
      | synced | released => exact .replace a _ _ hadmits (.inr rfl)

lemma effect_of_step (h : step S s i = some s') : s.Effect s' := by
  cases i with
  | call c =>
    cases h
    exact effect_of_call c
  | crash c point =>
    cases h
    exact effect_of_crash c point
  | powerFailure lost =>
    cases h
    cases lost with
    | true => exact .recover _ (.inr rfl)
    | false => exact .recover _ (.inl rfl)
  | unlock =>
    cases h
    exact .keep _

/-- A later call has not gone back behind an earlier one. -/
structure Success.Follows (later earlier : Success) : Prop where
  revoked : earlier.revoked ⊆ later.revoked
  generation : ∀ a b, earlier.committed = some a → later.committed = some b →
    a.generation ≤ b.generation ∧ (a.generation = b.generation → a.digest = b.digest)
  enrolled : earlier.committed.isSome = true → later.committed.isSome = true

/-- What every history keeps: the journal and what a power failure leaves of it follow
every policy that was committed. -/
structure Cumulative (s : RetirementState) : Prop where
  ordered : s.successes.Pairwise Success.Follows
  revoked : ∀ x ∈ s.successes, x.revoked = (x.committed.map (·.revoked)).getD []
  covered : ∀ x ∈ s.successes, ∀ a, x.committed = some a → s.journal.Covers a ∧ s.synced.Covers a

lemma Cumulative.keep (hs : s.Cumulative) (locked : Bool)
    (h : ∀ a, s.journal.Covers a → s.synced.Covers a → journal.Covers a ∧ synced.Covers a) :
    Cumulative { s with journal := journal, synced := synced, locked := locked } :=
  ⟨hs.ordered, hs.revoked, fun x hx a ha => h a (hs.covered x hx a ha).1 (hs.covered x hx a ha).2⟩

lemma Cumulative.effect (hs : s.Cumulative) (h : s.Effect s') : s'.Cumulative := by
  cases h with
  | keep locked => exact hs.keep locked fun a hj hy => ⟨hj, hy⟩
  | recover kept hkept =>
    refine hs.keep s.locked fun a hj hy => ?_
    rcases hkept with rfl | rfl
    · exact ⟨hj, hj⟩
    · exact ⟨hy, hy⟩
  | replace a synced locked hadmits hsynced =>
    refine hs.keep locked fun b hj hy => ?_
    have hb : JournalFile.Covers (.accepted a) b := ⟨a, rfl, hj.replace hadmits⟩
    rcases hsynced with rfl | rfl
    · exact ⟨hb, hy⟩
    · exact ⟨hb, hb⟩
  | unenrolled locked habsent =>
    -- without a journal nothing has been committed
    have hnone : ∀ x ∈ s.successes, x.committed = none := by
      intro x hx
      cases hcommitted : x.committed with
      | none => rfl
      | some a =>
        obtain ⟨b, hb, -⟩ := (hs.covered x hx a hcommitted).1
        rw [habsent] at hb
        cases hb
    refine ⟨List.pairwise_cons.mpr ⟨fun x hx => ?_, hs.ordered⟩, ?_, ?_⟩
    · refine ⟨?_, fun a b ha => ?_, fun hsome => ?_⟩
      · rw [hs.revoked x hx, hnone x hx]
        exact List.Subset.refl _
      · rw [hnone x hx] at ha
        cases ha
      · rw [hnone x hx] at hsome
        cases hsome
    · intro x hx
      rcases List.mem_cons.mp hx with rfl | hx
      · rfl
      · exact hs.revoked x hx
    · intro x hx a ha
      rcases List.mem_cons.mp hx with rfl | hx
      · cases ha
      · exact hs.covered x hx a ha
  | commit a locked hadmits =>
    have hprecedes : ∀ x ∈ s.successes, ∀ b, x.committed = some b → b.Precedes a :=
      fun x hx b hb => (hs.covered x hx b hb).1.replace hadmits
    refine ⟨List.pairwise_cons.mpr ⟨fun x hx => ?_, hs.ordered⟩, ?_, ?_⟩
    · refine ⟨?_, fun b c hb hc => ?_, fun _ => rfl⟩
      · rw [hs.revoked x hx]
        cases hcommitted : x.committed with
        | none => exact List.nil_subset _
        | some b => exact (hprecedes x hx b hcommitted).revoked
      · obtain rfl := Option.some.inj hc
        exact ⟨(hprecedes x hx b hb).generation, (hprecedes x hx b hb).digest⟩
    · intro x hx
      rcases List.mem_cons.mp hx with rfl | hx
      · rfl
      · exact hs.revoked x hx
    · intro x hx b hb
      have hb' : JournalFile.Covers (.accepted a) b := by
        rcases List.mem_cons.mp hx with rfl | hx
        · obtain rfl := Option.some.inj hb
          exact ⟨a, rfl, .refl a⟩
        · exact ⟨a, rfl, hprecedes x hx b hb⟩
      exact ⟨hb', hb'⟩

lemma cumulative_of_run {locked : Bool}
    (h : Run (step S) (start journal synced locked) s) : s.Cumulative :=
  h.invariant ⟨.nil, fun _ hx => (by cases hx), fun _ hx => (by cases hx)⟩
    fun _ _ _ hs _ hstep => hs.effect (effect_of_step hstep)

/-- Only a write that fails changes the journal and reports an error. -/
lemma journal_of_error {c : LoadCall} {e : String} (h : (s.loadAndCommit S c).1 = .error e)
    (he : e ≠ PERSIST_FAILURE) : (s.loadAndCommit S c).2.journal = s.journal := by
  unfold loadAndCommit at h ⊢
  dsimp only at h ⊢
  split at h
  · rfl
  · cases h
  · split at h
    · cases h
    · cases h
      exact absurd rfl he
    · cases h
      exact absurd rfl he

/-- Without a policy a call fails as long as there is a journal. -/
lemma error_of_omitted {c : LoadCall} (hpath : c.policyPath = none) (hjournal : s.journal ≠ .absent) :
    ∃ e, (s.loadAndCommit S c).1 = .error e := by
  unfold loadAndCommit
  dsimp only
  cases hplan : c.prepare S s.journal s.locked with
  | error e => exact ⟨e, rfl⟩
  | ok =>
    rcases LoadCall.prepare_eq_ok hplan with ⟨-, -, habsent⟩ | ⟨a, hsome, -, -⟩
    · exact absurd habsent hjournal
    · rw [hpath] at hsome
      cases hsome

/-- In every history of calls, crashes and power failures on one journal the successful
calls follow each other, a call without a policy fails after the first one that had a
policy, and an error other than that of a failed write leaves the journal as it was. -/
theorem retirement_never_goes_back {journal synced : JournalFile} {locked : Bool}
    (h : Run (step S) (start journal synced locked) s) :
    s.successes.Pairwise Success.Follows ∧
      ((∃ x ∈ s.successes, x.committed.isSome = true) → ∀ c : LoadCall, c.policyPath = none →
        ∃ e, (s.loadAndCommit S c).1 = .error e) ∧
      ∀ (c : LoadCall) (e : String), (s.loadAndCommit S c).1 = .error e → e ≠ PERSIST_FAILURE →
        (s.loadAndCommit S c).2.journal = s.journal := by
  have hs := cumulative_of_run h
  refine ⟨hs.ordered, ?_, fun c e herror he => journal_of_error herror he⟩
  rintro ⟨x, hx, hsome⟩ c hpath
  obtain ⟨a, ha⟩ := Option.isSome_iff_exists.mp hsome
  obtain ⟨b, hb, -⟩ := (hs.covered x hx a ha).1
  refine error_of_omitted hpath ?_
  rw [hb]
  intro habsent
  cases habsent

def soleAuthority : Authorities := .ofList [("a", (sampleKey 1).verifyingKey)]

/-- A call with a policy that the sole authority has signed. -/
def signedCall (generation : UInt64) (revoked : List Bytes) : LoadCall where
  policyPath := some <|
    match (RevocationPolicy.new sampleScheme generation soleAuthority revoked).sign "a"
        (sampleKey 1) with
    | .ok policy => .policy policy
    | .error _ => .invalid
  keys := soleAuthority
  quorum := 1

/-- A start without a policy, the first policy, a crash after the second one has been
written, and the second one again after the lock has been removed. -/
def interruptedRollout : RetirementState :=
  (runInputs (step sampleScheme) (start .absent .absent false)
    [.call { policyPath := none, keys := soleAuthority, quorum := 1 }, .call (signedCall 1 [[7]]),
      .crash (signedCall 2 [[8], [7]]) .replaced, .unlock,
      .call (signedCall 2 [[7], [8]])]).getD (start .absent .absent false)

theorem interruptedRollout_follows :
    interruptedRollout.successes.map (·.revoked) = [[[7], [8]], [[7]], []] ∧
      interruptedRollout.successes.Pairwise Success.Follows ∧
      ∃ e, (interruptedRollout.loadAndCommit sampleScheme
        { policyPath := none, keys := soleAuthority, quorum := 1 }).1 = .error e := by
  have hruns : interruptedRollout.successes.map (·.revoked) = [[[7], [8]], [[7]], []] ∧
      interruptedRollout.successes.any (·.committed.isSome) = true := by decide +kernel
  have hall := retirement_never_goes_back (s := interruptedRollout) (Run.getD_inputs _)
  exact ⟨hruns.1, hall.1, hall.2.1 (List.any_eq_true.mp hruns.2) _ rfl⟩

end RetirementState

end AnonGuard
