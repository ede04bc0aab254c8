import AnonGuard.Consensus
import AnonGuard.Durable
import AnonGuard.Maps
import AnonGuard.Transition

/-!
# The votes of a directory authority

An authority signs one document for each five-minute epoch and keeps it, in
memory and in a file, so that it never signs another one for that epoch: not
when the relays change, not after a failed write, and not after a restart.
-/
namespace AnonGuard

/-- The settings of an authority that its votes depend on. -/
structure DirectoryAuthority (S : DirectoryEnv) where
  authorityId : String
  signingKey : SigningKey S.toIdentityScheme
  revoked : List Bytes
  requireUsableSnapshot : Bool
  /-- Whether votes are kept in a file. -/
  votePath : Bool

abbrev Votes := Std.TreeMap UInt64 ConsensusDocument

def RELAY_TTL_SECS : UInt64 := 7200

/-- `saturating_add` on 64-bit numbers. -/
def saturatingAdd (a b : UInt64) : UInt64 := if a + b < a then 0xFFFFFFFFFFFFFFFF else a + b

/-- Whether the relays can form a circuit of three hops with an exit. -/
def usable (relays : List RelayDescriptor) : Bool := 3 ≤ relays.length && relays.any (·.isExit)

namespace DirectoryAuthority
variable {S : DirectoryEnv} (a : DirectoryAuthority S)

def epochOf (now : UInt64) : UInt64 := now / 300 * 300

/-- The relays that a new vote may list. -/
def eligible (now : UInt64) (r : RelayDescriptor) : Bool :=
  r.identityPin ∉ a.revoked && r.verifyIdentity S && r.registeredAt ≤ now &&
    now - r.registeredAt ≤ RELAY_TTL_SECS

/-- The document of a new epoch. -/
def newVote (now : UInt64) (relays : List RelayDescriptor) : ConsensusDocument :=
  (ConsensusDocument.mk (epochOf now) (epochOf now + 600) relays []).signWithAuthority
    a.authorityId a.signingKey

/-- The votes to keep once there is one for `epoch`. -/
def nextVotes (votes : Votes) (epoch : UInt64) (doc : ConsensusDocument) : Votes :=
  (votes.filter fun previous _ => epoch ≤ saturatingAdd previous 3600).insert epoch doc

/-- `frozen_view`, up to the write: the document, and the votes to write if it is
a new one. -/
def prepareVote (votes : Votes) (now : UInt64) (relays : List RelayDescriptor) :
    Except String (ConsensusDocument × Option Votes) :=
  if votes.keys.any (epochOf now < ·) then .error "Authority clock rollback rejected"
  else
    match votes[epochOf now]? with
    | some doc =>
      if doc.relays.any fun r => r.identityPin ∈ a.revoked then
        .error "Frozen vote contains a retired identity; waiting for next epoch"
      else if a.requireUsableSnapshot && !usable doc.relays then
        .error "Persisted epoch snapshot cannot support a usable circuit; waiting for next epoch"
      else .ok (doc, none)
    | none =>
      if relays.length > MAX_DIRECTORY_RELAYS then .error "Directory capacity exceeded"
      else
        let relays := relays.filter (a.eligible now)
        if a.requireUsableSnapshot && !usable relays then
          .error "Directory has no usable three-hop circuit with an exit; voting deferred"
        else
          let doc := a.newVote now relays
          .ok (doc, some (nextVotes votes (epochOf now) doc))

end DirectoryAuthority

/-- The vote file: the documents, in the order in which they were written. -/
abbrev VoteFile := Option (List ConsensusDocument)

/-- The outcome of `frozen_view`: its result, the votes in memory and the file. -/
structure FrozenView where
  result : Except String ConsensusDocument
  votes : Votes
  file : VoteFile

namespace DirectoryAuthority
variable {S : DirectoryEnv} (a : DirectoryAuthority S)

def frozenView (votes : Votes) (file : VoteFile) (now : UInt64) (relays : List RelayDescriptor)
    (write : WriteResult) (order : HashOrder ConsensusDocument) : FrozenView :=
  match a.prepareVote votes now relays with
  | .error x => ⟨.error x, votes, file⟩
  | .ok (doc, none) => ⟨.ok doc, votes, file⟩
  | .ok (doc, some next) =>
    if a.votePath then
      let contents := write.contents file (some (order.order (valuesOf next)))
      match write with
      | .done => ⟨.ok doc, next, contents⟩
      | .failedBefore e | .failedAfter e =>
        ⟨.error ("Cannot persist authority vote: " ++ e), votes, contents⟩
    else ⟨.ok doc, next, file⟩

/-- The checks on one document of the vote file. -/
def admitsVote (votes : Votes) (doc : ConsensusDocument) : Bool :=
  doc.relays.length ≤ MAX_DIRECTORY_RELAYS && doc.signatures.length ≤ 16 &&
    doc.relays.all (·.verifyIdentity S) &&
    doc.verifyQuorum S ((∅ : Authorities).insert a.authorityId a.signingKey.verifyingKey) 1
      doc.validAfter &&
    !votes.contains doc.validAfter

/-- The documents of the vote file, or `none` if the process exits. -/
def readVotes : List ConsensusDocument → Votes → Option Votes
  | [], votes => some votes
  | doc :: rest, votes =>
    if a.admitsVote votes doc then readVotes rest (votes.insert doc.validAfter doc) else none

/-- The votes that `with_persistent_key` starts with. -/
def loadVotes (file : VoteFile) : Option Votes :=
  match file with
  | none => some ∅
  | some docs => if docs.length > 13 then none else a.readVotes docs ∅

end DirectoryAuthority

/-- An authority with a persistent key: its settings, the votes of the running
process, the vote file, and the documents that `frozen_view` has returned. -/
structure AuthorityState (S : DirectoryEnv) where
  authority : DirectoryAuthority S
  process : Option Votes
  file : VoteFile
  returned : List ConsensusDocument

/-- A call of `frozen_view`, the end of the process at any point outside a write,
or a start by `with_persistent_key`. A process that ends inside a write is one
whose write fails and that ends then. -/
inductive VoteInput
  | frozenView (now : UInt64) (relays : List RelayDescriptor) (write : WriteResult)
      (order : HashOrder ConsensusDocument)
  | crash
  | start (revoked : List Bytes) (requireUsableSnapshot readable : Bool)

namespace AuthorityState
variable {S : DirectoryEnv}

def stopped (authorityId : String) (key : SigningKey S.toIdentityScheme) (file : VoteFile) :
    AuthorityState S :=
  ⟨⟨authorityId, key, [], true, true⟩, none, file, []⟩

def step (s : AuthorityState S) : VoteInput → Option (AuthorityState S)
  | .frozenView now relays write order =>
    s.process.map fun votes =>
      let view := s.authority.frozenView votes s.file now relays write order
      { s with
        process := some view.votes
        file := view.file
        returned := match view.result with
          | .ok doc => s.returned ++ [doc]
          | .error _ => s.returned }
  | .crash => some { s with process := none }
  | .start revoked requireUsableSnapshot readable =>
    match s.process with
    | some _ => none
    | none => some { s with
        authority := { s.authority with
          revoked := revoked, requireUsableSnapshot := requireUsableSnapshot }
        process := if readable then s.authority.loadVotes s.file else none }

end AuthorityState

/-- The documents by their epoch. -/
abbrev VoteMap := UInt64 → Option ConsensusDocument

def Votes.lookup (votes : Votes) : VoteMap := fun epoch => votes[epoch]?

/-- Every document is listed under its own epoch. -/
def Votes.Keyed (votes : Votes) : Prop :=
  ∀ (epoch : UInt64) (doc : ConsensusDocument), votes[epoch]? = some doc → doc.validAfter = epoch

def VoteFile.lookup (file : VoteFile) : VoteMap := fun epoch =>
  (file.getD []).find? (·.validAfter == epoch)

namespace VoteMap

/-- The document is still there, or a later one is. -/
def Keeps (v : VoteMap) (doc : ConsensusDocument) : Prop :=
  v doc.validAfter = some doc ∨ ∃ epoch, doc.validAfter < epoch ∧ v epoch ≠ none

def Extends (v v' : VoteMap) : Prop :=
  ∀ epoch doc, v epoch = some doc → v' epoch = some doc ∨ ∃ e, epoch < e ∧ v' e ≠ none

variable {v v' : VoteMap} {doc : ConsensusDocument}

lemma Extends.refl (v : VoteMap) : v.Extends v := fun _ _ h => .inl h

lemma Keeps.mono (h : v.Keeps doc) (hext : v.Extends v') : v'.Keeps doc := by
  rcases h with h | ⟨epoch, hlt, hsome⟩
  · exact hext _ _ h
  · obtain ⟨later, hlater⟩ := Option.ne_none_iff_exists'.mp hsome
    rcases hext epoch later hlater with h | ⟨e, hlt', hsome'⟩
    · exact .inr ⟨epoch, hlt, by simp [h]⟩
    · exact .inr ⟨e, UInt64.lt_trans hlt hlt', hsome'⟩

end VoteMap

variable {epoch : UInt64} {file : VoteFile} {order : HashOrder ConsensusDocument}

section Files
variable {votes : Votes} {docs : List ConsensusDocument}

lemma find_validAfter_eq_some {doc : ConsensusDocument}
    (hunique : docs.Pairwise fun d d' => d.validAfter ≠ d'.validAfter) :
    docs.find? (·.validAfter == epoch) = some doc ↔ doc ∈ docs ∧ doc.validAfter = epoch := by
  induction docs with
  | nil => simp
  | cons d docs ih =>
    obtain ⟨hd, hdocs⟩ := List.pairwise_cons.mp hunique
    by_cases h : d.validAfter = epoch
    · simp only [List.find?_cons, h, beq_self_eq_true, Option.some.injEq, List.mem_cons]
      constructor
      · rintro rfl
        exact ⟨.inl rfl, h⟩
      · rintro ⟨rfl | hmem, hdoc⟩
        · rfl
        · exact absurd (h.trans hdoc.symm) (hd doc hmem)
    · have hbeq : (d.validAfter == epoch) = false := by simp [h]
      rw [List.find?_cons, hbeq, ih hdocs, List.mem_cons]
      constructor
      · rintro ⟨hmem, hdoc⟩
        exact ⟨.inr hmem, hdoc⟩
      · rintro ⟨rfl | hmem, hdoc⟩
        · exact absurd hdoc h
        · exact ⟨hmem, hdoc⟩

/-- A file that lists the votes in any order holds the same votes. -/
lemma lookup_values (hkeyed : votes.Keyed) (order : HashOrder ConsensusDocument) :
    VoteFile.lookup (some (order.order (valuesOf votes))) = votes.lookup := by
  have hunique : (order.order (valuesOf votes)).Pairwise fun d d' => d.validAfter ≠ d'.validAfter := by
    refine (order.perm _).symm.pairwise (pairwise_valuesOf fun e e' d d' hd hd' hne => ?_)
      fun {d d'} h => h.symm
    rwa [hkeyed e d hd, hkeyed e' d' hd']
  funext epoch
  refine Option.ext fun doc => ?_
  show (order.order (valuesOf votes)).find? _ = some doc ↔ votes[epoch]? = some doc
  rw [find_validAfter_eq_some hunique, HashOrder.mem_order, mem_valuesOf]
  constructor
  · rintro ⟨⟨e, he⟩, rfl⟩
    rwa [hkeyed e doc he]
  · exact fun h => ⟨⟨epoch, h⟩, hkeyed epoch doc h⟩

lemma lookup_readVotes {S : DirectoryEnv} {a : DirectoryAuthority S} {votes' : Votes}
    (hkeyed : votes.Keyed) (h : a.readVotes docs votes = some votes') :
    votes'.Keyed ∧ ∀ epoch : UInt64, votes'[epoch]? =
      votes[epoch]?.or (docs.find? (·.validAfter == epoch)) := by
  induction docs generalizing votes with
  | nil =>
    cases h
    exact ⟨hkeyed, by simp⟩
  | cons doc docs ih =>
    simp only [DirectoryAuthority.readVotes] at h
    split_ifs at h with hadmit
    simp only [DirectoryAuthority.admitsVote, Bool.and_eq_true, Bool.not_eq_true',
      Std.TreeMap.contains_eq_isSome_getElem?] at hadmit
    have hnew : votes[doc.validAfter]? = none := Option.isNone_iff_eq_none.mp
      (Option.isSome_eq_false_iff.mp hadmit.2)
    have hinsert : Votes.Keyed (votes.insert doc.validAfter doc) := by
      intro epoch d hd
      obtain ⟨hepoch, rfl⟩ | ⟨-, hd⟩ := getElem?_insert_cases hd
      · exact hepoch
      · exact hkeyed epoch d hd
    obtain ⟨hkeyed', hlookup⟩ := ih hinsert h
    refine ⟨hkeyed', fun epoch => ?_⟩
    rw [hlookup, Std.TreeMap.getElem?_insert, List.find?_cons]
    by_cases hepoch : doc.validAfter = epoch
    · subst hepoch
      simp [hnew]
    · have hbeq : (doc.validAfter == epoch) = false := by simp [hepoch]
      simp [hepoch, hbeq]

/-- A restart reads back what the file holds. -/
lemma lookup_loadVotes {S : DirectoryEnv} {a : DirectoryAuthority S}
    (h : a.loadVotes file = some votes) : votes.Keyed ∧ votes.lookup = file.lookup := by
  have hempty : (∅ : Votes).Keyed := fun epoch doc hdoc => by simp at hdoc
  cases file with
  | none =>
    cases h
    exact ⟨hempty, by funext; simp [Votes.lookup, VoteFile.lookup]⟩
  | some =>
    simp only [DirectoryAuthority.loadVotes] at h
    split_ifs at h
    obtain ⟨hkeyed, hlookup⟩ := lookup_readVotes hempty h
    exact ⟨hkeyed, by funext epoch; simp [Votes.lookup, VoteFile.lookup, hlookup]⟩

end Files

namespace DirectoryAuthority
variable {S : DirectoryEnv} {a : DirectoryAuthority S} {votes : Votes} {now : UInt64}
  {relays : List RelayDescriptor} {doc : ConsensusDocument}

lemma le_epochOf (h : ¬ votes.keys.any (epochOf now < ·) = true)
    (hepoch : votes.lookup epoch ≠ none) : epoch ≤ epochOf now := by
  by_contra hlt
  refine h (List.any_eq_true.mpr ⟨epoch, ?_, decide_eq_true (UInt64.not_le.mp hlt)⟩)
  rw [Std.TreeMap.mem_keys, Std.TreeMap.mem_iff_isSome_getElem?]
  exact Option.isSome_iff_ne_none.mpr hepoch

/-- What `frozen_view` returns is the vote it has for the latest epoch, or a new one. -/
lemma prepareVote_cases {next : Option Votes} (h : a.prepareVote votes now relays = .ok (doc, next)) :
    (∀ epoch, votes.lookup epoch ≠ none → epoch ≤ epochOf now) ∧
      (next = none ∧ votes[epochOf now]? = some doc ∨
        next = some (nextVotes votes (epochOf now) doc) ∧ votes[epochOf now]? = none ∧
          doc = a.newVote now (relays.filter (a.eligible now))) := by
  unfold prepareVote at h
  by_cases hrollback : votes.keys.any (epochOf now < ·) = true
  · rw [if_pos hrollback] at h
    cases h
  rw [if_neg hrollback] at h
  refine ⟨fun _ => le_epochOf hrollback, ?_⟩
  cases hvote : votes[epochOf now]? with
  | some =>
    simp only [hvote] at h
    split_ifs at h
    cases h
    exact .inl ⟨rfl, rfl⟩
  | none =>
    simp only [hvote] at h
    split_ifs at h
    cases h
    exact .inr ⟨rfl, rfl, rfl⟩

lemma validAfter_of_prepareVote {next : Option Votes} (hkeyed : votes.Keyed)
    (h : a.prepareVote votes now relays = .ok (doc, next)) : doc.validAfter = epochOf now := by
  obtain ⟨-, ⟨-, hold⟩ | ⟨-, -, rfl⟩⟩ := prepareVote_cases h
  · exact hkeyed _ _ hold
  · rfl

lemma lookup_nextVotes_self (votes : Votes) (epoch : UInt64) (doc : ConsensusDocument) :
    (nextVotes votes epoch doc).lookup epoch = some doc := by
  simp [Votes.lookup, nextVotes]

lemma keyed_nextVotes (hkeyed : votes.Keyed) (hdoc : doc.validAfter = epoch) :
    (nextVotes votes epoch doc).Keyed := by
  intro e d hd
  rw [nextVotes, Std.TreeMap.getElem?_insert, Std.TreeMap.getElem?_filter'] at hd
  split_ifs at hd with heq
  · cases hd
    exact hdoc.trans (Std.compare_eq_iff_eq.mp heq)
  · exact hkeyed e d (Option.filter_eq_some_iff.mp hd).1

/-- A new vote is later than all others, so dropping old ones loses nothing. -/
lemma extends_nextVotes
    (hle : ∀ e, votes.lookup e ≠ none → e ≤ epoch) (hnew : votes.lookup epoch = none) :
    votes.lookup.Extends (nextVotes votes epoch doc).lookup := by
  intro e d hd
  have hlt : e < epoch := by
    have hle := hle e (by simp [hd])
    have hne : e ≠ epoch := by
      rintro rfl
      rw [hnew] at hd
      cases hd
    grind
  exact .inr ⟨epoch, hlt, by simp [lookup_nextVotes_self]⟩

/-- What a call of `frozen_view` does: nothing, or an attempt to write a new vote. Without a file,
the new vote is kept in memory. -/
lemma frozenView_cases {write : WriteResult}
    {view : FrozenView} (h : a.frozenView votes file now relays write order = view) :
    ((∀ doc next, a.prepareVote votes now relays ≠ .ok (doc, some next)) ∧ view.votes = votes ∧
        view.file = file ∧
        ∀ doc, view.result = .ok doc → a.prepareVote votes now relays = .ok (doc, none)) ∨
      ∃ doc next, a.prepareVote votes now relays = .ok (doc, some next) ∧
        (a.votePath = true ∧ view.votes = write.published votes next ∧
            view.file = write.contents file (some (order.order (valuesOf next))) ∧
            (∀ d, view.result = .ok d → write = .done ∧ d = doc) ∨
          a.votePath = false ∧ view.votes = next ∧ view.file = file) := by
  subst h
  unfold frozenView
  cases hprepare : a.prepareVote votes now relays with
  | error => exact .inl ⟨by simp, rfl, rfl, by simp⟩
  | ok outcome =>
    obtain ⟨doc, next⟩ := outcome
    cases next with
    | none => exact .inl ⟨by simp, rfl, rfl, by simp⟩
    | some next =>
      refine .inr ⟨doc, next, rfl, ?_⟩
      cases hpath : a.votePath with
      | false => exact .inr ⟨rfl, by simp, by simp⟩
      | true =>
        refine .inl ⟨rfl, ?_⟩
        cases write with
        | done => exact ⟨rfl, rfl, by simp [eq_comm]⟩
        | failedBefore | failedAfter => exact ⟨rfl, rfl, by simp⟩

end DirectoryAuthority

namespace AuthorityState
variable {S : DirectoryEnv} {s s' : AuthorityState S}

/-- The votes of the process and of the file. A process that does not run will
start with those of the file. -/
def durable (s : AuthorityState S) : Durable VoteMap :=
  ⟨(s.process.map Votes.lookup).getD s.file.lookup, s.file.lookup⟩

structure Consistent (s : AuthorityState S) : Prop where
  votePath : s.authority.votePath = true
  keyed : ∀ votes ∈ s.process, votes.Keyed
  covers : s.durable.memory.Extends s.durable.file
  kept : ∀ doc ∈ s.returned, s.durable.Holds (·.Keeps doc)
  ordered : s.returned.Pairwise fun d d' =>
    d.validAfter ≤ d'.validAfter ∧ (d.validAfter = d'.validAfter → d = d')

/-- A process that starts has read the votes of the file. -/
lemma of_step_start {revoked : List Bytes} {requireUsableSnapshot readable : Bool}
    (h : s.step (.start revoked requireUsableSnapshot readable) = some s') :
    ∃ process, (∀ votes ∈ process, s.authority.loadVotes s.file = some votes) ∧ s.process = none ∧
      s' = { s with
        authority := { s.authority with
          revoked := revoked, requireUsableSnapshot := requireUsableSnapshot }
        process := process } := by
  simp only [step] at h
  cases hprocess : s.process with
  | some => simp [hprocess] at h
  | none =>
    simp only [hprocess, Option.some.injEq] at h
    refine ⟨_, fun votes hvotes => ?_, rfl, h.symm⟩
    rw [Option.mem_def] at hvotes
    split_ifs at hvotes
    exact hvotes

/-- A call of `frozen_view` is a step of the durable votes, and what it returns is
the vote in memory for the latest epoch. -/
lemma frozenView_spec {a : DirectoryAuthority S} {votes : Votes} {now : UInt64}
    {relays : List RelayDescriptor} {write : WriteResult}
    {view : FrozenView} (hpath : a.votePath = true) (hkeyed : votes.Keyed)
    (hview : a.frozenView votes file now relays write order = view) :
    (Durable.mk votes.lookup file.lookup).Step VoteMap.Extends ⟨view.votes.lookup, view.file.lookup⟩ ∧
      view.votes.Keyed ∧ ∀ doc, view.result = .ok doc →
        view.votes.lookup doc.validAfter = some doc ∧
        ∀ epoch old, votes.lookup epoch = some old → epoch ≤ doc.validAfter ∧
          (epoch = doc.validAfter → old = doc) := by
  obtain ⟨-, hvotes, hfile, hresult⟩ | ⟨doc, next, hprepare, ⟨-, hvotes, hfile, hresult⟩ | ⟨hno, -⟩⟩ :=
    DirectoryAuthority.frozenView_cases hview
  · rw [hvotes, hfile]
    refine ⟨.skip _, hkeyed, fun doc hdoc => ?_⟩
    have hprepare := hresult doc hdoc
    rw [DirectoryAuthority.validAfter_of_prepareVote hkeyed hprepare]
    obtain ⟨hle, ⟨-, hold⟩ | ⟨hnext, -⟩⟩ := DirectoryAuthority.prepareVote_cases hprepare
    · refine ⟨hold, fun epoch old hepoch => ⟨hle epoch (by simp [hepoch]), ?_⟩⟩
      rintro rfl
      exact Option.some.inj (hepoch.symm.trans hold)
    · cases hnext
  · have hafter := DirectoryAuthority.validAfter_of_prepareVote hkeyed hprepare
    obtain ⟨hle, ⟨hnext, -⟩ | ⟨hnext, hnew, -⟩⟩ := DirectoryAuthority.prepareVote_cases hprepare
    · cases hnext
    cases hnext
    have hext : votes.lookup.Extends (DirectoryAuthority.nextVotes votes _ doc).lookup :=
      DirectoryAuthority.extends_nextVotes hle hnew
    have hnextKeyed := DirectoryAuthority.keyed_nextVotes hkeyed hafter
    refine ⟨?_, ?_, fun d hd => ?_⟩
    · rw [hvotes, hfile, write.map_published Votes.lookup, write.map_contents VoteFile.lookup,
        lookup_values hnextKeyed]
      exact .write _ _ write hext
    · rw [hvotes]
      cases write <;> assumption
    · obtain ⟨rfl, rfl⟩ := hresult d hd
      rw [hvotes, hafter]
      refine ⟨DirectoryAuthority.lookup_nextVotes_self _ _ _, fun epoch old hepoch =>
        ⟨hle epoch (by simp [hepoch]), ?_⟩⟩
      rintro rfl
      rw [Votes.lookup, hnew] at hepoch
      cases hepoch
  · cases hpath.symm.trans hno

theorem Consistent.step {i : VoteInput} (h : s.Consistent) (hs : s.step i = some s') :
    s'.Consistent := by
  obtain ⟨a, process, file, returned⟩ := s
  obtain ⟨hpath, hkeyed, hcovers, hkept, hordered⟩ := h
  cases i with
  | crash =>
    cases hs
    have hd : (⟨a, process, file, returned⟩ : AuthorityState S).durable.Step VoteMap.Extends
        ⟨file.lookup, file.lookup⟩ := .restart _
    exact ⟨hpath, by simp, .refl _, fun doc hdoc => (hkept doc hdoc).step (fun _ _ => .mono) hd, hordered⟩
  | start =>
    obtain ⟨started, hstarted, hprocess, rfl⟩ := of_step_start hs
    subst hprocess
    -- whether it starts or not, the process will have the votes of the file
    cases started with
    | none => exact ⟨hpath, by simp, hcovers, hkept, hordered⟩
    | some votes =>
      obtain ⟨hvotes, hlookup⟩ := lookup_loadVotes (hstarted votes rfl)
      refine ⟨hpath, ?_, ?_, fun doc hdoc => ?_, hordered⟩
      · exact fun _ hv => Option.some.inj hv ▸ hvotes
      · simp only [durable, Option.map_some, Option.getD_some, hlookup]
        exact .refl _
      · have := hkept doc hdoc
        simp only [durable, Option.map_some, Option.getD_some, hlookup]
        exact this
  | frozenView now relays write order =>
    obtain ⟨votes, rfl, hs⟩ := Option.map_eq_some_iff.mp hs
    generalize hview : a.frozenView votes file now relays write order = view at hs
    obtain ⟨hd, hvotes, hresult⟩ := frozenView_spec hpath (hkeyed votes rfl) hview
    have hkeyed' : ∀ v ∈ some view.votes, v.Keyed := fun _ hv => Option.some.inj hv ▸ hvotes
    have hkept' : ∀ doc ∈ returned,
        (Durable.mk view.votes.lookup view.file.lookup).Holds (·.Keeps doc) :=
      fun doc hdoc => (hkept doc hdoc).step (fun _ _ => .mono) hd
    have hcovers' := hd.covers VoteMap.Extends.refl hcovers
    cases hres : view.result with
    | error =>
      simp only [hres] at hs
      subst hs
      exact ⟨hpath, hkeyed', hcovers', hkept', hordered⟩
    | ok doc =>
      simp only [hres] at hs
      subst hs
      obtain ⟨hmemory, hlatest⟩ := hresult doc hres
      refine ⟨hpath, hkeyed', hcovers', fun d hd => ?_, ?_⟩
      · rcases List.mem_append.mp hd with hd | hd
        · exact hkept' d hd
        · rw [List.mem_singleton.mp hd]
          have hkeeps : VoteMap.Keeps view.votes.lookup doc := .inl hmemory
          exact ⟨hkeeps, hkeeps.mono hcovers'⟩
      · refine List.pairwise_append.mpr
          ⟨hordered, List.pairwise_singleton _ _, fun d hd d' hd' => ?_⟩
        rw [List.mem_singleton.mp hd']
        rcases (hkept d hd).1 with hold | ⟨epoch, hlt, hsome⟩
        · exact hlatest d.validAfter d hold
        · obtain ⟨later, hlater⟩ := Option.ne_none_iff_exists'.mp hsome
          have hle := (hlatest epoch later hlater).1
          exact ⟨by grind, by grind⟩

theorem consistent_of_run {authorityId : String} {key : SigningKey S.toIdentityScheme}
    (h : Run step (stopped authorityId key file) s) : s.Consistent := by
  have hstart : (stopped authorityId key file).Consistent :=
    ⟨rfl, by rintro _ ⟨⟩, .refl _, by simp [stopped], .nil⟩
  exact h.invariant hstart fun _ _ _ hc _ hs => hc.step hs

/-- Two returned documents of one epoch are the same. -/
lemma Consistent.eq_of_validAfter (h : s.Consistent) {d d' : ConsensusDocument}
    (hd : d ∈ s.returned) (hd' : d' ∈ s.returned) (hafter : d.validAfter = d'.validAfter) :
    d = d' := by
  have hpair : s.returned.Pairwise fun d d' => d.validAfter = d'.validAfter → d = d' :=
    h.ordered.imp And.right
  have : Std.Symm fun d d' : ConsensusDocument => d.validAfter = d'.validAfter → d = d' :=
    ⟨fun _ _ h heq => (h heq.symm).symm⟩
  exact hpair.forall_of_forall (fun _ _ _ => rfl) hd hd' hafter

/-- Over every history of calls, failed writes, crashes and restarts, the epochs
of the returned documents never decrease, and two documents of one epoch are the
same. -/
theorem votes_never_equivocate {authorityId : String} {key : SigningKey S.toIdentityScheme}
    {file : VoteFile} (h : Run step (stopped authorityId key file) s) :
    s.returned.Pairwise fun d d' =>
      d.validAfter ≤ d'.validAfter ∧ (d.validAfter = d'.validAfter → d = d') :=
  (consistent_of_run h).ordered

/-- An authority votes, restarts, and is asked again in the same epoch, when it
knows a relay. -/
def restartedAuthority : AuthorityState sampleEnv :=
  (runInputs step (stopped "a" (sampleKey 1) none) [
    .start [] false true, .frozenView 1000 [] .done (.listed _), .crash, .start [] false true,
    .frozenView 1100 [sampleRelay 7] .done (.listed _)]).getD (stopped "a" (sampleKey 1) none)

theorem votes_never_equivocate_restart : restartedAuthority.returned.length = 2 ∧
    restartedAuthority.returned.Pairwise fun d d' =>
      d.validAfter ≤ d'.validAfter ∧ (d.validAfter = d'.validAfter → d = d') :=
  ⟨by decide +kernel, votes_never_equivocate (Run.getD_inputs _)⟩

end AuthorityState

end AnonGuard
