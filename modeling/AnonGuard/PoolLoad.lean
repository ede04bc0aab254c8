import AnonGuard.Durable
import AnonGuard.Maps
import AnonGuard.PoolNode

/-!
# Loading a directory into the client's pool

Copies of one document are merged, and the latest document with a quorum is
selected. It must not roll back the accepted one, its relays must pass all checks,
and its epoch must be on disk, before anything is published.
-/
namespace AnonGuard

structure AcceptedSnapshot where
  protocolVersion : ℕ
  epoch : UInt64
  digest : Bytes
  deriving DecidableEq, Repr

/-- The persistent entry guards: their endpoints, and the pins they had. -/
structure GuardState where
  protocolVersion : ℕ
  guards : List String
  identities : Std.TreeMap String Bytes

def GuardState.new : GuardState := ⟨6, [], ∅⟩

/-- The state of a pool in memory. `persistent` tells whether `init_guard_state` has
set the paths of the state files. -/
structure Pool where
  revoked : List Bytes
  nodes : List (String × ProxyNode)
  identityKeys : List (String × Bytes)
  guardCooldowns : List (Bytes × ℕ)
  consensusDeadline : UInt64
  acceptedSnapshot : Option AcceptedSnapshot
  guardState : GuardState
  persistent : Bool

namespace ConsensusDocument

/-- Whether `load_from_multi_consensus` looks at the document at all. -/
def admissible (d : ConsensusDocument) (currentTime : UInt64) : Bool :=
  d.relays.length ≤ MAX_DIRECTORY_RELAYS && d.signatures.length ≤ 16 && d.inWindow currentTime

/-- Enter a document into the map by digest: merge it, or add it as a new one. -/
def addSnapshot (S : DirectoryEnv) (snapshots : List ConsensusDocument) (doc : ConsensusDocument) :
    List ConsensusDocument :=
  if snapshots.any fun d => d.computeDigest S == doc.computeDigest S then
    snapshots.map fun d =>
      if d.computeDigest S = doc.computeDigest S then (d.mergeSignaturesFrom S doc).1 else d
  else snapshots ++ [doc]

def snapshotsOf (S : DirectoryEnv) (docs : List ConsensusDocument) (currentTime : UInt64) :
    List ConsensusDocument :=
  (docs.filter (·.admissible currentTime)).foldl (addSnapshot S) []

/-- The snapshots with a quorum, latest first. -/
def candidates (S : DirectoryEnv) (docs : List ConsensusDocument) (authorities : Authorities)
    (threshold : ℕ) (currentTime : UInt64) (order : HashOrder ConsensusDocument) :
    List ConsensusDocument :=
  ((order.order (snapshotsOf S docs currentTime)).filter
    (·.verifyQuorum S authorities threshold currentTime)).insertionSort
    fun a b => b.validAfter ≤ a.validAfter

def selectSnapshot (S : DirectoryEnv) (docs : List ConsensusDocument) (authorities : Authorities)
    (threshold : ℕ) (currentTime : UInt64) (order : HashOrder ConsensusDocument) :
    Except String ConsensusDocument :=
  if threshold = 0 ∨ threshold > authorities.size then .error "Invalid consensus quorum threshold"
  else if (valuesOf authorities).dedup.length ≠ authorities.size then
    .error "Authority signing keys must be independent"
  else
    match candidates S docs authorities threshold currentTime order with
    | [] => .error "No canonical directory snapshot reached quorum"
    | selected :: rest =>
      if (selected :: rest).any fun d => d.validAfter == selected.validAfter &&
          d.computeDigest S ≠ selected.computeDigest S then
        .error "Conflicting quorum-signed directory snapshots for one epoch"
      else .ok selected

/-- Whether the document is older than the accepted one, or of the same epoch with
another digest. -/
def rollsBack (S : DirectoryEnv) (d : ConsensusDocument) (accepted : Option AcceptedSnapshot) : Bool :=
  match accepted with
  | none => false
  | some previous => d.validAfter < previous.epoch ||
      (d.validAfter == previous.epoch && d.computeDigest S ≠ previous.digest)

def acceptedAs (S : DirectoryEnv) (d : ConsensusDocument) : AcceptedSnapshot :=
  ⟨6, d.validAfter, d.computeDigest S⟩

end ConsensusDocument

/-- The outcome of a load: its result, the pool, and the file of the accepted snapshot. -/
structure LoadOutcome where
  result : Except String ℕ
  pool : Pool
  file : Option AcceptedSnapshot

namespace Pool
variable (E : PoolEnv) (p : Pool)

/-- `load_from_multi_consensus` up to the write. -/
def prepareLoad (docs : List ConsensusDocument) (authorities : Authorities) (threshold : ℕ)
    (currentTime : UInt64) (order : HashOrder ConsensusDocument) :
    Except String (ConsensusDocument × Staged) :=
  match ConsensusDocument.selectSnapshot E.toDirectoryEnv docs authorities threshold currentTime
      order with
  | .error e => .error e
  | .ok selected =>
    if selected.rollsBack E.toDirectoryEnv p.acceptedSnapshot then
      .error "Directory rollback or same-epoch equivocation rejected"
    else
      match stageDirectory E p.revoked selected.relays with
      | .error e => .error e
      | .ok staged =>
        if staged.replacement = [] then .error "Directory contains no non-retired relays"
        else .ok (selected, staged)

def publish (selected : ConsensusDocument) (staged : Staged) : Pool :=
  { p with
    nodes := staged.replacement
    identityKeys := staged.replacementKeys
    acceptedSnapshot := some (selected.acceptedAs E.toDirectoryEnv)
    consensusDeadline := selected.validUntil }

def loadFromMultiConsensus (file : Option AcceptedSnapshot) (docs : List ConsensusDocument)
    (authorities : Authorities) (threshold : ℕ) (currentTime : UInt64)
    (order : HashOrder ConsensusDocument) (write : WriteResult) : LoadOutcome :=
  match p.prepareLoad E docs authorities threshold currentTime order with
  | .error e => ⟨.error e, p, file⟩
  | .ok (selected, staged) =>
    let loaded : LoadOutcome := ⟨.ok staged.replacement.length, p.publish E selected staged, file⟩
    if p.persistent then
      let contents := write.contents file (some (selected.acceptedAs E.toDirectoryEnv))
      match write with
      | .done => { loaded with file := contents }
      | .failedBefore e | .failedAfter e =>
        ⟨.error ("Cannot persist directory rollback state: " ++ e), p, contents⟩
    else loaded

end Pool

section Snapshots
variable {S : DirectoryEnv} {docs : List ConsensusDocument} {now : UInt64}

namespace ConsensusDocument

/-- Two documents that differ in their signatures only. -/
def SameContents (d d' : ConsensusDocument) : Prop :=
  d.validAfter = d'.validAfter ∧ d.validUntil = d'.validUntil ∧ d.relays = d'.relays

lemma SameContents.computeDigest {d d' : ConsensusDocument} (h : d.SameContents d') :
    d.computeDigest S = d'.computeDigest S := by
  obtain ⟨hafter, huntil, hrelays⟩ := h
  simp only [ConsensusDocument.computeDigest, contentBytes, hafter, huntil, hrelays]

lemma sameContents_merge (d other : ConsensusDocument) :
    (d.mergeSignaturesFrom S other).1.SameContents d := by
  unfold mergeSignaturesFrom
  split_ifs
  · exact ⟨rfl, rfl, rfl⟩
  · exact ⟨rfl, rfl, rfl⟩

/-- The copies of a document, merged into the first one. -/
def mergeCopies (S : DirectoryEnv) : List ConsensusDocument → Option ConsensusDocument
  | [] => none
  | d :: ds => some (ds.foldl (fun m d => (m.mergeSignaturesFrom S d).1) d)

lemma mergeCopies_concat (copies : List ConsensusDocument) (doc : ConsensusDocument) :
    mergeCopies S (copies ++ [doc]) =
      some (((mergeCopies S copies).map fun m => (m.mergeSignaturesFrom S doc).1).getD doc) := by
  cases copies with
  | nil => rfl
  | cons => simp [mergeCopies, List.foldl_append]

lemma sameContents_mergeCopies {copies : List ConsensusDocument} {m : ConsensusDocument}
    (h : mergeCopies S copies = some m) : ∃ d ds, copies = d :: ds ∧ m.SameContents d := by
  cases copies with
  | nil => cases h
  | cons d ds =>
    cases h
    refine ⟨d, ds, rfl, ?_⟩
    have hfold : ∀ m : ConsensusDocument,
        (ds.foldl (fun m d => (m.mergeSignaturesFrom S d).1) m).SameContents m := by
      induction ds with
      | nil => exact fun m => ⟨rfl, rfl, rfl⟩
      | cons d' ds ih =>
        intro m
        obtain ⟨hafter, huntil, hrelays⟩ := ih (m.mergeSignaturesFrom S d').1
        obtain ⟨hafter', huntil', hrelays'⟩ := sameContents_merge (S := S) m d'
        exact ⟨hafter.trans hafter', huntil.trans huntil', hrelays.trans hrelays'⟩
    exact hfold d

/-- The map holds, for every digest, the merged copies seen so far. -/
def Merged (S : DirectoryEnv) (snapshots seen : List ConsensusDocument) : Prop :=
  ∀ digest, snapshots.filter (·.computeDigest S = digest) =
    (mergeCopies S (seen.filter (·.computeDigest S = digest))).toList

lemma Merged.addSnapshot {snapshots seen : List ConsensusDocument} (h : Merged S snapshots seen)
    (doc : ConsensusDocument) :
    Merged S (ConsensusDocument.addSnapshot S snapshots doc) (seen ++ [doc]) := by
  intro digest
  have hmap : ∀ d : ConsensusDocument, (if d.computeDigest S = doc.computeDigest S then
      (d.mergeSignaturesFrom S doc).1 else d).computeDigest S = d.computeDigest S := by
    intro d
    split_ifs
    · exact (sameContents_merge d doc).computeDigest
    · rfl
  have hfilterMap : ∀ (x : Bytes) (l : List ConsensusDocument),
      (l.map fun d => if d.computeDigest S = doc.computeDigest S then
        (d.mergeSignaturesFrom S doc).1 else d).filter (·.computeDigest S = x) =
      (l.filter (·.computeDigest S = x)).map fun d =>
        if d.computeDigest S = doc.computeDigest S then (d.mergeSignaturesFrom S doc).1 else d := by
    intro x l
    rw [List.filter_map]
    congr 1
    refine List.filter_congr fun d _ => ?_
    simp only [Function.comp_apply, hmap]
  unfold ConsensusDocument.addSnapshot
  by_cases hdigest : doc.computeDigest S = digest
  · -- the document is merged into the copy with its digest, or it is the first one
    subst hdigest
    have hseen : (seen ++ [doc]).filter (·.computeDigest S = doc.computeDigest S) =
        seen.filter (·.computeDigest S = doc.computeDigest S) ++ [doc] := by simp
    rw [hseen, mergeCopies_concat]
    have hfilter := h (doc.computeDigest S)
    cases hmerged : mergeCopies S (seen.filter (·.computeDigest S = doc.computeDigest S)) with
    | none =>
      rw [hmerged] at hfilter
      have hany : ¬ snapshots.any (fun d => d.computeDigest S == doc.computeDigest S) = true := by
        rw [List.any_eq_true]
        rintro ⟨d, hd, heq⟩
        exact List.filter_eq_nil_iff.mp hfilter d hd (by simpa using heq)
      rw [if_neg hany, List.filter_append, hfilter]
      simp
    | some m =>
      rw [hmerged] at hfilter
      have hmem : m ∈ snapshots.filter (·.computeDigest S = doc.computeDigest S) := by
        rw [hfilter]
        exact List.mem_singleton_self m
      obtain ⟨hm, hmdigest⟩ := List.mem_filter.mp hmem
      have hany : snapshots.any (fun d => d.computeDigest S == doc.computeDigest S) = true :=
        List.any_eq_true.mpr ⟨m, hm, by simpa using hmdigest⟩
      rw [if_pos hany, hfilterMap, hfilter]
      simp [of_decide_eq_true hmdigest]
  · have hseen : (seen ++ [doc]).filter (·.computeDigest S = digest) =
        seen.filter (·.computeDigest S = digest) := by simp [hdigest]
    rw [hseen, ← h digest]
    split_ifs
    · rw [hfilterMap]
      refine (List.map_congr_left fun d hd => ?_).trans (List.map_id _)
      have hd' : d.computeDigest S = digest := of_decide_eq_true (List.mem_filter.mp hd).2
      rw [if_neg fun heq => hdigest (heq.symm.trans hd')]
      rfl
    · simp [hdigest]

lemma merged_snapshotsOf (docs : List ConsensusDocument) :
    Merged S (snapshotsOf S docs now) (docs.filter (·.admissible now)) := by
  have hfold : ∀ (l snapshots seen : List ConsensusDocument), Merged S snapshots seen →
      Merged S (l.foldl (ConsensusDocument.addSnapshot S) snapshots) (seen ++ l) := by
    intro l
    induction l with
    | nil => exact fun _ _ h => by simpa using h
    | cons doc l ih =>
      intro snapshots seen h
      have hrest := ih _ _ (h.addSnapshot doc)
      rwa [List.append_assoc] at hrest
  exact hfold _ [] [] fun _ => rfl

/-- Every snapshot has the contents of one of the documents. -/
lemma exists_of_mem_snapshotsOf {d : ConsensusDocument} (h : d ∈ snapshotsOf S docs now) :
    ∃ d₀ ∈ docs, d₀.admissible now = true ∧ d.SameContents d₀ := by
  have hmem : d ∈ (snapshotsOf S docs now).filter (·.computeDigest S = d.computeDigest S) :=
    List.mem_filter.mpr ⟨h, by simp⟩
  rw [merged_snapshotsOf, Option.mem_toList] at hmem
  obtain ⟨d₀, ds, hcopies, hsame⟩ := sameContents_mergeCopies hmem
  have hd₀ : d₀ ∈ (docs.filter (·.admissible now)).filter (·.computeDigest S = d.computeDigest S) := by
    rw [hcopies]
    exact List.mem_cons_self ..
  obtain ⟨hdocs, hadmissible⟩ := List.mem_filter.mp (List.mem_filter.mp hd₀).1
  exact ⟨d₀, hdocs, hadmissible, hsame⟩

variable {authorities : Authorities} {order : HashOrder ConsensusDocument}

lemma mem_candidates {d : ConsensusDocument} {threshold : ℕ}
    :
    d ∈ candidates S docs authorities threshold now order ↔
      d ∈ snapshotsOf S docs now ∧ d.verifyQuorum S authorities threshold now = true := by
  simp [candidates, List.mem_filter]

/-- What is selected is a candidate, and the other candidates of its epoch have its digest. -/
lemma selectSnapshot_eq_ok {threshold : ℕ} {selected : ConsensusDocument}
    (h : selectSnapshot S docs authorities threshold now order = .ok selected) :
    selected ∈ candidates S docs authorities threshold now order := by
  unfold selectSnapshot at h
  split_ifs at h
  cases hcandidates : candidates S docs authorities threshold now order with
  | nil => simp [hcandidates] at h
  | cons =>
    rw [hcandidates] at h
    dsimp only at h
    split_ifs at h
    cases h
    exact List.mem_cons_self ..

end ConsensusDocument

end Snapshots

namespace Pool
variable {E : PoolEnv} {p : Pool} {file : Option AcceptedSnapshot} {docs : List ConsensusDocument}
  {authorities : Authorities} {threshold : ℕ} {now : UInt64} {order : HashOrder ConsensusDocument}
  {write : WriteResult} {selected : ConsensusDocument} {staged : Staged}

lemma prepareLoad_eq_ok_iff :
    p.prepareLoad E docs authorities threshold now order = .ok (selected, staged) ↔
      ConsensusDocument.selectSnapshot E.toDirectoryEnv docs authorities threshold now order =
        .ok selected ∧ selected.rollsBack E.toDirectoryEnv p.acceptedSnapshot = false ∧
      stageDirectory E p.revoked selected.relays = .ok staged ∧ staged.replacement ≠ [] := by
  unfold prepareLoad
  constructor
  · intro h
    cases hselect : ConsensusDocument.selectSnapshot E.toDirectoryEnv docs authorities threshold now
        order with
    | error => simp [hselect] at h
    | ok d =>
      simp only [hselect] at h
      by_cases hback : d.rollsBack E.toDirectoryEnv p.acceptedSnapshot = true
      · simp [hback] at h
      · rw [if_neg hback] at h
        cases hstage : stageDirectory E p.revoked d.relays with
        | error => simp [hstage] at h
        | ok =>
          simp only [hstage] at h
          split_ifs at h with hempty
          cases h
          exact ⟨rfl, by simpa using hback, hstage, hempty⟩
  · rintro ⟨hselect, hback, hstage, hne⟩
    simp [hselect, hback, hstage, hne]

/-- A load fails and leaves the pool as it was, or publishes what it has prepared. -/
lemma load_cases (E : PoolEnv) (p : Pool) (file : Option AcceptedSnapshot)
    (docs : List ConsensusDocument) (authorities : Authorities) (threshold : ℕ) (now : UInt64)
    (order : HashOrder ConsensusDocument) (write : WriteResult) {out : LoadOutcome}
    (hout : p.loadFromMultiConsensus E file docs authorities threshold now order write = out) :
    (∃ e, out.result = .error e ∧ out.pool = p ∧ (out.file = file ∨
        ∃ selected staged, p.prepareLoad E docs authorities threshold now order =
          .ok (selected, staged) ∧ out.file = some (selected.acceptedAs E.toDirectoryEnv))) ∨
      ∃ selected staged, p.prepareLoad E docs authorities threshold now order = .ok (selected, staged) ∧
        out.result = .ok staged.replacement.length ∧ out.pool = p.publish E selected staged ∧
        out.file = if p.persistent then some (selected.acceptedAs E.toDirectoryEnv) else file := by
  subst hout
  unfold loadFromMultiConsensus
  cases hprepare : p.prepareLoad E docs authorities threshold now order with
  | error e => exact .inl ⟨e, rfl, rfl, .inl rfl⟩
  | ok loaded =>
    obtain ⟨selected, staged⟩ := loaded
    cases hpersistent : p.persistent with
    | false => exact .inr ⟨selected, staged, rfl, rfl, rfl, rfl⟩
    | true =>
      cases write with
      | done => exact .inr ⟨selected, staged, rfl, rfl, rfl, rfl⟩
      | failedBefore => exact .inl ⟨_, rfl, rfl, .inl rfl⟩
      | failedAfter => exact .inl ⟨_, rfl, rfl, .inr ⟨selected, staged, rfl, rfl⟩⟩

lemma publishes_of_stage (hstage : stageDirectory E p.revoked selected.relays = .ok staged) :
    Publishes E (live p.revoked selected.relays) staged.replacement staged.replacementKeys := by
  unfold stageDirectory at hstage
  split_ifs at hstage
  exact (Staged.holds_empty.addAll hstage).publishes

/-- A load that fails changes nothing in memory. A load that succeeds publishes
exactly the relays of one document with a quorum that are not retired. -/
theorem load_all_or_nothing (E : PoolEnv) (p : Pool) (file : Option AcceptedSnapshot)
    (docs : List ConsensusDocument) (authorities : Authorities) (threshold : ℕ) (now : UInt64)
    (order : HashOrder ConsensusDocument) (write : WriteResult) {out : LoadOutcome}
    (hout : p.loadFromMultiConsensus E file docs authorities threshold now order write = out) :
    (∀ e, out.result = .error e → out.pool = p) ∧
      ∀ k, out.result = .ok k → ∃ doc : ConsensusDocument,
        doc.verifyQuorum E.toDirectoryEnv authorities threshold now = true ∧
        (∃ d ∈ docs, doc.SameContents d) ∧ (live p.revoked doc.relays).length = k ∧
        Publishes E (live p.revoked doc.relays) out.pool.nodes out.pool.identityKeys ∧
        out.pool.nodes.length = k ∧ out.pool.identityKeys.length = k := by
  obtain ⟨e, hresult, hpool, -⟩ | ⟨selected, staged, hprepare, hresult, hpool, -⟩ :=
    load_cases E p file docs authorities threshold now order write hout
  · refine ⟨fun _ _ => hpool, fun k hk => ?_⟩
    rw [hresult] at hk
    cases hk
  · refine ⟨fun e he => ?_, fun k hk => ?_⟩
    · rw [hresult] at he
      cases he
    · rw [hresult, Except.ok.injEq] at hk
      obtain ⟨hselect, -, hstage, -⟩ := prepareLoad_eq_ok_iff.mp hprepare
      obtain ⟨hsnapshot, hquorum⟩ :=
        ConsensusDocument.mem_candidates.mp (ConsensusDocument.selectSnapshot_eq_ok hselect)
      obtain ⟨d, hd, -, hsame⟩ := ConsensusDocument.exists_of_mem_snapshotsOf hsnapshot
      have hpublishes := publishes_of_stage hstage
      rw [hpool]
      refine ⟨selected, hquorum, ⟨d, hd, hsame⟩, ?_, hpublishes, hk, ?_⟩
      · rw [hpublishes.listed.length_eq, hk]
      · rw [publish, ← hpublishes.pinned.length_eq, hpublishes.listed.length_eq, hk]

/-- A new pool. -/
def new (revoked : List Bytes) : Pool := ⟨revoked, [], [], [], 0, none, .new, true⟩

/-- A directory of the given relays that two authorities have signed. -/
def sampleDirectory (epoch : UInt64) (relays : List RelayDescriptor) : ConsensusDocument :=
  ((ConsensusDocument.mk epoch (epoch + 600) relays []).signWithAuthority "a"
    (sampleKey 11)).signWithAuthority "b" (sampleKey 12)

def twoAuthorities : Authorities :=
  ((∅ : Authorities).insert "a" (sampleKey 11).verifyingKey).insert "b" (sampleKey 12).verifyingKey

/-- Three relays, one of them retired. -/
theorem load_without_retired :
    ∃ doc : ConsensusDocument, doc.verifyQuorum samplePool.toDirectoryEnv twoAuthorities 2 1000 = true ∧
      Publishes samplePool (live [(poolRelay 3).identityPin] doc.relays)
        ((new [(poolRelay 3).identityPin]).loadFromMultiConsensus samplePool none
          [sampleDirectory 900 [poolRelay 1, poolRelay 2, poolRelay 3]] twoAuthorities 2 1000
          (.listed _) .done).pool.nodes
        ((new [(poolRelay 3).identityPin]).loadFromMultiConsensus samplePool none
          [sampleDirectory 900 [poolRelay 1, poolRelay 2, poolRelay 3]] twoAuthorities 2 1000
          (.listed _) .done).pool.identityKeys := by
  obtain ⟨doc, hquorum, -, -, hpublishes, -⟩ := (load_all_or_nothing samplePool
    (new [(poolRelay 3).identityPin]) none
    [sampleDirectory 900 [poolRelay 1, poolRelay 2, poolRelay 3]] twoAuthorities 2 1000 (.listed _)
    .done rfl).2 2 (by decide +kernel)
  exact ⟨doc, hquorum, hpublishes⟩

end Pool

end AnonGuard
