import AnonGuard.PoolChain
import AnonGuard.PoolQuorum
import AnonGuard.Transition

/-!
# The client's pool over restarts

The pool takes directories, selects chains, and may stop at any point. The accepted
snapshot and the entry guards are written to files before they are used, and a new
process reads them back. So snapshots never go back, and the guards never change once
a chain has been returned.
-/
namespace AnonGuard

/-- The guard file as a new process takes it. -/
def GuardState.loadChecked (error : Option String) (file : Option GuardState) :
    Except String GuardState :=
  match error, file with
  | some e, _ => .error ("Cannot read persistent guard state: " ++ e)
  | none, none => .ok .new
  | none, some state =>
    if state.protocolVersion ≠ 6 then
      .error "Unsupported guard identity format; explicit migration required"
    else .ok state

/-- The file of the accepted snapshot as a new process takes it. -/
def AcceptedSnapshot.loadChecked (error : Option String) (file : Option AcceptedSnapshot) :
    Except String (Option AcceptedSnapshot) :=
  match error, file with
  | some e, _ => .error ("Cannot read directory rollback state: " ++ e)
  | none, none => .ok none
  | none, some state =>
    if state.protocolVersion ≠ 6 then .error "Directory rollback state needs explicit v6 migration"
    else .ok (some state)

namespace Pool

/-- A pool that no state files belong to yet. -/
def withRevokedIdentities (revoked : List Bytes) : Pool := { Pool.new revoked with persistent := false }

/-- Take over the state files. The errors are those of reading them, if any. -/
def initGuardState (p : Pool) (snapshotError guardError : Option String)
    (snapshotFile : Option AcceptedSnapshot) (guardFile : Option GuardState) : Except String Pool :=
  if p.persistent then .ok p
  else
    match AcceptedSnapshot.loadChecked snapshotError snapshotFile with
    | .error e => .error e
    | .ok accepted =>
      match GuardState.loadChecked guardError guardFile with
      | .error e => .error e
      | .ok state =>
        .ok { p with acceptedSnapshot := accepted, guardState := state, persistent := true }

/-- The cooldown of a guard after a failed link, in nanoseconds. -/
def GUARD_COOLDOWN : ℕ := 60 * 10 ^ 9

def noteGuardLinkFailure (p : Pool) (identity : Bytes) (instant : ℕ) : Pool :=
  { p with guardCooldowns := (identity, instant + GUARD_COOLDOWN) ::
      p.guardCooldowns.filter fun entry => entry.2 > instant && entry.1 ≠ identity }

/-- The nodes after a failure of the one with the given URL. -/
def markBlocked (blockedUrl : String) : List (String × ProxyNode) → List (String × ProxyNode)
  | [] => []
  | (key, node) :: rest =>
    if node.rawUrl = blockedUrl then
      let failures := node.failureCount + 1
      (key, { node with
        failureCount := failures
        isAlive := if failures ≥ 3 then false else node.isAlive }) :: rest
    else (key, node) :: markBlocked blockedUrl rest

end Pool

/-- Where the entry of a chain comes from: the pins of the directory, or the bindings. -/
inductive EntrySource
  | directory (keys : List (String × Bytes))
  | bridges (bindings : List BridgeTransport)

/-- A chain that has been returned. -/
structure ReturnedChain where
  source : EntrySource
  chain : List ProxyNode

/-- The first node has one of the stored pins. -/
def ReturnedChain.FirstPinned (E : PoolEnv) (r : ReturnedChain) (g : GuardState) : Prop :=
  match r.source with
  | .directory keys => ∃ first pin, r.chain.head? = some first ∧ keys.lookup first.key = some pin ∧
      pin ∈ g.pins
  | .bridges bindings => ∃ first, ∃ b ∈ bindings, r.chain.head? = some first ∧
      b.entryNode E = .ok first ∧ b.identity ∈ g.pins

/-- A client: its pool while the process runs, and its files. `loads` and `chains` record
what loads and selections have returned. -/
structure PoolState where
  running : Option Pool
  snapshotFile : Option AcceptedSnapshot
  guardFile : Option GuardState
  loads : List AcceptedSnapshot
  chains : List ReturnedChain

inductive PoolInput
  | start (revoked : List Bytes) (snapshotError guardError : Option String)
  | crash
  | load (docs : List ConsensusDocument) (authorities : Authorities) (threshold : ℕ) (now : UInt64)
      (order : HashOrder ConsensusDocument) (write : WriteResult)
  | selectPublic (req : ChainRequest) (now : UInt64) (instant : ℕ) (rand : Randomness)
      (write : WriteResult)
  | selectBridge (bindings : List BridgeTransport) (enforceDiversity : Bool) (minHops maxHops : ℕ)
      (now : UInt64) (instant : ℕ) (rand : Randomness) (write : WriteResult)
  | linkFailure (identity : Bytes) (instant : ℕ)
  | blocked (url : String)

namespace PoolState
variable (E : PoolEnv)

/-- A client that is not running, with the files that it finds. -/
def stopped (snapshotFile : Option AcceptedSnapshot) (guardFile : Option GuardState) : PoolState :=
  ⟨none, snapshotFile, guardFile, [], []⟩

def select (s : PoolState) (p : Pool) (source : EntrySource) (sel : Selection) : PoolState :=
  { s with
    running := some { p with guardState := sel.guardState }
    guardFile := sel.guardFile
    chains := s.chains ++ if sel.chain = [] then [] else [⟨source, sel.chain⟩] }

def load (s : PoolState) (out : LoadOutcome) : PoolState :=
  { s with
    running := some out.pool
    snapshotFile := out.file
    loads := s.loads ++ match out.result with
      | .ok _ => out.pool.acceptedSnapshot.toList
      | .error _ => [] }

def step (s : PoolState) : PoolInput → Option PoolState
  | .start revoked snapshotError guardError =>
    match s.running with
    | some _ => none
    | none =>
      match (Pool.withRevokedIdentities revoked).initGuardState snapshotError guardError
          s.snapshotFile s.guardFile with
      | .error _ => some s
      | .ok p => some { s with running := some p }
  | .crash => some { s with running := none }
  | .load docs authorities threshold now order write => s.running.map fun p =>
    s.load (p.loadFromMultiConsensus E s.snapshotFile docs authorities threshold now order write)
  | .selectPublic req now instant rand write => s.running.map fun p =>
    s.select p (.directory p.identityKeys)
      (p.getOnionChainWithEntryPins E s.guardFile req now instant rand write)
  | .selectBridge bindings enforceDiversity minHops maxHops now instant rand write =>
    s.running.map fun p => s.select p (.bridges bindings)
      (p.getPrivateBridgeChainWithBounds E s.guardFile bindings enforceDiversity minHops maxHops now
        instant rand write)
  | .linkFailure identity instant => s.running.map fun p =>
    { s with running := some (p.noteGuardLinkFailure identity instant) }
  | .blocked url => s.running.map fun p =>
    { s with running := some { p with nodes := Pool.markBlocked url p.nodes } }

/-- The guards in memory and on disk. A process that does not run remembers what it
would read. -/
def guards (s : PoolState) : Durable GuardState :=
  let file := s.guardFile.getD .new
  ⟨(s.running.map (·.guardState)).getD file, file⟩

/-- The accepted snapshot in memory and on disk. -/
def snapshots (s : PoolState) : Durable (Option AcceptedSnapshot) :=
  ⟨(s.running.map (·.acceptedSnapshot)).getD s.snapshotFile, s.snapshotFile⟩

/-- A running pool has its state files, and no nodes without pins. -/
def WellFormed (s : PoolState) : Prop :=
  ∀ p, s.running = some p → p.persistent = true ∧ (p.identityKeys = [] → p.nodes = [])

end PoolState

section Init
variable {p p' : Pool} {snapshotError guardError : Option String}
  {snapshotFile : Option AcceptedSnapshot} {guardFile : Option GuardState}

lemma GuardState.loadChecked_eq_ok {g : GuardState}
    (h : GuardState.loadChecked guardError guardFile = .ok g) : g = guardFile.getD .new := by
  unfold GuardState.loadChecked at h
  split at h
  · cases h
  · cases h
    rfl
  · split_ifs at h
    cases h
    rfl

lemma AcceptedSnapshot.loadChecked_eq_ok {a : Option AcceptedSnapshot}
    (h : AcceptedSnapshot.loadChecked snapshotError snapshotFile = .ok a) : a = snapshotFile := by
  unfold AcceptedSnapshot.loadChecked at h
  split at h
  · cases h
  · cases h
    rfl
  · split_ifs at h
    cases h
    rfl

/-- A new process goes on with what its files hold. -/
lemma Pool.initGuardState_eq_ok (hp : p.persistent = false)
    (h : p.initGuardState snapshotError guardError snapshotFile guardFile = .ok p') :
    p' = { p with
      acceptedSnapshot := snapshotFile, guardState := guardFile.getD .new, persistent := true } := by
  unfold Pool.initGuardState at h
  rw [if_neg (by simp [hp])] at h
  cases hsnapshot : AcceptedSnapshot.loadChecked snapshotError snapshotFile with
  | error => simp [hsnapshot] at h
  | ok =>
    cases hguards : GuardState.loadChecked guardError guardFile with
    | error => simp [hsnapshot, hguards] at h
    | ok =>
      simp only [hsnapshot, hguards, Except.ok.injEq] at h
      rw [← h, AcceptedSnapshot.loadChecked_eq_ok hsnapshot, GuardState.loadChecked_eq_ok hguards]

lemma Pool.markBlocked_eq_nil {url : String} {nodes : List (String × ProxyNode)} :
    Pool.markBlocked url nodes = [] ↔ nodes = [] := by
  cases nodes with
  | nil => simp [Pool.markBlocked]
  | cons =>
    unfold Pool.markBlocked
    split_ifs <;> simp

end Init

/-- What every selection does: it leaves the guards, or stores the first ones. A chain
with enough hops enters through one of them. -/
structure Pool.Selects (E : PoolEnv) (hops : Prop) (p : Pool) (file : Option GuardState)
    (source : EntrySource) (sel : Selection) : Prop where
  guards : Durable.Step GuardState.Extends ⟨p.guardState, file.getD .new⟩
    ⟨sel.guardState, sel.guardFile.getD .new⟩
  entry : hops → sel.chain ≠ [] → sel.guardState.guards ≠ [] ∧
    (ReturnedChain.mk source sel.chain).FirstPinned E sel.guardState

namespace Pool
variable {E : PoolEnv} {p : Pool} {file : Option GuardState} {instant : ℕ} {rand : Randomness}
  {write : WriteResult}

/-- The guards that a selection has stored, or tried to. -/
lemma step_of_saveGuards (hpersistent : p.persistent = true) {next : GuardState} {saved : Bool}
    {sel : Selection} (hnext : p.guardState.guards = [] → p.guardState.Extends next)
    (hsave : p.saveGuards file next write = (saved, sel.guardState, sel.guardFile)) :
    Durable.Step GuardState.Extends ⟨p.guardState, file.getD .new⟩
      ⟨sel.guardState, sel.guardFile.getD .new⟩ := by
  have hstep := saveGuards_step file write hpersistent hnext
  rwa [hsave] at hstep

lemma selects_onionChain (hpersistent : p.persistent = true)
    (hkeys : p.identityKeys = [] → p.nodes = []) {req : ChainRequest} :
    p.Selects E (2 ≤ req.minHops) file (.directory p.identityKeys)
      (p.onionChain E file req instant rand write) := by
  rcases onionChain_cases (E := E) (p := p) rfl with
    ⟨hstate, hfile, hchain⟩ | ⟨middles, saved, hmem, hsave, hchain⟩
  · refine ⟨?_, fun hmin hne => absurd (hchain hmin) hne⟩
    rw [hstate, hfile]
    exact .skip _
  · refine ⟨step_of_saveGuards hpersistent extends_newGuards hsave, fun hmin hne => ?_⟩
    obtain ⟨guard, hguard, hhead⟩ := hchain hmin hne
    have hmiddles : p.identityKeys = [] → guard ∉ middles := by
      intro hempty hn
      have hn' := hmem guard hn
      simp [healthy, hkeys hempty] at hn'
    obtain ⟨pin, hpin, hlookup, -⟩ := pin_of_entryGuard hmiddles hguard
    exact ⟨GuardState.guards_ne_nil hpin, guard, pin, hhead, hlookup, hpin⟩

lemma selects_public (hpersistent : p.persistent = true)
    (hkeys : p.identityKeys = [] → p.nodes = []) {req : ChainRequest} (now : UInt64) :
    p.Selects E (2 ≤ req.minHops) file (.directory p.identityKeys)
      (p.getOnionChainWithEntryPins E file req now instant rand write) := by
  unfold getOnionChainWithEntryPins
  split_ifs
  · exact ⟨.skip _, fun _ h => absurd rfl h⟩
  · exact selects_onionChain hpersistent hkeys

lemma selects_bridge (hpersistent : p.persistent = true) {bindings : List BridgeTransport}
    {enforceDiversity : Bool} {minHops maxHops : ℕ} {now : UInt64} :
    p.Selects E True file (.bridges bindings) (p.getPrivateBridgeChainWithBounds E file bindings
      enforceDiversity minHops maxHops now instant rand write) := by
  rcases bridgeChain_cases (E := E) (p := p) rfl with hrefused | ⟨saved, hsave, hchain⟩
  · rw [hrefused]
    exact ⟨.skip _, fun _ h => absurd rfl h⟩
  · refine ⟨step_of_saveGuards hpersistent extends_bridges hsave, fun _ hne => ?_⟩
    obtain ⟨b, entry, hbinding, hentry, hhead⟩ := hchain hne
    obtain ⟨hb, hguard, hidentity, -⟩ := stored_of_entryBinding hbinding
    have hpin := List.mem_filterMap.mpr ⟨_, hguard, hidentity⟩
    exact ⟨GuardState.guards_ne_nil hpin, entry, b, hb, hhead, hentry, hpin⟩

lemma Selects.mono {hops hops' : Prop} {source : EntrySource} {sel : Selection}
    (h : p.Selects E hops file source sel) (hle : hops' → hops) :
    p.Selects E hops' file source sel :=
  ⟨h.guards, fun hhops => h.entry (hle hhops)⟩

end Pool

namespace PoolState
variable {E : PoolEnv} {s s' : PoolState} {i : PoolInput} {hops : Prop}

/-- A selection asks for three hops or more. -/
def ThreeHops : PoolState → PoolInput → Prop
  | _, .selectPublic req .. => 3 ≤ req.minHops
  | _, .selectBridge _ _ minHops .. => 3 ≤ minHops
  | _, _ => True

/-- Everything that a step can do. -/
inductive Effect (E : PoolEnv) (hops : Prop) (s : PoolState) : PoolState → Prop
  | idle : Effect E hops s s
  | started (p : Pool) (hstopped : s.running = none) (hsnapshot : p.acceptedSnapshot = s.snapshotFile)
      (hguards : p.guardState = s.guardFile.getD .new) (hpersistent : p.persistent = true)
      (hnodes : p.nodes = []) : Effect E hops s { s with running := some p }
  | crashed : Effect E hops s { s with running := none }
  | loaded (p : Pool) (hp : s.running = some p) (docs : List ConsensusDocument)
      (authorities : Authorities) (threshold : ℕ) (now : UInt64)
      (order : HashOrder ConsensusDocument) (write : WriteResult) :
      Effect E hops s (s.load (p.loadFromMultiConsensus E s.snapshotFile docs authorities threshold now
        order write))
  | selected (p : Pool) (hp : s.running = some p) (source : EntrySource) (sel : Selection)
      (hsel : p.Selects E hops s.guardFile source sel) : Effect E hops s (s.select p source sel)
  | touched (p p' : Pool) (hp : s.running = some p) (hsnapshot : p'.acceptedSnapshot = p.acceptedSnapshot)
      (hguards : p'.guardState = p.guardState) (hpersistent : p'.persistent = p.persistent)
      (hkeys : p'.identityKeys = p.identityKeys) (hnodes : p'.nodes = [] ↔ p.nodes = []) :
      Effect E hops s { s with running := some p' }

lemma start_cases {revoked : List Bytes} {snapshotError guardError : Option String}
    (h : step E s (.start revoked snapshotError guardError) = some s') :
    s.running = none ∧ (s' = s ∨ s' = { s with running := some { Pool.withRevokedIdentities revoked with
      acceptedSnapshot := s.snapshotFile, guardState := s.guardFile.getD .new, persistent := true } }) := by
  unfold step at h
  cases hrunning : s.running with
  | some => simp [hrunning] at h
  | none =>
    simp only [hrunning] at h
    cases hinit : (Pool.withRevokedIdentities revoked).initGuardState snapshotError guardError
        s.snapshotFile s.guardFile with
    | error =>
      simp only [hinit, Option.some.injEq] at h
      exact ⟨rfl, .inl h.symm⟩
    | ok =>
      simp only [hinit, Option.some.injEq] at h
      rw [Pool.initGuardState_eq_ok rfl hinit] at h
      exact ⟨rfl, .inr h.symm⟩

lemma effect_of_step (hwf : s.WellFormed) (h : step E s i = some s') :
    Effect E (ThreeHops s i) s s' := by
  cases i with
  | start =>
    obtain ⟨hstopped, rfl | rfl⟩ := start_cases h
    · exact .idle
    · exact .started _ hstopped rfl rfl rfl rfl
  | crash =>
    cases h
    exact .crashed
  | load docs authorities threshold now order write =>
    obtain ⟨p, hp, rfl⟩ := Option.map_eq_some_iff.mp h
    exact .loaded p hp docs authorities threshold now order write
  | selectPublic req now =>
    obtain ⟨p, hp, rfl⟩ := Option.map_eq_some_iff.mp h
    obtain ⟨hpersistent, hkeys⟩ := hwf p hp
    refine .selected p hp _ _ ((Pool.selects_public hpersistent hkeys now).mono fun hhops => ?_)
    have hmin : 3 ≤ req.minHops := hhops
    omega
  | selectBridge =>
    obtain ⟨p, hp, rfl⟩ := Option.map_eq_some_iff.mp h
    exact .selected p hp _ _ ((Pool.selects_bridge (hwf p hp).1).mono fun _ => trivial)
  | linkFailure =>
    obtain ⟨p, hp, rfl⟩ := Option.map_eq_some_iff.mp h
    exact .touched p _ hp rfl rfl rfl rfl Iff.rfl
  | blocked =>
    obtain ⟨p, hp, rfl⟩ := Option.map_eq_some_iff.mp h
    exact .touched p _ hp rfl rfl rfl rfl Pool.markBlocked_eq_nil

/-- Only a load changes the directory of a process that goes on running. -/
lemma directory_kept {p p' : Pool} (h : step E s i = some s') (hp : s.running = some p)
    (hp' : s'.running = some p') (hload : ∀ docs authorities threshold now order write,
      i ≠ .load docs authorities threshold now order write) :
    p'.identityKeys = p.identityKeys ∧ p'.consensusDeadline = p.consensusDeadline ∧
      p'.revoked = p.revoked ∧ p'.acceptedSnapshot = p.acceptedSnapshot := by
  cases i with
  | start => simp [step, hp] at h
  | crash =>
    cases h
    cases hp'
  | load => exact absurd rfl (hload _ _ _ _ _ _)
  | selectPublic | selectBridge | linkFailure | blocked =>
    simp only [step, hp, Option.map_some, Option.some.injEq] at h
    subst h
    obtain rfl := Option.some.inj hp'
    exact ⟨rfl, rfl, rfl, rfl⟩

lemma Effect.wellFormed (hwf : s.WellFormed) (h : Effect E hops s s') : s'.WellFormed := by
  cases h with
  | idle => exact hwf
  | started p hstopped hsnapshot hguards hpersistent hnodes =>
    intro q hq
    obtain rfl := Option.some.inj hq
    exact ⟨hpersistent, fun _ => hnodes⟩
  | crashed =>
    intro q hq
    cases hq
  | loaded p hp docs authorities threshold now order write =>
    intro q hq
    obtain rfl := Option.some.inj hq
    obtain ⟨hpersistent, hkeys⟩ := hwf p hp
    obtain ⟨e, -, hpool, -⟩ | ⟨selected, staged, hprepare, -, hpool, -⟩ :=
      Pool.load_cases E p s.snapshotFile docs authorities threshold now order write rfl
    · rw [hpool]
      exact ⟨hpersistent, hkeys⟩
    · rw [hpool]
      refine ⟨hpersistent, fun hempty => ?_⟩
      obtain ⟨-, -, hstage, hne⟩ := Pool.prepareLoad_eq_ok_iff.mp hprepare
      have hpublishes := Pool.publishes_of_stage hstage
      have hlength : staged.replacement.length = staged.replacementKeys.length :=
        hpublishes.listed.length_eq.symm.trans hpublishes.pinned.length_eq
      have hnone : staged.replacementKeys = [] := hempty
      rw [hnone, List.length_nil, List.length_eq_zero_iff] at hlength
      exact absurd hlength hne
  | selected p hp =>
    intro q hq
    obtain rfl := Option.some.inj hq
    exact hwf p hp
  | touched p p' hp hsnapshot hguards hpersistent hkeys hnodes =>
    intro q hq
    obtain rfl := Option.some.inj hq
    rw [hpersistent, hkeys, hnodes]
    exact hwf p hp

lemma Effect.guards (h : Effect E hops s s') :
    Durable.Step GuardState.Extends s.guards s'.guards := by
  cases h with
  | idle => exact .skip _
  | started p hstopped _ hguards | touched _ p hstopped _ hguards =>
    have hsame : PoolState.guards { s with running := some p } = s.guards := by
      simp [PoolState.guards, hstopped, hguards]
    rw [hsame]
    exact .skip _
  | crashed => exact .restart _
  | loaded p hp docs authorities threshold now order write =>
    have hkept : (p.loadFromMultiConsensus E s.snapshotFile docs authorities threshold now order
        write).pool.guardState = p.guardState := by
      obtain ⟨e, -, hpool, -⟩ | ⟨selected, staged, -, -, hpool, -⟩ :=
        Pool.load_cases E p s.snapshotFile docs authorities threshold now order write rfl
      · rw [hpool]
      · rw [hpool]
        rfl
    have hsame : (s.load (p.loadFromMultiConsensus E s.snapshotFile docs authorities threshold now
        order write)).guards = s.guards := by
      simp [PoolState.guards, PoolState.load, hp, hkept]
    rw [hsame]
    exact .skip _
  | selected p hp source sel hsel =>
    have hbefore : s.guards = ⟨p.guardState, s.guardFile.getD .new⟩ := by
      simp [PoolState.guards, hp]
    rw [hbefore]
    exact hsel.guards

end PoolState

/-- A later snapshot, or the same one. -/
def AcceptedSnapshot.Precedes (a b : AcceptedSnapshot) : Prop :=
  a.epoch < b.epoch ∨ a.epoch = b.epoch ∧ a.digest = b.digest

/-- What the accepted snapshot may change to. -/
def AcceptedSnapshot.Extends (a b : Option AcceptedSnapshot) : Prop :=
  ∀ x, a = some x → ∃ y, b = some y ∧ x.Precedes y

lemma AcceptedSnapshot.Precedes.trans {a b c : AcceptedSnapshot} (h : a.Precedes b)
    (h' : b.Precedes c) : a.Precedes c := by
  unfold Precedes at *
  grind

namespace PoolState
variable {E : PoolEnv} {s s' : PoolState} {i : PoolInput} {hops : Prop}
  {snapshotFile : Option AcceptedSnapshot} {guardFile : Option GuardState}

/-- A directory that a load prepares does not precede the accepted one. -/
lemma extends_of_prepareLoad {p : Pool} {docs : List ConsensusDocument} {authorities : Authorities}
    {threshold : ℕ} {now : UInt64} {order : HashOrder ConsensusDocument}
    {selected : ConsensusDocument} {staged : Staged}
    (h : p.prepareLoad E docs authorities threshold now order = .ok (selected, staged)) :
    AcceptedSnapshot.Extends p.acceptedSnapshot (some (selected.acceptedAs E.toDirectoryEnv)) := by
  obtain ⟨-, hback, -, -⟩ := Pool.prepareLoad_eq_ok_iff.mp h
  exact fun x hx => ⟨_, rfl, Pool.rollsBack_eq_false.mp hback x hx⟩

/-- A step extends the accepted snapshot, and a load that succeeds leaves its snapshot in
both places. -/
lemma Effect.snapshots (hwf : s.WellFormed) (h : Effect E hops s s') :
    Durable.Step AcceptedSnapshot.Extends s.snapshots s'.snapshots ∧ (s'.loads = s.loads ∨
      ∃ a, s'.loads = s.loads ++ [a] ∧ s'.snapshots = ⟨some a, some a⟩) := by
  cases h with
  | idle => exact ⟨.skip _, .inl rfl⟩
  | started p hstopped hsnapshot | touched _ p hstopped hsnapshot =>
    have hsame : PoolState.snapshots { s with running := some p } = s.snapshots := by
      simp [PoolState.snapshots, hstopped, hsnapshot]
    rw [hsame]
    exact ⟨.skip _, .inl rfl⟩
  | crashed => exact ⟨.restart _, .inl rfl⟩
  | loaded p hp docs authorities threshold now order write =>
    have hbefore : s.snapshots = ⟨p.acceptedSnapshot, s.snapshotFile⟩ := by
      simp [PoolState.snapshots, hp]
    obtain ⟨e, hresult, hpool, hfile⟩ | ⟨selected, staged, hprepare, hresult, hpool, hfile⟩ :=
      Pool.load_cases E p s.snapshotFile docs authorities threshold now order write rfl
    · refine ⟨?_, .inl (by simp [PoolState.load, hresult])⟩
      rw [hbefore]
      simp only [PoolState.snapshots, PoolState.load, hpool, Option.map_some,
        Option.getD_some]
      obtain hfile | ⟨selected, staged, hprepare, hfile⟩ := hfile
      · rw [hfile]
        exact .skip _
      · rw [hfile]
        exact Durable.Step.write (R := AcceptedSnapshot.Extends) ⟨_, _⟩ _ (.failedAfter e)
          (extends_of_prepareLoad hprepare)
    · rw [if_pos (hwf p hp).1] at hfile
      have hafter : (s.load (p.loadFromMultiConsensus E s.snapshotFile docs authorities threshold
          now order write)).snapshots = ⟨some (selected.acceptedAs E.toDirectoryEnv),
            some (selected.acceptedAs E.toDirectoryEnv)⟩ := by
        simp [PoolState.snapshots, PoolState.load, hpool, hfile, Pool.publish]
      rw [hafter, hbefore]
      refine ⟨.write ⟨_, _⟩ _ .done (extends_of_prepareLoad hprepare), .inr ⟨_, ?_, rfl⟩⟩
      simp [PoolState.load, hresult, hpool, Pool.publish]
  | selected p hp source sel =>
    have hsame : (s.select p source sel).snapshots = s.snapshots := by
      simp [PoolState.snapshots, PoolState.select, hp]
    rw [hsame]
    exact ⟨.skip _, .inl rfl⟩

/-- The loads never go back, and none of them is later than the accepted snapshot. -/
structure Accepts (s : PoolState) : Prop where
  wellFormed : s.WellFormed
  ordered : s.loads.Pairwise AcceptedSnapshot.Precedes
  latest : s.snapshots.Holds fun x => ∀ a ∈ s.loads, ∃ b, x = some b ∧ a.Precedes b

lemma accepts_stopped :
    (stopped snapshotFile guardFile).Accepts :=
  ⟨fun _ h => (by cases h), List.Pairwise.nil, fun _ h => (by cases h), fun _ h => (by cases h)⟩

lemma Accepts.effect (hs : s.Accepts) (h : Effect E hops s s') : s'.Accepts := by
  obtain ⟨hstep, hloads⟩ := h.snapshots hs.wellFormed
  have hlatest : s'.snapshots.Holds fun x => ∀ a ∈ s.loads, ∃ b, x = some b ∧ a.Precedes b := by
    refine hs.latest.step (fun x y hx hxy a ha => ?_) hstep
    obtain ⟨b, hb, hab⟩ := hx a ha
    obtain ⟨c, hc, hbc⟩ := hxy b hb
    exact ⟨c, hc, hab.trans hbc⟩
  refine ⟨h.wellFormed hs.wellFormed, ?_, ?_⟩
  · obtain hloads | ⟨a, hloads, hafter⟩ := hloads
    · rw [hloads]
      exact hs.ordered
    · rw [hloads, List.pairwise_append]
      refine ⟨hs.ordered, List.pairwise_singleton _ _, fun x hx y hy => ?_⟩
      obtain ⟨b, hb, hxb⟩ := hlatest.1 x hx
      rw [hafter, Option.some.injEq] at hb
      rw [List.mem_singleton.mp hy, hb]
      exact hxb
  · obtain hloads | ⟨a, hloads, hafter⟩ := hloads
    · rw [hloads]
      exact hlatest
    · have hall : ∀ x ∈ s'.loads, ∃ b, some a = some b ∧ x.Precedes b := by
        intro x hx
        rw [hloads] at hx
        rcases List.mem_append.mp hx with hx | hx
        · have hmemory := hlatest.1 x hx
          rwa [hafter] at hmemory
        · rw [List.mem_singleton.mp hx]
          exact ⟨a, rfl, .inr ⟨rfl, rfl⟩⟩
      rw [hafter]
      exact ⟨hall, hall⟩

/-- In any order of loads, failed writes and restarts, the epochs of the loads that succeed
never decrease, and loads of one epoch have one digest. -/
theorem loads_never_go_back {snapshotFile : Option AcceptedSnapshot} {guardFile : Option GuardState}
    (h : Run (step E) (stopped snapshotFile guardFile) s) :
    s.loads.Pairwise AcceptedSnapshot.Precedes :=
  (h.invariant accepts_stopped fun _ _ _ hs _ hstep =>
    hs.effect (effect_of_step hs.wellFormed hstep)).ordered

/-- The inputs of a process that loads a directory of the given epoch and selects a chain. -/
def sampleProcess (epoch : UInt64) (relays : List RelayDescriptor) : List PoolInput :=
  [.start [] none none,
    .load [Pool.sampleDirectory epoch relays] Pool.twoAuthorities 2 (epoch + 100) (.listed _) .done,
    .selectPublic ⟨3, 3, true, true, []⟩ (epoch + 200) 0 ⟨.listed _, .listed _, 0⟩ .done]

/-- A client that has returned a chain. -/
def servingClient : PoolState :=
  (runInputs (step samplePool) (stopped none none)
    (sampleProcess 900 [poolRelay 1, poolRelay 3, poolRelay 2])).getD (stopped none none)

/-- The client after a crash, and with a newer directory. -/
def restartedClient : PoolState :=
  (runInputs (step samplePool) servingClient
    (.crash :: sampleProcess 1200 [poolRelay 5, poolRelay 3, poolRelay 4])).getD servingClient

lemma restartedClient_runs : servingClient.chains.length = 1 ∧ restartedClient.chains.length = 2 ∧
    restartedClient.loads.map (·.epoch) = [900, 1200] := by decide +kernel

theorem restartedClient_loads :
    restartedClient.loads.map (·.epoch) = [900, 1200] ∧
      restartedClient.loads.Pairwise AcceptedSnapshot.Precedes :=
  ⟨restartedClient_runs.2.2, loads_never_go_back ((Run.getD_inputs _).trans (Run.getD_inputs _))⟩

/-- The same guards in memory and on disk. -/
def Stores (s : PoolState) (g : GuardState) : Prop :=
  s.guardFile = some g ∧ ∀ p, s.running = some p → p.guardState = g

/-- Every chain that has been returned starts with a stored guard. -/
structure Guarded (E : PoolEnv) (s : PoolState) : Prop where
  wellFormed : s.WellFormed
  covered : s.guards.memory.Extends s.guards.file
  bounded : s.guards.Holds fun g => g.guards.length ≤ 3
  stored : s.chains ≠ [] → s.guards.memory.guards ≠ []
  pinned : ∀ r ∈ s.chains, r.FirstPinned E s.guards.memory

lemma guarded_stopped (hfile : ∀ g, guardFile = some g → g.guards.length ≤ 3) :
    (stopped snapshotFile guardFile).Guarded E := by
  have hbound : (guardFile.getD .new).guards.length ≤ 3 := by
    cases guardFile with
    | none => exact Nat.zero_le 3
    | some g => exact hfile g rfl
  exact ⟨fun _ h => (by cases h), GuardState.extends_refl _, ⟨hbound, hbound⟩,
    fun h => absurd rfl h, fun _ h => (by cases h)⟩

/-- Guards that are in use stay in memory, also over a restart. -/
lemma Effect.memory_guards (h : Effect E hops s s')
    (hcovered : s.guards.memory.Extends s.guards.file) (hne : s.guards.memory.guards ≠ []) :
    s'.guards.memory = s.guards.memory := by
  have hholds : s.guards.Holds (· = s.guards.memory) := ⟨rfl, hcovered.kept hne⟩
  refine (hholds.step (fun a b ha hab => ?_) h.guards).1
  rw [hab.kept (ha ▸ hne), ha]

lemma Guarded.effect (hs : s.Guarded E) (hhops : hops) (h : Effect E hops s s') :
    s'.Guarded E := by
  have hstep := h.guards
  have hold : ∀ r ∈ s.chains, s'.guards.memory.guards ≠ [] ∧ r.FirstPinned E s'.guards.memory := by
    intro r hr
    have hne := hs.stored (List.ne_nil_of_mem hr)
    rw [h.memory_guards hs.covered hne]
    exact ⟨hne, hs.pinned r hr⟩
  have hall : ∀ r ∈ s'.chains, s'.guards.memory.guards ≠ [] ∧ r.FirstPinned E s'.guards.memory := by
    intro r hr
    cases h with
    | selected p hp source sel hsel =>
      rcases List.mem_append.mp hr with hr | hr
      · exact hold r hr
      · split_ifs at hr with hempty
        · cases hr
        · rw [List.mem_singleton.mp hr]
          exact hsel.entry hhops hempty
    | _ => exact hold r hr
  refine ⟨h.wellFormed hs.wellFormed, hstep.covers GuardState.extends_refl hs.covered,
    hs.bounded.step (fun a b ha hab => hab.bounded ha) hstep, fun hne => ?_, fun r hr => (hall r hr).2⟩
  obtain ⟨r, hr⟩ := List.exists_mem_of_ne_nil _ hne
  exact (hall r hr).1

lemma stores_of_holds {g : GuardState} (hne : g.guards ≠ []) (h : s.guards.Holds (· = g)) :
    s.Stores g := by
  obtain ⟨hmemory, hfile⟩ := h
  constructor
  · cases hguards : s.guardFile with
    | none =>
      rw [guards, hguards] at hfile
      exact absurd (congrArg GuardState.guards hfile).symm hne
    | some =>
      rw [guards, hguards] at hfile
      exact congrArg some hfile
  · intro p hp
    rw [guards, hp] at hmemory
    exact hmemory

/-- In any run of selections, loads, failures and restarts, there are at most three guards,
they and their pins never change once a chain has been returned, and the first node of
every chain has one of their pins. -/
theorem guards_fixed_by_first_chain {snapshotFile : Option AcceptedSnapshot}
    {guardFile : Option GuardState} (hfile : ∀ g, guardFile = some g → g.guards.length ≤ 3)
    (h : GuardedRun (step E) ThreeHops (stopped snapshotFile guardFile) s) (hchain : s.chains ≠ [])
    (h' : GuardedRun (step E) ThreeHops s s') :
    ∃ g : GuardState, g.guards.length ≤ 3 ∧ s.Stores g ∧ s'.Stores g ∧
      ∀ r ∈ s'.chains, r.FirstPinned E g := by
  have hinvariant : ∀ s i s', s.Guarded E → ThreeHops s i → step E s i = some s' →
      s'.Guarded E :=
    fun s i s' hs hhops hstep => hs.effect hhops (effect_of_step hs.wellFormed hstep)
  have hs : s.Guarded E := h.invariant (guarded_stopped hfile) hinvariant
  have hne := hs.stored hchain
  have hholds : s.guards.Holds (· = s.guards.memory) := ⟨rfl, hs.covered.kept hne⟩
  have hlater : s'.Guarded E ∧ s'.guards.Holds (· = s.guards.memory) := by
    refine h'.invariant (I := fun t => t.Guarded E ∧ t.guards.Holds (· = s.guards.memory))
      ⟨hs, hholds⟩ fun t i t' ht hhops hstep => ?_
    have heffect := effect_of_step ht.1.wellFormed hstep
    refine ⟨ht.1.effect hhops heffect, ht.2.step (fun a b ha hab => ?_) heffect.guards⟩
    rw [hab.kept (ha ▸ hne), ha]
  refine ⟨s.guards.memory, hs.bounded.1, stores_of_holds hne hholds, stores_of_holds hne hlater.2,
    fun r hr => ?_⟩
  rw [← hlater.2.1]
  exact hlater.1.pinned r hr

/-- The second process enters through a guard of the first one. -/
theorem restartedClient_guards :
    servingClient.chains.length = 1 ∧ restartedClient.chains.length = 2 ∧
      ∃ g : GuardState, g.guards.length ≤ 3 ∧ servingClient.Stores g ∧ restartedClient.Stores g ∧
        ∀ r ∈ restartedClient.chains, r.FirstPinned samplePool g := by
  obtain ⟨hserving, hrestarted, -⟩ := restartedClient_runs
  refine ⟨hserving, hrestarted, guards_fixed_by_first_chain (by simp)
    (GuardedRun.getD_inputs_of_forall _ ?_) ?_ (GuardedRun.getD_inputs_of_forall _ ?_)⟩
  · simp [sampleProcess, ThreeHops]
  · exact List.ne_nil_of_length_pos (by omega)
  · simp [sampleProcess, ThreeHops]

end PoolState

end AnonGuard
