import AnonGuard.PoolState

/-!
# Setting up circuits while directories change

The gateway selects a chain and then looks the pins of its nodes up again, by their
endpoints. A directory that is published in between may list the endpoint of the entry
under another identity. The entry is a guard as long as no directory does that while a
circuit is being set up.
-/
namespace AnonGuard

namespace Pool

/-- The pins that the directory lists the nodes under. -/
def identityKeysOf (p : Pool) (chain : List ProxyNode) : List Bytes :=
  chain.map fun n => (p.identityKeys.lookup n.key).getD ZERO_PIN

def getIdentityKeys (p : Pool) (chain : List ProxyNode) (now : UInt64) : List Bytes :=
  if p.directoryExpired now then List.replicate chain.length ZERO_PIN else p.identityKeysOf chain

end Pool

/-- The first check of `connect_authenticated`. -/
def linkPin (pinned : Bytes) : Except String Bytes :=
  if pinned = ZERO_PIN then .error "Relay link requires a directory identity pin" else .ok pinned

/-- The part of the configuration that `establish_session` selects a public chain by. -/
structure SetupConfig where
  minChainLength : ℕ
  maxChainLength : ℕ
  enforceSubnetDiversity : Bool
  pins : List Bytes

def SetupConfig.request (c : SetupConfig) : ChainRequest :=
  ⟨max c.minChainLength 3, max c.maxChainLength 3, c.enforceSubnetDiversity, true, c.pins⟩

/-- How far a circuit is: the expiry check before the selection has passed, a chain is
selected, or the expiry check before the look-up has passed. -/
inductive SetupPhase
  | checked
  | selected (entry : ProxyNode) (rest : List ProxyNode)
  | reading (entry : ProxyNode) (rest : List ProxyNode)

def SetupPhase.entryNode : SetupPhase → Option ProxyNode
  | checked => none
  | selected entry _ | reading entry _ => some entry

/-- A gateway: its client, the circuits that are being set up, and the entry pins that it
has handed to the link. -/
structure GatewayState where
  client : PoolState
  setups : List (ℕ × SetupPhase)
  handed : List Bytes

inductive GatewayInput
  | pool (i : PoolInput)
  | begin (id : ℕ) (now : UInt64)
  | select (id : ℕ) (config : SetupConfig) (instant : ℕ) (rand : Randomness) (write : WriteResult)
  | checkKeys (id : ℕ) (now : UInt64)
  | readKeys (id : ℕ)

namespace GatewayState
variable (E : PoolEnv)

def stopped (snapshotFile : Option AcceptedSnapshot) (guardFile : Option GuardState) : GatewayState :=
  ⟨.stopped snapshotFile guardFile, [], []⟩

def drop (s : GatewayState) (id : ℕ) : GatewayState :=
  { s with setups := s.setups.filter (·.1 ≠ id) }

def put (s : GatewayState) (id : ℕ) (phase : SetupPhase) : GatewayState :=
  { s with setups := (id, phase) :: s.setups.filter (·.1 ≠ id) }

/-- The end of a set-up whose pins are known. -/
def hand (s : GatewayState) (id : ℕ) (keys : List Bytes) : GatewayState :=
  { s.drop id with handed := s.handed ++ keys.take 1 }

/-- Continue with the chain, if there is one. -/
def selectChain (s : GatewayState) (id : ℕ) : List ProxyNode → GatewayState
  | [] => s.drop id
  | entry :: rest =>
    -- such entries are unsupported
    if utf8 "reverse://" <+: utf8 entry.rawUrl then s.drop id else s.put id (.selected entry rest)

def step (s : GatewayState) : GatewayInput → Option GatewayState
  | .pool i => (s.client.step E i).map fun client =>
    -- the set-ups end with the process
    { s with client := client, setups := if client.running.isNone then [] else s.setups }
  | .begin id now =>
    match s.client.running, s.setups.lookup id with
    | some p, none => some (if p.directoryExpired now then s else s.put id .checked)
    | _, _ => none
  | .select id config instant rand write =>
    match s.client.running, s.setups.lookup id with
    | some p, some .checked =>
      let sel := p.onionChain E s.client.guardFile config.request instant rand write
      some (selectChain { s with client := s.client.select p (.directory p.identityKeys) sel } id
        sel.chain)
    | _, _ => none
  | .checkKeys id now =>
    match s.client.running, s.setups.lookup id with
    | some p, some (.selected entry rest) =>
      some (if p.directoryExpired now then
          s.hand id (List.replicate (entry :: rest).length ZERO_PIN)
        else s.put id (.reading entry rest))
    | _, _ => none
  | .readKeys id =>
    match s.client.running, s.setups.lookup id with
    | some p, some (.reading entry rest) => some (s.hand id (p.identityKeysOf (entry :: rest)))
    | _, _ => none

end GatewayState

/-- A relay that takes over the endpoint of the entry without being a guard. -/
def RelayDescriptor.Displaces (E : PoolEnv) (p : Pool) (entry : ProxyNode) (r : RelayDescriptor) :
    Prop :=
  ∃ node ∈ (relayNode E r).toOption, node.key = entry.key ∧ r.identityPin ∉ p.guardState.pins
  deriving Decidable

namespace GatewayState
variable {E : PoolEnv} {s s' : GatewayState} {i : GatewayInput}

/-- While circuits are being set up, no directory with a quorum gives the endpoint of one's
entry to an identity that is not a guard. -/
def KeepsEntries (E : PoolEnv) (s : GatewayState) : GatewayInput → Prop
  | .pool (.load docs authorities threshold now order _) => ∀ p ∈ s.client.running,
    ∀ setup ∈ s.setups, ∀ entry ∈ setup.2.entryNode,
    ∀ d ∈ ConsensusDocument.candidates E.toDirectoryEnv docs authorities threshold now order,
    ∀ r ∈ live p.revoked d.relays, ¬ r.Displaces E p entry
  | _ => True

instance (s : GatewayState) (i : GatewayInput) : Decidable (KeepsEntries E s i) := by
  unfold KeepsEntries
  split <;> infer_instance

/-- The directory lists the node under guards only. -/
def EntersByGuard (p : Pool) (entry : ProxyNode) : Prop :=
  p.guardState.guards ≠ [] ∧
    ∀ pin, p.identityKeys.lookup entry.key = some pin → pin ∈ p.guardState.pins

structure Safe (s : GatewayState) : Prop where
  wellFormed : s.client.WellFormed
  covered : s.client.guards.memory.Extends s.client.guards.file
  entering : ∀ setup ∈ s.setups, ∃ p, s.client.running = some p ∧
    ∀ entry, setup.2.entryNode = some entry → EntersByGuard p entry
  handed : ∀ pin ∈ s.handed, pin = ZERO_PIN ∨ pin ∈ s.client.guards.memory.pins

end GatewayState

/-- The pins of a new directory are those of the relays of a candidate. -/
lemma PoolState.identityKeys_of_step {E : PoolEnv} {s s' : PoolState} {i : PoolInput} {p p' : Pool}
    (h : s.step E i = some s') (hp : s.running = some p) (hp' : s'.running = some p') :
    p'.identityKeys = p.identityKeys ∨
      ∃ docs authorities threshold now order write selected nodes,
        i = .load docs authorities threshold now order write ∧
        selected ∈ ConsensusDocument.candidates E.toDirectoryEnv docs authorities threshold now
          order ∧
        Publishes E (live p.revoked selected.relays) nodes p'.identityKeys := by
  cases i with
  | load docs authorities threshold now order write =>
    simp only [step, hp, Option.map_some, Option.some.injEq] at h
    subst h
    obtain rfl := Option.some.inj hp'
    obtain ⟨e, -, hpool, -⟩ | ⟨selected, staged, hprepare, -, hpool, -⟩ :=
      Pool.load_cases E p s.snapshotFile docs authorities threshold now order write rfl
    · exact .inl (by rw [hpool])
    · right
      obtain ⟨hselect, -, hstage, -⟩ := Pool.prepareLoad_eq_ok_iff.mp hprepare
      refine ⟨docs, authorities, threshold, now, order, write, selected, staged.replacement, rfl,
        ConsensusDocument.selectSnapshot_eq_ok hselect, ?_⟩
      rw [hpool]
      exact Pool.publishes_of_stage hstage
  | start | crash | selectPublic | selectBridge | linkFailure | blocked =>
    exact .inl (directory_kept h hp hp' (by simp)).1

namespace GatewayState
variable {E : PoolEnv} {s s' : GatewayState} {i : GatewayInput} {p : Pool} {c c' : PoolState}
  {hops : Prop}

lemma guards_of_running {c : PoolState} (hp : c.running = some p) :
    c.guards.memory = p.guardState := by
  simp [PoolState.guards, hp]

/-- Guards that are in use stay, in every running pool. -/
lemma guardState_of_effect {p p' : Pool}
    (heffect : PoolState.Effect E hops c c') (hcovered : c.guards.memory.Extends c.guards.file)
    (hp : c.running = some p) (hp' : c'.running = some p') (hne : p.guardState.guards ≠ []) :
    p'.guardState = p.guardState := by
  have hkept := heffect.memory_guards hcovered (by rwa [guards_of_running hp])
  rwa [guards_of_running hp, guards_of_running hp'] at hkept

/-- Pins that have been handed out stay pins of guards. -/
lemma handed_of_effect (heffect : PoolState.Effect E hops c c')
    (hcovered : c.guards.memory.Extends c.guards.file) {pin : Bytes}
    (h : pin = ZERO_PIN ∨ pin ∈ c.guards.memory.pins) :
    pin = ZERO_PIN ∨ pin ∈ c'.guards.memory.pins := by
  refine h.imp_right fun hpin => ?_
  rwa [heffect.memory_guards hcovered (GuardState.guards_ne_nil hpin)]

lemma covered_of_effect (heffect : PoolState.Effect E hops c c')
    (hcovered : c.guards.memory.Extends c.guards.file) :
    c'.guards.memory.Extends c'.guards.file :=
  heffect.guards.covers GuardState.extends_refl hcovered

/-- A step of the pool that displaces no entry. -/
lemma Safe.pool (hs : s.Safe) {i : PoolInput} (hkeeps : KeepsEntries E s (.pool i))
    {client : PoolState} (h : s.client.step E i = some client) :
    Safe { s with client := client, setups := if client.running.isNone then [] else s.setups } := by
  have heffect := PoolState.effect_of_step hs.wellFormed h
  refine ⟨heffect.wellFormed hs.wellFormed, covered_of_effect heffect hs.covered, ?_,
    fun pin hpin => handed_of_effect heffect hs.covered (hs.handed pin hpin)⟩
  intro setup hsetup
  cases hrunning : client.running with
  | none => simp [hrunning] at hsetup
  | some p' =>
    simp only [hrunning, Option.isNone_some, Bool.false_eq_true, if_false] at hsetup
    obtain ⟨p, hp, hentries⟩ := hs.entering setup hsetup
    refine ⟨p', rfl, fun entry hentry => ?_⟩
    obtain ⟨hne, hguard⟩ := hentries entry hentry
    have hstate := guardState_of_effect heffect hs.covered hp hrunning hne
    rw [EntersByGuard, hstate]
    refine ⟨hne, fun pin hpin => ?_⟩
    obtain hkeys | ⟨docs, authorities, threshold, now, order, write, d, nodes, rfl, hd, hpublishes⟩ :=
      PoolState.identityKeys_of_step h hp hrunning
    · exact hguard pin (hkeys ▸ hpin)
    · obtain ⟨r, hr, node, hnode, hkey, rfl⟩ := hpublishes.exists_of_lookup hpin
      by_contra hnot
      exact hkeeps p hp setup hsetup entry hentry d hd r hr
        ⟨node, by rw [hnode]; rfl, hkey, hnot⟩

lemma Safe.drop (hs : s.Safe) (id : ℕ) : (s.drop id).Safe :=
  ⟨hs.wellFormed, hs.covered, fun setup hsetup => hs.entering setup (List.mem_of_mem_filter hsetup),
    hs.handed⟩

lemma Safe.put (hs : s.Safe) (id : ℕ) {phase : SetupPhase} (hp : s.client.running = some p)
    (hentry : ∀ entry, phase.entryNode = some entry → EntersByGuard p entry) :
    (s.put id phase).Safe := by
  refine ⟨hs.wellFormed, hs.covered, fun setup hsetup => ?_, hs.handed⟩
  rcases List.mem_cons.mp hsetup with rfl | hsetup
  · exact ⟨p, hp, hentry⟩
  · exact hs.entering setup (List.mem_of_mem_filter hsetup)

lemma Safe.hand (hs : s.Safe) (id : ℕ) {keys : List Bytes}
    (hkeys : ∀ pin ∈ keys.take 1, pin = ZERO_PIN ∨ pin ∈ s.client.guards.memory.pins) :
    (s.hand id keys).Safe := by
  refine ⟨hs.wellFormed, hs.covered, (hs.drop id).entering, fun pin hpin => ?_⟩
  rcases List.mem_append.mp hpin with hpin | hpin
  · exact hs.handed pin hpin
  · exact hkeys pin hpin

/-- The circuit under way, if the gateway looks at it. -/
lemma Safe.entersByGuard (hs : s.Safe) {id : ℕ} {phase : SetupPhase}
    (hp : s.client.running = some p) (hphase : s.setups.lookup id = some phase) {entry : ProxyNode}
    (hentry : phase.entryNode = some entry) : EntersByGuard p entry := by
  obtain ⟨p', hp', hentries⟩ := hs.entering (id, phase) (mem_of_lookup hphase)
  rw [hp, Option.some.injEq] at hp'
  exact hp' ▸ hentries entry hentry

/-- A selection enters through a guard, and displaces no other entry. -/
lemma Safe.select (hs : s.Safe) (hp : s.client.running = some p) (id : ℕ)
    (config : SetupConfig) (instant : ℕ) (rand : Randomness) (write : WriteResult) {sel : Selection}
    (hsel : p.onionChain E s.client.guardFile config.request instant rand write = sel) :
    (selectChain { s with client := s.client.select p (.directory p.identityKeys) sel } id
      sel.chain).Safe := by
  obtain ⟨hpersistent, hkeys⟩ := hs.wellFormed p hp
  have hselects : p.Selects E (2 ≤ config.request.minHops) s.client.guardFile
      (.directory p.identityKeys) sel := hsel ▸ Pool.selects_onionChain hpersistent hkeys
  have heffect := PoolState.Effect.selected p hp _ sel hselects
  have hclient : Safe { s with client := s.client.select p (.directory p.identityKeys) sel } := by
    refine ⟨heffect.wellFormed hs.wellFormed, covered_of_effect heffect hs.covered, ?_,
      fun pin hpin => handed_of_effect heffect hs.covered (hs.handed pin hpin)⟩
    intro setup hsetup
    obtain ⟨p', hp', hentries⟩ := hs.entering setup hsetup
    refine ⟨_, rfl, fun entry hentry => ?_⟩
    obtain rfl : p = p' := Option.some.inj (hp.symm.trans hp')
    obtain ⟨hne, hguard⟩ := hentries entry hentry
    have hstate : sel.guardState = p.guardState :=
      guardState_of_effect heffect hs.covered hp rfl hne
    exact ⟨hstate ▸ hne, hstate ▸ hguard⟩
  cases hchain : sel.chain with
  | nil => exact hclient.drop id
  | cons entry =>
    rw [selectChain]
    split_ifs
    · exact hclient.drop id
    · refine hclient.put id rfl fun entry' hentry' => ?_
      obtain rfl := Option.some.inj hentry'
      have hhops : 2 ≤ config.request.minHops := le_max_of_le_right (by decide)
      obtain ⟨hne, first, pin, hhead, hlookup, hpin⟩ := hselects.entry hhops (by simp [hchain])
      obtain rfl : entry = first := by
        rw [hchain] at hhead
        exact Option.some.inj hhead
      refine ⟨hne, fun pin' hpin' => ?_⟩
      obtain rfl := Option.some.inj (hlookup.symm.trans hpin')
      exact hpin

lemma Safe.step (hs : s.Safe) (hkeeps : KeepsEntries E s i) (h : step E s i = some s') : s'.Safe := by
  cases i with
  | pool =>
    obtain ⟨client, hclient, rfl⟩ := Option.map_eq_some_iff.mp h
    exact hs.pool hkeeps hclient
  | begin id =>
    simp only [GatewayState.step] at h
    split at h
    · next p hp _ =>
      cases h
      split_ifs
      · exact hs
      · exact hs.put id hp fun _ hentry => (by cases hentry)
    · cases h
  | select id config instant rand write =>
    simp only [GatewayState.step] at h
    split at h
    · next p hp _ =>
      cases h
      exact hs.select hp id config instant rand write rfl
    · cases h
  | checkKeys id =>
    simp only [GatewayState.step] at h
    split at h
    · next p entry rest hp hphase =>
      cases h
      split_ifs
      · refine hs.hand id fun pin hpin => .inl ?_
        exact List.eq_of_mem_replicate (List.mem_of_mem_take hpin)
      · exact hs.put id hp fun entry' hentry' => hs.entersByGuard hp hphase hentry'
    · cases h
  | readKeys id =>
    simp only [GatewayState.step] at h
    split at h
    · next p entry rest hp hphase =>
      cases h
      obtain ⟨-, hguard⟩ := hs.entersByGuard hp hphase rfl
      refine hs.hand id fun pin hpin => ?_
      rw [Pool.identityKeysOf, List.map_cons, List.take_succ_cons, List.take_zero,
        List.mem_singleton] at hpin
      rw [hpin, guards_of_running hp]
      cases hlookup : p.identityKeys.lookup entry.key with
      | none => exact .inl rfl
      | some pin' => exact .inr (hguard pin' hlookup)
    · cases h

/-- If directories displace no entry of a circuit under way, then every entry pin that the
gateway hands out is zero, and refused, or that of a stored guard. -/
theorem entry_pin_of_guard {snapshotFile : Option AcceptedSnapshot} {guardFile : Option GuardState}
    (h : GuardedRun (GatewayState.step E) (KeepsEntries E) (stopped snapshotFile guardFile) s)
    {pin : Bytes} (hpin : pin ∈ s.handed) :
    pin = ZERO_PIN ∧ linkPin pin = .error "Relay link requires a directory identity pin" ∨
      ∃ g : GuardState, s.client.Stores g ∧ pin ∈ g.pins := by
  have hs : s.Safe := by
    refine h.invariant ⟨fun _ h => (by cases h), GuardState.extends_refl _, fun _ h => (by cases h),
      fun _ h => (by cases h)⟩ fun t i t' ht hkeeps hstep => ht.step hkeeps hstep
  rcases hs.handed pin hpin with rfl | hguard
  · exact .inl ⟨rfl, if_pos rfl⟩
  · have hne := GuardState.guards_ne_nil hguard
    exact .inr ⟨_, PoolState.stores_of_holds hne ⟨rfl, hs.covered.kept hne⟩, hguard⟩

/-- The identity of key 5 at the endpoint of the relay of key 1. -/
def movedRelay : RelayDescriptor :=
  let r : RelayDescriptor := { poolRelay 5 with host := (poolRelay 1).host }
  { r with signature := (sampleKey 5).sign r.computeSigningBytes }

/-- A circuit during whose set-up a second directory is published. -/
def sampleSetup (relays : List RelayDescriptor) : List GatewayInput :=
  [.pool (.start [] none none),
    .pool (.load [Pool.sampleDirectory 900 [poolRelay 1, poolRelay 3, poolRelay 2]]
      Pool.twoAuthorities 2 1000 (.listed _) .done),
    .begin 7 1000, .select 7 ⟨3, 3, true, []⟩ 0 ⟨.listed _, .listed _, 0⟩ .done,
    .pool (.load [Pool.sampleDirectory 950 relays] Pool.twoAuthorities 2 1000 (.listed _) .done),
    .checkKeys 7 1000, .readKeys 7]

def gatewayAfter (relays : List RelayDescriptor) : GatewayState :=
  (runInputs (GatewayState.step samplePool) (stopped none none) (sampleSetup relays)).getD
    (stopped none none)

/-- The directory is replaced between the selection and the look-up: the gateway hands out
the pin of a relay that is not a guard. -/
theorem entry_pin_of_displaced_guard :
    (gatewayAfter [movedRelay]).handed = [(sampleKey 5).verifyingKey] ∧
      linkPin (sampleKey 5).verifyingKey = .ok (sampleKey 5).verifyingKey ∧
      (gatewayAfter [movedRelay]).client.guards.memory.pins =
        [(sampleKey 1).verifyingKey, (sampleKey 3).verifyingKey] ∧
      (sampleKey 5).verifyingKey ∉ (gatewayAfter [movedRelay]).client.guards.memory.pins := by
  have hpins : (gatewayAfter [movedRelay]).handed = [(sampleKey 5).verifyingKey] ∧
      (gatewayAfter [movedRelay]).client.guards.memory.pins =
        [(sampleKey 1).verifyingKey, (sampleKey 3).verifyingKey] := by decide +kernel
  refine ⟨hpins.1, by decide +kernel, hpins.2, ?_⟩
  rw [hpins.2]
  decide +kernel

/-- A directory that keeps the entry where it is changes nothing. -/
theorem entry_pin_of_kept_guard :
    (gatewayAfter [poolRelay 1]).handed = [(sampleKey 1).verifyingKey] ∧
      ((sampleKey 1).verifyingKey = ZERO_PIN ∧ linkPin (sampleKey 1).verifyingKey =
          .error "Relay link requires a directory identity pin" ∨
        ∃ g : GuardState, (gatewayAfter [poolRelay 1]).client.Stores g ∧
          (sampleKey 1).verifyingKey ∈ g.pins) := by
  have hsetup : (gatewayAfter [poolRelay 1]).handed = [(sampleKey 1).verifyingKey] ∧
      inputsOk (GatewayState.step samplePool) (KeepsEntries samplePool) (stopped none none)
        (sampleSetup [poolRelay 1]) = true := by decide +kernel
  refine ⟨hsetup.1, entry_pin_of_guard (GuardedRun.getD_inputs _ hsetup.2 _) ?_⟩
  rw [← gatewayAfter, hsetup.1]
  exact List.mem_singleton_self _

end GatewayState

end AnonGuard
