import AnonGuard.Circuit
import AnonGuard.PoolLoad

/-!
# Selecting a chain of relays

A client enters the network through one of at most three stored guards, which it
recognises by their pins. The guards are chosen once, by the first selection that
finds none, and they are on disk before any chain is returned. Public selection
and private bridges share them.
-/
namespace AnonGuard

inductive SybilError
  | subnetCollision (subnet : Bytes)
  | ipv6SubnetCollision (subnet : Bytes)
  | duplicateNode (host : String)
  | unresolvableHost (host : String)
  deriving DecidableEq, Repr

section Diversity

/-- The first two octets of the IPv4 address that an IPv6 address stands for. -/
def embeddedSubnet (octets : Bytes) : Option Bytes :=
  if octets.take 12 = List.replicate 10 0 ++ [0xff, 0xff] then some (slice 12 14 octets)
  else if octets.take 12 = List.replicate 12 0 then some (slice 12 14 octets)
  else if octets.take 2 = [0x20, 0x02] then some (slice 2 4 octets)
  else if octets.take 4 = [0x20, 0x01, 0x00, 0x00] then some ((slice 12 14 octets).map (· ^^^ 0xff))
  else if octets.take 12 = [0x00, 0x64, 0xff, 0x9b] ++ List.replicate 8 0 then
    some (slice 12 14 octets)
  else none

structure SeenNetworks where
  ipv4Subnets : List Bytes
  ipv6Subnets : List Bytes
  hosts : List String

/-- Enter an IPv4 network that has not been seen yet. -/
def SeenNetworks.addIpv4 (seen : SeenNetworks) (subnet : Bytes) : Except SybilError SeenNetworks :=
  if subnet ∈ seen.ipv4Subnets then .error (.subnetCollision subnet)
  else .ok { seen with ipv4Subnets := seen.ipv4Subnets ++ [subnet] }

def SeenNetworks.visit (S : DirectoryEnv) (seen : SeenNetworks) (host : String) :
    Except SybilError SeenNetworks :=
  if host ∈ seen.hosts then .error (.duplicateNode host)
  else
    let seen := { seen with hosts := seen.hosts ++ [host] }
    match S.parseIp (trimChars (· == '[') (· == ']') host) with
    | none => .error (.unresolvableHost host)
    | some (.v4 octets) => seen.addIpv4 (octets.take 2)
    | some (.v6 octets) =>
      match embeddedSubnet octets with
      | some subnet => seen.addIpv4 subnet
      | none =>
        if octets.take 4 ∈ seen.ipv6Subnets then .error (.ipv6SubnetCollision (octets.take 4))
        else .ok { seen with ipv6Subnets := seen.ipv6Subnets ++ [octets.take 4] }

def validateCircuitDiversity (S : DirectoryEnv) (hosts : List String) : Except SybilError Unit :=
  (hosts.foldlM (SeenNetworks.visit S) ⟨[], [], []⟩).map fun _ => ()

/-- The condition on the hosts of a chain. -/
def diverse (S : DirectoryEnv) (enforceDiversity : Bool) (hosts : List String) : Bool :=
  !enforceDiversity || (validateCircuitDiversity S hosts).isOk

end Diversity

/-- A private entry that the client has been given. -/
structure BridgeTransport where
  identity : Bytes
  ip : IpAddr
  port : UInt16
  deriving DecidableEq, Repr

namespace BridgeTransport

/-- The endpoint under which the bridge is stored as a guard. -/
def endpoint (S : DirectoryEnv) (b : BridgeTransport) : String := endpointKey (S.ipText b.ip) b.port

/-- The address of the bridge as it is printed. -/
def socketText (S : DirectoryEnv) (b : BridgeTransport) : String :=
  match b.ip with
  | .v4 _ => S.ipText b.ip ++ ":" ++ toString b.port.toNat
  | .v6 _ => "[" ++ S.ipText b.ip ++ "]:" ++ toString b.port.toNat

/-- The node of the bridge. -/
def entryNode (E : PoolEnv) (b : BridgeTransport) : Except String ProxyNode :=
  ProxyNode.parse E ("socks5://" ++ b.socketText E.toDirectoryEnv)

end BridgeTransport

/-- What stored guards may change to: if there are any, they stay. -/
structure GuardState.Extends (g next : GuardState) : Prop where
  kept : g.guards ≠ [] → next = g
  bounded : g.guards.length ≤ 3 → next.guards.length ≤ 3
  version : next.protocolVersion = g.protocolVersion

lemma GuardState.extends_refl (g : GuardState) : g.Extends g := ⟨fun _ => rfl, id, rfl⟩

/-- The pins of the stored guards. -/
def GuardState.pins (g : GuardState) : List Bytes := g.guards.filterMap (g.identities[·]?)

lemma GuardState.guards_ne_nil {g : GuardState} {pin : Bytes} (h : pin ∈ g.pins) :
    g.guards ≠ [] := by
  rintro hguards
  simp [pins, hguards] at h

/-- What a selection asks for. -/
structure ChainRequest where
  minHops : ℕ
  maxHops : ℕ
  enforceDiversity : Bool
  requireExitAtLast : Bool
  entryPins : List Bytes

/-- The random choices of a selection. -/
structure Randomness where
  middles : HashOrder ProxyNode
  exits : HashOrder ProxyNode
  pick : ℕ

/-- A number between the bounds, chosen by `pick`. -/
def genRange (low high pick : ℕ) : ℕ := low + pick % (high + 1 - low)

/-- What a selection returns, and the guards in memory and on disk after it. -/
structure Selection where
  chain : List ProxyNode
  guardState : GuardState
  guardFile : Option GuardState

namespace Pool

def directoryExpired (p : Pool) (now : UInt64) : Bool :=
  p.consensusDeadline ≠ 0 && now ≥ p.consensusDeadline

/-- Whether an identity has no running cooldown. -/
def offCooldown (p : Pool) (instant : ℕ) (identity : Bytes) : Bool :=
  (p.guardCooldowns.lookup identity).all (· ≤ instant)

def healthy (p : Pool) (instant : ℕ) : List ProxyNode :=
  (p.nodes.map Prod.snd).filter fun n =>
    n.isAlive && (p.identityKeys.lookup n.key).all (p.offCooldown instant)

/-- Store new guards if there are none, unless they cannot be saved. -/
def saveGuards (p : Pool) (file : Option GuardState) (next : GuardState) (write : WriteResult) :
    Bool × GuardState × Option GuardState :=
  if p.guardState.guards ≠ [] then (true, p.guardState, file)
  else if p.persistent then
    (write == .done, write.published p.guardState next, write.contents file (some next))
  else (true, next, file)

section Chain
variable (E : PoolEnv)

/-- Add the nodes in turn that fit the chain, until it is full. -/
def fillMiddles (enforceDiversity : Bool) (full : ℕ → Bool) (exit : Option ProxyNode)
    (selected : List ProxyNode) : List ProxyNode → List ProxyNode
  | [] => selected
  | candidate :: rest =>
    if full selected.length then selected
    else if diverse E.toDirectoryEnv enforceDiversity
        (selected.map (·.host) ++ [candidate.host] ++ (exit.map (·.host)).toList) then
      fillMiddles enforceDiversity full exit (selected ++ [candidate]) rest
    else fillMiddles enforceDiversity full exit selected rest

/-- The exit that is reserved for the chain, if it needs one. -/
def reserveExit (req : ChainRequest) (exitNodes selected : List ProxyNode) (rand : Randomness) :
    Option (Option ProxyNode) :=
  if req.requireExitAtLast then
    ((rand.exits.order exitNodes).find? fun node =>
      diverse E.toDirectoryEnv req.enforceDiversity (selected.map (·.host) ++ [node.host])).map some
  else some none

/-- The chain from what has been selected so far. -/
def completeChain (req : ChainRequest) (exitNodes middles selected : List ProxyNode)
    (middleCount : ℕ) (rand : Randomness) : List ProxyNode :=
  match reserveExit E req exitNodes selected rand with
  | none => []
  | some exit =>
    let selected := fillMiddles E req.enforceDiversity (· ≥ middleCount) exit selected middles
    let available := selected.length + exit.toList.length
    if available < req.minHops then []
    else
      let length := genRange req.minHops available rand.pick
      selected.take (length - exit.toList.length) ++ exit.toList

end Chain

section Public
variable (E : PoolEnv) (p : Pool)

/-- Enter a node as a guard, with the pin it has in the directory. -/
def addGuard (keys : List (String × Bytes)) (state : GuardState) (node : ProxyNode) : GuardState :=
  { state with
    guards := state.guards ++ [node.key]
    identities := match keys.lookup node.key with
      | some pin => state.identities.insert node.key pin
      | none => state.identities }

def newGuards (entryPins : List Bytes) (middles : List ProxyNode) : GuardState :=
  ((middles.filter fun node =>
    entryPins = [] || (p.identityKeys.lookup node.key).any (· ∈ entryPins)).take 3).foldl
    (addGuard p.identityKeys) p.guardState

/-- The first guard that is among the nodes under its pin. -/
def entryGuard (entryPins : List Bytes) (state : GuardState) (middles : List ProxyNode) :
    Option ProxyNode :=
  state.guards.findSome? fun endpoint => middles.find? fun node =>
    match state.identities[endpoint]? with
    | some pin => p.identityKeys.lookup node.key = some pin && (entryPins = [] || pin ∈ entryPins)
    | none => entryPins = [] && p.identityKeys = [] && node.key = endpoint

/-- The selection once the nodes before the exit are known. -/
def guardedChain (file : Option GuardState) (req : ChainRequest)
    (exitNodes middles : List ProxyNode) (middleCount : ℕ) (rand : Randomness)
    (write : WriteResult) : Selection :=
  match p.saveGuards file (p.newGuards req.entryPins middles) write with
  | (false, state, file) => ⟨[], state, file⟩
  | (true, state, file) =>
    match p.entryGuard req.entryPins state middles with
    | none => ⟨[], state, file⟩
    | some guard =>
      let rest := middles.filter fun node => node.host ≠ guard.host || node.port ≠ guard.port
      ⟨completeChain E req exitNodes rest [guard] middleCount rand, state, file⟩

/-- The selection from a directory that has not expired. -/
def onionChain (file : Option GuardState) (req : ChainRequest) (instant : ℕ) (rand : Randomness)
    (write : WriteResult) : Selection :=
  let refused : Selection := ⟨[], p.guardState, file⟩
  let healthy := p.healthy instant
  if req.minHops = 0 ∨ req.maxHops < req.minHops ∨ healthy.length < req.minHops then refused
  else
    let exitNodes := if req.requireExitAtLast then healthy.filter (·.isExit) else healthy
    let middleNodes := if req.requireExitAtLast then healthy.filter (!·.isExit) else healthy
    if req.requireExitAtLast ∧ exitNodes = [] then refused
    else
      let capacity := if req.requireExitAtLast then
        middleNodes.length + (if exitNodes = [] then 0 else 1) else middleNodes.length
      let ceiling := min (min req.maxHops capacity) MAX_HOPS
      if req.minHops = 0 ∨ req.minHops > ceiling ∨ req.maxHops > MAX_HOPS then refused
      else
        let middleCount := if req.requireExitAtLast then ceiling - 1 else ceiling
        let middles := rand.middles.order middleNodes
        if middleCount = 0 then
          { refused with chain := completeChain E req exitNodes middles [] middleCount rand }
        else p.guardedChain E file req exitNodes middles middleCount rand write

def getOnionChainWithEntryPins (file : Option GuardState) (req : ChainRequest) (now : UInt64)
    (instant : ℕ) (rand : Randomness) (write : WriteResult) : Selection :=
  if p.directoryExpired now then ⟨[], p.guardState, file⟩
  else p.onionChain E file req instant rand write

end Public

section Bridges
variable (E : PoolEnv) (p : Pool)

def addBridge (S : DirectoryEnv) (state : GuardState) (b : BridgeTransport) : GuardState :=
  { state with
    guards := state.guards ++ [b.endpoint S]
    identities := state.identities.insert (b.endpoint S) b.identity }

/-- The first guard that is among the bindings under its pin, and not in cooldown. -/
def entryBinding (bindings : List BridgeTransport) (state : GuardState) (instant : ℕ) :
    Option BridgeTransport :=
  state.guards.findSome? fun endpoint => bindings.find? fun b =>
    endpoint = b.endpoint E.toDirectoryEnv && state.identities[endpoint]? = some b.identity &&
      p.offCooldown instant b.identity

/-- The certified nodes behind a private entry. -/
def bridgeCandidates (bindings : List BridgeTransport) : List ProxyNode :=
  (p.nodes.map Prod.snd).filter fun node =>
    node.isAlive &&
      ((p.identityKeys.lookup node.key).any fun pin =>
        pin ≠ ZERO_PIN && !bindings.any (·.identity = pin)) &&
      !bindings.any fun b => E.ipText b.ip = node.host

def bridgeHops (enforceDiversity : Bool) (minHops maxHops : ℕ) (entry : ProxyNode)
    (candidates : List ProxyNode) (pick : ℕ) : List ProxyNode :=
  let middles := candidates.filter (!·.isExit)
  let ceiling := min maxHops (middles.length + 2)
  if ceiling < minHops then []
  else
    ((candidates.filter (·.isExit)).findSome? fun exit =>
      if diverse E.toDirectoryEnv enforceDiversity [entry.host, exit.host] = false then none
      else
        let selected :=
          fillMiddles E enforceDiversity (· == ceiling - 1) (some exit) [entry] middles
        if selected.length + 1 ≥ minHops then
          let length := genRange minHops (selected.length + 1) pick
          some (selected.take (length - 1) ++ [exit])
        else none).getD []

def getPrivateBridgeChainWithBounds (file : Option GuardState) (bindings : List BridgeTransport)
    (enforceDiversity : Bool) (minHops maxHops : ℕ) (now : UInt64) (instant : ℕ)
    (rand : Randomness) (write : WriteResult) : Selection :=
  let refused : Selection := ⟨[], p.guardState, file⟩
  if minHops < 3 ∨ maxHops < minHops ∨ maxHops > MAX_HOPS then refused
  else if bindings = [] ∨ bindings.any (·.identity ∈ p.revoked) ∨ p.consensusDeadline = 0 ∨
      p.directoryExpired now then refused
  else
    match p.saveGuards file ((bindings.take 3).foldl (addBridge E.toDirectoryEnv) p.guardState)
        write with
    | (false, state, file) => ⟨[], state, file⟩
    | (true, state, file) =>
      match p.entryBinding E bindings state instant with
      | none => ⟨[], state, file⟩
      | some b =>
        match b.entryNode E with
        | .error _ => ⟨[], state, file⟩
        | .ok entry =>
          let candidates := rand.middles.order (p.bridgeCandidates E bindings)
          ⟨bridgeHops E enforceDiversity minHops maxHops entry candidates rand.pick, state, file⟩

end Bridges

variable {bindings : List BridgeTransport} {exitNodes middles : List ProxyNode}

section Guards
variable {E : PoolEnv} {p : Pool} {file : Option GuardState} {write : WriteResult}
  {req : ChainRequest} {instant : ℕ} {rand : Randomness} {sel : Selection} {entryPins : List Bytes}
  {middles : List ProxyNode}

lemma saveGuards_step (file : Option GuardState) (write : WriteResult)
    (hpersistent : p.persistent = true) {next : GuardState}
    (hnext : p.guardState.guards = [] → p.guardState.Extends next) :
    Durable.Step GuardState.Extends ⟨p.guardState, file.getD .new⟩
      ⟨(p.saveGuards file next write).2.1, (p.saveGuards file next write).2.2.getD .new⟩ := by
  unfold saveGuards
  by_cases hguards : p.guardState.guards = []
  · have hstep := Durable.Step.write (R := GuardState.Extends) ⟨p.guardState, file.getD .new⟩ next
      write (hnext hguards)
    rw [if_neg (not_not.mpr hguards), if_pos hpersistent]
    cases write <;> exact hstep
  · rw [if_pos hguards]
    exact .skip _

lemma extends_foldl {α : Type*} (add : GuardState → α → GuardState) {l : List α}
    (hadd : ∀ g a, (add g a).guards.length = g.guards.length + 1 ∧
      (add g a).protocolVersion = g.protocolVersion)
    (hl : l.length ≤ 3) {g : GuardState} (hg : g.guards = []) : g.Extends (l.foldl add g) := by
  have hfold : ∀ (l : List α) (g : GuardState),
      (l.foldl add g).guards.length = g.guards.length + l.length ∧
        (l.foldl add g).protocolVersion = g.protocolVersion := by
    intro l
    induction l with
    | nil => exact fun g => ⟨rfl, rfl⟩
    | cons a l ih =>
      intro g
      obtain ⟨hlength, hversion⟩ := ih (add g a)
      obtain ⟨hlength', hversion'⟩ := hadd g a
      rw [List.foldl_cons, hlength, hlength', hversion, hversion', List.length_cons]
      exact ⟨by omega, rfl⟩
  obtain ⟨hlength, hversion⟩ := hfold l g
  refine ⟨fun h => absurd hg h, fun _ => ?_, hversion⟩
  rw [hlength, hg, List.length_nil]
  omega

lemma extends_newGuards
    (h : p.guardState.guards = []) : p.guardState.Extends (p.newGuards entryPins middles) := by
  refine extends_foldl (addGuard p.identityKeys) (fun g node => ⟨?_, rfl⟩)
    (List.length_take_le _ _) h
  rw [addGuard, List.length_append, List.length_singleton]

lemma extends_bridges {S : DirectoryEnv} (h : p.guardState.guards = []) :
    p.guardState.Extends ((bindings.take 3).foldl (addBridge S) p.guardState) := by
  refine extends_foldl (addBridge S) (fun g b => ⟨?_, rfl⟩) (List.length_take_le _ _) h
  rw [addBridge, List.length_append, List.length_singleton]

/-- A guard from a directory with pins is found under its stored pin. -/
lemma pin_of_entryGuard {state : GuardState} {guard : ProxyNode}
    (hkeys : p.identityKeys = [] → guard ∉ middles)
    (h : p.entryGuard entryPins state middles = some guard) :
    ∃ pin ∈ state.pins, p.identityKeys.lookup guard.key = some pin ∧
      (entryPins ≠ [] → pin ∈ entryPins) := by
  obtain ⟨endpoint, hmem, hfind⟩ := List.exists_of_findSome?_eq_some h
  have htest := List.find?_some hfind
  cases hpin : state.identities[endpoint]? with
  | none =>
    simp only [hpin, Bool.and_eq_true, decide_eq_true_eq] at htest
    exact absurd (List.mem_of_find?_eq_some hfind) (hkeys htest.1.2)
  | some pin =>
    simp only [hpin, Bool.and_eq_true, Bool.or_eq_true, decide_eq_true_eq] at htest
    exact ⟨pin, List.mem_filterMap.mpr ⟨endpoint, hmem, hpin⟩, htest.1, htest.2.resolve_left⟩

lemma stored_of_entryBinding {state : GuardState} {b : BridgeTransport}
    (h : p.entryBinding E bindings state instant = some b) :
    b ∈ bindings ∧ b.endpoint E.toDirectoryEnv ∈ state.guards ∧
      state.identities[b.endpoint E.toDirectoryEnv]? = some b.identity ∧
      p.offCooldown instant b.identity = true := by
  obtain ⟨endpoint, hmem, hfind⟩ := List.exists_of_findSome?_eq_some h
  have htest := List.find?_some hfind
  simp only [Bool.and_eq_true, decide_eq_true_eq] at htest
  obtain ⟨⟨rfl, hidentity⟩, hcooldown⟩ := htest
  exact ⟨List.mem_of_find?_eq_some hfind, hmem, hidentity, hcooldown⟩

end Guards

section Heads
variable {E : PoolEnv} {enforceDiversity : Bool} {full : ℕ → Bool} {exit : Option ProxyNode}

/-- Filling a chain only appends to it. -/
lemma isPrefix_fillMiddles (selected middles : List ProxyNode) :
    selected <+: fillMiddles E enforceDiversity full exit selected middles := by
  induction middles generalizing selected with
  | nil => exact List.prefix_refl _
  | cons candidate rest ih =>
    unfold fillMiddles
    split_ifs
    · exact List.prefix_refl _
    · exact (List.prefix_append _ _).trans (ih _)
    · exact ih _

/-- A chain that keeps at least one hop keeps the entry. -/
lemma head_take_fillMiddles (entry : ProxyNode) (middles tail : List ProxyNode) {n : ℕ} (hn : 0 < n) :
    ((fillMiddles E enforceDiversity full exit [entry] middles).take n ++ tail).head? =
      some entry := by
  obtain ⟨rest, hrest⟩ : [entry] <+: fillMiddles E enforceDiversity full exit [entry] middles :=
    isPrefix_fillMiddles [entry] middles
  obtain ⟨m, rfl⟩ := Nat.exists_eq_succ_of_ne_zero hn.ne'
  rw [← hrest]
  rfl

lemma head_completeChain {req : ChainRequest}
    {guard : ProxyNode} {middleCount : ℕ} {rand : Randomness} (hmin : 2 ≤ req.minHops)
    (h : completeChain E req exitNodes middles [guard] middleCount rand ≠ []) :
    (completeChain E req exitNodes middles [guard] middleCount rand).head? = some guard := by
  unfold completeChain at h ⊢
  cases hexit : reserveExit E req exitNodes [guard] rand with
  | none => simp [hexit] at h
  | some exit =>
    rw [hexit] at h
    dsimp only at h ⊢
    split_ifs at h ⊢ with havailable
    · exact absurd rfl h
    · have hone : exit.toList.length ≤ 1 := by cases exit <;> simp
      exact head_take_fillMiddles guard middles _ (by unfold genRange; omega)

lemma head_bridgeHops {minHops maxHops pick : ℕ} {entry : ProxyNode} {candidates : List ProxyNode}
    (hmin : 2 ≤ minHops)
    (h : bridgeHops E enforceDiversity minHops maxHops entry candidates pick ≠ []) :
    (bridgeHops E enforceDiversity minHops maxHops entry candidates pick).head? = some entry := by
  unfold bridgeHops at h ⊢
  dsimp only at h ⊢
  split_ifs at h ⊢
  · exact absurd rfl h
  · cases hfind : List.findSome? _ _ with
    | none => simp [hfind] at h
    | some =>
      obtain ⟨exit, -, hchain⟩ := List.exists_of_findSome?_eq_some hfind
      split_ifs at hchain
      cases hchain
      exact head_take_fillMiddles entry _ _ (by unfold genRange; omega)

end Heads

section Selecting
variable {E : PoolEnv} {p : Pool} {file : Option GuardState} {write : WriteResult}
  {instant : ℕ} {rand : Randomness} {sel : Selection}

/-- A selection that stores the guards enters through one of them. -/
lemma guardedChain_cases {req : ChainRequest} {middleCount : ℕ}
    (hsel : p.guardedChain E file req exitNodes middles middleCount rand write = sel) :
    ∃ saved, p.saveGuards file (p.newGuards req.entryPins middles) write =
        (saved, sel.guardState, sel.guardFile) ∧
      (2 ≤ req.minHops → sel.chain ≠ [] → ∃ guard,
        p.entryGuard req.entryPins sel.guardState middles = some guard ∧
        sel.chain.head? = some guard) := by
  subst hsel
  unfold guardedChain
  obtain ⟨saved, state, file'⟩ := p.saveGuards file (p.newGuards req.entryPins middles) write
  cases saved with
  | false => exact ⟨false, rfl, fun _ h => absurd rfl h⟩
  | true =>
    dsimp only
    cases hguard : p.entryGuard req.entryPins state middles with
    | none => exact ⟨true, rfl, fun _ h => absurd rfl h⟩
    | some guard =>
      exact ⟨true, rfl, fun hmin h => ⟨guard, hguard, head_completeChain hmin h⟩⟩

/-- A public selection leaves the guards, or stores them. A chain of two hops or more
enters through one of them. -/
lemma onionChain_cases {req : ChainRequest} (hsel : p.onionChain E file req instant rand write = sel) :
    sel.guardState = p.guardState ∧ sel.guardFile = file ∧ (2 ≤ req.minHops → sel.chain = []) ∨
      ∃ middles saved, (∀ n ∈ middles, n ∈ p.healthy instant) ∧
      p.saveGuards file (p.newGuards req.entryPins middles) write =
        (saved, sel.guardState, sel.guardFile) ∧
      (2 ≤ req.minHops → sel.chain ≠ [] → ∃ guard,
        p.entryGuard req.entryPins sel.guardState middles = some guard ∧
        sel.chain.head? = some guard) := by
  unfold onionChain at hsel
  dsimp only at hsel
  generalize hexits : (if req.requireExitAtLast then (p.healthy instant).filter (·.isExit)
    else p.healthy instant) = exitNodes at hsel
  generalize hnodes : (if req.requireExitAtLast then (p.healthy instant).filter (!·.isExit)
    else p.healthy instant) = middleNodes at hsel
  generalize min (min req.maxHops (if req.requireExitAtLast then
    middleNodes.length + (if exitNodes = [] then 0 else 1) else middleNodes.length)) MAX_HOPS =
    ceiling at hsel
  generalize hcount : (if req.requireExitAtLast then ceiling - 1 else ceiling) = middleCount at hsel
  have hmiddles : ∀ n ∈ rand.middles.order middleNodes, n ∈ p.healthy instant := by
    intro n hn
    rw [HashOrder.mem_order, ← hnodes] at hn
    split_ifs at hn
    · exact List.mem_of_mem_filter hn
    · exact hn
  split_ifs at hsel with hsize hexit hceiling hzero
  · exact .inl (hsel ▸ ⟨rfl, rfl, fun _ => rfl⟩)
  · exact .inl (hsel ▸ ⟨rfl, rfl, fun _ => rfl⟩)
  · exact .inl (hsel ▸ ⟨rfl, rfl, fun _ => rfl⟩)
  · -- two hops leave room for a guard before the exit
    refine .inl (hsel ▸ ⟨rfl, rfl, fun hmin => ?_⟩)
    split_ifs at hcount <;> omega
  · obtain ⟨saved, hsaved, hchain⟩ := guardedChain_cases hsel
    exact .inr ⟨_, saved, hmiddles, hsaved, hchain⟩

/-- A selection through a bridge changes nothing, or it stores the guards and enters
through one of them. -/
lemma bridgeChain_cases {enforceDiversity : Bool} {minHops maxHops : ℕ} {now : UInt64}
    (hsel : p.getPrivateBridgeChainWithBounds E file bindings enforceDiversity minHops maxHops now
      instant rand write = sel) :
    sel = ⟨[], p.guardState, file⟩ ∨ ∃ saved,
      p.saveGuards file ((bindings.take 3).foldl (addBridge E.toDirectoryEnv) p.guardState) write =
        (saved, sel.guardState, sel.guardFile) ∧
      (sel.chain ≠ [] → ∃ b entry,
        p.entryBinding E bindings sel.guardState instant = some b ∧ b.entryNode E = .ok entry ∧
        sel.chain.head? = some entry) := by
  subst hsel
  unfold getPrivateBridgeChainWithBounds
  dsimp only
  by_cases hbounds : minHops < 3 ∨ maxHops < minHops ∨ maxHops > MAX_HOPS
  · rw [if_pos hbounds]
    exact .inl rfl
  rw [if_neg hbounds]
  split_ifs
  · exact .inl rfl
  right
  obtain ⟨saved, state, file'⟩ := p.saveGuards file
    ((bindings.take 3).foldl (addBridge E.toDirectoryEnv) p.guardState) write
  cases saved with
  | false => exact ⟨false, rfl, fun h => absurd rfl h⟩
  | true =>
    dsimp only
    cases hbinding : p.entryBinding E bindings state instant with
    | none => exact ⟨true, rfl, fun h => absurd rfl h⟩
    | some b =>
      dsimp only
      cases hentry : b.entryNode E with
      | error => exact ⟨true, rfl, fun h => absurd rfl h⟩
      | ok entry =>
        exact ⟨true, rfl, fun h => ⟨b, entry, hbinding, hentry, head_bridgeHops (by omega) h⟩⟩

end Selecting

end Pool

end AnonGuard
