import AnonGuard.Consensus

/-!
# Relays as nodes of the client's pool

A client checks all relays of a document before it publishes any of them: ids,
pins, key components and endpoints must be distinct, and every endpoint must
parse. Retired identities are checked too and then left out.
-/
namespace AnonGuard

/-- The parts of a parsed URL that the pool reads. -/
structure Url where
  scheme : String
  hostStr : Option String
  port : Option UInt16
  username : String
  password : Option String
  deriving DecidableEq, Repr

/-- A directory environment with a URL parser. -/
structure PoolEnv extends DirectoryEnv where
  parseUrl : String → Except String Url

inductive ProxyProtocol
  | http | https | socks4 | socks4a | socks5 | socks5h | reverse
  deriving DecidableEq, Repr

structure ProxyNode where
  rawUrl : String
  protocol : ProxyProtocol
  host : String
  port : UInt16
  username : Option String
  password : Option String
  isAlive : Bool
  failureCount : ℕ
  isExit : Bool
  deriving DecidableEq, Repr

/-- The key of a node in the maps of the pool. -/
def endpointKey (host : String) (port : UInt16) : String := host ++ ":" ++ toString port.toNat

def ProxyProtocol.ofScheme (scheme : String) : Option ProxyProtocol :=
  if scheme = "http" then some http
  else if scheme = "https" then some https
  else if scheme = "socks4" then some socks4
  else if scheme = "socks4a" then some socks4a
  else if scheme = "socks5" then some socks5
  else if scheme = "socks5h" then some socks5h
  else if scheme = "reverse" then some reverse
  else none

def ProxyProtocol.defaultPort : ProxyProtocol → UInt16
  | http => 8080
  | https => 443
  | socks4 | socks4a | socks5 | socks5h => 1080
  | reverse => 0

/-- The white space of `str::trim`. -/
def isWhiteSpace (c : Char) : Bool :=
  let n := c.toNat
  (9 ≤ n && n ≤ 13) || n == 0x20 || n == 0x85 || n == 0xA0 || n == 0x1680 ||
    (0x2000 ≤ n && n ≤ 0x200A) || n == 0x2028 || n == 0x2029 || n == 0x202F || n == 0x205F ||
    n == 0x3000

/-- Drop the characters in `p` at the start, and those in `q` at the end. -/
def trimChars (p q : Char → Bool) (s : String) : String :=
  String.ofList (((s.toList.dropWhile p).reverse.dropWhile q).reverse)

namespace ProxyNode

/-- The text that `parse` gives to the URL parser. -/
def formatted (raw : String) : String :=
  let input := trimChars isWhiteSpace isWhiteSpace raw
  if utf8 "://" <:+: utf8 input then input else "http://" ++ input

def parse (E : PoolEnv) (raw : String) : Except String ProxyNode :=
  match E.parseUrl (formatted raw) with
  | .error e => .error ("Invalid URL '" ++ raw ++ "': " ++ e)
  | .ok parsed =>
    let scheme := parsed.scheme.toLower
    match ProxyProtocol.ofScheme scheme with
    | none => .error ("Unsupported proxy protocol '" ++ scheme ++ "'")
    | some protocol =>
      match parsed.hostStr with
      | none => .error "Missing host in proxy URL"
      | some host => .ok {
          rawUrl := raw
          protocol := protocol
          host := trimChars (· == '[') (· == ']') host
          port := parsed.port.getD protocol.defaultPort
          username := if parsed.username ≠ "" then some parsed.username else none
          password := parsed.password
          isAlive := true
          failureCount := 0
          isExit := false }

def enforceRemoteDns (node : ProxyNode) : ProxyNode :=
  match node.protocol with
  | .socks5 => { node with protocol := .socks5h }
  | .socks4 => { node with protocol := .socks4a }
  | _ => node

def key (node : ProxyNode) : String := endpointKey node.host node.port

end ProxyNode

/-- The URL under which a relay is parsed. -/
def endpointUrl (host : String) (port : UInt16) : String :=
  if utf8 "reverse://" <+: utf8 host then host
  else if 58 ∈ utf8 host then "socks5://[" ++ host ++ "]:" ++ toString port.toNat
  else "socks5://" ++ host ++ ":" ++ toString port.toNat

/-- The node of a relay. -/
def relayNode (E : PoolEnv) (r : RelayDescriptor) : Except String ProxyNode :=
  (ProxyNode.parse E (endpointUrl r.host r.port)).map fun node =>
    { node.enforceRemoteDns with isExit := r.isExit }

/-- The relays that have been checked so far, and what they may not share with others. -/
structure Staged where
  replacement : List (String × ProxyNode)
  replacementKeys : List (String × Bytes)
  identities : List String
  signingKeys : List Bytes
  classicalKeys : List Bytes
  pqKeys : List Bytes

namespace Staged

def empty : Staged := ⟨[], [], [], [], [], []⟩

/-- The relay is checked. -/
def record (s : Staged) (r : RelayDescriptor) (classical pq : Bytes) : Staged :=
  { s with
    identities := r.nodeId :: s.identities
    signingKeys := r.identityPin :: s.signingKeys
    classicalKeys := classical :: s.classicalKeys
    pqKeys := pq :: s.pqKeys }

/-- The relay is listed. -/
def list (s : Staged) (r : RelayDescriptor) (node : ProxyNode) : Staged :=
  { s with
    replacement := s.replacement ++ [(node.key, node)]
    replacementKeys := s.replacementKeys ++ [(node.key, r.identityPin)] }

/-- The checks on one relay. -/
def add (E : PoolEnv) (revoked : List Bytes) (s : Staged) (r : RelayDescriptor) :
    Except String Staged :=
  match signatureFromSlice r.signature with
  | none => .error "Invalid relay identity proof"
  | some proof =>
    match E.componentPins proof with
    | none => .error "Invalid relay identity components"
    | some (classical, pq) =>
      if classical ∈ s.classicalKeys ∨ pq ∈ s.pqKeys then
        .error "Relay directory aliases an identity component"
      else if r.nodeId ∈ s.identities ∨ r.identityPin ∈ s.signingKeys then
        .error "Duplicate relay identifier in directory snapshot"
      else if r.identityPin ∈ revoked then .ok (s.record r classical pq)
      else
        match relayNode E r with
        | .error e => .error e
        | .ok node =>
          if node.key ∈ s.replacement.map Prod.fst then
            .error "Duplicate endpoint in directory snapshot"
          else .ok ((s.record r classical pq).list r node)

def addAll (E : PoolEnv) (revoked : List Bytes) : List RelayDescriptor → Staged → Except String Staged
  | [], s => .ok s
  | r :: rest, s =>
    match s.add E revoked r with
    | .error e => .error e
    | .ok s => addAll E revoked rest s

end Staged

/-- Whether no endpoint is listed under two pins; `endpoints` has the earlier relays. -/
def endpointsAgree : List RelayDescriptor → List ((String × UInt16) × Bytes) → Bool
  | [], _ => true
  | r :: rest, endpoints =>
    (match endpoints.lookup (r.host, r.port) with
      | some previous => previous == r.identityPin
      | none => true) && endpointsAgree rest (((r.host, r.port), r.identityPin) :: endpoints)

/-- The descriptor checks of `load_from_multi_consensus`. -/
def stageDirectory (E : PoolEnv) (revoked : List Bytes) (relays : List RelayDescriptor) :
    Except String Staged :=
  if relays = [] ∨ relays.any (fun r => !r.verifyIdentity E.toDirectoryEnv) then
    .error "Directory must contain valid signed relay descriptors"
  else if endpointsAgree relays [] = false then
    .error "Conflicting relay identities at the same endpoint"
  else Staged.addAll E revoked relays .empty

/-- The relays that are published. -/
def live (revoked : List Bytes) (relays : List RelayDescriptor) : List RelayDescriptor :=
  relays.filter (·.identityPin ∉ revoked)

lemma isExit_of_relayNode {E : PoolEnv} {r : RelayDescriptor} {node : ProxyNode}
    (h : relayNode E r = .ok node) : node.isExit = r.isExit := by
  unfold relayNode at h
  cases hparse : ProxyNode.parse E (endpointUrl r.host r.port) with
  | error =>
    rw [hparse] at h
    cases h
  | ok =>
    rw [hparse] at h
    cases h
    rfl

/-- Maps of nodes and of pins that list exactly the given relays: each one's node and
pin under its endpoint, with no endpoint and no pin twice. -/
structure Publishes (E : PoolEnv) (relays : List RelayDescriptor) (nodes : List (String × ProxyNode))
    (pins : List (String × Bytes)) : Prop where
  listed : List.Forall₂ (fun r entry => ∃ node, relayNode E r = .ok node ∧ node.isExit = r.isExit ∧
    entry = (node.key, node)) relays nodes
  pinned : List.Forall₂ (fun r entry => ∃ node, relayNode E r = .ok node ∧
    entry = (node.key, r.identityPin)) relays pins
  endpoints : nodes.map Prod.fst = pins.map Prod.fst
  distinctEndpoints : (nodes.map Prod.fst).Nodup
  distinctPins : (pins.map Prod.snd).Nodup

namespace Publishes
variable {E : PoolEnv} {relays : List RelayDescriptor} {nodes : List (String × ProxyNode)}
  {pins : List (String × Bytes)}

lemma pins_eq (h : Publishes E relays nodes pins) :
    pins.map Prod.snd = relays.map (·.identityPin) := by
  have hpinned := h.pinned
  clear h
  induction hpinned with
  | nil => rfl
  | cons hhead _ ih =>
    obtain ⟨node, -, rfl⟩ := hhead
    rw [List.map_cons, List.map_cons, ih]

lemma concat {r : RelayDescriptor} {node : ProxyNode} (h : Publishes E relays nodes pins)
    (hnode : relayNode E r = .ok node) (hkey : node.key ∉ nodes.map Prod.fst)
    (hpin : ∀ r' ∈ relays, r'.identityPin ≠ r.identityPin) :
    Publishes E (relays ++ [r]) (nodes ++ [(node.key, node)])
      (pins ++ [(node.key, r.identityPin)]) := by
  refine ⟨?_, ?_, ?_, ?_, ?_⟩
  · exact List.rel_append h.listed (.cons ⟨node, hnode, isExit_of_relayNode hnode, rfl⟩ .nil)
  · exact List.rel_append h.pinned (.cons ⟨node, hnode, rfl⟩ .nil)
  · simp [h.endpoints]
  · simpa using h.distinctEndpoints.concat hkey
  · have hnew : r.identityPin ∉ pins.map Prod.snd := by
      rw [h.pins_eq, List.mem_map]
      rintro ⟨r', hr', heq⟩
      exact hpin r' hr' heq
    simpa using h.distinctPins.concat hnew

/-- The relay that a listed pin belongs to. -/
lemma exists_of_lookup {key : String} {pin : Bytes} (h : Publishes E relays nodes pins)
    (hpin : pins.lookup key = some pin) :
    ∃ r ∈ relays, ∃ node, relayNode E r = .ok node ∧ node.key = key ∧ r.identityPin = pin := by
  have hpinned := h.pinned
  clear h
  induction hpinned with
  | nil => cases hpin
  | @cons r entry relays pins hhead _ ih =>
    obtain ⟨node, hnode, rfl⟩ := hhead
    rw [List.lookup_cons] at hpin
    split at hpin
    · next hkey =>
      exact ⟨r, List.mem_cons_self .., node, hnode, (beq_iff_eq.mp hkey).symm, Option.some.inj hpin⟩
    · obtain ⟨r', hr', hrest⟩ := ih hpin
      exact ⟨r', List.mem_cons_of_mem _ hr', hrest⟩

end Publishes

namespace Staged
variable {E : PoolEnv} {revoked : List Bytes} {s s' : Staged} {r : RelayDescriptor}

/-- When the checks on a relay pass, and what they leave. -/
lemma add_eq_ok_iff : s.add E revoked r = .ok s' ↔
    ∃ classical pq, E.componentPins r.signature = some (classical, pq) ∧
      (classical ∉ s.classicalKeys ∧ pq ∉ s.pqKeys) ∧
      (r.nodeId ∉ s.identities ∧ r.identityPin ∉ s.signingKeys) ∧
      (r.identityPin ∈ revoked ∧ s' = s.record r classical pq ∨
        r.identityPin ∉ revoked ∧ ∃ node, relayNode E r = .ok node ∧
          node.key ∉ s.replacement.map Prod.fst ∧ s' = (s.record r classical pq).list r node) := by
  unfold add signatureFromSlice
  cases hpins : E.componentPins r.signature with
  | none => by_cases hlen : r.signature.length = PROOF_SIZE <;> simp [hlen, hpins]
  | some pins =>
    obtain ⟨classical, pq⟩ := pins
    have hlen : r.signature.length = PROOF_SIZE := by
      obtain ⟨key, hkey, -⟩ := Option.map_eq_some_iff.mp hpins
      exact (IdentityScheme.publicKey_eq_some hkey).1
    by_cases halias : classical ∈ s.classicalKeys ∨ pq ∈ s.pqKeys
    · simp only [hlen, ne_eq, not_true, if_false, hpins, halias, if_true, reduceCtorEq,
        Option.some.injEq, Prod.mk.injEq, false_iff]
      rintro ⟨_, _, ⟨rfl, rfl⟩, hfresh, -⟩
      tauto
    · by_cases hdup : r.nodeId ∈ s.identities ∨ r.identityPin ∈ s.signingKeys
      · simp only [hlen, ne_eq, not_true, if_false, hpins, halias, hdup, if_true, reduceCtorEq,
          Option.some.injEq, Prod.mk.injEq, false_iff]
        rintro ⟨_, _, ⟨rfl, rfl⟩, -, hfresh, -⟩
        tauto
      · simp only [hlen, ne_eq, not_true, if_false, hpins, halias, hdup, Option.some.injEq,
          Prod.mk.injEq, and_assoc, ← exists_and_left]
        rw [not_or] at halias hdup
        by_cases hrevoked : r.identityPin ∈ revoked
        · simp [hrevoked, halias, hdup, eq_comm]
        · cases hnode : relayNode E r with
          | error => simp [hrevoked]
          | ok node =>
            by_cases hkey : node.key ∈ s.replacement.map Prod.fst
            · simp [hrevoked, hkey, -List.mem_map]
            · simp [hrevoked, hkey, halias, hdup, eq_comm, -List.mem_map]

/-- What is staged after the relays `seen`. -/
structure Holds (E : PoolEnv) (revoked : List Bytes) (seen : List RelayDescriptor) (s : Staged) :
    Prop where
  publishes : Publishes E (live revoked seen) s.replacement s.replacementKeys
  signingKeys : ∀ pin, pin ∈ s.signingKeys ↔ ∃ r ∈ seen, r.identityPin = pin

lemma holds_empty : Staged.empty.Holds E revoked [] :=
  ⟨⟨.nil, .nil, rfl, .nil, .nil⟩, by simp [empty]⟩

lemma Holds.add {seen : List RelayDescriptor} (h : s.Holds E revoked seen)
    (hadd : s.add E revoked r = .ok s') : s'.Holds E revoked (seen ++ [r]) := by
  obtain ⟨classical, pq, -, -, ⟨-, hpin⟩, hcase⟩ := add_eq_ok_iff.mp hadd
  have hsigning : ∀ pin, pin ∈ r.identityPin :: s.signingKeys ↔
      ∃ r' ∈ seen ++ [r], r'.identityPin = pin := by
    intro pin
    simp only [List.mem_cons, h.signingKeys, List.mem_append, List.not_mem_nil, or_false]
    constructor
    · rintro (rfl | ⟨r', hr', rfl⟩)
      · exact ⟨r, .inr rfl, rfl⟩
      · exact ⟨r', .inl hr', rfl⟩
    · rintro ⟨r', hr' | rfl, rfl⟩
      · exact .inr ⟨r', hr', rfl⟩
      · exact .inl rfl
  obtain ⟨hrevoked, rfl⟩ | ⟨hrevoked, node, hnode, hkey, rfl⟩ := hcase
  · have hlive : live revoked (seen ++ [r]) = live revoked seen := by simp [live, hrevoked]
    exact ⟨hlive ▸ h.publishes, hsigning⟩
  · have hlive : live revoked (seen ++ [r]) = live revoked seen ++ [r] := by simp [live, hrevoked]
    refine ⟨hlive ▸ h.publishes.concat hnode hkey fun r' hr' heq => hpin ?_, hsigning⟩
    exact (h.signingKeys _).mpr ⟨r', (List.mem_filter.mp hr').1, heq⟩

lemma Holds.addAll {seen relays : List RelayDescriptor} (h : s.Holds E revoked seen)
    (hall : Staged.addAll E revoked relays s = .ok s') : s'.Holds E revoked (seen ++ relays) := by
  induction relays generalizing s seen with
  | nil =>
    cases hall
    rwa [List.append_nil]
  | cons r rest ih =>
    simp only [Staged.addAll] at hall
    cases hadd : s.add E revoked r with
    | error => simp [hadd] at hall
    | ok =>
      simp only [hadd] at hall
      have hrest := ih (h.add hadd) hall
      rwa [List.append_assoc] at hrest

end Staged

namespace RelayDescriptor
variable {S : DirectoryEnv} {r : RelayDescriptor}

/-- Two relays that share no pin, no key component and no endpoint. -/
def Distinct (r r' : RelayDescriptor) : Prop :=
  r.identityPin ≠ r'.identityPin ∧ classicalBytes r.signature ≠ classicalBytes r'.signature ∧
    postQuantumBytes r.signature ≠ postQuantumBytes r'.signature ∧
    (r.host, r.port) ≠ (r'.host, r'.port)

lemma Distinct.symm {r' : RelayDescriptor} (h : r.Distinct r') : r'.Distinct r :=
  ⟨h.1.symm, h.2.1.symm, h.2.2.1.symm, h.2.2.2.symm⟩

lemma of_verifyIdentity (h : r.verifyIdentity S = true) :
    r.wellFormed S = true ∧ S.verifyStrict r.identityPin r.computeSigningBytes r.signature = true := by
  unfold verifyIdentity at h
  split_ifs at h with hformed
  refine ⟨by simpa using hformed, ?_⟩
  unfold verifyingKeyFromBytes at h
  split_ifs at h
  exact h

lemma validHost_of_verifyIdentity (h : r.verifyIdentity S = true) : validHost S r.host = true := by
  have hformed := (of_verifyIdentity h).1
  simp only [wellFormed, Bool.and_eq_true, decide_eq_true_eq] at hformed
  tauto

lemma componentPins_of_verifyIdentity (h : r.verifyIdentity S = true) :
    S.componentPins r.signature =
      some (classicalBytes r.signature, S.sha256 (postQuantumBytes r.signature)) := by
  obtain ⟨key, hkey, -⟩ := IdentityScheme.publicKey_of_verifyStrict (of_verifyIdentity h).2
  obtain ⟨hclassical, hpq⟩ := IdentityScheme.components_of_publicKey hkey
  rw [IdentityScheme.componentPins, hkey, hclassical, hpq]
  rfl

end RelayDescriptor

lemma endpointKey_inj {host host' : String} {port port' : UInt16}
    (h : endpointKey host port = endpointKey host' port') : host = host' ∧ port = port' := by
  have hdigits : ∀ n : ℕ, ':' ∉ Nat.toDigits 10 n := fun n hmem => by
    have := Nat.isDigit_of_mem_toDigits (by decide) (by decide) hmem
    revert this
    decide
  have hchars := congrArg String.toList h
  simp only [endpointKey, String.toList_append, Nat.toString_eq_ofList_toDigits,
    String.toList_ofList] at hchars
  have hcolon : ":".toList = [':'] := by decide +kernel
  rw [hcolon, List.append_assoc, List.append_assoc, List.singleton_append, List.singleton_append]
    at hchars
  -- the last colon separates host and port, since digits hold none
  have hsplit : host.toList = host'.toList ∧
      Nat.toDigits 10 port.toNat = Nat.toDigits 10 port'.toNat := by
    rcases List.append_eq_append_iff.mp hchars with ⟨as, has, hd⟩ | ⟨as, has, hd⟩
    all_goals
      cases as with
      | nil => simp_all
      | cons c as =>
        rw [List.cons_append, List.cons.injEq] at hd
        exact absurd (hd.2 ▸ List.mem_append_right as (List.mem_cons_self ..)) (hdigits _)
  refine ⟨String.toList_inj.mp hsplit.1, UInt16.toNat_inj.mp ?_⟩
  rw [← Nat.ofDigitChars_ten_toDigits (n := port.toNat), hsplit.2, Nat.ofDigitChars_ten_toDigits]

/-- The URL parser keeps the port of a relay's URL, and does not confuse two hosts. -/
structure PoolEnv.KeepsEndpoints (E : PoolEnv) (hostOf : String → String) : Prop where
  parses (host : String) (port : UInt16) :
    RelayDescriptor.validHost E.toDirectoryEnv host = true → port ≠ 0 →
    ∃ url text, E.parseUrl (ProxyNode.formatted (endpointUrl host port)) = .ok url ∧
      url.scheme = "socks5" ∧ url.hostStr = some text ∧
      trimChars (· == '[') (· == ']') text = hostOf host ∧ url.port = some port
  injective (host host' : String) :
    RelayDescriptor.validHost E.toDirectoryEnv host = true →
    RelayDescriptor.validHost E.toDirectoryEnv host' = true → hostOf host = hostOf host' →
    host = host'

section Passing
variable {E : PoolEnv} {hostOf : String → String} {revoked : List Bytes}
  {relays : List RelayDescriptor}

lemma relayNode_of_verifyIdentity (hurl : E.KeepsEndpoints hostOf) {r : RelayDescriptor}
    (h : r.verifyIdentity E.toDirectoryEnv = true) :
    ∃ node, relayNode E r = .ok node ∧ node.key = endpointKey (hostOf r.host) r.port := by
  have hformed := (RelayDescriptor.of_verifyIdentity h).1
  simp only [RelayDescriptor.wellFormed, Bool.and_eq_true, decide_eq_true_eq] at hformed
  obtain ⟨url, text, hparse, hscheme, hhost, htrim, hport⟩ := hurl.parses r.host r.port
    (by tauto) (by tauto)
  have hlower : "socks5".toLower = "socks5" := by decide +kernel
  refine ⟨_, by simp only [relayNode, ProxyNode.parse, hparse, hscheme, hlower,
    ProxyProtocol.ofScheme, hhost, Except.map]; rfl, ?_⟩
  simp [ProxyNode.key, ProxyNode.enforceRemoteDns, htrim, hport]

lemma endpointsAgree_of_distinct {endpoints : List ((String × UInt16) × Bytes)}
    (hdistinct : relays.Pairwise fun r r' => (r.host, r.port) ≠ (r'.host, r'.port))
    (hnew : ∀ r ∈ relays, endpoints.lookup (r.host, r.port) = none) :
    endpointsAgree relays endpoints = true := by
  induction relays generalizing endpoints with
  | nil => rfl
  | cons r rest ih =>
    obtain ⟨hhead, htail⟩ := List.pairwise_cons.mp hdistinct
    have hrest : endpointsAgree rest (((r.host, r.port), r.identityPin) :: endpoints) = true :=
      ih htail fun r' hr' => by
        have hne : ((r'.host, r'.port) == (r.host, r.port)) = false :=
          beq_eq_false_iff_ne.mpr (hhead r' hr').symm
        rw [List.lookup_cons, hne]
        exact hnew r' (by simp [hr'])
    simp [endpointsAgree, hnew r (by simp), hrest]

/-- Nothing that is staged stands against the relay. -/
def Staged.Clear (E : PoolEnv) (s : Staged) (r : RelayDescriptor) : Prop :=
  (classicalBytes r.signature ∉ s.classicalKeys ∧
    E.sha256 (postQuantumBytes r.signature) ∉ s.pqKeys) ∧
  (r.nodeId ∉ s.identities ∧ r.identityPin ∉ s.signingKeys) ∧
  ∀ node, relayNode E r = .ok node → node.key ∉ s.replacement.map Prod.fst

lemma Staged.addAll_eq_ok (hurl : E.KeepsEndpoints hostOf)
    (hverified : ∀ r ∈ relays, r.verifyIdentity E.toDirectoryEnv = true)
    (hids : relays.Pairwise fun r r' => r.nodeId ≠ r'.nodeId)
    (hdistinct : relays.Pairwise RelayDescriptor.Distinct)
    (hhash : relays.Pairwise fun r r' => E.sha256 (postQuantumBytes r.signature) ≠
      E.sha256 (postQuantumBytes r'.signature)) {s : Staged} (hclear : ∀ r ∈ relays, s.Clear E r) :
    ∃ s', Staged.addAll E revoked relays s = .ok s' := by
  induction relays generalizing s with
  | nil => exact ⟨s, rfl⟩
  | cons r rest ih =>
    obtain ⟨hid, hids⟩ := List.pairwise_cons.mp hids
    obtain ⟨hdistinct, hdistincts⟩ := List.pairwise_cons.mp hdistinct
    obtain ⟨hhash, hhashes⟩ := List.pairwise_cons.mp hhash
    obtain ⟨hkeys, hnames, hendpoint⟩ := hclear r (by simp)
    have hr := hverified r (by simp)
    obtain ⟨node, hnode, hkey⟩ := relayNode_of_verifyIdentity hurl hr
    -- a relay that was clear before is clear of this one too
    have hrecord : ∀ r' ∈ rest, (s.record r (classicalBytes r.signature)
        (E.sha256 (postQuantumBytes r.signature))).Clear E r' := by
      intro r' hr'
      obtain ⟨⟨hc, hpq⟩, ⟨hname, hpin⟩, hend⟩ := hclear r' (by simp [hr'])
      have hne := hdistinct r' hr'
      refine ⟨⟨?_, ?_⟩, ⟨?_, ?_⟩, hend⟩
      · exact List.mem_cons.not.mpr (not_or.mpr ⟨hne.2.1.symm, hc⟩)
      · exact List.mem_cons.not.mpr (not_or.mpr ⟨(hhash r' hr').symm, hpq⟩)
      · exact List.mem_cons.not.mpr (not_or.mpr ⟨(hid r' hr').symm, hname⟩)
      · exact List.mem_cons.not.mpr (not_or.mpr ⟨hne.1.symm, hpin⟩)
    by_cases hrevoked : r.identityPin ∈ revoked
    · have hadd : s.add E revoked r = .ok (s.record r (classicalBytes r.signature)
          (E.sha256 (postQuantumBytes r.signature))) :=
        add_eq_ok_iff.mpr ⟨_, _, RelayDescriptor.componentPins_of_verifyIdentity hr, hkeys, hnames,
          .inl ⟨hrevoked, rfl⟩⟩
      simp only [Staged.addAll, hadd]
      exact ih (fun r' hr' => hverified r' (by simp [hr'])) hids hdistincts hhashes hrecord
    · have hadd : s.add E revoked r = .ok ((s.record r (classicalBytes r.signature)
          (E.sha256 (postQuantumBytes r.signature))).list r node) :=
        add_eq_ok_iff.mpr ⟨_, _, RelayDescriptor.componentPins_of_verifyIdentity hr, hkeys, hnames,
          .inr ⟨hrevoked, node, hnode, hendpoint node hnode, rfl⟩⟩
      simp only [Staged.addAll, hadd]
      refine ih (fun r' hr' => hverified r' (by simp [hr'])) hids hdistincts hhashes fun r' hr' => ?_
      obtain ⟨hkeys', hnames', hend'⟩ := hrecord r' hr'
      refine ⟨hkeys', hnames', fun node' hnode' hmem => ?_⟩
      have hr'' := hverified r' (by simp [hr'])
      obtain ⟨node'', hnode'', hkey''⟩ := relayNode_of_verifyIdentity hurl hr''
      obtain rfl : node' = node'' := Except.ok.inj (hnode'.symm.trans hnode'')
      rw [list, List.map_append, List.mem_append, List.map_singleton, List.mem_singleton] at hmem
      rcases hmem with hmem | hmem
      · exact hend' node' hnode' hmem
      · rw [hkey, hkey''] at hmem
        obtain ⟨hhost, hport⟩ := endpointKey_inj hmem
        refine (hdistinct r' hr').2.2.2 (Prod.ext (hurl.injective _ _ ?_ ?_ hhost.symm) hport.symm)
        · exact RelayDescriptor.validHost_of_verifyIdentity hr
        · exact RelayDescriptor.validHost_of_verifyIdentity hr''

/-- Verified relays that differ in id, pin, components and endpoint pass all checks. -/
theorem stageDirectory_of_distinct (hurl : E.KeepsEndpoints hostOf) (hne : relays ≠ [])
    (hverified : ∀ r ∈ relays, r.verifyIdentity E.toDirectoryEnv = true)
    (hids : relays.Pairwise fun r r' => r.nodeId ≠ r'.nodeId)
    (hdistinct : relays.Pairwise RelayDescriptor.Distinct)
    (hhash : relays.Pairwise fun r r' => E.sha256 (postQuantumBytes r.signature) ≠
      E.sha256 (postQuantumBytes r'.signature)) :
    ∃ s, stageDirectory E revoked relays = .ok s := by
  have hcheck : ¬ (relays = [] ∨ relays.any (fun r => !r.verifyIdentity E.toDirectoryEnv) = true) := by
    simp only [hne, false_or, List.any_eq_true, Bool.not_eq_true', not_exists, not_and]
    intro r hr
    simp [hverified r hr]
  have hagree : endpointsAgree relays [] = true :=
    endpointsAgree_of_distinct (hdistinct.imp fun h => h.2.2.2) (by simp)
  unfold stageDirectory
  rw [if_neg hcheck, if_neg (by simp [hagree])]
  exact Staged.addAll_eq_ok hurl hverified hids hdistinct hhash
    (by simp [Staged.Clear, Staged.empty])

end Passing

section Sample

lemma trimChars_eq_self {p q : Char → Bool} {s : String} {c d : Char} {init rest : List Char}
    (hfirst : s.toList = c :: rest) (hc : p c = false) (hlast : s.toList = init ++ [d])
    (hd : q d = false) : trimChars p q s = s := by
  have hdrop : s.toList.dropWhile p = s.toList := by
    rw [hfirst, List.dropWhile_cons_of_neg (by simp [hc])]
  have hend : s.toList.reverse.dropWhile q = s.toList.reverse := by
    rw [hlast, List.reverse_append, List.reverse_singleton, List.singleton_append,
      List.dropWhile_cons_of_neg (by simp [hd])]
  rw [trimChars, hdrop, hend, List.reverse_reverse, String.ofList_toList]

/-- No printable character of ASCII is white space. -/
lemma isWhiteSpace_eq_false {c : Char} (hlow : 33 ≤ c.toNat) (hhigh : c.toNat ≤ 126) :
    isWhiteSpace c = false := by
  simp only [isWhiteSpace, Bool.or_eq_false_iff, Bool.and_eq_false_iff, decide_eq_false_iff_not,
    beq_eq_false_iff_ne]
  omega

lemma isWhiteSpace_of_isDigit {c : Char} (h : c.isDigit = true) : isWhiteSpace c = false := by
  have hrange : 48 ≤ c.toNat ∧ c.toNat ≤ 57 := by
    simpa [Char.isDigit, UInt32.le_iff_toNat_le] using h
  exact isWhiteSpace_eq_false (by omega) (by omega)

/-- The URL of a host without a colon is given to the parser as it is. -/
lemma formatted_endpointUrl {host : String} (hcolon : 58 ∉ utf8 host) (port : UInt16) :
    ProxyNode.formatted (endpointUrl host port) = "socks5://" ++ host ++ ":" ++ toString port.toNat := by
  have hreverse : ¬ utf8 "reverse://" <+: utf8 host :=
    fun h => hcolon (h.subset (by decide +kernel))
  have hurl : endpointUrl host port = "socks5://" ++ host ++ ":" ++ toString port.toNat := by
    rw [endpointUrl, if_neg hreverse, if_neg hcolon]
  obtain ⟨init, d, hdigits⟩ := List.eq_nil_or_concat' (Nat.toDigits 10 port.toNat) |>.resolve_left
    Nat.toDigits_ne_nil
  have hchars : ("socks5://" ++ host ++ ":" ++ toString port.toNat).toList =
      "socks5://".toList ++ host.toList ++ ":".toList ++ init ++ [d] := by
    simp only [String.toList_append, Nat.toString_eq_ofList_toDigits, String.toList_ofList, hdigits,
      List.append_assoc]
  have hspace : isWhiteSpace d = false := by
    have hmem : d ∈ Nat.toDigits 10 port.toNat := by
      rw [hdigits]
      exact List.mem_append_right _ (List.mem_singleton_self d)
    exact isWhiteSpace_of_isDigit (Nat.isDigit_of_mem_toDigits (by decide) (by decide) hmem)
  have htrim : trimChars isWhiteSpace isWhiteSpace
      ("socks5://" ++ host ++ ":" ++ toString port.toNat) =
      "socks5://" ++ host ++ ":" ++ toString port.toNat := by
    have hfirst : ("socks5://" ++ host ++ ":" ++ toString port.toNat).toList =
        's' :: ("ocks5://".toList ++ host.toList ++ ":".toList ++ init ++ [d]) := by
      rw [hchars, show "socks5://".toList = 's' :: "ocks5://".toList by decide +kernel]
      rfl
    exact trimChars_eq_self hfirst (by decide) hchars hspace
  have hscheme : utf8 "://" <:+: utf8 ("socks5://" ++ host ++ ":" ++ toString port.toNat) := by
    simp only [utf8_append, List.append_assoc]
    exact List.infix_append_of_infix_left (by decide +kernel)
  rw [ProxyNode.formatted, hurl, htrim, if_pos hscheme]

/-- Eight hosts with addresses in different networks. -/
def sampleHosts : List (String × Bytes) :=
  (List.range 8).map fun n => (toString n ++ ".1.1.1", [UInt8.ofNat n, 1, 1, 1])

def samplePool : PoolEnv where
  toIdentityScheme := sampleScheme
  parseIp host := some (.v4 ((sampleHosts.lookup host).getD []))
  ipText
    | .v4 (n :: _) => toString n.toNat ++ ".1.1.1"
    | _ => ""
  parseUrl text :=
    let chars := text.toList.drop 9
    let host := chars.takeWhile (· ≠ ':')
    .ok ⟨"socks5", some (String.ofList host),
      some (UInt16.ofNat (Nat.ofDigitChars 10 (chars.drop (host.length + 1)) 0)), "", none⟩

lemma mem_of_validHost_sample {host : String}
    (h : RelayDescriptor.validHost samplePool.toDirectoryEnv host = true) :
    host ∈ "" :: sampleHosts.map Prod.fst := by
  by_contra hnot
  have hlookup : sampleHosts.lookup host = none := by
    rw [List.lookup_eq_none_iff]
    intro p hp
    rw [bne_iff_ne]
    rintro rfl
    exact hnot (List.mem_cons_of_mem _ (List.mem_map_of_mem hp))
  simp only [RelayDescriptor.validHost, samplePool, hlookup, Option.getD_none, beq_iff_eq] at h
  exact hnot (h ▸ List.mem_cons_self ..)

lemma keepsEndpoints_sample : samplePool.KeepsEndpoints id := by
  refine ⟨fun host port hhost _ => ?_, fun _ _ _ _ h => h⟩
  have hnames : ∀ host ∈ "" :: sampleHosts.map Prod.fst, 58 ∉ utf8 host ∧ ':' ∉ host.toList ∧
      trimChars (· == '[') (· == ']') host = host := by decide +kernel
  obtain ⟨hcolon, hchar, htrim⟩ := hnames host (mem_of_validHost_sample hhost)
  have hchars : ("socks5://" ++ host ++ ":" ++ toString port.toNat).toList.drop 9 =
      host.toList ++ ':' :: Nat.toDigits 10 port.toNat := by
    have hscheme : "socks5://".toList.length = 9 := by decide +kernel
    simp only [String.toList_append, Nat.toString_eq_ofList_toDigits, String.toList_ofList,
      List.append_assoc, ← hscheme, List.drop_left]
    rfl
  have htake : (host.toList ++ ':' :: Nat.toDigits 10 port.toNat).takeWhile (· ≠ ':') =
      host.toList := by
    rw [List.takeWhile_append_of_pos fun c hc => ?_]
    · simp
    · exact decide_eq_true fun h => hchar (h ▸ hc)
  rw [formatted_endpointUrl hcolon]
  refine ⟨_, _, rfl, rfl, rfl, ?_, ?_⟩
  · rw [hchars, htake, String.ofList_toList]
    exact htrim
  · have hdrop : (host.toList ++ ':' :: Nat.toDigits 10 port.toNat).drop (host.toList.length + 1) =
        Nat.toDigits 10 port.toNat := by
      rw [← List.drop_drop, List.drop_left, List.drop_one, List.tail_cons]
    simp only [hchars, htake, hdrop, Nat.ofDigitChars_ten_toDigits, UInt16.ofNat_toNat]

/-- A relay at a sample host that the key `n` has signed. -/
def poolRelayAt (n : UInt8) (registeredAt : UInt64) : RelayDescriptor :=
  let r : RelayDescriptor := ⟨"relay-" ++ toString n, toString n ++ ".1.1.1", 9001, [n],
    (sampleKey n).verifyingKey, n % 2 == 0, registeredAt, registeredAt, []⟩
  { r with signature := (sampleKey n).sign r.computeSigningBytes }

def poolRelay (n : UInt8) : RelayDescriptor := poolRelayAt n 1000

end Sample

end AnonGuard
