import AnonGuard.Handshake
import AnonGuard.OnionBackward
import AnonGuard.PoolNode

/-!
# Telescopic circuits

`negotiate_telescopic_hops` makes the first hop with a CREATE cell on the link to the
entry, and every further hop with an EXTEND cell through the circuit so far. What is behind
the link is a parameter: it answers each frame in any way, or not at all. The keys of a hop
are accepted only with a signature of the pinned identity over the hop's transcript.
-/
namespace AnonGuard

/-- The errors of `negotiate_telescopic_hops`. -/
inductive TelescopeError
  | tooShort (hops : ℕ)
  | invalidLength (hops : ℕ)
  | notDistinct
  | createCell (error : CircuitError)
  | link
  | parseCreated (error : String)
  | handshake (hop : ℕ) (error : CircuitError)
  | addHop (hop : ℕ) (error : CircuitError)
  | encodeExtend (error : CircuitError)
  | extendCell (error : String)
  | wrapForward (error : CircuitError)
  | unwrapBackward (hop : ℕ) (error : CircuitError)
  | missingPin
  deriving DecidableEq, Repr

/-- The texts, up to the error of the layer below. -/
def TelescopeError.message : TelescopeError → String
  | tooShort hops => "Circuit chain too short: " ++ toString hops ++ " hops (minimum is 3)"
  | invalidLength hops =>
    "Invalid circuit: " ++ toString hops ++ " hops (allowed 3..=8), with one pin per hop"
  | notDistinct => "Circuit requires distinct endpoints and nonzero independent identity pins"
  | createCell _ => "Failed to build CREATE cell: "
  | link => ""
  | parseCreated _ => "Failed to parse CREATED cell: "
  | handshake hop _ => "Hop " ++ toString hop ++ " identity-bound handshake failed: "
  | addHop hop _ => "Failed to add hop " ++ toString hop ++ ": "
  | encodeExtend _ => "Failed to encode EXTEND payload: "
  | extendCell _ => "Failed to build EXTEND cell: "
  | wrapForward _ => "Failed to wrap forward: "
  | unwrapBackward hop _ => "Failed to unwrap backward cell from Hop " ++ toString hop ++ ": "
  | missingPin => "No pinned identity key for Hop 0 — refusing unauthenticated handshake"

/-- The circuit so far and what is behind the link. `created` is a history: the answers
whose handshakes have been accepted. -/
structure Negotiation (σ : Type*) where
  circuit : OnionCircuit
  net : σ
  created : List OnionCell

section Client
variable {σ : Type*} (S : HandshakeScheme) (P : Primitives)
  (exchange : σ → Frame → Option (Frame × σ)) (circuitId : UInt32)

/-- `process_created_cell` and `add_hop`. -/
def finishHop (n : Negotiation σ) (cell : OnionCell) (eph : ClientEphemeral) (pin : Bytes)
    (hopIdx : ℕ) : Except TelescopeError (Negotiation σ) :=
  match S.processCreatedCell cell eph pin circuitId hopIdx with
  | .error e => .error (.handshake hopIdx e)
  | .ok keys =>
    match n.circuit.addHop keys with
    | (.error e, _) => .error (.addHop hopIdx e)
    | (.ok (), circuit) => .ok { n with circuit := circuit, created := n.created ++ [cell] }

/-- The hop at the entry. -/
def createHop (net : σ) (eph : ClientEphemeral) (pin : Bytes) :
    Except TelescopeError (Negotiation σ) :=
  match buildCreateCell circuitId (S.x25519Public eph.secret) (S.mlkemPublic eph.decapsulationKey) 0
      eph.padding with
  | .error e => .error (.createCell e)
  | .ok createCell =>
    match exchange net createCell.serialize with
    | none => .error .link
    | some (answer, net) =>
      match OnionCell.parse answer with
      | .error e => .error (.parseCreated e)
      | .ok createdCell => finishHop S circuitId ⟨.new circuitId, net, []⟩ createdCell eph pin 0

/-- The EXTEND cell for a further hop, with the pin of that hop behind the payload. -/
def buildExtendCell (node : ProxyNode) (pin : Bytes) (eph : ClientEphemeral) (hopIdx : ℕ) :
    Except TelescopeError OnionCell :=
  match encodeExtendPayload node.host node.port (S.x25519Public eph.secret)
      (S.mlkemPublic eph.decapsulationKey) hopIdx with
  | .error e => .error (.encodeExtend e)
  | .ok payload =>
    match OnionCell.new circuitId (UInt32.ofNat hopIdx) .extend 0 (payload ++ pin) eph.padding with
    | .error e => .error (.extendCell e)
    | .ok extendCell => .ok extendCell

/-- A further hop, through the circuit so far. -/
def extendHop (n : Negotiation σ) (node : ProxyNode) (pin : Bytes) (eph : ClientEphemeral)
    (hopIdx : ℕ) : Except TelescopeError (Negotiation σ) :=
  match buildExtendCell S circuitId node pin eph hopIdx with
  | .error e => .error e
  | .ok extendCell =>
    match n.circuit.wrapForward P extendCell with
    | (.error e, _) => .error (.wrapForward e)
    | (.ok wire, circuit) =>
      match exchange n.net wire with
      | none => .error .link
      | some (answer, net) =>
        match circuit.unwrapBackward P answer with
        | (.error e, _) => .error (.unwrapBackward hopIdx e)
        | (.ok (_, cell), circuit) =>
          finishHop S circuitId { n with circuit := circuit, net := net } cell eph pin hopIdx

/-- The loop over the hops after the entry. -/
def extendHops (coins : ℕ → ClientEphemeral) :
    List (ProxyNode × Bytes) → ℕ → Negotiation σ → Except TelescopeError (Negotiation σ)
  | [], _, n => .ok n
  | (node, pin) :: rest, hopIdx, n =>
    match extendHop S P exchange circuitId n node pin (coins hopIdx) hopIdx with
    | .error e => .error e
    | .ok n => extendHops coins rest (hopIdx + 1) n

def negotiateTelescopicHops (net : σ) (chain : List ProxyNode) (pinnedIdentityKeys : List Bytes)
    (coins : ℕ → ClientEphemeral) : Except TelescopeError (Negotiation σ) :=
  if chain.length < 3 then .error (.tooShort chain.length)
  else if chain.length > MAX_HOPS ∨ pinnedIdentityKeys.length ≠ chain.length then
    .error (.invalidLength chain.length)
  else if pinnedIdentityKeys.dedup.length ≠ chain.length ∨
      (chain.map fun node => (node.host, node.port)).dedup.length ≠ chain.length ∨
      ZERO_PIN ∈ pinnedIdentityKeys then .error .notDistinct
  else
    match chain.zip pinnedIdentityKeys with
    | [] => .error .missingPin
    | (_, pin) :: rest =>
      match createHop S exchange circuitId net (coins 0) pin with
      | .error e => .error e
      | .ok n => extendHops S P exchange circuitId coins rest 1 n

end Client

section Inversion
variable {σ : Type*} {S : HandshakeScheme} {P : Primitives}
  {exchange : σ → Frame → Option (Frame × σ)} {circuitId : UInt32} {n n' : Negotiation σ}
  {eph : ClientEphemeral} {pin : Bytes} {hopIdx : ℕ}

/-- An accepted hop is added behind the others, with the keys of its own handshake. -/
lemma finishHop_eq_ok {cell : OnionCell} (h : finishHop S circuitId n cell eph pin hopIdx = .ok n') :
    ∃ keys, S.processCreatedCell cell eph pin circuitId hopIdx = .ok keys ∧
      n'.circuit.hops = n.circuit.hops ++ [keys] ∧ n'.created = n.created ++ [cell] := by
  unfold finishHop at h
  split at h
  · cases h
  · rename_i keys hkeys
    unfold OnionCircuit.addHop at h
    split_ifs at h with hfull
    cases h
    exact ⟨keys, hkeys, rfl, rfl⟩

lemma createHop_eq_ok {net : σ} (h : createHop S exchange circuitId net eph pin = .ok n') :
    ∃ cell keys, S.processCreatedCell cell eph pin circuitId 0 = .ok keys ∧
      n'.circuit.hops = [keys] ∧ n'.created = [cell] := by
  unfold createHop at h
  split at h
  · cases h
  split at h
  · cases h
  split at h
  · cases h
  rename_i cell hparse
  obtain ⟨keys, hkeys, hhops, hcreated⟩ := finishHop_eq_ok h
  exact ⟨cell, keys, hkeys, hhops, hcreated⟩

lemma extendHop_eq_ok {node : ProxyNode}
    (h : extendHop S P exchange circuitId n node pin eph hopIdx = .ok n') :
    ∃ cell keys, S.processCreatedCell cell eph pin circuitId hopIdx = .ok keys ∧
      n'.circuit.hops = n.circuit.hops ++ [keys] ∧ n'.created = n.created ++ [cell] := by
  unfold extendHop at h
  split at h
  · cases h
  rename_i extendCell hcell
  split at h
  · cases h
  rename_i wire circuit hwrap
  split at h
  · cases h
  split at h
  · cases h
  rename_i hop cell unwrapped hunwrap
  obtain ⟨keys, hkeys, hhops, hcreated⟩ := finishHop_eq_ok h
  have hwrapped : circuit.hops = n.circuit.hops := by
    rw [← n.circuit.wrapForward_hops P extendCell, hwrap]
  have hunwrapped : unwrapped.hops = circuit.hops := by
    rw [← circuit.unwrapBackward_hops P, hunwrap]
  exact ⟨cell, keys, hkeys, by rw [hhops, hunwrapped, hwrapped], hcreated⟩

end Inversion

section Agreement
variable {σ : Type*} {S : HandshakeScheme} {P : Primitives}
  {exchange : σ → Frame → Option (Frame × σ)} {circuitId : UInt32} {n n' : Negotiation σ}
  {coins : ℕ → ClientEphemeral} {pins : List Bytes}

/-- The keys of every hop so far were accepted from an answer for the pin of that hop. -/
def Agreed (S : HandshakeScheme) (circuitId : UInt32) (pins : List Bytes)
    (coins : ℕ → ClientEphemeral) (n : Negotiation σ) : Prop :=
  ∀ i keys, n.circuit.hops[i]? = some keys → ∃ cell ∈ n.created, ∃ pin,
    pins[i]? = some pin ∧ S.processCreatedCell cell (coins i) pin circuitId i = .ok keys

/-- One more accepted hop. -/
lemma Agreed.snoc (hn : Agreed S circuitId pins coins n) {cell : OnionCell} {keys : HopKeys}
    {pin : Bytes} {hopIdx : ℕ} (hlen : n.circuit.hops.length = hopIdx) (hpin : pins[hopIdx]? = some pin)
    (hkeys : S.processCreatedCell cell (coins hopIdx) pin circuitId hopIdx = .ok keys)
    (hhops : n'.circuit.hops = n.circuit.hops ++ [keys])
    (hcreated : n'.created = n.created ++ [cell]) : Agreed S circuitId pins coins n' := by
  intro i keys' hi
  rw [hhops] at hi
  rw [hcreated]
  by_cases hlast : i = hopIdx
  · subst hlast
    rw [List.getElem?_append_right (le_of_eq hlen), hlen, Nat.sub_self] at hi
    cases hi
    exact ⟨cell, by simp, pin, hpin, hkeys⟩
  · have hlt : i < n.circuit.hops.length := by
      have hbound := (List.getElem?_eq_some_iff.mp hi).1
      rw [List.length_append, List.length_singleton] at hbound
      omega
    rw [List.getElem?_append_left hlt] at hi
    obtain ⟨cell', hmem, hold⟩ := hn i keys' hi
    exact ⟨cell', List.mem_append_left _ hmem, hold⟩

/-- The loop keeps the agreement, by induction on the hops still to be added. -/
lemma extendHops_agreed (rest : List (ProxyNode × Bytes)) (hopIdx : ℕ)
    (hn : Agreed S circuitId pins coins n) (hlen : n.circuit.hops.length = hopIdx)
    (hpins : ∀ j node pin, rest[j]? = some (node, pin) → pins[hopIdx + j]? = some pin)
    (hok : extendHops S P exchange circuitId coins rest hopIdx n = .ok n') :
    Agreed S circuitId pins coins n' ∧ n'.circuit.hops.length = hopIdx + rest.length := by
  induction rest generalizing hopIdx n with
  | nil =>
    cases hok
    exact ⟨hn, hlen⟩
  | cons hop rest ih =>
    obtain ⟨node, pin⟩ := hop
    unfold extendHops at hok
    split at hok
    · cases hok
    rename_i next hnext
    obtain ⟨cell, keys, hkeys, hhops, hcreated⟩ := extendHop_eq_ok hnext
    have hlen' : next.circuit.hops.length = hopIdx + 1 := by simp [hhops, hlen]
    have hshift : ∀ j node pin, rest[j]? = some (node, pin) →
        pins[hopIdx + 1 + j]? = some pin := by
      intro j node pin hj
      rw [Nat.add_right_comm]
      exact hpins (j + 1) node pin hj
    obtain ⟨hagreed, hlength⟩ := ih (hopIdx + 1)
      (hn.snoc hlen (hpins 0 node pin rfl) hkeys hhops hcreated) hlen' hshift hok
    refine ⟨hagreed, ?_⟩
    rw [hlength, List.length_cons]
    omega

/-- A circuit that was built has one agreed hop per node of the chain. -/
theorem negotiateTelescopicHops_agreed {net : σ} {chain : List ProxyNode}
    (hok : negotiateTelescopicHops S P exchange circuitId net chain pins coins = .ok n) :
    Agreed S circuitId pins coins n ∧ n.circuit.hops.length = chain.length ∧
      pins.length = chain.length := by
  unfold negotiateTelescopicHops at hok
  split_ifs at hok with hshort hlong hdistinct
  obtain ⟨-, hpinned⟩ := not_or.mp hlong
  have hpinned : pins.length = chain.length := not_not.mp hpinned
  split at hok
  · cases hok
  rename_i node pin rest hzip
  split at hok
  · cases hok
  rename_i first hfirst
  obtain ⟨cell, keys, hkeys, hhops, hcreated⟩ := createHop_eq_ok hfirst
  have hpin : ∀ j node pin, (chain.zip pins)[j]? = some (node, pin) → pins[j]? = some pin :=
    fun j node pin hj => (List.getElem?_zip_eq_some.mp hj).2
  have hagreed : Agreed S circuitId pins coins first := by
    have hempty : Agreed S circuitId pins coins (⟨.new circuitId, first.net, []⟩ : Negotiation σ) :=
      fun i keys hi => by simp [OnionCircuit.new] at hi
    exact hempty.snoc rfl (hpin 0 node pin (by rw [hzip]; rfl)) hkeys hhops hcreated
  have hpins : ∀ j node pin, rest[j]? = some (node, pin) → pins[1 + j]? = some pin := by
    intro j node pin hj
    rw [Nat.add_comm]
    exact hpin (j + 1) node pin (by rw [hzip]; exact hj)
  obtain ⟨hall, hlength⟩ := extendHops_agreed rest 1 hagreed (by simp [hhops]) hpins hok
  refine ⟨hall, ?_, hpinned⟩
  have hzipped : (chain.zip pins).length = rest.length + 1 := by rw [hzip, List.length_cons]
  rw [List.length_zip, hpinned, Nat.min_self] at hzipped
  omega

end Agreement

section Authentication
variable {σ : Type*} {S : HandshakeScheme} {P : Primitives} {circuitId : UInt32} {hopIdx : ℕ}
  {pin : Bytes} {eph : ClientEphemeral} {cell : OnionCell} {keys : HopKeys}
  {signed : Bytes → Bytes → Prop}

/-- The signature in an answer is no forgery: where it verifies, the owner of the pin has
signed the message. -/
def OnionCell.Unforged (S : HandshakeScheme) (signed : Bytes → Bytes → Prop) (cell : OnionCell) :
    Prop :=
  ∀ pin message, S.verifyStrict pin message (slice 64 (64 + PROOF_SIZE) cell.payload) = true →
    signed pin message

/-- The owner of the pin has signed the transcript that the keys of the hop are derived from:
the circuit id, the index of the hop, the pin, both ephemeral keys, the client's KEM key and
the ciphertext. -/
def SignedHop (S : HandshakeScheme) (signed : Bytes → Bytes → Prop) (circuitId : UInt32)
    (hopIdx : ℕ) (pin : Bytes) (eph : ClientEphemeral) (keys : HopKeys) : Prop :=
  ∃ relayPub mlkemCt mlkemShared,
    let t : Transcript := ⟨circuitId, hopIdx, pin, relayPub, S.x25519Public eph.secret,
      S.mlkemPublic eph.decapsulationKey, mlkemCt⟩
    signed pin t.preimage ∧ S.decapsulate eph.decapsulationKey mlkemCt = some mlkemShared ∧
      S.deriveHopKeysWithContext (S.diffieHellman eph.secret relayPub ++ mlkemShared) t.preimage =
        .ok keys

/-- A circuit that a relay takes part in. -/
structure RelaySession (S : HandshakeScheme) where
  relayKey : SigningKey S.toIdentityScheme
  eph : RelayEphemeral
  createCell : OnionCell
  hop : RelayCircuitHop
  createdCell : OnionCell
  accepted : S.handleCreateCell createCell relayKey eph = .ok (hop, createdCell)

/-- What the relay signs in a session. -/
def RelaySession.Signs (s : RelaySession S) (message : Bytes) : Prop :=
  ∃ t hybridSecret, S.relayAgreement s.createCell s.relayKey s.eph = .ok (t, hybridSecret) ∧
    t.preimage = message

/-- An owner who signs handshake transcripts only as the program does. -/
def HonestOwner (signed : Bytes → Bytes → Prop) (sessions : Set (RelaySession S)) (pin : Bytes) :
    Prop :=
  ∀ t : Transcript, t.Sized → signed pin t.preimage →
    ∃ s ∈ sessions, s.relayKey.verifyingKey = pin ∧ s.Signs t.preimage

lemma processCreatedCell_eq_ok (h : S.processCreatedCell cell eph pin circuitId hopIdx = .ok keys) :
    ∃ t hybridSecret, S.clientAgreement cell eph pin circuitId hopIdx = .ok (t, hybridSecret) ∧
      S.deriveHopKeysWithContext hybridSecret t.preimage = .ok keys := by
  unfold HandshakeScheme.processCreatedCell at h
  split at h
  · cases h
  · rename_i t hybridSecret hagree
    exact ⟨t, hybridSecret, hagree, h⟩

lemma signedHop_of_processCreatedCell
    (h : S.processCreatedCell cell eph pin circuitId hopIdx = .ok keys)
    (hcell : cell.Unforged S signed) : SignedHop S signed circuitId hopIdx pin eph keys := by
  obtain ⟨t, hybridSecret, hagree, hderive⟩ := processCreatedCell_eq_ok h
  obtain ⟨mlkemShared, -, rfl, -, hverify, hopen, rfl⟩ :=
    HandshakeScheme.clientAgreement_eq_ok hagree
  exact ⟨_, _, mlkemShared, hcell _ _ hverify, hopen, hderive⟩

/-- With an honest owner, the keys are those of one of its sessions, at the same place of the
same circuit. -/
lemma session_of_processCreatedCell (hS : S.Correct) {sessions : Set (RelaySession S)}
    (h : S.processCreatedCell cell eph pin circuitId hopIdx = .ok keys)
    (hcell : cell.Unforged S signed) (howner : HonestOwner signed sessions pin) :
    ∃ s ∈ sessions, s.relayKey.verifyingKey = pin ∧ s.hop.keys = keys ∧
      s.hop.hopIndex = hopIdx ∧ s.hop.contextId = circuitId := by
  obtain ⟨t, hybridSecret, hagree, hderive⟩ := processCreatedCell_eq_ok h
  have hsized := HandshakeScheme.sized_of_clientAgreement hagree
  obtain ⟨-, -, ht, -, hverify, -, -⟩ := HandshakeScheme.clientAgreement_eq_ok hagree
  obtain ⟨s, hs, hkey, t', relaySecret, hrelay, hsame⟩ := howner t hsized (hcell _ _ hverify)
  have htt : t' = t :=
    Transcript.preimage_injective (HandshakeScheme.sized_of_relayAgreement hS hrelay) hsized hsame
  subst htt
  have hsecret := HandshakeScheme.secret_of_transcript hS hrelay hagree
  obtain ⟨t'', secret', hrelay', hderive', hhop, -⟩ :=
    HandshakeScheme.handleCreateCell_eq_ok s.accepted
  rw [hrelay] at hrelay'
  cases hrelay'
  rw [hsecret, hderive] at hderive'
  refine ⟨s, hs, hkey, (Except.ok.inj hderive').symm, ?_, ?_⟩
  · rw [hhop, ht]
    rfl
  · rw [hhop, ht]

end Authentication

end AnonGuard
