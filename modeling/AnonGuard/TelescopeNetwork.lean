import AnonGuard.Relay
import AnonGuard.Telescope

/-!
# A telescopic circuit through honest relays

The relays of a circuit answer the client as `handle_relay_inner` does: the last one opens an
EXTEND cell, connects to the next relay under a fresh link id and seals its CREATED cell as a
cell of its own, and the others add or strip their layers. Each relay is given with its draws.
Who listens at an endpoint that a relay may connect to is a parameter.
-/
namespace AnonGuard

/-- A relay and what it draws for the circuit. -/
structure NetworkRelay (S : HandshakeScheme) where
  key : SigningKey S.toIdentityScheme
  eph : RelayEphemeral
  /-- The random link ids, in the order of the draws. -/
  linkIds : List UInt32
  padding : Padding

/-- The relays that have joined the circuit, the entry first. -/
abbrev RelayPath (S : HandshakeScheme) := List (NetworkRelay S × RelayCircuitHop)

section Network
variable {S : HandshakeScheme} (P : Primitives)
  (dial : NetworkRelay S → String → UInt16 → Option (NetworkRelay S))

/-- Draw link ids until one is neither zero nor the id of the relay's own link. -/
def NetworkRelay.nextId (r : NetworkRelay S) (hop : RelayCircuitHop) : Option UInt32 :=
  r.linkIds.find? fun id => decide (id ≠ 0) && decide (id ≠ hop.circuitId)

/-- A relay that has accepted a connection answers the CREATE cell on it. -/
def NetworkRelay.answer (r : NetworkRelay S) (frame : Frame) :
    Option (Frame × RelayCircuitHop) :=
  match OnionCell.parse frame with
  | .error _ => none
  | .ok createCell =>
    match S.handleCreateCell createCell r.key r.eph with
    | .error _ => none
    | .ok (hop, createdCell) => some (createdCell.serialize, hop)

/-- The EXTEND branch of a relay that has no successor yet. The link to the next relay is
authenticated with the pin from the cell. -/
def extendPath (r : NetworkRelay S) (hop : RelayCircuitHop) (payload : Bytes) :
    Option (Frame × RelayPath S) :=
  match hop.extendBody payload with
  | .error _ => none
  | .ok body =>
    match body.nextPin payload, dial r body.host body.port, r.nextId hop with
    | .ok nextPin, some next, some nextId =>
      if nextPin = ZERO_PIN ∨ next.key.verifyingKey ≠ nextPin then none
      else
        match hop.createFor body nextId r.padding with
        | .error _ => none
        | .ok createCell =>
          match next.answer createCell.serialize with
          | none => none
          | some (response, nextHop) =>
            match hop.originateCreated P nextId response with
            | none => none
            | some (raw, hop) => some (raw, [(r, hop), (next, nextHop)])
    | _, _, _ => none

/-- The answer of the relays to a frame of the client, and the relays after it. -/
def relayAnswer : RelayPath S → Frame → Option (Frame × RelayPath S)
  | [], _ => none
  | [(r, hop)], frame =>
    match hop.peelForward P frame with
    | (.ok (.addressedToThisRelay .extend len), opened, hop) =>
      extendPath P dial r hop (slice 45 (45 + len) opened.bytes)
    | _ => none
  | (r, hop) :: (q, next) :: rest, frame =>
    match hop.relayForward P next.circuitId frame with
    | (.ok .forwardDownstream, forwarded, hop) =>
      match relayAnswer ((q, next) :: rest) forwarded with
      | none => none
      | some (answer, tail) =>
        (hop.relayBackward P next.circuitId answer).map fun raw => (raw, (r, hop) :: tail)
    | _ => none

/-- The link to the entry: a CREATE cell first, then cells of the circuit. -/
def pathExchange (entry : NetworkRelay S) : RelayPath S → Frame → Option (Frame × RelayPath S)
  | [], frame => (entry.answer frame).map fun out => (out.1, [(entry, out.2)])
  | path, frame => relayAnswer P dial path frame

end Network

lemma OnionCell.withId_serialize (c : OnionCell) (id : UInt32) :
    c.serialize.withId id = ({ c with circuitId := id } : OnionCell).serialize := by
  apply Frame.ext
  have hdrop : c.serialize.bytes.drop 4 = be32 c.sequenceNo ++ c.plainBytes ++ c.mac := by
    simp [serialize]
  simp only [Frame.withId, hdrop]
  simp [serialize, plainBytes]

variable {cell : OnionCell}

/-- The payload of an opened cell, up to its length. -/
lemma slice_of_plain {opened : Frame} (h : opened.plain = cell.plainBytes) :
    slice 45 (45 + cell.length.toNat) opened.bytes = cell.payload.take cell.length.toNat := by
  rw [slice, List.drop_take, Nat.add_sub_cancel_left, ← OnionCell.payload_of_plain h,
    List.take_take, Nat.min_eq_left cell.length_le]

variable {node : ProxyNode}

section Steps
variable {S : HandshakeScheme} {P : Primitives}
  {dial : NetworkRelay S → String → UInt16 → Option (NetworkRelay S)} {circuitId : UInt32}
  {hopIdx : ℕ} {r next : NetworkRelay S} {hop : RelayCircuitHop} {client : ClientEphemeral}
  {keys : HopKeys}

/-- A relay answers a CREATE cell under any link id, and the client accepts the answer. -/
lemma NetworkRelay.answer_create (hS : S.Correct)
    (h : S.Completes circuitId hopIdx r.key r.eph client keys) (hindex : hopIdx < MAX_HOPS)
    (hzero : r.key.verifyingKey ≠ ZERO_PIN) {padding : Padding} {createCell sent : OnionCell}
    (hcreate : buildCreateCell circuitId (S.x25519Public client.secret)
      (S.mlkemPublic client.decapsulationKey) hopIdx padding = .ok createCell)
    (hsent : sent.SameContent createCell) :
    ∃ createdCell : OnionCell, r.answer sent.serialize =
        some (createdCell.serialize, ⟨sent.circuitId, circuitId, keys, 1, 1, hopIdx⟩) ∧
      createdCell.circuitId = sent.circuitId ∧
      ∀ answer : OnionCell, answer.SameContent createdCell →
        S.processCreatedCell answer client r.key.verifyingKey circuitId hopIdx = .ok keys := by
  obtain ⟨received, hparse, hsame, hid⟩ := OnionCell.parse_of_plain sent.plain_serialize
  rw [OnionCell.circuitId_serialize] at hid
  have hcontent : received.SameContent createCell :=
    ⟨hsame.1.trans hsent.1, hsame.2.1.trans hsent.2.1, hsame.2.2.1.trans hsent.2.2.1,
      hsame.2.2.2.trans hsent.2.2.2⟩
  obtain ⟨createdCell, hhandle, hcreated, hclient⟩ := h.handshake hS hindex hzero hcreate hcontent
  rw [hid] at hhandle hcreated
  refine ⟨createdCell, ?_, hcreated, hclient⟩
  simp only [answer, hparse, hhandle]

/-- What the EXTEND cell of a hop holds. -/
lemma buildExtendCell_eq_ok (S : HandshakeScheme) (circuitId : UInt32) (client : ClientEphemeral)
    {pin : Bytes} (hindex : hopIdx < MAX_HOPS) (hhost : (utf8 node.host).length ≤ 255)
    (hpin : pin.length = 32) :
    ∃ payload cell, encodeExtendPayload node.host node.port (S.x25519Public client.secret)
        (S.mlkemPublic client.decapsulationKey) hopIdx = .ok payload ∧
      buildExtendCell S circuitId node pin client hopIdx = .ok cell ∧
      cell.circuitId = circuitId ∧ cell.command = .extend ∧
      cell.payload.take cell.length.toNat = payload ++ pin := by
  obtain ⟨payload, hencode⟩ : ∃ payload, encodeExtendPayload node.host node.port
      (S.x25519Public client.secret) (S.mlkemPublic client.decapsulationKey) hopIdx =
        .ok payload := by
    rw [encodeExtendPayload, if_neg (Nat.not_le.mpr hindex), if_neg (Nat.not_lt.mpr hhost)]
    exact ⟨_, rfl⟩
  have hlength := length_encodeExtendPayload (S.length_x25519Public _) (S.length_mlkemPublic _)
    hencode
  have hfits : (payload ++ pin).length ≤ PAYLOAD_SIZE := by
    have hfixed : EXTEND_FIXED + 255 + 32 ≤ PAYLOAD_SIZE := by decide
    rw [List.length_append]
    omega
  obtain ⟨cell, hnew, hid, hcommand, hlen, hpayload⟩ := OnionCell.new_eq_ok circuitId
    (UInt32.ofNat hopIdx) .extend 0 client.padding hfits
  refine ⟨payload, cell, hencode, ?_, hid, hcommand, ?_⟩
  · simp only [buildExtendCell, hencode, hnew]
  · rw [hpayload, hlen, List.take_left]

/-- An honest last relay extends the circuit by one hop. -/
lemma extendPath_eq (P : Primitives) (r : NetworkRelay S) (hop : RelayCircuitHop) (hS : S.Correct)
    (h : S.Completes circuitId hopIdx next.key next.eph client keys) (hindex : hopIdx < MAX_HOPS)
    (hzero : next.key.verifyingKey ≠ ZERO_PIN) {payload : Bytes}
    (hencode : encodeExtendPayload node.host node.port (S.x25519Public client.secret)
      (S.mlkemPublic client.decapsulationKey) hopIdx = .ok payload)
    (hat : hopIdx = hop.hopIndex + 1) (hcontext : hop.contextId = circuitId)
    (hsend : hop.nextSendSeq = 1) (hdial : dial r node.host node.port = some next)
    (hlink : ∃ id ∈ r.linkIds, id ≠ 0 ∧ id ≠ hop.circuitId) :
    ∃ (nextId seq sent : UInt32) (createdCell : OnionCell),
      extendPath P dial r hop (payload ++ next.key.verifyingKey) =
        some (originFrame P hop.keys seq createdCell, [(r, { hop with nextSendSeq := sent }),
          (next, ⟨nextId, circuitId, keys, 1, 1, hopIdx⟩)]) ∧
      createdCell.circuitId = hop.circuitId ∧ seq.toNat = hop.hopIndex * 2 ^ 29 + 1 ∧
      ∀ answer : OnionCell, answer.SameContent createdCell →
        S.processCreatedCell answer client next.key.verifyingKey circuitId hopIdx = .ok keys := by
  have hlength := length_encodeExtendPayload (S.length_x25519Public _) (S.length_mlkemPublic _)
    hencode
  have hdecode := decodeExtendPayload_encode (S.length_x25519Public _) h.canonical hencode
  have hpin := hS.length_verifyingKey next.key
  have hbody : hop.extendBody (payload ++ next.key.verifyingKey) =
      .ok ⟨node.host, node.port, S.x25519Public client.secret,
        S.mlkemPublic client.decapsulationKey, hopIdx⟩ := by
    have hlong : ¬ (payload ++ next.key.verifyingKey).length < 32 := by
      rw [List.length_append]
      omega
    have htake : (payload ++ next.key.verifyingKey).take
        ((payload ++ next.key.verifyingKey).length - 32) = payload := by
      rw [List.length_append, hpin, Nat.add_sub_cancel, List.take_left]
    rw [RelayCircuitHop.extendBody, if_neg hlong, htake, hdecode]
    simp only [hat, ne_eq, not_true_eq_false, if_false]
    rw [if_neg (by omega)]
  have hnextPin : (ExtendBody.mk node.host node.port (S.x25519Public client.secret)
      (S.mlkemPublic client.decapsulationKey) hopIdx).nextPin (payload ++ next.key.verifyingKey) =
        .ok next.key.verifyingKey := by
    have hoffset : 1 + 1 + (utf8 node.host).length + 2 + 32 + 1184 = payload.length := by
      rw [hlength, EXTEND_FIXED]
      omega
    simp only [ExtendBody.nextPin, hoffset, List.length_append, hpin, ne_eq, not_true_eq_false,
      if_false, List.drop_left]
  obtain ⟨nextId, hnextId⟩ : ∃ nextId, r.nextId hop = some nextId := by
    obtain ⟨id, hid, hnonzero, hother⟩ := hlink
    exact Option.isSome_iff_exists.mp (List.find?_isSome.mpr ⟨id, hid, by simp [hnonzero, hother]⟩)
  obtain ⟨createCell, rest, hcreate, -⟩ := buildCreateCell_eq_ok circuitId hindex
    (S.length_x25519Public client.secret) (S.length_mlkemPublic client.decapsulationKey) r.padding
  have hfor : hop.createFor ⟨node.host, node.port, S.x25519Public client.secret,
      S.mlkemPublic client.decapsulationKey, hopIdx⟩ nextId r.padding =
        .ok { createCell with circuitId := nextId } := by
    simp only [RelayCircuitHop.createFor, hcontext, hcreate]
  obtain ⟨createdCell, hanswer, hcreated, hclient⟩ := NetworkRelay.answer_create hS h hindex hzero
    hcreate (show OnionCell.SameContent { createCell with circuitId := nextId } createCell from
      ⟨rfl, rfl, rfl, rfl⟩)
  obtain ⟨seq, sent, hwrap, hseq, -⟩ := wrapBackwardOriginate_eq P hop
    { createdCell with circuitId := hop.circuitId } (by omega) (by rw [hsend]; decide)
  have horiginate : hop.originateCreated P nextId createdCell.serialize =
      some (originFrame P hop.keys seq { createdCell with circuitId := hop.circuitId },
        { hop with nextSendSeq := sent }) := by
    have hlinked : ¬ createdCell.serialize.circuitId ≠ nextId := by
      rw [OnionCell.circuitId_serialize]
      exact not_not.mpr hcreated
    rw [RelayCircuitHop.originateCreated, if_neg hlinked, OnionCell.withId_serialize, hwrap]
  have hpinned : ¬ (next.key.verifyingKey = ZERO_PIN ∨
      next.key.verifyingKey ≠ next.key.verifyingKey) := by
    simpa using hzero
  refine ⟨nextId, seq, sent, { createdCell with circuitId := hop.circuitId }, ?_, rfl, ?_, ?_⟩
  · simp only [extendPath, hbody, hnextPin, hdial, hnextId, if_neg hpinned, hfor, hanswer,
      horiginate]
  · rw [hseq, hsend]
    rfl
  · rintro answer ⟨hc, hs, hl, hp⟩
    exact hclient answer ⟨hc, hs, hl, hp⟩

/-- An EXTEND cell passes the relays in front, and what the last relay makes of it comes back
through them. -/
lemma relayAnswer_extend (dial : NetworkRelay S → String → UInt16 → Option (NetworkRelay S))
    (hcorrect : P.Correct) (front : RelayPath S) (r : NetworkRelay S) (last : RelayCircuitHop)
    (raw sent : Frame) (cell : OnionCell) (hplain : sent.plain = cell.plainBytes)
    (hcommand : cell.command = .extend)
    (hid : (front ++ [(r, last)]).head?.map (fun a => a.2.circuitId) = some raw.circuitId)
    (haad : raw.aad = sent.aad) (hbody : raw.body = forwardLayers P (buildNonce 1 0 raw.sequenceNo)
      (front.map fun a => a.2.keys)
      (sent.sealWith P last.keys.forwardAeadKey (buildNonce 1 0 raw.sequenceNo)).body)
    (hforeign : ∀ a rest, a :: rest <:+ front →
      let body := forwardLayers P (buildNonce 1 0 raw.sequenceNo)
        ((a :: rest).map fun a => a.2.keys)
        (sent.sealWith P last.keys.forwardAeadKey (buildNonce 1 0 raw.sequenceNo)).body
      P.decrypt a.2.keys.forwardAeadKey (buildNonce 1 0 raw.sequenceNo) raw.aad
        (body.take Frame.SEALED_SIZE) (body.drop Frame.SEALED_SIZE) = none)
    (hge : last.expectedRecvSeq ≤ raw.sequenceNo)
    (hgap : raw.sequenceNo.toNat - last.expectedRecvSeq.toNat ≤ MAX_SEQ_GAP)
    (hroom : raw.sequenceNo.toNat + 1 < 2 ^ 32) :
    ∃ expected, relayAnswer P dial (front ++ [(r, last)]) raw =
      (extendPath P dial r { last with expectedRecvSeq := expected }
        (cell.payload.take cell.length.toNat)).bind fun out =>
          (backwardPath P (front.map Prod.snd) last.circuitId out.1).map fun answer =>
            (answer, front ++ out.2) := by
  induction front generalizing raw with
  | nil =>
    have hid' : raw.circuitId = last.circuitId := by simpa using hid.symm
    obtain ⟨opened, expected, hpeel, -, hopened⟩ := peelForward_of_open P last raw sent cell hid'
      haad hbody hplain (hcorrect _ _ _ _) hge hgap hroom
    refine ⟨expected, ?_⟩
    rw [hcommand] at hpeel
    simp only [List.nil_append, relayAnswer, hpeel, slice_of_plain hopened, List.map_nil,
      backwardPath, Option.map_some, Prod.mk.eta, Option.bind_fun_some]
  | cons a front ih =>
    have hid' : raw.circuitId = a.2.circuitId := by simpa using hid.symm
    obtain ⟨succ, tail, htail⟩ : ∃ succ tail, front ++ [(r, last)] = succ :: tail := by
      cases front with
      | nil => exact ⟨(r, last), [], rfl⟩
      | cons succ tail => exact ⟨succ, tail ++ [(r, last)], rfl⟩
    have hreject : P.decrypt a.2.keys.forwardAeadKey (buildNonce 1 0 raw.sequenceNo) raw.aad
        raw.plain raw.tag = none := by
      rw [Frame.plain, Frame.tag, hbody]
      exact hforeign a front (List.suffix_refl _)
    obtain ⟨raw', hrelay, hnextId, hraad, hrbody⟩ := relayForward_of_reject P a.2
      succ.2.circuitId raw _ hid' hbody hreject
    have hsame : raw'.sequenceNo = raw.sequenceNo := by simp [Frame.sequenceNo, hraad]
    obtain ⟨expected, hanswer⟩ := ih raw' (by simp [htail, hnextId]) (hraad.trans haad)
      (by rw [hsame]; exact hrbody)
      (fun b rest hb => by
        rw [hsame, hraad]
        exact hforeign b rest (hb.trans (List.suffix_cons _ _)))
      (by rw [hsame]; exact hge) (by rw [hsame]; exact hgap) (by rw [hsame]; exact hroom)
    refine ⟨expected, ?_⟩
    have hlink : ((front.map Prod.snd).head?.map RelayCircuitHop.circuitId).getD last.circuitId =
        succ.2.circuitId := by
      cases front with
      | nil | cons =>
        cases htail
        rfl
    obtain ⟨q, hop⟩ := a
    obtain ⟨q', next⟩ := succ
    rw [htail] at hanswer
    rw [List.cons_append, htail]
    simp only [relayAnswer, hrelay, hanswer, List.map_cons, backwardPath, hlink]
    cases extendPath P dial r { last with expectedRecvSeq := expected }
        (cell.payload.take cell.length.toNat) with
    | none => rfl
    | some out =>
      simp only [Option.bind_some]
      cases backwardPath P (front.map Prod.snd) last.circuitId out.1 with
      | none | some => rfl

end Steps

/-- The body of the EXTEND cell for hop `k` as relay `j` receives it. -/
def transitBody (P : Primitives) (keys : ℕ → HopKeys) (cell : OnionCell) (k j : ℕ) : Bytes :=
  forwardLayers P (buildNonce 1 0 (UInt32.ofNat k)) (((List.range (k - 1)).drop j).map keys)
    ((cell.numbered (UInt32.ofNat k)).serialize.sealWith P (keys (k - 1)).forwardAeadKey
      (buildNonce 1 0 (UInt32.ofNat k))).body

/-- No relay opens an EXTEND cell that is sealed for a later one. -/
def Unopened (P : Primitives) (keys : ℕ → HopKeys) (cell : OnionCell) (k : ℕ) : Prop :=
  ∀ j, j + 1 < k → P.decrypt (keys j).forwardAeadKey (buildNonce 1 0 (UInt32.ofNat k))
    (be32 (UInt32.ofNat k)) ((transitBody P keys cell k j).take Frame.SEALED_SIZE)
    ((transitBody P keys cell k j).drop Frame.SEALED_SIZE) = none

/-- The relays of a chain are honest and reach each other. No handshake fails on the draws,
and `keys i` is what those of hop `i` lead to. -/
structure HonestRoute (S : HandshakeScheme) (P : Primitives)
    (dial : NetworkRelay S → String → UInt16 → Option (NetworkRelay S)) (circuitId : UInt32)
    (chain : List ProxyNode) (route : List (NetworkRelay S)) (coins : ℕ → ClientEphemeral)
    (keys : ℕ → HopKeys) : Prop where
  length : route.length = chain.length
  host : ∀ node ∈ chain, (utf8 node.host).length ≤ 255
  reaches : ∀ i r node next, route[i]? = some r → chain[i + 1]? = some node →
    route[i + 1]? = some next → dial r node.host node.port = some next
  link : ∀ r ∈ route, ∀ id, ∃ d ∈ r.linkIds, d ≠ 0 ∧ d ≠ id
  completes : ∀ i r, route[i]? = some r → S.Completes circuitId i r.key r.eph (coins i) (keys i)
  unopened : ∀ k node r cell, chain[k]? = some node → route[k]? = some r →
    buildExtendCell S circuitId node r.key.verifyingKey (coins k) k = .ok cell →
    Unopened P keys cell k

/-- After `k` hops: client and relays hold the same keys, and the last relay waits for its
first cell. -/
structure Established (circuitId : UInt32) {S : HandshakeScheme} (route : List (NetworkRelay S))
    (keys : ℕ → HopKeys) (k : ℕ) (n : Negotiation (RelayPath S)) : Prop where
  sameId : n.circuit.circuitId = circuitId
  hops : n.circuit.hops = (List.range k).map keys
  sequence : n.circuit.sequenceNo = UInt32.ofNat k
  windows : ∃ used, n.circuit.bwdReplayWindows = used ++ [ReplayWindow.new] ∧ used.length + 1 = k
  entry : n.net.head?.map (fun a => a.2.circuitId) = some circuitId
  path : ∃ front r last, n.net = front ++ [(r, last)] ∧ front.length + 1 = k ∧
    last.expectedRecvSeq = 1 ∧ last.nextSendSeq = 1
  relay : ∀ i r hop, n.net[i]? = some (r, hop) → route[i]? = some r ∧ hop.keys = keys i ∧
    hop.hopIndex = i ∧ hop.contextId = circuitId

lemma pathExchange_append {S : HandshakeScheme} (P : Primitives)
    (dial : NetworkRelay S → String → UInt16 → Option (NetworkRelay S)) (entry : NetworkRelay S)
    (front : RelayPath S) (a : NetworkRelay S × RelayCircuitHop) (frame : Frame) :
    pathExchange P dial entry (front ++ [a]) frame = relayAnswer P dial (front ++ [a]) frame := by
  cases front <;> rfl

section Honest
variable {S : HandshakeScheme} {P : Primitives}
  {dial : NetworkRelay S → String → UInt16 → Option (NetworkRelay S)} {circuitId : UInt32}
  {chain : List ProxyNode} {route : List (NetworkRelay S)} {coins : ℕ → ClientEphemeral}
  {keys : ℕ → HopKeys} {entry : NetworkRelay S}

/-- The first hop. -/
lemma createHop_established (hS : S.Correct) (h : HonestRoute S P dial circuitId chain route coins keys)
    (hzero : ∀ r ∈ route, r.key.verifyingKey ≠ ZERO_PIN) (hentry : route[0]? = some entry) :
    ∃ n, createHop S (pathExchange P dial entry) circuitId [] (coins 0) entry.key.verifyingKey =
      .ok n ∧ Established circuitId route keys 1 n := by
  have hindex : 0 < MAX_HOPS := by decide
  obtain ⟨createCell, rest, hcreate, hid, -⟩ := buildCreateCell_eq_ok circuitId hindex
    (S.length_x25519Public (coins 0).secret) (S.length_mlkemPublic (coins 0).decapsulationKey)
    (coins 0).padding
  obtain ⟨createdCell, hanswer, -, hclient⟩ := NetworkRelay.answer_create hS
    (h.completes 0 entry hentry) hindex (hzero entry (List.mem_of_getElem? hentry)) hcreate
    ⟨rfl, rfl, rfl, rfl⟩
  obtain ⟨answer, hparse, hsame, -⟩ := OnionCell.parse_of_plain createdCell.plain_serialize
  refine ⟨⟨⟨circuitId, [keys 0], 1, [ReplayWindow.new]⟩,
    [(entry, ⟨createCell.circuitId, circuitId, keys 0, 1, 1, 0⟩)], [answer]⟩, ?_, ?_⟩
  · simp only [createHop, hcreate, pathExchange, hanswer, Option.map_some, hparse, finishHop,
      hclient answer hsame]
    rfl
  exact {
    sameId := rfl
    hops := rfl
    sequence := rfl
    windows := ⟨[], rfl, rfl⟩
    entry := congrArg some hid
    path := ⟨[], _, _, rfl, rfl, rfl, rfl⟩
    relay := by
      intro i r hop hi
      cases i with
      | zero =>
        cases hi
        exact ⟨hentry, rfl, rfl, rfl⟩
      | succ => simp at hi }

section Extend
variable {m : ℕ} {n : Negotiation (RelayPath S)} {front : RelayPath S} {r next : NetworkRelay S}
  {last : RelayCircuitHop}

/-- The keys of the relays in front are those of the client. -/
lemma Established.front_keys (hn : Established circuitId route keys (m + 1) n)
    (hnet : n.net = front ++ [(r, last)]) (hlen : front.length = m) :
    (front.map fun a => a.2.keys) = (List.range m).map keys := by
  apply List.ext_getElem
  · simp [hlen]
  · intro i hi _
    rw [List.length_map] at hi
    have hget : n.net[i]? = some (front[i].1, front[i].2) := by
      rw [hnet, List.getElem?_append_left hi, List.getElem?_eq_getElem hi]
    simp [(hn.relay i _ _ hget).2.1]

/-- No relay in front opens the EXTEND cell. -/
lemma Established.foreign (hn : Established circuitId route keys (m + 1) n)
    (hnet : n.net = front ++ [(r, last)]) (hlen : front.length = m)
    (hcell : Unopened P keys cell (m + 1)) (a : NetworkRelay S × RelayCircuitHop)
    (rest : RelayPath S) (hsuffix : a :: rest <:+ front) :
    let body := forwardLayers P (buildNonce 1 0 (UInt32.ofNat (m + 1)))
      ((a :: rest).map fun a => a.2.keys)
      ((cell.numbered (UInt32.ofNat (m + 1))).serialize.sealWith P (keys m).forwardAeadKey
        (buildNonce 1 0 (UInt32.ofNat (m + 1)))).body
    P.decrypt a.2.keys.forwardAeadKey (buildNonce 1 0 (UInt32.ofNat (m + 1)))
      (be32 (UInt32.ofNat (m + 1))) (body.take Frame.SEALED_SIZE)
      (body.drop Frame.SEALED_SIZE) = none := by
  obtain ⟨before, hfront⟩ := hsuffix
  have hbound : before.length < m := by
    rw [← hlen, ← hfront, List.length_append, List.length_cons]
    omega
  have hkeys : ((a :: rest).map fun a => a.2.keys) =
      ((List.range m).drop before.length).map keys := by
    rw [List.map_drop, ← hn.front_keys hnet hlen, ← hfront, List.map_append,
      ← List.length_map (fun a : NetworkRelay S × RelayCircuitHop => a.2.keys), List.drop_left]
  have hat : n.net[before.length]? = some (a.1, a.2) := by
    rw [hnet, ← hfront, List.append_assoc, List.getElem?_append_right le_rfl, Nat.sub_self]
    rfl
  have hmine : a.2.keys = keys before.length := (hn.relay _ _ _ hat).2.1
  rw [hkeys, hmine]
  exact hcell before.length (by omega)

variable (entry : NetworkRelay S) (hS : S.Correct) (hP : P.Correct)
  (h : HonestRoute S P dial circuitId chain route coins keys)
  (hzero : ∀ r ∈ route, r.key.verifyingKey ≠ ZERO_PIN)
include hS hP h hzero

/-- The relays answer the EXTEND cell for the next hop with the CREATED cell of that hop,
sealed by the last of them. -/
lemma Established.exchange (hn : Established circuitId route keys (m + 1) n)
    (hmax : m + 1 < MAX_HOPS) (hnode : chain[m + 1]? = some node)
    (hnext : route[m + 1]? = some next)
    {payload : Bytes}
    (hencode : encodeExtendPayload node.host node.port (S.x25519Public (coins (m + 1)).secret)
      (S.mlkemPublic (coins (m + 1)).decapsulationKey) (m + 1) = .ok payload)
    (hbuilt : buildExtendCell S circuitId node next.key.verifyingKey (coins (m + 1)) (m + 1) =
      .ok cell) (hcommand : cell.command = .extend)
    (hpayload : cell.payload.take cell.length.toNat = payload ++ next.key.verifyingKey)
    {wire : Frame} (hid : wire.circuitId = circuitId) (haad : wire.aad = be32 (UInt32.ofNat (m + 1)))
    (hbody : wire.body = forwardLayers P (buildNonce 1 0 (UInt32.ofNat (m + 1)))
      ((List.range m).map keys)
      ((cell.numbered (UInt32.ofNat (m + 1))).serialize.sealWith P (keys m).forwardAeadKey
        (buildNonce 1 0 (UInt32.ofNat (m + 1)))).body) :
    ∃ (front : RelayPath S) (r : NetworkRelay S) (last last' : RelayCircuitHop)
      (nextId seq : UInt32) (createdCell : OnionCell) (answer : Frame),
      n.net = front ++ [(r, last)] ∧ front.length = m ∧
      pathExchange P dial entry n.net wire = some (answer, front ++ [(r, last'),
        (next, ⟨nextId, circuitId, keys (m + 1), 1, 1, m + 1⟩)]) ∧
      last'.keys = last.keys ∧ last'.hopIndex = last.hopIndex ∧
      last'.contextId = last.contextId ∧ last'.circuitId = last.circuitId ∧
      answer.circuitId = circuitId ∧ answer.aad = be32 seq ∧ seq.toNat = m * 2 ^ 29 + 1 ∧
      answer.body = backwardLayers P (buildNonce 2 0 seq) ((List.range m).map keys)
        (originFrame P (keys m) seq createdCell).body ∧
      ∀ received : OnionCell, received.SameContent createdCell →
        S.processCreatedCell received (coins (m + 1)) next.key.verifyingKey circuitId (m + 1) =
          .ok (keys (m + 1)) := by
  obtain ⟨front, r, last, hnet, hlen, hexpected, hsend⟩ := hn.path
  have hlen : front.length = m := by omega
  have hlast : n.net[m]? = some (r, last) := by
    rw [hnet, ← hlen, List.getElem?_append_right le_rfl, Nat.sub_self]
    rfl
  obtain ⟨hroute, hkeys, hindex, hcontext⟩ := hn.relay m r last hlast
  have hsmall : (UInt32.ofNat (m + 1)).toNat = m + 1 := by
    have hmaxed : MAX_HOPS < 2 ^ 32 := by decide
    rw [UInt32.toNat_ofNat', Nat.mod_eq_of_lt (by omega)]
  have hseqNo : wire.sequenceNo = UInt32.ofNat (m + 1) := by simp [Frame.sequenceNo, haad]
  have hone : last.expectedRecvSeq.toNat = 1 := by rw [hexpected]; rfl
  have hgap : MAX_HOPS ≤ MAX_SEQ_GAP := by decide
  have hcell := h.unopened (m + 1) node next cell hnode hnext hbuilt
  obtain ⟨expected, hrelays⟩ := relayAnswer_extend dial hP front r last wire
    (cell.numbered (UInt32.ofNat (m + 1))).serialize cell (by simp) hcommand
    (by rw [← hnet, hn.entry, hid]) (by simp [haad])
    (by rw [hseqNo, hn.front_keys hnet hlen, hkeys]; exact hbody)
    (by
      intro a rest hsuffix
      rw [hseqNo, haad, hkeys]
      exact hn.foreign hnet hlen hcell a rest hsuffix)
    (UInt32.le_iff_toNat_le.mpr (by rw [hseqNo, hsmall, hone]; omega))
    (by rw [hseqNo, hsmall, hone]; omega)
    (by rw [hseqNo, hsmall]; have : MAX_HOPS < 2 ^ 32 := by decide
        omega)
  have hmem : r ∈ route := List.mem_of_getElem? hroute
  obtain ⟨nextId, seq, sent, createdCell, hextend, hcreatedId, hseq, hclient⟩ :=
    extendPath_eq P r { last with expectedRecvSeq := expected } hS
      (h.completes (m + 1) next hnext) hmax
      (hzero next (List.mem_of_getElem? hnext)) hencode (by rw [hindex]) hcontext hsend
      (h.reaches m r node next hroute hnode hnext) (h.link r hmem last.circuitId)
  dsimp only at hextend hcreatedId hseq
  rw [hindex] at hseq
  have horigin : (originFrame P last.keys seq createdCell).sequenceNo = seq := by
    simp [originFrame, HopKeys.sealBackward, Frame.sequenceNo]
  have hclaims : ∀ hop ∈ front.map Prod.snd,
      claimedHop (originFrame P last.keys seq createdCell).sequenceNo ≠ hop.hopIndex := by
    intro hop hhop
    obtain ⟨a, ha, rfl⟩ := List.mem_map.mp hhop
    obtain ⟨i, hi, rfl⟩ := List.mem_iff_getElem.mp ha
    have hget : n.net[i]? = some (front[i].1, front[i].2) := by
      rw [hnet, List.getElem?_append_left hi, List.getElem?_eq_getElem hi]
    rw [horigin, claimedHop_of_toNat (by decide) hseq, (hn.relay i _ _ hget).2.2.1]
    omega
  obtain ⟨answer, hback, hansAad, hansId, hansBody⟩ := backwardPath_layers P (front.map Prod.snd)
    last.circuitId (originFrame P last.keys seq createdCell)
    (by simpa [originFrame, HopKeys.sealBackward] using hcreatedId) hclaims
  refine ⟨front, r, last, { last with expectedRecvSeq := expected, nextSendSeq := sent }, nextId,
    seq, createdCell, answer, hnet, hlen, ?_, rfl, rfl, rfl, rfl, ?_, ?_, hseq, ?_, hclient⟩
  · rw [hnet, pathExchange_append, hrelays, hpayload, hextend]
    simp only [Option.bind_some, hback, Option.map_some]
  · have hhead := hn.entry
    rw [hnet] at hhead
    rw [hansId]
    cases front with
    | nil | cons => simpa using hhead
  · rw [hansAad]
    simp [originFrame, HopKeys.sealBackward]
  · rw [hansBody, horigin, List.map_map, ← hn.front_keys hnet hlen, ← hkeys]
    rfl

/-- One more hop. -/
lemma extendHop_established (hn : Established circuitId route keys (m + 1) n)
    (hmax : m + 1 < MAX_HOPS) (hnode : chain[m + 1]? = some node)
    (hnext : route[m + 1]? = some next) :
    ∃ n', extendHop S P (pathExchange P dial entry) circuitId n node next.key.verifyingKey
        (coins (m + 1)) (m + 1) = .ok n' ∧
      Established circuitId route keys (m + 2) n' := by
  have hmaxed : MAX_HOPS < 2 ^ 29 := by decide
  have hsmall : (UInt32.ofNat (m + 1)).toNat = m + 1 := by
    rw [UInt32.toNat_ofNat', Nat.mod_eq_of_lt (by omega)]
  obtain ⟨payload, cell, hencode, hbuilt, hcellId, hcommand, hpayload⟩ :=
    buildExtendCell_eq_ok S circuitId (coins (m + 1)) hmax
      (h.host node (List.mem_of_getElem? hnode)) (hS.length_verifyingKey next.key)
  have hhops : n.circuit.hops = (List.range m).map keys ++ [keys m] := by
    rw [hn.hops, List.range_succ, List.map_append]
    rfl
  obtain ⟨wire, counter, hwrap, hcounter, hwireId, haad, hbody⟩ := wrapForward_eq P n.circuit cell
    _ _ hhops (hcellId.trans hn.sameId.symm) (by rw [hn.sequence, hsmall]; omega)
  rw [hn.sequence] at haad hbody hcounter
  obtain ⟨front, r, last, last', nextId, seq, createdCell, answer, hnet, hlen, hexchange, hkeys,
      hindex, hcontext, hlink, hansId, hansAad, hseq, hansBody, hclient⟩ :=
    hn.exchange entry hS hP h hzero hmax hnode hnext hencode hbuilt hcommand hpayload
      (hwireId.trans hn.sameId) haad hbody
  obtain ⟨used, hwindows, hused⟩ := hn.windows
  have hwindow : n.circuit.bwdReplayWindows[m]? = some ReplayWindow.new := by
    rw [hwindows, List.getElem?_append_right (by omega), show m - used.length = 0 by omega]
    rfl
  obtain ⟨received, hunwrap, hsame⟩ := unwrapBackward_eq P hP { n.circuit with sequenceNo := counter }
    answer m (keys m) ReplayWindow.new seq createdCell (hansId.trans hn.sameId.symm)
    (by simp [hn.hops]) hwindow hansAad
    (by
      rw [hansBody]
      simp only [hhops]
      rw [List.take_left' (by simp)])
    (by decide) (by rw [hseq]; rfl)
  have hfull : ¬ n.circuit.hops.length ≥ MAX_HOPS := by
    rw [hn.hops, List.length_map, List.length_range]
    omega
  refine ⟨⟨⟨n.circuit.circuitId, n.circuit.hops ++ [keys (m + 1)], counter,
    n.circuit.bwdReplayWindows.set m ⟨(ReplayWindow.new.window <<< 1) ||| 1#64,
      ReplayWindow.new.nextExpected + 1⟩ ++ [ReplayWindow.new]⟩,
    front ++ [(r, last'), (next, ⟨nextId, circuitId, keys (m + 1), 1, 1, m + 1⟩)],
    n.created ++ [received]⟩, ?_, ?_⟩
  · simp only [extendHop, hbuilt, hwrap, hexchange, hunwrap, finishHop, hclient received hsame,
      OnionCircuit.addHop, if_neg hfull]
  exact {
    sameId := hn.sameId
    hops := by
      rw [hn.hops, List.range_succ (n := m + 1), List.map_append]
      rfl
    sequence := by
      apply UInt32.toNat_inj.mp
      rw [hcounter, hsmall, UInt32.toNat_ofNat', Nat.mod_eq_of_lt (by omega)]
    windows := ⟨_, rfl, by rw [List.length_set, hwindows, List.length_append, List.length_singleton,
      hused]⟩
    entry := by
      have hhead := hn.entry
      rw [hnet] at hhead
      cases front with
      | nil => simpa [hlink] using hhead
      | cons => simpa using hhead
    path := ⟨front ++ [(r, last')], next, ⟨nextId, circuitId, keys (m + 1), 1, 1, m + 1⟩, by simp,
      by simp [hlen], rfl, rfl⟩
    relay := by
      intro i q hop hi
      rcases lt_trichotomy i m with hlt | rfl | hgt
      · rw [List.getElem?_append_left (by omega)] at hi
        exact hn.relay i q hop (by rw [hnet, List.getElem?_append_left (by omega)]; exact hi)
      · rw [List.getElem?_append_right hlen.le, hlen, Nat.sub_self] at hi
        cases hi
        have hlast : n.net[i]? = some (r, last) := by
          rw [hnet, List.getElem?_append_right hlen.le, hlen, Nat.sub_self]
          rfl
        obtain ⟨hq, hk, hx, hc⟩ := hn.relay i r last hlast
        exact ⟨hq, hkeys.trans hk, hindex.trans hx, hcontext.trans hc⟩
      · rw [List.getElem?_append_right (by omega), hlen] at hi
        obtain ⟨d, hd⟩ : ∃ d, i - m = d + 1 := ⟨i - m - 1, by omega⟩
        rw [hd, List.getElem?_cons_succ] at hi
        cases d with
        | zero =>
          cases hi
          obtain rfl : i = m + 1 := by omega
          exact ⟨hnext, rfl, rfl, rfl⟩
        | succ => simp at hi }

/-- The loop, by induction on the hops still to be added. -/
lemma extendHops_established (hmax : chain.length ≤ MAX_HOPS) (rest : List (ProxyNode × Bytes))
    (m : ℕ) (n : Negotiation (RelayPath S))
    (hrest : (chain.zip (route.map fun r => r.key.verifyingKey)).drop (m + 1) = rest)
    (hn : Established circuitId route keys (m + 1) n) :
    ∃ n', extendHops S P (pathExchange P dial entry) circuitId coins rest (m + 1) n = .ok n' ∧
      Established circuitId route keys (m + 1 + rest.length) n' := by
  induction rest generalizing m n with
  | nil => exact ⟨n, rfl, hn⟩
  | cons hop rest ih =>
    obtain ⟨node, pin⟩ := hop
    have hat : (chain.zip (route.map fun r => r.key.verifyingKey))[m + 1]? = some (node, pin) := by
      rw [← List.head?_drop, hrest]
      rfl
    obtain ⟨hnode, hpin⟩ := List.getElem?_zip_eq_some.mp hat
    rw [List.getElem?_map, Option.map_eq_some_iff] at hpin
    obtain ⟨next, hnext, rfl⟩ := hpin
    have hlt : m + 1 < chain.length := (List.getElem?_eq_some_iff.mp hnode).1
    obtain ⟨n', hextend, hn'⟩ := extendHop_established entry hS hP h hzero hn
      (by omega) hnode hnext
    have hdrop : (chain.zip (route.map fun r => r.key.verifyingKey)).drop (m + 1 + 1) = rest := by
      rw [← List.drop_drop, hrest]
      rfl
    obtain ⟨n'', hloop, hn''⟩ := ih (m + 1) n' hdrop hn'
    refine ⟨n'', ?_, ?_⟩
    · simp only [extendHops, hextend, hloop]
    · rw [List.length_cons, ← Nat.add_assoc, Nat.add_right_comm]
      exact hn''

end Extend

/-- A chain of honest relays ends in a circuit whose hops have the keys of the relays. -/
theorem negotiateTelescopicHops_established (hS : S.Correct) (hP : P.Correct)
    (h : HonestRoute S P dial circuitId chain route coins keys) (hmin : 3 ≤ chain.length)
    (hmax : chain.length ≤ MAX_HOPS) (hendpoints : (chain.map fun node => (node.host, node.port)).Nodup)
    (hpins : (route.map fun r => r.key.verifyingKey).Nodup)
    (hzero : ZERO_PIN ∉ route.map fun r => r.key.verifyingKey) (hentry : route.head? = some entry) :
    ∃ n, negotiateTelescopicHops S P (pathExchange P dial entry) circuitId [] chain
        (route.map fun r => r.key.verifyingKey) coins = .ok n ∧
      Established circuitId route keys chain.length n := by
  have hlength : (route.map fun r => r.key.verifyingKey).length = chain.length := by
    rw [List.length_map, h.length]
  have hnonzero : ∀ r ∈ route, r.key.verifyingKey ≠ ZERO_PIN :=
    fun r hr heq => hzero (heq ▸ List.mem_map_of_mem hr)
  have hfirst : route[0]? = some entry := by rw [← List.head?_eq_getElem?, hentry]
  obtain ⟨n, hcreate, hn⟩ := createHop_established hS h hnonzero hfirst
  obtain ⟨node, rest, hzip⟩ : ∃ node rest, chain.zip (route.map fun r => r.key.verifyingKey) =
      (node, entry.key.verifyingKey) :: rest := by
    cases chain with
    | nil => simp at hmin
    | cons node =>
      cases route with
      | nil => cases hentry
      | cons =>
        cases hentry
        exact ⟨node, _, rfl⟩
  obtain ⟨n', hloop, hn'⟩ := extendHops_established entry hS hP h hnonzero hmax rest 0 n
    (by rw [hzip]; rfl) hn
  have hrest : 0 + 1 + rest.length = chain.length := by
    have hzipped := congrArg List.length hzip
    rw [List.length_zip, hlength, Nat.min_self, List.length_cons] at hzipped
    omega
  rw [hrest] at hn'
  refine ⟨n', ?_, hn'⟩
  have hshort : ¬ chain.length < 3 := by omega
  have hlong : ¬ (chain.length > MAX_HOPS ∨
      (route.map fun r => r.key.verifyingKey).length ≠ chain.length) := by
    rw [hlength]
    simpa using hmax
  have hdistinct : ¬ ((route.map fun r => r.key.verifyingKey).dedup.length ≠ chain.length ∨
      (chain.map fun node => (node.host, node.port)).dedup.length ≠ chain.length ∨
      ZERO_PIN ∈ route.map fun r => r.key.verifyingKey) := by
    rw [hpins.dedup, hendpoints.dedup, hlength, List.length_map]
    simpa using hzero
  simp only [negotiateTelescopicHops, if_neg hshort, if_neg hlong, if_neg hdistinct, hzip, hcreate,
    hloop]

end Honest

/-- Through honest relays, whatever link ids they draw, the negotiation succeeds, and the keys of
each hop are those of its relay, which holds the place and the circuit id of the client. Against
any network, a circuit that is returned has hops whose transcripts the owners of the pins have
signed, and an owner who signs as the program does holds the keys of its hop. -/
theorem telescope_agreement (S : HandshakeScheme) (hS : S.Correct) (P : Primitives)
    (circuitId : UInt32) (chain : List ProxyNode) (coins : ℕ → ClientEphemeral) :
    (∀ (dial : NetworkRelay S → String → UInt16 → Option (NetworkRelay S))
      (route : List (NetworkRelay S)) (keys : ℕ → HopKeys) (entry : NetworkRelay S),
      P.Correct → HonestRoute S P dial circuitId chain route coins keys → 3 ≤ chain.length →
      chain.length ≤ MAX_HOPS → (chain.map fun node => (node.host, node.port)).Nodup →
      (route.map fun r => r.key.verifyingKey).Nodup →
      (ZERO_PIN ∉ route.map fun r => r.key.verifyingKey) → route.head? = some entry →
      ∃ n, negotiateTelescopicHops S P (pathExchange P dial entry) circuitId [] chain
          (route.map fun r => r.key.verifyingKey) coins = .ok n ∧
        ∀ (i : ℕ) r, route[i]? = some r → ∃ hop : RelayCircuitHop, n.net[i]? = some (r, hop) ∧
          n.circuit.hops[i]? = some hop.keys ∧ hop.hopIndex = i ∧ hop.contextId = circuitId) ∧
    (∀ (σ : Type) (exchange : σ → Frame → Option (Frame × σ)) (net : σ) (pins : List Bytes)
      (n : Negotiation σ) (signed : Bytes → Bytes → Prop),
      negotiateTelescopicHops S P exchange circuitId net chain pins coins = .ok n →
      (∀ cell ∈ n.created, cell.Unforged S signed) →
      ∀ (i : ℕ) pin, pins[i]? = some pin → ∃ keys, n.circuit.hops[i]? = some keys ∧
        SignedHop S signed circuitId i pin (coins i) keys ∧
        ∀ sessions : Set (RelaySession S), HonestOwner signed sessions pin →
          ∃ s ∈ sessions, s.relayKey.verifyingKey = pin ∧ s.hop.keys = keys ∧
            s.hop.hopIndex = i ∧ s.hop.contextId = circuitId) := by
  constructor
  · intro dial route keys entry hP h hmin hmax hendpoints hpins hzero hentry
    obtain ⟨n, hok, hn⟩ := negotiateTelescopicHops_established hS hP h hmin hmax hendpoints hpins
      hzero hentry
    refine ⟨n, hok, ?_⟩
    intro i r hr
    have hlt : i < chain.length := by
      rw [← h.length]
      exact (List.getElem?_eq_some_iff.mp hr).1
    have hlength : n.net.length = chain.length := by
      obtain ⟨front, q, last, hnet, hfront, -⟩ := hn.path
      rw [hnet, List.length_append, List.length_singleton, hfront]
    obtain ⟨⟨q, hop⟩, hget⟩ : ∃ a, n.net[i]? = some a :=
      ⟨_, List.getElem?_eq_getElem (by rw [hlength]; exact hlt)⟩
    obtain ⟨hroute, hkeys, hindex, hcontext⟩ := hn.relay i q hop hget
    rw [hr] at hroute
    cases hroute
    refine ⟨hop, hget, ?_, hindex, hcontext⟩
    rw [hn.hops, List.getElem?_map, List.getElem?_range hlt, hkeys]
    rfl
  · intro σ exchange net pins n signed hok hunforged i pin hpin
    obtain ⟨hagreed, hlength, hpinned⟩ := negotiateTelescopicHops_agreed hok
    have hlt : i < n.circuit.hops.length := by
      rw [hlength, ← hpinned]
      exact (List.getElem?_eq_some_iff.mp hpin).1
    have hget := List.getElem?_eq_getElem hlt
    obtain ⟨cell, hcell, pin', hpin', hprocess⟩ := hagreed i _ hget
    rw [hpin] at hpin'
    cases hpin'
    exact ⟨_, hget, signedHop_of_processCreatedCell hprocess (hunforged cell hcell),
      fun sessions howner =>
        session_of_processCreatedCell hS hprocess (hunforged cell hcell) howner⟩

section Sample

def sampleSigner (n : UInt8) : SigningKey sampleHandshake.toIdentityScheme where
  publicKey := samplePublicKey n
  edSign _ := List.replicate 64 0
  mlDsaSign _ := List.replicate 3309 0
  decodes := (sampleKey n).decodes
  length_edSign _ := List.length_replicate
  length_mlDsaSign := (sampleKey n).length_mlDsaSign
  ed_verifies _ := rfl
  mlDsa_verifies _ := rfl

def sampleHop (n : UInt8) : NetworkRelay sampleHandshake :=
  ⟨sampleSigner n, ⟨[n], [], samplePadding⟩, [5, 6], samplePadding⟩

def sampleNode (host : String) : ProxyNode :=
  ⟨"", .socks5h, host, 9001, none, none, true, 0, false⟩

def sampleChain : List ProxyNode := [sampleNode "a", sampleNode "b", sampleNode "c"]

def sampleRoute : List (NetworkRelay sampleHandshake) := [sampleHop 1, sampleHop 2, sampleHop 3]

def sampleDial (_ : NetworkRelay sampleHandshake) (host : String) (_ : UInt16) :
    Option (NetworkRelay sampleHandshake) :=
  if host = "b" then some (sampleHop 2) else if host = "c" then some (sampleHop 3) else none

def sampleCoins (i : ℕ) : ClientEphemeral := ⟨[UInt8.ofNat i], [], samplePadding⟩

def sampleHopKeys : HopKeys :=
  ⟨utf8 "AnonGuard-Forward-Key-v6", utf8 "AnonGuard-Backward-Key-v6",
    utf8 "AnonGuard-Forward-AEAD-Key-v6", utf8 "AnonGuard-Backward-AEAD-Key-v6"⟩

/-- The layer of a relay in front changes the tag. -/
lemma identityPrimitives_unopened (keys : ℕ → HopKeys) (cell : OnionCell) :
    Unopened identityPrimitives keys cell 2 := by
  intro j hj
  obtain rfl : j = 0 := by omega
  have hsealed : ((cell.numbered 2).serialize.sealWith identityPrimitives (keys 1).forwardAeadKey
      (buildNonce 1 0 2)).body[Frame.SEALED_SIZE + 0]? = some 0 := by
    rw [← List.getElem?_drop, ← Frame.tag, Frame.tag_sealWith]
    rfl
  have hlayer : transitBody identityPrimitives keys cell 2 0 = xorStream (fun i => UInt8.ofNat i)
      ((cell.numbered 2).serialize.sealWith identityPrimitives (keys 1).forwardAeadKey
        (buildNonce 1 0 2)).body := rfl
  have hbody : (transitBody identityPrimitives keys cell 2 0).drop Frame.SEALED_SIZE ≠
      List.replicate 16 0 := by
    intro heq
    have hfirst := congrArg (fun b => b[0]?) heq
    rw [List.getElem?_drop, hlayer, xorStream, List.getElem?_mapIdx, hsealed] at hfirst
    revert hfirst
    decide +kernel
  exact if_neg hbody

lemma sampleRoute_honest (circuitId : UInt32) :
    HonestRoute sampleHandshake identityPrimitives sampleDial circuitId sampleChain sampleRoute
      sampleCoins fun _ => sampleHopKeys where
  length := rfl
  host := by decide +kernel
  reaches := by
    rintro (_ | _ | _ | i) r node next hr hnode hnext
    · cases hr; cases hnode; cases hnext; rfl
    · cases hr; cases hnode; cases hnext; rfl
    · simp [sampleChain] at hnode
    · simp [sampleChain] at hnode
  link := by
    intro r hr id
    have hdraws : r.linkIds = [5, 6] := by
      simp only [sampleRoute, List.mem_cons, List.not_mem_nil, or_false] at hr
      rcases hr with rfl | rfl | rfl <;> rfl
    rw [hdraws]
    by_cases h : id = 5
    · exact ⟨6, by simp, by decide, by rw [h]; decide⟩
    · exact ⟨5, by simp, by decide, Ne.symm h⟩
  completes := by
    intro i r _
    have hkem : mlkem768PublicIsCanonical (List.replicate 1184 0) = true := by decide +kernel
    have hdh : ([1] : Bytes) ≠ NON_CONTRIBUTORY := by decide
    exact ⟨hkem, hdh, _, _, rfl, rfl⟩
  unopened := by
    rintro (_ | _ | _ | k) node r cell hnode hr hcell
    · intro j hj; omega
    · intro j hj; omega
    · exact identityPrimitives_unopened _ cell
    · simp [sampleChain] at hnode

theorem telescope_agreement_three_hops : ∃ n,
    negotiateTelescopicHops sampleHandshake identityPrimitives
      (pathExchange identityPrimitives sampleDial (sampleHop 1)) 7 [] sampleChain
      (sampleRoute.map fun r => r.key.verifyingKey) sampleCoins = .ok n ∧
    (∀ (i : ℕ) r, sampleRoute[i]? = some r → ∃ hop : RelayCircuitHop, n.net[i]? = some (r, hop) ∧
      n.circuit.hops[i]? = some hop.keys ∧ hop.hopIndex = i ∧ hop.contextId = 7) ∧
    ∀ (i : ℕ) pin, (sampleRoute.map fun r => r.key.verifyingKey)[i]? = some pin →
      ∃ keys, n.circuit.hops[i]? = some keys ∧ SignedHop sampleHandshake
        (fun pin message => ∃ sig, sampleHandshake.verifyStrict pin message sig = true) 7 i pin
        (sampleCoins i) keys := by
  obtain ⟨honest, any⟩ := telescope_agreement sampleHandshake sampleHandshake_correct
    identityPrimitives 7 sampleChain sampleCoins
  obtain ⟨n, hok, hrelays⟩ := honest sampleDial sampleRoute (fun _ => sampleHopKeys) (sampleHop 1)
    identityPrimitives_correct (sampleRoute_honest 7) (by decide) (by decide) (by decide)
    (by decide +kernel) (by decide +kernel) rfl
  refine ⟨n, hok, hrelays, ?_⟩
  intro i pin hpin
  obtain ⟨keys, hkeys, hsigned, -⟩ := any _ _ [] _ n
    (fun pin message => ∃ sig, sampleHandshake.verifyStrict pin message sig = true) hok
    (fun cell _ pin message h => ⟨_, h⟩) i pin hpin
  exact ⟨keys, hkeys, hsigned⟩

end Sample

end AnonGuard
