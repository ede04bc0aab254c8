import AnonGuard.Circuit

/-!
# Forward delivery along a circuit

A cell wrapped by the client passes the relays in order. Each relay before the
last fails to open it, strips one stream layer and addresses the link of its
successor. The last relay opens it and reads the cell that was sent. The proof
peels one layer per relay; rewriting the circuit id touches neither the layers
nor the authenticated sequence number.
-/
namespace AnonGuard

namespace OnionCircuit

lemma foldl_addHop (c : OnionCircuit) (keys : List HopKeys)
    (h : c.hops.length + keys.length ≤ MAX_HOPS) :
    keys.foldl (fun c k => (c.addHop k).2) c = { c with
      hops := c.hops ++ keys
      bwdReplayWindows := c.bwdReplayWindows ++ List.replicate keys.length ReplayWindow.new } := by
  induction keys generalizing c with
  | nil => simp
  | cons k keys ih =>
    simp only [List.length_cons] at h
    have hroom : ¬ c.hops.length ≥ MAX_HOPS := by omega
    have hadd : (c.addHop k).2 = { c with
        hops := c.hops ++ [k]
        bwdReplayWindows := c.bwdReplayWindows ++ [ReplayWindow.new] } := by
      simp [addHop, hroom]
    rw [List.foldl_cons, hadd, ih _ (by simp; omega)]
    simp [List.replicate_succ]

/-- A circuit of at most eight hops has exactly the given keys and fresh state. -/
theorem build_eq (id : UInt32) (keys : List HopKeys) (h : keys.length ≤ MAX_HOPS) :
    build id keys = ⟨id, keys, 1, List.replicate keys.length ReplayWindow.new⟩ := by
  simpa [build, new] using foldl_addHop (new id) keys (by simpa [new] using h)

end OnionCircuit

/-- Fresh relays of a circuit; relay `i` is known to its predecessor as `links[i]`. -/
def freshRelays (links : List UInt32) (keys : List HopKeys) : List RelayCircuitHop :=
  (links.zip keys).mapIdx (fun i lk => RelayCircuitHop.new lk.1 lk.2 i)

section Forward
variable (P : Primitives)

/-- One frame along the relays of a circuit. It stops at the relay that opens
it or rejects it. -/
def forwardPath : List RelayCircuitHop → Frame →
    Except CircuitError (List PeelOutcome) × Frame × List RelayCircuitHop
  | [], raw => (.ok [], raw, [])
  | [r], raw =>
    let out := r.peelForward P raw
    (out.1.map (fun o => [o]), out.2.1, [out.2.2])
  | r :: next :: rest, raw =>
    let out := r.relayForward P next.circuitId raw
    match out.1 with
    | .ok .forwardDownstream =>
      let tail := forwardPath (next :: rest) out.2.1
      (tail.1.map (.forwardDownstream :: ·), tail.2.1, out.2.2 :: tail.2.2)
    | .ok o => (.ok [o], out.2.1, out.2.2 :: next :: rest)
    | .error e => (.error e, out.2.1, out.2.2 :: next :: rest)

structure ForwardState where
  circuit : OnionCircuit
  relays : List RelayCircuitHop

/-- Wrap one cell, pass it along the relays and parse what the last one holds. -/
def sendForward (s : ForwardState) (cell : OnionCell) :
    Except CircuitError (List PeelOutcome × OnionCell) × ForwardState :=
  let wrapped := s.circuit.wrapForward P cell
  match wrapped.1 with
  | .error e => (.error e, { s with circuit := wrapped.2 })
  | .ok raw =>
    let path := forwardPath P s.relays raw
    let s := ⟨wrapped.2, path.2.2⟩
    match path.1 with
    | .error e => (.error e, s)
    | .ok outcomes =>
      match OnionCell.parse path.2.1 with
      | .error e => (.error (.parseError e), s)
      | .ok cell => (.ok (outcomes, cell), s)

def sendAll : ForwardState → List OnionCell →
    List (Except CircuitError (List PeelOutcome × OnionCell))
  | _, [] => []
  | s, cell :: cells => (sendForward P s cell).1 :: sendAll (sendForward P s cell).2 cells

/-- The sealing call that `wrap_forward` makes for one cell. -/
def forwardSeal (c : OnionCircuit) (cell : OnionCell) : List SealRecord :=
  let raw := (cell.numbered c.sequenceNo).serialize
  let nonce := buildNonce 1 0 c.sequenceNo
  c.hops.getLast?.toList.map fun target =>
    let out := P.encrypt target.forwardAeadKey nonce raw.aad raw.plain
    ⟨target.forwardAeadKey, nonce, raw.aad, raw.plain, out.1, out.2⟩

def forwardSeals : OnionCircuit → List OnionCell → List SealRecord
  | _, [] => []
  | c, cell :: cells => forwardSeal P c cell ++ forwardSeals (c.wrapForward P cell).2 cells

/-- The stream layers of the hops before the last, outermost first. -/
def forwardLayers (nonce : Bytes) (hops : List HopKeys) (body : Bytes) : Bytes :=
  hops.foldr (fun hop b => xorStream (P.keystream hop.forwardKey nonce) b) body

lemma foldl_encryptForwardStream (nonce : Bytes) (hops : List HopKeys) (raw : Frame) :
    let out := hops.reverse.foldl (fun raw hop => hop.encryptForwardStream P nonce raw) raw
    out.body = forwardLayers P nonce hops raw.body ∧ out.aad = raw.aad ∧
      out.circuitId = raw.circuitId := by
  induction hops with
  | nil => simp [forwardLayers]
  | cons hop hops ih =>
    simp only [List.reverse_cons, List.foldl_append, List.foldl_cons, List.foldl_nil] at ih ⊢
    obtain ⟨hbody, haad, hid⟩ := ih
    refine ⟨?_, ?_, ?_⟩
    · rw [HopKeys.encryptForwardStream, Frame.body_streamWith, hbody]
      rfl
    · simpa [HopKeys.encryptForwardStream] using haad
    · simpa [HopKeys.encryptForwardStream] using hid

/-- What `wrap_forward` returns on a circuit with a last hop. -/
theorem wrapForward_eq (c : OnionCircuit) (cell : OnionCell) (hops : List HopKeys)
    (target : HopKeys) (hhops : c.hops = hops ++ [target]) (hid : cell.circuitId = c.circuitId)
    (hseq : c.sequenceNo.toNat + 1 < 2 ^ 32) :
    ∃ raw next, c.wrapForward P cell = (.ok raw, { c with sequenceNo := next }) ∧
      next.toNat = c.sequenceNo.toNat + 1 ∧ raw.circuitId = c.circuitId ∧
      raw.aad = be32 c.sequenceNo ∧
      raw.body = forwardLayers P (buildNonce 1 0 c.sequenceNo) hops
        ((cell.numbered c.sequenceNo).serialize.sealWith P target.forwardAeadKey
          (buildNonce 1 0 c.sequenceNo)).body := by
  obtain ⟨next, hnext⟩ : ∃ next, checkedSucc c.sequenceNo = some next := ⟨_, if_pos hseq⟩
  have hlast : c.hops.getLast? = some target := by simp [hhops]
  have htake : c.hops.take (c.hops.length - 1) = hops := by simp [hhops]
  have hne : ¬ c.sequenceNo.toNat = 2 ^ 32 - 1 := by omega
  have hcid : (cell.numbered c.sequenceNo).serialize.circuitId = c.circuitId := by
    rw [OnionCell.circuitId_serialize, OnionCell.circuitId_numbered, hid]
  simp only [OnionCircuit.wrapForward, if_neg hne, hid, ne_eq, not_true_eq_false, if_false, hnext,
    hlast, htake]
  by_cases hmany : c.hops.length > 1
  · obtain ⟨hbody, haad, hcirc⟩ := foldl_encryptForwardStream P (buildNonce 1 0 c.sequenceNo) hops
      (target.sealForward P (buildNonce 1 0 c.sequenceNo)
        (cell.numbered c.sequenceNo).serialize)
    rw [if_pos hmany]
    refine ⟨_, next, rfl, (checkedSucc_eq_some.mp hnext).2, ?_, ?_, hbody⟩
    · rw [hcirc]
      simpa [HopKeys.sealForward] using hcid
    · rw [haad]
      simp [HopKeys.sealForward]
  · have hnil : hops = [] := by
      have : hops.length + 1 ≤ 1 := by simpa [hhops] using Nat.not_lt.mp hmany
      exact List.length_eq_zero_iff.mp (by omega)
    rw [if_neg hmany]
    subst hnil
    refine ⟨_, next, rfl, (checkedSucc_eq_some.mp hnext).2, ?_, ?_, rfl⟩
    · simpa [HopKeys.sealForward] using hcid
    · simp [HopKeys.sealForward]

/-- A relay that cannot open a frame strips its own layer and nothing else. -/
theorem relayForward_of_reject (r : RelayCircuitHop) (next : UInt32) (raw : Frame) (inner : Bytes)
    (hid : raw.circuitId = r.circuitId) (hbody : raw.body = xorStream (P.keystream r.keys.forwardKey
      (buildNonce 1 0 raw.sequenceNo)) inner)
    (hreject : P.decrypt r.keys.forwardAeadKey (buildNonce 1 0 raw.sequenceNo) raw.aad raw.plain
      raw.tag = none) :
    ∃ raw', r.relayForward P next raw = (.ok .forwardDownstream, raw', r) ∧
      raw'.circuitId = next ∧ raw'.aad = raw.aad ∧ raw'.body = inner := by
  have hopen : raw.openWith P r.keys.forwardAeadKey (buildNonce 1 0 raw.sequenceNo) = none :=
    (Frame.openWith_eq_none P).mpr hreject
  simp only [RelayCircuitHop.relayForward, RelayCircuitHop.peelForward, hid, ne_eq,
    not_true_eq_false, if_false, HopKeys.openForward, hopen, Option.elim]
  refine ⟨_, rfl, by simp, by simp [HopKeys.encryptForwardStream], ?_⟩
  simp [HopKeys.encryptForwardStream, hbody]

/-- The addressed relay opens the frame, accepts a sequence number that is not too far ahead
and holds the plaintext that was sealed. -/
theorem peelForward_of_open (r : RelayCircuitHop) (raw sent : Frame) (cell : OnionCell)
    (hid : raw.circuitId = r.circuitId) (haad : raw.aad = sent.aad)
    (hbody : raw.body = (sent.sealWith P r.keys.forwardAeadKey
      (buildNonce 1 0 raw.sequenceNo)).body) (hplain : sent.plain = cell.plainBytes)
    (hopen : P.decrypt r.keys.forwardAeadKey (buildNonce 1 0 raw.sequenceNo) sent.aad
      (P.encrypt r.keys.forwardAeadKey (buildNonce 1 0 raw.sequenceNo) sent.aad sent.plain).1
      (P.encrypt r.keys.forwardAeadKey (buildNonce 1 0 raw.sequenceNo) sent.aad sent.plain).2 =
        some sent.plain) (hge : r.expectedRecvSeq ≤ raw.sequenceNo)
    (hgap : raw.sequenceNo.toNat - r.expectedRecvSeq.toNat ≤ MAX_SEQ_GAP)
    (hroom : raw.sequenceNo.toNat + 1 < 2 ^ 32) :
    ∃ opened next, r.peelForward P raw =
        (.ok (.addressedToThisRelay cell.command cell.length.toNat), opened,
          { r with expectedRecvSeq := next }) ∧
      next.toNat = raw.sequenceNo.toNat + 1 ∧ opened.plain = cell.plainBytes := by
  obtain ⟨opened, ho, hop⟩ := Frame.openWith_of_body P hopen haad hbody
  rw [hplain] at hop
  obtain ⟨next, hnext⟩ : ∃ next, checkedSucc raw.sequenceNo = some next := ⟨_, if_pos hroom⟩
  have hfresh : ¬ raw.sequenceNo < r.expectedRecvSeq := UInt32.not_lt.mpr hge
  have hle : ¬ cell.length.toNat > PAYLOAD_SIZE := Nat.not_lt.mpr cell.length_le
  have haccept : r.acceptForward raw.sequenceNo opened =
      (.ok (.addressedToThisRelay cell.command cell.length.toNat),
        { r with expectedRecvSeq := next }) := by
    simp only [RelayCircuitHop.acceptForward, hfresh, if_false, Nat.not_lt.mpr hgap, hnext,
      OnionCell.command_of_plain hop, CellCommand.fromU8_toU8, OnionCell.length_of_plain hop, hle,
      Nat.min_eq_left cell.length_le]
  refine ⟨opened, next, ?_, (checkedSucc_eq_some.mp hnext).2, hop⟩
  simp only [RelayCircuitHop.peelForward, hid, ne_eq, not_true_eq_false, if_false,
    HopKeys.openForward, ho, Option.elim, haccept]

/-- The whole path, by induction on the relays before the addressed one. -/
theorem forwardPath_delivers (rs : List RelayCircuitHop) (last : RelayCircuitHop)
    (raw sent : Frame) (cell : OnionCell)
    (hid : (rs ++ [last]).head?.map RelayCircuitHop.circuitId = some raw.circuitId)
    (haad : raw.aad = sent.aad) (hbody : raw.body = forwardLayers P (buildNonce 1 0 raw.sequenceNo)
      (rs.map RelayCircuitHop.keys)
      (sent.sealWith P last.keys.forwardAeadKey (buildNonce 1 0 raw.sequenceNo)).body)
    (hplain : sent.plain = cell.plainBytes) (hreject : ∀ r ∈ rs, ∀ nonce aad cipher tag,
      P.decrypt r.keys.forwardAeadKey nonce aad cipher tag = none)
    (hopen : P.decrypt last.keys.forwardAeadKey (buildNonce 1 0 raw.sequenceNo) sent.aad
      (P.encrypt last.keys.forwardAeadKey (buildNonce 1 0 raw.sequenceNo) sent.aad sent.plain).1
      (P.encrypt last.keys.forwardAeadKey (buildNonce 1 0 raw.sequenceNo) sent.aad sent.plain).2 =
        some sent.plain)
    (hseq : raw.sequenceNo = last.expectedRecvSeq) (hroom : raw.sequenceNo.toNat + 1 < 2 ^ 32) :
    ∃ opened next, forwardPath P (rs ++ [last]) raw =
        (.ok (List.replicate rs.length .forwardDownstream ++
          [.addressedToThisRelay cell.command cell.length.toNat]), opened,
          rs ++ [{ last with expectedRecvSeq := next }]) ∧
      next.toNat = raw.sequenceNo.toNat + 1 ∧ opened.plain = cell.plainBytes := by
  induction rs generalizing raw with
  | nil =>
    have hid' : raw.circuitId = last.circuitId := by simpa using hid.symm
    obtain ⟨opened, next, hpeel, hnext, hop⟩ := peelForward_of_open P last raw sent cell hid' haad
      hbody hplain hopen (UInt32.le_of_eq hseq.symm) (by simp [hseq]) hroom
    exact ⟨opened, next, by simp [forwardPath, hpeel, Except.map], hnext, hop⟩
  | cons r rs ih =>
    have hid' : raw.circuitId = r.circuitId := by simpa using hid.symm
    obtain ⟨succ, tail, htail⟩ : ∃ succ tail, rs ++ [last] = succ :: tail := by
      cases rs with
      | nil => exact ⟨last, [], rfl⟩
      | cons succ tail => exact ⟨succ, tail ++ [last], rfl⟩
    obtain ⟨raw', hrelay, hnextId, hraad, hrbody⟩ := relayForward_of_reject P r succ.circuitId raw
      _ hid' hbody (hreject r (by simp) _ _ _ _)
    have hsame : raw'.sequenceNo = raw.sequenceNo := by simp [Frame.sequenceNo, hraad]
    obtain ⟨opened, next, hpath, hnext, hop⟩ := ih raw' (by simp [htail, hnextId])
      (hraad.trans haad) (by rw [hsame]; exact hrbody)
      (fun a ha => hreject a (List.mem_cons_of_mem _ ha)) (by rw [hsame]; exact hopen)
      (hsame.trans hseq) (by rw [hsame]; exact hroom)
    rw [hsame] at hnext
    refine ⟨opened, next, ?_, hnext, hop⟩
    rw [htail] at hpath
    simp only [List.cons_append, htail, forwardPath, hrelay, hpath, Except.map,
      List.length_cons, List.replicate_succ]

/-- The addressed relay read the cell, and every relay before it forwarded. -/
def Delivered (n : ℕ) (cell : OnionCell)
    (result : Except CircuitError (List PeelOutcome × OnionCell)) : Prop :=
  ∃ p, result = .ok (List.replicate (n - 1) .forwardDownstream ++
    [.addressedToThisRelay cell.command cell.length.toNat], p) ∧ p.SameContent cell

lemma forwardSeal_eq (c : OnionCircuit) (cell : OnionCell) (hops : List HopKeys)
    (target : HopKeys) (hhops : c.hops = hops ++ [target]) :
    forwardSeal P c cell = [⟨target.forwardAeadKey, buildNonce 1 0 c.sequenceNo,
      be32 c.sequenceNo, cell.plainBytes,
      (P.encrypt target.forwardAeadKey (buildNonce 1 0 c.sequenceNo) (be32 c.sequenceNo)
        cell.plainBytes).1,
      (P.encrypt target.forwardAeadKey (buildNonce 1 0 c.sequenceNo) (be32 c.sequenceNo)
        cell.plainBytes).2⟩] := by
  simp [forwardSeal, hhops]

/-- Cells sent in order are delivered in order: the last relay expects the
number that the client uses next. -/
theorem sendAll_delivers (rs : List RelayCircuitHop) (cells : List OnionCell) (c : OnionCircuit)
    (last : RelayCircuitHop) (hhops : c.hops = rs.map RelayCircuitHop.keys ++ [last.keys])
    (hhead : (rs ++ [last]).head?.map RelayCircuitHop.circuitId = some c.circuitId)
    (hexp : last.expectedRecvSeq = c.sequenceNo) (hcells : ∀ cell ∈ cells, cell.circuitId = c.circuitId)
    (hcount : c.sequenceNo.toNat + cells.length ≤ 2 ^ 32 - 1)
    (hreject : ∀ r ∈ rs, ∀ nonce aad cipher tag,
      P.decrypt r.keys.forwardAeadKey nonce aad cipher tag = none)
    (hopens : ∀ r ∈ forwardSeals P c cells,
      P.decrypt r.key r.nonce r.aad r.cipher r.tag = some r.plain) :
    List.Forall₂ (Delivered (rs.length + 1)) cells (sendAll P ⟨c, rs ++ [last]⟩ cells) := by
  induction cells generalizing c last with
  | nil => exact .nil
  | cons cell cells ih =>
    simp only [List.length_cons] at hcount
    have hroom : c.sequenceNo.toNat + 1 < 2 ^ 32 := by omega
    have hcell : cell.circuitId = c.circuitId := hcells cell (by simp)
    obtain ⟨raw, succ, hwrap, hsucc, hraw, haad, hbody⟩ := wrapForward_eq P c cell _ _ hhops hcell
      hroom
    have hseq : raw.sequenceNo = c.sequenceNo := by simp [Frame.sequenceNo, haad]
    have hsealed := hopens _ (List.mem_append_left _ (by
      rw [forwardSeal_eq P c cell _ _ hhops]
      exact List.mem_singleton_self _))
    obtain ⟨opened, next, hpath, hnext, hop⟩ := forwardPath_delivers P rs last raw
      (cell.numbered c.sequenceNo).serialize cell (by rw [hhead, hraw])
      (by simp [haad]) (by rw [hseq]; exact hbody) (by simp) hreject
      (by rw [hseq]; simpa using hsealed) (hseq.trans hexp.symm)
      (by rw [hseq]; exact hroom)
    have hsame : next = succ := by
      apply UInt32.toNat_inj.mp
      rw [hnext, hsucc, hseq]
    obtain ⟨p, hparse, hcontent, -⟩ := OnionCell.parse_of_plain hop
    have hsend : sendForward P ⟨c, rs ++ [last]⟩ cell =
        (.ok (List.replicate rs.length .forwardDownstream ++
          [.addressedToThisRelay cell.command cell.length.toNat], p),
          ⟨{ c with sequenceNo := succ }, rs ++ [{ last with expectedRecvSeq := next }]⟩) := by
      simp only [sendForward, hwrap, hpath, hparse]
    simp only [sendAll, hsend]
    refine .cons ⟨p, by simp, hcontent⟩ ?_
    apply ih { c with sequenceNo := succ } { last with expectedRecvSeq := next } hhops
    · rw [← hhead]
      cases rs <;> rfl
    · exact hsame
    · exact fun a ha => hcells a (List.mem_cons_of_mem _ ha)
    · simp only [hsucc]
      omega
    · intro r hr
      apply hopens r
      simp only [forwardSeals, hwrap]
      exact List.mem_append_right _ hr

lemma OnionCircuit.wrapForward_hops (c : OnionCircuit) (cell : OnionCell) :
    (c.wrapForward P cell).2.hops = c.hops := by
  unfold OnionCircuit.wrapForward
  split
  · rfl
  · split
    · rfl
    · cases checkedSucc c.sequenceNo <;> rfl

lemma forwardSeals_key (cells : List OnionCell) (c : OnionCircuit) (hops : List HopKeys)
    (target : HopKeys) (hhops : c.hops = hops ++ [target]) :
    ∀ r ∈ forwardSeals P c cells, r.key = target.forwardAeadKey := by
  induction cells generalizing c with
  | nil => simp [forwardSeals]
  | cons cell cells ih =>
    intro r hr
    rw [forwardSeals, forwardSeal_eq P c cell hops target hhops, List.mem_append] at hr
    rcases hr with hr | hr
    · rw [List.mem_singleton.mp hr]
    · exact ih _ ((c.wrapForward_hops P cell).trans hhops) r hr

/-- Every cell of a circuit with independent hop keys reaches the last relay and
only that relay. The link ids are arbitrary, except that the client addresses
the first relay by the circuit id. -/
theorem forward_delivery (id : UInt32) (keys : List HopKeys) (links : List UInt32)
    (cells : List OnionCell) (hpos : 1 ≤ keys.length) (hmax : keys.length ≤ MAX_HOPS)
    (hlinks : links.length = keys.length) (hfirst : links.head? = some id)
    (hindep : keys.Pairwise (fun a b => a.forwardAeadKey ≠ b.forwardAeadKey))
    (hcells : ∀ cell ∈ cells, cell.circuitId = id) (hcount : cells.length ≤ 2 ^ 32 - 2)
    (haead : P.IdealOn (keys.map HopKeys.forwardAeadKey)
      (forwardSeals P (OnionCircuit.build id keys) cells)) :
    List.Forall₂ (Delivered keys.length) cells
      (sendAll P ⟨OnionCircuit.build id keys, freshRelays links keys⟩ cells) := by
  obtain ⟨hops, target, rfl⟩ : ∃ hops target, keys = hops ++ [target] :=
    ⟨_, _, (List.dropLast_append_getLast (List.length_pos_iff.mp hpos)).symm⟩
  obtain ⟨ids, link, rfl⟩ : ∃ ids link, links = ids ++ [link] :=
    ⟨_, _, (List.dropLast_append_getLast (List.length_pos_iff.mp (by omega))).symm⟩
  have hlen : ids.length = hops.length := by simpa using hlinks
  have hbuild := OnionCircuit.build_eq id (hops ++ [target]) hmax
  have hrelays : freshRelays (ids ++ [link]) (hops ++ [target]) =
      freshRelays ids hops ++ [RelayCircuitHop.new link target hops.length] := by
    simp [freshRelays, List.zip_append hlen, List.mapIdx_append, hlen]
  have hkeys : (freshRelays ids hops).map RelayCircuitHop.keys = hops := by
    apply List.ext_getElem
    · simp [freshRelays, hlen]
    · intro i _ _
      simp [freshRelays, RelayCircuitHop.new]
  have hcirc : (freshRelays ids hops ++ [RelayCircuitHop.new link target hops.length]).head?.map
      RelayCircuitHop.circuitId = some id := by
    cases ids <;> cases hops <;> simp_all [freshRelays, RelayCircuitHop.new]
  have hfresh : (freshRelays ids hops).length + 1 = (hops ++ [target]).length := by
    simp [freshRelays, hlen]
  rw [hrelays, ← hfresh]
  refine sendAll_delivers P (freshRelays ids hops) cells _ _ ?_ ?_ ?_ ?_ ?_ ?_ haead.opens
  · rw [hbuild, hkeys]
    rfl
  · rw [hbuild]
    exact hcirc
  · rw [hbuild]
    rfl
  · rw [hbuild]
    exact hcells
  · rw [hbuild]
    have : (1 : UInt32).toNat = 1 := rfl
    dsimp only
    omega
  · intro r hr nonce aad cipher tag
    by_contra hne
    have hmem : r.keys ∈ hops := by
      rw [← hkeys]
      exact List.mem_map_of_mem hr
    obtain ⟨rec, hrec, hkey, _⟩ := haead.rejects r.keys.forwardAeadKey
      (List.mem_map_of_mem (List.mem_append_left _ hmem)) nonce aad cipher tag hne
    have htarget := forwardSeals_key P cells (OnionCircuit.build id (hops ++ [target])) hops
      target (by rw [hbuild]) rec hrec
    exact (List.pairwise_append.mp hindep).2.2 r.keys hmem target (by simp) (hkey.symm.trans htarget)

end Forward

section Sample

/-- A two-hop key set whose second hop is the only one that anything is sealed for. -/
def sampleKeys : List HopKeys := [⟨[1], [2], [3], [4]⟩, ⟨[5], [6], [7], [8]⟩]

lemma length_sampleMac : (List.replicate 16 0 : Bytes).length = 16 := List.length_replicate

def sampleCell (id : UInt32) (command : CellCommand) (data : UInt8) : OnionCell where
  circuitId := id
  sequenceNo := 0
  command := command
  streamId := 3
  length := 1
  ephemeralKey := List.replicate 32 0
  mac := List.replicate 16 0
  payload := data :: List.replicate (PAYLOAD_SIZE - 1) 0
  length_le := by decide
  ephemeralKey_size := List.length_replicate
  mac_size := length_sampleMac
  payload_size := by
    rw [List.length_cons, List.length_replicate]
    rfl

/-- A table AEAD: it opens the listed records and nothing else. -/
def tablePrimitives (log : List (Bytes × Bytes × Bytes × Bytes)) : Primitives where
  encrypt _ _ _ plain := (plain, List.replicate 16 0)
  decrypt key nonce aad cipher tag :=
    if (key, nonce, aad, cipher) ∈ log ∧ tag = List.replicate 16 0 then some cipher else none
  keystream _ _ i := UInt8.ofNat i
  length_encrypt _ _ _ _ := rfl
  length_tag _ _ _ _ := List.length_replicate
  length_decrypt := by
    intro key nonce aad cipher tag plain h
    split_ifs at h
    cases h
    rfl

theorem forward_delivery_two_hops :
    List.Forall₂ (Delivered 2) [sampleCell 7 .data 9]
      (sendAll (tablePrimitives [([7], buildNonce 1 0 1, be32 1, (sampleCell 7 .data 9).plainBytes)])
        ⟨OnionCircuit.build 7 sampleKeys, freshRelays [7, 12] sampleKeys⟩
        [sampleCell 7 .data 9]) := by
  have hseals : forwardSeals (tablePrimitives [([7], buildNonce 1 0 1, be32 1,
      (sampleCell 7 .data 9).plainBytes)]) (OnionCircuit.build 7 sampleKeys)
      [sampleCell 7 .data 9] = [⟨[7], buildNonce 1 0 1, be32 1, (sampleCell 7 .data 9).plainBytes,
        (sampleCell 7 .data 9).plainBytes, List.replicate 16 0⟩] := by
    rw [forwardSeals, forwardSeals, List.append_nil,
      forwardSeal_eq _ _ _ [⟨[1], [2], [3], [4]⟩] ⟨[5], [6], [7], [8]⟩ rfl]
    rfl
  refine forward_delivery _ 7 sampleKeys [7, 12] _ (by decide) (by decide) rfl rfl (by decide)
    (by simp [sampleCell]) (by decide) ⟨?_, ?_⟩
  · rw [hseals]
    simp [tablePrimitives]
  · rw [hseals]
    intro key _ nonce aad cipher tag h
    simp only [tablePrimitives, List.mem_singleton, Prod.mk.injEq, ne_eq, ite_eq_right_iff,
      reduceCtorEq, imp_false, not_not] at h
    obtain ⟨⟨rfl, rfl, rfl, rfl⟩, rfl⟩ := h
    exact ⟨_, List.mem_singleton_self _, rfl, rfl, rfl, rfl, rfl⟩

end Sample

end AnonGuard
