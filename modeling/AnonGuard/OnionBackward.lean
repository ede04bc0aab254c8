import AnonGuard.OnionForward

/-!
# Backward delivery along a circuit

Any relay of the circuit may originate cells. A cell of origin `h` is sealed
under hop `h`, gets one layer from each of the relays `h-1, ..., 0` and is
numbered in the sequence space of its origin, so the client strips exactly `h`
layers and checks the replay window of that hop. A run interleaves sealing and
delivery of the origins in any way that keeps each origin's own order.
-/
namespace AnonGuard

variable {h : ℕ} {seq : UInt32}

section Pack

lemma toNat_mask : BWD_COUNTER_MASK.toNat = 2 ^ 29 - 1 := rfl

/-- Hop index and counter occupy disjoint bits. -/
theorem packBackwardSeq_eq {counter : UInt32} (hh : h < MAX_HOPS) (hc : counter.toNat < 2 ^ 29) :
    ∃ seq, packBackwardSeq h counter = .ok seq ∧ seq.toNat = h * 2 ^ 29 + counter.toNat := by
  have hge : ¬ h ≥ MAX_HOPS := by omega
  have hgt : ¬ counter > BWD_COUNTER_MASK := by
    intro hlt
    have := UInt32.lt_iff_toNat_lt.mp hlt
    rw [toNat_mask] at this
    omega
  refine ⟨(UInt32.ofNat h <<< BWD_COUNTER_BITS) ||| counter,
    by simp only [packBackwardSeq, if_neg hge, if_neg hgt], ?_⟩
  have h8 : h < 8 := hh
  have hshift : (UInt32.ofNat h <<< BWD_COUNTER_BITS).toNat = h <<< 29 := by
    rw [UInt32.toNat_shiftLeft]
    have hbits : BWD_COUNTER_BITS.toNat % 32 = 29 := rfl
    rw [hbits, UInt32.toNat_ofNat', Nat.mod_eq_of_lt (by omega : h < 2 ^ 32), Nat.shiftLeft_eq]
    exact Nat.mod_eq_of_lt (by omega)
  rw [UInt32.toNat_or, hshift, ← Nat.shiftLeft_add_eq_or_of_lt hc, Nat.shiftLeft_eq]

theorem claimedHop_of_toNat {h n : ℕ} (hn : n < 2 ^ 29)
    (hs : seq.toNat = h * 2 ^ 29 + n) : claimedHop seq = h := by
  have hbits : BWD_COUNTER_BITS.toNat % 32 = 29 := rfl
  rw [claimedHop, UInt32.toNat_shiftRight, hbits, Nat.shiftRight_eq_div_pow, hs]
  omega

theorem counter_of_toNat {h n : ℕ} (hn : n < 2 ^ 29)
    (hs : seq.toNat = h * 2 ^ 29 + n) : (seq &&& BWD_COUNTER_MASK).toNat = n := by
  rw [UInt32.toNat_and, toNat_mask, Nat.and_two_pow_sub_one_eq_mod, hs]
  omega

end Pack

section Backward
variable (P : Primitives) {cell : OnionCell}

/-- A frame of origin `origin` through the relays between it and the client,
the one next to the origin first. `none` when a relay drops the circuit. -/
def backwardPath : List RelayCircuitHop → UInt32 → Frame → Option Frame
  | [], _, raw => some raw
  | r :: rest, origin, raw => (backwardPath rest origin raw).bind
      (r.relayBackward P ((rest.head?.map RelayCircuitHop.circuitId).getD origin))

structure BackwardState where
  circuit : OnionCircuit
  relays : List RelayCircuitHop
  /-- Sealed frames of each origin that the client has not read, oldest first. -/
  flight : ℕ → List (OnionCell × Frame)

inductive BackwardEvent
  | originate (h : ℕ) (cell : OnionCell)
  | deliver (h : ℕ)

inductive BackwardOutput
  | originated (result : Except CircuitError Unit)
  /-- The client's answer to a frame; `none` when a relay rejected it. -/
  | arrived (h : ℕ) (cell : OnionCell) (result : Option (Except CircuitError (ℕ × OnionCell)))

def backwardStep (s : BackwardState) : BackwardEvent → List BackwardOutput × BackwardState
  | .originate h cell =>
    match s.relays[h]? with
    | none => ([], s)
    | some r =>
      let out := r.wrapBackwardOriginate P cell.serialize
      let s := { s with relays := s.relays.set h out.2 }
      match out.1 with
      | .error e => ([.originated (.error e)], s)
      | .ok raw => ([.originated (.ok ())],
          { s with flight := Function.update s.flight h (s.flight h ++ [(cell, raw)]) })
  | .deliver h =>
    match s.flight h, s.relays[h]? with
    | (cell, raw) :: rest, some r =>
      let s := { s with flight := Function.update s.flight h rest }
      match backwardPath P (s.relays.take h) r.circuitId raw with
      | none => ([.arrived h cell none], s)
      | some raw =>
        let out := s.circuit.unwrapBackward P raw
        ([.arrived h cell (some out.1)], { s with circuit := out.2 })
    | _, _ => ([], s)

def backwardRun : BackwardState → List BackwardEvent → List BackwardOutput
  | _, [] => []
  | s, e :: es => (backwardStep P s e).1 ++ backwardRun (backwardStep P s e).2 es

/-- What the backward direction is for: one first-in first-out mailbox per origin. -/
inductive MailOutput
  | accepted
  | received (h : ℕ) (cell : OnionCell)

def mailboxStep (q : ℕ → List OnionCell) :
    BackwardEvent → List MailOutput × (ℕ → List OnionCell)
  | .originate h cell => ([.accepted], Function.update q h (q h ++ [cell]))
  | .deliver h =>
    match q h with
    | [] => ([], q)
    | cell :: rest => ([.received h cell], Function.update q h rest)

def mailboxRun : (ℕ → List OnionCell) → List BackwardEvent → List MailOutput
  | _, [] => []
  | q, e :: es => (mailboxStep q e).1 ++ mailboxRun (mailboxStep q e).2 es

/-- The circuit's answer implements the mailbox's: sealing succeeds, no relay
rejects the frame and the client reads the cell's content from its origin. -/
def Implements : MailOutput → BackwardOutput → Prop
  | .accepted, .originated result => result = .ok ()
  | .received h cell, .arrived k sent result =>
    k = h ∧ sent = cell ∧ ∃ p, result = some (.ok (h, p)) ∧ p.SameContent cell
  | _, _ => False

/-- The layers of the relays before the origin, the client's side outermost. -/
def backwardLayers (nonce : Bytes) (hops : List HopKeys) (body : Bytes) : Bytes :=
  hops.foldr (fun hop b => xorStream (P.keystream hop.backwardKey nonce) b) body

lemma foldl_encryptBackwardStream (nonce : Bytes) (hops : List HopKeys) (raw : Frame)
    (body : Bytes) (h : raw.body = backwardLayers P nonce hops body) :
    let out := hops.foldl (fun raw hop => hop.encryptBackwardStream P nonce raw) raw
    out.body = body ∧ out.aad = raw.aad := by
  induction hops generalizing raw with
  | nil => exact ⟨h, rfl⟩
  | cons hop hops ih =>
    have hnext : (hop.encryptBackwardStream P nonce raw).body =
        backwardLayers P nonce hops body := by
      rw [HopKeys.encryptBackwardStream, Frame.body_streamWith, h]
      exact xorStream_xorStream _ _
    obtain ⟨hbody, haad⟩ := ih _ hnext
    refine ⟨hbody, haad.trans ?_⟩
    simp [HopKeys.encryptBackwardStream]

/-- No relay on the way rejects a frame that names another origin; each adds
exactly its own layer. -/
theorem backwardPath_layers (rs : List RelayCircuitHop) (origin : UInt32) (raw : Frame)
    (hid : raw.circuitId = origin) (hhop : ∀ r ∈ rs, claimedHop raw.sequenceNo ≠ r.hopIndex) :
    ∃ raw', backwardPath P rs origin raw = some raw' ∧ raw'.aad = raw.aad ∧
      raw'.circuitId = (rs.head?.map RelayCircuitHop.circuitId).getD origin ∧
      raw'.body = backwardLayers P (buildNonce 2 0 raw.sequenceNo)
        (rs.map RelayCircuitHop.keys) raw.body := by
  induction rs with
  | nil => exact ⟨raw, rfl, rfl, hid, rfl⟩
  | cons r rs ih =>
    obtain ⟨raw', hpath, haad, hcid, hbody⟩ := ih (fun a ha => hhop a (List.mem_cons_of_mem _ ha))
    have hseq : raw'.sequenceNo = raw.sequenceNo := by simp [Frame.sequenceNo, haad]
    have hclaim : ¬ claimedHop raw.sequenceNo = r.hopIndex := hhop r (by simp)
    refine ⟨r.keys.encryptBackwardStream P (buildNonce 2 0 raw.sequenceNo)
      (raw'.withId r.circuitId), ?_, ?_, ?_, ?_⟩
    · simp only [backwardPath, hpath, Option.bind_some, RelayCircuitHop.relayBackward, hcid, ne_eq,
        not_true_eq_false, if_false, RelayCircuitHop.wrapBackwardRelay, Frame.sequenceNo_withId,
        hseq, if_neg hclaim, Except.toOption]
    · simp [HopKeys.encryptBackwardStream, haad]
    · simp [HopKeys.encryptBackwardStream]
    · simp [HopKeys.encryptBackwardStream, hbody, backwardLayers]

/-- The frame that `wrap_backward_originate` makes for a numbered cell. -/
def originFrame (keys : HopKeys) (seq : UInt32) (cell : OnionCell) : Frame :=
  keys.sealBackward P (buildNonce 2 0 seq) (cell.serialize.withSequence seq)

theorem wrapBackwardOriginate_eq (r : RelayCircuitHop) (cell : OnionCell)
    (hh : r.hopIndex < MAX_HOPS) (hc : r.nextSendSeq.toNat < 2 ^ 29) :
    ∃ seq next, r.wrapBackwardOriginate P cell.serialize =
        (.ok (originFrame P r.keys seq cell), { r with nextSendSeq := next }) ∧
      seq.toNat = r.hopIndex * 2 ^ 29 + r.nextSendSeq.toNat ∧
      next.toNat = r.nextSendSeq.toNat + 1 := by
  obtain ⟨next, hnext⟩ : ∃ next, checkedSucc r.nextSendSeq = some next :=
    ⟨_, if_pos (by omega)⟩
  obtain ⟨seq, hpack, hseq⟩ := packBackwardSeq_eq hh hc
  refine ⟨seq, next, ?_, hseq, (checkedSucc_eq_some.mp hnext).2⟩
  simp only [RelayCircuitHop.wrapBackwardOriginate, hnext, hpack, originFrame]

/-- The window accepts the counter it expects next. -/
theorem checkAndAdvance_expected (w : ReplayWindow) (seq : UInt32)
    (h : seq &&& BWD_COUNTER_MASK = w.nextExpected) :
    w.checkAndAdvance seq = (.ok (), ⟨(w.window <<< 1) ||| 1#64, w.nextExpected + 1⟩) := by
  simp only [ReplayWindow.checkAndAdvance, h, UInt32.lt_irrefl, if_false, if_true]

/-- The client strips the layers of the hops before the origin and reads the cell. -/
theorem unwrapBackward_eq (hcorrect : P.Correct) (c : OnionCircuit) (raw : Frame) (h : ℕ)
    (target : HopKeys) (w : ReplayWindow) (seq : UInt32) (cell : OnionCell)
    (hid : raw.circuitId = c.circuitId) (htarget : c.hops[h]? = some target)
    (hw : c.bwdReplayWindows[h]? = some w) (haad : raw.aad = be32 seq)
    (hbody : raw.body = backwardLayers P (buildNonce 2 0 seq) (c.hops.take h)
      (originFrame P target seq cell).body) (hlt : w.nextExpected.toNat < 2 ^ 29)
    (hseq : seq.toNat = h * 2 ^ 29 + w.nextExpected.toNat) :
    ∃ p, c.unwrapBackward P raw = (.ok (h, p), { c with
        bwdReplayWindows := c.bwdReplayWindows.set h
          ⟨(w.window <<< 1) ||| 1#64, w.nextExpected + 1⟩ }) ∧ p.SameContent cell := by
  have hraw : raw.sequenceNo = seq := by simp [Frame.sequenceNo, haad]
  have hhop : claimedHop seq = h := claimedHop_of_toNat hlt hseq
  have hcounter : seq &&& BWD_COUNTER_MASK = w.nextExpected :=
    UInt32.toNat_inj.mp (counter_of_toNat hlt hseq)
  obtain ⟨hpeeled, hpaad⟩ := foldl_encryptBackwardStream P _ _ raw _ hbody
  obtain ⟨opened, ho, hop⟩ := Frame.openWith_of_body P
    (f := cell.serialize.withSequence seq) (hcorrect _ _ _ _)
    (hpaad.trans (by simp [haad])) hpeeled
  have hplain : opened.plain = cell.plainBytes := by
    rw [hop, Frame.plain, Frame.body_withSequence]
    exact cell.plain_serialize
  obtain ⟨p, hparse, hcontent, -⟩ := OnionCell.parse_of_plain hplain
  refine ⟨p, ?_, hcontent⟩
  simp only [OnionCircuit.unwrapBackward, hid, ne_eq, not_true_eq_false, if_false, hraw, hhop,
    htarget, hw, HopKeys.openBackward, ho, Option.elim, checkAndAdvance_expected w seq hcounter,
    hparse]

lemma OnionCircuit.unwrapBackward_hops (c : OnionCircuit) (raw : Frame) :
    (c.unwrapBackward P raw).2.hops = c.hops := by
  unfold OnionCircuit.unwrapBackward
  split
  · rfl
  · dsimp only
    split
    · split
      · rfl
      · split
        · rfl
        · split <;> rfl
    · rfl

/-- The frames of one origin between its next unread counter and its next
unsent one, in order. -/
def InFlight (h : ℕ) (link : UInt32) (keys : HopKeys) : ℕ → ℕ → List (OnionCell × Frame) → Prop
  | unread, unsent, [] => unread = unsent
  | unread, unsent, (cell, raw) :: rest =>
    unread < 2 ^ 29 ∧ cell.circuitId = link ∧
      (∃ seq : UInt32, seq.toNat = h * 2 ^ 29 + unread ∧ raw = originFrame P keys seq cell) ∧
      InFlight h link keys (unread + 1) unsent rest

lemma InFlight.append {link : UInt32} {keys : HopKeys} {unread unsent : ℕ}
    {frames : List (OnionCell × Frame)} (hf : InFlight P h link keys unread unsent frames)
    (hlt : unsent < 2 ^ 29) (hlink : cell.circuitId = link) (hseq : seq.toNat = h * 2 ^ 29 + unsent) :
    InFlight P h link keys unread (unsent + 1) (frames ++ [(cell, originFrame P keys seq cell)]) := by
  induction frames generalizing unread with
  | nil =>
    have he : unread = unsent := hf
    subst he
    exact ⟨hlt, hlink, ⟨seq, hseq, rfl⟩, rfl⟩
  | cons f frames ih =>
    obtain ⟨hl, hc, hs, hrest⟩ := hf
    exact ⟨hl, hc, hs, ih hrest⟩

/-- What a run keeps: keys, links and indices stay, and each origin has exactly
the frames between its client window and its send counter in flight. -/
structure BackwardInv (id : UInt32) (links : List UInt32) (keys : List HopKeys)
    (s : BackwardState) : Prop where
  circuitId : s.circuit.circuitId = id
  hops : s.circuit.hops = keys
  windows : s.circuit.bwdReplayWindows.length = keys.length
  relays : s.relays.length = keys.length
  relay : ∀ (i : ℕ) (r : RelayCircuitHop), s.relays[i]? = some r →
    links[i]? = some r.circuitId ∧ keys[i]? = some r.keys ∧ r.hopIndex = i
  flight : ∀ (h : ℕ) (r : RelayCircuitHop) (w : ReplayWindow), s.relays[h]? = some r →
    s.circuit.bwdReplayWindows[h]? = some w →
    InFlight P h r.circuitId r.keys w.nextExpected.toNat r.nextSendSeq.toNat (s.flight h)
  idle : ∀ h, s.relays[h]? = none → s.flight h = []

section Inv
variable {id : UInt32} {links : List UInt32} {keys : List HopKeys} {s : BackwardState}

lemma BackwardInv.take_keys (hs : BackwardInv P id links keys s) (h : ℕ) :
    (s.relays.take h).map RelayCircuitHop.keys = keys.take h := by
  rw [List.map_take]
  congr 1
  apply List.ext_getElem?
  intro i
  cases hr : s.relays[i]? with
  | none =>
    have : keys.length ≤ i := by rw [← hs.relays]; exact List.getElem?_eq_none_iff.mp hr
    simp [hr, this]
  | some r => simp [hr, (hs.relay i r hr).2.1]

lemma BackwardInv.head_circuitId (hs : BackwardInv P id links keys s)
    (hfirst : links.head? = some id) {r : RelayCircuitHop} (hr : s.relays[h]? = some r) :
    ((s.relays.take h).head?.map RelayCircuitHop.circuitId).getD r.circuitId = id := by
  cases h with
  | zero =>
    have hlink := (hs.relay 0 r hr).1
    rw [← List.head?_eq_getElem?, hfirst] at hlink
    simpa using (Option.some.inj hlink).symm
  | succ h =>
    obtain ⟨first, hfst⟩ : ∃ first, s.relays[0]? = some first := by
      have : h + 1 < s.relays.length := (List.getElem?_eq_some_iff.mp hr).1
      exact ⟨_, List.getElem?_eq_getElem (by omega)⟩
    have hlink := (hs.relay 0 first hfst).1
    rw [← List.head?_eq_getElem?, hfirst] at hlink
    simp [List.head?_eq_getElem?, hfst, (Option.some.inj hlink)]

/-- Sealing a cell of origin `h` succeeds and puts it at the end of its queue. -/
theorem originate_step (hs : BackwardInv P id links keys s) (hmax : keys.length ≤ MAX_HOPS)
    {r : RelayCircuitHop} (hr : s.relays[h]? = some r)
    (hcell : links[h]? = some cell.circuitId) (hroom : r.nextSendSeq.toNat < 2 ^ 29) :
    ∃ raw next, backwardStep P s (.originate h cell) = ([.originated (.ok ())],
        { s with
          relays := s.relays.set h { r with nextSendSeq := next }
          flight := Function.update s.flight h (s.flight h ++ [(cell, raw)]) }) ∧
      next.toNat = r.nextSendSeq.toNat + 1 ∧
      BackwardInv P id links keys (backwardStep P s (.originate h cell)).2 := by
  have hlen : h < s.relays.length := (List.getElem?_eq_some_iff.mp hr).1
  obtain ⟨hlink, hkeys, hindex⟩ := hs.relay h r hr
  have hh : r.hopIndex < MAX_HOPS := by rw [hindex]; have := hs.relays; omega
  obtain ⟨seq, next, hwrap, hseq, hnext⟩ := wrapBackwardOriginate_eq P r cell hh hroom
  rw [hindex] at hseq
  have hstep : backwardStep P s (.originate h cell) = ([.originated (.ok ())],
      { s with
        relays := s.relays.set h { r with nextSendSeq := next }
        flight := Function.update s.flight h
          (s.flight h ++ [(cell, originFrame P r.keys seq cell)]) }) := by
    simp only [backwardStep, hr, hwrap]
  refine ⟨_, next, hstep, hnext, ?_⟩
  rw [hstep]
  refine ⟨hs.circuitId, hs.hops, hs.windows, by simpa using hs.relays, ?_, ?_, ?_⟩
  · intro i a ha
    rw [List.getElem?_set] at ha
    split_ifs at ha with hi
    · cases ha
      subst hi
      exact ⟨hlink, hkeys, hindex⟩
    · exact hs.relay i a ha
  · intro i a w ha hw
    rw [List.getElem?_set] at ha
    split_ifs at ha with hi
    · cases ha
      subst hi
      have hlinked : cell.circuitId = r.circuitId := by
        rw [hlink] at hcell
        exact (Option.some.inj hcell).symm
      simp only [Function.update_self, hnext]
      exact (hs.flight h r w hr hw).append P hroom hlinked hseq
    · simp only [Function.update_of_ne (Ne.symm hi)]
      exact hs.flight i a w ha hw
  · intro i hi
    have hne : i ≠ h := by
      rintro rfl
      simp [hlen] at hi
    simp only [Function.update_of_ne hne]
    exact hs.idle i (by simpa [List.getElem?_set, Ne.symm hne] using hi)

/-- Delivering the oldest frame of origin `h` succeeds at the client. -/
theorem deliver_step (hcorrect : P.Correct) (hs : BackwardInv P id links keys s)
    (hfirst : links.head? = some id) {raw : Frame}
    {rest : List (OnionCell × Frame)} (hflight : s.flight h = (cell, raw) :: rest) :
    ∃ p circuit, backwardStep P s (.deliver h) = ([.arrived h cell (some (.ok (h, p)))],
        { s with circuit := circuit, flight := Function.update s.flight h rest }) ∧
      p.SameContent cell ∧ BackwardInv P id links keys (backwardStep P s (.deliver h)).2 := by
  cases hr : s.relays[h]? with
  | none =>
    rw [hs.idle h hr] at hflight
    cases hflight
  | some r =>
    have hlen : h < keys.length := by
      rw [← hs.relays]
      exact (List.getElem?_eq_some_iff.mp hr).1
    obtain ⟨hlink, hkeys, hindex⟩ := hs.relay h r hr
    obtain ⟨w, hw⟩ : ∃ w, s.circuit.bwdReplayWindows[h]? = some w :=
      ⟨_, List.getElem?_eq_getElem (by rw [hs.windows]; exact hlen)⟩
    have hin := hs.flight h r w hr hw
    rw [hflight] at hin
    obtain ⟨hlt, hcell, ⟨seq, hseq, rfl⟩, hrest⟩ := hin
    have hraw : (originFrame P r.keys seq cell).sequenceNo = seq := by
      simp [originFrame, HopKeys.sealBackward, Frame.sequenceNo]
    have hforeign : ∀ a ∈ s.relays.take h,
        claimedHop (originFrame P r.keys seq cell).sequenceNo ≠ a.hopIndex := by
      intro a ha
      obtain ⟨i, hi, hia⟩ := List.mem_take_iff_getElem.mp ha
      have hget : s.relays[i]? = some a := by
        rw [← hia]
        exact List.getElem?_eq_getElem _
      rw [hraw, claimedHop_of_toNat hlt hseq, (hs.relay i a hget).2.2]
      omega
    obtain ⟨raw', hpath, haad, hcid, hbody⟩ := backwardPath_layers P (s.relays.take h) r.circuitId
      (originFrame P r.keys seq cell)
      (by simpa [originFrame, HopKeys.sealBackward] using hcell) hforeign
    rw [hs.head_circuitId P hfirst hr] at hcid
    rw [hraw, hs.take_keys P h] at hbody
    obtain ⟨p, hunwrap, hcontent⟩ := unwrapBackward_eq P hcorrect s.circuit raw' h r.keys w seq cell
      (hcid.trans hs.circuitId.symm) (by rw [hs.hops]; exact hkeys) hw
      (haad.trans (by simp [originFrame, HopKeys.sealBackward])) (by rw [hs.hops]; exact hbody)
      hlt hseq
    have hstep : backwardStep P s (.deliver h) = ([.arrived h cell (some (.ok (h, p)))],
        { s with
          circuit := { s.circuit with
            bwdReplayWindows := s.circuit.bwdReplayWindows.set h
              ⟨(w.window <<< 1) ||| 1#64, w.nextExpected + 1⟩ }
          flight := Function.update s.flight h rest }) := by
      simp only [backwardStep, hflight, hr, hpath, hunwrap]
    refine ⟨p, _, hstep, hcontent, ?_⟩
    rw [hstep]
    refine ⟨hs.circuitId, hs.hops, by simpa using hs.windows, hs.relays, hs.relay, ?_, ?_⟩
    · intro i a v ha hv
      rw [List.getElem?_set] at hv
      split_ifs at hv with hi hl
      · cases hv
        subst hi
        rw [hr] at ha
        cases ha
        have hadd : (w.nextExpected + 1).toNat = w.nextExpected.toNat + 1 := by
          rw [UInt32.toNat_add]
          exact Nat.mod_eq_of_lt (by
            have : (1 : UInt32).toNat = 1 := rfl
            omega)
        simp only [Function.update_self, hadd]
        exact hrest
      · simp only [Function.update_of_ne (Ne.symm hi)]
        exact hs.flight i a v ha hv
    · intro i hi
      have hne : i ≠ h := by
        rintro rfl
        rw [hr] at hi
        cases hi
      simp only [Function.update_of_ne hne]
      exact hs.idle i hi

end Inv

/-- How many cells of origin `h` a run seals. -/
def originCount (h : ℕ) (events : List BackwardEvent) : ℕ :=
  events.countP fun e => match e with
    | .originate k _ => k == h
    | .deliver _ => false

/-- The run refines the mailboxes, by induction on the events. -/
theorem backwardRun_refines (hcorrect : P.Correct) {id : UInt32} {links : List UInt32}
    {keys : List HopKeys} (hmax : keys.length ≤ MAX_HOPS) (hlinks : links.length = keys.length)
    (hfirst : links.head? = some id) (events : List BackwardEvent) (s : BackwardState)
    (q : ℕ → List OnionCell) (hs : BackwardInv P id links keys s)
    (hq : ∀ h, (s.flight h).map Prod.fst = q h)
    (hcells : ∀ h cell, .originate h cell ∈ events → links[h]? = some cell.circuitId)
    (hroom : ∀ h r, s.relays[h]? = some r → r.nextSendSeq.toNat + originCount h events ≤ 2 ^ 29) :
    List.Forall₂ Implements (mailboxRun q events) (backwardRun P s events) := by
  induction events generalizing s q with
  | nil => exact .nil
  | cons e events ih =>
    have hrest : ∀ h cell, .originate h cell ∈ events → links[h]? = some cell.circuitId :=
      fun h cell hm => hcells h cell (List.mem_cons_of_mem _ hm)
    cases e with
    | deliver h =>
      have hkeep : ∀ i r, s.relays[i]? = some r →
          r.nextSendSeq.toNat + originCount i events ≤ 2 ^ 29 := by
        intro i r hr
        simpa [originCount] using hroom i r hr
      cases hflight : s.flight h with
      | nil =>
        have hempty : q h = [] := by simp [← hq h, hflight]
        simp only [mailboxRun, mailboxStep, hempty, backwardRun, backwardStep, hflight]
        exact ih s q hs hq hrest hkeep
      | cons head rest =>
        obtain ⟨cell, raw⟩ := head
        have hhead : q h = cell :: rest.map Prod.fst := by simp [← hq h, hflight]
        obtain ⟨p, circuit, hstep, hcontent, hinv⟩ := deliver_step P hcorrect hs hfirst hflight
        simp only [mailboxRun, mailboxStep, hhead, backwardRun]
        rw [hstep] at hinv ⊢
        refine .cons ⟨rfl, rfl, p, rfl, hcontent⟩ (ih _ _ hinv ?_ hrest hkeep)
        intro i
        by_cases hi : i = h
        · subst hi
          simp
        · simp [Function.update_of_ne hi, hq i]
    | originate h cell =>
      have hlen : h < s.relays.length := by
        rw [hs.relays, ← hlinks]
        exact (List.getElem?_eq_some_iff.mp (hcells h cell (by simp))).1
      have hr : s.relays[h]? = some s.relays[h] := List.getElem?_eq_getElem hlen
      have hbound := hroom h _ hr
      simp only [originCount, List.countP_cons, beq_self_eq_true, if_true] at hbound
      obtain ⟨raw, next, hstep, hnext, hinv⟩ := originate_step P hs hmax hr
        (hcells h cell (by simp)) (by omega)
      simp only [mailboxRun, mailboxStep, backwardRun]
      rw [hstep] at hinv ⊢
      refine .cons rfl (ih _ _ hinv ?_ hrest ?_)
      · intro i
        by_cases hi : i = h
        · subst hi
          simp [hq i]
        · simp [Function.update_of_ne hi, hq i]
      · intro i a ha
        rw [List.getElem?_set] at ha
        split_ifs at ha with hi
        · cases ha
          subst hi
          simp only [originCount] at hbound ⊢
          omega
        · have := hroom i a ha
          simp only [originCount, List.countP_cons] at this ⊢
          omega

/-- For any mix of origins and any interleaving that keeps each origin's order,
every sealed cell reaches the client with its origin and content, and no relay
on the way rejects it. -/
theorem backward_delivery (hcorrect : P.Correct) (id : UInt32) (keys : List HopKeys)
    (links : List UInt32) (events : List BackwardEvent) (hmax : keys.length ≤ MAX_HOPS)
    (hlinks : links.length = keys.length) (hfirst : links.head? = some id)
    (hcells : ∀ h cell, .originate h cell ∈ events → links[h]? = some cell.circuitId)
    (hcount : ∀ h, originCount h events ≤ 2 ^ 29 - 1) :
    List.Forall₂ Implements (mailboxRun (fun _ => []) events)
      (backwardRun P ⟨OnionCircuit.build id keys, freshRelays links keys, fun _ => []⟩ events) := by
  have hbuild := OnionCircuit.build_eq id keys hmax
  have hrelay : ∀ (i : ℕ) (r : RelayCircuitHop), (freshRelays links keys)[i]? = some r →
      links[i]? = some r.circuitId ∧ keys[i]? = some r.keys ∧ r.hopIndex = i ∧
        r.nextSendSeq = 1 := by
    intro i r hr
    simp only [freshRelays, List.getElem?_mapIdx, Option.map_eq_some_iff] at hr
    obtain ⟨⟨link, key⟩, hz, rfl⟩ := hr
    obtain ⟨hl, hk⟩ := List.getElem?_zip_eq_some.mp hz
    exact ⟨hl, hk, rfl, rfl⟩
  refine backwardRun_refines P hcorrect hmax hlinks hfirst events _ _ ?_ (fun _ => rfl) hcells ?_
  · rw [hbuild]
    refine ⟨rfl, rfl, by simp, by simp [freshRelays, hlinks], ?_, ?_, fun _ _ => rfl⟩
    · intro i r hr
      obtain ⟨hl, hk, hi, _⟩ := hrelay i r hr
      exact ⟨hl, hk, hi⟩
    · intro h r w hr hw
      have hnew : w = ReplayWindow.new :=
        List.eq_of_mem_replicate (List.mem_of_getElem? hw)
      rw [hnew, (hrelay h r hr).2.2.2]
      rfl
  · intro h r hr
    have := hcount h
    rw [(hrelay h r hr).2.2.2]
    have : (1 : UInt32).toNat = 1 := rfl
    omega

end Backward

/-- An AEAD that keeps the buffer and appends a zero tag. -/
def identityPrimitives : Primitives where
  encrypt _ _ _ plain := (plain, List.replicate 16 0)
  decrypt _ _ _ cipher tag := if tag = List.replicate 16 0 then some cipher else none
  keystream _ _ i := UInt8.ofNat i
  length_encrypt := (tablePrimitives []).length_encrypt
  length_tag := (tablePrimitives []).length_tag
  length_decrypt := by
    intro key nonce aad cipher tag plain h
    split_ifs at h
    cases h
    rfl

lemma identityPrimitives_correct : identityPrimitives.Correct := by
  intro key nonce aad plain
  simp [identityPrimitives]

/-- Two origins whose cells overtake each other: the second hop seals first and
is read last. -/
theorem backward_delivery_two_origins :
    List.Forall₂ Implements
      (mailboxRun (fun _ => []) [.originate 1 (sampleCell 12 .data 9),
        .originate 0 (sampleCell 7 .extended 4), .deliver 0, .deliver 1])
      (backwardRun identityPrimitives
        ⟨OnionCircuit.build 7 sampleKeys, freshRelays [7, 12] sampleKeys, fun _ => []⟩
        [.originate 1 (sampleCell 12 .data 9),
          .originate 0 (sampleCell 7 .extended 4), .deliver 0, .deliver 1]) := by
  refine backward_delivery identityPrimitives identityPrimitives_correct 7 sampleKeys [7, 12] _
    (by decide) rfl rfl ?_ ?_
  · intro h cell hm
    simp only [List.mem_cons, BackwardEvent.originate.injEq, reduceCtorEq, List.not_mem_nil,
      or_false] at hm
    rcases hm with ⟨rfl, rfl⟩ | ⟨rfl, rfl⟩ <;> rfl
  · intro h
    refine le_trans List.countP_le_length ?_
    decide

end AnonGuard
