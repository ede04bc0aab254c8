import AnonGuard.OnionBackward
import AnonGuard.Transition

/-!
# Nonces of a circuit

The client numbers what it seals, and so does every relay, in the part of the sequence
space that belongs to its hop. Direction and sequence number make up the nonce. So in
any history of a circuit no nonce is used twice, under any key: the counters only grow,
and stop at the end of their space.
-/
namespace AnonGuard

variable {h : ℕ}

section Spaces

lemma be32_inj {a b : UInt32} (h : be32 a = be32 b) : a = b := by
  rw [← u32OfBe_be32 a, h, u32OfBe_be32]

lemma buildNonce_inj {d d' : UInt8} {a b : UInt32} (h : buildNonce d 0 a = buildNonce d' 0 b) :
    d = d' ∧ a = b := by
  unfold buildNonce at h
  obtain ⟨hhead, htail⟩ := List.append_inj' h (by simp)
  obtain ⟨hdirection, -⟩ := List.append_inj' hhead (by simp)
  exact ⟨(List.cons.inj hdirection).1, be32_inj htail⟩

/-- A sequence number tells the hop and the counter. -/
lemma packBackwardSeq_eq_ok {counter seq : UInt32} (hseq : packBackwardSeq h counter = .ok seq) :
    h < MAX_HOPS ∧ counter.toNat < 2 ^ 29 ∧ seq.toNat = h * 2 ^ 29 + counter.toNat := by
  have hcase := hseq
  unfold packBackwardSeq at hcase
  split_ifs at hcase with hhop hcounter
  have hlt : counter.toNat < 2 ^ 29 := by
    rw [gt_iff_lt, UInt32.lt_iff_toNat_lt, toNat_mask] at hcounter
    omega
  obtain ⟨seq', hpack, hvalue⟩ := packBackwardSeq_eq (Nat.lt_of_not_le hhop) hlt
  rw [hseq, Except.ok.injEq] at hpack
  exact ⟨Nat.lt_of_not_le hhop, hlt, hpack ▸ hvalue⟩

lemma claimedHop_packBackwardSeq {counter seq : UInt32}
    (hseq : packBackwardSeq h counter = .ok seq) : claimedHop seq = h := by
  obtain ⟨-, hlt, hvalue⟩ := packBackwardSeq_eq_ok hseq
  exact claimedHop_of_toNat hlt hvalue

lemma packBackwardSeq_inj {h h' : ℕ} {counter counter' seq : UInt32}
    (hseq : packBackwardSeq h counter = .ok seq) (hseq' : packBackwardSeq h' counter' = .ok seq) :
    h = h' ∧ counter = counter' := by
  have hhop : h = h' := (claimedHop_packBackwardSeq hseq).symm.trans (claimedHop_packBackwardSeq hseq')
  obtain ⟨-, -, hvalue⟩ := packBackwardSeq_eq_ok hseq
  obtain ⟨-, -, hvalue'⟩ := packBackwardSeq_eq_ok hseq'
  refine ⟨hhop, UInt32.toNat_inj.mp ?_⟩
  rw [hvalue, hhop] at hvalue'
  omega

end Spaces

/-- A client's circuit and the relays at its hops, with everything that they have sealed. -/
structure CircuitHistory where
  circuit : OnionCircuit
  relays : List RelayCircuitHop
  seals : List SealRecord

inductive CircuitInput
  | addHop (keys : HopKeys)
  | join (link : UInt32) (keys : HopKeys)
  | wrapForward (cell : OnionCell)
  | unwrapBackward (raw : Frame)
  | peelForward (hop : ℕ) (raw : Frame)
  | wrapBackwardRelay (hop : ℕ) (raw : Frame)
  | wrapBackwardOriginate (hop : ℕ) (raw : Frame)

section History
variable (P : Primitives)

/-- The sealing call that `wrap_backward_originate` makes. -/
def originSeal (r : RelayCircuitHop) (raw : Frame) : List SealRecord :=
  match packBackwardSeq r.hopIndex r.nextSendSeq with
  | .error _ => []
  | .ok seq =>
    let nonce := buildNonce 2 0 seq
    let raw := raw.withSequence seq
    let out := P.encrypt r.keys.backwardAeadKey nonce raw.aad raw.plain
    [⟨r.keys.backwardAeadKey, nonce, raw.aad, raw.plain, out.1, out.2⟩]

namespace CircuitHistory

def new (id : UInt32) : CircuitHistory := ⟨.new id, [], []⟩

/-- What a call has sealed, if it has not failed. -/
def sealed {α : Type*} (result : Except CircuitError α) (seals : List SealRecord) :
    List SealRecord :=
  match result with
  | .ok _ => seals
  | .error _ => []

def step (s : CircuitHistory) : CircuitInput → Option CircuitHistory
  | .addHop keys => some { s with circuit := (s.circuit.addHop keys).2 }
  | .join link keys =>
    some { s with relays := s.relays ++ [.new link keys s.relays.length] }
  | .wrapForward cell =>
    let out := s.circuit.wrapForward P cell
    some { s with circuit := out.2, seals := sealed out.1 (forwardSeal P s.circuit cell) ++ s.seals }
  | .unwrapBackward raw => some { s with circuit := (s.circuit.unwrapBackward P raw).2 }
  | .peelForward hop raw => s.relays[hop]?.map fun r =>
    { s with relays := s.relays.set hop (r.peelForward P raw).2.2 }
  | .wrapBackwardRelay hop _ => s.relays[hop]?.map fun _ => s
  | .wrapBackwardOriginate hop raw => s.relays[hop]?.map fun r =>
    let out := r.wrapBackwardOriginate P raw
    { s with
      relays := s.relays.set hop out.2
      seals := sealed out.1 (originSeal P r raw) ++ s.seals }

end CircuitHistory

end History

section Calls
variable {P : Primitives}

lemma wrapForward_counter (c : OnionCircuit) (cell : OnionCell) :
    (∃ e, (c.wrapForward P cell).1 = .error e ∧ (c.wrapForward P cell).2 = c) ∨
      ∃ raw next, c.wrapForward P cell = (.ok raw, { c with sequenceNo := next }) ∧
        next.toNat = c.sequenceNo.toNat + 1 := by
  unfold OnionCircuit.wrapForward
  split_ifs
  · exact .inl ⟨_, rfl, rfl⟩
  · exact .inl ⟨_, rfl, rfl⟩
  · cases hnext : checkedSucc c.sequenceNo with
    | none => exact .inl ⟨_, rfl, rfl⟩
    | some next => exact .inr ⟨_, next, rfl, (checkedSucc_eq_some.mp hnext).2⟩

lemma forwardSeal_cases (c : OnionCircuit) (cell : OnionCell) :
    forwardSeal P c cell = [] ∨
      ∃ record, forwardSeal P c cell = [record] ∧ record.nonce = buildNonce 1 0 c.sequenceNo := by
  unfold forwardSeal
  cases c.hops.getLast? with
  | none => exact .inl rfl
  | some => exact .inr ⟨_, rfl, rfl⟩

lemma unwrapBackward_counter (c : OnionCircuit) (raw : Frame) :
    (c.unwrapBackward P raw).2.sequenceNo = c.sequenceNo := by
  unfold OnionCircuit.unwrapBackward
  split_ifs
  · rfl
  · dsimp only
    split
    · split
      · rfl
      · split
        · rfl
        · split <;> rfl
    · rfl

lemma addHop_counter (c : OnionCircuit) (keys : HopKeys) :
    (c.addHop keys).2.sequenceNo = c.sequenceNo := by
  unfold OnionCircuit.addHop
  split_ifs <;> rfl

/-- A call on an opened frame fails without effect, or accepts a number from the expected one
on and expects the one after it. -/
lemma acceptForward_cases (r : RelayCircuitHop) (seq : UInt32) (raw : Frame) :
    (∃ e, r.acceptForward seq raw = (.error e, r)) ∨
      ∃ command len next, r.acceptForward seq raw =
          (.ok (.addressedToThisRelay command len), { r with expectedRecvSeq := next }) ∧
        r.expectedRecvSeq.toNat ≤ seq.toNat ∧
        seq.toNat ≤ r.expectedRecvSeq.toNat + MAX_SEQ_GAP ∧ next.toNat = seq.toNat + 1 := by
  unfold RelayCircuitHop.acceptForward
  split_ifs with hstale hgap
  · exact .inl ⟨_, rfl⟩
  · exact .inl ⟨_, rfl⟩
  · cases hnext : checkedSucc seq with
    | none => exact .inl ⟨_, rfl⟩
    | some next =>
      dsimp only
      split
      · exact .inl ⟨_, rfl⟩
      · rename_i command hcommand
        split_ifs with hlength
        · exact .inl ⟨_, rfl⟩
        · rw [UInt32.lt_iff_toNat_lt] at hstale
          exact .inr ⟨command, _, next, rfl, by omega, by omega, (checkedSucc_eq_some.mp hnext).2⟩

/-- What `peel_forward` does to its hop: nothing, unless it reports a frame for this relay. -/
lemma peelForward_cases (r : RelayCircuitHop) (raw : Frame) :
    ((∃ e, (r.peelForward P raw).1 = .error e) ∨
        (r.peelForward P raw).1 = .ok .forwardDownstream) ∧ (r.peelForward P raw).2.2 = r ∨
      ∃ command len next, (r.peelForward P raw).1 = .ok (.addressedToThisRelay command len) ∧
        (r.peelForward P raw).2.2 = { r with expectedRecvSeq := next } ∧
        r.expectedRecvSeq.toNat ≤ raw.sequenceNo.toNat ∧
        raw.sequenceNo.toNat ≤ r.expectedRecvSeq.toNat + MAX_SEQ_GAP ∧
        next.toNat = raw.sequenceNo.toNat + 1 := by
  unfold RelayCircuitHop.peelForward
  split_ifs
  · exact .inl ⟨.inl ⟨_, rfl⟩, rfl⟩
  · dsimp only
    split
    · rename_i opened hopen
      rcases acceptForward_cases r raw.sequenceNo opened with
        ⟨e, herror⟩ | ⟨command, len, next, haccept, hrest⟩
      · rw [herror]
        exact .inl ⟨.inl ⟨e, rfl⟩, rfl⟩
      · rw [haccept]
        exact .inr ⟨command, len, next, rfl, rfl, hrest⟩
    · exact .inl ⟨.inr rfl, rfl⟩

lemma peelForward_counters (r : RelayCircuitHop) (raw : Frame) :
    (r.peelForward P raw).2.2.hopIndex = r.hopIndex ∧
      (r.peelForward P raw).2.2.nextSendSeq = r.nextSendSeq := by
  rcases peelForward_cases (P := P) r raw with ⟨-, hsame⟩ | ⟨command, len, next, -, hstate, -⟩
  · rw [hsame]
    exact ⟨rfl, rfl⟩
  · rw [hstate]
    exact ⟨rfl, rfl⟩

/-- Originating fails with the counter used up, or takes the next number of the hop. -/
lemma wrapBackwardOriginate_cases (r : RelayCircuitHop) (raw : Frame) :
    (r.wrapBackwardOriginate P raw = (.error .sequenceExhausted, r)) ∨
      ∃ next, next.toNat = r.nextSendSeq.toNat + 1 ∧
        (r.wrapBackwardOriginate P raw).2 = { r with nextSendSeq := next } ∧
        ((∃ e, (r.wrapBackwardOriginate P raw).1 = .error e) ∨
          ∃ seq, packBackwardSeq r.hopIndex r.nextSendSeq = .ok seq) := by
  unfold RelayCircuitHop.wrapBackwardOriginate
  dsimp only
  cases hnext : checkedSucc r.nextSendSeq with
  | none => exact .inl rfl
  | some next =>
    refine .inr ⟨next, (checkedSucc_eq_some.mp hnext).2, ?_⟩
    dsimp only
    cases hpack : packBackwardSeq r.hopIndex r.nextSendSeq with
    | error e => exact ⟨rfl, .inl ⟨e, rfl⟩⟩
    | ok seq => exact ⟨rfl, .inr ⟨seq, rfl⟩⟩

end Calls

namespace CircuitHistory
variable {P : Primitives} {s s' s'' : CircuitHistory} {i : CircuitInput} {r : RelayCircuitHop}

/-- Every relay is at its own hop. -/
def Placed (s : CircuitHistory) : Prop :=
  ∀ (h : ℕ) (r : RelayCircuitHop), s.relays[h]? = some r → r.hopIndex = h

/-- A nonce of a number that a counter has passed. -/
def Used (s : CircuitHistory) (nonce : Bytes) : Prop :=
  (∃ seq : UInt32, nonce = buildNonce 1 0 seq ∧ seq.toNat < s.circuit.sequenceNo.toNat) ∨
    ∃ (h : ℕ) (r : RelayCircuitHop) (counter seq : UInt32), s.relays[h]? = some r ∧
      packBackwardSeq h counter = .ok seq ∧ counter.toNat < r.nextSendSeq.toNat ∧
      nonce = buildNonce 2 0 seq

/-- No counter goes back. -/
structure Grows (s s' : CircuitHistory) : Prop where
  forward : s.circuit.sequenceNo.toNat ≤ s'.circuit.sequenceNo.toNat
  backward : ∀ (h : ℕ) (r : RelayCircuitHop), s.relays[h]? = some r →
    ∃ r', s'.relays[h]? = some r' ∧ r.nextSendSeq.toNat ≤ r'.nextSendSeq.toNat

lemma Grows.refl (s : CircuitHistory) : s.Grows s :=
  ⟨le_refl _, fun _ r hr => ⟨r, hr, le_refl _⟩⟩

lemma Grows.trans (h : s.Grows s') (h' : s'.Grows s'') : s.Grows s'' := by
  refine ⟨h.forward.trans h'.forward, fun hop r hr => ?_⟩
  obtain ⟨r', hr', hle⟩ := h.backward hop r hr
  obtain ⟨r'', hr'', hle'⟩ := h'.backward hop r' hr'
  exact ⟨r'', hr'', hle.trans hle'⟩

lemma Used.mono {nonce : Bytes} (h : s.Used nonce) (hgrows : s.Grows s') : s'.Used nonce := by
  rcases h with ⟨seq, hnonce, hlt⟩ | ⟨hop, r, counter, seq, hr, hpack, hlt, hnonce⟩
  · exact .inl ⟨seq, hnonce, hlt.trans_le hgrows.forward⟩
  · obtain ⟨r', hr', hle⟩ := hgrows.backward hop r hr
    exact .inr ⟨hop, r', counter, seq, hr', hpack, hlt.trans_le hle, hnonce⟩

/-- The number that the client takes next has not been used. -/
lemma not_used_forward : ¬ s.Used (buildNonce 1 0 s.circuit.sequenceNo) := by
  rintro (⟨seq, hnonce, hlt⟩ | ⟨hop, r, counter, seq, -, -, -, hnonce⟩)
  · rw [(buildNonce_inj hnonce).2] at hlt
    exact absurd hlt (Nat.lt_irrefl _)
  · exact absurd (buildNonce_inj hnonce).1 (by decide)

lemma not_used_backward {seq : UInt32} (hr : s.relays[h]? = some r)
    (hpack : packBackwardSeq h r.nextSendSeq = .ok seq) : ¬ s.Used (buildNonce 2 0 seq) := by
  rintro (⟨seq', hnonce, -⟩ | ⟨hop, r', counter, seq', hr', hpack', hlt, hnonce⟩)
  · exact absurd (buildNonce_inj hnonce).1 (by decide)
  · rw [← (buildNonce_inj hnonce).2] at hpack'
    obtain ⟨rfl, rfl⟩ := packBackwardSeq_inj hpack hpack'
    rw [hr, Option.some.injEq] at hr'
    rw [hr'] at hlt
    exact absurd hlt (Nat.lt_irrefl _)

/-- What a step does: counters grow, and it seals at most once, under a new nonce. -/
structure Fresh (s s' : CircuitHistory) : Prop where
  grows : s.Grows s'
  placed : s'.Placed
  seals : s'.seals = s.seals ∨
    ∃ record, s'.seals = record :: s.seals ∧ ¬ s.Used record.nonce ∧ s'.Used record.nonce

/-- A step on one relay that keeps its place. -/
lemma setRelay (hplaced : s.Placed) {r r' : RelayCircuitHop} (hr : s.relays[h]? = some r)
    (hindex : r'.hopIndex = r.hopIndex) (hle : r.nextSendSeq.toNat ≤ r'.nextSendSeq.toNat)
    (seals : List SealRecord) :
    s.Grows { s with relays := s.relays.set h r', seals := seals } ∧
      Placed { s with relays := s.relays.set h r', seals := seals } := by
  have hlt : h < s.relays.length := (List.getElem?_eq_some_iff.mp hr).1
  refine ⟨⟨le_refl _, fun hop a ha => ?_⟩, fun hop a ha => ?_⟩
  · by_cases hhop : h = hop
    · subst hhop
      rw [hr, Option.some.injEq] at ha
      subst ha
      exact ⟨r', by simp [hlt], hle⟩
    · exact ⟨a, by simp [hhop, ha], le_refl _⟩
  · by_cases hhop : h = hop
    · subst hhop
      have hset : (s.relays.set h r')[h]? = some r' := by simp [hlt]
      rw [hset, Option.some.injEq] at ha
      rw [← ha, hindex, hplaced h r hr]
    · refine hplaced hop a ?_
      simpa [hhop] using ha

lemma fresh_of_step (hplaced : s.Placed) (h : step P s i = some s') : s.Fresh s' := by
  cases i with
  | addHop keys =>
    cases h
    exact ⟨⟨(addHop_counter s.circuit keys ▸ le_refl _), (Grows.refl s).backward⟩, hplaced, .inl rfl⟩
  | join =>
    cases h
    refine ⟨⟨le_refl _, fun hop r hr => ⟨r, ?_, le_refl _⟩⟩, fun hop r hr => ?_, .inl rfl⟩
    · rw [List.getElem?_append_left (List.getElem?_eq_some_iff.mp hr).1, hr]
    · rw [List.getElem?_append] at hr
      split_ifs at hr with hlt
      · exact hplaced hop r hr
      · rw [List.getElem?_singleton] at hr
        split_ifs at hr with hzero
        cases hr
        exact (Nat.le_antisymm (Nat.sub_eq_zero_iff_le.mp hzero) (Nat.le_of_not_lt hlt)).symm
  | wrapForward cell =>
    cases h
    rcases wrapForward_counter (P := P) s.circuit cell with ⟨e, hresult, hstate⟩ | ⟨raw, next, hwrap, hnext⟩
    · rw [hresult, hstate]
      exact ⟨Grows.refl s, hplaced, .inl rfl⟩
    · rw [hwrap]
      have hgrows : s.Grows { s with circuit := { s.circuit with sequenceNo := next } } :=
        ⟨by dsimp only; omega, (Grows.refl s).backward⟩
      refine ⟨⟨hgrows.forward, hgrows.backward⟩, hplaced, ?_⟩
      rcases forwardSeal_cases (P := P) s.circuit cell with hseal | ⟨record, hseal, hnonce⟩
      · exact .inl (by rw [hseal]; rfl)
      · refine .inr ⟨record, by rw [hseal]; rfl, hnonce ▸ not_used_forward, .inl ⟨_, hnonce, ?_⟩⟩
        dsimp only
        omega
  | unwrapBackward raw =>
    cases h
    exact ⟨⟨(unwrapBackward_counter (P := P) s.circuit raw ▸ le_refl _), (Grows.refl s).backward⟩,
      hplaced, .inl rfl⟩
  | peelForward hop raw =>
    obtain ⟨r, hr, rfl⟩ := Option.map_eq_some_iff.mp h
    obtain ⟨hindex, hnext⟩ := peelForward_counters (P := P) r raw
    obtain ⟨hgrows, hplaced'⟩ := setRelay hplaced hr hindex (hnext ▸ le_refl _) s.seals
    exact ⟨hgrows, hplaced', .inl rfl⟩
  | wrapBackwardRelay =>
    obtain ⟨r, hr, rfl⟩ := Option.map_eq_some_iff.mp h
    exact ⟨Grows.refl s, hplaced, .inl rfl⟩
  | wrapBackwardOriginate hop raw =>
    obtain ⟨r, hr, rfl⟩ := Option.map_eq_some_iff.mp h
    rcases wrapBackwardOriginate_cases (P := P) r raw with hfull | ⟨next, hnext, hstate, hresult⟩
    · rw [hfull]
      obtain ⟨hgrows, hplaced'⟩ := setRelay hplaced hr rfl (le_refl _) s.seals
      exact ⟨hgrows, hplaced', .inl rfl⟩
    · dsimp only
      rw [hstate]
      let r' : RelayCircuitHop := { r with nextSendSeq := next }
      have hle : r.nextSendSeq.toNat ≤ r'.nextSendSeq.toNat := by
        dsimp only [r']
        omega
      obtain ⟨hgrows, hplaced'⟩ := setRelay hplaced hr (show r'.hopIndex = r.hopIndex from rfl) hle
        (sealed (r.wrapBackwardOriginate P raw).1 (originSeal P r raw) ++ s.seals)
      refine ⟨hgrows, hplaced', ?_⟩
      cases hout : (r.wrapBackwardOriginate P raw).1 with
      | error => exact .inl rfl
      | ok =>
        obtain ⟨e, he⟩ | ⟨seq, hpack⟩ := hresult
        · rw [hout] at he
          cases he
        · have hlt : hop < s.relays.length := (List.getElem?_eq_some_iff.mp hr).1
          have hplace := hplaced hop r hr
          refine .inr ⟨⟨r.keys.backwardAeadKey, buildNonce 2 0 seq, _, _, _, _⟩,
            by simp only [sealed, originSeal, hpack]; rfl, ?_, .inr ⟨hop, _, r.nextSendSeq, seq,
              List.getElem?_set_self hlt, hplace ▸ hpack, ?_, rfl⟩⟩
          · exact not_used_backward hr (hplace ▸ hpack)
          · dsimp only
            omega

/-- What every history keeps. -/
structure Sound (s : CircuitHistory) : Prop where
  placed : s.Placed
  used : ∀ record ∈ s.seals, s.Used record.nonce
  distinct : s.seals.Pairwise fun a b => a.nonce ≠ b.nonce

lemma sound_new (id : UInt32) : (new id).Sound :=
  ⟨fun _ _ h => (by cases h), fun _ h => (by cases h), .nil⟩

lemma Sound.step (hs : s.Sound) (h : s.Fresh s') : s'.Sound := by
  rcases h.seals with hseals | ⟨record, hseals, hfresh, hused⟩
  · refine ⟨h.placed, fun a ha => ?_, hseals ▸ hs.distinct⟩
    rw [hseals] at ha
    exact (hs.used a ha).mono h.grows
  · refine ⟨h.placed, fun a ha => ?_, ?_⟩
    · rw [hseals] at ha
      rcases List.mem_cons.mp ha with rfl | ha
      · exact hused
      · exact (hs.used a ha).mono h.grows
    · rw [hseals]
      refine List.pairwise_cons.mpr ⟨fun a ha heq => hfresh ?_, hs.distinct⟩
      exact heq ▸ hs.used a ha

lemma sound_of_run {id : UInt32} (h : Run (step P) (new id) s) : s.Sound :=
  h.invariant (sound_new id) fun _ _ _ hs _ hstep => hs.step (fresh_of_step hs.placed hstep)

lemma grows_of_run (hs : s.Sound) (h : Run (step P) s s') : s'.Sound ∧ s.Grows s' :=
  h.invariant (I := fun t => t.Sound ∧ s.Grows t) ⟨hs, Grows.refl s⟩ fun _ _ _ hi _ hstep =>
    have hfresh := fresh_of_step hi.1.placed hstep
    ⟨hi.1.step hfresh, hi.2.trans hfresh.grows⟩

/-- A client that has come to the last number stays there and refuses. -/
lemma wrapForward_exhausted (hgrows : s.Grows s') (hlast : s.circuit.sequenceNo.toNat = 2 ^ 32 - 1)
    (cell : OnionCell) :
    s'.circuit.wrapForward P cell = (.error .sequenceExhausted, s'.circuit) := by
  have hle := hgrows.forward
  have hlt : s'.circuit.sequenceNo.toNat < 2 ^ 32 := s'.circuit.sequenceNo.toNat_lt
  unfold OnionCircuit.wrapForward
  exact if_pos (by omega)

lemma wrapBackwardOriginate_exhausted (hhop : r.hopIndex < MAX_HOPS)
    (hlast : BWD_COUNTER_MASK.toNat < r.nextSendSeq.toNat) (raw : Frame) :
    (r.wrapBackwardOriginate P raw).1 = .error .sequenceExhausted := by
  have hpack : packBackwardSeq r.hopIndex r.nextSendSeq = .error .sequenceExhausted := by
    unfold packBackwardSeq
    rw [if_neg (Nat.not_le.mpr hhop), if_pos (UInt32.lt_iff_toNat_lt.mpr hlast)]
  unfold RelayCircuitHop.wrapBackwardOriginate
  dsimp only
  cases checkedSucc r.nextSendSeq with
  | none => rfl
  | some =>
    dsimp only
    rw [hpack]

lemma wrapBackwardRelay_foreign {raw out : Frame}
    (h : r.wrapBackwardRelay P raw = .ok out) (counter : UInt32) :
    packBackwardSeq r.hopIndex counter ≠ .ok raw.sequenceNo := by
  intro hpack
  unfold RelayCircuitHop.wrapBackwardRelay at h
  rw [if_pos (claimedHop_packBackwardSeq hpack)] at h
  cases h

end CircuitHistory

end AnonGuard
