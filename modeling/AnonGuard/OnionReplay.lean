import AnonGuard.OnionNonces
import AnonGuard.SlidingWindow

/-!
# Replays and failed calls on a circuit

The client keeps one replay window per hop: a word of 64 bits that stands for the set of all
counters accepted so far. A relay keeps only the next sequence number, so what it accepts grows
strictly. A call that fails should leave these counters alone. It does, except that opening a
malformed cell uses up its number, and that a relay at the end of its number space goes on
counting.
-/
namespace AnonGuard

namespace ReplayWindow

/-- The part of a sequence number that the window looks at. -/
def counter (seq : UInt32) : ℕ := (seq &&& BWD_COUNTER_MASK).toNat

/-- A window and the counters that it has accepted. -/
structure History where
  window : ReplayWindow
  accepted : Finset ℕ

def History.new : History := ⟨.new, ∅⟩

def History.call (h : History) (seq : UInt32) : History :=
  match h.window.checkAndAdvance seq with
  | (.ok (), window) => ⟨window, insert (counter seq) h.accepted⟩
  | (.error _, window) => { h with window := window }

/-- The calls on a fresh window. -/
def History.calls (seqs : List UInt32) : History := seqs.foldl History.call .new

lemma counter_lt (seq : UInt32) : counter seq < 2 ^ 29 := by
  have hle := Nat.and_le_right (n := seq.toNat) (m := BWD_COUNTER_MASK.toNat)
  rw [counter, UInt32.toNat_and]
  rw [toNat_mask] at hle ⊢
  omega

/-- The set of accepted counters that a history stands for. -/
def History.toSet (h : History) : SetWindow := ⟨h.accepted, h.window.nextExpected.toNat⟩

/-- The word represents the accepted counters. -/
structure History.Valid (h : History) : Prop where
  bits : SetWindow.Represents h.window.window h.toSet
  ahead : h.toSet.Ahead
  bound : h.window.nextExpected.toNat ≤ 2 ^ 29

lemma History.valid_new : History.new.Valid where
  bits := SetWindow.Represents.empty 64 1
  ahead := by
    intro a ha
    cases ha
  bound := by decide

/-- What one call does, in terms of the set of accepted counters. -/
lemma History.Valid.checkAndAdvance {h : History} (hv : h.Valid) (seq : UInt32) :
    (∃ window, h.window.checkAndAdvance seq = (.ok (), window) ∧
      h.toSet.Accepts 64 MAX_SEQ_GAP (counter seq) ∧
      window.nextExpected.toNat = (h.toSet.accept (counter seq)).next ∧
      SetWindow.Represents window.window (h.toSet.accept (counter seq))) ∨
    (∃ e, h.window.checkAndAdvance seq = (.error e, h.window) ∧
      ¬ h.toSet.Accepts 64 MAX_SEQ_GAP (counter seq)) := by
  have hnext : h.toSet.next = h.window.nextExpected.toNat := rfl
  have hcount : (seq &&& BWD_COUNTER_MASK).toNat = counter seq := rfl
  unfold ReplayWindow.checkAndAdvance
  by_cases hlt : seq &&& BWD_COUNTER_MASK < h.window.nextExpected
  · have hbehind : counter seq < h.toSet.next := UInt32.lt_iff_toNat_lt.mp hlt
    have hdiff : (h.window.nextExpected - (seq &&& BWD_COUNTER_MASK)).toNat =
        h.toSet.next - counter seq := UInt32.toNat_sub_of_le _ _ (UInt32.le_of_lt hlt)
    simp only [if_pos hlt, hdiff]
    by_cases hseen : h.toSet.next - counter seq > 64 ∨
        h.window.window &&& (1#64 <<< (h.toSet.next - counter seq - 1)) ≠ 0
    · refine .inr ⟨_, if_pos hseen, ?_⟩
      rintro ⟨hnew, hnear, -⟩
      rcases hseen with hfar | hbit
      · omega
      · rw [SetWindow.and_mask_ne_zero_iff _ (by omega), hv.bits.getLsbD_iff hbehind hnear] at hbit
        exact hnew hbit
    · obtain ⟨hnear, hbit⟩ := not_or.mp hseen
      rw [SetWindow.and_mask_ne_zero_iff _ (by omega),
        hv.bits.getLsbD_iff hbehind (by omega)] at hbit
      refine .inl ⟨_, if_neg hseen, ⟨hbit, by omega, by omega⟩, ?_, hv.bits.accept_behind hbehind⟩
      exact (max_eq_left hbehind).symm
  · have hahead : h.toSet.next ≤ counter seq := by
      rw [UInt32.lt_iff_toNat_lt] at hlt
      exact Nat.not_lt.mp hlt
    have hnew : counter seq ∉ h.toSet.accepted :=
      fun hmem => absurd (hv.ahead _ hmem) (Nat.not_lt.mpr hahead)
    have hsucc : ((seq &&& BWD_COUNTER_MASK) + 1).toNat = (h.toSet.accept (counter seq)).next := by
      have hroom := counter_lt seq
      rw [UInt32.toNat_add, hcount, SetWindow.accept, max_eq_right (by omega)]
      exact Nat.mod_eq_of_lt (by
        have : (1 : UInt32).toNat = 1 := rfl
        omega)
    have hshift := hv.bits.accept_ahead hv.ahead hahead
    by_cases heq : seq &&& BWD_COUNTER_MASK = h.window.nextExpected
    · have hsame : counter seq = h.toSet.next := congrArg UInt32.toNat heq
      simp only [if_neg hlt, if_pos heq]
      have hone : counter seq - h.toSet.next + 1 = 1 := by omega
      rw [hone] at hshift
      exact .inl ⟨_, rfl, ⟨hnew, by omega, by omega⟩, hsucc, hshift⟩
    · have hdiff : ((seq &&& BWD_COUNTER_MASK) - h.window.nextExpected).toNat =
          counter seq - h.toSet.next := UInt32.toNat_sub_of_le _ _ (UInt32.not_lt.mp hlt)
      simp only [if_neg hlt, if_neg heq, hdiff]
      by_cases hgap : counter seq - h.toSet.next > MAX_SEQ_GAP
      · refine .inr ⟨_, if_pos hgap, ?_⟩
        rintro ⟨-, -, hle⟩
        omega
      · have haccepts : h.toSet.Accepts 64 MAX_SEQ_GAP (counter seq) :=
          ⟨hnew, by omega, by omega⟩
        rw [if_neg hgap]
        by_cases hfar : counter seq - h.toSet.next ≥ 63
        · -- everything that the word held is shifted out
          have hzero : h.window.window <<< (counter seq - h.toSet.next + 1) = 0#64 :=
            BitVec.shiftLeft_eq_zero (by omega)
          rw [hzero, BitVec.zero_or] at hshift
          exact .inl ⟨_, if_pos hfar, haccepts, hsucc, hshift⟩
        · exact .inl ⟨_, if_neg hfar, haccepts, hsucc, hshift⟩

/-- A call keeps the representation. -/
lemma History.Valid.call {h : History} (hv : h.Valid) (seq : UInt32) : (h.call seq).Valid := by
  rcases hv.checkAndAdvance seq with ⟨window, hok, -, hnext, hbits⟩ | ⟨e, herror, -⟩
  · have hcall : h.call seq = ⟨window, insert (counter seq) h.accepted⟩ := by
      simp only [History.call, hok]
    have hset : (h.call seq).toSet = h.toSet.accept (counter seq) := by
      rw [hcall, History.toSet, hnext]
      rfl
    refine ⟨?_, ?_, ?_⟩
    · rw [hset, hcall]
      exact hbits
    · rw [hset]
      exact hv.ahead.accept _
    · rw [hcall, hnext]
      exact max_le hv.bound (counter_lt seq)
  · have hcall : h.call seq = h := by simp only [History.call, herror]
    rw [hcall]
    exact hv

lemma History.valid_calls (seqs : List UInt32) : (History.calls seqs).Valid := by
  suffices hfold : ∀ h : History, h.Valid → (seqs.foldl History.call h).Valid from
    hfold _ History.valid_new
  induction seqs with
  | nil => exact fun h hv => hv
  | cons seq seqs ih => exact fun h hv => ih (h.call seq) (hv.call seq)

/-- After any calls on a fresh window, a counter is accepted exactly when it was not accepted
before, is at most 64 behind the next expected one and at most 1000 ahead of it. Each bit of
the word tells whether its counter was accepted. -/
theorem checkAndAdvance_accepts_iff (seqs : List UInt32) (seq : UInt32) :
    ((((History.calls seqs).window.checkAndAdvance seq).1 = .ok ()) ↔
      counter seq ∉ (History.calls seqs).accepted ∧
      ((History.calls seqs).window.nextExpected.toNat : ℤ) - 64 ≤ counter seq ∧
      (counter seq : ℤ) - (History.calls seqs).window.nextExpected.toNat ≤ 1000) ∧
    ∀ i < 64, (History.calls seqs).window.window.getLsbD i = true ↔
      ∃ a ∈ (History.calls seqs).accepted,
        (a : ℤ) = (History.calls seqs).window.nextExpected.toNat - 1 - i := by
  have hv := History.valid_calls seqs
  have haccepts : (History.calls seqs).toSet.Accepts 64 MAX_SEQ_GAP (counter seq) ↔
      counter seq ∉ (History.calls seqs).accepted ∧
      ((History.calls seqs).window.nextExpected.toNat : ℤ) - 64 ≤ counter seq ∧
      (counter seq : ℤ) - (History.calls seqs).window.nextExpected.toNat ≤ 1000 := by
    have hgap : MAX_SEQ_GAP = 1000 := rfl
    simp only [SetWindow.Accepts, History.toSet, hgap]
    exact and_congr_right fun _ => and_congr (by omega) (by omega)
  refine ⟨?_, ?_⟩
  · rw [← haccepts]
    rcases hv.checkAndAdvance seq with ⟨window, hok, hyes, -⟩ | ⟨e, herror, hno⟩
    · simp [hok, hyes]
    · simp [herror, hno]
  · intro i hi
    rw [hv.bits i hi]
    refine exists_congr fun a => and_congr_right fun _ => ?_
    simp only [History.toSet]
    omega

end ReplayWindow

/-- One call of `peel_forward`. -/
structure PeelCall where
  before : RelayCircuitHop
  frame : Frame
  result : Except CircuitError PeelOutcome
  after : RelayCircuitHop

/-- The relay reports the frame as addressed to it. -/
def PeelCall.accepted (c : PeelCall) : Bool :=
  match c.result with
  | .ok (.addressedToThisRelay ..) => true
  | _ => false

section Peel
variable (P : Primitives)

/-- The calls that the frames of a link lead to. -/
def peelCalls : RelayCircuitHop → List Frame → List PeelCall
  | _, [] => []
  | r, frame :: frames =>
    let out := r.peelForward P frame
    ⟨r, frame, out.1, out.2.2⟩ :: peelCalls out.2.2 frames

/-- What one call does to the expected sequence number. -/
structure PeelCall.Sound (c : PeelCall) : Prop where
  rejected : c.accepted = false → c.after = c.before
  expected : c.accepted = true → c.before.expectedRecvSeq.toNat ≤ c.frame.sequenceNo.toNat ∧
    c.frame.sequenceNo.toNat ≤ c.before.expectedRecvSeq.toNat + MAX_SEQ_GAP
  advanced : c.accepted = true →
    c.after.expectedRecvSeq.toNat = c.frame.sequenceNo.toNat + 1

lemma PeelCall.sound (r : RelayCircuitHop) (frame : Frame) :
    PeelCall.Sound ⟨r, frame, (r.peelForward P frame).1, (r.peelForward P frame).2.2⟩ := by
  rcases peelForward_cases (P := P) r frame with
    ⟨hresult, hsame⟩ | ⟨command, len, next, hresult, hstate, hge, hle, hnext⟩
  · have hno : PeelCall.accepted
        ⟨r, frame, (r.peelForward P frame).1, (r.peelForward P frame).2.2⟩ = false := by
      rcases hresult with ⟨e, herror⟩ | hforward
      · simp only [PeelCall.accepted, herror]
      · simp only [PeelCall.accepted, hforward]
    refine ⟨fun _ => hsame, ?_, ?_⟩
    · intro hyes
      rw [hno] at hyes
      cases hyes
    · intro hyes
      rw [hno] at hyes
      cases hyes
  · refine ⟨?_, fun _ => ⟨hge, hle⟩, ?_⟩
    · intro hno
      simp [PeelCall.accepted, hresult] at hno
    · intro _
      simp only [hstate, hnext]

lemma peelCalls_sound (frames : List Frame) (r : RelayCircuitHop) :
    ∀ c ∈ peelCalls P r frames, c.Sound := by
  induction frames generalizing r with
  | nil => simp [peelCalls]
  | cons frame frames ih =>
    intro c hc
    rcases List.mem_cons.mp hc with rfl | hc
    · exact PeelCall.sound P r frame
    · exact ih _ c hc

/-- Later accepted frames have numbers from the expected one on, each above the one before. -/
lemma peelCalls_increasing (frames : List Frame) (r : RelayCircuitHop) :
    (∀ c ∈ (peelCalls P r frames).filter PeelCall.accepted,
      r.expectedRecvSeq.toNat ≤ c.frame.sequenceNo.toNat) ∧
    (((peelCalls P r frames).filter PeelCall.accepted).map fun c => c.frame.sequenceNo).Pairwise
      (· < ·) := by
  induction frames generalizing r with
  | nil => simp [peelCalls]
  | cons frame frames ih =>
    obtain ⟨hlow, hpair⟩ := ih (r.peelForward P frame).2.2
    have hsound := PeelCall.sound P r frame
    cases hcase : PeelCall.accepted
        ⟨r, frame, (r.peelForward P frame).1, (r.peelForward P frame).2.2⟩ with
    | false =>
      have hsame : (r.peelForward P frame).2.2 = r := hsound.rejected hcase
      simp only [peelCalls, List.filter_cons, hcase, Bool.false_eq_true, if_false]
      rw [hsame] at hlow hpair ⊢
      exact ⟨hlow, hpair⟩
    | true =>
      obtain ⟨hge, -⟩ := hsound.expected hcase
      have hnext := hsound.advanced hcase
      simp only [peelCalls, List.filter_cons, hcase, if_true]
      refine ⟨?_, ?_⟩
      · intro c hc
        rcases List.mem_cons.mp hc with rfl | hc
        · exact hge
        · have hafter := hlow c hc
          dsimp only at hge hnext
          omega
      · rw [List.map_cons]
        refine List.Pairwise.cons ?_ hpair
        intro seq hseq
        obtain ⟨c, hc, rfl⟩ := List.mem_map.mp hseq
        have hafter := hlow c hc
        rw [UInt32.lt_iff_toNat_lt]
        dsimp only at hnext ⊢
        omega

/-- Whatever frames a relay is given, the numbers of those that it accepts grow strictly, each
at most 1000 above the expected one, so none is accepted twice. A call that does not report a
frame for this relay changes nothing. -/
theorem peelForward_never_repeats (r : RelayCircuitHop) (frames : List Frame) :
    (((peelCalls P r frames).filter PeelCall.accepted).map fun c => c.frame.sequenceNo).Pairwise
      (· < ·) ∧
    (((peelCalls P r frames).filter PeelCall.accepted).map fun c => c.frame).Nodup ∧
    (∀ c ∈ peelCalls P r frames, c.accepted = true →
      c.before.expectedRecvSeq.toNat ≤ c.frame.sequenceNo.toNat ∧
      c.frame.sequenceNo.toNat ≤ c.before.expectedRecvSeq.toNat + 1000) ∧
    ∀ c ∈ peelCalls P r frames, ((∃ e, c.result = .error e) ∨ c.result = .ok .forwardDownstream) →
      c.after.expectedRecvSeq = c.before.expectedRecvSeq := by
  have hsound := peelCalls_sound P frames r
  obtain ⟨-, hpair⟩ := peelCalls_increasing P frames r
  refine ⟨hpair, ?_, fun c hc hyes => (hsound c hc).expected hyes, ?_⟩
  · rw [List.pairwise_map] at hpair
    rw [List.nodup_iff_pairwise_ne, List.pairwise_map]
    refine hpair.imp fun hlt heq => ?_
    rw [heq] at hlt
    exact absurd hlt (UInt32.lt_irrefl _)
  · intro c hc hresult
    have hno : c.accepted = false := by
      rcases hresult with ⟨e, herror⟩ | hforward
      · simp only [PeelCall.accepted, herror]
      · simp only [PeelCall.accepted, hforward]
    rw [(hsound c hc).rejected hno]

end Peel

section Failures
variable (P : Primitives) {e : CircuitError}

/-- What a backward frame holds under its seal, if the hop that it names has sealed it. -/
def OnionCircuit.sealedContent (c : OnionCircuit) (raw : Frame) : Option Frame :=
  let nonce := buildNonce 2 0 raw.sequenceNo
  (c.hops[claimedHop raw.sequenceNo]?).bind fun target =>
    ((c.hops.take (claimedHop raw.sequenceNo)).foldl
      (fun raw hop => hop.encryptBackwardStream P nonce raw) raw).openWith P
        target.backwardAeadKey nonce

/-- A known command and a length that fits. -/
def Frame.HoldsCell (f : Frame) : Prop :=
  (CellCommand.fromU8 (f.bytes.getD 8 0)).isSome ∧
    (u16OfBe ((f.bytes.drop 11).take 2)).toNat ≤ PAYLOAD_SIZE

instance (f : Frame) : Decidable f.HoldsCell := inferInstanceAs (Decidable (_ ∧ _))

lemma Frame.HoldsCell.parse {f : Frame} (h : f.HoldsCell) : ∃ cell, OnionCell.parse f = .ok cell := by
  obtain ⟨command, hcommand⟩ := Option.isSome_iff_exists.mp h.1
  have hlength : ¬ PAYLOAD_SIZE < (u16OfBe ((f.bytes.drop 11).take 2)).toNat := Nat.not_lt.mpr h.2
  simp only [OnionCell.parse, hcommand, dif_neg hlength]
  exact ⟨_, rfl⟩

lemma ReplayWindow.window_of_error {w : ReplayWindow} {seq : UInt32}
    (h : (w.checkAndAdvance seq).1 = .error e) : (w.checkAndAdvance seq).2 = w := by
  unfold ReplayWindow.checkAndAdvance at h ⊢
  dsimp only at h ⊢
  split_ifs at h ⊢ <;> rfl

/-- A failed `unwrap_backward` changes nothing when sealed content is a cell. -/
lemma unwrapBackward_of_error {c : OnionCircuit} {raw : Frame}
    (hcell : ∀ f, c.sealedContent P raw = some f → f.HoldsCell)
    (h : (c.unwrapBackward P raw).1 = .error e) : (c.unwrapBackward P raw).2 = c := by
  unfold OnionCircuit.unwrapBackward at h ⊢
  split_ifs at h ⊢ with hid
  · rfl
  dsimp only at h ⊢
  cases htarget : c.hops[claimedHop raw.sequenceNo]? with
  | none => rfl
  | some target =>
    cases hwindow : c.bwdReplayWindows[claimedHop raw.sequenceNo]? with
    | none => rfl
    | some window =>
      simp only [htarget, hwindow] at h ⊢
      cases hopen : ((c.hops.take (claimedHop raw.sequenceNo)).foldl
          (fun raw' hop => hop.encryptBackwardStream P (buildNonce 2 0 raw.sequenceNo) raw')
            raw).openWith P target.backwardAeadKey (buildNonce 2 0 raw.sequenceNo) with
      | none =>
        simp only [HopKeys.openBackward, hopen, Option.elim]
      | some opened =>
        have hcontent : c.sealedContent P raw = some opened := by
          simp only [OnionCircuit.sealedContent, htarget, Option.bind_some, hopen]
        obtain ⟨cell, hparse⟩ := (hcell opened hcontent).parse
        simp only [HopKeys.openBackward, hopen, Option.elim, hparse] at h ⊢
        cases hadvance : (window.checkAndAdvance raw.sequenceNo).1 with
        | ok =>
          rw [hadvance] at h
          cases h
        | error =>
          obtain ⟨hlt, rfl⟩ := List.getElem?_eq_some_iff.mp hwindow
          simp only [ReplayWindow.window_of_error hadvance, List.set_getElem_self]

lemma wrapBackwardOriginate_of_error {r : RelayCircuitHop} {raw : Frame} (hhop : r.hopIndex < MAX_HOPS)
    (hspace : r.nextSendSeq ≤ BWD_COUNTER_MASK ∨ r.nextSendSeq.toNat = 2 ^ 32 - 1)
    (h : (r.wrapBackwardOriginate P raw).1 = .error e) : (r.wrapBackwardOriginate P raw).2 = r := by
  unfold RelayCircuitHop.wrapBackwardOriginate at h ⊢
  dsimp only at h ⊢
  cases hnext : checkedSucc r.nextSendSeq with
  | none => rfl
  | some =>
    have hroom := (checkedSucc_eq_some.mp hnext).1
    have hcounter : r.nextSendSeq.toNat < 2 ^ 29 := by
      rcases hspace with hle | hfull
      · rw [UInt32.le_iff_toNat_le, toNat_mask] at hle
        omega
      · omega
    obtain ⟨seq, hpack, -⟩ := packBackwardSeq_eq hhop hcounter
    simp only [hnext, hpack] at h
    cases h

end Failures

section Sample

/-- A circuit of one hop and a frame of that hop with number 1. -/
def oneHop (window : ReplayWindow) : OnionCircuit := ⟨7, [⟨[1], [2], [3], [4]⟩], 1, [window]⟩

/-- The hop has sealed zeros, which are no cell. -/
def malformedFrame : Frame where
  bytes := be32 7 ++ be32 1 ++ List.replicate 8184 0
  size := by simp [-List.reduceReplicate, ONION_CELL_SIZE]

lemma exists_error_of_isNone {ε α : Type*} {x : Except ε α} (h : x.toOption.isNone = true) :
    ∃ e, x = .error e := by
  cases x with
  | error e => exact ⟨e, rfl⟩
  | ok => cases h

end Sample

end AnonGuard
