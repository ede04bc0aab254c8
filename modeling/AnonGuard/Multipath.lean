import AnonGuard.Cell
import AnonGuard.Maps
import AnonGuard.Resequencing
import AnonGuard.Transition

/-!
# Packets over several paths

A slicer numbers the payloads of a stream, 64 bits each, and every packet may take its own path.
The packets may arrive in any order, more than once or not at all. The reassembler returns the
payloads in the order of their numbers and buffers what comes too early. Here a slicer and a
reassembler work on the packets that were sliced, and the payloads sliced and returned are
recorded.
-/
namespace AnonGuard

def MULTIPATH_HEADER_SIZE : ℕ := 8

structure MultiPathSlicer where
  nextSeq : UInt64

namespace MultiPathSlicer

def new : MultiPathSlicer := ⟨0⟩

/-- The length of the packet and the output buffer that it is written to. -/
def slice (s : MultiPathSlicer) (data out : Bytes) : Except String (ℕ × Bytes) × MultiPathSlicer :=
  let length := data.length + MULTIPATH_HEADER_SIZE
  if 2 ^ 64 ≤ length then (.error "Multipath packet length overflow", s)
  else if PAYLOAD_SIZE < length ∨ out.length < length then
    (.error "Multipath packet exceeds cell or output capacity", s)
  else if 2 ^ 64 ≤ s.nextSeq.toNat + 1 then (.error "Multipath sequence exhausted", s)
  else (.ok (length, be64 s.nextSeq ++ data ++ out.drop length), ⟨s.nextSeq + 1⟩)

/-- A payload is refused and nothing changes, or the packet is its number and the payload. -/
lemma slice_cases (s : MultiPathSlicer) (data out : Bytes) :
    (∃ e, s.slice data out = (.error e, s)) ∨
      ∃ n out', s.slice data out = (.ok (n, out'), ⟨s.nextSeq + 1⟩) ∧
        out'.take n = be64 s.nextSeq ++ data ∧ data.length + MULTIPATH_HEADER_SIZE ≤ PAYLOAD_SIZE ∧
        s.nextSeq.toNat + 1 < 2 ^ 64 := by
  unfold slice
  dsimp only
  split_ifs with hoverflow hcapacity hexhausted
  · exact .inl ⟨_, rfl⟩
  · exact .inl ⟨_, rfl⟩
  · exact .inl ⟨_, rfl⟩
  · refine .inr ⟨_, _, rfl, ?_, by omega, by omega⟩
    apply List.take_left'
    simp [be64, MULTIPATH_HEADER_SIZE, Nat.add_comm]

end MultiPathSlicer

structure MultiPathReassembler where
  nextExpectedSeq : UInt64
  buffer : Std.TreeMap UInt64 Bytes

namespace MultiPathReassembler

def MAX_SEQ_GAP : ℕ := 100000
def MAX_BUFFERED_ENTRIES : ℕ := 10000

def new : MultiPathReassembler := ⟨0, ∅⟩

/-- `u64::from_be_bytes` of the header. -/
def seqOf (payload : Bytes) : UInt64 := u64OfBe (payload.take MULTIPATH_HEADER_SIZE)

def receive (r : MultiPathReassembler) (payload : Bytes) : Option Bytes × MultiPathReassembler :=
  if payload.length < MULTIPATH_HEADER_SIZE ∨ PAYLOAD_SIZE < payload.length then (none, r)
  else
    let seq := seqOf payload
    if seq < r.nextExpectedSeq ∨ seq.toNat = 2 ^ 64 - 1 then (none, r)
    else if MAX_SEQ_GAP < seq.toNat - r.nextExpectedSeq.toNat then (none, r)
    else if seq = r.nextExpectedSeq then
      -- A payload that is already buffered under this number goes first.
      (some (r.buffer[seq]?.getD (payload.drop MULTIPATH_HEADER_SIZE)),
        ⟨r.nextExpectedSeq + 1, r.buffer.erase seq⟩)
    else if r.buffer.contains seq ∨ MAX_BUFFERED_ENTRIES ≤ r.buffer.size then (none, r)
    else (none, { r with buffer := r.buffer.insert seq (payload.drop MULTIPATH_HEADER_SIZE) })

def popNextBuffered (r : MultiPathReassembler) : Option Bytes × MultiPathReassembler :=
  match r.buffer[r.nextExpectedSeq]? with
  | some data => (some data, ⟨r.nextExpectedSeq + 1, r.buffer.erase r.nextExpectedSeq⟩)
  | none => (none, r)

@[simp] theorem seqOf_packet (seq : UInt64) (data : Bytes) : seqOf (be64 seq ++ data) = seq := by
  have htake : (be64 seq ++ data).take MULTIPATH_HEADER_SIZE = be64 seq := by
    apply List.take_left'
    simp [be64, MULTIPATH_HEADER_SIZE]
  rw [seqOf, htake, u64OfBe_be64]

lemma drop_packet (seq : UInt64) (data : Bytes) :
    (be64 seq ++ data).drop MULTIPATH_HEADER_SIZE = data := by
  apply List.drop_left'
  simp [be64, MULTIPATH_HEADER_SIZE]

/-- A packet is dropped, or it is the next one, or it is a later one that goes into the buffer. -/
lemma receive_cases (r : MultiPathReassembler) (seq : UInt64) (data : Bytes) :
    r.receive (be64 seq ++ data) = (none, r) ∨
      (seq = r.nextExpectedSeq ∧ seq.toNat + 1 < 2 ^ 64 ∧
        r.receive (be64 seq ++ data) =
          (some (r.buffer[seq]?.getD data), ⟨r.nextExpectedSeq + 1, r.buffer.erase seq⟩)) ∨
      (r.nextExpectedSeq.toNat < seq.toNat ∧ r.buffer.size < MAX_BUFFERED_ENTRIES ∧
        r.receive (be64 seq ++ data) = (none, { r with buffer := r.buffer.insert seq data })) := by
  have hseq := seq.toNat_lt
  unfold receive
  dsimp only
  rw [seqOf_packet, drop_packet]
  split_ifs with hlength hold hgap hnext hfull
  · exact .inl rfl
  · exact .inl rfl
  · exact .inl rfl
  · exact .inr (.inl ⟨hnext, by omega, rfl⟩)
  · exact .inl rfl
  · have hne : seq.toNat ≠ r.nextExpectedSeq.toNat := fun h => hnext (UInt64.toNat_inj.mp h)
    rw [not_or, UInt64.not_lt, UInt64.le_iff_toNat_le] at hold
    exact .inr (.inr ⟨by omega, by omega, rfl⟩)

end MultiPathReassembler

/-- The two ends, the payloads that were sliced with their packets, and what was returned with
its number. -/
structure Multipath where
  slicer : MultiPathSlicer
  reassembler : MultiPathReassembler
  sliced : List Bytes
  packets : List Bytes
  returned : List (UInt64 × Bytes)

inductive MultipathInput
  | slice (data out : Bytes)
  /-- One of the packets that were sliced arrives, for the first time or again. -/
  | receive (packet : ℕ)
  | popNextBuffered

namespace Multipath
open MultiPathReassembler

def new : Multipath where
  slicer := .new
  reassembler := .new
  sliced := []
  packets := []
  returned := []

def step (s : Multipath) : MultipathInput → Option Multipath
  | .slice data out =>
    match s.slicer.slice data out with
    | (.error _, slicer) => some { s with slicer := slicer }
    | (.ok (n, out'), slicer) =>
      some { s with slicer := slicer, sliced := s.sliced ++ [data], packets := s.packets ++ [out'.take n] }
  | .receive packet =>
    s.packets[packet]?.map fun payload =>
      let (data, reassembler) := s.reassembler.receive payload
      { s with
        reassembler := reassembler
        returned := s.returned ++ data.toList.map fun data => (seqOf payload, data) }
  | .popNextBuffered =>
    let (data, reassembler) := s.reassembler.popNextBuffered
    some { s with
      reassembler := reassembler
      returned := s.returned ++ data.toList.map fun data => (s.reassembler.nextExpectedSeq, data) }

/-- The numbers are those of the positions, and the reassembler is in sequence with them. -/
structure InOrder (s : Multipath) : Prop where
  seq : s.slicer.nextSeq.toNat = s.sliced.length
  packets : s.packets = s.sliced.mapIdx fun i data => be64 (UInt64.ofNat i) ++ data
  numbers : s.returned.map (fun r => r.1.toNat) = List.range s.reassembler.nextExpectedSeq.toNat
  sequence : InSequence UInt64.toNat s.sliced (s.returned.map Prod.snd)
    s.reassembler.nextExpectedSeq.toNat fun k => s.reassembler.buffer[k]?
  size_le : s.reassembler.buffer.size ≤ MAX_BUFFERED_ENTRIES

variable {s s' : Multipath}

lemma inOrder_new : InOrder new where
  seq := rfl
  packets := rfl
  numbers := rfl
  sequence := ⟨le_rfl, rfl, fun k a ha => by simp [new, MultiPathReassembler.new] at ha⟩
  size_le := by simp [new, MultiPathReassembler.new]

/-- The number of a packet is its position, and its payload the one sliced there. -/
lemma InOrder.packet (h : s.InOrder) {k : ℕ} {payload : Bytes} (hk : s.packets[k]? = some payload) :
    ∃ (seq : UInt64) (data : Bytes), payload = be64 seq ++ data ∧ seq.toNat = k ∧
      s.sliced[seq.toNat]? = some data := by
  rw [h.packets, List.getElem?_mapIdx] at hk
  obtain ⟨data, hdata, rfl⟩ := Option.map_eq_some_iff.mp hk
  have hlt : k < s.sliced.length := (List.getElem?_eq_some_iff.mp hdata).1
  have hseq := s.slicer.nextSeq.toNat_lt
  have htoNat : (UInt64.ofNat k).toNat = k := by
    apply UInt64.toNat_ofNat_of_lt'
    rw [← h.seq] at hlt
    exact hlt.trans hseq
  exact ⟨UInt64.ofNat k, data, rfl, htoNat, by rw [htoNat, hdata]⟩

/-- Both ways of returning the next payload. -/
lemma InOrder.advance (h : s.InOrder) {data : Bytes}
    (hdata : s.sliced[s.reassembler.nextExpectedSeq.toNat]? = some data) :
    InOrder { s with
      reassembler := ⟨s.reassembler.nextExpectedSeq + 1,
        s.reassembler.buffer.erase s.reassembler.nextExpectedSeq⟩
      returned := s.returned ++ [(s.reassembler.nextExpectedSeq, data)] } := by
  have hlt := (List.getElem?_eq_some_iff.mp hdata).1
  have hseq := s.slicer.nextSeq.toNat_lt
  have hnext : (s.reassembler.nextExpectedSeq + 1).toNat = s.reassembler.nextExpectedSeq.toNat + 1 := by
    rw [UInt64.toNat_add]
    apply Nat.mod_eq_of_lt
    rw [UInt64.toNat_one]
    have := h.seq
    omega
  refine ⟨h.seq, h.packets, ?_, ?_, Std.TreeMap.size_erase_le.trans h.size_le⟩
  · rw [List.map_append, h.numbers, hnext, List.range_succ]
    rfl
  · dsimp only
    rw [hnext, List.map_append]
    refine h.sequence.release hdata fun k b hb => ?_
    obtain ⟨hne, hb⟩ := getElem?_of_erase hb
    exact ⟨fun heq => hne (UInt64.toNat_inj.mp heq).symm, hb⟩

lemma InOrder.receive (h : s.InOrder) {k : ℕ} (hs : s.step (.receive k) = some s') : s'.InOrder := by
  obtain ⟨payload, hpayload, rfl⟩ := Option.map_eq_some_iff.mp hs
  obtain ⟨seq, data, rfl, -, hdata⟩ := h.packet hpayload
  obtain hdrop | ⟨rfl, -, hreturn⟩ | ⟨hlater, hroom, hbuffer⟩ := receive_cases s.reassembler seq data
  · simpa [hdrop] using h
  · -- What is buffered under the number is the payload of the same packet.
    have hsame : (s.reassembler.buffer[s.reassembler.nextExpectedSeq]?).getD data = data := by
      cases hbuffered : s.reassembler.buffer[s.reassembler.nextExpectedSeq]? with
      | none => rfl
      | some b =>
        have hb := (h.sequence.held_sent _ b hbuffered).2
        rw [hdata] at hb
        cases hb
        rfl
    rw [hsame] at hreturn
    simpa [hreturn] using h.advance hdata
  · simp only [hbuffer, Option.toList_none, List.map_nil, List.append_nil]
    refine ⟨h.seq, h.packets, h.numbers, ?_, ?_⟩
    · refine h.sequence.hold hlater.le hdata fun j b hb => ?_
      obtain hnew | ⟨-, hold⟩ := getElem?_insert_cases hb
      · exact .inl hnew
      · exact .inr hold
    · exact Std.TreeMap.size_insert_le.trans hroom

lemma InOrder.popNextBuffered (h : s.InOrder) (hs : s.step .popNextBuffered = some s') :
    s'.InOrder := by
  cases hbuffered : s.reassembler.buffer[s.reassembler.nextExpectedSeq]? with
  | none =>
    simp only [step, MultiPathReassembler.popNextBuffered, hbuffered] at hs
    cases hs
    simpa using h
  | some data =>
    simp only [step, MultiPathReassembler.popNextBuffered, hbuffered] at hs
    cases hs
    exact h.advance (h.sequence.held_sent _ data hbuffered).2

lemma InOrder.slice (h : s.InOrder) {data out : Bytes} (hs : s.step (.slice data out) = some s') :
    s'.InOrder := by
  obtain ⟨e, herror⟩ | ⟨n, out', hok, hpacket, -, hroom⟩ := s.slicer.slice_cases data out
  · simp only [step, herror] at hs
    cases hs
    exact h
  · simp only [step, hok] at hs
    cases hs
    have hnext : (s.slicer.nextSeq + 1).toNat = s.slicer.nextSeq.toNat + 1 := by
      rw [UInt64.toNat_add]
      exact Nat.mod_eq_of_lt hroom
    refine ⟨?_, ?_, h.numbers, h.sequence.send data, h.size_le⟩
    · dsimp only
      rw [hnext, h.seq, List.length_append, List.length_singleton]
    · dsimp only
      rw [List.mapIdx_append, ← h.packets, hpacket, ← h.seq]
      simp

theorem inOrder_of_run (h : Run step new s) : s.InOrder := by
  refine h.invariant inOrder_new fun s i s' hinv _ hs => ?_
  cases i with
  | slice => exact hinv.slice hs
  | receive => exact hinv.receive hs
  | popNextBuffered => exact hinv.popNextBuffered hs

lemma InOrder.seqs_nodup (h : s.InOrder) : (s.packets.map seqOf).Nodup := by
  have hmap : s.packets.map seqOf = (List.range s.sliced.length).map UInt64.ofNat := by
    rw [h.packets]
    apply List.ext_getElem
    · simp
    · intro i _ _
      simp
  rw [hmap]
  refine List.Nodup.map_on (fun i hi j hj heq => ?_) List.nodup_range
  have hseq := s.slicer.nextSeq.toNat_lt
  rw [h.seq] at hseq
  have hi' := (List.mem_range.mp hi).trans hseq
  have hj' := (List.mem_range.mp hj).trans hseq
  rw [← UInt64.toNat_ofNat_of_lt' hi', heq, UInt64.toNat_ofNat_of_lt' hj']

lemma InOrder.returned_nodup (h : s.InOrder) : (s.returned.map Prod.fst).Nodup := by
  apply List.Nodup.of_map UInt64.toNat
  rw [List.map_map]
  exact h.numbers ▸ List.nodup_range

/-- The payloads returned are a beginning of the payloads sliced, each returned once. What is
buffered is never behind, the buffer is bounded, and no number is issued twice. -/
theorem returned_in_order (h : Run step new s) :
    s.returned.map Prod.snd <+: s.sliced ∧ (s.returned.map Prod.fst).Nodup ∧
      (∀ k ∈ s.reassembler.buffer, s.reassembler.nextExpectedSeq ≤ k) ∧
      s.reassembler.buffer.size ≤ MAX_BUFFERED_ENTRIES ∧ (s.packets.map seqOf).Nodup := by
  have hinv := inOrder_of_run h
  refine ⟨hinv.sequence.isPrefix, hinv.returned_nodup, fun k hk => ?_, hinv.size_le, hinv.seqs_nodup⟩
  have hget := Std.TreeMap.getElem?_eq_some_getElem hk
  exact UInt64.le_iff_toNat_le.mpr (hinv.sequence.held_sent k _ hget).1

/-- Three payloads, of which the second arrives last and the third twice. -/
def crossedPaths : List MultipathInput :=
  [.slice [1] (List.replicate 9 0), .slice [2] (List.replicate 12 7), .slice [3] (List.replicate 9 0),
    .receive 0, .receive 2, .popNextBuffered, .receive 2, .receive 1, .popNextBuffered, .receive 0]

theorem crossedPaths_in_order : ∃ s, runInputs step new crossedPaths = some s ∧
    s.returned = [(0, [1]), (1, [2]), (2, [3])] ∧ s.returned.map Prod.snd <+: s.sliced ∧
    (s.packets.map seqOf).Nodup := by
  have hlook : (runInputs step new crossedPaths).map (·.returned) =
      some [(0, [1]), (1, [2]), (2, [3])] := by decide +kernel
  obtain ⟨s, hs, hreturned⟩ := Option.map_eq_some_iff.mp hlook
  have hclaim := returned_in_order (Run.of_inputs _ hs)
  exact ⟨s, hs, hreturned, hclaim.1, hclaim.2.2.2.2⟩

end Multipath

end AnonGuard
