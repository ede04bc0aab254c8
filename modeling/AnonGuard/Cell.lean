import AnonGuard.Bytes

/-!
# Fixed-size protocol cells

A cell is 8192 octets: circuit id (4), sequence number (4), command (1),
stream id (2), length (2), random padding (32), payload (8131) and tag (16).
The sealed part of a frame starts at octet 8 and its last 16 octets are the
tag, so the frame operations below split it there.
-/
namespace AnonGuard

def ONION_CELL_SIZE : ℕ := 8192
def HEADER_SIZE : ℕ := 61
def PAYLOAD_SIZE : ℕ := ONION_CELL_SIZE - HEADER_SIZE

inductive CellCommand
  | create | created | relay | destroy | extend | extended | data | dataAck | dummy | «end»
  | session | sessionAccepted | sessionOpen | sessionOpened | sessionRefused
  | sessionFinish | sessionFinished | sessionReset
  deriving DecidableEq, Repr

namespace CellCommand

def toU8 : CellCommand → UInt8
  | create => 1
  | created => 2
  | relay => 3
  | destroy => 4
  | extend => 5
  | extended => 6
  | data => 7
  | dataAck => 8
  | dummy => 9
  | «end» => 10
  | session => 11
  | sessionAccepted => 12
  | sessionOpen => 13
  | sessionOpened => 14
  | sessionRefused => 15
  | sessionFinish => 16
  | sessionFinished => 17
  | sessionReset => 18

def fromU8 : UInt8 → Option CellCommand
  | 1 => some create
  | 2 => some created
  | 3 => some relay
  | 4 => some destroy
  | 5 => some extend
  | 6 => some extended
  | 7 => some data
  | 8 => some dataAck
  | 9 => some dummy
  | 10 => some «end»
  | 11 => some session
  | 12 => some sessionAccepted
  | 13 => some sessionOpen
  | 14 => some sessionOpened
  | 15 => some sessionRefused
  | 16 => some sessionFinish
  | 17 => some sessionFinished
  | 18 => some sessionReset
  | _ => none

@[simp] theorem fromU8_toU8 (c : CellCommand) : fromU8 c.toU8 = some c := by
  cases c <;> rfl

end CellCommand

/-- One wire buffer, `[u8; ONION_CELL_SIZE]`. -/
@[ext] structure Frame where
  bytes : Bytes
  size : bytes.length = ONION_CELL_SIZE

namespace Frame

def BODY_SIZE : ℕ := ONION_CELL_SIZE - 8
def SEALED_SIZE : ℕ := ONION_CELL_SIZE - 24

def circuitId (f : Frame) : UInt32 := u32OfBe (f.bytes.take 4)

/-- Octets 4..8, the only part of the header that is authenticated. -/
def aad (f : Frame) : Bytes := (f.bytes.drop 4).take 4

def sequenceNo (f : Frame) : UInt32 := u32OfBe f.aad
def body (f : Frame) : Bytes := f.bytes.drop 8

@[simp] theorem length_body (f : Frame) : f.body.length = BODY_SIZE := by
  simp [body, f.size, BODY_SIZE]

def plain (f : Frame) : Bytes := f.body.take SEALED_SIZE
def tag (f : Frame) : Bytes := f.body.drop SEALED_SIZE

def withId (f : Frame) (id : UInt32) : Frame where
  bytes := be32 id ++ f.bytes.drop 4
  size := by simp [f.size, ONION_CELL_SIZE]

def withSequence (f : Frame) (seq : UInt32) : Frame where
  bytes := f.bytes.take 4 ++ be32 seq ++ f.bytes.drop 8
  size := by simp [f.size, ONION_CELL_SIZE]

def withBody (f : Frame) (b : Bytes) (h : b.length = BODY_SIZE) : Frame where
  bytes := f.bytes.take 8 ++ b
  size := by simp [f.size, h, BODY_SIZE, ONION_CELL_SIZE]

@[simp] theorem circuitId_withId (f : Frame) (id : UInt32) : (f.withId id).circuitId = id := by
  simp [circuitId, withId]

@[simp] theorem aad_withId (f : Frame) (id : UInt32) : (f.withId id).aad = f.aad := by
  simp [aad, withId]

@[simp] theorem body_withId (f : Frame) (id : UInt32) : (f.withId id).body = f.body := by
  simp [body, withId, List.drop_append]

@[simp] theorem sequenceNo_withId (f : Frame) (id : UInt32) :
    (f.withId id).sequenceNo = f.sequenceNo := by simp [sequenceNo]

@[simp] theorem circuitId_withBody (f : Frame) (b : Bytes) (h : b.length = BODY_SIZE) :
    (f.withBody b h).circuitId = f.circuitId := by
  simp [circuitId, withBody, List.take_append, List.take_take, f.size, ONION_CELL_SIZE]

@[simp] theorem aad_withBody (f : Frame) (b : Bytes) (h : b.length = BODY_SIZE) :
    (f.withBody b h).aad = f.aad := by
  simp [aad, withBody, List.drop_append, List.drop_take, f.size, ONION_CELL_SIZE]

@[simp] theorem body_withBody (f : Frame) (b : Bytes) (h : b.length = BODY_SIZE) :
    (f.withBody b h).body = b := by
  simp [body, withBody, f.size, ONION_CELL_SIZE]

@[simp] theorem circuitId_withSequence (f : Frame) (seq : UInt32) :
    (f.withSequence seq).circuitId = f.circuitId := by
  simp [circuitId, withSequence, f.size, ONION_CELL_SIZE]

@[simp] theorem aad_withSequence (f : Frame) (seq : UInt32) :
    (f.withSequence seq).aad = be32 seq := by
  simp [aad, withSequence, f.size, ONION_CELL_SIZE]

@[simp] theorem body_withSequence (f : Frame) (seq : UInt32) :
    (f.withSequence seq).body = f.body := by
  simp [body, withSequence, List.drop_append, f.size, ONION_CELL_SIZE]

end Frame

/-- A parsed cell. Both constructors of the program, `new` and `parse`, bound
`length`, and the three arrays have fixed sizes. -/
structure OnionCell where
  circuitId : UInt32
  sequenceNo : UInt32
  command : CellCommand
  streamId : UInt16
  length : UInt16
  ephemeralKey : Bytes
  mac : Bytes
  payload : Bytes
  length_le : length.toNat ≤ PAYLOAD_SIZE
  ephemeralKey_size : ephemeralKey.length = 32
  mac_size : mac.length = 16
  payload_size : payload.length = PAYLOAD_SIZE

namespace OnionCell

/-- `OnionCell::new`. The random padding is an argument. -/
def new (circuitId sequenceNo : UInt32) (command : CellCommand) (streamId : UInt16)
    (data : Bytes) (padding : { p : Bytes // p.length = 32 }) : Except String OnionCell :=
  if h : PAYLOAD_SIZE < data.length then
    .error s!"Payload length {data.length} exceeds maximum cell payload size {PAYLOAD_SIZE}"
  else
    have hle : data.length ≤ PAYLOAD_SIZE := Nat.le_of_not_lt h
    .ok {
      circuitId := circuitId
      sequenceNo := sequenceNo
      command := command
      streamId := streamId
      length := UInt16.ofNat data.length
      ephemeralKey := padding.val
      mac := List.replicate 16 0
      payload := data ++ List.replicate (PAYLOAD_SIZE - data.length) 0
      length_le := by
        have hlt : data.length < 2 ^ 16 := lt_of_le_of_lt hle (by decide)
        rw [UInt16.toNat_ofNat', Nat.mod_eq_of_lt hlt]
        exact hle
      ephemeralKey_size := padding.property
      mac_size := List.length_replicate
      payload_size := by simp [hle] }

/-- The cell under another sequence number. -/
def numbered (c : OnionCell) (seq : UInt32) : OnionCell := { c with sequenceNo := seq }

/-- The octets between the sequence number and the tag. -/
def plainBytes (c : OnionCell) : Bytes :=
  [c.command.toU8] ++ be16 c.streamId ++ be16 c.length ++ c.ephemeralKey ++ c.payload

@[simp] theorem length_plainBytes (c : OnionCell) : c.plainBytes.length = Frame.SEALED_SIZE := by
  simp [plainBytes, c.ephemeralKey_size, c.payload_size, Frame.SEALED_SIZE, ONION_CELL_SIZE,
    PAYLOAD_SIZE, HEADER_SIZE]

@[simp] theorem circuitId_numbered (c : OnionCell) (seq : UInt32) :
    (c.numbered seq).circuitId = c.circuitId := rfl

@[simp] theorem sequenceNo_numbered (c : OnionCell) (seq : UInt32) :
    (c.numbered seq).sequenceNo = seq := rfl

@[simp] theorem plainBytes_numbered (c : OnionCell) (seq : UInt32) :
    (c.numbered seq).plainBytes = c.plainBytes := rfl

def serialize (c : OnionCell) : Frame where
  bytes := be32 c.circuitId ++ be32 c.sequenceNo ++ c.plainBytes ++ c.mac
  size := by simp [c.mac_size, Frame.SEALED_SIZE, ONION_CELL_SIZE]

@[simp] theorem circuitId_serialize (c : OnionCell) :
    c.serialize.circuitId = c.circuitId := by
  simp [Frame.circuitId, serialize]

@[simp] theorem aad_serialize (c : OnionCell) : c.serialize.aad = be32 c.sequenceNo := by
  simp [Frame.aad, serialize]

@[simp] theorem body_serialize (c : OnionCell) :
    c.serialize.body = c.plainBytes ++ c.mac := by
  simp [Frame.body, serialize, List.drop_append]

@[simp] theorem plain_serialize (c : OnionCell) : c.serialize.plain = c.plainBytes := by
  simp [Frame.plain]

def parse (f : Frame) : Except String OnionCell :=
  let command := f.bytes.getD 8 0
  match CellCommand.fromU8 command with
  | none => .error s!"Unknown cell command: {command}"
  | some cmd =>
    let length := u16OfBe ((f.bytes.drop 11).take 2)
    if h : PAYLOAD_SIZE < length.toNat then
      .error s!"Parsed cell length {length} exceeds maximum {PAYLOAD_SIZE}"
    else .ok {
      circuitId := f.circuitId
      sequenceNo := f.sequenceNo
      command := cmd
      streamId := u16OfBe ((f.bytes.drop 9).take 2)
      length := length
      ephemeralKey := (f.bytes.drop 13).take 32
      mac := f.bytes.drop (ONION_CELL_SIZE - 16)
      payload := (f.bytes.drop 45).take PAYLOAD_SIZE
      length_le := Nat.le_of_not_lt h
      ephemeralKey_size := by simp [f.size, ONION_CELL_SIZE]
      mac_size := by simp [f.size, ONION_CELL_SIZE]
      payload_size := by simp [f.size, ONION_CELL_SIZE, PAYLOAD_SIZE, HEADER_SIZE] }

/-- The fields that a peer reads: command, stream id, length and payload. -/
def SameContent (a b : OnionCell) : Prop :=
  a.command = b.command ∧ a.streamId = b.streamId ∧ a.length = b.length ∧ a.payload = b.payload

section Plain
variable {f : Frame} {c : OnionCell}

lemma body_of_plain (h : f.plain = c.plainBytes) : f.body = c.plainBytes ++ f.tag := by
  rw [← h]
  exact (List.take_append_drop _ _).symm

lemma drop_eq_drop_body (f : Frame) (k : ℕ) : f.bytes.drop (8 + k) = f.body.drop k := by
  simp [Frame.body]

lemma command_of_plain (h : f.plain = c.plainBytes) : f.bytes.getD 8 0 = c.command.toU8 := by
  have hget : f.bytes.getD 8 0 = f.body.getD 0 0 := by simp [Frame.body, List.getD]
  rw [hget, body_of_plain h]
  simp [plainBytes]

lemma length_of_plain (h : f.plain = c.plainBytes) :
    u16OfBe ((f.bytes.drop 11).take 2) = c.length := by
  rw [drop_eq_drop_body f 3, body_of_plain h]
  simp [plainBytes]

lemma payload_of_plain (h : f.plain = c.plainBytes) :
    (f.bytes.drop 45).take PAYLOAD_SIZE = c.payload := by
  have hs : (be16 c.streamId).drop 36 = [] := List.drop_eq_nil_of_le (by simp)
  have hl : (be16 c.length).drop 34 = [] := List.drop_eq_nil_of_le (by simp)
  rw [drop_eq_drop_body f 37, body_of_plain h]
  simp [plainBytes, List.drop_append, c.ephemeralKey_size, ← c.payload_size, hs, hl]

/-- A frame whose plaintext region is that of `c` parses to the content of `c`,
whatever its circuit id, sequence number and tag are. -/
theorem parse_of_plain (h : f.plain = c.plainBytes) :
    ∃ p, parse f = .ok p ∧ p.SameContent c ∧ p.circuitId = f.circuitId := by
  have hstream : u16OfBe ((f.bytes.drop 9).take 2) = c.streamId := by
    rw [drop_eq_drop_body f 1, body_of_plain h]
    simp [plainBytes]
  have hle : ¬ PAYLOAD_SIZE < c.length.toNat := Nat.not_lt.mpr c.length_le
  simp only [parse, command_of_plain h, CellCommand.fromU8_toU8, length_of_plain h, hle,
    dite_false]
  exact ⟨_, rfl, ⟨rfl, hstream, rfl, payload_of_plain h⟩, rfl⟩

end Plain

end OnionCell

end AnonGuard
