import AnonGuard.Circuit
import AnonGuard.Consensus
import AnonGuard.Transition

/-!
# The secure transport of the directory

Two ends with one key per direction exchange sealed frames over a stream that an
adversary controls. Every frame has a four-octet length that nothing authenticates, and
is sealed under the number of the frame. A document is a header frame and then its chunks.
An operation sets the poison flag before it first waits and clears it only on success, so
a failure or a cancellation ends the use of that end.
-/
namespace AnonGuard

/-- 1 MiB. -/
def MAX_FRAME_LEN : ℕ := 1024 * 1024

def makeNonce (counter : UInt64) : Bytes := [0, 0, 0, 0] ++ be64 counter

/-- `checked_add(1)`. -/
def checkedSucc64 (n : UInt64) : Option UInt64 := if n.toNat = 2 ^ 64 - 1 then none else some (n + 1)

structure SecureTransportSession where
  sendKey : Bytes
  recvKey : Bytes
  sendCounter : UInt64
  recvCounter : UInt64
  poisoned : Bool

namespace SecureTransportSession
variable (P : Primitives)

def fromKeys (sendKey recvKey : Bytes) : SecureTransportSession := ⟨sendKey, recvKey, 0, 0, false⟩

/-- The part of `write_frame_inner` before it waits for the stream. -/
def sealFrame (s : SecureTransportSession) (payload : Bytes) :
    Except String SealRecord × SecureTransportSession :=
  if MAX_FRAME_LEN < payload.length then (.error "Frame payload exceeds limit", s)
  else
    match checkedSucc64 s.sendCounter with
    | none => (.error "send nonce counter exhausted — rotate session key", s)
    | some next =>
      let nonce := makeNonce s.sendCounter
      let out := P.encrypt s.sendKey nonce [] payload
      (.ok ⟨s.sendKey, nonce, [], payload, out.1, out.2⟩, { s with sendCounter := next })

/-- Whether the length of a frame is in bounds. -/
def sized (header : Bytes) : Bool := 16 ≤ ofBe header && ofBe header ≤ MAX_FRAME_LEN + 16

/-- The ciphertext of a frame, without the tag. -/
def cipherOf (header body : Bytes) : Bytes := body.take (ofBe header - 16)

def tagOf (header body : Bytes) : Bytes := body.drop (ofBe header - 16)

/-- `read_frame_inner`, with the octets that the stream gives it. -/
def openFrame (s : SecureTransportSession) (header body : Bytes) :
    Except String Bytes × SecureTransportSession :=
  if sized header = false then (.error "Frame size out of bounds", s)
  else
    match P.decrypt s.recvKey (makeNonce s.recvCounter) [] (cipherOf header body)
      (tagOf header body) with
    | none => (.error "AEAD authentication failed — possible tampering or replay", s)
    | some plain =>
      match checkedSucc64 s.recvCounter with
      | none => (.error "recv nonce counter exhausted — rotate session key", s)
      | some next => (.ok plain, { s with recvCounter := next })

end SecureTransportSession

/-- The octets of a frame on the stream. -/
def SealRecord.wire (r : SealRecord) : Bytes :=
  toBe 4 (r.cipher.length + r.tag.length) ++ r.cipher ++ r.tag

def documentMagic : Bytes := utf8 "AGDOC006"

/-- The frames of a document: a header with the length, and the chunks. -/
def documentHeader (document : Bytes) : Bytes := documentMagic ++ toBe 4 document.length

/-- The checks on the header of a document; the length that it announces. -/
def documentTotal (header : Bytes) : Except String ℕ :=
  if header.length ≠ 12 ∨ header.take 8 ≠ documentMagic then
    .error "Directory document envelope required"
  else
    let total := ofBe (header.drop 8)
    if total = 0 ∨ 6 * MAX_FRAME_LEN < total then .error "Directory document size out of bounds"
    else .ok total

inductive TransportCall
  | writeFrame (payload : Bytes)
  | writeDocument (document : Bytes)
  | readFrame
  | readDocument

/-- Where an operation waits. -/
inductive TransportOp
  /-- For the stream to take a frame, before these are sealed. -/
  | writing (rest : List Bytes)
  | readingFrame
  | readingHeader
  | readingChunks (header : Bytes) (total : ℕ) (chunks : List Bytes)

/-- What a read has returned. A document is the concatenation of its chunks. -/
inductive ReadResult
  | frame (plain : Bytes)
  | document (header : Bytes) (chunks : List Bytes)

def ReadResult.frames : ReadResult → List Bytes
  | frame plain => [plain]
  | document header chunks => header :: chunks

/-- The frames that an operation has read so far. -/
def TransportOp.parts : TransportOp → List Bytes
  | readingChunks header _ chunks => header :: chunks
  | writing _ | readingFrame | readingHeader => []

/-- One end: the session, the operation that is going on, what was written to the stream,
the payloads that were sealed and opened, the results of reads, and for every operation
whether it succeeded, the last one first. -/
structure TransportEnd where
  session : SecureTransportSession
  op : Option TransportOp
  wire : Bytes
  sent : List Bytes
  opened : List Bytes
  reads : List ReadResult
  outcomes : List Bool

namespace TransportEnd
variable (P : Primitives)

def new (sendKey recvKey : Bytes) : TransportEnd := ⟨.fromKeys sendKey recvKey, none, [], [], [], [], []⟩

def poison (e : TransportEnd) : TransportEnd := { e with session := { e.session with poisoned := true } }

def succeed (e : TransportEnd) : TransportEnd :=
  { e with
    session := { e.session with poisoned := false }
    op := none
    outcomes := true :: e.outcomes }

/-- An error or a cancellation. The poison flag stays. -/
def fail (e : TransportEnd) : TransportEnd := { e with op := none, outcomes := false :: e.outcomes }

/-- Seal a frame and hand it to the stream. -/
def sendNext (e : TransportEnd) (frame : Bytes) (rest : List Bytes) :
    TransportEnd × List SealRecord :=
  match e.session.sealFrame P frame with
  | (.error _, session) => ({ e with session := session }.fail, [])
  | (.ok record, session) =>
    ({ e with
        session := session
        op := some (.writing rest)
        wire := e.wire ++ record.wire
        sent := e.sent ++ [frame] }, [record])

/-- The start of an operation; another one must not be going on. -/
def call (e : TransportEnd) (c : TransportCall) : Option (TransportEnd × List SealRecord) :=
  if e.op.isSome then none
  else if e.session.poisoned then some (e.fail, [])
  else
    let e := e.poison
    match c with
    | .writeFrame payload => some (e.sendNext P payload [])
    | .writeDocument document =>
      if document = [] ∨ 6 * MAX_FRAME_LEN < document.length then some (e.fail, [])
      else some (e.sendNext P (documentHeader document) (document.toChunks MAX_FRAME_LEN))
    | .readFrame => some ({ e with op := some .readingFrame }, [])
    | .readDocument => some ({ e with op := some .readingHeader }, [])

/-- The stream has taken the frame. -/
def written (e : TransportEnd) : Option (TransportEnd × List SealRecord) :=
  match e.op with
  | some (.writing []) => some (e.succeed, [])
  | some (.writing (frame :: rest)) => some (e.sendNext P frame rest)
  | _ => none

/-- What a read does with a frame that it has opened. -/
def take (e : TransportEnd) (op : TransportOp) (plain : Bytes) : Option TransportEnd :=
  match op with
  | .writing _ => none
  | .readingFrame => some { e with reads := e.reads ++ [ReadResult.frame plain] }.succeed
  | .readingHeader =>
    match documentTotal plain with
    | .error _ => some e.fail
    | .ok total => some { e with op := some (.readingChunks plain total []) }
  | .readingChunks header total chunks =>
    if plain.length ≠ min MAX_FRAME_LEN (total - chunks.flatten.length) then some e.fail
    else
      let chunks := chunks ++ [plain]
      if chunks.flatten.length < total then
        some { e with op := some (.readingChunks header total chunks) }
      else some { e with reads := e.reads ++ [ReadResult.document header chunks] }.succeed

/-- The stream has given a read the octets of a frame, as long as the length in it says. -/
def receive (e : TransportEnd) (header body : Bytes) : Option TransportEnd :=
  match e.op with
  | none | some (.writing _) => none
  | some op =>
    if header.length ≠ 4 ∨ (SecureTransportSession.sized header = true ∧
        body.length ≠ ofBe header) then none
    else
      match e.session.openFrame P header body with
      | (.error _, session) => some { e with session := session }.fail
      | (.ok plain, session) =>
        { e with session := session, opened := e.opened ++ [plain] }.take op plain

def abort (e : TransportEnd) : Option TransportEnd := if e.op.isSome then some e.fail else none

end TransportEnd

inductive Side
  | client
  | server
  deriving DecidableEq

def Side.peer : Side → Side
  | client => server
  | server => client

/-- Two ends, and every sealing call of both. -/
structure TransportPair where
  ends : Side → TransportEnd
  seals : List SealRecord

inductive TransportInput
  | call (side : Side) (c : TransportCall)
  | written (side : Side)
  | receive (side : Side) (header body : Bytes)
  | abort (side : Side)

namespace TransportPair
variable (P : Primitives)

/-- Two ends with matching keys. -/
def new (clientKey serverKey : Bytes) : TransportPair where
  ends
    | .client => .new clientKey serverKey
    | .server => .new serverKey clientKey
  seals := []

def set (s : TransportPair) (side : Side) (e : TransportEnd) (records : List SealRecord) :
    TransportPair :=
  ⟨Function.update s.ends side e, records ++ s.seals⟩

def step (s : TransportPair) : TransportInput → Option TransportPair
  | .call side c => ((s.ends side).call P c).map fun out => s.set side out.1 out.2
  | .written side => ((s.ends side).written P).map fun out => s.set side out.1 out.2
  | .receive side header body =>
    ((s.ends side).receive P header body).map fun e => s.set side e []
  | .abort side => (s.ends side).abort.map fun e => s.set side e []

/-- The adversary does not forge: the frame that an end gets does not open, or was sealed
under the key and the nonce that it is opened with. -/
def Unforged (s : TransportPair) : TransportInput → Prop
  | .receive side header body =>
    let session := (s.ends side).session
    let nonce := makeNonce session.recvCounter
    let cipher := SecureTransportSession.cipherOf header body
    let tag := SecureTransportSession.tagOf header body
    P.decrypt session.recvKey nonce [] cipher tag = none ∨
      ∃ record ∈ s.seals, record.key = session.recvKey ∧ record.nonce = nonce ∧
        record.cipher = cipher ∧ record.tag = tag
  | _ => True

instance (s : TransportPair) : (i : TransportInput) → Decidable (s.Unforged P i)
  | .receive side header body => inferInstanceAs (Decidable
      (P.decrypt (s.ends side).session.recvKey (makeNonce (s.ends side).session.recvCounter) []
        (SecureTransportSession.cipherOf header body)
        (SecureTransportSession.tagOf header body) = none ∨
      ∃ record ∈ s.seals, record.key = (s.ends side).session.recvKey ∧
        record.nonce = makeNonce (s.ends side).session.recvCounter ∧
        record.cipher = SecureTransportSession.cipherOf header body ∧
        record.tag = SecureTransportSession.tagOf header body))
  | .call _ _ | .written _ | .abort _ => inferInstanceAs (Decidable True)

end TransportPair

end AnonGuard
