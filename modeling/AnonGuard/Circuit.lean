import AnonGuard.Cell

/-!
# Layered onion circuits

The client seals each forward cell for the last hop and adds one stream layer
for every earlier hop; a relay either opens the cell or strips its own layer.
In the other direction the originating relay seals, every relay on the way adds
a layer and the client strips as many layers as the packed sequence number says.

The two ciphers are third-party code. They are a parameter, with the laws that
the program's buffer types give: sealing keeps the length and tags have 16
octets. What opening accepts is stated where it is needed. A method on `&mut self` returns the
state next to its result, on the error paths as well.
-/
namespace AnonGuard

def MAX_HOPS : ℕ := 8
def BWD_COUNTER_BITS : UInt32 := 29
def BWD_COUNTER_MASK : UInt32 := (1 <<< BWD_COUNTER_BITS) - 1
def MAX_SEQ_GAP : ℕ := 1000

inductive CircuitError
  | hopIndexOutOfRange (index : ℕ)
  | sequenceExhausted
  | macVerificationFailed
  | antiReplayRejection (reason : String)
  | payloadTooShort
  | parseError (reason : String)
  | invalidCircuitId
  | general (reason : String)
  | keyDerivationFailed
  | unpinnedRelay
  deriving DecidableEq, Repr

/-- ChaCha20-Poly1305 with a detached tag, and the ChaCha20 keystream. -/
structure Primitives where
  encrypt : (key nonce aad plain : Bytes) → Bytes × Bytes
  decrypt : (key nonce aad cipher tag : Bytes) → Option Bytes
  keystream : (key nonce : Bytes) → ℕ → UInt8
  length_encrypt : ∀ key nonce aad plain, (encrypt key nonce aad plain).1.length = plain.length
  length_tag : ∀ key nonce aad plain, (encrypt key nonce aad plain).2.length = 16
  length_decrypt : ∀ key nonce aad cipher tag plain,
    decrypt key nonce aad cipher tag = some plain → plain.length = cipher.length

/-- The arguments and the result of one sealing call. -/
structure SealRecord where
  key : Bytes
  nonce : Bytes
  aad : Bytes
  plain : Bytes
  cipher : Bytes
  tag : Bytes
  deriving DecidableEq, Repr

namespace Primitives

/-- Opening gives back every sealed buffer. -/
def Correct (P : Primitives) : Prop := ∀ key nonce aad plain,
  P.decrypt key nonce aad (P.encrypt key nonce aad plain).1 (P.encrypt key nonce aad plain).2 =
    some plain

/-- The ideal AEAD of a run in which exactly the calls of `log` sealed something
under the listed keys: it opens what was sealed and rejects everything else,
in particular every buffer that was sealed under another key. -/
structure IdealOn (P : Primitives) (keys : List Bytes) (log : List SealRecord) : Prop where
  opens : ∀ r ∈ log, P.decrypt r.key r.nonce r.aad r.cipher r.tag = some r.plain
  rejects : ∀ key ∈ keys, ∀ nonce aad cipher tag, P.decrypt key nonce aad cipher tag ≠ none →
    ∃ r ∈ log, r.key = key ∧ r.nonce = nonce ∧ r.aad = aad ∧ r.cipher = cipher ∧ r.tag = tag

end Primitives

structure HopKeys where
  forwardKey : Bytes
  backwardKey : Bytes
  forwardAeadKey : Bytes
  backwardAeadKey : Bytes
  deriving DecidableEq, Repr

def buildNonce (direction : UInt8) (circuitId sequenceNo : UInt32) : Bytes :=
  [direction, 0, 0, 0] ++ be32 circuitId ++ be32 sequenceNo

def packBackwardSeq (hopIndex : ℕ) (counter : UInt32) : Except CircuitError UInt32 :=
  if hopIndex ≥ MAX_HOPS then .error (.hopIndexOutOfRange hopIndex)
  else if counter > BWD_COUNTER_MASK then .error .sequenceExhausted
  else .ok ((UInt32.ofNat hopIndex <<< BWD_COUNTER_BITS) ||| counter)

/-- The hop that the top bits of a backward sequence number name. -/
def claimedHop (seq : UInt32) : ℕ := (seq >>> BWD_COUNTER_BITS).toNat

namespace Frame

theorem length_plain (f : Frame) : f.plain.length = SEALED_SIZE := by
  simp [plain, BODY_SIZE, SEALED_SIZE, ONION_CELL_SIZE]

theorem length_tag (f : Frame) : f.tag.length = 16 := by
  simp [tag, BODY_SIZE, SEALED_SIZE, ONION_CELL_SIZE]

variable (P : Primitives) {key nonce : Bytes}

lemma length_encrypt_append (key nonce : Bytes) (f : Frame) :
    ((P.encrypt key nonce f.aad f.plain).1 ++
      (P.encrypt key nonce f.aad f.plain).2).length = BODY_SIZE := by
  rw [List.length_append, P.length_encrypt, P.length_tag, length_plain]
  rfl

lemma length_append_tag (f : Frame) {plain : Bytes} (h : plain.length = SEALED_SIZE) :
    (plain ++ f.tag).length = BODY_SIZE := by
  rw [List.length_append, h, length_tag]
  rfl

/-- Seal the plaintext region in place and store the tag. -/
def sealWith (key nonce : Bytes) (f : Frame) : Frame :=
  f.withBody _ (length_encrypt_append P key nonce f)

/-- Open the sealed region in place. The tag octets stay as they are. -/
def openWith (key nonce : Bytes) (f : Frame) : Option Frame :=
  (P.decrypt key nonce f.aad f.plain f.tag).bind fun plain =>
    if h : plain.length = SEALED_SIZE then some (f.withBody _ (f.length_append_tag h)) else none

/-- `apply_keystream` on the octets from 8 on. -/
def streamWith (key nonce : Bytes) (f : Frame) : Frame :=
  f.withBody (xorStream (P.keystream key nonce) f.body)
    ((length_xorStream _ _).trans f.length_body)

@[simp] theorem circuitId_sealWith (key nonce : Bytes) (f : Frame) :
    (f.sealWith P key nonce).circuitId = f.circuitId := by simp [sealWith]

@[simp] theorem aad_sealWith (key nonce : Bytes) (f : Frame) :
    (f.sealWith P key nonce).aad = f.aad := by simp [sealWith]

@[simp] theorem circuitId_streamWith (key nonce : Bytes) (f : Frame) :
    (f.streamWith P key nonce).circuitId = f.circuitId := by simp [streamWith]

@[simp] theorem aad_streamWith (key nonce : Bytes) (f : Frame) :
    (f.streamWith P key nonce).aad = f.aad := by simp [streamWith]

@[simp] theorem body_streamWith (key nonce : Bytes) (f : Frame) :
    (f.streamWith P key nonce).body = xorStream (P.keystream key nonce) f.body := by
  simp [streamWith]

theorem plain_sealWith (key nonce : Bytes) (f : Frame) :
    (f.sealWith P key nonce).plain = (P.encrypt key nonce f.aad f.plain).1 := by
  have hl : (P.encrypt key nonce f.aad f.plain).1.length = SEALED_SIZE := by
    rw [P.length_encrypt, length_plain]
  rw [sealWith, Frame.plain, body_withBody]
  exact List.take_left' hl

theorem tag_sealWith (key nonce : Bytes) (f : Frame) :
    (f.sealWith P key nonce).tag = (P.encrypt key nonce f.aad f.plain).2 := by
  have hl : (P.encrypt key nonce f.aad f.plain).1.length = SEALED_SIZE := by
    rw [P.length_encrypt, length_plain]
  rw [sealWith, Frame.tag, body_withBody]
  exact List.drop_left' hl

/-- What opening returns: the plaintext in place, the header as it was. -/
theorem openWith_eq_some {f g : Frame} (h : f.openWith P key nonce = some g) :
    P.decrypt key nonce f.aad f.plain f.tag = some g.plain ∧ g.circuitId = f.circuitId ∧
      g.aad = f.aad := by
  obtain ⟨plain, hp, hg⟩ := Option.bind_eq_some_iff.mp h
  have hl : plain.length = SEALED_SIZE := by
    rw [P.length_decrypt _ _ _ _ _ _ hp, length_plain]
  rw [dif_pos hl] at hg
  cases hg
  refine ⟨?_, by simp, by simp⟩
  rw [hp, Frame.plain, body_withBody, List.take_left' hl]

theorem openWith_eq_none {f : Frame} :
    f.openWith P key nonce = none ↔ P.decrypt key nonce f.aad f.plain f.tag = none := by
  constructor
  · intro h
    cases hp : P.decrypt key nonce f.aad f.plain f.tag with
    | none => rfl
    | some plain =>
      have hl : plain.length = SEALED_SIZE := by
        rw [P.length_decrypt _ _ _ _ _ _ hp, length_plain]
      simp [openWith, hp, hl] at h
  · intro h
    simp [openWith, h]

/-- Opening undoes sealing, also after the circuit id was rewritten. -/
theorem openWith_of_body {f g : Frame}
    (hopen : P.decrypt key nonce f.aad (P.encrypt key nonce f.aad f.plain).1
      (P.encrypt key nonce f.aad f.plain).2 = some f.plain)
    (haad : g.aad = f.aad) (hbody : g.body = (f.sealWith P key nonce).body) :
    ∃ o, g.openWith P key nonce = some o ∧ o.plain = f.plain := by
  have hplain : g.plain = (P.encrypt key nonce f.aad f.plain).1 := by
    rw [← plain_sealWith]
    simp only [Frame.plain, hbody]
  have htag : g.tag = (P.encrypt key nonce f.aad f.plain).2 := by
    rw [← tag_sealWith]
    simp only [Frame.tag, hbody]
  have hd : P.decrypt key nonce g.aad g.plain g.tag = some f.plain := by
    rw [haad, hplain, htag, hopen]
  cases ho : g.openWith P key nonce with
  | none =>
    rw [openWith_eq_none, hd] at ho
    cases ho
  | some o =>
    obtain ⟨hp, _⟩ := openWith_eq_some P ho
    rw [hd] at hp
    exact ⟨o, rfl, (Option.some.inj hp).symm⟩

end Frame

namespace HopKeys

variable (P : Primitives)

def sealForward (k : HopKeys) (nonce : Bytes) (f : Frame) : Frame :=
  f.sealWith P k.forwardAeadKey nonce

def openForward (k : HopKeys) (nonce : Bytes) (f : Frame) : Except CircuitError Frame :=
  (f.openWith P k.forwardAeadKey nonce).elim (.error .macVerificationFailed) .ok

def sealBackward (k : HopKeys) (nonce : Bytes) (f : Frame) : Frame :=
  f.sealWith P k.backwardAeadKey nonce

def openBackward (k : HopKeys) (nonce : Bytes) (f : Frame) : Except CircuitError Frame :=
  (f.openWith P k.backwardAeadKey nonce).elim (.error .macVerificationFailed) .ok

def encryptForwardStream (k : HopKeys) (nonce : Bytes) (f : Frame) : Frame :=
  f.streamWith P k.forwardKey nonce

def encryptBackwardStream (k : HopKeys) (nonce : Bytes) (f : Frame) : Frame :=
  f.streamWith P k.backwardKey nonce

end HopKeys

/-- Anti-replay state of one originating hop, kept by the client. -/
structure ReplayWindow where
  window : BitVec 64
  nextExpected : UInt32
  deriving DecidableEq, Repr

namespace ReplayWindow

def new : ReplayWindow := ⟨0, 1⟩

def checkAndAdvance (w : ReplayWindow) (seq : UInt32) :
    Except CircuitError Unit × ReplayWindow :=
  let counter := seq &&& BWD_COUNTER_MASK
  if counter < w.nextExpected then
    let diff := (w.nextExpected - counter).toNat
    if diff > 64 ∨ w.window &&& (1#64 <<< (diff - 1)) ≠ 0 then
      (.error (.antiReplayRejection s!"Replay on sequence {seq}"), w)
    else (.ok (), { w with window := w.window ||| (1#64 <<< (diff - 1)) })
  else if counter = w.nextExpected then
    (.ok (), ⟨(w.window <<< 1) ||| 1#64, counter + 1⟩)
  else
    let diff := (counter - w.nextExpected).toNat
    if diff > MAX_SEQ_GAP then
      (.error (.antiReplayRejection s!"Sequence gap too large: {diff}"), w)
    else if diff ≥ 63 then (.ok (), ⟨1#64, counter + 1⟩)
    else (.ok (), ⟨(w.window <<< (diff + 1)) ||| 1#64, counter + 1⟩)

end ReplayWindow

structure OnionCircuit where
  circuitId : UInt32
  hops : List HopKeys
  sequenceNo : UInt32
  bwdReplayWindows : List ReplayWindow
  deriving DecidableEq, Repr

namespace OnionCircuit

def new (circuitId : UInt32) : OnionCircuit := ⟨circuitId, [], 1, []⟩

def addHop (c : OnionCircuit) (keys : HopKeys) : Except CircuitError Unit × OnionCircuit :=
  if c.hops.length ≥ MAX_HOPS then (.error (.hopIndexOutOfRange c.hops.length), c)
  else (.ok (), { c with
    hops := c.hops ++ [keys]
    bwdReplayWindows := c.bwdReplayWindows ++ [ReplayWindow.new] })

def hopCount (c : OnionCircuit) : ℕ := c.hops.length

/-- A fresh circuit with one `add_hop` call per key set. -/
def build (circuitId : UInt32) (keys : List HopKeys) : OnionCircuit :=
  keys.foldl (fun c k => (c.addHop k).2) (new circuitId)

variable (P : Primitives)

def wrapForward (c : OnionCircuit) (cell : OnionCell) :
    Except CircuitError Frame × OnionCircuit :=
  if c.sequenceNo.toNat = 2 ^ 32 - 1 then (.error .sequenceExhausted, c)
  else if cell.circuitId ≠ c.circuitId then (.error .invalidCircuitId, c)
  else
    match checkedSucc c.sequenceNo with
    | none => (.error .sequenceExhausted, c)
    | some next =>
      let nonce := buildNonce 1 0 c.sequenceNo
      let raw := (cell.numbered c.sequenceNo).serialize
      let raw := match c.hops.getLast? with
        | some target => target.sealForward P nonce raw
        | none => raw
      let hopCount := c.hops.length
      let raw := if hopCount > 1 then
          (c.hops.take (hopCount - 1)).reverse.foldl
            (fun raw hop => hop.encryptForwardStream P nonce raw) raw
        else raw
      (.ok raw, { c with sequenceNo := next })

def unwrapBackward (c : OnionCircuit) (raw : Frame) :
    Except CircuitError (ℕ × OnionCell) × OnionCircuit :=
  if raw.circuitId ≠ c.circuitId then (.error .invalidCircuitId, c)
  else
    let seq := raw.sequenceNo
    let hopIndex := claimedHop seq
    let nonce := buildNonce 2 0 seq
    match c.hops[hopIndex]?, c.bwdReplayWindows[hopIndex]? with
    | some target, some window =>
      let raw := (c.hops.take hopIndex).foldl
        (fun raw hop => hop.encryptBackwardStream P nonce raw) raw
      match target.openBackward P nonce raw with
      | .error e => (.error e, c)
      | .ok raw =>
        let advanced := window.checkAndAdvance seq
        let c := { c with bwdReplayWindows := c.bwdReplayWindows.set hopIndex advanced.2 }
        match advanced.1 with
        | .error e => (.error e, c)
        | .ok () =>
          match OnionCell.parse raw with
          | .error e => (.error (.parseError e), c)
          | .ok cell => (.ok (hopIndex, cell), c)
    | _, _ => (.error (.hopIndexOutOfRange hopIndex), c)

end OnionCircuit

/-- The relay's view of a circuit. -/
structure RelayCircuitHop where
  circuitId : UInt32
  contextId : UInt32
  keys : HopKeys
  expectedRecvSeq : UInt32
  nextSendSeq : UInt32
  hopIndex : ℕ
  deriving DecidableEq, Repr

inductive PeelOutcome
  | addressedToThisRelay (command : CellCommand) (len : ℕ)
  | forwardDownstream
  deriving DecidableEq, Repr

namespace RelayCircuitHop

def new (circuitId : UInt32) (keys : HopKeys) (hopIndex : ℕ) : RelayCircuitHop :=
  ⟨circuitId, circuitId, keys, 1, 1, hopIndex⟩

variable (P : Primitives)

/-- The checks that follow a successful open. All of them come before the
replay counter moves. -/
def acceptForward (r : RelayCircuitHop) (seq : UInt32) (raw : Frame) :
    Except CircuitError PeelOutcome × RelayCircuitHop :=
  if seq < r.expectedRecvSeq then
    (.error (.antiReplayRejection s!"Stale sequence {seq}"), r)
  else if seq.toNat - r.expectedRecvSeq.toNat > MAX_SEQ_GAP then
    (.error (.antiReplayRejection "Sequence gap too large"), r)
  else
    match checkedSucc seq with
    | none => (.error .sequenceExhausted, r)
    | some next =>
      let command := raw.bytes.getD 8 0
      match CellCommand.fromU8 command with
      | none => (.error (.parseError s!"Unknown cell command: {command}"), r)
      | some command =>
        let length := u16OfBe ((raw.bytes.drop 11).take 2)
        if length.toNat > PAYLOAD_SIZE then (.error .payloadTooShort, r)
        else (.ok (.addressedToThisRelay command (min length.toNat PAYLOAD_SIZE)),
          { r with expectedRecvSeq := next })

def peelForward (r : RelayCircuitHop) (raw : Frame) :
    Except CircuitError PeelOutcome × Frame × RelayCircuitHop :=
  if raw.circuitId ≠ r.circuitId then (.error .invalidCircuitId, raw, r)
  else
    let seq := raw.sequenceNo
    let nonce := buildNonce 1 0 seq
    match r.keys.openForward P nonce raw with
    | .ok opened =>
      let accepted := r.acceptForward seq opened
      (accepted.1, opened, accepted.2)
    | .error _ => (.ok .forwardDownstream, r.keys.encryptForwardStream P nonce raw, r)

def wrapBackwardRelay (r : RelayCircuitHop) (raw : Frame) : Except CircuitError Frame :=
  let seq := raw.sequenceNo
  if claimedHop seq = r.hopIndex then
    .error (.antiReplayRejection "Relayed cell claims our hop index")
  else .ok (r.keys.encryptBackwardStream P (buildNonce 2 0 seq) raw)

def wrapBackwardOriginate (r : RelayCircuitHop) (raw : Frame) :
    Except CircuitError Frame × RelayCircuitHop :=
  let counter := r.nextSendSeq
  match checkedSucc counter with
  | none => (.error .sequenceExhausted, r)
  | some next =>
    let r := { r with nextSendSeq := next }
    match packBackwardSeq r.hopIndex counter with
    | .error e => (.error e, r)
    | .ok seq => (.ok (r.keys.sealBackward P (buildNonce 2 0 seq) (raw.withSequence seq)), r)

/-- Intermediate relay, client to exit: peel, then address the successor's link. -/
def relayForward (r : RelayCircuitHop) (downstreamId : UInt32) (raw : Frame) :
    Except CircuitError PeelOutcome × Frame × RelayCircuitHop :=
  let peeled := r.peelForward P raw
  match peeled.1 with
  | .ok .forwardDownstream => (peeled.1, peeled.2.1.withId downstreamId, peeled.2.2)
  | _ => peeled

/-- Intermediate relay, exit to client: check the link id, rewrite it and add a
layer. `none` is the `break` that ends the relay loop. -/
def relayBackward (r : RelayCircuitHop) (downstreamId : UInt32) (raw : Frame) : Option Frame :=
  if raw.circuitId ≠ downstreamId then none
  else (r.wrapBackwardRelay P (raw.withId r.circuitId)).toOption

end RelayCircuitHop

end AnonGuard
