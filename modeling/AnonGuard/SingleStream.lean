import AnonGuard.Session
import AnonGuard.Transition

/-!
# One stream over an onion circuit

`stream_onion_circuit` at the client and the exit mode of `handle_relay_inner`
carry one stream without a session. The client runs two futures: `fwd` packs
what the application writes into cells at the pace of a clock, and `bwd` writes
what arrives to the application. They share the send window and a channel for
acknowledgements. The exit is one loop over the client's cells, a reader task of
the destination and a clock. Each wait of the code is a point of the model, and
the circuit between the two delivers whole cells in order.
-/
namespace AnonGuard

/-- The errors of the two loops: their own, those of the layers they call, and
reads and writes that failed or timed out. -/
inductive StreamError
  | responseOrigin | streamIdentifier | receiveCount | controlClosed | backwardCommand
  | lifetimeExpired | idleDeadline
  | window (error : WindowError)
  | circuit (error : CircuitError)
  | cellPayload (length : ℕ)
  | read
  | write
  deriving DecidableEq, Repr

/-- The texts of the errors that the two loops raise themselves. -/
def StreamError.message : StreamError → Option String
  | responseOrigin => some "Stream response originated before the selected exit"
  | streamIdentifier => some "Wrong onion stream identifier"
  | receiveCount => some "Receive data counter exhausted"
  | controlClosed => some "Forward control channel closed"
  | backwardCommand => some "Unexpected backward onion command"
  | lifetimeExpired =>
    some "Circuit lifetime expired; reconnect without replaying application data"
  | idleDeadline => some "Exit stream idle deadline exceeded"
  | window error => some error.message
  | circuit _ | cellPayload _ | read | write => none

/-- Where `fwd` waits: in its `select!`, for the write of a cell, or not at all. -/
inductive ForwardPoint
  | select
  | write (cell : SessionCell)
  | done
  deriving DecidableEq, Repr

/-- Where `bwd` waits: for a frame, for the application to take the rest of a
cell, for room in the channel, or for the application's socket to shut down. -/
inductive BackwardPoint
  | read
  | write (rest : Bytes)
  | ack (value : ℕ)
  | shutdown
  deriving DecidableEq, Repr

/-- The variables of `stream_onion_circuit`. `forwardError` is the error that
`fwd` ended with while `bwd` is drained. `taken` and `wrote` are histories: the
data cells received and the bytes that the application took. -/
structure StreamClient where
  exitIndex : ℕ
  sequenceNo : ℕ
  window : SendWindow
  acks : Channel ℕ
  forward : ForwardPoint
  buffer : Bytes
  uploadOpen : Bool
  endSent : Bool
  pendingAck : Option ℕ
  preferData : Bool
  backward : BackwardPoint
  received : ℕ
  forwardError : Option StreamError
  result : Option (Except StreamError Unit)
  taken : List Bytes
  wrote : Bytes

/-- A step of the client that involves no cell of the circuit. -/
inductive ClientInput
  | takeAck
  | clock
  | upload (data : Bytes)
  | uploadError
  | writeError
  | readError
  | put (n : ℕ)
  | putError
  | sendAck
  | shutdown (ok : Bool)
  | drainTimeout
  | lifetime
  deriving DecidableEq, Repr

namespace StreamClient

def INPUT : ℕ := 8192
def BUFFER : ℕ := 65536

def new (exitIndex sequenceNo : ℕ) : StreamClient where
  exitIndex := exitIndex
  sequenceNo := sequenceNo
  window := ⟨0, 0⟩
  acks := .new 4
  forward := .select
  buffer := []
  uploadOpen := true
  endSent := false
  pendingAck := none
  preferData := false
  backward := .read
  received := 0
  forwardError := none
  result := none
  taken := []
  wrote := []

/-- `fwd` returns an error, which drops its end of the channel. -/
def failForward (c : StreamClient) (e : StreamError) : StreamClient :=
  { c with forward := .done, forwardError := some e, acks := c.acks.dropReceiver }

/-- `bwd` returns an error. A drain reports the error of `fwd` instead. -/
def failBackward (c : StreamClient) (e : StreamError) : StreamClient :=
  { c with result := some (.error (c.forwardError.getD e)) }

/-- `write_client_cell` up to its write: the cell must fit and the circuit's
counter must not be used up. -/
def writeClientCell (c : StreamClient) (command : CellCommand) (payload : Bytes) : StreamClient :=
  if payload.length > PAYLOAD_SIZE then c.failForward (.cellPayload payload.length)
  else if c.sequenceNo < Endpoint.sequenceLimit true then
    { c with sequenceNo := c.sequenceNo + 1, forward := .write ⟨command, 1, payload⟩ }
  else c.failForward (.circuit .sequenceExhausted)

/-- The clock branch of `fwd`. -/
def clock (c : StreamClient) : StreamClient :=
  let c := { c with preferData := !c.preferData }
  let dataReady := !c.buffer.isEmpty && c.window.available
  match if !dataReady || !c.preferData then c.pendingAck else none with
  | some ack => { c with pendingAck := none }.writeClientCell .dataAck (toBe 4 ack)
  | none =>
    if !c.uploadOpen && c.buffer.isEmpty && !c.endSent then c.writeClientCell .end []
    else if dataReady then
      let bytes := c.buffer.take PAYLOAD_SIZE
      let c := { c with buffer := c.buffer.drop PAYLOAD_SIZE }
      match c.window.countSent with
      | .error e => c.failForward (.window e)
      | .ok window => { c with window := window }.writeClientCell .data bytes
    else c.writeClientCell .dummy []

/-- The cell has been written. -/
def flushed (c : StreamClient) (cell : SessionCell) : StreamClient :=
  { c with forward := .select, endSent := c.endSent || cell.command == .end }

/-- The next acknowledgement, which the biased `select!` of `fwd` looks for first. -/
def takeAck (c : StreamClient) : Option StreamClient :=
  match c.acks.tryRecv with
  | .ok (ack, acks) => some { c with acks := acks, pendingAck := some ack }
  | .error .disconnected => some { c with result := some (.ok ()) }
  | .error .empty => none

/-- Whether the branch of `fwd` that reads from the application is open. -/
def reads (c : StreamClient) : Bool :=
  c.forward == .select && c.acks.queue.isEmpty && c.uploadOpen &&
    decide (c.buffer.length ≤ BUFFER - INPUT)

/-- The branch of `fwd` that reads from the application. -/
def upload (c : StreamClient) (data : Bytes) : StreamClient :=
  if data = [] then { c with uploadOpen := false } else { c with buffer := c.buffer ++ data }

/-- `bwd` on a frame: the hop that sealed it and its cell. -/
def receive (c : StreamClient) (frame : ℕ × SessionCell) : StreamClient :=
  if frame.1 ≠ c.exitIndex then c.failBackward .responseOrigin
  else if frame.2.id ≠ 1 ∧ frame.2.command ≠ .destroy then c.failBackward .streamIdentifier
  else
    match frame.2.command with
    | .data => { c with backward := .write frame.2.data, taken := c.taken ++ [frame.2.data] }
    | .dataAck =>
      match c.window.acknowledge frame.2.data with
      | .error e => c.failBackward (.window e)
      | .ok window => { c with window := window }
    | .destroy => { c with backward := .shutdown }
    | .dummy => c
    | _ => c.failBackward .backwardCommand

/-- The application takes up to `n` more bytes of a cell. -/
def put (c : StreamClient) (n : ℕ) : Option StreamClient :=
  match c.backward with
  | .write rest =>
    if n < rest.length then
      some { c with backward := .write (rest.drop n), wrote := c.wrote ++ rest.take n }
    else if c.received + 1 < U32_SIZE then
      some { c with
        backward := .ack (c.received + 1)
        wrote := c.wrote ++ rest
        received := c.received + 1 }
    else some { c.failBackward .receiveCount with backward := .write [], wrote := c.wrote ++ rest }
  | _ => none

/-- The new count goes into the channel, or waits for room there. -/
def sendAck (c : StreamClient) : Option StreamClient :=
  match c.backward with
  | .ack value =>
    match c.acks.trySend value with
    | .ok acks => some { c with backward := .read, acks := acks }
    | .error .closed => some (c.failBackward .controlClosed)
    | .error .full => none
  | _ => none

/-- The last wait of `bwd`. -/
def shutdown (c : StreamClient) (ok : Bool) : Option StreamClient :=
  match c.backward with
  | .shutdown =>
    some (if ok then { c with result := some (.ok ()) } else c.failBackward .write)
  | _ => none

/-- One step of the client; `none` if the input is not enabled. -/
def step (c : StreamClient) (i : ClientInput) : Option StreamClient :=
  if c.result.isSome = true then none
  else
    match i with
    | .takeAck => if c.forward = .select then c.takeAck else none
    | .clock => if c.forward = .select ∧ c.acks.queue = [] then some c.clock else none
    | .upload data => if c.reads = true ∧ data.length ≤ INPUT then some (c.upload data) else none
    | .uploadError => if c.reads = true then some (c.failForward .read) else none
    | .writeError =>
      match c.forward with
      | .write _ => some (c.failForward .write)
      | _ => none
    | .readError => if c.backward = .read then some (c.failBackward .read) else none
    | .put n => c.put n
    | .putError =>
      match c.backward with
      | .write _ => some (c.failBackward .write)
      | _ => none
    | .sendAck => c.sendAck
    | .shutdown ok => c.shutdown ok
    | .drainTimeout => c.forwardError.map fun e => { c with result := some (.error e) }
    | .lifetime =>
      if c.forwardError = none then some { c with result := some (.error .lifetimeExpired) } else none

end StreamClient

/-- Where the exit loop waits: in its `select!`, for the destination to take the
rest of a cell or to shut down, or for the write of a cell. -/
inductive ExitPoint
  | select
  | upload (rest : Bytes)
  | shutdown
  | write (cell : SessionCell)
  | destroy
  deriving DecidableEq, Repr

/-- Where the destination reader waits. -/
inductive ReaderTask
  | read
  | send (chunk : Bytes)
  | gone
  deriving DecidableEq, Repr

/-- The variables of the exit mode and its reader task. `delivered` and
`uploaded` are histories: the chunks that the reader put into its channel, and
the bytes that the destination took. -/
structure StreamExit where
  hopIndex : ℕ
  sequenceNo : ℕ
  window : SendWindow
  uploadClosed : Bool
  receivedData : ℕ
  destinationEof : Bool
  pendingExitData : Option Bytes
  pendingExitAck : Option ℕ
  preferExitData : Bool
  lastProgress : ℕ
  point : ExitPoint
  chunks : Channel Bytes
  reader : ReaderTask
  result : Option (Except StreamError Unit)
  delivered : List Bytes
  uploaded : Bytes

/-- A step of the exit that involves no cell of the circuit. -/
inductive ExitInput
  | linkClosed
  | idle
  | chunk (now : ℕ)
  | clock (now : ℕ)
  | put (n : ℕ)
  | putError
  | shutdown (ok : Bool)
  | destroy
  | writeError
  | read (chunk : Bytes)
  | readEnd
  | send
  | readerClosed
  deriving DecidableEq, Repr

namespace StreamExit

def new (hopIndex sequenceNo start : ℕ) : StreamExit where
  hopIndex := hopIndex
  sequenceNo := sequenceNo
  window := ⟨0, 0⟩
  uploadClosed := false
  receivedData := 0
  destinationEof := false
  pendingExitData := none
  pendingExitAck := none
  preferExitData := false
  lastProgress := start
  point := .select
  chunks := .new 4
  reader := .read
  result := none
  delivered := []
  uploaded := []

/-- The loop ends, which drops its end of the reader's channel. -/
def ended (x : StreamExit) (result : Except StreamError Unit) : StreamExit :=
  { x with result := some result, chunks := x.chunks.dropReceiver }

/-- `break`. -/
def leave (x : StreamExit) : StreamExit := x.ended (.ok ())

/-- The check at the top of the loop. -/
def finished (x : StreamExit) : Bool :=
  x.destinationEof && x.window.drained && x.pendingExitData.isNone && x.pendingExitAck.isNone

/-- `OnionCell::new` and `wrap_backward_originate`: the cell must fit and the
relay's counter must not be used up. -/
def originate (x : StreamExit) (cell : SessionCell) (point : ExitPoint) :
    Except StreamError StreamExit :=
  if cell.data.length > PAYLOAD_SIZE then .error (.cellPayload cell.data.length)
  else if x.sequenceNo < Endpoint.sequenceLimit false then
    .ok { x with sequenceNo := x.sequenceNo + 1, point := point }
  else .error (.circuit .sequenceExhausted)

def writeCell (x : StreamExit) (cell : SessionCell) : Except StreamError StreamExit :=
  x.originate cell (.write cell)

def destroyCell : SessionCell := ⟨.destroy, 1, []⟩

/-- The branch of the loop that takes a cell of the client. -/
def receive (x : StreamExit) (now : ℕ) (cell : SessionCell) : StreamExit :=
  match cell.command with
  | .data =>
    if x.uploadClosed then x.leave else { x with lastProgress := now, point := .upload cell.data }
  | .dataAck =>
    match x.window.acknowledge cell.data with
    | .error e => x.ended (.error (.window e))
    | .ok window => { x with window := window, lastProgress := now }
  | .end => if x.uploadClosed then x.leave else { x with uploadClosed := true, point := .shutdown }
  | .dummy => x
  | _ => x.leave

/-- The destination takes up to `n` more bytes of a cell. -/
def put (x : StreamExit) (n : ℕ) : Option StreamExit :=
  match x.point with
  | .upload rest =>
    if n < rest.length then
      some { x with point := .upload (rest.drop n), uploaded := x.uploaded ++ rest.take n }
    else if x.receivedData + 1 < U32_SIZE then
      some { x with
        point := .select
        uploaded := x.uploaded ++ rest
        receivedData := x.receivedData + 1
        pendingExitAck := some (x.receivedData + 1) }
    else some ({ x with uploaded := x.uploaded ++ rest }.ended (.error .receiveCount))
  | _ => none

/-- The branch of the loop that takes a chunk of the reader. -/
def takeChunk (x : StreamExit) (now : ℕ) : Option StreamExit :=
  match x.chunks.tryRecv with
  | .ok (chunk, chunks) =>
    some { x with chunks := chunks, pendingExitData := some chunk, lastProgress := now }
  | .error .disconnected => some { x with destinationEof := true }
  | .error .empty => none

/-- The clock branch. -/
def clock (x : StreamExit) (now : ℕ) : Except StreamError StreamExit :=
  if seconds 60 ≤ now - x.lastProgress then .error .idleDeadline
  else
    let x := { x with preferExitData := !x.preferExitData }
    let dataReady := x.pendingExitData.isSome && x.window.available
    match if !dataReady || !x.preferExitData then x.pendingExitAck else none with
    | some ack => { x with pendingExitAck := none }.writeCell ⟨.dataAck, 1, toBe 4 ack⟩
    | none =>
      match if x.window.available then x.pendingExitData else none with
      | some data =>
        match x.window.countSent with
        | .error e => .error (.window e)
        | .ok window =>
          { x with window := window, pendingExitData := none }.writeCell ⟨.data, 1, data⟩
      | none => x.writeCell ⟨.dummy, 1, []⟩

/-- A branch that returns an error ends the loop. -/
def orEnd (x : StreamExit) : Except StreamError StreamExit → StreamExit
  | .error e => x.ended (.error e)
  | .ok x' => x'

/-- The loop waits in its `select!`. -/
def selecting (x : StreamExit) : Bool := x.result.isNone && x.point == .select && !x.finished

/-- A step of the loop or of the reader. -/
def step (x : StreamExit) : ExitInput → Option StreamExit
  | .linkClosed | .idle => if x.selecting then some x.leave else none
  | .chunk now =>
    if x.selecting ∧ x.pendingExitData = none ∧ x.destinationEof = false then x.takeChunk now
    else none
  | .clock now => if x.selecting then some (x.orEnd (x.clock now)) else none
  | .put n => if x.result = none then x.put n else none
  | .putError =>
    match x.point with
    | .upload _ => if x.result = none then some x.leave else none
    | _ => none
  | .shutdown ok =>
    if x.result = none ∧ x.point = .shutdown then
      some (if ok then { x with point := .select } else x.leave)
    else none
  | .destroy =>
    if x.result = none ∧ x.point = .select ∧ x.finished = true then
      some (x.orEnd (x.originate destroyCell .destroy))
    else none
  | .writeError =>
    match x.point with
    | .write _ | .destroy => if x.result = none then some (x.ended (.error .write)) else none
    | _ => none
  | .read chunk =>
    if x.reader = .read ∧ chunk ≠ [] ∧ chunk.length ≤ PAYLOAD_SIZE then
      some { x with reader := .send chunk }
    else none
  | .readEnd =>
    if x.reader = .read then some { x with reader := .gone, chunks := x.chunks.dropSender } else none
  | .send =>
    match x.reader with
    | .send chunk =>
      match x.chunks.trySend chunk with
      | .ok chunks =>
        some { x with chunks := chunks, reader := .read, delivered := x.delivered ++ [chunk] }
      | .error .closed => some { x with reader := .gone, chunks := x.chunks.dropSender }
      | .error .full => none
    | _ => none
  | .readerClosed =>
    if x.reader = .read ∧ x.chunks.receiverOpen = false then
      some { x with reader := .gone, chunks := x.chunks.dropSender }
    else none

end StreamExit

/-- The two ends of a stream and the cells between them. A backward cell comes
with the index of the hop that sealed it. -/
structure StreamPair where
  client : StreamClient
  exit : StreamExit
  forward : List SessionCell
  backward : List (ℕ × SessionCell)

inductive StreamInput
  | client (i : ClientInput)
  | exit (i : ExitInput)
  | clientFlush
  | clientReceive
  | exitFlush
  | exitReceive (now : ℕ)
  deriving DecidableEq, Repr

namespace StreamPair

/-- The stream of a circuit whose exit is hop `exitIndex`. The two counters are what
the setup of the circuit has left, and `start` is the time at which it began. -/
def new (exitIndex clientSequence exitSequence start : ℕ) : StreamPair where
  client := .new exitIndex clientSequence
  exit := .new exitIndex exitSequence start
  forward := []
  backward := []

def step (s : StreamPair) : StreamInput → Option StreamPair
  | .client i => (s.client.step i).map fun c => { s with client := c }
  | .exit i => (s.exit.step i).map fun x => { s with exit := x }
  | .clientFlush =>
    match s.client.forward with
    | .write cell =>
      if s.client.result = none then
        some { s with client := s.client.flushed cell, forward := s.forward ++ [cell] }
      else none
    | _ => none
  | .clientReceive =>
    match s.backward with
    | [] => none
    | frame :: rest =>
      if s.client.result = none ∧ s.client.backward = .read then
        some { s with client := s.client.receive frame, backward := rest }
      else none
  | .exitFlush =>
    match s.exit.point with
    | .write cell =>
      if s.exit.result = none then
        some { s with
          exit := { s.exit with point := .select }
          backward := s.backward ++ [(s.exit.hopIndex, cell)] }
      else none
    | .destroy =>
      if s.exit.result = none then
        some { s with
          exit := s.exit.leave
          backward := s.backward ++ [(s.exit.hopIndex, StreamExit.destroyCell)] }
      else none
    | _ => none
  | .exitReceive now =>
    match s.forward with
    | [] => none
    | cell :: rest =>
      if s.exit.selecting = true then
        some { s with exit := s.exit.receive now cell, forward := rest }
      else none

end StreamPair

end AnonGuard
