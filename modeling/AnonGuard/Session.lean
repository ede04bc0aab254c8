import AnonGuard.Circuit
import AnonGuard.SessionWorkers
import Std.Data.TreeMap

/-!
# The actor loop of a padded session

`run` is one loop over a `select!` of the clock, open requests, worker events
and incoming frames. Each branch is a function on `Endpoint`, and `step` takes
one branch or one step of a background task, in any order. Times are
nanoseconds since the session started; the time of every branch, the result of
every write and the sampled intervals are inputs. A cell is what the circuit
layer delivers, so the only trace of the ciphers is the sequence counter.
-/
namespace AnonGuard

def MAX_STREAMS : ℕ := 16
def MAX_CONTROLS : ℕ := 64
def MAX_IDS : ℕ := 1024
def BUCKET : ℕ := 64
def LIFETIME : ℕ := seconds 300

/-- The receive budget counts billionths of a cell, of which 250 accrue in one
nanosecond. -/
@[irreducible] def CELL_COST : ℕ := 10 ^ 9
def BURST : ℕ := 512 * CELL_COST

inductive Profile
  | balanced | longTail | fixedWindow | strict | rmt | poisson
  deriving DecidableEq, Repr

namespace Profile

/-- The values of `interval`. The two research profiles sample theirs between
the bounds of `onion_interval`. -/
def mayWait (p : Profile) (t : ℕ) : Bool :=
  match p with
  | balanced | longTail => t == millis 40
  | strict | fixedWindow => t == millis 20
  | rmt | poisson => decide (millis 5 ≤ t) && decide (t ≤ millis 100)

def canFinish (p : Profile) (age idle cells : ℕ) : Bool :=
  if p = fixedWindow then decide (seconds 120 ≤ age) && (cells + 1) % 6000 == 0
  else
    let quantum := if p = longTail then 60 else 30
    let minimumIdle := if p = longTail then 20 else 10
    let lastActivity := (age - idle) / seconds 1
    let earliest := max ((lastActivity + minimumIdle + quantum - 1) / quantum * quantum) quantum
    decide (seconds earliest ≤ age) && decide (seconds minimumIdle ≤ idle) &&
      (cells + 1) % BUCKET == 0

/-- The number of cells to which a finished direction is padded. -/
def bucket (p : Profile) : ℕ := if p = fixedWindow then 6000 else BUCKET

theorem bucket_dvd_of_canFinish {p : Profile} {age idle cells : ℕ}
    (h : p.canFinish age idle cells = true) : p.bucket ∣ cells + 1 := by
  unfold canFinish at h
  unfold bucket
  split_ifs at h ⊢ <;> simp only [Bool.and_eq_true, beq_iff_eq] at h <;>
    exact Nat.dvd_of_mod_eq_zero h.2

end Profile

/-- The messages that `run` passes to `invalid`. -/
inductive SessionFault
  | lifetimeExpired | controlBudget | missingStream | cellCount | ownerClosed | streamBudget
  | emptyTarget | writeAcknowledgement | connectCompletion | truncated | receiveRate
  | noncanonicalDestination | unknownOpened | duplicateOpened | missingReply | missingApplication
  | unknownRefused | refusalAfterAccept | unknownData | receiveCredit | receiveCount | receiveQueue
  | unknownAck | earlyAck | unknownEnd | duplicateEnd | endQueue | commandOrState
  deriving DecidableEq, Repr

def SessionFault.message : SessionFault → String
  | lifetimeExpired => "Session lifetime expired; no replay"
  | controlBudget => "Session control budget exhausted"
  | missingStream => "Missing stream"
  | cellCount => "Cell count exhausted"
  | ownerClosed => "Session owner closed"
  | streamBudget => "Session stream budget exhausted"
  | emptyTarget => "Empty target or zero port"
  | writeAcknowledgement => "Invalid write acknowledgement"
  | connectCompletion => "Unexpected connect completion"
  | truncated => "Padded session truncated"
  | receiveRate => "Session receive rate budget exhausted"
  | noncanonicalDestination => "Noncanonical session destination"
  | unknownOpened => "Unknown opened stream"
  | duplicateOpened => "Duplicate stream open acknowledgement"
  | missingReply => "Missing stream reply"
  | missingApplication => "Missing application stream"
  | unknownRefused => "Unknown refused stream"
  | refusalAfterAccept => "Refusal after stream accepted"
  | unknownData => "Data for unknown stream"
  | receiveCredit => "Stream receive credit violation"
  | receiveCount => "Receive count exhausted"
  | receiveQueue => "Stream receive queue exhausted"
  | unknownAck => "Ack for unknown stream"
  | earlyAck => "Ack before stream opened"
  | unknownEnd => "End for unknown stream"
  | duplicateEnd => "Duplicate/premature stream end"
  | endQueue => "End receive queue exhausted"
  | commandOrState => "Invalid session command or state"

/-- The errors of `run`: its own, those of the layers it calls, and a write
that failed or timed out. -/
inductive SessionError
  | invalid (fault : SessionFault)
  | window (error : WindowError)
  | circuit (error : CircuitError)
  | cellPayload (length : ℕ)
  | write
  deriving DecidableEq, Repr

@[irreducible] def encodeRelayTarget (host : String) (port : UInt16) : Except CircuitError Bytes :=
  let hostBytes := host.toUTF8.data.toList
  if hostBytes.length > 255 then .error (.general "Target host string exceeds 255 bytes limit")
  else .ok (UInt8.ofNat hostBytes.length :: hostBytes ++ be16 port)

@[irreducible] def decodeRelayTarget (payload : Bytes) : Except CircuitError (String × UInt16) :=
  if payload.length < 1 + 2 then .error .payloadTooShort
  else
    let hostLen := (payload.getD 0 0).toNat
    if payload.length < 1 + hostLen + 2 then .error .payloadTooShort
    else
      match String.fromUTF8? ⟨((payload.drop 1).take hostLen).toArray⟩ with
      | none => .error (.parseError "Invalid UTF-8 in RELAY target host")
      | some host => .ok (host, u16OfBe ((payload.drop (1 + hostLen)).take 2))

/-- The local variables of `run`. `workers` holds the tasks of every id ever
attached, `connectTasks` the keys of `connect_tasks` and `dialing` the ids whose
connect task is still to report, aborted or not. `retired`, `sentLog` and
`receivedLog` are histories: the ids removed by the retirement pass, and the
cells written and accepted so far. -/
structure Endpoint where
  client : Bool
  profile : Profile
  sequenceNo : ℕ
  streams : Std.TreeMap ℕ Stream
  workers : ℕ → Workers
  connecting : Finset ℕ
  connectTasks : Finset ℕ
  dialing : Finset ℕ
  closed : Finset ℕ
  receiveBudget : ℕ
  receiveTime : ℕ
  events : List Event
  controls : List SessionCell
  lastId : ℕ
  cursor : ℕ
  cells : ℕ
  activity : ℕ
  deadline : ℕ
  time : ℕ
  finishing : Bool
  peerFinish : Bool
  preferControl : Bool
  retired : Finset ℕ
  sentLog : List SessionCell
  receivedLog : List SessionCell
  result : Option (Except SessionError Unit)

/-- One firing of the clock: its time, the time at which the cell was written
(`none` if the write failed or timed out) and the next interval. -/
structure Tick where
  now : ℕ
  flushed : Option ℕ
  interval : ℕ
  deriving DecidableEq, Repr

/-- A firing whose cell is written at once, with an interval of 40 ms. -/
def Tick.prompt (ms : ℕ) : Tick := ⟨millis ms, some (millis ms), millis 40⟩

inductive SessionInput
  | clock (t : Tick)
  | request (now : ℕ) (host : String) (port : UInt16)
  | ownerClosed (now : ℕ)
  | event (now : ℕ)
  | frame (now : ℕ) (cell : Except CircuitError SessionCell)
  | framesClosed (now : ℕ)
  | expire (now : ℕ)
  | worker (id : ℕ) (i : WorkerInput)
  | connect (id : ℕ) (ok : Bool)

namespace Endpoint

/-- The state in which the loop starts. The circuit has used the sequence
numbers below `sequenceNo` for its setup. -/
def new (client : Bool) (profile : Profile) (sequenceNo interval : ℕ) : Endpoint where
  client := client
  profile := profile
  sequenceNo := sequenceNo
  streams := ∅
  workers := fun _ => .absent
  connecting := ∅
  connectTasks := ∅
  dialing := ∅
  closed := ∅
  receiveBudget := BURST
  receiveTime := 0
  events := []
  controls := []
  lastId := 0
  cursor := 0
  cells := 0
  activity := 0
  deadline := interval
  time := 0
  finishing := false
  peerFinish := false
  preferControl := false
  retired := ∅
  sentLog := []
  receivedLog := []
  result := none

def setStream (e : Endpoint) (id : ℕ) (s : Stream) (w : Workers) : Endpoint :=
  { e with streams := e.streams.insert id s, workers := Function.update e.workers id w }

def pushControl (e : Endpoint) (command : CellCommand) (id : ℕ) (data : Bytes) : Endpoint :=
  { e with controls := e.controls ++ [⟨command, id, data⟩] }

/-- `streams.remove(&id)`. -/
def removeStream (e : Endpoint) (id : ℕ) : Endpoint :=
  match e.streams[id]? with
  | none => e
  | some _ => { e with
      streams := e.streams.erase id
      workers := Function.update e.workers id (e.workers id).detach }

def closeStream (e : Endpoint) (id : ℕ) : Endpoint :=
  let e := e.removeStream id
  { e with closed := insert id e.closed }

def resetStream (e : Endpoint) (id : ℕ) : Endpoint :=
  (e.closeStream id).pushControl .sessionReset id []

def retireStream (e : Endpoint) (id : ℕ) : Endpoint :=
  let e := e.closeStream id
  { e with retired := insert id e.retired }

/-- The sequence number at which a direction is used up: the client's 32-bit
counter, or the 29 bits that a packed backward number leaves the exit. -/
@[irreducible] def sequenceLimit (client : Bool) : ℕ := if client then 2 ^ 32 - 1 else 2 ^ 29

/-- `Crypto::outgoing`: a cell must fit and the direction's counter must not be
used up. -/
def outgoing (e : Endpoint) (c : SessionCell) : Except SessionError Endpoint :=
  if c.data.length > PAYLOAD_SIZE then
    .error (.cellPayload c.data.length)
  else if e.sequenceNo < sequenceLimit e.client then
    .ok { e with sequenceNo := e.sequenceNo + 1 }
  else .error (.circuit .sequenceExhausted)

/-- Seal a cell and write it to the link. -/
def emit (e : Endpoint) (c : SessionCell) (flushed : Option ℕ) : Except SessionError Endpoint :=
  match e.outgoing c with
  | .error x => .error x
  | .ok e =>
    match flushed with
    | none => .error .write
    | some time => .ok { e with time := time, sentLog := e.sentLog ++ [c] }

def isIdle (e : Endpoint) : Bool :=
  e.streams.isEmpty && decide (e.connecting = ∅) && e.controls.isEmpty

def popControl (e : Endpoint) : Option (SessionCell × Endpoint) :=
  match e.controls with
  | [] => none
  | c :: rest => some (c, { e with controls := rest })

/-- The ids in the order in which this tick considers them. -/
def rotation (e : Endpoint) : List ℕ :=
  e.streams.keys.filter (fun id => decide (id > e.cursor)) ++
    e.streams.keys.filter (fun id => decide (id ≤ e.cursor))

/-- The round robin: the first listed stream that has something to send. -/
def serveFirst (e : Endpoint) : List ℕ → Except SessionError (Option (SessionCell × Endpoint))
  | [] => .ok none
  | id :: ids =>
    match e.streams[id]? with
    | none => .error (.invalid .missingStream)
    | some s =>
      match s.serve id (e.workers id).outgoing with
      | .error x => .error (.window x)
      | .ok none => e.serveFirst ids
      | .ok (some (c, s, rx)) =>
        let e := e.setStream id s { e.workers id with outgoing := rx }
        .ok (some (c, { e with cursor := id }))

/-- The cell of a tick: a control if controls are preferred, else a stream, else
a control, else cover. -/
def select (e : Endpoint) (now : ℕ) : Except SessionError (SessionCell × Endpoint) :=
  match if e.preferControl then e.popControl else none with
  | some p => .ok p
  | none =>
    match if seconds 1 ≤ now then e.serveFirst e.rotation else .ok none with
    | .error x => .error x
    | .ok (some p) => .ok p
    | .ok none => .ok (e.popControl.getD (⟨.dummy, 0, []⟩, e))

/-- The ids that the retirement pass removes. -/
def retiring (e : Endpoint) : List ℕ :=
  (e.streams.toList.filter fun p => p.2.retirable).map Prod.fst

/-- The ids whose requester has gone away before the exit's answer. -/
def cancelled (e : Endpoint) : List ℕ :=
  (e.streams.toList.filter fun p => p.2.reply && (e.workers p.1).replyClosed).map Prod.fst

def retire (e : Endpoint) : Endpoint := e.retiring.foldl retireStream e
def cancel (e : Endpoint) : Endpoint := e.cancelled.foldl resetStream e

/-- Count the cell and set the next deadline. -/
def pace (e : Endpoint) (interval : ℕ) : Except SessionError Endpoint :=
  if e.cells + 1 < U64_SIZE then
    .ok { e with cells := e.cells + 1, deadline := nextDeadline e.deadline e.time interval }
  else .error (.invalid .cellCount)

/-- Whether this tick finds the session drained and its finish condition met. -/
def mayFinish (e : Endpoint) (now : ℕ) : Bool :=
  e.isIdle && e.profile.canFinish now (now - e.activity) e.cells

/-- The client announces once that it is done. -/
def announceFinish (e : Endpoint) (now : ℕ) : Endpoint :=
  if e.mayFinish now = true ∧ e.client = true ∧ e.finishing = false then
    { e with finishing := true }.pushControl .sessionFinish 0 []
  else e

/-- The exit's last cell. -/
def finishExit (e : Endpoint) (t : Tick) : Except SessionError Endpoint :=
  match e.emit ⟨.sessionFinished, 0, []⟩ t.flushed with
  | .error x => .error x
  | .ok e => .ok { e with result := some (.ok ()) }

/-- A tick that emits one scheduled cell and then clears finished streams. -/
def scheduled (e : Endpoint) (t : Tick) : Except SessionError Endpoint :=
  match e.select t.now with
  | .error x => .error x
  | .ok (c, e) =>
    match e.emit c t.flushed with
    | .error x => .error x
    | .ok e =>
      match e.pace t.interval with
      | .error x => .error x
      | .ok e => .ok e.retire.cancel

/-- The clock branch. -/
def tick (e : Endpoint) (t : Tick) : Except SessionError Endpoint :=
  if e.mayFinish t.now = true ∧ e.client = false ∧ e.peerFinish = true then e.finishExit t
  else { e.announceFinish t.now with preferControl := !e.preferControl }.scheduled t

/-- The open branch. An error is the reply to the requester; the session itself
goes on unchanged. -/
def request (e : Endpoint) (now : ℕ) (host : String) (port : UInt16) :
    Except SessionError Endpoint :=
  if e.streams.size ≥ MAX_STREAMS ∨ e.lastId ≥ MAX_IDS then .error (.invalid .streamBudget)
  else if port = 0 ∨ host = "" then .error (.invalid .emptyTarget)
  else
    match encodeRelayTarget host port with
    | .error x => .error (.circuit x)
    | .ok target =>
      let id := e.lastId + 1
      .ok ({ e with lastId := id, activity := now }.setStream id .requested .attached |>.pushControl
        .sessionOpen id target)

/-- The event branch. -/
def handleEvent (e : Endpoint) : Event → Except SessionError Endpoint
  | .written id count =>
    match e.streams[id]? with
    | none => .ok e
    | some s =>
      if count ≠ succ32 s.written ∨ count > s.received then
        .error (.invalid .writeAcknowledgement)
      else .ok (e.setStream id { s with written := count, ack := some count } (e.workers id))
  | .connected id ok =>
    if e.client then .error (.invalid .connectCompletion)
    else
      let e := { e with connectTasks := e.connectTasks.erase id }
      if id ∉ e.connecting then .ok e
      else
        let e := { e with connecting := e.connecting.erase id }
        if ok then .ok ((e.setStream id .attached .attached).pushControl .sessionOpened id [])
        else .ok (e.pushControl .sessionRefused id [1])
  | .failed id =>
    match e.streams[id]? with
    | none => .ok e
    | some _ => .ok (e.resetStream id)

/-- `SessionOpen` at the exit. -/
def acceptOpen (e : Endpoint) (now id : ℕ) (data : Bytes) : Except SessionError Endpoint :=
  let e := { e with lastId := id }
  if e.streams.size + e.connecting.card ≥ MAX_STREAMS then .ok (e.pushControl .sessionRefused id [1])
  else
    match decodeRelayTarget data with
    | .error x => .error (.circuit x)
    | .ok (host, port) =>
      if host = "" ∨ port = 0 then .error (.invalid .noncanonicalDestination)
      else
        match encodeRelayTarget host port with
        | .error x => .error (.circuit x)
        | .ok target =>
          if target ≠ data then .error (.invalid .noncanonicalDestination)
          else .ok { e with
            connecting := insert id e.connecting
            connectTasks := insert id e.connectTasks
            dialing := insert id e.dialing
            activity := now }

/-- `SessionOpened` at the client. -/
def acceptOpened (e : Endpoint) (id : ℕ) : Except SessionError Endpoint :=
  match e.streams[id]? with
  | none => .error (.invalid .unknownOpened)
  | some s =>
    if s.ready then .error (.invalid .duplicateOpened)
    else if s.reply = false then .error (.invalid .missingReply)
    else if s.application = false then .error (.invalid .missingApplication)
    else if (e.workers id).replyClosed then .ok (e.resetStream id)
    else .ok (e.setStream id { s with ready := true, reply := false, application := false }
      (e.workers id))

/-- `SessionRefused` at the client. -/
def acceptRefused (e : Endpoint) (id : ℕ) : Except SessionError Endpoint :=
  match e.streams[id]? with
  | none => .error (.invalid .unknownRefused)
  | some s => if s.ready then .error (.invalid .refusalAfterAccept) else .ok (e.closeStream id)

def acceptData (e : Endpoint) (now id : ℕ) (data : Bytes) : Except SessionError Endpoint :=
  match e.streams[id]? with
  | none => .error (.invalid .unknownData)
  | some s =>
    if s.ready = false ∨ s.receivedEnd = true ∨ data = [] ∨
        sub32 s.received s.written ≥ WINDOW_CELLS then .error (.invalid .receiveCredit)
    else if s.received + 1 ≥ U32_SIZE then .error (.invalid .receiveCount)
    else
      match (e.workers id).deliver (some data) with
      | .error _ => .error (.invalid .receiveQueue)
      | .ok w => .ok { e.setStream id { s with received := s.received + 1 } w with activity := now }

def acceptAck (e : Endpoint) (id : ℕ) (data : Bytes) : Except SessionError Endpoint :=
  match e.streams[id]? with
  | none => .error (.invalid .unknownAck)
  | some s =>
    if s.ready = false then .error (.invalid .earlyAck)
    else
      match s.window.acknowledge data with
      | .error x => .error (.window x)
      | .ok window => .ok (e.setStream id { s with window := window } (e.workers id))

def acceptEnd (e : Endpoint) (now id : ℕ) : Except SessionError Endpoint :=
  match e.streams[id]? with
  | none => .error (.invalid .unknownEnd)
  | some s =>
    if s.ready = false ∨ s.receivedEnd = true then .error (.invalid .duplicateEnd)
    else
      match (e.workers id).deliver none with
      | .error _ => .error (.invalid .endQueue)
      | .ok w => .ok { e.setStream id { s with receivedEnd := true } w with activity := now }

/-- `SessionReset` from the peer. -/
def acceptReset (e : Endpoint) (id : ℕ) : Endpoint :=
  let e := e.closeStream id
  { e with
    connecting := e.connecting.erase id
    connectTasks := e.connectTasks.erase id }

/-- Commands that may still be in flight for a stream closed on this side. -/
def lateCommand : CellCommand → Bool
  | .data | .dataAck | .end | .sessionOpened | .sessionRefused => true
  | _ => false

/-- The `match cell.command` of the frame branch. -/
def dispatch (e : Endpoint) (now : ℕ) (c : SessionCell) : Except SessionError Endpoint :=
  if c.id ∈ e.closed ∧ lateCommand c.command = true then .ok e
  else
    match c.command with
    | .dummy =>
      if c.id = 0 ∧ c.data = [] then .ok e else .error (.invalid .commandOrState)
    | .sessionOpen =>
      if e.client = false ∧ e.peerFinish = false ∧ c.id > e.lastId ∧ c.id ≤ MAX_IDS then
        e.acceptOpen now c.id c.data
      else .error (.invalid .commandOrState)
    | .sessionOpened =>
      if e.client = true ∧ c.data = [] then e.acceptOpened c.id
      else .error (.invalid .commandOrState)
    | .sessionRefused =>
      if e.client = true ∧ c.data = [1] then e.acceptRefused c.id
      else .error (.invalid .commandOrState)
    | .data => e.acceptData now c.id c.data
    | .dataAck => e.acceptAck c.id c.data
    | .end => if c.data = [] then e.acceptEnd now c.id else .error (.invalid .commandOrState)
    | .sessionReset =>
      if c.id > 0 ∧ c.id ≤ e.lastId ∧ c.data = [] then .ok (e.acceptReset c.id)
      else .error (.invalid .commandOrState)
    | .sessionFinish =>
      if e.client = false ∧ c.id = 0 ∧ c.data = [] ∧ e.streams.isEmpty = true ∧ e.connecting = ∅ ∧
          e.peerFinish = false then .ok { e with peerFinish := true }
      else .error (.invalid .commandOrState)
    | .sessionFinished =>
      if e.client = true ∧ e.finishing = true ∧ c.id = 0 ∧ c.data = [] then
        .ok { e with result := some (.ok ()) }
      else .error (.invalid .commandOrState)
    | _ => .error (.invalid .commandOrState)

/-- The frame branch: the receive budget comes first. -/
def handleFrame (e : Endpoint) (now : ℕ) (cell : Except CircuitError SessionCell) :
    Except SessionError Endpoint :=
  let budget := min (e.receiveBudget + (now - e.receiveTime) * 250) BURST
  if budget < CELL_COST then .error (.invalid .receiveRate)
  else
    match cell with
    | .error x => .error (.circuit x)
    | .ok c =>
      { e with
        receiveBudget := budget - CELL_COST
        receiveTime := now
        receivedLog := e.receivedLog ++ [c] }.dispatch now c

/-- The checks at the head of the loop. -/
def headFault (e : Endpoint) : Option SessionFault :=
  if LIFETIME ≤ e.time then some .lifetimeExpired
  else if e.controls.length > MAX_CONTROLS then some .controlBudget
  else none

def fail (e : Endpoint) (x : SessionError) : Endpoint := { e with result := some (.error x) }

/-- One iteration of the loop at time `now`, with the given branch. -/
def iterate (e : Endpoint) (now : ℕ) (branch : Endpoint → Except SessionError Endpoint) :
    Option Endpoint :=
  if e.result.isSome = true ∨ now < e.time then none
  else
    match e.headFault with
    | some fault => some (e.fail (.invalid fault))
    | none =>
      match branch { e with time := now } with
      | .error x => some (e.fail x)
      | .ok e => some e

/-- Whether the event queue takes another event. -/
def hasRoom (e : Endpoint) : Bool := decide (e.events.length < MAX_STREAMS * QUEUE)

/-- A step of a worker task of stream `id`. -/
def workerStep (e : Endpoint) (id : ℕ) (i : WorkerInput) : Option Endpoint :=
  match (e.workers id).step id e.hasRoom i with
  | none => none
  | some (w, events) =>
    some { e with workers := Function.update e.workers id w, events := e.events ++ events }

/-- A dial task reports its result. -/
def connectStep (e : Endpoint) (id : ℕ) (ok : Bool) : Option Endpoint :=
  if id ∈ e.dialing ∧ e.hasRoom = true then
    some { e with dialing := e.dialing.erase id, events := e.events ++ [.connected id ok] }
  else none

/-- One step of the endpoint; `none` if the input is not enabled. -/
def step (e : Endpoint) : SessionInput → Option Endpoint
  | .clock t =>
    if e.deadline ≤ t.now ∧ (∀ f ∈ t.flushed, t.now ≤ f) ∧ e.profile.mayWait t.interval = true then
      e.iterate t.now (·.tick t)
    else none
  | .request now host port =>
    if e.client = true ∧ e.finishing = false then
      e.iterate now fun e => .ok ((e.request now host port).toOption.getD e)
    else none
  | .ownerClosed now =>
    if e.client = true ∧ e.finishing = false then
      e.iterate now fun _ => .error (.invalid .ownerClosed)
    else none
  | .event now =>
    match e.events with
    | [] => none
    | x :: rest => e.iterate now fun e => { e with events := rest }.handleEvent x
  | .frame now cell => e.iterate now (·.handleFrame now cell)
  | .framesClosed now => e.iterate now fun _ => .error (.invalid .truncated)
  | .expire now =>
    if e.result.isSome = true ∨ now < LIFETIME then none
    else some (e.fail (.invalid .lifetimeExpired))
  | .worker id i => e.workerStep id i
  | .connect id ok => e.connectStep id ok

end Endpoint

end AnonGuard
