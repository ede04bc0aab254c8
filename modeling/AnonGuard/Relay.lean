import AnonGuard.ExitPolicy
import AnonGuard.Handshake
import AnonGuard.PoolState
import AnonGuard.SingleStream

/-!
# The task of an accepted relay link

`handle_relay_inner` answers one CREATE cell. The next cell that is addressed to the
relay decides what it is in this circuit: EXTEND makes it an intermediate relay, RELAY an
exit of one stream, and SESSION the exit of a padded session. Connections are opened on
EXTEND, on RELAY and, within a session, on SessionOpen. A relay that is not an exit looks
the target up in its directory first, which other tasks may replace at any time.

Each wait of the task is a phase, and `step` goes from one wait to the next. Every frame
of the peer, every answer of the resolver and every result of a read or a write is an
input. Deadlines and failed reads may end the task at any time.
-/
namespace AnonGuard

/-- The texts of the circuit's errors. -/
def CircuitError.message : CircuitError → String
  | hopIndexOutOfRange index => "Hop index out of range: " ++ toString index
  | sequenceExhausted => "Sequence number exhausted"
  | macVerificationFailed => "MAC verification failed"
  | antiReplayRejection reason => "Anti-replay rejection: " ++ reason
  | payloadTooShort => "Payload too short"
  | parseError reason => "Parse error: " ++ reason
  | invalidCircuitId => "Invalid circuit id"
  | general reason => "General error: " ++ reason
  | keyDerivationFailed => "Key derivation failed"
  | unpinnedRelay => "identity key does not match pinned consensus key"

namespace Profile

def encode : Profile → Bytes
  | balanced => [1, 1]
  | strict => [1, 2]
  | rmt => [1, 3]
  | poisson => [1, 4]
  | longTail => [1, 5]
  | fixedWindow => [1, 6]

def decode (value : Bytes) : Except String Profile :=
  if value = [1, 1] then .ok balanced
  else if value = [1, 2] then .ok strict
  else if value = [1, 3] then .ok rmt
  else if value = [1, 4] then .ok poisson
  else if value = [1, 5] then .ok longTail
  else if value = [1, 6] then .ok fixedWindow
  else .error "Unsupported session profile/version"

end Profile

inductive CoverProfile
  | strict | economy
  deriving DecidableEq, Repr

namespace RelayCircuitHop

/-- The checks of an EXTEND payload that come before its target is looked up. The payload
is the canonical body and a pin of 32 octets. -/
def extendBody (r : RelayCircuitHop) (payload : Bytes) : Except String ExtendBody :=
  if payload.length < 32 then .error "EXTEND identity pin missing"
  else
    match decodeExtendPayload (payload.take (payload.length - 32)) with
    | .error e => .error ("bad EXTEND payload: " ++ e.message)
    | .ok body =>
      if body.hopIndex ≠ r.hopIndex + 1 then
        .error ("EXTEND rejected: requested hop_index " ++ toString body.hopIndex ++
          " does not match expected " ++ toString (r.hopIndex + 1))
      else if body.hopIndex ≥ MAX_HOPS then
        .error ("EXTEND rejected: max chain depth " ++ toString MAX_HOPS ++ " exceeded")
      else .ok body

/-- The CREATE cell for the next hop, under the id of the new link. -/
def createFor (r : RelayCircuitHop) (body : ExtendBody) (nextId : UInt32) (padding : Padding) :
    Except CircuitError OnionCell :=
  match buildCreateCell r.contextId body.clientPub body.clientMlkemPub body.hopIndex padding with
  | .error e => .error e
  | .ok cell => .ok { cell with circuitId := nextId }

/-- The answer of the next hop as this relay passes it on: under its own link id, sealed as
a cell of its own. `none` is the `break` that ends the relay loop. -/
def originateCreated (P : Primitives) (r : RelayCircuitHop) (nextId : UInt32) (response : Frame) :
    Option (Frame × RelayCircuitHop) :=
  if response.circuitId ≠ nextId then none
  else
    match r.wrapBackwardOriginate P (response.withId r.circuitId) with
    | (.error _, _) => none
    | (.ok raw, r) => some (raw, r)

end RelayCircuitHop

/-- The pin of the next hop, at the end of an EXTEND payload. -/
def ExtendBody.nextPin (body : ExtendBody) (payload : Bytes) : Except String Bytes :=
  let pinOffset := 1 + 1 + (utf8 body.host).length + 2 + 32 + 1184
  if payload.length ≠ pinOffset + 32 then .error "EXTEND requires a next-hop identity pin"
  else .ok (payload.drop pinOffset)

/-- The second half of `is_mesh_target`, after the directory was found unexpired. -/
def Pool.isMeshEndpoint (p : Pool) (host : String) (port : UInt16) : Bool :=
  (p.identityKeys.lookup (endpointKey host port)).isSome

/-- What a relay computes with: names and directories, handshakes, and ciphers. -/
structure RelayEnv extends PoolEnv, HandshakeScheme where
  primitives : Primitives

structure RelayConfig (E : RelayEnv) where
  relayIdentityKey : SigningKey E.toHandshakeScheme.toIdentityScheme
  isExitAllowed : Bool
  exitPolicy : Option ExitPolicy
  coverProfile : CoverProfile

def RelayConfig.policy {E : RelayEnv} (C : RelayConfig E) : ExitPolicy := C.exitPolicy.getD .default

/-- What the relay connects for, with the payload of the cell that asked for it. -/
inductive ConnectPurpose
  | extend (payload : Bytes) (body : ExtendBody)
  | relay (payload : Bytes) (host : String) (port : UInt16)

namespace ConnectPurpose

def command : ConnectPurpose → CellCommand
  | extend .. => .extend
  | relay .. => .relay

def payload : ConnectPurpose → Bytes
  | extend payload _ | relay payload .. => payload

def host : ConnectPurpose → String
  | extend _ body => body.host
  | relay _ host _ => host

def port : ConnectPurpose → UInt16
  | extend _ body => body.port
  | relay _ _ port => port

/-- The last check of an EXTEND payload. -/
def pinned : ConnectPurpose → Bool
  | extend payload body => (body.nextPin payload).isOk
  | relay .. => true

end ConnectPurpose

/-- A passed `is_mesh_target`: the directory that the endpoint was found in, and when that
directory was last found unexpired. -/
structure DirectoryCheck where
  pool : Pool
  checkedAt : UInt64

/-- A TCP connection that was opened: for which cell, from which answer of the resolver,
and after which look-up. -/
structure OpenedConnection where
  command : CellCommand
  payload : Bytes
  host : String
  port : UInt16
  ip : IpAddr
  answer : List IpAddr
  check : Option DirectoryCheck

/-- The connection that a waiting call is opening. -/
def ConnectCall.opens (call : ConnectCall) (command : CellCommand) (payload : Bytes)
    (check : Option DirectoryCheck) : List OpenedConnection :=
  call.attempt.toList.map fun a => ⟨command, payload, call.host, call.port, a.1, a.2, check⟩

/-- The task that connects for one stream of a session. -/
inductive DialTask
  | running (payload : Bytes) (call : ConnectCall)
  | finished (ok : Bool)

/-- Where the task waits. -/
inductive RelayPhase
  /-- For the CREATE cell. -/
  | greeting
  /-- For the cell that decides what the relay is. -/
  | awaiting (hop : RelayCircuitHop)
  /-- Within `is_mesh_target`, for the look-up. -/
  | checking (hop : RelayCircuitHop) (purpose : ConnectPurpose) (checkedAt : UInt64)
  /-- Within `resolve_and_connect`. -/
  | connecting (hop : RelayCircuitHop) (purpose : ConnectPurpose) (check : Option DirectoryCheck)
      (call : ConnectCall)
  /-- For the link to the next hop and its answer. -/
  | linking (hop : RelayCircuitHop) (body : ExtendBody)
  | intermediate (hop : RelayCircuitHop) (downstreamId : UInt32) (writeFailed : Bool)
  | exiting (hop : RelayCircuitHop) (stream : StreamExit)
  | session (hop : RelayCircuitHop) (actor : Endpoint) (dials : List (ℕ × DialTask))
  | ended (result : Except String Unit)

/-- The task of one link, in a process with a directory. `opened` and `sessions` are
histories: the connections opened and the sessions started for the circuit. -/
structure RelayLink where
  directory : PoolState
  phase : RelayPhase
  opened : List OpenedConnection
  sessions : List Profile

inductive LinkInput
  | directory (i : PoolInput)
  | create (frame : Frame) (eph : RelayEphemeral)
  | setup (frame : Frame) (now : UInt64) (padding : Padding) (interval : ℕ)
  | lookUp
  | connect (event : ConnectEvent) (padding : Padding) (written : Bool) (start : ℕ)
  | created (nextId : UInt32) (padding : Padding) (response : Frame) (written : Bool)
  | forward (frame : Frame) (written : Bool)
  | backward (frame : Frame) (written : Bool)
  | exitFrame (now : ℕ) (frame : Frame)
  | exit (i : ExitInput)
  | exitFlush
  | sessionFrame (now : ℕ) (frame : Frame)
  | session (i : SessionInput)
  | dial (id : ℕ) (event : ConnectEvent)
  | report (id : ℕ)
  | stop (result : Except String Unit)

/-- The time of a load that has published a directory. -/
def PoolInput.publishedAt (s s' : PoolState) : PoolInput → Option UInt64
  | .load _ _ _ now _ _ => if s.loads.length < s'.loads.length then some now else none
  | _ => none

/-- `Crypto::incoming` at an exit. -/
def RelayCircuitHop.incoming (P : Primitives) (r : RelayCircuitHop) (frame : Frame) :
    Except CircuitError SessionCell × RelayCircuitHop :=
  match r.peelForward P frame with
  | (.error e, _, r) => (.error e, r)
  | (.ok .forwardDownstream, _, r) => (.error (.general "Unaddressed session cell"), r)
  | (.ok (.addressedToThisRelay ..), opened, r) =>
    match OnionCell.parse opened with
    | .error e => (.error (.parseError e), r)
    | .ok cell => (.ok ⟨cell.command, cell.streamId.toNat, cell.payload.take cell.length.toNat⟩, r)

namespace RelayLink
variable {E : RelayEnv} (C : RelayConfig E)

def new (directory : PoolState) : RelayLink := ⟨directory, .greeting, [], []⟩

/-- The task returns. -/
def ends (s : RelayLink) (result : Except String Unit) : RelayLink := { s with phase := .ended result }

/-- `break`. -/
def leave (s : RelayLink) : RelayLink := s.ends (.ok ())

/-- The initial CREATE cell. -/
def create (s : RelayLink) (frame : Frame) (eph : RelayEphemeral) : RelayLink :=
  match OnionCell.parse frame with
  | .error e => s.ends (.error ("Failed to parse incoming CREATE cell: " ++ e))
  | .ok cell =>
    match E.handleCreateCell cell C.relayIdentityKey eph with
    | .error e => s.ends (.error ("Failed to handle CREATE cell: " ++ e.message))
    | .ok (hop, _) => { s with phase := .awaiting hop }

/-- The start of `resolve_and_connect`, after the last check of an EXTEND payload. -/
def dial (s : RelayLink) (hop : RelayCircuitHop) (purpose : ConnectPurpose)
    (check : Option DirectoryCheck) : RelayLink :=
  if purpose.pinned = false then s.leave
  else
    match C.policy.resolveAndConnect E.toDirectoryEnv purpose.host purpose.port with
    | .error _ => s.leave
    | .ok call => { s with phase := .connecting hop purpose check call }

/-- A relay that is not an exit connects to endpoints of an unexpired directory only. -/
def checkTarget (s : RelayLink) (p : Pool) (hop : RelayCircuitHop) (purpose : ConnectPurpose)
    (now : UInt64) : RelayLink :=
  if C.isExitAllowed then dial C s hop purpose none
  else if p.directoryExpired now then s.leave
  else { s with phase := .checking hop purpose now }

/-- A SESSION cell. -/
def startSession (s : RelayLink) (hop : RelayCircuitHop) (frame : Frame) (len : ℕ)
    (padding : Padding) (interval : ℕ) : RelayLink :=
  if C.isExitAllowed = false ∨ hop.hopIndex < 2 ∨ slice 9 11 frame.bytes ≠ [0, 0] then
    s.ends (.error "Padded sessions require an exit and stream zero")
  else
    match Profile.decode (slice 45 (45 + len) frame.bytes) with
    | .error e => s.ends (.error e)
    | .ok profile =>
      if C.coverProfile = .economy ∧ profile ≠ .balanced ∧ profile ≠ .longTail then
        s.ends (.error "Economy link cover requires the balanced session profile")
      else
        match OnionCell.new hop.circuitId 0 .sessionAccepted 0 profile.encode padding with
        | .error e => s.ends (.error e)
        | .ok response =>
          match hop.wrapBackwardOriginate E.primitives response.serialize with
          | (.error e, _) => s.ends (.error e.message)
          | (.ok _, hop) => { s with
              phase := .session hop (.new false profile hop.nextSendSeq.toNat interval) []
              sessions := s.sessions ++ [profile] }

/-- The cell that decides what the relay is in the circuit. -/
def setup (s : RelayLink) (p : Pool) (hop : RelayCircuitHop) (frame : Frame) (now : UInt64)
    (padding : Padding) (interval : ℕ) : RelayLink :=
  match hop.peelForward E.primitives frame with
  | (.ok (.addressedToThisRelay .extend len), opened, hop) =>
    let payload := slice 45 (45 + len) opened.bytes
    match hop.extendBody payload with
    | .error _ => s.leave
    | .ok body => checkTarget C s p hop (.extend payload body) now
  | (.ok (.addressedToThisRelay .session len), opened, hop) =>
    startSession C s hop opened len padding interval
  | (.ok (.addressedToThisRelay .relay len), opened, hop) =>
    let payload := slice 45 (45 + len) opened.bytes
    match decodeRelayTarget payload with
    -- the cell is ignored
    | .error _ => { s with phase := .awaiting hop }
    | .ok (host, port) => checkTarget C s p hop (.relay payload host port) now
  | _ => s.leave

/-- `resolve_and_connect` has returned a connection. -/
def connected (E : RelayEnv) (s : RelayLink) (hop : RelayCircuitHop) (purpose : ConnectPurpose)
    (padding : Padding) (written : Bool) (start : ℕ) : RelayLink :=
  match purpose with
  | .extend _ body => { s with phase := .linking hop body }
  | .relay .. =>
    match OnionCell.new hop.circuitId 0 .relay 0 (utf8 "CONNECTED") padding with
    | .error _ => { s with phase := .awaiting hop }
    | .ok response =>
      match hop.wrapBackwardOriginate E.primitives response.serialize with
      | (.error _, _) => s.leave
      | (.ok _, hop) =>
        -- after a failed write the loop goes on without a connection
        if written then
          { s with phase := .exiting hop (.new hop.hopIndex hop.nextSendSeq.toNat start) }
        else { s with phase := .awaiting hop }

/-- The next hop has answered. -/
def created (E : RelayEnv) (s : RelayLink) (hop : RelayCircuitHop) (body : ExtendBody)
    (nextId : UInt32) (padding : Padding) (response : Frame) (written : Bool) : RelayLink :=
  match hop.createFor body nextId padding with
  | .error _ => s.leave
  | .ok _ =>
    match hop.originateCreated E.primitives nextId response with
    | none => s.leave
    | some (_, hop) => if written then { s with phase := .intermediate hop nextId false } else s.leave

/-- A cell for an intermediate relay: anything that is addressed to it ends the circuit. -/
def forward (E : RelayEnv) (s : RelayLink) (hop : RelayCircuitHop) (downstreamId : UInt32)
    (frame : Frame) (written : Bool) : RelayLink :=
  match hop.relayForward E.primitives downstreamId frame with
  | (.ok .forwardDownstream, _, hop) =>
    { s with phase := .intermediate hop downstreamId (!written) }
  | _ => s.leave

/-- Go on with the stream, unless its loop has ended. -/
def withStream (s : RelayLink) (hop : RelayCircuitHop) (stream : StreamExit) : RelayLink :=
  match stream.result with
  | none => { s with phase := .exiting hop stream }
  | some (.ok ()) => s.leave
  | some (.error e) => s.ends (.error (e.message.getD ""))

/-- A cell for the exit of one stream. -/
def exitFrame (E : RelayEnv) (s : RelayLink) (hop : RelayCircuitHop) (stream : StreamExit) (now : ℕ)
    (frame : Frame) : RelayLink :=
  match hop.peelForward E.primitives frame with
  | (.ok (.addressedToThisRelay command len), opened, hop) =>
    s.withStream hop (stream.receive now ⟨command, (u16OfBe (slice 9 11 opened.bytes)).toNat,
      slice 45 (45 + len) opened.bytes⟩)
  | _ => s.leave

/-- The stream's cell has been written. -/
def exitFlush (s : RelayLink) (hop : RelayCircuitHop) (stream : StreamExit) : Option RelayLink :=
  match stream.point with
  | .write _ => some (s.withStream hop { stream with point := .select })
  | .destroy => some s.leave
  | _ => none

/-- Go on with the session, unless its actor has returned. -/
def withActor (s : RelayLink) (hop : RelayCircuitHop) (actor : Endpoint)
    (dials : List (ℕ × DialTask)) : RelayLink :=
  match actor.result with
  | none => { s with phase := .session hop actor dials }
  | some (.ok ()) => s.leave
  | some (.error (.invalid fault)) => s.ends (.error fault.message)
  | some (.error (.window e)) => s.ends (.error e.message)
  | some (.error (.circuit e)) => s.ends (.error e.message)
  | some (.error (.cellPayload _)) | some (.error .write) => s.ends (.error "")

/-- The task that an accepted SessionOpen starts. -/
def spawned (C : RelayConfig E) (actor actor' : Endpoint) (cell : Except CircuitError SessionCell) :
    List (ℕ × DialTask) :=
  match cell with
  | .error _ => []
  | .ok c =>
    if c.id ∈ actor'.dialing ∧ c.id ∉ actor.dialing then
      match decodeRelayTarget c.data with
      | .error _ => []
      | .ok (host, port) =>
        match C.policy.resolveAndConnect E.toDirectoryEnv host port with
        | .error _ => [(c.id, .finished false)]
        | .ok call => [(c.id, .running c.data call)]
    else []

/-- A frame for the session. -/
def sessionFrame (s : RelayLink) (hop : RelayCircuitHop) (actor : Endpoint)
    (dials : List (ℕ × DialTask)) (now : ℕ) (frame : Frame) : Option RelayLink :=
  let received := hop.incoming E.primitives frame
  match actor.step (.frame now received.1) with
  | none => none
  | some actor' => some (s.withActor received.2 actor' (dials ++ spawned C actor actor' received.1))

/-- The inputs of the actor that come from its clock and its tasks. -/
def ownInput : SessionInput → Bool
  | .clock _ | .event _ | .framesClosed _ | .expire _ | .worker .. => true
  | .request .. | .ownerClosed _ | .frame .. | .connect .. => false

def setDial (dials : List (ℕ × DialTask)) (id : ℕ) (task : DialTask) : List (ℕ × DialTask) :=
  dials.map fun d => if d.1 = id then (id, task) else d

/-- A step of the task that connects for stream `id`. -/
def stepDial (s : RelayLink) (hop : RelayCircuitHop) (actor : Endpoint) (dials : List (ℕ × DialTask))
    (id : ℕ) (payload : Bytes) (call : ConnectCall) (event : ConnectEvent) : Option RelayLink :=
  match call.step C.policy event with
  | none => none
  | some (.waiting call) => some { s with
      phase := .session hop actor (setDial dials id (.running payload call))
      opened := s.opened ++ call.opens .sessionOpen payload none }
  | some (.failed _) =>
    some { s with phase := .session hop actor (setDial dials id (.finished false)) }
  | some .connected =>
    some { s with phase := .session hop actor (setDial dials id (.finished true)) }

/-- A step of `resolve_and_connect` on EXTEND or RELAY. -/
def stepConnect (s : RelayLink) (hop : RelayCircuitHop) (purpose : ConnectPurpose)
    (check : Option DirectoryCheck) (call : ConnectCall) (event : ConnectEvent) (padding : Padding)
    (written : Bool) (start : ℕ) : Option RelayLink :=
  match call.step C.policy event with
  | none => none
  | some (.waiting call) => some { s with
      phase := .connecting hop purpose check call
      opened := s.opened ++ call.opens purpose.command purpose.payload check }
  | some (.failed _) => some s.leave
  | some .connected => some (connected E s hop purpose padding written start)

/-- The phase after a step of the process around the link. A directory that is published
during a look-up was in its window when it was loaded, and a link ends with its process. -/
def phaseAfter (s : RelayLink) (directory : PoolState) (i : PoolInput) : RelayPhase :=
  if s.directory.running.isSome && directory.running.isNone then .ended (.ok ())
  else
    match s.phase with
    | .checking hop purpose checkedAt =>
      .checking hop purpose ((i.publishedAt s.directory directory).getD checkedAt)
    | phase => phase

/-- A step of a link in the phase it is in; `none` if it does not wait for this. -/
def stepPhase (s : RelayLink) (p : Pool) : RelayPhase → LinkInput → Option RelayLink
  | .greeting, .create frame eph => some (create C s frame eph)
  | .awaiting hop, .setup frame now padding interval =>
    some (setup C s p hop frame now padding interval)
  | .checking hop purpose checkedAt, .lookUp =>
    some (if p.isMeshEndpoint purpose.host purpose.port then
        dial C s hop purpose (some ⟨p, checkedAt⟩)
      else s.leave)
  | .connecting hop purpose check call, .connect event padding written start =>
    stepConnect C s hop purpose check call event padding written start
  | .linking hop body, .created nextId padding response written =>
    if nextId ≠ 0 ∧ nextId ≠ hop.circuitId then
      some (created E s hop body nextId padding response written)
    else none
  | .intermediate hop downstreamId false, .forward frame written =>
    some (forward E s hop downstreamId frame written)
  | .intermediate hop downstreamId _, .backward frame written =>
    some (if (hop.relayBackward E.primitives downstreamId frame).isSome && written then s
      else s.leave)
  | .exiting hop stream, .exitFrame now frame =>
    if stream.selecting then some (exitFrame E s hop stream now frame) else none
  | .exiting hop stream, .exit i => (stream.step i).map (s.withStream hop)
  | .exiting hop stream, .exitFlush => s.exitFlush hop stream
  | .session hop actor dials, .sessionFrame now frame => sessionFrame C s hop actor dials now frame
  | .session hop actor dials, .session i =>
    if ownInput i then (actor.step i).map (s.withActor hop · dials) else none
  | .session hop actor dials, .dial id event =>
    match dials.lookup id with
    | some (.running payload call) => stepDial C s hop actor dials id payload call event
    | _ => none
  | .session hop actor dials, .report id =>
    match dials.lookup id with
    | some (.finished ok) =>
      (actor.step (.connect id ok)).map (s.withActor hop · (dials.filter (·.1 ≠ id)))
    | _ => none
  | .ended _, _ => none
  | _, .stop result => some (s.ends result)
  | _, _ => none

def step (s : RelayLink) : LinkInput → Option RelayLink
  | .directory i => (s.directory.step E.toPoolEnv i).map fun directory =>
    { s with directory := directory, phase := s.phaseAfter directory i }
  | i =>
    match s.directory.running with
    | none => none
    | some p => stepPhase C s p s.phase i

end RelayLink

end AnonGuard
