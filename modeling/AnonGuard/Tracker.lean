import AnonGuard.AuthorityRelays
import AnonGuard.TrackerControl
import AnonGuard.Transition

/-!
# The tracker

A node that cannot be reached registers at the tracker and keeps its connection open. A client
that has the node's capability asks for it, and the tracker hands it one of the connections that
wait. Every connection has a handler of its own. The handlers share the directory, which is locked
for each look at it, the permits for those that wait, and the one-shot channels over which a
registration is offered to a client. Every step is one that a handler takes between two
suspensions or between two looks at the directory.
-/
namespace AnonGuard

def MAX_WAITING : ℕ := 128
def MAX_PER_NODE : ℕ := 3
def DEFAULT_MAX_TRACKER_HANDSHAKES : ℕ := 16

namespace Tracker

/-- A registration in the directory. `request` is the handler at the other end of the channel. -/
structure Waiting where
  id : UInt64
  request : ℕ
  deriving DecidableEq, Repr

/-- The registrations of one node. No code looks at `serial`, which numbers the entries in the
order in which they are made. -/
structure Entry where
  token : String
  waiting : List Waiting
  serial : ℕ
  deriving DecidableEq, Repr

/-- What a registered handler is at, after the directory and before it leaves it. -/
inductive Stage
  | acknowledging
  | waiting
  | ready (connector : ℕ)
  | leaving
  deriving DecidableEq, Repr

/-- The permit that goes when a handler returns. -/
inductive Permit
  | none
  | proof
  | wait
  deriving DecidableEq, Repr

inductive Phase
  | reading
  | proving (now : UInt64) (challenge : Bytes)
  | proved
  | claiming (id : UInt64)
  /-- `offer` is what the channel of the registration holds. -/
  | registered (id : UInt64) (serial : ℕ) (offer : Option ℕ) (stage : Stage)
  | connecting
  | handing (registration : ℕ)
  | awaiting (registration : ℕ)
  | linked (registration : ℕ)
  | listing
  | replying (reply : String) (permit : Permit)
  | finished
  deriving DecidableEq, Repr

structure Handler where
  command : String
  phase : Phase

def Handler.request (h : Handler) : TrackerCommand := parseCommand (splitWhitespace h.command)

/-- A registration that a client took out of the directory, with the token of its entry. -/
structure Handover where
  registration : ℕ
  connector : ℕ
  token : String

end Tracker

open Tracker in
/-- The directory, what is left of the permits, the nonces seen and the handlers. No code looks at
`entries`, the number of entries that were made, and at `handed`. -/
structure Tracker where
  directory : Std.TreeMap String Entry
  waiting : ℕ
  registrationBudget : ℕ
  registry : NonceRegistry
  handlers : List Handler
  entries : ℕ
  handed : List Handover

inductive TrackerInput
  | accept
  | command (handler : ℕ) (input : Bytes) (now : UInt64) (challenge : Bytes)
  /-- The proof, and the value exported from the channel if there is one. -/
  | proof (handler : ℕ) (input : Bytes) (exporter : Option Bytes)
  | reserve (handler : ℕ) (id : UInt64)
  | claim (handler : ℕ)
  | acknowledged (handler : ℕ)
  | target (handler : ℕ)
  /-- The end of the stream, a timeout or a write that fails. -/
  | leave (handler : ℕ)
  | ready (handler : ℕ)
  | cleanUp (handler : ℕ)
  | select (handler : ℕ)
  | hand (handler : ℕ)
  | giveUp (handler : ℕ)
  | close (handler : ℕ)
  | list (handler : ℕ)
  | replied (handler : ℕ)
  | disconnect (handler : ℕ)

namespace Tracker

def new (registry : NonceRegistry) : Tracker where
  directory := ∅
  waiting := MAX_WAITING
  registrationBudget := DEFAULT_MAX_TRACKER_HANDSHAKES
  registry := registry
  handlers := []
  entries := 0
  handed := []

def setHandler (s : Tracker) (k : ℕ) (h : Handler) : Tracker :=
  { s with handlers := s.handlers.set k h }

/-- The permit goes back when a handler returns. -/
def release (s : Tracker) : Permit → Tracker
  | .none => s
  | .proof => { s with registrationBudget := s.registrationBudget + 1 }
  | .wait => { s with waiting := s.waiting + 1 }

/-- The check of the proof of work. -/
def provesWork (S : IdentityScheme) (difficulty : ℕ) (node timestamp nonce : String) (now : UInt64) :
    Bool :=
  match parseU64 timestamp, parseU64 nonce with
  | some ts, some n => verifyPow S node ts n difficulty now
  | _, _ => false

/-- The check of the proof of ownership, over the command, the challenge and the channel. -/
def authenticated (S : IdentityScheme) (command node : String) (challenge exporter : Bytes)
    (encoded : String) : Bool :=
  match hexDecode (utf8 encoded), hexDecode (utf8 node) with
  | some bytes, some pin =>
    if pin.length ≠ 32 then false
    else
      match verifyingKeyFromBytes pin, signatureFromSlice bytes with
      | some key, some signature =>
        S.verifyStrict key (registrationMessage command challenge exporter) signature
      | _, _ => false
  | _, _ => false

/-- A handler has read its command. -/
def dispatch (S : IdentityScheme) (difficulty : ℕ) (s : Tracker) (k : ℕ) (command : String)
    (now : UInt64) (challenge : Bytes) : Tracker :=
  let reply text := s.setHandler k ⟨command, .replying text .none⟩
  match parseCommand (splitWhitespace command) with
  | .registerReverse node _ timestamp nonce =>
    if provesWork S difficulty node timestamp nonce now = false then reply "ERROR_INVALID_POW"
    else if s.registrationBudget = 0 then reply "ERROR_BUSY"
    else { s.setHandler k ⟨command, .proving now challenge⟩ with
      registrationBudget := s.registrationBudget - 1 }
  | .connectReverse _ _ => s.setHandler k ⟨command, .connecting⟩
  | .nodes => s.setHandler k ⟨command, .listing⟩
  | .invalid => reply "ERROR_INVALID_COMMAND"

/-- A handler has read the proof of its registration. -/
def checkProof (S : IdentityScheme) (s : Tracker) (k : ℕ) (h : Handler) (now : UInt64)
    (challenge : Bytes) (encoded : String) (exporter : Option Bytes) : Option Tracker :=
  let reply (s : Tracker) text := s.setHandler k { h with phase := .replying text .proof }
  let finish := s.setHandler k { h with phase := .finished } |>.release .proof
  match h.request with
  | .registerReverse node _ _ nonce =>
    if (utf8 encoded).length ≠ PROOF_SIZE * 2 then some (reply s "ERROR_UNAUTHORIZED")
    else
      match exporter with
      | none => some finish
      | some exporter =>
        if authenticated S h.command node challenge exporter encoded = false then
          some (reply s "ERROR_UNAUTHORIZED")
        else
          match parseU64 nonce with
          | none => some finish
          | some nonce =>
            match s.registry.checkAndRecord node nonce now with
            | (true, registry) => some (reply { s with registry := registry } "ERROR_INVALID_POW")
            | (false, registry) =>
              some (({ s with registry := registry }.setHandler k { h with phase := .proved }).release
                .proof)
  | _ => none

/-- The entry of a node, a new one if there is none. -/
def entryOf (s : Tracker) (node token : String) : Entry :=
  s.directory[node]?.getD ⟨token, [], s.entries⟩

def countEntries (s : Tracker) (node : String) : ℕ :=
  if s.directory.contains node then s.entries else s.entries + 1

/-- A registration goes into the directory. A new entry has its token and has room. -/
def claim (s : Tracker) (k : ℕ) (h : Handler) (id : UInt64) : Option Tracker :=
  let refuse text := s.setHandler k { h with phase := .replying text .wait }
  match h.request with
  | .registerReverse node token _ _ =>
    let entry := s.entryOf node token
    if tokensMatch entry.token token = false then some (refuse "ERROR_UNAUTHORIZED")
    else if MAX_PER_NODE ≤ entry.waiting.length then some (refuse "ERROR_BUSY")
    else some { s.setHandler k { h with phase := .registered id entry.serial none .acknowledging } with
      directory := s.directory.insert node { entry with waiting := entry.waiting ++ [⟨id, k⟩] }
      entries := s.countEntries node }
  | _ => none

/-- A handler that was registered takes what is left of its registration out of the directory. -/
def cleanUp (s : Tracker) (k : ℕ) (h : Handler) (id : UInt64) : Option Tracker :=
  let s' := (s.setHandler k { h with phase := .finished }).release .wait
  match h.request with
  | .registerReverse node _ _ _ =>
    match s.directory[node]? with
    | none => some s'
    | some entry =>
      let waiting := entry.waiting.filter (·.id ≠ id)
      if waiting = [] then some { s' with directory := s.directory.erase node }
      else some { s' with directory := s.directory.insert node { entry with waiting := waiting } }
  | _ => none

/-- A client takes the latest registration of an entry whose token it has. -/
def select (s : Tracker) (k : ℕ) (h : Handler) : Option Tracker :=
  let unavailable := s.setHandler k { h with phase := .replying "ERROR_UNAVAILABLE" .none }
  match h.request with
  | .connectReverse node token =>
    match s.directory[node]? with
    | none => some unavailable
    | some entry =>
      if tokensMatch entry.token token = false then some unavailable
      else
        match entry.waiting.getLast? with
        | none => some unavailable
        | some w => some { s.setHandler k { h with phase := .handing w.request } with
            directory := s.directory.insert node { entry with waiting := entry.waiting.dropLast }
            handed := s.handed ++ [⟨w.request, k, entry.token⟩] }
  | _ => none

/-- A client offers its end of a channel to the registration, unless its handler has returned. -/
def hand (s : Tracker) (k : ℕ) (h : Handler) (registration : ℕ) : Tracker :=
  match s.handlers[registration]? with
  | some ⟨command, .registered id serial _ stage⟩ =>
    (s.setHandler k { h with phase := .awaiting registration }).setHandler registration
      ⟨command, .registered id serial (some k) stage⟩
  | _ => s.setHandler k { h with phase := .replying "ERROR_UNAVAILABLE" .none }

/-- A registration sends its stream to the client, if that still waits for it. -/
def handOver (s : Tracker) (k : ℕ) (h : Handler) (connector : ℕ) (id : UInt64) (serial : ℕ)
    (offer : Option ℕ) : Tracker :=
  let s := s.setHandler k { h with phase := .registered id serial offer .leaving }
  match s.handlers[connector]? with
  | some ⟨command, .awaiting registration⟩ =>
    if registration = k then s.setHandler connector ⟨command, .linked k⟩ else s
  | _ => s

/-- The nodes that have a registration waiting. -/
def listedNodes (s : Tracker) : List String :=
  (s.directory.toList.filter fun entry => !entry.2.waiting.isEmpty).map Prod.fst

/-- The reply to `NODES`. -/
def nodesReply (s : Tracker) : String :=
  let result := "\n".intercalate (s.listedNodes.mergeSort fun a b => decide (a ≤ b))
  if result = "" then "EMPTY" else result

def step (S : IdentityScheme) (difficulty : ℕ) (s : Tracker) : TrackerInput → Option Tracker
  | .accept => some { s with handlers := s.handlers ++ [⟨"", .reading⟩] }
  | .command k input now challenge =>
    match s.handlers[k]? with
    | some ⟨_, .reading⟩ =>
      match readControl input with
      | .error _ => some (s.setHandler k ⟨"", .finished⟩)
      | .ok command => some (s.dispatch S difficulty k command now challenge)
    | _ => none
  | .proof k input exporter =>
    match s.handlers[k]? with
    | some ⟨command, .proving now challenge⟩ =>
      match readControl input with
      | .error _ => some ((s.setHandler k ⟨command, .finished⟩).release .proof)
      | .ok encoded => s.checkProof S k ⟨command, .proving now challenge⟩ now challenge encoded exporter
    | _ => none
  | .reserve k id =>
    match s.handlers[k]? with
    | some ⟨command, .proved⟩ =>
      if s.waiting = 0 then some (s.setHandler k ⟨command, .replying "ERROR_BUSY" .none⟩)
      else some { s.setHandler k ⟨command, .claiming id⟩ with waiting := s.waiting - 1 }
    | _ => none
  | .claim k =>
    match s.handlers[k]? with
    | some ⟨command, .claiming id⟩ => s.claim k ⟨command, .claiming id⟩ id
    | _ => none
  | .acknowledged k =>
    match s.handlers[k]? with
    | some ⟨command, .registered id serial offer .acknowledging⟩ =>
      some (s.setHandler k ⟨command, .registered id serial offer .waiting⟩)
    | _ => none
  | .target k =>
    match s.handlers[k]? with
    | some ⟨command, .registered id serial (some connector) .waiting⟩ =>
      some (s.setHandler k ⟨command, .registered id serial (some connector) (.ready connector)⟩)
    | _ => none
  | .leave k =>
    match s.handlers[k]? with
    | some ⟨command, .registered id serial offer stage⟩ =>
      if stage = .leaving then none
      else some (s.setHandler k ⟨command, .registered id serial offer .leaving⟩)
    | _ => none
  | .ready k =>
    match s.handlers[k]? with
    | some ⟨command, .registered id serial offer (.ready connector)⟩ =>
      some (s.handOver k ⟨command, .registered id serial offer (.ready connector)⟩ connector id serial offer)
    | _ => none
  | .cleanUp k =>
    match s.handlers[k]? with
    | some ⟨command, .registered id serial offer .leaving⟩ =>
      s.cleanUp k ⟨command, .registered id serial offer .leaving⟩ id
    | _ => none
  | .select k =>
    match s.handlers[k]? with
    | some ⟨command, .connecting⟩ => s.select k ⟨command, .connecting⟩
    | _ => none
  | .hand k =>
    match s.handlers[k]? with
    | some ⟨command, .handing registration⟩ =>
      some (s.hand k ⟨command, .handing registration⟩ registration)
    | _ => none
  | .giveUp k =>
    match s.handlers[k]? with
    | some ⟨command, .awaiting _⟩ =>
      some (s.setHandler k ⟨command, .replying "ERROR_UNAVAILABLE" .none⟩)
    | _ => none
  | .close k =>
    match s.handlers[k]? with
    | some ⟨command, .linked _⟩ => some (s.setHandler k ⟨command, .finished⟩)
    | _ => none
  | .list k =>
    match s.handlers[k]? with
    | some ⟨command, .listing⟩ => some (s.setHandler k ⟨command, .replying s.nodesReply .none⟩)
    | _ => none
  | .replied k =>
    match s.handlers[k]? with
    | some ⟨command, .replying _ permit⟩ => some ((s.setHandler k ⟨command, .finished⟩).release permit)
    | _ => none
  | .disconnect k =>
    match s.handlers[k]? with
    | some ⟨command, .reading⟩ => some (s.setHandler k ⟨command, .finished⟩)
    | some ⟨command, .proving _ _⟩ => some ((s.setHandler k ⟨command, .finished⟩).release .proof)
    | _ => none

end Tracker

end AnonGuard
