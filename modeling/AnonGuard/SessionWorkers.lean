import AnonGuard.SessionStream

/-!
# The worker tasks of a stream

`attach` spawns a writer and a reader for each local socket. Each is a small
program whose points are the places where it can be suspended, so that every
interleaving with the actor loop is a sequence of steps. A worker that fails
queues its `Failed` event first and drops its channel end afterwards; the two
are separate steps. Steps remain possible after the actor has dropped the
stream, because an abort takes effect only at the next suspension point.
-/
namespace AnonGuard

inductive Event
  | written (id count : ℕ)
  | connected (id : ℕ) (ok : Bool)
  | failed (id : ℕ)
  deriving DecidableEq, Repr

def Event.id : Event → ℕ
  | written id _ => id
  | connected id _ => id
  | failed id => id

inductive WriterPoint
  | recv
  | write (rest : Bytes)
  | notify
  | shutdown
  | report
  | leave
  | gone
  deriving DecidableEq, Repr

inductive ReaderPoint
  | read
  | send (data : Bytes)
  | report
  | leave
  | gone
  deriving DecidableEq, Repr

/-- The two tasks of one stream, the channels they share with the actor, and
the histories of the socket: the chunks handed to the writer, the bytes written
and read, and what ended the tasks while the actor still had the stream. -/
structure Workers where
  incoming : Channel (Option Bytes)
  outgoing : Channel Bytes
  writer : WriterPoint
  reader : ReaderPoint
  count : ℕ
  replyClosed : Bool
  accepted : List Bytes
  wrote : Bytes
  read : Bytes
  eof : Bool
  readFailed : Bool
  writeFailed : Bool
  deriving DecidableEq, Repr

inductive WorkerInput
  | take
  | put (n : ℕ)
  | writeError
  | notify
  | shutdown
  | writerReport
  | writerLeave
  | read (data : Bytes)
  | eof
  | readError
  | send
  | readerReport
  | readerLeave
  | cancelReply
  deriving DecidableEq, Repr

namespace Workers

/-- No stream was attached under this id yet. -/
def absent : Workers :=
  ⟨⟨[], QUEUE + 1, false, false⟩, ⟨[], QUEUE, false, false⟩, .gone, .gone, 0, false, [], [], [],
    false, false, false⟩

/-- The tasks that `attach` spawns. -/
def attached : Workers :=
  ⟨.new (QUEUE + 1), .new QUEUE, .recv, .read, 0, false, [], [], [], false, false, false⟩

/-- The actor drops the `Stream` and with it both of its channel ends. -/
def detach (w : Workers) : Workers :=
  { w with incoming := w.incoming.dropSender, outgoing := w.outgoing.dropReceiver }

/-- The actor's `incoming.try_send`. -/
def deliver (w : Workers) (item : Option Bytes) : Except TrySendError Workers :=
  match w.incoming.trySend item with
  | .error e => .error e
  | .ok incoming => .ok { w with incoming := incoming, accepted := w.accepted ++ item.toList }

/-- A failure counts while the actor still has the stream. -/
def failWriter (w : Workers) : Workers :=
  { w with writer := .report, writeFailed := w.writeFailed || w.incoming.senderOpen }

def failReader (w : Workers) : Workers :=
  { w with reader := .report, readFailed := w.readFailed || w.outgoing.receiverOpen }

def takeInput (w : Workers) : Option Workers :=
  match w.incoming.tryRecv with
  | .ok (some data, incoming) => some { w with incoming := incoming, writer := .write data }
  | .ok (none, incoming) => some { w with incoming := incoming, writer := .shutdown }
  | .error .disconnected => some { w with writer := .leave }
  | .error .empty => none

/-- `write_all` made progress by `n` bytes of `rest`. -/
def putBytes (w : Workers) (rest : Bytes) (n : ℕ) : Workers :=
  if rest.drop n ≠ [] then
    { w with writer := .write (rest.drop n), wrote := w.wrote ++ rest.take n }
  else if w.count + 1 < U32_SIZE then
    { w with writer := .notify, wrote := w.wrote ++ rest, count := w.count + 1 }
  else failWriter { w with wrote := w.wrote ++ rest }

/-- `output.send`, which waits while the queue is full. -/
def sendOutput (w : Workers) (data : Bytes) : Option Workers :=
  match w.outgoing.trySend data with
  | .ok outgoing => some { w with outgoing := outgoing, reader := .read }
  | .error .closed => some { w with reader := .leave }
  | .error .full => none

/-- One step of a worker task, or of the requester that drops its reply. `room`
says whether the event queue accepts another event. -/
def step (w : Workers) (id : ℕ) (room : Bool) : WorkerInput → Option (Workers × List Event)
  | .take => if w.writer = .recv then w.takeInput.map (·, []) else none
  | .put n =>
    match w.writer with
    | .write rest => if n ≤ rest.length then some (w.putBytes rest n, []) else none
    | _ => none
  | .writeError =>
    match w.writer with
    | .write _ | .shutdown => some (w.failWriter, [])
    | _ => none
  | .notify =>
    if w.writer = .notify ∧ room = true then
      some ({ w with writer := .recv }, [.written id w.count])
    else none
  | .shutdown => if w.writer = .shutdown then some ({ w with writer := .leave }, []) else none
  | .writerReport =>
    if w.writer = .report ∧ room = true then some ({ w with writer := .leave }, [.failed id])
    else none
  | .writerLeave =>
    if w.writer = .leave then
      some ({ w with writer := .gone, incoming := w.incoming.dropReceiver }, [])
    else none
  | .read data =>
    if w.reader = .read ∧ data ≠ [] ∧ data.length ≤ PAYLOAD_SIZE then
      some ({ w with reader := .send data, read := w.read ++ data }, [])
    else none
  | .eof => if w.reader = .read then some ({ w with reader := .leave, eof := true }, []) else none
  | .readError => if w.reader = .read then some (w.failReader, []) else none
  | .send =>
    match w.reader with
    | .send data => (w.sendOutput data).map (·, [])
    | _ => none
  | .readerReport =>
    if w.reader = .report ∧ room = true then some ({ w with reader := .leave }, [.failed id])
    else none
  | .readerLeave =>
    if w.reader = .leave then
      some ({ w with reader := .gone, outgoing := w.outgoing.dropSender }, [])
    else none
  | .cancelReply => some ({ w with replyClosed := true }, [])

/-- What a worker step can do. Every invariant about workers goes through these
cases. -/
inductive Steps (id : ℕ) (w : Workers) : Workers → List Event → Prop
  | take (data : Bytes) (rest : List (Option Bytes)) (hw : w.writer = .recv)
      (hq : w.incoming.queue = some data :: rest) :
      Steps id w { w with incoming := { w.incoming with queue := rest }, writer := .write data } []
  | takeEnd (rest : List (Option Bytes)) (hw : w.writer = .recv)
      (hq : w.incoming.queue = none :: rest) :
      Steps id w { w with incoming := { w.incoming with queue := rest }, writer := .shutdown } []
  | inputClosed (hw : w.writer = .recv) (hq : w.incoming.queue = [])
      (hs : w.incoming.senderOpen = false) : Steps id w { w with writer := .leave } []
  | put (n : ℕ) (rest : Bytes) (hw : w.writer = .write rest) :
      Steps id w { w with writer := .write (rest.drop n), wrote := w.wrote ++ rest.take n } []
  | putLast (rest : Bytes) (hw : w.writer = .write rest) (hc : w.count + 1 < U32_SIZE) :
      Steps id w { w with writer := .notify, wrote := w.wrote ++ rest, count := w.count + 1 } []
  | putOverflow (rest : Bytes) (hw : w.writer = .write rest) :
      Steps id w (failWriter { w with wrote := w.wrote ++ rest }) []
  | writeError (hw : w.writer = .shutdown ∨ ∃ rest, w.writer = .write rest) :
      Steps id w w.failWriter []
  | notify (hw : w.writer = .notify) : Steps id w { w with writer := .recv } [.written id w.count]
  | shutdown (hw : w.writer = .shutdown) : Steps id w { w with writer := .leave } []
  | writerReport (hw : w.writer = .report) : Steps id w { w with writer := .leave } [.failed id]
  | writerLeave (hw : w.writer = .leave) :
      Steps id w { w with writer := .gone, incoming := w.incoming.dropReceiver } []
  | read (data : Bytes) (hr : w.reader = .read) (hd : data ≠ [] ∧ data.length ≤ PAYLOAD_SIZE) :
      Steps id w { w with reader := .send data, read := w.read ++ data } []
  | eof (hr : w.reader = .read) : Steps id w { w with reader := .leave, eof := true } []
  | readError (hr : w.reader = .read) : Steps id w w.failReader []
  | send (data : Bytes) (hr : w.reader = .send data) (ho : w.outgoing.receiverOpen = true) :
      Steps id w { w with
        outgoing := { w.outgoing with queue := w.outgoing.queue ++ [data] }, reader := .read } []
  | outputClosed (data : Bytes) (hr : w.reader = .send data)
      (ho : w.outgoing.receiverOpen = false) : Steps id w { w with reader := .leave } []
  | readerReport (hr : w.reader = .report) : Steps id w { w with reader := .leave } [.failed id]
  | readerLeave (hr : w.reader = .leave) :
      Steps id w { w with reader := .gone, outgoing := w.outgoing.dropSender } []
  | cancelReply : Steps id w { w with replyClosed := true } []

variable {w w' : Workers} {id : ℕ}

lemma steps_of_takeInput (hw : w.writer = .recv) (h : w.takeInput = some w') : Steps id w w' [] := by
  unfold takeInput at h
  split at h
  · rename_i data incoming hr
    obtain ⟨rest, hq, rfl⟩ := Channel.tryRecv_eq_ok.mp hr
    cases h
    exact .take data rest hw hq
  · rename_i incoming hr
    obtain ⟨rest, hq, rfl⟩ := Channel.tryRecv_eq_ok.mp hr
    cases h
    exact .takeEnd rest hw hq
  · rename_i hr
    obtain ⟨hq, hs⟩ := Channel.tryRecv_eq_disconnected.mp hr
    cases h
    exact .inputClosed hw hq hs
  · cases h

lemma steps_putBytes {w : Workers} {rest : Bytes} (n : ℕ) (hw : w.writer = .write rest) :
    Steps id w (w.putBytes rest n) [] := by
  unfold putBytes
  split_ifs with hmore hc
  · exact .put n rest hw
  · exact .putLast rest hw hc
  · exact .putOverflow rest hw

lemma steps_of_sendOutput {data : Bytes} (hr : w.reader = .send data)
    (h : w.sendOutput data = some w') : Steps id w w' [] := by
  unfold sendOutput Channel.trySend at h
  split_ifs at h with hclosed hfull
  · cases h
    exact .outputClosed data hr hclosed
  · cases h
    exact .send data hr (by simpa using hclosed)

theorem steps_of_step {room : Bool} {i : WorkerInput}
    {events : List Event} (h : w.step id room i = some (w', events)) : Steps id w w' events := by
  cases i with
  | take =>
    simp only [step] at h
    split_ifs at h with hw
    obtain ⟨v, hv, he⟩ := Option.map_eq_some_iff.mp h
    cases he
    exact steps_of_takeInput hw hv
  | put n =>
    simp only [step] at h
    split at h
    · split_ifs at h
      cases h
      exact steps_putBytes n ‹_›
    · cases h
  | writeError =>
    simp only [step] at h
    split at h
    · cases h
      exact .writeError (.inr ⟨_, ‹_›⟩)
    · cases h
      exact .writeError (.inl ‹_›)
    · cases h
  | notify =>
    simp only [step] at h
    split_ifs at h with hw
    cases h
    exact .notify hw.1
  | shutdown =>
    simp only [step] at h
    split_ifs at h with hw
    cases h
    exact .shutdown hw
  | writerReport =>
    simp only [step] at h
    split_ifs at h with hw
    cases h
    exact .writerReport hw.1
  | writerLeave =>
    simp only [step] at h
    split_ifs at h with hw
    cases h
    exact .writerLeave hw
  | read data =>
    simp only [step] at h
    split_ifs at h with hr
    cases h
    exact .read data hr.1 hr.2
  | eof =>
    simp only [step] at h
    split_ifs at h with hr
    cases h
    exact .eof hr
  | readError =>
    simp only [step] at h
    split_ifs at h with hr
    cases h
    exact .readError hr
  | send =>
    simp only [step] at h
    split at h
    · obtain ⟨v, hv, he⟩ := Option.map_eq_some_iff.mp h
      cases he
      exact steps_of_sendOutput ‹_› hv
    · cases h
  | readerReport =>
    simp only [step] at h
    split_ifs at h with hr
    cases h
    exact .readerReport hr.1
  | readerLeave =>
    simp only [step] at h
    split_ifs at h with hr
    cases h
    exact .readerLeave hr
  | cancelReply =>
    cases h
    exact .cancelReply

theorem deliver_eq_ok {item : Option Bytes} : w.deliver item = .ok w' ↔
    w.incoming.receiverOpen = true ∧ w.incoming.queue.length < w.incoming.capacity ∧
      w' = { w with
        incoming := { w.incoming with queue := w.incoming.queue ++ [item] }
        accepted := w.accepted ++ item.toList } := by
  unfold deliver
  split
  · rename_i e he
    simp only [reduceCtorEq, false_iff]
    rintro ⟨ho, hl, -⟩
    rw [Channel.trySend_eq_ok.mpr ⟨ho, hl, rfl⟩] at he
    cases he
  · rename_i incoming hok
    obtain ⟨ho, hl, rfl⟩ := Channel.trySend_eq_ok.mp hok
    simp [ho, hl, eq_comm]

end Workers

end AnonGuard
