import AnonGuard.Cell
import AnonGuard.Channel
import AnonGuard.Pacing

/-!
# Streams of a padded session

One stream of a session endpoint: the credit window for its outgoing cells, the
packing of queued reads into one cell, and the two worker tasks that `attach`
spawns. The actor loop owns the counters of `Stream`; the workers own their
program points and share the two channels with it. `Workers` also keeps the
histories of the local socket, which no code reads.
-/
namespace AnonGuard

def QUEUE : ℕ := 32
def WINDOW_CELLS : ℕ := 32

/-- `a - b` for `u32` values, which wraps below zero. -/
def sub32 (a b : ℕ) : ℕ := if b ≤ a then a - b else a + U32_SIZE - b

/-- `a + 1` for a `u32` value, which wraps at the top. -/
def succ32 (a : ℕ) : ℕ := if a + 1 < U32_SIZE then a + 1 else 0

theorem sub32_eq {a b : ℕ} (h : b ≤ a) : sub32 a b = a - b := if_pos h

/-- What a session endpoint reads in a decrypted cell and writes in a new one. -/
structure SessionCell where
  command : CellCommand
  id : ℕ
  data : Bytes
  deriving DecidableEq, Repr

/-- The number of a cumulative acknowledgement. -/
def SessionCell.ackValue (c : SessionCell) : ℕ := ofBe c.data

structure SendWindow where
  sent : ℕ
  acknowledged : ℕ
  deriving DecidableEq, Repr

inductive WindowError
  | windowExhausted | counterExhausted | acknowledgementSize | acknowledgementValue
  deriving DecidableEq, Repr

def WindowError.message : WindowError → String
  | windowExhausted => "Data window exhausted"
  | counterExhausted => "Data counter exhausted"
  | acknowledgementSize => "Invalid acknowledgement size"
  | acknowledgementValue => "Invalid or replayed acknowledgement"

namespace SendWindow

def drained (w : SendWindow) : Bool := w.sent == w.acknowledged

def available (w : SendWindow) : Bool := decide (sub32 w.sent w.acknowledged < WINDOW_CELLS)

/-- `SendWindow::sent`, which counts one more data cell. -/
def countSent (w : SendWindow) : Except WindowError SendWindow :=
  if w.available = false then .error .windowExhausted
  else if w.sent + 1 < U32_SIZE then .ok { w with sent := w.sent + 1 }
  else .error .counterExhausted

def acknowledge (w : SendWindow) (payload : Bytes) : Except WindowError SendWindow :=
  if payload.length ≠ 4 then .error .acknowledgementSize
  else
    let value := ofBe payload
    if value ≤ w.acknowledged ∨ value > w.sent then .error .acknowledgementValue
    else .ok { w with acknowledged := value }

theorem countSent_eq_ok {w w' : SendWindow} (h : w.countSent = .ok w') :
    w.available = true ∧ w.sent + 1 < U32_SIZE ∧ w' = { w with sent := w.sent + 1 } := by
  unfold countSent at h
  split_ifs at h with ha hs
  · exact ⟨by simpa using ha, hs, (Except.ok.inj h).symm⟩

theorem acknowledge_eq_ok {w w' : SendWindow} {payload : Bytes} :
    w.acknowledge payload = .ok w' ↔ payload.length = 4 ∧ w.acknowledged < ofBe payload ∧
      ofBe payload ≤ w.sent ∧ w' = { w with acknowledged := ofBe payload } := by
  unfold acknowledge
  by_cases hl : payload.length = 4
  · by_cases hv : ofBe payload ≤ w.acknowledged ∨ ofBe payload > w.sent
    · simp only [hl, hv]
      simp only [ne_eq, not_true_eq_false, if_false, if_true, reduceCtorEq, false_iff]
      omega
    · have hlt : w.acknowledged < ofBe payload ∧ ofBe payload ≤ w.sent := by omega
      simp [hl, hv, hlt, eq_comm]
  · simp [hl]

end SendWindow

/-- The receiving end of a stream's read queue, with the remainder of a read
that did not fit the last cell. -/
structure Outgoing where
  receiver : Channel Bytes
  pending : Option Bytes
  deriving DecidableEq, Repr

variable {rx : Channel Bytes}

namespace Outgoing

/-- The loop of `try_next`: at most `n` more queued reads, until the cell is
full. It returns the cell, the remainder of a read that did not fit, and the
queue. -/
def pack : ℕ → Bytes → List Bytes → Bytes × Option Bytes × List Bytes
  | _, data, [] => (data, none, [])
  | 0, data, next :: queue => (data, none, next :: queue)
  | n + 1, data, next :: queue =>
    if data.length = PAYLOAD_SIZE then (data, none, next :: queue)
    else if next.length > PAYLOAD_SIZE - data.length then
      (data ++ next.take (PAYLOAD_SIZE - data.length),
        some (next.drop (PAYLOAD_SIZE - data.length)), queue)
    else pack n (data ++ next) queue

/-- The cell that starts with `data`, and the state of the queue after it. -/
def packFrom (data : Bytes) (rx : Channel Bytes) : Bytes × Outgoing :=
  let packed := pack (QUEUE - 1) data rx.queue
  (packed.1, ⟨{ rx with queue := packed.2.2 }, packed.2.1⟩)

def tryNext (o : Outgoing) : Except TryRecvError (Bytes × Outgoing) :=
  match o.pending with
  | some data => .ok (packFrom data o.receiver)
  | none =>
    match o.receiver.tryRecv with
    | .error e => .error e
    | .ok (data, rx) => .ok (packFrom data rx)

/-- The bytes still to be sent, in order. -/
def bytes (o : Outgoing) : Bytes := o.pending.getD [] ++ o.receiver.queue.flatten

/-- A read is never empty and never exceeds a cell. -/
def ReadSize (data : Bytes) : Prop := data ≠ [] ∧ data.length ≤ PAYLOAD_SIZE

lemma ReadSize.append {data next : Bytes} (hdata : ReadSize data)
    (h : next.length ≤ PAYLOAD_SIZE - data.length) : ReadSize (data ++ next) := by
  refine ⟨by simp [hdata.1], ?_⟩
  have := hdata.2
  rw [List.length_append]
  omega

lemma ReadSize.drop {next : Bytes} {n : ℕ} (hnext : ReadSize next) (h : n < next.length) :
    ReadSize (next.drop n) := by
  refine ⟨List.drop_eq_nil_iff.not.2 (by omega), ?_⟩
  have := hnext.2
  rw [List.length_drop]
  omega

/-- All queued reads have such a size, and so has the remainder. -/
def WellSized (o : Outgoing) : Prop :=
  (∀ d ∈ o.pending, ReadSize d) ∧ ∀ d ∈ o.receiver.queue, ReadSize d

/-- Packing keeps the order of all bytes: what it puts into the cell, then what
it leaves behind. -/
lemma pack_bytes (n : ℕ) (data : Bytes) (queue : List Bytes) :
    (pack n data queue).1 ++ ((pack n data queue).2.1.getD [] ++ (pack n data queue).2.2.flatten) =
      data ++ queue.flatten := by
  fun_induction pack n data queue with
  | case1 | case2 | case3 => simp
  | case4 =>
    simp only [Option.getD_some, List.append_assoc, List.flatten_cons]
    rw [← List.append_assoc (List.take _ _), List.take_append_drop]
  | case5 n data next queue _ _ ih =>
    rw [ih, List.flatten_cons, List.append_assoc]

lemma pack_wellSized (n : ℕ) (data : Bytes) (queue : List Bytes) (hdata : ReadSize data)
    (hqueue : ∀ d ∈ queue, ReadSize d) :
    ReadSize (pack n data queue).1 ∧ (∀ d ∈ (pack n data queue).2.1, ReadSize d) ∧
      ∀ d ∈ (pack n data queue).2.2, ReadSize d := by
  fun_induction pack n data queue with
  | case1 | case2 | case3 => exact ⟨hdata, by simp, hqueue⟩
  | case4 n data next queue hfull hlong =>
    refine ⟨hdata.append (List.length_take_le _ _), ?_,
      fun d hd => hqueue d (List.mem_cons_of_mem _ hd)⟩
    rintro d ⟨⟩
    exact (hqueue next List.mem_cons_self).drop hlong
  | case5 n data next queue hfull hfits ih =>
    exact ih (hdata.append (by omega)) fun d hd => hqueue d (List.mem_cons_of_mem _ hd)

lemma packFrom_bytes (data : Bytes) (rx : Channel Bytes) :
    (packFrom data rx).1 ++ (packFrom data rx).2.bytes = data ++ rx.queue.flatten :=
  pack_bytes _ _ _

lemma packFrom_wellSized {data : Bytes} (hdata : ReadSize data) (hrx : ∀ d ∈ rx.queue, ReadSize d) :
    ReadSize (packFrom data rx).1 ∧ (packFrom data rx).2.WellSized :=
  pack_wellSized _ _ _ hdata hrx

/-- What a successful `try_next` does, as one statement for the proofs about
streams: it moves bytes from the front of the queue into one nonempty cell. -/
theorem tryNext_eq_ok {o o' : Outgoing} {data : Bytes} (h : o.tryNext = .ok (data, o')) :
    data ++ o'.bytes = o.bytes ∧
      o'.receiver = { o.receiver with queue := o'.receiver.queue } ∧
      (o.WellSized → ReadSize data ∧ o'.WellSized) := by
  unfold tryNext at h
  split at h
  · rename_i first hp
    cases h
    refine ⟨(packFrom_bytes first o.receiver).trans ?_, rfl,
      fun hw => packFrom_wellSized (hw.1 first hp) hw.2⟩
    rw [bytes, hp, Option.getD_some]
  · rename_i hp
    split at h
    · cases h
    · rename_i first rx hr
      obtain ⟨rest, hq, rfl⟩ := Channel.tryRecv_eq_ok.mp hr
      cases h
      refine ⟨(packFrom_bytes first _).trans ?_, rfl,
        fun hw => packFrom_wellSized (hw.2 first ?_) fun d hd => hw.2 d ?_⟩
      · rw [bytes, hp, hq, Option.getD_none, List.nil_append, List.flatten_cons]
      · rw [hq]
        exact List.mem_cons_self
      · rw [hq]
        exact List.mem_cons_of_mem _ hd

theorem tryNext_eq_error {o : Outgoing} {e : TryRecvError} (h : o.tryNext = .error e) :
    o.pending = none ∧ o.receiver.tryRecv = .error e := by
  unfold tryNext at h
  split at h
  · cases h
  · rename_i hp
    split at h
    · rename_i e' hr
      rw [hr, Except.error.inj h]
      exact ⟨hp, rfl⟩
    · cases h

end Outgoing

/-- The actor's record of one stream. Its channel ends are in `Workers`. -/
structure Stream where
  pending : Option Bytes
  window : SendWindow
  received : ℕ
  written : ℕ
  ack : Option ℕ
  sentEnd : Bool
  receivedEnd : Bool
  ready : Bool
  reply : Bool
  application : Bool
  deriving DecidableEq, Repr

namespace Stream

/-- The record that `attach` returns. -/
def attached : Stream :=
  ⟨none, ⟨0, 0⟩, 0, 0, none, false, false, true, false, false⟩

/-- The record of a stream that waits for the exit's answer. -/
def requested : Stream := { attached with ready := false, reply := true, application := true }

/-- The filter of the retirement pass. -/
def retirable (s : Stream) : Bool :=
  s.sentEnd && s.receivedEnd && s.window.drained && s.received == s.written && s.ack.isNone

/-- One turn of the round robin: an acknowledgement first, then data, then the
end of the stream. `rx` is the stream's end of the read queue. -/
def serve (s : Stream) (id : ℕ) (rx : Channel Bytes) :
    Except WindowError (Option (SessionCell × Stream × Channel Bytes)) :=
  if s.ready = false then .ok none
  else
    match s.ack with
    | some ack => .ok (some (⟨.dataAck, id, toBe 4 ack⟩, { s with ack := none }, rx))
    | none =>
      if s.sentEnd = false ∧ s.window.available = true then
        match Outgoing.tryNext ⟨rx, s.pending⟩ with
        | .ok (data, o) =>
          match s.window.countSent with
          | .error e => .error e
          | .ok window =>
            .ok (some (⟨.data, id, data⟩, { s with pending := o.pending, window := window },
              o.receiver))
        | .error .disconnected => .ok (some (⟨.end, id, []⟩, { s with sentEnd := true }, rx))
        | .error .empty => .ok none
      else .ok none

/-- Whether a turn of this stream produces a cell. -/
def serviceable (s : Stream) (rx : Channel Bytes) : Bool :=
  s.ready && (s.ack.isSome || (!s.sentEnd && s.window.available &&
    (s.pending.isSome || !rx.queue.isEmpty || !rx.senderOpen)))

/-- The three kinds of turns that produce a cell. -/
inductive Serves (s : Stream) (id : ℕ) (rx : Channel Bytes) :
    SessionCell → Stream → Channel Bytes → Prop
  | ack (a : ℕ) (hready : s.ready = true) (hack : s.ack = some a) :
      Serves s id rx ⟨.dataAck, id, toBe 4 a⟩ { s with ack := none } rx
  | data (data : Bytes) (o : Outgoing) (hready : s.ready = true) (hack : s.ack = none)
      (hend : s.sentEnd = false) (havail : s.window.available = true)
      (hcount : s.window.sent + 1 < U32_SIZE)
      (hnext : Outgoing.tryNext ⟨rx, s.pending⟩ = .ok (data, o)) :
      Serves s id rx ⟨.data, id, data⟩ { s with
        pending := o.pending
        window := { s.window with sent := s.window.sent + 1 } } o.receiver
  | stop (hready : s.ready = true) (hack : s.ack = none) (hend : s.sentEnd = false)
      (havail : s.window.available = true) (hpending : s.pending = none)
      (hqueue : rx.queue = []) (hsender : rx.senderOpen = false) :
      Serves s id rx ⟨.end, id, []⟩ { s with sentEnd := true } rx

theorem serve_eq_ok {s s' : Stream} {id : ℕ} {rx rx' : Channel Bytes} {c : SessionCell}
    (h : s.serve id rx = .ok (some (c, s', rx'))) : Serves s id rx c s' rx' := by
  obtain ⟨pending, window, received, written, ack, sentEnd, receivedEnd, ready, reply, app⟩ := s
  unfold serve at h
  cases ready with
  | false => cases h
  | true =>
    cases ack with
    | some a =>
      cases h
      exact .ack a rfl rfl
    | none =>
      simp only [Bool.true_eq_false, if_false] at h
      split_ifs at h with hopen
      · cases hnext : Outgoing.tryNext ⟨rx, pending⟩ with
        | ok p =>
          cases hcount : window.countSent with
          | error =>
            simp only [hnext, hcount] at h
            cases h
          | ok =>
            simp only [hnext, hcount] at h
            obtain ⟨-, hlt, rfl⟩ := SendWindow.countSent_eq_ok hcount
            cases h
            exact .data p.1 p.2 rfl rfl hopen.1 hopen.2 hlt hnext
        | error e =>
          obtain ⟨hp, hr⟩ := Outgoing.tryNext_eq_error hnext
          simp only [hnext] at h
          cases e with
          | empty => cases h
          | disconnected =>
            cases h
            obtain ⟨hq, hs⟩ := Channel.tryRecv_eq_disconnected.mp hr
            exact .stop rfl rfl hopen.1 hopen.2 hp hq hs
      · cases h

lemma tryNext_isOk {pending : Option Bytes} :
    (∃ p, Outgoing.tryNext ⟨rx, pending⟩ = .ok p) ↔ pending ≠ none ∨ rx.queue ≠ [] := by
  unfold Outgoing.tryNext
  cases pending with
  | some => simp
  | none =>
    cases hr : rx.tryRecv with
    | ok p =>
      obtain ⟨rest, hq, -⟩ := Channel.tryRecv_eq_ok.mp (show rx.tryRecv = .ok (p.1, p.2) from hr)
      simp [hq]
    | error e =>
      have hq : rx.queue = [] := by
        cases e with
        | empty => exact (Channel.tryRecv_eq_empty.mp hr).1
        | disconnected => exact (Channel.tryRecv_eq_disconnected.mp hr).1
      simp [hq]

/-- A turn is skipped exactly when the stream is not serviceable. -/
theorem serve_eq_none {s : Stream} {id : ℕ} :
    s.serve id rx = .ok none ↔ s.serviceable rx = false := by
  unfold serve serviceable
  cases hready : s.ready
  · simp
  · cases hack : s.ack with
    | some => simp
    | none =>
      by_cases hopen : s.sentEnd = false ∧ s.window.available = true
      · cases hnext : Outgoing.tryNext ⟨rx, s.pending⟩ with
        | ok p =>
          have hsome := tryNext_isOk.mp ⟨p, hnext⟩
          cases s.window.countSent <;> simp [hopen] <;> tauto
        | error e =>
          obtain ⟨hp, hr⟩ := Outgoing.tryNext_eq_error hnext
          simp only at hp hr
          cases e with
          | empty =>
            obtain ⟨hq, hs⟩ := Channel.tryRecv_eq_empty.mp hr
            simp [hopen, hp, hq, hs]
          | disconnected =>
            obtain ⟨hq, hs⟩ := Channel.tryRecv_eq_disconnected.mp hr
            simp [hopen, hp, hq, hs]
      · simp only [Bool.true_eq_false, if_false, hopen]
        rw [not_and_or] at hopen
        cases hopen <;> simp_all

end Stream

end AnonGuard
