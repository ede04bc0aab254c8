import AnonGuard.Cell
import AnonGuard.Pacing
import AnonGuard.Pipe
import AnonGuard.Transition

/-!
# Covered links

A covered link sends one envelope per slot, whether or not the application has written.
A producer cuts what the application writes into cells, a writer puts the next cell or
random octets into an envelope when its clock fires, and a reader at the other end passes
on what the cells hold. This is the model of one direction, with the three tasks, the two
buffers between application and tasks, the queue and the wire. Every step is one that a
task takes between two suspensions, and a task may be stopped at each of them.

Every octet carries where it comes from. No code looks at that.
-/
namespace AnonGuard

inductive Origin
  | header
  | application (position : ℕ)
  | dummy
  deriving DecidableEq, Repr

structure Octet where
  value : UInt8
  origin : Origin
  deriving DecidableEq, Repr

inductive Poll (α : Type)
  | pending
  | ready (result : Except String α)

namespace CoveredLink

def FRAME : ℕ := ONION_CELL_SIZE + 4
def QUEUE : ℕ := 64
def DEADLINE : ℕ := 30 * 10 ^ 9

/-- The receive credit counts billionths of an envelope, of which 200 accrue in one
nanosecond. -/
def CREDIT : ℕ := 10 ^ 9
def BURST : ℕ := 128 * CREDIT

inductive Producer
  | idle
  | filling (cell : List Octet)
  | sending (cell : List Octet)
  | done
  deriving DecidableEq

inductive Writer
  | sleeping
  | writing (rest : List Octet) (cell : Bool)
  | flushing (cell : Bool)
  | closing
  | done
  deriving DecidableEq

inductive Reader
  | collecting (frame : List Octet)
  | delivering (rest : List Octet)
  | done
  deriving DecidableEq

inductive Worker
  | producer
  | writer
  | reader
  deriving DecidableEq

/-- An envelope that the writer has begun to write. -/
structure Emission where
  start : ℕ
  frame : List Octet

/-- The four leading octets of an envelope. -/
def header (kind : UInt8) : List Octet :=
  [⟨1, .header⟩, ⟨kind, .header⟩, ⟨0, .header⟩, ⟨0, .header⟩]

/-- What the reader makes of an envelope: the cell in it, or nothing. -/
def openEnvelope : List Octet → Except String (Option (List Octet))
  | version :: kind :: reserved :: reserved' :: payload =>
    if version.value ≠ 1 ∨ reserved.value ≠ 0 ∨ reserved'.value ≠ 0 then
      .error "Invalid covered envelope"
    else if kind.value = 1 then .ok (some payload)
    else if kind.value = 2 then .ok none
    else .error "Unknown covered envelope kind"
  | _ => .error "Invalid covered envelope"

end CoveredLink

open CoveredLink in
/-- The sending half of a covered stream, the wire and the receiving half of the other
end. -/
structure CoveredLink where
  interval : ℕ
  now : ℕ
  /-- From the application to the producer. -/
  application : Pipe Octet
  /-- The application has shut down its end of the pipe. -/
  closed : Bool
  flushing : Option (ℕ × ℕ)
  shutting : Option ℕ
  shutdownDone : Bool
  cancelled : Bool
  producer : Producer
  queue : Pipe (List Octet)
  writer : Writer
  clock : ℕ
  emitted : List Emission
  progress : ℕ
  finished : Bool
  wire : Pipe Octet
  wireClosed : Bool
  reader : Reader
  credit : ℕ
  updated : ℕ
  /-- From the reader to the remote application. -/
  remote : Pipe Octet
  remoteCancelled : Bool

inductive CoverInput
  | tick (elapsed : ℕ)
  | pollWrite (buf : Bytes)
  | pollFlush
  | pollShutdown
  | cancel
  | produce (count : ℕ)
  | enqueue
  | wake (filling : Bytes)
  | transmit (count : ℕ)
  | flushed
  | close
  | receive (count : ℕ)
  | deliver (count : ℕ)
  | pollRead (count : ℕ)
  | cancelRemote
  | fail (worker : CoveredLink.Worker)
  | stop (worker : CoveredLink.Worker)

namespace CoveredLink

/-- A link whose clock first fires after the phase. -/
def start (interval phase now : ℕ) : CoveredLink where
  interval := interval
  now := now
  application := .empty
  closed := false
  flushing := none
  shutting := none
  shutdownDone := false
  cancelled := false
  producer := .idle
  queue := .empty
  writer := .sleeping
  clock := now + phase
  emitted := []
  progress := 0
  finished := false
  wire := .empty
  wireClosed := false
  reader := .collecting []
  credit := BURST
  updated := now
  remote := .empty
  remoteCancelled := false

/-- `wrap`, at both ends. The phase is the random one. -/
def wrap (interval phase now : ℕ) : Except String CoveredLink :=
  if interval < 10 * 10 ^ 6 ∨ 10 ^ 9 < interval then .error "Covered link interval out of bounds"
  else .ok (start interval phase now)

/-- Octets of the application, from a position on. -/
def tagged (position : ℕ) (buf : Bytes) : List Octet :=
  buf.zipIdx.map fun entry => ⟨entry.1, .application (position + entry.2)⟩

def pollWrite (s : CoveredLink) (buf : Bytes) : Poll ℕ × CoveredLink :=
  if s.shutting.isSome ∨ s.shutdownDone = true ∨ s.cancelled = true then
    (.ready (.error "Covered link shutting down"), s)
  else
    let available := ONION_CELL_SIZE * QUEUE - s.application.buffered.length
    if available = 0 then (.pending, s)
    else
      let count := min buf.length available
      (.ready (.ok count), { s with
        application := s.application.push (tagged s.application.written.length (buf.take count))
        flushing := none })

/-- Whether a future with a deadline that was started then has timed out. -/
def expired (s : CoveredLink) (started : ℕ) : Bool := started + DEADLINE ≤ s.now

def pollFlush (s : CoveredLink) : Poll Unit × CoveredLink :=
  if s.application.written.length % ONION_CELL_SIZE ≠ 0 then
    (.ready (.error "Cannot flush a partial onion cell"), s)
  else
    let pending := s.flushing.getD (s.application.written.length, s.now)
    if pending.1 ≤ s.progress then (.ready (.ok ()), { s with flushing := none })
    else if s.writer = .done then
      (.ready (.error "Covered writer closed before flush"),
        { s with flushing := none, cancelled := true })
    else if s.expired pending.2 then
      (.ready (.error "Covered link deadline"), { s with flushing := none, cancelled := true })
    else (.pending, { s with flushing := some pending })

def pollShutdown (s : CoveredLink) : Poll Unit × CoveredLink :=
  if s.shutdownDone then (.ready (.ok ()), s)
  else
    let started := s.shutting.getD s.now
    let s := { s with closed := true }
    if s.finished then (.ready (.ok ()), { s with shutting := some started, shutdownDone := true })
    else if s.writer = .done then
      (.ready (.error "Covered shutdown failed"), { s with shutting := none, cancelled := true })
    else if s.expired started then
      (.ready (.error "Covered link deadline"), { s with shutting := none, cancelled := true })
    else (.pending, { s with shutting := some started })

/-- A task stops. Its error, if it has one, cancels the others of its end. -/
def halt (s : CoveredLink) (failed : Bool) : Worker → CoveredLink
  | .producer => { s with producer := .done, cancelled := s.cancelled || failed }
  | .writer => { s with writer := .done, wireClosed := true, cancelled := s.cancelled || failed }
  | .reader => { s with reader := .done, remoteCancelled := s.remoteCancelled || failed }

/-- The producer reads: the first octet alone, then the rest of the cell in any pieces. -/
def produce (s : CoveredLink) (count : ℕ) : Option CoveredLink :=
  match s.producer with
  | .idle =>
    match s.application.buffered with
    | octet :: _ =>
      some { s with producer := .filling [octet], application := s.application.pull 1 }
    | [] => if s.closed then some (s.halt false .producer) else none
  | .filling cell =>
    let count := min count (ONION_CELL_SIZE - cell.length)
    match s.application.buffered.take count with
    | [] => if s.closed ∧ s.application.buffered = [] then some (s.halt true .producer) else none
    | octet :: octets =>
      let cell := cell ++ octet :: octets
      some { s with
        producer := if cell.length = ONION_CELL_SIZE then .sending cell else .filling cell
        application := s.application.pull count }
  | .sending _ | .done => none

def enqueue (s : CoveredLink) : Option CoveredLink :=
  match s.producer with
  | .sending cell =>
    if s.writer = .done then some (s.halt true .producer)
    else if s.queue.buffered.length < QUEUE then
      some { s with producer := .idle, queue := s.queue.push [cell] }
    else none
  | _ => none

/-- The writer begins an envelope. -/
def begin (s : CoveredLink) (kind : UInt8) (payload : List Octet) : CoveredLink :=
  let frame := header kind ++ payload
  { s with writer := .writing frame (kind == 1), emitted := s.emitted ++ [⟨s.now, frame⟩] }

@[simp] theorem queue_begin (s : CoveredLink) (kind : UInt8) (payload : List Octet) :
    (s.begin kind payload).queue = s.queue := rfl

/-- The writer's clock fires. -/
def wake (s : CoveredLink) (filling : Bytes) : Option CoveredLink :=
  if s.writer ≠ .sleeping ∨ s.now < s.clock ∨ filling.length ≠ ONION_CELL_SIZE then none
  else
    match s.queue.buffered with
    | cell :: _ => some ({ s with queue := s.queue.pull 1 }.begin 1 cell)
    | [] =>
      if s.producer = .done then some { s with writer := .closing }
      else some (s.begin 2 (filling.map (⟨·, .dummy⟩)))

def transmit (s : CoveredLink) (count : ℕ) : Option CoveredLink :=
  match s.writer with
  | .writing rest cell => some { s with
      wire := s.wire.push (rest.take count)
      writer := if rest.length ≤ count then .flushing cell else .writing (rest.drop count) cell }
  | _ => none

def flushed (s : CoveredLink) : Option CoveredLink :=
  match s.writer with
  | .flushing cell => some { s with
      writer := .sleeping
      progress := if cell then s.progress + ONION_CELL_SIZE else s.progress
      clock := nextDeadline s.clock s.now s.interval }
  | _ => none

/-- Flush and shutdown of the wire, after the last cell. The writer's end cancels. -/
def close (s : CoveredLink) : Option CoveredLink :=
  if s.writer = .closing then some { s.halt true .writer with finished := true } else none

/-- The reader has an envelope: it checks its rate and looks inside. -/
def accept (s : CoveredLink) (frame : List Octet) : CoveredLink :=
  let credit := min (s.credit + (s.now - s.updated) * 200) BURST
  if credit < CREDIT then s.halt true .reader
  else
    match openEnvelope frame with
    | .error _ => s.halt true .reader
    | .ok payload => { s with
        reader := match payload with
          | some cell => .delivering cell
          | none => .collecting []
        credit := credit - CREDIT
        updated := s.now }

def receive (s : CoveredLink) (count : ℕ) : Option CoveredLink :=
  match s.reader with
  | .collecting part =>
    let count := min count (FRAME - part.length)
    match s.wire.buffered.take count with
    | [] => if s.wireClosed ∧ s.wire.buffered = [] then some (s.halt true .reader) else none
    | octet :: octets =>
      let part := part ++ octet :: octets
      let s := { s with wire := s.wire.pull count }
      if part.length = FRAME then some (s.accept part) else some { s with reader := .collecting part }
  | _ => none

def deliver (s : CoveredLink) (count : ℕ) : Option CoveredLink :=
  match s.reader with
  | .delivering rest =>
    if ONION_CELL_SIZE * QUEUE < s.remote.buffered.length + (rest.take count).length then none
    else some { s with
      remote := s.remote.push (rest.take count)
      reader := if rest.length ≤ count then .collecting [] else .delivering (rest.drop count) }
  | _ => none

def step (s : CoveredLink) : CoverInput → Option CoveredLink
  | .tick elapsed => some { s with now := s.now + elapsed }
  | .pollWrite buf => some (s.pollWrite buf).2
  | .pollFlush => some s.pollFlush.2
  | .pollShutdown => some s.pollShutdown.2
  | .cancel => some { s with cancelled := true, closed := true }
  | .produce count => s.produce count
  | .enqueue => s.enqueue
  | .wake filling => s.wake filling
  | .transmit count => s.transmit count
  | .flushed => s.flushed
  | .close => s.close
  | .receive count => s.receive count
  | .deliver count => s.deliver count
  | .pollRead count => some { s with remote := s.remote.pull count }
  | .cancelRemote => some { s with remoteCancelled := true }
  | .fail worker => some (s.halt true worker)
  | .stop worker =>
    let cancelled := match worker with
      | .producer | .writer => s.cancelled
      | .reader => s.remoteCancelled
    if cancelled then some (s.halt false worker) else none

/-- The part of a cell that the producer holds. -/
def Producer.held : Producer → List Octet
  | filling cell | sending cell => cell
  | idle | done => []

/-- Everything that a step can do. What `receive` and `deliver` make of the reader is left to
their definitions. -/
inductive Effect (s : CoveredLink) : CoverInput → CoveredLink → Prop
  | tick (elapsed : ℕ) : Effect s (.tick elapsed) { s with now := s.now + elapsed }
  | writeRefused (buf : Bytes) : Effect s (.pollWrite buf) s
  | write (buf part : Bytes)
      (h : ¬ (s.shutting.isSome = true ∨ s.shutdownDone = true ∨ s.cancelled = true)) :
      Effect s (.pollWrite buf) { s with
        application := s.application.push (tagged s.application.written.length part)
        flushing := none }
  | flush (pending : Option (ℕ × ℕ)) (failed : Bool)
      (h : ∀ p ∈ pending, p = s.flushing.getD (s.application.written.length, s.now)) :
      Effect s .pollFlush { s with flushing := pending, cancelled := s.cancelled || failed }
  | shutAgain : Effect s .pollShutdown s
  | shut (started : ℕ) (done : Bool) (h : done = true → s.finished = true) :
      Effect s .pollShutdown { s with closed := true, shutting := some started, shutdownDone := done }
  | shutFailed : Effect s .pollShutdown { s with closed := true, shutting := none, cancelled := true }
  | cancel : Effect s .cancel { s with cancelled := true, closed := true }
  | produce (count n : ℕ) (p : Producer) (hworks : s.producer ≠ .done) (hp : p ≠ .done)
      (hheld : p.held = s.producer.held ++ s.application.buffered.take n)
      (hfull : ∀ cell, p = .sending cell → cell.length = ONION_CELL_SIZE) :
      Effect s (.produce count) { s with producer := p, application := s.application.pull n }
  | enqueue (cell : List Octet) (hp : s.producer = .sending cell) :
      Effect s .enqueue { s with producer := .idle, queue := s.queue.push [cell] }
  | wakeCell (filling : Bytes) (cell : List Octet) (rest : List (List Octet))
      (hw : s.writer = .sleeping) (hq : s.queue.buffered = cell :: rest) :
      Effect s (.wake filling) ({ s with queue := s.queue.pull 1 }.begin 1 cell)
  | wakeEmpty (filling : Bytes) (hw : s.writer = .sleeping)
      (hfilling : filling.length = ONION_CELL_SIZE) :
      Effect s (.wake filling) (s.begin 2 (filling.map (⟨·, .dummy⟩)))
  | wakeLast (filling : Bytes) (hw : s.writer = .sleeping) (hq : s.queue.buffered = [])
      (hp : s.producer = .done) : Effect s (.wake filling) { s with writer := .closing }
  | transmit (count : ℕ) (rest : List Octet) (cell : Bool) (hw : s.writer = .writing rest cell) :
      Effect s (.transmit count) { s with
        wire := s.wire.push (rest.take count)
        writer := if rest.length ≤ count then .flushing cell else .writing (rest.drop count) cell }
  | flushed (cell : Bool) (hw : s.writer = .flushing cell) : Effect s .flushed { s with
        writer := .sleeping
        progress := if cell then s.progress + ONION_CELL_SIZE else s.progress
        clock := nextDeadline s.clock s.now s.interval }
  | close (hw : s.writer = .closing) :
      Effect s .close { s.halt true .writer with finished := true }
  | receive (count : ℕ) (wire : Pipe Octet) (reader : Reader) (credit updated : ℕ)
      (remoteCancelled : Bool)
      (h : s.receive count = some { s with wire, reader, credit, updated, remoteCancelled }) :
      Effect s (.receive count) { s with wire, reader, credit, updated, remoteCancelled }
  | deliver (count : ℕ) (remote : Pipe Octet) (reader : Reader)
      (h : s.deliver count = some { s with remote, reader }) :
      Effect s (.deliver count) { s with remote, reader }
  | pollRead (count : ℕ) : Effect s (.pollRead count) { s with remote := s.remote.pull count }
  | cancelRemote : Effect s .cancelRemote { s with remoteCancelled := true }
  | halt (i : CoverInput) (failed : Bool) (w : Worker) (hi : i ≠ .flushed ∧ i ≠ .close)
      (hend : w = .producer → (s.cancelled || failed) = true ∨
        s.producer = .idle ∧ s.application.buffered = [] ∧ s.closed = true) :
      Effect s i (s.halt failed w)

section Effects
variable {s s' : CoveredLink}

lemma effect_pollWrite (buf : Bytes) : Effect s (.pollWrite buf) (s.pollWrite buf).2 := by
  unfold pollWrite
  by_cases hclosed : s.shutting.isSome ∨ s.shutdownDone = true ∨ s.cancelled = true
  · rw [if_pos hclosed]
    exact .writeRefused buf
  · rw [if_neg hclosed]
    dsimp only
    split_ifs
    · exact .writeRefused buf
    · exact .write buf _ hclosed

lemma effect_pollFlush : Effect s .pollFlush s.pollFlush.2 := by
  have hkept : ∀ pending, (∀ p ∈ pending, p = s.flushing.getD (s.application.written.length, s.now)) →
      Effect s .pollFlush { s with flushing := pending } := by
    intro pending h
    simpa using Effect.flush pending false h
  have hfailed : Effect s .pollFlush { s with flushing := none, cancelled := true } := by
    simpa using Effect.flush none true (by simp)
  unfold pollFlush
  dsimp only
  split_ifs
  · exact hkept s.flushing (by rintro p hp; rw [hp]; rfl)
  · exact hkept none (by simp)
  · exact hfailed
  · exact hfailed
  · exact hkept (some _) (by simp)

lemma effect_pollShutdown : Effect s .pollShutdown s.pollShutdown.2 := by
  unfold pollShutdown
  dsimp only
  split_ifs with hdone hfinished
  · exact .shutAgain
  · exact .shut _ true fun _ => hfinished
  · exact .shutFailed
  · exact .shutFailed
  · exact .shut _ s.shutdownDone fun h => absurd h hdone

lemma effect_produce {count : ℕ} (h : s.produce count = some s') : Effect s (.produce count) s' := by
  unfold produce at h
  cases hp : s.producer with
  | idle =>
    simp only [hp] at h
    cases hbuffered : s.application.buffered with
    | nil =>
      simp only [hbuffered] at h
      split_ifs at h with hclosed
      cases h
      exact .halt _ false .producer (by simp) fun _ => .inr ⟨hp, hbuffered, hclosed⟩
    | cons =>
      simp only [hbuffered, Option.some.injEq] at h
      subst h
      exact .produce count 1 _ (by simp [hp]) (by simp) (by simp [hp, Producer.held, hbuffered])
        (by simp)
  | filling cell =>
    simp only [hp] at h
    cases htake : s.application.buffered.take (min count (ONION_CELL_SIZE - cell.length)) with
    | nil =>
      simp only [htake] at h
      split_ifs at h
      cases h
      exact .halt _ true .producer (by simp) fun _ => .inl (Bool.or_true _)
    | cons =>
      simp only [htake, Option.some.injEq] at h
      subst h
      refine .produce count _ _ (by simp [hp]) ?_ ?_ ?_
      · split_ifs <;> simp
      · rw [hp, htake]
        split_ifs <;> rfl
      · intro c hc
        split_ifs at hc with hfull
        cases hc
        exact hfull
  | sending | done => simp [hp] at h

lemma effect_enqueue (h : s.enqueue = some s') : Effect s .enqueue s' := by
  unfold enqueue at h
  cases hp : s.producer with
  | sending cell =>
    simp only [hp] at h
    split_ifs at h
    · cases h
      exact .halt _ true .producer (by simp) fun _ => .inl (Bool.or_true _)
    · cases h
      exact .enqueue cell hp
  | idle | filling | done => simp [hp] at h

lemma effect_wake {filling : Bytes} (h : s.wake filling = some s') : Effect s (.wake filling) s' := by
  unfold wake at h
  rw [Option.ite_none_left_eq_some] at h
  obtain ⟨hready, h⟩ := h
  simp only [not_or, not_not] at hready
  cases hbuffered : s.queue.buffered with
  | cons cell rest =>
    simp only [hbuffered, Option.some.injEq] at h
    subst h
    exact .wakeCell filling cell rest hready.1 hbuffered
  | nil =>
    simp only [hbuffered] at h
    split_ifs at h with hdone
    · cases h
      exact .wakeLast filling hready.1 hbuffered hdone
    · cases h
      exact .wakeEmpty filling hready.1 hready.2.2

lemma exists_of_accept {frame : List Octet} (h : s.accept frame = s') :
    ∃ reader credit updated remoteCancelled,
      s' = { s with reader, credit, updated, remoteCancelled } := by
  subst h
  unfold accept
  dsimp only
  split_ifs
  · exact ⟨_, _, _, _, rfl⟩
  · cases openEnvelope frame with
    | error | ok => exact ⟨_, _, _, _, rfl⟩

lemma effect_receive {count : ℕ} (h : s.receive count = some s') : Effect s (.receive count) s' := by
  have heq := h
  unfold receive at h
  cases hr : s.reader with
  | collecting part =>
    simp only [hr] at h
    cases htake : s.wire.buffered.take (min count (FRAME - part.length)) with
    | nil =>
      simp only [htake] at h
      split_ifs at h
      cases h
      exact .halt _ true .reader (by simp) (by simp)
    | cons =>
      simp only [htake] at h
      split_ifs at h
      · obtain ⟨_, _, _, _, rfl⟩ := exists_of_accept (Option.some.inj h)
        exact .receive count _ _ _ _ _ heq
      · cases h
        exact .receive count _ _ _ _ _ heq
  | delivering | done => simp [hr] at h

theorem step_effect {i : CoverInput} (h : s.step i = some s') : Effect s i s' := by
  cases i with
  | tick elapsed =>
    cases h
    exact .tick elapsed
  | pollWrite buf =>
    cases h
    exact effect_pollWrite buf
  | pollFlush =>
    cases h
    exact effect_pollFlush
  | pollShutdown =>
    cases h
    exact effect_pollShutdown
  | cancel =>
    cases h
    exact .cancel
  | produce => exact effect_produce h
  | enqueue => exact effect_enqueue h
  | wake => exact effect_wake h
  | transmit count =>
    simp only [step, transmit] at h
    split at h
    · cases h
      exact .transmit count _ _ ‹_›
    · cases h
  | flushed =>
    simp only [step, flushed] at h
    split at h
    · cases h
      exact .flushed _ ‹_›
    · cases h
  | close =>
    simp only [step, close] at h
    split_ifs at h with hw
    cases h
    exact .close hw
  | receive => exact effect_receive h
  | deliver count =>
    have heq := h
    simp only [step, deliver] at h
    split at h
    · split_ifs at h <;> cases h <;> exact .deliver count _ _ heq
    · cases h
  | pollRead count =>
    cases h
    exact .pollRead count
  | cancelRemote =>
    cases h
    exact .cancelRemote
  | fail worker =>
    cases h
    exact .halt _ true worker (by simp) fun _ => .inl (Bool.or_true _)
  | stop worker =>
    simp only [step] at h
    split_ifs at h with hcancelled
    cases h
    refine .halt _ false worker (by simp) fun hproducer => .inl ?_
    subst hproducer
    simpa using hcancelled

end Effects

end CoveredLink

end AnonGuard
