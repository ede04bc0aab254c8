import AnonGuard.SessionStream
import AnonGuard.Transition

/-!
# Packing while a producer refills the queue

`Outgoing.tryNext` takes its reads off the queue one at a time, and the worker that fills the
queue runs on another thread: it can send or close between any two of them. Here a call is a
sequence of turns of its loop, and steps of the producer come in between. The machine keeps what was
sent and what each call received; no code reads these histories.
-/
namespace AnonGuard
namespace Outgoing

/-- A call within its loop: the cell so far, the turns that are left and the reads taken. -/
structure Call where
  data : Bytes
  turns : ℕ
  drained : List Bytes
  deriving DecidableEq, Repr

/-- What a call returned, and the reads that it took off the queue. -/
structure Output where
  data : Bytes
  drained : List Bytes
  deriving DecidableEq, Repr

end Outgoing

/-- A stream's read queue between its worker and the session. -/
structure Packing where
  outgoing : Outgoing
  call : Option Outgoing.Call
  sent : List Bytes
  results : List (Except TryRecvError Outgoing.Output)

inductive PackingInput
  /-- The worker sends one read. -/
  | send (chunk : { data : Bytes // Outgoing.ReadSize data })
  /-- The worker drops its end. -/
  | close
  /-- A call of `tryNext` up to its loop. -/
  | start
  /-- One turn of the loop, with the return behind it if it is the last. -/
  | turn

namespace Packing

def new (capacity : ℕ) : Packing := ⟨⟨.new capacity, none⟩, none, [], []⟩

/-- The call returns `out` and leaves `o` behind. -/
def answer (s : Packing) (o : Outgoing) (out : Outgoing.Output) : Packing :=
  ⟨o, none, s.sent, s.results ++ [.ok out]⟩

/-- The call returns an error of the queue. -/
def refuse (s : Packing) (e : TryRecvError) : Packing :=
  { s with results := s.results ++ [.error e] }

/-- The first data of a cell: the remainder of the last call, or else a read. -/
def start (s : Packing) : Packing :=
  match s.outgoing.pending with
  | some data =>
    { s with
      outgoing := ⟨s.outgoing.receiver, none⟩
      call := some ⟨data, QUEUE - 1, []⟩ }
  | none =>
    match s.outgoing.receiver.tryRecv with
    | .error e => s.refuse e
    | .ok (data, rx) =>
      { s with
        outgoing := ⟨rx, none⟩
        call := some ⟨data, QUEUE - 1, [data]⟩ }

/-- The loop's head and one pass through its body. -/
def turn (s : Packing) (c : Outgoing.Call) : Packing :=
  match c.turns with
  | 0 => s.answer s.outgoing ⟨c.data, c.drained⟩
  | turns + 1 =>
    if c.data.length = PAYLOAD_SIZE then s.answer s.outgoing ⟨c.data, c.drained⟩
    else
      match s.outgoing.receiver.tryRecv with
      | .error _ => s.answer s.outgoing ⟨c.data, c.drained⟩
      | .ok (next, rx) =>
        let available := PAYLOAD_SIZE - c.data.length
        if next.length > available then
          s.answer ⟨rx, some (next.drop available)⟩
            ⟨c.data ++ next.take available, c.drained ++ [next]⟩
        else if s.outgoing.pending.isSome then
          s.answer ⟨rx, s.outgoing.pending⟩ ⟨c.data ++ next, c.drained ++ [next]⟩
        else
          { s with
            outgoing := ⟨rx, s.outgoing.pending⟩
            call := some ⟨c.data ++ next, turns, c.drained ++ [next]⟩ }

def step (s : Packing) : PackingInput → Option Packing
  | .send chunk =>
    if s.outgoing.receiver.senderOpen then
      match s.outgoing.receiver.trySend chunk.1 with
      | .error _ => none
      | .ok rx =>
        some { s with
          outgoing := ⟨rx, s.outgoing.pending⟩
          sent := s.sent ++ [chunk.1] }
    else none
  | .close => some { s with outgoing := ⟨s.outgoing.receiver.dropSender, s.outgoing.pending⟩ }
  | .start =>
    match s.call with
    | none => some s.start
    | some _ => none
  | .turn => s.call.map s.turn

/-- The cells that calls have returned. -/
def outputs (s : Packing) : List Outgoing.Output := s.results.filterMap Except.toOption

/-- The reads that calls have taken off the queue, in order. -/
def received (s : Packing) : List Bytes :=
  s.outputs.flatMap (·.drained) ++ s.call.elim [] (·.drained)

/-- The cell of the call that has not returned. -/
def inProgress (s : Packing) : Bytes := s.call.elim [] (·.data)

@[simp] lemma outputs_answer (s : Packing) (o : Outgoing) (out : Outgoing.Output) :
    (s.answer o out).outputs = s.outputs ++ [out] := by
  simp [outputs, answer, Except.toOption]

@[simp] lemma outputs_refuse (s : Packing) (e : TryRecvError) :
    (s.refuse e).outputs = s.outputs := by
  simp [outputs, refuse, Except.toOption]

@[simp] lemma received_answer (s : Packing) (o : Outgoing) (out : Outgoing.Output) :
    (s.answer o out).received = s.outputs.flatMap (·.drained) ++ out.drained := by
  rw [received, outputs_answer, List.flatMap_append, List.flatMap_singleton]
  exact List.append_nil _

lemma received_of_call {s : Packing} {c : Outgoing.Call} (hc : s.call = some c) :
    s.received = s.outputs.flatMap (·.drained) ++ c.drained := by
  rw [received, hc]
  rfl

lemma received_of_idle {s : Packing} (hidle : s.call = none) :
    s.received = s.outputs.flatMap (·.drained) := by
  rw [received, hidle]
  exact List.append_nil _

lemma inProgress_of_call {s : Packing} {c : Outgoing.Call} (hc : s.call = some c) :
    s.inProgress = c.data := by
  rw [inProgress, hc]
  rfl

/-- What holds between any two accesses to the queue. -/
structure Sound (s : Packing) : Prop where
  bytes : s.outputs.flatMap (·.data) ++ s.inProgress ++ s.outgoing.pending.getD [] =
    s.received.flatten
  queue : s.received ++ s.outgoing.receiver.queue = s.sent
  sent : ∀ d ∈ s.sent, Outgoing.ReadSize d
  pending : ∀ d ∈ s.outgoing.pending, Outgoing.ReadSize d
  call : ∀ c ∈ s.call, s.outgoing.pending = none ∧ Outgoing.ReadSize c.data ∧
    c.drained.length + c.turns ≤ QUEUE
  outputs : ∀ out ∈ s.outputs, Outgoing.ReadSize out.data ∧ out.drained.length ≤ QUEUE
  ended : .error .disconnected ∈ s.results → s.outgoing.receiver.senderOpen = false ∧
    s.outgoing.receiver.queue = [] ∧ s.outgoing.pending = none ∧ s.call = none

namespace Sound
variable {s : Packing} {c : Outgoing.Call}

lemma new (capacity : ℕ) : Sound (new capacity) where
  bytes := rfl
  queue := rfl
  sent := List.forall_mem_nil _
  pending := by rintro d ⟨⟩
  call := by rintro c ⟨⟩
  outputs := List.forall_mem_nil _
  ended := by rintro ⟨⟩

/-- While a call goes on, no call has seen the end. -/
lemma notMem_of_call (h : Sound s) (hc : s.call = some c) : .error .disconnected ∉ s.results := by
  intro hmem
  have hidle := (h.ended hmem).2.2.2
  rw [hc] at hidle
  cases hidle

/-- The bytes of the cells and of the call are those of the reads that were taken. -/
lemma bytes_of_call (h : Sound s) (hc : s.call = some c) :
    s.outputs.flatMap (·.data) ++ c.data =
      (s.outputs.flatMap (·.drained) ++ c.drained).flatten := by
  have hbytes := h.bytes
  rw [inProgress_of_call hc, (h.call c hc).1, received_of_call hc] at hbytes
  rwa [Option.getD_none, List.append_nil] at hbytes

/-- A call may return once its cell and the remainder hold what it took, in order. -/
lemma answer (h : Sound s) (hc : s.call = some c) {o : Outgoing} {out : Outgoing.Output}
    (taken : List Bytes) (hqueue : s.outgoing.receiver.queue = taken ++ o.receiver.queue)
    (hdrained : out.drained = c.drained ++ taken)
    (hbytes : out.data ++ o.pending.getD [] = c.data ++ taken.flatten)
    (hsize : Outgoing.ReadSize out.data) (hcount : out.drained.length ≤ QUEUE)
    (hpending : ∀ d ∈ o.pending, Outgoing.ReadSize d) : Sound (s.answer o out) where
  bytes := by
    rw [outputs_answer, received_answer, hdrained, ← List.append_assoc, List.flatten_append,
      ← h.bytes_of_call hc, List.append_assoc _ c.data, ← hbytes, List.flatMap_append,
      List.flatMap_singleton]
    simp [inProgress, Packing.answer]
  queue := by
    have hsent := h.queue
    rw [received_of_call hc, hqueue] at hsent
    rw [received_answer, hdrained]
    simpa [Packing.answer] using hsent
  sent := h.sent
  pending := hpending
  call := by rintro c ⟨⟩
  outputs := by
    rw [outputs_answer, List.forall_mem_append, List.forall_mem_singleton]
    exact ⟨h.outputs, hsize, hcount⟩
  ended := by
    intro hmem
    have hold : .error .disconnected ∈ s.results := by simpa [Packing.answer] using hmem
    exact absurd hold (h.notMem_of_call hc)

/-- A call without new reads may return as it is. -/
lemma answer_same (h : Sound s) (hc : s.call = some c) :
    Sound (s.answer s.outgoing ⟨c.data, c.drained⟩) := by
  obtain ⟨hnone, hsize, hcount⟩ := h.call c hc
  refine h.answer hc [] rfl (List.append_nil _).symm ?_ hsize (Nat.le_of_add_right_le hcount)
    h.pending
  rw [hnone]
  rfl

/-- A call that finds nothing returns the error of the queue. -/
lemma refuse (h : Sound s) (hidle : s.call = none) (hp : s.outgoing.pending = none)
    {e : TryRecvError} (hr : s.outgoing.receiver.tryRecv = .error e) : Sound (s.refuse e) := by
  have hreceived : (s.refuse e).received = s.received := by
    rw [received, outputs_refuse]
    rfl
  refine ⟨?_, ?_, h.sent, h.pending, h.call, ?_, ?_⟩
  · rw [outputs_refuse, hreceived]
    exact h.bytes
  · rw [hreceived]
    exact h.queue
  · rw [outputs_refuse]
    exact h.outputs
  · intro hmem
    obtain hold | hnew := List.mem_append.1 hmem
    · exact h.ended hold
    · cases List.mem_singleton.1 hnew
      obtain ⟨hq, hclosed⟩ := Channel.tryRecv_eq_disconnected.1 hr
      exact ⟨hclosed, hq, hp, hidle⟩

/-- A call goes on with a cell that holds the reads which are neither returned nor queued. -/
lemma resume (h : Sound s) {rx : Channel Bytes} (hgoing : .error .disconnected ∉ s.results)
    (hbytes : s.outputs.flatMap (·.data) ++ c.data =
      (s.outputs.flatMap (·.drained) ++ c.drained).flatten)
    (hqueue : s.outputs.flatMap (·.drained) ++ c.drained ++ rx.queue = s.sent)
    (hsize : Outgoing.ReadSize c.data) (hcount : c.drained.length + c.turns ≤ QUEUE) :
    Sound { s with
      outgoing := ⟨rx, none⟩
      call := some c } where
  bytes := (List.append_nil _).trans hbytes
  queue := hqueue
  sent := h.sent
  pending := by rintro d ⟨⟩
  call := by
    rintro c ⟨⟩
    exact ⟨rfl, hsize, hcount⟩
  outputs := h.outputs
  ended := fun hmem => absurd hmem hgoing

/-- One turn of the loop. -/
lemma turn (h : Sound s) (hc : s.call = some c) : Sound (s.turn c) := by
  obtain ⟨hnone, hsize, hcount⟩ := h.call c hc
  obtain ⟨data, turns, drained⟩ := c
  cases turns with
  | zero => exact h.answer_same hc
  | succ =>
    unfold Packing.turn
    dsimp only at hsize hcount ⊢
    by_cases hfull : data.length = PAYLOAD_SIZE
    · rw [if_pos hfull]
      exact h.answer_same hc
    · rw [if_neg hfull]
      cases hr : s.outgoing.receiver.tryRecv with
      | error => exact h.answer_same hc
      | ok read =>
        obtain ⟨next, rx⟩ := read
        obtain ⟨rest, hq, rfl⟩ := Channel.tryRecv_eq_ok.1 hr
        have hnext : Outgoing.ReadSize next := by
          apply h.sent
          rw [← h.queue, hq]
          exact List.mem_append_right _ List.mem_cons_self
        dsimp only
        by_cases hlong : next.length > PAYLOAD_SIZE - data.length
        · rw [if_pos hlong]
          refine h.answer hc [next] hq rfl ?_ (hsize.append (List.length_take_le _ _)) ?_ ?_
          · simp
          · rw [List.length_append, List.length_singleton]
            omega
          · rintro d ⟨⟩
            exact hnext.drop hlong
        · rw [if_neg hlong, if_neg (by simp [hnone]), hnone]
          refine h.resume (h.notMem_of_call hc) ?_ ?_ (hsize.append (Nat.le_of_not_lt hlong)) ?_
          · rw [← List.append_assoc, ← List.append_assoc, List.flatten_append,
              ← h.bytes_of_call hc, List.flatten_singleton]
          · rw [← h.queue, received_of_call hc, hq]
            simp
          · dsimp only
            rw [List.length_append, List.length_singleton]
            omega

/-- A call up to its loop. -/
lemma start (h : Sound s) (hidle : s.call = none) : Sound s.start := by
  have hbytes : s.outputs.flatMap (·.data) ++ s.outgoing.pending.getD [] =
      (s.outputs.flatMap (·.drained)).flatten := by
    have hall := h.bytes
    rwa [inProgress, hidle, Option.elim_none, List.append_nil, received_of_idle hidle] at hall
  have hsent := h.queue
  rw [received_of_idle hidle] at hsent
  unfold Packing.start
  cases hp : s.outgoing.pending with
  | some data =>
    rw [hp] at hbytes
    refine h.resume ?_ ?_ ?_ (h.pending data hp) (by simp [QUEUE])
    · intro hmem
      have hnone := (h.ended hmem).2.2.1
      rw [hp] at hnone
      cases hnone
    · rwa [List.append_nil]
    · rwa [List.append_nil]
  | none =>
    rw [hp, Option.getD_none, List.append_nil] at hbytes
    cases hr : s.outgoing.receiver.tryRecv with
    | error => exact h.refuse hidle hp hr
    | ok read =>
      obtain ⟨data, rx⟩ := read
      obtain ⟨rest, hq, rfl⟩ := Channel.tryRecv_eq_ok.1 hr
      have hsize : Outgoing.ReadSize data := by
        apply h.sent
        rw [← hsent, hq]
        exact List.mem_append_right _ List.mem_cons_self
      refine h.resume ?_ ?_ ?_ hsize (by simp [QUEUE])
      · intro hmem
        have hnil := (h.ended hmem).2.1
        rw [hq] at hnil
        cases hnil
      · rw [hbytes, List.flatten_append, List.flatten_singleton]
      · rw [← hsent, hq, List.append_assoc]
        rfl

/-- The worker sends a read behind the queue. -/
lemma send (h : Sound s) {chunk : Bytes} (hchunk : Outgoing.ReadSize chunk)
    (hopen : s.outgoing.receiver.senderOpen = true) :
    Sound { s with
      outgoing := ⟨{ s.outgoing.receiver with queue := s.outgoing.receiver.queue ++ [chunk] },
        s.outgoing.pending⟩
      sent := s.sent ++ [chunk] } where
  bytes := h.bytes
  queue := by
    rw [← h.queue, List.append_assoc]
    rfl
  sent := List.forall_mem_append.2 ⟨h.sent, List.forall_mem_singleton.2 hchunk⟩
  pending := h.pending
  call := h.call
  outputs := h.outputs
  ended := by
    intro hmem
    have hclosed := (h.ended hmem).1
    rw [hopen] at hclosed
    cases hclosed

lemma close (h : Sound s) :
    Sound { s with outgoing := ⟨s.outgoing.receiver.dropSender, s.outgoing.pending⟩ } :=
  ⟨h.bytes, h.queue, h.sent, h.pending, h.call, h.outputs,
    fun hmem => ⟨rfl, (h.ended hmem).2⟩⟩

/-- No step of either side breaks it. -/
lemma step (h : Sound s) {i : PackingInput} {s' : Packing} (hs : s.step i = some s') :
    Sound s' := by
  cases i with
  | send chunk =>
    unfold Packing.step at hs
    dsimp only at hs
    split_ifs at hs with hopen
    cases hsend : s.outgoing.receiver.trySend chunk.1 with
    | error =>
      rw [hsend] at hs
      cases hs
    | ok =>
      rw [hsend] at hs
      obtain ⟨-, -, rfl⟩ := Channel.trySend_eq_ok.1 hsend
      cases hs
      exact h.send chunk.2 hopen
  | close =>
    cases hs
    exact h.close
  | start =>
    cases hidle : s.call with
    | some =>
      rw [Packing.step, hidle] at hs
      cases hs
    | none =>
      rw [Packing.step, hidle] at hs
      cases hs
      exact h.start hidle
  | turn =>
    obtain ⟨c, hc, rfl⟩ := Option.map_eq_some_iff.1 hs
    exact h.turn hc

end Sound

theorem sound_of_run {capacity : ℕ} {s : Packing} (h : Run step (new capacity) s) : Sound s :=
  h.invariant (Sound.new capacity) fun _ _ _ hsound _ hs => hsound.step hs

/-- However sends, the close and calls interleave, the returned cells and what is on the way are
the reads received, in order; each cell has a size that fits and takes at most 32 reads; and a
call that reports the end has left nothing behind. -/
theorem outputs_of_run {capacity : ℕ} {s : Packing} (h : Run step (new capacity) s) :
    s.outputs.flatMap (·.data) ++ s.inProgress ++ s.outgoing.pending.getD [] =
        s.received.flatten ∧
      s.received ++ s.outgoing.receiver.queue = s.sent ∧
      (∀ out ∈ s.outputs, 1 ≤ out.data.length ∧ out.data.length ≤ 8131 ∧
        out.drained.length ≤ 32) ∧
      (.error .disconnected ∈ s.results →
        s.outgoing.receiver.senderOpen = false ∧ s.outgoing.receiver.queue = [] ∧
          s.outgoing.pending = none ∧ s.outputs.flatMap (·.data) = s.sent.flatten) := by
  have hsound := sound_of_run h
  refine ⟨hsound.bytes, hsound.queue, ?_, ?_⟩
  · intro out hout
    obtain ⟨hsize, hcount⟩ := hsound.outputs out hout
    exact ⟨List.length_pos_iff.2 hsize.1, hsize.2, hcount⟩
  · intro hmem
    obtain ⟨hclosed, hq, hp, hidle⟩ := hsound.ended hmem
    refine ⟨hclosed, hq, hp, ?_⟩
    have hbytes := hsound.bytes
    rw [inProgress, hidle, hp, ← List.append_nil s.received, ← hq, hsound.queue] at hbytes
    simpa using hbytes

/-- The second read is sent while the call for the first one is in its loop. -/
def samplePacking : Packing :=
  (runInputs step (new 4) [.send ⟨[1], by decide, by decide⟩, .start,
    .send ⟨[2], by decide, by decide⟩, .turn, .turn, .close, .start]).getD (new 4)

theorem samplePacking_outputs :
    samplePacking.results = [.ok ⟨[1, 2], [[1], [2]]⟩, .error .disconnected] ∧
      samplePacking.outputs.flatMap (·.data) = samplePacking.sent.flatten := by
  have hresults :
      samplePacking.results = [.ok ⟨[1, 2], [[1], [2]]⟩, .error .disconnected] := rfl
  have hended : .error .disconnected ∈ samplePacking.results := by
    rw [hresults]
    exact List.mem_cons_of_mem _ List.mem_cons_self
  exact ⟨hresults, ((outputs_of_run (Run.getD_inputs _)).2.2.2 hended).2.2.2⟩

end Packing
end AnonGuard
