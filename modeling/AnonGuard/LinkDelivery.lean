import AnonGuard.LinkCover

/-!
# Delivery over a covered link

Stage by stage, what comes out is the beginning of what goes in: the cells that the
producer has queued, the envelopes that the writer has begun, the octets on the wire and
the envelopes that the reader has opened. Together, the remote application reads a
beginning of what the local one has written.
-/
namespace AnonGuard

namespace CoveredLink

/-- The cell in an envelope, if there is one. -/
def cellOf (frame : List Octet) : List Octet :=
  match openEnvelope frame with
  | .ok (some cell) => cell
  | _ => []

@[simp] lemma cellOf_header_one (cell : List Octet) : cellOf (header 1 ++ cell) = cell := rfl

@[simp] lemma cellOf_header_two (filling : List Octet) : cellOf (header 2 ++ filling) = [] := rfl

/-- What the writer has not yet written of its envelope. -/
def Writer.rest : Writer → List Octet
  | writing rest _ => rest
  | _ => []

def Reader.part : Reader → List Octet
  | collecting part => part
  | _ => []

def Reader.rest : Reader → List Octet
  | delivering rest => rest
  | _ => []

/-- The producer has cut into cells what it has read. -/
structure Produced (p : Producer) (application : Pipe Octet) (queue : Pipe (List Octet)) : Prop where
  cut : queue.written.flatten <+: application.consumed
  held : p ≠ .done → queue.written.flatten ++ p.held = application.consumed

/-- The envelopes carry the cells taken from the queue, and the wire carries the
envelopes. -/
structure Carried (w : Writer) (queue : Pipe (List Octet)) (emitted : List Emission)
    (wire : Pipe Octet) : Prop where
  cells : (emitted.map (·.frame)).flatMap cellOf = queue.consumed.flatten
  written : wire.written <+: (emitted.map (·.frame)).flatten
  rest : w ≠ .done → wire.written ++ w.rest = (emitted.map (·.frame)).flatten

/-- The reader has opened the envelopes at the beginning of the wire. -/
def Opened (r : Reader) (wire remote : Pipe Octet) : Prop :=
  ∃ frames : List (List Octet), (∀ f ∈ frames, f.length = FRAME) ∧
    frames.flatten ++ r.part <+: wire.consumed ∧ remote.written <+: frames.flatMap cellOf ∧
    (r ≠ .done → frames.flatten ++ r.part = wire.consumed ∧
      remote.written ++ r.rest = frames.flatMap cellOf)

/-- What holds of a covered link at all times. -/
structure Delivers (s : CoveredLink) : Prop where
  origin : ∀ (i : ℕ) (o : Octet), s.application.written[i]? = some o → o.origin = .application i
  cells : (∀ c ∈ s.queue.written, c.length = ONION_CELL_SIZE) ∧
    ∀ c, s.producer = .sending c → c.length = ONION_CELL_SIZE
  frames : ∀ e ∈ s.emitted, e.frame.length = FRAME
  produced : Produced s.producer s.application s.queue
  carried : Carried s.writer s.queue s.emitted s.wire
  opened : Opened s.reader s.wire s.remote

variable {s s' : CoveredLink}

/-- The stages together. -/
lemma Delivers.remote (h : s.Delivers) : s.remote.consumed <+: s.application.written := by
  obtain ⟨frames, hsize, hread, hremote, -⟩ := h.opened
  have hframes : frames <+: s.emitted.map (·.frame) := by
    refine blocks_isPrefix_of_flatten (n := FRAME) (by decide) hsize ?_
      (hread.trans (s.wire.consumed_isPrefix.trans h.carried.written))
    intro f hf
    obtain ⟨e, he, rfl⟩ := List.mem_map.mp hf
    exact h.frames e he
  have hcells : frames.flatMap cellOf <+: s.queue.consumed.flatten := by
    rw [← h.carried.cells]
    obtain ⟨tail, htail⟩ := hframes
    rw [← htail, List.flatMap_append]
    exact List.prefix_append _ _
  have hqueue : s.queue.consumed.flatten <+: s.queue.written.flatten := by
    rw [← s.queue.consumed_append_buffered, List.flatten_append]
    exact List.prefix_append _ _
  calc s.remote.consumed
    _ <+: s.remote.written := s.remote.consumed_isPrefix
    _ <+: frames.flatMap cellOf := hremote
    _ <+: s.queue.consumed.flatten := hcells
    _ <+: s.queue.written.flatten := hqueue
    _ <+: s.application.consumed := h.produced.cut
    _ <+: s.application.written := s.application.consumed_isPrefix

lemma Delivers.halt (h : s.Delivers) (failed : Bool) (w : Worker) : (s.halt failed w).Delivers := by
  cases w with
  | producer =>
    exact ⟨h.origin, ⟨h.cells.1, fun _ hc => (by cases hc)⟩, h.frames,
      ⟨h.produced.cut, fun hne => absurd rfl hne⟩, h.carried, h.opened⟩
  | writer =>
    exact ⟨h.origin, h.cells, h.frames, h.produced,
      ⟨h.carried.cells, h.carried.written, fun hne => absurd rfl hne⟩, h.opened⟩
  | reader =>
    obtain ⟨frames, hsize, hread, hremote, -⟩ := h.opened
    refine ⟨h.origin, h.cells, h.frames, h.produced, h.carried, frames, hsize, ?_, hremote,
      fun hne => absurd rfl hne⟩
    exact (List.append_nil _).symm ▸ (List.prefix_append _ _).trans hread

lemma getElem?_tagged {position i : ℕ} {buf : Bytes} {o : Octet}
    (h : (tagged position buf)[i]? = some o) : o.origin = .application (position + i) := by
  simp only [tagged, List.getElem?_map, List.getElem?_zipIdx, Option.map_map,
    Option.map_eq_some_iff] at h
  obtain ⟨b, -, rfl⟩ := h
  simp

lemma Delivers.write (h : s.Delivers) (part : Bytes) :
    Delivers { s with
      application := s.application.push (tagged s.application.written.length part)
      flushing := none } := by
  refine ⟨fun i o hi => ?_, h.cells, h.frames, ⟨?_, fun hne => ?_⟩, h.carried, h.opened⟩
  · rw [Pipe.written_push, List.getElem?_append] at hi
    split_ifs at hi with hlt
    · exact h.origin i o hi
    · rw [getElem?_tagged hi, Nat.add_sub_cancel' (Nat.le_of_not_lt hlt)]
  · rw [Pipe.consumed_push]
    exact h.produced.cut
  · rw [Pipe.consumed_push]
    exact h.produced.held hne

lemma Delivers.produce (h : s.Delivers) {p : Producer} {n : ℕ} (hworks : s.producer ≠ .done)
    (hheld : p.held = s.producer.held ++ s.application.buffered.take n)
    (hfull : ∀ cell, p = .sending cell → cell.length = ONION_CELL_SIZE) :
    Delivers { s with producer := p, application := s.application.pull n } := by
  refine ⟨h.origin, ⟨h.cells.1, hfull⟩, h.frames, ⟨?_, fun _ => ?_⟩, h.carried, h.opened⟩
  · rw [Pipe.consumed_pull]
    exact h.produced.cut.trans (List.prefix_append _ _)
  · rw [Pipe.consumed_pull, hheld, ← List.append_assoc, h.produced.held hworks]

lemma Delivers.enqueue (h : s.Delivers) {cell : List Octet} (hp : s.producer = .sending cell) :
    Delivers { s with producer := .idle, queue := s.queue.push [cell] } := by
  have hheld := h.produced.held (by simp [hp])
  rw [hp] at hheld
  have hqueue : (s.queue.push [cell]).written.flatten = s.application.consumed := by
    rw [← hheld]
    simp [Producer.held]
  refine ⟨h.origin, ⟨?_, fun _ hc => (by cases hc)⟩, h.frames, ⟨?_, fun _ => ?_⟩,
    ⟨?_, h.carried.written, h.carried.rest⟩, h.opened⟩
  · exact List.forall_mem_append.2 ⟨h.cells.1, List.forall_mem_singleton.2 (h.cells.2 cell hp)⟩
  · rw [hqueue]
  · rw [hqueue]
    exact List.append_nil _
  · rw [Pipe.consumed_push]
    exact h.carried.cells

/-- The writer begins an envelope after it has written the one before. -/
lemma Carried.begin {queue queue' : Pipe (List Octet)} {emitted : List Emission} {wire : Pipe Octet}
    (h : Carried .sleeping queue emitted wire) (start : ℕ) {frame : List Octet} (cell : Bool)
    (hcell : queue'.consumed.flatten = queue.consumed.flatten ++ cellOf frame) :
    Carried (.writing frame cell) queue' (emitted ++ [⟨start, frame⟩]) wire := by
  have hwritten : wire.written = (emitted.map (·.frame)).flatten := by
    simpa [Writer.rest] using h.rest (fun hne => by cases hne)
  refine ⟨?_, ?_, fun _ => ?_⟩
  · rw [hcell, ← h.cells]
    simp
  · rw [hwritten]
    simp
  · rw [hwritten]
    simp [Writer.rest]

lemma Delivers.begin (h : s.Delivers) (hw : s.writer = .sleeping) {queue : Pipe (List Octet)}
    (kind : UInt8) {payload : List Octet} (hpayload : payload.length = ONION_CELL_SIZE)
    (hwritten : queue.written = s.queue.written)
    (hcell : queue.consumed.flatten = s.queue.consumed.flatten ++ cellOf (header kind ++ payload)) :
    ({ s with queue := queue }.begin kind payload).Delivers := by
  have hcarried := h.carried
  rw [hw] at hcarried
  refine ⟨h.origin, ⟨?_, h.cells.2⟩, ?_, ⟨?_, fun hne => ?_⟩, hcarried.begin _ _ hcell, h.opened⟩
  · rw [queue_begin, hwritten]
    exact h.cells.1
  · refine List.forall_mem_append.2 ⟨h.frames, List.forall_mem_singleton.2 ?_⟩
    simp [header, hpayload, FRAME]
  · rw [queue_begin, hwritten]
    exact h.produced.cut
  · rw [queue_begin, hwritten]
    exact h.produced.held hne

lemma Delivers.transmit (h : s.Delivers) (count : ℕ) {rest : List Octet} {cell : Bool}
    (hw : s.writer = .writing rest cell) :
    Delivers { s with
      wire := s.wire.push (rest.take count)
      writer := if rest.length ≤ count then .flushing cell else .writing (rest.drop count) cell } := by
  have hrest := h.carried.rest (by simp [hw])
  rw [hw] at hrest
  have hsplit : s.wire.written ++ rest.take count ++ rest.drop count =
      (s.emitted.map (·.frame)).flatten := by
    rw [List.append_assoc, List.take_append_drop]
    exact hrest
  refine ⟨h.origin, h.cells, h.frames, h.produced, ⟨h.carried.cells, ?_, fun _ => ?_⟩, ?_⟩
  · rw [Pipe.written_push, ← hsplit]
    exact List.prefix_append _ _
  · rw [Pipe.written_push, ← hsplit]
    dsimp only
    split_ifs with hle
    · rw [List.drop_eq_nil_of_le hle]
      rfl
    · rfl
  · obtain ⟨frames, hsize, hread, hremote, hopen⟩ := h.opened
    refine ⟨frames, hsize, ?_, hremote, fun hne => ?_⟩
    · rw [Pipe.consumed_push]
      exact hread
    · rw [Pipe.consumed_push]
      exact hopen hne

/-- The writer has no envelope in hand, before and after. -/
lemma Delivers.rewrite (h : s.Delivers) {w : Writer} (hw : s.writer ≠ .done) (hs : s.writer.rest = [])
    (hrest : w.rest = []) : Delivers { s with writer := w } := by
  refine ⟨h.origin, h.cells, h.frames, h.produced, ⟨h.carried.cells, h.carried.written, fun _ => ?_⟩,
    h.opened⟩
  rw [hrest, ← hs]
  exact h.carried.rest hw

/-- The reader has come to the end of an envelope. -/
lemma Delivers.accept {frame : List Octet} (h : s.Delivers) (hsize : frame.length = FRAME)
    (hr : s.reader = .collecting frame) : (s.accept frame).Delivers := by
  obtain ⟨frames, hsizes, -, -, hopen⟩ := h.opened
  obtain ⟨hconsumed, hdelivered⟩ := hopen (by rw [hr]; intro hne; cases hne)
  rw [hr] at hconsumed hdelivered
  simp only [Reader.part, Reader.rest, List.append_nil] at hconsumed hdelivered
  unfold CoveredLink.accept
  dsimp only
  split_ifs
  · exact h.halt true .reader
  · cases hopened : openEnvelope frame with
    | error => exact h.halt true .reader
    | ok payload =>
      have hnext : ∀ f ∈ frames ++ [frame], f.length = FRAME := by
        intro f hf
        rcases List.mem_append.mp hf with hf | hf
        · exact hsizes f hf
        · rw [List.mem_singleton.mp hf]
          exact hsize
      refine ⟨h.origin, h.cells, h.frames, h.produced, h.carried, frames ++ [frame], hnext, ?_⟩
      cases payload with
      | some cell =>
        have hcell : cellOf frame = cell := by simp [cellOf, hopened]
        simp [Reader.part, Reader.rest, hconsumed, hdelivered, hcell]
      | none =>
        have hcell : cellOf frame = [] := by simp [cellOf, hopened]
        simp [Reader.part, Reader.rest, hconsumed, hdelivered, hcell]

lemma Delivers.receive (h : s.Delivers) {count : ℕ} (hs : s.receive count = some s') :
    s'.Delivers := by
  unfold CoveredLink.receive at hs
  cases hr : s.reader with
  | collecting part =>
    simp only [hr] at hs
    cases htake : s.wire.buffered.take (min count (FRAME - part.length)) with
    | nil =>
      simp only [htake] at hs
      split_ifs at hs
      cases hs
      exact h.halt true .reader
    | cons octet octets =>
      simp only [htake] at hs
      have hread : Delivers { s with
          wire := s.wire.pull (min count (FRAME - part.length))
          reader := .collecting (part ++ octet :: octets) } := by
        obtain ⟨frames, hsizes, -, hremote, hopen⟩ := h.opened
        obtain ⟨hconsumed, hdelivered⟩ := hopen (by rw [hr]; intro hne; cases hne)
        rw [hr] at hconsumed hdelivered
        have hall : frames.flatten ++ (part ++ octet :: octets) =
            (s.wire.pull (min count (FRAME - part.length))).consumed := by
          rw [Pipe.consumed_pull, htake, ← hconsumed, List.append_assoc]
          rfl
        exact ⟨h.origin, h.cells, h.frames, h.produced,
          ⟨h.carried.cells, h.carried.written, h.carried.rest⟩, frames, hsizes,
          hall ▸ List.prefix_rfl, hremote, fun _ => ⟨hall, hdelivered⟩⟩
      split_ifs at hs with hfull
      · cases hs
        -- the part is thrown away with the state that accepts it
        exact hread.accept hfull rfl
      · cases hs
        exact hread
  | delivering | done => simp [hr] at hs

lemma Delivers.deliver (h : s.Delivers) {count : ℕ} (hs : s.deliver count = some s') :
    s'.Delivers := by
  unfold CoveredLink.deliver at hs
  cases hr : s.reader with
  | delivering rest =>
    simp only [hr] at hs
    obtain ⟨frames, hsizes, hread, hremote, hopen⟩ := h.opened
    obtain ⟨hconsumed, hdelivered⟩ := hopen (by rw [hr]; intro hne; cases hne)
    rw [hr] at hconsumed hdelivered
    have hsplit : s.remote.written ++ rest.take count ++ rest.drop count =
        frames.flatMap cellOf := by
      rw [List.append_assoc, List.take_append_drop]
      exact hdelivered
    have hpart : frames.flatten = s.wire.consumed := by
      simpa [Reader.part] using hconsumed
    have hmore : s.remote.written ++ rest.take count <+: frames.flatMap cellOf :=
      hsplit ▸ List.prefix_append _ _
    split_ifs at hs with hroom hle
    · cases hs
      refine ⟨h.origin, h.cells, h.frames, h.produced, h.carried, frames, hsizes, ?_, hmore,
        fun _ => ?_⟩
      · simp [Reader.part, hpart]
      · rw [List.drop_eq_nil_of_le hle] at hsplit
        exact ⟨by simp [Reader.part, hpart], hsplit⟩
    · cases hs
      refine ⟨h.origin, h.cells, h.frames, h.produced, h.carried, frames, hsizes, ?_, hmore,
        fun _ => ⟨?_, hsplit⟩⟩
      · simp [Reader.part, hpart]
      · simp [Reader.part, hpart]
  | collecting | done => simp [hr] at hs

lemma Delivers.step (h : s.Delivers) {i : CoverInput} (hs : s.step i = some s') : s'.Delivers := by
  cases step_effect hs with
  | tick | flush | shut | shutFailed | cancel | pollRead | cancelRemote =>
    exact ⟨h.origin, h.cells, h.frames, h.produced, h.carried, h.opened⟩
  | writeRefused | shutAgain => exact h
  | write buf part => exact h.write part
  | produce count n p hworks _ hheld hfull => exact h.produce hworks hheld hfull
  | enqueue cell hp => exact h.enqueue hp
  | wakeCell filling cell rest hw hq =>
    have hsize : cell.length = ONION_CELL_SIZE := by
      refine h.cells.1 cell (List.mem_of_mem_drop (i := s.queue.taken) ?_)
      show cell ∈ s.queue.buffered
      simp [hq]
    refine h.begin hw 1 hsize rfl ?_
    rw [Pipe.consumed_pull_one _ hq]
    simp
  | wakeEmpty filling hw hfilling => exact h.begin hw 2 (by simp [hfilling]) rfl (by simp)
  | wakeLast filling hw => exact h.rewrite (by simp [hw]) (by simp [hw, Writer.rest]) rfl
  | transmit count rest cell hw => exact h.transmit count hw
  | flushed cell hw =>
    have hslept := h.rewrite (by simp [hw]) (by simp [hw, Writer.rest]) (w := .sleeping) rfl
    exact ⟨h.origin, h.cells, h.frames, h.produced, hslept.carried, h.opened⟩
  | close =>
    have hhalted := h.halt true .writer
    exact ⟨h.origin, h.cells, h.frames, h.produced, hhalted.carried, h.opened⟩
  | receive count wire reader credit updated remoteCancelled hreceive => exact h.receive hreceive
  | deliver count remote reader hdeliver => exact h.deliver hdeliver
  | halt i failed w => exact h.halt failed w

lemma delivers_wrap {interval phase now : ℕ} (h : wrap interval phase now = .ok s) : s.Delivers := by
  unfold wrap at h
  split_ifs at h
  cases h
  refine ⟨fun i o hi => ?_, ⟨fun c hc => ?_, fun c hc => ?_⟩, fun e he => ?_, ⟨?_, fun _ => ?_⟩,
    ⟨rfl, List.nil_prefix, fun _ => rfl⟩, [], fun f hf => ?_, ?_, ?_, fun _ => ?_⟩
  · cases hi
  · cases hc
  · cases hc
  · cases he
  · exact List.nil_prefix
  · rfl
  · cases hf
  · exact List.nil_prefix
  · exact List.nil_prefix
  · exact ⟨rfl, rfl⟩

/-- In every run the remote application has read a beginning of what the local one has
written, octet for octet from the same positions, so nothing twice and nothing of a
dummy. -/
theorem remote_reads_what_was_written {s₀ : CoveredLink} {interval phase now : ℕ}
    (h₀ : wrap interval phase now = .ok s₀) (h : Run step s₀ s) :
    s.remote.consumed <+: s.application.written ∧
      ∀ (i : ℕ) (o : Octet), s.remote.consumed[i]? = some o → o.origin = .application i := by
  have hs : s.Delivers :=
    h.invariant (delivers_wrap h₀) fun _ _ _ hd _ hstep => hd.step hstep
  refine ⟨hs.remote, fun i o hi => hs.origin i o ?_⟩
  obtain ⟨tail, htail⟩ := hs.remote
  rw [← htail, List.getElem?_append_left (List.getElem?_eq_some_iff.mp hi).1]
  exact hi

/-- Two writes that make up one cell, sent after a dummy. -/
def sampleTransfer : List CoverInput :=
  [.pollWrite (List.replicate 5000 7), .pollWrite (List.replicate 3192 9), .tick 1,
    .wake (List.replicate 8192 3), .transmit 9000, .flushed, .produce 1, .produce 9000, .enqueue,
    .tick 10000000, .wake (List.replicate 8192 3), .transmit 5000, .transmit 5000, .receive 9000,
    .receive 4000, .receive 5000, .deliver 9000, .pollRead 100]

theorem sampleTransfer_reads_what_was_written :
    let s₀ := start 10000000 1 0
    let s := (runInputs step s₀ sampleTransfer).getD s₀
    wrap 10000000 1 0 = .ok s₀ ∧ s.remote.consumed <+: s.application.written ∧
      ∀ (i : ℕ) (o : Octet), s.remote.consumed[i]? = some o → o.origin = .application i := by
  have h₀ : wrap 10000000 1 0 = .ok (start 10000000 1 0) := rfl
  exact ⟨h₀, remote_reads_what_was_written h₀ (Run.getD_inputs _)⟩

end CoveredLink

end AnonGuard
