import AnonGuard.LinkDelivery

/-!
# Flushing and shutting down a covered link

`poll_flush` watches a count that the writer publishes, `poll_shutdown` a flag that it sets when
it has closed the wire. A log beside the link remembers what had been written to the wire when it
was last flushed, so that what an `Ok` promises can be told from the envelopes. No code looks at
the log.
-/
namespace AnonGuard

open CoveredLink

structure LoggedLink where
  link : CoveredLink
  flushed : List Octet

namespace CoveredLink

/-- What a list of envelopes puts on the wire. -/
def octetsOf (envelopes : List Emission) : List Octet := (envelopes.map (·.frame)).flatten

/-- What is in the cells of a list of envelopes. -/
def payloadOf (envelopes : List Emission) : List Octet := (envelopes.map (·.frame)).flatMap cellOf

lemma payloadOf_append (xs ys : List Emission) :
    payloadOf (xs ++ ys) = payloadOf xs ++ payloadOf ys := by
  simp [payloadOf]

/-- The log and the count are those of the given envelopes. -/
structure Accounted (envelopes : List Emission) (progress : ℕ) (flushed : List Octet) : Prop where
  log : flushed = octetsOf envelopes
  count : progress = (payloadOf envelopes).length

/-- The log and the count lag behind by the envelope that the writer is at. A writer that was
stopped may leave its last envelope unfinished. -/
def FlushLog (emitted : List Emission) (progress : ℕ) (flushed : List Octet) : Writer → Prop
  | .sleeping | .closing => Accounted emitted progress flushed
  | .writing _ cell | .flushing cell => ∃ before last, emitted = before ++ [last] ∧
      Accounted before progress flushed ∧
      (payloadOf [last]).length = if cell then ONION_CELL_SIZE else 0
  | .done => ∃ before, before <+: emitted ∧ Accounted before progress flushed

lemma FlushLog.halt {emitted : List Emission} {progress : ℕ} {flushed : List Octet} {w : Writer}
    (h : FlushLog emitted progress flushed w) : FlushLog emitted progress flushed .done := by
  cases w with
  | sleeping | closing => exact ⟨emitted, List.prefix_rfl, h⟩
  | writing | flushing =>
    obtain ⟨before, last, hemitted, haccount, -⟩ := h
    exact ⟨before, hemitted ▸ List.prefix_append _ _, haccount⟩
  | done => exact h

end CoveredLink

namespace LoggedLink

def step (s : LoggedLink) (i : CoverInput) : Option LoggedLink :=
  (s.link.step i).map fun link => ⟨link, match i with
    | .flushed | .close => s.link.wire.written
    | _ => s.flushed⟩

/-- Everything that was accepted is in the cells of envelopes that were written whole and
flushed. -/
def Durable (s : LoggedLink) : Prop :=
  ∃ envelopes, envelopes <+: s.link.emitted ∧ octetsOf envelopes = s.flushed ∧
    payloadOf envelopes = s.link.application.written

/-- What flushing and shutting down rely on. -/
structure Logged (s : LoggedLink) : Prop where
  target : ∀ p ∈ s.link.flushing, p.1 = s.link.application.written.length
  log : FlushLog s.link.emitted s.link.progress s.flushed s.link.writer
  closing : s.link.writer = .closing → s.link.producer = .done ∧ s.link.queue.buffered = []
  finished : s.link.finished = true → s.link.writer = .done ∧ s.link.producer = .done ∧
    s.link.queue.buffered = [] ∧ s.flushed = octetsOf s.link.emitted
  shutdownDone : s.link.shutdownDone = true → s.link.finished = true

variable {s s' : LoggedLink}

lemma Logged.unfinished (h : s.Logged) (hw : s.link.writer ≠ .done) : s.link.finished ≠ true :=
  fun hf => hw (h.finished hf).1

lemma Logged.halt (h : s.Logged) (failed : Bool) (w : Worker) :
    Logged ⟨s.link.halt failed w, s.flushed⟩ := by
  cases w with
  | producer =>
    exact ⟨h.target, h.log, fun hw => ⟨rfl, (h.closing hw).2⟩,
      fun hf => ⟨(h.finished hf).1, rfl, (h.finished hf).2.2⟩, h.shutdownDone⟩
  | writer =>
    exact ⟨h.target, h.log.halt, fun hw => (by cases hw),
      fun hf => ⟨rfl, (h.finished hf).2⟩, h.shutdownDone⟩
  | reader => exact ⟨h.target, h.log, h.closing, h.finished, h.shutdownDone⟩

/-- As long as the producer works the writer has not come to the end. -/
lemma Logged.works (h : s.Logged) (hworks : s.link.producer ≠ .done) :
    s.link.writer ≠ .closing ∧ s.link.finished ≠ true :=
  ⟨fun hw => hworks (h.closing hw).1, fun hf => hworks (h.finished hf).2.1⟩

lemma Logged.begin (h : s.Logged) (hw : s.link.writer = .sleeping) (queue : Pipe (List Octet))
    (kind : UInt8) {payload : List Octet} (hpayload : (cellOf (header kind ++ payload)).length =
      if kind == 1 then ONION_CELL_SIZE else 0) :
    Logged ⟨{ s.link with queue := queue }.begin kind payload, s.flushed⟩ := by
  have hlog := h.log
  rw [hw] at hlog
  refine ⟨h.target, ⟨_, _, rfl, hlog, ?_⟩, fun hclosing => (by cases hclosing),
    fun hf => absurd hf (h.unfinished (by simp [hw])), h.shutdownDone⟩
  simpa [payloadOf] using hpayload

lemma Logged.transmit (h : s.Logged) {rest : List Octet} {cell : Bool}
    (hw : s.link.writer = .writing rest cell) (count : ℕ) :
    Logged ⟨{ s.link with
      wire := s.link.wire.push (rest.take count)
      writer := if rest.length ≤ count then .flushing cell else .writing (rest.drop count) cell },
      s.flushed⟩ := by
  have hlog := h.log
  rw [hw] at hlog
  refine ⟨h.target, ?_, fun hclosing => ?_, fun hf => absurd hf (h.unfinished (by simp [hw])),
    h.shutdownDone⟩
  · dsimp only
    split_ifs
    · exact hlog
    · exact hlog
  · dsimp only at hclosing
    split_ifs at hclosing

/-- A writer without an envelope in hand has written all that it has begun. -/
lemma written_eq {s : CoveredLink} (h : s.Delivers) (hw : s.writer ≠ .done)
    (hrest : s.writer.rest = []) : s.wire.written = octetsOf s.emitted := by
  simpa [hrest, octetsOf] using h.carried.rest hw

lemma Logged.flushed (h : s.Logged) (hdelivers : s.link.Delivers) {cell : Bool}
    (hw : s.link.writer = .flushing cell) :
    Logged ⟨{ s.link with
      writer := .sleeping
      progress := if cell then s.link.progress + ONION_CELL_SIZE else s.link.progress
      clock := nextDeadline s.link.clock s.link.now s.link.interval }, s.link.wire.written⟩ := by
  have hwire := written_eq hdelivers (by simp [hw]) (by simp [hw, Writer.rest])
  have hlog := h.log
  rw [hw] at hlog
  obtain ⟨before, last, hemitted, haccount, hlast⟩ := hlog
  refine ⟨h.target, ⟨hwire, ?_⟩, fun hclosing => (by cases hclosing),
    fun hf => absurd hf (h.unfinished (by simp [hw])), h.shutdownDone⟩
  rw [hemitted, payloadOf_append, List.length_append, hlast, ← haccount.count]
  dsimp only
  split_ifs <;> rfl

lemma Logged.close (h : s.Logged) (hdelivers : s.link.Delivers) (hw : s.link.writer = .closing) :
    Logged ⟨{ s.link.halt true .writer with finished := true }, s.link.wire.written⟩ := by
  have hwire := written_eq hdelivers (by simp [hw]) (by simp [hw, Writer.rest])
  have hlog := h.log
  rw [hw] at hlog
  obtain ⟨hproducer, hqueue⟩ := h.closing hw
  exact ⟨h.target, ⟨_, List.prefix_rfl, hwire, hlog.count⟩, fun hclosing => (by cases hclosing),
    fun _ => ⟨rfl, hproducer, hqueue, hwire⟩, fun _ => rfl⟩

lemma Logged.step (h : s.Logged) (hdelivers : s.link.Delivers) {i : CoverInput}
    (hs : s.step i = some s') : s'.Logged := by
  obtain ⟨link, hlink, rfl⟩ := Option.map_eq_some_iff.mp hs
  cases step_effect hlink with
  | tick | shutFailed | cancel | receive | deliver | pollRead | cancelRemote =>
    exact ⟨h.target, h.log, h.closing, h.finished, h.shutdownDone⟩
  | writeRefused | shutAgain => exact h
  | write => exact ⟨by simp, h.log, h.closing, h.finished, h.shutdownDone⟩
  | flush pending failed hpending =>
    refine ⟨fun p hp => ?_, h.log, h.closing, h.finished, h.shutdownDone⟩
    rw [hpending p hp]
    cases hflushing : s.link.flushing with
    | none => rfl
    | some target => exact h.target target hflushing
  | shut started done hdone => exact ⟨h.target, h.log, h.closing, h.finished, hdone⟩
  | produce count n p hworks =>
    exact ⟨h.target, h.log, fun hw => absurd hw (h.works hworks).1,
      fun hf => absurd hf (h.works hworks).2, h.shutdownDone⟩
  | enqueue cell hp =>
    have hworks := h.works (by simp [hp])
    exact ⟨h.target, h.log, fun hw => absurd hw hworks.1, fun hf => absurd hf hworks.2,
      h.shutdownDone⟩
  | wakeCell filling cell rest hw hq =>
    refine h.begin hw _ 1 (hdelivers.cells.1 cell (List.mem_of_mem_drop (i := s.link.queue.taken) ?_))
    show cell ∈ s.link.queue.buffered
    simp [hq]
  | wakeEmpty filling hw => exact h.begin hw _ 2 rfl
  | wakeLast filling hw hq hp =>
    have hlog := h.log
    rw [hw] at hlog
    exact ⟨h.target, hlog, fun _ => ⟨hp, hq⟩, fun hf => absurd hf (h.unfinished (by simp [hw])),
      h.shutdownDone⟩
  | transmit count rest cell hw => exact h.transmit hw count
  | flushed cell hw => exact h.flushed hdelivers hw
  | close hw => exact h.close hdelivers hw
  | halt i failed w hi =>
    cases i with
    | flushed => exact absurd rfl hi.1
    | close => exact absurd rfl hi.2
    | _ => exact h.halt failed w

lemma logged_start (interval phase now : ℕ) : Logged ⟨start interval phase now, []⟩ where
  target := by simp [start]
  log := ⟨rfl, rfl⟩
  closing := fun hw => (by cases hw)
  finished := fun hf => (by cases hf)
  shutdownDone := fun hd => (by cases hd)

lemma logged_of_run {s₀ : CoveredLink} {interval phase now : ℕ} (h₀ : wrap interval phase now = .ok s₀)
    (h : Run step ⟨s₀, []⟩ s) : s.link.Delivers ∧ s.Logged := by
  refine h.invariant (I := fun s => s.link.Delivers ∧ s.Logged) ⟨delivers_wrap h₀, ?_⟩
    fun s i s' hinv _ hs => ?_
  · unfold wrap at h₀
    split_ifs at h₀
    cases h₀
    exact logged_start interval phase now
  · refine ⟨?_, hinv.2.step hinv.1 hs⟩
    obtain ⟨link, hlink, rfl⟩ := Option.map_eq_some_iff.mp hs
    exact hinv.1.step hlink

lemma pollFlush_ok {s : CoveredLink} (h : s.pollFlush.1 = .ready (.ok ())) :
    s.application.written.length % ONION_CELL_SIZE = 0 ∧
      (s.flushing.getD (s.application.written.length, s.now)).1 ≤ s.progress := by
  unfold CoveredLink.pollFlush at h
  dsimp only at h
  split_ifs at h with hpartial hprogress
  · cases h
  · exact ⟨not_not.mp hpartial, hprogress⟩
  · cases h
  · cases h

lemma pollShutdown_ok {s : CoveredLink} :
    s.pollShutdown.1 = .ready (.ok ()) ↔ s.shutdownDone = true ∨ s.finished = true := by
  unfold CoveredLink.pollShutdown
  dsimp only
  split_ifs <;> simp_all

/-- The cells of the envelopes are cells of the queue, and those hold what was accepted. -/
lemma payloadOf_isPrefix {s : CoveredLink} (h : s.Delivers) {envelopes : List Emission}
    (henvelopes : envelopes <+: s.emitted) : payloadOf envelopes <+: s.queue.written.flatten := by
  obtain ⟨rest, hrest⟩ := henvelopes
  have hcells : payloadOf s.emitted = s.queue.consumed.flatten := h.carried.cells
  have hemitted : payloadOf envelopes <+: payloadOf s.emitted := by
    rw [← hrest, payloadOf_append]
    exact List.prefix_append _ _
  rw [hcells] at hemitted
  refine hemitted.trans ?_
  rw [← s.queue.consumed_append_buffered, List.flatten_append]
  exact List.prefix_append _ _

lemma queued_isPrefix {s : CoveredLink} (h : s.Delivers) :
    s.queue.written.flatten <+: s.application.written :=
  h.produced.cut.trans s.application.consumed_isPrefix

lemma Logged.durable_of_pollFlush (h : s.Logged) (hdelivers : s.link.Delivers)
    (hok : s.link.pollFlush.1 = .ready (.ok ())) : s.Durable := by
  have htarget : s.link.application.written.length ≤ s.link.progress := by
    have hprogress := (pollFlush_ok hok).2
    cases hflushing : s.link.flushing with
    | none => simpa [hflushing] using hprogress
    | some pending =>
      rw [← h.target pending hflushing]
      simpa [hflushing] using hprogress
  obtain ⟨envelopes, hemitted, haccount⟩ := h.log.halt
  have hprefix := (payloadOf_isPrefix hdelivers hemitted).trans (queued_isPrefix hdelivers)
  refine ⟨envelopes, hemitted, haccount.log.symm, hprefix.eq_of_length_le ?_⟩
  rw [← haccount.count]
  exact htarget

/-- A writer that has come to the end has flushed what the producer had queued. -/
lemma Logged.durable_iff_queued (h : s.Logged) (hdelivers : s.link.Delivers)
    (hfinished : s.link.finished = true) :
    s.Durable ↔ s.link.queue.written.flatten = s.link.application.written := by
  obtain ⟨-, -, hqueue, hflushed⟩ := h.finished hfinished
  constructor
  · rintro ⟨envelopes, hemitted, -, hpayload⟩
    have hcells := payloadOf_isPrefix hdelivers hemitted
    rw [hpayload] at hcells
    exact (queued_isPrefix hdelivers).eq_of_length_le hcells.length_le
  · intro hqueued
    have hcells : payloadOf s.link.emitted = s.link.queue.consumed.flatten := hdelivers.carried.cells
    have hconsumed : s.link.queue.consumed = s.link.queue.written := by
      rw [← s.link.queue.consumed_append_buffered, hqueue, List.append_nil]
    exact ⟨s.link.emitted, List.prefix_rfl, hflushed.symm, by rw [hcells, hconsumed, hqueued]⟩

lemma dvd_of_queued {s : CoveredLink} (h : s.Delivers)
    (hqueued : s.queue.written.flatten = s.application.written) :
    ONION_CELL_SIZE ∣ s.application.written.length := by
  rw [← hqueued, List.length_flatten]
  apply List.dvd_sum
  intro n hn
  obtain ⟨cell, hcell, rfl⟩ := List.mem_map.mp hn
  rw [h.cells.1 cell hcell]

/-- What `Ok` of a flush and of a shutdown promise at any time: everything accepted is in
envelopes that are written and flushed, and a part of a cell never passes. A flush always keeps
it. A shutdown keeps it exactly if the producer had queued every octet that was accepted when the
writer came to the end. -/
theorem polls_durable_iff {s₀ : CoveredLink} {interval phase now : ℕ}
    (h₀ : wrap interval phase now = .ok s₀) (h : Run step ⟨s₀, []⟩ s) :
    (s.link.pollFlush.1 = .ready (.ok ()) → s.Durable) ∧
    (((s.link.pollShutdown.1 = .ready (.ok ()) → s.Durable) ∧
      (¬ ONION_CELL_SIZE ∣ s.link.application.written.length →
        s.link.pollFlush.1 ≠ .ready (.ok ()) ∧ s.link.pollShutdown.1 ≠ .ready (.ok ()))) ↔
      (s.link.finished = true → s.link.queue.written.flatten = s.link.application.written)) := by
  obtain ⟨hdelivers, hlogged⟩ := logged_of_run h₀ h
  refine ⟨hlogged.durable_of_pollFlush hdelivers, fun hkeeps hfinished => ?_, fun hqueued => ?_⟩
  · have hok := pollShutdown_ok.mpr (.inr hfinished)
    exact (hlogged.durable_iff_queued hdelivers hfinished).mp (hkeeps.1 hok)
  · have hfinished : s.link.pollShutdown.1 = .ready (.ok ()) → s.link.finished = true := by
      intro hok
      obtain hdone | hfinished := pollShutdown_ok.mp hok
      · exact hlogged.shutdownDone hdone
      · exact hfinished
    refine ⟨fun hok => ?_, fun hpartial => ⟨fun hok => ?_, fun hok => ?_⟩⟩
    · exact (hlogged.durable_iff_queued hdelivers (hfinished hok)).mpr (hqueued (hfinished hok))
    · exact hpartial (Nat.dvd_of_mod_eq_zero (pollFlush_ok hok).1)
    · exact hpartial (dvd_of_queued hdelivers (hqueued (hfinished hok)))

/-- One octet is written and the stream is shut down. The producer stops over the part of a
cell, and the writer closes the wire before it is stopped as well. -/
def cutShort : List CoverInput :=
  [.pollWrite [7], .produce 1, .pollShutdown, .produce 1, .tick 1, .wake (List.replicate 8192 0), .close]

theorem cutShort_shutdown_ok : ∃ s, runInputs step ⟨start 10000000 1 0, []⟩ cutShort = some s ∧
    s.link.pollShutdown.1 = .ready (.ok ()) ∧ s.link.application.written.length = 1 ∧
    s.link.emitted.length = 0 ∧ ¬ s.Durable := by
  have hlook : (runInputs step ⟨start 10000000 1 0, []⟩ cutShort).map (fun s =>
      (s.link.finished, s.link.application.written.length, s.link.emitted.length)) =
      some (true, 1, 0) := by decide +kernel
  obtain ⟨s, hs, hview⟩ := Option.map_eq_some_iff.mp hlook
  obtain ⟨hfinished, hwritten, hemitted⟩ : s.link.finished = true ∧
      s.link.application.written.length = 1 ∧ s.link.emitted.length = 0 := by simpa using hview
  refine ⟨s, hs, pollShutdown_ok.mpr (.inr hfinished), hwritten, hemitted, ?_⟩
  rintro ⟨envelopes, hprefix, -, hpayload⟩
  rw [List.length_eq_zero_iff.mp hemitted, List.prefix_nil] at hprefix
  subst hprefix
  rw [← hpayload] at hwritten
  cases hwritten

/-- A whole cell is written, sent and flushed, and then the stream is shut down. -/
def drained : List CoverInput :=
  [.pollWrite (List.replicate 8192 7), .produce 1, .produce 8191, .enqueue, .tick 1,
    .wake (List.replicate 8192 0), .transmit 9000, .flushed, .pollFlush, .pollShutdown, .produce 1,
    .tick 10000000, .wake (List.replicate 8192 0), .close]

theorem drained_durable : ∃ s, runInputs step ⟨start 10000000 1 0, []⟩ drained = some s ∧
    s.link.pollFlush.1 = .ready (.ok ()) ∧ s.link.pollShutdown.1 = .ready (.ok ()) ∧ s.Durable := by
  have hlook : (runInputs step ⟨start 10000000 1 0, []⟩ drained).map (fun s =>
      (s.link.finished, s.link.application.written.length, s.link.flushing, s.link.progress)) =
      some (true, 8192, none, 8192) := by decide +kernel
  obtain ⟨s, hs, hview⟩ := Option.map_eq_some_iff.mp hlook
  obtain ⟨hfinished, hwritten, hflushing, hprogress⟩ : s.link.finished = true ∧
      s.link.application.written.length = 8192 ∧ s.link.flushing = none ∧ s.link.progress = 8192 := by
    simpa using hview
  have hflush : s.link.pollFlush.1 = .ready (.ok ()) := by
    simp [CoveredLink.pollFlush, hwritten, hflushing, hprogress, ONION_CELL_SIZE]
  have h₀ : wrap 10000000 1 0 = .ok (start 10000000 1 0) := rfl
  have hclaim := polls_durable_iff h₀ (Run.of_inputs _ hs)
  exact ⟨s, hs, hflush, pollShutdown_ok.mpr (.inr hfinished), hclaim.1 hflush⟩

end LoggedLink

end AnonGuard
