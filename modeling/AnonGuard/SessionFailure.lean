import AnonGuard.SessionFlow

/-!
# Failures of local sockets

A worker whose socket fails queues its report and then drops its channel end.
The actor removes the stream when it takes the report. In between it may take a
data or end cell for the stream, find the queue closed and end the whole
session; and it may retire the stream, so that the report finds nothing to
reset. This module shows the first kind of run, and that runs which avoid both
confine every local failure to its stream.
-/
namespace AnonGuard

/-- The two errors of a delivery to a writer's queue. -/
def SessionError.isQueueFault : SessionError → Bool
  | .invalid .receiveQueue | .invalid .endQueue => true
  | _ => false

namespace Endpoint
variable {e e' : Endpoint} {x : SessionError} {data : Bytes}

lemma emit_error {c : SessionCell} {flushed : Option ℕ} (h : e.emit c flushed = .error x) :
    x.isQueueFault = false := by
  unfold emit outgoing at h
  split at h
  · rename_i y hout
    cases h
    split_ifs at hout <;> cases hout <;> rfl
  · split at h <;> cases h
    rfl

lemma serveFirst_error {ids : List ℕ} (h : e.serveFirst ids = .error x) :
    x.isQueueFault = false := by
  induction ids with
  | nil => cases h
  | cons k ids ih =>
    unfold serveFirst at h
    split at h
    · cases h
      rfl
    · split at h
      · cases h
        rfl
      · exact ih h
      · cases h

lemma select_error {now : ℕ} (h : e.select now = .error x) : x.isQueueFault = false := by
  unfold select at h
  split at h
  · cases h
  · split at h
    · rename_i y hserve
      cases h
      split_ifs at hserve
      exact serveFirst_error hserve
    · cases h
    · cases h

lemma tick_error {t : Tick} (h : e.tick t = .error x) : x.isQueueFault = false := by
  unfold tick at h
  split at h
  · unfold finishExit at h
    split at h
    · cases h
      exact emit_error ‹_›
    · cases h
  · unfold scheduled at h
    split at h
    · cases h
      exact select_error ‹_›
    · split at h
      · cases h
        exact emit_error ‹_›
      · split at h
        · rename_i hpace
          cases h
          unfold pace at hpace
          split_ifs at hpace
          cases hpace
          rfl
        · cases h

lemma handleEvent_error {y : Event} (h : e.handleEvent y = .error x) : x.isQueueFault = false := by
  cases y with
  | written =>
    simp only [handleEvent] at h
    split at h
    · cases h
    · split_ifs at h
      cases h
      rfl
  | connected =>
    simp only [handleEvent] at h
    split_ifs at h
    cases h
    rfl
  | failed =>
    simp only [handleEvent] at h
    split at h <;> cases h

lemma acceptOpen_error {now id : ℕ} (h : e.acceptOpen now id data = .error x) :
    x.isQueueFault = false := by
  simp only [acceptOpen] at h
  split at h
  · cases h
  · split at h
    · cases h
      rfl
    · split at h
      · cases h
        rfl
      · split at h
        · cases h
          rfl
        · split at h <;> cases h
          rfl

lemma acceptOpened_error {id : ℕ} (h : e.acceptOpened id = .error x) : x.isQueueFault = false := by
  unfold acceptOpened at h
  split at h
  · cases h
    rfl
  · split_ifs at h <;> cases h <;> rfl

lemma acceptRefused_error {id : ℕ} (h : e.acceptRefused id = .error x) :
    x.isQueueFault = false := by
  unfold acceptRefused at h
  split at h
  · cases h
    rfl
  · split_ifs at h
    cases h
    rfl

lemma acceptAck_error {id : ℕ} (h : e.acceptAck id data = .error x) :
    x.isQueueFault = false := by
  unfold acceptAck at h
  split at h
  · cases h
    rfl
  · split_ifs at h
    · cases h
      rfl
    · split at h <;> cases h
      rfl

lemma acceptData_error {now id : ℕ} (h : e.acceptData now id data = .error x)
    (hx : x.isQueueFault = true) :
    ∃ s item fault, e.streams[id]? = some s ∧ (e.workers id).deliver item = .error fault := by
  unfold acceptData at h
  split at h
  · cases h
    cases hx
  · rename_i s hs
    split_ifs at h
    · cases h
      cases hx
    · cases h
      cases hx
    · split at h
      · exact ⟨s, _, _, hs, ‹_›⟩
      · cases h

lemma acceptEnd_error {now id : ℕ} (h : e.acceptEnd now id = .error x) (hx : x.isQueueFault = true) :
    ∃ s item fault, e.streams[id]? = some s ∧ (e.workers id).deliver item = .error fault := by
  unfold acceptEnd at h
  split at h
  · cases h
    cases hx
  · rename_i s hs
    split_ifs at h
    · cases h
      cases hx
    · split at h
      · exact ⟨s, _, _, hs, ‹_›⟩
      · cases h

/-- Only a data or end cell of a known stream can find its queue unusable. -/
lemma dispatch_queueFault {now : ℕ} {c : SessionCell} (h : e.dispatch now c = .error x)
    (hx : x.isQueueFault = true) : (c.command = .data ∨ c.command = .end) ∧
      ∃ s item fault, e.streams[c.id]? = some s ∧ (e.workers c.id).deliver item = .error fault := by
  have hno : ∀ {y : SessionError}, y = x → y.isQueueFault ≠ false := by
    rintro y rfl
    simp [hx]
  unfold dispatch at h
  split at h
  · cases h
  · split at h <;> rename_i hcmd
    case h_5 => exact ⟨.inl hcmd, acceptData_error h hx⟩
    case h_6 => exact absurd (acceptAck_error h) (hno rfl)
    case h_7 =>
      split_ifs at h
      · exact ⟨.inr hcmd, acceptEnd_error h hx⟩
      · cases h
        cases hx
    case h_2 =>
      split_ifs at h
      · exact absurd (acceptOpen_error h) (hno rfl)
      · cases h
        cases hx
    case h_3 =>
      split_ifs at h
      · exact absurd (acceptOpened_error h) (hno rfl)
      · cases h
        cases hx
    case h_4 =>
      split_ifs at h
      · exact absurd (acceptRefused_error h) (hno rfl)
      · cases h
        cases hx
    case h_11 =>
      cases h
      cases hx
    -- The other commands are refused with the error of the dispatch itself.
    all_goals
      split_ifs at h
      cases h
      cases hx

lemma tick_result {t : Tick} (h : e.tick t = .ok e') :
    e'.result = e.result ∨ e'.result = some (.ok ()) := by
  cases tick_eq_ok h with
  | last => exact .inr rfl
  | cell c e₁ time _ hsel =>
    exact .inl (cellFrame_of_select time hsel).result

lemma iterate_queueFault {now : ℕ} {branch : Endpoint → Except SessionError Endpoint}
    (h : e.iterate now branch = some e') (hr : e'.result = some (.error x))
    (hx : x.isQueueFault = true) : e.result = none ∧
      (branch { e with time := now } = .error x ∨ branch { e with time := now } = .ok e') := by
  obtain ⟨hnone, -⟩ := iterate_eq_some h
  refine ⟨hnone, ?_⟩
  unfold iterate at h
  split_ifs at h
  split at h
  · rename_i fault hhead
    cases h
    cases hr
    unfold headFault at hhead
    split_ifs at hhead <;> cases hhead <;> cases hx
  · split at h
    · cases h
      cases hr
      exact .inl ‹_›
    · cases h
      exact .inr ‹_›

lemma ne_error_of_result {r : Option (Except SessionError Unit)} (hnone : e.result = none)
    (hr : r = e.result ∨ r = some (.ok ())) : r ≠ some (.error x) := by
  rintro rfl
  rw [hnone] at hr
  simp at hr

/-- A session ends with a queue fault only when it takes a data or end cell whose
stream has an unusable queue. -/
theorem step_queueFault {i : SessionInput} (h : e.step i = some e')
    (hr : e'.result = some (.error x)) (hx : x.isQueueFault = true) :
    e.result = some (.error x) ∨ ∃ now c, i = .frame now (.ok c) ∧
      (c.command = .data ∨ c.command = .end) ∧ ∃ s item fault, e.streams[c.id]? = some s ∧
        (e.workers c.id).deliver item = .error fault := by
  have hno : ∀ y : SessionError, y.isQueueFault = false → y ≠ x := by
    rintro y hy rfl
    rw [hy] at hx
    cases hx
  cases i with
  | clock =>
    simp only [step] at h
    split_ifs at h
    obtain ⟨hnone, hb | hb⟩ := iterate_queueFault h hr hx
    · exact absurd rfl (hno x (tick_error hb))
    · have hres := tick_result hb
      exact absurd hr (ne_error_of_result hnone hres)
  | request now host port =>
    simp only [step] at h
    split_ifs at h
    obtain ⟨hnone, hb | hb⟩ := iterate_queueFault h hr hx
    · cases hb
    · cases hreq : Endpoint.request { e with time := now } now host port with
      | error =>
        rw [hreq] at hb
        cases hb
        exact absurd hr (ne_error_of_result hnone (.inl rfl))
      | ok =>
        rw [hreq] at hb
        cases hb
        obtain ⟨target, rfl⟩ := request_eq_ok hreq
        exact absurd hr (ne_error_of_result hnone (.inl rfl))
  | ownerClosed =>
    simp only [step] at h
    split_ifs at h
    obtain ⟨hnone, hb | hb⟩ := iterate_queueFault h hr hx
    · cases hb
      cases hx
    · cases hb
  | event =>
    simp only [step] at h
    split at h
    · cases h
    · obtain ⟨hnone, hb | hb⟩ := iterate_queueFault h hr hx
      · exact absurd rfl (hno x (handleEvent_error hb))
      · obtain ⟨_, _, _, _, _, _, rfl⟩ := (handleEvent_eq_ok hb).tables
        exact absurd hr (ne_error_of_result hnone (.inl rfl))
  | frame now =>
    simp only [step] at h
    obtain ⟨hnone, hb | hb⟩ := iterate_queueFault h hr hx
    · simp only [handleFrame] at hb
      split_ifs at hb
      · cases hb
        cases hx
      · split at hb
        · cases hb
          cases hx
        · obtain ⟨hcmd, s, item, fault, hs, hd⟩ := dispatch_queueFault hb hx
          exact .inr ⟨now, _, rfl, hcmd, s, item, fault, hs, hd⟩
    · obtain ⟨c, budget, rfl, hd⟩ := handleFrame_eq_ok hb
      obtain ⟨_, _, _, _, _, _, _, _, _, _, _, rfl, -, hresult⟩ := hd.tables
      exact absurd hr (ne_error_of_result hnone (hresult.imp_right (·.1)))
  | framesClosed =>
    simp only [step] at h
    obtain ⟨hnone, hb | hb⟩ := iterate_queueFault h hr hx
    · cases hb
      cases hx
    · cases hb
  | expire =>
    simp only [step] at h
    split_ifs at h
    cases h
    cases hr
    cases hx
  | worker =>
    simp only [step, workerStep] at h
    split at h
    · cases h
    · cases h
      exact .inl hr
  | connect =>
    simp only [step, connectStep] at h
    split_ifs at h
    cases h
    exact .inl hr

end Endpoint

/-- A failure report finds its stream, or one that was not retired. -/
def reportGuard : StreamGuard := ⟨fun _ => True, fun v => ¬ v.retired⟩

/-- A failure that the actor has not taken notice of. -/
def View.Unreported (id : ℕ) (v : View) : Prop :=
  v.workers.writer = .report ∨ v.workers.reader = .report ∨ .failed id ∈ v.events

def Workers.failed (w : Workers) : Bool := w.readFailed || w.writeFailed

/-- A failed stream is reset, now or as soon as its report is taken. -/
structure View.Failing (id : ℕ) (v : View) : Prop where
  incoming : v.workers.incoming.senderOpen = true → v.stream ≠ none
  outgoing : v.workers.outgoing.receiverOpen = true → v.stream ≠ none
  due : v.workers.failed = true → v.Unreported id ∨ (v.stream = none ∧ v.ResetDone id)
  removed : v.workers.failed = true → v.stream = none → v.retired ∨ v.ResetDone id

variable {w : Workers}

section Failing
variable {id : ℕ} {v v' : View} {events : List Event}

/-- The parts of the workers that tell of failures. -/
def SameFailures (w w' : Workers) : Prop :=
  w'.writer = w.writer ∧ w'.reader = w.reader ∧ w'.failed = w.failed

/-- A step that keeps the stream and loses no report and no cell. -/
lemma View.Failing.keep (h : v.Failing id) (hw : SameFailures v.workers v'.workers)
    (hin : v'.workers.incoming.senderOpen = v.workers.incoming.senderOpen)
    (hout : v'.workers.outgoing.receiverOpen = v.workers.outgoing.receiverOpen)
    (hstream : v'.stream = none ↔ v.stream = none) (hretired : v.retired → v'.retired)
    (hevents : .failed id ∈ v.events → .failed id ∈ v'.events)
    (hcells : ∀ c ∈ v.controls ++ v.sent, c ∈ v'.controls ++ v'.sent)
    (hreceived : ∀ c ∈ v.received, c ∈ v'.received) : v'.Failing id := by
  obtain ⟨hwriter, hreader, hfailed⟩ := hw
  refine ⟨?_, ?_, ?_, ?_⟩
  · rw [hin]
    exact fun ho hn => h.incoming ho (hstream.mp hn)
  · rw [hout]
    exact fun ho hn => h.outgoing ho (hstream.mp hn)
  · rw [hfailed]
    intro hf
    rcases h.due hf with hu | ⟨hn, hd⟩
    · refine .inl (hu.imp (hwriter.trans ·) ?_)
      exact Or.imp (hreader.trans ·) hevents
    · exact .inr ⟨hstream.mpr hn, hd.mono hcells hreceived⟩
  · rw [hfailed]
    intro hf hn
    exact (h.removed hf (hstream.mp hn)).imp hretired (·.mono hcells hreceived)

lemma SameFailures.close (v : View) : SameFailures v.workers v.close.workers := by
  rcases v.workers_close with h | h <;> rw [h] <;> exact ⟨rfl, rfl, rfl⟩

/-- Closing drops both channel ends of the actor. -/
lemma View.Failing.ends_close (h : v.Failing id) :
    v.close.workers.incoming.senderOpen = false ∧
      v.close.workers.outgoing.receiverOpen = false := by
  unfold View.close View.remove
  split
  · rename_i hn
    exact ⟨Bool.not_eq_true _ ▸ fun ho => h.incoming ho hn,
      Bool.not_eq_true _ ▸ fun ho => h.outgoing ho hn⟩
  · exact ⟨rfl, rfl⟩

/-- The stream is closed and reset. -/
lemma View.Failing.closed (h : v.Failing id) (hw : v'.workers = v.close.workers)
    (hstream : v'.stream = none) (hreset : v'.ResetDone id) : v'.Failing id := by
  obtain ⟨hin, hout⟩ := h.ends_close
  refine ⟨?_, ?_, fun _ => .inr ⟨hstream, hreset⟩, fun _ _ => .inr hreset⟩
  · rw [hw, hin]
    simp
  · rw [hw, hout]
    simp

lemma View.Failing.attach (hw : v'.workers = .attached) (hstream : v'.stream ≠ none) :
    v'.Failing id := by
  refine ⟨fun _ => hstream, fun _ => hstream, fun hf => ?_, fun _ hn => absurd hn hstream⟩
  rw [hw] at hf
  cases hf

/-- A failure is recorded while the actor has the stream, at a point from which
it will be reported. -/
lemma Workers.Steps.failed_cases {w w' : Workers} (hs : w.Steps id w' events)
    (hf : w'.failed = true) : w.failed = true ∨
      ((w'.writer = .report ∨ w'.reader = .report) ∧
        (w.incoming.senderOpen = true ∨ w.outgoing.receiverOpen = true)) := by
  cases hs with
  | putOverflow | writeError =>
    simp only [Workers.failed, Workers.failWriter, Bool.or_eq_true] at hf ⊢
    tauto
  | readError =>
    simp only [Workers.failed, Workers.failReader, Bool.or_eq_true] at hf ⊢
    tauto
  | _ => exact .inl hf

/-- A report on its way stays on its way. -/
lemma View.Unreported.worker (h : v.Unreported id) (hs : v.workers.Steps id w events) :
    View.Unreported id { v with workers := w, events := v.events ++ events } := by
  unfold View.Unreported at h ⊢
  cases hs with
  | writerReport | readerReport => exact .inr (.inr (by simp))
  | writeError =>
    exact .inl rfl
  | _ => simp_all [Workers.failWriter, Workers.failReader]

lemma View.Failing.worker (h : v.Failing id) (hs : v.workers.Steps id w events) :
    { v with workers := w, events := v.events ++ events }.Failing id := by
  obtain ⟨hin, hout, -⟩ := hs.ends
  refine ⟨fun ho => h.incoming (hin ▸ ho), fun ho => h.outgoing (hout ▸ ho), fun hf => ?_,
    fun hf hn => ?_⟩
  · rcases hs.failed_cases hf with hf | ⟨hp, -⟩
    · exact (h.due hf).imp_left (·.worker hs)
    · exact .inl (hp.imp_right .inl)
  · rcases hs.failed_cases hf with hf | ⟨-, hl⟩
    · exact h.removed hf hn
    · exact absurd hn (hl.elim h.incoming h.outgoing)

theorem View.Failing.step {client : Bool} (h : v.Failing id) (hlife : v.Life)
    (hstep : StreamStep reportGuard client id v v') : v'.Failing id := by
  cases hstep.effect hlife with
  | worker w events hw => exact h.worker hw
  | attached s _ _ _ hstream hw => exact .attach hw (by simp [hstream])
  | quiet hq =>
    have hdone : v.ResetDone id → v'.ResetDone id :=
      fun hd => hd.mono hq.issued fun c hc => hq.received.subset hc
    refine ⟨?_, ?_, fun hf => ?_, fun hf hn => ?_⟩
    · rw [hq.workers, hq.stream]
      exact h.incoming
    · rw [hq.workers, hq.stream]
      exact h.outgoing
    · rw [hq.workers] at hf
      rw [View.Unreported, hq.workers, hq.stream]
      rcases h.due hf with (hw | hr | hx) | ⟨hn, hd⟩
      · exact .inl (.inl hw)
      · exact .inl (.inr (.inl hr))
      · rcases hq.failed hx with hx | ⟨hn, hg⟩
        · exact .inl (.inr (.inr hx))
        · -- the guard excludes a retired stream, so the reset was already made
          exact .inr ⟨hn, hdone ((h.removed hf hn).resolve_left hg)⟩
      · exact .inr ⟨hn, hdone hd⟩
    · rw [hq.workers] at hf
      rw [hq.stream] at hn
      exact (h.removed hf hn).imp (by rw [hq.retired]; exact fun h => h) hdone
  | closes hc =>
    obtain ⟨s, hs, hr, rfl⟩ | ⟨-, hdone⟩ := hc.reason
    · obtain ⟨hin, hout⟩ := h.ends_close
      obtain ⟨hwriter, hreader, hfailed⟩ := SameFailures.close v
      refine ⟨fun ho => ?_, fun ho => ?_, fun hf => ?_, fun _ _ => .inl trivial⟩
      · rw [show v.close.workers.incoming.senderOpen = false from hin] at ho
        cases ho
      · rw [show v.close.workers.outgoing.receiverOpen = false from hout] at ho
        cases ho
      · rcases h.due (hfailed ▸ hf) with hu | ⟨hn, -⟩
        · refine .inl (hu.imp (hwriter.trans ·) (Or.imp (hreader.trans ·) fun hx => ?_))
          simpa using hx
        · rw [hs] at hn
          cases hn
    · exact h.closed hc.workers hc.stream hdone
  | served s s' c rx hs hg hserve =>
    refine h.keep ⟨rfl, rfl, rfl⟩ rfl (serves_ready hserve).1 (by simp [hs]) (fun h => h) (fun h => h)
      (fun d hd => ?_) fun _ h => h
    simp only [List.mem_append] at hd ⊢
    tauto
  | written n rest s he hs =>
    refine h.keep ⟨rfl, rfl, rfl⟩ rfl rfl (by simp [hs]) (fun h => h) (fun hx => ?_) (fun _ h => h)
      fun _ h => h
    simpa [he] using hx
  | opened c s _ hs | acked c s _ _ hs =>
    exact h.keep ⟨rfl, rfl, rfl⟩ rfl rfl (by simp [hs]) (fun h => h) (fun h => h) (fun _ h => h)
      fun _ => List.mem_append_left _
  | data c s w _ hs _ _ hw | ended c s w _ hs _ hw =>
    obtain ⟨-, -, rfl⟩ := Workers.deliver_eq_ok.mp hw
    exact h.keep ⟨rfl, rfl, rfl⟩ rfl rfl (by simp [hs]) (fun h => h) (fun h => h) (fun _ h => h)
      fun _ => List.mem_append_left _

end Failing

/-- A data or end cell of a live stream finds the writer's end of the queue, and
a failure report finds a stream that was not retired and room for its reset. -/
def Endpoint.FailureTaken (e : Endpoint) : SessionInput → Prop
  | .frame _ (.ok c) => c.command = .data ∨ c.command = .end → e.streams[c.id]?.isSome = true →
      (e.workers c.id).incoming.receiverOpen = true
  | .event _ => ∀ x ∈ e.events.head?, x = .failed x.id →
      x.id ∉ e.retired ∧ e.controls.length < MAX_CONTROLS
  | _ => True

instance (e : Endpoint) : ∀ i, Decidable (e.FailureTaken i)
  | .frame _ (.ok c) => inferInstanceAs (Decidable (c.command = .data ∨ c.command = .end →
      e.streams[c.id]?.isSome = true → (e.workers c.id).incoming.receiverOpen = true))
  | .event _ => inferInstanceAs (Decidable (∀ x ∈ e.events.head?, x = .failed x.id →
      x.id ∉ e.retired ∧ e.controls.length < MAX_CONTROLS))
  | .frame _ (.error _) | .clock _ | .request .. | .ownerClosed _ | .framesClosed _ | .expire _
  | .worker .. | .connect .. => .isTrue trivial

lemma Endpoint.FailureTaken.admits {e : Endpoint} {i : SessionInput} (h : e.FailureTaken i) :
    reportGuard.Admits e i := by
  cases i with
  | event =>
    intro id rest he _
    exact (h (.failed id) (by simp [he]) rfl).1
  | clock => exact fun _ _ => trivial
  | _ => trivial

/-- The actor takes the report of a live stream: the stream is removed, its reset
is queued, and the other streams keep their state. -/
lemma Endpoint.failure_report {e : Endpoint} {now id : ℕ} {rest : List Event} {s : Stream}
    (he : e.events = .failed id :: rest) (hs : e.streams[id]? = some s) (hr : e.result = none)
    (hhead : e.headFault = none) (hnow : e.time ≤ now) :
    ∃ e', e.step (.event now) = some e' ∧ e'.result = none ∧ e'.streams[id]? = none ∧
      e'.controls = e.controls ++ [⟨.sessionReset, id, []⟩] ∧
      ∀ k ≠ id, e'.streams[k]? = e.streams[k]? ∧ e'.workers k = e.workers k := by
  refine ⟨Endpoint.resetStream { e with time := now, events := rest } id, ?_, ?_, ?_, ?_, ?_⟩
  · have hrun : ¬ (e.result.isSome = true ∨ now < e.time) := by
      rw [hr]
      simpa using hnow
    simp only [step, he, iterate, if_neg hrun, hhead, handleEvent, hs]
  · obtain ⟨_, _, _, h⟩ := resetStream_eq (e := { e with time := now, events := rest }) id
    rw [h]
    exact hr
  · have hview : (Endpoint.resetStream { e with time := now, events := rest } id).view id = _ :=
      view_resetStream_self _
    simpa [view, View.control] using congrArg View.stream hview
  · obtain ⟨_, _, _, h⟩ := resetStream_eq (e := { e with time := now, events := rest }) id
    rw [h]
  · intro k hk
    have hview := view_resetStream_of_ne { e with time := now, events := rest } hk
    exact ⟨congrArg View.stream hview, congrArg View.workers hview⟩

lemma Workers.deliver_of_room (item : Option Bytes) (hopen : w.incoming.receiverOpen = true)
    (hroom : w.incoming.queue.length < w.incoming.capacity) : ∃ w', w.deliver item = .ok w' :=
  ⟨_, Workers.deliver_eq_ok.mpr ⟨hopen, hroom, rfl⟩⟩

namespace SessionPair
variable {p p' : SessionPair} {profile : Profile}
  {clientSeq exitSeq clientInterval exitInterval : ℕ}

/-- A delivery from an honest peer never fails for want of room, so a queue that
is still open takes it. -/
lemma no_queueFault_step {d : Direction} {j : SessionInput} {e' : Endpoint} {x : SessionError}
    (h : Run step (new profile clientSeq exitSeq clientInterval exitInterval) p)
    (hj : (p.receiver d).FailureTaken j) (hs : (p.receiver d).step j = some e')
    (hframe : ∀ now c, j = .frame now (.ok c) → c ∈ (p.queue d).head?)
    (hx : x.isQueueFault = true) (ih : (p.receiver d).result ≠ some (.error x)) :
    e'.result ≠ some (.error x) := by
  intro hr
  obtain hold | ⟨now, c, rfl, hcmd, s, item, fault, hstream, hfault⟩ :=
    Endpoint.step_queueFault hs hr hx
  · exact ih hold
  · obtain ⟨rest, hq⟩ : ∃ rest, p.queue d = c :: rest := by
      have hmem := hframe now c rfl
      cases hq : p.queue d with
      | nil =>
        rw [hq] at hmem
        cases hmem
      | cons c' rest =>
        rw [hq] at hmem
        cases hmem
        exact ⟨rest, rfl⟩
    have hopen := hj hcmd (by simp [hstream])
    obtain ⟨⟨_, _, _, hsender⟩, ⟨_, _, _, hreceiver⟩⟩ := runs_of_pair h d
    have hR : PeerInv ((p.receiver d).view c.id) := peerInv_of_run hreceiver
    have hnext := next_linked (linked_of_run h d) hq (Endpoint.result_of_frame hs)
    have hroom : ((p.receiver d).workers c.id).incoming.queue.length < QUEUE + 1 :=
      room_for_next (peerInv_of_run hsender) hR hnext hstream hcmd
    have hcap : ((p.receiver d).workers c.id).incoming.capacity = QUEUE + 1 :=
      (hR.receiving.live s hstream).capacity
    obtain ⟨w, hw⟩ := Workers.deliver_of_room item hopen (by rw [hcap]; exact hroom)
    rw [hw] at hfault
    cases hfault

theorem no_queueFault (h : GuardedRun step (Both Endpoint.FailureTaken)
      (new profile clientSeq exitSeq clientInterval exitInterval) p)
    (d : Direction) {x : SessionError} (hx : x.isQueueFault = true) :
    (p.receiver d).result ≠ some (.error x) := by
  induction h with
  | start => cases d <;> rintro ⟨⟩
  | step hrun hok hs ih =>
    obtain ⟨j, hj, he, hother, hframe⟩ | ⟨j, hj, he, hother, hframe⟩ := endpoint_of_step hok hs
    · cases d with
      | forward =>
        simp only [receiver] at ih ⊢
        rwa [hother]
      | backward => exact no_queueFault_step (d := .backward) hrun.toRun hj he hframe hx ih
    · cases d with
      | forward => exact no_queueFault_step (d := .forward) hrun.toRun hj he hframe hx ih
      | backward =>
        simp only [receiver] at ih ⊢
        rwa [hother]

/-- Both clocks fire on time, and each cell arrives before the next. -/
def promptRound (k : ℕ) : List PairInput := [
  .client (.clock (.prompt (40 * k))), .exit (.clock (.prompt (40 * k))),
  .deliverForward (millis (40 * k + 5)), .deliverBackward (millis (40 * k + 5))]

/-- The client sends a byte on a fresh stream, the exit's socket fails on it, and
the client has another byte to send. -/
def failedWrite : List PairInput :=
  .client (.request (millis 1) "a" 80) :: promptRound 1 ++
    [.exit (.connect 1 true), .exit (.event (millis 50))] ++
    (List.range' 2 23).flatMap promptRound ++
    [.client (.worker 1 (.read [7])), .client (.worker 1 .send)] ++ promptRound 25 ++
    [.exit (.worker 1 .take), .exit (.worker 1 .writeError), .exit (.worker 1 .writerReport),
      .exit (.worker 1 .writerLeave), .client (.worker 1 (.read [8])), .client (.worker 1 .send)]

def failureStart : SessionPair := .new .balanced 1 1 (millis 40) (millis 40)

/-- The second byte arrives before the exit takes the failure report. -/
def dataBeforeReport : SessionPair :=
  (runInputs step failureStart (failedWrite ++ promptRound 26)).getD failureStart

/-- The exit takes the failure report first. -/
def reportBeforeData : SessionPair :=
  (runInputs step failureStart (failedWrite ++ .exit (.event (millis 1010)) :: promptRound 26)).getD
    failureStart

instance (p : SessionPair) : ∀ i, Decidable (p.Both Endpoint.FailureTaken i)
  | .client i => inferInstanceAs (Decidable (p.client.FailureTaken i))
  | .exit i => inferInstanceAs (Decidable (p.exit.FailureTaken i))
  | .deliverForward now => inferInstanceAs (Decidable (∀ c ∈ p.forward.head?,
      p.exit.FailureTaken (.frame now (.ok c))))
  | .deliverBackward now => inferInstanceAs (Decidable (∀ c ∈ p.backward.head?,
      p.client.FailureTaken (.frame now (.ok c))))

end SessionPair

end AnonGuard
