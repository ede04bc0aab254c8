import AnonGuard.SessionSend

/-!
# What a tick may emit for a stream

Ticks alternate between preferring controls and preferring streams, and they
infer the end of a stream from a closed read queue. Both can go wrong: a fresh
stream can get its turn before its `SessionOpened`, and a reader that failed
closes its queue too. This module shows one run of each kind, and that all runs
in which the turns avoid these states are right.
-/
namespace AnonGuard

/-- Every `P` in the list comes after some `Q`. -/
def Preceded (P Q : SessionCell → Prop) (l : List SessionCell) : Prop :=
  ∀ a c b, l = a ++ c :: b → P c → ∃ o ∈ a, Q o

variable {c : SessionCell}

lemma Preceded.concat {P Q : SessionCell → Prop} {l : List SessionCell} (h : Preceded P Q l)
    (hc : P c → ∃ o ∈ l, Q o) : Preceded P Q (l ++ [c]) := by
  intro a d b heq hd
  rcases b.eq_nil_or_concat with rfl | ⟨b, x, rfl⟩
  · obtain ⟨rfl, hcd⟩ := List.append_inj' heq rfl
    cases hcd
    exact hc hd
  · rw [List.concat_eq_append, ← List.cons_append, ← List.append_assoc] at heq
    obtain ⟨hl, -⟩ := List.append_inj' heq rfl
    exact h a d b hl hd

section Opened

/-- At every tick the stream whose turn it is has no `SessionOpened` in the
control queue. -/
def Endpoint.TurnAnnounced (e : Endpoint) : SessionInput → Prop
  | .clock t => ∀ id ∈ e.turn t.now, ∀ c ∈ e.controls, c.id = id → c.command ≠ .sessionOpened
  | _ => True

instance (e : Endpoint) : ∀ i, Decidable (e.TurnAnnounced i)
  | .clock t => inferInstanceAs (Decidable (∀ id ∈ e.turn t.now, ∀ c ∈ e.controls,
      c.id = id → c.command ≠ .sessionOpened))
  | .request .. | .ownerClosed .. | .event .. | .frame .. | .framesClosed .. | .expire ..
  | .worker .. | .connect .. => .isTrue trivial

/-- The same condition on a view. -/
def announcedGuard : StreamGuard :=
  ⟨fun v => ∀ c ∈ v.controls, c.command ≠ .sessionOpened, fun _ => True⟩

/-- A stream of the exit is announced or about to be, and nothing of it was
sent before. -/
structure View.OpenedFirst (v : View) : Prop where
  announced : v.stream ≠ none → ∃ c ∈ v.controls ++ v.sent, c.command = .sessionOpened
  ordered : Preceded (streamCommand ·.command = true) (·.command = .sessionOpened) v.sent

variable {id : ℕ} {v v' : View}

theorem View.OpenedFirst.step (h : v.OpenedFirst) (hlife : v.Life)
    (hstep : StreamStep announcedGuard false id v v') : v'.OpenedFirst := by
  have hlive : ∀ s, v.stream = some s → v.stream ≠ none := fun s hs => by simp [hs]
  cases hstep.effect hlife with
  | quiet hq =>
    refine ⟨fun hl => ?_, ?_⟩
    · obtain ⟨d, hd, hcmd⟩ := h.announced (hq.stream ▸ hl)
      exact ⟨d, hq.issued d hd, hcmd⟩
    · obtain hsent | ⟨c, hc, hsent⟩ := hq.sent
      · rw [hsent]
        exact h.ordered
      · rw [hsent]
        exact h.ordered.concat fun hstream => by rw [hc] at hstream; cases hstream
  | closes hc => exact ⟨absurd hc.stream, by rw [hc.sent]; exact h.ordered⟩
  | attached s _ hnew _ _ _ _ hsent =>
    obtain ⟨hc, -⟩ | ⟨-, -, hannounced⟩ := hnew
    · cases hc
    · exact ⟨fun _ => ⟨_, List.mem_append_left _ hannounced, rfl⟩, by rw [hsent]; exact h.ordered⟩
  | served s s' c rx hs hg hserve =>
    -- the guard leaves the sent cells as the only place of the announcement
    obtain ⟨d, hd, hcmd⟩ := h.announced (hlive s hs)
    have hsent : d ∈ v.sent :=
      (List.mem_append.mp hd).resolve_left fun hd => hg d hd hcmd
    exact ⟨fun _ => ⟨d, by simp [hsent], hcmd⟩, h.ordered.concat fun _ => ⟨d, hsent, hcmd⟩⟩
  | worker => exact ⟨h.announced, h.ordered⟩
  | written _ _ s _ hs | opened _ s _ hs | data _ s _ _ hs | acked _ s _ _ hs | ended _ s _ _ hs =>
    exact ⟨fun _ => h.announced (hlive s hs), h.ordered⟩

lemma Endpoint.TurnAnnounced.admits {e : Endpoint} {i : SessionInput} (h : e.TurnAnnounced i) :
    announcedGuard.Admits e i := by
  cases i with
  | clock =>
    intro id hid c hc
    obtain ⟨hc, hcid⟩ := List.mem_filter.mp hc
    exact h id hid c hc (of_decide_eq_true hcid)
  | event => exact fun _ _ _ _ => trivial
  | _ => trivial

lemma split_cellsOf {log a b : List SessionCell} (h : log = a ++ c :: b) :
    cellsOf c.id log = cellsOf c.id a ++ c :: cellsOf c.id b := by
  rw [h, cellsOf_append, cellsOf_cons_of_eq b rfl]

/-- If no stream gets its turn while its `SessionOpened` is still queued, the
exit sends the `SessionOpened` of an id before any data, acknowledgement or end
of that id. -/
theorem Endpoint.opened_before_stream_cells {profile : Profile} {sequenceNo interval : ℕ}
    {e : Endpoint}
    (h : GuardedRun step TurnAnnounced (new false profile sequenceNo interval) e)
    (a b : List SessionCell) (c : SessionCell) (hlog : e.sentLog = a ++ c :: b)
    (hc : streamCommand c.command = true) :
    ∃ o ∈ a, o.command = .sessionOpened ∧ o.id = c.id := by
  have hinv : (e.view c.id).Life ∧ (e.view c.id).OpenedFirst := by
    refine view_invariant (I := fun v => v.Life ∧ v.OpenedFirst) (h.weaken fun _ _ h => h.admits)
      ⟨View.life_initial _, ?_⟩ fun v v' hv hs => ⟨hv.1.step hs, hv.2.step hv.1 hs⟩
    exact ⟨by simp [View.initial], fun a c b heq => by simp [View.initial] at heq⟩
  obtain ⟨o, ho, hcmd⟩ := hinv.2.ordered _ c _ (split_cellsOf hlog) hc
  obtain ⟨ho, hid⟩ := List.mem_filter.mp ho
  exact ⟨o, ho, hcmd, of_decide_eq_true hid⟩

/-- The first `n` ticks of the balanced profile, all on time. -/
def promptTicks (n : ℕ) : List SessionInput :=
  (List.range n).map fun k => .clock (.prompt (40 * (k + 1)))

/-- The exit accepts an open, and the destination speaks at once. -/
def eagerDestination (ms : ℕ) : List SessionInput := [
  .frame (millis ms) (.ok ⟨.sessionOpen, 1, [1, 97, 0, 80]⟩), .connect 1 true,
  .event (millis (ms + 10)), .worker 1 (.read [7]), .worker 1 .send]

/-- Between an odd tick and an even one: the next tick prefers the stream. -/
def dataBeforeOpened : Endpoint :=
  (runInputs Endpoint.step (.new false .balanced 1 (millis 40))
    (promptTicks 25 ++ eagerDestination 1010 ++ [.clock (.prompt 1040)])).getD
    (.new false .balanced 1 (millis 40))

theorem data_before_opened :
    Run Endpoint.step (.new false .balanced 1 (millis 40)) dataBeforeOpened ∧
    dataBeforeOpened.sentLog = List.replicate 25 ⟨.dummy, 0, []⟩ ++ [⟨.data, 1, [7]⟩] ∧
    dataBeforeOpened.controls = [⟨.sessionOpened, 1, []⟩] :=
  ⟨Run.getD_inputs _, by decide +kernel⟩

/-- Between an even tick and an odd one: the next tick prefers the control. -/
def openedBeforeData : Endpoint :=
  (runInputs Endpoint.step (.new false .balanced 1 (millis 40))
    (promptTicks 26 ++ eagerDestination 1050 ++ [.clock (.prompt 1080), .clock (.prompt 1120)])).getD
    (.new false .balanced 1 (millis 40))

theorem opened_before_data :
    openedBeforeData.sentLog = List.replicate 26 ⟨.dummy, 0, []⟩ ++ [⟨.sessionOpened, 1, []⟩] ++
      [⟨.data, 1, [7]⟩] ∧
      ∃ o ∈ List.replicate 26 (⟨.dummy, 0, []⟩ : SessionCell) ++ [⟨.sessionOpened, 1, []⟩],
        o.command = .sessionOpened ∧ o.id = 1 :=
  ⟨by decide +kernel, Endpoint.opened_before_stream_cells (e := openedBeforeData)
    (GuardedRun.getD_inputs _ (by decide +kernel) _)
    (List.replicate 26 ⟨.dummy, 0, []⟩ ++ [⟨.sessionOpened, 1, []⟩]) [] ⟨.data, 1, [7]⟩
    (by decide +kernel) rfl⟩

end Opened

section Ended

/-- At every tick, if the local read of the stream whose turn it is has failed,
the stream still has an acknowledgement or bytes to send. -/
def Endpoint.TurnReadable (e : Endpoint) : SessionInput → Prop
  | .clock t => ∀ id ∈ e.turn t.now, (e.workers id).readFailed = true → ∀ s ∈ e.streams[id]?,
      s.ack ≠ none ∨ s.pending ≠ none ∨ (e.workers id).outgoing.queue ≠ []
  | _ => True

instance (e : Endpoint) : ∀ i, Decidable (e.TurnReadable i)
  | .clock t => inferInstanceAs (Decidable (∀ id ∈ e.turn t.now, (e.workers id).readFailed = true →
      ∀ s ∈ e.streams[id]?, s.ack ≠ none ∨ s.pending ≠ none ∨ (e.workers id).outgoing.queue ≠ []))
  | .request .. | .ownerClosed .. | .event .. | .frame .. | .framesClosed .. | .expire ..
  | .worker .. | .connect .. => .isTrue trivial

/-- The same condition on a view. -/
def readableGuard : StreamGuard :=
  ⟨fun v => v.workers.readFailed = true → ∀ s ∈ v.stream,
    s.ack ≠ none ∨ s.pending ≠ none ∨ v.workers.outgoing.queue ≠ [], fun _ => True⟩

/-- A reader leaves its loop at the end of the file or after an error, never
for both reasons. While the actor has the stream there is no third one. -/
structure Workers.ReaderEnds (w : Workers) (live : Prop) : Prop where
  failed : w.readFailed = true →
    w.eof = false ∧ (w.reader = .report ∨ w.reader = .leave ∨ w.reader = .gone)
  eof : w.eof = true → w.readFailed = false ∧ (w.reader = .leave ∨ w.reader = .gone)
  report : live → w.reader = .report → w.readFailed = true
  gone : live → w.reader = .leave ∨ w.reader = .gone → w.eof = true ∨ w.readFailed = true

lemma Workers.ReaderEnds.steps {id : ℕ} {w w' : Workers} {live : Prop} {events : List Event}
    (h : w.ReaderEnds live) (hlive : live → w.outgoing.receiverOpen = true)
    (hs : w.Steps id w' events) : w'.ReaderEnds live := by
  obtain ⟨hfailed, heof, hreport, hgone⟩ := h
  cases hs with
  | read | eof | readError | send | outputClosed | readerReport | readerLeave =>
    constructor <;> simp_all [Workers.failReader]
  | _ => exact ⟨hfailed, heof, hreport, hgone⟩

/-- What the endpoint owes its peer after a read error: the report is on its
way, the reset is queued or sent, or the peer has closed the stream itself. -/
def View.ResetDue (id : ℕ) (v : View) : Prop :=
  (v.stream ≠ none ∧ (v.workers.reader = .report ∨ .failed id ∈ v.events)) ∨
    ⟨.sessionReset, id, []⟩ ∈ v.controls ++ v.sent ∨
    ∃ c ∈ v.received, c.command = .sessionReset ∨ c.command = .sessionRefused

structure View.ReadEnds (id : ℕ) (v : View) : Prop where
  reader : v.workers.ReaderEnds (v.stream ≠ none)
  attached : v.workers.outgoing.receiverOpen = true → v.stream ≠ none
  ended : EndIn v.sent → v.workers.eof = true
  reset : v.workers.readFailed = true → v.ResetDue id

variable {id : ℕ} {v v' : View}

lemma View.ResetDue.mono (h : v.ResetDue id) (hstream : v.stream ≠ none → v'.stream ≠ none)
    (hreader : v'.workers.reader = v.workers.reader)
    (hevents : .failed id ∈ v.events → .failed id ∈ v'.events)
    (hcells : ∀ c ∈ v.controls ++ v.sent, c ∈ v'.controls ++ v'.sent)
    (hreceived : ∀ c ∈ v.received, c ∈ v'.received) : v'.ResetDue id := by
  rcases h with ⟨hs, h⟩ | hdone
  · exact .inl ⟨hstream hs, h.imp (hreader.trans ·) hevents⟩
  · exact .inr (View.ResetDone.mono hdone hcells hreceived)

/-- The parts of the workers that say how reading ended. -/
def SameReading (w w' : Workers) : Prop :=
  w'.reader = w.reader ∧ w'.eof = w.eof ∧ w'.readFailed = w.readFailed

/-- A step that leaves the reader alone. -/
lemma View.ReadEnds.transfer (h : v.ReadEnds id) (hw : SameReading v.workers v'.workers)
    (hopen : v'.workers.outgoing.receiverOpen = true → v'.stream ≠ none)
    (hstream : v'.stream ≠ none → v.stream ≠ none) (hend : EndIn v'.sent → EndIn v.sent)
    (hreset : v.workers.readFailed = true → v'.ResetDue id) : v'.ReadEnds id := by
  obtain ⟨hreader, heof, hfailed⟩ := hw
  refine ⟨⟨?_, ?_, ?_, ?_⟩, hopen, ?_, ?_⟩
  · rw [hfailed, heof, hreader]
    exact h.reader.failed
  · rw [hfailed, heof, hreader]
    exact h.reader.eof
  · rw [hfailed, hreader]
    exact fun hl => h.reader.report (hstream hl)
  · rw [hfailed, heof, hreader]
    exact fun hl => h.reader.gone (hstream hl)
  · rw [heof]
    exact fun he => h.ended (hend he)
  · rw [hfailed]
    exact hreset

/-- A step that keeps the stream and loses no report and no cell. -/
lemma View.ReadEnds.keep (h : v.ReadEnds id) (hw : SameReading v.workers v'.workers)
    (hopen : v'.workers.outgoing.receiverOpen = v.workers.outgoing.receiverOpen)
    (hstream : v'.stream ≠ none ↔ v.stream ≠ none)
    (hevents : .failed id ∈ v.events → .failed id ∈ v'.events) (hend : EndIn v'.sent → EndIn v.sent)
    (hcells : ∀ c ∈ v.controls ++ v.sent, c ∈ v'.controls ++ v'.sent)
    (hreceived : ∀ c ∈ v.received, c ∈ v'.received) : v'.ReadEnds id :=
  h.transfer hw (fun ho => hstream.mpr (h.attached (hopen ▸ ho))) hstream.mp hend fun hf =>
    (h.reset hf).mono hstream.mpr hw.1 hevents hcells hreceived

lemma SameReading.close (v : View) : SameReading v.workers v.close.workers := by
  rcases v.workers_close with h | h <;> rw [h] <;> exact ⟨rfl, rfl, rfl⟩

/-- Closing drops the actor's end of the read queue. -/
lemma View.ReadEnds.receiverOpen_close (h : v.ReadEnds id) :
    v.close.workers.outgoing.receiverOpen = false := by
  rw [← Bool.not_eq_true]
  intro ho
  unfold View.close View.remove at ho
  split at ho
  · exact h.attached ho ‹_›
  · cases ho

/-- The stream is closed, for a reason that leaves a trace. -/
lemma View.ReadEnds.closed (h : v.ReadEnds id) (hw : v'.workers = v.close.workers)
    (hstream : v'.stream = none) (hsent : v'.sent = v.sent)
    (hreset : v.workers.readFailed = true → v'.ResetDue id) : v'.ReadEnds id := by
  refine h.transfer (by rw [hw]; exact .close v) ?_ (by simp [hstream]) (by rw [hsent]; exact fun h => h)
    hreset
  rw [hw, h.receiverOpen_close]
  simp

lemma View.ReadEnds.attach (hf : v.Fresh) (hw : v'.workers = .attached) (hstream : v'.stream ≠ none)
    (hsent : v'.sent = v.sent) : v'.ReadEnds id := by
  refine ⟨?_, fun _ => hstream, fun he => ?_, fun hfail => ?_⟩
  · rw [hw]
    exact ⟨by rintro ⟨⟩, by rintro ⟨⟩, fun _ => by rintro ⟨⟩, fun _ => by simp [Workers.attached]⟩
  · rw [hsent] at he
    exact absurd he (not_endIn _ hf.sent)
  · rw [hw] at hfail
    cases hfail

lemma View.ReadEnds.worker (h : v.ReadEnds id) (hlife : v.Life) {w : Workers} {events : List Event}
    (hs : v.workers.Steps id w events) :
    { v with workers := w, events := v.events ++ events }.ReadEnds id := by
  obtain ⟨-, hopen, -⟩ := hs.ends
  refine ⟨h.reader.steps (fun hl => (hlife.live hl).2.2.2.2) hs, ?_, fun he => ?_, fun hf => ?_⟩
  · rw [hopen]
    exact h.attached
  · have heof := h.ended he
    cases hs <;> first
      | exact heof
      | rfl
  · -- either the reader fails in this step or the debt is older
    cases hs with
    | readError hr =>
      cases hopen : v.workers.outgoing.receiverOpen with
      | true => exact .inl ⟨h.attached hopen, .inl rfl⟩
      | false =>
        have hf : v.workers.readFailed = true := by simpa [Workers.failReader, hopen] using hf
        have := (h.reader.failed hf).2
        simp [hr] at this
    | readerReport =>
      rcases h.reset hf with ⟨hl, -⟩ | hrest
      · exact .inl ⟨hl, .inr (by simp)⟩
      · exact .inr hrest
    | read _ hr | eof hr =>
      have := (h.reader.failed hf).2
      simp [hr] at this
    | send _ hr | outputClosed _ hr | readerLeave hr =>
      rcases h.reset hf with ⟨hl, hd⟩ | hrest
      · exact .inl ⟨hl, .inr (by simpa [hr] using hd)⟩
      · exact .inr hrest
    | _ =>
      exact (h.reset hf).mono (fun h => h) rfl (fun h => List.mem_append_left _ h) (fun _ h => h)
        fun _ h => h

/-- A turn of the stream. Only a reader at the end of its file lets it end. -/
lemma View.ReadEnds.served (h : v.ReadEnds id) (hsend : Sending v) {s s' : Stream}
    {rx : Channel Bytes} (hs : v.stream = some s) (hg : readableGuard.serve v)
    (hserve : s.Serves id v.workers.outgoing c s' rx) :
    { v with
      stream := some s', workers := { v.workers with outgoing := rx }
      sent := v.sent ++ [c] }.ReadEnds id := by
  have hlive : v.stream ≠ none := by simp [hs]
  have hreset : v.workers.readFailed = true → View.ResetDue id { v with
      stream := some s', workers := { v.workers with outgoing := rx }, sent := v.sent ++ [c] } :=
    fun hf => (h.reset hf).mono (fun _ => by simp) rfl (fun h => h)
      (fun d hd => by simp only [List.mem_append] at hd ⊢; tauto) fun _ h => h
  have hsame : SameReading v.workers { v.workers with outgoing := rx } := ⟨rfl, rfl, rfl⟩
  cases hserve with
  | ack | data =>
    refine h.transfer hsame (fun _ => by simp) (fun _ => hlive) (fun he => ?_) hreset
    exact ((endIn_concat v.sent).mp he).resolve_right (by simp)
  | stop _ hack _ _ hpending hqueue hsender =>
    have hgone := h.reader.gone hlive (.inr (hsend.reader.mp hsender))
    have heof : v.workers.eof = true := by
      refine hgone.resolve_right fun hf => ?_
      rcases hg hf s hs with h | h | h
      · exact h hack
      · exact h hpending
      · exact h hqueue
    exact ⟨⟨h.reader.failed, h.reader.eof, fun _ => h.reader.report hlive,
      fun _ => h.reader.gone hlive⟩, fun _ => by simp, fun _ => heof, hreset⟩

theorem View.ReadEnds.step {client : Bool} (h : v.ReadEnds id) (hlife : v.Life) (hsend : Sending v)
    (hstep : StreamStep readableGuard client id v v') : v'.ReadEnds id := by
  cases hstep.effect hlife with
  | worker w events hw => exact h.worker hlife hw
  | attached s hf _ _ hstream hw _ hsent => exact .attach hf hw (by simp [hstream]) hsent
  | served s s' c rx hs hg hserve => exact h.served hsend hs hg hserve
  | quiet hq =>
    refine h.transfer (by rw [hq.workers]; exact ⟨rfl, rfl, rfl⟩) ?_ (by rw [hq.stream]; exact fun h => h)
      hq.sent.carries.2.2.mp fun hf => ?_
    · rw [hq.workers, hq.stream]
      exact h.attached
    · rcases h.reset hf with ⟨hl, hd⟩ | hdone
      · refine .inl ⟨hq.stream ▸ hl, hd.imp (by rw [hq.workers]; exact fun h => h) fun hx => ?_⟩
        exact (hq.failed hx).resolve_right fun hgone => hl hgone.1
      · exact .inr (View.ResetDone.mono hdone hq.issued fun c hc => hq.received.subset hc)
  | closes hc =>
    refine h.closed hc.workers hc.stream hc.sent fun hf => ?_
    obtain ⟨s, hs, hr, -⟩ | ⟨-, hdone⟩ := hc.reason
    · -- a retired stream has sent its end, so its reader did not fail
      have hsent : s.sentEnd = true := by
        simp only [Stream.retirable, Bool.and_eq_true] at hr
        exact hr.1.1.1.1
      have heof := h.ended ((hsend.live s hs).ended.mp hsent)
      rw [(h.reader.failed hf).1] at heof
      cases heof
    · exact .inr hdone
  | written n rest s he hs =>
    refine h.keep ⟨rfl, rfl, rfl⟩ rfl (by simp [hs]) (fun hx => ?_) (fun h => h) (fun _ h => h)
      fun _ h => h
    simpa [he] using hx
  | opened c s _ hs | acked c s _ _ hs =>
    exact h.keep ⟨rfl, rfl, rfl⟩ rfl (by simp [hs]) (fun h => h) (fun h => h) (fun _ h => h)
      fun _ => List.mem_append_left _
  | data c s w _ hs _ _ hw | ended c s w _ hs _ hw =>
    obtain ⟨-, -, rfl⟩ := Workers.deliver_eq_ok.mp hw
    exact h.keep ⟨rfl, rfl, rfl⟩ rfl (by simp [hs]) (fun h => h) (fun h => h) (fun _ h => h)
      fun _ => List.mem_append_left _

lemma Endpoint.TurnReadable.admits {e : Endpoint} {i : SessionInput} (h : e.TurnReadable i) :
    readableGuard.Admits e i := by
  cases i with
  | clock => exact h
  | event => exact fun _ _ _ _ => trivial
  | _ => trivial

/-- If no stream whose read has failed gets its turn with nothing left to send,
an end is only sent after the end of the file, and a failed read leads to a reset
and never to an end. -/
theorem Endpoint.end_only_at_eof {client : Bool} {profile : Profile} {sequenceNo interval : ℕ}
    {e : Endpoint} (h : GuardedRun step TurnReadable (new client profile sequenceNo interval) e)
    (id : ℕ) :
    ((∃ c ∈ e.sentLog, c.id = id ∧ c.command = .end) → (e.workers id).eof = true) ∧
      ((e.workers id).readFailed = true →
        (∀ c ∈ e.sentLog, c.id = id → c.command ≠ .end) ∧
          ((e.workers id).reader = .report ∨ .failed id ∈ e.events ∨
            ⟨.sessionReset, id, []⟩ ∈ e.controls ++ e.sentLog ∨
            ∃ c ∈ e.receivedLog, c.id = id ∧
              (c.command = .sessionReset ∨ c.command = .sessionRefused))) := by
  obtain ⟨-, -, hinv⟩ : (e.view id).Life ∧ Sending (e.view id) ∧ (e.view id).ReadEnds id := by
    refine view_invariant (I := fun v => v.Life ∧ Sending v ∧ v.ReadEnds id)
      (h.weaken fun _ _ h => h.admits) ⟨View.life_initial _, sending_initial _, ?_⟩ ?_
    · exact ⟨⟨by rintro ⟨⟩, by rintro ⟨⟩, fun hl => absurd rfl hl, fun hl => absurd rfl hl⟩, by rintro ⟨⟩,
        by simp [View.initial, EndIn], by rintro ⟨⟩⟩
    · rintro v v' ⟨hl, hsend, hread⟩ hs
      exact ⟨hl.step hs, hsend.step hl hs, hread.step hl hsend hs⟩
  have hend : (∃ c ∈ e.sentLog, c.id = id ∧ c.command = .end) → (e.workers id).eof = true := by
    rintro ⟨c, hc, hid, hcmd⟩
    exact hinv.ended ⟨c, List.mem_filter.mpr ⟨hc, decide_eq_true hid⟩, hcmd⟩
  refine ⟨hend, fun hf => ⟨fun c hc hid hcmd => ?_, ?_⟩⟩
  · have hnot : (e.workers id).eof = false := (hinv.reader.failed hf).1
    rw [hend ⟨c, hc, hid, hcmd⟩] at hnot
    cases hnot
  · rcases hinv.reset hf with ⟨-, hr | hx⟩ | hcell | ⟨c, hc, hcmd⟩
    · exact .inl hr
    · exact .inr (.inl (List.mem_filter.mp hx).1)
    · refine .inr (.inr (.inl ?_))
      have hcell : _ ∈ cellsOf id e.controls ++ cellsOf id e.sentLog := hcell
      rw [← cellsOf_append] at hcell
      exact (List.mem_filter.mp hcell).1
    · obtain ⟨hc, hid⟩ := List.mem_filter.mp hc
      exact .inr (.inr (.inr ⟨c, hc, of_decide_eq_true hid, hcmd⟩))

/-- The exit opens a stream, and the first read from its destination fails. -/
def failedDestination : List SessionInput :=
  promptTicks 26 ++ [
    .frame (millis 1050) (.ok ⟨.sessionOpen, 1, [1, 97, 0, 80]⟩), .connect 1 true,
    .event (millis 1060), .clock (.prompt 1080), .worker 1 .readError, .worker 1 .readerReport,
    .worker 1 .readerLeave]

/-- The clock fires before the failure is handled. -/
def endAfterError : Endpoint :=
  (runInputs Endpoint.step (.new false .balanced 1 (millis 40))
    (failedDestination ++ [.clock (.prompt 1120)])).getD (.new false .balanced 1 (millis 40))

theorem end_after_error :
    Run Endpoint.step (.new false .balanced 1 (millis 40)) endAfterError ∧
    endAfterError.sentLog = List.replicate 26 ⟨.dummy, 0, []⟩ ++
      [⟨.sessionOpened, 1, []⟩, ⟨.end, 1, []⟩] ∧
    (endAfterError.workers 1).eof = false ∧ (endAfterError.workers 1).readFailed = true :=
  ⟨Run.getD_inputs _, by decide +kernel⟩

/-- The failure is handled before the clock fires. -/
def resetAfterError : Endpoint :=
  (runInputs Endpoint.step (.new false .balanced 1 (millis 40))
    (failedDestination ++ [.event (millis 1110), .clock (.prompt 1120)])).getD
    (.new false .balanced 1 (millis 40))

theorem reset_after_error : (resetAfterError.workers 1).readFailed = true ∧
    ⟨.sessionReset, 1, []⟩ ∈ resetAfterError.sentLog ∧
    ∀ c ∈ resetAfterError.sentLog, c.id = 1 → c.command ≠ .end :=
  ⟨by decide +kernel, by decide +kernel,
    ((Endpoint.end_only_at_eof (e := resetAfterError)
      (GuardedRun.getD_inputs _ (by decide +kernel) _) 1).2 (by decide +kernel)).1⟩

end Ended

end AnonGuard
