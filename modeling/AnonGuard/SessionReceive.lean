import AnonGuard.CellLog
import AnonGuard.SessionLife

/-!
# The receiving half of a stream

Data cells of the peer are queued for the writer task, which writes them in
order and reports each completed chunk; the actor acknowledges the number of
chunks written. The invariant links the actor's counters, the queue, the
writer's progress and the reports in flight. It holds whatever the peer sends.
-/
namespace AnonGuard

def EndIn (log : List SessionCell) : Prop := ∃ c ∈ log, c.command = .end

/-- The counts of the write reports in an event queue. -/
def writtenOf (events : List Event) : List ℕ :=
  events.filterMap fun
    | .written _ n => some n
    | _ => none

section Logs
variable (l : List SessionCell) {c : SessionCell} {a b : List SessionCell}

@[simp] theorem writtenOf_append (a b : List Event) :
    writtenOf (a ++ b) = writtenOf a ++ writtenOf b := List.filterMap_append

theorem endIn_concat : EndIn (l ++ [c]) ↔ EndIn l ∨ c.command = .end := by
  simp [EndIn, or_and_right, exists_or]

theorem dataOf_eq_nil (h : ∀ c ∈ l, streamCommand c.command = false) : dataOf l = [] := by
  refine List.filterMap_eq_nil_iff.mpr fun c hc => if_neg fun hd => ?_
  have := h c hc
  rw [hd] at this
  cases this

theorem acksOf_eq_nil (h : ∀ c ∈ l, streamCommand c.command = false) : acksOf l = [] := by
  refine List.filterMap_eq_nil_iff.mpr fun c hc => if_neg fun hd => ?_
  have := h c hc
  rw [hd] at this
  cases this

theorem not_endIn (h : ∀ c ∈ l, streamCommand c.command = false) : ¬ EndIn l := by
  rintro ⟨c, hc, hd⟩
  have := h c hc
  rw [hd] at this
  cases this

theorem writtenOf_eq_nil {events : List Event} (h : ∀ x ∈ events, ∃ id ok, x = .connected id ok) :
    writtenOf events = [] := by
  refine List.filterMap_eq_nil_iff.mpr fun x hx => ?_
  obtain ⟨id, ok, rfl⟩ := h x hx
  rfl

lemma dataOf_mono (h : a <+: b) : dataOf a <+: dataOf b := by
  obtain ⟨c, rfl⟩ := h
  rw [dataOf_append]
  exact List.prefix_append _ _

lemma acksOf_mono (h : a <+: b) : acksOf a <+: acksOf b := by
  obtain ⟨c, rfl⟩ := h
  rw [acksOf_append]
  exact List.prefix_append _ _

/-- A control cell is none of the stream's own commands. -/
lemma command_ne_of_control {c : SessionCell} (h : streamCommand c.command = false) :
    c.command ≠ .data ∧ c.command ≠ .dataAck ∧ c.command ≠ .end := by
  refine ⟨?_, ?_, ?_⟩ <;> intro hc <;> rw [hc] at h <;> cases h

/-- The log grows by at most one cell, which is none of the stream's own. -/
def Plain (l l' : List SessionCell) : Prop :=
  l' = l ∨ ∃ c, streamCommand c.command = false ∧ l' = l ++ [c]

lemma Plain.carries {l l' : List SessionCell} (h : Plain l l') :
    dataOf l' = dataOf l ∧ acksOf l' = acksOf l ∧ (EndIn l' ↔ EndIn l) := by
  obtain rfl | ⟨c, hc, rfl⟩ := h
  · exact ⟨rfl, rfl, Iff.rfl⟩
  · obtain ⟨hdata, hack, hend⟩ := command_ne_of_control hc
    exact ⟨dataOf_concat_of_ne _ hdata, acksOf_concat_of_ne _ hack, by simp [endIn_concat, hend]⟩

end Logs

/-- What a step does that leaves the stream and its tasks alone. Without a stream
it may take any cell, and drop a report. -/
structure View.Quiet (G : StreamGuard) (id : ℕ) (v v' : View) : Prop where
  stream : v'.stream = v.stream
  workers : v'.workers = v.workers
  retired : v'.retired = v.retired
  closed : v'.closed = v.closed
  sent : Plain v.sent v'.sent
  received : v.received <+: v'.received
  live : v.stream ≠ none → Plain v.received v'.received ∧ writtenOf v'.events = writtenOf v.events
  issued : ∀ c ∈ v.controls ++ v.sent, c ∈ v'.controls ++ v'.sent
  failed : .failed id ∈ v.events → .failed id ∈ v'.events ∨ (v.stream = none ∧ G.lateFailure v)

/-- The stream was reset by this side, or closed by the peer. -/
def View.ResetDone (id : ℕ) (v : View) : Prop :=
  ⟨.sessionReset, id, []⟩ ∈ v.controls ++ v.sent ∨
    ∃ c ∈ v.received, c.command = .sessionReset ∨ c.command = .sessionRefused

/-- What a step does that closes the stream. -/
structure View.Closes (id : ℕ) (v v' : View) : Prop where
  stream : v'.stream = none
  workers : v'.workers = v.close.workers
  closed : v'.closed
  sent : v'.sent = v.sent
  received : v.received <+: v'.received
  reason : (∃ s, v.stream = some s ∧ s.retirable = true ∧ v' = { v.close with retired := True }) ∨
    ((v'.retired → v.retired) ∧ v'.ResetDone id)

/-- What a step does to a stream, where steps that do the same to it are taken together. -/
inductive StreamEffect (G : StreamGuard) (client : Bool) (id : ℕ) (v : View) : View → Prop
  | worker (w : Workers) (events : List Event) (h : v.workers.Steps id w events) :
      StreamEffect G client id v { v with workers := w, events := v.events ++ events }
  | quiet {v' : View} (h : v.Quiet G id v') : StreamEffect G client id v v'
  | closes {v' : View} (h : v.Closes id v') : StreamEffect G client id v v'
  | attached {v' : View} (s : Stream) (hf : v.Fresh) (hnew : client = true ∧ s = .requested ∨
        client = false ∧ s = .attached ∧ ⟨.sessionOpened, id, []⟩ ∈ v'.controls)
      (hclosed : ¬ v.closed) (hstream : v'.stream = some s) (hw : v'.workers = .attached)
      (hretired : v'.retired = v.retired) (hsent : v'.sent = v.sent)
      (hreceived : v'.received = v.received) (hevents : ∀ x ∈ v'.events, x ∈ v.events) :
      StreamEffect G client id v v'
  | served (s s' : Stream) (c : SessionCell) (rx : Channel Bytes) (hs : v.stream = some s)
      (hg : G.serve v) (h : s.Serves id v.workers.outgoing c s' rx) :
      StreamEffect G client id v { v with
        stream := some s', workers := { v.workers with outgoing := rx }, sent := v.sent ++ [c] }
  | written (n : ℕ) (rest : List Event) (s : Stream) (he : v.events = .written id n :: rest)
      (hs : v.stream = some s) :
      StreamEffect G client id v { v with
        events := rest, stream := some { s with written := n, ack := some n } }
  | opened (c : SessionCell) (s : Stream) (hcmd : c.command = .sessionOpened)
      (hs : v.stream = some s) :
      StreamEffect G client id v { v.receive c with
        stream := some { s with ready := true, reply := false, application := false } }
  | data (c : SessionCell) (s : Stream) (w : Workers) (hcmd : c.command = .data)
      (hs : v.stream = some s) (hcredit : sub32 s.received s.written < WINDOW_CELLS)
      (hcount : s.received + 1 < U32_SIZE) (hw : v.workers.deliver (some c.data) = .ok w) :
      StreamEffect G client id v { v.receive c with
        stream := some { s with received := s.received + 1 }, workers := w }
  | acked (c : SessionCell) (s : Stream) (window : SendWindow) (hcmd : c.command = .dataAck)
      (hs : v.stream = some s) (hw : s.window.acknowledge c.data = .ok window) :
      StreamEffect G client id v { v.receive c with stream := some { s with window := window } }
  | ended (c : SessionCell) (s : Stream) (w : Workers) (hcmd : c.command = .end)
      (hs : v.stream = some s) (hend : s.receivedEnd = false)
      (hw : v.workers.deliver none = .ok w) :
      StreamEffect G client id v { v.receive c with
        stream := some { s with receivedEnd := true }, workers := w }

section Effects
variable {G : StreamGuard} {client : Bool} {id : ℕ} {v v' : View}

lemma View.ResetDone.mono (h : v.ResetDone id)
    (hcells : ∀ c ∈ v.controls ++ v.sent, c ∈ v'.controls ++ v'.sent)
    (hreceived : ∀ c ∈ v.received, c ∈ v'.received) : v'.ResetDone id := by
  refine h.imp (hcells _) ?_
  rintro ⟨c, hc, hcmd⟩
  exact ⟨c, hreceived c hc, hcmd⟩

lemma View.workers_close_congr {w : View} (hstream : w.stream = v.stream)
    (hworkers : w.workers = v.workers) : w.close.workers = v.close.workers := by
  unfold close remove
  rw [hstream]
  cases v.stream <;> simp [hworkers]

/-- A quiet step without a stream. -/
lemma View.Quiet.of_none (hnone : v.stream = none) (hstream : v'.stream = v.stream)
    (hworkers : v'.workers = v.workers) (hretired : v'.retired = v.retired)
    (hclosed : v'.closed = v.closed) (hsent : v'.sent = v.sent)
    (hreceived : v.received <+: v'.received) (hcontrols : v.controls <+: v'.controls)
    (hfailed : .failed id ∈ v.events → .failed id ∈ v'.events ∨ G.lateFailure v) :
    v.Quiet G id v' := by
  refine ⟨hstream, hworkers, hretired, hclosed, .inl hsent, hreceived, absurd hnone, ?_, ?_⟩
  · rw [hsent]
    exact fun c => List.mem_append.mpr ∘ Or.imp_left (hcontrols.subset ·) ∘ List.mem_append.mp
  · exact fun hx => (hfailed hx).imp_right fun hg => ⟨hnone, hg⟩

theorem StreamStep.effect (h : StreamStep G client id v v') (hlife : v.Life) :
    StreamEffect G client id v v' := by
  have hpop : ∀ {x : Event} {rest : List Event}, v.events = x :: rest → x ≠ .failed id →
      .failed id ∈ v.events → .failed id ∈ rest := by
    intro x rest he hx hmem
    rw [he] at hmem
    exact (List.mem_cons.mp hmem).resolve_left (Ne.symm hx)
  cases h with
  | worker w events hw => exact .worker w events hw
  | served s s' c rx hs hg hserve => exact .served s s' c rx hs hg hserve
  | written n rest s he hs => exact .written n rest s he hs
  | openedReady c s hcmd _ hs => exact .opened c s hcmd hs
  | data c s w hcmd hs _ _ _ hcredit hcount hw => exact .data c s w hcmd hs hcredit hcount hw
  | acked c s window hcmd hs _ hw => exact .acked c s window hcmd hs hw
  | ended c s w hcmd hs _ hend hw => exact .ended c s w hcmd hs hend hw
  | requested target hc hv =>
    exact .attached _ (hlife.fresh (.inl hv)) (.inl ⟨hc, rfl⟩) (fun hcl => hv (hlife.closed hcl)) rfl
      rfl rfl rfl rfl fun _ h => h
  | connected rest hc he hcon =>
    exact .attached _ (hlife.fresh (.inr hcon)) (.inr ⟨hc, rfl, by simp [View.control]⟩)
      (hlife.connecting hcon).2 rfl rfl rfl rfl rfl fun x hx => he ▸ List.mem_cons_of_mem _ hx
  | retired s hs hr =>
    exact .closes ⟨by simp, rfl, trivial, by simp, by simp, .inl ⟨s, hs, hr, rfl⟩⟩
  | cancelled | failed | openedLate =>
    refine .closes ⟨by simp [View.control], View.workers_close_congr rfl rfl, by simp [View.control],
      by simp [View.control, View.receive], by simp [View.control, View.receive], .inr ⟨?_, .inl ?_⟩⟩
    · simp [View.control, View.receive]
    · simp [View.control]
  | refused c s hcmd | reset c hcmd =>
    refine .closes ⟨by simp, View.workers_close_congr rfl rfl, by simp, by simp [View.receive],
      by simp [View.receive], .inr ⟨by simp [View.receive], .inr ⟨c, by simp [View.receive], ?_⟩⟩⟩
    simp [hcmd]
  | writtenLate n rest he hs =>
    exact .quiet (.of_none hs rfl rfl rfl rfl rfl List.prefix_rfl List.prefix_rfl
      fun hx => .inl (hpop he (by simp) hx))
  | connectFailed rest hc he hcon =>
    exact .quiet (.of_none (hlife.fresh (.inr hcon)).stream rfl rfl rfl rfl rfl List.prefix_rfl
      (List.prefix_append _ _) fun hx => .inl (hpop he (by simp) hx))
  | failedLate rest he hs hg =>
    exact .quiet (.of_none hs rfl rfl rfl rfl rfl List.prefix_rfl List.prefix_rfl fun _ => .inr hg)
  | ignored c hv =>
    have hnone : v.stream = none := by_contra fun hl => (hlife.live hl).2.1 hv
    exact .quiet (.of_none hnone rfl rfl rfl rfl rfl (List.prefix_append _ _) List.prefix_rfl .inl)
  | skipped _ hv =>
    exact .quiet (.of_none (hlife.fresh (.inl hv)).stream rfl rfl rfl rfl rfl List.prefix_rfl
      List.prefix_rfl .inl)
  | openAccepted c _ _ hv =>
    exact .quiet (.of_none (hlife.fresh (.inl hv)).stream rfl rfl rfl rfl rfl (List.prefix_append _ _)
      List.prefix_rfl .inl)
  | openRefused c _ _ hv =>
    exact .quiet (.of_none (hlife.fresh (.inl hv)).stream rfl rfl rfl rfl rfl (List.prefix_append _ _)
      (List.prefix_append _ _) .inl)
  | dialed =>
    refine .quiet ⟨rfl, rfl, rfl, rfl, .inl rfl, List.prefix_rfl, fun _ => ⟨.inl rfl, ?_⟩,
      fun _ h => h, fun hx => .inl (List.mem_append_left _ hx)⟩
    simp [writtenOf]
  | connectLate ok rest he =>
    refine .quiet ⟨rfl, rfl, rfl, rfl, .inl rfl, List.prefix_rfl, fun _ => ⟨.inl rfl, ?_⟩,
      fun _ h => h, fun hx => .inl (hpop he (by simp) hx)⟩
    rw [he]
    rfl
  | control c rest hc =>
    refine .quiet ⟨rfl, rfl, rfl, rfl, .inr ⟨c, hlife.controls c (by simp [hc]), rfl⟩,
      List.prefix_rfl, fun _ => ⟨.inl rfl, rfl⟩, fun d hd => ?_, .inl⟩
    simp only [hc, List.mem_append, List.mem_cons, List.not_mem_nil, or_false] at hd ⊢
    tauto
  | sessionQueued =>
    refine .quiet ⟨rfl, rfl, rfl, rfl, .inl rfl, List.prefix_rfl, fun _ => ⟨.inl rfl, rfl⟩,
      fun d hd => ?_, .inl⟩
    simp only [View.control, List.mem_append] at hd ⊢
    tauto
  | sessionSent c hid hc =>
    refine .quiet ⟨rfl, rfl, rfl, rfl, .inr ⟨c, streamCommand_of_session hc, rfl⟩, List.prefix_rfl,
      fun _ => ⟨.inl rfl, rfl⟩, fun d hd => ?_, .inl⟩
    simp only [List.mem_append] at hd ⊢
    tauto
  | sessionReceived c hid hc =>
    exact .quiet ⟨rfl, rfl, rfl, rfl, .inl rfl, List.prefix_append _ _,
      fun _ => ⟨.inr ⟨c, streamCommand_of_session hc, rfl⟩, rfl⟩, fun _ h => h, .inl⟩

end Effects

/-- The chunks that wait in a writer's queue. -/
def chunks (queue : List (Option Bytes)) : List Bytes := queue.filterMap id

@[simp] theorem chunks_nil : chunks [] = [] := rfl
@[simp] theorem chunks_some (d : Bytes) (q : List (Option Bytes)) :
    chunks (some d :: q) = d :: chunks q := rfl
@[simp] theorem chunks_none (q : List (Option Bytes)) : chunks (none :: q) = chunks q := rfl
@[simp] theorem chunks_append (a b : List (Option Bytes)) :
    chunks (a ++ b) = chunks a ++ chunks b := List.filterMap_append

/-- Where the writer task stands in the list of chunks handed to it: `count` of
them are written, and of the next one a first part. -/
structure WriterInv (queue : List (Option Bytes)) (writer : WriterPoint) (count : ℕ)
    (accepted : List Bytes) (wrote : Bytes) : Prop where
  done : (accepted.take count).flatten <+: wrote
  wrote_le : wrote <+: accepted.flatten
  count_le : (chunks queue).length + count ≤ accepted.length
  idle : writer = .recv ∨ writer = .notify →
    wrote = (accepted.take count).flatten ∧ chunks queue = accepted.drop count
  busy : ∀ rest, writer = .write rest → ∃ part,
    wrote = (accepted.take count).flatten ++ part ∧
      accepted.drop count = (part ++ rest) :: chunks queue

namespace WriterInv
variable {queue : List (Option Bytes)} {writer : WriterPoint} {count : ℕ} {accepted : List Bytes}
  {wrote : Bytes}

lemma flatten_split (accepted : List Bytes) (count : ℕ) : accepted.flatten =
    (accepted.take count).flatten ++ (accepted.drop count).flatten := by
  rw [← List.flatten_append, List.take_append_drop]

/-- A writer that has left its loop keeps what it has done. -/
lemma stop (h : WriterInv queue writer count accepted wrote) {writer' : WriterPoint}
    (hrecv : writer' ≠ .recv) (hnotify : writer' ≠ .notify) (hwrite : ∀ rest, writer' ≠ .write rest) :
    WriterInv queue writer' count accepted wrote :=
  ⟨h.done, h.wrote_le, h.count_le, fun hw => hw.elim (absurd · hrecv) (absurd · hnotify),
    fun rest hw => absurd hw (hwrite rest)⟩

/-- Writing a part of the chunk in hand. -/
lemma put {rest : Bytes} (h : WriterInv queue (.write rest) count accepted wrote) (n : ℕ) :
    WriterInv queue (.write (rest.drop n)) count accepted (wrote ++ rest.take n) := by
  obtain ⟨part, hwrote, hdrop⟩ := h.busy rest rfl
  have hparts : part ++ rest.take n ++ rest.drop n = part ++ rest := by simp
  refine ⟨h.done.trans (List.prefix_append _ _), ?_, h.count_le, by simp, ?_⟩
  · rw [flatten_split accepted count, hdrop, hwrote, List.flatten_cons, ← hparts]
    simp only [List.append_assoc]
    exact (List.prefix_append_right_inj _).mpr ((List.prefix_append_right_inj _).mpr
      (List.prefix_append _ _))
  · rintro _ ⟨⟩
    exact ⟨part ++ rest.take n, by rw [hwrote, List.append_assoc], by rw [hparts, hdrop]⟩

/-- Writing the last part completes the chunk. -/
lemma putLast {rest : Bytes} (h : WriterInv queue (.write rest) count accepted wrote) :
    WriterInv queue .notify (count + 1) accepted (wrote ++ rest) := by
  obtain ⟨part, hwrote, hdrop⟩ := h.busy rest rfl
  have hlt : count < accepted.length := by
    by_contra hge
    rw [List.drop_eq_nil_of_le (by omega)] at hdrop
    cases hdrop
  have hget : accepted.drop count = accepted.get ⟨count, hlt⟩ :: accepted.drop (count + 1) :=
    List.drop_eq_getElem_cons hlt
  rw [hget] at hdrop
  obtain ⟨hchunk, htail⟩ := List.cons.inj hdrop
  have htake : (accepted.take (count + 1)).flatten = wrote ++ rest := by
    rw [List.take_succ_eq_append_getElem hlt, List.flatten_append, hwrote]
    simpa using hchunk
  refine ⟨by rw [htake], ?_, ?_, fun _ => ⟨htake.symm, htail.symm⟩, by simp⟩
  · rw [← htake, flatten_split accepted (count + 1)]
    exact List.prefix_append _ _
  · rw [← htail, List.length_drop]
    omega

/-- Another item in the queue. -/
lemma deliver (h : WriterInv queue writer count accepted wrote) (item : Option Bytes) :
    WriterInv (queue ++ [item]) writer count (accepted ++ item.toList) wrote := by
  have hle : count ≤ accepted.length := by have := h.count_le; omega
  have htake : (accepted ++ item.toList).take count = accepted.take count :=
    List.take_append_of_le_length hle
  have hdrop : (accepted ++ item.toList).drop count = accepted.drop count ++ item.toList :=
    List.drop_append_of_le_length hle
  have hchunks : chunks (queue ++ [item]) = chunks queue ++ item.toList := by
    cases item <;> simp [chunks]
  refine ⟨by rw [htake]; exact h.done, ?_, ?_, fun hw => ?_, fun rest hw => ?_⟩
  · rw [List.flatten_append]
    exact h.wrote_le.trans (List.prefix_append _ _)
  · rw [hchunks, List.length_append, List.length_append]
    have := h.count_le
    omega
  · obtain ⟨h1, h2⟩ := h.idle hw
    exact ⟨by rw [htake]; exact h1, by rw [hchunks, hdrop, h2]⟩
  · obtain ⟨part, h1, h2⟩ := h.busy rest hw
    exact ⟨part, by rw [htake]; exact h1, by rw [hdrop, h2, hchunks, List.cons_append]⟩

end WriterInv

abbrev Workers.WritesInOrder (w : Workers) : Prop :=
  WriterInv w.incoming.queue w.writer w.count w.accepted w.wrote

theorem Workers.WritesInOrder.steps {id : ℕ} {w w' : Workers} {events : List Event}
    (h : w.WritesInOrder) (hs : w.Steps id w' events) : w'.WritesInOrder := by
  unfold Workers.WritesInOrder at h ⊢
  cases hs with
  | take data rest hw hq =>
    obtain ⟨hwrote, hchunks⟩ := h.idle (.inl hw)
    rw [hq, chunks_some] at hchunks
    have hcount := h.count_le
    rw [hq, chunks_some, List.length_cons] at hcount
    have hle : (chunks rest).length + w.count ≤ w.accepted.length := by omega
    refine ⟨h.done, h.wrote_le, hle, by simp, ?_⟩
    rintro _ ⟨⟩
    exact ⟨[], by simpa using hwrote, by simpa using hchunks.symm⟩
  | takeEnd rest hw hq =>
    have hcount := h.count_le
    rw [hq, chunks_none] at hcount
    exact ⟨h.done, h.wrote_le, hcount, by simp, by simp⟩
  | inputClosed | shutdown | writerReport | writerLeave => exact h.stop (by simp) (by simp) (by simp)
  | put n rest hw =>
    rw [hw] at h
    exact h.put n
  | putLast rest hw =>
    rw [hw] at h
    exact h.putLast
  | putOverflow rest hw =>
    rw [hw] at h
    have hput := h.put rest.length
    rw [List.take_length] at hput
    exact hput.stop (by simp [failWriter]) (by simp [failWriter]) (by simp [failWriter])
  | writeError =>
    exact h.stop (by simp [failWriter]) (by simp [failWriter]) (by simp [failWriter])
  | notify hw => exact ⟨h.done, h.wrote_le, h.count_le, fun _ => h.idle (.inr hw), by simp⟩
  | read | eof | readError | send | outputClosed | readerReport | readerLeave | cancelReply =>
    exact h

/-- The actor's counters of a live stream, against its workers, the reports in
flight and the two logs. -/
structure LiveReceive (s : Stream) (w : Workers) (events : List Event)
    (sent received : List SessionCell) : Prop where
  accepted : w.accepted = dataOf received
  counted : s.received = w.accepted.length
  reports : ∃ k, writtenOf events = List.range' (s.written + 1) k ∧
    s.written + k + (if w.writer = .notify then 1 else 0) = w.count
  credit : s.received ≤ s.written + WINDOW_CELLS
  bound : s.received < U32_SIZE
  queued : w.incoming.queue.length ≤
    (chunks w.incoming.queue).length + (if s.receivedEnd then 1 else 0)
  capacity : w.incoming.capacity = QUEUE + 1
  ended : s.receivedEnd = true ↔ EndIn received
  acks_le : ∀ a ∈ acksOf sent, a ≤ s.written
  ackPending : ∀ a, s.ack = some a → a = s.written ∧ 0 < a ∧ ∀ b ∈ acksOf sent, b < a
  ackSent : s.ack = none → s.written = 0 ∨ s.written ∈ acksOf sent

structure Receiving (v : View) : Prop where
  writer : v.workers.WritesInOrder
  accepted : v.workers.accepted <+: dataOf v.received
  sorted : (acksOf v.sent).Pairwise (· < ·)
  acks : ∀ a ∈ acksOf v.sent, 0 < a ∧ a ≤ v.workers.accepted.length
  live : ∀ s, v.stream = some s → LiveReceive s v.workers v.events v.sent v.received

namespace LiveReceive
variable {s : Stream} {w : Workers} {events : List Event} {sent received : List SessionCell}

theorem written_le (h : LiveReceive s w events sent received) (hw : w.WritesInOrder) :
    s.written ≤ w.count ∧ w.count ≤ s.received ∧ s.written ≤ s.received := by
  obtain ⟨k, -, hk⟩ := h.reports
  have hc := hw.count_le
  rw [← h.counted] at hc
  omega

/-- There is room for a cell that respects the credit, and for the end. -/
theorem queue_lt (h : LiveReceive s w events sent received) (hw : w.WritesInOrder)
    (hend : s.receivedEnd = false) : w.incoming.queue.length < w.incoming.capacity := by
  have hq := h.queued
  have hc := hw.count_le
  have hcredit := h.credit
  obtain ⟨hle, -, -⟩ := h.written_le hw
  rw [← h.counted] at hc
  simp only [hend, Bool.false_eq_true, if_false] at hq
  rw [h.capacity]
  simp only [QUEUE, WINDOW_CELLS] at *
  omega

end LiveReceive

/-- The parts of the workers that the receiving half reads. -/
def SameWriter (w w' : Workers) : Prop :=
  w'.incoming.queue = w.incoming.queue ∧ w'.incoming.capacity = w.incoming.capacity ∧
    w'.writer = w.writer ∧ w'.count = w.count ∧ w'.accepted = w.accepted ∧ w'.wrote = w.wrote

theorem SameWriter.close (v : View) : SameWriter v.workers v.close.workers := by
  rcases v.workers_close with h | h <;> rw [h] <;> exact ⟨rfl, rfl, rfl, rfl, rfl, rfl⟩

theorem SameWriter.writesInOrder {w w' : Workers} (h : SameWriter w w') (hw : w.WritesInOrder) :
    w'.WritesInOrder := by
  obtain ⟨h1, -, h3, h4, h5, h6⟩ := h
  unfold Workers.WritesInOrder
  rw [h1, h3, h4, h5, h6]
  exact hw

/-- A step that leaves the writer, the accepted data and the acknowledgements
alone. A removed stream needs nothing more. -/
theorem Receiving.transfer {v v' : View} (h : Receiving v)
    (hw : SameWriter v.workers v'.workers) (hr : dataOf v.received <+: dataOf v'.received)
    (hs : acksOf v'.sent = acksOf v.sent) (hlive : ∀ s', v'.stream = some s' → ∃ s, v.stream = some s ∧
      s'.received = s.received ∧ s'.written = s.written ∧ s'.ack = s.ack ∧
      s'.receivedEnd = s.receivedEnd ∧ writtenOf v'.events = writtenOf v.events ∧
      dataOf v'.received = dataOf v.received ∧ (EndIn v'.received ↔ EndIn v.received)) :
    Receiving v' := by
  obtain ⟨h1, h2, h3, h4, h5, h6⟩ := hw
  refine ⟨SameWriter.writesInOrder ⟨h1, h2, h3, h4, h5, h6⟩ h.writer, ?_, ?_, ?_, ?_⟩
  · rw [h5]
    exact h.accepted.trans hr
  · rw [hs]
    exact h.sorted
  · rw [hs, h5]
    exact h.acks
  · intro s' hs'
    obtain ⟨s, hstream, e1, e2, e3, e4, e5, e6, e7⟩ := hlive s' hs'
    have hl := h.live s hstream
    refine ⟨?_, ?_, ?_, ?_, ?_, ?_, ?_, ?_, ?_, ?_, ?_⟩
    · rw [h5, e6]
      exact hl.accepted
    · rw [e1, h5]
      exact hl.counted
    · rw [e5, e2, h3, h4]
      exact hl.reports
    · rw [e1, e2]
      exact hl.credit
    · rw [e1]
      exact hl.bound
    · rw [h1, e4]
      exact hl.queued
    · rw [h2]
      exact hl.capacity
    · rw [e4, e7]
      exact hl.ended
    · rw [hs, e2]
      exact hl.acks_le
    · rw [e3, e2, hs]
      exact hl.ackPending
    · rw [e3, e2, hs]
      exact hl.ackSent

theorem receiving_initial (opened : Prop) : Receiving (.initial opened) where
  writer := ⟨List.prefix_rfl, List.prefix_rfl, le_refl _, by simp [View.initial, Workers.absent],
    by simp [View.initial, Workers.absent]⟩
  accepted := List.nil_prefix
  sorted := .nil
  acks := by simp [View.initial]
  live := by simp [View.initial]

/-- A stream that was just attached to a fresh id. -/
theorem Receiving.attach {v v' : View} (hf : v.Fresh) (hw : v'.workers = .attached)
    (hsent : v'.sent = v.sent) (hreceived : v'.received = v.received)
    (hevents : writtenOf v'.events = []) (hstream : ∀ s, v'.stream = some s →
      s.received = 0 ∧ s.written = 0 ∧ s.ack = none ∧ s.receivedEnd = false) : Receiving v' := by
  have hdata := dataOf_eq_nil _ hf.received
  have hacks := acksOf_eq_nil _ hf.sent
  have hpos : 0 < U32_SIZE := by unfold U32_SIZE; decide
  refine ⟨?_, ?_, ?_, ?_, fun s hs => ?_⟩
  · rw [hw]
    exact ⟨List.prefix_rfl, List.prefix_rfl, le_refl _, fun _ => ⟨rfl, rfl⟩,
      by simp [Workers.attached]⟩
  · rw [hw]
    exact List.nil_prefix
  · rw [hsent, hacks]
    exact .nil
  · rw [hsent, hacks]
    simp
  · obtain ⟨e1, e2, e3, e4⟩ := hstream s hs
    rw [hw, hsent, hreceived]
    refine ⟨hdata.symm, e1, ⟨0, by rw [hevents, e2]; rfl, by rw [e2]; rfl⟩, by omega,
      by rw [e1]; exact hpos, Nat.zero_le _, rfl, ?_, by simp [hacks], by simp [e3], fun _ => .inl e2⟩
    simp [e4, not_endIn _ hf.received]

variable {evs : List Event}

lemma Workers.Steps.accepted {id : ℕ} {w w' : Workers} (h : w.Steps id w' evs) :
    w'.accepted = w.accepted ∧ w'.incoming.capacity = w.incoming.capacity := by
  cases h <;> exact ⟨rfl, rfl⟩

/-- The reports follow the writer: each completed chunk is reported once, in
order. -/
lemma reports_step {id : ℕ} {w w' : Workers} {events evs : List Event} {written : ℕ}
    (h : ∃ k, writtenOf events = List.range' (written + 1) k ∧
      written + k + (if w.writer = .notify then 1 else 0) = w.count) (hs : w.Steps id w' evs) :
    ∃ k, writtenOf (events ++ evs) = List.range' (written + 1) k ∧
      written + k + (if w'.writer = .notify then 1 else 0) = w'.count := by
  obtain ⟨k, hk, hcount⟩ := h
  cases hs with
  | putLast rest hw =>
    refine ⟨k, by simpa using hk, ?_⟩
    simp only [hw, reduceCtorEq, if_false] at hcount
    simp only [if_true]
    omega
  | notify hw =>
    simp only [hw, if_true] at hcount
    refine ⟨k + 1, ?_, by simp only [reduceCtorEq, if_false]; omega⟩
    rw [writtenOf_append, hk, List.range'_concat, ← hcount]
    simp [writtenOf]
    omega
  | take _ _ hw | takeEnd _ hw | inputClosed hw | put _ _ hw | putOverflow _ hw | shutdown hw
  | writerReport hw | writerLeave hw =>
    refine ⟨k, by simpa [writtenOf] using hk, ?_⟩
    simpa [hw, Workers.failWriter] using hcount
  | writeError hw =>
    refine ⟨k, by simpa using hk, ?_⟩
    obtain hw | ⟨rest, hw⟩ := hw <;> simpa [hw, Workers.failWriter] using hcount
  | read | eof | readError | send | outputClosed | readerReport | readerLeave | cancelReply =>
    exact ⟨k, by simpa [writtenOf] using hk, hcount⟩

lemma queued_step {id : ℕ} {w w' : Workers} {n : ℕ}
    (h : w.incoming.queue.length ≤ (chunks w.incoming.queue).length + n) (hs : w.Steps id w' evs) :
    w'.incoming.queue.length ≤ (chunks w'.incoming.queue).length + n := by
  cases hs with
  | take data rest hw hq =>
    rw [hq, chunks_some, List.length_cons, List.length_cons] at h
    show rest.length ≤ (chunks rest).length + n
    omega
  | takeEnd rest hw hq =>
    rw [hq, chunks_none, List.length_cons] at h
    show rest.length ≤ (chunks rest).length + n
    omega
  | _ => exact h

lemma Receiving.worker {v : View} (h : Receiving v) {id : ℕ} {w : Workers}
    (hs : v.workers.Steps id w evs) :
    Receiving { v with workers := w, events := v.events ++ evs } := by
  obtain ⟨hacc, hcap⟩ := hs.accepted
  refine ⟨h.writer.steps hs, by rw [hacc]; exact h.accepted, h.sorted,
    by rw [hacc]; exact h.acks, fun s hstream => ?_⟩
  have hl := h.live s hstream
  exact ⟨hacc.trans hl.accepted, by rw [hacc]; exact hl.counted, reports_step hl.reports hs,
    hl.credit, hl.bound, queued_step hl.queued hs, hcap.trans hl.capacity, hl.ended, hl.acks_le,
    hl.ackPending, hl.ackSent⟩

/-- The actor takes a write report and owes an acknowledgement. -/
lemma Receiving.written {v : View} (h : Receiving v) {id n : ℕ} {rest : List Event} {s : Stream}
    (he : v.events = .written id n :: rest) (hs : v.stream = some s) :
    Receiving { v with events := rest, stream := some { s with written := n, ack := some n } } := by
  refine ⟨h.writer, h.accepted, h.sorted, h.acks, ?_⟩
  rintro _ ⟨⟩
  have hl := h.live s hs
  obtain ⟨k, hk, hcount⟩ := hl.reports
  cases k with
  | zero => simp [he, writtenOf] at hk
  | succ k =>
    rw [he, List.range'_succ] at hk
    obtain ⟨hn, hrest⟩ : n = s.written + 1 ∧ writtenOf rest = List.range' (s.written + 1 + 1) k := by
      simpa [writtenOf] using hk
    have hcredit := hl.credit
    refine ⟨hl.accepted, hl.counted, ⟨k, by rw [hrest, hn], by simp only; omega⟩, by simp only; omega,
      hl.bound, hl.queued, hl.capacity, hl.ended, ?_, ?_, by simp⟩
    · intro a ha
      have := hl.acks_le a ha
      simp only
      omega
    · rintro _ ⟨⟩
      refine ⟨rfl, by omega, fun b hb => ?_⟩
      have := hl.acks_le b hb
      omega

lemma ackValue_toBe (id : ℕ) {a : ℕ} (h : a < U32_SIZE) :
    SessionCell.ackValue ⟨.dataAck, id, toBe 4 a⟩ = a := by
  unfold U32_SIZE at h
  rw [SessionCell.ackValue, ofBe_toBe]
  exact Nat.mod_eq_of_lt h

/-- The owed acknowledgement is sent. -/
lemma Receiving.ackServed {v : View} (h : Receiving v) {id a : ℕ} {s : Stream}
    (hs : v.stream = some s) (hack : s.ack = some a) :
    Receiving { v with
      stream := some { s with ack := none }, sent := v.sent ++ [⟨.dataAck, id, toBe 4 a⟩] } := by
  have hl := h.live s hs
  obtain ⟨ha, hpos, hlt⟩ := hl.ackPending a hack
  obtain ⟨-, -, hwr⟩ := hl.written_le h.writer
  have hbound := hl.bound
  have hacks : acksOf (v.sent ++ [⟨.dataAck, id, toBe 4 a⟩]) = acksOf v.sent ++ [a] := by
    rw [acksOf_concat _ rfl, ackValue_toBe id (by omega)]
  refine ⟨h.writer, h.accepted, ?_, ?_, ?_⟩
  · rw [hacks]
    exact List.pairwise_append.mpr ⟨h.sorted, List.pairwise_singleton _ _, by simpa using hlt⟩
  · rw [hacks]
    intro b hb
    rcases List.mem_append.mp hb with hb | hb
    · exact h.acks b hb
    · have hcount := hl.counted
      rw [List.mem_singleton.mp hb]
      exact ⟨hpos, by simp only; omega⟩
  · rintro _ ⟨⟩
    refine ⟨hl.accepted, hl.counted, hl.reports, hl.credit, hl.bound, hl.queued, hl.capacity,
      hl.ended, ?_, by simp, fun _ => .inr ?_⟩
    · rw [hacks]
      intro b hb
      rcases List.mem_append.mp hb with hb | hb
      · exact hl.acks_le b hb
      · rw [List.mem_singleton.mp hb, ha]
    · rw [hacks, ha]
      simp

/-- A data cell within the credit is queued for the writer. -/
lemma Receiving.data {v : View} (h : Receiving v) {c : SessionCell} {s : Stream} {w : Workers}
    (hcmd : c.command = .data) (hs : v.stream = some s)
    (hcredit : sub32 s.received s.written < WINDOW_CELLS) (hcount : s.received + 1 < U32_SIZE)
    (hw : v.workers.deliver (some c.data) = .ok w) :
    Receiving { v.receive c with
      stream := some { s with received := s.received + 1 }, workers := w } := by
  obtain ⟨-, -, rfl⟩ := Workers.deliver_eq_ok.mp hw
  have hl := h.live s hs
  obtain ⟨-, -, hle⟩ := hl.written_le h.writer
  rw [sub32_eq hle] at hcredit
  have hdata : dataOf (v.received ++ [c]) = dataOf v.received ++ [c.data] := dataOf_concat _ hcmd
  have hend : EndIn (v.received ++ [c]) ↔ EndIn v.received := by
    simp [endIn_concat, hcmd]
  refine ⟨h.writer.deliver (some c.data), ?_, h.sorted, ?_, ?_⟩
  · show v.workers.accepted ++ [c.data] <+: dataOf (v.received ++ [c])
    rw [hdata, hl.accepted]
  · intro a ha
    obtain ⟨hpos, hlen⟩ := h.acks a ha
    refine ⟨hpos, hlen.trans ?_⟩
    simp
  · rintro _ ⟨⟩
    refine ⟨?_, ?_, hl.reports, by simp only; omega, hcount, ?_, hl.capacity, ?_, hl.acks_le,
      hl.ackPending, hl.ackSent⟩
    · show v.workers.accepted ++ [c.data] = dataOf (v.received ++ [c])
      rw [hdata, hl.accepted]
    · simp [hl.counted]
    · have := hl.queued
      simp only [chunks_append, List.length_append, chunks_some, chunks_nil, List.length_cons,
        List.length_nil]
      omega
    · exact hl.ended.trans hend.symm

/-- The peer's end of the stream is queued for the writer. -/
lemma Receiving.ended {v : View} (h : Receiving v) {c : SessionCell} {s : Stream} {w : Workers}
    (hcmd : c.command = .end) (hs : v.stream = some s) (hend : s.receivedEnd = false)
    (hw : v.workers.deliver none = .ok w) :
    Receiving { v.receive c with
      stream := some { s with receivedEnd := true }, workers := w } := by
  obtain ⟨-, -, rfl⟩ := Workers.deliver_eq_ok.mp hw
  have hl := h.live s hs
  have hdata : dataOf (v.received ++ [c]) = dataOf v.received :=
    dataOf_concat_of_ne _ (by simp [hcmd])
  have hacc : v.workers.accepted ++ (none : Option Bytes).toList = v.workers.accepted := by simp
  refine ⟨h.writer.deliver none, ?_, h.sorted, ?_, ?_⟩
  · show v.workers.accepted ++ _ <+: dataOf (v.received ++ [c])
    rw [hdata, hacc]
    exact h.accepted
  · show ∀ a ∈ acksOf v.sent, 0 < a ∧ a ≤ (v.workers.accepted ++ _).length
    rw [hacc]
    exact h.acks
  · rintro _ ⟨⟩
    refine ⟨?_, ?_, hl.reports, hl.credit, hl.bound, ?_, hl.capacity, ?_, hl.acks_le,
      hl.ackPending, hl.ackSent⟩
    · show v.workers.accepted ++ _ = dataOf (v.received ++ [c])
      rw [hdata, hacc, hl.accepted]
    · show s.received = (v.workers.accepted ++ _).length
      rw [hacc, hl.counted]
    · have := hl.queued
      simp only [hend, Bool.false_eq_true, if_false] at this
      simp only [chunks_append, List.length_append, chunks_none, chunks_nil, List.length_cons,
        List.length_nil, if_true]
      omega
    · simp [View.receive, endIn_concat, hcmd]

lemma SameWriter.rfl (w : Workers) : SameWriter w w := ⟨Eq.refl _, Eq.refl _, Eq.refl _, Eq.refl _,
  Eq.refl _, Eq.refl _⟩

/-- A cell for the live stream that carries no data and no end. -/
lemma Receiving.taken {v : View} (h : Receiving v) {c : SessionCell} {s s' : Stream}
    (hs : v.stream = some s) (hdata : c.command ≠ .data) (hend : c.command ≠ .end)
    (hsame : s'.received = s.received ∧ s'.written = s.written ∧ s'.ack = s.ack ∧
      s'.receivedEnd = s.receivedEnd) : Receiving { v.receive c with stream := some s' } := by
  obtain ⟨e1, e2, e3, e4⟩ := hsame
  refine h.transfer (.rfl _) (dataOf_mono (List.prefix_append _ _)) rfl ?_
  rintro _ ⟨⟩
  exact ⟨s, hs, e1, e2, e3, e4, rfl, dataOf_concat_of_ne _ hdata,
    by simp [View.receive, endIn_concat, hend]⟩

theorem Receiving.step {G : StreamGuard} {client : Bool} {id : ℕ} {v v' : View} (h : Receiving v)
    (hlife : v.Life) (hstep : StreamStep G client id v v') : Receiving v' := by
  cases hstep.effect hlife with
  | worker w events hw => exact h.worker hw
  | quiet hq =>
    refine h.transfer (by rw [hq.workers]; exact .rfl _) (dataOf_mono hq.received) hq.sent.carries.2.1
      fun s hs => ?_
    rw [hq.stream] at hs
    obtain ⟨hreceived, hwritten⟩ := hq.live (by simp [hs])
    exact ⟨s, hs, rfl, rfl, rfl, rfl, hwritten, hreceived.carries.1, hreceived.carries.2.2⟩
  | closes hc =>
    refine h.transfer (by rw [hc.workers]; exact .close v) (dataOf_mono hc.received) (by rw [hc.sent]) ?_
    simp [hc.stream]
  | attached s hf hnew _ hstream hw _ hsent hreceived hevents =>
    refine Receiving.attach hf hw hsent hreceived (writtenOf_eq_nil fun x hx => ?_) fun s' hs' => ?_
    · exact hf.events x (hevents x hx)
    · rw [hstream] at hs'
      cases hs'
      obtain ⟨-, rfl⟩ | ⟨-, rfl, -⟩ := hnew <;> exact ⟨rfl, rfl, rfl, rfl⟩
  | served s s' c rx hs hg hserve =>
    cases hserve with
    | ack a _ hack =>
      exact (h.ackServed hs hack).transfer (.rfl _) List.prefix_rfl rfl
        fun s hs => ⟨s, hs, rfl, rfl, rfl, rfl, rfl, rfl, Iff.rfl⟩
    | data | stop =>
      refine h.transfer (.rfl _) List.prefix_rfl (acksOf_concat_of_ne _ (by simp)) ?_
      rintro _ ⟨⟩
      exact ⟨s, hs, rfl, rfl, rfl, rfl, rfl, rfl, Iff.rfl⟩
  | written n rest s he hs => exact h.written he hs
  | opened _ _ hcmd hs | acked _ _ _ hcmd hs =>
    exact h.taken hs (by simp [hcmd]) (by simp [hcmd]) ⟨rfl, rfl, rfl, rfl⟩
  | data c s w hcmd hs hcredit hcount hw => exact h.data hcmd hs hcredit hcount hw
  | ended c s w hcmd hs hend hw => exact h.ended hcmd hs hend hw

end AnonGuard
