import AnonGuard.Session

/-!
# What each step of an endpoint can do

One inversion for each branch of the loop, and one for the whole step. Later
proofs case on these and do not unfold the branches again.
-/
namespace AnonGuard

namespace Endpoint

def serviceable (e : Endpoint) (id : ℕ) : Bool :=
  match e.streams[id]? with
  | none => false
  | some s => s.serviceable (e.workers id).outgoing

/-- The stream that gets its turn when the clock fires at time `now`. -/
def turn (e : Endpoint) (now : ℕ) : Option ℕ :=
  if (e.preferControl = false ∧ e.controls ≠ []) ∨ now < seconds 1 then none
  else e.rotation.find? e.serviceable

variable {e e' : Endpoint} {c : SessionCell} {now : ℕ}

theorem serveFirst_eq_ok {ids : List ℕ} (h : e.serveFirst ids = .ok (some (c, e'))) :
    ∃ k s s' rx, ids.find? e.serviceable = some k ∧ e.streams[k]? = some s ∧
      s.Serves k (e.workers k).outgoing c s' rx ∧
      e' = { e.setStream k s' { e.workers k with outgoing := rx } with cursor := k } := by
  induction ids with
  | nil => cases h
  | cons k ids ih =>
    unfold serveFirst at h
    cases hs : e.streams[k]? with
    | none =>
      simp only [hs] at h
      cases h
    | some s =>
      simp only [hs] at h
      cases hserve : s.serve k (e.workers k).outgoing with
      | error =>
        simp only [hserve] at h
        cases h
      | ok r =>
        cases r with
        | none =>
          simp only [hserve] at h
          obtain ⟨k', s₀, s', rx, hfind, hrest⟩ := ih h
          have hnot : e.serviceable k = false := by
            simp only [serviceable, hs]
            exact Stream.serve_eq_none.mp hserve
          exact ⟨k', s₀, s', rx, by rw [List.find?_cons, hnot]; exact hfind, hrest⟩
        | some p =>
          obtain ⟨c', s', rx⟩ := p
          simp only [hserve] at h
          cases h
          have hyes : e.serviceable k = true := by
            by_contra hno
            have hno : s.serviceable (e.workers k).outgoing = false := by
              simpa only [serviceable, hs, Bool.not_eq_true] using hno
            rw [Stream.serve_eq_none.mpr hno] at hserve
            cases hserve
          exact ⟨k, s, s', rx, by rw [List.find?_cons, hyes], hs, Stream.serve_eq_ok hserve, rfl⟩

lemma id_of_serves {s s' : Stream} {k : ℕ} {rx rx' : Channel Bytes}
    (h : s.Serves k rx c s' rx') : c.id = k := by cases h <;> rfl

theorem popControl_eq_some (h : e.popControl = some (c, e')) :
    ∃ rest, e.controls = c :: rest ∧ e' = { e with controls := rest } := by
  unfold popControl at h
  split at h
  · cases h
  · cases h
    exact ⟨_, ‹_›, rfl⟩

theorem popControl_eq_none (h : e.popControl = none) : e.controls = [] := by
  unfold popControl at h
  split at h
  · assumption
  · cases h

/-- The three sources of a tick's cell. -/
theorem select_eq_ok (h : e.select now = .ok (c, e')) :
    (∃ rest, e.controls = c :: rest ∧ e' = { e with controls := rest }) ∨
    (∃ k s s' rx, ¬ (e.preferControl = true ∧ e.controls ≠ []) ∧ seconds 1 ≤ now ∧
      e.rotation.find? e.serviceable = some k ∧ e.streams[k]? = some s ∧
      s.Serves k (e.workers k).outgoing c s' rx ∧
      e' = { e.setStream k s' { e.workers k with outgoing := rx } with cursor := k }) ∨
    (e.controls = [] ∧ c = ⟨.dummy, 0, []⟩ ∧ e' = e) := by
  unfold select at h
  split at h
  · rename_i p hp
    split_ifs at hp
    cases h
    exact .inl (popControl_eq_some hp)
  · rename_i hnone
    have hcond : ¬ (e.preferControl = true ∧ e.controls ≠ []) := by
      rintro ⟨hpref, hne⟩
      rw [if_pos hpref] at hnone
      exact hne (popControl_eq_none hnone)
    split at h
    · cases h
    · rename_i p hserve
      cases h
      split_ifs at hserve with hnow
      · obtain ⟨k, s, s', rx, hrest⟩ := serveFirst_eq_ok hserve
        exact .inr (.inl ⟨k, s, s', rx, hcond, hnow, hrest⟩)
      · cases hserve
    · cases hq : e.popControl with
      | none =>
        rw [hq] at h
        cases h
        exact .inr (.inr ⟨popControl_eq_none hq, rfl, rfl⟩)
      | some =>
        rw [hq] at h
        cases h
        exact .inl (popControl_eq_some hq)

theorem emit_eq_ok {flushed : Option ℕ} (h : e.emit c flushed = .ok e') :
    ∃ time, flushed = some time ∧ c.data.length ≤ PAYLOAD_SIZE ∧
      e.sequenceNo < sequenceLimit e.client ∧ e' = { e with
        sequenceNo := e.sequenceNo + 1, time := time, sentLog := e.sentLog ++ [c] } := by
  unfold emit outgoing at h
  split at h
  · cases h
  · rename_i e₁ hout
    split_ifs at hout with hlen hseq
    cases hout
    split at h
    · cases h
    · cases h
      exact ⟨_, rfl, by omega, hseq, rfl⟩

theorem pace_eq_ok {interval : ℕ} (h : e.pace interval = .ok e') :
    e.cells + 1 < U64_SIZE ∧ e' = { e with
      cells := e.cells + 1, deadline := nextDeadline e.deadline e.time interval } := by
  unfold pace at h
  split_ifs at h with hc
  cases h
  exact ⟨hc, rfl⟩

/-- The state after a scheduled cell has been written. -/
def afterCell (e : Endpoint) (c : SessionCell) (time interval : ℕ) : Endpoint :=
  { e with
    sequenceNo := e.sequenceNo + 1
    time := time
    sentLog := e.sentLog ++ [c]
    cells := e.cells + 1
    deadline := nextDeadline e.deadline time interval }

/-- A tick that is not the exit's last emits the selected cell and then runs the
two passes. -/
theorem scheduled_eq_ok {t : Tick} (h : e.scheduled t = .ok e') :
    ∃ c e₁ time, e.select t.now = .ok (c, e₁) ∧ t.flushed = some time ∧
      c.data.length ≤ PAYLOAD_SIZE ∧ e₁.sequenceNo < sequenceLimit e₁.client ∧
      e₁.cells + 1 < U64_SIZE ∧ e' = (e₁.afterCell c time t.interval).retire.cancel := by
  unfold scheduled at h
  split at h
  · cases h
  · rename_i c e₁ hsel
    split at h
    · cases h
    · rename_i e₂ hemit
      obtain ⟨time, hf, hlen, hseq, rfl⟩ := emit_eq_ok hemit
      split at h
      · cases h
      · rename_i e₃ hpace
        obtain ⟨hc, rfl⟩ := pace_eq_ok hpace
        cases h
        exact ⟨c, e₁, time, hsel, hf, hlen, hseq, hc, rfl⟩

/-- What the event branch does with one event. -/
inductive Handles (e : Endpoint) : Event → Endpoint → Prop
  | written (id count : ℕ) (s : Stream) (hs : e.streams[id]? = some s)
      (hn : count = succ32 s.written) (hle : count ≤ s.received) :
      Handles e (.written id count)
        (e.setStream id { s with written := count, ack := some count } (e.workers id))
  | writtenLate (id count : ℕ) (hs : e.streams[id]? = none) : Handles e (.written id count) e
  | connected (id : ℕ) (hc : e.client = false) (hcon : id ∈ e.connecting) :
      Handles e (.connected id true)
        (({ e with
            connecting := e.connecting.erase id
            connectTasks := e.connectTasks.erase id }.setStream id .attached
          .attached).pushControl .sessionOpened id [])
  | connectFailed (id : ℕ) (hc : e.client = false) (hcon : id ∈ e.connecting) :
      Handles e (.connected id false)
        ({ e with
            connecting := e.connecting.erase id
            connectTasks := e.connectTasks.erase id }.pushControl .sessionRefused id [1])
  | connectLate (id : ℕ) (ok : Bool) (hc : e.client = false) (hcon : id ∉ e.connecting) :
      Handles e (.connected id ok) { e with connectTasks := e.connectTasks.erase id }
  | failed (id : ℕ) (s : Stream) (hs : e.streams[id]? = some s) :
      Handles e (.failed id) (e.resetStream id)
  | failedLate (id : ℕ) (hs : e.streams[id]? = none) : Handles e (.failed id) e

theorem handleEvent_eq_ok {x : Event} (h : e.handleEvent x = .ok e') : Handles e x e' := by
  cases x with
  | written id count =>
    simp only [handleEvent] at h
    split at h
    · cases h
      exact .writtenLate id count ‹_›
    · rename_i s hs
      split_ifs at h with hbad
      rw [not_or, not_not, not_lt] at hbad
      cases h
      exact .written id count s hs hbad.1 hbad.2
  | connected id ok =>
    simp only [handleEvent] at h
    split_ifs at h with hc hcon hok
    · cases h
      subst hok
      exact .connected id (by simpa using hc) hcon
    · cases h
      rw [Bool.not_eq_true] at hok
      subst hok
      exact .connectFailed id (by simpa using hc) hcon
    · cases h
      exact .connectLate id ok (by simpa using hc) hcon
  | failed id =>
    simp only [handleEvent] at h
    split at h
    · cases h
      exact .failedLate id ‹_›
    · cases h
      exact .failed id _ ‹_›

/-- What the frame branch does with one accepted cell. -/
inductive Dispatches (e : Endpoint) (now : ℕ) (c : SessionCell) : Endpoint → Prop
  | late (hclosed : c.id ∈ e.closed) (hlate : lateCommand c.command = true) : Dispatches e now c e
  | dummy (hcmd : c.command = .dummy) (hid : c.id = 0) : Dispatches e now c e
  | openRefused (hcmd : c.command = .sessionOpen) (hc : e.client = false)
      (hlast : e.lastId < c.id) (hmax : c.id ≤ MAX_IDS) :
      Dispatches e now c ({ e with lastId := c.id }.pushControl .sessionRefused c.id [1])
  | openAccepted (hcmd : c.command = .sessionOpen) (hc : e.client = false)
      (hlast : e.lastId < c.id) (hmax : c.id ≤ MAX_IDS)
      (hroom : e.streams.size + e.connecting.card < MAX_STREAMS) :
      Dispatches e now c { e with
        lastId := c.id
        connecting := insert c.id e.connecting
        connectTasks := insert c.id e.connectTasks
        dialing := insert c.id e.dialing
        activity := now }
  | opened (s : Stream) (hcmd : c.command = .sessionOpened) (hc : e.client = true)
      (hs : e.streams[c.id]? = some s) (hready : s.ready = false) :
      Dispatches e now c (e.setStream c.id
        { s with ready := true, reply := false, application := false } (e.workers c.id))
  | openedLate (s : Stream) (hcmd : c.command = .sessionOpened) (hc : e.client = true)
      (hs : e.streams[c.id]? = some s) (hready : s.ready = false) :
      Dispatches e now c (e.resetStream c.id)
  | refused (s : Stream) (hcmd : c.command = .sessionRefused) (hc : e.client = true)
      (hs : e.streams[c.id]? = some s) (hready : s.ready = false) :
      Dispatches e now c (e.closeStream c.id)
  | data (s : Stream) (w : Workers) (hcmd : c.command = .data) (hs : e.streams[c.id]? = some s)
      (hready : s.ready = true) (hend : s.receivedEnd = false) (hdata : c.data ≠ [])
      (hcredit : sub32 s.received s.written < WINDOW_CELLS) (hcount : s.received + 1 < U32_SIZE)
      (hw : (e.workers c.id).deliver (some c.data) = .ok w) :
      Dispatches e now c
        { e.setStream c.id { s with received := s.received + 1 } w with activity := now }
  | acked (s : Stream) (window : SendWindow) (hcmd : c.command = .dataAck)
      (hs : e.streams[c.id]? = some s) (hready : s.ready = true)
      (hw : s.window.acknowledge c.data = .ok window) :
      Dispatches e now c (e.setStream c.id { s with window := window } (e.workers c.id))
  | ended (s : Stream) (w : Workers) (hcmd : c.command = .end) (hs : e.streams[c.id]? = some s)
      (hready : s.ready = true) (hend : s.receivedEnd = false)
      (hw : (e.workers c.id).deliver none = .ok w) :
      Dispatches e now c
        { e.setStream c.id { s with receivedEnd := true } w with activity := now }
  | reset (hcmd : c.command = .sessionReset) (hpos : 0 < c.id) (hlast : c.id ≤ e.lastId) :
      Dispatches e now c (e.acceptReset c.id)
  | finish (hcmd : c.command = .sessionFinish) (hc : e.client = false) (hid : c.id = 0)
      (hstreams : e.streams.isEmpty = true) (hconnecting : e.connecting = ∅)
      (hpeer : e.peerFinish = false) : Dispatches e now c { e with peerFinish := true }
  | finished (hcmd : c.command = .sessionFinished) (hc : e.client = true)
      (hfin : e.finishing = true) (hid : c.id = 0) :
      Dispatches e now c { e with result := some (.ok ()) }

lemma acceptOpen_eq_ok (hcmd : c.command = .sessionOpen)
    (hc : e.client = false) (hlast : e.lastId < c.id) (hmax : c.id ≤ MAX_IDS)
    (h : e.acceptOpen now c.id c.data = .ok e') : Dispatches e now c e' := by
  simp only [acceptOpen] at h
  split at h
  · cases h
    exact .openRefused hcmd hc hlast hmax
  · rename_i hroom
    split at h
    · cases h
    · split at h
      · cases h
      · split at h
        · cases h
        · split at h
          · cases h
          · cases h
            exact .openAccepted hcmd hc hlast hmax (not_le.mp hroom)

lemma acceptOpened_eq_ok (hcmd : c.command = .sessionOpened)
    (hc : e.client = true) (h : e.acceptOpened c.id = .ok e') : Dispatches e now c e' := by
  unfold acceptOpened at h
  split at h
  · cases h
  · rename_i s hs
    split_ifs at h with hready hreply happ hclosed
    · cases h
      exact .openedLate s hcmd hc hs (by simpa using hready)
    · cases h
      exact .opened s hcmd hc hs (by simpa using hready)

lemma acceptRefused_eq_ok (hcmd : c.command = .sessionRefused)
    (hc : e.client = true) (h : e.acceptRefused c.id = .ok e') : Dispatches e now c e' := by
  unfold acceptRefused at h
  split at h
  · cases h
  · rename_i s hs
    split_ifs at h with hready
    cases h
    exact .refused s hcmd hc hs (by simpa using hready)

lemma acceptData_eq_ok (hcmd : c.command = .data)
    (h : e.acceptData now c.id c.data = .ok e') : Dispatches e now c e' := by
  unfold acceptData at h
  split at h
  · cases h
  · rename_i s hs
    split_ifs at h with hbad hcount
    split at h
    · cases h
    · rename_i w hw
      cases h
      simp only [not_or, Bool.not_eq_false, Bool.not_eq_true, not_le] at hbad hcount
      exact .data s w hcmd hs hbad.1 hbad.2.1 hbad.2.2.1 hbad.2.2.2 hcount hw

lemma acceptAck_eq_ok (hcmd : c.command = .dataAck)
    (h : e.acceptAck c.id c.data = .ok e') : Dispatches e now c e' := by
  unfold acceptAck at h
  split at h
  · cases h
  · rename_i s hs
    split_ifs at h with hready
    split at h
    · cases h
    · rename_i window hw
      cases h
      exact .acked s window hcmd hs (by simpa using hready) hw

lemma acceptEnd_eq_ok (hcmd : c.command = .end)
    (h : e.acceptEnd now c.id = .ok e') : Dispatches e now c e' := by
  unfold acceptEnd at h
  split at h
  · cases h
  · rename_i s hs
    split_ifs at h with hbad
    split at h
    · cases h
    · rename_i w hw
      cases h
      simp only [not_or, Bool.not_eq_false, Bool.not_eq_true] at hbad
      exact .ended s w hcmd hs hbad.1 hbad.2 hw

theorem dispatch_eq_ok (h : e.dispatch now c = .ok e') :
    Dispatches e now c e' := by
  unfold dispatch at h
  by_cases hlate : c.id ∈ e.closed ∧ lateCommand c.command = true
  · rw [if_pos hlate] at h
    cases h
    exact .late hlate.1 hlate.2
  · rw [if_neg hlate] at h
    split at h <;> rename_i hcmd
    · split_ifs at h with hd
      cases h
      exact .dummy hcmd hd.1
    · split_ifs at h with ho
      exact acceptOpen_eq_ok hcmd ho.1 ho.2.2.1 ho.2.2.2 h
    · split_ifs at h with ho
      exact acceptOpened_eq_ok hcmd ho.1 h
    · split_ifs at h with ho
      exact acceptRefused_eq_ok hcmd ho.1 h
    · exact acceptData_eq_ok hcmd h
    · exact acceptAck_eq_ok hcmd h
    · split_ifs at h
      exact acceptEnd_eq_ok hcmd h
    · split_ifs at h with hr
      cases h
      exact .reset hcmd hr.1 hr.2.1
    · split_ifs at h with hf
      cases h
      exact .finish hcmd hf.1 hf.2.1 hf.2.2.2.1 hf.2.2.2.2.1 hf.2.2.2.2.2
    · split_ifs at h with hf
      cases h
      exact .finished hcmd hf.1 hf.2.1 hf.2.2.1
    · cases h

/-- The state in which an accepted cell is dispatched. -/
def logFrame (e : Endpoint) (now budget : ℕ) (c : SessionCell) : Endpoint :=
  { e with
    time := now
    receiveBudget := budget
    receiveTime := now
    receivedLog := e.receivedLog ++ [c] }

/-- What one step of the endpoint does. A branch that returns an error ends the
session and changes nothing else. -/
inductive Advances (e : Endpoint) : SessionInput → Endpoint → Prop
  | failed (i : SessionInput) (x : SessionError) (hr : e.result = none) : Advances e i (e.fail x)
  | tick (t : Tick) (e' : Endpoint) (hr : e.result = none) (hhead : e.headFault = none)
      (h : { e with time := t.now }.tick t = .ok e') : Advances e (.clock t) e'
  | requested (now : ℕ) (host : String) (port : UInt16) (e' : Endpoint) (hr : e.result = none)
      (hc : e.client = true) (hfin : e.finishing = false)
      (h : { e with time := now }.request now host port = .ok e') (hhead : e.headFault = none) :
      Advances e (.request now host port) e'
  | requestRefused (now : ℕ) (host : String) (port : UInt16) (hr : e.result = none) :
      Advances e (.request now host port) { e with time := now }
  | event (now : ℕ) (x : Event) (rest : List Event) (e' : Endpoint) (he : e.events = x :: rest)
      (hr : e.result = none) (hhead : e.headFault = none)
      (h : Handles { e with time := now, events := rest } x e') : Advances e (.event now) e'
  | frame (now budget : ℕ) (c : SessionCell) (e' : Endpoint) (hr : e.result = none)
      (hhead : e.headFault = none) (h : Dispatches (e.logFrame now budget c) now c e') :
      Advances e (.frame now (.ok c)) e'
  | worker (id : ℕ) (i : WorkerInput) (w : Workers) (events : List Event)
      (h : (e.workers id).Steps id w events) :
      Advances e (.worker id i)
        { e with workers := Function.update e.workers id w, events := e.events ++ events }
  | connect (id : ℕ) (ok : Bool) (hd : id ∈ e.dialing) :
      Advances e (.connect id ok)
        { e with dialing := e.dialing.erase id, events := e.events ++ [.connected id ok] }

lemma iterate_eq_some {branch : Endpoint → Except SessionError Endpoint}
    (h : e.iterate now branch = some e') : e.result = none ∧ ((∃ x, e' = e.fail x) ∨
      (e.headFault = none ∧ branch { e with time := now } = .ok e')) := by
  unfold iterate at h
  split_ifs at h with hdone
  have hr : e.result = none := by
    rw [not_or] at hdone
    simpa using hdone.1
  refine ⟨hr, ?_⟩
  split at h
  · cases h
    exact .inl ⟨_, rfl⟩
  · rename_i hhead
    split at h
    · cases h
      exact .inl ⟨_, rfl⟩
    · rename_i hb
      cases h
      exact .inr ⟨hhead, hb⟩

lemma handleFrame_eq_ok {cell : Except CircuitError SessionCell}
    (h : { e with time := now }.handleFrame now cell = .ok e') :
    ∃ c budget, cell = .ok c ∧ Dispatches (e.logFrame now budget c) now c e' := by
  simp only [handleFrame] at h
  split_ifs at h
  split at h
  · cases h
  · exact ⟨_, _, rfl, dispatch_eq_ok h⟩

theorem advances_of_step {i : SessionInput} (h : e.step i = some e') : Advances e i e' := by
  cases i with
  | clock t =>
    simp only [step] at h
    split_ifs at h
    obtain ⟨hr, ⟨x, rfl⟩ | ⟨hhead, hb⟩⟩ := iterate_eq_some h
    · exact .failed _ x hr
    · exact .tick t e' hr hhead hb
  | request now host port =>
    simp only [step] at h
    split_ifs at h with hc
    obtain ⟨hr, ⟨x, rfl⟩ | ⟨hhead, hb⟩⟩ := iterate_eq_some h
    · exact .failed _ x hr
    · cases hreq : { e with time := now }.request now host port with
      | error =>
        rw [hreq] at hb
        cases hb
        exact .requestRefused now host port hr
      | ok =>
        rw [hreq] at hb
        cases hb
        exact .requested now host port _ hr hc.1 hc.2 hreq hhead
  | ownerClosed =>
    simp only [step] at h
    split_ifs at h
    obtain ⟨hr, ⟨x, rfl⟩ | ⟨-, hb⟩⟩ := iterate_eq_some h
    · exact .failed _ x hr
    · cases hb
  | event now =>
    simp only [step] at h
    split at h
    · cases h
    · rename_i x rest he
      obtain ⟨hr, ⟨y, rfl⟩ | ⟨hhead, hb⟩⟩ := iterate_eq_some h
      · exact .failed _ y hr
      · exact .event now x rest e' he hr hhead (handleEvent_eq_ok hb)
  | frame now =>
    simp only [step] at h
    obtain ⟨hr, ⟨x, rfl⟩ | ⟨hhead, hb⟩⟩ := iterate_eq_some h
    · exact .failed _ x hr
    · obtain ⟨c, budget, rfl, hd⟩ := handleFrame_eq_ok hb
      exact .frame now budget c e' hr hhead hd
  | framesClosed =>
    simp only [step] at h
    obtain ⟨hr, ⟨x, rfl⟩ | ⟨-, hb⟩⟩ := iterate_eq_some h
    · exact .failed _ x hr
    · cases hb
  | expire =>
    simp only [step] at h
    split_ifs at h with hdone
    cases h
    rw [not_or] at hdone
    exact .failed _ _ (by simpa using hdone.1)
  | worker id i =>
    simp only [step, workerStep] at h
    split at h
    · cases h
    · rename_i w events hw
      cases h
      exact .worker id i w events (Workers.steps_of_step hw)
  | connect id ok =>
    simp only [step, connectStep] at h
    split_ifs at h with hd
    cases h
    exact .connect id ok hd.1

theorem request_eq_ok {host : String} {port : UInt16}
    (h : e.request now host port = .ok e') : ∃ target, e' =
      ({ e with lastId := e.lastId + 1, activity := now }.setStream (e.lastId + 1) .requested
        .attached).pushControl .sessionOpen (e.lastId + 1) target := by
  unfold request at h
  split_ifs at h
  split at h
  · cases h
  · cases h
    exact ⟨_, rfl⟩

/-! Removing streams touches only the tables of streams. -/

theorem removeStream_eq (id : ℕ) : ∃ streams workers,
    e.removeStream id = { e with streams := streams, workers := workers } := by
  unfold removeStream
  split
  · exact ⟨e.streams, e.workers, rfl⟩
  · exact ⟨_, _, rfl⟩

theorem closeStream_eq (id : ℕ) : ∃ streams workers closed,
    e.closeStream id = { e with streams := streams, workers := workers, closed := closed } := by
  obtain ⟨streams, workers, h⟩ := removeStream_eq (e := e) id
  exact ⟨streams, workers, _, by rw [closeStream, h]⟩

theorem resetStream_eq (id : ℕ) : ∃ streams workers closed,
    e.resetStream id = { e with
      streams := streams, workers := workers, closed := closed
      controls := e.controls ++ [⟨.sessionReset, id, []⟩] } := by
  obtain ⟨streams, workers, closed, h⟩ := closeStream_eq (e := e) id
  exact ⟨streams, workers, closed, by rw [resetStream, h]; rfl⟩

theorem retire_eq : ∃ streams workers closed retired, e.retire = { e with
    streams := streams, workers := workers, closed := closed, retired := retired } := by
  unfold retire
  generalize e.retiring = ids
  induction ids generalizing e with
  | nil => exact ⟨_, _, _, _, rfl⟩
  | cons id ids ih =>
    obtain ⟨s₁, w₁, c₁, h₁⟩ := closeStream_eq (e := e) id
    obtain ⟨s₂, w₂, c₂, r₂, h₂⟩ := ih (e := e.retireStream id)
    exact ⟨s₂, w₂, c₂, r₂, by rw [List.foldl_cons, h₂, retireStream, h₁]⟩

theorem cancel_eq : ∃ streams workers closed resets, e.cancel = { e with
    streams := streams, workers := workers, closed := closed, controls := e.controls ++ resets } ∧
    (∀ c ∈ resets, c.command = .sessionReset) ∧ resets.length = e.cancelled.length := by
  unfold cancel
  generalize e.cancelled = ids
  induction ids generalizing e with
  | nil => exact ⟨e.streams, e.workers, e.closed, [], by simp, by simp, rfl⟩
  | cons id ids ih =>
    obtain ⟨s₁, w₁, c₁, h₁⟩ := resetStream_eq (e := e) id
    obtain ⟨s₂, w₂, c₂, resets, h₂, hcmd, hlen⟩ := ih (e := e.resetStream id)
    refine ⟨s₂, w₂, c₂, ⟨.sessionReset, id, []⟩ :: resets, ?_, ?_, by simp [hlen]⟩
    · rw [List.foldl_cons, h₂, h₁]
      simp
    · intro c hc
      cases hc with
      | head => rfl
      | tail _ hc => exact hcmd c hc

theorem announceFinish_eq (now : ℕ) : ∃ controls finishing, e.announceFinish now = { e with
    controls := controls, finishing := finishing } := by
  unfold announceFinish
  split_ifs
  · exact ⟨_, _, rfl⟩
  · exact ⟨e.controls, e.finishing, rfl⟩

/-- The state in which a tick selects its cell. -/
def toSelect (e : Endpoint) (now : ℕ) : Endpoint :=
  { e.announceFinish now with preferControl := !e.preferControl }

/-- A successful tick is the exit's last one or emits a scheduled cell. -/
inductive Ticks (e : Endpoint) (t : Tick) : Endpoint → Prop
  | last (time : ℕ) (hfin : e.mayFinish t.now = true) (hc : e.client = false)
      (hpeer : e.peerFinish = true) :
      Ticks e t { e with
        sequenceNo := e.sequenceNo + 1, time := time
        sentLog := e.sentLog ++ [⟨.sessionFinished, 0, []⟩], result := some (.ok ()) }
  | cell (c : SessionCell) (e₁ : Endpoint) (time : ℕ)
      (hnot : ¬ (e.mayFinish t.now = true ∧ e.client = false ∧ e.peerFinish = true))
      (hsel : (e.toSelect t.now).select t.now = .ok (c, e₁)) :
      Ticks e t (e₁.afterCell c time t.interval).retire.cancel

theorem tick_eq_ok {t : Tick} (h : e.tick t = .ok e') : Ticks e t e' := by
  unfold tick at h
  by_cases hlast : e.mayFinish t.now = true ∧ e.client = false ∧ e.peerFinish = true
  · rw [if_pos hlast] at h
    unfold finishExit at h
    split at h
    · cases h
    · rename_i e₁ hemit
      obtain ⟨time, -, -, -, rfl⟩ := emit_eq_ok hemit
      cases h
      exact .last time hlast.1 hlast.2.1 hlast.2.2
  · rw [if_neg hlast] at h
    obtain ⟨c, e₁, time, hsel, -, -, -, -, rfl⟩ := scheduled_eq_ok h
    exact .cell c e₁ time hlast hsel

/-- Selecting a cell moves only the tables that hold it. -/
theorem select_frame (h : e.select now = .ok (c, e')) :
    ∃ streams workers controls cursor, e' = { e with
      streams := streams, workers := workers, controls := controls, cursor := cursor } ∧
      (controls = e.controls ∨ e.controls = c :: controls) := by
  obtain ⟨rest, hc, rfl⟩ | ⟨k, s, s', rx, -, -, -, -, -, rfl⟩ | ⟨-, -, rfl⟩ := select_eq_ok h
  · exact ⟨_, _, rest, _, rfl, .inr hc⟩
  · exact ⟨_, _, _, k, rfl, .inl rfl⟩
  · exact ⟨_, _, _, _, rfl, .inl rfl⟩

/-- What a scheduled cell leaves of the other variables. `rest` is the control
queue without the cell, and `resets` are those of cancelled requests. -/
structure CellFrame (e : Endpoint) (now : ℕ) (c : SessionCell) (e' : Endpoint) : Prop where
  client : e'.client = e.client
  profile : e'.profile = e.profile
  connecting : e'.connecting = e.connecting
  events : e'.events = e.events
  lastId : e'.lastId = e.lastId
  cells : e'.cells = e.cells + 1
  finishing : e'.finishing = (e.announceFinish now).finishing
  peerFinish : e'.peerFinish = e.peerFinish
  sentLog : e'.sentLog = e.sentLog ++ [c]
  receivedLog : e'.receivedLog = e.receivedLog
  result : e'.result = e.result
  controls : ∃ rest resets, e'.controls = rest ++ resets ∧
    (∀ d ∈ resets, d.command = .sessionReset) ∧
    (rest = (e.announceFinish now).controls ∨ (e.announceFinish now).controls = c :: rest)

theorem cellFrame_of_select {t : Tick} {e₁ : Endpoint} (time : ℕ)
    (h : (e.toSelect t.now).select t.now = .ok (c, e₁)) :
    CellFrame e t.now c (e₁.afterCell c time t.interval).retire.cancel := by
  obtain ⟨_, _, rest, _, rfl, hrest⟩ := select_frame h
  obtain ⟨_, _, _, _, hretire⟩ := retire_eq (e := afterCell _ c time t.interval)
  obtain ⟨_, _, _, resets, hcancel, hresets, -⟩ := cancel_eq (e := retire _)
  obtain ⟨_, _, hannounce⟩ := announceFinish_eq (e := e) t.now
  rw [hcancel, hretire]
  simp only [afterCell, toSelect] at hrest ⊢
  refine ⟨?_, ?_, ?_, ?_, ?_, ?_, rfl, ?_, ?_, ?_, ?_, rest, resets, rfl, hresets, hrest⟩ <;> rw [hannounce]

/-- An event touches only the tables of streams and connects, and the controls. -/
theorem Handles.tables {x : Event} (h : Handles e x e') :
    ∃ streams workers closed controls connecting connectTasks, e' = { e with
      streams := streams, workers := workers, closed := closed, controls := controls
      connecting := connecting, connectTasks := connectTasks } := by
  cases h with
  | failed id =>
    obtain ⟨_, _, _, hr⟩ := resetStream_eq (e := e) id
    exact ⟨_, _, _, _, _, _, hr⟩
  | _ => exact ⟨_, _, _, _, _, _, rfl⟩

/-- A cell touches them too, and only the two cells of the finish do more. -/
theorem Dispatches.tables (h : Dispatches e now c e') :
    ∃ streams workers closed controls connecting connectTasks dialing lastId activity peerFinish
      result, e' = { e with
        streams := streams, workers := workers, closed := closed, controls := controls
        connecting := connecting, connectTasks := connectTasks, dialing := dialing
        lastId := lastId, activity := activity, peerFinish := peerFinish, result := result } ∧
      (peerFinish = e.peerFinish ∨ c.command = .sessionFinish) ∧
      (result = e.result ∨ result = some (.ok ()) ∧ e.client = true ∧ e.finishing = true) := by
  cases h with
  | openedLate =>
    obtain ⟨_, _, _, hr⟩ := resetStream_eq (e := e) c.id
    exact ⟨_, _, _, _, _, _, _, _, _, _, _, hr, .inl rfl, .inl rfl⟩
  | refused =>
    obtain ⟨_, _, _, hr⟩ := closeStream_eq (e := e) c.id
    exact ⟨_, _, _, _, _, _, _, _, _, _, _, hr, .inl rfl, .inl rfl⟩
  | reset =>
    obtain ⟨_, _, _, hr⟩ := closeStream_eq (e := e) c.id
    rw [acceptReset, hr]
    exact ⟨_, _, _, _, _, _, _, _, _, _, _, rfl, .inl rfl, .inl rfl⟩
  | finish hcmd => exact ⟨_, _, _, _, _, _, _, _, _, _, _, rfl, .inr hcmd, .inl rfl⟩
  | finished _ hc hfin => exact ⟨_, _, _, _, _, _, _, _, _, _, _, rfl, .inl rfl, .inr ⟨rfl, hc, hfin⟩⟩
  | _ => exact ⟨_, _, _, _, _, _, _, _, _, _, _, rfl, .inl rfl, .inl rfl⟩

/-- The role and the profile never change. -/
theorem setup_step {i : SessionInput} (h : e.step i = some e') :
    e'.client = e.client ∧ e'.profile = e.profile := by
  cases advances_of_step h with
  | failed | requestRefused | worker | connect => exact ⟨rfl, rfl⟩
  | tick t _ _ _ htick =>
    cases tick_eq_ok htick with
    | last => exact ⟨rfl, rfl⟩
    | cell c e₁ time _ hsel =>
      have hframe := cellFrame_of_select time hsel
      exact ⟨hframe.client, hframe.profile⟩
  | requested now host port _ _ _ _ hreq =>
    obtain ⟨target, rfl⟩ := request_eq_ok hreq
    exact ⟨rfl, rfl⟩
  | event now x rest _ _ _ _ hx =>
    obtain ⟨_, _, _, _, _, _, rfl⟩ := hx.tables
    exact ⟨rfl, rfl⟩
  | frame now budget c _ _ _ hd =>
    obtain ⟨_, _, _, _, _, _, _, _, _, _, _, rfl, -⟩ := hd.tables
    exact ⟨rfl, rfl⟩

end Endpoint

end AnonGuard
