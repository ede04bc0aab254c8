import AnonGuard.Session
import AnonGuard.Transition

/-!
# One stream of an endpoint

The actor loop serves all streams, but what happens to one stream id depends on
few of its variables. A `View` collects them, and `StreamStep` lists everything
a step of the endpoint can do to one view. Invariants of a stream are proved
about `StreamStep`, for any peer.
-/
namespace AnonGuard

structure View where
  stream : Option Stream
  workers : Workers
  connecting : Prop
  closed : Prop
  opened : Prop
  retired : Prop
  events : List Event
  controls : List SessionCell
  sent : List SessionCell
  received : List SessionCell

namespace View

/-- The view of an id at the start. Only the id zero counts as opened, and no
stream ever has it. -/
def initial (opened : Prop) : View :=
  ⟨none, .absent, False, False, opened, False, [], [], [], []⟩

def control (v : View) (c : SessionCell) : View := { v with controls := v.controls ++ [c] }
def receive (v : View) (c : SessionCell) : View := { v with received := v.received ++ [c] }

def attach (v : View) (s : Stream) : View := { v with stream := some s, workers := .attached }

def remove (v : View) : View :=
  match v.stream with
  | none => v
  | some _ => { v with stream := none, workers := v.workers.detach }

def close (v : View) : View := { v.remove with closed := True }

end View

/-- The cells of one stream id in a log. -/
def cellsOf (id : ℕ) (log : List SessionCell) : List SessionCell :=
  log.filter fun c => decide (c.id = id)

def eventsOf (id : ℕ) (events : List Event) : List Event :=
  events.filter fun x => decide (x.id = id)

def Endpoint.view (e : Endpoint) (id : ℕ) : View where
  stream := e.streams[id]?
  workers := e.workers id
  connecting := id ∈ e.connecting
  closed := id ∈ e.closed
  opened := id ≤ e.lastId
  retired := id ∈ e.retired
  events := eventsOf id e.events
  controls := cellsOf id e.controls
  sent := cellsOf id e.sentLog
  received := cellsOf id e.receivedLog

section Lists
variable {id : ℕ}

@[simp] theorem cellsOf_append (a b : List SessionCell) :
    cellsOf id (a ++ b) = cellsOf id a ++ cellsOf id b := List.filter_append ..

@[simp] theorem eventsOf_append (a b : List Event) :
    eventsOf id (a ++ b) = eventsOf id a ++ eventsOf id b := List.filter_append ..

theorem cellsOf_cons_of_eq {c : SessionCell} (l : List SessionCell) (h : c.id = id) :
    cellsOf id (c :: l) = c :: cellsOf id l := by simp [cellsOf, h]

theorem cellsOf_cons_of_ne {c : SessionCell} (l : List SessionCell) (h : c.id ≠ id) :
    cellsOf id (c :: l) = cellsOf id l := by simp [cellsOf, h]

theorem eventsOf_cons_of_eq {x : Event} (l : List Event) (h : x.id = id) :
    eventsOf id (x :: l) = x :: eventsOf id l := by simp [eventsOf, h]

theorem eventsOf_cons_of_ne {x : Event} (l : List Event) (h : x.id ≠ id) :
    eventsOf id (x :: l) = eventsOf id l := by simp [eventsOf, h]

@[simp] theorem cellsOf_nil : cellsOf id [] = [] := rfl
@[simp] theorem eventsOf_nil : eventsOf id [] = [] := rfl

end Lists

namespace Endpoint
variable (e : Endpoint) {k id : ℕ}

theorem view_new (client : Bool) (profile : Profile) (sequenceNo interval : ℕ) :
    (new client profile sequenceNo interval).view id = .initial (id = 0) := by
  simp [view, new, View.initial]

theorem view_setStream_self (s : Stream) (w : Workers) :
    (e.setStream id s w).view id = { e.view id with stream := some s, workers := w } := by
  simp [view, setStream]

theorem view_setStream_of_ne (s : Stream) (w : Workers) (h : id ≠ k) :
    (e.setStream k s w).view id = e.view id := by
  simp [view, setStream, Std.TreeMap.getElem?_insert, h, h.symm]

theorem view_pushControl_self (command : CellCommand) (data : Bytes) :
    (e.pushControl command id data).view id = (e.view id).control ⟨command, id, data⟩ := by
  simp [view, pushControl, View.control, cellsOf_cons_of_eq]

theorem view_pushControl_of_ne (command : CellCommand) (data : Bytes) (h : id ≠ k) :
    (e.pushControl command k data).view id = e.view id := by
  simp [view, pushControl, cellsOf, h.symm]

theorem view_removeStream_self : (e.removeStream id).view id = (e.view id).remove := by
  unfold removeStream View.remove
  cases h : e.streams[id]? with
  | none | some => simp [view, h]

theorem view_removeStream_of_ne (h : id ≠ k) : (e.removeStream k).view id = e.view id := by
  unfold removeStream
  split
  · rfl
  · simp [view, Std.TreeMap.getElem?_erase, h, h.symm]

theorem view_closeStream_self : (e.closeStream id).view id = (e.view id).close := by
  rw [View.close, ← view_removeStream_self]
  simp [closeStream, view]

theorem view_closeStream_of_ne (h : id ≠ k) : (e.closeStream k).view id = e.view id := by
  rw [← view_removeStream_of_ne e h]
  simp [closeStream, view, h]

theorem view_resetStream_self :
    (e.resetStream id).view id = (e.view id).close.control ⟨.sessionReset, id, []⟩ := by
  rw [resetStream, view_pushControl_self, view_closeStream_self]

theorem view_resetStream_of_ne (h : id ≠ k) : (e.resetStream k).view id = e.view id := by
  rw [resetStream, view_pushControl_of_ne _ _ _ h, view_closeStream_of_ne _ h]

theorem view_retireStream_self :
    (e.retireStream id).view id = { (e.view id).close with retired := True } := by
  rw [← view_closeStream_self]
  simp [retireStream, view]

theorem view_retireStream_of_ne (h : id ≠ k) : (e.retireStream k).view id = e.view id := by
  rw [← view_closeStream_of_ne e h]
  simp [retireStream, view, h]

/-- A pass over distinct ids changes the view of each listed id once. -/
theorem view_foldl {f : Endpoint → ℕ → Endpoint} {g : View → View}
    (hself : ∀ e : Endpoint, (f e id).view id = g (e.view id))
    (hother : ∀ (e : Endpoint) k, id ≠ k → (f e k).view id = e.view id) (ids : List ℕ) (hids : ids.Nodup) :
    (ids.foldl f e).view id = if id ∈ ids then g (e.view id) else e.view id := by
  induction ids generalizing e with
  | nil => simp
  | cons k ids ih =>
    obtain ⟨hk, hids⟩ := List.nodup_cons.mp hids
    rw [List.foldl_cons, ih _ hids]
    by_cases h : id = k
    · subst h
      simp [hk, hself]
    · simp [h, hother e k h]

lemma nodup_filter_keys (p : ℕ × Stream → Bool) :
    ((e.streams.toList.filter p).map Prod.fst).Nodup := by
  rw [List.nodup_iff_pairwise_ne, List.pairwise_map]
  refine (Std.TreeMap.distinct_keys_toList.filter p).imp fun hne => ?_
  simpa using hne

theorem mem_retiring : id ∈ e.retiring ↔ ∃ s, e.streams[id]? = some s ∧ s.retirable = true := by
  simp only [retiring, List.mem_map, List.mem_filter, Prod.exists, exists_and_right,
    exists_eq_right, Std.TreeMap.mem_toList_iff_getElem?_eq_some]

theorem mem_cancelled : id ∈ e.cancelled ↔
    ∃ s, e.streams[id]? = some s ∧ s.reply = true ∧ (e.workers id).replyClosed = true := by
  simp only [cancelled, List.mem_map, List.mem_filter, Prod.exists, exists_and_right,
    exists_eq_right, Std.TreeMap.mem_toList_iff_getElem?_eq_some, Bool.and_eq_true]

theorem view_retire : e.retire.view id =
    if id ∈ e.retiring then { (e.view id).close with retired := True } else e.view id :=
  view_foldl e (f := retireStream) (g := fun v => { v.close with retired := True })
    (fun e => view_retireStream_self e) (fun e _ h => view_retireStream_of_ne e h) _
    (nodup_filter_keys e _)

theorem view_cancel : e.cancel.view id =
    if id ∈ e.cancelled then (e.view id).close.control ⟨.sessionReset, id, []⟩ else e.view id :=
  view_foldl e (f := resetStream) (g := fun v => v.close.control ⟨.sessionReset, id, []⟩)
    (fun e => view_resetStream_self e) (fun e _ h => view_resetStream_of_ne e h) _
    (nodup_filter_keys e _)

end Endpoint

/-- The commands that carry a stream's data, acknowledgements and end. -/
def streamCommand : CellCommand → Bool
  | .data | .dataAck | .end => true
  | _ => false

/-- The commands of the session itself. -/
def sessionCommand : CellCommand → Bool
  | .dummy | .sessionFinish | .sessionFinished => true
  | _ => false

lemma streamCommand_of_session {c : CellCommand} (h : sessionCommand c = true) :
    streamCommand c = false := by
  cases c <;> first | rfl | cases h

/-- Conditions on two kinds of steps: a turn of the stream in the round robin,
and a failure report for a stream that is no longer in the table. -/
structure StreamGuard where
  serve : View → Prop
  lateFailure : View → Prop

def StreamGuard.any : StreamGuard := ⟨fun _ => True, fun _ => True⟩

/-- What one step of an endpoint can do to a stream. The last three are about
the cells of the session itself, which have the id zero. -/
inductive StreamStep (G : StreamGuard) (client : Bool) (id : ℕ) (v : View) : View → Prop
  | worker (w : Workers) (events : List Event) (h : v.workers.Steps id w events) :
      StreamStep G client id v { v with workers := w, events := v.events ++ events }
  | dialed (ok : Bool) :
      StreamStep G client id v { v with events := v.events ++ [.connected id ok] }
  | skipped (hc : client = false) (hv : ¬ v.opened) :
      StreamStep G client id v { v with opened := True }
  | requested (target : Bytes) (hc : client = true) (hv : ¬ v.opened) :
      StreamStep G client id v
        ({ v.attach .requested with opened := True }.control ⟨.sessionOpen, id, target⟩)
  | control (c : SessionCell) (rest : List SessionCell) (h : v.controls = c :: rest) :
      StreamStep G client id v { v with controls := rest, sent := v.sent ++ [c] }
  | served (s s' : Stream) (c : SessionCell) (rx : Channel Bytes) (hs : v.stream = some s)
      (hg : G.serve v) (h : s.Serves id v.workers.outgoing c s' rx) :
      StreamStep G client id v { v with
        stream := some s', workers := { v.workers with outgoing := rx }, sent := v.sent ++ [c] }
  | retired (s : Stream) (hs : v.stream = some s) (h : s.retirable = true) :
      StreamStep G client id v { v.close with retired := True }
  | cancelled (s : Stream) (hs : v.stream = some s) (hr : s.reply = true) :
      StreamStep G client id v (v.close.control ⟨.sessionReset, id, []⟩)
  | written (n : ℕ) (rest : List Event) (s : Stream) (he : v.events = .written id n :: rest)
      (hs : v.stream = some s) (hn : n = succ32 s.written) (hle : n ≤ s.received) :
      StreamStep G client id v { v with
        events := rest, stream := some { s with written := n, ack := some n } }
  | writtenLate (n : ℕ) (rest : List Event) (he : v.events = .written id n :: rest)
      (hs : v.stream = none) : StreamStep G client id v { v with events := rest }
  | connected (rest : List Event) (hc : client = false) (he : v.events = .connected id true :: rest)
      (hcon : v.connecting) :
      StreamStep G client id v
        ({ v.attach .attached with connecting := False, events := rest }.control
          ⟨.sessionOpened, id, []⟩)
  | connectFailed (rest : List Event) (hc : client = false)
      (he : v.events = .connected id false :: rest) (hcon : v.connecting) :
      StreamStep G client id v
        ({ v with connecting := False, events := rest }.control ⟨.sessionRefused, id, [1]⟩)
  | connectLate (ok : Bool) (rest : List Event) (he : v.events = .connected id ok :: rest)
      (hcon : ¬ v.connecting) : StreamStep G client id v { v with events := rest }
  | failed (rest : List Event) (s : Stream) (he : v.events = .failed id :: rest)
      (hs : v.stream = some s) :
      StreamStep G client id v
        ({ v with events := rest }.close.control ⟨.sessionReset, id, []⟩)
  | failedLate (rest : List Event) (he : v.events = .failed id :: rest) (hs : v.stream = none)
      (hg : G.lateFailure v) : StreamStep G client id v { v with events := rest }
  | ignored (c : SessionCell) (hv : v.closed)
      (hc : Endpoint.lateCommand c.command = true) : StreamStep G client id v (v.receive c)
  | openAccepted (c : SessionCell) (hcmd : c.command = .sessionOpen) (hc : client = false)
      (hv : ¬ v.opened) :
      StreamStep G client id v { v.receive c with opened := True, connecting := True }
  | openRefused (c : SessionCell) (hcmd : c.command = .sessionOpen) (hc : client = false)
      (hv : ¬ v.opened) :
      StreamStep G client id v
        ({ v.receive c with opened := True }.control ⟨.sessionRefused, id, [1]⟩)
  | openedReady (c : SessionCell) (s : Stream) (hcmd : c.command = .sessionOpened)
      (hc : client = true) (hs : v.stream = some s) (hready : s.ready = false) :
      StreamStep G client id v { v.receive c with
        stream := some { s with ready := true, reply := false, application := false } }
  | openedLate (c : SessionCell) (s : Stream) (hcmd : c.command = .sessionOpened)
      (hc : client = true) (hs : v.stream = some s) (hready : s.ready = false) :
      StreamStep G client id v ((v.receive c).close.control ⟨.sessionReset, id, []⟩)
  | refused (c : SessionCell) (s : Stream) (hcmd : c.command = .sessionRefused)
      (hc : client = true) (hs : v.stream = some s) (hready : s.ready = false) :
      StreamStep G client id v (v.receive c).close
  | data (c : SessionCell) (s : Stream) (w : Workers) (hcmd : c.command = .data)
      (hs : v.stream = some s) (hready : s.ready = true) (hend : s.receivedEnd = false)
      (hdata : c.data ≠ []) (hcredit : sub32 s.received s.written < WINDOW_CELLS)
      (hcount : s.received + 1 < U32_SIZE) (hw : v.workers.deliver (some c.data) = .ok w) :
      StreamStep G client id v { v.receive c with
        stream := some { s with received := s.received + 1 }, workers := w }
  | acked (c : SessionCell) (s : Stream) (window : SendWindow) (hcmd : c.command = .dataAck)
      (hs : v.stream = some s) (hready : s.ready = true)
      (hw : s.window.acknowledge c.data = .ok window) :
      StreamStep G client id v { v.receive c with stream := some { s with window := window } }
  | ended (c : SessionCell) (s : Stream) (w : Workers) (hcmd : c.command = .end)
      (hs : v.stream = some s) (hready : s.ready = true) (hend : s.receivedEnd = false)
      (hw : v.workers.deliver none = .ok w) :
      StreamStep G client id v { v.receive c with
        stream := some { s with receivedEnd := true }, workers := w }
  | reset (c : SessionCell) (hcmd : c.command = .sessionReset) (hv : v.opened) :
      StreamStep G client id v { (v.receive c).close with connecting := False }
  | sessionQueued (c : SessionCell) (hid : id = 0) (hc : sessionCommand c.command = true) :
      StreamStep G client id v (v.control c)
  | sessionSent (c : SessionCell) (hid : id = 0) (hc : sessionCommand c.command = true) :
      StreamStep G client id v { v with sent := v.sent ++ [c] }
  | sessionReceived (c : SessionCell) (hid : id = 0) (hc : sessionCommand c.command = true) :
      StreamStep G client id v (v.receive c)

end AnonGuard
