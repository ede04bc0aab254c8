import AnonGuard.IdLedger
import AnonGuard.SessionStep
import AnonGuard.SessionView
import AnonGuard.Transition

/-!
# The limits of a session endpoint

Whatever the peer sends and in whatever order the events come, the tables of an
endpoint stay within their limits. The stream ids move as an `IdLedger` allows.
The queue of controls is checked at the head of the loop, and one iteration adds
to it at most one reset for each stream.
-/
namespace AnonGuard

/-- The id of a connect task's report. -/
def Event.report : Event → Option ℕ
  | written _ _ => none
  | connected id _ => some id
  | failed _ => none

namespace Endpoint

/-- The stream ids of an endpoint, by what has become of them. -/
def ledger (e : Endpoint) : IdLedger where
  opener := e.client
  live := e.streams.keys.toFinset
  connecting := e.connecting
  closed := e.closed
  tasks := e.connectTasks
  dialing := e.dialing
  reports := e.events.filterMap Event.report
  lastId := e.lastId

abbrev IdMoves : IdLedger → IdLedger → Prop := IdLedger.Moves MAX_STREAMS MAX_IDS

variable {e e' : Endpoint} {id : ℕ} {now : ℕ} {c : SessionCell}

lemma mem_live : id ∈ e.ledger.live ↔ id ∈ e.streams := by
  rw [ledger, List.mem_toFinset, Std.TreeMap.mem_keys]

lemma card_live : e.ledger.live.card = e.streams.size := by
  rw [ledger, List.toFinset_card_of_nodup Std.TreeMap.nodup_keys, Std.TreeMap.length_keys]

lemma mem_live_of_getElem {s : Stream} (hs : e.streams[id]? = some s) :
    id ∈ e.ledger.live := by
  rw [mem_live, Std.TreeMap.mem_iff_isSome_getElem?, hs]
  rfl

lemma keys_insert (m : Std.TreeMap ℕ Stream) (id : ℕ) (s : Stream) :
    (m.insert id s).keys.toFinset = insert id m.keys.toFinset := by
  ext k
  simp only [List.mem_toFinset, Std.TreeMap.mem_keys, Std.TreeMap.mem_insert, Finset.mem_insert,
    Std.LawfulEqCmp.compare_eq_iff_eq]
  rw [eq_comm]

lemma keys_erase (m : Std.TreeMap ℕ Stream) (id : ℕ) :
    (m.erase id).keys.toFinset = m.keys.toFinset.erase id := by
  ext k
  simp only [List.mem_toFinset, Std.TreeMap.mem_keys, Std.TreeMap.mem_erase, Finset.mem_erase,
    ne_eq, Std.LawfulEqCmp.compare_eq_iff_eq]
  rw [eq_comm]

/-! How the operations on streams move the ids. -/

lemma ledger_setStream (id : ℕ) (s : Stream) (w : Workers) :
    (e.setStream id s w).ledger = { e.ledger with live := insert id e.ledger.live } := by
  simp only [ledger, setStream, keys_insert]

lemma ledger_pushControl (command : CellCommand) (id : ℕ) (data : Bytes) :
    (e.pushControl command id data).ledger = e.ledger := rfl

lemma ledger_setStream_of_live {s₀ : Stream} (hs : e.streams[id]? = some s₀) (s : Stream)
    (w : Workers) : (e.setStream id s w).ledger = e.ledger := by
  rw [ledger_setStream, Finset.insert_eq_of_mem (mem_live_of_getElem hs)]

lemma ledger_removeStream (id : ℕ) :
    (e.removeStream id).ledger = { e.ledger with live := e.ledger.live.erase id } := by
  unfold removeStream
  split
  · rename_i hs
    have hnot : id ∉ e.ledger.live := by
      rw [mem_live, Std.TreeMap.mem_iff_isSome_getElem?, hs]
      simp
    rw [Finset.erase_eq_of_notMem hnot]
  · simp only [ledger, keys_erase]

lemma ledger_closeStream (id : ℕ) :
    (e.closeStream id).ledger = { e.ledger with
      live := e.ledger.live.erase id, closed := insert id e.ledger.closed } := by
  have h : (e.closeStream id).ledger = { (e.removeStream id).ledger with
      closed := insert id (e.removeStream id).ledger.closed } := rfl
  rw [h, ledger_removeStream]

lemma ledger_resetStream (id : ℕ) : (e.resetStream id).ledger = (e.closeStream id).ledger := rfl

lemma ledger_retireStream (id : ℕ) : (e.retireStream id).ledger = (e.closeStream id).ledger := rfl

lemma closes {s : Stream} (hs : e.streams[id]? = some s) :
    IdMoves e.ledger (e.closeStream id).ledger := by
  rw [ledger_closeStream]
  exact .single (.close id (mem_live_of_getElem hs))

lemma ledger_acceptReset (id : ℕ) :
    (e.acceptReset id).ledger = { e.ledger with
      live := e.ledger.live.erase id
      connecting := e.ledger.connecting.erase id
      closed := insert id e.ledger.closed
      tasks := e.ledger.tasks.erase id } := by
  have h : (e.acceptReset id).ledger = { (e.closeStream id).ledger with
      connecting := (e.closeStream id).ledger.connecting.erase id
      tasks := (e.closeStream id).ledger.tasks.erase id } := rfl
  rw [h, ledger_closeStream]

/-- A pass over distinct live ids closes them one after another. -/
lemma closes_foldl {f : Endpoint → ℕ → Endpoint}
    (hf : ∀ e id, (f e id).ledger = (e.closeStream id).ledger) {ids : List ℕ}
    (hnodup : ids.Nodup) (hlive : ∀ id ∈ ids, id ∈ e.ledger.live) :
    IdMoves e.ledger (ids.foldl f e).ledger := by
  induction ids generalizing e with
  | nil => exact .refl
  | cons id ids ih =>
    obtain ⟨hnot, hnodup⟩ := List.nodup_cons.mp hnodup
    have hledger : (f e id).ledger = { e.ledger with
        live := e.ledger.live.erase id, closed := insert id e.ledger.closed } := by
      rw [hf, ledger_closeStream]
    have hmove : IdMoves e.ledger (f e id).ledger := by
      rw [hledger]
      exact .single (.close id (hlive id List.mem_cons_self))
    refine hmove.trans (ih hnodup fun k hk => ?_)
    rw [hledger]
    exact Finset.mem_erase.mpr
      ⟨fun heq => hnot (heq ▸ hk), hlive k (List.mem_cons_of_mem id hk)⟩

lemma live_of_filter_keys (p : ℕ × Stream → Bool) :
    ∀ id ∈ (e.streams.toList.filter p).map Prod.fst, id ∈ e.ledger.live := by
  intro id hid
  obtain ⟨⟨k, s⟩, hks, rfl⟩ := List.mem_map.mp hid
  exact mem_live_of_getElem
    (Std.TreeMap.mem_toList_iff_getElem?_eq_some.mp (List.mem_filter.mp hks).1)

lemma retire_moves : IdMoves e.ledger e.retire.ledger :=
  closes_foldl (fun _ => ledger_retireStream) (nodup_filter_keys e _) (live_of_filter_keys _)

lemma cancel_moves : IdMoves e.ledger e.cancel.ledger :=
  closes_foldl (fun _ => ledger_resetStream) (nodup_filter_keys e _) (live_of_filter_keys _)

/-! Each branch of the loop moves the ids as a ledger allows. -/

lemma ledger_announceFinish (now : ℕ) : (e.announceFinish now).ledger = e.ledger := by
  unfold announceFinish
  split_ifs <;> rfl

lemma ledger_select (h : e.select now = .ok (c, e')) :
    e'.ledger = e.ledger := by
  obtain ⟨rest, -, rfl⟩ | ⟨k, s, s', rx, -, -, -, hs, -, rfl⟩ | ⟨-, -, rfl⟩ := select_eq_ok h
  · rfl
  · exact ledger_setStream_of_live hs s' { e.workers k with outgoing := rx }
  · rfl

lemma ledger_toSelect (now : ℕ) : (e.toSelect now).ledger = e.ledger :=
  ledger_announceFinish now

lemma tick_moves {t : Tick} (h : e.tick t = .ok e') : IdMoves e.ledger e'.ledger := by
  cases tick_eq_ok h with
  | last => exact .refl
  | cell c e₁ time _ hsel =>
    have hledger : (e₁.afterCell c time t.interval).ledger = e.ledger :=
      (ledger_select hsel).trans (ledger_toSelect t.now)
    rw [← hledger]
    exact retire_moves.trans cancel_moves

lemma room_of_request {host : String} {port : UInt16}
    (h : e.request now host port = .ok e') : e.streams.size < MAX_STREAMS ∧ e.lastId < MAX_IDS := by
  unfold request at h
  split_ifs at h with hfull
  rw [not_or, not_le, not_le] at hfull
  exact hfull

lemma request_moves {host : String} {port : UInt16} (hc : e.client = true)
    (h : e.request now host port = .ok e') : IdMoves e.ledger e'.ledger := by
  obtain ⟨hroom, hlimit⟩ := room_of_request h
  obtain ⟨target, rfl⟩ := request_eq_ok h
  have hledger : ((({ e with lastId := e.lastId + 1, activity := now } : Endpoint).setStream
      (e.lastId + 1) .requested .attached).pushControl .sessionOpen (e.lastId + 1) target).ledger =
      { e.ledger with live := insert (e.lastId + 1) e.ledger.live, lastId := e.lastId + 1 } := by
    rw [ledger_pushControl, ledger_setStream]
    rfl
  rw [hledger]
  exact .single (.create (e.lastId + 1) hc (Nat.lt_succ_self _) hlimit (card_live ▸ hroom))

lemma event_moves {x : Event} {rest : List Event} (he : e.events = x :: rest)
    (h : Handles { e with time := now, events := rest } x e') : IdMoves e.ledger e'.ledger := by
  have hreports : e.ledger.reports = x.report.toList ++ rest.filterMap Event.report := by
    rw [ledger, he]
    cases x <;> rfl
  have hskip (hx : x.report = none) :
      e.ledger = ({ e with time := now, events := rest } : Endpoint).ledger := by
    rw [hx] at hreports
    simp only [ledger] at hreports ⊢
    rw [hreports]
    rfl
  cases h with
  | written id count s hs =>
    rw [ledger_setStream_of_live hs, ← hskip rfl]
  | writtenLate | failedLate => rw [← hskip rfl]
  | connected id hc hcon =>
    have hledger : ((({ e with
          time := now, events := rest, connecting := e.connecting.erase id
          connectTasks := e.connectTasks.erase id } : Endpoint).setStream id .attached
          .attached).pushControl .sessionOpened id []).ledger = { e.ledger with
        live := insert id e.ledger.live
        connecting := e.ledger.connecting.erase id
        tasks := e.ledger.tasks.erase id
        reports := rest.filterMap Event.report } := by
      rw [ledger_pushControl, ledger_setStream]
      rfl
    rw [hledger]
    exact .single (.connect id _ hreports hcon)
  | connectFailed id => exact .single (.giveUp id _ hreports)
  | connectLate id ok hc hcon =>
    -- the id has been reset since, so that there is nothing left to give up
    have hledger : ({ e with
          time := now, events := rest
          connectTasks := e.connectTasks.erase id } : Endpoint).ledger = { e.ledger with
        connecting := e.ledger.connecting.erase id
        tasks := e.ledger.tasks.erase id
        reports := rest.filterMap Event.report } := by
      have hcon : id ∉ e.connecting := hcon
      simp only [ledger, Finset.erase_eq_of_notMem hcon]
    rw [hledger]
    exact .single (.giveUp id _ hreports)
  | failed id s hs =>
    rw [hskip rfl, ledger_resetStream]
    exact closes hs

lemma frame_moves (h : Dispatches e now c e') :
    IdMoves e.ledger e'.ledger := by
  cases h with
  | late | dummy | finish | finished => exact .refl
  | openRefused hcmd hc hlast hmax => exact .single (.refuse c.id hlast hmax)
  | openAccepted hcmd hc hlast hmax hroom =>
    exact .single (.dial c.id hc hlast hmax (card_live ▸ hroom))
  | opened _ _ _ hs | acked _ _ _ hs =>
    rw [ledger_setStream_of_live hs]
  | openedLate s hcmd hc hs =>
    rw [ledger_resetStream]
    exact closes hs
  | refused s hcmd hc hs => exact closes hs
  | data s w hcmd hs =>
    have hledger := ledger_setStream_of_live hs { s with received := s.received + 1 } w
    exact hledger ▸ .refl
  | ended s w hcmd hs =>
    have hledger := ledger_setStream_of_live hs { s with receivedEnd := true } w
    exact hledger ▸ .refl
  | reset hcmd hpos hlast =>
    rw [ledger_acceptReset]
    exact .single (.reset c.id hlast)

lemma report_of_steps {w w' : Workers} {events : List Event}
    (h : w.Steps id w' events) : events.filterMap Event.report = [] := by
  cases h <;> rfl

theorem step_moves {i : SessionInput} (h : e.step i = some e') : IdMoves e.ledger e'.ledger := by
  cases advances_of_step h with
  | failed | requestRefused => exact .refl
  | tick t _ _ _ htick => exact tick_moves (e := { e with time := t.now }) htick
  | requested now host port _ _ hc _ hreq => exact request_moves (e := { e with time := now }) hc hreq
  | event now x rest _ he _ _ hx => exact event_moves he hx
  | frame now budget c _ _ _ hd => exact frame_moves (e := e.logFrame now budget c) hd
  | worker id i w events hw =>
    have hledger : ({ e with
        workers := Function.update e.workers id w
        events := e.events ++ events } : Endpoint).ledger = e.ledger := by
      simp only [ledger, List.filterMap_append, report_of_steps hw, List.append_nil]
    rw [hledger]
  | connect id ok hd =>
    have hledger : ({ e with
        dialing := e.dialing.erase id
        events := e.events ++ [.connected id ok] } : Endpoint).ledger = { e.ledger with
          dialing := e.ledger.dialing.erase id, reports := e.ledger.reports ++ [id] } := by
      simp [ledger, Event.report]
    rw [hledger]
    exact .single (.report id hd)

/-! What one iteration adds to the queue of controls. -/

lemma live_retire_subset : e.retire.ledger.live ⊆ e.ledger.live := by
  unfold retire
  generalize e.retiring = ids
  induction ids generalizing e with
  | nil => exact fun _ h => h
  | cons id ids ih =>
    refine (ih (e := e.retireStream id)).trans ?_
    rw [ledger_retireStream, ledger_closeStream]
    exact Finset.erase_subset _ _

lemma size_retire_le : e.retire.streams.size ≤ e.streams.size := by
  rw [← card_live, ← card_live]
  exact Finset.card_le_card live_retire_subset

lemma controls_retire : e.retire.controls = e.controls := by
  obtain ⟨_, _, _, _, h⟩ := retire_eq (e := e)
  rw [h]

lemma controls_cancel_le : e.cancel.controls.length ≤ e.controls.length + e.streams.size := by
  obtain ⟨_, _, _, resets, h, -, hlen⟩ := cancel_eq (e := e)
  have hcancelled : e.cancelled.length ≤ e.streams.size := by
    rw [cancelled, List.length_map, ← Std.TreeMap.length_toList]
    exact List.length_filter_le _ _
  rw [h]
  dsimp only
  rw [List.length_append, hlen]
  exact Nat.add_le_add_left hcancelled _

lemma controls_closeStream (id : ℕ) : (e.closeStream id).controls = e.controls := by
  obtain ⟨_, _, _, h⟩ := closeStream_eq (e := e) id
  rw [h]

lemma controls_resetStream (id : ℕ) :
    (e.resetStream id).controls.length = e.controls.length + 1 := by
  obtain ⟨_, _, _, h⟩ := resetStream_eq (e := e) id
  rw [h]
  exact List.length_append

/-- The client announces its finish only when no stream is left to be reset. -/
lemma controls_announceFinish_le (now : ℕ) :
    (e.announceFinish now).controls.length + e.streams.size ≤
      e.controls.length + max 1 e.streams.size := by
  unfold announceFinish
  split_ifs with h
  · have hidle : e.streams.isEmpty = true := by
      have := h.1
      simp only [mayFinish, isIdle, Bool.and_eq_true] at this
      exact this.1.1.1
    have hsize : e.streams.size = 0 := by
      rw [Std.TreeMap.isEmpty_eq_size_eq_zero] at hidle
      exact beq_iff_eq.mp hidle
    simp [pushControl, hsize]
  · omega

lemma tick_controls {t : Tick} (h : e.tick t = .ok e') :
    e'.controls.length ≤ e.controls.length + max 1 e.streams.size := by
  cases tick_eq_ok h with
  | last => exact Nat.le_add_right _ _
  | cell c e₁ time _ hsel =>
    have hsize : e₁.streams.size = e.streams.size := by
      rw [← card_live, ← card_live, ledger_select hsel, ledger_toSelect]
    have hselect : e₁.controls.length ≤ (e.announceFinish t.now).controls.length := by
      obtain ⟨_, _, rest, _, rfl, hrest⟩ := select_frame hsel
      rcases hrest with hrest | hrest
      · exact hrest ▸ le_refl _
      · have hcons : (e.announceFinish t.now).controls = c :: rest := hrest
        rw [hcons]
        exact Nat.le_succ _
    calc (e₁.afterCell c time t.interval).retire.cancel.controls.length
        ≤ (e₁.afterCell c time t.interval).retire.controls.length +
            (e₁.afterCell c time t.interval).retire.streams.size := controls_cancel_le
      _ ≤ e₁.controls.length + e₁.streams.size := by
          rw [controls_retire]
          exact Nat.add_le_add_left size_retire_le _
      _ ≤ (e.announceFinish t.now).controls.length + e.streams.size := by
          rw [hsize]
          exact Nat.add_le_add_right hselect _
      _ ≤ e.controls.length + max 1 e.streams.size := controls_announceFinish_le t.now

lemma event_controls {x : Event} (h : Handles e x e') :
    e'.controls.length ≤ e.controls.length + 1 := by
  cases h with
  | written | writtenLate | connectLate | failedLate => exact Nat.le_succ _
  | connected | connectFailed => exact List.length_append.le
  | failed id => exact (controls_resetStream id).le

lemma frame_controls (h : Dispatches e now c e') :
    e'.controls.length ≤ e.controls.length + 1 := by
  cases h with
  | late | dummy | openAccepted | opened | data | acked | ended | finish | finished =>
    exact Nat.le_succ _
  | openRefused => exact List.length_append.le
  | openedLate => exact (controls_resetStream c.id).le
  | refused =>
    rw [controls_closeStream]
    exact Nat.le_succ _
  | reset =>
    have hcontrols : (e.acceptReset c.id).controls = e.controls := controls_closeStream c.id
    rw [hcontrols]
    exact Nat.le_succ _

/-- A step adds to a queue that has passed the check at the head of the loop, and it
adds no more than there are streams, or one. -/
theorem step_controls {i : SessionInput} (h : e.step i = some e') :
    e'.controls.length ≤ e.controls.length ∨
      (e.headFault = none ∧ e'.controls.length ≤ e.controls.length + max 1 e.streams.size) := by
  have hone : e.controls.length + 1 ≤ e.controls.length + max 1 e.streams.size :=
    Nat.add_le_add_left (le_max_left _ _) _
  cases advances_of_step h with
  | failed | requestRefused | worker | connect => exact .inl (le_refl _)
  | tick t _ _ hhead htick => exact .inr ⟨hhead, tick_controls (e := { e with time := t.now }) htick⟩
  | requested now host port _ _ _ _ hreq hhead =>
    obtain ⟨target, rfl⟩ := request_eq_ok hreq
    exact .inr ⟨hhead, List.length_append.le.trans hone⟩
  | event now x rest _ he _ hhead hx => exact .inr ⟨hhead, (event_controls hx).trans hone⟩
  | frame now budget c _ _ hhead hd => exact .inr ⟨hhead, (frame_controls hd).trans hone⟩

lemma controls_of_headFault (h : e.headFault = none) : e.controls.length ≤ MAX_CONTROLS := by
  unfold headFault at h
  split_ifs at h with _ hcontrols
  exact not_lt.mp hcontrols

/-- A stream id that is live or waits for its connection. -/
def InUse (e : Endpoint) (id : ℕ) : Prop := id ∈ e.streams ∨ id ∈ e.connecting

lemma inUse_ledger : e.ledger.InUse id ↔ e.InUse id := or_congr mem_live Iff.rfl

/-- The connect tasks of an id that are still to report, and its unread reports. -/
def pendingConnects (e : Endpoint) (id : ℕ) : ℕ :=
  (if id ∈ e.dialing then 1 else 0) + (e.events.filterMap Event.report).count id

/-- The limits of one endpoint. -/
structure WithinLimits (e : Endpoint) : Prop where
  streams : e.streams.size + e.connecting.card ≤ MAX_STREAMS
  ids : e.lastId ≤ MAX_IDS
  live_le : ∀ id ∈ e.streams, id ≤ e.lastId
  connecting_le : ∀ id ∈ e.connecting, id ≤ e.lastId
  closed_le : ∀ id ∈ e.closed, id ≤ e.lastId
  live_connecting : ∀ id ∈ e.streams, id ∉ e.connecting
  live_closed : ∀ id ∈ e.streams, id ∉ e.closed
  connecting_closed : ∀ id ∈ e.connecting, id ∉ e.closed
  connectTasks : e.connectTasks = e.connecting
  oneTask : ∀ id ∈ e.connecting, e.pendingConnects id = 1
  controls : e.controls.length ≤ MAX_CONTROLS + MAX_STREAMS

abbrev Accounted (e : Endpoint) : Prop := e.ledger.Sound MAX_STREAMS MAX_IDS

lemma size_le_of_accounted (h : e.Accounted) : e.streams.size ≤ MAX_STREAMS := by
  have hroom := h.room
  rw [card_live] at hroom
  exact (Nat.le_add_right _ _).trans hroom

lemma accounted_new (client : Bool) (profile : Profile) (sequenceNo interval : ℕ) :
    (new client profile sequenceNo interval).Accounted where
  room := Nat.zero_le _
  limit := Nat.zero_le _
  live id h := absurd h (by simp [ledger, new])
  connecting id h := absurd h (Finset.notMem_empty id)
  closed id h := absurd h (Finset.notMem_empty id)
  dialing id h := absurd h (Finset.notMem_empty id)
  reports id h := absurd h List.not_mem_nil
  tasks := rfl
  opener _ := rfl

lemma withinLimits_of_accounted (h : e.Accounted)
    (hcontrols : e.controls.length ≤ MAX_CONTROLS + MAX_STREAMS) : e.WithinLimits where
  streams := by
    rw [← card_live]
    exact h.room
  ids := h.limit
  live_le id hid := (h.live id (mem_live.mpr hid)).1
  connecting_le id hid := (h.connecting id hid).1
  closed_le id hid := h.closed id hid
  live_connecting id hid := (h.live id (mem_live.mpr hid)).2.1
  live_closed id hid := (h.live id (mem_live.mpr hid)).2.2
  connecting_closed id hid := (h.connecting id hid).2.1
  connectTasks := h.tasks
  oneTask id hid := (h.connecting id hid).2.2
  controls := hcontrols

lemma withinLimits_of_run {client : Bool} {profile : Profile} {sequenceNo interval : ℕ}
    (h : Run step (new client profile sequenceNo interval) e) :
    e.Accounted ∧ e.controls.length ≤ MAX_CONTROLS + MAX_STREAMS := by
  refine h.invariant
    (I := fun e => e.Accounted ∧ e.controls.length ≤ MAX_CONTROLS + MAX_STREAMS)
    ⟨accounted_new client profile sequenceNo interval, Nat.zero_le _⟩ ?_
  rintro e i e' ⟨hacc, hcontrols⟩ - hstep
  refine ⟨hacc.moves (step_moves hstep), ?_⟩
  rcases step_controls hstep with hle | ⟨hhead, hle⟩
  · exact hle.trans hcontrols
  · have hhead := controls_of_headFault hhead
    have hsize := size_le_of_accounted hacc
    have hmax : max 1 e.streams.size ≤ MAX_STREAMS := max_le (by decide) hsize
    omega

lemma precedes_of_run (h : Run step e e') : e.ledger.Precedes e'.ledger := by
  refine h.invariant (I := fun e' => e.ledger.Precedes e'.ledger) (.refl _) ?_
  intro e₁ i e₂ hpre _ hstep
  exact hpre.trans (IdLedger.precedes_of_moves (step_moves hstep))

/-- In every state that an endpoint reaches, whatever its peer sends, its tables are
within their limits. A later state has handed out more ids, and an id that is in use
there and was not in use before is above all of those before. One step adds at most 16
controls, and only to a queue of at most 64. -/
theorem limits_hold (client : Bool) (profile : Profile) (sequenceNo interval : ℕ) {e e' : Endpoint}
    (hrun : Run step (new client profile sequenceNo interval) e) (hlater : Run step e e') :
    e.WithinLimits ∧ e.lastId ≤ e'.lastId ∧
      (∀ id, e'.InUse id → e.InUse id ∨ e.lastId < id) ∧
      (∀ i e'', e.step i = some e'' → e.controls.length < e''.controls.length →
        e.controls.length ≤ MAX_CONTROLS ∧
          e''.controls.length ≤ e.controls.length + MAX_STREAMS) := by
  obtain ⟨hacc, hcontrols⟩ := withinLimits_of_run hrun
  have hpre := precedes_of_run hlater
  refine ⟨withinLimits_of_accounted hacc hcontrols, hpre.lastId, fun id hid => ?_, ?_⟩
  · exact (hpre.inUse id (inUse_ledger.mpr hid)).imp_left inUse_ledger.mp
  · intro i e'' hstep hgrows
    rcases step_controls hstep with hle | ⟨hhead, hle⟩
    · exact absurd hgrows (not_lt.mpr hle)
    · have hmax : max 1 e.streams.size ≤ MAX_STREAMS :=
        max_le (by decide) (size_le_of_accounted hacc)
      exact ⟨controls_of_headFault hhead, hle.trans (Nat.add_le_add_left hmax _)⟩

/-- An exit, and the exit while it connects stream 3. -/
def sampleExit : Endpoint := new false .balanced 0 (millis 40)

def sampleDialing : Endpoint :=
  (runInputs step sampleExit
    [.frame (millis 1) (.ok ⟨.sessionOpen, 3, [1, 97, 0, 80]⟩)]).getD sampleExit

/-- The client resets stream 3, whose connection is reported late, and opens stream 5. -/
def sampleReopened : Endpoint :=
  (runInputs step sampleDialing
    [.frame (millis 2) (.ok ⟨.sessionReset, 3, []⟩), .connect 3 true, .event (millis 3),
      .frame (millis 4) (.ok ⟨.sessionOpen, 5, [1, 97, 0, 80]⟩)]).getD sampleDialing

theorem sampleReopened_limits : sampleDialing.connecting = {3} ∧ sampleReopened.connecting = {5} ∧
    sampleReopened.closed = {3} ∧ sampleReopened.streams.isEmpty = true ∧
    sampleDialing.WithinLimits ∧ sampleDialing.lastId ≤ sampleReopened.lastId := by
  obtain ⟨hdialing, hreopened, hclosed, hlive⟩ :
      sampleDialing.connecting = {3} ∧ sampleReopened.connecting = {5} ∧
        sampleReopened.closed = {3} ∧ sampleReopened.streams.isEmpty = true := by
    decide +kernel
  obtain ⟨hwithin, hlast, -, -⟩ :=
    limits_hold false .balanced 0 (millis 40) (Run.getD_inputs _ : Run step _ sampleDialing)
      (Run.getD_inputs _ : Run step _ sampleReopened)
  exact ⟨hdialing, hreopened, hclosed, hlive, hwithin, hlast⟩

end Endpoint

end AnonGuard
