import AnonGuard.RoundRobin
import AnonGuard.SessionStep
import AnonGuard.SessionView

/-!
# Fairness of the session's schedule

Ticks alternate between preferring a control and preferring a stream, and streams take turns
behind a cursor. So a stream that has something to send is served between two turns of any
other, and a queued control waits for one tick at most.
-/
namespace AnonGuard

/-- The commands that `run` puts into its queue of controls. -/
def queuedCommand : CellCommand → Bool
  | .sessionOpen | .sessionOpened | .sessionRefused | .sessionReset | .sessionFinish => true
  | _ => false

lemma streamCommand_of_queued {c : CellCommand} (h : queuedCommand c = true) :
    streamCommand c = false := by
  cases c <;> first | rfl | cases h

namespace Endpoint
variable {e e' : Endpoint} {now : ℕ} {c : SessionCell} {i : SessionInput} {t : Tick}
  {pushed : List SessionCell}

/-- A step that is not a scheduled cell only adds controls to the queue. -/
structure Queues (e e' : Endpoint) (pushed : List SessionCell) : Prop where
  queued : ∀ c ∈ pushed, queuedCommand c.command = true
  controls : e'.controls = e.controls ++ pushed
  sentLog : e'.sentLog = e.sentLog
  preferControl : e'.preferControl = e.preferControl
  cursor : e'.cursor = e.cursor

lemma Queues.none (hc : e'.controls = e.controls) (hs : e'.sentLog = e.sentLog)
    (hp : e'.preferControl = e.preferControl) (hcursor : e'.cursor = e.cursor) :
    Queues e e' [] :=
  ⟨by simp, by rw [hc, List.append_nil], hs, hp, hcursor⟩

lemma queues_closeStream (id : ℕ) : Queues e (e.closeStream id) [] := by
  obtain ⟨_, _, _, h⟩ := closeStream_eq (e := e) id
  rw [h]
  exact .none rfl rfl rfl rfl

lemma queues_resetStream (id : ℕ) : Queues e (e.resetStream id) [⟨.sessionReset, id, []⟩] := by
  obtain ⟨_, _, _, h⟩ := resetStream_eq (e := e) id
  rw [h]
  exact ⟨by simp [queuedCommand], rfl, rfl, rfl, rfl⟩

lemma queues_of_handles {x : Event} (h : Handles e x e') : ∃ pushed, Queues e e' pushed := by
  cases h with
  | written | writtenLate | connectLate | failedLate => exact ⟨_, .none rfl rfl rfl rfl⟩
  | connected | connectFailed => exact ⟨_, by simp [queuedCommand], rfl, rfl, rfl, rfl⟩
  | failed id => exact ⟨_, queues_resetStream id⟩

lemma queues_of_dispatches (h : Dispatches e now c e') :
    ∃ pushed, Queues e e' pushed := by
  cases h with
  | late | dummy | openAccepted | opened | data | acked | ended | finish | finished =>
    exact ⟨_, .none rfl rfl rfl rfl⟩
  | openRefused => exact ⟨_, by simp [queuedCommand], rfl, rfl, rfl, rfl⟩
  | openedLate => exact ⟨_, queues_resetStream c.id⟩
  | refused => exact ⟨_, queues_closeStream c.id⟩
  | reset =>
    have hclose := queues_closeStream (e := e) c.id
    exact ⟨_, hclose.queued, hclose.controls, hclose.sentLog, hclose.preferControl, hclose.cursor⟩

/-- The source of a scheduled cell. A control is the head of the queue; a stream is the first in
the rotation that has something to send, and its turn moves the cursor. -/
inductive Source (e : Endpoint) (c : SessionCell) (e' : Endpoint) : Prop
  | control (rest resets : List SessionCell) (hhead : e.controls = c :: rest)
      (hresets : ∀ d ∈ resets, queuedCommand d.command = true)
      (hcontrols : e'.controls = rest ++ resets) (hcursor : e'.cursor = e.cursor)
  | stream (resets : List SessionCell) (hturn : ¬ (e.preferControl = true ∧ e.controls ≠ []))
      (hfind : e.rotation.find? e.serviceable = some c.id)
      (hcommand : streamCommand c.command = true)
      (hresets : ∀ d ∈ resets, queuedCommand d.command = true)
      (hcontrols : e'.controls = e.controls ++ resets) (hcursor : e'.cursor = c.id)
  | cover (resets : List SessionCell) (hcover : c = ⟨.dummy, 0, []⟩) (hempty : e.controls = [])
      (hresets : ∀ d ∈ resets, queuedCommand d.command = true)
      (hcontrols : e'.controls = resets) (hcursor : e'.cursor = e.cursor)

/-- What a tick that does not end the session does to the schedule. -/
structure Scheduled (e : Endpoint) (now : ℕ) (c : SessionCell) (e' : Endpoint) : Prop where
  sentLog : e'.sentLog = e.sentLog ++ [c]
  preferControl : e'.preferControl = !e.preferControl
  source : Source (e.toSelect now) c e'

lemma streamCommand_of_serves {s s' : Stream} {k : ℕ} {rx rx' : Channel Bytes}
    (h : s.Serves k rx c s' rx') : streamCommand c.command = true := by
  cases h <;> rfl

/-- The two passes after a cell only push resets. -/
lemma queues_passes : ∃ resets, Queues e e.retire.cancel resets := by
  obtain ⟨_, _, _, _, hretire⟩ := retire_eq (e := e)
  obtain ⟨_, _, _, resets, hcancel, hresets, -⟩ := cancel_eq (e := e.retire)
  refine ⟨resets, fun c hc => ?_, ?_, ?_, ?_, ?_⟩
  · rw [hresets c hc]
    rfl
  all_goals rw [hcancel, hretire]

lemma source_of_select {e₁ : Endpoint} (time interval : ℕ)
    (h : e.select now = .ok (c, e₁)) : Source e c (e₁.afterCell c time interval).retire.cancel := by
  obtain ⟨resets, hpasses⟩ := queues_passes (e := e₁.afterCell c time interval)
  obtain ⟨rest, hhead, rfl⟩ | ⟨k, s, s', rx, hturn, -, hfind, -, hserves, rfl⟩ |
    ⟨hempty, hcover, rfl⟩ := select_eq_ok h
  · exact .control rest resets hhead hpasses.queued hpasses.controls hpasses.cursor
  · have hid := id_of_serves hserves
    subst hid
    exact .stream resets hturn hfind (streamCommand_of_serves hserves) hpasses.queued
      hpasses.controls hpasses.cursor
  · refine .cover resets hcover hempty hpasses.queued ?_ hpasses.cursor
    have hcontrols : _ = e₁.controls ++ resets := hpasses.controls
    rw [hcontrols, hempty, List.nil_append]

lemma announceFinish_of_controls (h : e.controls ≠ []) : e.announceFinish now = e := by
  refine if_neg fun hfinish => h ?_
  have hidle := hfinish.1
  simp only [mayFinish, isIdle, Bool.and_eq_true, List.isEmpty_iff] at hidle
  exact hidle.1.2

lemma announceFinish_time (now time : ℕ) :
    { e with time := time }.announceFinish now = { e.announceFinish now with time := time } := by
  by_cases hfinish : e.mayFinish now = true ∧ e.client = true ∧ e.finishing = false
  · have hlater : { e with time := time }.announceFinish now =
        { e with time := time, finishing := true }.pushControl .sessionFinish 0 [] := if_pos hfinish
    have hnow : e.announceFinish now =
        { e with finishing := true }.pushControl .sessionFinish 0 [] := if_pos hfinish
    rw [hlater, hnow]
    rfl
  · have hlater : { e with time := time }.announceFinish now = { e with time := time } :=
      if_neg hfinish
    have hnow : e.announceFinish now = e := if_neg hfinish
    rw [hlater, hnow]

/-- A tick that does not end the session emits a scheduled cell. -/
lemma scheduled_of_step (h : e.step (.clock t) = some e') (hr : e'.result = none) :
    ∃ c, Scheduled e t.now c e' := by
  cases advances_of_step h with
  | failed => cases hr
  | tick _ _ _ _ htick =>
    cases tick_eq_ok htick with
    | last => cases hr
    | cell c e₁ time _ hsel =>
      have htime : { e with time := t.now }.toSelect t.now =
          { e.toSelect t.now with time := t.now } := by
        rw [toSelect, toSelect, announceFinish_time]
      have hframe := cellFrame_of_select time hsel
      obtain ⟨resets, hpasses⟩ := queues_passes (e := e₁.afterCell c time t.interval)
      have hprefer : e₁.preferControl = !e.preferControl := by
        obtain ⟨_, _, _, _, rfl, -⟩ := select_frame hsel
        rfl
      refine ⟨c, hframe.sentLog, hpasses.preferControl.trans hprefer, ?_⟩
      have hsource := source_of_select time t.interval hsel
      rw [htime] at hsource
      cases hsource with
      | control rest resets hhead hresets hcontrols hcursor =>
        exact .control rest resets hhead hresets hcontrols hcursor
      | stream resets hturn hfind hcommand hresets hcontrols hcursor =>
        exact .stream resets hturn hfind hcommand hresets hcontrols hcursor
      | cover resets hcover hempty hresets hcontrols hcursor =>
        exact .cover resets hcover hempty hresets hcontrols hcursor

/-- A tick that ends the session leaves its schedule alone, apart from the exit's last cell, which
comes when the queue is empty. -/
lemma ended_of_step (h : e.step (.clock t) = some e') (hr : e'.result ≠ none) :
    e'.controls = e.controls ∧ e'.cursor = e.cursor ∧
      (e'.sentLog = e.sentLog ∨ e'.sentLog = e.sentLog ++ [⟨.sessionFinished, 0, []⟩]) := by
  cases advances_of_step h with
  | failed => exact ⟨rfl, rfl, .inl rfl⟩
  | tick _ _ hrunning _ htick =>
    cases tick_eq_ok htick with
    | last => exact ⟨rfl, rfl, .inr rfl⟩
    | cell c e₁ time _ hsel => exact absurd ((cellFrame_of_select time hsel).result.trans hrunning) hr

/-- Every other step only adds controls to the queue. -/
lemma queues_of_step (h : e.step i = some e') (hi : ∀ t, i ≠ .clock t) :
    ∃ pushed, Queues e e' pushed := by
  cases advances_of_step h with
  | failed | requestRefused | worker | connect => exact ⟨_, .none rfl rfl rfl rfl⟩
  | tick t => exact absurd rfl (hi t)
  | requested now host port _ _ _ _ hreq =>
    obtain ⟨target, rfl⟩ := request_eq_ok hreq
    exact ⟨_, by simp [queuedCommand], rfl, rfl, rfl, rfl⟩
  | event now x rest _ _ _ _ hx =>
    obtain ⟨pushed, hq⟩ := queues_of_handles hx
    exact ⟨pushed, hq.queued, hq.controls, hq.sentLog, hq.preferControl, hq.cursor⟩
  | frame now budget c _ _ _ hd =>
    obtain ⟨pushed, hq⟩ := queues_of_dispatches hd
    exact ⟨pushed, hq.queued, hq.controls, hq.sentLog, hq.preferControl, hq.cursor⟩

/-- What a step does for the schedule: it adds to the queue, emits a scheduled cell, or ends the
session. -/
inductive Turn (e : Endpoint) : SessionInput → Endpoint → Prop
  | queues {i : SessionInput} {e' : Endpoint} (pushed : List SessionCell)
      (h : Queues e e' pushed) : Turn e i e'
  | scheduled {e' : Endpoint} (t : Tick) (c : SessionCell) (h : Scheduled e t.now c e') :
      Turn e (.clock t) e'
  | ended {e' : Endpoint} (t : Tick) (hcontrols : e'.controls = e.controls)
      (hcursor : e'.cursor = e.cursor) (hsent : e'.sentLog = e.sentLog ∨
        e'.sentLog = e.sentLog ++ [⟨.sessionFinished, 0, []⟩]) : Turn e (.clock t) e'

lemma turn_of_step (h : e.step i = some e') : Turn e i e' := by
  by_cases hi : ∀ t, i ≠ .clock t
  · obtain ⟨pushed, hq⟩ := queues_of_step h hi
    exact .queues pushed hq
  · obtain ⟨t, rfl⟩ := not_forall_not.mp hi
    by_cases hr : e'.result = none
    · obtain ⟨c, hc⟩ := scheduled_of_step h hr
      exact .scheduled t c hc
    · obtain ⟨hcontrols, hcursor, hsent⟩ := ended_of_step h hr
      exact .ended t hcontrols hcursor hsent

/-- The queue in which a tick looks for controls. -/
lemma controls_toSelect (now : ℕ) : ∃ finish, (e.toSelect now).controls = e.controls ++ finish ∧
    ∀ c ∈ finish, queuedCommand c.command = true := by
  unfold toSelect announceFinish
  split_ifs
  · exact ⟨_, rfl, by simp [queuedCommand]⟩
  · exact ⟨[], (List.append_nil _).symm, by simp⟩

/-- The controls that have been emitted or are still queued, in this order. -/
def controlLog (e : Endpoint) : List SessionCell :=
  e.sentLog.filter (fun c => queuedCommand c.command) ++ e.controls

/-- All entries of the queue are controls. -/
def QueueOk (e : Endpoint) : Prop := ∀ c ∈ e.controls, queuedCommand c.command = true

lemma Queues.controlLog (h : Queues e e' pushed) :
    e'.controlLog = e.controlLog ++ pushed := by
  rw [Endpoint.controlLog, Endpoint.controlLog, h.sentLog, h.controls, List.append_assoc]

lemma Queues.queueOk (h : Queues e e' pushed) (hok : e.QueueOk) :
    e'.QueueOk := by
  intro c hc
  rw [h.controls] at hc
  exact (List.mem_append.mp hc).elim (hok c) (h.queued c)

/-- A scheduled cell takes a control from the front of the queue, if any. -/
lemma Scheduled.controlLog (h : Scheduled e now c e')
    (hok : e.QueueOk) : e'.QueueOk ∧ ∃ pushed, e'.controlLog = e.controlLog ++ pushed := by
  obtain ⟨finish, hfinish, hqueued⟩ := controls_toSelect (e := e) now
  have hselect : ∀ d ∈ (e.toSelect now).controls, queuedCommand d.command = true := by
    intro d hd
    rw [hfinish] at hd
    exact (List.mem_append.mp hd).elim (hok d) (hqueued d)
  unfold Endpoint.controlLog QueueOk
  rw [h.sentLog, List.filter_append]
  generalize e.sentLog.filter (fun c => queuedCommand c.command) = sent
  cases h.source with
  | control rest resets hhead hresets hcontrols =>
    rw [hhead] at hselect
    rw [hcontrols, List.filter_singleton, hselect c (by simp)]
    refine ⟨fun d hd => (List.mem_append.mp hd).elim (fun hd => hselect d (by simp [hd])) (hresets d),
      finish ++ resets, ?_⟩
    rw [hhead] at hfinish
    calc
      sent ++ [c] ++ (rest ++ resets) = sent ++ (c :: rest) ++ resets := by simp
      _ = sent ++ e.controls ++ (finish ++ resets) := by simp [hfinish]
  | stream resets _ _ hcommand hresets hcontrols =>
    have hnot : queuedCommand c.command = false := by
      by_contra hqueued
      rw [Bool.not_eq_false] at hqueued
      rw [streamCommand_of_queued hqueued] at hcommand
      cases hcommand
    rw [hcontrols, List.filter_singleton, hnot]
    refine ⟨fun d hd => (List.mem_append.mp hd).elim (hselect d) (hresets d),
      finish ++ resets, ?_⟩
    simp [hfinish]
  | cover resets hcover hempty hresets hcontrols =>
    have hnil : e.controls = [] := by
      rw [hempty] at hfinish
      exact (List.nil_eq_append_iff.mp hfinish).1
    rw [hcontrols, List.filter_singleton, hcover, hnil]
    exact ⟨hresets, resets, by simp [queuedCommand]⟩

/-- Controls leave the queue in the order in which they entered it. -/
lemma controlLog_of_step (h : e.step i = some e') (hok : e.QueueOk) :
    e'.QueueOk ∧ ∃ pushed, e'.controlLog = e.controlLog ++ pushed := by
  cases turn_of_step h with
  | queues pushed hq => exact ⟨hq.queueOk hok, pushed, hq.controlLog⟩
  | scheduled t c hc => exact hc.controlLog hok
  | ended t hcontrols _ hsent =>
    refine ⟨fun c hc => hok c (hcontrols ▸ hc), [], ?_⟩
    unfold controlLog
    rw [hcontrols, List.append_nil]
    rcases hsent with hsent | hsent
    · rw [hsent]
    · rw [hsent, List.filter_append]
      simp [queuedCommand]

lemma sentLog_of_step (h : e.step i = some e') :
    ∃ cells, e'.sentLog = e.sentLog ++ cells := by
  cases turn_of_step h with
  | queues pushed hq => exact ⟨[], by rw [hq.sentLog, List.append_nil]⟩
  | scheduled t c hc => exact ⟨[c], hc.sentLog⟩
  | ended t _ _ hsent =>
    rcases hsent with hsent | hsent
    · exact ⟨[], by rw [hsent, List.append_nil]⟩
    · exact ⟨_, hsent⟩

/-- The step emits a cell of the stream's own. -/
def Serves (id : ℕ) (e e' : Endpoint) : Prop :=
  ∃ c, e'.sentLog = e.sentLog ++ [c] ∧ c.id = id ∧ streamCommand c.command = true

/-- At a tick the stream has something to send. -/
def Waiting (id : ℕ) (e : Endpoint) : SessionInput → Prop
  | .clock _ => e.serviceable id = true
  | _ => True

/-- The clock does not fire. -/
def BetweenTicks (_ : Endpoint) : SessionInput → Prop
  | .clock _ => False
  | _ => True

lemma pairwise_keys : e.streams.keys.Pairwise (· < ·) := by
  refine Std.TreeMap.ordered_keys.imp fun h => ?_
  exact Nat.compare_eq_lt.mp h

lemma mem_keys_of_serviceable {a : ℕ} (h : e.serviceable a = true) : a ∈ e.streams.keys := by
  rw [Std.TreeMap.mem_keys, Std.TreeMap.mem_iff_isSome_getElem?]
  unfold serviceable at h
  split at h
  · cases h
  · rename_i s hs
    rw [hs]
    rfl

lemma toSelect_turns (now : ℕ) : (e.toSelect now).cursor = e.cursor ∧
    (e.toSelect now).rotation = e.rotation ∧ (e.toSelect now).serviceable = e.serviceable := by
  unfold toSelect announceFinish
  split_ifs <;> exact ⟨rfl, rfl, rfl⟩

/-- A stream's cell is its turn: the cursor moves to it, and it comes before any stream that is
waiting. -/
lemma Scheduled.turn (h : Scheduled e now c e') (hok : e.QueueOk)
    (hcommand : streamCommand c.command = true) : e'.cursor = c.id ∧
      ∀ a, e.serviceable a = true → c.id = a ∨ RoundRobin.Before e.cursor c.id a := by
  obtain ⟨-, hrotation, hserviceable⟩ := toSelect_turns (e := e) now
  cases h.source with
  | control rest _ hhead =>
    obtain ⟨finish, hfinish, hqueued⟩ := controls_toSelect (e := e) now
    have hmem : c ∈ e.controls ++ finish := hfinish ▸ hhead ▸ List.mem_cons_self
    have hc := (List.mem_append.mp hmem).elim (hok c) (hqueued c)
    rw [streamCommand_of_queued hc] at hcommand
    cases hcommand
  | stream _ _ hfind _ _ _ hcursor =>
    rw [hrotation, hserviceable] at hfind
    refine ⟨hcursor, fun a ha => ?_⟩
    exact RoundRobin.before_of_find pairwise_keys hfind (mem_keys_of_serviceable ha) ha
  | cover _ hcover =>
    rw [hcover] at hcommand
    cases hcommand

/-- Any other cell leaves the cursor where it is. -/
lemma Scheduled.cursor_eq (h : Scheduled e now c e')
    (hcommand : streamCommand c.command = false) : e'.cursor = e.cursor := by
  obtain ⟨hsame, -, -⟩ := toSelect_turns (e := e) now
  cases h.source with
  | control _ _ _ _ _ hcursor | cover _ _ _ _ _ hcursor => exact hcursor.trans hsame
  | stream _ _ _ hstream =>
    rw [hcommand] at hstream
    cases hstream

/-- A tick that serves a stream emits a scheduled cell of that stream. -/
lemma Serves.scheduled {id : ℕ} (h : Serves id e e') (hs : e.step (.clock t) = some e') :
    ∃ c, Scheduled e t.now c e' ∧ c.id = id ∧ streamCommand c.command = true := by
  obtain ⟨c, hsent, hid, hcommand⟩ := h
  by_cases hr : e'.result = none
  · obtain ⟨c', hc'⟩ := scheduled_of_step hs hr
    have heq : c' = c := by
      rw [hc'.sentLog] at hsent
      exact List.singleton_inj.mp (List.append_cancel_left hsent)
    exact ⟨c, heq ▸ hc', hid, hcommand⟩
  · obtain ⟨-, -, hsent' | hsent'⟩ := ended_of_step hs hr
    · rw [hsent'] at hsent
      simp at hsent
    · rw [hsent'] at hsent
      have heq := List.singleton_inj.mp (List.append_cancel_left hsent)
      rw [← heq] at hcommand
      cases hcommand

/-- A step serves a waiting stream, or the cursor does not pass it. -/
lemma unpassed_step {a b : ℕ} (hok : e.QueueOk)
    (h : RoundRobin.Unpassed b e.cursor a) (hwait : Waiting a e i) (hs : e.step i = some e') :
    ∃ cells, e'.sentLog = e.sentLog ++ cells ∧
      ((∃ c ∈ cells, c.id = a ∧ streamCommand c.command = true) ∨
        RoundRobin.Unpassed b e'.cursor a) := by
  cases turn_of_step hs with
  | queues pushed hq => exact ⟨[], by rw [hq.sentLog, List.append_nil], .inr (hq.cursor ▸ h)⟩
  | scheduled t c hc =>
    refine ⟨[c], hc.sentLog, ?_⟩
    by_cases hcommand : streamCommand c.command = true
    · obtain ⟨hcursor, hbefore⟩ := hc.turn hok hcommand
      rcases hbefore a hwait with heq | hbefore
      · exact .inl ⟨c, by simp, heq, hcommand⟩
      · rw [hcursor]
        exact .inr (.inr (h.before hbefore))
    · rw [hc.cursor_eq (by simpa using hcommand)]
      exact .inr h
  | ended t _ hcursor hsent =>
    rw [hcursor]
    rcases hsent with hsent | hsent
    · exact ⟨[], by rw [hsent, List.append_nil], .inr h⟩
    · exact ⟨_, hsent, .inr h⟩

/-- The same over a run. -/
lemma unpassed_run {a b : ℕ} (hok : e.QueueOk) (hcursor : e.cursor = b)
    (h : GuardedRun step (Waiting a) e e') : e'.QueueOk ∧
      ∃ between, e'.sentLog = e.sentLog ++ between ∧
        ((∃ c ∈ between, c.id = a ∧ streamCommand c.command = true) ∨
          RoundRobin.Unpassed b e'.cursor a) := by
  induction h with
  | start => exact ⟨hok, [], (List.append_nil _).symm, .inr (.inl hcursor)⟩
  | step _ hwait hs ih =>
    obtain ⟨hok₁, between, hsent, hserved⟩ := ih
    refine ⟨(controlLog_of_step hs hok₁).1, ?_⟩
    rcases hserved with ⟨c, hc, hid, hcommand⟩ | hunpassed
    · obtain ⟨cells, hcells⟩ := sentLog_of_step hs
      exact ⟨between ++ cells, by rw [hcells, hsent, List.append_assoc],
        .inl ⟨c, List.mem_append_left _ hc, hid, hcommand⟩⟩
    · obtain ⟨cells, hcells, hnext⟩ := unpassed_step hok₁ hunpassed hwait hs
      refine ⟨between ++ cells, by rw [hcells, hsent, List.append_assoc], ?_⟩
      rcases hnext with ⟨c, hc, hid, hcommand⟩ | hnext
      · exact .inl ⟨c, List.mem_append_right _ hc, hid, hcommand⟩
      · exact .inr hnext

/-- A waiting stream is served between two turns of another one. -/
lemma served_between {a b : ℕ} {t t' : Tick} {e₁ e₂ e₃ : Endpoint} (hok : e.QueueOk) (hne : a ≠ b)
    (hfirst : e.step (.clock t) = some e₁) (hserves : Serves b e e₁)
    (hrun : GuardedRun step (Waiting a) e₁ e₂) (hsecond : e₂.step (.clock t') = some e₃)
    (hwait : Waiting a e₂ (.clock t')) (hserves' : Serves b e₂ e₃) :
    ∃ between, e₂.sentLog = e₁.sentLog ++ between ∧
      ∃ c ∈ between, c.id = a ∧ streamCommand c.command = true := by
  obtain ⟨c, hc, hid, hcommand⟩ := hserves.scheduled hfirst
  have hcursor : e₁.cursor = b := (hc.turn hok hcommand).1.trans hid
  obtain ⟨hok₂, between, hsent, hserved⟩ :=
    unpassed_run (controlLog_of_step hfirst hok).1 hcursor hrun
  refine ⟨between, hsent, hserved.resolve_right fun hunpassed => ?_⟩
  -- the stream served first comes after the waiting one
  obtain ⟨c', hc', hid', hcommand'⟩ := hserves'.scheduled hsecond
  rcases (hc'.turn hok₂ hcommand').2 a hwait with heq | hbefore
  · exact hne (heq.symm.trans hid')
  · rw [hid'] at hbefore
    exact RoundRobin.not_before_cursor (hunpassed.before hbefore)

/-- Between two ticks the queue grows at its end and the preference stays. -/
lemma queues_between (h : GuardedRun step BetweenTicks e e') : ∃ pushed, Queues e e' pushed := by
  induction h with
  | start => exact ⟨[], .none rfl rfl rfl rfl⟩
  | @step s s' i _ hbetween hs ih =>
    obtain ⟨pushed, hq⟩ := ih
    have hi : ∀ t, i ≠ .clock t := by
      rintro t rfl
      exact hbetween
    obtain ⟨more, hq'⟩ := queues_of_step hs hi
    refine ⟨pushed ++ more, ?_, ?_, hq'.sentLog.trans hq.sentLog,
      hq'.preferControl.trans hq.preferControl, hq'.cursor.trans hq.cursor⟩
    · intro c hc
      exact (List.mem_append.mp hc).elim (hq.queued c) (hq'.queued c)
    · rw [hq'.controls, hq.controls, List.append_assoc]

/-- The control at the head of the queue is emitted on this tick or on the next. -/
lemma control_within_two {rest : List SessionCell}
    (hs : e.step (.clock t) = some e') (hr : e'.result = none)
    (hhead : (e.announceFinish t.now).controls = c :: rest) :
    e'.sentLog = e.sentLog ++ [c] ∨ ∀ e₂ e₃ t', GuardedRun step BetweenTicks e' e₂ →
      e₂.step (.clock t') = some e₃ → e₃.result = none → e₃.sentLog = e₂.sentLog ++ [c] := by
  obtain ⟨c₁, hc₁⟩ := scheduled_of_step hs hr
  have hselect : (e.toSelect t.now).controls = c :: rest := hhead
  cases hc₁.source with
  | control rest₁ _ hhead₁ =>
    rw [hselect, List.cons.injEq] at hhead₁
    exact .inl (hhead₁.1 ▸ hc₁.sentLog)
  | cover _ _ hempty =>
    rw [hselect] at hempty
    cases hempty
  | stream resets hturn _ _ _ hcontrols =>
    refine .inr fun e₂ e₃ t' hrun hs₂ hr₂ => ?_
    -- a stream went first, so the next tick prefers a control
    have hprefer : e'.preferControl = false := by
      have hpreferred : (e.toSelect t.now).preferControl ≠ true := by
        intro hpreferred
        exact hturn ⟨hpreferred, by rw [hselect]; exact List.cons_ne_nil _ _⟩
      rw [hc₁.preferControl]
      exact Bool.eq_false_of_not_eq_true hpreferred
    obtain ⟨pushed, hq⟩ := queues_between hrun
    have hqueue : e₂.controls = c :: (rest ++ resets ++ pushed) := by
      rw [hq.controls, hcontrols, hselect]
      simp
    have hne : e₂.controls ≠ [] := hqueue ▸ List.cons_ne_nil _ _
    have hselect₂ : (e₂.toSelect t'.now).controls = e₂.controls := by
      rw [toSelect, announceFinish_of_controls hne]
    obtain ⟨c₂, hc₂⟩ := scheduled_of_step hs₂ hr₂
    cases hc₂.source with
    | control rest₂ _ hhead₂ =>
      rw [hselect₂, hqueue, List.cons.injEq] at hhead₂
      exact hhead₂.1 ▸ hc₂.sentLog
    | stream _ hturn₂ =>
      refine absurd ⟨?_, hselect₂ ▸ hne⟩ hturn₂
      show (!e₂.preferControl) = true
      rw [hq.preferControl, hprefer]
      rfl
    | cover _ _ hempty => exact absurd (hselect₂ ▸ hempty) hne

/-- In every run, from any of its states on. Between two ticks that serve a stream `b`, any other
stream is served that has something to send at every tick after the first of them up to the second.
A control at the head of the queue when the clock fires is emitted on that tick or the next, unless
the run ends, and controls are emitted in the order in which they are queued. -/
theorem schedule_fair (client : Bool) (profile : Profile) (sequenceNo interval : ℕ)
    (h : Run step (new client profile sequenceNo interval) e) :
    (∀ a b t t' e₁ e₂ e₃, a ≠ b → e.step (.clock t) = some e₁ → Serves b e e₁ →
      GuardedRun step (Waiting a) e₁ e₂ → e₂.step (.clock t') = some e₃ →
      Waiting a e₂ (.clock t') → Serves b e₂ e₃ →
      ∃ between, e₂.sentLog = e₁.sentLog ++ between ∧
        ∃ c ∈ between, c.id = a ∧ streamCommand c.command = true) ∧
    (∀ t e₁ c rest, e.step (.clock t) = some e₁ → e₁.result = none →
      (e.announceFinish t.now).controls = c :: rest →
      e₁.sentLog = e.sentLog ++ [c] ∨ ∀ e₂ e₃ t', GuardedRun step BetweenTicks e₁ e₂ →
        e₂.step (.clock t') = some e₃ → e₃.result = none → e₃.sentLog = e₂.sentLog ++ [c]) ∧
    ∀ e', Run step e e' → ∃ queued, e'.controlLog = e.controlLog ++ queued := by
  have hok : e.QueueOk := by
    refine h.invariant (I := QueueOk) ?_ fun _ _ _ hok _ hs => (controlLog_of_step hs hok).1
    intro c hc
    cases hc
  refine ⟨?_, ?_, ?_⟩
  · intro a b t t' e₁ e₂ e₃ hne hfirst hserves hrun hsecond hwait hserves'
    exact served_between hok hne hfirst hserves hrun hsecond hwait hserves'
  · intro t e₁ c rest hs hr hhead
    exact control_within_two hs hr hhead
  · intro e' hrun
    have hlog : e'.QueueOk ∧ ∃ queued, e'.controlLog = e.controlLog ++ queued := by
      refine hrun.invariant (I := fun s => s.QueueOk ∧
        ∃ queued, s.controlLog = e.controlLog ++ queued) ⟨hok, [], (List.append_nil _).symm⟩ ?_
      rintro s i s' ⟨hok, queued, hqueued⟩ - hs
      obtain ⟨hok', more, hmore⟩ := controlLog_of_step hs hok
      exact ⟨hok', queued ++ more, by rw [hmore, hqueued, List.append_assoc]⟩
    exact hlog.2

instance (id : ℕ) (e : Endpoint) : ∀ i, Decidable (Waiting id e i)
  | .clock _ => inferInstanceAs (Decidable (e.serviceable id = true))
  | .request .. | .ownerClosed .. | .event .. | .frame .. | .framesClosed .. | .expire ..
  | .worker .. | .connect .. => .isTrue trivial

/-- An exit opens two streams, and both destinations speak. -/
def twoStreams : List SessionInput := [
  .frame (millis 1) (.ok ⟨.sessionOpen, 1, [1, 97, 0, 80]⟩),
  .frame (millis 2) (.ok ⟨.sessionOpen, 2, [1, 98, 0, 80]⟩), .connect 1 true, .connect 2 true,
  .event (millis 3), .event (millis 4), .worker 1 (.read [7]), .worker 1 .send,
  .worker 2 (.read [9]), .worker 2 .send, .clock (.prompt 1040)]

/-- After the first turn of stream 1, both destinations speak again. -/
def moreData : List SessionInput := [
  .worker 1 (.read [8]), .worker 1 .send, .clock (.prompt 1120), .clock (.prompt 1160),
  .worker 2 (.read [10]), .worker 2 .send]

def fairStart : Endpoint := new false .balanced 1 (millis 40)

/-- Before and after the two turns of stream 1. -/
def firstTurn : Endpoint := (runInputs step fairStart twoStreams).getD fairStart
def afterFirst : Endpoint := (firstTurn.step (.clock (.prompt 1080))).getD fairStart
def secondTurn : Endpoint := (runInputs step afterFirst moreData).getD fairStart
def afterSecond : Endpoint := (secondTurn.step (.clock (.prompt 1200))).getD fairStart

/-- Stream 2 is served between them, though a control takes one of the two ticks. -/
theorem schedule_fair_two_streams :
    Serves 1 firstTurn afterFirst ∧ Serves 1 secondTurn afterSecond ∧
      ∃ between, secondTurn.sentLog = afterFirst.sentLog ++ between ∧
        ∃ c ∈ between, c.id = 2 ∧ streamCommand c.command = true := by
  have hchecks : firstTurn.step (.clock (.prompt 1080)) ≠ none ∧
      secondTurn.step (.clock (.prompt 1200)) ≠ none ∧
      afterFirst.sentLog = firstTurn.sentLog ++ [⟨.data, 1, [7]⟩] ∧
      afterSecond.sentLog = secondTurn.sentLog ++ [⟨.data, 1, [8]⟩] ∧
      inputsOk step (Waiting 2) afterFirst moreData = true ∧
      Waiting 2 secondTurn (.clock (.prompt 1200)) := by
    decide +kernel
  obtain ⟨hfirst, hsecond, hserves, hserves', hwaiting, hwaits⟩ := hchecks
  have hturn : Serves 1 firstTurn afterFirst := ⟨_, hserves, rfl, rfl⟩
  have hturn' : Serves 1 secondTurn afterSecond := ⟨_, hserves', rfl, rfl⟩
  have hsome : ∀ {x : Option Endpoint}, x ≠ none → x = some (x.getD fairStart) := by
    intro x hx
    cases x with
    | none => exact absurd rfl hx
    | some => rfl
  refine ⟨hturn, hturn', (schedule_fair false .balanced 1 (millis 40) (e := firstTurn)
    (Run.getD_inputs twoStreams)).1 2 1 _ _ afterFirst secondTurn afterSecond (by decide)
    (hsome hfirst) hturn (GuardedRun.getD_inputs moreData hwaiting _) (hsome hsecond) hwaits hturn'⟩

end Endpoint

end AnonGuard
