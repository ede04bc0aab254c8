import AnonGuard.SessionStep
import AnonGuard.SessionView

/-!
# Endpoint steps project to stream steps

Every step of an endpoint acts on the view of each stream id as a sequence of
stream steps, so what the stream steps preserve holds in every run.
-/
namespace AnonGuard

/-- The guard's condition on a step of the endpoint. -/
def StreamGuard.Admits (G : StreamGuard) (e : Endpoint) : SessionInput → Prop
  | .clock t => ∀ id, e.turn t.now = some id → G.serve (e.view id)
  | .event _ => ∀ id rest, e.events = .failed id :: rest → e.streams[id]? = none →
      G.lateFailure (e.view id)
  | _ => True

abbrev Reaches (G : StreamGuard) (client : Bool) (id : ℕ) : View → View → Prop :=
  Relation.ReflTransGen (StreamStep G client id)

namespace Endpoint
variable {G : StreamGuard} {e e' : Endpoint} {id : ℕ} {c : SessionCell}

/-- Emitting the selected cell is at most one step of each stream. -/
lemma reaches_afterCell {now : ℕ} {e₁ : Endpoint} (time interval : ℕ) (h : e.select now = .ok (c, e₁))
    (hserve : ∀ k, ¬ (e.preferControl = true ∧ e.controls ≠ []) → seconds 1 ≤ now →
      e.rotation.find? e.serviceable = some k → G.serve (e.view k)) :
    Reaches G e.client id (e.view id) ((e₁.afterCell c time interval).view id) := by
  have hview : (e₁.afterCell c time interval).view id =
      { e₁.view id with sent := cellsOf id (e₁.sentLog ++ [c]) } := rfl
  rw [hview]
  obtain ⟨rest, hc, rfl⟩ | ⟨k, s, s', rx, hcond, hnow, hfind, hs, hserves, rfl⟩ | ⟨-, rfl, rfl⟩ :=
    select_eq_ok h
  · by_cases hk : c.id = id
    · have hcontrols : (e.view id).controls = c :: cellsOf id rest := by
        rw [← cellsOf_cons_of_eq rest hk, ← hc]
        rfl
      refine .single ?_
      have hstep : StreamStep G e.client id (e.view id) _ := .control c (cellsOf id rest) hcontrols
      convert hstep using 1
      rw [cellsOf_append, cellsOf_cons_of_eq [] hk]
      rfl
    · convert Relation.ReflTransGen.refl using 1
      simp only [view, cellsOf_append, cellsOf_cons_of_ne [] hk, cellsOf_nil, List.append_nil, hc,
        cellsOf_cons_of_ne rest hk]
  · have hck := id_of_serves hserves
    by_cases hk : id = k
    · subst hk
      refine .single ?_
      have hstep : StreamStep G e.client id (e.view id) _ :=
        .served s s' c rx hs (hserve id hcond hnow hfind) hserves
      convert hstep using 1
      rw [show Endpoint.view { e.setStream id s' { e.workers id with outgoing := rx } with
        cursor := id } id = _ from view_setStream_self e _ _, cellsOf_append,
        cellsOf_cons_of_eq [] hck]
      rfl
    · have hne : c.id ≠ id := by
        rw [hck]
        exact Ne.symm hk
      have hother := view_setStream_of_ne e s' { e.workers k with outgoing := rx } hk
      convert Relation.ReflTransGen.refl using 1
      rw [show Endpoint.view { e.setStream k s' { e.workers k with outgoing := rx } with
        cursor := k } id = _ from hother, cellsOf_append, cellsOf_cons_of_ne [] hne]
      simp [view, setStream]
  · by_cases hid : id = 0
    · subst hid
      refine .single ?_
      have hstep : StreamStep G e₁.client 0 (e₁.view 0) _ := .sessionSent ⟨.dummy, 0, []⟩ rfl rfl
      convert hstep using 1
      simp [view, cellsOf_cons_of_eq]
    · convert Relation.ReflTransGen.refl using 1
      rw [cellsOf_append, cellsOf_cons_of_ne [] (Ne.symm hid)]
      simp [view]

/-- The two passes after a tick. -/
lemma reaches_passes (client : Bool) :
    Reaches G client id (e.view id) (e.retire.cancel.view id) := by
  have hretire : Reaches G client id (e.view id) (e.retire.view id) := by
    rw [view_retire]
    split_ifs with h
    · obtain ⟨s, hs, hr⟩ := (mem_retiring e).mp h
      exact .single (.retired s hs hr)
    · exact .refl
  refine hretire.trans ?_
  rw [view_cancel]
  split_ifs with h
  · obtain ⟨s, hs, hr, -⟩ := (mem_cancelled e.retire).mp h
    exact .single (.cancelled s hs hr)
  · exact .refl

lemma reaches_announceFinish (client : Bool) (now : ℕ) :
    Reaches G client id (e.view id) ((e.announceFinish now).view id) := by
  unfold announceFinish
  split_ifs
  · by_cases hid : id = 0
    · subst hid
      rw [view_pushControl_self]
      exact .single (.sessionQueued ⟨.sessionFinish, 0, []⟩ rfl rfl)
    · rw [view_pushControl_of_ne { e with finishing := true } _ _ hid]
      exact .refl
  · exact .refl

/-- While a stream is open nothing is announced. -/
lemma announceFinish_of_stream {now k : ℕ} {s : Stream} (h : e.streams[k]? = some s) :
    e.announceFinish now = e := by
  have hne : e.streams.isEmpty = false := by
    rw [Bool.eq_false_iff]
    intro hempty
    have hmem : k ∈ e.streams := Std.TreeMap.mem_iff_isSome_getElem?.mpr (by rw [h]; rfl)
    exact Std.TreeMap.isEmpty_iff_forall_not_mem.mp hempty k hmem
  simp [announceFinish, mayFinish, isIdle, hne]

lemma stream_of_serviceable {k : ℕ} (h : e.serviceable k = true) : ∃ s, e.streams[k]? = some s := by
  unfold serviceable at h
  split at h
  · cases h
  · exact ⟨_, ‹_›⟩

lemma streams_announceFinish (now : ℕ) : (e.announceFinish now).streams = e.streams := by
  unfold announceFinish
  split_ifs <;> rfl

lemma client_announceFinish (now : ℕ) : (e.announceFinish now).client = e.client := by
  unfold announceFinish
  split_ifs <;> rfl

/-- The state in which a tick selects its cell. -/
lemma turn_of_find {now k : ℕ}
    (hcond : ¬ ((!e.preferControl) = true ∧ (e.announceFinish now).controls ≠ []))
    (hnow : seconds 1 ≤ now)
    (hfind : { e.announceFinish now with preferControl := !e.preferControl }.rotation.find?
      { e.announceFinish now with preferControl := !e.preferControl }.serviceable = some k) :
    e.announceFinish now = e ∧ e.turn now = some k := by
  obtain ⟨s, hs⟩ := stream_of_serviceable (List.find?_some hfind)
  have hs : e.streams[k]? = some s := by rw [← streams_announceFinish now]; exact hs
  have he : e.announceFinish now = e := announceFinish_of_stream hs
  rw [he] at hcond hfind
  refine ⟨he, ?_⟩
  have hno : ¬ ((e.preferControl = false ∧ e.controls ≠ []) ∨ now < seconds 1) := by
    rintro (⟨hp, hne⟩ | hlt)
    · exact hcond ⟨by simp [hp], hne⟩
    · omega
  rw [turn, if_neg hno]
  exact hfind

theorem reaches_tick {t : Tick} (h : e.tick t = .ok e')
    (hserve : ∀ k, e.turn t.now = some k → G.serve (e.view k)) :
    Reaches G e.client id (e.view id) (e'.view id) := by
  cases tick_eq_ok h with
  | last =>
    by_cases hid : id = 0
    · subst hid
      refine .single ?_
      have hstep : StreamStep G e.client 0 (e.view 0) _ :=
        .sessionSent ⟨.sessionFinished, 0, []⟩ rfl rfl
      convert hstep using 1
      simp [view, cellsOf_cons_of_eq]
    · convert Relation.ReflTransGen.refl using 1
      simp [view, cellsOf, Ne.symm hid]
  | cell c e₁ time _ hsel =>
    have hemitted : Reaches G (e.toSelect t.now).client id ((e.toSelect t.now).view id)
        ((e₁.afterCell c time t.interval).view id) := by
      refine reaches_afterCell time t.interval hsel fun k hcond hnow hfind => ?_
      obtain ⟨he, hturn⟩ := turn_of_find hcond hnow hfind
      rw [toSelect, he]
      exact hserve k hturn
    rw [show (e.toSelect t.now).client = _ from client_announceFinish t.now] at hemitted
    exact ((reaches_announceFinish _ t.now).trans hemitted).trans (reaches_passes _)

lemma reaches_request {now : ℕ} {host : String} {port : UInt16} (hc : e.client = true)
    (h : e.request now host port = .ok e') :
    Reaches G e.client id (e.view id) (e'.view id) := by
  obtain ⟨target, rfl⟩ := request_eq_ok h
  by_cases hk : id = e.lastId + 1
  · subst hk
    refine .single ?_
    have hstep : StreamStep G e.client (e.lastId + 1) (e.view (e.lastId + 1)) _ :=
      .requested target hc (show ¬ e.lastId + 1 ≤ e.lastId by omega)
    convert hstep using 1
    rw [view_pushControl_self, view_setStream_self]
    simp [view, View.attach, View.control]
  · rw [view_pushControl_of_ne _ _ _ hk, view_setStream_of_ne _ _ _ hk]
    convert Relation.ReflTransGen.refl using 1
    have hle : id ≤ e.lastId + 1 ↔ id ≤ e.lastId := by omega
    simp [view, hle]

lemma reaches_event {now : ℕ} {x : Event} {rest : List Event} (he : e.events = x :: rest)
    (h : Handles { e with time := now, events := rest } x e')
    (hlate : ∀ k, x = .failed k → e.streams[k]? = none → G.lateFailure (e.view k)) :
    Reaches G e.client id (e.view id) (e'.view id) := by
  have hself : x.id = id → (e.view id).events = x :: eventsOf id rest := by
    intro hx
    rw [← eventsOf_cons_of_eq rest hx, ← he]
    rfl
  have hother : x.id ≠ id →
      Endpoint.view { e with time := now, events := rest } id = e.view id := by
    intro hx
    simp [view, he, eventsOf_cons_of_ne rest hx]
  cases h with
  | written k count s hs hn hle =>
    by_cases hk : id = k
    · subst hk
      rw [view_setStream_self]
      exact .single (.written count _ s (hself rfl) hs hn hle)
    · rw [view_setStream_of_ne _ _ _ hk, hother (Ne.symm hk)]
  | writtenLate k count hs =>
    by_cases hk : id = k
    · subst hk
      exact .single (.writtenLate count _ (hself rfl) hs)
    · rw [hother (Ne.symm hk)]
  | connected k hc hcon =>
    by_cases hk : id = k
    · subst hk
      rw [view_pushControl_self, view_setStream_self]
      refine .single ?_
      convert StreamStep.connected (eventsOf id rest) hc (hself rfl) hcon using 1
      simp [view, View.attach, View.control]
    · rw [view_pushControl_of_ne _ _ _ hk, view_setStream_of_ne _ _ _ hk,
        ← hother (Ne.symm hk)]
      convert Relation.ReflTransGen.refl using 1
      simp [view, hk]
  | connectFailed k hc hcon =>
    by_cases hk : id = k
    · subst hk
      rw [view_pushControl_self]
      refine .single ?_
      convert StreamStep.connectFailed (eventsOf id rest) hc (hself rfl) hcon using 1
      simp [view, View.control]
    · rw [view_pushControl_of_ne _ _ _ hk, ← hother (Ne.symm hk)]
      convert Relation.ReflTransGen.refl using 1
      simp [view, hk]
  | connectLate k ok hc hcon =>
    by_cases hk : id = k
    · subst hk
      exact .single (.connectLate ok _ (hself rfl) hcon)
    · rw [← hother (Ne.symm hk)]
      exact .refl
  | failed k s hs =>
    by_cases hk : id = k
    · subst hk
      rw [view_resetStream_self]
      exact .single (.failed _ s (hself rfl) hs)
    · rw [view_resetStream_of_ne _ hk, hother (Ne.symm hk)]
  | failedLate k hs =>
    by_cases hk : id = k
    · subst hk
      exact .single (.failedLate _ (hself rfl) hs (hlate id rfl hs))
    · rw [hother (Ne.symm hk)]

lemma view_logFrame_self (now budget : ℕ) (h : c.id = id) :
    (e.logFrame now budget c).view id = (e.view id).receive c := by
  simp [view, logFrame, View.receive, cellsOf_cons_of_eq [] h]

lemma view_logFrame_of_ne (now budget : ℕ) (h : c.id ≠ id) :
    (e.logFrame now budget c).view id = e.view id := by
  simp [view, logFrame, cellsOf_cons_of_ne [] h]

lemma reaches_of_view_eq (client : Bool) (h : e'.view id = e.view id) :
    Reaches G client id (e.view id) (e'.view id) := by
  rw [h]

/-- A cell of another stream leaves this one alone, except that an open skips
the ids below its own. -/
lemma reaches_frame_of_ne {now budget : ℕ}
    (h : Dispatches (e.logFrame now budget c) now c e') (hne : c.id ≠ id) :
    Reaches G e.client id (e.view id) (e'.view id) := by
  have hk : id ≠ c.id := Ne.symm hne
  have hlog : (e.logFrame now budget c).view id = e.view id := view_logFrame_of_ne now budget hne
  have hskip : e.client = false → e.lastId < c.id → Reaches G e.client id (e.view id)
      (Endpoint.view { e.logFrame now budget c with lastId := c.id } id) := by
    intro hc hlast
    have hview : Endpoint.view { e.logFrame now budget c with lastId := c.id } id =
        { e.view id with opened := id ≤ c.id } := by
      rw [← hlog]
      rfl
    rw [hview]
    by_cases hopen : id ≤ e.lastId ∨ c.id < id
    · have hiff : (id ≤ c.id) = (id ≤ e.lastId) := propext (by omega)
      rw [hiff]
      exact .refl
    · have hle : (id ≤ c.id) = True := propext (by simp; omega)
      have hclosed : ¬ (e.view id).opened := fun (h : id ≤ e.lastId) => hopen (.inl h)
      rw [hle]
      exact .single (.skipped hc hclosed)
  cases h with
  | late | dummy | finish | finished => exact reaches_of_view_eq _ hlog
  | openRefused hcmd hc hlast =>
    rw [view_pushControl_of_ne _ _ _ hk]
    exact hskip hc hlast
  | openAccepted hcmd hc hlast =>
    convert hskip hc hlast using 1
    simp [view, hk]
  | opened | acked => exact reaches_of_view_eq _ ((view_setStream_of_ne _ _ _ hk).trans hlog)
  | openedLate => exact reaches_of_view_eq _ ((view_resetStream_of_ne _ hk).trans hlog)
  | refused => exact reaches_of_view_eq _ ((view_closeStream_of_ne _ hk).trans hlog)
  | data s w | ended s w =>
    exact reaches_of_view_eq _
      ((view_setStream_of_ne (e.logFrame now budget c) _ w hk).trans hlog)
  | reset =>
    refine reaches_of_view_eq _ (Eq.trans ?_ ((view_closeStream_of_ne _ hk).trans hlog))
    simp [view, acceptReset, hk]

/-- A cell of this stream is one stream step. -/
lemma reaches_frame_self {now budget : ℕ} (h : Dispatches (e.logFrame now budget c) now c e') :
    Reaches G e.client c.id (e.view c.id) (e'.view c.id) := by
  have hlog : (e.logFrame now budget c).view c.id = (e.view c.id).receive c :=
    view_logFrame_self now budget rfl
  refine .single ?_
  cases h with
  | late hclosed hlate =>
    rw [hlog]
    exact .ignored c hclosed hlate
  | dummy hcmd hid =>
    rw [hlog]
    exact .sessionReceived c hid (by rw [hcmd]; rfl)
  | finish hcmd _ hid | finished hcmd _ _ hid =>
    have hstep : StreamStep G e.client c.id (e.view c.id) _ :=
      .sessionReceived c hid (by rw [hcmd]; rfl)
    convert hstep using 1
    exact hlog
  | openRefused hcmd hc hlast =>
    have hstep : StreamStep G e.client c.id (e.view c.id) _ :=
      .openRefused c hcmd hc (show ¬ c.id ≤ e.lastId from not_le.mpr hlast)
    convert hstep using 1
    rw [view_pushControl_self, ← hlog]
    simp [view]
  | openAccepted hcmd hc hlast =>
    have hstep : StreamStep G e.client c.id (e.view c.id) _ :=
      .openAccepted c hcmd hc (show ¬ c.id ≤ e.lastId from not_le.mpr hlast)
    convert hstep using 1
    rw [← hlog]
    simp [view]
  | opened s hcmd hc hs hready =>
    rw [view_setStream_self, hlog]
    exact .openedReady c s hcmd hc hs hready
  | openedLate s hcmd hc hs hready =>
    rw [view_resetStream_self, hlog]
    exact .openedLate c s hcmd hc hs hready
  | refused s hcmd hc hs hready =>
    rw [view_closeStream_self, hlog]
    exact .refused c s hcmd hc hs hready
  | data s w hcmd hs hready hend hdata hcredit hcount hw =>
    have hstep : StreamStep G e.client c.id (e.view c.id) _ :=
      .data c s w hcmd hs hready hend hdata hcredit hcount hw
    convert hstep using 1
    rw [← hlog]
    exact view_setStream_self (e.logFrame now budget c) _ w
  | acked s window hcmd hs hready hw =>
    rw [view_setStream_self, hlog]
    exact .acked c s window hcmd hs hready hw
  | ended s w hcmd hs hready hend hw =>
    have hstep : StreamStep G e.client c.id (e.view c.id) _ :=
      .ended c s w hcmd hs hready hend hw
    convert hstep using 1
    rw [← hlog]
    exact view_setStream_self (e.logFrame now budget c) _ w
  | reset hcmd hpos' hlast =>
    have hstep : StreamStep G e.client c.id (e.view c.id) _ :=
      .reset c hcmd (show c.id ≤ e.lastId from hlast)
    convert hstep using 1
    rw [← hlog, ← view_closeStream_self]
    simp [view, acceptReset]

/-- One step of an endpoint acts on each stream as stream steps. -/
theorem reaches_step {i : SessionInput} (hadm : G.Admits e i)
    (h : e.step i = some e') : Reaches G e.client id (e.view id) (e'.view id) := by
  cases advances_of_step h with
  | failed | requestRefused => exact .refl
  | tick t _ _ _ htick => exact reaches_tick (e := { e with time := t.now }) htick hadm
  | requested now host port _ _ hc _ hreq =>
    exact reaches_request (e := { e with time := now }) hc hreq
  | event now x rest _ he _ _ hx =>
    refine reaches_event he hx fun k hk hs => hadm k rest ?_ hs
    rw [he, hk]
  | frame now budget c _ _ _ hd =>
    by_cases hc : c.id = id
    · subst hc
      exact reaches_frame_self hd
    · exact reaches_frame_of_ne hd hc
  | worker k _ w events hw =>
    by_cases hk : id = k
    · subst hk
      have hevents : eventsOf id events = events := by
        cases hw <;> simp [eventsOf, Event.id]
      have hstep : StreamStep G e.client id (e.view id) _ := .worker w events hw
      refine .single ?_
      convert hstep using 1
      simp [view, hevents]
    · have hevents : eventsOf id events = [] := by
        cases hw <;> simp [eventsOf, Event.id, Ne.symm hk]
      exact reaches_of_view_eq _ (by simp [view, hevents, hk])
  | connect k ok =>
    by_cases hk : id = k
    · subst hk
      have hstep : StreamStep G e.client id (e.view id) _ := .dialed ok
      refine .single ?_
      convert hstep using 1
      simp [view, eventsOf, Event.id]
    · exact reaches_of_view_eq _ (by simp [view, eventsOf, Event.id, Ne.symm hk])

section Runs
variable {client : Bool} {profile : Profile} {sequenceNo interval : ℕ}

theorem client_of_run {ok : Endpoint → SessionInput → Prop}
    (h : GuardedRun step ok (new client profile sequenceNo interval) e) :
    e.client = client ∧ e.profile = profile := by
  refine h.invariant (I := fun e => e.client = client ∧ e.profile = profile) ⟨rfl, rfl⟩ ?_
  rintro e i e' ⟨hc, hp⟩ - hs
  obtain ⟨hc', hp'⟩ := setup_step hs
  exact ⟨hc'.trans hc, hp'.trans hp⟩

/-- A run of an endpoint is a run of each of its streams. -/
theorem reaches_of_run
    (h : GuardedRun step G.Admits (new client profile sequenceNo interval) e) (id : ℕ) :
    Reaches G client id (.initial (id = 0)) (e.view id) := by
  induction h with
  | start => rw [view_new]
  | step hrun hadm hs ih =>
    rw [← (client_of_run hrun).1] at ih ⊢
    exact ih.trans (reaches_step hadm hs)

/-- What every stream step preserves holds of every stream in every run. -/
theorem view_invariant {I : View → Prop}
    (h : GuardedRun step G.Admits (new client profile sequenceNo interval) e)
    (h₀ : I (.initial (id = 0))) (hstep : ∀ v v', I v → StreamStep G client id v v' → I v') :
    I (e.view id) := by
  have hreach := reaches_of_run h id
  generalize e.view id = v at hreach
  induction hreach with
  | refl => exact h₀
  | tail _ hs ih => exact hstep _ _ ih hs

end Runs

end Endpoint

end AnonGuard
