import AnonGuard.SessionProjection

/-!
# The life of a stream

A stream id is unused, connecting, live or closed, in that order and never
twice. While it is unused or connecting, nothing of a stream has happened under
it; a live stream holds both ends of its channels.
-/
namespace AnonGuard

namespace View
variable (v : View)

@[simp] theorem stream_close : v.close.stream = none := by
  unfold close remove
  cases h : v.stream <;> simp [h]

@[simp] theorem connecting_close : v.close.connecting = v.connecting := by
  unfold close remove; split <;> rfl

@[simp] theorem closed_close : v.close.closed = True := rfl

@[simp] theorem opened_close : v.close.opened = v.opened := by
  unfold close remove; split <;> rfl

@[simp] theorem retired_close : v.close.retired = v.retired := by
  unfold close remove; split <;> rfl

@[simp] theorem events_close : v.close.events = v.events := by
  unfold close remove; split <;> rfl

@[simp] theorem controls_close : v.close.controls = v.controls := by
  unfold close remove; split <;> rfl

@[simp] theorem sent_close : v.close.sent = v.sent := by
  unfold close remove; split <;> rfl

@[simp] theorem received_close : v.close.received = v.received := by
  unfold close remove; split <;> rfl

theorem workers_close : v.close.workers = v.workers ∨ v.close.workers = v.workers.detach := by
  unfold close remove
  split
  · exact .inl rfl
  · exact .inr rfl

/-- Nothing of a stream has happened under this id. -/
structure Fresh (v : View) : Prop where
  stream : v.stream = none
  writer : v.workers.writer = .gone
  reader : v.workers.reader = .gone
  sent : ∀ c ∈ v.sent, streamCommand c.command = false
  received : ∀ c ∈ v.received, streamCommand c.command = false
  events : ∀ x ∈ v.events, ∃ id ok, x = .connected id ok

structure Life (v : View) : Prop where
  controls : ∀ c ∈ v.controls, streamCommand c.command = false
  live : v.stream ≠ none → v.opened ∧ ¬ v.closed ∧ ¬ v.connecting ∧
    v.workers.incoming.senderOpen = true ∧ v.workers.outgoing.receiverOpen = true
  connecting : v.connecting → v.opened ∧ ¬ v.closed
  closed : v.closed → v.opened
  fresh : ¬ v.opened ∨ v.connecting → v.Fresh

theorem life_initial (opened : Prop) : Life (.initial opened) where
  controls := by simp [initial]
  live := by simp [initial]
  connecting := by simp [initial]
  closed := by simp [initial]
  fresh _ := ⟨rfl, rfl, rfl, by simp [initial], by simp [initial], by simp [initial]⟩

end View

/-- A worker step keeps the actor's channel ends, and tasks that have ended stay
ended. -/
lemma Workers.Steps.ends {id : ℕ} {w w' : Workers} {events : List Event} (h : w.Steps id w' events) :
    w'.incoming.senderOpen = w.incoming.senderOpen ∧
      w'.outgoing.receiverOpen = w.outgoing.receiverOpen ∧
      (w.writer = .gone → w.reader = .gone →
        w'.writer = .gone ∧ w'.reader = .gone ∧ events = []) := by
  cases h with
  | writeError hw =>
    refine ⟨rfl, rfl, fun hgone => ?_⟩
    obtain hw | ⟨rest, hw⟩ := hw <;> rw [hgone] at hw <;> cases hw
  | _ => simp_all [Workers.failWriter, Workers.failReader, Channel.dropReceiver, Channel.dropSender]

lemma serves_ready {s s' : Stream} {id : ℕ} {rx rx' : Channel Bytes} {c : SessionCell}
    (h : s.Serves id rx c s' rx') : rx'.receiverOpen = rx.receiverOpen ∧
      rx'.senderOpen = rx.senderOpen := by
  cases h with
  | ack | stop => exact ⟨rfl, rfl⟩
  | data data o _ _ _ _ _ hnext =>
    obtain ⟨-, hrx, -⟩ := Outgoing.tryNext_eq_ok hnext
    rw [hrx]
    exact ⟨rfl, rfl⟩

section
variable {G : StreamGuard} {client : Bool} {id : ℕ} {v v' : View}

/-- Once an id is opened and no longer connecting, `Life` is about the live
stream and the control queue only. -/
lemma View.Life.settled (hcontrols : ∀ c ∈ v.controls, streamCommand c.command = false)
    (hopen : v.opened) (hcon : ¬ v.connecting)
    (hlive : v.stream ≠ none → ¬ v.closed ∧ v.workers.incoming.senderOpen = true ∧
      v.workers.outgoing.receiverOpen = true) : v.Life where
  controls := hcontrols
  live h := ⟨hopen, (hlive h).1, hcon, (hlive h).2⟩
  connecting h := absurd h hcon
  closed _ := hopen
  fresh h := h.elim (absurd hopen) fun h => absurd h hcon

lemma View.Life.popEvent (h : v.Life) {x : Event} {rest : List Event} (he : v.events = x :: rest) :
    { v with events := rest }.Life := by
  refine ⟨h.controls, h.live, h.connecting, h.closed, fun hf => ?_⟩
  obtain ⟨hstream, hw, hr, hsent, hrecv, hev⟩ := h.fresh hf
  exact ⟨hstream, hw, hr, hsent, hrecv, fun y hy => hev y (by simp [he, hy])⟩

lemma controls_append {l : List SessionCell} (h : ∀ c ∈ l, streamCommand c.command = false)
    {c : SessionCell} (hc : streamCommand c.command = false) :
    ∀ d ∈ l ++ [c], streamCommand d.command = false := by
  intro d hd
  rcases List.mem_append.mp hd with hd | hd
  · exact h d hd
  · rwa [List.mem_singleton.mp hd]

theorem View.Life.step (h : v.Life) (hstep : StreamStep G client id v v') : v'.Life := by
  have hlive := fun s (hs : v.stream = some s) => h.live (by simp [hs])
  cases hstep with
  | worker w events hw =>
    obtain ⟨hin, hout, hgone⟩ := hw.ends
    refine ⟨h.controls, fun hl => ?_, h.connecting, h.closed, fun hf => ?_⟩
    · obtain ⟨ho, hc, hn, h1, h2⟩ := h.live hl
      exact ⟨ho, hc, hn, hin.trans h1, hout.trans h2⟩
    · obtain ⟨hstream, hw1, hr1, hsent, hrecv, hev⟩ := h.fresh hf
      obtain ⟨hw2, hr2, rfl⟩ := hgone hw1 hr1
      exact ⟨hstream, hw2, hr2, hsent, hrecv, by simpa using hev⟩
  | dialed ok =>
    refine ⟨h.controls, h.live, h.connecting, h.closed, fun hf => ?_⟩
    obtain ⟨hstream, hw, hr, hsent, hrecv, hev⟩ := h.fresh hf
    refine ⟨hstream, hw, hr, hsent, hrecv, fun x hx => ?_⟩
    rcases List.mem_append.mp hx with hx | hx
    · exact hev x hx
    · exact ⟨id, ok, List.mem_singleton.mp hx⟩
  | skipped _ hv =>
    refine .settled h.controls trivial (fun hc => hv (h.connecting hc).1) fun hl => ?_
    exact absurd (h.fresh (.inl hv)).stream hl
  | requested target hc hv =>
    exact .settled (controls_append h.controls rfl) trivial (fun hc => hv (h.connecting hc).1)
      fun _ => ⟨fun hcl => hv (h.closed hcl), rfl, rfl⟩
  | control c rest hc =>
    refine ⟨fun d hd => h.controls d (by simp [hc, hd]), h.live, h.connecting, h.closed,
      fun hf => ?_⟩
    obtain ⟨hstream, hw, hr, hsent, hrecv, hev⟩ := h.fresh hf
    exact ⟨hstream, hw, hr, controls_append hsent (h.controls c (by simp [hc])), hrecv, hev⟩
  | served s s' c rx hs hg hserve =>
    obtain ⟨hopen, hclosed, hcon, hin, hout⟩ := hlive s hs
    exact .settled h.controls hopen hcon fun _ => ⟨hclosed, hin, (serves_ready hserve).1.trans hout⟩
  | retired s hs =>
    obtain ⟨hopen, -, hcon, -⟩ := hlive s hs
    exact .settled (by simpa using h.controls) (by simpa) (by simpa) (by simp)
  | cancelled s hs | failed _ s _ hs =>
    obtain ⟨hopen, -, hcon, -⟩ := hlive s hs
    exact .settled (controls_append (by simpa using h.controls) rfl) (by simpa [control])
      (by simpa [control]) (by simp [control])
  | written _ _ s _ hs | openedReady _ s _ _ hs | acked _ s _ _ hs =>
    obtain ⟨hopen, hclosed, hcon, hends⟩ := hlive s hs
    exact .settled h.controls hopen hcon fun _ => ⟨hclosed, hends⟩
  | writtenLate _ _ he | connectLate _ _ he | failedLate _ he => exact h.popEvent he
  | connected rest hc he hcon =>
    obtain ⟨hopen, hclosed⟩ := h.connecting hcon
    exact .settled (controls_append h.controls rfl) hopen not_false fun _ => ⟨hclosed, rfl, rfl⟩
  | connectFailed rest hc he hcon =>
    obtain ⟨hopen, hclosed⟩ := h.connecting hcon
    exact .settled (controls_append h.controls rfl) hopen not_false
      fun hl => absurd (h.fresh (.inr hcon)).stream hl
  | ignored c hv =>
    have hcon : ¬ v.connecting := fun hcon => (h.connecting hcon).2 hv
    exact .settled h.controls (h.closed hv) hcon fun hl => absurd hv (h.live hl).2.1
  | openAccepted c hcmd hc hv =>
    have hf := h.fresh (.inl hv)
    refine ⟨h.controls, fun hl => absurd hf.stream hl, fun _ => ⟨trivial, fun hcl => hv (h.closed hcl)⟩,
      fun _ => trivial, fun _ => ?_⟩
    exact ⟨hf.stream, hf.writer, hf.reader, hf.sent,
      controls_append hf.received (by rw [hcmd]; rfl), hf.events⟩
  | openRefused c hcmd hc hv =>
    exact .settled (controls_append h.controls rfl) trivial (fun hc => hv (h.connecting hc).1)
      fun hl => absurd (h.fresh (.inl hv)).stream hl
  | openedLate c s hcmd hc hs =>
    obtain ⟨hopen, -, hcon, -⟩ := hlive s hs
    exact .settled (controls_append (by simpa [receive] using h.controls) rfl) (by simpa [control, receive])
      (by simpa [control, receive]) (by simp [control])
  | refused c s hcmd hc hs =>
    obtain ⟨hopen, -, hcon, -⟩ := hlive s hs
    exact .settled (by simpa [receive] using h.controls) (by simpa [receive]) (by simpa [receive]) (by simp)
  | data _ s _ _ hs _ _ _ _ _ hw | ended _ s _ _ hs _ _ hw =>
    obtain ⟨hopen, hclosed, hcon, hends⟩ := hlive s hs
    obtain ⟨-, -, rfl⟩ := Workers.deliver_eq_ok.mp hw
    exact .settled h.controls hopen hcon fun _ => ⟨hclosed, hends⟩
  | reset =>
    exact .settled (by simpa [receive] using h.controls) (by simpa [receive]) not_false (by simp)
  | sessionQueued c hid hc =>
    have hc := streamCommand_of_session hc
    exact ⟨controls_append h.controls hc, h.live, h.connecting, h.closed, fun hf =>
      ⟨(h.fresh hf).stream, (h.fresh hf).writer, (h.fresh hf).reader, (h.fresh hf).sent,
        (h.fresh hf).received, (h.fresh hf).events⟩⟩
  | sessionSent c hid hc =>
    have hc := streamCommand_of_session hc
    exact ⟨h.controls, h.live, h.connecting, h.closed, fun hf =>
      ⟨(h.fresh hf).stream, (h.fresh hf).writer, (h.fresh hf).reader,
        controls_append (h.fresh hf).sent hc, (h.fresh hf).received, (h.fresh hf).events⟩⟩
  | sessionReceived c hid hc =>
    have hc := streamCommand_of_session hc
    exact ⟨h.controls, h.live, h.connecting, h.closed, fun hf =>
      ⟨(h.fresh hf).stream, (h.fresh hf).writer, (h.fresh hf).reader, (h.fresh hf).sent,
        controls_append (h.fresh hf).received hc, (h.fresh hf).events⟩⟩

/-- The three sources of an emitted cell. -/
theorem StreamStep.sent_cases (h : StreamStep G client id v v') :
    v'.sent = v.sent ∨
      (∃ c, v'.sent = v.sent ++ [c] ∧ (c ∈ v.controls ∨ streamCommand c.command = false)) ∨
      ∃ s s' c rx, v.stream = some s ∧ G.serve v ∧ s.Serves id v.workers.outgoing c s' rx ∧
        v'.sent = v.sent ++ [c] := by
  cases h with
  | control c rest hc => exact .inr (.inl ⟨c, rfl, .inl (by simp [hc])⟩)
  | sessionSent c _ hc => exact .inr (.inl ⟨c, rfl, .inr (streamCommand_of_session hc)⟩)
  | served s s' c rx hs hg hserve => exact .inr (.inr ⟨s, s', c, rx, hs, hg, hserve, rfl⟩)
  | retired | cancelled | failed | openedLate | refused | reset =>
    exact .inl (by simp [View.control, View.receive])
  | _ => exact .inl rfl

end

end AnonGuard
