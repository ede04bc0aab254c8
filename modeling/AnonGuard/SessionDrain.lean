import AnonGuard.SessionFinish

/-!
# What the exit still holds when the finish arrives

A client announces its finish when it has no stream left. Each stream was
retired or reset, and in the first case all its cells have been exchanged. The
exit has therefore no pending connect, and every stream it still has only waits
for the exit's next retirement pass. The announcement is accepted if and only if
there is no such stream.
-/
namespace AnonGuard

/-- The cells of a stream that were queued as controls or sent. -/
def View.issued (v : View) : List SessionCell := v.controls ++ v.sent

/-- The commands that open, refuse or reset a stream. -/
def lifeCommand : CellCommand → Bool
  | .sessionOpen | .sessionRefused | .sessionReset => true
  | _ => false

lemma lifeCommand_of_session {c : CellCommand} (h : sessionCommand c = true) :
    lifeCommand c = false := by
  cases c <;> first | rfl | cases h

/-- Which cells tell of the life of a stream. -/
structure View.Traces (client : Bool) (id : ℕ) (v : View) : Prop where
  resetReceived : (∃ c ∈ v.received, c.command = .sessionReset) → v.closed
  resetIssued : (∃ c ∈ v.issued, c.command = .sessionReset) → v.closed
  refusedIssued : (∃ c ∈ v.issued, c.command = .sessionRefused) →
    v.stream = none ∧ ¬ v.connecting ∧ v.opened
  openReceived : client = false → v.connecting ∨ v.stream ≠ none →
    ∃ c ∈ v.received, c.command = .sessionOpen
  openIssued : (∃ c ∈ v.issued, c.command = .sessionOpen) → v.opened
  opened : client = true → v.opened → id = 0 ∨ v.stream ≠ none ∨ v.closed
  closed : client = true → v.closed → v.retired ∨ (∃ c ∈ v.issued, c.command = .sessionReset) ∨
    ∃ c ∈ v.received, c.command = .sessionReset ∨ c.command = .sessionRefused

@[simp] theorem View.mem_issued_control {v : View} {c d : SessionCell} :
    d ∈ (v.control c).issued ↔ d ∈ v.issued ∨ d = c := by
  simp only [issued, control, List.mem_append, List.mem_singleton]
  tauto

namespace View.Traces
variable {G : StreamGuard} {client : Bool} {id : ℕ} {v v' : View}

/-- A step within one stage of the life of a stream. -/
lemma keep (h : v.Traces client id) (hstream : v'.stream = none ↔ v.stream = none)
    (hlife : v'.connecting = v.connecting ∧ v'.closed = v.closed ∧ v'.opened = v.opened ∧
      v'.retired = v.retired) (hissued : ∀ c ∈ v.issued, c ∈ v'.issued)
    (hplain : ∀ c ∈ v'.issued, c ∈ v.issued ∨ lifeCommand c.command = false)
    (hreceived : ∀ c ∈ v.received, c ∈ v'.received)
    (hreset : ∀ c ∈ v'.received, c ∈ v.received ∨ c.command ≠ .sessionReset) :
    v'.Traces client id := by
  obtain ⟨hconnecting, hclosed, hopened, hretired⟩ := hlife
  have hback : ∀ k, lifeCommand k = true → (∃ c ∈ v'.issued, c.command = k) →
      ∃ c ∈ v.issued, c.command = k := by
    rintro k hk ⟨c, hc, rfl⟩
    refine ⟨c, (hplain c hc).resolve_right fun hp => ?_, rfl⟩
    rw [hp] at hk
    cases hk
  refine ⟨?_, ?_, ?_, ?_, ?_, ?_, ?_⟩
  · rintro ⟨c, hc, hcmd⟩
    rw [hclosed]
    exact h.resetReceived ⟨c, (hreset c hc).resolve_right (absurd hcmd), hcmd⟩
  · rw [hclosed]
    exact fun hr => h.resetIssued (hback _ rfl hr)
  · rw [hstream, hconnecting, hopened]
    exact fun hr => h.refusedIssued (hback _ rfl hr)
  · rw [hconnecting, ne_eq, hstream]
    intro hc hl
    obtain ⟨c, hc, hcmd⟩ := h.openReceived hc hl
    exact ⟨c, hreceived c hc, hcmd⟩
  · rw [hopened]
    exact fun hr => h.openIssued (hback _ rfl hr)
  · rw [hopened, hclosed, ne_eq, hstream]
    exact h.opened
  · rw [hclosed, hretired]
    intro hc hcl
    refine (h.closed hc hcl).imp_right (Or.imp ?_ ?_)
    · rintro ⟨c, hc, hcmd⟩
      exact ⟨c, hissued c hc, hcmd⟩
    · rintro ⟨c, hc, hcmd⟩
      exact ⟨c, hreceived c hc, hcmd⟩

/-- A closed stream needs a reason only. -/
lemma of_closed (hstream : v.stream = none) (hconnecting : ¬ v.connecting) (hclosed : v.closed)
    (hopened : v.opened) (hreason : v.retired ∨ (∃ c ∈ v.issued, c.command = .sessionReset) ∨
      ∃ c ∈ v.received, c.command = .sessionReset ∨ c.command = .sessionRefused) :
    v.Traces client id :=
  ⟨fun _ => hclosed, fun _ => hclosed, fun _ => ⟨hstream, hconnecting, hopened⟩,
    fun _ hl => hl.elim (absurd · hconnecting) (absurd hstream), fun _ => hopened,
    fun _ _ => .inr (.inr hclosed), fun _ _ => hreason⟩

theorem step (h : v.Traces client id) (hlife : v.Life) (hs : StreamStep G client id v v') :
    v'.Traces client id := by
  have hlive : ∀ s, v.stream = some s → v.opened ∧ ¬ v.connecting := fun s hs =>
    ⟨(hlife.live (by simp [hs])).1, (hlife.live (by simp [hs])).2.2.1⟩
  -- a queued control with another command is no trace of this kind
  have hpush : ∀ {w : View} {c : SessionCell} {k : CellCommand}, w.issued = v.issued →
      c.command ≠ k → (∃ d ∈ (w.control c).issued, d.command = k) →
      ∃ d ∈ v.issued, d.command = k := by
    rintro w c k hw hk ⟨d, hd, hcmd⟩
    rw [View.mem_issued_control, hw] at hd
    exact ⟨d, hd.resolve_right fun hdc => hk (hdc ▸ hcmd), hcmd⟩
  have hrecv : ∀ {c : SessionCell}, c.command ≠ .sessionReset →
      ∀ d ∈ v.received ++ [c], d ∈ v.received ∨ d.command ≠ .sessionReset := by
    intro c hc d hd
    refine (List.mem_append.mp hd).imp_right fun hd => ?_
    rwa [List.mem_singleton.mp hd]
  cases hs with
  | worker | dialed | writtenLate | connectLate | failedLate =>
    exact h.keep Iff.rfl ⟨rfl, rfl, rfl, rfl⟩ (fun _ h => h) (fun _ => .inl) (fun _ h => h)
      fun _ => .inl
  | written _ _ s _ hs =>
    exact h.keep (by simp [hs]) ⟨rfl, rfl, rfl, rfl⟩ (fun _ h => h) (fun _ => .inl) (fun _ h => h)
      fun _ => .inl
  | skipped hc hv =>
    refine ⟨h.resetReceived, h.resetIssued, fun hr => absurd (h.refusedIssued hr).2.2 hv,
      h.openReceived, fun _ => trivial, fun hc' => ?_, h.closed⟩
    rw [hc] at hc'
    cases hc'
  | requested target hc hv =>
    refine ⟨h.resetReceived, fun hr => h.resetIssued (hpush rfl (by simp) hr),
      fun hr => absurd (h.refusedIssued (hpush rfl (by simp) hr)).2.2 hv, fun hc' => ?_,
      fun _ => trivial, fun _ _ => .inr (.inl (by rintro ⟨⟩)), fun _ hcl => absurd (hlife.closed hcl) hv⟩
    rw [hc] at hc'
    cases hc'
  | control c rest hc =>
    have hmem : ∀ d, d ∈ rest ++ (v.sent ++ [c]) ↔ d ∈ v.issued := by
      intro d
      simp only [View.issued, hc, List.mem_append, List.mem_cons, List.not_mem_nil, or_false]
      tauto
    exact h.keep Iff.rfl ⟨rfl, rfl, rfl, rfl⟩ (fun d => (hmem d).mpr) (fun d hd => .inl ((hmem d).mp hd))
      (fun _ h => h) fun _ => .inl
  | served s s' c rx hs hg hserve =>
    refine h.keep (by simp [hs]) ⟨rfl, rfl, rfl, rfl⟩ (fun d hd => ?_) (fun d hd => ?_) (fun _ h => h)
      fun _ => .inl
    · simp only [View.issued, List.mem_append] at hd ⊢
      tauto
    · simp only [View.issued, List.mem_append, List.mem_singleton] at hd ⊢
      rcases hd with hd | hd | rfl
      · exact .inl (.inl hd)
      · exact .inl (.inr hd)
      · cases hserve <;> exact .inr rfl
  | retired s hs =>
    obtain ⟨hopen, hcon⟩ := hlive s hs
    exact of_closed (by simp) (by simpa) trivial (by simpa) (.inl trivial)
  | cancelled s hs | failed _ s _ hs =>
    obtain ⟨hopen, hcon⟩ := hlive s hs
    exact of_closed (by simp [View.control]) (by simpa [View.control]) (by simp [View.control])
      (by simpa [View.control])
      (.inr (.inl ⟨⟨.sessionReset, id, []⟩, by simp [View.issued, View.control], rfl⟩))
  | openedLate c s hcmd hc hs =>
    obtain ⟨hopen, hcon⟩ := hlive s hs
    exact of_closed (by simp [View.control]) (by simpa [View.control, View.receive])
      (by simp [View.control]) (by simpa [View.control, View.receive])
      (.inr (.inl ⟨⟨.sessionReset, id, []⟩, by simp [View.issued, View.control], rfl⟩))
  | refused c s hcmd hc hs =>
    obtain ⟨hopen, hcon⟩ := hlive s hs
    exact of_closed (by simp) (by simpa [View.receive]) trivial (by simpa [View.receive])
      (.inr (.inr ⟨c, by simp [View.receive], .inr hcmd⟩))
  | reset c hcmd =>
    exact of_closed (by simp) not_false trivial (by simpa [View.receive])
      (.inr (.inr ⟨c, by simp [View.receive], .inl hcmd⟩))
  | connected rest hc he hcon =>
    refine ⟨h.resetReceived, fun hr => h.resetIssued (hpush rfl (by simp) hr),
      fun hr => absurd hcon (h.refusedIssued (hpush rfl (by simp) hr)).2.1,
      fun _ _ => h.openReceived hc (.inl hcon), fun hr => h.openIssued (hpush rfl (by simp) hr), ?_, ?_⟩ <;>
    · intro hc'
      rw [hc] at hc'
      cases hc'
  | connectFailed rest hc he hcon =>
    have hnone := (hlife.fresh (.inr hcon)).stream
    refine ⟨h.resetReceived, fun hr => h.resetIssued (hpush rfl (by simp) hr),
      fun _ => ⟨hnone, not_false, (hlife.connecting hcon).1⟩,
      fun _ hl => absurd hnone (hl.resolve_left not_false),
      fun hr => h.openIssued (hpush rfl (by simp) hr), ?_, ?_⟩ <;>
    · intro hc'
      rw [hc] at hc'
      cases hc'
  | ignored _ _ hc | sessionReceived _ _ hc =>
    refine h.keep Iff.rfl ⟨rfl, rfl, rfl, rfl⟩ (fun _ h => h) (fun _ => .inl)
      (fun _ => List.mem_append_left _) (hrecv fun hr => ?_)
    rw [hr] at hc
    cases hc
  | openAccepted c hcmd hc hv =>
    refine ⟨?_, h.resetIssued, fun hr => absurd (h.refusedIssued hr).2.2 hv,
      fun _ _ => ⟨c, by simp [View.receive], hcmd⟩, fun _ => trivial, ?_, ?_⟩
    · rintro ⟨d, hd, hr⟩
      exact h.resetReceived ⟨d, (hrecv (by simp [hcmd]) d hd).resolve_right (absurd hr), hr⟩
    all_goals
      intro hc'
      rw [hc] at hc'
      cases hc'
  | openRefused c hcmd hc hv =>
    have hnone := (hlife.fresh (.inl hv)).stream
    have hcon : ¬ v.connecting := fun hcon => hv (hlife.connecting hcon).1
    refine ⟨?_, fun hr => h.resetIssued (hpush rfl (by simp) hr),
      fun _ => ⟨hnone, hcon, trivial⟩, fun _ hl => (hl.resolve_left hcon hnone).elim,
      fun _ => trivial, ?_, ?_⟩
    · rintro ⟨d, hd, hr⟩
      exact h.resetReceived ⟨d, (hrecv (by simp [hcmd]) d hd).resolve_right (absurd hr), hr⟩
    all_goals
      intro hc'
      rw [hc] at hc'
      cases hc'
  | openedReady _ _ hcmd _ hs | data _ _ _ hcmd hs _ _ _ _ _ | acked _ _ _ hcmd hs
  | ended _ _ _ hcmd hs _ _ =>
    exact h.keep (by simp [hs]) ⟨rfl, rfl, rfl, rfl⟩ (fun _ h => h) (fun _ => .inl)
      (fun _ => List.mem_append_left _) (hrecv (by simp [hcmd]))
  | sessionQueued c hid hc =>
    refine h.keep Iff.rfl ⟨rfl, rfl, rfl, rfl⟩ (fun d hd => ?_) (fun d hd => ?_) (fun _ h => h)
      fun _ => .inl
    · exact View.mem_issued_control.mpr (.inl hd)
    · refine (View.mem_issued_control.mp hd).imp_right ?_
      rintro rfl
      exact lifeCommand_of_session hc
  | sessionSent c hid hc =>
    refine h.keep Iff.rfl ⟨rfl, rfl, rfl, rfl⟩ (fun d hd => ?_) (fun d hd => ?_) (fun _ h => h)
      fun _ => .inl
    · simp only [View.issued, List.mem_append] at hd ⊢
      tauto
    · simp only [View.issued, List.mem_append, List.mem_singleton] at hd ⊢
      rcases hd with hd | hd | rfl
      · exact .inl (.inl hd)
      · exact .inl (.inr hd)
      · exact .inr (lifeCommand_of_session hc)

end View.Traces

/-- All cells of a retired stream have been exchanged and acknowledged. -/
structure View.Drained (v : View) : Prop where
  closed : v.closed
  sentEnd : EndIn v.sent
  acked : (dataOf v.sent).length = 0 ∨ (dataOf v.sent).length ∈ acksOf v.received
  ended : ∃ l, l <+: v.received ∧ EndIn l ∧
    ((dataOf l).length = 0 ∨ (dataOf l).length ∈ acksOf v.sent)

namespace View
variable {G : StreamGuard} {client : Bool} {id : ℕ} {v v' : View}

lemma Drained.of_retirable {s : Stream} (hinv : StreamInv v) (hs : v.stream = some s)
    (hr : s.retirable = true) : { v.close with retired := True }.Drained := by
  have hrecv := hinv.receiving.live s hs
  have hsend := hinv.sending.live s hs
  obtain ⟨⟨⟨⟨hsentEnd, hend⟩, hdrained⟩, heq⟩, hack⟩ : (((s.sentEnd = true ∧
      s.receivedEnd = true) ∧ s.window.sent = s.window.acknowledged) ∧ s.received = s.written) ∧
      s.ack = none := by
    simpa [Stream.retirable, SendWindow.drained] using hr
  have hacked : (dataOf v.sent).length = 0 ∨ (dataOf v.sent).length ∈ acksOf v.received := by
    rw [← hsend.counted, hdrained, hsend.acked]
    exact getLastD_zero_or_mem _
  have hwritten : (dataOf v.received).length = 0 ∨ (dataOf v.received).length ∈ acksOf v.sent := by
    rw [← hrecv.accepted, ← hrecv.counted, heq]
    exact hrecv.ackSent hack
  refine ⟨trivial, ?_, ?_, v.received, ?_, hrecv.ended.mp hend, ?_⟩
  · simpa using hsend.ended.mp hsentEnd
  · simpa using hacked
  · simp
  · simpa using hwritten

theorem Drained.step (h : v.retired → v.Drained) (hinv : StreamInv v)
    (hs : StreamStep G client id v v') : v'.retired → v'.Drained := by
  intro hr
  obtain ⟨s, hlive, hret, rfl⟩ | ⟨hr, hout⟩ := retired_cases hinv (fun hr => (h hr).closed) hs hr
  · exact .of_retirable hinv hlive hret
  · obtain ⟨-, hend, hacked, l, hl, hlend, hwritten⟩ := h hr
    refine ⟨hout.closed, endIn_mono hout.sent hend, ?_, l, hl.trans hout.received, hlend, ?_⟩
    · rw [hout.data]
      exact hacked.imp_right fun hmem => (acksOf_mono hout.received).subset hmem
    · exact hwritten.imp_right fun hmem => (acksOf_mono hout.sent).subset hmem

lemma traces_initial : (View.initial (id = 0)).Traces client id where
  resetReceived := by simp [initial]
  resetIssued := by simp [initial, issued]
  refusedIssued := by simp [initial, issued]
  openReceived := by simp [initial]
  openIssued := by simp [initial, issued]
  opened _ := .inl
  closed := by simp [initial]

end View

/-- What the finish needs to know of a stream. -/
structure FinishInv (client : Bool) (id : ℕ) (v : View) : Prop extends PeerInv v where
  traces : v.Traces client id
  drained : v.retired → v.Drained
  zero : id = 0 → v.opened ∧ v.stream = none ∧ ¬ v.connecting

theorem finishInv_of_run {client : Bool} {profile : Profile} {sequenceNo interval id : ℕ}
    {e : Endpoint} (h : Run Endpoint.step (.new client profile sequenceNo interval) e) :
    FinishInv client id (e.view id) := by
  have hinv : (e.view id).Traces client id ∧ ((e.view id).retired → (e.view id).Drained) ∧
      (id = 0 → (e.view id).opened ∧ (e.view id).stream = none ∧ ¬ (e.view id).connecting) ∧
      StreamInv (e.view id) := by
    refine Endpoint.view_invariant (I := fun v => v.Traces client id ∧ (v.retired → v.Drained) ∧
      (id = 0 → v.opened ∧ v.stream = none ∧ ¬ v.connecting) ∧ StreamInv v) (any_of_run h) ?_ ?_
    · exact ⟨View.traces_initial, by rintro ⟨⟩, fun hid => ⟨hid, rfl, not_false⟩, View.life_initial _,
        receiving_initial _, sending_initial _⟩
    · rintro v v' ⟨htraces, hdrained, hzero, hinv⟩ hs
      refine ⟨htraces.step hinv.life hs, View.Drained.step hdrained hinv hs, fun hid => ?_,
        hinv.step hs⟩
      obtain ⟨hopen, hnone, hcon⟩ := hzero hid
      cases hs <;> simp_all [View.control, View.receive, View.close, View.remove]
  exact ⟨peerInv_of_run h, hinv.1, hinv.2.1, hinv.2.2.1⟩

section Peers
variable {id : ℕ} {C E : View}

/-- If the client is done with an id, and all it sent for it has arrived, then an
exit that is not done with the id shares a stream that the client has retired. -/
lemma retired_of_done (hC : FinishInv true id C) (hE : FinishInv false id E) (hid : id ≠ 0)
    (hforth : E.received = C.sent) (hback : C.received <+: E.sent) (hstream : C.stream = none)
    (hcontrols : C.controls = []) (hheld : E.connecting ∨ E.stream ≠ none) : C.retired := by
  have hnot : ¬ E.closed := hheld.elim (fun h => (hE.life.connecting h).2)
    fun h => (hE.life.live h).2.1
  obtain ⟨c, hc, hcmd⟩ := hE.traces.openReceived rfl hheld
  have hopened : C.opened :=
    hC.traces.openIssued ⟨c, List.mem_append_right _ (hforth ▸ hc), hcmd⟩
  have hclosed : C.closed := ((hC.traces.opened rfl hopened).resolve_left hid).resolve_left
    (not_not.mpr hstream)
  obtain hret | ⟨c, hc, hcmd⟩ | ⟨c, hc, hcmd⟩ := hC.traces.closed rfl hclosed
  · exact hret
  · rw [View.issued, hcontrols, List.nil_append, ← hforth] at hc
    exact absurd (hE.traces.resetReceived ⟨c, hc, hcmd⟩) hnot
  · have hmem : c ∈ E.issued := List.mem_append_right _ (hback.subset hc)
    rcases hcmd with hcmd | hcmd
    · exact absurd (hE.traces.resetIssued ⟨c, hmem, hcmd⟩) hnot
    · obtain ⟨hnone, hcon, -⟩ := hE.traces.refusedIssued ⟨c, hmem, hcmd⟩
      exact (hheld.elim hcon (absurd hnone)).elim

lemma le_getLastD_of_mem {l : List ℕ} (h : l.Pairwise (· < ·)) {a : ℕ} (ha : a ∈ l) :
    a ≤ l.getLastD 0 := by
  induction l using List.reverseRecOn with
  | nil => cases ha
  | append_singleton l b =>
    rw [List.getLastD_concat]
    rcases List.mem_append.mp ha with ha | ha
    · exact ((List.pairwise_append.mp h).2.2 a ha b (by simp)).le
    · exact (List.mem_singleton.mp ha).le

/-- The exit's end of a stream that the client has retired can be retired. -/
lemma retirable_of_retired (hC : FinishInv true id C) (hE : FinishInv false id E) (hret : C.retired)
    (hforth : E.received = C.sent) (hback : C.received <+: E.sent) {r : Stream}
    (hr : E.stream = some r) : r.retirable = true := by
  have hrecv := hE.receiving.live r hr
  have hsend := hE.sending.live r hr
  obtain ⟨-, hend, hacked, l, hl, hlend, hwritten⟩ := hC.drained hret
  have hreceived : r.received = (dataOf C.sent).length := by
    rw [hrecv.counted, hrecv.accepted, hforth]
  -- the client has the acknowledgement of all its data
  have hdone : r.received ≤ r.written := by
    rw [hreceived]
    rcases hacked with hzero | hmem
    · omega
    · exact hrecv.acks_le _ ((acksOf_mono hback).subset hmem)
  have heq : r.received = r.written :=
    Nat.le_antisymm hdone (hrecv.written_le hE.receiving.writer).2.2
  have hack : r.ack = none := by
    cases hack : r.ack with
    | none => rfl
    | some a =>
      obtain ⟨rfl, hpos, hlt⟩ := hrecv.ackPending a hack
      rcases hacked with hzero | hmem
      · omega
      · have := hlt _ ((acksOf_mono hback).subset hmem)
        omega
  -- and it has sent the acknowledgement of all the exit's data
  have hprefix : l <+: E.sent := hl.trans hback
  have hsentEnd : EndIn E.sent := endIn_mono hprefix hlend
  have hdata : dataOf E.sent = dataOf l := by
    obtain ⟨more, hmore⟩ := hprefix
    have hpair := hE.sending.endLast
    rw [← hmore] at hpair ⊢
    exact dataOf_of_endIn hlend hpair
  have hdrained : r.window.sent = r.window.acknowledged := by
    refine Nat.le_antisymm ?_ hsend.ordered
    rw [hsend.counted, hdata, hsend.acked]
    rcases hwritten with hzero | hmem
    · omega
    · rw [hforth]
      exact le_getLastD_of_mem hC.receiving.sorted hmem
  simp [Stream.retirable, SendWindow.drained, hsend.ended.mpr hsentEnd,
    hrecv.ended.mpr (hforth ▸ hend), hdrained, heq, hack]

end Peers

namespace Endpoint
variable {e e' : Endpoint} {sequenceNo interval : ℕ}

/-- An endpoint that knows of the peer's finish has received it. -/
lemma peerFinish_of_step {i : SessionInput} (hs : e.step i = some e') :
    e'.peerFinish = e.peerFinish ∨ ∃ c ∈ e'.receivedLog, c.command = .sessionFinish := by
  cases advances_of_step hs with
  | failed | requestRefused | worker | connect => exact .inl rfl
  | tick t _ hr _ ht =>
    cases tick_eq_ok ht with
    | last => exact .inl rfl
    | cell c e₁ time _ hsel => exact .inl (cellFrame_of_select time hsel).peerFinish
  | requested now host port _ _ _ _ hreq =>
    obtain ⟨target, rfl⟩ := request_eq_ok hreq
    exact .inl rfl
  | event now x rest _ _ _ _ hx =>
    obtain ⟨_, _, _, _, _, _, rfl⟩ := hx.tables
    exact .inl rfl
  | frame now budget c _ _ _ hd =>
    obtain ⟨_, _, _, _, _, _, _, _, _, _, _, rfl, hpeer, -⟩ := hd.tables
    exact hpeer.imp_right fun hcmd => ⟨c, by simp [logFrame], hcmd⟩

lemma finish_received_of_run {client : Bool} {profile : Profile}
    (h : Run step (new client profile sequenceNo interval) e) (hpeer : e.peerFinish = true) :
    ∃ c ∈ e.receivedLog, c.command = .sessionFinish := by
  revert hpeer
  refine h.invariant (I := fun e => e.peerFinish = true → ∃ c ∈ e.receivedLog,
    c.command = .sessionFinish) (by rintro ⟨⟩) fun e i e' he _ hs hpeer => ?_
  rcases peerFinish_of_step hs with hsame | hnew
  · obtain ⟨c, hc, hcmd⟩ := he (hsame ▸ hpeer)
    obtain ⟨-, hlog, -⟩ := logs_of_step hs
    refine ⟨c, ?_, hcmd⟩
    rcases hlog with hlog | ⟨_, _, -, hlog⟩ <;> rw [hlog]
    · exact hc
    · exact List.mem_append_left _ hc
  · exact hnew

lemma finishing_of_run {profile : Profile}
    (h : Run step (new true profile sequenceNo interval) e) : e.Finishing := by
  refine (h.invariant (I := fun e => e.client = true ∧ e.Finishing)
    ⟨rfl, rfl, by rintro ⟨⟩, by simp [new], by rintro ⟨⟩⟩ fun e i e' he _ hs => ?_).2
  obtain ⟨n, hn⟩ := he.2.exists_lateCount
  exact ⟨(setup_step hs).1.trans he.1, (he.2.step hn he.1 hs).1⟩

/-- An exit without streams and connects takes the announcement. -/
lemma frame_finish {now : ℕ} (hclient : e.client = false) (hstreams : e.streams.isEmpty = true)
    (hconnecting : e.connecting = ∅) (hpeer : e.peerFinish = false)
    (h : e.step (.frame now (.ok ⟨.sessionFinish, 0, []⟩)) = some e') :
    e'.result ≠ some (.error (.invalid .commandOrState)) ∧
      (e'.result = none → e'.peerFinish = true) := by
  simp only [step, iterate] at h
  split_ifs at h with hdone
  split at h
  · rename_i fault hfault
    cases h
    refine ⟨?_, by rintro ⟨⟩⟩
    rintro ⟨⟩
    simp only [headFault] at hfault
    split_ifs at hfault <;> cases hfault
  · simp only [handleFrame] at h
    split_ifs at h
    · cases h
      exact ⟨by rintro ⟨⟩, by rintro ⟨⟩⟩
    · have hnone : e.result = none := by
        rw [not_or] at hdone
        simpa using hdone.1
      simp only [dispatch, lateCommand, hclient, hstreams, hconnecting, hpeer, Bool.false_eq_true,
        and_false, and_self, if_false, if_true, Option.some.injEq] at h
      subst h
      simp [hnone]

end Endpoint

namespace SessionPair
variable {p : SessionPair} {profile : Profile}
  {clientSeq exitSeq clientInterval exitInterval : ℕ}

/-- A list that ends in one announcement and cover is split at the announcement. -/
lemma split_at_finish {a l rest : List SessionCell} {k : ℕ} {c : SessionCell}
    (h : a ++ c :: List.replicate k ⟨.dummy, 0, []⟩ = l ++ c :: rest)
    (hc : c.command = .sessionFinish) (ha : ∀ d ∈ a, d.command ≠ .sessionFinish) : l = a := by
  rcases List.append_eq_append_iff.mp h with ⟨m, rfl, hm⟩ | ⟨m, rfl, hm⟩
  · cases m with
    | nil => simp
    | cons =>
      obtain ⟨-, hm⟩ := List.cons.inj hm
      have hmem : c ∈ List.replicate k (⟨.dummy, 0, []⟩ : SessionCell) := by simp [hm]
      rw [List.eq_of_mem_replicate hmem] at hc
      cases hc
  · cases m with
    | nil => simp
    | cons =>
      obtain ⟨rfl, -⟩ := List.cons.inj hm
      exact absurd hc (ha c (by simp))

/-- What the two ends hold when the announcement is the next cell to arrive. -/
lemma at_finish {rest : List SessionCell}
    (h : Run step (new profile clientSeq exitSeq clientInterval exitInterval) p)
    (hq : p.forward = ⟨.sessionFinish, 0, []⟩ :: rest) (hr : p.exit.result = none) :
    p.exit.peerFinish = false ∧ ∀ id, id ≠ 0 → (p.exit.view id).received = (p.client.view id).sent ∧
      (p.client.view id).stream = none ∧ (p.client.view id).controls = [] := by
  obtain ⟨hclient, hexit⟩ := runs_of_run (both_of_run h)
  have hfin := Endpoint.finishing_of_run hclient
  have hlog : p.client.sentLog = p.exit.receivedLog ++ ⟨.sessionFinish, 0, []⟩ :: rest := by
    rw [← hq]
    exact (linked_of_run h .forward).2 hr
  have hannounced : p.client.finishing = true := by
    cases hf : p.client.finishing with
    | true => rfl
    | false => exact absurd rfl (hfin.before hf ⟨.sessionFinish, 0, []⟩ (by simp [hlog]))
  obtain ⟨a, k, ha, -, hno⟩ := hfin.after hannounced
  have hsplit : p.exit.receivedLog = a := split_at_finish (ha.symm.trans hlog) rfl hno
  obtain ⟨hstreams, hcontrols⟩ := hfin.quiet hannounced
  refine ⟨?_, fun id hid => ⟨?_, Endpoint.isEmpty_iff.mp hstreams id, ?_⟩⟩
  · cases hp : p.exit.peerFinish with
    | false => rfl
    | true =>
      obtain ⟨c, hc, hcmd⟩ := Endpoint.finish_received_of_run hexit hp
      exact absurd hcmd (hno c (hsplit ▸ hc))
  · have hcover : cellsOf id (⟨.sessionFinish, 0, []⟩ :: List.replicate k ⟨.dummy, 0, []⟩) = [] := by
      simp [cellsOf, hid.symm]
    show cellsOf id p.exit.receivedLog = cellsOf id p.client.sentLog
    rw [ha, hsplit, cellsOf_append, hcover, List.append_nil]
  · show cellsOf id p.client.controls = []
    rw [hcontrols, cellsOf_nil]

/-- When the announcement arrives the exit has no pending connect, and every
stream it still has only waits for the retirement pass of the exit's next tick.
If there is none, the announcement is not an error. -/
theorem finish_accepted_iff {rest : List SessionCell}
    (h : Run step (new profile clientSeq exitSeq clientInterval exitInterval) p)
    (hq : p.forward = ⟨.sessionFinish, 0, []⟩ :: rest) (hr : p.exit.result = none) :
    p.exit.connecting = ∅ ∧
      (p.exit.streams.isEmpty = true ↔
        ∀ (id : ℕ) (s : Stream), p.exit.streams[id]? = some s → s.retirable = false) ∧
      ((∀ (id : ℕ) (s : Stream), p.exit.streams[id]? = some s → s.retirable = false) →
        ∀ (now : ℕ) (q : SessionPair), p.step (.deliverForward now) = some q →
          q.exit.result ≠ some (.error (.invalid .commandOrState)) ∧
            (q.exit.result = none → q.exit.peerFinish = true)) := by
  obtain ⟨hclient, hexit⟩ := runs_of_run (both_of_run h)
  obtain ⟨hpeer, hviews⟩ := at_finish h hq hr
  have hC : ∀ id, FinishInv true id (p.client.view id) := fun _ => finishInv_of_run hclient
  have hE : ∀ id, FinishInv false id (p.exit.view id) := fun _ => finishInv_of_run hexit
  have hback : ∀ id, (p.client.view id).received <+: (p.exit.view id).sent := fun id =>
    (views_linked (linked_of_run h) .forward id).2
  have hretired : ∀ id, (p.exit.view id).connecting ∨ (p.exit.view id).stream ≠ none →
      id ≠ 0 ∧ (p.client.view id).retired := by
    intro id hheld
    have hid : id ≠ 0 := by
      intro hid
      obtain ⟨-, hnone, hcon⟩ := (hE id).zero hid
      exact hheld.elim hcon (absurd hnone)
    obtain ⟨hforth, hstream, hcontrols⟩ := hviews id hid
    exact ⟨hid, retired_of_done (hC id) (hE id) hid hforth (hback id) hstream hcontrols hheld⟩
  have hconnecting : p.exit.connecting = ∅ := by
    refine Finset.eq_empty_iff_forall_notMem.mpr fun id hcon => ?_
    obtain ⟨hid, hret⟩ := hretired id (.inl hcon)
    -- the client's end of the stream has arrived, so the exit's connect is over
    obtain ⟨c, hc, hend⟩ := ((hC id).drained hret).sentEnd
    rw [← (hviews id hid).1] at hc
    have := ((hE id).life.fresh (.inr hcon)).received c hc
    rw [hend] at this
    cases this
  have hstreams : p.exit.streams.isEmpty = true ↔
      ∀ (id : ℕ) (s : Stream), p.exit.streams[id]? = some s → s.retirable = false := by
    rw [Endpoint.isEmpty_iff]
    refine ⟨fun hnone id s hs => ?_, fun hnot id => ?_⟩
    · rw [hnone id] at hs
      cases hs
    · cases hs : p.exit.streams[id]? with
      | none => rfl
      | some s =>
        have hlive : (p.exit.view id).stream = some s := hs
        obtain ⟨hid, hret⟩ := hretired id (.inr (by simp [hlive]))
        have := retirable_of_retired (hC id) (hE id) hret (hviews id hid).1 (hback id) hlive
        rw [hnot id s hs] at this
        cases this
  refine ⟨hconnecting, hstreams, fun hnot now q hs => ?_⟩
  simp only [step, hq] at hs
  obtain ⟨e, he, rfl⟩ := Option.map_eq_some_iff.mp hs
  exact Endpoint.frame_finish (Endpoint.client_of_run hexit).1 (hstreams.mpr hnot) hconnecting hpeer he

/-- A stream on which both sides have nothing to send. The exit ends it first. -/
def exitEnds : List PairInput := [
  .client (.request (millis 1) "a" 80), .client (.clock (.prompt 40)), .exit (.clock (.prompt 40)),
  .deliverForward (millis 50), .exit (.connect 1 true), .exit (.event (millis 60)),
  .exit (.clock ⟨millis 80, some (millis 980), millis 40⟩), .deliverBackward (millis 980),
  .deliverBackward (millis 980), .exit (.worker 1 .eof), .exit (.worker 1 .readerLeave),
  .client (.worker 1 .eof), .client (.worker 1 .readerLeave),
  .client (.clock ⟨millis 980, some (millis 1000), millis 40⟩), .deliverForward (millis 1000),
  .exit (.clock (.prompt 1020)), .deliverBackward (millis 1020)]

/-- The client ends the stream too, and retires it. -/
def clientEnds : PairInput := .client (.clock (.prompt 1040))

/-- The exit's next cell does not leave it for 30 seconds. -/
def exitStalls : PairInput := .exit (.clock ⟨millis 1060, some (millis 30900), millis 40⟩)

/-- The rest of the client's first bucket. -/
def clientFills : List PairInput :=
  .client (.clock ⟨millis 1080, some (millis 28000), millis 40⟩) ::
    (List.range' 1 60).map fun k => .client (.clock (.prompt (28000 + 40 * k)))

/-- The client's end reaches the exit after the exit's last tick. -/
def endAfterTick : SessionPair :=
  (runInputs step quietStart (exitEnds ++ [exitStalls, clientEnds] ++ clientFills ++
    List.replicate 61 (.deliverForward (millis 30910)))).getD quietStart

theorem finish_rejected : Run step quietStart endAfterTick ∧
    endAfterTick.forward = [⟨.sessionFinish, 0, []⟩] ∧ endAfterTick.exit.result = none ∧
    endAfterTick.exit.streams.size = 1 ∧
    (endAfterTick.step (.deliverForward (millis 30910))).map (·.exit.result) =
      some (some (.error (.invalid .commandOrState))) :=
  ⟨Run.getD_inputs _, by decide +kernel⟩

/-- The client's end reaches the exit before that tick, which retires the stream. -/
def endBeforeTick : SessionPair :=
  (runInputs step quietStart (exitEnds ++ [clientEnds, .deliverForward (millis 1050), exitStalls] ++
    clientFills ++ List.replicate 60 (.deliverForward (millis 30910)))).getD quietStart

theorem finish_accepted : endBeforeTick.exit.retired = {1} ∧ endBeforeTick.exit.connecting = ∅ ∧
    endBeforeTick.exit.streams.isEmpty = true ∧
    ∀ (now : ℕ) (q : SessionPair), endBeforeTick.step (.deliverForward now) = some q →
      q.exit.result ≠ some (.error (.invalid .commandOrState)) ∧
        (q.exit.result = none → q.exit.peerFinish = true) := by
  obtain ⟨hforward, hresult, hretired, hempty⟩ :
      endBeforeTick.forward = [⟨.sessionFinish, 0, []⟩] ∧ endBeforeTick.exit.result = none ∧
        endBeforeTick.exit.retired = {1} ∧ endBeforeTick.exit.streams.isEmpty = true := by
    decide +kernel
  obtain ⟨hconnecting, hstreams, htaken⟩ :=
    finish_accepted_iff (Run.getD_inputs _) hforward hresult
  exact ⟨hretired, hconnecting, hempty, htaken (hstreams.mp hempty)⟩

end SessionPair

end AnonGuard
