import AnonGuard.SessionReceive

/-!
# The sending half of a stream

The reader task queues what it reads from the local socket; the actor packs the
queued bytes into data cells while the peer's acknowledgements leave credit, and
ends the stream when the reader has gone. The invariant follows every byte from
the socket to the log of sent cells. It holds whatever the peer sends.
-/
namespace AnonGuard

/-- The read that the reader task holds and has not queued yet. -/
def ReaderPoint.holding : ReaderPoint → Bytes
  | .send data => data
  | _ => []

structure LiveSend (s : Stream) (w : Workers) (sent received : List SessionCell) : Prop where
  counted : s.window.sent = (dataOf sent).length
  acked : s.window.acknowledged = (acksOf received).getLastD 0
  ordered : s.window.acknowledged ≤ s.window.sent
  credit : s.window.sent ≤ s.window.acknowledged + WINDOW_CELLS
  bound : s.window.sent < U32_SIZE
  bytes : (dataOf sent).flatten ++ (Outgoing.mk w.outgoing s.pending).bytes ++ w.reader.holding =
    w.read
  sized : (Outgoing.mk w.outgoing s.pending).WellSized
  ended : s.sentEnd = true ↔ EndIn sent

structure Sending (v : View) : Prop where
  sent : (dataOf v.sent).flatten <+: v.workers.read
  reader : v.workers.outgoing.senderOpen = false ↔ v.workers.reader = .gone
  held : ∀ d, v.workers.reader = .send d → Outgoing.ReadSize d
  sizes : ∀ d ∈ dataOf v.sent, Outgoing.ReadSize d
  credit : ∃ a, (a = 0 ∨ a ∈ acksOf v.received) ∧ (dataOf v.sent).length ≤ a + WINDOW_CELLS
  endLast : v.sent.Pairwise fun c d => c.command = .end → d.command ≠ .data ∧ d.command ≠ .end
  endRead : EndIn v.sent →
    v.workers.reader = .gone ∧ (dataOf v.sent).flatten = v.workers.read
  live : ∀ s, v.stream = some s → LiveSend s v.workers v.sent v.received

/-- The parts of the workers that the sending half reads. -/
def SameReader (w w' : Workers) : Prop :=
  w'.outgoing.queue = w.outgoing.queue ∧ w'.outgoing.senderOpen = w.outgoing.senderOpen ∧
    w'.reader = w.reader ∧ w'.read = w.read

theorem SameReader.close (v : View) : SameReader v.workers v.close.workers := by
  rcases v.workers_close with h | h <;> rw [h] <;> exact ⟨rfl, rfl, rfl, rfl⟩

theorem SameReader.rfl (w : Workers) : SameReader w w :=
  ⟨Eq.refl _, Eq.refl _, Eq.refl _, Eq.refl _⟩

variable {c : SessionCell}

lemma pairwise_concat_of_end {l : List SessionCell}
    (h : l.Pairwise fun c d => c.command = .end → d.command ≠ .data ∧ d.command ≠ .end)
    (hc : EndIn l → c.command ≠ .data ∧ c.command ≠ .end) :
    (l ++ [c]).Pairwise fun c d => c.command = .end → d.command ≠ .data ∧ d.command ≠ .end := by
  refine List.pairwise_append.mpr ⟨h, List.pairwise_singleton _ _, fun d hd x hx hend => ?_⟩
  rw [List.mem_singleton.mp hx]
  exact hc ⟨d, hd, hend⟩

variable {v v' : View} {id : ℕ} {s : Stream}

/-- A step that leaves the reader and the sent data alone. The log of sent cells
may grow by other cells, and the log of received ones by anything. -/
theorem Sending.transfer (h : Sending v) (hw : SameReader v.workers v'.workers)
    (hdata : dataOf v'.sent = dataOf v.sent) (hend : EndIn v'.sent ↔ EndIn v.sent)
    (hlast : v'.sent.Pairwise fun c d => c.command = .end → d.command ≠ .data ∧ d.command ≠ .end)
    (hacks : ∀ a ∈ acksOf v.received, a ∈ acksOf v'.received)
    (hlive : ∀ s', v'.stream = some s' → ∃ s, v.stream = some s ∧ s'.window = s.window ∧
      s'.pending = s.pending ∧ s'.sentEnd = s.sentEnd ∧ acksOf v'.received = acksOf v.received) :
    Sending v' := by
  obtain ⟨h1, h2, h3, h4⟩ := hw
  refine ⟨?_, ?_, ?_, ?_, ?_, hlast, ?_, ?_⟩
  · rw [hdata, h4]
    exact h.sent
  · rw [h2, h3]
    exact h.reader
  · rw [h3]
    exact h.held
  · rw [hdata]
    exact h.sizes
  · obtain ⟨a, ha, hle⟩ := h.credit
    exact ⟨a, ha.imp id (hacks a), by rw [hdata]; exact hle⟩
  · rw [hend, h3, hdata, h4]
    exact h.endRead
  · intro s' hs'
    obtain ⟨s, hs, e1, e2, e3, e4⟩ := hlive s' hs'
    have hl := h.live s hs
    refine ⟨?_, ?_, ?_, ?_, ?_, ?_, ?_, ?_⟩
    · rw [e1, hdata]
      exact hl.counted
    · rw [e1, e4]
      exact hl.acked
    · rw [e1]
      exact hl.ordered
    · rw [e1]
      exact hl.credit
    · rw [e1]
      exact hl.bound
    · have hb := hl.bytes
      simp only [Outgoing.bytes] at hb ⊢
      rw [hdata, h1, h3, h4, e2]
      exact hb
    · have hsz := hl.sized
      simp only [Outgoing.WellSized] at hsz ⊢
      rw [h1, e2]
      exact hsz
    · rw [e3, hend]
      exact hl.ended

lemma Sending.removed (h : Sending v) (hw : SameReader v.workers v'.workers)
    (hsent : v'.sent = v.sent) (hacks : ∀ a ∈ acksOf v.received, a ∈ acksOf v'.received)
    (hstream : v'.stream = none) : Sending v' :=
  h.transfer hw (by rw [hsent]) (by rw [hsent]) (by rw [hsent]; exact h.endLast) hacks
    (by simp [hstream])

theorem sending_initial (opened : Prop) : Sending (.initial opened) where
  sent := List.nil_prefix
  reader := by simp [View.initial, Workers.absent]
  held := by simp [View.initial, Workers.absent]
  sizes := by simp [View.initial]
  credit := ⟨0, .inl rfl, Nat.zero_le _⟩
  endLast := .nil
  endRead := by simp [View.initial, EndIn]
  live := by simp [View.initial]

/-- A stream that was just attached to a fresh id. -/
theorem Sending.attach (hf : v.Fresh) (hw : v'.workers = .attached)
    (hsent : v'.sent = v.sent) (hreceived : v'.received = v.received)
    (hstream : ∀ s, v'.stream = some s →
      s.window = ⟨0, 0⟩ ∧ s.pending = none ∧ s.sentEnd = false) : Sending v' := by
  have hdata := dataOf_eq_nil _ hf.sent
  have hacks := acksOf_eq_nil _ hf.received
  have hend := not_endIn _ hf.sent
  have hpos : 0 < U32_SIZE := by unfold U32_SIZE; decide
  refine ⟨?_, ?_, ?_, ?_, ?_, ?_, ?_, fun s hs => ?_⟩
  · rw [hsent, hdata]
    exact List.nil_prefix
  · rw [hw]
    exact ⟨by rintro ⟨⟩, by rintro ⟨⟩⟩
  · rw [hw]
    rintro _ ⟨⟩
  · rw [hsent, hdata]
    simp
  · exact ⟨0, .inl rfl, by rw [hsent, hdata]; exact Nat.zero_le _⟩
  · rw [hsent]
    exact List.pairwise_iff_forall_sublist.mpr fun {a b} hab ha =>
      absurd ⟨a, hab.subset (by simp), ha⟩ hend
  · rw [hsent]
    exact fun h => absurd h hend
  · obtain ⟨e1, e2, e3⟩ := hstream s hs
    rw [hw, hsent, hreceived]
    refine ⟨by rw [e1, hdata]; rfl, by rw [e1, hacks]; rfl, by rw [e1], by rw [e1]; exact Nat.zero_le _,
      by rw [e1]; exact hpos, ?_, ?_, by simp [e3, hend]⟩
    · rw [hdata, e2]
      rfl
    · rw [e2]
      exact ⟨by simp, by simp [Workers.attached, Channel.new]⟩

/-- What a reader step does to the bytes in transit. -/
lemma reader_step {w w' : Workers} {evs : List Event} (hs : w.Steps id w' evs)
    (hreader : w.outgoing.senderOpen = false ↔ w.reader = .gone)
    (hheld : ∀ d, w.reader = .send d → Outgoing.ReadSize d) :
    (w'.outgoing.senderOpen = false ↔ w'.reader = .gone) ∧
      (∀ d, w'.reader = .send d → Outgoing.ReadSize d) ∧ w.read <+: w'.read ∧
      (w.reader = .gone → w'.reader = .gone ∧ w'.read = w.read) ∧
      (w.outgoing.receiverOpen = true → ∃ more, w'.read = w.read ++ more ∧
        w.outgoing.queue.flatten ++ (w.reader.holding ++ more) =
          w'.outgoing.queue.flatten ++ w'.reader.holding) ∧
      ((∀ d ∈ w.outgoing.queue, Outgoing.ReadSize d) →
        ∀ d ∈ w'.outgoing.queue, Outgoing.ReadSize d) := by
  cases hs with
  | read data hr hd =>
    refine ⟨by simpa [hr] using hreader, by rintro _ ⟨⟩; exact hd, List.prefix_append _ _,
      by simp [hr], fun _ => ⟨data, rfl, ?_⟩, fun h => h⟩
    rw [hr]
    rfl
  | eof hr | readerReport hr =>
    refine ⟨by simpa [hr] using hreader, by simp, List.prefix_rfl, by simp [hr],
      fun _ => ⟨[], by simp, ?_⟩, fun h => h⟩
    rw [hr]
    rfl
  | readError hr =>
    refine ⟨by simpa [hr, Workers.failReader] using hreader, by rintro _ ⟨⟩, List.prefix_rfl, by simp [hr],
      fun _ => ⟨[], by simp [Workers.failReader], ?_⟩, fun h => h⟩
    rw [hr]
    rfl
  | send data hr =>
    refine ⟨by simpa [hr] using hreader, by simp, List.prefix_rfl, by simp [hr],
      fun _ => ⟨[], by simp, ?_⟩, fun hq d hd => ?_⟩
    · rw [hr]
      simp [ReaderPoint.holding]
    · rcases List.mem_append.mp hd with hd | hd
      · exact hq d hd
      · rw [List.mem_singleton.mp hd]
        exact hheld data hr
  | outputClosed data hr ho =>
    refine ⟨by simpa [hr] using hreader, by simp, List.prefix_rfl, by simp [hr], fun h => ?_, fun h => h⟩
    rw [ho] at h
    cases h
  | readerLeave hr =>
    refine ⟨by simp, by simp, List.prefix_rfl, by simp [hr], fun _ => ⟨[], by simp, ?_⟩, fun h => h⟩
    rw [hr]
    rfl
  | take | takeEnd | inputClosed | put | putLast | putOverflow | writeError | notify | shutdown
  | writerReport | writerLeave | cancelReply =>
    exact ⟨hreader, hheld, List.prefix_rfl, fun h => ⟨h, rfl⟩, fun _ => ⟨[], by simp [Workers.failWriter],
      by simp [Workers.failWriter]⟩,
      fun h => h⟩

lemma Sending.worker {v : View} (h : Sending v) (hlife : v.Life) {w : Workers}
    {evs : List Event} (hs : v.workers.Steps id w evs) :
    Sending { v with workers := w, events := v.events ++ evs } := by
  obtain ⟨hreader, hheld, hread, hgone, hbytes, hsized⟩ := reader_step hs h.reader h.held
  refine ⟨h.sent.trans hread, hreader, hheld, h.sizes, h.credit, h.endLast, fun hend => ?_,
    fun s hstream => ?_⟩
  · obtain ⟨hg, heq⟩ := h.endRead hend
    exact ⟨(hgone hg).1, heq.trans (hgone hg).2.symm⟩
  · have hl := h.live s hstream
    obtain ⟨-, -, -, -, hout⟩ := hlife.live (by rw [show v.stream = some s from hstream]; simp)
    obtain ⟨more, hmore, hflat⟩ := hbytes hout
    refine ⟨hl.counted, hl.acked, hl.ordered, hl.credit, hl.bound, ?_,
      ⟨hl.sized.1, hsized hl.sized.2⟩, hl.ended⟩
    have hb := hl.bytes
    simp only [Outgoing.bytes, List.append_assoc] at hb ⊢
    rw [← hflat, hmore, ← hb]
    simp only [List.append_assoc]

lemma getLastD_zero_or_mem (l : List ℕ) : l.getLastD 0 = 0 ∨ l.getLastD 0 ∈ l := by
  rcases l.eq_nil_or_concat with rfl | ⟨l, a, rfl⟩
  · exact .inl rfl
  · exact .inr (by simp)

/-- A data cell takes bytes from the front of the queue. -/
lemma Sending.dataServed {v : View} (h : Sending v) {data : Bytes}
    {o : Outgoing} (hs : v.stream = some s) (hend : s.sentEnd = false)
    (havail : s.window.available = true) (hcount : s.window.sent + 1 < U32_SIZE)
    (hnext : Outgoing.tryNext ⟨v.workers.outgoing, s.pending⟩ = .ok (data, o)) :
    Sending { v with
      stream := some { s with
        pending := o.pending, window := { s.window with sent := s.window.sent + 1 } }
      workers := { v.workers with outgoing := o.receiver }
      sent := v.sent ++ [⟨.data, id, data⟩] } := by
  have hl := h.live s hs
  obtain ⟨hbytes, hrx, hsized⟩ := Outgoing.tryNext_eq_ok hnext
  obtain ⟨hsize, hsized'⟩ := hsized hl.sized
  have hnoEnd : ¬ EndIn v.sent := fun he => by
    rw [hl.ended.mpr he] at hend
    cases hend
  have hdata : dataOf (v.sent ++ [⟨.data, id, data⟩]) = dataOf v.sent ++ [data] :=
    dataOf_concat _ rfl
  have hlt : s.window.sent < s.window.acknowledged + WINDOW_CELLS := by
    have := of_decide_eq_true havail
    rw [sub32_eq hl.ordered] at this
    omega
  have hall : (dataOf v.sent ++ [data]).flatten ++ o.bytes ++ v.workers.reader.holding =
      v.workers.read := by
    rw [← hl.bytes, ← hbytes]
    simp
  refine ⟨?_, ?_, h.held, ?_, ?_, ?_, ?_, ?_⟩
  · rw [hdata]
    exact ⟨_, by rw [← List.append_assoc]; exact hall⟩
  · rw [hrx]
    exact h.reader
  · rw [hdata]
    intro d hd
    rcases List.mem_append.mp hd with hd | hd
    · exact h.sizes d hd
    · rw [List.mem_singleton.mp hd]
      exact hsize
  · refine ⟨s.window.acknowledged, ?_, ?_⟩
    · rw [hl.acked]
      exact getLastD_zero_or_mem _
    · rw [hdata, List.length_append, ← hl.counted]
      simp only [List.length_cons, List.length_nil]
      omega
  · exact pairwise_concat_of_end h.endLast fun he => absurd he hnoEnd
  · intro he
    rw [endIn_concat] at he
    exact absurd (he.resolve_right (by simp)) hnoEnd
  · rintro _ ⟨⟩
    have hord := hl.ordered
    refine ⟨?_, hl.acked, by simp only; omega, by simp only; omega, hcount, by rw [hdata]; exact hall,
      hsized', ?_⟩
    · rw [hdata, List.length_append, ← hl.counted]
      rfl
    · rw [endIn_concat]
      simpa using hl.ended

/-- The end is sent once the reader has gone and nothing is queued. -/
lemma Sending.endServed {v : View} (h : Sending v) (hs : v.stream = some s)
    (hend : s.sentEnd = false) (hpending : s.pending = none)
    (hqueue : v.workers.outgoing.queue = []) (hsender : v.workers.outgoing.senderOpen = false) :
    Sending { v with
      stream := some { s with sentEnd := true }, sent := v.sent ++ [⟨.end, id, []⟩] } := by
  have hl := h.live s hs
  have hgone := h.reader.mp hsender
  have hnoEnd : ¬ EndIn v.sent := fun he => by
    rw [hl.ended.mpr he] at hend
    cases hend
  have hdata : dataOf (v.sent ++ [⟨.end, id, []⟩]) = dataOf v.sent := dataOf_concat_of_ne _ (by simp)
  have hread : (dataOf v.sent).flatten = v.workers.read := by
    have hb := hl.bytes
    simpa [Outgoing.bytes, hpending, hqueue, hgone, ReaderPoint.holding] using hb
  refine ⟨by rw [hdata]; exact h.sent, h.reader, h.held, by rw [hdata]; exact h.sizes,
    by rw [hdata]; exact h.credit, pairwise_concat_of_end h.endLast fun he => absurd he hnoEnd,
    fun _ => ⟨hgone, by rw [hdata]; exact hread⟩, ?_⟩
  rintro _ ⟨⟩
  refine ⟨by rw [hdata]; exact hl.counted, hl.acked, hl.ordered, hl.credit, hl.bound,
    by rw [hdata]; exact hl.bytes, hl.sized, ?_⟩
  simp [endIn_concat]

/-- An accepted acknowledgement opens credit. -/
lemma Sending.acked {v : View} (h : Sending v) {window : SendWindow}
    (hcmd : c.command = .dataAck) (hs : v.stream = some s)
    (hw : s.window.acknowledge c.data = .ok window) :
    Sending { v.receive c with stream := some { s with window := window } } := by
  have hl := h.live s hs
  obtain ⟨-, hgt, hle, rfl⟩ := SendWindow.acknowledge_eq_ok.mp hw
  have hacks : acksOf (v.received ++ [c]) = acksOf v.received ++ [c.ackValue] :=
    acksOf_concat _ hcmd
  obtain ⟨a, ha, hcredit⟩ := h.credit
  refine ⟨h.sent, h.reader, h.held, h.sizes, ⟨a, ha.imp id fun ha => ?_, hcredit⟩, h.endLast,
    h.endRead, ?_⟩
  · show a ∈ acksOf (v.received ++ [c])
    rw [hacks]
    exact List.mem_append_left _ ha
  · rintro _ ⟨⟩
    have hc := hl.credit
    refine ⟨hl.counted, ?_, hle, by simp only; omega, hl.bound, hl.bytes, hl.sized, hl.ended⟩
    show ofBe c.data = (acksOf (v.received ++ [c])).getLastD 0
    rw [hacks, List.getLastD_concat]
    rfl

/-- A cell for the live stream that acknowledges nothing. -/
lemma Sending.taken (h : Sending v) {s s' : Stream}
    (hs : v.stream = some s) (hack : c.command ≠ .dataAck) (hw : SameReader v.workers v'.workers)
    (hsent : v'.sent = v.sent) (hreceived : v'.received = v.received ++ [c])
    (hstream : v'.stream = some s')
    (hsame : s'.window = s.window ∧ s'.pending = s.pending ∧ s'.sentEnd = s.sentEnd) :
    Sending v' := by
  obtain ⟨e1, e2, e3⟩ := hsame
  have hacks : acksOf v'.received = acksOf v.received := by
    rw [hreceived, acksOf_concat_of_ne _ hack]
  refine h.transfer hw (by rw [hsent]) (by rw [hsent]) (by rw [hsent]; exact h.endLast)
    (by rw [hacks]; exact fun _ ha => ha) fun s₁ hs₁ => ?_
  rw [hstream] at hs₁
  cases hs₁
  exact ⟨s, hs, e1, e2, e3, hacks⟩

theorem Sending.step {G : StreamGuard} {client : Bool} (h : Sending v)
    (hlife : v.Life) (hstep : StreamStep G client id v v') : Sending v' := by
  cases hstep.effect hlife with
  | worker w events hw => exact h.worker hlife hw
  | quiet hq =>
    obtain ⟨hdata, -, hend⟩ := hq.sent.carries
    refine h.transfer (by rw [hq.workers]; exact .rfl _) hdata hend ?_
      (fun a ha => (acksOf_mono hq.received).subset ha) fun s hs => ?_
    · obtain hsent | ⟨c, hc, hsent⟩ := hq.sent
      · rw [hsent]
        exact h.endLast
      · obtain ⟨hdata, -, hend⟩ := command_ne_of_control hc
        rw [hsent]
        exact pairwise_concat_of_end h.endLast fun _ => ⟨hdata, hend⟩
    · rw [hq.stream] at hs
      exact ⟨s, hs, rfl, rfl, rfl, (hq.live (by simp [hs])).1.carries.2.1⟩
  | closes hc =>
    exact h.removed (by rw [hc.workers]; exact .close v) hc.sent
      (fun a ha => (acksOf_mono hc.received).subset ha) hc.stream
  | attached s hf hnew _ hstream hw _ hsent hreceived =>
    refine Sending.attach hf hw hsent hreceived fun s' hs' => ?_
    rw [hstream] at hs'
    cases hs'
    obtain ⟨-, rfl⟩ | ⟨-, rfl, -⟩ := hnew <;> exact ⟨rfl, rfl, rfl⟩
  | served s s' c rx hs hg hserve =>
    cases hserve with
    | ack =>
      refine h.transfer (.rfl _) (dataOf_concat_of_ne _ (by simp)) (by simp [endIn_concat])
        (pairwise_concat_of_end h.endLast fun _ => by simp) (fun _ ha => ha) ?_
      rintro _ ⟨⟩
      exact ⟨s, hs, rfl, rfl, rfl, rfl⟩
    | data data o _ _ hend havail hcount hnext => exact h.dataServed hs hend havail hcount hnext
    | stop _ _ hend _ hpending hqueue hsender => exact h.endServed hs hend hpending hqueue hsender
  | written n rest s he hs =>
    refine h.transfer (.rfl _) rfl Iff.rfl h.endLast (fun _ ha => ha) ?_
    rintro _ ⟨⟩
    exact ⟨s, hs, rfl, rfl, rfl, rfl⟩
  | opened c s hcmd hs => exact h.taken hs (by simp [hcmd]) (.rfl _) rfl rfl rfl ⟨rfl, rfl, rfl⟩
  | data c s w hcmd hs _ _ hw | ended c s w hcmd hs _ hw =>
    obtain ⟨-, -, rfl⟩ := Workers.deliver_eq_ok.mp hw
    exact h.taken hs (by simp [hcmd]) (.rfl _) rfl rfl rfl ⟨rfl, rfl, rfl⟩
  | acked c s window hcmd hs hw => exact h.acked hcmd hs hw

end AnonGuard
