import AnonGuard.SessionPair

/-!
# Flow control and delivery between honest endpoints

The receiver of a direction has accepted a first part of what the sender has
sent, and the sender has accepted a first part of the acknowledgements. With the
stream invariants of the two ends, this orders their counters, leaves room for
every arriving cell, and makes the written bytes a first part of the read ones.
-/
namespace AnonGuard

/-- Every acknowledgement that was sent has the size that the peer expects. -/
def View.AckSizes (v : View) : Prop := ∀ c ∈ v.sent, c.command = .dataAck → c.data.length = 4

lemma View.AckSizes.step {G : StreamGuard} {client : Bool} {id : ℕ} {v v' : View} (h : v.AckSizes)
    (hlife : v.Life) (hs : StreamStep G client id v v') : v'.AckSizes := by
  unfold View.AckSizes
  obtain hsent | ⟨c, hsent, hc⟩ | ⟨s, s', c, rx, -, -, hserve, hsent⟩ := hs.sent_cases
  · rwa [hsent]
  · rw [hsent]
    intro d hd hack
    rcases List.mem_append.mp hd with hd | hd
    · exact h d hd hack
    · obtain ⟨-, hne, -⟩ := command_ne_of_control (hc.elim (hlife.controls c) fun h => h)
      rw [List.mem_singleton.mp hd] at hack
      exact absurd hack hne
  · rw [hsent]
    intro d hd hack
    rcases List.mem_append.mp hd with hd | hd
    · exact h d hd hack
    · rw [List.mem_singleton.mp hd] at hack ⊢
      cases hserve with
      | ack a => exact length_toBe 4 a
      | data | stop => cases hack

/-- A stream that went through the retirement pass was written out up to the
peer's end. -/
structure View.Complete (v : View) : Prop where
  closed : v.closed
  wrote : v.workers.wrote = v.workers.accepted.flatten
  ended : ∃ l, l <+: v.received ∧ EndIn l ∧ v.workers.accepted = dataOf l

lemma prefix_antisymm {α : Type*} {a b : List α} (h : a <+: b) (h' : b <+: a) : a = b :=
  h.eq_of_length_le h'.length_le

namespace View
variable {G : StreamGuard} {client : Bool} {id : ℕ} {v v' : View}

lemma Complete.of_retirable {s : Stream} (hinv : StreamInv v) (hs : v.stream = some s)
    (hr : s.retirable = true) : { v.close with retired := True }.Complete := by
  have hl := hinv.receiving.live s hs
  have hw := hinv.receiving.writer
  obtain ⟨⟨⟨⟨-, hend⟩, -⟩, heq⟩, -⟩ : (((s.sentEnd = true ∧ s.receivedEnd = true) ∧
      s.window.drained = true) ∧ s.received = s.written) ∧ s.ack.isNone = true := by
    simpa [Stream.retirable] using hr
  obtain ⟨hle, hcount, -⟩ := hl.written_le hw
  have hfull : v.workers.count = v.workers.accepted.length := by
    have := hl.counted
    omega
  have hwrote : v.workers.wrote = v.workers.accepted.flatten := by
    refine prefix_antisymm hw.wrote_le ?_
    have hdone := hw.done
    rwa [hfull, List.take_length] at hdone
  obtain ⟨-, -, -, -, hacc, hwr⟩ := SameWriter.close v
  refine ⟨trivial, ?_, v.received, ?_, hl.ended.mp hend, ?_⟩
  · show v.close.workers.wrote = v.close.workers.accepted.flatten
    rw [hwr, hacc, hwrote]
  · simp
  · show v.close.workers.accepted = _
    rw [hacc, hl.accepted]

/-- What a step leaves of a stream that was closed before. -/
structure Outlasts (v v' : View) : Prop where
  closed : v'.closed
  received : v.received <+: v'.received
  sent : v.sent <+: v'.sent
  data : dataOf v'.sent = dataOf v.sent
  accepted : v'.workers.accepted = v.workers.accepted
  wrote : v.workers.wrote <+: v'.workers.wrote

/-- A retired stream was retired in this step or before it. -/
theorem retired_cases (hinv : StreamInv v) (hclosed : v.retired → v.closed)
    (hstep : StreamStep G client id v v') (hr : v'.retired) :
    (∃ s, v.stream = some s ∧ s.retirable = true ∧ v' = { v.close with retired := True }) ∨
      v.retired ∧ v.Outlasts v' := by
  have hlive : ∀ s, v.stream = some s → ¬ v.retired := fun s hs hr =>
    (hinv.life.live (by simp [hs])).2.1 (hclosed hr)
  cases hstep.effect hinv.life with
  | worker w events hw =>
    refine .inr ⟨hr, hclosed hr, List.prefix_rfl, List.prefix_rfl, rfl, hw.accepted.1, ?_⟩
    cases hw <;> first
      | exact List.prefix_rfl
      | exact List.prefix_append _ _
  | quiet hq =>
    rw [hq.retired] at hr
    refine .inr ⟨hr, hq.closed ▸ hclosed hr, hq.received, ?_, hq.sent.carries.1, by rw [hq.workers],
      by rw [hq.workers]⟩
    obtain hsent | ⟨c, -, hsent⟩ := hq.sent
    · rw [hsent]
    · rw [hsent]
      exact List.prefix_append _ _
  | closes hc =>
    obtain hret | ⟨hback, -⟩ := hc.reason
    · exact .inl hret
    · obtain ⟨-, -, -, -, hacc, hwr⟩ := SameWriter.close v
      refine .inr ⟨hback hr, hc.closed, hc.received, by rw [hc.sent], by rw [hc.sent], ?_, ?_⟩
      · rw [hc.workers, hacc]
      · rw [hc.workers, hwr]
  | attached s _ _ hnot _ _ hretired => exact absurd (hclosed (hretired ▸ hr)) hnot
  | served s _ _ _ hs | written _ _ s _ hs | opened _ s _ hs | data _ s _ _ hs | acked _ s _ _ hs
  | ended _ s _ _ hs => exact absurd hr (hlive s hs)

theorem Complete.step (h : v.retired → v.Complete) (hinv : StreamInv v)
    (hs : StreamStep G client id v v') : v'.retired → v'.Complete := by
  intro hr
  obtain ⟨s, hlive, hret, rfl⟩ | ⟨hr, hout⟩ := retired_cases hinv (fun hr => (h hr).closed) hs hr
  · exact .of_retirable hinv hlive hret
  · obtain ⟨-, hwrote, l, hl, hend, hdata⟩ := h hr
    refine ⟨hout.closed, ?_, l, hl.trans hout.received, hend, by rw [hout.accepted, hdata]⟩
    -- the writer had nothing left to write
    have hle := (hinv.step hs).receiving.writer.wrote_le
    refine prefix_antisymm hle ?_
    rw [hout.accepted, ← hwrote]
    exact hout.wrote

end View

/-- All that holds of a stream whatever its peer does. -/
structure PeerInv (v : View) : Prop extends StreamInv v where
  ackSizes : v.AckSizes
  complete : v.retired → v.Complete

lemma any_of_run {client : Bool} {profile : Profile} {sequenceNo interval : ℕ} {e : Endpoint}
    (h : Run Endpoint.step (.new client profile sequenceNo interval) e) :
    GuardedRun Endpoint.step StreamGuard.any.Admits (.new client profile sequenceNo interval) e :=
  h.weaken fun e i _ => by cases i <;> simp [StreamGuard.Admits, StreamGuard.any]

theorem peerInv_of_run {client : Bool} {profile : Profile} {sequenceNo interval id : ℕ}
    {e : Endpoint} (h : Run Endpoint.step (.new client profile sequenceNo interval) e) :
    PeerInv (e.view id) := by
  refine Endpoint.view_invariant (any_of_run h) ?_ fun v v' hv hs => ?_
  · exact ⟨⟨View.life_initial _, receiving_initial _, sending_initial _⟩,
      by simp [View.AckSizes, View.initial], by simp [View.initial]⟩
  · exact ⟨hv.toStreamInv.step hs, hv.ackSizes.step hv.life hs,
      View.Complete.step hv.complete hv.toStreamInv hs⟩

section Peers
variable {S R : View} {s r : Stream}

/-- The counters of the two ends of a stream are ordered. -/
theorem counters_ordered (hS : PeerInv S) (hR : PeerInv R) (hforth : R.received <+: S.sent)
    (hback : S.received <+: R.sent) (hs : S.stream = some s) (hr : R.stream = some r) :
    s.window.acknowledged ≤ r.written ∧ r.written ≤ r.received ∧
      r.received ≤ s.window.sent ∧ s.window.sent - s.window.acknowledged ≤ WINDOW_CELLS := by
  have hsend := hS.sending.live s hs
  have hrecv := hR.receiving.live r hr
  refine ⟨?_, (hrecv.written_le hR.receiving.writer).2.2, ?_, ?_⟩
  · rw [hsend.acked]
    rcases getLastD_zero_or_mem (acksOf S.received) with hzero | hmem
    · omega
    · exact hrecv.acks_le _ ((acksOf_mono hback).subset hmem)
  · rw [hrecv.counted, hrecv.accepted, hsend.counted]
    exact (dataOf_mono hforth).length_le
  · have := hsend.credit
    omega

variable {c : SessionCell}

lemma endIn_mono {a b : List SessionCell} (h : a <+: b) (ha : EndIn a) : EndIn b := by
  obtain ⟨d, hd, hend⟩ := ha
  exact ⟨d, h.subset hd, hend⟩

/-- After an end there is no more data and no second end. -/
lemma not_endIn_of_next (hS : PeerInv S) (hnext : R.received ++ [c] <+: S.sent)
    (hc : c.command = .data ∨ c.command = .end) : ¬ EndIn R.received := by
  rintro ⟨d, hd, hend⟩
  have hpair := hS.sending.endLast.sublist hnext.sublist
  have hne := (List.pairwise_append.mp hpair).2.2 d hd c (by simp) hend
  exact hc.elim hne.1 hne.2

theorem room_for_next (hS : PeerInv S) (hR : PeerInv R) (hnext : R.received ++ [c] <+: S.sent)
    (hr : R.stream = some r) (hc : c.command = .data ∨ c.command = .end) :
    R.workers.incoming.queue.length < QUEUE + 1 := by
  have hrecv := hR.receiving.live r hr
  have hend : r.receivedEnd = false := by
    rw [← Bool.not_eq_true]
    exact fun h => not_endIn_of_next hS hnext hc (hrecv.ended.mp h)
  rw [← hrecv.capacity]
  exact hrecv.queue_lt hR.receiving.writer hend

theorem credit_for_next (hS : PeerInv S) (hR : PeerInv R) (hnext : R.received ++ [c] <+: S.sent)
    (hback : S.received <+: R.sent) (hr : R.stream = some r) (hc : c.command = .data) :
    r.received - r.written < WINDOW_CELLS := by
  have hrecv := hR.receiving.live r hr
  obtain ⟨a, ha, hcredit⟩ := hS.sending.credit
  have hlen : r.received + 1 ≤ (dataOf S.sent).length := by
    have := (dataOf_mono hnext).length_le
    rw [dataOf_concat _ hc, List.length_append] at this
    rw [hrecv.counted, hrecv.accepted]
    exact this
  have hack : a ≤ r.written := by
    rcases ha with rfl | ha
    · omega
    · exact hrecv.acks_le _ ((acksOf_mono hback).subset ha)
  have : WINDOW_CELLS = 32 := rfl
  omega

theorem ack_accepted (hS : PeerInv S) (hR : PeerInv R) (hnext : R.received ++ [c] <+: S.sent)
    (hback : S.received <+: R.sent) (hr : R.stream = some r) (hc : c.command = .dataAck) :
    ∃ window, r.window.acknowledge c.data = .ok window := by
  have hsend := hR.sending.live r hr
  have hacks : acksOf R.received ++ [c.ackValue] <+: acksOf S.sent := by
    rw [← acksOf_concat _ hc]
    exact acksOf_mono hnext
  have hmem : c.ackValue ∈ acksOf S.sent := hacks.subset (by simp)
  obtain ⟨hpos, hle⟩ := hS.receiving.acks _ hmem
  refine ⟨_, SendWindow.acknowledge_eq_ok.mpr ⟨?_, ?_, ?_, rfl⟩⟩
  · exact hS.ackSizes c (hnext.subset (by simp)) hc
  · have hsorted := hS.receiving.sorted.sublist hacks.sublist
    rw [hsend.acked]
    rcases getLastD_zero_or_mem (acksOf R.received) with hzero | hlast
    · rw [hzero]
      exact hpos
    · exact (List.pairwise_append.mp hsorted).2.2 _ hlast _ (List.mem_singleton_self c.ackValue)
  · calc ofBe c.data ≤ S.workers.accepted.length := hle
      _ ≤ (dataOf S.received).length := hS.receiving.accepted.length_le
      _ ≤ (dataOf R.sent).length := (dataOf_mono hback).length_le
      _ = r.window.sent := hsend.counted.symm

/-- The bytes written are a first part of the bytes read. -/
theorem wrote_prefix_read (hS : PeerInv S) (hR : PeerInv R) (hforth : R.received <+: S.sent) :
    R.workers.wrote <+: S.workers.read := by
  have haccepted : R.workers.accepted <+: dataOf S.sent :=
    hR.receiving.accepted.trans (dataOf_mono hforth)
  obtain ⟨more, hmore⟩ := haccepted
  refine hR.receiving.writer.wrote_le.trans (List.IsPrefix.trans ?_ hS.sending.sent)
  rw [← hmore, List.flatten_append]
  exact List.prefix_append _ _

lemma dataOf_of_endIn {l rest : List SessionCell} (hend : EndIn l)
    (h : (l ++ rest).Pairwise fun c d => c.command = .end → d.command ≠ .data ∧ d.command ≠ .end) :
    dataOf (l ++ rest) = dataOf l := by
  obtain ⟨d, hd, hde⟩ := hend
  have hrest : dataOf rest = [] := by
    refine List.filterMap_eq_nil_iff.mpr fun c hc => if_neg ?_
    exact ((List.pairwise_append.mp h).2.2 d hd c hc hde).1
  rw [dataOf_append, hrest, List.append_nil]

/-- A stream that its receiver has retired was delivered whole. -/
theorem wrote_eq_read (hS : PeerInv S) (hR : PeerInv R) (hforth : R.received <+: S.sent)
    (hretired : R.retired) : R.workers.wrote = S.workers.read := by
  obtain ⟨-, hwrote, l, hl, hend, hacc⟩ := hR.complete hretired
  have hprefix : l <+: S.sent := hl.trans hforth
  obtain ⟨-, hread⟩ := hS.sending.endRead (endIn_mono hprefix hend)
  obtain ⟨rest, hrest⟩ := hprefix
  have hpair := hS.sending.endLast
  rw [← hrest] at hpair
  rw [hwrote, hacc, ← hread, ← hrest, dataOf_of_endIn hend hpair]

end Peers

lemma cellsOf_mono {a b : List SessionCell} (h : a <+: b) (id : ℕ) :
    cellsOf id a <+: cellsOf id b := by
  obtain ⟨c, rfl⟩ := h
  rw [cellsOf_append]
  exact List.prefix_append _ _

namespace SessionPair

section Runs
variable {p : SessionPair} {profile : Profile} {clientSeq exitSeq clientInterval exitInterval : ℕ}

/-- Each end of a stream has received a first part of what the other has sent. -/
lemma views_linked (h : ∀ d, p.Linked d) (d : Direction) (id : ℕ) :
    ((p.receiver d).view id).received <+: ((p.sender d).view id).sent ∧
      ((p.sender d).view id).received <+: ((p.receiver d).view id).sent := by
  cases d
  · exact ⟨cellsOf_mono (h .forward).1 id, cellsOf_mono (h .backward).1 id⟩
  · exact ⟨cellsOf_mono (h .backward).1 id, cellsOf_mono (h .forward).1 id⟩

/-- The next cell in flight continues what the receiver has accepted. -/
lemma next_linked {d : Direction} (h : p.Linked d) {c : SessionCell} {rest : List SessionCell}
    (hq : p.queue d = c :: rest) (hr : (p.receiver d).result = none) :
    ((p.receiver d).view c.id).received ++ [c] <+: ((p.sender d).view c.id).sent := by
  have hsent := h.2 hr
  rw [hq] at hsent
  have hview : ((p.sender d).view c.id).sent =
      ((p.receiver d).view c.id).received ++ c :: cellsOf c.id rest := by
    rw [← cellsOf_cons_of_eq rest rfl]
    show cellsOf c.id (p.sender d).sentLog = _
    rw [hsent, cellsOf_append]
    rfl
  rw [hview]
  exact (List.prefix_append_right_inj _).mpr (List.prefix_append [c] _)

lemma runs_of_pair (h : Run step (new profile clientSeq exitSeq clientInterval exitInterval) p)
    (d : Direction) : (∃ client seq interval, Run Endpoint.step (.new client profile seq interval)
      (p.sender d)) ∧ (∃ client seq interval, Run Endpoint.step (.new client profile seq interval)
      (p.receiver d)) := by
  obtain ⟨hclient, hexit⟩ := runs_of_run (both_of_run h)
  cases d
  · exact ⟨⟨_, _, _, hclient⟩, ⟨_, _, _, hexit⟩⟩
  · exact ⟨⟨_, _, _, hexit⟩, ⟨_, _, _, hclient⟩⟩

/-- In every reachable state of two honest endpoints, in each direction: the
counters of the two ends of a stream are ordered and within the window, the next
cell in flight finds credit, room in the writer's queue and an acceptable
acknowledgement, and no counter is subtracted from a smaller one. -/
theorem flow_control (h : Run step (new profile clientSeq exitSeq clientInterval exitInterval) p)
    (d : Direction) :
    (∀ (id : ℕ) (s r : Stream), (p.sender d).streams[id]? = some s →
      (p.receiver d).streams[id]? = some r →
      s.window.acknowledged ≤ r.written ∧ r.written ≤ r.received ∧ r.received ≤ s.window.sent ∧
        s.window.sent - s.window.acknowledged ≤ WINDOW_CELLS) ∧
    (∀ (c : SessionCell) (rest : List SessionCell) (r : Stream), p.queue d = c :: rest →
      (p.receiver d).result = none → (p.receiver d).streams[c.id]? = some r →
      (c.command = .data → r.received - r.written < WINDOW_CELLS) ∧
      (c.command = .data ∨ c.command = .end →
        ((p.receiver d).workers c.id).incoming.queue.length < QUEUE + 1) ∧
      (c.command = .dataAck → ∃ window, r.window.acknowledge c.data = .ok window)) ∧
    (∀ (id : ℕ) (s : Stream), (p.sender d).streams[id]? = some s →
      s.written ≤ s.received ∧ s.window.acknowledged ≤ s.window.sent) := by
  have hlinked := linked_of_run h
  obtain ⟨⟨_, _, _, hsender⟩, ⟨_, _, _, hreceiver⟩⟩ := runs_of_pair h d
  refine ⟨fun id s r hs hr => ?_, fun c rest r hq hnone hr => ?_, fun id s hs => ?_⟩
  · obtain ⟨hforth, hback⟩ := views_linked hlinked d id
    exact counters_ordered (peerInv_of_run hsender) (peerInv_of_run hreceiver) hforth hback hs hr
  · have hS : PeerInv ((p.sender d).view c.id) := peerInv_of_run hsender
    have hR : PeerInv ((p.receiver d).view c.id) := peerInv_of_run hreceiver
    obtain ⟨-, hback⟩ := views_linked hlinked d c.id
    have hnext := next_linked (hlinked d) hq hnone
    exact ⟨credit_for_next hS hR hnext hback hr, room_for_next hS hR hnext hr,
      ack_accepted hS hR hnext hback hr⟩
  · have hS : PeerInv ((p.sender d).view id) := peerInv_of_run hsender
    exact ⟨((hS.receiving.live s hs).written_le hS.receiving.writer).2.2,
      (hS.sending.live s hs).ordered⟩

/-- The client opens a stream to the exit and sends two bytes on it. -/
def sendTwoBytes : List PairInput := [
  .client (.request (millis 1) "a" 80), .client (.clock (.prompt 40)), .deliverForward (millis 50),
  .exit (.connect 1 true), .exit (.event (millis 60)), .exit (.clock (.prompt 70)),
  .deliverBackward (millis 80), .client (.worker 1 (.read [7, 8])), .client (.worker 1 .send),
  .client (.worker 1 .eof), .client (.worker 1 .readerLeave), .client (.clock (.prompt 1100)),
  .deliverForward (millis 1110)]

def afterData : SessionPair :=
  (runInputs step (.new .balanced 1 1 (millis 40) (millis 40)) sendTwoBytes).getD
    (.new .balanced 1 1 (millis 40) (millis 40))

theorem flow_control_afterData : ∃ s r : Stream, afterData.client.streams[1]? = some s ∧
    afterData.exit.streams[1]? = some r ∧ s.window.sent = 1 ∧
    s.window.acknowledged ≤ r.written ∧ r.written ≤ r.received ∧ r.received ≤ s.window.sent ∧
    s.window.sent - s.window.acknowledged ≤ WINDOW_CELLS := by
  have hs : afterData.client.streams[1]?.map (·.window.sent) = some 1 := by decide +kernel
  have hr : afterData.exit.streams[1]?.isSome = true := by decide +kernel
  obtain ⟨s, hs, hsent⟩ := Option.map_eq_some_iff.mp hs
  obtain ⟨r, hr⟩ := Option.isSome_iff_exists.mp hr
  exact ⟨s, r, hs, hr, hsent, (flow_control (Run.getD_inputs _) .forward).1 1 s r hs hr⟩

/-- In every reachable state of two honest endpoints, the bytes written to the
receiver's socket are a first part of the bytes read from the sender's, and all
of them once both ends have retired the stream. -/
theorem delivery (h : Run step (new profile clientSeq exitSeq clientInterval exitInterval) p)
    (d : Direction) (id : ℕ) :
    ((p.receiver d).workers id).wrote <+: ((p.sender d).workers id).read ∧
      (id ∈ (p.sender d).retired → id ∈ (p.receiver d).retired →
        ((p.receiver d).workers id).wrote = ((p.sender d).workers id).read) := by
  obtain ⟨⟨_, _, _, hsender⟩, ⟨_, _, _, hreceiver⟩⟩ := runs_of_pair h d
  obtain ⟨hforth, -⟩ := views_linked (linked_of_run h) d id
  have hS : PeerInv ((p.sender d).view id) := peerInv_of_run hsender
  have hR : PeerInv ((p.receiver d).view id) := peerInv_of_run hreceiver
  exact ⟨wrote_prefix_read hS hR hforth, fun _ hr => wrote_eq_read hS hR hforth hr⟩

/-- The exit writes the bytes out, both sides end the stream and retire it. -/
def endStream : List PairInput := [
  .exit (.worker 1 .take), .exit (.worker 1 (.put 2)), .exit (.worker 1 .notify),
  .exit (.event (millis 1120)), .exit (.worker 1 .eof), .exit (.worker 1 .readerLeave),
  .exit (.clock (.prompt 1130)), .deliverBackward (millis 1140), .client (.clock (.prompt 1150)),
  .deliverForward (millis 1160), .exit (.clock (.prompt 1170)), .deliverBackward (millis 1180),
  .client (.clock (.prompt 1190))]

def afterEnd : SessionPair :=
  (runInputs step (.new .balanced 1 1 (millis 40) (millis 40)) (sendTwoBytes ++ endStream)).getD
    (.new .balanced 1 1 (millis 40) (millis 40))

theorem delivery_afterEnd : (afterEnd.exit.workers 1).wrote = (afterEnd.client.workers 1).read ∧
    (afterEnd.exit.workers 1).wrote = [7, 8] :=
  ⟨(delivery (Run.getD_inputs _) .forward 1).2 (by decide +kernel) (by decide +kernel),
    by decide +kernel⟩

end Runs

end SessionPair

end AnonGuard
