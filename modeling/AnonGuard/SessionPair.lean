import AnonGuard.SessionSend

/-!
# Two honest endpoints

A client and an exit joined by two in-order queues of cells. Every interleaving
is a run of the pair: a step of either endpoint, or the delivery of the oldest
cell in flight. Each endpoint of a reachable pair is a reachable endpoint, so
the stream invariants hold at both ends, and what one end has accepted is a
first part of what the other has sent.
-/
namespace AnonGuard

/-- The three halves of the stream invariant together. -/
structure StreamInv (v : View) : Prop where
  life : v.Life
  receiving : Receiving v
  sending : Sending v

theorem StreamInv.step {G : StreamGuard} {client : Bool} {id : ℕ} {v v' : View} (h : StreamInv v)
    (hs : StreamStep G client id v v') : StreamInv v' :=
  ⟨h.life.step hs, h.receiving.step h.life hs, h.sending.step h.life hs⟩

namespace Endpoint
variable {e e' : Endpoint}

/-- A step appends to the log of sent cells. Only an accepted frame extends the
log of received ones. -/
theorem logs_of_step {i : SessionInput} (h : e.step i = some e') :
    e.sentLog <+: e'.sentLog ∧
      (e'.receivedLog = e.receivedLog ∨
        ∃ now c, i = .frame now (.ok c) ∧ e'.receivedLog = e.receivedLog ++ [c]) ∧
      (∀ now c, i = .frame now (.ok c) →
        e'.receivedLog = e.receivedLog ++ [c] ∨ e'.result ≠ none) := by
  cases advances_of_step h with
  | failed =>
    exact ⟨List.prefix_rfl, .inl rfl, fun _ _ _ => .inr (by simp [fail])⟩
  | requestRefused | worker | connect => exact ⟨List.prefix_rfl, .inl rfl, by simp⟩
  | tick t _ _ _ htick =>
    cases tick_eq_ok htick with
    | last => exact ⟨List.prefix_append _ _, .inl rfl, by simp⟩
    | cell c e₁ time _ hsel =>
      have hframe := cellFrame_of_select time hsel
      refine ⟨?_, .inl hframe.receivedLog, by simp⟩
      rw [hframe.sentLog]
      exact List.prefix_append _ _
  | requested now host port _ _ _ _ hreq =>
    obtain ⟨target, rfl⟩ := request_eq_ok hreq
    exact ⟨List.prefix_rfl, .inl rfl, by simp⟩
  | event now x rest _ _ _ _ hx =>
    obtain ⟨_, _, _, _, _, _, rfl⟩ := hx.tables
    exact ⟨List.prefix_rfl, .inl rfl, by simp⟩
  | frame now budget c _ _ _ hd =>
    obtain ⟨_, _, _, _, _, _, _, _, _, _, _, rfl, -⟩ := hd.tables
    refine ⟨List.prefix_rfl, .inr ⟨now, c, rfl, rfl⟩, ?_⟩
    rintro _ _ ⟨⟩
    exact .inl rfl

end Endpoint

/-- An endpoint that has returned takes no step of its loop any more. -/
theorem Endpoint.result_of_step {e e' : Endpoint} {i : SessionInput} (h : e.step i = some e')
    (hr : e'.result = none) : e.result = none := by
  cases Endpoint.advances_of_step h with
  | worker | connect => exact hr
  | _ => assumption

lemma Endpoint.result_of_frame {e e' : Endpoint} {now : ℕ} {cell : Except CircuitError SessionCell}
    (h : e.step (.frame now cell) = some e') : e.result = none := by
  cases Endpoint.advances_of_step h <;> assumption

/-- The cells that a step from `e` to `e'` put on the link. -/
def Endpoint.emitted (e e' : Endpoint) : List SessionCell := e'.sentLog.drop e.sentLog.length

lemma Endpoint.sentLog_eq_emitted {e e' : Endpoint} {i : SessionInput} (h : e.step i = some e') :
    e'.sentLog = e.sentLog ++ e.emitted e' := by
  obtain ⟨⟨more, hmore⟩, -, -⟩ := Endpoint.logs_of_step h
  rw [Endpoint.emitted, ← hmore, List.drop_left]

structure SessionPair where
  client : Endpoint
  exit : Endpoint
  forward : List SessionCell
  backward : List SessionCell

/-- A local step of either endpoint, or the delivery of the oldest cell in
flight. Frames come from the queues only. -/
inductive PairInput
  | client (i : SessionInput)
  | exit (i : SessionInput)
  | deliverForward (now : ℕ)
  | deliverBackward (now : ℕ)

def SessionInput.isFrame : SessionInput → Bool
  | .frame _ _ => true
  | _ => false

namespace SessionPair

def new (profile : Profile) (clientSeq exitSeq clientInterval exitInterval : ℕ) : SessionPair :=
  ⟨.new true profile clientSeq clientInterval, .new false profile exitSeq exitInterval, [], []⟩

def step (p : SessionPair) : PairInput → Option SessionPair
  | .client i =>
    if i.isFrame then none
    else (p.client.step i).map fun e =>
      { p with client := e, forward := p.forward ++ p.client.emitted e }
  | .exit i =>
    if i.isFrame then none
    else (p.exit.step i).map fun e =>
      { p with exit := e, backward := p.backward ++ p.exit.emitted e }
  | .deliverForward now =>
    match p.forward with
    | [] => none
    | c :: rest => (p.exit.step (.frame now (.ok c))).map fun e =>
        { p with exit := e, forward := rest, backward := p.backward ++ p.exit.emitted e }
  | .deliverBackward now =>
    match p.backward with
    | [] => none
    | c :: rest => (p.client.step (.frame now (.ok c))).map fun e =>
        { p with client := e, backward := rest, forward := p.forward ++ p.client.emitted e }

end SessionPair

/-- One of the two directions of a session. -/
inductive Direction
  | forward
  | backward
  deriving DecidableEq, Repr

namespace SessionPair

def sender (p : SessionPair) : Direction → Endpoint
  | .forward => p.client
  | .backward => p.exit

def receiver (p : SessionPair) : Direction → Endpoint
  | .forward => p.exit
  | .backward => p.client

def queue (p : SessionPair) : Direction → List SessionCell
  | .forward => p.forward
  | .backward => p.backward

end SessionPair

/-- What is accepted and what is in flight make up what was sent. A receiver
that has returned may have dropped the cell that ended it. -/
def Link (sender receiver : Endpoint) (queue : List SessionCell) : Prop :=
  receiver.receivedLog <+: sender.sentLog ∧
    (receiver.result = none → sender.sentLog = receiver.receivedLog ++ queue)

section
variable {s r s' r' : Endpoint} {queue : List SessionCell} {i : SessionInput}

lemma Link.send (h : Link s r queue) (hs : s.step i = some s') :
    Link s' r (queue ++ s.emitted s') := by
  obtain ⟨hsent, -, -⟩ := Endpoint.logs_of_step hs
  refine ⟨h.1.trans hsent, fun hr => ?_⟩
  rw [Endpoint.sentLog_eq_emitted hs, h.2 hr, List.append_assoc]

lemma Link.receiveLocal (h : Link s r queue) (hi : i.isFrame = false) (hr : r.step i = some r') :
    Link s r' queue := by
  obtain ⟨-, hlog, -⟩ := Endpoint.logs_of_step hr
  have hsame : r'.receivedLog = r.receivedLog := by
    rcases hlog with hlog | ⟨now, c, rfl, -⟩
    · exact hlog
    · cases hi
  unfold Link
  rw [hsame]
  exact ⟨h.1, fun hnone => h.2 (Endpoint.result_of_step hr hnone)⟩

lemma Link.deliver {now : ℕ} {c : SessionCell} {rest : List SessionCell}
    (h : Link s r (c :: rest)) (hr : r.step (.frame now (.ok c)) = some r') : Link s r' rest := by
  obtain ⟨-, hlog, hframe⟩ := Endpoint.logs_of_step hr
  have hnone : r.result = none := Endpoint.result_of_frame hr
  have hsent := h.2 hnone
  refine ⟨?_, fun hnone' => ?_⟩
  · rcases hlog with hlog | ⟨now', c', hc, hlog⟩
    · rw [hlog]
      exact h.1
    · cases hc
      rw [hlog, hsent]
      exact (List.prefix_append_right_inj _).mpr (List.prefix_append [c] rest)
  · have hlog := (hframe now c rfl).resolve_right (absurd hnone')
    rw [hlog, hsent, List.append_assoc]
    rfl

end

namespace SessionPair
variable {p p' : SessionPair} {ok : Endpoint → SessionInput → Prop}

def Linked (p : SessionPair) (d : Direction) : Prop := Link (p.sender d) (p.receiver d) (p.queue d)

/-- A condition on the steps of both endpoints, as one on the steps of the pair. -/
def Both (ok : Endpoint → SessionInput → Prop) (p : SessionPair) : PairInput → Prop
  | .client i => ok p.client i
  | .exit i => ok p.exit i
  | .deliverForward now => ∀ c ∈ p.forward.head?, ok p.exit (.frame now (.ok c))
  | .deliverBackward now => ∀ c ∈ p.backward.head?, ok p.client (.frame now (.ok c))

/-- A step of the pair is a step of one endpoint. A frame that it takes is the
oldest cell in flight. -/
theorem endpoint_of_step {i : PairInput} (hok : p.Both ok i) (h : p.step i = some p') :
    (∃ j, ok p.client j ∧ p.client.step j = some p'.client ∧ p'.exit = p.exit ∧
      ∀ now c, j = .frame now (.ok c) → c ∈ p.backward.head?) ∨
      (∃ j, ok p.exit j ∧ p.exit.step j = some p'.exit ∧ p'.client = p.client ∧
        ∀ now c, j = .frame now (.ok c) → c ∈ p.forward.head?) := by
  cases i with
  | client j =>
    simp only [step] at h
    split_ifs at h with hj
    obtain ⟨e, he, rfl⟩ := Option.map_eq_some_iff.mp h
    exact .inl ⟨j, hok, he, rfl, by rintro now c rfl; exact absurd rfl hj⟩
  | exit j =>
    simp only [step] at h
    split_ifs at h with hj
    obtain ⟨e, he, rfl⟩ := Option.map_eq_some_iff.mp h
    exact .inr ⟨j, hok, he, rfl, by rintro now c rfl; exact absurd rfl hj⟩
  | deliverForward now =>
    simp only [step] at h
    split at h
    · cases h
    · rename_i c rest hq
      obtain ⟨e, he, rfl⟩ := Option.map_eq_some_iff.mp h
      have hc : c ∈ p.forward.head? := by simp [hq]
      exact .inr ⟨_, hok c hc, he, rfl, by rintro now c ⟨⟩; exact hc⟩
  | deliverBackward now =>
    simp only [step] at h
    split at h
    · cases h
    · rename_i c rest hq
      obtain ⟨e, he, rfl⟩ := Option.map_eq_some_iff.mp h
      have hc : c ∈ p.backward.head? := by simp [hq]
      exact .inl ⟨_, hok c hc, he, rfl, by rintro now c ⟨⟩; exact hc⟩

theorem linked_step {i : PairInput} (hlink : ∀ d, p.Linked d) (h : p.step i = some p') :
    ∀ d, p'.Linked d := by
  have hf := hlink .forward
  have hb := hlink .backward
  cases i with
  | client =>
    simp only [step] at h
    split_ifs at h with hi
    obtain ⟨e, he, rfl⟩ := Option.map_eq_some_iff.mp h
    rintro (_ | _)
    · exact hf.send he
    · exact hb.receiveLocal (by simpa using hi) he
  | exit =>
    simp only [step] at h
    split_ifs at h with hi
    obtain ⟨e, he, rfl⟩ := Option.map_eq_some_iff.mp h
    rintro (_ | _)
    · exact hf.receiveLocal (by simpa using hi) he
    · exact hb.send he
  | deliverForward now =>
    simp only [step] at h
    split at h
    · cases h
    · rename_i c rest hq
      obtain ⟨e, he, rfl⟩ := Option.map_eq_some_iff.mp h
      have hf : Link p.client p.exit (c :: rest) := by
        rw [← hq]
        exact hf
      rintro (_ | _)
      · exact hf.deliver he
      · exact hb.send he
  | deliverBackward now =>
    simp only [step] at h
    split at h
    · cases h
    · rename_i c rest hq
      obtain ⟨e, he, rfl⟩ := Option.map_eq_some_iff.mp h
      have hb : Link p.exit p.client (c :: rest) := by
        rw [← hq]
        exact hb
      rintro (_ | _)
      · exact hf.send he
      · exact hb.deliver he

section Runs
variable {profile : Profile} {clientSeq exitSeq clientInterval exitInterval : ℕ}

/-- The two ends of a reachable pair are reachable endpoints. -/
theorem runs_of_run
    (h : GuardedRun step (Both ok) (new profile clientSeq exitSeq clientInterval exitInterval) p) :
    GuardedRun Endpoint.step ok (.new true profile clientSeq clientInterval) p.client ∧
      GuardedRun Endpoint.step ok (.new false profile exitSeq exitInterval) p.exit := by
  induction h with
  | start => exact ⟨.start, .start⟩
  | step _ hok hs ih =>
    obtain ⟨j, hj, he, hother, -⟩ | ⟨j, hj, he, hother, -⟩ := endpoint_of_step hok hs
    · rw [hother]
      exact ⟨ih.1.step hj he, ih.2⟩
    · rw [hother]
      exact ⟨ih.1, ih.2.step hj he⟩

lemma both_of_run (h : Run step (new profile clientSeq exitSeq clientInterval exitInterval) p) :
    GuardedRun step (Both fun _ _ => True)
      (new profile clientSeq exitSeq clientInterval exitInterval) p :=
  h.weaken fun p i _ => by cases i <;> simp [Both]

theorem linked_of_run {ok : SessionPair → PairInput → Prop}
    (h : GuardedRun step ok (new profile clientSeq exitSeq clientInterval exitInterval) p) :
    ∀ d, p.Linked d := by
  refine h.invariant (I := fun p => ∀ d, p.Linked d) ?_ fun p i p' hlink _ hs => linked_step hlink hs
  rintro (_ | _) <;> exact ⟨List.prefix_rfl, fun _ => rfl⟩

end Runs

end SessionPair

end AnonGuard
