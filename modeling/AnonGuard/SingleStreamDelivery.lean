import AnonGuard.CellLog
import AnonGuard.Credit
import AnonGuard.SingleStream

/-!
# What a single stream delivers

In every run of the two loops, the data cells and the acknowledgements between
them account for all that was read and written. An acknowledgement never exceeds
what its receiver has sent and never comes twice, and the exit's last cell leaves
only when the client has acknowledged everything that the destination sent.
-/
namespace AnonGuard

def ForwardPoint.cells : ForwardPoint → List SessionCell
  | select => []
  | write cell => [cell]
  | done => []

/-- What is left of the cell that `bwd` writes to the application. -/
def BackwardPoint.rest : BackwardPoint → Bytes
  | read => []
  | write rest => rest
  | ack _ => []
  | shutdown => []

/-- The cells that `bwd` has taken and not counted. -/
def BackwardPoint.uncounted : BackwardPoint → ℕ
  | read => 0
  | write _ => 1
  | ack _ => 0
  | shutdown => 0

def BackwardPoint.acks : BackwardPoint → List ℕ
  | read => []
  | write _ => []
  | ack value => [value]
  | shutdown => []

def ExitPoint.cells : ExitPoint → List SessionCell
  | select => []
  | upload _ => []
  | shutdown => []
  | write cell => [cell]
  | destroy => []

/-- The cells that the exit has taken and not counted. -/
def ExitPoint.uncounted : ExitPoint → ℕ
  | select => 0
  | upload _ => 1
  | shutdown => 0
  | write _ => 0
  | destroy => 0

/-- What the exit sends to the client. -/
def backwardCommand : CellCommand → Bool
  | .data | .dataAck | .destroy | .dummy => true
  | _ => false

namespace StreamPair

/-- The cells under way to the exit, from the next to arrive to the one that is
being written, and those under way to the client. -/
def up (s : StreamPair) : List SessionCell := s.forward ++ s.client.forward.cells
def down (s : StreamPair) : List SessionCell := s.backward.map Prod.snd ++ s.exit.point.cells

/-- The acknowledgements under way to the exit and to the client. -/
def upAcks (s : StreamPair) : List ℕ :=
  acksOf s.up ++ (s.client.pendingAck.toList ++ (s.client.acks.queue ++ s.client.backward.acks))
def downAcks (s : StreamPair) : List ℕ := acksOf s.down ++ s.exit.pendingExitAck.toList

/-- The exit's last cell is under way or has arrived. -/
def Destroyed (s : StreamPair) : Prop :=
  (∃ f ∈ s.backward, f.2.command = .destroy) ∨ s.client.backward = .shutdown ∨
    s.client.result = some (.ok ())

/-- The accounts of a stream. -/
structure Accounted (s : StreamPair) : Prop where
  upCredit : Credited s.exit.window.acknowledged s.client.received s.upAcks
  downCredit : Credited s.client.window.acknowledged s.exit.receivedData s.downAcks
  upCount : s.exit.receivedData + s.exit.point.uncounted + (dataOf s.up).length ≤
    s.client.window.sent
  downCount : s.client.taken.length + (dataOf s.down).length = s.exit.window.sent
  received : s.client.received + s.client.backward.uncounted = s.client.taken.length
  wrote : s.client.wrote ++ s.client.backward.rest = s.client.taken.flatten
  delivered : s.client.taken ++ (dataOf s.down ++
    (s.exit.pendingExitData.toList ++ s.exit.chunks.queue)) = s.exit.delivered
  upCells : ∀ c ∈ s.up, c.command = .dataAck → c.data.length = 4
  downCells : ∀ c ∈ s.down, c.id = 1 ∧ backwardCommand c.command = true ∧
    (c.command = .dataAck → c.data.length = 4)
  hop : s.exit.hopIndex = s.client.exitIndex ∧ ∀ f ∈ s.backward, f.1 = s.client.exitIndex
  eof : s.exit.destinationEof = true →
    s.exit.chunks.queue = [] ∧ s.exit.chunks.senderOpen = false
  reader : s.exit.chunks.senderOpen = false → s.exit.reader = .gone
  writing : ∀ c ∈ s.exit.point.cells, c.command ≠ .destroy
  closing : s.exit.point = .destroy → s.exit.finished = true
  destroyed : s.Destroyed → s.exit.point = .destroy
  bounds : s.client.received < U32_SIZE ∧ s.exit.receivedData < U32_SIZE
  acksOpen : s.client.acks.senderOpen = true

theorem accounted_new (exitIndex clientSequence exitSequence start : ℕ) :
    (new exitIndex clientSequence exitSequence start).Accounted where
  upCredit := .start
  downCredit := .start
  upCount := le_refl _
  downCount := rfl
  received := rfl
  wrote := rfl
  delivered := rfl
  upCells c h := absurd h List.not_mem_nil
  downCells c h := absurd h List.not_mem_nil
  hop := ⟨rfl, fun f h => absurd h List.not_mem_nil⟩
  eof h := by cases h
  reader h := by cases h
  writing c h := absurd h List.not_mem_nil
  closing h := by cases h
  destroyed h := by
    rcases h with ⟨f, hf, -⟩ | h | h
    · cases hf
    · cases h
    · cases h
  bounds := by
    have : 0 < U32_SIZE := by
      unfold U32_SIZE
      decide
    exact ⟨this, this⟩
  acksOpen := rfl

variable {s : StreamPair} {c : StreamClient}

/-! The client's steps. -/

lemma up_of_select (hsel : s.client.forward = .select) : s.up = s.forward := by
  rw [up, hsel, ForwardPoint.cells, List.append_nil]

lemma forward_sublist_up : s.forward.Sublist s.up := List.sublist_append_left _ _

/-- A client that has not taken the last cell says nothing new about it. -/
lemma Destroyed.of_client (hd : Destroyed { s with client := c })
    (hpoint : c.backward ≠ .shutdown)
    (hresult : c.result = some (.ok ()) → s.client.result = some (.ok ())) : s.Destroyed := by
  rcases hd with hd | hd | hd
  · exact .inl hd
  · exact absurd hd hpoint
  · exact .inr (.inr (hresult hd))

namespace Accounted

lemma failForward (h : s.Accounted) (e : StreamError) :
    Accounted { s with client := s.client.failForward e } := by
  have hup : StreamPair.up { s with client := s.client.failForward e } = s.forward :=
    List.append_nil _
  refine { h with upCredit := ?_, upCount := ?_, upCells := fun c hc => ?_ }
  · refine h.upCredit.sublist ?_
    rw [upAcks, hup]
    exact (acksOf_sublist forward_sublist_up).append_right _
  · rw [hup]
    exact (Nat.add_le_add_left (length_dataOf_le forward_sublist_up) _).trans h.upCount
  · rw [hup] at hc
    exact h.upCells c (forward_sublist_up.subset hc)

lemma writeClientCell {command : CellCommand} {payload : Bytes}
    (hfail : Accounted { s with client := c })
    (hok : Accounted { s with client := { c with
      sequenceNo := c.sequenceNo + 1, forward := .write ⟨command, 1, payload⟩ } }) :
    Accounted { s with client := c.writeClientCell command payload } := by
  unfold StreamClient.writeClientCell
  split_ifs
  · exact hfail.failForward _
  · exact hok
  · exact hfail.failForward _

/-- `fwd` starts to write a cell. An acknowledgement is the pending one, and data
has been counted. -/
lemma startCell (h : s.Accounted) (hsel : s.client.forward = .select)
    {cell : SessionCell} (hc : c = { s.client with
      sequenceNo := c.sequenceNo, preferData := c.preferData, buffer := c.buffer
      window := c.window, pendingAck := c.pendingAck, forward := .write cell })
    (hacks : acksOf [cell] ++ c.pendingAck.toList = s.client.pendingAck.toList)
    (hacknowledged : c.window.acknowledged = s.client.window.acknowledged)
    (hsent : s.client.window.sent + (dataOf [cell]).length ≤ c.window.sent)
    (hlength : cell.command = .dataAck → cell.data.length = 4) :
    Accounted { s with client := c } := by
  have hup := up_of_select hsel
  have hnew : StreamPair.up { s with client := c } = s.forward ++ [cell] := by
    rw [hc]
    rfl
  rw [hc] at hnew ⊢
  refine { h with
    upCredit := ?_, downCredit := ?_, upCount := ?_, upCells := fun d hd hcmd => ?_ }
  · have hchain := h.upCredit
    rw [upAcks, hup, ← hacks, List.append_assoc] at hchain
    rw [upAcks, hnew, acksOf_append, List.append_assoc]
    exact hchain
  · have hchain := h.downCredit
    rw [← hacknowledged] at hchain
    exact hchain
  · have hcount := h.upCount
    rw [hup] at hcount
    rw [hnew, dataOf_append, List.length_append]
    dsimp only
    omega
  · rw [hnew] at hd
    rcases List.mem_append.mp hd with hd | hd
    · exact h.upCells d (hup ▸ hd) hcmd
    · rw [List.mem_singleton.mp hd] at hcmd ⊢
      exact hlength hcmd

/-- The pending acknowledgement is one that the client has counted. -/
lemma pendingAck_lt (h : s.Accounted) {ack : ℕ} (hack : s.client.pendingAck = some ack) :
    ack < 256 ^ 4 := by
  have hle : ack ≤ s.client.received := by
    refine h.upCredit.bounded ack (List.mem_cons_of_mem _ ?_)
    simp [upAcks, hack]
  have hbound := h.bounds.1
  unfold U32_SIZE at hbound
  omega

lemma acksOf_ack {ack : ℕ} (h : ack < 256 ^ 4) : acksOf [⟨.dataAck, 1, toBe 4 ack⟩] = [ack] := by
  rw [acksOf_cons _ rfl, SessionCell.ackValue, ofBe_toBe, Nat.mod_eq_of_lt h, acksOf_nil]

lemma clock (h : s.Accounted) (hsel : s.client.forward = .select) :
    Accounted { s with client := s.client.clock } := by
  unfold StreamClient.clock
  dsimp only
  split
  · rename_i ack hpending
    have hack : s.client.pendingAck = some ack := by
      split_ifs at hpending
      exact hpending
    refine writeClientCell ?_ (h.startCell hsel rfl ?_ rfl (le_refl _) fun _ => length_toBe 4 ack)
    · refine { h with upCredit := h.upCredit.sublist ?_ }
      exact (List.Sublist.refl _).append ((List.nil_sublist _).append_right _)
    · rw [acksOf_ack (h.pendingAck_lt hack), hack]
      rfl
  · split_ifs
    · exact writeClientCell { h with } (h.startCell hsel rfl rfl rfl (le_refl _) (by simp))
    · split
      · refine failForward (s := { s with client := { s.client with
          preferData := !s.client.preferData, buffer := s.client.buffer.drop PAYLOAD_SIZE } }) ?_ _
        exact { h with }
      · rename_i window hcount
        obtain ⟨-, -, rfl⟩ := SendWindow.countSent_eq_ok hcount
        refine writeClientCell { h with upCount := h.upCount.trans (Nat.le_succ _) } ?_
        exact h.startCell hsel rfl rfl rfl (le_refl _) (by simp)
    · exact writeClientCell { h with } (h.startCell hsel rfl rfl rfl (le_refl _) (by simp))

/-- A cell that has been written is at the end of the circuit. -/
lemma clientFlush (h : s.Accounted) {cell : SessionCell} (hforward : s.client.forward = .write cell) :
    Accounted { s with client := s.client.flushed cell, forward := s.forward ++ [cell] } := by
  have hup : StreamPair.up { s with
      client := s.client.flushed cell, forward := s.forward ++ [cell] } = s.up := by
    have hold : s.up = s.forward ++ [cell] := by rw [up, hforward, ForwardPoint.cells]
    rw [hold]
    exact List.append_nil _
  refine { h with upCredit := ?_, upCount := ?_, upCells := fun c hc => h.upCells c (hup ▸ hc) }
  · rw [upAcks, hup]
    exact h.upCredit
  · rw [hup]
    exact h.upCount

/-- `fwd` takes an acknowledgement, which replaces one that has not been sent. -/
lemma takeAck (h : s.Accounted) (hc : s.client.takeAck = some c) :
    Accounted { s with client := c } := by
  unfold StreamClient.takeAck at hc
  split at hc
  · rename_i ack acks hrecv
    obtain ⟨rest, hqueue, rfl⟩ := Channel.tryRecv_eq_ok.mp hrecv
    cases hc
    refine { h with upCredit := h.upCredit.sublist ?_ }
    rw [upAcks, upAcks, hqueue]
    refine (List.Sublist.refl _).append ?_
    exact List.sublist_append_right s.client.pendingAck.toList _
  · rename_i hrecv
    obtain ⟨-, hclosed⟩ := Channel.tryRecv_eq_disconnected.mp hrecv
    rw [h.acksOpen] at hclosed
    cases hclosed
  · cases hc

lemma endError (h : s.Accounted) (e : StreamError) :
    Accounted { s with client := { s.client with result := some (.error e) } } := by
  refine { h with destroyed := fun hd => h.destroyed ?_ }
  rcases hd with hd | hd | hd
  · exact .inl hd
  · exact .inr (.inl hd)
  · cases hd

lemma failBackward (h : s.Accounted) (e : StreamError) :
    Accounted { s with client := s.client.failBackward e } := h.endError _

lemma put (h : s.Accounted) {n : ℕ} (hc : s.client.put n = some c) :
    Accounted { s with client := c } := by
  unfold StreamClient.put at hc
  split at hc
  · rename_i rest hwrite
    have hreceived := h.received
    have hwrote := h.wrote
    have hchain := h.upCredit
    rw [hwrite, BackwardPoint.uncounted] at hreceived
    rw [hwrite, BackwardPoint.rest] at hwrote
    rw [upAcks, hwrite, BackwardPoint.acks] at hchain
    split_ifs at hc with hn hcount
    · cases hc
      refine { h with
        upCredit := hchain, received := hreceived, wrote := ?_
        destroyed := fun hd => h.destroyed (hd.of_client (by simp) id) }
      dsimp only [BackwardPoint.rest]
      rw [List.append_assoc, List.take_append_drop]
      exact hwrote
    · cases hc
      refine { h with
        upCredit := ?_, received := hreceived, wrote := (List.append_nil _).trans hwrote
        destroyed := fun hd => h.destroyed (hd.of_client (by simp) id)
        bounds := ⟨hcount, h.bounds.2⟩ }
      have hcounted := hchain.count
      simp only [List.append_nil, List.append_assoc] at hcounted
      exact hcounted
    · cases hc
      exact { h with
        upCredit := hchain, received := hreceived, wrote := (List.append_nil _).trans hwrote
        destroyed := fun hd => h.destroyed (hd.of_client (by simp) (by rintro ⟨⟩)) }
  · cases hc

/-- The new count moves into the channel. -/
lemma sendAck (h : s.Accounted) (hc : s.client.sendAck = some c) :
    Accounted { s with client := c } := by
  unfold StreamClient.sendAck at hc
  split at hc
  · rename_i value hack
    have hreceived := h.received
    have hwrote := h.wrote
    have hchain := h.upCredit
    rw [hack, BackwardPoint.uncounted] at hreceived
    rw [hack, BackwardPoint.rest] at hwrote
    rw [upAcks, hack, BackwardPoint.acks] at hchain
    split at hc
    · rename_i acks hsend
      obtain ⟨-, -, rfl⟩ := Channel.trySend_eq_ok.mp hsend
      cases hc
      refine { h with
        upCredit := ?_, received := hreceived, wrote := hwrote
        destroyed := fun hd => h.destroyed (hd.of_client (by simp) id) }
      rw [upAcks, BackwardPoint.acks, List.append_nil]
      exact hchain
    · cases hc
      exact h.failBackward _
    · cases hc
  · cases hc

lemma shutdown (h : s.Accounted) {ok : Bool} (hc : s.client.shutdown ok = some c) :
    Accounted { s with client := c } := by
  unfold StreamClient.shutdown at hc
  split at hc
  · rename_i hpoint
    cases hc
    split_ifs
    · exact { h with destroyed := fun _ => h.destroyed (.inr (.inl hpoint)) }
    · exact h.failBackward _
  · cases hc

/-- A step of the client between cells. -/
theorem client_step (h : s.Accounted) {i : ClientInput}
    (hc : s.client.step i = some c) : Accounted { s with client := c } := by
  unfold StreamClient.step at hc
  by_cases hresult : s.client.result.isSome = true
  · rw [if_pos hresult] at hc
    cases hc
  rw [if_neg hresult] at hc
  cases i with
  | takeAck =>
    dsimp only at hc
    split_ifs at hc
    exact h.takeAck hc
  | clock =>
    dsimp only at hc
    split_ifs at hc with hsel
    cases hc
    exact h.clock hsel.1
  | upload =>
    dsimp only at hc
    split_ifs at hc
    cases hc
    unfold StreamClient.upload
    split_ifs <;> exact { h with }
  | uploadError =>
    dsimp only at hc
    split_ifs at hc
    cases hc
    exact h.failForward _
  | writeError =>
    dsimp only at hc
    split at hc
    · cases hc
      exact h.failForward _
    · cases hc
  | readError =>
    dsimp only at hc
    split_ifs at hc
    cases hc
    exact h.failBackward _
  | put => exact h.put hc
  | putError =>
    dsimp only at hc
    split at hc
    · cases hc
      exact h.failBackward _
    · cases hc
  | sendAck => exact h.sendAck hc
  | shutdown => exact h.shutdown hc
  | drainTimeout =>
    obtain ⟨e, -, rfl⟩ := Option.map_eq_some_iff.mp hc
    exact h.endError _
  | lifetime =>
    dsimp only at hc
    split_ifs at hc
    cases hc
    exact h.endError _

section ClientReceive
variable {frame : ℕ × SessionCell} {rest : List (ℕ × SessionCell)}

/-- The cells under way to the client behind the next one. -/
def tail (s : StreamPair) (rest : List (ℕ × SessionCell)) : List SessionCell :=
  rest.map Prod.snd ++ s.exit.point.cells

lemma down_eq (hback : s.backward = frame :: rest) : s.down = frame.2 :: tail s rest := by
  rw [down, hback]
  rfl

/-- The next acknowledgement is acceptable. -/
lemma client_accepts (h : s.Accounted) (hback : s.backward = frame :: rest)
    (hcmd : frame.2.command = .dataAck) : s.client.window.acknowledge frame.2.data =
      .ok { s.client.window with acknowledged := frame.2.ackValue } := by
  have hmem : frame.2 ∈ s.down := down_eq hback ▸ List.mem_cons_self
  have hchain := h.downCredit
  rw [downAcks, down_eq hback, acksOf_cons _ hcmd] at hchain
  obtain ⟨hlt, hle⟩ := hchain.next
  have hcount := h.upCount
  have hsent : frame.2.ackValue ≤ s.client.window.sent := by omega
  exact SendWindow.acknowledge_eq_ok.mpr ⟨(h.downCells frame.2 hmem).2.2 hcmd, hlt, hsent, rfl⟩

/-- The client takes a cell off the circuit, and its accounts take over what the
cell carried. -/
lemma take (h : s.Accounted) (hback : s.backward = frame :: rest)
    (hread : s.client.backward = .read) (hc : c = { s.client with
      window := c.window, backward := c.backward, taken := c.taken })
    (hcredit : Credited c.window.acknowledged s.exit.receivedData
      (acksOf (tail s rest) ++ s.exit.pendingExitAck.toList))
    (hsent : c.window.sent = s.client.window.sent)
    (htaken : c.taken ++ dataOf (tail s rest) = s.client.taken ++ dataOf s.down)
    (hreceived : s.client.received + c.backward.uncounted = c.taken.length)
    (hwrote : s.client.wrote ++ c.backward.rest = c.taken.flatten) (hacks : c.backward.acks = [])
    (hdestroy : c.backward = .shutdown → frame.2.command = .destroy) :
    Accounted { s with client := c, backward := rest } := by
  have hsub : ∀ f ∈ rest, f ∈ s.backward := fun f hf => hback ▸ List.mem_cons_of_mem _ hf
  rw [hc]
  refine { h with
    upCredit := ?_, downCredit := hcredit, upCount := ?_, downCount := ?_
    received := hreceived, wrote := hwrote, delivered := ?_
    downCells := fun d hd => h.downCells d (down_eq hback ▸ List.mem_cons_of_mem _ hd)
    hop := ⟨h.hop.1, fun f hf => h.hop.2 f (hsub f hf)⟩, destroyed := fun hd => ?_ }
  · have hchain := h.upCredit
    rw [upAcks, hread, BackwardPoint.acks, ← hacks] at hchain
    exact hchain
  · have hcount := h.upCount
    rw [← hsent] at hcount
    exact hcount
  · have hcount := h.downCount
    rw [← List.length_append, ← htaken, List.length_append] at hcount
    exact hcount
  · have hdelivered := h.delivered
    rw [← List.append_assoc, ← htaken, List.append_assoc] at hdelivered
    exact hdelivered
  · rcases hd with ⟨f, hf, hcmd⟩ | hd | hd
    · exact h.destroyed (.inl ⟨f, hsub f hf, hcmd⟩)
    · exact h.destroyed (.inl ⟨frame, hback ▸ List.mem_cons_self, hdestroy hd⟩)
    · exact h.destroyed (.inr (.inr hd))

lemma clientReceive (h : s.Accounted) (hback : s.backward = frame :: rest)
    (hread : s.client.backward = .read) :
    Accounted { s with client := s.client.receive frame, backward := rest } := by
  have hmem : frame.2 ∈ s.down := down_eq hback ▸ List.mem_cons_self
  have hhop : frame.1 = s.client.exitIndex := h.hop.2 frame (hback ▸ List.mem_cons_self)
  obtain ⟨hid, hcommand, -⟩ := h.downCells frame.2 hmem
  have hreceived := h.received
  have hwrote := h.wrote
  have hchain := h.downCredit
  rw [hread, BackwardPoint.uncounted] at hreceived
  rw [hread, BackwardPoint.rest] at hwrote
  rw [downAcks, down_eq hback] at hchain
  have hacks : s.client.backward.acks = [] := by rw [hread, BackwardPoint.acks]
  have hopen : s.client.backward = .shutdown → frame.2.command = .destroy := by
    rw [hread]
    simp
  unfold StreamClient.receive
  rw [if_neg (not_not.mpr hhop), if_neg (fun hbad => hbad.1 hid)]
  split
  · rename_i hcmd
    rw [acksOf_cons_of_ne _ (by simp [hcmd])] at hchain
    refine h.take hback hread rfl hchain rfl ?_ ?_ ?_ rfl (by simp)
    · rw [down_eq hback, dataOf_cons _ hcmd, List.append_assoc]
      rfl
    · rw [List.length_append, ← hreceived]
      rfl
    · rw [List.append_nil] at hwrote
      rw [List.flatten_append, ← hwrote, List.flatten_singleton]
      rfl
  · rename_i hcmd
    rw [h.client_accepts hback hcmd]
    rw [acksOf_cons _ hcmd] at hchain
    refine h.take hback hread rfl hchain.accept rfl ?_ h.received h.wrote hacks hopen
    rw [down_eq hback, dataOf_cons_of_ne _ (by simp [hcmd])]
  · rename_i hcmd
    rw [acksOf_cons_of_ne _ (by simp [hcmd])] at hchain
    refine h.take hback hread rfl hchain rfl ?_ hreceived hwrote rfl fun _ => hcmd
    rw [down_eq hback, dataOf_cons_of_ne _ (by simp [hcmd])]
  · rename_i hcmd
    rw [acksOf_cons_of_ne _ (by simp [hcmd])] at hchain
    refine h.take hback hread rfl hchain rfl ?_ h.received h.wrote hacks hopen
    rw [down_eq hback, dataOf_cons_of_ne _ (by simp [hcmd])]
  · rename_i hdata hack hdestroy hdummy
    exfalso
    revert hcommand
    cases hcmd : frame.2.command <;> simp_all [backwardCommand]

end ClientReceive

/-! The exit's steps. -/

lemma ended (h : s.Accounted) (result : Except StreamError Unit) :
    Accounted { s with exit := s.exit.ended result } := { h with }

lemma selecting_eq (h : s.exit.selecting = true) :
    s.exit.result = none ∧ s.exit.point = .select := by
  simp only [StreamExit.selecting, Bool.and_eq_true, Option.isNone_iff_eq_none, beq_iff_eq] at h
  exact h.1

variable {x : StreamExit}

section ExitReceive
variable {cell : SessionCell} {rest : List SessionCell}

/-- The cells under way to the exit behind the next one. -/
def upTail (s : StreamPair) (rest : List SessionCell) : List SessionCell :=
  rest ++ s.client.forward.cells

lemma up_eq (hforward : s.forward = cell :: rest) : s.up = cell :: upTail s rest := by
  rw [up, hforward]
  rfl

/-- The next acknowledgement is acceptable. -/
lemma exit_accepts (h : s.Accounted) (hforward : s.forward = cell :: rest)
    (hcmd : cell.command = .dataAck) : s.exit.window.acknowledge cell.data =
      .ok { s.exit.window with acknowledged := cell.ackValue } := by
  have hmem : cell ∈ s.up := up_eq hforward ▸ List.mem_cons_self
  have hchain := h.upCredit
  rw [upAcks, up_eq hforward, acksOf_cons _ hcmd] at hchain
  obtain ⟨hlt, hle⟩ := hchain.next
  have hcount := h.downCount
  have hreceived := h.received
  have hsent : cell.ackValue ≤ s.exit.window.sent := by omega
  exact SendWindow.acknowledge_eq_ok.mpr ⟨h.upCells cell hmem hcmd, hlt, hsent, rfl⟩

/-- The exit takes a cell off the circuit. -/
lemma takeUp (h : s.Accounted) (hforward : s.forward = cell :: rest)
    (hsel : s.exit.point = .select) (hx : x = { s.exit with
      window := x.window, point := x.point, lastProgress := x.lastProgress
      uploadClosed := x.uploadClosed })
    (hcredit : Credited x.window.acknowledged s.client.received (acksOf (upTail s rest) ++
      (s.client.pendingAck.toList ++ (s.client.acks.queue ++ s.client.backward.acks))))
    (hsent : x.window.sent = s.exit.window.sent)
    (hcount : x.point.uncounted + (dataOf (upTail s rest)).length ≤ (dataOf s.up).length)
    (hcells : x.point.cells = []) (hpoint : x.point ≠ .destroy) :
    Accounted { s with exit := x, forward := rest } := by
  have hdown : s.down = s.backward.map Prod.snd ++ x.point.cells := by
    rw [down, hsel, hcells]
    rfl
  rw [hx]
  refine { h with
    upCredit := hcredit, downCredit := ?_, upCount := ?_, downCount := ?_, delivered := ?_
    upCells := fun d hd => h.upCells d (up_eq hforward ▸ List.mem_cons_of_mem _ hd)
    downCells := fun d hd => h.downCells d (hdown ▸ hd)
    writing := fun d hd => absurd (hcells ▸ hd) List.not_mem_nil
    closing := fun hd => absurd hd hpoint, destroyed := fun hd => ?_ }
  · have hchain := h.downCredit
    rw [downAcks, hdown] at hchain
    exact hchain
  · have hold := h.upCount
    rw [hsel, ExitPoint.uncounted] at hold
    change s.exit.receivedData + x.point.uncounted + (dataOf (upTail s rest)).length ≤
      s.client.window.sent
    omega
  · have hold := h.downCount
    rw [hdown, ← hsent] at hold
    exact hold
  · have hold := h.delivered
    rw [hdown] at hold
    exact hold
  · have hold : s.exit.point = .destroy := h.destroyed hd
    rw [hsel] at hold
    cases hold

lemma exitReceive (h : s.Accounted) (hforward : s.forward = cell :: rest)
    (hsel : s.exit.point = .select) (now : ℕ) :
    Accounted { s with exit := s.exit.receive now cell, forward := rest } := by
  have hchain := h.upCredit
  rw [upAcks, up_eq hforward] at hchain
  have hnodata (hcmd : cell.command ≠ .data) :
      0 + (dataOf (upTail s rest)).length ≤ (dataOf s.up).length := by
    rw [up_eq hforward, dataOf_cons_of_ne _ hcmd, Nat.zero_add]
  -- a cell that the loop breaks on, or that changes no account
  have hskip (hack : cell.command ≠ .dataAck) : Accounted { s with forward := rest } := by
    rw [acksOf_cons_of_ne _ hack] at hchain
    refine h.takeUp (x := s.exit) hforward hsel rfl hchain rfl ?_ ?_ ?_
    · rw [hsel, ExitPoint.uncounted, Nat.zero_add, up_eq hforward]
      exact length_dataOf_le (List.sublist_cons_self _ _)
    · rw [hsel]
      rfl
    · rw [hsel]
      simp
  unfold StreamExit.receive
  split
  · rename_i hcmd
    have hack : cell.command ≠ .dataAck := by simp [hcmd]
    split_ifs
    · exact (hskip hack).ended _
    · rw [acksOf_cons_of_ne _ hack] at hchain
      refine h.takeUp hforward hsel rfl hchain rfl ?_ rfl (by simp)
      rw [up_eq hforward, dataOf_cons _ hcmd, List.length_cons, Nat.add_comm]
      rfl
  · rename_i hcmd
    rw [h.exit_accepts hforward hcmd]
    rw [acksOf_cons _ hcmd] at hchain
    refine h.takeUp hforward hsel rfl hchain.accept rfl ?_ ?_ ?_
    · rw [hsel]
      exact hnodata (by simp [hcmd])
    · rw [hsel]
      rfl
    · rw [hsel]
      simp
  · rename_i hcmd
    have hack : cell.command ≠ .dataAck := by simp [hcmd]
    split_ifs
    · exact (hskip hack).ended _
    · rw [acksOf_cons_of_ne _ hack] at hchain
      exact h.takeUp hforward hsel rfl hchain rfl (hnodata (by simp [hcmd])) rfl (by simp)
  · rename_i hcmd
    exact hskip (by simp [hcmd])
  · rename_i hdata hack hend hdummy
    exact (hskip hack).ended _

end ExitReceive

/-- The loop moves between points at which it writes no cell. -/
lemma movePoint (h : s.Accounted) (hx : x = { s.exit with
      point := x.point, sequenceNo := x.sequenceNo, uploaded := x.uploaded })
    (hold : s.exit.point.cells = []) (hnew : x.point.cells = [])
    (huncounted : x.point.uncounted = s.exit.point.uncounted) (hopen : s.exit.point ≠ .destroy)
    (hclosing : x.point = .destroy → s.exit.finished = true) :
    Accounted { s with exit := x } := by
  have hdown : s.down = s.backward.map Prod.snd ++ x.point.cells := by rw [down, hold, hnew]
  have hcount := h.upCount
  have hdownCount := h.downCount
  have hdelivered := h.delivered
  have hchain := h.downCredit
  have hcells := h.downCells
  rw [← huncounted] at hcount
  rw [hdown] at hdownCount hdelivered hcells
  rw [downAcks, hdown] at hchain
  rw [hx]
  exact { h with
    downCredit := hchain, upCount := hcount, downCount := hdownCount, delivered := hdelivered
    downCells := hcells, writing := fun d hd => absurd (hnew ▸ hd) List.not_mem_nil
    closing := hclosing, destroyed := fun hd => absurd (h.destroyed hd) hopen }

/-- The exit counts a cell, and the new count replaces one that has not been sent. -/
lemma countData (h : s.Accounted) {rest : Bytes} (hupload : s.exit.point = .upload rest)
    (hmax : s.exit.receivedData + 1 < U32_SIZE) :
    Accounted { s with exit := { s.exit with
      point := .select
      uploaded := s.exit.uploaded ++ rest
      receivedData := s.exit.receivedData + 1
      pendingExitAck := some (s.exit.receivedData + 1) } } := by
  have hdown : s.down = s.backward.map Prod.snd ++ [] := by
    rw [down, hupload, ExitPoint.cells]
  have hcount := h.upCount
  have hdownCount := h.downCount
  have hdelivered := h.delivered
  have hcells := h.downCells
  have hcounted := h.downCredit.count
  rw [hupload, ExitPoint.uncounted] at hcount
  rw [hdown] at hdownCount hdelivered hcells
  rw [downAcks, hdown, List.append_assoc] at hcounted
  refine { h with
    downCredit := hcounted.sublist ((List.Sublist.refl _).append (List.sublist_append_right _ _))
    upCount := hcount, downCount := hdownCount, delivered := hdelivered, downCells := hcells
    writing := by rintro _ ⟨⟩, closing := by simp, destroyed := fun hd => ?_, bounds := ⟨h.bounds.1, hmax⟩ }
  have hpoint : s.exit.point = .destroy := h.destroyed hd
  rw [hupload] at hpoint
  cases hpoint

lemma exitPut (h : s.Accounted) {n : ℕ} (hx : s.exit.put n = some x) :
    Accounted { s with exit := x } := by
  unfold StreamExit.put at hx
  split at hx
  · rename_i rest hupload
    split_ifs at hx with hn hmax
    · cases hx
      refine h.movePoint rfl ?_ rfl ?_ ?_ (by simp)
      · rw [hupload, ExitPoint.cells]
      · rw [hupload]
        rfl
      · rw [hupload]
        simp
    · cases hx
      exact h.countData hupload hmax
    · cases hx
      exact ended (s := { s with exit := { s.exit with uploaded := s.exit.uploaded ++ rest } })
        { h with } _
  · cases hx

lemma takeChunk (h : s.Accounted) (hsel : s.exit.point = .select)
    (hnone : s.exit.pendingExitData = none) {now : ℕ}
    (hx : s.exit.takeChunk now = some x) : Accounted { s with exit := x } := by
  have hopen (hd : s.exit.point = .destroy) : False := by
    rw [hsel] at hd
    cases hd
  unfold StreamExit.takeChunk at hx
  split at hx
  · rename_i chunk chunks hrecv
    obtain ⟨rest, hqueue, rfl⟩ := Channel.tryRecv_eq_ok.mp hrecv
    cases hx
    refine { h with
      delivered := ?_, eof := fun heof => ?_, closing := fun hd => (hopen hd).elim }
    · have hdelivered := h.delivered
      rw [hnone, hqueue] at hdelivered
      exact hdelivered
    · have hempty := (h.eof heof).1
      rw [hqueue] at hempty
      cases hempty
  · rename_i hrecv
    cases hx
    exact { h with
      eof := fun _ => Channel.tryRecv_eq_disconnected.mp hrecv
      closing := fun hd => (hopen hd).elim }
  · cases hx

/-- The exit starts to write a cell. An acknowledgement is the pending one, and
data is the pending chunk and has been counted. -/
lemma startExit (h : s.Accounted) (hsel : s.exit.point = .select)
    {cell : SessionCell} (hx : x = { s.exit with
      sequenceNo := x.sequenceNo, preferExitData := x.preferExitData, window := x.window
      pendingExitData := x.pendingExitData, pendingExitAck := x.pendingExitAck
      point := .write cell })
    (hacks : acksOf [cell] ++ x.pendingExitAck.toList = s.exit.pendingExitAck.toList)
    (hdata : dataOf [cell] ++ x.pendingExitData.toList = s.exit.pendingExitData.toList)
    (hacknowledged : x.window.acknowledged = s.exit.window.acknowledged)
    (hsent : x.window.sent = s.exit.window.sent + (dataOf [cell]).length)
    (hcell : cell.id = 1 ∧ backwardCommand cell.command = true ∧
      (cell.command = .dataAck → cell.data.length = 4)) (hlast : cell.command ≠ .destroy) :
    Accounted { s with exit := x } := by
  have hdown : s.down = s.backward.map Prod.snd := by
    rw [down, hsel, ExitPoint.cells, List.append_nil]
  have hnew : StreamPair.down { s with exit := x } = s.backward.map Prod.snd ++ [cell] := by
    rw [hx]
    rfl
  rw [hx] at hnew ⊢
  refine { h with
    upCredit := ?_, downCredit := ?_, upCount := ?_, downCount := ?_, delivered := ?_
    downCells := fun d hd => ?_, writing := fun d hd => ?_, closing := by simp
    destroyed := fun hd => ?_ }
  · have hchain := h.upCredit
    rw [← hacknowledged] at hchain
    exact hchain
  · have hchain := h.downCredit
    rw [downAcks, hdown, ← hacks, ← List.append_assoc] at hchain
    rw [downAcks, hnew, acksOf_append]
    exact hchain
  · have hcount := h.upCount
    rw [hsel] at hcount
    exact hcount
  · have hcount := h.downCount
    rw [hdown] at hcount
    rw [hnew, dataOf_append, List.length_append]
    dsimp only
    omega
  · have hdelivered := h.delivered
    rw [hdown, ← hdata] at hdelivered
    rw [hnew, dataOf_append, List.append_assoc, ← hdelivered, List.append_assoc]
  · rw [hnew] at hd
    rcases List.mem_append.mp hd with hd | hd
    · exact h.downCells d (hdown ▸ hd)
    · rw [List.mem_singleton.mp hd]
      exact hcell
  · rw [List.mem_singleton.mp hd]
    exact hlast
  · have hpoint : s.exit.point = .destroy := h.destroyed hd
    rw [hsel] at hpoint
    cases hpoint

/-- A branch that ends with a cell, or with an error. -/
lemma orEnd (h : s.Accounted) {r : Except StreamError StreamExit}
    (hok : ∀ x, r = .ok x → Accounted { s with exit := x }) :
    Accounted { s with exit := s.exit.orEnd r } := by
  cases r with
  | error => exact h.ended _
  | ok x => exact hok x rfl

lemma originate_eq_ok {x x' : StreamExit} {cell : SessionCell} {point : ExitPoint}
    (h : x.originate cell point = .ok x') :
    x' = { x with sequenceNo := x.sequenceNo + 1, point := point } := by
  unfold StreamExit.originate at h
  split_ifs at h
  exact (Except.ok.inj h).symm

lemma pendingExitAck_lt (h : s.Accounted) {ack : ℕ} (hack : s.exit.pendingExitAck = some ack) :
    ack < 256 ^ 4 := by
  have hle : ack ≤ s.exit.receivedData := by
    refine h.downCredit.bounded ack (List.mem_cons_of_mem _ ?_)
    simp [downAcks, hack]
  have hbound := h.bounds.2
  unfold U32_SIZE at hbound
  omega

lemma exitClock (h : s.Accounted) (hsel : s.exit.point = .select) {now : ℕ}
    (hx : s.exit.clock now = .ok x) : Accounted { s with exit := x } := by
  unfold StreamExit.clock at hx
  by_cases hidle : seconds 60 ≤ now - s.exit.lastProgress
  · rw [if_pos hidle] at hx
    cases hx
  rw [if_neg hidle] at hx
  dsimp only at hx
  split at hx
  · rename_i ack hpending
    have hack : s.exit.pendingExitAck = some ack := by
      split_ifs at hpending
      exact hpending
    obtain rfl := originate_eq_ok hx
    refine h.startExit hsel rfl ?_ rfl rfl rfl ⟨rfl, rfl, fun _ => length_toBe 4 ack⟩ (by simp)
    rw [acksOf_ack (h.pendingExitAck_lt hack), hack]
    rfl
  · split at hx
    · rename_i data hpending
      have hdata : s.exit.pendingExitData = some data := by
        split_ifs at hpending
        exact hpending
      split at hx
      · cases hx
      · rename_i window hcount
        obtain ⟨-, -, rfl⟩ := SendWindow.countSent_eq_ok hcount
        obtain rfl := originate_eq_ok hx
        refine h.startExit hsel rfl rfl ?_ rfl rfl ⟨rfl, rfl, by simp⟩ (by simp)
        rw [hdata]
        rfl
    · obtain rfl := originate_eq_ok hx
      exact h.startExit hsel rfl rfl rfl rfl rfl ⟨rfl, rfl, by simp⟩ (by simp)

/-- The check at the top of the loop has held. -/
lemma startDestroy (h : s.Accounted) (hsel : s.exit.point = .select) (hfin : s.exit.finished = true)
    (hx : s.exit.originate StreamExit.destroyCell .destroy = .ok x) :
    Accounted { s with exit := x } := by
  obtain rfl := originate_eq_ok hx
  refine h.movePoint rfl ?_ rfl ?_ ?_ fun _ => hfin
  · rw [hsel, ExitPoint.cells]
  · rw [hsel]
    rfl
  · rw [hsel]
    simp

/-- The reader ends. -/
lemma readerGone (h : s.Accounted) :
    Accounted { s with exit := { s.exit with
      reader := .gone, chunks := s.exit.chunks.dropSender } } :=
  { h with
    eof := fun heof => ⟨(h.eof heof).1, rfl⟩
    reader := fun _ => rfl }

lemma send (h : s.Accounted) {chunk : Bytes} (hreader : s.exit.reader = .send chunk)
    {chunks : Channel Bytes} (hsend : s.exit.chunks.trySend chunk = .ok chunks) :
    Accounted { s with exit := { s.exit with
      chunks := chunks, reader := .read, delivered := s.exit.delivered ++ [chunk] } } := by
  obtain ⟨-, -, rfl⟩ := Channel.trySend_eq_ok.mp hsend
  have hopen (hclosed : s.exit.chunks.senderOpen = false) : False := by
    have hgone := h.reader hclosed
    rw [hreader] at hgone
    cases hgone
  refine { h with
    delivered := ?_, eof := fun heof => (hopen (h.eof heof).2).elim
    reader := fun hclosed => (hopen hclosed).elim }
  dsimp only
  rw [← h.delivered]
  simp only [List.append_assoc]
  rfl

/-- A step of the exit between cells. -/
theorem exit_step (h : s.Accounted) {i : ExitInput}
    (hx : s.exit.step i = some x) : Accounted { s with exit := x } := by
  cases i with
  | linkClosed | idle =>
    simp only [StreamExit.step] at hx
    split_ifs at hx
    cases hx
    exact h.ended _
  | chunk =>
    simp only [StreamExit.step] at hx
    split_ifs at hx with hchunk
    exact h.takeChunk (selecting_eq hchunk.1).2 hchunk.2.1 hx
  | clock =>
    simp only [StreamExit.step] at hx
    split_ifs at hx with hsel
    cases hx
    exact h.orEnd fun x hx => h.exitClock (selecting_eq hsel).2 hx
  | put =>
    simp only [StreamExit.step] at hx
    split_ifs at hx
    exact h.exitPut hx
  | putError =>
    simp only [StreamExit.step] at hx
    split at hx
    · split_ifs at hx
      cases hx
      exact h.ended _
    · cases hx
  | shutdown =>
    simp only [StreamExit.step] at hx
    by_cases hshut : s.exit.result = none ∧ s.exit.point = .shutdown
    · rw [if_pos hshut] at hx
      cases hx
      split_ifs
      · refine h.movePoint rfl ?_ rfl ?_ ?_ (by simp)
        · rw [hshut.2, ExitPoint.cells]
        · rw [hshut.2]
          rfl
        · rw [hshut.2]
          simp
      · exact h.ended _
    · rw [if_neg hshut] at hx
      cases hx
  | destroy =>
    simp only [StreamExit.step] at hx
    split_ifs at hx with hfin
    cases hx
    exact h.orEnd fun x hx => h.startDestroy hfin.2.1 hfin.2.2 hx
  | writeError =>
    simp only [StreamExit.step] at hx
    split at hx
    · split_ifs at hx
      cases hx
      exact h.ended _
    · split_ifs at hx
      cases hx
      exact h.ended _
    · cases hx
  | read =>
    simp only [StreamExit.step] at hx
    split_ifs at hx with hread
    cases hx
    refine { h with reader := fun hclosed => ?_ }
    have hgone : s.exit.reader = .gone := h.reader hclosed
    rw [hread.1] at hgone
    cases hgone
  | readEnd | readerClosed =>
    simp only [StreamExit.step] at hx
    split_ifs at hx
    cases hx
    exact h.readerGone
  | send =>
    simp only [StreamExit.step] at hx
    split at hx
    · rename_i chunk hreader
      split at hx
      · rename_i chunks hsend
        cases hx
        exact h.send hreader hsend
      · cases hx
        exact h.readerGone
      · cases hx
    · cases hx

/-- A cell that has been written is at the end of the circuit. -/
lemma exitFlush (h : s.Accounted) {cell : SessionCell} (hpoint : s.exit.point = .write cell) :
    Accounted { s with
      exit := { s.exit with point := .select }
      backward := s.backward ++ [(s.exit.hopIndex, cell)] } := by
  have hdown : StreamPair.down { s with
      exit := { s.exit with point := .select }
      backward := s.backward ++ [(s.exit.hopIndex, cell)] } = s.down := by
    simp [down, hpoint, ExitPoint.cells]
  refine { h with
    downCredit := ?_, upCount := ?_, downCount := ?_, delivered := ?_
    downCells := fun d hd => h.downCells d (hdown ▸ hd), hop := ⟨h.hop.1, fun f hf => ?_⟩
    writing := by rintro _ ⟨⟩, closing := by simp, destroyed := fun hd => ?_ }
  · rw [downAcks, hdown]
    exact h.downCredit
  · have hcount := h.upCount
    rw [hpoint] at hcount
    exact hcount
  · rw [hdown]
    exact h.downCount
  · rw [hdown]
    exact h.delivered
  · rcases List.mem_append.mp hf with hf | hf
    · exact h.hop.2 f hf
    · rw [List.mem_singleton.mp hf]
      exact h.hop.1
  · have hnot : s.exit.point ≠ .destroy := by
      rw [hpoint]
      simp
    rcases hd with ⟨f, hf, hcmd⟩ | hd | hd
    · rcases List.mem_append.mp hf with hf | hf
      · exact absurd (h.destroyed (.inl ⟨f, hf, hcmd⟩)) hnot
      · rw [List.mem_singleton.mp hf] at hcmd
        refine absurd hcmd (h.writing cell ?_)
        rw [hpoint, ExitPoint.cells]
        exact List.mem_singleton_self cell
    · exact absurd (h.destroyed (.inr (.inl hd))) hnot
    · exact absurd (h.destroyed (.inr (.inr hd))) hnot

/-- The exit's last cell is at the end of the circuit. -/
lemma destroyFlush (h : s.Accounted) (hpoint : s.exit.point = .destroy) :
    Accounted { s with
      exit := s.exit.leave
      backward := s.backward ++ [(s.exit.hopIndex, StreamExit.destroyCell)] } := by
  have hold : s.down = s.backward.map Prod.snd := by
    rw [down, hpoint, ExitPoint.cells, List.append_nil]
  have hdown : StreamPair.down { s with
      exit := s.exit.leave
      backward := s.backward ++ [(s.exit.hopIndex, StreamExit.destroyCell)] } =
      s.down ++ [StreamExit.destroyCell] := by
    simp [down, StreamExit.leave, StreamExit.ended, hpoint, ExitPoint.cells]
  refine { h with
    downCredit := ?_, downCount := ?_, delivered := ?_, downCells := fun d hd => ?_
    hop := ⟨h.hop.1, fun f hf => ?_⟩, destroyed := fun _ => hpoint }
  · rw [downAcks, hdown, acksOf_append]
    exact (List.append_nil (acksOf s.down)).symm ▸ h.downCredit
  · rw [hdown, dataOf_append]
    exact (List.append_nil (dataOf s.down)).symm ▸ h.downCount
  · rw [hdown, dataOf_append]
    exact (List.append_nil (dataOf s.down)).symm ▸ h.delivered
  · rw [hdown] at hd
    rcases List.mem_append.mp hd with hd | hd
    · exact h.downCells d hd
    · rw [List.mem_singleton.mp hd]
      exact ⟨rfl, rfl, by rintro ⟨⟩⟩
  · rcases List.mem_append.mp hf with hf | hf
    · exact h.hop.2 f hf
    · rw [List.mem_singleton.mp hf]
      exact h.hop.1

/-- Every step keeps the accounts. -/
theorem step (h : s.Accounted) {i : StreamInput} {s' : StreamPair} (hs : s.step i = some s') :
    s'.Accounted := by
  cases i with
  | client =>
    obtain ⟨c, hc, rfl⟩ := Option.map_eq_some_iff.mp hs
    exact h.client_step hc
  | exit =>
    obtain ⟨x, hx, rfl⟩ := Option.map_eq_some_iff.mp hs
    exact h.exit_step hx
  | clientFlush =>
    simp only [StreamPair.step] at hs
    split at hs
    · rename_i cell hforward
      split_ifs at hs
      cases hs
      exact h.clientFlush hforward
    · cases hs
  | clientReceive =>
    simp only [StreamPair.step] at hs
    split at hs
    · cases hs
    · rename_i frame rest hback
      split_ifs at hs with hread
      cases hs
      exact h.clientReceive hback hread.2
  | exitFlush =>
    simp only [StreamPair.step] at hs
    split at hs
    · rename_i cell hpoint
      split_ifs at hs
      cases hs
      exact h.exitFlush hpoint
    · rename_i hpoint
      split_ifs at hs
      cases hs
      exact h.destroyFlush hpoint
    · cases hs
  | exitReceive now =>
    simp only [StreamPair.step] at hs
    split at hs
    · cases hs
    · rename_i cell rest hforward
      split_ifs at hs with hsel
      cases hs
      exact h.exitReceive hforward (selecting_eq hsel).2 now

/-- When the client has ended well, nothing is under way. -/
theorem complete (h : s.Accounted) (hok : s.client.result = some (.ok ())) :
    s.client.wrote = s.exit.delivered.flatten := by
  have hfin := h.closing (h.destroyed (.inr (.inr hok)))
  simp only [StreamExit.finished, SendWindow.drained, Bool.and_eq_true, beq_iff_eq,
    Option.isNone_iff_eq_none] at hfin
  obtain ⟨⟨⟨heof, hdrained⟩, hdata⟩, -⟩ := hfin
  have hacked := h.upCredit.acknowledged_le
  have hreceived := h.received
  have hcount := h.downCount
  have hnone : dataOf s.down = [] := List.length_eq_zero_iff.mp (by omega)
  have htaken : s.client.taken = s.exit.delivered := by
    rw [← h.delivered, hnone, hdata, (h.eof heof).1]
    simp
  have hrest : s.client.backward.rest = [] := by
    have huncounted : s.client.backward.uncounted = 0 := by omega
    cases hpoint : s.client.backward with
    | write =>
      rw [hpoint] at huncounted
      cases huncounted
    | _ => rfl
  have hwrote := h.wrote
  rw [hrest, List.append_nil, htaken] at hwrote
  exact hwrote

end Accounted

theorem accounted_of_run {exitIndex clientSequence exitSequence start : ℕ}
    (hrun : Run step (new exitIndex clientSequence exitSequence start) s) : s.Accounted :=
  hrun.invariant (accounted_new exitIndex clientSequence exitSequence start)
    fun _ _ _ h _ hs => h.step hs

/-- In every run of the two loops, each side accepts the other's next acknowledgement,
and a client that ends well has written to its application what the destination's
reader delivered, in that order. -/
theorem single_stream_delivers (exitIndex clientSequence exitSequence start : ℕ) {s : StreamPair}
    (hrun : Run step (new exitIndex clientSequence exitSequence start) s) :
    (∀ cell rest, s.forward = cell :: rest → cell.command = .dataAck →
      ∃ window, s.exit.window.acknowledge cell.data = .ok window) ∧
    (∀ hop cell rest, s.backward = (hop, cell) :: rest → cell.command = .dataAck →
      ∃ window, s.client.window.acknowledge cell.data = .ok window) ∧
    (s.client.result = some (.ok ()) → s.client.wrote = s.exit.delivered.flatten) := by
  have h := accounted_of_run hrun
  refine ⟨fun cell rest hforward hcmd => ?_, fun hop cell rest hback hcmd => ?_, h.complete⟩
  · exact ⟨_, h.exit_accepts hforward hcmd⟩
  · exact ⟨_, h.client_accepts hback hcmd⟩

/-- A destination that sends one chunk and closes. -/
def sampleStart : StreamPair := new 2 5 4 0

def sampleDownload : StreamPair :=
  (runInputs step sampleStart [
    .exit (.read [1, 2, 3]), .exit .send, .exit (.chunk 0), .exit (.clock 0), .exitFlush,
    .clientReceive, .client (.put 2), .client (.put 2), .client .sendAck, .client .takeAck,
    .client .clock, .clientFlush, .exitReceive 0, .exit .readEnd, .exit (.chunk 0), .exit .destroy,
    .exitFlush, .clientReceive, .client (.shutdown true)]).getD sampleStart

theorem sampleDownload_delivers : sampleDownload.client.result = some (.ok ()) ∧
    sampleDownload.exit.delivered = [[1, 2, 3]] ∧
    sampleDownload.client.wrote = sampleDownload.exit.delivered.flatten := by
  obtain ⟨hresult, hdelivered⟩ : sampleDownload.client.result = some (.ok ()) ∧
      sampleDownload.exit.delivered = [[1, 2, 3]] := by
    decide +kernel
  exact ⟨hresult, hdelivered,
    (single_stream_delivers 2 5 4 0 (Run.getD_inputs _)).2.2 hresult⟩

end StreamPair

end AnonGuard
