import Mathlib.Data.Finset.Card
import Mathlib.Logic.Relation
import Mathlib.Tactic

/-!
# The life of numbered entries

A table hands out numbers in increasing order. An entry is live at once, or it
first waits for a task that connects it; the task reports once, and the report
may come after the entry has been given up. A number that has been closed stays
closed. `capacity` bounds the entries in use and `limit` the numbers.
-/
namespace AnonGuard

/-- The numbers by what has become of them. `tasks` are the tasks that the table
knows, `dialing` those that are still to report, `reports` the reports not read
yet. An opener has no connecting entries. -/
structure IdLedger where
  opener : Bool
  live : Finset ℕ
  connecting : Finset ℕ
  closed : Finset ℕ
  tasks : Finset ℕ
  dialing : Finset ℕ
  reports : List ℕ
  lastId : ℕ

namespace IdLedger

def InUse (l : IdLedger) (id : ℕ) : Prop := id ∈ l.live ∨ id ∈ l.connecting

/-- The tasks for a number that are still to report or whose report is unread. -/
def pending (l : IdLedger) (id : ℕ) : ℕ :=
  (if id ∈ l.dialing then 1 else 0) + l.reports.count id

/-- What may become of the numbers in one move. -/
inductive Move (capacity limit : ℕ) (l : IdLedger) : IdLedger → Prop
  | create (id : ℕ) (ho : l.opener = true) (hlast : l.lastId < id) (hlimit : id ≤ limit)
      (hroom : l.live.card < capacity) :
      Move capacity limit l { l with live := insert id l.live, lastId := id }
  | refuse (id : ℕ) (hlast : l.lastId < id) (hlimit : id ≤ limit) :
      Move capacity limit l { l with lastId := id }
  | dial (id : ℕ) (ho : l.opener = false) (hlast : l.lastId < id) (hlimit : id ≤ limit)
      (hroom : l.live.card + l.connecting.card < capacity) :
      Move capacity limit l { l with
        connecting := insert id l.connecting
        tasks := insert id l.tasks
        dialing := insert id l.dialing
        lastId := id }
  | report (id : ℕ) (hd : id ∈ l.dialing) :
      Move capacity limit l { l with
        dialing := l.dialing.erase id, reports := l.reports ++ [id] }
  | connect (id : ℕ) (rest : List ℕ) (hr : l.reports = id :: rest) (hc : id ∈ l.connecting) :
      Move capacity limit l { l with
        live := insert id l.live
        connecting := l.connecting.erase id
        tasks := l.tasks.erase id
        reports := rest }
  | giveUp (id : ℕ) (rest : List ℕ) (hr : l.reports = id :: rest) :
      Move capacity limit l { l with
        connecting := l.connecting.erase id
        tasks := l.tasks.erase id
        reports := rest }
  | close (id : ℕ) (hl : id ∈ l.live) :
      Move capacity limit l { l with live := l.live.erase id, closed := insert id l.closed }
  | reset (id : ℕ) (hlast : id ≤ l.lastId) :
      Move capacity limit l { l with
        live := l.live.erase id
        connecting := l.connecting.erase id
        closed := insert id l.closed
        tasks := l.tasks.erase id }

abbrev Moves (capacity limit : ℕ) : IdLedger → IdLedger → Prop :=
  Relation.ReflTransGen (Move capacity limit)

/-- The numbers are accounted for. -/
structure Sound (capacity limit : ℕ) (l : IdLedger) : Prop where
  room : l.live.card + l.connecting.card ≤ capacity
  limit : l.lastId ≤ limit
  live : ∀ id ∈ l.live, id ≤ l.lastId ∧ id ∉ l.connecting ∧ id ∉ l.closed
  connecting : ∀ id ∈ l.connecting, id ≤ l.lastId ∧ id ∉ l.closed ∧ l.pending id = 1
  closed : ∀ id ∈ l.closed, id ≤ l.lastId
  dialing : ∀ id ∈ l.dialing, id ≤ l.lastId
  reports : ∀ id ∈ l.reports, id ≤ l.lastId
  tasks : l.tasks = l.connecting
  opener : l.opener = true → l.connecting = ∅

/-- What holds between a state and a later one: a number that comes into use is
above all that were handed out before. -/
structure Precedes (l l' : IdLedger) : Prop where
  lastId : l.lastId ≤ l'.lastId
  inUse : ∀ id, l'.InUse id → l.InUse id ∨ l.lastId < id

variable {capacity limit : ℕ} {l l' l'' : IdLedger}

theorem Precedes.refl (l : IdLedger) : l.Precedes l := ⟨le_refl _, fun _ h => .inl h⟩

theorem Precedes.trans (h : l.Precedes l') (h' : l'.Precedes l'') : l.Precedes l'' := by
  refine ⟨h.lastId.trans h'.lastId, fun id hid => ?_⟩
  rcases h'.inUse id hid with huse | hlt
  · exact h.inUse id huse
  · exact .inr (h.lastId.trans_lt hlt)

theorem precedes_of_move (h : Move capacity limit l l') : l.Precedes l' := by
  cases h with
  | create id _ hlast =>
    refine ⟨hlast.le, fun k hk => ?_⟩
    simp only [InUse, Finset.mem_insert] at hk
    rcases hk with (rfl | hk) | hk
    · exact .inr hlast
    · exact .inl (.inl hk)
    · exact .inl (.inr hk)
  | dial id _ hlast =>
    refine ⟨hlast.le, fun k hk => ?_⟩
    simp only [InUse, Finset.mem_insert] at hk
    rcases hk with hk | rfl | hk
    · exact .inl (.inl hk)
    · exact .inr hlast
    · exact .inl (.inr hk)
  | refuse id hlast => exact ⟨hlast.le, fun k hk => .inl hk⟩
  | report => exact ⟨le_refl _, fun k hk => .inl hk⟩
  | connect id rest _ hc =>
    refine ⟨le_refl _, fun k hk => .inl ?_⟩
    simp only [InUse, Finset.mem_insert, Finset.mem_erase] at hk
    rcases hk with (rfl | hk) | ⟨-, hk⟩
    · exact .inr hc
    · exact .inl hk
    · exact .inr hk
  | giveUp | close | reset =>
    refine ⟨le_refl _, fun k hk => .inl ?_⟩
    simp only [InUse, Finset.mem_erase] at hk ⊢
    tauto

theorem precedes_of_moves (h : Moves capacity limit l l') : l.Precedes l' := by
  induction h with
  | refl => exact .refl l
  | tail _ hm ih => exact ih.trans (precedes_of_move hm)

namespace Sound

variable {id : ℕ}

/-- A number above the last one is in none of the tables. -/
lemma fresh (h : l.Sound capacity limit) (hlast : l.lastId < id) :
    id ∉ l.live ∧ id ∉ l.connecting ∧ id ∉ l.closed ∧ id ∉ l.dialing ∧ id ∉ l.reports :=
  ⟨fun hi => absurd (h.live id hi).1 (not_le.mpr hlast),
    fun hi => absurd (h.connecting id hi).1 (not_le.mpr hlast),
    fun hi => absurd (h.closed id hi) (not_le.mpr hlast),
    fun hi => absurd (h.dialing id hi) (not_le.mpr hlast),
    fun hi => absurd (h.reports id hi) (not_le.mpr hlast)⟩

lemma refuse (h : l.Sound capacity limit) (hlast : l.lastId < id) (hlimit : id ≤ limit) :
    Sound capacity limit { l with lastId := id } where
  room := h.room
  limit := hlimit
  live k hk := ⟨(h.live k hk).1.trans hlast.le, (h.live k hk).2⟩
  connecting k hk := ⟨(h.connecting k hk).1.trans hlast.le, (h.connecting k hk).2⟩
  closed k hk := (h.closed k hk).trans hlast.le
  dialing k hk := (h.dialing k hk).trans hlast.le
  reports k hk := (h.reports k hk).trans hlast.le
  tasks := h.tasks
  opener := h.opener

lemma create (h : l.Sound capacity limit) (ho : l.opener = true) (hlast : l.lastId < id)
    (hlimit : id ≤ limit) (hroom : l.live.card < capacity) :
    Sound capacity limit { l with live := insert id l.live, lastId := id } := by
  obtain ⟨hlive, hcon, hclosed, -, -⟩ := h.fresh hlast
  have hnone := h.opener ho
  refine { h.refuse hlast hlimit with room := ?_, live := fun k hk => ?_ }
  · dsimp only
    rw [Finset.card_insert_of_notMem hlive, hnone, Finset.card_empty]
    omega
  · rcases Finset.mem_insert.mp hk with rfl | hk
    · exact ⟨le_refl _, hcon, hclosed⟩
    · exact (h.refuse hlast hlimit).live k hk

lemma dial (h : l.Sound capacity limit) (ho : l.opener = false) (hlast : l.lastId < id)
    (hlimit : id ≤ limit) (hroom : l.live.card + l.connecting.card < capacity) :
    Sound capacity limit { l with
      connecting := insert id l.connecting
      tasks := insert id l.tasks
      dialing := insert id l.dialing
      lastId := id } := by
  obtain ⟨hlive, hcon, hclosed, hdial, hrep⟩ := h.fresh hlast
  have hold := h.refuse hlast hlimit
  refine { hold with
    room := ?_, live := fun k hk => ?_, connecting := fun k hk => ?_, dialing := fun k hk => ?_,
    tasks := congrArg (insert id) h.tasks, opener := fun ho' => ?_ }
  · dsimp only
    rw [Finset.card_insert_of_notMem hcon]
    omega
  · obtain ⟨hle, hne, hnc⟩ := hold.live k hk
    refine ⟨hle, fun hk' => ?_, hnc⟩
    rcases Finset.mem_insert.mp hk' with rfl | hk'
    · exact hlive hk
    · exact hne hk'
  · rcases Finset.mem_insert.mp hk with rfl | hk
    · refine ⟨le_refl _, hclosed, ?_⟩
      simp [pending, List.count_eq_zero_of_not_mem hrep]
    · obtain ⟨hle, hnc, hone⟩ := hold.connecting k hk
      refine ⟨hle, hnc, ?_⟩
      have hne : k ≠ id := fun heq => hcon (heq ▸ hk)
      simpa [pending, hne] using hone
  · rcases Finset.mem_insert.mp hk with rfl | hk
    · exact le_refl _
    · exact hold.dialing k hk
  · rw [ho] at ho'
    cases ho'

lemma report (h : l.Sound capacity limit) (hd : id ∈ l.dialing) :
    Sound capacity limit { l with
      dialing := l.dialing.erase id, reports := l.reports ++ [id] } := by
  refine { h with
    connecting := fun k hk => ?_, dialing := fun k hk => ?_, reports := fun k hk => ?_ }
  · obtain ⟨hle, hnc, hone⟩ := h.connecting k hk
    refine ⟨hle, hnc, ?_⟩
    by_cases hk' : k = id
    · subst hk'
      simp only [pending, if_pos hd] at hone
      simp only [pending, Finset.notMem_erase, if_false, List.count_append, List.count_singleton_self]
      omega
    · have hne : id ≠ k := Ne.symm hk'
      simpa [pending, hk', hne] using hone
  · exact h.dialing k (Finset.mem_of_mem_erase hk)
  · rcases List.mem_append.mp hk with hk | hk
    · exact h.reports k hk
    · rw [List.mem_singleton.mp hk]
      exact h.dialing id hd

lemma giveUp (h : l.Sound capacity limit) {rest : List ℕ} (hr : l.reports = id :: rest) :
    Sound capacity limit { l with
      connecting := l.connecting.erase id
      tasks := l.tasks.erase id
      reports := rest } := by
  refine { h with
    room := ?_, live := fun k hk => ?_, connecting := fun k hk => ?_, reports := fun k hk => ?_,
    tasks := congrArg (Finset.erase · id) h.tasks, opener := fun ho => ?_ }
  · have hle := Finset.card_erase_le (s := l.connecting) (a := id)
    have hroom := h.room
    dsimp only
    omega
  · obtain ⟨hle, hne, hnc⟩ := h.live k hk
    exact ⟨hle, fun hk' => hne (Finset.mem_of_mem_erase hk'), hnc⟩
  · obtain ⟨hne, hk⟩ := Finset.mem_erase.mp hk
    obtain ⟨hle, hnc, hone⟩ := h.connecting k hk
    refine ⟨hle, hnc, ?_⟩
    rw [pending, hr, List.count_cons_of_ne (Ne.symm hne)] at hone
    exact hone
  · exact h.reports k (hr ▸ List.mem_cons_of_mem id hk)
  · dsimp only
    rw [h.opener ho, Finset.erase_empty]

lemma connect (h : l.Sound capacity limit) {rest : List ℕ} (hr : l.reports = id :: rest)
    (hc : id ∈ l.connecting) :
    Sound capacity limit { l with
      live := insert id l.live
      connecting := l.connecting.erase id
      tasks := l.tasks.erase id
      reports := rest } := by
  obtain ⟨hle, hnc, -⟩ := h.connecting id hc
  refine { h.giveUp hr with room := ?_, live := fun k hk => ?_ }
  · have hroom := h.room
    have hcard := Finset.card_erase_add_one hc
    have hins := Finset.card_insert_le id l.live
    dsimp only
    omega
  · rcases Finset.mem_insert.mp hk with rfl | hk
    · exact ⟨hle, Finset.notMem_erase _ _, hnc⟩
    · exact (h.giveUp hr).live k hk

lemma reset (h : l.Sound capacity limit) (hlast : id ≤ l.lastId) :
    Sound capacity limit { l with
      live := l.live.erase id
      connecting := l.connecting.erase id
      closed := insert id l.closed
      tasks := l.tasks.erase id } := by
  refine { h with
    room := ?_, live := fun k hk => ?_, connecting := fun k hk => ?_, closed := fun k hk => ?_,
    tasks := congrArg (Finset.erase · id) h.tasks, opener := fun ho => ?_ }
  · have hlive := Finset.card_erase_le (s := l.live) (a := id)
    have hcon := Finset.card_erase_le (s := l.connecting) (a := id)
    have hroom := h.room
    dsimp only
    omega
  · obtain ⟨hne, hk⟩ := Finset.mem_erase.mp hk
    obtain ⟨hle, hnk, hnc⟩ := h.live k hk
    exact ⟨hle, fun hk' => hnk (Finset.mem_of_mem_erase hk'),
      fun hk' => (Finset.mem_insert.mp hk').elim hne hnc⟩
  · obtain ⟨hne, hk⟩ := Finset.mem_erase.mp hk
    obtain ⟨hle, hnc, hone⟩ := h.connecting k hk
    exact ⟨hle, fun hk' => (Finset.mem_insert.mp hk').elim hne hnc, hone⟩
  · rcases Finset.mem_insert.mp hk with rfl | hk
    · exact hlast
    · exact h.closed k hk
  · dsimp only
    rw [h.opener ho, Finset.erase_empty]

/-- Closing is a reset of a number without a task. -/
lemma close (h : l.Sound capacity limit) (hl : id ∈ l.live) :
    Sound capacity limit { l with live := l.live.erase id, closed := insert id l.closed } := by
  obtain ⟨hlast, hncon, -⟩ := h.live id hl
  have htasks : id ∉ l.tasks := h.tasks ▸ hncon
  have hreset := h.reset hlast
  rwa [Finset.erase_eq_of_notMem hncon, Finset.erase_eq_of_notMem htasks] at hreset

theorem move (h : l.Sound capacity limit) (hm : Move capacity limit l l') :
    l'.Sound capacity limit := by
  cases hm with
  | create id ho hlast hlimit hroom => exact h.create ho hlast hlimit hroom
  | refuse id hlast hlimit => exact h.refuse hlast hlimit
  | dial id ho hlast hlimit hroom => exact h.dial ho hlast hlimit hroom
  | report id hd => exact h.report hd
  | connect id rest hr hc => exact h.connect hr hc
  | giveUp id rest hr => exact h.giveUp hr
  | close id hl => exact h.close hl
  | reset id hlast => exact h.reset hlast

theorem moves (h : l.Sound capacity limit) (hm : Moves capacity limit l l') :
    l'.Sound capacity limit := by
  induction hm with
  | refl => exact h
  | tail _ hm ih => exact ih.move hm

end Sound

end IdLedger

end AnonGuard
