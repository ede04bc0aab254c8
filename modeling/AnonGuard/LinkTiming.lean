import AnonGuard.LinkDelivery

/-!
# Timing of a covered link

The clock of the writer and the time that each slot takes fix when the envelopes start.
What the application writes decides only what is in them. So two runs that differ in the
writes show the same envelopes on the wire, as long as both writers are running.
-/
namespace AnonGuard

namespace CoveredLink

/-- For each slot, how late the clock wakes the writer, and how long write and flush
take. -/
structure Timing where
  lateness : ℕ → ℕ
  cost : ℕ → ℕ

namespace Timing
variable (T : Timing) (interval phase start : ℕ)

/-- When the clock is set to fire for a slot. -/
def slot : ℕ → ℕ
  | 0 => start + phase
  | k + 1 => nextDeadline (slot k) (slot k + T.lateness k + T.cost k) interval

/-- When the envelope of a slot starts. -/
def onset (k : ℕ) : ℕ := T.slot interval phase start k + T.lateness k

/-- The slots of the writer, one envelope in each. -/
def pacedRun : PacedRun interval where
  slot := T.slot interval phase start
  emission := T.onset interval phase start
  finished k := T.onset interval phase start k + T.cost k
  emits _ := Nat.le_add_right _ _
  finishes _ := Nat.le_add_right _ _
  next _ := rfl

variable {T interval phase start}

lemma onset_lt_succ (h : 0 < interval) (k : ℕ) :
    T.onset interval phase start k + T.cost k < T.onset interval phase start (k + 1) := by
  have hlt : T.onset interval phase start k + T.cost k < T.slot interval phase start (k + 1) :=
    lt_nextDeadline h
  exact hlt.trans_le (Nat.le_add_right _ _)

lemma onset_strictMono (h : 0 < interval) : StrictMono (T.onset interval phase start) :=
  strictMono_nat_of_lt_succ fun k => (Nat.le_add_right _ _).trans_lt (onset_lt_succ h k)

end Timing

/-- The writer has not been told to stop and has not seen the end of the queue. -/
def Running (s : CoveredLink) : Prop := s.writer ≠ .closing ∧ s.writer ≠ .done

instance (s : CoveredLink) : Decidable s.Running :=
  inferInstanceAs (Decidable (s.writer ≠ .closing ∧ s.writer ≠ .done))

/-- When the envelope that is being written started. -/
def lastStart (s : CoveredLink) : ℕ := (s.emitted.getLast?.map (·.start)).getD 0

/-- When the next event of the writer is due. -/
def due (T : Timing) (s : CoveredLink) : Option ℕ :=
  match s.writer with
  | .sleeping => some (s.clock + T.lateness s.emitted.length)
  | .writing _ _ | .flushing _ => some (s.lastStart + T.cost (s.emitted.length - 1))
  | .closing | .done => none

/-- The steps of a run that keeps to the timing: no time passes beyond the next event of
the writer, which comes when it is due. -/
def OnTime (T : Timing) (s : CoveredLink) : CoverInput → Prop
  | .tick elapsed => ∀ d ∈ s.due T, s.now + elapsed ≤ d
  | .wake _ | .flushed => s.due T = some s.now
  | _ => True

instance (T : Timing) (s : CoveredLink) : (i : CoverInput) → Decidable (OnTime T s i)
  | .tick elapsed => inferInstanceAs (Decidable (∀ d ∈ s.due T, s.now + elapsed ≤ d))
  | .wake _ | .flushed => inferInstanceAs (Decidable (s.due T = some s.now))
  | .pollWrite _ | .pollFlush | .pollShutdown | .cancel | .produce _ | .enqueue | .transmit _
  | .close | .receive _ | .deliver _ | .pollRead _ | .cancelRemote | .fail _ | .stop _ =>
    inferInstanceAs (Decidable True)

variable {T : Timing} {interval phase t₀ : ℕ} {s s' : CoveredLink}

/-- The part of the state that the clock of the writer depends on. -/
structure Pacing where
  interval : ℕ
  now : ℕ
  clock : ℕ
  emitted : List Emission
  writer : Writer

def pacing (s : CoveredLink) : Pacing := ⟨s.interval, s.now, s.clock, s.emitted, s.writer⟩

/-- The clock is that of the slot, and what the writer waits for has not come yet. -/
def InSlot (T : Timing) (interval phase t₀ : ℕ) (p : Pacing) : Writer → Prop
  | .sleeping => p.clock = T.slot interval phase t₀ p.emitted.length ∧
      p.now ≤ T.onset interval phase t₀ p.emitted.length
  | .writing _ _ | .flushing _ => ∃ k, p.emitted.length = k + 1 ∧
      p.clock = T.slot interval phase t₀ k ∧ p.now ≤ T.onset interval phase t₀ k + T.cost k
  | .closing | .done => True

/-- The writer keeps to the slots. -/
structure Paced (T : Timing) (interval phase t₀ : ℕ) (p : Pacing) : Prop where
  interval_eq : p.interval = interval
  starts : p.emitted.map (·.start) = (List.range p.emitted.length).map (T.onset interval phase t₀)
  inSlot : InSlot T interval phase t₀ p p.writer

lemma Paced.of_sleeping (h : Paced T interval phase t₀ s.pacing) (hw : s.writer = .sleeping) :
    s.clock = T.slot interval phase t₀ s.emitted.length ∧
      s.now ≤ T.onset interval phase t₀ s.emitted.length := by
  have hslot : InSlot T interval phase t₀ s.pacing s.writer := h.inSlot
  rw [hw] at hslot
  exact hslot

/-- A writer that is busy writes the last envelope that it has begun. -/
lemma Paced.of_busy (h : Paced T interval phase t₀ s.pacing) (hs : s.writer ≠ .sleeping)
    (hrunning : s.Running) : ∃ k, s.emitted.length = k + 1 ∧
      s.clock = T.slot interval phase t₀ k ∧ s.now ≤ T.onset interval phase t₀ k + T.cost k ∧
      s.due T = some (T.onset interval phase t₀ k + T.cost k) := by
  have hslot : InSlot T interval phase t₀ s.pacing s.writer := h.inSlot
  have hbusy : ∃ k, s.emitted.length = k + 1 ∧
      s.clock = T.slot interval phase t₀ k ∧ s.now ≤ T.onset interval phase t₀ k + T.cost k := by
    cases hw : s.writer with
    | sleeping => exact absurd hw hs
    | writing | flushing =>
      rw [hw] at hslot
      exact hslot
    | closing => exact absurd hw hrunning.1
    | done => exact absurd hw hrunning.2
  obtain ⟨k, hlen, hclock, hnow⟩ := hbusy
  refine ⟨k, hlen, hclock, hnow, ?_⟩
  have hstarts : s.emitted.map (·.start) =
      (List.range s.emitted.length).map (T.onset interval phase t₀) := h.starts
  have hlast : s.lastStart = T.onset interval phase t₀ k := by
    rw [lastStart, ← List.getLast?_map, hstarts, hlen, List.range_succ]
    simp
  unfold due
  rw [hlast, hlen, Nat.add_sub_cancel]
  split
  · exact absurd ‹_› hs
  · rfl
  · rfl
  · exact absurd ‹_› hrunning.1
  · exact absurd ‹_› hrunning.2

lemma due_of_sleeping (hw : s.writer = .sleeping) :
    s.due T = some (s.clock + T.lateness s.emitted.length) := by
  rw [due, hw]

lemma Paced.tick (h : Paced T interval phase t₀ s.pacing) {elapsed : ℕ}
    (hok : OnTime T s (.tick elapsed)) :
    Paced T interval phase t₀ (pacing { s with now := s.now + elapsed }) := by
  refine ⟨h.interval_eq, h.starts, ?_⟩
  show InSlot T interval phase t₀ (pacing { s with now := s.now + elapsed }) s.writer
  by_cases hw : s.writer = .sleeping
  · obtain ⟨hclock, -⟩ := h.of_sleeping hw
    have hle := hok _ (due_of_sleeping hw)
    rw [hclock] at hle
    rw [hw]
    exact ⟨hclock, hle⟩
  · by_cases hrunning : s.Running
    · obtain ⟨k, hlen, hclock, -, hdue⟩ := h.of_busy hw hrunning
      have hle := hok _ hdue
      cases hwriter : s.writer with
      | sleeping => exact absurd hwriter hw
      | writing | flushing => exact ⟨k, hlen, hclock, hle⟩
      | closing | done => trivial
    · have hstopped : s.writer = .closing ∨ s.writer = .done := by
        by_contra hne
        exact hrunning (not_or.mp hne)
      rcases hstopped with hwriter | hwriter <;> rw [hwriter] <;> trivial

lemma Paced.halt (h : Paced T interval phase t₀ s.pacing) (failed : Bool) (w : Worker) :
    Paced T interval phase t₀ (s.halt failed w).pacing := by
  cases w with
  | producer | reader => exact h
  | writer => exact ⟨h.interval_eq, h.starts, trivial⟩

/-- An envelope starts when the slot says, whatever is in it. -/
lemma Paced.begin (h : Paced T interval phase t₀ s.pacing) (hw : s.writer = .sleeping)
    (hdue : s.due T = some s.now) (kind : UInt8) (payload : List Octet) :
    Paced T interval phase t₀ (s.begin kind payload).pacing := by
  obtain ⟨hclock, -⟩ := h.of_sleeping hw
  have honset : s.now = T.onset interval phase t₀ s.emitted.length := by
    rw [due_of_sleeping hw, hclock, Option.some.injEq] at hdue
    exact hdue.symm
  have hstarts : s.emitted.map (·.start) =
      (List.range s.emitted.length).map (T.onset interval phase t₀) := h.starts
  refine ⟨h.interval_eq, ?_, s.emitted.length, ?_, hclock, ?_⟩
  · simp only [CoveredLink.begin, pacing, List.map_append, List.map_cons, List.map_nil,
      List.length_append, List.length_cons, List.length_nil, Nat.zero_add, List.range_succ]
    rw [hstarts, honset]
  · simp [CoveredLink.begin, pacing]
  · exact honset.le.trans (Nat.le_add_right _ _)

lemma Paced.flushed (hinterval : 0 < interval) (h : Paced T interval phase t₀ s.pacing)
    (hok : OnTime T s .flushed) {cell : Bool} (hw : s.writer = .flushing cell) (progress : ℕ) :
    Paced T interval phase t₀ (pacing { s with
      writer := .sleeping
      progress := progress
      clock := nextDeadline s.clock s.now s.interval }) := by
  have hbusy : s.writer ≠ .sleeping ∧ s.Running := by
    rw [Running, hw]
    simp
  obtain ⟨k, hlen, hclock, -, hdue⟩ := h.of_busy hbusy.1 hbusy.2
  have hnow : s.now = T.onset interval phase t₀ k + T.cost k := by
    have hdone : s.due T = some s.now := hok
    rw [hdue, Option.some.injEq] at hdone
    exact hdone.symm
  have hnext : nextDeadline s.clock s.now s.interval = T.slot interval phase t₀ (k + 1) := by
    have heq : s.interval = interval := h.interval_eq
    rw [hclock, hnow, heq]
    rfl
  refine ⟨h.interval_eq, h.starts, ?_, ?_⟩
  · dsimp only [pacing]
    rw [hnext, hlen]
  · dsimp only [pacing]
    rw [hlen, hnow]
    exact (Timing.onset_lt_succ hinterval k).le

lemma Paced.step (hinterval : 0 < interval) (h : Paced T interval phase t₀ s.pacing) {i : CoverInput}
    (hok : OnTime T s i) (hs : s.step i = some s') : Paced T interval phase t₀ s'.pacing := by
  cases step_effect hs with
  | tick => exact h.tick hok
  | wakeCell filling cell rest hw =>
    exact Paced.begin (s := { s with queue := s.queue.pull 1 }) h hw hok _ _
  | wakeEmpty filling hw => exact h.begin hw hok _ _
  | wakeLast => exact ⟨h.interval_eq, h.starts, trivial⟩
  | transmit count rest cell hw =>
    have hslot : InSlot T interval phase t₀ s.pacing s.writer := h.inSlot
    rw [hw] at hslot
    refine ⟨h.interval_eq, h.starts, ?_⟩
    dsimp only [pacing]
    split_ifs <;> exact hslot
  | flushed cell hw => exact h.flushed hinterval hok hw _
  | close => exact h.halt true .writer
  | halt i failed w => exact h.halt failed w
  | _ => exact h

/-- Of a running writer's envelopes, those that start before a time that has come are
those of the slots before it. -/
lemma Paced.before (hinterval : 0 < interval) (h : Paced T interval phase t₀ s.pacing)
    (hrunning : s.Running) {t : ℕ} (ht : t ≤ s.now) (k : ℕ) :
    T.onset interval phase t₀ k < t → k < s.emitted.length := by
  intro hlt
  have hmono : StrictMono (T.onset interval phase t₀) := Timing.onset_strictMono hinterval
  by_cases hw : s.writer = .sleeping
  · exact hmono.lt_iff_lt.mp (hlt.trans_le (ht.trans (h.of_sleeping hw).2))
  · obtain ⟨j, hlen, -, hnow, -⟩ := h.of_busy hw hrunning
    rw [hlen]
    exact hmono.lt_iff_lt.mp ((hlt.trans_le (ht.trans hnow)).trans (Timing.onset_lt_succ hinterval j))

/-- The starts before a time that has come, as far as a running writer is concerned. -/
lemma Paced.starts_before (hinterval : 0 < interval) (h : Paced T interval phase t₀ s.pacing)
    (hrunning : s.Running) {t : ℕ} (ht : t ≤ s.now) {n : ℕ} (hn : s.emitted.length ≤ n) :
    (s.emitted.map (·.start)).filter (· < t) =
      ((List.range n).map (T.onset interval phase t₀)).filter (· < t) := by
  obtain ⟨d, rfl⟩ := Nat.exists_eq_add_of_le hn
  have hstarts : s.emitted.map (·.start) =
      (List.range s.emitted.length).map (T.onset interval phase t₀) := h.starts
  have hrest : ((List.range d).map fun k => T.onset interval phase t₀ (s.emitted.length + k)).filter
      (· < t) = [] := by
    refine List.filter_eq_nil_iff.mpr fun x hx => ?_
    obtain ⟨k, -, rfl⟩ := List.mem_map.mp hx
    intro hlt
    have := h.before hinterval hrunning ht _ (of_decide_eq_true hlt)
    omega
  rw [hstarts, List.range_add, List.map_append, List.filter_append, List.map_map]
  simp only [Function.comp_def, hrest, List.append_nil]

lemma paced_wrap {s₀ : CoveredLink} (h : wrap interval phase t₀ = .ok s₀) :
    0 < interval ∧ Paced T interval phase t₀ s₀.pacing := by
  unfold wrap at h
  split_ifs at h with hbounds
  cases h
  refine ⟨by omega, rfl, rfl, rfl, ?_⟩
  exact (Nat.le_add_right _ _).trans (Nat.le_add_right _ _)

/-- Two runs with the same interval, phase and timing, whatever the applications write.
At any time that both have come to with their writers running, they have started the same
envelopes at the same instants, and all of them have the same size. -/
theorem envelopes_independent_of_traffic {s₀ s₁ s₂ : CoveredLink}
    (h₀ : wrap interval phase t₀ = .ok s₀) (h₁ : GuardedRun step (OnTime T) s₀ s₁)
    (h₂ : GuardedRun step (OnTime T) s₀ s₂) (hrun₁ : s₁.Running) (hrun₂ : s₂.Running) {t : ℕ}
    (ht₁ : t ≤ s₁.now) (ht₂ : t ≤ s₂.now) :
    (s₁.emitted.map fun e => (e.start, e.frame.length)).filter (·.1 < t) =
      (s₂.emitted.map fun e => (e.start, e.frame.length)).filter (·.1 < t) ∧
      ∀ e ∈ s₁.emitted ++ s₂.emitted, e.frame.length = 8196 := by
  obtain ⟨hinterval, hstart⟩ := paced_wrap (T := T) h₀
  have hpaced : ∀ s, GuardedRun step (OnTime T) s₀ s → Paced T interval phase t₀ s.pacing :=
    fun s h => h.invariant (I := fun s => Paced T interval phase t₀ s.pacing) hstart
      fun _ _ _ hp hok hs => hp.step hinterval hok hs
  have hsize : ∀ s, GuardedRun step (OnTime T) s₀ s → ∀ e ∈ s.emitted, e.frame.length = 8196 :=
    fun s h => (h.invariant (I := Delivers) (delivers_wrap h₀) fun _ _ _ hd _ hs => hd.step hs).frames
  have hsizes : ∀ s, GuardedRun step (OnTime T) s₀ s →
      (s.emitted.map fun e => (e.start, e.frame.length)) =
        (s.emitted.map (·.start)).map fun start => (start, 8196) := by
    intro s h
    rw [List.map_map]
    exact List.map_congr_left fun e he => by rw [hsize s h e he]; rfl
  refine ⟨?_, fun e he => ?_⟩
  · have heq : (s₁.emitted.map (·.start)).filter (· < t) = (s₂.emitted.map (·.start)).filter (· < t) :=
      ((hpaced s₁ h₁).starts_before hinterval hrun₁ ht₁ (Nat.le_max_left _ _)).trans
        ((hpaced s₂ h₂).starts_before hinterval hrun₂ ht₂ (Nat.le_max_right _ _)).symm
    have hfilter : ∀ starts : List ℕ, (starts.map fun start => (start, 8196)).filter (·.1 < t) =
        (starts.filter (· < t)).map fun start => (start, 8196) := fun _ => List.filter_map
    rw [hsizes s₁ h₁, hsizes s₂ h₂, hfilter, hfilter, heq]
  · rcases List.mem_append.mp he with he | he
    · exact hsize s₁ h₁ e he
    · exact hsize s₂ h₂ e he

def sampleTiming : Timing := ⟨fun _ => 0, fun _ => 5⟩

/-- A run without traffic, and one in which the application writes. -/
def quietRun : List CoverInput := [.tick 1, .wake (List.replicate 8192 0), .tick 4]

def busyRun : List CoverInput :=
  [.pollWrite [7, 8, 9], .produce 1, .tick 1, .produce 2, .wake (List.replicate 8192 3), .tick 3,
    .pollWrite [1], .tick 2]

theorem quietRun_like_busyRun :
    let s₀ := start 10000000 1 0
    let s₁ := (runInputs step s₀ quietRun).getD s₀
    let s₂ := (runInputs step s₀ busyRun).getD s₀
    s₁.emitted.map (·.start) = [1] ∧ s₂.application.taken = 3 ∧
      (s₁.emitted.map fun e => (e.start, e.frame.length)).filter (·.1 < 5) =
        (s₂.emitted.map fun e => (e.start, e.frame.length)).filter (·.1 < 5) := by
  intro s₀ s₁ s₂
  have h₀ : wrap 10000000 1 0 = .ok s₀ := rfl
  have hchecks : inputsOk step (OnTime sampleTiming) s₀ quietRun = true ∧
      inputsOk step (OnTime sampleTiming) s₀ busyRun = true ∧ s₁.emitted.map (·.start) = [1] ∧
      s₂.application.taken = 3 ∧ 5 ≤ s₁.now ∧ 5 ≤ s₂.now ∧ s₁.Running ∧ s₂.Running := by
    decide +kernel
  obtain ⟨hok₁, hok₂, hstart, htaken, hnow₁, hnow₂, hrun₁, hrun₂⟩ := hchecks
  exact ⟨hstart, htaken, (envelopes_independent_of_traffic h₀
    (GuardedRun.getD_inputs quietRun hok₁ s₀) (GuardedRun.getD_inputs busyRun hok₂ s₀)
    hrun₁ hrun₂ hnow₁ hnow₂).1⟩

end CoveredLink

end AnonGuard
