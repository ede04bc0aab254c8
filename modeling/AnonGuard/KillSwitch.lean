import AnonGuard.RecentTimes
import AnonGuard.Transition
import Mathlib.Data.List.DropRight

/-!
# The kill switch

A controller counts failures within a window. When enough come together it raises an atomic
flag and tells its subscribers over a watch channel. `trip` and `reset` hold a lock from
beginning to end, and are modelled action by action. A guarded socket writes the same flag
through a handle, without the lock and without a word to the subscribers.
-/
namespace AnonGuard

open RecentTimes

/-- What the holder of the lock has done. -/
inductive SwitchSection
  | tripping
  /-- Its failure has been counted, at this time. -/
  | counted (time : ℕ)
  /-- It has raised the flag, and has to publish that. -/
  | raised
  | resetting
  /-- It has lowered the flag. -/
  | lowered
  /-- It has forgotten the failures, and has to publish the reset. -/
  | cleared
  deriving DecidableEq, Repr

/-- An access to the flag: by a `trip` with the time of its failure, by a `reset`, or by the
store of a guarded socket. -/
inductive SwitchEvent
  | trip (time : ℕ)
  | reset
  | store
  deriving DecidableEq, Repr

/-- The shared state, the clock, and the accesses to the flag in their order. -/
structure KillSwitch where
  tripThreshold : ℕ
  window : ℕ
  now : ℕ
  tripped : Bool
  /-- The value in the watch channel. -/
  published : Bool
  failures : List ℕ
  lock : Option SwitchSection
  events : List SwitchEvent
  deriving DecidableEq, Repr

inductive SwitchInput
  | tick (elapsed : ℕ)
  /-- A caller of `trip` gets the lock. -/
  | trip
  /-- A caller of `reset` gets the lock. -/
  | reset
  /-- The holder of the lock takes its next action. -/
  | advance
  | failVerification
  | tripKillSwitch
  deriving DecidableEq, Repr

/-- The input belongs to a guarded socket. -/
def SwitchInput.direct : SwitchInput → Bool
  | failVerification | tripKillSwitch => true
  | tick _ | trip | reset | advance => false

namespace KillSwitch

def withThreshold (tripThreshold window now : ℕ) : KillSwitch where
  tripThreshold := tripThreshold
  window := window
  now := now
  tripped := false
  published := false
  failures := []
  lock := none
  events := []

/-- `retain` and `push`. -/
def count (s : KillSwitch) : KillSwitch :=
  { s with failures := record s.window s.failures s.now, lock := some (.counted s.now) }

/-- The flag is swapped if there are enough failures. Only the first one to raise it goes on
to publish that. -/
def raise (s : KillSwitch) (time : ℕ) : KillSwitch :=
  if s.tripThreshold ≤ s.failures.length then
    { s with
      tripped := true
      lock := if s.tripped then none else some .raised
      events := s.events ++ [.trip time] }
  else { s with lock := none, events := s.events ++ [.trip time] }

/-- The store of a guarded socket. -/
def store (s : KillSwitch) : KillSwitch := { s with tripped := true, events := s.events ++ [.store] }

/-- The next action under the lock. -/
def advance (s : KillSwitch) : SwitchSection → KillSwitch
  | .tripping => s.count
  | .counted time => s.raise time
  | .raised => { s with published := true, lock := none }
  | .resetting => { s with tripped := false, lock := some .lowered, events := s.events ++ [.reset] }
  | .lowered => { s with failures := [], lock := some .cleared }
  | .cleared => { s with published := false, lock := none }

def step (s : KillSwitch) : SwitchInput → Option KillSwitch
  | .tick elapsed => some { s with now := s.now + elapsed }
  | .trip => if s.lock = none then some { s with lock := some .tripping } else none
  | .reset => if s.lock = none then some { s with lock := some .resetting } else none
  | .advance => s.lock.map s.advance
  | .failVerification | .tripKillSwitch => some s.store

end KillSwitch

namespace SwitchEvent

def time? : SwitchEvent → Option ℕ
  | trip time => some time
  | reset | store => none

/-- The accesses after the last reset. -/
def sinceReset (events : List SwitchEvent) : List SwitchEvent := events.rtakeWhile (· ≠ .reset)

/-- The times of the trips. -/
def tripTimes (events : List SwitchEvent) : List ℕ := events.filterMap time?

/-- Before any store of a guarded socket, the trips have reached the threshold. -/
def Announced (k width : ℕ) (events : List SwitchEvent) : Prop :=
  ∀ earlier later, events = earlier ++ .store :: later → Reached k width (tripTimes earlier)

variable {k width time : ℕ} {events : List SwitchEvent}

@[simp] lemma sinceReset_nil : sinceReset [] = [] := rfl

@[simp] lemma sinceReset_reset : sinceReset (events ++ [.reset]) = [] := by
  simp [sinceReset]

@[simp] lemma sinceReset_trip : sinceReset (events ++ [.trip time]) = sinceReset events ++ [.trip time] := by
  simp [sinceReset]

@[simp] lemma sinceReset_store : sinceReset (events ++ [.store]) = sinceReset events ++ [.store] := by
  simp [sinceReset]

@[simp] lemma tripTimes_nil : tripTimes [] = [] := rfl

@[simp] lemma tripTimes_trip : tripTimes (events ++ [.trip time]) = tripTimes events ++ [time] := by
  simp [tripTimes, time?]

@[simp] lemma tripTimes_store : tripTimes (events ++ [.store]) = tripTimes events := by
  simp [tripTimes, time?]

lemma announced_of_not_mem (h : .store ∉ events) : Announced k width events := by
  rintro earlier later rfl
  simp at h

lemma announced_concat {event : SwitchEvent} : Announced k width (events ++ [event]) ↔
    Announced k width events ∧ (event = .store → Reached k width (tripTimes events)) := by
  constructor
  · intro h
    refine ⟨fun earlier later hsplit => ?_, fun hstore => h events [] (by rw [hstore])⟩
    exact h earlier (later ++ [event]) (by simp [hsplit])
  · rintro ⟨h, hreached⟩ earlier later hsplit
    rcases List.eq_nil_or_concat later with rfl | ⟨later, last, rfl⟩
    · obtain ⟨rfl, hlast⟩ := List.append_inj' hsplit rfl
      exact hreached (List.singleton_inj.mp hlast)
    · rw [List.concat_eq_append, ← List.cons_append, ← List.append_assoc] at hsplit
      exact h earlier later (List.append_inj' hsplit rfl).1

/-- A store that was announced came after enough trips. -/
lemma Announced.reached (h : Announced k width events) (hstore : .store ∈ events) :
    Reached k width (tripTimes events) := by
  obtain ⟨earlier, later, rfl⟩ := List.append_of_mem hstore
  have hearlier := h earlier later rfl
  simp only [tripTimes, List.filterMap_append] at hearlier ⊢
  exact hearlier.append _

end SwitchEvent

namespace KillSwitch
open SwitchEvent

/-- The accesses to the flag since the last reset. -/
def recent (s : KillSwitch) : List SwitchEvent := sinceReset s.events

/-- The times of the trips since the last reset. -/
def trips (s : KillSwitch) : List ℕ := tripTimes s.recent

/-- With the failure that the holder of the lock has counted. -/
def counted (s : KillSwitch) : List ℕ :=
  match s.lock with
  | some (.counted time) => s.trips ++ [time]
  | _ => s.trips

/-- What holds of a kill switch at all times. -/
structure Follows (s : KillSwitch) : Prop where
  ordered : s.counted.Pairwise (· ≤ ·)
  past : ∀ t ∈ s.counted, t ≤ s.now
  failures : s.lock ≠ some .lowered → s.failures = recorded s.window s.counted
  flag : s.tripped = true ↔ Reached s.tripThreshold s.window s.trips ∨ .store ∈ s.recent
  raised : s.lock = some .raised →
    Reached s.tripThreshold s.window s.trips ∧ Announced s.tripThreshold s.window s.recent
  reset : s.lock = some .lowered ∨ s.lock = some .cleared → s.trips = []
  published : s.lock ≠ some .raised → s.lock ≠ some .lowered → s.lock ≠ some .cleared →
    (s.published = true ↔
      Reached s.tripThreshold s.window s.trips ∧ Announced s.tripThreshold s.window s.recent)

variable {s s' : KillSwitch} {k w start : ℕ}

lemma follows_withThreshold : (withThreshold k w start).Follows where
  ordered := .nil
  past t ht := by cases ht
  failures _ := rfl
  flag := by simp [withThreshold, trips, recent]
  raised h := by cases h
  reset h := by simp [withThreshold] at h
  published _ _ _ := by simp [withThreshold, trips, recent]

/-- A caller gets the lock. -/
lemma Follows.acquire (h : s.Follows) (hlock : s.lock = none) {phase : SwitchSection}
    (hphase : phase = .tripping ∨ phase = .resetting) : Follows { s with lock := some phase } := by
  have hcounted : counted { s with lock := some phase } = s.counted := by
    rcases hphase with rfl | rfl <;> simp [counted, hlock, trips, recent]
  refine ⟨hcounted ▸ h.ordered, hcounted ▸ h.past, fun _ => hcounted ▸ h.failures (by simp [hlock]),
    h.flag, fun hraised => ?_, fun hreset => ?_,
    fun _ _ _ => h.published (by simp [hlock]) (by simp [hlock]) (by simp [hlock])⟩
  · rcases hphase with rfl | rfl <;> cases hraised
  · rcases hphase with rfl | rfl <;> simp at hreset

/-- The failure of the holder of the lock is counted. -/
lemma Follows.count (h : s.Follows) (hlock : s.lock = some .tripping) : s.count.Follows := by
  have hcounted : s.counted = s.trips := by simp [counted, hlock]
  have hordered := h.ordered
  have hpast := h.past
  have hfailures := h.failures (by simp [hlock])
  rw [hcounted] at hordered hpast hfailures
  refine ⟨?_, ?_, fun _ => ?_, h.flag, fun hraised => ?_, fun hreset => ?_, fun _ _ _ => ?_⟩
  · exact List.pairwise_append.mpr ⟨hordered, by simp, fun t ht t' ht' => by
      rw [List.mem_singleton.mp ht']
      exact hpast t ht⟩
  · intro t ht
    rcases List.mem_append.mp ht with ht | ht
    · exact hpast t ht
    · exact (List.mem_singleton.mp ht).le
  · show record s.window s.failures s.now = recorded s.window (s.trips ++ [s.now])
    rw [recorded_concat, hfailures]
  · cases hraised
  · simp [KillSwitch.count] at hreset
  · exact h.published (by simp [hlock]) (by simp [hlock]) (by simp [hlock])

/-- A trip has looked at the flag: what it left in the flag and in the lock must fit. -/
lemma Follows.tripEvent {time : ℕ} {tripped : Bool} {lock : Option SwitchSection} (h : s.Follows)
    (hlock : s.lock = some (.counted time)) (hleft : lock = none ∨ lock = some .raised)
    (hflag : tripped = true ↔
      Reached s.tripThreshold s.window (s.trips ++ [time]) ∨ .store ∈ s.recent)
    (hraised : lock = some .raised → Reached s.tripThreshold s.window (s.trips ++ [time]) ∧
      Announced s.tripThreshold s.window s.recent) (hpublished : lock = none → (s.published = true ↔
      Reached s.tripThreshold s.window (s.trips ++ [time]) ∧
        Announced s.tripThreshold s.window s.recent)) :
    Follows { s with tripped := tripped, lock := lock, events := s.events ++ [.trip time] } := by
  have hcounted : s.counted = s.trips ++ [time] := by simp [counted, hlock]
  have hordered := h.ordered
  have hpast := h.past
  have hfailures := h.failures (by simp [hlock])
  rw [hcounted] at hordered hpast hfailures
  have hnew : counted { s with tripped := tripped, lock := lock, events := s.events ++ [.trip time] } =
      s.trips ++ [time] := by
    rcases hleft with rfl | rfl <;> simp [counted, trips, recent]
  refine ⟨hnew ▸ hordered, hnew ▸ hpast, fun _ => hnew ▸ hfailures, ?_, fun hlock' => ?_,
    fun hreset => ?_, fun hne _ _ => ?_⟩
  · simpa [trips, recent] using hflag
  · simpa [trips, recent, announced_concat] using hraised hlock'
  · rcases hleft with rfl | rfl <;> simp at hreset
  · have hnone : lock = none := hleft.resolve_right hne
    simpa [trips, recent, announced_concat] using hpublished hnone

/-- The holder of the lock decides, on the failures within the window. -/
lemma Follows.raise {time : ℕ} (h : s.Follows) (hlock : s.lock = some (.counted time)) :
    (s.raise time).Follows := by
  have hpublished := h.published (by simp [hlock]) (by simp [hlock]) (by simp [hlock])
  have hflag := h.flag
  have hlength : s.failures.length = RecentTimes.count s.window s.trips time := by
    have hcounted : s.counted = s.trips ++ [time] := by simp [counted, hlock]
    have hordered := h.ordered
    rw [hcounted] at hordered
    rw [h.failures (by simp [hlock]), hcounted, length_recorded_concat hordered]
  have hreached : Reached s.tripThreshold s.window (s.trips ++ [time]) ↔
      Reached s.tripThreshold s.window s.trips ∨ s.tripThreshold ≤ s.failures.length := by
    rw [reached_concat, hlength]
  unfold KillSwitch.raise
  by_cases hk : s.tripThreshold ≤ s.failures.length
  · rw [if_pos hk]
    have hnow := hreached.mpr (.inr hk)
    cases htripped : s.tripped with
    | true =>
      -- The flag is up already; if no trip has raised it, nobody publishes anything.
      refine h.tripEvent hlock (.inl rfl) (by simp [hnow]) (fun hraised => (by cases hraised))
        (fun _ => hpublished.trans ?_)
      refine and_congr_left fun hannounced => iff_of_true ?_ hnow
      exact (hflag.mp htripped).elim id hannounced.reached
    | false =>
      refine h.tripEvent hlock (.inr rfl) (by simp [hnow]) (fun _ => ⟨hnow, ?_⟩)
        (fun hnone => (by cases hnone))
      refine announced_of_not_mem fun hstore => ?_
      rw [hflag.mpr (.inr hstore)] at htripped
      cases htripped
  · rw [if_neg hk]
    have hsame : Reached s.tripThreshold s.window (s.trips ++ [time]) ↔
        Reached s.tripThreshold s.window s.trips := by simp [hreached, hk]
    refine h.tripEvent hlock (.inl rfl) (by rw [hsame, hflag]) (fun hraised => (by cases hraised))
      (fun _ => by rw [hsame, hpublished])

/-- The store of a guarded socket changes the flag, and nothing that is published. -/
lemma Follows.store (h : s.Follows) : s.store.Follows := by
  have hrecent : s.store.recent = s.recent ++ [.store] := sinceReset_store
  have htrips : s.store.trips = s.trips := by rw [trips, hrecent, tripTimes_store, trips]
  have hcounted : s.store.counted = s.counted := by simp only [counted, htrips]; rfl
  have hannounced : Reached s.tripThreshold s.window s.trips ∧
        Announced s.tripThreshold s.window (s.recent ++ [.store]) ↔
      Reached s.tripThreshold s.window s.trips ∧ Announced s.tripThreshold s.window s.recent := by
    rw [announced_concat]
    exact ⟨fun hnew => ⟨hnew.1, hnew.2.1⟩, fun hold => ⟨hold.1, hold.2, fun _ => hold.1⟩⟩
  refine ⟨hcounted ▸ h.ordered, hcounted ▸ h.past, fun hne => hcounted ▸ h.failures hne, ?_,
    fun hraised => ?_, fun hreset => htrips ▸ h.reset hreset, fun hne hne' hne'' => ?_⟩
  · exact iff_of_true rfl (.inr (by simp [hrecent]))
  · rw [htrips, hrecent]
    exact hannounced.mpr (h.raised hraised)
  · rw [htrips, hrecent]
    exact (h.published hne hne' hne'').trans hannounced.symm

lemma Follows.advance (h : s.Follows) {phase : SwitchSection} (hlock : s.lock = some phase) :
    (s.advance phase).Follows := by
  cases phase with
  | tripping => exact h.count hlock
  | counted => exact h.raise hlock
  | raised =>
    have hcounted : (s.advance .raised).counted = s.counted := by
      simp [counted, hlock, KillSwitch.advance, trips, recent]
    exact ⟨hcounted ▸ h.ordered, hcounted ▸ h.past, fun _ => hcounted ▸ h.failures (by simp [hlock]),
      h.flag, fun hraised => (by cases hraised), fun hreset => (by simp [KillSwitch.advance] at hreset),
      fun _ _ _ => iff_of_true rfl (h.raised hlock)⟩
  | resetting =>
    have hrecent : (s.advance .resetting).recent = [] := sinceReset_reset
    have htrips : (s.advance .resetting).trips = [] := by rw [trips, hrecent, tripTimes_nil]
    have hcounted : (s.advance .resetting).counted = [] := htrips
    refine ⟨hcounted ▸ .nil, ?_, fun hne => absurd rfl hne, ?_, fun hraised => (by cases hraised),
      fun _ => htrips, fun _ hne => absurd rfl hne⟩
    · simp [hcounted]
    · rw [htrips, hrecent]
      simp [KillSwitch.advance]
  | lowered =>
    have htrips : (s.advance .lowered).trips = [] := h.reset (.inl hlock)
    have hcounted : (s.advance .lowered).counted = [] := htrips
    refine ⟨hcounted ▸ .nil, ?_, fun _ => ?_, h.flag, fun hraised => (by cases hraised),
      fun _ => htrips, fun _ _ hne => absurd rfl hne⟩
    · simp [hcounted]
    · rw [hcounted]
      rfl
  | cleared =>
    have htrips : (s.advance .cleared).trips = [] := h.reset (.inr hlock)
    have hcounted : (s.advance .cleared).counted = s.counted := by
      simp [counted, hlock, KillSwitch.advance, trips, recent]
    refine ⟨hcounted ▸ h.ordered, hcounted ▸ h.past, fun _ => hcounted ▸ h.failures (by simp [hlock]),
      h.flag, fun hraised => (by cases hraised), fun hreset => (by simp [KillSwitch.advance] at hreset),
      fun _ _ _ => ?_⟩
    rw [htrips]
    simp [KillSwitch.advance]

lemma Follows.step (h : s.Follows) {i : SwitchInput} (hs : s.step i = some s') : s'.Follows := by
  cases i with
  | tick =>
    cases hs
    refine { h with past := fun t ht => ?_ }
    exact (h.past t ht).trans (Nat.le_add_right _ _)
  | trip =>
    simp only [KillSwitch.step, Option.ite_none_right_eq_some, Option.some.injEq] at hs
    obtain ⟨hlock, rfl⟩ := hs
    exact h.acquire hlock (.inl rfl)
  | reset =>
    simp only [KillSwitch.step, Option.ite_none_right_eq_some, Option.some.injEq] at hs
    obtain ⟨hlock, rfl⟩ := hs
    exact h.acquire hlock (.inr rfl)
  | advance =>
    obtain ⟨phase, hlock, rfl⟩ := Option.map_eq_some_iff.mp hs
    exact h.advance hlock
  | failVerification | tripKillSwitch =>
    cases hs
    exact h.store

/-- The configuration stays. -/
lemma step_config {i : SwitchInput} (hs : s.step i = some s') :
    s'.tripThreshold = s.tripThreshold ∧ s'.window = s.window := by
  cases i with
  | advance =>
    obtain ⟨phase, -, rfl⟩ := Option.map_eq_some_iff.mp hs
    cases phase with
    | counted =>
      simp only [KillSwitch.advance, KillSwitch.raise]
      split_ifs <;> exact ⟨rfl, rfl⟩
    | tripping | raised | resetting | lowered | cleared => exact ⟨rfl, rfl⟩
  | tick | failVerification | tripKillSwitch =>
    cases hs
    exact ⟨rfl, rfl⟩
  | trip | reset =>
    simp only [KillSwitch.step, Option.ite_none_right_eq_some, Option.some.injEq] at hs
    obtain ⟨-, rfl⟩ := hs
    exact ⟨rfl, rfl⟩

lemma follows_of_run (h : Run step (withThreshold k w start) s) :
    s.Follows ∧ s.tripThreshold = k ∧ s.window = w := by
  refine h.invariant (I := fun s => s.Follows ∧ s.tripThreshold = k ∧ s.window = w)
    ⟨follows_withThreshold, rfl, rfl⟩ fun s i s' ih _ hs => ?_
  obtain ⟨hfollows, hk, hw⟩ := ih
  obtain ⟨hk', hw'⟩ := step_config hs
  exact ⟨hfollows.step hs, hk'.trans hk, hw'.trans hw⟩

/-- Without guarded sockets there are no stores. -/
lemma store_not_mem_of_run
    (h : GuardedRun step (fun _ i => i.direct = false) (withThreshold k w start) s) :
    .store ∉ s.events := by
  refine h.invariant (I := fun s => SwitchEvent.store ∉ s.events) (by simp [withThreshold])
    fun s i s' ih hi hs => ?_
  cases i with
  | advance =>
    obtain ⟨phase, -, rfl⟩ := Option.map_eq_some_iff.mp hs
    cases phase with
    | counted =>
      simp only [KillSwitch.advance, KillSwitch.raise]
      split_ifs <;> simpa using ih
    | resetting => simpa [KillSwitch.advance] using ih
    | tripping | raised | lowered | cleared => exact ih
  | tick =>
    cases hs
    exact ih
  | trip | reset =>
    simp only [KillSwitch.step, Option.ite_none_right_eq_some, Option.some.injEq] at hs
    obtain ⟨-, rfl⟩ := hs
    exact ih
  | failVerification | tripKillSwitch => cases hi

/-- The switch is tripped exactly if since the last reset some trip was the last of at least `k`
within less than `w` before it. -/
theorem tripped_iff_enough_trips (hw : 0 < w)
    (h : GuardedRun step (fun _ i => i.direct = false) (withThreshold k w start) s) :
    s.tripped = true ↔ ∃ earlier t later, s.trips = earlier ++ t :: later ∧
      k ≤ (earlier ++ [t]).countP fun t' => t' ≤ t ∧ t < t' + w := by
  obtain ⟨hfollows, rfl, rfl⟩ := follows_of_run h.toRun
  have hstore : .store ∉ s.recent := fun hmem =>
    store_not_mem_of_run h ((List.rtakeWhile_suffix _ _).mem hmem)
  rw [hfollows.flag, or_iff_left hstore]
  simp only [Reached, count_eq_countP hw]

/-- A failure, a reset, and two failures within a second. -/
def twoFailures : List SwitchInput :=
  [.trip, .advance, .advance, .reset, .advance, .advance, .advance, .tick 5, .trip, .advance,
    .advance, .tick (10 ^ 9 - 1), .trip, .advance, .advance, .advance]

theorem twoFailures_tripped : ∃ s, runInputs step (withThreshold 2 (10 ^ 9) 0) twoFailures = some s ∧
    s.trips = [5, 10 ^ 9 + 4] ∧
    (s.tripped = true ↔ ∃ earlier t later, s.trips = earlier ++ t :: later ∧
      2 ≤ (earlier ++ [t]).countP fun t' => t' ≤ t ∧ t < t' + 10 ^ 9) := by
  have hok : inputsOk step (fun _ i => i.direct = false) (withThreshold 2 (10 ^ 9) 0) twoFailures =
      true := by decide +kernel
  have htrips : (runInputs step (withThreshold 2 (10 ^ 9) 0) twoFailures).map trips =
      some [5, 10 ^ 9 + 4] := by decide +kernel
  obtain ⟨s, hs, hlist⟩ := Option.map_eq_some_iff.mp htrips
  have hrun := GuardedRun.getD_inputs twoFailures hok s
  rw [hs, Option.getD_some] at hrun
  exact ⟨s, hs, hlist, tripped_iff_enough_trips (by decide) hrun⟩

/-- When nobody holds the lock, the flag is what was last published exactly if no guarded socket
has raised it before the trips had. -/
theorem flag_eq_published_iff (h : Run step (withThreshold k w start) s) (hlock : s.lock = none) :
    s.tripped = s.published ↔ Announced k w s.recent := by
  obtain ⟨hfollows, rfl, rfl⟩ := follows_of_run h
  have hpublished := hfollows.published (by simp [hlock]) (by simp [hlock]) (by simp [hlock])
  constructor
  · intro heq
    by_cases hstore : .store ∈ s.recent
    · exact (hpublished.mp (heq ▸ hfollows.flag.mpr (.inr hstore))).2
    · exact announced_of_not_mem hstore
  · intro hannounced
    rw [Bool.eq_iff_iff, hfollows.flag, hpublished]
    constructor
    · rintro (hreached | hstore)
      · exact ⟨hreached, hannounced⟩
      · exact ⟨hannounced.reached hstore, hannounced⟩
    · exact fun hboth => .inl hboth.1

/-- A failure is enough, and a guarded socket fails after it. -/
theorem trip_then_store_published : ∃ s, runInputs step (withThreshold 1 (10 ^ 9) 0)
      [.trip, .advance, .advance, .advance, .tripKillSwitch] = some s ∧
    s.recent = [.trip 0, .store] ∧ (s.tripped = s.published ↔ Announced 1 (10 ^ 9) s.recent) := by
  have hlook : (runInputs step (withThreshold 1 (10 ^ 9) 0)
      [.trip, .advance, .advance, .advance, .tripKillSwitch]).map (fun s => (s.lock, s.recent)) =
        some (none, [.trip 0, .store]) := by decide +kernel
  obtain ⟨s, hs, hview⟩ := Option.map_eq_some_iff.mp hlook
  obtain ⟨hlock, hrecent⟩ := Prod.mk.inj hview
  exact ⟨s, hs, hrecent, flag_eq_published_iff (Run.of_inputs _ hs) hlock⟩

/-- A guarded socket fails its verification, and then five failures come together. Nobody is
told. -/
def silencedTrips : List SwitchInput :=
  .failVerification :: (List.replicate 5 [.trip, .advance, .advance]).flatten

theorem silencedTrips_unpublished : ∃ s,
    runInputs step (withThreshold 5 (10 ^ 9) 0) silencedTrips = some s ∧ s.lock = none ∧
      s.failures.length = 5 ∧ s.tripped = true ∧ s.published = false := by
  have hlook : (runInputs step (withThreshold 5 (10 ^ 9) 0) silencedTrips).map
      (fun s => (s.lock, s.failures.length, s.tripped, s.published)) =
        some (none, 5, true, false) := by decide +kernel
  obtain ⟨s, hs, hview⟩ := Option.map_eq_some_iff.mp hlook
  simp only [Prod.mk.injEq] at hview
  exact ⟨s, hs, hview⟩

end KillSwitch

end AnonGuard
