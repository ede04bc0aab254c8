import Mathlib.Algebra.Order.Floor.Div
import AnonGuard.Session

/-!
# The closing time of a session

An idle session closes at the end of a quantum, so that the time at which it closes says
little about the last activity. The end of the quantum is computed from whole seconds, but
the idle time is compared exactly: activity in the middle of the last second that still fits
a quantum moves the closing time off the boundary.
-/
namespace AnonGuard

lemma seconds_eq_mul (n : ℕ) : seconds n = n * seconds 1 := by
  simp [seconds]

lemma seconds_one_pos : 0 < seconds 1 := by
  simp [seconds]

lemma seconds_le_seconds {m n : ℕ} : seconds m ≤ seconds n ↔ m ≤ n := by
  simp [seconds]

namespace Profile

/-- The two constants of `can_finish`, in seconds. -/
def quantum (p : Profile) : ℕ := if p = longTail then 60 else 30
def minimumIdle (p : Profile) : ℕ := if p = longTail then 20 else 10

/-- The end of the quantum at which a session may close, in whole seconds. -/
def boundary (p : Profile) (last : ℕ) : ℕ :=
  max ((last / seconds 1 + p.minimumIdle + p.quantum - 1) / p.quantum * p.quantum) p.quantum

/-- The session may close at an age, if nothing happens after `last` and whatever the number of
cells may allow. -/
def MayClose (p : Profile) (last age : ℕ) : Prop :=
  last ≤ age ∧ ∃ cells, p.canFinish age (age - last) cells = true

variable {p : Profile} {last age : ℕ}

lemma quantum_pos : 0 < p.quantum := by
  unfold quantum
  split_ifs <;> decide

lemma minimumIdle_pos : 0 < p.minimumIdle := by
  unfold minimumIdle
  split_ifs <;> decide

/-- The boundary is the first one after the minimum idle time, both in whole seconds. -/
lemma boundary_isLeast (p : Profile) (last : ℕ) :
    IsLeast {b | p.quantum ∣ b ∧ last / seconds 1 + p.minimumIdle ≤ b} (p.boundary last) := by
  have hceil : p.boundary last =
      (last / seconds 1 + p.minimumIdle) ⌈/⌉ p.quantum * p.quantum := by
    rw [boundary, ← Nat.ceilDiv_eq_add_pred_div]
    refine max_eq_left (Nat.le_mul_of_pos_left _ (Nat.pos_of_ne_zero fun hzero => ?_))
    have hle := (ceilDiv_le_iff_le_mul p.quantum_pos).mp hzero.le
    rw [Nat.mul_zero] at hle
    exact absurd ((Nat.le_add_left _ _).trans hle) p.minimumIdle_pos.not_ge
  rw [hceil]
  constructor
  · refine ⟨Nat.dvd_mul_left _ _, ?_⟩
    rw [Nat.mul_comm]
    exact (ceilDiv_le_iff_le_mul p.quantum_pos).mp le_rfl
  · rintro b ⟨⟨j, rfl⟩, hle⟩
    rw [Nat.mul_comm]
    exact Nat.mul_le_mul_left _ ((ceilDiv_le_iff_le_mul p.quantum_pos).mpr hle)

/-- The session may close once the boundary has passed and the idle time is over. -/
lemma mayClose_iff (hp : p ≠ fixedWindow) :
    p.MayClose last age ↔ seconds (p.boundary last) ≤ age ∧ last + seconds p.minimumIdle ≤ age := by
  have hcan : ∀ cells, p.canFinish age (age - last) cells =
      (decide (seconds (max (((age - (age - last)) / seconds 1 + p.minimumIdle + p.quantum - 1) /
        p.quantum * p.quantum) p.quantum) ≤ age) &&
        decide (seconds p.minimumIdle ≤ age - last) && (cells + 1) % BUCKET == 0) := by
    intro cells
    rw [canFinish, if_neg hp]
    rfl
  constructor
  · rintro ⟨hle, cells, h⟩
    rw [hcan, Nat.sub_sub_self hle] at h
    simp only [Bool.and_eq_true, decide_eq_true_eq] at h
    exact ⟨h.1.1, by omega⟩
  · rintro ⟨hboundary, hidle⟩
    have hle : last ≤ age := (Nat.le_add_right _ _).trans hidle
    refine ⟨hle, BUCKET - 1, ?_⟩
    rw [hcan, Nat.sub_sub_self hle]
    simp only [Bool.and_eq_true, decide_eq_true_eq]
    exact ⟨⟨hboundary, by omega⟩, by decide⟩

/-- The first age at which the session may close, for any offset of the last activity. -/
lemma mayClose_isLeast (hp : p ≠ fixedWindow) (last : ℕ) : IsLeast {age | p.MayClose last age}
    (max (seconds (p.boundary last)) (last + seconds p.minimumIdle)) :=
  ⟨(mayClose_iff hp).mpr ⟨le_max_left _ _, le_max_right _ _⟩,
    fun _ h => max_le ((mayClose_iff hp).mp h).1 ((mayClose_iff hp).mp h).2⟩

/-- The idle time ends by the boundary, unless its last second ends there only when the
activity's fraction of a second is cut off. -/
lemma idle_le_boundary (h : ¬ p.quantum ∣ last / seconds 1 + p.minimumIdle ∨ seconds 1 ∣ last) :
    last + seconds p.minimumIdle ≤ seconds (p.boundary last) := by
  obtain ⟨⟨hdvd, hle⟩, -⟩ := p.boundary_isLeast last
  rw [seconds_eq_mul p.minimumIdle, seconds_eq_mul (p.boundary last)]
  rcases h with hinside | hwhole
  · have hlt : last / seconds 1 + 1 + p.minimumIdle ≤ p.boundary last := by
      have hne : last / seconds 1 + p.minimumIdle ≠ p.boundary last := by
        intro heq
        exact hinside (heq ▸ hdvd)
      omega
    calc
      last + p.minimumIdle * seconds 1
          ≤ (last / seconds 1 + 1) * seconds 1 + p.minimumIdle * seconds 1 :=
        Nat.add_le_add_right (Nat.lt_mul_of_div_lt (Nat.lt_succ_self _) seconds_one_pos).le _
      _ = (last / seconds 1 + 1 + p.minimumIdle) * seconds 1 := (Nat.add_mul _ _ _).symm
      _ ≤ p.boundary last * seconds 1 := Nat.mul_le_mul_right _ hlt
  · calc
      last + p.minimumIdle * seconds 1
          = last / seconds 1 * seconds 1 + p.minimumIdle * seconds 1 := by
        rw [Nat.div_mul_cancel hwhole]
      _ = (last / seconds 1 + p.minimumIdle) * seconds 1 := (Nat.add_mul _ _ _).symm
      _ ≤ p.boundary last * seconds 1 := Nat.mul_le_mul_right _ hle

/-- A multiple of the quantum after the idle time is not before the boundary. -/
lemma boundary_le_of_dvd {t : ℕ} (hdvd : seconds p.quantum ∣ t)
    (hle : last + seconds p.minimumIdle ≤ t) : seconds (p.boundary last) ≤ t := by
  obtain ⟨j, rfl⟩ := hdvd
  have ht : seconds p.quantum * j = seconds (p.quantum * j) := by
    rw [seconds_eq_mul, seconds_eq_mul (p.quantum * j)]
    ring
  rw [ht] at hle ⊢
  refine seconds_le_seconds.mpr ((p.boundary_isLeast last).2 ⟨Nat.dvd_mul_right _ _, ?_⟩)
  refine Nat.le_of_mul_le_mul_right (?_ : _ * seconds 1 ≤ _ * seconds 1) seconds_one_pos
  rw [← seconds_eq_mul (p.quantum * j), Nat.add_mul, ← seconds_eq_mul p.minimumIdle]
  exact (Nat.add_le_add_right (Nat.div_mul_le_self _ _) _).trans hle

end Profile

end AnonGuard
