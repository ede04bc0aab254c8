import Mathlib.Tactic

/-!
# Pacing

Times are natural numbers of nanoseconds. A periodic task keeps its phase under
ordinary variation of what it costs, and skips the slots that it has missed.
-/
namespace AnonGuard

@[irreducible] def seconds (n : ℕ) : ℕ := n * 10 ^ 9
@[irreducible] def millis (n : ℕ) : ℕ := n * 10 ^ 6
/-- The number of `u32` values. -/
@[irreducible] def U32_SIZE : ℕ := 2 ^ 32
@[irreducible] def U64_SIZE : ℕ := 2 ^ 64

/-- `next_deadline`: keep the phase and skip the slots that have passed. -/
def nextDeadline (previous now interval : ℕ) : ℕ :=
  let nominal := previous + interval
  if now < nominal then nominal
  else
    let skipped := (now - nominal) / interval + 1
    if skipped < U32_SIZE ∧ interval * skipped < seconds U64_SIZE then nominal + interval * skipped
    else now + interval

/-- The number of missed slots, or the delay over them, does not fit its type, so the phase is
given up. -/
def Rebases (previous now interval : ℕ) : Prop :=
  previous + interval ≤ now ∧ (U32_SIZE ≤ (now - (previous + interval)) / interval + 1 ∨
    seconds U64_SIZE ≤ interval * ((now - (previous + interval)) / interval + 1))

section Deadline
variable {previous now interval : ℕ}

theorem lt_nextDeadline (h : 0 < interval) : now < nextDeadline previous now interval := by
  unfold nextDeadline
  dsimp only
  split_ifs with hnominal
  · exact hnominal
  · have hdiv := Nat.div_add_mod (now - (previous + interval)) interval
    have hmod := Nat.mod_lt (now - (previous + interval)) h
    rw [Nat.mul_add, Nat.mul_one]
    omega
  · omega

/-- The next slot is at most one interval away, also when slots are skipped. -/
lemma nextDeadline_le (hle : previous ≤ now) :
    nextDeadline previous now interval ≤ now + interval := by
  unfold nextDeadline
  dsimp only
  split_ifs with hnominal
  · omega
  · have hdiv := Nat.div_add_mod (now - (previous + interval)) interval
    rw [Nat.mul_add, Nat.mul_one]
    omega
  · exact le_refl _

/-- No slot is less than one interval after the one before it. -/
lemma add_le_nextDeadline : previous + interval ≤ nextDeadline previous now interval := by
  unfold nextDeadline
  dsimp only
  split_ifs with hnominal
  · exact le_refl _
  · exact Nat.le_add_right _ _
  · omega

lemma nextDeadline_phase :
    (∃ m, nextDeadline previous now interval = previous + m * interval) ∨
      Rebases previous now interval ∧ nextDeadline previous now interval = now + interval := by
  unfold nextDeadline Rebases
  dsimp only
  split_ifs with hnominal hfits
  · exact .inl ⟨1, by rw [Nat.one_mul]⟩
  · refine .inl ⟨(now - (previous + interval)) / interval + 2, ?_⟩
    ring
  · rw [not_and_or, Nat.not_lt, Nat.not_lt] at hfits
    exact .inr ⟨⟨Nat.le_of_not_lt hnominal, hfits⟩, rfl⟩

end Deadline

/-- A task that emits once per slot, at any time from the slot on, and sets its next slot when
the emission has finished. -/
structure PacedRun (interval : ℕ) where
  slot : ℕ → ℕ
  emission : ℕ → ℕ
  finished : ℕ → ℕ
  emits : ∀ k, slot k ≤ emission k
  finishes : ∀ k, emission k ≤ finished k
  next : ∀ k, slot (k + 1) = nextDeadline (slot k) (finished k) interval

namespace PacedRun
variable {interval : ℕ}

variable (R : PacedRun interval)

/-- Slots that are `m` apart are at least `m` intervals apart. -/
lemma slot_add_le (k m : ℕ) : R.slot k + m * interval ≤ R.slot (k + m) := by
  induction m with
  | zero => simp
  | succ m ih =>
    have hstep : R.slot (k + m) + interval ≤ R.slot (k + m + 1) := by
      rw [R.next]
      exact add_le_nextDeadline
    calc
      R.slot k + (m + 1) * interval = R.slot k + m * interval + interval := by ring
      _ ≤ R.slot (k + m) + interval := Nat.add_le_add_right ih _
      _ ≤ R.slot (k + (m + 1)) := hstep

/-- An emission comes before the slot of the next one. -/
lemma emission_lt_slot (h : 0 < interval) (k : ℕ) : R.emission k < R.slot (k + 1) := by
  rw [R.next]
  exact (R.finishes k).trans_lt (lt_nextDeadline h)

/-- Emissions that are `m + 1` apart are more than `m` intervals apart. -/
lemma emission_add_lt (h : 0 < interval) (k m : ℕ) :
    R.emission k + m * interval < R.emission (k + 1 + m) :=
  calc
    R.emission k + m * interval < R.slot (k + 1) + m * interval :=
      Nat.add_lt_add_right (R.emission_lt_slot h k) _
    _ ≤ R.slot (k + 1 + m) := R.slot_add_le (k + 1) m
    _ ≤ R.emission (k + 1 + m) := R.emits _

/-- The emissions in a window of `n` intervals have indices within `n` of each other. -/
lemma index_le_of_window (h : 0 < interval) {t n i j : ℕ} (hi : t ≤ R.emission i)
    (hj : R.emission j ≤ t + n * interval) : j ≤ i + n := by
  by_contra hfar
  obtain ⟨m, hm⟩ : ∃ m, j = i + 1 + (n + m) := ⟨j - i - 1 - n, by omega⟩
  have hlt := R.emission_add_lt h i (n + m)
  rw [← hm, Nat.add_mul] at hlt
  omega

/-- A window of `n` intervals contains at most `n + 1` emissions. -/
lemma card_window_le (h : 0 < interval) {t n : ℕ} {s : Finset ℕ}
    (hs : ∀ k ∈ s, t ≤ R.emission k ∧ R.emission k ≤ t + n * interval) : s.card ≤ n + 1 := by
  rcases s.eq_empty_or_nonempty with rfl | hne
  · simp
  · -- all indices lie between the least one and `n` above it
    have hsub : s ⊆ Finset.Icc (s.min' hne) (s.min' hne + n) := by
      intro k hk
      exact Finset.mem_Icc.mpr ⟨s.min'_le k hk,
        R.index_le_of_window h (hs _ (s.min'_mem hne)).1 (hs k hk).2⟩
    have hcard := Finset.card_le_card hsub
    rw [Nat.card_Icc] at hcard
    omega

/-- Each slot lies after the end of the emission before it, within one interval, and at least one
interval after the slot before it; it keeps the phase unless the skipped slots overflow. So no
window of `n` intervals contains more than `n + 1` emissions. -/
theorem never_bursts (h : 0 < interval) :
    (∀ k, R.finished k < R.slot (k + 1) ∧ R.slot (k + 1) ≤ R.finished k + interval ∧
      R.slot k + interval ≤ R.slot (k + 1) ∧
      ((∃ m, R.slot (k + 1) = R.slot k + m * interval) ∨
        Rebases (R.slot k) (R.finished k) interval ∧
          R.slot (k + 1) = R.finished k + interval)) ∧
    ∀ (t n : ℕ) (s : Finset ℕ),
      (∀ k ∈ s, t ≤ R.emission k ∧ R.emission k ≤ t + n * interval) → s.card ≤ n + 1 := by
  constructor
  · intro k
    rw [R.next]
    exact ⟨lt_nextDeadline h, nextDeadline_le ((R.emits k).trans (R.finishes k)),
      add_le_nextDeadline, nextDeadline_phase⟩
  · intro t n s hs
    exact R.card_window_le h hs

/-- Slots 20 apart, emissions that start 1 late and take 2. -/
def sampleRun : PacedRun 20 where
  slot k := 20 * k
  emission k := 20 * k + 1
  finished k := 20 * k + 3
  emits _ := by omega
  finishes _ := by omega
  next k := by
    unfold nextDeadline
    dsimp only
    rw [if_pos (by omega)]
    ring

/-- Two of its emissions lie in one interval. -/
theorem never_bursts_twenty :
    (∀ k ∈ ({0, 1} : Finset ℕ), 1 ≤ sampleRun.emission k ∧ sampleRun.emission k ≤ 1 + 1 * 20) ∧
      ({0, 1} : Finset ℕ).card ≤ 1 + 1 := by
  have hwindow : ∀ k ∈ ({0, 1} : Finset ℕ),
      1 ≤ sampleRun.emission k ∧ sampleRun.emission k ≤ 1 + 1 * 20 := by
    decide
  exact ⟨hwindow, (sampleRun.never_bursts (by decide)).2 1 1 _ hwindow⟩

end PacedRun

end AnonGuard
