import Mathlib.Tactic

/-!
# Counting recent events

A counter keeps the times of recent events: when an event comes it drops the times that are
`width` or more before it. As long as time does not go back this loses nothing that a later
event would still count, so at every event the counter has as many times as the whole history
has within the window.
-/
namespace AnonGuard

namespace RecentTimes
variable {k width now t : ℕ} {times : List ℕ}

/-- An event comes. -/
def record (width : ℕ) (kept : List ℕ) (now : ℕ) : List ℕ :=
  kept.filter (fun t => now - t < width) ++ [now]

/-- What a counter keeps after these events. -/
def recorded (width : ℕ) (times : List ℕ) : List ℕ := times.foldl (record width) []

/-- An event and the earlier ones within less than `width` before it. -/
def count (width : ℕ) (earlier : List ℕ) (now : ℕ) : ℕ :=
  earlier.countP (fun t => t ≤ now ∧ now < t + width) + 1

/-- Some event is the last of at least `k` within the window. -/
def Reached (k width : ℕ) (times : List ℕ) : Prop :=
  ∃ earlier t later, times = earlier ++ t :: later ∧ k ≤ count width earlier t

@[simp] lemma recorded_concat : recorded width (times ++ [t]) = record width (recorded width times) t := by
  simp [recorded]

/-- A time that was dropped is outside of every later window. -/
lemma filter_recorded (hordered : times.Pairwise (· ≤ ·)) (hpast : ∀ t ∈ times, t ≤ now) :
    (recorded width times).filter (fun t => now - t < width) =
      times.filter (fun t => now - t < width) := by
  induction times using List.reverseRecOn generalizing now with
  | nil => rfl
  | append_singleton times last ih =>
    obtain ⟨hbefore, -, hle⟩ := List.pairwise_append.mp hordered
    have hlast : last ≤ now := hpast last (by simp)
    have hupto : ∀ t ∈ times, t ≤ last := fun t ht => hle t ht last (by simp)
    have hnarrow : ∀ t, (decide (now - t < width) && decide (last - t < width)) =
        decide (now - t < width) := by
      intro t
      rw [Bool.and_eq_left_iff_imp, decide_eq_true_eq, decide_eq_true_eq]
      omega
    rw [recorded_concat, record, ih hbefore hupto, List.filter_append, List.filter_append,
      List.filter_filter]
    simp only [hnarrow]

lemma length_recorded_concat (hordered : (times ++ [t]).Pairwise (· ≤ ·)) :
    (recorded width (times ++ [t])).length = count width times t := by
  obtain ⟨hbefore, -, hle⟩ := List.pairwise_append.mp hordered
  have hpast : ∀ t' ∈ times, t' ≤ t := fun t' ht' => hle t' ht' t (by simp)
  have hwindow : times.filter (fun t' => t - t' < width) =
      times.filter (fun t' => t' ≤ t ∧ t < t' + width) := by
    refine List.filter_congr fun t' ht' => ?_
    have := hpast t' ht'
    rw [decide_eq_decide]
    omega
  rw [recorded_concat, record, filter_recorded hbefore hpast, hwindow, List.length_append,
    List.length_singleton, count, List.countP_eq_length_filter]

@[simp] lemma not_reached_nil : ¬ Reached k width [] := by
  rintro ⟨earlier, t, later, h, -⟩
  simp at h

lemma reached_concat :
    Reached k width (times ++ [t]) ↔ Reached k width times ∨ k ≤ count width times t := by
  constructor
  · rintro ⟨earlier, t', later, h, hk⟩
    rcases List.eq_nil_or_concat later with rfl | ⟨later, last, rfl⟩
    · obtain ⟨rfl, hlast⟩ := List.append_inj' h rfl
      cases hlast
      exact .inr hk
    · rw [List.concat_eq_append, ← List.cons_append, ← List.append_assoc] at h
      exact .inl ⟨earlier, t', later, (List.append_inj' h rfl).1, hk⟩
  · rintro (⟨earlier, t', later, rfl, hk⟩ | hk)
    · exact ⟨earlier, t', later ++ [t], by simp, hk⟩
    · exact ⟨times, t, [], rfl, hk⟩

lemma Reached.append (h : Reached k width times) (later : List ℕ) :
    Reached k width (times ++ later) := by
  obtain ⟨earlier, t, rest, rfl, hk⟩ := h
  exact ⟨earlier, t, rest ++ later, by simp, hk⟩

/-- In a window that is not empty an event counts itself. -/
lemma count_eq_countP (hwidth : 0 < width) :
    count width times t = (times ++ [t]).countP fun t' => t' ≤ t ∧ t < t' + width := by
  simp [count, List.countP_append, hwidth]

end RecentTimes

end AnonGuard
