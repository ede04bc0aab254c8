import Mathlib.Tactic

/-!
# Guarded runs of a transition function

A system is a partial step function on states and inputs; `none` means that the
input is not enabled. A guarded run takes only steps that meet a condition on
the state before the step and on the input. What one guarded step preserves,
every guarded run preserves.
-/
namespace AnonGuard

section Runs
variable {σ ι : Type*}

/-- The states that runs from `s₀` reach when every step meets `ok`. -/
inductive GuardedRun (step : σ → ι → Option σ) (ok : σ → ι → Prop) (s₀ : σ) : σ → Prop
  | start : GuardedRun step ok s₀ s₀
  | step {s s' : σ} {i : ι} : GuardedRun step ok s₀ s → ok s i → step s i = some s' →
      GuardedRun step ok s₀ s'

/-- All runs. -/
abbrev Run (step : σ → ι → Option σ) (s₀ : σ) : σ → Prop := GuardedRun step (fun _ _ => True) s₀

variable {step : σ → ι → Option σ} {ok : σ → ι → Prop} {s₀ s : σ} {s' : σ}

theorem GuardedRun.invariant {I : σ → Prop} (h : GuardedRun step ok s₀ s) (h₀ : I s₀)
    (hstep : ∀ s i s', I s → ok s i → step s i = some s' → I s') : I s := by
  induction h with
  | start => exact h₀
  | step _ hok hs ih => exact hstep _ _ _ ih hok hs

theorem GuardedRun.weaken {ok' : σ → ι → Prop} (h : GuardedRun step ok s₀ s)
    (hw : ∀ s i, ok s i → ok' s i) : GuardedRun step ok' s₀ s := by
  induction h with
  | start => exact .start
  | step _ hok hs ih => exact .step ih (hw _ _ hok) hs

theorem GuardedRun.toRun (h : GuardedRun step ok s₀ s) : Run step s₀ s :=
  h.weaken fun _ _ _ => trivial

theorem GuardedRun.trans (h : GuardedRun step ok s₀ s) (h' : GuardedRun step ok s s') :
    GuardedRun step ok s₀ s' := by
  induction h' with
  | start => exact h
  | step _ hok hs ih => exact .step ih hok hs

/-- Take a list of inputs one after another. -/
def runInputs (step : σ → ι → Option σ) : σ → List ι → Option σ
  | s, [] => some s
  | s, i :: is => (step s i).bind fun s' => runInputs step s' is

theorem Run.of_inputs (is : List ι) (h : runInputs step s is = some s') :
    Run step s s' := by
  induction is generalizing s with
  | nil =>
    cases h
    exact .start
  | cons i is ih =>
    obtain ⟨t, ht, hrest⟩ := Option.bind_eq_some_iff.mp h
    exact (GuardedRun.step .start trivial ht).trans (ih hrest)

/-- The state that a list of inputs leads to is reachable. -/
theorem Run.getD_inputs (is : List ι) : Run step s ((runInputs step s is).getD s) := by
  cases h : runInputs step s is with
  | none => exact .start
  | some => exact Run.of_inputs is h

/-- A condition on inputs alone needs no look at the states. -/
theorem GuardedRun.getD_inputs_of_forall (is : List ι) (h : ∀ s, ∀ i ∈ is, ok s i) :
    GuardedRun step ok s ((runInputs step s is).getD s) := by
  suffices hrun : ∀ s', runInputs step s is = some s' → GuardedRun step ok s s' by
    cases hs : runInputs step s is with
    | none => exact .start
    | some s' => exact hrun s' hs
  induction is generalizing s with
  | nil =>
    rintro _ ⟨⟩
    exact .start
  | cons i is ih =>
    intro s' hs
    obtain ⟨t, ht, hrest⟩ := Option.bind_eq_some_iff.mp hs
    have hi : ok s i := h s i (by simp)
    exact (GuardedRun.step .start hi ht).trans (ih (fun s j hj => h s j (by simp [hj])) s' hrest)

/-- Every one of the inputs is enabled and meets `ok`. -/
def inputsOk (step : σ → ι → Option σ) (ok : σ → ι → Prop) [∀ s i, Decidable (ok s i)] :
    σ → List ι → Bool
  | _, [] => true
  | s, i :: is =>
    decide (ok s i) && match step s i with
      | none => false
      | some s' => inputsOk step ok s' is

theorem GuardedRun.getD_inputs [∀ s i, Decidable (ok s i)] (is : List ι)
    (h : inputsOk step ok s is = true) (t : σ) :
    GuardedRun step ok s ((runInputs step s is).getD t) := by
  induction is generalizing s with
  | nil => exact .start
  | cons i is ih =>
    simp only [inputsOk, Bool.and_eq_true, decide_eq_true_eq] at h
    obtain ⟨hok, hrest⟩ := h
    cases hs : step s i with
    | none =>
      rw [hs] at hrest
      cases hrest
    | some =>
      rw [hs] at hrest
      simp only [runInputs, hs, Option.bind_some]
      exact (GuardedRun.step .start hok hs).trans (ih hrest)

end Runs

end AnonGuard
