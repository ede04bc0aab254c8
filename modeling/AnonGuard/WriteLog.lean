import Mathlib.Tactic

/-!
# What a program writes

A program reads and writes on a state that keeps a log of the messages written so far, and
it may fail at any point. `Writes log P x` says that a run of `x` only adds messages of
`P` to the log, whether it succeeds or not, and composes along the program.
-/
namespace AnonGuard

variable {ε ε' σ α β : Type} {μ : Type*} {log : σ → List μ} {P : μ → Prop}

/-- The state that a run leaves, also if it fails. -/
def stateAfter (x : EStateM ε σ α) (s : σ) : σ :=
  match x s with
  | .ok _ t => t
  | .error _ t => t

/-- Whatever a run adds to the log is in `P`. -/
def Writes (log : σ → List μ) (P : μ → Prop) (x : EStateM ε σ α) : Prop :=
  ∀ s, ∃ new, log (stateAfter x s) = log s ++ new ∧ ∀ m ∈ new, P m

namespace Writes

variable {x : EStateM ε σ α}

lemma of_log_eq (h : ∀ s, log (stateAfter x s) = log s) : Writes log P x :=
  fun s => ⟨[], by rw [h, List.append_nil], by simp⟩

lemma message {m : μ} (hm : P m) (h : ∀ s, log (stateAfter x s) = log s ++ [m]) : Writes log P x :=
  fun s => ⟨[m], h s, fun _ hmem => List.mem_singleton.mp hmem ▸ hm⟩

lemma pure (a : α) : Writes log P (Pure.pure a : EStateM ε σ α) := of_log_eq fun _ => rfl

lemma throw (e : ε) : Writes log P (throwThe ε e : EStateM ε σ α) := of_log_eq fun _ => rfl

/-- The continuation only matters for values that the first part can return. -/
lemma bind {f : α → EStateM ε σ β} (hx : Writes log P x)
    (hf : ∀ a s t, x s = .ok a t → Writes log P (f a)) : Writes log P (x >>= f) := by
  intro s
  obtain ⟨new, hnew, hP⟩ := hx s
  cases hrun : x s with
  | error e t =>
    have hafter : stateAfter (x >>= f) s = stateAfter x s := by
      show (match EStateM.bind x f s with | .ok _ t => t | .error _ t => t) = _
      simp only [EStateM.bind, stateAfter, hrun]
    exact ⟨new, by rw [hafter, hnew], hP⟩
  | ok a t =>
    obtain ⟨later, hlater, hP'⟩ := hf a s t hrun t
    have hfirst : stateAfter x s = t := by simp only [stateAfter, hrun]
    have hafter : stateAfter (x >>= f) s = stateAfter (f a) t := by
      show (match EStateM.bind x f s with | .ok _ t => t | .error _ t => t) = _
      simp only [EStateM.bind, stateAfter, hrun]
    refine ⟨new ++ later, ?_, fun m hm => (List.mem_append.mp hm).elim (hP m) (hP' m)⟩
    rw [hafter, hlater, ← hfirst, hnew, List.append_assoc]

lemma adaptExcept (h : Writes log P x) (f : ε → ε') :
    Writes log P (EStateM.adaptExcept f x) := by
  intro s
  have hafter : stateAfter (EStateM.adaptExcept f x) s = stateAfter x s := by
    unfold stateAfter EStateM.adaptExcept
    cases x s <;> rfl
  rw [hafter]
  exact h s

end Writes

end AnonGuard
