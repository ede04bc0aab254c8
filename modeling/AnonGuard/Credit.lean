import Mathlib.Data.List.Pairwise
import Mathlib.Tactic

/-!
# Cumulative acknowledgements in order

A receiver counts what it has received and reports the count from time to time.
The reports under way, from the one that arrives next to the one issued last, go
up and stay above what the sender has accepted. A report that replaces an older
one leaves a sublist.
-/
namespace AnonGuard

/-- The reports under way from a receiver that has counted `received` to a sender
that has accepted `acknowledged`. -/
structure Credited (acknowledged received : ℕ) (reports : List ℕ) : Prop where
  ascending : (acknowledged :: reports).Pairwise (· < ·)
  bounded : ∀ v ∈ acknowledged :: reports, v ≤ received

namespace Credited
variable {a r : ℕ} {reports reports' : List ℕ}

theorem start : Credited 0 0 [] := ⟨List.pairwise_singleton _ _, by simp⟩

theorem acknowledged_le (h : Credited a r reports) : a ≤ r := h.bounded a List.mem_cons_self

/-- Reports may be dropped on the way. -/
theorem sublist (h : Credited a r reports) (hsub : reports'.Sublist reports) :
    Credited a r reports' :=
  ⟨h.ascending.sublist (hsub.cons_cons a),
    fun v hv => h.bounded v ((hsub.cons_cons a).subset hv)⟩

/-- The receiver counts one more and reports it. -/
theorem count (h : Credited a r reports) : Credited a (r + 1) (reports ++ [r + 1]) := by
  refine ⟨?_, fun v hv => ?_⟩
  · rw [← List.cons_append, List.pairwise_append]
    refine ⟨h.ascending, List.pairwise_singleton _ _, fun v hv w hw => ?_⟩
    rw [List.mem_singleton.mp hw]
    exact Nat.lt_succ_of_le (h.bounded v hv)
  · rw [← List.cons_append, List.mem_append] at hv
    rcases hv with hv | hv
    · exact (h.bounded v hv).trans (Nat.le_succ r)
    · rw [List.mem_singleton.mp hv]

/-- The next report is above what has been accepted and not above what was counted. -/
theorem next {v : ℕ} (h : Credited a r (v :: reports)) : a < v ∧ v ≤ r :=
  ⟨(List.pairwise_cons.mp h.ascending).1 v List.mem_cons_self,
    h.bounded v (List.mem_cons_of_mem a List.mem_cons_self)⟩

/-- The sender accepts the next report. -/
theorem accept {v : ℕ} (h : Credited a r (v :: reports)) : Credited v r reports :=
  ⟨(List.pairwise_cons.mp h.ascending).2, fun w hw => h.bounded w (List.mem_cons_of_mem a hw)⟩

end Credited

end AnonGuard
