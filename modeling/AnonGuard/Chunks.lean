import Mathlib.Tactic

/-!
# Lists in chunks of one size

`toChunks` takes `n` elements at a time. All chunks have `n` elements but for the last one,
which has the rest. A list has only one such division.
-/
namespace AnonGuard

section Chunks
variable {α : Type*} {n : ℕ} {xs : List α}

/-- The accumulator loop finishes the open chunk first. -/
lemma toChunks_go (hn : 0 < n) (xs : List α) (chunk : Array α) (chunks : Array (List α))
    (hchunk : chunk.size ≤ n) :
    List.toChunks.go n xs chunk chunks =
      chunks.toList ++ (chunk.toList ++ xs.take (n - chunk.size)) ::
        (xs.drop (n - chunk.size)).toChunks n := by
  obtain ⟨m, rfl⟩ : ∃ m, n = m + 1 := ⟨n - 1, by omega⟩
  induction xs generalizing chunk chunks with
  | nil => simp [List.toChunks.go, List.toChunks]
  | cons x xs ih =>
    have hfirst : (x :: xs).toChunks (m + 1) =
        (x :: xs.take m) :: (xs.drop m).toChunks (m + 1) := by
      have := ih #[x] #[] (by simp)
      simpa [List.toChunks] using this
    unfold List.toChunks.go
    by_cases hfull : chunk.size = m + 1
    · have := ih #[x] (chunks.push chunk.toList) (by simp)
      simp [hfull, this, hfirst]
    · have hroom : m + 1 - chunk.size = (m + 1 - (chunk.size + 1)) + 1 := by omega
      have := ih (chunk.push x) chunks (by simp; omega)
      simp [hfull, this, hroom]

/-- The first chunk, and the chunks of the rest. -/
theorem toChunks_eq (hn : 0 < n) (hxs : xs ≠ []) :
    xs.toChunks n = xs.take n :: (xs.drop n).toChunks n := by
  obtain ⟨m, rfl⟩ : ∃ m, n = m + 1 := ⟨n - 1, by omega⟩
  cases xs with
  | nil => exact absurd rfl hxs
  | cons x xs => simpa [List.toChunks] using toChunks_go hn xs #[x] #[] (by simp)

theorem toChunks_nil : ([] : List α).toChunks n = [] := by simp [List.toChunks]

lemma toChunks_ne_nil (hn : 0 < n) (hxs : xs ≠ []) : xs.toChunks n ≠ [] := by
  rw [toChunks_eq hn hxs]
  exact List.cons_ne_nil _ _

/-- A chunk may be put in front if it is full, or the last one. -/
theorem toChunks_append (hn : 0 < n) {chunk : List α} (hchunk : chunk ≠ [])
    (hsize : chunk.length = n ∨ chunk.length ≤ n ∧ xs = []) :
    (chunk ++ xs).toChunks n = chunk :: xs.toChunks n := by
  rw [toChunks_eq hn (by simp [hchunk])]
  rcases hsize with rfl | ⟨hle, rfl⟩
  · simp
  · have hrest : chunk.drop n = [] := List.drop_eq_nil_of_le hle
    simp [List.take_of_length_le hle, hrest, toChunks_nil]

theorem flatten_toChunks (hn : 0 < n) (xs : List α) : (xs.toChunks n).flatten = xs := by
  induction hlen : xs.length using Nat.strong_induction_on generalizing xs with
  | h len ih =>
    by_cases hxs : xs = []
    · simp [hxs, toChunks_nil]
    · have hpos : 0 < xs.length := List.length_pos_iff.mpr hxs
      rw [toChunks_eq hn hxs, List.flatten_cons,
        ih (xs.drop n).length (by rw [List.length_drop]; omega) _ rfl, List.take_append_drop]

/-- Every chunk starts at a multiple of the size. -/
theorem getElem?_toChunks (hn : 0 < n) (xs : List α) (i : ℕ) :
    (xs.toChunks n)[i]? = if i * n < xs.length then some ((xs.drop (i * n)).take n) else none := by
  induction i generalizing xs with
  | zero =>
    by_cases hxs : xs = []
    · simp [hxs, toChunks_nil]
    · have hpos : 0 < xs.length := List.length_pos_iff.mpr hxs
      rw [toChunks_eq hn hxs]
      simp [hpos]
  | succ i ih =>
    by_cases hxs : xs = []
    · simp [hxs, toChunks_nil]
    · have hmul : (i + 1) * n = n + i * n := by ring
      have hlt : i * n < xs.length - n ↔ n + i * n < xs.length := by omega
      rw [toChunks_eq hn hxs, List.getElem?_cons_succ, ih, List.length_drop, List.drop_drop, hmul]
      simp only [hlt]

lemma lt_length_toChunks (hn : 0 < n) (xs : List α) (i : ℕ) :
    i < (xs.toChunks n).length ↔ i * n < xs.length := by
  rw [← not_iff_not, not_lt, ← List.getElem?_eq_none_iff, getElem?_toChunks hn]
  simp

/-- The number of chunks, rounded up. -/
theorem length_toChunks (hn : 0 < n) (xs : List α) :
    (xs.toChunks n).length = (xs.length + n - 1) / n := by
  have hceil (i : ℕ) : i < (xs.length + n - 1) / n ↔ i * n < xs.length := by
    rw [Nat.lt_iff_add_one_le, Nat.le_div_iff_mul_le hn, Nat.add_mul, Nat.one_mul]
    omega
  exact eq_of_forall_lt_iff fun i => (lt_length_toChunks hn xs i).trans (hceil i).symm

end Chunks

end AnonGuard
