import Mathlib.Tactic

/-!
# Pipes with a history

A pipe remembers everything that was written to it and how much of that has been
taken out. What has been taken is always the beginning of what was written. The
second part is about streams of blocks of one size: a stream that agrees with
another one up to some point agrees with it block by block.
-/
namespace AnonGuard

structure Pipe (α : Type*) where
  written : List α
  taken : ℕ
  taken_le : taken ≤ written.length

namespace Pipe
variable {α : Type*}

def empty : Pipe α := ⟨[], 0, le_refl _⟩

/-- What has been taken out. -/
def consumed (p : Pipe α) : List α := p.written.take p.taken

/-- What is still inside. -/
def buffered (p : Pipe α) : List α := p.written.drop p.taken

def push (p : Pipe α) (l : List α) : Pipe α where
  written := p.written ++ l
  taken := p.taken
  taken_le := by
    have := p.taken_le
    rw [List.length_append]
    omega

/-- Take out up to `n` elements. -/
def pull (p : Pipe α) (n : ℕ) : Pipe α where
  written := p.written
  taken := min (p.taken + n) p.written.length
  taken_le := Nat.min_le_right _ _

variable (p : Pipe α)

@[simp] theorem consumed_append_buffered : p.consumed ++ p.buffered = p.written :=
  List.take_append_drop _ _

theorem consumed_isPrefix : p.consumed <+: p.written := List.take_prefix _ _

@[simp] theorem written_push (l : List α) : (p.push l).written = p.written ++ l := rfl
@[simp] theorem consumed_push (l : List α) : (p.push l).consumed = p.consumed := by
  simp only [consumed, push]
  rw [List.take_append_of_le_length p.taken_le]

@[simp] theorem consumed_pull (n : ℕ) :
    (p.pull n).consumed = p.consumed ++ p.buffered.take n := by
  simp only [consumed, pull, buffered]
  rw [← List.take_add, List.take_eq_take_iff, min_assoc, min_self]

/-- The next element goes out first. -/
theorem consumed_pull_one {a : α} {rest : List α} (h : p.buffered = a :: rest) :
    (p.pull 1).consumed = p.consumed ++ [a] := by
  rw [consumed_pull, h]
  rfl

end Pipe

section Blocks
variable {α : Type*} {n : ℕ} {blocks blocks' : List (List α)} {rest : List α}

/-- Blocks of one size can be read off their concatenation. -/
theorem blocks_isPrefix_of_flatten (hn : 0 < n) (h : ∀ b ∈ blocks, b.length = n)
    (h' : ∀ b ∈ blocks', b.length = n) (hflat : blocks.flatten ++ rest <+: blocks'.flatten) :
    blocks <+: blocks' := by
  induction blocks generalizing blocks' with
  | nil => exact List.nil_prefix
  | cons b bs ih =>
    have hb : b.length = n := h b (by simp)
    cases blocks' with
    | nil =>
      have hle := hflat.length_le
      simp only [List.flatten_cons, List.length_append, List.flatten_nil, List.length_nil] at hle
      omega
    | cons c =>
      have hc : c.length = n := h' c (by simp)
      obtain ⟨tail, htail⟩ := hflat
      simp only [List.flatten_cons, List.append_assoc] at htail
      obtain ⟨rfl, hrest⟩ := List.append_inj htail (hb.trans hc.symm)
      refine List.cons_prefix_cons.mpr ⟨rfl, ih (fun x hx => h x (by simp [hx]))
        (fun x hx => h' x (by simp [hx])) ⟨tail, ?_⟩⟩
      rw [List.append_assoc]
      exact hrest

end Blocks

end AnonGuard
