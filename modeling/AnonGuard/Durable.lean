import Mathlib.Tactic

/-!
# A value in memory and its copy in a file

A program writes each new value to a file before it publishes it in memory. The
write may fail before or after the file is replaced, and a restart reads the
file back. If every new value extends the one in memory, then whatever
extensions keep survives every such history.
-/
namespace AnonGuard

/-- The outcome of replacing a file. An error may come before the replacement or
after it. -/
inductive WriteResult
  | done
  | failedBefore (error : String)
  | failedAfter (error : String)
  deriving DecidableEq, Repr

section
variable {α : Type*}

/-- The contents of the file after an attempt to replace `old` by `new`. -/
def WriteResult.contents (r : WriteResult) (old new : α) : α :=
  match r with
  | done | failedAfter _ => new
  | failedBefore _ => old

/-- The value in memory after the attempt. -/
def WriteResult.published (r : WriteResult) (old new : α) : α :=
  match r with
  | done => new
  | failedBefore _ | failedAfter _ => old

lemma WriteResult.map_contents {β : Type*} (f : α → β) (r : WriteResult) (old new : α) :
    f (r.contents old new) = r.contents (f old) (f new) := by
  cases r <;> rfl

lemma WriteResult.map_published {β : Type*} (f : α → β) (r : WriteResult) (old new : α) :
    f (r.published old new) = r.published (f old) (f new) := by
  cases r <;> rfl

structure Durable (α : Type*) where
  memory : α
  file : α

namespace Durable

/-- The histories of a durable value whose writes extend it by `R`. -/
inductive Step (R : α → α → Prop) : Durable α → Durable α → Prop
  | skip (d : Durable α) : Step R d d
  | write (d : Durable α) (next : α) (r : WriteResult) (h : R d.memory next) :
      Step R d ⟨r.published d.memory next, r.contents d.file next⟩
  | restart (d : Durable α) : Step R d ⟨d.file, d.file⟩

/-- A property that holds in both places. -/
def Holds (P : α → Prop) (d : Durable α) : Prop := P d.memory ∧ P d.file

variable {R : α → α → Prop} {P : α → Prop} {d d' : Durable α}

/-- What extension keeps, no failed write and no restart loses. -/
theorem Holds.step (h : d.Holds P) (hP : ∀ a b, P a → R a b → P b) (hs : Step R d d') :
    d'.Holds P := by
  obtain ⟨hmemory, hfile⟩ := h
  cases hs with
  | skip => exact ⟨hmemory, hfile⟩
  | write next r hR =>
    have hnext := hP _ _ hmemory hR
    cases r with
    | done => exact ⟨hnext, hnext⟩
    | failedBefore => exact ⟨hmemory, hfile⟩
    | failedAfter => exact ⟨hmemory, hnext⟩
  | restart => exact ⟨hfile, hfile⟩

/-- The file always extends the value in memory. -/
theorem Step.covers (hs : Step R d d') (hrefl : ∀ a, R a a) (h : R d.memory d.file) :
    R d'.memory d'.file := by
  cases hs with
  | skip => exact h
  | write next r hR =>
    cases r with
    | done => exact hrefl next
    | failedBefore => exact h
    | failedAfter => exact hR
  | restart => exact hrefl _

end Durable

end

end AnonGuard
