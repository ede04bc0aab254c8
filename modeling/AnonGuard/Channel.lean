import Mathlib.Tactic

/-!
# Bounded single-producer channels

A channel is a bounded queue with one flag for each end. A sender that finds the
receiver gone gets `closed`, and a receiver that finds the queue empty learns
whether more can come. Dropping an end clears its flag and keeps the queue.
-/
namespace AnonGuard

structure Channel (α : Type) where
  queue : List α
  capacity : ℕ
  senderOpen : Bool
  receiverOpen : Bool
  deriving DecidableEq, Repr

inductive TrySendError
  | full
  | closed
  deriving DecidableEq, Repr

inductive TryRecvError
  | empty
  | disconnected
  deriving DecidableEq, Repr

namespace Channel
variable {α : Type}

def new (capacity : ℕ) : Channel α := ⟨[], capacity, true, true⟩

def trySend (c : Channel α) (a : α) : Except TrySendError (Channel α) :=
  if c.receiverOpen = false then .error .closed
  else if c.capacity ≤ c.queue.length then .error .full
  else .ok { c with queue := c.queue ++ [a] }

def tryRecv (c : Channel α) : Except TryRecvError (α × Channel α) :=
  match c.queue with
  | a :: rest => .ok (a, { c with queue := rest })
  | [] => if c.senderOpen then .error .empty else .error .disconnected

def dropSender (c : Channel α) : Channel α := { c with senderOpen := false }
def dropReceiver (c : Channel α) : Channel α := { c with receiverOpen := false }

@[simp] theorem senderOpen_dropSender (c : Channel α) : c.dropSender.senderOpen = false := rfl

theorem trySend_eq_ok {c c' : Channel α} {a : α} : c.trySend a = .ok c' ↔
    c.receiverOpen = true ∧ c.queue.length < c.capacity ∧
      c' = { c with queue := c.queue ++ [a] } := by
  unfold trySend
  split_ifs with h1 h2
  · simp [h1]
  · simp [h2]
  · simp only [Except.ok.injEq]
    constructor
    · rintro rfl
      exact ⟨by simpa using h1, by omega, rfl⟩
    · rintro ⟨_, _, rfl⟩
      rfl

theorem tryRecv_eq_ok {c c' : Channel α} {a : α} : c.tryRecv = .ok (a, c') ↔
    ∃ rest, c.queue = a :: rest ∧ c' = { c with queue := rest } := by
  unfold tryRecv
  split
  · rename_i b rest hq
    simp only [Except.ok.injEq, Prod.mk.injEq, hq, List.cons.injEq]
    constructor
    · rintro ⟨rfl, rfl⟩
      exact ⟨rest, ⟨rfl, rfl⟩, rfl⟩
    · rintro ⟨_, ⟨rfl, rfl⟩, rfl⟩
      exact ⟨rfl, rfl⟩
  · rename_i hq
    split_ifs <;> simp [hq]

theorem tryRecv_eq_disconnected {c : Channel α} : c.tryRecv = .error .disconnected ↔
    c.queue = [] ∧ c.senderOpen = false := by
  unfold tryRecv
  split <;> rename_i hq
  · simp [hq]
  · split_ifs with h <;> simp [hq, h]

theorem tryRecv_eq_empty {c : Channel α} : c.tryRecv = .error .empty ↔
    c.queue = [] ∧ c.senderOpen = true := by
  unfold tryRecv
  split <;> rename_i hq
  · simp [hq]
  · split_ifs with h <;> simp [hq, h]

end Channel

end AnonGuard
