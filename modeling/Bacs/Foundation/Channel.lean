import Mathlib.Algebra.BigOperators.Group.List.Basic
import Mathlib.Algebra.Order.Group.Multiset
import Mathlib.Tactic.Abel

/-!
# Goroutines and channels

A channel holds the values that were sent and not yet received, oldest first.
Sending waits for room, receiving for a value; once a channel is closed, what
it holds can still be received.

The goroutines of one kind are a list of their states.  What they hold
together is a sum over the list, which changes with the one that takes a step.
-/

namespace Bacs.Foundation

structure Channel (Value : Type*) where
  buffer : List Value
  closed : Bool
  deriving DecidableEq, Repr

namespace Channel

variable {Value : Type*} {channel next : Channel Value} {value : Value}

def make : Channel Value :=
  { buffer := [], closed := false }

/-- `none` if the sender has to wait; sending on a closed channel is not a
step of this model. -/
def send (capacity : Nat) (value : Value) (channel : Channel Value) :
    Option (Channel Value) :=
  if channel.closed = false ∧ channel.buffer.length < capacity
  then some { channel with buffer := channel.buffer ++ [value] }
  else none

/-- `none` if the receiver has to wait; no value is received from a channel
that is closed and drained. -/
def receive (channel : Channel Value) :
    Option (Option Value × Channel Value) :=
  match channel.buffer with
  | value :: rest => some (some value, { channel with buffer := rest })
  | [] => if channel.closed then some (none, channel) else none

def close (channel : Channel Value) : Channel Value :=
  { channel with closed := true }

theorem send_spec {capacity : Nat}
    (sent : channel.send capacity value = some next) :
    channel.closed = false ∧
      next = { channel with buffer := channel.buffer ++ [value] } := by
  unfold send at sent
  split at sent
  · rename_i room
    cases sent
    exact ⟨room.1, rfl⟩
  · cases sent

theorem receive_value (received : channel.receive = some (some value, next)) :
    channel.buffer = value :: next.buffer ∧
      next.closed = channel.closed := by
  unfold receive at received
  split at received
  · cases received
    constructor
    · assumption
    · rfl
  · split at received <;> cases received

theorem receive_closed (received : channel.receive = some (none, next)) :
    channel.buffer = [] ∧ channel.closed = true ∧ next = channel := by
  unfold receive at received
  split at received
  · cases received
  · split at received
    · rename_i drained closed
      cases received
      exact ⟨drained, closed, rfl⟩
    · cases received

theorem receive_waits (waits : channel.receive = none) :
    channel.buffer = [] ∧ channel.closed = false := by
  unfold receive at waits
  split at waits
  · cases waits
  · rename_i drained
    split at waits
    · cases waits
    · rename_i unclosed
      exact ⟨drained, by simpa using unclosed⟩

end Channel

/-! ## Goroutines -/

/-- What holds of all goroutines still does when one of them takes a step. -/
theorem forall_mem_set {Process : Type*} {processes : List Process}
    {index : Nat} {after : Process} {holds : Process → Prop}
    (all : ∀ process ∈ processes, holds process) (here : holds after) :
    ∀ process ∈ processes.set index after, holds process := by
  intro process member
  obtain member | same := List.mem_or_eq_of_mem_set member
  · exact all process member
  · rw [same]
    exact here

/-- Where the step of a goroutine does not lead, somebody was before. -/
theorem mem_of_mem_set {Process : Type*} {processes : List Process}
    {index : Nat} {process after : Process} (different : after ≠ process)
    (member : process ∈ processes.set index after) :
    process ∈ processes := by
  obtain member | same := List.mem_or_eq_of_mem_set member
  · exact member
  · exact absurd same.symm different

section Goroutines

variable {Process Total : Type*} [AddCommMonoid Total]
  {processes : List Process} {index : Nat} {before : Process}

/-- When one goroutine takes a step, the sum changes by what it holds. -/
theorem sum_map_set (holds : Process → Total) (after : Process)
    (there : processes[index]? = some before) :
    ((processes.set index after).map holds).sum + holds before =
      (processes.map holds).sum + holds after := by
  induction processes generalizing index with
  | nil => simp at there
  | cons first rest induction =>
      cases index with
      | zero =>
          have same : first = before := by simpa using there
          subst same
          simp only [List.set_cons_zero, List.map_cons, List.sum_cons]
          abel
      | succ index =>
          have inside : rest[index]? = some before := by simpa using there
          have kept := induction inside
          simp only [List.set_cons_succ, List.map_cons, List.sum_cons]
          rw [add_assoc, kept, add_assoc]

variable [IsCancelAdd Total] {gain : Total} {after : Process}

theorem sum_map_set_gain (holds : Process → Total)
    (there : processes[index]? = some before)
    (more : holds after = holds before + gain) :
    ((processes.set index after).map holds).sum =
      (processes.map holds).sum + gain := by
  have moved := sum_map_set holds after there
  rw [more, ← add_assoc, add_right_comm] at moved
  exact add_right_cancel moved

theorem sum_map_set_loss (holds : Process → Total)
    (there : processes[index]? = some before)
    (less : holds before = holds after + gain) :
    (processes.map holds).sum =
      ((processes.set index after).map holds).sum + gain := by
  have moved := sum_map_set holds after there
  rw [less, ← add_assoc, add_right_comm] at moved
  exact (add_right_cancel moved).symm

theorem sum_map_set_same (holds : Process → Total)
    (there : processes[index]? = some before)
    (same : holds after = holds before) :
    ((processes.set index after).map holds).sum =
      (processes.map holds).sum := by
  have moved := sum_map_set holds after there
  rw [same] at moved
  exact add_right_cancel moved

end Goroutines

end Bacs.Foundation
