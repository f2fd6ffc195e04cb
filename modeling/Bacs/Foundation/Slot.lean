/-!
# Files with a serialised message
-/

namespace Bacs

/-- A file with a serialised message: it may be missing, and a file that does
exist may not be readable as a message. -/
inductive Slot (α : Type) where
  | absent
  | garbled
  | value (message : α)
  deriving DecidableEq, Repr

def Slot.read {α : Type} : Slot α → Option α
  | .absent => none
  | .garbled => none
  | .value message => some message

theorem Slot.read_eq_some {α : Type} {slot : Slot α} {message : α} :
    slot.read = some message ↔ slot = .value message := by
  cases slot <;> simp [Slot.read]

end Bacs
