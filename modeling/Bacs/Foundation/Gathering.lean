import Mathlib.Data.List.Induction
import Mathlib.Logic.Function.Basic

/-!
# Gathering values under keys

Values are gathered under a key, or everything under a key is dropped.  What a
key has is what was gathered under it since it was last dropped.
-/

namespace Bacs.Foundation

variable {Key Value : Type*}

inductive Gathering (Key Value : Type*) where
  | gather (key : Key) (values : List Value)
  | drop (key : Key)

namespace Gathering

variable [DecidableEq Key]

/-- A key without a group differs from one whose group is empty. -/
def apply (groups : Key → Option (List Value)) :
    Gathering Key Value → Key → Option (List Value)
  | .gather key values =>
      Function.update groups key (some ((groups key).getD [] ++ values))
  | .drop key => Function.update groups key none

def perform (events : List (Gathering Key Value)) :
    Key → Option (List Value) :=
  events.foldl apply fun _ => none

def drops (key : Key) : Gathering Key Value → Bool
  | .gather .. => false
  | .drop dropped => dropped == key

def gathers (key : Key) : Gathering Key Value → Option (List Value)
  | .gather other values => if other = key then some values else none
  | .drop _ => none

/-- The groups of values gathered under a key since it was last dropped. -/
def since (key : Key) (events : List (Gathering Key Value)) :
    List (List Value) :=
  ((events.reverse.takeWhile fun event => !drops key event).reverse).filterMap
    (gathers key)

@[simp] theorem perform_nil (key : Key) :
    perform ([] : List (Gathering Key Value)) key = none :=
  rfl

@[simp] theorem since_nil (key : Key) :
    since key ([] : List (Gathering Key Value)) = [] :=
  rfl

theorem perform_append (events : List (Gathering Key Value))
    (event : Gathering Key Value) :
    perform (events ++ [event]) = apply (perform events) event := by
  simp [perform]

theorem since_append (key : Key) (events : List (Gathering Key Value))
    (event : Gathering Key Value) :
    since key (events ++ [event]) =
      if drops key event then []
      else since key events ++ (gathers key event).toList := by
  cases dropped : drops key event with
  | true => simp [since, dropped]
  | false =>
      cases gathered : gathers key event with
      | none => simp [since, dropped, gathered]
      | some values => simp [since, dropped, gathered]

/-- A key has what was gathered under it since it was last dropped, in that
order. -/
theorem perform_eq (events : List (Gathering Key Value)) (key : Key) :
    perform events key =
      if since key events = [] then none
      else some (since key events).flatten := by
  induction events using List.reverseRecOn with
  | nil => rfl
  | append_singleton events event ih =>
      rw [perform_append, since_append]
      cases event with
      | gather other values =>
          by_cases same : other = key
          · subst same
            simp only [apply, Function.update_self, ih, drops, gathers]
            split <;> simp_all
          · have apart : key ≠ other := fun equal => same equal.symm
            simpa [apply, apart, drops, gathers, same] using ih
      | drop dropped =>
          by_cases same : dropped = key
          · simp [apply, drops, same]
          · have apart : key ≠ dropped := fun equal => same equal.symm
            simpa [apply, apart, drops, gathers, same] using ih

end Gathering

end Bacs.Foundation
