import Mathlib.Logic.Function.Basic

/-!
# Exclusive holders

A table tells who holds what.  Every holder can hold one thing, its own key,
and holds it as long as the table says so.
-/

namespace Bacs.Foundation

variable {Key Holder : Type*}

def Holds (key : Holder → Key) (table : Key → Option Holder)
    (holder : Holder) : Prop :=
  table (key holder) = some holder

/-- Nobody is in the table under a key that is not its own. -/
def Keyed (key : Holder → Key) (table : Key → Option Holder) : Prop :=
  ∀ place holder, table place = some holder → key holder = place

variable {key : Holder → Key} {table : Key → Option Holder}
  {holder other : Holder}

namespace Holds

theorem unique (first : Holds key table holder)
    (second : Holds key table other) (same : key holder = key other) :
    holder = other := by
  have found : table (key holder) = some other := same ▸ second
  exact Option.some.inj (first.symm.trans found)

variable [DecidableEq Key]

theorem take_iff (free : table (key holder) = none) (other : Holder) :
    Holds key (Function.update table (key holder) (some holder)) other ↔
      other = holder ∨ Holds key table other := by
  unfold Holds
  by_cases same : key other = key holder
  · rw [same, Function.update_self, free]
    simp [eq_comm]
  · have different : other ≠ holder := fun equal => same (equal ▸ rfl)
    simp [same, different]

theorem release_iff (held : Holds key table holder) (other : Holder) :
    Holds key (Function.update table (key holder) none) other ↔
      other ≠ holder ∧ Holds key table other := by
  by_cases same : key other = key holder
  · constructor
    · intro holds
      rw [Holds, same, Function.update_self] at holds
      cases holds
    · rintro ⟨different, holds⟩
      exact absurd (unique holds held same) different
  · have different : other ≠ holder := fun equal => same (equal ▸ rfl)
    simp [Holds, same, different]

end Holds

namespace Keyed

theorem holds {place : Key} (keyed : Keyed key table)
    (found : table place = some holder) : Holds key table holder := by
  rw [Holds, keyed place holder found, found]

variable [DecidableEq Key]

theorem take (keyed : Keyed key table) (holder : Holder) :
    Keyed key (Function.update table (key holder) (some holder)) := by
  intro place other found
  by_cases same : place = key holder
  · rw [same, Function.update_self] at found
    rw [same, Option.some.inj found]
  · rw [Function.update_of_ne same] at found
    exact keyed place other found

theorem release (keyed : Keyed key table) (place : Key) :
    Keyed key (Function.update table place none) := by
  intro other holder found
  by_cases same : other = place
  · rw [same, Function.update_self] at found
    cases found
  · rw [Function.update_of_ne same] at found
    exact keyed other holder found

end Keyed

end Bacs.Foundation
