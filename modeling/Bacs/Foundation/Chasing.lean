import Mathlib.Data.Finset.Card

/-!
# Chasing a chain of links

Each element has at most one next element.  A chain either ends at an element
that has none, or never ends; it never ends once an element comes again.
-/

namespace Bacs.Foundation

variable {Element : Type*}

/-- The element that many links after the first one. -/
def chain (next : Element → Option Element) (start : Element) :
    Nat → Option Element
  | 0 => some start
  | length + 1 => (chain next start length).bind next

def NeverEnds (next : Element → Option Element) (start : Element) : Prop :=
  ∀ length, chain next start length ≠ none

def EndsAt (next : Element → Option Element) (start last : Element) : Prop :=
  ∃ length, chain next start length = some last ∧ next last = none

variable {next : Element → Option Element} {start last other : Element}

theorem chain_add (length more : Nat) :
    chain next start (length + more) =
      (chain next start length).bind (chain next · more) := by
  induction more with
  | zero => simp [chain]
  | succ more ih => simp [chain, ih, Option.bind_assoc]

theorem chain_none {length : Nat}
    (ended : chain next start length = none) (more : Nat) :
    chain next start (length + more) = none := by
  rw [chain_add, ended, Option.bind_none]

theorem EndsAt.not_neverEnds (ends : EndsAt next start last) :
    ¬ NeverEnds next start := by
  obtain ⟨length, reached, stops⟩ := ends
  intro endless
  exact endless (length + 1) (by simp [chain, reached, stops])

theorem EndsAt.unique (ends : EndsAt next start last)
    (otherEnds : EndsAt next start other) : last = other := by
  obtain ⟨length, reached, stops⟩ := ends
  obtain ⟨otherLength, otherReached, otherStops⟩ := otherEnds
  have stopped : chain next start (length + 1) = none := by
    simp [chain, reached, stops]
  have otherStopped : chain next start (otherLength + 1) = none := by
    simp [chain, otherReached, otherStops]
  obtain shorter | rfl | longer := Nat.lt_trichotomy length otherLength
  · obtain ⟨more, rfl⟩ := Nat.exists_eq_add_of_lt shorter
    have impossible := chain_none stopped more
    rw [Nat.add_right_comm, otherReached] at impossible
    cases impossible
  · exact Option.some.inj (reached.symm.trans otherReached)
  · obtain ⟨more, rfl⟩ := Nat.exists_eq_add_of_lt longer
    have impossible := chain_none otherStopped more
    rw [Nat.add_right_comm, reached] at impossible
    cases impossible

/-- A chain that comes back to an element goes round for ever. -/
theorem neverEnds_of_repeated {early late : Nat} {element : Element}
    (before : early < late)
    (first : chain next start early = some element)
    (again : chain next start late = some element) :
    NeverEnds next start := by
  intro length
  induction length using Nat.strong_induction_on with
  | _ length ih =>
      intro ended
      obtain short | long := Nat.lt_or_ge length late
      · obtain ⟨more, rfl⟩ := Nat.exists_eq_add_of_lt short
        have impossible := chain_none ended (more + 1)
        rw [← Nat.add_assoc, again] at impossible
        cases impossible
      · obtain ⟨more, rfl⟩ := Nat.exists_eq_add_of_le long
        rw [chain_add, again, Option.bind_some] at ended
        refine ih (early + more) (by omega) ?_
        rw [chain_add, first, Option.bind_some, ended]

end Bacs.Foundation
