import Mathlib.Data.Nat.Find
import Mathlib.Logic.Function.Basic

/-!
# Descriptor tables

A process reaches what it has opened by small numbers.  What is opened gets
the lowest number that is free.  When another program is started in the
process, it finds the descriptors that are not marked to be closed then.
-/

namespace Bacs.Foundation

/-- What a number stands for, and whether it is closed when another program
is started. -/
structure Descriptor (Opened : Type) where
  opened : Opened
  closeOnExec : Bool
  deriving DecidableEq, Repr

/-- The descriptors of a process: finitely many numbers are in use. -/
@[ext] structure DescriptorTable (Opened : Type) where
  entry : Nat → Option (Descriptor Opened)
  bounded : ∃ bound, ∀ number, bound ≤ number → entry number = none

namespace DescriptorTable

variable {Opened : Type}

theorem exists_free (table : DescriptorTable Opened) :
    ∃ number, (table.entry number).isNone = true := by
  obtain ⟨bound, unused⟩ := table.bounded
  exact ⟨bound, by simp [unused bound (Nat.le_refl bound)]⟩

def lowest (table : DescriptorTable Opened) : Nat :=
  Nat.find table.exists_free

@[simp] theorem entry_lowest (table : DescriptorTable Opened) :
    table.entry table.lowest = none :=
  Option.isNone_iff_eq_none.mp (Nat.find_spec table.exists_free)

/-- Give a number another meaning, or none. -/
def update (table : DescriptorTable Opened) (number : Nat)
    (descriptor : Option (Descriptor Opened)) : DescriptorTable Opened where
  entry := Function.update table.entry number descriptor
  bounded := by
    obtain ⟨bound, unused⟩ := table.bounded
    refine ⟨max bound (number + 1), ?_⟩
    intro other beyond
    have different : other ≠ number := by omega
    rw [Function.update_of_ne different]
    exact unused other (by omega)

section Updating

variable {table : DescriptorTable Opened} {number other : Nat}
  {descriptor : Option (Descriptor Opened)}

@[simp] theorem entry_update :
    (table.update number descriptor).entry number = descriptor := by
  simp [update]

theorem entry_update_of_ne (different : other ≠ number) :
    (table.update number descriptor).entry other = table.entry other := by
  simp [update, different]

theorem entry_update_eq :
    (table.update number descriptor).entry other =
      if other = number then descriptor else table.entry other := by
  by_cases same : other = number
  · subst same
    simp
  · rw [entry_update_of_ne same, if_neg same]

@[simp] theorem update_update {later : Option (Descriptor Opened)} :
    (table.update number descriptor).update number later =
      table.update number later := by
  ext1
  simp [update]

theorem update_entry (same : table.entry number = descriptor) :
    table.update number descriptor = table := by
  ext1
  simp [update, ← same]

end Updating

def close (table : DescriptorTable Opened) (number : Nat) :
    DescriptorTable Opened :=
  table.update number none

/-- What is opened under a free number and closed again leaves nothing. -/
theorem close_update {table : DescriptorTable Opened} {number : Nat}
    {descriptor : Option (Descriptor Opened)}
    (free : table.entry number = none) :
    (table.update number descriptor).close number = table := by
  rw [close, update_update, update_entry free]

/-- Mark a descriptor to be closed when another program is started, or to be
kept. -/
def mark (table : DescriptorTable Opened) (number : Nat)
    (closeOnExec : Bool) : DescriptorTable Opened :=
  table.update number
    ((table.entry number).map fun descriptor =>
      { descriptor with closeOnExec := closeOnExec })

def executed (table : DescriptorTable Opened) : DescriptorTable Opened where
  entry number := (table.entry number).filter (! ·.closeOnExec)
  bounded := by
    obtain ⟨bound, unused⟩ := table.bounded
    refine ⟨bound, ?_⟩
    intro number beyond
    rw [unused number beyond, Option.filter_none]

theorem entry_executed {table : DescriptorTable Opened} {number : Nat} :
    table.executed.entry number =
      (table.entry number).filter (! ·.closeOnExec) :=
  rfl

theorem entry_executed_of_kept {table : DescriptorTable Opened}
    {number : Nat} {opened : Opened}
    (kept : table.entry number = some ⟨opened, false⟩) :
    table.executed.entry number = some ⟨opened, false⟩ := by
  simp [entry_executed, kept]

/-! ## Moving -/

/-- What a number stands for gets the number `target` and is kept when another
program is started; its own number may be given up. -/
def install (table : DescriptorTable Opened) (source target : Nat)
    (giveUp : Bool) : DescriptorTable Opened :=
  if source = target then table.mark target false
  else
    let copied := table.update target
      ((table.entry source).map fun descriptor =>
        { descriptor with closeOnExec := false })
    if giveUp then copied.close source else copied

section Installing

variable {table : DescriptorTable Opened} {source target number : Nat}
  {giveUp : Bool} {descriptor : Descriptor Opened}

theorem entry_install_target (found : table.entry source = some descriptor) :
    (table.install source target giveUp).entry target =
      some ⟨descriptor.opened, false⟩ := by
  unfold install
  by_cases same : source = target
  · subst same
    simp [mark, found]
  · have different : target ≠ source := fun equal => same equal.symm
    cases giveUp with
    | false => simp [same, found]
    | true => simp [same, found, close, entry_update_of_ne different]

theorem entry_install_of_ne (notTarget : number ≠ target)
    (kept : number = source → giveUp = false) :
    (table.install source target giveUp).entry number =
      table.entry number := by
  unfold install
  by_cases same : source = target
  · simp [same, mark, entry_update_of_ne notTarget]
  · cases giveUp with
    | false => simp [same, entry_update_of_ne notTarget]
    | true =>
        have notSource : number ≠ source := by
          intro equal
          cases kept equal
        simp [same, close, entry_update_of_ne notTarget,
          entry_update_of_ne notSource]

theorem entry_install_source (notTarget : source ≠ target) :
    (table.install source target true).entry source = none := by
  simp [install, notTarget, close]

theorem entry_install_cases (notTarget : number ≠ target) :
    (table.install source target giveUp).entry number = table.entry number ∨
      number = source ∧ giveUp = true ∧
        (table.install source target giveUp).entry number = none := by
  by_cases givenUp : number = source ∧ giveUp = true
  · obtain ⟨rfl, rfl⟩ := givenUp
    exact .inr ⟨rfl, rfl, entry_install_source notTarget⟩
  · left
    apply entry_install_of_ne notTarget
    intro same
    cases giveUp with
    | false => rfl
    | true => exact absurd ⟨same, rfl⟩ givenUp

/-- The copy may be marked until the own number is given up. -/
theorem install_of_copy (found : table.entry source = some descriptor)
    (notTarget : source ≠ target) (marked : Bool) :
    (if giveUp then
        (table.update target (some ⟨descriptor.opened, marked⟩)).close source
      else table.update target (some ⟨descriptor.opened, marked⟩)).mark
        target false = table.install source target giveUp := by
  have different : target ≠ source := fun equal => notTarget equal.symm
  ext1
  funext number
  rw [mark, entry_update_eq]
  by_cases isTarget : number = target
  · rw [isTarget, if_pos rfl, entry_install_target found]
    cases giveUp with
    | false => simp
    | true => simp [close, entry_update_of_ne different]
  · rw [if_neg isTarget]
    cases giveUp with
    | false => simp [install, notTarget, entry_update_of_ne isTarget]
    | true => simp [install, notTarget, close, entry_update_eq, isTarget]

end Installing

/-! ## Growing -/

/-- Numbers were given to what other programs do not find, and nothing else
has changed. -/
structure Grows (table grown : DescriptorTable Opened) : Prop where
  kept : ∀ number descriptor, table.entry number = some descriptor →
    grown.entry number = some descriptor
  marked : ∀ number descriptor, table.entry number = none →
    grown.entry number = some descriptor → descriptor.closeOnExec = true

theorem Grows.refl (table : DescriptorTable Opened) : table.Grows table := by
  constructor
  · intro number descriptor found
    exact found
  · intro number descriptor free found
    rw [free] at found
    cases found

theorem Grows.trans {first second third : DescriptorTable Opened}
    (head : first.Grows second) (tail : second.Grows third) :
    first.Grows third := by
  constructor
  · intro number descriptor found
    exact tail.kept number descriptor (head.kept number descriptor found)
  · intro number descriptor free found
    cases between : second.entry number with
    | none => exact tail.marked number descriptor between found
    | some given =>
        rw [tail.kept number given between] at found
        obtain rfl := Option.some.inj found
        exact head.marked number given free between

theorem grows_update {table : DescriptorTable Opened} {number : Nat}
    {opened : Opened} (free : table.entry number = none) :
    table.Grows (table.update number (some ⟨opened, true⟩)) := by
  constructor
  · intro other descriptor found
    have different : other ≠ number := by
      rintro rfl
      rw [free] at found
      cases found
    rw [entry_update_of_ne different, found]
  · intro other descriptor unused found
    rw [entry_update_eq] at found
    split at found
    · cases found
      rfl
    · rw [unused] at found
      cases found

theorem Grows.entry_executed {table grown : DescriptorTable Opened}
    (grows : table.Grows grown) (number : Nat) :
    grown.executed.entry number = table.executed.entry number := by
  rw [DescriptorTable.entry_executed, DescriptorTable.entry_executed]
  cases before : table.entry number with
  | some descriptor => rw [grows.kept number descriptor before]
  | none =>
      cases after : grown.entry number with
      | none => rfl
      | some descriptor =>
          simp [grows.marked number descriptor before after]

end DescriptorTable

end Bacs.Foundation
