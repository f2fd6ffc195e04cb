import Bacs.Process.Children

/-!
# The descriptors of a started program

The three moves do not get in each other's way: what was opened for one of the
standard descriptors has a number of its own, above them, and the standard
error is moved last, when the standard output is already the child's.
-/

namespace Bacs.Process

open Foundation

variable {File : Type}

/-- The standard descriptors are open. -/
def Standard (table : DescriptorTable Opened) : Prop :=
  ∀ number, number < 3 → table.entry number ≠ none

/-- What a number stands for, by its meaning for a parent with the table
`base` that has opened `opens` files. -/
def Meaning.Denotes (base : DescriptorTable Opened) (opens : Nat)
    (source : Nat) (descriptor : Descriptor Opened) : Meaning → Prop
  | .inherited number => source = number ∧
      base.entry number = some descriptor
  | .opened path flags => ∃ serial, opens ≤ serial ∧
      descriptor.opened = ⟨serial, path, flags⟩

/-- A number that is to be moved, in a table that has grown from `base`; it is
given up if it was made for this. -/
structure Backed (base table : DescriptorTable Opened) (opens : Nat)
    (meaning : Meaning) (source : Nat) (close : Bool)
    (descriptor : Descriptor Opened) : Prop where
  entry : table.entry source = some descriptor
  own : close = true → base.entry source = none
  borrowed : close = false → meaning = .inherited source
  denotes : meaning.Denotes base opens source descriptor

section Backing

variable {base table grown : DescriptorTable Opened} {opens source : Nat}
  {meaning : Meaning} {close : Bool} {descriptor : Descriptor Opened}

theorem Backed.grow
    (backed : Backed base table opens meaning source close descriptor)
    (grows : table.Grows grown) :
    Backed base grown opens meaning source close descriptor :=
  ⟨grows.kept source descriptor backed.entry, backed.own, backed.borrowed,
    backed.denotes⟩

theorem Backed.above (standard : Standard base)
    (backed : Backed base table opens meaning source close descriptor)
    (owned : close = true) : 3 ≤ source := by
  apply Nat.le_of_not_lt
  intro below
  exact standard source below (backed.own owned)

end Backing

section Lending

variable {kernel : Kernel File} {process : ProcessState} {meaning : Meaning}
  {handle : Handle} {base : DescriptorTable Opened} {opens : Nat}

theorem Lends.grows (lends : Lends kernel process meaning handle) :
    kernel.process.table.Grows process.table := by
  cases lends with
  | inherited number unchanged =>
      rw [unchanged]
      exact .refl _
  | opened path flags serial later changed =>
      rw [changed]
      exact DescriptorTable.grows_update
        kernel.process.table.entry_lowest

/-- What is lent is backed by a number; one that was made for this was
free. -/
theorem Lends.backed (lends : Lends kernel process meaning handle)
    (grows : base.Grows kernel.process.table) (standard : Standard base)
    (least : opens ≤ kernel.opens)
    (bounded : ∀ number, meaning = .inherited number → number < 3) :
    ∃ source close descriptor, handle = ⟨some source, close⟩ ∧
      Backed base process.table opens meaning source close descriptor ∧
      (close = true → kernel.process.table.entry source = none) := by
  cases lends with
  | inherited number unchanged =>
      obtain ⟨descriptor, found⟩ :=
        Option.ne_none_iff_exists'.mp (standard number (bounded number rfl))
      refine ⟨number, false, descriptor, rfl, ⟨?_, ?_, ?_, rfl, found⟩, ?_⟩
      · rw [unchanged]
        exact grows.kept number descriptor found
      · intro owned
        cases owned
      · intro _
        rfl
      · intro owned
        cases owned
  | opened path flags serial later changed =>
      have free := kernel.process.table.entry_lowest
      refine ⟨_, true, ⟨⟨serial, path, flags⟩, true⟩, rfl,
        ⟨?_, ?_, ?_, serial, least.trans later, rfl⟩, fun _ => free⟩
      · rw [changed]
        simp
      · intro _
        cases before : base.entry kernel.process.table.lowest with
        | none => rfl
        | some descriptor =>
            have taken := grows.kept _ descriptor before
            rw [free] at taken
            cases taken
      · intro borrowed
        cases borrowed

end Lending

/-! ## The three moves -/

section Moving

variable {base table : DescriptorTable Opened} {opens : Nat}
  {stdin stdout stderr : Meaning} {input output error : Nat}
  {closeInput closeOutput closeError : Bool}
  {first second third : Descriptor Opened}

/-- What is lent for the three standard descriptors, in the table in which
the child begins. -/
structure Lent (base table : DescriptorTable Opened) (opens : Nat)
    (stdin stdout stderr : Meaning) (input output error : Nat)
    (closeInput closeOutput closeError : Bool)
    (first second third : Descriptor Opened) : Prop where
  standard : Standard base
  grows : base.Grows table
  inputBacked : Backed base table opens stdin input closeInput first
  outputBacked : Backed base table opens stdout output closeOutput second
  errorBacked : Backed base table opens stderr error closeError third
  outputIs : closeOutput = false → output = 1
  errorIs : closeError = false → error = 2 ∨ error = 1
  outputApart : closeInput = true → output ≠ input
  errorApart : closeInput = true → error ≠ input
  errorApart' : closeOutput = true → error ≠ output

def afterOutput (table : DescriptorTable Opened) (input output : Nat)
    (closeInput closeOutput : Bool) : DescriptorTable Opened :=
  (table.install input 0 closeInput).install output 1 closeOutput

variable (lent : Lent base table opens stdin stdout stderr input output error
  closeInput closeOutput closeError first second third)

include lent

theorem Lent.output_pos : 0 < output := by
  cases owned : closeOutput with
  | false => exact lent.outputIs owned ▸ Nat.one_pos
  | true =>
      have := lent.outputBacked.above lent.standard owned
      omega

theorem Lent.error_pos : 0 < error := by
  cases owned : closeError with
  | false => cases lent.errorIs owned <;> omega
  | true =>
      have := lent.errorBacked.above lent.standard owned
      omega

theorem Lent.secondEntry :
    (table.install input 0 closeInput).entry output = some second := by
  rw [DescriptorTable.entry_install_of_ne]
  · exact lent.outputBacked.entry
  · exact Nat.ne_of_gt lent.output_pos
  · intro same
    cases owned : closeInput with
    | false => rfl
    | true => exact absurd same (lent.outputApart owned)

/-- The descriptor 1 is the child's standard output before the standard error
is moved. -/
theorem Lent.outputEntry :
    (afterOutput table input output closeInput closeOutput).entry 1 =
      some ⟨second.opened, false⟩ :=
  DescriptorTable.entry_install_target lent.secondEntry

theorem Lent.errorEntry (notOutput : error ≠ 1) :
    (afterOutput table input output closeInput closeOutput).entry error =
      some third := by
  rw [afterOutput, DescriptorTable.entry_install_of_ne notOutput,
    DescriptorTable.entry_install_of_ne (Nat.ne_of_gt lent.error_pos)]
  · exact lent.errorBacked.entry
  · intro same
    cases owned : closeInput with
    | false => rfl
    | true => exact absurd same (lent.errorApart owned)
  · intro same
    cases owned : closeOutput with
    | false => rfl
    | true => exact absurd same (lent.errorApart' owned)

/-- Whatever is above the standard descriptors is as in the parent, for
another program. -/
theorem Lent.other (number : Nat) (above : 3 ≤ number) :
    ((afterOutput table input output closeInput closeOutput).install error 2
      closeError).executed.entry number = base.executed.entry number := by
  have unused (free : base.entry number = none)
      {moved : DescriptorTable Opened} (gone : moved.entry number = none) :
      moved.executed.entry number = base.executed.entry number := by
    rw [DescriptorTable.entry_executed, DescriptorTable.entry_executed,
      free, gone]
  have same {moved earlier : DescriptorTable Opened}
      (entry : moved.entry number = earlier.entry number) :
      moved.executed.entry number = earlier.executed.entry number := by
    rw [DescriptorTable.entry_executed, DescriptorTable.entry_executed, entry]
  have notInput : number ≠ 0 := by omega
  have notOutput : number ≠ 1 := by omega
  have notError : number ≠ 2 := by omega
  have third : ((afterOutput table input output closeInput
      closeOutput).install error 2 closeError).entry number =
        (afterOutput table input output closeInput closeOutput).entry number ∨
      _ := DescriptorTable.entry_install_cases notError
  have second : (afterOutput table input output closeInput
      closeOutput).entry number =
        (table.install input 0 closeInput).entry number ∨ _ :=
    DescriptorTable.entry_install_cases notOutput
  have first : (table.install input 0 closeInput).entry number =
      table.entry number ∨ _ := DescriptorTable.entry_install_cases notInput
  obtain third | ⟨is, owned, gone⟩ := third
  · rw [same third]
    obtain second | ⟨is, owned, gone⟩ := second
    · rw [same second]
      obtain first | ⟨is, owned, gone⟩ := first
      · rw [same first]
        exact lent.grows.entry_executed number
      · exact unused (is ▸ lent.inputBacked.own owned) gone
    · exact unused (is ▸ lent.outputBacked.own owned) gone
  · exact unused (is ▸ lent.errorBacked.own owned) gone

end Moving

end Bacs.Process
