import Bacs.Process.Lending

/-!
# Children

The child moves what it was lent to the standard descriptors, one after the
other.  Taking the flags of what is opened for those of the descriptor does no
harm: whatever they are, the descriptor is kept afterwards.
-/

namespace Bacs.Process

open Foundation

variable {File : Type} {world : World File} {kernel next final : Kernel File}
  {number : Nat}

/-- Only the state of the process may have changed. -/
structure Kernel.Inside (kernel next : Kernel File) : Prop where
  drawn : next.drawn = kernel.drawn
  images : next.images = kernel.images

theorem Kernel.Inside.trans (first : kernel.Inside next)
    (second : next.Inside final) : kernel.Inside final :=
  ⟨second.drawn.trans first.drawn, second.images.trans first.images⟩

theorem Kernel.inside_called (kernel : Kernel File) :
    kernel.Inside kernel.called :=
  ⟨rfl, rfl⟩

theorem Kernel.Turns.inside {process : ProcessState}
    (turns : kernel.Turns process next) : kernel.Inside next :=
  ⟨turns.drawn, turns.images⟩

/-- The bit of `FD_CLOEXEC` is taken out of any flags. -/
theorem not_has_fdCloexec (flags : Flags) :
    (flags &&& ~~~Flags.fdCloexec).has .fdCloexec = false := by
  have disjoint : ~~~Flags.fdCloexec &&& Flags.fdCloexec = 0#32 := by decide
  rw [Flags.has, BitVec.and_assoc, disjoint]
  simp

theorem setInheritable_ensures {handle : Handle}
    {descriptor : Descriptor Opened} (stands : handle.fd = some number)
    (entry : kernel.process.table.entry number = some descriptor) :
    Ensures (handle.setInheritable true) kernel
      (fun _ next => kernel.Turns (kernel.process.withTable
        (kernel.process.table.mark number false)) next)
      (fun _ next => kernel.Inside next) := by
  have asked (flags : Flags) :
      Ensures (expect "fcntl" (fcntlSetFd number
          (flags &&& ~~~Flags.fdCloexec))) kernel.called
        (fun _ next => kernel.Turns (kernel.process.withTable
          (kernel.process.table.mark number false)) next)
        (fun _ next => kernel.Inside next) := by
    apply ensures_call
    · intro errno
      exact ⟨rfl, rfl⟩
    · intro value next served
      have entry' : kernel.called.called.process.table.entry number =
          some descriptor := entry
      simp only [entry', Except.ok.injEq, not_has_fdCloexec] at served
      obtain rfl := congrArg Prod.snd served
      exact ⟨rfl, rfl, rfl, rfl⟩
  unfold Handle.setInheritable
  rw [stands]
  dsimp only
  rw [ensures_bind, fcntlGetFl, ensures_bind]
  apply ensures_systemCall
  · intro fault
    exact asked (-1)
  · intro errno _
    exact asked (-1)
  · intro flags next served
    have entry' : kernel.called.process.table.entry number =
        some descriptor := entry
    simp only [entry', Except.ok.injEq] at served
    obtain rfl : kernel.called = next := congrArg Prod.snd served
    exact asked flags

theorem dup2_ensures {handle : Handle} {source target : Nat}
    {descriptor : Descriptor Opened} (stands : handle.fd = some source)
    (entry : kernel.process.table.entry source = some descriptor)
    (different : source ≠ target) :
    Ensures (handle.dup2 target) kernel
      (fun copy next => copy.fd = some target ∧
        kernel.Turns (kernel.process.withTable
          (kernel.process.table.update target
            (some ⟨descriptor.opened, true⟩))) next)
      (fun _ next => kernel.Inside next) := by
  rw [Handle.dup2, stands]
  dsimp only
  rw [ensures_bind]
  apply ensures_call
  · intro errno
    exact kernel.inside_called
  · intro copy next served
    have entry' : kernel.called.process.table.entry source =
        some descriptor := entry
    simp only [entry', different, if_false, Except.ok.injEq] at served
    obtain ⟨rfl, rfl⟩ : target = copy ∧ _ = next := Prod.mk.inj served
    exact ⟨rfl, rfl, rfl, rfl, rfl⟩

theorem Kernel.Turns.destroy {process : ProcessState}
    (turns : kernel.Turns process next) (source : Nat) (close : Bool) :
    kernel.Turns
      (process.withTable
        (if close then process.table.close source else process.table))
      ((Handle.mk (some source) close).destroy next) := by
  cases close with
  | false => exact turns
  | true =>
      refine ⟨?_, turns.files, turns.drawn, turns.images⟩
      change next.process.withTable (next.process.table.close source) = _
      rw [turns.process]
      rfl

theorem install_ensures {source : Nat} {close : Bool}
    {descriptor : Descriptor Opened}
    (entry : kernel.process.table.entry source = some descriptor)
    (target : Nat) :
    Ensures (Handle.install ⟨some source, close⟩ target) kernel
      (fun _ next => kernel.Turns (kernel.process.withTable
        (kernel.process.table.install source target close)) next)
      (fun _ next => kernel.Inside next) := by
  unfold Handle.install
  by_cases same : source = target
  · subst same
    rw [if_pos rfl, pure_bind, ensures_bind]
    apply (setInheritable_ensures rfl entry).mono
    · intro _ next turns
      rw [DescriptorTable.install, if_pos rfl]
      exact turns
    · intro failed next inside
      exact inside
  · have different : ¬ (some source = some target) := by simpa using same
    rw [if_neg different, ensures_bind]
    apply (dup2_ensures rfl entry same).mono
    · rintro copy next ⟨stands, turns⟩
      have given := turns.destroy source close
      have copied : ((Handle.mk (some source) close).destroy
          next).process.table.entry target =
            some ⟨descriptor.opened, true⟩ := by
        have notSource : target ≠ source := fun equal => same equal.symm
        rw [given.process]
        cases close with
        | false => simp
        | true =>
            simp [DescriptorTable.close,
              DescriptorTable.entry_update_of_ne notSource]
      rw [ensures_bind, Handle.assign, ensures_bind, ensures_modify,
        ensures_pure, ensures_bind]
      apply (setInheritable_ensures stands copied).mono
      · intro _ final marked
        refine ⟨?_, marked.files.trans given.files,
          marked.drawn.trans given.drawn, marked.images.trans given.images⟩
        rw [marked.process, given.process]
        simp [DescriptorTable.install_of_copy entry same]
      · intro failed final inside
        exact given.inside.trans inside
    · intro failed next inside
      exact inside

/-- The program that a child becomes, with the descriptors of a table. -/
def Detail.image (context : Detail) (files : File → Option Text)
    (table : DescriptorTable Opened) : Image File :=
  { executable := context.executable
    arguments := context.arguments
    environment := Environment.strings context.environment
    process :=
      { table := table.executed
        directory := context.currentPath
        blocked := [] }
    files := files }

/-- The child becomes the program with the descriptors as they were moved, or
it does not start it. -/
theorem child_ensures {context : Detail} {input output error : Nat}
    {closeInput closeOutput closeError : Bool}
    {first second third : Descriptor Opened}
    (stdin : context.stdinFile = ⟨some input, closeInput⟩)
    (stdout : context.stdoutFile = ⟨some output, closeOutput⟩)
    (stderr : context.stderrFile = ⟨some error, closeError⟩)
    {table moved : DescriptorTable Opened}
    (firstTable : kernel.process.table.install input 0 closeInput = table)
    (secondTable : table.install output 1 closeOutput = moved)
    (firstEntry : kernel.process.table.entry input = some first)
    (secondEntry : table.entry output = some second)
    (thirdEntry : moved.entry error = some third) :
    Ensures context.child kernel
      (fun image next =>
        image = context.image kernel.files
          (moved.install error 2 closeError) ∧
        next.images = image :: kernel.images ∧ next.drawn = kernel.drawn)
      (fun _ next => kernel.Inside next) := by
  rw [Detail.child, ensures_bind, ensures_modify, ensures_bind]
  apply ensures_call
  · intro errno
    exact ⟨rfl, rfl⟩
  · intro _ prepared served
    have ready : kernel.Turns ⟨kernel.process.table, context.currentPath, []⟩
        prepared := by
      obtain rfl := congrArg Prod.snd (Except.ok.inj served)
      exact ⟨rfl, rfl, rfl, rfl⟩
    have preparedEntry : prepared.process.table.entry input = some first := by
      rw [ready.process]
      exact firstEntry
    rw [ensures_bind, stdin]
    apply (install_ensures preparedEntry 0).mono
    · intro _ one turned
      have oneTable : one.process.table = table := by
        rw [turned.process, ready.process]
        exact firstTable
      have oneEntry : one.process.table.entry output = some second := by
        rw [oneTable, secondEntry]
      have inside := ready.inside.trans turned.inside
      rw [ensures_bind, stdout]
      apply (install_ensures oneEntry 1).mono
      · intro _ two turned'
        have twoTable : two.process.table = moved := by
          rw [turned'.process, oneTable]
          exact secondTable
        have twoEntry : two.process.table.entry error = some third := by
          rw [twoTable, thirdEntry]
        have inside' := inside.trans turned'.inside
        rw [ensures_bind, stderr]
        apply (install_ensures twoEntry 2).mono
        · intro _ three turned''
          have inside'' := inside'.trans turned''.inside
          apply ensures_call
          · intro errno
            exact inside''.trans three.inside_called
          · intro image next served
            obtain ⟨rfl, rfl⟩ : _ = image ∧ _ = next :=
              Prod.mk.inj (Except.ok.inj served)
            have files : three.files = kernel.files :=
              turned''.files.trans (turned'.files.trans
                (turned.files.trans ready.files))
            have process : three.process =
                ⟨moved.install error 2 closeError, context.currentPath, []⟩ := by
              rw [turned''.process, twoTable, turned'.process,
                turned.process, ready.process]
              rfl
            have same : (⟨context.executable, context.arguments,
                Environment.strings context.environment,
                three.process.withTable three.process.table.executed,
                three.files⟩ : Image File) = context.image kernel.files
                  (moved.install error 2 closeError) := by
              rw [files, process]
              rfl
            refine ⟨same, ?_, inside''.drawn⟩
            exact congrArg _ inside''.images
        · intro failed next stopped
          exact inside'.trans stopped
      · intro failed next stopped
        exact inside.trans stopped
    · intro failed next stopped
      exact ready.inside.trans stopped

end Bacs.Process
