import Bacs.Process.Executing

/-!
# What the system calls do

A call that is refused leaves everything but the faults to come.  Opening
gives the lowest free number; the other calls of a handle change one entry of
the table.
-/

namespace Bacs.Process

open Foundation

variable {File : Type} {α : Type} {kernel : Kernel File}

/-- Nothing has changed but what becomes of the next calls. -/
structure Kernel.Quiet (kernel next : Kernel File) : Prop where
  process : next.process = kernel.process
  files : next.files = kernel.files
  opens : next.opens = kernel.opens
  drawn : next.drawn = kernel.drawn
  images : next.images = kernel.images

theorem Kernel.Quiet.refl (kernel : Kernel File) : kernel.Quiet kernel :=
  ⟨rfl, rfl, rfl, rfl, rfl⟩

theorem Kernel.Quiet.trans {next final : Kernel File}
    (first : kernel.Quiet next) (second : next.Quiet final) :
    kernel.Quiet final :=
  ⟨second.process.trans first.process, second.files.trans first.files,
    second.opens.trans first.opens, second.drawn.trans first.drawn,
    second.images.trans first.images⟩

theorem Kernel.quiet_called (kernel : Kernel File) :
    kernel.Quiet kernel.called :=
  ⟨rfl, rfl, rfl, rfl, rfl⟩

theorem ensures_systemCall
    {serve : Kernel File → Except Errno (α × Kernel File)}
    {normal : Except Errno α → Kernel File → Prop}
    {thrown : Error → Kernel File → Prop}
    (refused : ∀ fault : Fault,
      normal (.error fault.errno) kernel.called)
    (rejected : ∀ errno, serve kernel.called = .error errno →
      normal (.error errno) kernel.called)
    (served : ∀ value next, serve kernel.called = .ok (value, next) →
      normal (.ok value) next) :
    Ensures (systemCall serve) kernel normal thrown := by
  unfold Ensures systemCall
  cases kernel.faults.head?.join with
  | some fault => exact refused fault
  | none =>
      cases answer : serve kernel.called with
      | error errno => exact rejected errno answer
      | ok result => exact served result.1 result.2 answer

@[simp] theorem ensures_expect {call : String}
    {answered : Posix File (Except Errno α)}
    {normal : α → Kernel File → Prop}
    {thrown : Error → Kernel File → Prop} :
    Ensures (expect call answered) kernel normal thrown ↔
      Ensures answered kernel
        (fun answer next =>
          match answer with
          | .ok value => normal value next
          | .error errno => thrown (.system call errno) next) thrown := by
  rw [expect, ensures_bind]
  apply iff_of_eq
  congr 1
  funext answer next
  cases answer <;> rfl

theorem ensures_call {call : String}
    {serve : Kernel File → Except Errno (α × Kernel File)}
    {normal : α → Kernel File → Prop} {thrown : Error → Kernel File → Prop}
    (refused : ∀ errno, thrown (.system call errno) kernel.called)
    (served : ∀ value next, serve kernel.called = .ok (value, next) →
      normal value next) :
    Ensures (expect call (systemCall serve)) kernel normal thrown := by
  rw [ensures_expect]
  exact ensures_systemCall (fun fault => refused fault.errno)
    (fun errno _ => refused errno) served

/-! ## Opening -/

section Opening

variable (world : World File) {path : Path} {flags : Flags} {number : Nat}
  {next : Kernel File}

structure Kernel.Opens (kernel : Kernel File) (path : Path) (flags : Flags)
    (number : Nat) (next : Kernel File) : Prop where
  isLowest : number = kernel.process.table.lowest
  process : next.process = kernel.process.withTable
    (kernel.process.table.update number
      (some ⟨⟨kernel.opens, path, flags⟩, flags.has .cloexec⟩))
  other : ∀ file, file ≠ world.locate path →
    next.files file = kernel.files file
  content : next.files (world.locate path) =
    some (if flags.has .trunc then []
      else (kernel.files (world.locate path)).getD [])
  opens : next.opens = kernel.opens + 1
  drawn : next.drawn = kernel.drawn
  images : next.images = kernel.images

variable [DecidableEq File]

theorem Kernel.opens_allocate {text : Text}
    (content : text = if flags.has .trunc then []
      else (kernel.files (world.locate path)).getD [])
    (allocated : kernel.called.allocate (world.locate path) text path flags =
      (number, next)) : kernel.Opens world path flags number next := by
  cases allocated
  constructor
  · rfl
  · rfl
  · intro file different
    simp [different, Kernel.called]
  · rw [content]
    simp
  · rfl
  · rfl
  · rfl

/-- `open` opens the file or changes nothing; a file that must not exist
did not, or the call has said so. -/
theorem posixOpen_ensures (path : Path) (flags : Flags) :
    Ensures (world.posixOpen path flags) kernel
      (fun answer next =>
        match answer with
        | .ok number => kernel.Opens world path flags number next ∧
            (flags.has .excl = true →
              kernel.files (world.locate path) = none)
        | .error errno => kernel.Quiet next ∧
            (errno = .eexist → kernel.files (world.locate path) ≠ none))
      (fun _ _ => False) := by
  apply ensures_systemCall
  · intro fault
    refine ⟨kernel.quiet_called, ?_⟩
    cases fault <;> simp [Fault.errno]
  · intro errno refused
    refine ⟨kernel.quiet_called, ?_⟩
    rintro rfl missing
    have missing' : kernel.called.files (world.locate path) = none := missing
    by_cases created : flags.has .creat
    · simp [missing', created] at refused
    · simp [missing', created] at refused
  · intro number next served
    cases found : kernel.files (world.locate path) with
    | some content =>
        have found' : kernel.called.files (world.locate path) =
            some content := found
        by_cases exclusive : flags.has .excl
        · simp [found', exclusive] at served
        · simp only [found', exclusive, Bool.false_eq_true, if_false,
            Except.ok.injEq] at served
          refine ⟨kernel.opens_allocate world ?_ served, ?_⟩
          · rw [found]
            rfl
          · intro required
            exact absurd required exclusive
    | none =>
        have found' : kernel.called.files (world.locate path) = none := found
        by_cases created : flags.has .creat
        · simp only [found', created, if_true, Except.ok.injEq] at served
          refine ⟨kernel.opens_allocate world ?_ served, ?_⟩
          · rw [found]
            simp
          · intro _
            rfl
        · simp [found', created] at served

omit [DecidableEq File] in
theorem Kernel.Opens.entry
    (opens : kernel.Opens world path flags number next) :
    next.process.table.entry number =
      some ⟨⟨kernel.opens, path, flags⟩, flags.has .cloexec⟩ := by
  simp [opens.process]

omit [DecidableEq File] in
theorem Kernel.Opens.closed (opens : kernel.Opens world path flags number next)
    {final : Kernel File} (same : final.process = next.process) :
    (final.closed number).process = kernel.process := by
  have free : kernel.process.table.entry number = none := by
    rw [opens.isLowest]
    exact DescriptorTable.entry_lowest _
  change final.process.withTable (final.process.table.close number) = _
  rw [same, opens.process]
  simp [DescriptorTable.close_update free]

theorem posixWrite_ensures {descriptor : Descriptor Opened} (text : Text)
    (entry : kernel.process.table.entry number = some descriptor) :
    Ensures (world.posixWrite number text) kernel
      (fun answer next =>
        match answer with
        | .ok _ => next = { kernel.called with
            files := Function.update kernel.files
              (world.locate descriptor.opened.path)
              (some ((kernel.files (world.locate
                descriptor.opened.path)).getD [] ++ text)) }
        | .error _ => kernel.Quiet next)
      (fun _ _ => False) := by
  apply ensures_systemCall
  · intro fault
    exact kernel.quiet_called
  · intro errno _
    exact kernel.quiet_called
  · intro value next served
    have entry' : kernel.called.process.table.entry number =
        some descriptor := entry
    simp only [entry', Except.ok.injEq] at served
    exact (congrArg Prod.snd served).symm

end Opening

@[simp] theorem ensures_posixClose {number : Nat}
    {normal : Except Errno Unit → Kernel File → Prop}
    {thrown : Error → Kernel File → Prop}
    (always : ∀ answer, normal answer (kernel.closed number)) :
    Ensures (posixClose number) kernel normal thrown := by
  unfold Ensures posixClose
  cases kernel.faults.head?.join with
  | some fault => exact always _
  | none => exact always _

/-! ## Handles -/

section Handles

variable [DecidableEq File] (world : World File)

theorem sysOpen_ensures (path : Path) (flags : Flags) :
    Ensures (Handle.sysOpen world path flags) kernel
      (fun handle next => handle = ⟨some kernel.process.table.lowest, true⟩ ∧
        kernel.Opens world path flags kernel.process.table.lowest next)
      (fun _ next => kernel.Quiet next) := by
  rw [Handle.sysOpen, ensures_bind, ensures_expect]
  apply (posixOpen_ensures world path flags).mono
  · intro answer next opened
    cases answer with
    | error errno => exact opened.1
    | ok number =>
        obtain rfl := opened.1.isLowest
        exact ⟨rfl, opened.1⟩
  · intro exception next impossible
    cases impossible

theorem writeFile_ensures (path : Path) (text : Text) :
    Ensures (world.writeFile path text) kernel
      (fun _ next => next.process = kernel.process ∧
        next.images = kernel.images ∧ next.drawn = kernel.drawn ∧
        kernel.opens ≤ next.opens ∧
        next.files (world.locate path) = some text)
      (fun _ next => next.process = kernel.process ∧
        next.images = kernel.images ∧ next.drawn = kernel.drawn) := by
  rw [World.writeFile, ensures_bind, ensures_expect]
  apply (posixOpen_ensures world path _).mono
  · intro answer next opened
    cases answer with
    | error errno =>
        exact ⟨opened.1.process, opened.1.images, opened.1.drawn⟩
    | ok number =>
        obtain ⟨opens, -⟩ := opened
        dsimp only
        rw [ensures_bind]
        apply (posixWrite_ensures world text (opens.entry world)).mono
        · intro answer written same
          cases answer with
          | error errno =>
              exact ⟨opens.closed world same.process,
                same.images.trans opens.images,
                same.drawn.trans opens.drawn⟩
          | ok _ =>
              obtain rfl := same
              have content : next.files (world.locate path) = some [] :=
                opens.content
              dsimp only
              rw [ensures_expect]
              apply ensures_posixClose
              intro answer
              cases answer with
              | error errno =>
                  exact ⟨opens.closed world rfl, opens.images, opens.drawn⟩
              | ok _ =>
                  refine ⟨opens.closed world rfl, opens.images, opens.drawn,
                    ?_, ?_⟩
                  · exact opens.opens ▸ Nat.le_succ kernel.opens
                  · simp [Kernel.closed, Kernel.called, Kernel.withTable,
                      content]
        · intro exception written impossible
          cases impossible
  · intro exception next impossible
    cases impossible

end Handles

end Bacs.Process
