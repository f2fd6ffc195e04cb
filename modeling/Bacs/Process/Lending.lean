import Bacs.Process.Tempfiles

/-!
# Descriptors that are lent to a child

For each standard descriptor the parent has a handle: one that stands for a
descriptor of its own, or one that it has opened for the child, under the
lowest number and marked to be closed when another program is started.  Where
the handle is destroyed the parent's table is as before.
-/

namespace Bacs.Process

open Foundation

variable {File : Type} {world : World File} {kernel next final : Kernel File}
  {handle : Handle} {tmp : Option Path}

/-- What a program finds under a standard descriptor. -/
inductive Meaning where
  | inherited (number : Nat)
  | opened (path : Path) (flags : Flags)

namespace Meaning

def null : Meaning :=
  .opened "/dev/null".toList (.rdwr ||| .creat ||| .cloexec)

def read (path : Path) : Meaning :=
  .opened path (.rdonly ||| .cloexec)

def write (path : Path) : Meaning :=
  .opened path (.wronly ||| .creat ||| .trunc ||| .cloexec)

def Truncates (world : World File) (file : File) : Meaning → Prop
  | .inherited _ => False
  | .opened path flags => flags.has .trunc = true ∧ world.locate path = file

end Meaning

def StdinData.meaning (tmp : Path) : StdinData → Meaning
  | .doDefault => .null
  | .inherit => .inherited 0
  | .suppress => .null
  | .data _ => .read tmp
  | .path name => .read name

def StdoutData.meaning : StdoutData → Meaning
  | .doDefault => .inherited 1
  | .inherit => .inherited 1
  | .suppress => .null
  | .path name => .write name

/-- `redirectToStdout` means what the descriptor 1 of the child means. -/
def StderrData.meaning : StderrData → Meaning
  | .doDefault => .inherited 2
  | .inherit => .inherited 2
  | .suppress => .null
  | .redirectToStdout => .inherited 1
  | .path name => .write name

inductive Lends (kernel : Kernel File) (process : ProcessState) :
    Meaning → Handle → Prop
  | inherited (number : Nat) :
      process = kernel.process →
      Lends kernel process (.inherited number) ⟨some number, false⟩
  | opened (path : Path) (flags : Flags) (serial : Nat) :
      kernel.opens ≤ serial →
      process = kernel.process.withTable
        (kernel.process.table.update kernel.process.table.lowest
          (some ⟨⟨serial, path, flags⟩, true⟩)) →
      Lends kernel process (.opened path flags)
        ⟨some kernel.process.table.lowest, true⟩

structure Kernel.Provides (kernel : Kernel File) (meaning : Meaning)
    (handle : Handle) (next : Kernel File) : Prop where
  lends : Lends kernel next.process meaning handle
  opens : kernel.opens ≤ next.opens
  drawn : next.drawn = kernel.drawn
  images : next.images = kernel.images

/-- The texts of files that a meaning leaves alone. -/
def Kernel.Preserves (world : World File) (kernel : Kernel File)
    (meaning : Meaning) (next : Kernel File) : Prop :=
  ∀ file text, ¬ meaning.Truncates world file →
    kernel.files file = some text → next.files file = some text

structure Kernel.Leaves (kernel next : Kernel File) : Prop where
  process : next.process = kernel.process
  drawn : next.drawn = kernel.drawn
  images : next.images = kernel.images

theorem Kernel.Quiet.leaves (quiet : kernel.Quiet next) :
    kernel.Leaves next :=
  ⟨quiet.process, quiet.drawn, quiet.images⟩

/-- Only the state of the process has changed, to `process`. -/
structure Kernel.Turns (kernel : Kernel File) (process : ProcessState)
    (next : Kernel File) : Prop where
  process : next.process = process
  files : next.files = kernel.files
  drawn : next.drawn = kernel.drawn
  images : next.images = kernel.images

theorem destroy_turns (handle : Handle) (kernel : Kernel File) :
    kernel.Turns (handle.destroy kernel).process (handle.destroy kernel) := by
  obtain ⟨number, close⟩ := handle
  cases number with
  | none => exact ⟨rfl, rfl, rfl, rfl⟩
  | some number => cases close <;> exact ⟨rfl, rfl, rfl, rfl⟩

theorem destroy_process (handle : Handle) {kernel other : Kernel File}
    (same : kernel.process = other.process) :
    (handle.destroy kernel).process = (handle.destroy other).process := by
  obtain ⟨number, close⟩ := handle
  cases number with
  | none => exact same
  | some number =>
      cases close with
      | false => exact same
      | true =>
          change kernel.process.withTable (kernel.process.table.close number) =
            other.process.withTable (other.process.table.close number)
          rw [same]

theorem Kernel.Provides.restored {meaning : Meaning}
    (provides : kernel.Provides meaning handle next)
    (same : final.process = next.process) :
    (handle.destroy final).process = kernel.process := by
  rw [destroy_process handle same]
  cases provides.lends with
  | inherited number unchanged => exact unchanged
  | opened path flags serial later changed =>
      change next.process.withTable (next.process.table.close _) =
        kernel.process
      rw [changed]
      simp [DescriptorTable.close_update
        kernel.process.table.entry_lowest]

section Visiting

variable [DecidableEq File] (world)

theorem sysOpen_provides (path : Path) (flags : Flags)
    (marked : flags.has .cloexec = true) :
    Ensures (Handle.sysOpen world path flags) kernel
      (fun handle next =>
        kernel.Provides (.opened path flags) handle next ∧
          kernel.Preserves world (.opened path flags) next)
      (fun _ next => kernel.Leaves next) := by
  apply (sysOpen_ensures world path flags).mono
  · rintro handle next ⟨rfl, opens⟩
    refine ⟨⟨.opened path flags kernel.opens (Nat.le_refl _) ?_, ?_,
      opens.drawn, opens.images⟩, ?_⟩
    · rw [opens.process, marked]
    · exact opens.opens ▸ Nat.le_succ kernel.opens
    · intro file text kept found
      by_cases same : file = world.locate path
      · subst same
        have untouched : flags.has .trunc = false := by
          cases truncated : flags.has .trunc with
          | false => rfl
          | true => exact absurd ⟨truncated, rfl⟩ kept
        rw [opens.content, untouched, found]
        rfl
      · rw [opens.other file same, found]
  · intro failed next quiet
    exact quiet.leaves

omit [DecidableEq File] in
theorem borrow_provides (number : Nat) :
    kernel.Provides (.inherited number) ⟨some number, false⟩ kernel ∧
      kernel.Preserves world (.inherited number) kernel :=
  ⟨⟨.inherited number rfl, Nat.le_refl _, rfl, rfl⟩,
    fun _ _ _ found => found⟩

theorem openNull_provides :
    Ensures (Handle.openNull world) kernel
      (fun handle next => kernel.Provides .null handle next ∧
        kernel.Preserves world .null next)
      (fun _ next => kernel.Leaves next) :=
  sysOpen_provides world _ _ (by decide)

theorem openRead_provides (path : Path) :
    Ensures (Handle.openRead world path) kernel
      (fun handle next => kernel.Provides (.read path) handle next ∧
        kernel.Preserves world (.read path) next)
      (fun _ next => kernel.Leaves next) :=
  sysOpen_provides world _ _ (by decide)

theorem openWrite_provides (path : Path) :
    Ensures (Handle.openWrite world path) kernel
      (fun handle next => kernel.Provides (.write path) handle next ∧
        kernel.Preserves world (.write path) next)
      (fun _ next => kernel.Leaves next) :=
  sysOpen_provides world _ _ (by decide)

theorem data_provides (path : Path) (text : Text) :
    Ensures ((stdinVisitor world).visit world (some path) (.data text)) kernel
      (fun handle next => kernel.Provides (.read path) handle next ∧
        next.files (world.locate path) = some text)
      (fun _ next => kernel.Leaves next) := by
  rw [FileActionVisitor.visit, ensures_bind]
  apply (writeFile_ensures world path text).mono
  · rintro _ written ⟨process, images, drawn, opens, content⟩
    apply (openRead_provides world path).mono
    · rintro handle next ⟨provides, preserves⟩
      refine ⟨⟨?_, opens.trans provides.opens, provides.drawn.trans drawn,
        provides.images.trans images⟩, ?_⟩
      · cases provides.lends with
        | opened path flags serial later changed =>
            rw [process] at changed ⊢
            exact .opened _ _ serial (opens.trans later) changed
      · apply preserves _ _ _ content
        rintro ⟨truncated, _⟩
        exact absurd truncated (by decide)
    · intro failed next leaves
      exact ⟨leaves.process.trans process, leaves.drawn.trans drawn,
        leaves.images.trans images⟩
  · rintro failed next ⟨process, images, drawn⟩
    exact ⟨process, drawn, images⟩

/-- The temporary file that goes with what is to be read. -/
def StdinData.Kept (tmp : Option Path) : StdinData → Prop
  | .data _ => tmp.isSome = true
  | _ => tmp = none

/-- The text that is to be read, if it is given, is in a file. -/
def StdinData.Written (world : World File) (path : Path)
    (files : File → Option Text) : StdinData → Prop
  | .data text => files (world.locate path) = some text
  | _ => True

theorem stdin_provides (data : StdinData) (kept : data.Kept tmp) :
    Ensures ((stdinVisitor world).visit world tmp data.action) kernel
      (fun handle next =>
        kernel.Provides (data.meaning (tmp.getD [])) handle next ∧
          data.Written world (tmp.getD []) next.files)
      (fun _ next => kernel.Leaves next) := by
  have trivially {meaning : Meaning} {opening : Posix File Handle}
      (provides : Ensures opening kernel
        (fun handle next => kernel.Provides meaning handle next ∧
          kernel.Preserves world meaning next)
        (fun _ next => kernel.Leaves next)) :
      Ensures opening kernel
        (fun handle next => kernel.Provides meaning handle next ∧ True)
        (fun _ next => kernel.Leaves next) :=
    provides.mono (fun _ _ made => ⟨made.1, trivial⟩) fun _ _ left => left
  cases data with
  | doDefault => exact trivially (openNull_provides world)
  | inherit => exact ⟨(borrow_provides world 0).1, trivial⟩
  | suppress => exact trivially (openNull_provides world)
  | data text =>
      obtain ⟨path, rfl⟩ := Option.isSome_iff_exists.mp kept
      exact data_provides world path text
  | path name => exact trivially (openRead_provides world name)

theorem stdout_provides (data : StdoutData) :
    Ensures ((stdoutVisitor world).visit world none data.action) kernel
      (fun handle next => kernel.Provides data.meaning handle next ∧
        kernel.Preserves world data.meaning next)
      (fun _ next => kernel.Leaves next) := by
  cases data with
  | doDefault => exact borrow_provides world 1
  | inherit => exact borrow_provides world 1
  | suppress => exact openNull_provides world
  | path name => exact openWrite_provides world name

theorem stderr_provides (data : StderrData) :
    Ensures ((stderrVisitor world).visit world none data.action) kernel
      (fun handle next => kernel.Provides data.meaning handle next ∧
        kernel.Preserves world data.meaning next)
      (fun _ next => kernel.Leaves next) := by
  cases data with
  | doDefault => exact borrow_provides world 2
  | inherit => exact borrow_provides world 2
  | suppress => exact openNull_provides world
  | redirectToStdout => exact borrow_provides world 1
  | path name => exact openWrite_provides world name

end Visiting

end Bacs.Process
