import Mathlib.Data.List.AList
import Bacs.Foundation.Descriptors
import Bacs.Foundation.PathGrammar
import Bacs.Foundation.Scoped

/-!
# System calls

What the kernel keeps for one process and what is asked of it.  Any system
call can be refused from outside; a call that is refused changes nothing, save
that `close` gives the descriptor up in any case.
-/

namespace Bacs.Process

open Foundation

abbrev Text := List Char

abbrev Path := PathGrammar.Path

inductive Errno where
  | eexist
  | enoent
  | ebadf
  | einval
  | eintr
  | other (code : Nat)
  deriving DecidableEq, Repr

inductive Fault where
  | interrupted
  | failed (code : Nat)
  deriving DecidableEq, Repr

def Fault.errno : Fault → Errno
  | .interrupted => .eintr
  | .failed code => .other code

abbrev Flags := BitVec 32

namespace Flags

def rdonly : Flags := 0x0#32
def wronly : Flags := 0x1#32
def rdwr : Flags := 0x2#32
def creat : Flags := 0x40#32
def excl : Flags := 0x80#32
def trunc : Flags := 0x200#32
def cloexec : Flags := 0x80000#32

/-- `FD_CLOEXEC`, a flag of the descriptor and not of what is opened. -/
def fdCloexec : Flags := 0x1#32

end Flags

def Flags.has (flags bit : Flags) : Bool :=
  flags &&& bit ≠ 0

/-- What a call of `open` has opened. -/
structure Opened where
  serial : Nat
  path : Path
  flags : Flags
  deriving DecidableEq, Repr

structure ProcessState where
  table : DescriptorTable Opened
  directory : Path
  blocked : List Nat

def ProcessState.withTable (process : ProcessState)
    (table : DescriptorTable Opened) : ProcessState :=
  { process with table := table }

@[simp] theorem ProcessState.table_withTable (process : ProcessState)
    (table : DescriptorTable Opened) :
    (process.withTable table).table = table :=
  rfl

@[simp] theorem ProcessState.withTable_withTable (process : ProcessState)
    (table later : DescriptorTable Opened) :
    (process.withTable table).withTable later = process.withTable later :=
  rfl

@[simp] theorem ProcessState.withTable_table (process : ProcessState) :
    process.withTable process.table = process :=
  rfl

/-- The start of a program, with the files that it finds. -/
structure Image (File : Type) where
  executable : Path
  arguments : List Text
  environment : List Text
  process : ProcessState
  files : File → Option Text

inductive WaitStatus where
  | exited (code : Fin 256)
  | signaled (signal : Nat) (positive : 0 < signal)

structure Kernel (File : Type) where
  process : ProcessState
  files : File → Option Text
  opens : Nat
  /-- How many names of temporary files were made up. -/
  drawn : Nat
  /-- What becomes of the next system calls; those after it succeed. -/
  faults : List (Option Fault)
  /-- The programs that were started, the last one first. -/
  images : List (Image File)

structure World (File : Type) where
  locate : Path → File
  /-- The names that are made up for temporary files. -/
  names : Nat → Path
  removable : File → Bool
  environment : List (Text × Text)
  absolute : Path → Path → Path
  /-- The file that a name stands for in `PATH`, or nothing. -/
  searchPath : Path → Path
  /-- What a started program does: how it ends and the files it leaves. -/
  program : Nat → Image File → WaitStatus × (File → Option Text)

section Contexts

inductive StdinData where
  | doDefault
  | inherit
  | suppress
  | data (text : Text)
  | path (path : Path)
  deriving DecidableEq, Repr

inductive StdoutData where
  | doDefault
  | inherit
  | suppress
  | path (path : Path)
  deriving DecidableEq, Repr

inductive StderrData where
  | doDefault
  | inherit
  | suppress
  | redirectToStdout
  | path (path : Path)
  deriving DecidableEq, Repr

abbrev Environment := AList fun _ : Text => Text

/-- What is asked to be executed. -/
structure Context where
  currentPath : Option Path := none
  executable : Option Path := none
  arguments : List Text := []
  environmentInherit : Bool := true
  environment : Environment := ∅
  usePath : Option Bool := none
  stdinData : StdinData := .doDefault
  stdoutData : StdoutData := .doDefault
  stderrData : StderrData := .doDefault

end Contexts

inductive Error where
  | system (call : String) (errno : Errno)
  | handleIsClosed
  | assertion
  | uninitialized (member : String)
  | uniqueTempRegularFile (tries : Nat)
  | nothingToExecute
  | emptyExecutable
  | nonBasenameExecutable (executable : Path)
  | noExecutableInPath (executable : Path)
  | findExecutableInPath (executable : Path) (cause : Error)
  | contextBuild (cause : Error)
  | syncExecute (cause : Error)
  | syncExecuteWithOutput (cause : Error)
  | nonZeroExitStatus (exitStatus : Int) (context : Context)
      (output : Option Text)
  | checkSyncExecute (context : Context) (cause : Error)

abbrev Posix (File : Type) := EStateM Error (Kernel File)

variable {File : Type}

namespace Kernel

def withTable (kernel : Kernel File) (table : DescriptorTable Opened) :
    Kernel File :=
  { kernel with process := kernel.process.withTable table }

/-- The kernel once it has looked at a call. -/
def called (kernel : Kernel File) : Kernel File :=
  { kernel with faults := kernel.faults.tail }

/-- `close` of a descriptor, whatever it answers. -/
def closed (number : Nat) (kernel : Kernel File) : Kernel File :=
  kernel.called.withTable (kernel.process.table.close number)

def allocate (kernel : Kernel File) [DecidableEq File] (file : File)
    (content : Text) (path : Path) (flags : Flags) : Nat × Kernel File :=
  let table := kernel.process.table
  let opened : Opened := ⟨kernel.opens, path, flags⟩
  (table.lowest,
    { kernel.withTable (table.update table.lowest
        (some ⟨opened, flags.has .cloexec⟩)) with
      files := Function.update kernel.files file (some content)
      opens := kernel.opens + 1 })

end Kernel

def systemCall {α : Type}
    (serve : Kernel File → Except Errno (α × Kernel File)) :
    Posix File (Except Errno α) :=
  fun kernel =>
    match kernel.faults.head?.join with
    | some fault => .ok (.error fault.errno) kernel.called
    | none =>
        match serve kernel.called with
        | .ok (value, next) => .ok (.ok value) next
        | .error refused => .ok (.error refused) kernel.called

/-- Throw `system_error` where a call is refused. -/
def expect {α : Type} (call : String)
    (answered : Posix File (Except Errno α)) : Posix File α := do
  match ← answered with
  | .ok value => pure value
  | .error refused => throw (.system call refused)

section Calls

variable [DecidableEq File] (world : World File)

def World.posixOpen (path : Path) (flags : Flags) :
    Posix File (Except Errno Nat) :=
  systemCall fun kernel =>
    match kernel.files (world.locate path) with
    | some content =>
        if flags.has .excl then .error .eexist
        else
          .ok (kernel.allocate (world.locate path)
            (if flags.has .trunc then [] else content) path flags)
    | none =>
        if flags.has .creat then
          .ok (kernel.allocate (world.locate path) [] path flags)
        else .error .enoent

def World.posixWrite (number : Nat) (text : Text) :
    Posix File (Except Errno Unit) :=
  systemCall fun kernel =>
    match kernel.process.table.entry number with
    | none => .error .ebadf
    | some descriptor =>
        let file := world.locate descriptor.opened.path
        .ok ((), { kernel with
          files := Function.update kernel.files file
            (some ((kernel.files file).getD [] ++ text)) })

end Calls

def posixClose (number : Nat) : Posix File (Except Errno Unit) :=
  fun kernel =>
    match kernel.faults.head?.join with
    | some fault => .ok (.error fault.errno) (kernel.closed number)
    | none => .ok (.ok ()) (kernel.closed number)

def posixDup3 (number target : Nat) (flags : Flags) :
    Posix File (Except Errno Nat) :=
  systemCall fun kernel =>
    match kernel.process.table.entry number with
    | none => .error .ebadf
    | some descriptor =>
        if number = target then .error .einval
        else
          .ok (target, kernel.withTable (kernel.process.table.update target
            (some ⟨descriptor.opened, flags.has .cloexec⟩)))

/-- `fcntl(number, F_GETFL)`, which is `-1` when it is refused. -/
def fcntlGetFl (number : Nat) : Posix File Flags := do
  let answer ← systemCall fun kernel =>
    match kernel.process.table.entry number with
    | none => .error .ebadf
    | some descriptor => .ok (descriptor.opened.flags, kernel)
  match answer with
  | .ok flags => pure flags
  | .error _ => pure (-1)

def fcntlSetFd (number : Nat) (flags : Flags) :
    Posix File (Except Errno Unit) :=
  systemCall fun kernel =>
    match kernel.process.table.entry number with
    | none => .error .ebadf
    | some _ =>
        .ok ((), kernel.withTable
          (kernel.process.table.mark number (flags.has .fdCloexec)))

/-! ## Handles -/

/-- A descriptor and whether the destructor closes it. -/
structure Handle where
  fd : Option Nat := none
  close : Bool := true
  deriving DecidableEq, Repr

namespace Handle

def stdInput : Handle := ⟨some 0, false⟩

def stdOutput : Handle := ⟨some 1, false⟩

def stdError : Handle := ⟨some 2, false⟩

/-- `handle::~handle` -/
def destroy (handle : Handle) (kernel : Kernel File) : Kernel File :=
  match handle.fd with
  | some number => if handle.close then kernel.closed number else kernel
  | none => kernel

/-- Assignment from a handle that is moved: what was owned is closed. -/
def assign (handle moved : Handle) : Posix File Handle := do
  modify handle.destroy
  pure moved

def dup2 (handle : Handle) (newFd : Nat) : Posix File Handle :=
  match handle.fd with
  | none => throw .handleIsClosed
  | some number => do
      let number ← expect "dup3" (posixDup3 number newFd .cloexec)
      pure { fd := some number }

/-- `set_inheritable`, which takes the flags of what is opened for those of
the descriptor. -/
def setInheritable (handle : Handle) (inheritable : Bool) :
    Posix File Unit :=
  match handle.fd with
  | none => throw .assertion
  | some number => do
      let flags ← fcntlGetFl number
      expect "fcntl" (fcntlSetFd number
        (if inheritable then flags &&& ~~~Flags.fdCloexec
          else flags ||| Flags.fdCloexec))

section Opening

variable [DecidableEq File] (world : World File)

def sysOpen (path : Path) (flags : Flags) : Posix File Handle := do
  let number ← expect "open" (world.posixOpen path flags)
  pure { fd := some number }

def openRead (path : Path) : Posix File Handle :=
  sysOpen world path (.rdonly ||| .cloexec)

def openWrite (path : Path) : Posix File Handle :=
  sysOpen world path (.wronly ||| .creat ||| .trunc ||| .cloexec)

def openReadWrite (path : Path) : Posix File Handle :=
  sysOpen world path (.rdwr ||| .creat ||| .cloexec)

def openNull : Posix File Handle :=
  openReadWrite world "/dev/null".toList

end Opening

end Handle

end Bacs.Process
