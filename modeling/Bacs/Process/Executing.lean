import Bacs.Process.Context

/-!
# Executing programs

The parent opens what the program is to read and to write, forks and waits.
The child moves the three files to the standard descriptors and becomes the
program, or it aborts.
-/

namespace Bacs.Process

open Foundation

variable {File : Type} [DecidableEq File]

/-! ## Temporary files -/

section Tempfiles

variable (world : World File)

/-- `tempfile::~tempfile`: the file is removed if it exists and can be. -/
def World.removeTemp (path : Path) (kernel : Kernel File) : Kernel File :=
  { kernel with
    files :=
      if world.removable (world.locate path) then
        Function.update kernel.files (world.locate path) none
      else kernel.files }

def World.uniquePath : Posix File (Except Errno Path) :=
  systemCall fun kernel =>
    .ok (world.names kernel.drawn, { kernel with drawn := kernel.drawn + 1 })

/-- `create_regular_file`, false if the file exists. -/
def World.createRegularFile (path : Path) : Posix File Bool := do
  match ← world.posixOpen path (.wronly ||| .creat ||| .excl ||| .trunc) with
  | .ok number =>
      modify (Kernel.closed number)
      pure true
  | .error .eexist => pure false
  | .error refused => throw (.system "fopen" refused)

/-- The loop of `regular_file_from_model`.  A temporary file whose creation
throws is removed. -/
def World.regularFileFromModel : Nat → Posix File Path
  | 0 => throw (.uniqueTempRegularFile 32)
  | tries + 1 => do
      let path ← expect "unique_path" world.uniquePath
      let created ← tryCatch (world.createRegularFile path) fun failed => do
        modify (world.removeTemp path)
        throw failed
      if created then pure path else World.regularFileFromModel tries

def World.regularFileInTempdir : Posix File Path := do
  expect "temp_directory_path" (systemCall fun kernel => .ok ((), kernel))
  world.regularFileFromModel 32

def World.writeFile (path : Path) (text : Text) : Posix File Unit := do
  let number ← expect "open"
    (world.posixOpen path (.wronly ||| .creat ||| .trunc))
  match ← world.posixWrite number text with
  | .ok () => expect "close" (posixClose number)
  | .error refused => do
      modify (Kernel.closed number)
      throw (.system "write" refused)

end Tempfiles

/-! ## What a program reads and writes -/

/-- The cases of `stdin_data_type`, `stdout_data_type` and
`stderr_data_type`. -/
inductive FileAction where
  | doDefault
  | inherit
  | suppress
  | redirectToStdout
  | data (text : Text)
  | path (path : Path)
  deriving DecidableEq, Repr

def StdinData.action : StdinData → FileAction
  | .doDefault => .doDefault
  | .inherit => .inherit
  | .suppress => .suppress
  | .data text => .data text
  | .path name => .path name

def StdoutData.action : StdoutData → FileAction
  | .doDefault => .doDefault
  | .inherit => .inherit
  | .suppress => .suppress
  | .path name => .path name

def StderrData.action : StderrData → FileAction
  | .doDefault => .doDefault
  | .inherit => .inherit
  | .suppress => .suppress
  | .redirectToStdout => .redirectToStdout
  | .path name => .path name

structure FileActionVisitor (File : Type) where
  openDefault : Posix File Handle
  inherit : Posix File Handle
  openPath : Path → Posix File Handle

section Visiting

variable (world : World File)

def stdinVisitor : FileActionVisitor File where
  openDefault := Handle.openNull world
  inherit := pure .stdInput
  openPath := Handle.openRead world

def stdoutVisitor : FileActionVisitor File where
  openDefault := pure .stdOutput
  inherit := pure .stdOutput
  openPath := Handle.openWrite world

def stderrVisitor : FileActionVisitor File where
  openDefault := pure .stdError
  inherit := pure .stdError
  openPath := Handle.openWrite world

/-- The temporary file that the visitor keeps while it lives. -/
def FileAction.tmp : FileAction → Posix File (Option Path)
  | .data _ => some <$> world.regularFileInTempdir
  | _ => pure none

def removeTmp (tmp : Option Path) (kernel : Kernel File) : Kernel File :=
  match tmp with
  | some path => world.removeTemp path kernel
  | none => kernel

/-- `file_action_visitor::operator()` -/
def FileActionVisitor.visit (visitor : FileActionVisitor File)
    (tmp : Option Path) : FileAction → Posix File Handle
  | .doDefault => visitor.openDefault
  | .inherit => visitor.inherit
  | .suppress => Handle.openNull world
  | .redirectToStdout => pure .stdOutput
  | .path path => visitor.openPath path
  | .data text =>
      match tmp with
      | none => throw .assertion
      | some path => do
          world.writeFile path text
          visitor.openPath path

end Visiting

/-! ## Parent and child -/

/-- `detail::context` -/
structure Detail where
  executable : Path
  currentPath : Path
  arguments : List Text
  environment : Environment
  stdinFile : Handle
  stdoutFile : Handle
  stderrFile : Handle

/-- A standard descriptor becomes what a handle stands for. -/
def Handle.install (handle : Handle) (number : Nat) : Posix File Handle := do
  let handle ←
    if handle.fd = some number then pure handle
    else do
      let copy ← handle.dup2 number
      handle.assign copy
  handle.setInheritable true
  pure handle

def resetSignals (kernel : Kernel File) : Kernel File :=
  { kernel with process := { kernel.process with blocked := [] } }

def posixChdir (directory : Path) : Posix File (Except Errno Unit) :=
  systemCall fun kernel =>
    .ok ((), { kernel with
      process := { kernel.process with directory := directory } })

/-- The strings `name=value`. -/
def Environment.strings (environment : Environment) : List Text :=
  (Environment.settings environment).map fun entry =>
    entry.1 ++ '=' :: entry.2

def posixExecve (executable : Path) (arguments environment : List Text) :
    Posix File (Except Errno (Image File)) :=
  systemCall fun kernel =>
    let image : Image File :=
      { executable := executable
        arguments := arguments
        environment := environment
        process := kernel.process.withTable kernel.process.table.executed
        files := kernel.files }
    .ok (image, { kernel with images := image :: kernel.images })

/-- The child up to the program that it becomes. -/
def Detail.child (context : Detail) : Posix File (Image File) := do
  modify resetSignals
  expect "chdir" (posixChdir context.currentPath)
  let _ ← context.stdinFile.install 0
  let _ ← context.stdoutFile.install 1
  let _ ← context.stderrFile.install 2
  expect "execve" (posixExecve context.executable context.arguments
    (Environment.strings context.environment))

/-- `abort` after an exception. -/
def aborted : WaitStatus :=
  .signaled 6 (by decide)

/-- What the child does until it ends; the parent's own state is its own. -/
def Detail.forked (world : World File) (context : Detail) :
    Posix File WaitStatus :=
  fun kernel =>
    match context.child kernel with
    | .ok image started =>
        let (status, files) :=
          world.program started.images.length image
        .ok status { started with process := kernel.process, files := files }
    | .error _ failed =>
        .ok aborted { failed with process := kernel.process }

/-- The loop around `waitpid`, which begins again when it is interrupted. -/
def waitpid (status : WaitStatus) :
    List (Option Fault) → Except Errno WaitStatus × List (Option Fault)
  | [] => (.ok status, [])
  | none :: rest => (.ok status, rest)
  | some .interrupted :: rest => waitpid status rest
  | some (.failed code) :: rest => (.error (.other code), rest)

def WaitStatus.code : WaitStatus → Int
  | .exited code => code.val
  | .signaled signal _ => -signal

def waitFor (status : WaitStatus) : Posix File Int :=
  fun kernel =>
    match waitpid status kernel.faults with
    | (.ok status, rest) => .ok status.code { kernel with faults := rest }
    | (.error refused, rest) =>
        .error (.system "waitpid" refused) { kernel with faults := rest }

/-- `detail::sync_execute` -/
def Detail.syncExecute (world : World File) (context : Detail) :
    Posix File Int := do
  expect "fork" (systemCall fun kernel => .ok ((), kernel))
  let status ← context.forked world
  waitFor status

/-! ## Executors -/

section Executors

variable (world : World File)

def Error.isFindExecutableInPath : Error → Bool
  | .findExecutableInPath _ _ => true
  | .noExecutableInPath _ => true
  | _ => false

def World.findExecutableInPath (executable : Path) : Posix File Path :=
  tryCatch
    (do
      if ! isFilename executable then
        throw (.nonBasenameExecutable executable)
      if (world.searchPath executable).isEmpty then
        throw (.noExecutableInPath executable)
      pure (world.searchPath executable))
    fun failed =>
      if failed.isFindExecutableInPath then throw failed
      else throw (.findExecutableInPath executable failed)

def getMember {α : Type} (member : Option α) (name : String) :
    Posix File α :=
  match member with
  | some value => pure value
  | none => throw (.uninitialized name)

/-- The part of `sync_execute_impl` in which the temporary file is kept. -/
def World.lendAndExecute (context : Context) (executable currentPath : Path)
    (tmp : Option Path) : Posix File Int :=
  withOwned ((stdinVisitor world).visit world tmp context.stdinData.action)
      Handle.destroy fun stdinFile =>
    withOwned ((stdoutVisitor world).visit world none
        context.stdoutData.action) Handle.destroy fun stdoutFile =>
      withOwned ((stderrVisitor world).visit world none
          context.stderrData.action) Handle.destroy fun stderrFile =>
        Detail.syncExecute world
          { executable := executable
            currentPath := currentPath
            arguments := context.arguments
            environment := context.environment
            stdinFile := stdinFile
            stdoutFile := stdoutFile
            stderrFile := stderrFile }

/-- `native_executor::sync_execute_impl` -/
def World.syncExecuteImpl (context : Context) : Posix File Int := do
  let asked ← getMember context.executable "executable"
  let currentPath ← getMember context.currentPath "current_path"
  let usePath ← getMember context.usePath "use_path"
  let executable ←
    if usePath then world.findExecutableInPath asked else pure asked
  withOwned (context.stdinData.action.tmp world) (removeTmp world)
    (world.lendAndExecute context executable currentPath)

/-- `native_executor::sync_execute` -/
def World.nativeSyncExecute (context : Context) : Posix File Int := do
  let context ← context.build_ world
  world.syncExecuteImpl context

/-- `sync_execute`; what it reports of the context was moved from. -/
def World.syncExecute (context : Context) : Posix File Int :=
  tryCatch (world.nativeSyncExecute context)
    fun cause => throw (.syncExecute cause)

end Executors

end Bacs.Process
