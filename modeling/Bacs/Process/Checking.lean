import Bacs.Process.Output
import Bacs.Process.Restoring
import Bacs.Process.Starting

/-!
# Checked executions

The output of a program is captured in a temporary file, and a program that
does not end with 0 is an error.
-/

namespace Bacs.Process

open Foundation

variable {File : Type} [DecidableEq File]

def Context.writingTo (context : Context) (path : Path) : Context :=
  { context with stdoutData := .path path, stderrData := .redirectToStdout }

/-- `check_sync_execute_error` and what is derived from it. -/
def Error.isCheckSyncExecute : Error → Bool
  | .nonZeroExitStatus _ _ _ => true
  | .checkSyncExecute _ _ => true
  | _ => false

section Aliases

variable (world : World File)

/-- `sync_execute_with_output`; what it reports of the context was moved
from. -/
def World.syncExecuteWithOutput (context : Context) :
    Posix File (Int × Text) :=
  tryCatch
    (withOwned world.regularFileInTempdir world.removeTemp fun path => do
      let exitStatus ← world.syncExecute (context.writingTo path)
      let output ← world.readOutput path
      pure (exitStatus, trim output))
    fun cause => throw (.syncExecuteWithOutput cause)

/-- The exit status, and the output if it is captured. -/
def World.executeOptionally (context : Context) (withOutput : Bool) :
    Posix File (Int × Option Text) :=
  if withOutput then do
    let (exitStatus, output) ← world.syncExecuteWithOutput context
    pure (exitStatus, some output)
  else do
    let exitStatus ← world.syncExecute context
    pure (exitStatus, none)

/-- `getenv("BUNSAN_PROCESS_INHERIT")` -/
def World.processInherit : Bool :=
  world.environment.any (·.1 = "BUNSAN_PROCESS_INHERIT".toList)

def World.checkSyncExecuteWithOptionalOutput (context : Context)
    (withOutput : Bool) : Posix File Unit :=
  tryCatch
    (do
      let withOutput := withOutput && ! world.processInherit
      let (exitStatus, output) ← world.executeOptionally context withOutput
      if exitStatus ≠ 0 then
        throw (.nonZeroExitStatus exitStatus context output))
    fun failed =>
      if failed.isCheckSyncExecute then throw failed
      else throw (.checkSyncExecute context failed)

def World.checkSyncExecute (context : Context) : Posix File Unit :=
  world.checkSyncExecuteWithOptionalOutput context false

def World.checkSyncExecuteWithOutput (context : Context) : Posix File Unit :=
  world.checkSyncExecuteWithOptionalOutput context true

end Aliases

/-! ## What is answered -/

section Answers

variable {world : World File} {context : Context}
  {kernel drawn next final : Kernel File} {path : Path} {image : Image File}

/-- A text that is to be read is read from a file that contains it, other
than the one that is written to. -/
def Context.Reads (world : World File) (context : Context)
    (kernel : Kernel File) (path : Path) (image : Image File) : Prop :=
  ∀ text, context.stdinData = .data text → ∃ tmp,
    (Meaning.read tmp).Holds kernel.process.table kernel.opens
      (image.process.table.entry 0) ∧
    image.files (world.locate tmp) = some text ∧
    world.locate tmp ≠ world.locate path

/-- How the output was captured: in a new file, of which the beginning is
given. -/
def Context.Captures (world : World File) (context : Context)
    (kernel : Kernel File) (image : Image File) (output : Text) : Prop :=
  ∃ path, kernel.files (world.locate path) = none ∧
    (context.writingTo path).Asks world kernel image ∧
    context.Reads world kernel path image ∧
    output = trim ((((world.program (kernel.images.length + 1) image).2
      (world.locate path)).getD []).take outputMaxSize)

/-- What is answered of an execution, and what is left of it. -/
structure Kernel.Answers (world : World File) (kernel : Kernel File)
    (context : Context) (code : Int) (output : Option Text)
    (next : Kernel File) : Prop where
  tidy : kernel.Tidy world next
  answer : next.images = kernel.images ∧ code = -6 ∨
    ∃ image, next.images = image :: kernel.images ∧
      code = (world.program (kernel.images.length + 1) image).1.code ∧
      match output with
      | none => context.Asks world kernel image
      | some output => context.Captures world kernel image output

omit [DecidableEq File] in
/-- A program that is started after a temporary file was made. -/
theorem Context.Asks.before (asks : context.Asks world drawn image)
    (process : drawn.process = kernel.process)
    (opens : kernel.opens ≤ drawn.opens)
    (files : ∀ file, drawn.files file = none → kernel.files file = none) :
    context.Asks world kernel image := by
  obtain ⟨command, environment, directory, blocked, tmp, wired, given⟩ := asks
  rw [process] at command directory wired
  refine ⟨command, environment, directory, blocked, tmp, wired.mono opens,
    ?_⟩
  intro text isText
  obtain ⟨fresh, written⟩ := given text isText
  exact ⟨files _ fresh, written⟩

omit [DecidableEq File] in
/-- The file that is written to is not the one that is read. -/
theorem Context.Asks.reads
    (asks : (context.writingTo path).Asks world drawn image)
    (existed : drawn.files (world.locate path) ≠ none)
    (process : drawn.process = kernel.process)
    (opens : kernel.opens ≤ drawn.opens) :
    context.Reads world kernel path image := by
  intro text isText
  obtain ⟨tmp, wired, given⟩ := asks.files
  obtain ⟨fresh, written⟩ := given text isText
  have other : world.locate tmp ≠ world.locate path := by
    intro same
    exact existed (same ▸ fresh)
  have apart : ¬ (Meaning.write path).Truncates world
      (world.locate tmp) := by
    rintro ⟨-, same⟩
    exact other same.symm
  have input : (context.stdinData.meaning tmp).Holds _ _ _ := wired.input
  rw [isText, process] at input
  exact ⟨tmp, input.mono opens,
    written apart fun impossible => impossible, other⟩

end Answers

end Bacs.Process
