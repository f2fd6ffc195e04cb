import Mathlib.Data.List.DropRight
import Bacs.Foundation.Numeral
import Bacs.Process.Calls

/-!
# Output of a program

The output is read back from the file that the program has written, in pieces
and not without a limit.
-/

namespace Bacs.Process

open Foundation

variable {File : Type}

/-- `buf_size` -/
def bufSize : Nat :=
  4096

/-- `output_max_size` -/
def outputMaxSize : Nat :=
  10 * (1024 * 1024)

/-- `boost::algorithm::trim` -/
def trim (text : Text) : Text :=
  (text.dropWhile isSpace).rdropWhile isSpace

section Reading

variable (world : World File)

def World.posixRead (number place size : Nat) :
    Posix File (Except Errno Text) :=
  systemCall fun kernel =>
    match kernel.process.table.entry number with
    | none => .error .ebadf
    | some descriptor =>
        let content :=
          (kernel.files (world.locate descriptor.opened.path)).getD []
        .ok ((content.drop place).take size, kernel)

/-- The loop of reads; a short one has come to the end of the file. -/
def World.readLoop (number : Nat) (output : Text) : Posix File Text := do
  let chunk ← expect "read" (world.posixRead number output.length bufSize)
  if _ : chunk.length = bufSize ∧
      (output ++ chunk).length < outputMaxSize then
    World.readLoop number (output ++ chunk)
  else pure (output ++ chunk)
  termination_by outputMaxSize - output.length
  decreasing_by
    have grown : (output ++ chunk).length = output.length + chunk.length :=
      List.length_append
    have positive : 0 < bufSize := by decide
    omega

def World.readOutput [DecidableEq File] (path : Path) : Posix File Text := do
  let number ← expect "open" (world.posixOpen path .rdonly)
  let output ← tryCatch (world.readLoop number []) fun failed => do
    modify (Kernel.closed number)
    throw failed
  expect "close" (posixClose number)
  pure output

end Reading

/-! ## What is read -/

section Contents

variable {world : World File} {kernel : Kernel File} {number : Nat}
  {descriptor : Descriptor Opened}

end Contents

end Bacs.Process
