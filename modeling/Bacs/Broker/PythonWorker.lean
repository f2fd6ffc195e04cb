import Bacs.Broker.PythonService
import Bacs.Broker.TextProtocol
import Bacs.Broker.Worker
import Bacs.Foundation.LenientBase64
import Bacs.Foundation.Words

/-!
# The worker in Python

The callback of the consumer extracts a package, imports the worker that the
task names, and runs it.  The only such worker starts a program of the package
and reads the text protocol from its output.

What a worker sends may fail, and what it does next may depend on that.
-/

namespace Bacs.Broker.PythonWorker

open Foundation

variable {α β : Type}

structure Task where
  worker : String
  package : String
  data : List UInt8
  deriving DecidableEq

structure Status where
  code : Int
  reason : String
  data : List UInt8
  deriving DecidableEq

/-- `protocol_pb2.Result()`. -/
def emptyResult : Worker.Result :=
  { status := .ok, reason := "", data := [], log := [] }

/-! ## Exceptions -/

/-- The classes of exceptions that the worker tells apart. -/
inductive Kind where
  | unknownWorker
  | worker
  | package
  | other
  deriving DecidableEq

structure Raised where
  kind : Kind
  text : String
  deriving DecidableEq

/-- A program that sends statuses; it goes on when a call of `send_status`
has returned or has raised an exception. -/
inductive Work (α : Type) where
  | returns (value : α)
  | raises (error : Raised)
  | sends (status : Status) (next : Option Raised → Work α)

namespace Work

def bind : Work α → (α → Work β) → Work β
  | .returns value, next => next value
  | .raises error, _ => .raises error
  | .sends status later, next => .sends status fun raised =>
      (later raised).bind next

instance : Monad Work where
  pure := .returns
  bind := bind

/-- `try: … except Exception`, as a value. -/
def attempt : Work α → Work (Except Raised α)
  | .returns value => .returns (.ok value)
  | .raises error => .returns (.error error)
  | .sends status next => .sends status fun raised => (next raised).attempt

def send (status : Status) : Work Unit :=
  .sends status fun raised =>
    match raised with
    | some error => .raises error
    | none => .returns ()

/-- The callback of the consumer knows exceptions by their texts, and those it
is told are of no special class. -/
def toCallback : Work Worker.Result → Python.Callback Status Worker.Result
  | .returns result => .returns result
  | .raises error => .raises error.text
  | .sends status next => .sends status fun raised =>
      (next (raised.map fun text => { kind := .other, text })).toCallback

end Work

/-- `StatusSender.send`. -/
def sendStatus (reason : String) (code : Int) : Work Unit :=
  .send { code, reason, data := [] }

/-! ## The callback -/

/-- A worker is called with the root of the package and the data. -/
abbrev Driver : Type := String → List UInt8 → Work Worker.Result

/-- What the callback meets. -/
structure Environment where
  temporaryDirectory : Except Raised String
  extract : String → String → Option Raised
  importModule : String → Except Raised Driver
  cleanup : Option Raised
  formatExc : Raised → String

def raising (raised : Option Raised) : Work Unit :=
  match raised with
  | some error => .raises error
  | none => .returns ()

/-- `_extract`. -/
def extract (environment : Environment) (tmpdir package : String) :
    Work Unit := do
  sendStatus "EXTRACTING" 0
  raising (environment.extract package tmpdir)
  sendStatus "EXTRACTED" 0

/-- `_get_actual_worker`. -/
def getActualWorker (environment : Environment) (worker : String) :
    Except Raised Driver :=
  if '.' ∈ worker.toList then
    .error { kind := .unknownWorker
             text := "Worker name should not contain \".\"" }
  else environment.importModule ("bunsan.broker.worker.imp." ++ worker)

/-- The body of the `with` statement. -/
def execute (environment : Environment) (task : Task) (tmpdir : String) :
    Work Worker.Result := do
  extract environment tmpdir task.package
  match getActualWorker environment task.worker with
  | .error _ => .raises { kind := .unknownWorker, text := "" }
  | .ok driver => driver tmpdir task.data

def Kind.status : Kind → Worker.ResultStatus
  | .unknownWorker => .unknownWorker
  | .worker => .workerError
  | .package => .packageError
  | .other => .error

/-- The handlers of `callback` change the status and the reason of the result
there is. -/
def failed (environment : Environment) (result : Worker.Result)
    (error : Raised) : Worker.Result :=
  { result with
    status := error.kind.status
    reason := environment.formatExc error }

def work (environment : Environment) (task : Task) : Work Worker.Result :=
  match environment.temporaryDirectory with
  | .error error => .returns (failed environment emptyResult error)
  | .ok tmpdir => do
      let executed ← (execute environment task tmpdir).attempt
      let result := executed.toOption.getD emptyResult
      match environment.cleanup, executed with
      | some error, _ => .returns (failed environment result error)
      | none, .error error => .returns (failed environment result error)
      | none, .ok _ =>
          match ← (sendStatus "DONE" 0).attempt with
          | .error error => .returns (failed environment result error)
          | .ok () => .returns result

/-- `Worker.callback`. -/
def callback (environment : Environment) (task : Task) :
    Python.Callback Status Worker.Result :=
  (work environment task).toCallback

/-! ## The worker that runs a program -/

/-- The whitespace of `bytes.split`. -/
def whitespace (character : UInt8) : Bool :=
  character ∈ [32, 9, 10, 13, 11, 12]

/-- The lines of a binary stream, with their line breaks. -/
def linesOf (stream : List UInt8) : List (List UInt8) :=
  let pieces := stream.splitOn Text.newline
  pieces.dropLast.map (· ++ [Text.newline]) ++
    match pieces.getLast? with
    | some (first :: rest) => [first :: rest]
    | _ => []

/-- What a started program has written and how it has ended; `early` lines
were read before a failure was noticed. -/
structure Process where
  stdout : List UInt8
  stderr : List UInt8
  returncode : Int
  early : Nat

section Single

variable (codings : Text.Codings Status Worker.Result Raised)
  /- `binascii.Error`. -/
  (incorrectPadding : Raised)

/-- `read_data`, from the lines and the result so far. -/
def readData : List (List UInt8) → Worker.Result → Work Worker.Result
  | [], result => .returns result
  | line :: rest, result =>
      match words whitespace line with
      | [command, encoded] =>
          match Base64.decodeLenient encoded with
          | none => .raises incorrectPadding
          | some data =>
              if command = Text.statusName then
                match codings.status.unmarshal data with
                | .error error => .raises error
                | .ok status => do
                    Work.send status
                    readData rest result
              else if command = Text.resultName then
                match codings.result.unmarshal data with
                | .error error => .raises error
                | .ok result => readData rest result
              else readData rest result
      | _ => readData rest result

/-- `Worker.__call__`.  Of a program that fails, the statuses are forwarded
that were read before. -/
def single (popen : String → List UInt8 → Except Raised Process) : Driver :=
  fun root data =>
    match popen root data with
    | .error error => .raises error
    | .ok process => do
        sendStatus "EXECUTING" 0
        if process.returncode ≠ 0 then
          let _ ← (readData codings incorrectPadding
            ((linesOf process.stdout).take process.early) emptyResult).attempt
          sendStatus "FAIL" 1
          .returns { emptyResult with
            status := .executionError, log := process.stderr }
        else
          let result ← readData codings incorrectPadding
            (linesOf process.stdout) emptyResult
          sendStatus "DONE" 0
          .returns { result with log := process.stderr }

end Single

/-! ## The callback does not raise exceptions -/

/-- Whatever the calls of `send_status` do, the program ends normally. -/
def Work.Calm : Work α → Prop
  | .returns _ => True
  | .raises _ => False
  | .sends _ next => ∀ raised, (next raised).Calm

theorem Work.calm_bind {first : Work α} {next : α → Work β}
    (calm : first.Calm) (later : ∀ value, (next value).Calm) :
    (first >>= next).Calm := by
  induction first with
  | returns value => exact later value
  | raises error => exact calm.elim
  | sends status others ih =>
      intro raised
      exact ih raised (calm raised)

theorem Work.calm_attempt (program : Work α) : program.attempt.Calm := by
  induction program with
  | returns value => trivial
  | raises error => trivial
  | sends status next ih => exact ih

theorem calm_work (environment : Environment) (task : Task) :
    (work environment task).Calm := by
  unfold work
  cases environment.temporaryDirectory with
  | error error => trivial
  | ok tmpdir =>
      apply Work.calm_bind (Work.calm_attempt _)
      intro executed
      cases environment.cleanup with
      | some error => trivial
      | none =>
          cases executed with
          | error error => trivial
          | ok result =>
              apply Work.calm_bind (Work.calm_attempt _)
              intro sent
              cases sent with
              | error error => trivial
              | ok _ => trivial

theorem outcome_of_calm {program : Work Worker.Result} (calm : program.Calm)
    {Any : Type} (codec : Python.Codec Any Status Worker.Result)
    (task : RabbitTask Any) :
    ∃ result, program.toCallback.outcome codec task = .ok result := by
  induction program with
  | returns result => exact ⟨result, rfl⟩
  | raises error => exact calm.elim
  | sends status next ih =>
      rw [Work.toCallback, Python.Callback.outcome]
      split
      · exact ih _ (calm _)
      · exact ih none (calm none)

end Bacs.Broker.PythonWorker
