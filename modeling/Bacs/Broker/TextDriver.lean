import Bacs.Broker.TextRoundTrip

/-!
# The text driver

The driver runs a program, reads events from its standard output, and makes
a result of the last result event and of how the program has ended.  The child
stands for the process that the command of a task starts.
-/

namespace Bacs.Broker.TextDriver

open Foundation Text

variable {Status Error : Type}

/-- The enumeration is open: a message may hold any number. -/
abbrev ResultStatus := Int32

namespace ResultStatus

def ok : ResultStatus := 0

def executionError : ResultStatus := 400

end ResultStatus

structure Result where
  status : ResultStatus
  reason : String
  data : Bytes
  log : Bytes
  deriving DecidableEq, Repr

def Result.zero : Result :=
  { status := 0, reason := "", data := [], log := [] }

/-! ## The process -/

inductive ProcessState where
  | exited (status : Nat)
  | signaled (signal : String)
  deriving DecidableEq, Repr

namespace ProcessState

def success (state : ProcessState) : Bool :=
  state = .exited 0

def text : ProcessState → String
  | .exited status => "exit status " ++ toString status
  | .signaled signal => "signal: " ++ signal

end ProcessState

structure Child (Error : Type) where
  /-- The error of `StdoutPipe`. -/
  pipe : Option Error
  /-- The error of `Start`. -/
  start : Option Error
  /-- What the process writes to its standard output.  If the parser stops
  before its end, the process may be ended by a signal for it. -/
  output : Bytes
  stderr : Bytes
  state : ProcessState
  /-- The error of the goroutines that feed the process. -/
  copying : Option Error
  deriving DecidableEq

def Child.Started (child : Child Error) : Prop :=
  child.pipe = none ∧ child.start = none

/-- The errors that the driver meets, by their types. -/
inductive DriverError (Error : Type) where
  | system (error : Error)
  | reader (error : ReadError Error)
  /-- `*exec.ExitError` -/
  | exit (state : ProcessState)
  /-- `*RunnerError` -/
  | runner (exec parser : DriverError Error)
  deriving DecidableEq, Repr

/-- `cmd.Wait` -/
def Child.wait (child : Child Error) : Option (DriverError Error) :=
  if child.state.success then child.copying.map .system
  else some (.exit child.state)

/-- The deferred call of `stdoutRunner.Run`. -/
def join (err werr : Option (DriverError Error)) :
    Option (DriverError Error) :=
  match err, werr with
  | none, werr => werr
  | some parser, some exec => some (.runner exec parser)
  | some parser, none => some parser

/-- `stdoutRunner.Run` with a parser that changes a state; `none` if the
parser ends the driver's own process. -/
def runStdout {State : Type} (child : Child Error)
    (parser : Bytes → State → Option (State × Option (DriverError Error)))
    (initial : State) : Option (State × Option (DriverError Error)) :=
  match child.pipe with
  | some error => some (initial, some (.system error))
  | none =>
      match child.start with
      | some error => some (initial, some (.system error))
      | none =>
          (parser child.output initial).map fun (state, err) =>
            (state, join err child.wait)

/-! ## The parser -/

structure Parsed (Status : Type) where
  statuses : List Status
  result : Result
  deriving DecidableEq

theorem readEvent_shorter {codings : Codings Status Result Error}
    {stream rest : Bytes} {event : Event Status Result}
    (read : readEvent codings stream = (.ok event, rest)) :
    rest.length < stream.length := by
  obtain absent | ⟨line, rest', unbroken, same⟩ := first_line newline stream
  · rw [readEvent, readRawEvent, cutLine_eq_none.mpr absent] at read
    cases read
  · rw [same, readEvent_line unbroken] at read
    obtain ⟨_, kept⟩ := Prod.mk.inj read
    rw [same, ← kept, List.length_append, List.length_cons]
    omega

/-- The loop of the parser; `none` is `log.Fatal`. -/
def parse (codings : Codings Status Result Error) (stream : Bytes)
    (parsed : Parsed Status) :
    Option (Parsed Status × Option (DriverError Error)) :=
  match _read : readEvent codings stream with
  | (.ok event, rest) =>
      match event.kind with
      | some (.status status) =>
          parse codings rest
            { parsed with statuses := parsed.statuses ++ [status] }
      | some (.result result) => parse codings rest { parsed with result }
      | none => none
  | (.error error, _) =>
      match error with
      | .eof => some (parsed, none)
      | error => some (parsed, some (.reader error))
termination_by stream.length
decreasing_by
  · exact readEvent_shorter _read
  · exact readEvent_shorter _read

/-! ## The driver -/

/-- What `TextDriver.Run` makes of the error of the runner. -/
def finish (result : Result) (stderr : Bytes) :
    Option (DriverError Error) → Result × Option (DriverError Error)
  | some (.exit state) =>
      ({ result with
          status := .executionError, reason := state.text, log := stderr },
        none)
  | err => ({ result with log := stderr }, err)

/-- `TextDriver.Run`, with the statuses it sends. -/
def run (codings : Codings Status Result Error) (child : Child Error) :
    Option (List Status × Result × Option (DriverError Error)) :=
  (runStdout child (parse codings)
    { statuses := [], result := .zero }).map fun (parsed, err) =>
      (parsed.statuses, finish parsed.result child.stderr err)

end Bacs.Broker.TextDriver
