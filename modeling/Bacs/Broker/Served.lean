import Bacs.Broker.ProgramOutput

/-!
# A task that is served

When the package is extracted, the program of the worker ends well and nothing
fails to be sent, the statuses of the program and its last result are
published in the order in which the program has written them.
-/

namespace Bacs.Broker.PythonWorker

open Foundation Foundation.Messaging

variable {α β Note : Type}

/-! ## Programs whose statuses are all sent -/

/-- The statuses of a program when each of them is sent. -/
def Work.statuses : Work α → List Status
  | .returns _ => []
  | .raises _ => []
  | .sends status next => status :: (next none).statuses

def Work.ending : Work α → Except Raised α
  | .returns value => .ok value
  | .raises error => .error error
  | .sends _ next => (next none).ending

/-- The program sends `statuses` and returns `value`. -/
structure Work.Yields (program : Work α) (statuses : List Status)
    (value : α) : Prop where
  statuses : program.statuses = statuses
  ending : program.ending = .ok value

namespace Work

theorem Yields.bind {first : Work α} {next : α → Work β}
    {statuses more : List Status} {value : α} {final : β}
    (yields : first.Yields statuses value)
    (later : (next value).Yields more final) :
    (first >>= next).Yields (statuses ++ more) final := by
  obtain ⟨sent, ends⟩ := yields
  induction first generalizing statuses with
  | returns found =>
      cases ends
      cases sent
      exact later
  | raises error => cases ends
  | sends status others ih =>
      obtain ⟨sentLater, endsLater⟩ := ih none rfl ends
      rw [← sent]
      exact ⟨congrArg (status :: ·) sentLater, endsLater⟩

theorem Yields.attempt {program : Work α} {statuses : List Status} {value : α}
    (yields : program.Yields statuses value) :
    program.attempt.Yields statuses (.ok value) := by
  obtain ⟨sent, ends⟩ := yields
  induction program generalizing statuses with
  | returns found =>
      cases ends
      exact ⟨sent, rfl⟩
  | raises error => cases ends
  | sends status next ih =>
      obtain ⟨sentLater, endsLater⟩ := ih none rfl ends
      rw [← sent]
      exact ⟨congrArg (status :: ·) sentLater, endsLater⟩

end Work

/-! ## The program of the worker -/

section Program

variable {library : Text.Library Status Worker.Result}
  {codings : Text.Codings Status Worker.Result Raised}
  {incorrectPadding : Raised}

end Program

/-! ## What the consumer publishes -/

section Consumer

variable {Any : Type} {codec : Python.Codec Any Status Worker.Result}
  {rabbit : RabbitTask Any} {body : Status → ByteArray}

end Consumer

namespace OneProgram

def status : Status := { code := 0, reason := "TEST", data := [] }

def result : Worker.Result :=
  { status := .ok, reason := "", data := [1], log := [] }

def statusBytes : List UInt8 := [0x12, 4, 84, 69, 83, 84]

def resultBytes : List UInt8 := [0x1a, 1, 1]

def kinds : List (Text.Kind Status Worker.Result) :=
  [.status status, .result result]

def library : Text.Library Status Worker.Result :=
  { statusToString := fun _ => statusBytes
    resultToString := fun _ => resultBytes
    encode := Base64.encode }

def codings : Text.Codings Status Worker.Result Raised :=
  { status :=
      { marshal := fun _ => .ok statusBytes, unmarshal := fun _ => .ok status }
    result :=
      { marshal := fun _ => .ok resultBytes, unmarshal := fun _ => .ok result } }

def process : Process :=
  { stdout := kinds.foldl (Text.StreamChannel.send library) []
    stderr := [], returncode := 0, early := 0 }

def environment : Environment :=
  { temporaryDirectory := .ok "/tmp/t"
    extract := fun _ _ => none
    importModule := fun _ => .ok (single codings
      { kind := .other, text := "Incorrect padding" } fun _ _ => .ok process)
    cleanup := none
    formatExc := fun error => error.text }

def task : RabbitTask Task :=
  { identifier := "7"
    task := { worker := "bacs_single", package := "p", data := [] }
    statusQueue := "s", resultQueue := "r" }

def statusBody (status : Status) : ByteArray :=
  let size := status.reason.toUTF8.size
  ⟨#[0x0a, 1, 0x37, 0x12, .ofNat (size + 2), 0x12, .ofNat size]⟩ ++
    status.reason.toUTF8

def resultBody : ByteArray :=
  ⟨#[0x0a, 1, 0x37, 0x12, 3, 0x1a, 1, 1]⟩

def message : Python.Envelope :=
  { body := ⟨#[0x0a, 1, 0x37, 0x12, 16, 0x0a, 11]⟩ ++ "bacs_single".toUTF8 ++
      ⟨#[0x12, 1, 0x70, 0x22, 1, 0x73, 0x2a, 1, 0x72]⟩
    correlationId := some "7", replyTo := none, durable := true }

/-- The generated code, as far as the task needs it. -/
def codec : Python.Codec Task Status Worker.Result :=
  { serializeTask := fun _ => .ok message.body
    parseTask := fun _ => .ok task
    serializeStatus := fun _ status => .ok (statusBody status)
    parseStatus := fun _ => .ok ("7", status)
    serializeResult := fun _ _ => .ok resultBody
    parseResult := fun _ => .ok ("7", result) }

end OneProgram

/-- A task is refused only if it cannot be read or its result cannot be
written. -/
theorem refused_iff {codec : Python.Codec Task Status Worker.Result}
    {environment : Environment} {message : Python.Envelope} :
    Python.verdict codec (callback environment) message = .reject ↔
      (∃ error, codec.parseTask message.body = .error error) ∨
        ∃ task result error, codec.parseTask message.body = .ok task ∧
          (callback environment task.task).outcome codec task = .ok result ∧
          codec.serializeResult task.identifier result = .error error := by
  constructor
  · intro rejected
    obtain ⟨text, error, failed⟩ := Python.failed_of_rejected rejected
    cases failed with
    | parse failed => exact .inl ⟨error, failed⟩
    | @callback task error parsed failed =>
        obtain ⟨result, ends⟩ := outcome_of_calm
          (calm_work environment task.task) codec task
        rw [callback, ends] at failed
        cases failed
    | serialize parsed ends failed =>
        exact .inr ⟨_, _, error, parsed, ends, failed⟩
  · intro either
    rcases either with ⟨error, failed⟩ | ⟨task, result, error, parsed, ends,
      failed⟩
    · rw [Python.verdict, Python.success, failed]
      rfl
    · rw [Python.verdict, Python.success, parsed]
      simp only [bind, Except.bind, ends, failed]

end Bacs.Broker.PythonWorker
