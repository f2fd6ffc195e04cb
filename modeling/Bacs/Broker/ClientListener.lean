import Bacs.Broker.PythonService

/-!
# The client

A client sends tasks with its own queues for statuses, results and errors, and
listens to these queues.  A result is acknowledged when the callback for
results has returned, and refused when it has thrown or the message was not a
result; in the second case the callback for errors is called as well.
-/

namespace Bacs.Broker.Client

open Foundation Foundation.Messaging Python

variable {Task Status Result : Type}

/-! ## The queues and the tasks -/

def statusQueue (identifier : String) : String :=
  "client." ++ identifier ++ ".status"

def resultQueue (identifier : String) : String :=
  "client." ++ identifier ++ ".result"

def errorQueue (identifier : String) : String :=
  "client." ++ identifier ++ ".error"

/-- What `Send` publishes. -/
def sendTask (codec : Codec Task Status Result) (identifier : String)
    (resource : List String) (id : String) (task : Task) :
    Except String (String × Envelope) := do
  let data ← codec.serializeTask
    { identifier := id, task, statusQueue := statusQueue identifier
      resultQueue := resultQueue identifier }
  match resource with
  | [queue] =>
      pure (queue,
        { body := data, correlationId := some id
          replyTo := some (errorQueue identifier), durable := true })
  | _ => throw "Supports only single resource constraint"

/-! ## The listeners -/

/-- The calls of the callbacks, and what they have thrown. -/
inductive Event (Status Result : Type) where
  | status (id : String) (status : Status) (thrown : Option String)
  | result (id : String) (result : Result) (thrown : Option String)
  | error (id : Option String) (error : String) (thrown : Option String)
  deriving DecidableEq

/-- What the callbacks throw; `failure` is the callback for errors, when it is
called for an exception. -/
structure Callbacks (Status Result : Type) where
  status : String → Status → Option String
  result : String → Result → Option String
  error : Option String → String → Option String
  failure : Option String → String → Option String

abbrev Listener (Status Result α : Type) : Type :=
  Program String String Envelope (Event Status Result) α

def call (event : Option String → Event Status Result)
    (thrown : Option String) : Listener Status Result Unit := do
  note (event thrown)
  match thrown with
  | some error => throw error
  | none => pure ()

def parsed {α : Type} (serialized : Except String α) :
    Listener Status Result α :=
  match serialized with
  | .error error => throw error
  | .ok value => pure value

/-- `Encoding.UTF8.GetString`; `replaced` is what it makes of bytes that are
not UTF-8. -/
def getString (replaced : ByteArray → String) (body : ByteArray) : String :=
  (String.fromUTF8? body).getD (replaced body)

section Listeners

variable (codec : Codec Task Status Result)
  (callbacks : Callbacks Status Result) (replaced : ByteArray → String)
  (lost : String) (message : Envelope)

/-- `call_message`. -/
def callMessage (messageCallback : Listener Status Result Unit) :
    Listener Status Result Unit :=
  tryCatch messageCallback fun error =>
    tryCatch
      (call (.error message.correlationId error)
        (callbacks.failure message.correlationId error))
      fun _ => pure ()

def statusListener : Listener Status Result Unit := do
  let status ← parsed (codec.parseStatus message.body)
  call (.status status.1 status.2) (callbacks.status status.1 status.2)

def resultListener : Listener Status Result Unit := do
  tryCatch
    (do let result ← parsed (codec.parseResult message.body)
        call (.result result.1 result.2)
          (callbacks.result result.1 result.2))
    fun error => do
      send lost .reject
      throw error
  send lost .ack

def errorListener : Listener Status Result Unit := do
  let text := getString replaced message.body
  call (.error message.correlationId text)
    (callbacks.error message.correlationId text)
  send lost .ack

end Listeners

theorem getString_toUTF8 (replaced : ByteArray → String) (text : String) :
    getString replaced text.toUTF8 = text := by
  unfold getString String.fromUTF8?
  rw [String.toUTF8_eq_toByteArray, dif_pos text.isValidUTF8]
  rfl

/-! ## What they do while the connection holds -/

section Performance

variable {codec : Codec Task Status Result}
  {callbacks : Callbacks Status Result} {replaced : ByteArray → String}
  {lost : String} {message : Envelope}

def told (callbacks : Callbacks Status Result) (message : Envelope)
    (error : String) : List (Move String Envelope (Event Status Result)) :=
  [.note (.error message.correlationId error
    (callbacks.failure message.correlationId error))]

/-- How a callback ends. -/
def returned (thrown : Option String) : Except String Unit :=
  match thrown with
  | some error => .error error
  | none => .ok ()

theorem performs_call (event : Option String → Event Status Result)
    (thrown : Option String) :
    Performs (call event thrown) [.note (event thrown)] (returned thrown) := by
  unfold call
  cases thrown with
  | none => exact (performs_note _).bind (performs_pure ()) steady_pure
  | some error =>
      exact (performs_note _).bind (performs_throw error)
        fun _ => steady_throw error

theorem steady_call (event : Option String → Event Status Result)
    (thrown : Option String) : Steady (call event thrown) :=
  (performs_call event thrown).steady

theorem performs_told (error : String) :
    Performs
      (tryCatch
        (call (.error message.correlationId error)
          (callbacks.failure message.correlationId error))
        fun _ => pure ())
      (told callbacks message error) (.ok ()) := by
  have called : Performs (call (.error message.correlationId error)
      (callbacks.failure message.correlationId error) :
        Listener Status Result Unit) _ _ := performs_call _ _
  unfold told
  cases thrown : callbacks.failure message.correlationId error with
  | none =>
      rw [thrown] at called
      exact called.tryCatch_ok fun _ => steady_pure ()
  | some again =>
      rw [thrown] at called
      exact called.tryCatch_error (performs_pure ()) fun _ => steady_pure ()

theorem performs_callMessage_ok
    {listener : Listener Status Result Unit}
    {moves : List (Move String Envelope (Event Status Result))}
    (performs : Performs listener moves (.ok ())) :
    Performs (callMessage callbacks message listener) moves (.ok ()) :=
  performs.tryCatch_ok fun error => (performs_told error).steady

theorem performs_callMessage_error
    {listener : Listener Status Result Unit}
    {moves : List (Move String Envelope (Event Status Result))}
    {error : String} (performs : Performs listener moves (.error error)) :
    Performs (callMessage callbacks message listener)
      (moves ++ told callbacks message error) (.ok ()) :=
  performs.tryCatch_error (performs_told error) fun error =>
    (performs_told error).steady

/-- What the result listener does before it settles the message, the frame
that settles it, and what comes afterwards. -/
def resultMoves (codec : Codec Task Status Result)
    (callbacks : Callbacks Status Result) (message : Envelope) :
    List (Move String Envelope (Event Status Result)) ×
      Frame String Envelope ×
        List (Move String Envelope (Event Status Result)) :=
  match codec.parseResult message.body with
  | .error error => ([], .reject, told callbacks message error)
  | .ok (id, result) =>
      let thrown := callbacks.result id result
      ([.note (.result id result thrown)],
        match thrown with
        | some error => (.reject, told callbacks message error)
        | none => (.ack, []))

theorem performs_refusing {listener : Listener Status Result Unit}
    {moves : List (Move String Envelope (Event Status Result))}
    {error : String} (performs : Performs listener moves (.error error)) :
    Performs (do
        tryCatch listener fun error => do
          send lost .reject
          throw error
        send lost .ack)
      (moves ++ [.send .reject]) (.error error) := by
  have steadyRefusal : ∀ error : String, Steady (do
      send lost .reject
      throw error : Listener Status Result Unit) :=
    fun error => (steady_send lost .reject).bind fun _ => steady_throw error
  apply Performs.bind_error
  · apply performs.tryCatch_error _ steadyRefusal
    exact (performs_send lost .reject).bind (performs_throw error)
      fun _ => steady_throw error
  · exact fun _ => steady_send lost .ack

theorem performs_accepting {listener : Listener Status Result Unit}
    {moves : List (Move String Envelope (Event Status Result))}
    (performs : Performs listener moves (.ok ())) :
    Performs (do
        tryCatch listener fun error => do
          send lost .reject
          throw error
        send lost .ack)
      (moves ++ [.send .ack]) (.ok ()) := by
  apply Performs.bind
  · apply performs.tryCatch_ok
    exact fun error =>
      (steady_send lost .reject).bind fun _ => steady_throw error
  · exact performs_send lost .ack
  · exact fun _ => steady_send lost .ack

theorem performs_resultListener :
    Performs
      (callMessage callbacks message (resultListener codec callbacks lost
        message))
      ((resultMoves codec callbacks message).1 ++
        .send (resultMoves codec callbacks message).2.1 ::
          (resultMoves codec callbacks message).2.2)
      (.ok ()) := by
  have later : ∀ result : String × Result, Steady
      (call (.result result.1 result.2)
        (callbacks.result result.1 result.2) :
          Listener Status Result Unit) :=
    fun result => steady_call _ _
  rw [resultListener, resultMoves]
  cases codec.parseResult message.body with
  | error error =>
      exact performs_callMessage_error
        (performs_refusing ((performs_throw error).bind_error later))
  | ok result =>
      obtain ⟨id, result⟩ := result
      have called : Performs (do
          let result ← parsed (.ok (id, result))
          call (.result result.1 result.2)
            (callbacks.result result.1 result.2) :
          Listener Status Result Unit) _ _ :=
        (performs_pure (id, result)).bind (performs_call _ _) later
      simp only at called ⊢
      cases thrown : callbacks.result id result with
      | some error =>
          rw [thrown] at called
          rw [List.append_cons]
          exact performs_callMessage_error (performs_refusing called)
      | none =>
          rw [thrown] at called
          exact performs_callMessage_ok (performs_accepting called)

/-- What the error listener does, when it settles the message and when it
does not. -/
def errorMoves (callbacks : Callbacks Status Result)
    (replaced : ByteArray → String) (message : Envelope) :
    List (Move String Envelope (Event Status Result)) :=
  let text := getString replaced message.body
  let thrown := callbacks.error message.correlationId text
  .note (.error message.correlationId text thrown) ::
    match thrown with
    | some error => told callbacks message error
    | none => [.send .ack]

theorem performs_errorListener :
    Performs
      (callMessage callbacks message (errorListener callbacks replaced lost
        message))
      (errorMoves callbacks replaced message) (.ok ()) := by
  have called : Performs (call
      (.error message.correlationId (getString replaced message.body))
      (callbacks.error message.correlationId
        (getString replaced message.body)) :
        Listener Status Result Unit) _ _ := performs_call _ _
  rw [errorListener, errorMoves]
  cases thrown : callbacks.error message.correlationId
      (getString replaced message.body) with
  | some error =>
      rw [thrown] at called
      exact performs_callMessage_error
        (called.bind_error fun _ => steady_send lost .ack)
  | none =>
      rw [thrown] at called
      exact performs_callMessage_ok
        (called.bind (performs_send lost .ack) fun _ => steady_send lost .ack)

def statusMoves (codec : Codec Task Status Result)
    (callbacks : Callbacks Status Result) (message : Envelope) :
    List (Move String Envelope (Event Status Result)) :=
  match codec.parseStatus message.body with
  | .error error => told callbacks message error
  | .ok (id, status) =>
      let thrown := callbacks.status id status
      .note (.status id status thrown) ::
        match thrown with
        | some error => told callbacks message error
        | none => []

theorem performs_statusListener :
    Performs
      (callMessage callbacks message (statusListener codec callbacks message))
      (statusMoves codec callbacks message) (.ok ()) := by
  have later : ∀ status : String × Status, Steady
      (call (.status status.1 status.2)
        (callbacks.status status.1 status.2) :
          Listener Status Result Unit) :=
    fun status => steady_call _ _
  rw [statusListener, statusMoves]
  cases codec.parseStatus message.body with
  | error error =>
      exact performs_callMessage_error
        ((performs_throw error).bind_error later)
  | ok status =>
      obtain ⟨id, status⟩ := status
      have called : Performs (do
          let status ← parsed (.ok (id, status))
          call (.status status.1 status.2)
            (callbacks.status status.1 status.2) :
          Listener Status Result Unit) _ _ :=
        (performs_pure (id, status)).bind (performs_call _ _) later
      simp only at called ⊢
      cases thrown : callbacks.status id status with
      | some error =>
          rw [thrown] at called
          exact performs_callMessage_error called
      | none =>
          rw [thrown] at called
          exact performs_callMessage_ok called

/-! ## What is seen of the listeners -/

variable {before moves : List (Move String Envelope (Event Status Result))}
  {frame : Frame String Envelope} {queue : String} {envelope : Envelope}

/-- A result is settled after its callback, as the callback has ended. -/
theorem result_settled
    (did : Does (callMessage callbacks message
      (resultListener codec callbacks lost message))
        (before ++ [.send frame])) :
    before = (resultMoves codec callbacks message).1 ∧
      frame = (resultMoves codec callbacks message).2.1 := by
  have only : frames ((resultMoves codec callbacks message).1 ++
      .send (resultMoves codec callbacks message).2.1 ::
        (resultMoves codec callbacks message).2.2) =
      [(resultMoves codec callbacks message).2.1] ∧
      frames (resultMoves codec callbacks message).1 = [] ∧
      frames (resultMoves codec callbacks message).2.2 = [] := by
    rw [resultMoves]
    cases codec.parseResult message.body with
    | error error => exact ⟨rfl, rfl, rfl⟩
    | ok result =>
        simp only
        cases callbacks.result result.1 result.2 with
        | some error => exact ⟨rfl, rfl, rfl⟩
        | none => exact ⟨rfl, rfl, rfl⟩
  have sent : frame ∈ frames (before ++ [Move.send frame]) :=
    mem_frames.mpr (by simp)
  have expected := (performs_resultListener.sends did).subset sent
  rw [only.1] at expected
  cases List.mem_singleton.mp expected
  refine ⟨performs_resultListener.settled ?_ only.2.2 did, rfl⟩
  rw [only.2.1]
  simp

theorem result_acked
    (did : Does (callMessage callbacks message
      (resultListener codec callbacks lost message))
        (before ++ [.send .ack])) :
    ∃ id result, codec.parseResult message.body = .ok (id, result) ∧
      before = [.note (.result id result none)] := by
  obtain ⟨body, last⟩ := result_settled did
  rw [body]
  rw [resultMoves] at last ⊢
  cases ends : codec.parseResult message.body with
  | error error =>
      rw [ends] at last
      cases last
  | ok result =>
      obtain ⟨id, result⟩ := result
      simp only [ends] at last ⊢
      cases thrown : callbacks.result id result with
      | some error =>
          rw [thrown] at last
          cases last
      | none => exact ⟨id, result, rfl, rfl⟩

theorem result_rejected
    (did : Does (callMessage callbacks message
      (resultListener codec callbacks lost message))
        (before ++ [.send .reject])) :
    (∃ error, codec.parseResult message.body = .error error) ∨
      ∃ id result error, codec.parseResult message.body = .ok (id, result) ∧
        before = [.note (.result id result (some error))] := by
  obtain ⟨body, last⟩ := result_settled did
  rw [body]
  rw [resultMoves] at last ⊢
  cases ends : codec.parseResult message.body with
  | error error => exact .inl ⟨error, rfl⟩
  | ok result =>
      obtain ⟨id, result⟩ := result
      simp only [ends] at last ⊢
      cases thrown : callbacks.result id result with
      | some error => exact .inr ⟨id, result, error, rfl, rfl⟩
      | none =>
          rw [thrown] at last
          cases last

theorem error_settled
    (did : Does (callMessage callbacks message
      (errorListener callbacks replaced lost message))
        (before ++ [.send frame])) :
    frame = .ack ∧ before = [.note (.error message.correlationId
      (getString replaced message.body) none)] := by
  have performs : Performs (callMessage callbacks message
      (errorListener callbacks replaced lost message)) _ _ :=
    performs_errorListener
  have sent : frame ∈ frames (before ++ [Move.send frame]) :=
    mem_frames.mpr (by simp)
  have expected := (performs.sends did).subset sent
  rw [errorMoves] at performs expected
  cases thrown : callbacks.error message.correlationId
      (getString replaced message.body) with
  | some error =>
      simp only [thrown] at expected
      cases expected
  | none =>
      simp only [thrown] at performs expected
      cases List.mem_singleton.mp expected
      refine ⟨rfl, ?_⟩
      have alone : ∀ event : Event Status Result,
          Frame.ack ∉ frames ([.note event] :
            List (Move String Envelope (Event Status Result))) := by
        intro event member
        cases member
      exact Performs.settled performs (alone _) frames_nil did

theorem send_not_mem_told {error : String} :
    .send frame ∉ told callbacks message error := by
  simp [told]

theorem status_publishes_nothing
    (did : Does (callMessage callbacks message
      (statusListener codec callbacks message)) moves) :
    .send (.publish queue envelope) ∉ moves := by
  intro member
  have sent := mem_frames.mp
    ((performs_statusListener.sends did).subset (mem_frames.mpr member))
  rw [statusMoves] at sent
  split at sent
  · exact send_not_mem_told sent
  · rcases List.mem_cons.mp sent with impossible | later
    · cases impossible
    · split at later
      · exact send_not_mem_told later
      · cases later

theorem result_publishes_nothing
    (did : Does (callMessage callbacks message
      (resultListener codec callbacks lost message)) moves) :
    .send (.publish queue envelope) ∉ moves := by
  intro member
  have sent := mem_frames.mp
    ((performs_resultListener.sends did).subset (mem_frames.mpr member))
  rw [resultMoves] at sent
  split at sent
  · rcases List.mem_cons.mp sent with impossible | later
    · cases impossible
    · exact send_not_mem_told later
  · simp only [List.cons_append, List.nil_append] at sent
    split at sent
    · simp [told] at sent
    · simp at sent

theorem error_publishes_nothing
    (did : Does (callMessage callbacks message
      (errorListener callbacks replaced lost message)) moves) :
    .send (.publish queue envelope) ∉ moves := by
  intro member
  have sent := mem_frames.mp
    ((performs_errorListener.sends did).subset (mem_frames.mpr member))
  rw [errorMoves] at sent
  rcases List.mem_cons.mp sent with impossible | later
  · cases impossible
  · split at later
    · exact send_not_mem_told later
    · simp at later

/-! ## The calls of the listeners, with the connection or without it -/

variable {allowed : Event Status Result → Prop}

theorem notes_call {event : Option String → Event Status Result}
    {thrown : Option String} (known : allowed (event thrown)) :
    Notes allowed (call event thrown) := by
  apply (notes_note known).bind
  intro _
  cases thrown with
  | none => exact notes_pure ()
  | some error => exact notes_throw error

/-- The exceptions of a listener are only told to the callback for errors. -/
theorem notes_callMessage {listener : Listener Status Result Unit}
    (errors : ∀ id error thrown, allowed (.error id error thrown))
    (notes : Notes allowed listener) :
    Notes allowed (callMessage callbacks message listener) := by
  apply notes.tryCatch
  intro error
  apply (notes_call (errors _ _ _)).tryCatch
  exact fun _ => notes_pure ()

theorem notes_resultListener :
    Notes
      (fun event => ∀ id result thrown, event = .result id result thrown →
        codec.parseResult message.body = .ok (id, result))
      (callMessage callbacks message (resultListener codec callbacks lost
        message)) := by
  apply notes_callMessage
  · intro _ _ _ _ _ _ impossible
    cases impossible
  apply Notes.bind
  · apply Notes.tryCatch
    · cases ends : codec.parseResult message.body with
      | error error => exact notes_throw error
      | ok result =>
          apply notes_call
          intro id other thrown same
          cases same
          rfl
    · intro error
      exact (notes_send lost .reject).bind fun _ => notes_throw error
  · exact fun _ => notes_send lost .ack

def isResult : Event Status Result → Bool
  | .result _ _ _ => true
  | _ => false

theorem atMost_call (event : Option String → Event Status Result)
    (thrown : Option String) :
    AtMost isResult (if isResult (event thrown) then 1 else 0)
      (call event thrown) := by
  change AtMost isResult (_ + 0) _
  apply (atMost_note (event thrown)).bind
  intro _
  cases thrown with
  | none => exact atMost_pure ()
  | some error => exact atMost_throw error

theorem atMost_resultListener :
    AtMost isResult 1
      (callMessage callbacks message (resultListener codec callbacks lost
        message)) := by
  change AtMost isResult (1 + 0 + 0 + 0) _
  have listener : AtMost isResult (1 + 0 + 0)
      (resultListener codec callbacks lost message) := by
    apply AtMost.bind
    · apply AtMost.tryCatch
      · cases codec.parseResult message.body with
        | error error =>
            intro session
            exact Nat.le_add_right _ _
        | ok result => exact atMost_call _ _
      · intro error
        exact (atMost_send lost .reject).bind fun _ => atMost_throw error
    · exact fun _ => atMost_send lost .ack
  apply listener.tryCatch
  intro error
  change AtMost isResult (0 + 0) _
  apply (atMost_call _ _).tryCatch
  exact fun _ => atMost_pure ()

end Performance

end Bacs.Broker.Client
