import Bacs.Broker.Delivery
import Bacs.Foundation.Outcome
import Bacs.Foundation.Sending

/-!
# The consumer

A delivered task is parsed and given to the callback, whose statuses go to the
status queue and whose result goes to the result queue.  Whatever fails is
reported to the queue for replies, if there is one.  The task is acknowledged
when its result was sent and refused when anything failed; it is never queued
again.

An exception is known by its text.
-/

namespace Bacs.Broker.Python

open Foundation Foundation.Messaging

variable {Task Status Result Note : Type}

/-- A message with the properties that are used. -/
structure Envelope where
  body : ByteArray
  correlationId : Option String
  replyTo : Option String
  /-- `delivery_mode=2`. -/
  durable : Bool

/-- The generated code for the messages, in Python and in C#. -/
structure Codec (Task Status Result : Type) where
  serializeTask : RabbitTask Task → Except String ByteArray
  parseTask : ByteArray → Except String (RabbitTask Task)
  serializeStatus : String → Status → Except String ByteArray
  parseStatus : ByteArray → Except String (String × Status)
  serializeResult : String → Result → Except String ByteArray
  parseResult : ByteArray → Except String (String × Result)

abbrev Service (Note α : Type) : Type :=
  Program String String Envelope Note α

/-! ## The senders -/

structure Sender where
  queue : Option String
  identifier : Option String
  durable : Bool

namespace Sender

variable (sender : Sender)

/-- The queue, unless it is `None` or empty. -/
def route : Option String :=
  sender.queue.filter (· ≠ "")

def envelope (body : ByteArray) : Envelope :=
  { body, correlationId := sender.identifier, replyTo := none
    durable := sender.durable }

def send (lost : String) (body : ByteArray) : Service Note Unit :=
  match sender.route with
  | some queue =>
      Messaging.send lost (.publish queue (sender.envelope body))
  | none => pure ()

/-- `sendmsg` with a format that ends with its argument. -/
def sendmsg (lost text error : String) : Service Note Unit :=
  sender.send lost (text ++ error).toUTF8

def sendProto (lost : String) (serialized : Except String ByteArray) :
    Service Note Unit :=
  match serialized with
  | .error error => throw error
  | .ok body => sender.send lost body

end Sender

def statusSender (task : RabbitTask Task) : Sender :=
  { queue := some task.statusQueue, identifier := some task.identifier
    durable := false }

def resultSender (task : RabbitTask Task) : Sender :=
  { queue := some task.resultQueue, identifier := some task.identifier
    durable := true }

def errorSender (message : Envelope) : Sender :=
  { queue := message.replyTo, identifier := message.correlationId
    durable := true }

/-! ## The callback -/

/-- A callback is known by the statuses it sends, and by what it does when
`send_status` has returned or has raised an exception. -/
inductive Callback (Status Result : Type) where
  | returns (result : Result)
  | raises (error : String)
  | sends (status : Status) (next : Option String → Callback Status Result)

def Callback.run (sendStatus : Status → Service Note Unit) :
    Callback Status Result → Service Note Result
  | .returns result => pure result
  | .raises error => throw error
  | .sends status next => do
      let raised ← tryCatch (do sendStatus status; pure none)
        fun error => pure (some error)
      (next raised).run sendStatus

/-! ## The consumer -/

section Consumer

variable (codec : Codec Task Status Result)
  (callback : Task → Callback Status Result)
  /- What the exception says when the connection is lost. -/
  (lost : String)

/-- `except Exception as e: error_sender.sendmsg(…, e); raise`. -/
def reporting {α : Type} (message : Envelope) (text : String)
    (program : Service Note α) : Service Note α :=
  tryCatch program fun error => do
    (errorSender message).sendmsg lost text error
    throw error

def sendStatus (task : RabbitTask Task) (status : Status) :
    Service Note Unit :=
  (statusSender task).sendProto lost
    (codec.serializeStatus task.identifier status)

def parsed (serialized : Except String (RabbitTask Task)) :
    Service Note (RabbitTask Task) :=
  match serialized with
  | .error error => throw error
  | .ok task => pure task

/-- `_do_consume`. -/
def doConsume (message : Envelope) : Service Note Unit := do
  let task ← reporting lost message "Unable to parse task proto: "
    (parsed (codec.parseTask message.body))
  let result ← reporting lost message "Unable to complete callback: "
    ((callback task.task).run (sendStatus codec lost task))
  reporting lost message "Unable to serialize result proto: "
    ((resultSender task).sendProto lost
      (codec.serializeResult task.identifier result))

/-- `_consume`. -/
def consume (message : Envelope) : Service Note Unit :=
  tryCatch
    (do doConsume codec callback lost message
        Messaging.send lost .ack)
    fun _ => Messaging.send lost .reject

end Consumer

/-! ## What they do while the connection holds -/

def Sender.sent (sender : Sender) (body : ByteArray) :
    List (Move String Envelope Note) :=
  (sender.route.map fun queue =>
    .send (.publish queue (sender.envelope body))).toList

/-- How the callback ends. -/
def Callback.outcome (codec : Codec Task Status Result)
    (task : RabbitTask Task) : Callback Status Result → Except String Result
  | .returns result => .ok result
  | .raises error => .error error
  | .sends status next =>
      match codec.serializeStatus task.identifier status with
      | .error error => (next (some error)).outcome codec task
      | .ok _ => (next none).outcome codec task

/-- What the callback sends. -/
def Callback.sent (codec : Codec Task Status Result)
    (task : RabbitTask Task) :
    Callback Status Result → List (Move String Envelope Note)
  | .returns _ => []
  | .raises _ => []
  | .sends status next =>
      match codec.serializeStatus task.identifier status with
      | .error error => (next (some error)).sent codec task
      | .ok body =>
          (statusSender task).sent body ++ (next none).sent codec task

def reported (message : Envelope) (text error : String) :
    List (Move String Envelope Note) :=
  (errorSender message).sent (text ++ error).toUTF8

def resultSent (codec : Codec Task Status Result) (message : Envelope)
    (task : RabbitTask Task) (result : Result) :
    List (Move String Envelope Note) :=
  match codec.serializeResult task.identifier result with
  | .error error => reported message "Unable to serialize result proto: " error
  | .ok body => (resultSender task).sent body

def taskSent (codec : Codec Task Status Result)
    (callback : Task → Callback Status Result) (message : Envelope)
    (task : RabbitTask Task) : List (Move String Envelope Note) :=
  (callback task.task).sent codec task ++
    match (callback task.task).outcome codec task with
    | .error error => reported message "Unable to complete callback: " error
    | .ok result => resultSent codec message task result

/-- What is sent for a message before it is settled. -/
def answer (codec : Codec Task Status Result)
    (callback : Task → Callback Status Result) (message : Envelope) :
    List (Move String Envelope Note) :=
  match codec.parseTask message.body with
  | .error error => reported message "Unable to parse task proto: " error
  | .ok task => taskSent codec callback message task

/-- The task, its result and the body that is sent, if all goes well. -/
def success (codec : Codec Task Status Result)
    (callback : Task → Callback Status Result) (message : Envelope) :
    Except String (RabbitTask Task × Result × ByteArray) := do
  let task ← codec.parseTask message.body
  let result ← (callback task.task).outcome codec task
  let body ← codec.serializeResult task.identifier result
  pure (task, result, body)

def verdict (codec : Codec Task Status Result)
    (callback : Task → Callback Status Result) (message : Envelope) :
    Frame String Envelope :=
  match success codec callback message with
  | .error _ => .reject
  | .ok _ => .ack

section Performance

variable {codec : Codec Task Status Result}
  {callback : Task → Callback Status Result} {lost : String}
  {sender : Sender} {message : Envelope} {task : RabbitTask Task}

theorem performs_sender_send (body : ByteArray) :
    Performs (sender.send lost body : Service Note Unit) (sender.sent body)
      (.ok ()) := by
  unfold Sender.send Sender.sent
  cases sender.route with
  | none => exact performs_pure ()
  | some queue => exact performs_send lost _

theorem performs_sendProto_ok (body : ByteArray) :
    Performs (sender.sendProto lost (.ok body) : Service Note Unit)
      (sender.sent body) (.ok ()) :=
  performs_sender_send body

theorem performs_sendProto_error (error : String) :
    Performs (sender.sendProto lost (.error error) : Service Note Unit) []
      (.error error) :=
  performs_throw error

theorem steady_report {α : Type} (text error : String) :
    Steady (do
      sender.sendmsg lost text error
      throw error : Service Note α) :=
  (performs_sender_send _).steady.bind fun _ => steady_throw error

theorem performs_reporting_ok {α : Type} {program : Service Note α}
    {moves : List (Move String Envelope Note)} {value : α} (text : String)
    (performs : Performs program moves (.ok value)) :
    Performs (reporting lost message text program) moves (.ok value) :=
  performs.tryCatch_ok (steady_report text)

theorem performs_reporting_error {α : Type} {program : Service Note α}
    {moves : List (Move String Envelope Note)} {error : String}
    (text : String) (performs : Performs program moves (.error error)) :
    Performs (reporting lost message text program)
      (moves ++ (errorSender message).sent (text ++ error).toUTF8)
      (.error error) := by
  apply performs.tryCatch_error _ (steady_report text)
  have reported : Performs (do
      (errorSender message).sendmsg lost text error
      throw error : Service Note α) _ (.error error) :=
    (performs_sender_send (text ++ error).toUTF8).bind (performs_throw error)
      fun _ => steady_throw error
  rwa [List.append_nil] at reported

/-- By induction on the callback, whatever it makes of an exception. -/
theorem performs_callback (callback : Callback Status Result) :
    Performs (callback.run (sendStatus codec lost task) : Service Note Result)
      (callback.sent codec task) (callback.outcome codec task) := by
  induction callback with
  | returns result => exact performs_pure result
  | raises error => exact performs_throw error
  | sends status next ih =>
      have later : ∀ raised, Steady ((next raised).run
          (sendStatus codec lost task) : Service Note Result) :=
        fun raised => (ih raised).steady
      have handled : ∀ error : String,
          Steady (pure (some error) : Service Note (Option String)) :=
        fun error => steady_pure _
      have silent : ∀ _ : Unit,
          Steady (pure none : Service Note (Option String)) :=
        fun _ => steady_pure none
      rw [Callback.run, Callback.sent, Callback.outcome, sendStatus]
      cases codec.serializeStatus task.identifier status with
      | error error =>
          have thrown : Performs (do
              (statusSender task).sendProto lost (.error error)
              pure none : Service Note (Option String)) [] (.error error) :=
            (performs_sendProto_error error).bind_error silent
          exact (thrown.tryCatch_error (performs_pure _) handled).bind
            (ih (some error)) later
      | ok body =>
          have ran : Performs (do
              (statusSender task).sendProto lost (.ok body)
              pure none : Service Note (Option String)) _ (.ok none) :=
            (performs_sendProto_ok body).bind (performs_pure none) silent
          rw [List.append_nil] at ran
          exact (ran.tryCatch_ok handled).bind (ih none) later

theorem performs_result (result : Result) :
    Performs (reporting lost message "Unable to serialize result proto: "
      ((resultSender task).sendProto lost
        (codec.serializeResult task.identifier result)) :
          Service Note Unit)
      (resultSent codec message task result)
      ((codec.serializeResult task.identifier result).map fun _ => ()) := by
  rw [resultSent]
  cases codec.serializeResult task.identifier result with
  | error error =>
      exact performs_reporting_error _ (performs_sendProto_error error)
  | ok body => exact performs_reporting_ok _ (performs_sendProto_ok body)

theorem performs_task (task : RabbitTask Task) :
    Performs (do
        let result ← reporting lost message "Unable to complete callback: "
          ((callback task.task).run (sendStatus codec lost task))
        reporting lost message "Unable to serialize result proto: "
          ((resultSender task).sendProto lost
            (codec.serializeResult task.identifier result)) :
        Service Note Unit)
      (taskSent codec callback message task)
      ((callback task.task).outcome codec task >>= fun result =>
        (codec.serializeResult task.identifier result).map fun _ => ()) := by
  have called : Performs ((callback task.task).run
      (sendStatus codec lost task) : Service Note Result) _ _ :=
    performs_callback (callback task.task)
  have later : ∀ result, Steady (reporting lost message
      "Unable to serialize result proto: "
      ((resultSender task).sendProto lost
        (codec.serializeResult task.identifier result)) :
          Service Note Unit) :=
    fun result => (performs_result result).steady
  rw [taskSent]
  cases ends : (callback task.task).outcome codec task with
  | error error =>
      rw [ends] at called
      exact (performs_reporting_error _ called).bind_error later
  | ok result =>
      rw [ends] at called
      exact (performs_reporting_ok _ called).bind (performs_result result)
        later

theorem performs_doConsume :
    Performs (doConsume codec callback lost message : Service Note Unit)
      (answer codec callback message)
      ((success codec callback message).map fun _ => ()) := by
  have later : ∀ task, Steady (do
      let result ← reporting lost message "Unable to complete callback: "
        ((callback task.task).run (sendStatus codec lost task))
      reporting lost message "Unable to serialize result proto: "
        ((resultSender task).sendProto lost
          (codec.serializeResult task.identifier result)) :
      Service Note Unit) :=
    fun task => (performs_task task).steady
  rw [doConsume, answer, success]
  cases codec.parseTask message.body with
  | error error =>
      exact (performs_reporting_error _ (performs_throw error)).bind_error
        later
  | ok task =>
      have ends : ((do
          let task ← Except.ok task
          let result ← (callback task.task).outcome codec task
          let body ← codec.serializeResult task.identifier result
          pure (task, result, body) :
            Except String (RabbitTask Task × Result × ByteArray)).map
              fun _ => ()) =
          (callback task.task).outcome codec task >>= fun result =>
            (codec.serializeResult task.identifier result).map
              fun _ => () := by
        cases outcome : (callback task.task).outcome codec task with
        | error error =>
            simp only [bind, Except.bind, outcome]
            rfl
        | ok result =>
            simp only [bind, Except.bind, outcome]
            cases codec.serializeResult task.identifier result <;> rfl
      rw [ends]
      exact (performs_reporting_ok _ (performs_pure task)).bind
        (performs_task task) later

theorem performs_consume :
    Performs (consume codec callback lost message : Service Note Unit)
      (answer codec callback message ++
        [.send (verdict codec callback message)]) (.ok ()) := by
  have done : Performs (doConsume codec callback lost message :
      Service Note Unit) _ _ := performs_doConsume
  have later : ∀ _ : Unit, Steady
      (Messaging.send lost .ack : Service Note Unit) :=
    fun _ => steady_send lost .ack
  have handled : ∀ _ : String, Steady
      (Messaging.send lost .reject : Service Note Unit) :=
    fun _ => steady_send lost .reject
  rw [consume, verdict]
  cases ends : success codec callback message with
  | error error =>
      rw [ends] at done
      exact (done.bind_error later).tryCatch_error
        (performs_send lost .reject) handled
  | ok outcome =>
      rw [ends] at done
      exact (done.bind (performs_send lost .ack) later).tryCatch_ok handled

/-! ## What is seen of the consumer -/

theorem publish_of_sent {body : ByteArray} {frame : Frame String Envelope}
    (member : .send frame ∈
      (sender.sent body : List (Move String Envelope Note))) :
    ∃ queue, sender.route = some queue ∧
      frame = .publish queue (sender.envelope body) := by
  unfold Sender.sent at member
  cases route : sender.route with
  | none =>
      rw [route] at member
      cases member
  | some queue =>
      rw [route] at member
      cases List.mem_singleton.mp member
      exact ⟨queue, rfl, rfl⟩

theorem status_of_sent {callback : Callback Status Result}
    {frame : Frame String Envelope}
    (member : .send frame ∈
      (callback.sent codec task : List (Move String Envelope Note))) :
    ∃ queue status body, (statusSender task).route = some queue ∧
      codec.serializeStatus task.identifier status = .ok body ∧
      frame = .publish queue ((statusSender task).envelope body) := by
  induction callback with
  | returns result => cases member
  | raises error => cases member
  | sends status next ih =>
      rw [Callback.sent] at member
      split at member
      · exact ih _ member
      · rename_i body serialized
        rcases List.mem_append.mp member with first | later
        · obtain ⟨queue, route, same⟩ := publish_of_sent first
          exact ⟨queue, status, body, route, serialized, same⟩
        · exact ih _ later

inductive Failed (codec : Codec Task Status Result)
    (callback : Task → Callback Status Result) (message : Envelope) :
    String → String → Prop where
  | parse {error : String}
      (failed : codec.parseTask message.body = .error error) :
      Failed codec callback message "Unable to parse task proto: " error
  | callback {task : RabbitTask Task} {error : String}
      (parsed : codec.parseTask message.body = .ok task)
      (failed : (callback task.task).outcome codec task = .error error) :
      Failed codec callback message "Unable to complete callback: " error
  | serialize {task : RabbitTask Task} {result : Result} {error : String}
      (parsed : codec.parseTask message.body = .ok task)
      (ends : (callback task.task).outcome codec task = .ok result)
      (failed : codec.serializeResult task.identifier result =
        .error error) :
      Failed codec callback message "Unable to serialize result proto: "
        error

inductive Published (codec : Codec Task Status Result)
    (callback : Task → Callback Status Result) (message : Envelope)
    (queue : String) : Envelope → Prop where
  | status {task : RabbitTask Task} {status : Status} {body : ByteArray}
      (parsed : codec.parseTask message.body = .ok task)
      (route : (statusSender task).route = some queue)
      (serialized : codec.serializeStatus task.identifier status = .ok body) :
      Published codec callback message queue
        ((statusSender task).envelope body)
  | result {task : RabbitTask Task} {result : Result} {body : ByteArray}
      (succeeded : success codec callback message = .ok (task, result, body))
      (route : (resultSender task).route = some queue) :
      Published codec callback message queue
        ((resultSender task).envelope body)
  | error {text error : String}
      (failed : Failed codec callback message text error)
      (route : (errorSender message).route = some queue) :
      Published codec callback message queue
        ((errorSender message).envelope (text ++ error).toUTF8)

theorem published_reported {text error : String}
    {frame : Frame String Envelope}
    (failed : Failed codec callback message text error)
    (member : .send frame ∈
      (reported message text error : List (Move String Envelope Note))) :
    ∃ queue envelope, frame = .publish queue envelope ∧
      Published codec callback message queue envelope := by
  obtain ⟨queue, route, same⟩ := publish_of_sent member
  exact ⟨queue, _, same, .error failed route⟩

theorem success_ok {result : Result} {body : ByteArray}
    (parsed : codec.parseTask message.body = .ok task)
    (ends : (callback task.task).outcome codec task = .ok result)
    (serialized : codec.serializeResult task.identifier result = .ok body) :
    success codec callback message = .ok (task, result, body) := by
  rw [success, parsed]
  simp only [bind, Except.bind, ends, serialized]
  rfl

theorem success_parts {result : Result} {body : ByteArray}
    (succeeded : success codec callback message = .ok (task, result, body)) :
    codec.parseTask message.body = .ok task ∧
      (callback task.task).outcome codec task = .ok result ∧
      codec.serializeResult task.identifier result = .ok body := by
  obtain ⟨foundTask, parsed, succeeded⟩ := bind_ok succeeded
  obtain ⟨foundResult, ends, succeeded⟩ := bind_ok succeeded
  obtain ⟨foundBody, serialized, succeeded⟩ := bind_ok succeeded
  cases succeeded
  exact ⟨parsed, ends, serialized⟩

theorem published_answer {frame : Frame String Envelope}
    (member : .send frame ∈
      (answer codec callback message : List (Move String Envelope Note))) :
    ∃ queue envelope, frame = .publish queue envelope ∧
      Published codec callback message queue envelope := by
  rw [answer] at member
  cases parsed : codec.parseTask message.body with
  | error error =>
      rw [parsed] at member
      exact published_reported (.parse parsed) member
  | ok task =>
      rw [parsed] at member
      rcases List.mem_append.mp member with early | late
      · obtain ⟨queue, status, body, route, serialized, same⟩ :=
          status_of_sent early
        exact ⟨queue, _, same, .status parsed route serialized⟩
      · cases ends : (callback task.task).outcome codec task with
        | error error =>
            rw [ends] at late
            exact published_reported (.callback parsed ends) late
        | ok result =>
            simp only [ends, resultSent] at late
            cases serialized : codec.serializeResult task.identifier result with
            | error error =>
                rw [serialized] at late
                exact published_reported (.serialize parsed ends serialized)
                  late
            | ok body =>
                rw [serialized] at late
                obtain ⟨queue, route, same⟩ := publish_of_sent late
                exact ⟨queue, _, same, .result (success_ok parsed ends
                  serialized) route⟩

/-- A consumer that has settled its message has sent its whole answer
before. -/
theorem consume_settled {before : List (Move String Envelope Note)}
    {frame : Frame String Envelope}
    (settles : frame = .ack ∨ frame = .reject)
    (did : Does (consume codec callback lost message)
      (before ++ [.send frame])) :
    before = answer codec callback message ∧
      frame = verdict codec callback message := by
  have performs : Performs (consume codec callback lost message :
      Service Note Unit) _ _ := performs_consume
  have unpublished : ∀ settling : Frame String Envelope,
      settling = .ack ∨ settling = .reject →
      .send settling ∉
        (answer codec callback message : List (Move String Envelope Note)) := by
    intro settling either member
    obtain ⟨queue, envelope, same, _⟩ := published_answer member
    rw [same] at either
    rcases either with impossible | impossible
    · cases impossible
    · cases impossible
  have sent : frame ∈ frames (before ++ [Move.send frame]) :=
    mem_frames.mpr (by simp)
  have expected := mem_frames.mp ((performs.sends did).subset sent)
  rcases List.mem_append.mp expected with answered | last
  · exact absurd answered (unpublished frame settles)
  · cases List.mem_singleton.mp last
    have once : verdict codec callback message ∉ frames
        (answer codec callback message : List (Move String Envelope Note)) :=
      fun member => unpublished _ settles (mem_frames.mp member)
    exact ⟨performs.settled once frames_nil did, rfl⟩

/-- Whatever a consumer has published is part of its answer. -/
theorem consume_publishes {moves : List (Move String Envelope Note)}
    {queue : String} {envelope : Envelope}
    (did : Does (consume codec callback lost message) moves)
    (member : .send (.publish queue envelope) ∈ moves) :
    Published codec callback message queue envelope := by
  have performs : Performs (consume codec callback lost message :
      Service Note Unit) _ _ := performs_consume
  have expected := mem_frames.mp
    ((performs.sends did).subset (mem_frames.mpr member))
  rcases List.mem_append.mp expected with answered | last
  · obtain ⟨_, _, same, published⟩ := published_answer answered
    cases same
    exact published
  · have settles := List.mem_singleton.mp last
    rw [verdict] at settles
    split at settles
    · cases settles
    · cases settles

theorem sent_of_route {queue : String} (body : ByteArray)
    (route : sender.route = some queue) :
    .send (.publish queue (sender.envelope body)) ∈
      (sender.sent body : List (Move String Envelope Note)) := by
  rw [Sender.sent, route]
  simp

/-- The answer to a message that is acknowledged has its result. -/
theorem answer_acked
    (acked : verdict codec callback message = .ack) :
    ∃ task result body, success codec callback message =
        .ok (task, result, body) ∧
      ∀ queue, (resultSender task).route = some queue →
        .send (.publish queue ((resultSender task).envelope body)) ∈
          (answer codec callback message :
            List (Move String Envelope Note)) := by
  rw [verdict] at acked
  split at acked
  · cases acked
  · rename_i outcome succeeded
    obtain ⟨task, result, body⟩ := outcome
    refine ⟨task, result, body, succeeded, ?_⟩
    intro queue route
    obtain ⟨parsed, ends, serialized⟩ := success_parts succeeded
    rw [answer, parsed]
    simp only [taskSent, ends, resultSent, serialized]
    exact List.mem_append_right _ (sent_of_route body route)

theorem failed_of_rejected
    (rejected : verdict codec callback message = .reject) :
    ∃ text error, Failed codec callback message text error := by
  cases parsed : codec.parseTask message.body with
  | error error => exact ⟨_, error, .parse parsed⟩
  | ok task =>
      cases ends : (callback task.task).outcome codec task with
      | error error => exact ⟨_, error, .callback parsed ends⟩
      | ok result =>
          cases serialized : codec.serializeResult task.identifier result with
          | error error => exact ⟨_, error, .serialize parsed ends serialized⟩
          | ok body =>
              rw [verdict, success_ok parsed ends serialized] at rejected
              cases rejected

theorem answer_failed {text error queue : String}
    (failed : Failed codec callback message text error)
    (route : (errorSender message).route = some queue) :
    .send (.publish queue
        ((errorSender message).envelope (text ++ error).toUTF8)) ∈
      (answer codec callback message : List (Move String Envelope Note)) := by
  rw [answer]
  cases failed with
  | parse failed =>
      rw [failed]
      exact sent_of_route _ route
  | callback parsed failed =>
      simp only [parsed, taskSent, failed]
      exact List.mem_append_right _ (sent_of_route _ route)
  | serialize parsed ends failed =>
      simp only [parsed, taskSent, ends, resultSent, failed]
      exact List.mem_append_right _ (sent_of_route _ route)

end Performance

end Bacs.Broker.Python
