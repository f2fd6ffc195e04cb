import Bacs.Broker.ClientListener
import Bacs.Foundation.Origins

/-!
# Clients, consumers and the broker

The consumers listen to the queues of their resources, and each client listens
to its own queues.
-/

namespace Bacs.Broker.EndToEnd

open Foundation Foundation.Messaging Python Client

variable {Task Status Result : Type}

/-- The queues that the consumers listen to, and the identifiers of the
clients. -/
structure Deployment where
  resources : List String
  clients : List String

/-- The broker keeps the durable messages, and it does not wait for
acknowledgements of statuses. -/
def Deployment.setup (deployment : Deployment) : Setup String Envelope :=
  { persistent := Envelope.durable
    autoAck := fun queue =>
      deployment.clients.any fun client => queue == statusQueue client }

/-- No queue of a client is a resource. -/
structure Deployment.Apart (deployment : Deployment) : Prop where
  status : ∀ client ∈ deployment.clients,
    statusQueue client ∉ deployment.resources
  result : ∀ client ∈ deployment.clients,
    resultQueue client ∉ deployment.resources
  error : ∀ client ∈ deployment.clients,
    errorQueue client ∉ deployment.resources

/-- What handles the messages of a queue. -/
inductive Handles (codec : Codec Task Status Result)
    (workers : (Task → Callback Status Result) → Prop)
    (replaced : ByteArray → String) (deployment : Deployment)
    (queue : String) (message : Envelope)
    (moves : List (Move String Envelope (Event Status Result))) : Prop where
  | consumer {callback : Task → Callback Status Result} {lost : String}
      (resource : queue ∈ deployment.resources) (known : workers callback)
      (did : Does (consume codec callback lost message) moves)
  | status {client : String} {callbacks : Callbacks Status Result}
      (known : client ∈ deployment.clients) (same : queue = statusQueue client)
      (did : Does (callMessage callbacks message
        (statusListener codec callbacks message)) moves)
  | result {client : String} {callbacks : Callbacks Status Result}
      {lost : String} (known : client ∈ deployment.clients)
      (same : queue = resultQueue client)
      (did : Does (callMessage callbacks message
        (resultListener codec callbacks lost message)) moves)
  | error {client : String} {callbacks : Callbacks Status Result}
      {lost : String} (known : client ∈ deployment.clients)
      (same : queue = errorQueue client)
      (did : Does (callMessage callbacks message
        (errorListener callbacks replaced lost message)) moves)

/-- What the generated code promises. -/
structure Faithful (codec : Codec Task Status Result) : Prop where
  task : ∀ task body, codec.serializeTask task = .ok body →
    codec.parseTask body = .ok task
  result : ∀ id result body, codec.serializeResult id result = .ok body →
    codec.parseResult body = .ok (id, result)

abbrev System (Status Result : Type) : Type :=
  Exchange String Envelope (Event Status Result)

/-- A task that a client has sent. -/
structure SentTask (codec : Codec Task Status Result)
    (deployment : Deployment) (client id : String) (task : Task)
    (queue : String) (message : Envelope) : Prop where
  known : client ∈ deployment.clients
  resource : queue ∈ deployment.resources
  sent : ∃ resources,
    sendTask codec client resources id task = .ok (queue, message)

/-- Only the clients submit messages, and only their tasks. -/
def Submits (codec : Codec Task Status Result) (deployment : Deployment)
    (_ : System Status Result) :
    Messaging.Action String Envelope (Event Status Result) → Prop
  | .submit queue message =>
      ∃ client id task,
        SentTask codec deployment client id task queue message
  | _ => True

/-! ## The queues of the clients -/

theorem last_statusQueue (client : String) :
    (statusQueue client).toList.getLast? = some 's' := by
  rw [statusQueue, String.toList_append, List.getLast?_append]
  rfl

theorem last_resultQueue (client : String) :
    (resultQueue client).toList.getLast? = some 't' := by
  rw [resultQueue, String.toList_append, List.getLast?_append]
  rfl

theorem last_errorQueue (client : String) :
    (errorQueue client).toList.getLast? = some 'r' := by
  rw [errorQueue, String.toList_append, List.getLast?_append]
  rfl

theorem statusQueue_ne_resultQueue (client other : String) :
    statusQueue client ≠ resultQueue other := by
  intro same
  have last := last_statusQueue client
  rw [same, last_resultQueue] at last
  simp at last

theorem statusQueue_ne_errorQueue (client other : String) :
    statusQueue client ≠ errorQueue other := by
  intro same
  have last := last_statusQueue client
  rw [same, last_errorQueue] at last
  simp at last

theorem resultQueue_ne_errorQueue (client other : String) :
    resultQueue client ≠ errorQueue other := by
  intro same
  have last := last_resultQueue client
  rw [same, last_errorQueue] at last
  simp at last

theorem resultQueue_ne_empty (client : String) : resultQueue client ≠ "" := by
  intro same
  have last := last_resultQueue client
  rw [same] at last
  cases last

theorem errorQueue_ne_empty (client : String) : errorQueue client ≠ "" := by
  intro same
  have last := last_errorQueue client
  rw [same] at last
  cases last

theorem resultQueue_inj {client other : String}
    (same : resultQueue client = resultQueue other) : client = other := by
  have lists := congrArg String.toList same
  simp only [resultQueue, String.toList_append] at lists
  exact String.toList_inj.mp
    (List.append_cancel_left (List.append_cancel_right lists))

/-! ## Who handles what -/

section Handlers

variable {codec : Codec Task Status Result}
  {workers : (Task → Callback Status Result) → Prop}
  {replaced : ByteArray → String} {deployment : Deployment}
  {queue : String} {message : Envelope}

theorem not_autoAck {queue : String}
    (other : ∀ client ∈ deployment.clients, queue ≠ statusQueue client) :
    deployment.setup.autoAck queue = false := by
  rw [Deployment.setup]
  simp only [List.any_eq_false, beq_iff_eq]
  exact other

theorem handles_result {queue client : String} {message : Envelope}
    {moves : List (Move String Envelope (Event Status Result))}
    (apart : deployment.Apart) (known : client ∈ deployment.clients)
    (own : queue = resultQueue client)
    (handles : Handles codec workers replaced deployment queue message moves) :
    ∃ callbacks lost, Does (callMessage callbacks message
      (resultListener codec callbacks lost message)) moves := by
  subst own
  cases handles with
  | consumer resource _ _ => exact absurd resource (apart.result client known)
  | status _ same _ => exact absurd same.symm (statusQueue_ne_resultQueue _ _)
  | result _ _ did => exact ⟨_, _, did⟩
  | error _ same _ => exact absurd same (resultQueue_ne_errorQueue _ _)

theorem handles_error {queue client : String} {message : Envelope}
    {moves : List (Move String Envelope (Event Status Result))}
    (apart : deployment.Apart) (known : client ∈ deployment.clients)
    (own : queue = errorQueue client)
    (handles : Handles codec workers replaced deployment queue message moves) :
    ∃ callbacks lost, Does (callMessage callbacks message
      (errorListener callbacks replaced lost message)) moves := by
  subst own
  cases handles with
  | consumer resource _ _ => exact absurd resource (apart.error client known)
  | status _ same _ => exact absurd same.symm (statusQueue_ne_errorQueue _ _)
  | result _ same _ => exact absurd same.symm (resultQueue_ne_errorQueue _ _)
  | error _ _ did => exact ⟨_, _, did⟩

theorem handles_resource {queue : String} {message : Envelope}
    {moves : List (Move String Envelope (Event Status Result))}
    (apart : deployment.Apart) (resource : queue ∈ deployment.resources)
    (handles : Handles codec workers replaced deployment queue message moves) :
    ∃ callback lost, workers callback ∧
      Does (consume codec callback lost message) moves := by
  cases handles with
  | consumer _ known did => exact ⟨_, _, known, did⟩
  | status known same _ => exact absurd (same ▸ resource) (apart.status _ known)
  | result known same _ => exact absurd (same ▸ resource) (apart.result _ known)
  | error known same _ => exact absurd (same ▸ resource) (apart.error _ known)

theorem Deployment.Apart.unused (apart : deployment.Apart) {client : String}
    (known : client ∈ deployment.clients)
    (own : queue = statusQueue client ∨ queue = resultQueue client ∨
      queue = errorQueue client) : queue ∉ deployment.resources := by
  rcases own with rfl | rfl | rfl
  · exact apart.status client known
  · exact apart.result client known
  · exact apart.error client known

theorem listeners_publish_nothing {target : String} {envelope : Envelope}
    {moves : List (Move String Envelope (Event Status Result))}
    (unused : queue ∉ deployment.resources)
    (handles : Handles codec workers replaced deployment queue message moves) :
    .send (.publish target envelope) ∉ moves := by
  cases handles with
  | consumer resource _ _ => exact absurd resource unused
  | status _ _ did => exact status_publishes_nothing did
  | result _ _ did => exact result_publishes_nothing did
  | error _ _ did => exact error_publishes_nothing did

end Handlers

/-! ## The tasks of the clients -/

section Tasks

variable {codec : Codec Task Status Result} {deployment : Deployment}
  {message : Envelope}

theorem SentTask.message_eq {client id queue : String} {task : Task}
    {message : Envelope}
    (sent : SentTask codec deployment client id task queue message) :
    ∃ data,
      codec.serializeTask
        { identifier := id, task, statusQueue := statusQueue client
          resultQueue := resultQueue client } = .ok data ∧
      message =
        { body := data, correlationId := some id
          replyTo := some (errorQueue client), durable := true } := by
  obtain ⟨resources, ends⟩ := sent.sent
  obtain ⟨data, serialized, ends⟩ := bind_ok ends
  split at ends
  · cases ends
    exact ⟨data, serialized, rfl⟩
  · cases ends

theorem SentTask.parsed {client id queue : String} {task : Task}
    {message : Envelope} (faithful : Faithful codec)
    (sent : SentTask codec deployment client id task queue message) :
    codec.parseTask message.body = .ok
      { identifier := id, task, statusQueue := statusQueue client
        resultQueue := resultQueue client } := by
  obtain ⟨data, serialized, same⟩ := sent.message_eq
  rw [same]
  exact faithful.task _ _ serialized

theorem route_some {queue : String} {identifier : Option String}
    {durable : Bool} (nonempty : queue ≠ "") :
    Sender.route { queue := some queue, identifier, durable } = some queue := by
  simp [Sender.route, nonempty]

theorem route_eq {queue : String} {sender : Sender}
    (route : sender.route = some queue) : sender.queue = some queue :=
  (Option.filter_eq_some_iff.mp route).1

theorem published_expected {client id target : String} {task : Task}
    {envelope : Envelope} {callback : Task → Callback Status Result}
    (faithful : Faithful codec)
    (sent : SentTask codec deployment client id task queue message)
    (published : Published codec callback message target envelope) :
    target = statusQueue client ∨ target = resultQueue client ∨
      target = errorQueue client := by
  have parsed := sent.parsed faithful
  cases published with
  | status alike route _ =>
      rw [parsed] at alike
      cases alike
      cases route_eq route
      exact .inl rfl
  | result succeeded route =>
      have alike := (success_parts succeeded).1
      rw [parsed] at alike
      cases alike
      cases route_eq route
      exact .inr (.inl rfl)
  | error failed route =>
      obtain ⟨data, _, same⟩ := sent.message_eq
      have queueEq := route_eq route
      rw [same] at queueEq
      cases queueEq
      exact .inr (.inr rfl)

end Tasks

/-! ## One task

The task with the identifier 7 of the client `a` is sent, is served without a
status, and its result is given to the client. -/

namespace OneTask

def task : RabbitTask Unit :=
  { identifier := "7", task := (), statusQueue := statusQueue "a"
    resultQueue := resultQueue "a" }

def taskBody : ByteArray :=
  ⟨#[0x0a, 1, 0x37, 0x12, 0, 0x22, 15]⟩ ++ (statusQueue "a").toUTF8 ++
    ⟨#[0x2a, 15]⟩ ++ (resultQueue "a").toUTF8

def resultBody : ByteArray :=
  ⟨#[0x0a, 1, 0x37, 0x12, 0]⟩

/-- The generated code, as far as the task needs it. -/
def codec : Codec Unit Unit Unit :=
  { serializeTask := fun other =>
      if other = task then .ok taskBody else .error "unknown"
    parseTask := fun body =>
      if body.data = taskBody.data then .ok task else .error "unknown"
    serializeStatus := fun _ _ => .error "unknown"
    parseStatus := fun _ => .error "unknown"
    serializeResult := fun id _ =>
      if id = "7" then .ok resultBody else .error "unknown"
    parseResult := fun body =>
      if body.data = resultBody.data then .ok ("7", ()) else .error "unknown" }

theorem serialize_task : codec.serializeTask task = .ok taskBody := by
  simp [codec]

theorem parse_task : codec.parseTask taskBody = .ok task := by
  simp [codec]

theorem serialize_result : codec.serializeResult "7" () = .ok resultBody := by
  simp [codec]

theorem parse_result : codec.parseResult resultBody = .ok ("7", ()) := by
  simp [codec]

theorem faithful : Faithful codec where
  task other body serialized := by
    simp only [codec] at serialized ⊢
    split at serialized
    · rename_i same
      cases serialized
      rw [same, if_pos rfl]
    · cases serialized
  result id _ body serialized := by
    simp only [codec] at serialized ⊢
    split at serialized
    · rename_i same
      cases serialized
      rw [same, if_pos rfl]
    · cases serialized

def deployment : Deployment :=
  { resources := ["cpu"], clients := ["a"] }

theorem apart : deployment.Apart where
  status client known := by
    cases List.mem_singleton.mp known
    decide
  result client known := by
    cases List.mem_singleton.mp known
    decide
  error client known := by
    cases List.mem_singleton.mp known
    decide

def base : List String := ["cpu", resultQueue "a", errorQueue "a"]

def message : Envelope :=
  { body := taskBody, correlationId := some "7"
    replyTo := some (errorQueue "a"), durable := true }

def reply : Envelope := (resultSender task).envelope resultBody

def workers (callback : Unit → Callback Unit Unit) : Prop :=
  callback = fun _ => .returns ()

theorem sent : SentTask codec deployment "a" "7" () "cpu" message where
  known := List.mem_singleton.mpr rfl
  resource := List.mem_singleton.mpr rfl
  sent := by
    refine ⟨["cpu"], ?_⟩
    unfold sendTask
    change codec.serializeTask task >>= _ = _
    rw [serialize_task]
    rfl

def published : Messaging.Move String Envelope (Event Unit Unit) :=
  .send (.publish (resultQueue "a") reply)

def called : Messaging.Move String Envelope (Event Unit Unit) :=
  .note (.result "7" () none)

abbrev Permitted (state : System Unit Unit)
    (action : Messaging.Action String Envelope (Event Unit Unit)) : Prop :=
  Allowed (Handles codec workers (fun _ => "") deployment) state action ∧
    Submits codec deployment state action ∧ Undisturbed state action

/-- The broker with the task, the result and what their handlers have done. -/
def state (entries : List (Entry String Envelope))
    (wire : List (Nat × Frame String Envelope))
    (handlers : List (Handler String Envelope (Event Unit Unit))) :
    System Unit Unit :=
  { declared := base, entries
    connections := [{ alive := true, wire }], handlers }

def taskAt (place : Place) : Entry String Envelope :=
  { queue := "cpu", message, place }

def replyAt (place : Place) : Entry String Envelope :=
  { queue := resultQueue "a", message := reply, place }

def consumer
    (moves : List (Messaging.Move String Envelope (Event Unit Unit))) :
    Handler String Envelope (Event Unit Unit) :=
  { connection := 0, entry := 0, moves }

def listener
    (moves : List (Messaging.Move String Envelope (Event Unit Unit))) :
    Handler String Envelope (Event Unit Unit) :=
  { connection := 0, entry := 1, moves }

def final : System Unit Unit :=
  state [taskAt .acked, replyAt .acked] []
    [consumer [published, .send .ack], listener [called, .send .ack]]

theorem consumer_does
    {moves : List (Messaging.Move String Envelope (Event Unit Unit))}
    (known : moves <+: [published, .send .ack]) :
    Does (consume codec (fun _ => .returns ()) "" message) moves := by
  have parsed : codec.parseTask message.body = .ok task := parse_task
  have serialized : codec.serializeResult task.identifier () =
      .ok resultBody := serialize_result
  have performs : Performs (consume codec (fun _ => .returns ()) "" message :
      Service (Event Unit Unit) Unit) _ _ := performs_consume
  rw [verdict, success_ok parsed rfl serialized, answer, parsed] at performs
  simp only [taskSent, Callback.sent, Callback.outcome, resultSent,
    serialized] at performs
  exact performs.does known

theorem listener_does
    {moves : List (Messaging.Move String Envelope (Event Unit Unit))}
    (known : moves <+: [called, .send .ack]) :
    ∃ callbacks : Callbacks Unit Unit,
      Does (callMessage callbacks reply (resultListener codec callbacks ""
        reply)) moves := by
  let callbacks : Callbacks Unit Unit :=
    { status := fun _ _ => none, result := fun _ _ => none
      error := fun _ _ => none, failure := fun _ _ => none }
  have parsed : codec.parseResult reply.body = .ok ("7", ()) := parse_result
  have performs : Performs (callMessage callbacks reply (resultListener codec
      callbacks "" reply)) _ _ := performs_resultListener
  rw [resultMoves, parsed] at performs
  exact ⟨callbacks, performs.does known⟩

theorem consumer_permitted {entries : List (Entry String Envelope)}
    {wire : List (Nat × Frame String Envelope)}
    {handlers : List (Handler String Envelope (Event Unit Unit))}
    {moves : List (Messaging.Move String Envelope (Event Unit Unit))}
    {move : Messaging.Move String Envelope (Event Unit Unit)}
    {place : Place}
    (known : moves ++ [move] <+: [published, .send .ack]) :
    Permitted (state (taskAt place :: entries) wire
      (consumer moves :: handlers)) (.act 0 move) := by
  refine ⟨?_, trivial, trivial⟩
  intro handler content found there
  cases found
  cases there
  exact .consumer (List.mem_singleton.mpr rfl) rfl (consumer_does known)

theorem listener_permitted {task : Entry String Envelope}
    {wire : List (Nat × Frame String Envelope)}
    {first : Handler String Envelope (Event Unit Unit)}
    {moves : List (Messaging.Move String Envelope (Event Unit Unit))}
    {move : Messaging.Move String Envelope (Event Unit Unit)}
    {place : Place}
    (known : moves ++ [move] <+: [called, .send .ack]) :
    Permitted (state [task, replyAt place] wire [first, listener moves])
      (.act 1 move) := by
  refine ⟨?_, trivial, trivial⟩
  intro handler content found there
  cases found
  cases there
  obtain ⟨callbacks, did⟩ := listener_does known
  exact .result (List.mem_singleton.mpr rfl) rfl did

abbrev Reaches : System Unit Unit → System Unit Unit → Prop :=
  Runs (Messaging.step deployment.setup) Permitted

theorem reaches {before after : System Unit Unit}
    (action : Messaging.Action String Envelope (Event Unit Unit))
    (permitted : Permitted before action)
    (taken : Messaging.step deployment.setup before action = some after) :
    Reaches before after :=
  .single permitted taken

def publication : Nat × Frame String Envelope :=
  (0, .publish (resultQueue "a") reply)

theorem run_submitted :
    Reaches (.start base) (state [taskAt .ready] [] []) := by
  have connected : Reaches (.start base) (state [] [] []) :=
    reaches .connect ⟨trivial, trivial, trivial⟩ rfl
  exact connected.trans
    (reaches (.submit "cpu" message) ⟨trivial, ⟨_, _, _, sent⟩, trivial⟩ rfl)

theorem run_served :
    Reaches (state [taskAt .ready] [] [])
      (state [taskAt .acked, replyAt .ready] []
        [consumer [published, .send .ack]]) := by
  have delivered : Reaches (state [taskAt .ready] [] [])
      (state [taskAt (.delivered 0)] [] [consumer []]) :=
    reaches (.deliver 0 0) ⟨trivial, trivial, trivial⟩ rfl
  have answered : Reaches (state [taskAt (.delivered 0)] [] [consumer []])
      (state [taskAt (.delivered 0)] [publication] [consumer [published]]) :=
    reaches (.act 0 published) (consumer_permitted ⟨[.send .ack], rfl⟩) rfl
  have settled : Reaches
      (state [taskAt (.delivered 0)] [publication] [consumer [published]])
      (state [taskAt (.delivered 0)] [publication, (0, .ack)]
        [consumer [published, .send .ack]]) :=
    reaches (.act 0 (.send .ack)) (consumer_permitted ⟨[], rfl⟩) rfl
  have stored : Reaches
      (state [taskAt (.delivered 0)] [publication, (0, .ack)]
        [consumer [published, .send .ack]])
      (state [taskAt (.delivered 0), replyAt .ready] [(0, .ack)]
        [consumer [published, .send .ack]]) :=
    reaches (.arrive 0) ⟨trivial, trivial, trivial⟩ rfl
  have acked : Reaches
      (state [taskAt (.delivered 0), replyAt .ready] [(0, .ack)]
        [consumer [published, .send .ack]])
      (state [taskAt .acked, replyAt .ready] []
        [consumer [published, .send .ack]]) :=
    reaches (.arrive 0) ⟨trivial, trivial, trivial⟩ rfl
  exact delivered.trans (answered.trans (settled.trans (stored.trans acked)))

theorem run_told :
    Reaches
      (state [taskAt .acked, replyAt .ready] []
        [consumer [published, .send .ack]]) final := by
  have delivered : Reaches
      (state [taskAt .acked, replyAt .ready] []
        [consumer [published, .send .ack]])
      (state [taskAt .acked, replyAt (.delivered 0)] []
        [consumer [published, .send .ack], listener []]) :=
    reaches (.deliver 0 1) ⟨trivial, trivial, trivial⟩ rfl
  have told : Reaches
      (state [taskAt .acked, replyAt (.delivered 0)] []
        [consumer [published, .send .ack], listener []])
      (state [taskAt .acked, replyAt (.delivered 0)] []
        [consumer [published, .send .ack], listener [called]]) :=
    reaches (.act 1 called) (listener_permitted ⟨[.send .ack], rfl⟩) rfl
  have settled : Reaches
      (state [taskAt .acked, replyAt (.delivered 0)] []
        [consumer [published, .send .ack], listener [called]])
      (state [taskAt .acked, replyAt (.delivered 0)] [(1, .ack)]
        [consumer [published, .send .ack], listener [called, .send .ack]]) :=
    reaches (.act 1 (.send .ack)) (listener_permitted ⟨[], rfl⟩) rfl
  have acked : Reaches
      (state [taskAt .acked, replyAt (.delivered 0)] [(1, .ack)]
        [consumer [published, .send .ack], listener [called, .send .ack]])
      final :=
    reaches (.arrive 0) ⟨trivial, trivial, trivial⟩ rfl
  exact delivered.trans (told.trans (settled.trans acked))

theorem run : Reaches (.start base) final :=
  run_submitted.trans (run_served.trans run_told)

end OneTask

end Bacs.Broker.EndToEnd
