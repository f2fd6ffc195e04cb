import Bacs.Foundation.Channel
import Bacs.Foundation.Runs

/-!
# The connection of a request reader

`maintainConnection` dials the broker again and again until the reader is
closed.  For each connection a goroutine starts a consumer for every resource
and waits for them; `maintainConnection` learns through a channel when it has
returned.  The consumers send to one channel of tasks, which is closed at the
end.
-/

namespace Bacs.Broker.Reader

open Foundation

variable {Request : Type}

/-- Where `maintainConnection` is. -/
inductive Maintenance where
  | dialing
  /-- Dialing has failed; select on the aborter and a timer. -/
  | retrying
  /-- Select on the aborter and the error channel. -/
  | connected
  /-- The connection was closed after an abort; the error is received. -/
  | aborting
  | finished
  deriving DecidableEq, Repr

/-- Where the goroutine of the current connection is. -/
inductive Reading where
  | idle
  | openingChannel
  | limiting
  | declaring (resource : Nat)
  | consuming (resource : Nat)
  | waiting
  /-- The error is in the error channel. -/
  | returned
  deriving DecidableEq, Repr

inductive Consuming (Request : Type) where
  | ranging
  | received (request : Request)
  | sending (request : Request)
  | done
  deriving DecidableEq, Repr

structure Consumer (Request : Type) where
  connection : Nat
  phase : Consuming Request
  deriving DecidableEq, Repr

structure State (Request : Type) where
  aborted : Bool
  maintenance : Maintenance
  /-- The number of connections so far; the last one is the current one. -/
  connection : Nat
  reading : Reading
  /-- The AMQP channel of the current connection delivers. -/
  channelOpen : Bool
  consumers : List (Consumer Request)
  tasks : Channel Request
  /-- The number of times that the channel of tasks was closed. -/
  closes : Nat
  panicked : Bool
  deriving DecidableEq

def initial : State Request :=
  { aborted := false, maintenance := .dialing, connection := 0
    reading := .idle, channelOpen := false, consumers := [], tasks := .make
    closes := 0, panicked := false }

/-- `close(r.tasks)`, at the end of `maintainConnection`. -/
def State.closeTasks (state : State Request) : State Request :=
  { state with
    maintenance := .finished
    tasks := state.tasks.close
    closes := state.closes + 1
    panicked := state.tasks.closed }

/-- The function that reads from the connection returns; its deferred calls
close the AMQP channel. -/
def State.return (state : State Request) : State Request :=
  { state with reading := .returned, channelOpen := false }

/-- The consumers of the current connection are done. -/
def State.Drained (state : State Request) : Prop :=
  ∀ consumer ∈ state.consumers,
    consumer.connection = state.connection → consumer.phase = .done

instance [DecidableEq Request] (state : State Request) :
    Decidable state.Drained :=
  inferInstanceAs (Decidable (∀ consumer ∈ state.consumers,
    consumer.connection = state.connection → consumer.phase = .done))

inductive Action (Request : Type) where
  | dial (success : Bool)
  | retry
  | abort
  | receiveError
  | openChannel (success : Bool)
  | qos (success : Bool)
  /-- An error is overwritten by that of `Consume`. -/
  | queueDeclare
  | consume (success : Bool)
  | wait
  /-- The connection breaks. -/
  | lose
  | deliver (consumer : Nat) (request : Request)
  | newRequest (consumer : Nat) (success : Bool)
  | send (consumer : Nat)
  /-- A waiting worker receives from a consumer directly. -/
  | handOver (consumer : Nat)
  | endRange (consumer : Nat)
  /-- A worker receives from the channel. -/
  | receive
  | close
  deriving DecidableEq

/-- The goroutine goes on to a resource, or waits after the last one. -/
def nextResource (resources resource : Nat) : Reading :=
  if resource < resources then .declaring resource else .waiting

def State.stepConsumer (state : State Request) (index : Nat)
    (move : Consumer Request → Option (Consuming Request)) :
    Option (State Request) := do
  let consumer ← state.consumers[index]?
  let phase ← move consumer
  return { state with
    consumers := state.consumers.set index { consumer with phase } }

/-- `jobs` is the capacity of the channel of tasks and `resources` the number
of resources of the constraints. -/
def stepAlive [DecidableEq Request] (resources jobs : Nat)
    (state : State Request) : Action Request → Option (State Request)
  | .dial success =>
      if state.maintenance = .dialing then
        if success then
          some { state with
            maintenance := .connected
            connection := state.connection + 1
            reading := .openingChannel
            channelOpen := true }
        else some { state with maintenance := .retrying }
      else none
  | .retry =>
      if state.maintenance = .retrying
      then some { state with maintenance := .dialing } else none
  | .abort =>
      if state.aborted then
        match state.maintenance with
        | .retrying => some state.closeTasks
        | .connected =>
            some { state with maintenance := .aborting, channelOpen := false }
        | _ => none
      else none
  | .receiveError =>
      if state.reading = .returned then
        match state.maintenance with
        | .connected =>
            some { state with
              maintenance := .dialing, reading := .idle, channelOpen := false }
        | .aborting => some { state.closeTasks with reading := .idle }
        | _ => none
      else none
  | .openChannel success =>
      if state.reading = .openingChannel then
        if success then some { state with reading := .limiting }
        else some state.return
      else none
  | .qos success =>
      if state.reading = .limiting then
        if success then
          some { state with reading := nextResource resources 0 }
        else some state.return
      else none
  | .queueDeclare =>
      match state.reading with
      | .declaring resource =>
          some { state with reading := .consuming resource }
      | _ => none
  | .consume success =>
      match state.reading with
      | .consuming resource =>
          if success then
            some { state with
              reading := nextResource resources (resource + 1)
              consumers := state.consumers ++ [⟨state.connection, .ranging⟩] }
          else some state.return
      | _ => none
  | .wait =>
      if state.reading = .waiting ∧ state.Drained
      then some state.return else none
  | .lose => some { state with channelOpen := false }
  | .deliver index request =>
      state.stepConsumer index fun consumer =>
        match consumer.phase with
        | .ranging => some (.received request)
        | _ => none
  | .newRequest index success =>
      state.stepConsumer index fun consumer =>
        match consumer.phase with
        | .received request =>
            if success then some (.sending request) else some .ranging
        | _ => none
  | .send index => do
      let consumer ← state.consumers[index]?
      match consumer.phase with
      | .sending request =>
          if state.tasks.closed then some { state with panicked := true }
          else do
            let tasks ← state.tasks.send jobs request
            let next ← state.stepConsumer index fun _ => some .ranging
            some { next with tasks }
      | _ => none
  | .handOver index =>
      state.stepConsumer index fun consumer =>
        match consumer.phase, state.tasks.buffer, state.tasks.closed with
        | .sending _, [], false => some .ranging
        | _, _, _ => none
  | .endRange index =>
      state.stepConsumer index fun consumer =>
        if consumer.phase = .ranging ∧
          (consumer.connection ≠ state.connection ∨ ¬ state.channelOpen)
        then some .done else none
  | .receive =>
      match state.tasks.receive with
      | some (some _, tasks) => some { state with tasks }
      | _ => none
  | .close => some { state with aborted := true }

/-- A panic ends the process. -/
def step [DecidableEq Request] (resources jobs : Nat) (state : State Request)
    (action : Action Request) : Option (State Request) :=
  if state.panicked then none else stepAlive resources jobs state action

end Bacs.Broker.Reader
