import Bacs.Foundation.Channel
import Bacs.Foundation.Runs
import Mathlib.Data.Multiset.Range

/-!
# Deliveries and requests

A consumer goroutine ranges over the deliveries of a queue, makes a request
from each and sends it to the workers.  The variable of the loop is one
variable for the whole loop, and the request keeps a pointer to it, from which
it takes the tag when it is acknowledged.

The requests carry the tag of the delivery they were made from as well, which
is not part of the source: it says which delivery should be acknowledged.
-/

namespace Bacs.Broker

open Foundation

variable {Body Task : Type}

/-- `amqp.Delivery`. -/
structure Delivery (Body : Type) where
  tag : Nat
  replyTo : String
  correlationId : String
  body : Body
  deriving DecidableEq

structure RabbitTask (Task : Type) where
  identifier : String
  task : Task
  statusQueue : String
  resultQueue : String
  deriving DecidableEq

inductive RequestError where
  | unmarshal
  | invalidTask (correlationId identifier : String)
  deriving DecidableEq

/-- `rabbitRequest`: the delivery is a pointer to the loop variable of a
consumer. -/
structure Request (Task : Type) where
  task : RabbitTask Task
  delivery : Nat
  origin : Nat
  deriving DecidableEq

/-- The checks of `NewRequest`. -/
def newRequest (unmarshal : Body → Option (RabbitTask Task))
    (delivery : Delivery Body) : Except RequestError (RabbitTask Task) :=
  match unmarshal delivery.body with
  | none => .error .unmarshal
  | some task =>
      if delivery.correlationId ≠ task.identifier
      then .error (.invalidTask delivery.correlationId task.identifier)
      else .ok task

/-! ## The goroutines -/

inductive Phase (Task : Type) where
  | ranging
  | received
  | sending (request : Request Task)
  deriving DecidableEq

def Phase.request : Phase Task → Option (Request Task)
  | .sending request => some request
  | _ => none

structure Consumer (Body Task : Type) where
  deliveries : List (Delivery Body)
  delivery : Option (Delivery Body)
  phase : Phase Task
  deriving DecidableEq

/-- What `WriteError` sends to the queue for replies. -/
structure Report where
  replyTo : String
  correlationId : String
  error : RequestError

/-- An acknowledgement that was sent, for the delivery with the tag `tag`. -/
structure Acknowledgement where
  tag : Nat
  origin : Nat
  positive : Bool
  deriving DecidableEq

structure Intake (Body Task : Type) where
  nextTag : Nat
  /-- The consumers and the tags of what was delivered to them. -/
  delivered : List (Nat × Nat)
  consumers : List (Consumer Body Task)
  tasks : Channel (Request Task)
  workers : List (Option (Request Task))
  reports : List Report
  acknowledgements : List Acknowledgement
  /-- The tags of the deliveries whose processing has ended. -/
  ended : List Nat

namespace Intake

def initial (consumers workers : Nat) : Intake Body Task :=
  { nextTag := 0
    delivered := []
    consumers := List.replicate consumers
      { deliveries := [], delivery := none, phase := .ranging }
    tasks := .make
    workers := List.replicate workers none
    reports := []
    acknowledgements := []
    ended := [] }

variable (intake : Intake Body Task)

def acknowledged : List Nat :=
  intake.acknowledgements.map (·.tag)

def unacknowledged (consumer : Nat) : Nat :=
  (intake.delivered.filter fun delivered =>
    delivered.1 = consumer ∧ delivered.2 ∉ intake.acknowledged).length

/-- The requests that were made and are not yet acknowledged. -/
def live : List (Request Task) :=
  intake.consumers.filterMap (·.phase.request) ++ intake.tasks.buffer ++
    intake.workers.filterMap id

end Intake

inductive Action (Body : Type) where
  | deliver (consumer : Nat) (replyTo correlationId : String) (body : Body)
  | range (consumer : Nat)
  | newRequest (consumer : Nat)
  | send (consumer : Nat)
  /-- A waiting worker receives from a consumer directly. -/
  | handOver (consumer worker : Nat)
  | receive (worker : Nat)
  /-- `Do` ends with `Ack` or `Nack`. -/
  | finish (worker : Nat) (positive : Bool)

/-- `jobs` is the prefetch of a consumer, where 0 is no limit, and the
capacity of the channel. -/
def step (unmarshal : Body → Option (RabbitTask Task)) (jobs : Nat)
    (intake : Intake Body Task) : Action Body → Option (Intake Body Task)
  | .deliver index replyTo correlationId body => do
      let consumer ← intake.consumers[index]?
      if jobs = 0 ∨ intake.unacknowledged index < jobs then
        let delivery : Delivery Body :=
          { tag := intake.nextTag, replyTo, correlationId, body }
        some { intake with
          nextTag := intake.nextTag + 1
          delivered := intake.delivered ++ [(index, intake.nextTag)]
          consumers := intake.consumers.set index
            { consumer with
              deliveries := consumer.deliveries ++ [delivery] } }
      else none
  | .range index => do
      let consumer ← intake.consumers[index]?
      match consumer.phase, consumer.deliveries with
      | .ranging, delivery :: rest =>
          some { intake with
            consumers := intake.consumers.set index
              { deliveries := rest, delivery := some delivery
                phase := .received } }
      | _, _ => none
  | .newRequest index => do
      let consumer ← intake.consumers[index]?
      match consumer.phase, consumer.delivery with
      | .received, some delivery =>
          match newRequest unmarshal delivery with
          | .ok task =>
              let request : Request Task :=
                { task, delivery := index, origin := delivery.tag }
              some { intake with
                consumers := intake.consumers.set index
                  { consumer with phase := .sending request } }
          | .error error =>
              some { intake with
                consumers := intake.consumers.set index
                  { consumer with phase := .ranging }
                reports := intake.reports ++
                  [⟨delivery.replyTo, delivery.correlationId, error⟩]
                ended := intake.ended ++ [delivery.tag] }
      | _, _ => none
  | .send index => do
      let consumer ← intake.consumers[index]?
      match consumer.phase with
      | .sending request => do
          let tasks ← intake.tasks.send jobs request
          some { intake with
            consumers := intake.consumers.set index
              { consumer with phase := .ranging }
            tasks }
      | _ => none
  | .handOver index worker => do
      let consumer ← intake.consumers[index]?
      match consumer.phase, intake.tasks.buffer, intake.workers[worker]? with
      | .sending request, [], some none =>
          some { intake with
            consumers := intake.consumers.set index
              { consumer with phase := .ranging }
            workers := intake.workers.set worker (some request) }
      | _, _, _ => none
  | .receive worker =>
      match intake.workers[worker]?, intake.tasks.receive with
      | some none, some (some request, tasks) =>
          some { intake with
            tasks, workers := intake.workers.set worker (some request) }
      | _, _ => none
  | .finish worker positive =>
      match intake.workers[worker]? with
      | some (some request) => do
          let consumer ← intake.consumers[request.delivery]?
          let delivery ← consumer.delivery
          some { intake with
            workers := intake.workers.set worker none
            acknowledgements := intake.acknowledgements ++
              [⟨delivery.tag, request.origin, positive⟩]
            ended := intake.ended ++ [request.origin] }
      | _ => none

/-- The steps as a relation, one case for each outcome. -/
inductive Steps (unmarshal : Body → Option (RabbitTask Task)) (jobs : Nat)
    (intake : Intake Body Task) :
    Action Body → Intake Body Task → Prop
  | deliver {index : Nat} {consumer : Consumer Body Task}
      {replyTo correlationId : String} {body : Body}
      (there : intake.consumers[index]? = some consumer) :
      Steps unmarshal jobs intake
        (.deliver index replyTo correlationId body)
        { intake with
          nextTag := intake.nextTag + 1
          delivered := intake.delivered ++ [(index, intake.nextTag)]
          consumers := intake.consumers.set index
            { consumer with
              deliveries := consumer.deliveries ++
                [⟨intake.nextTag, replyTo, correlationId, body⟩] } }
  | range {index : Nat} {consumer : Consumer Body Task}
      {delivery : Delivery Body} {rest : List (Delivery Body)}
      (there : intake.consumers[index]? = some consumer)
      (phase : consumer.phase = .ranging)
      (waiting : consumer.deliveries = delivery :: rest) :
      Steps unmarshal jobs intake (.range index)
        { intake with
          consumers := intake.consumers.set index
            { deliveries := rest, delivery := some delivery
              phase := .received } }
  | accept {index : Nat} {consumer : Consumer Body Task}
      {delivery : Delivery Body} {task : RabbitTask Task}
      (there : intake.consumers[index]? = some consumer)
      (phase : consumer.phase = .received)
      (current : consumer.delivery = some delivery)
      (accepted : newRequest unmarshal delivery = .ok task) :
      Steps unmarshal jobs intake (.newRequest index)
        { intake with
          consumers := intake.consumers.set index
            { consumer with
              phase := .sending
                { task, delivery := index, origin := delivery.tag } } }
  | reject {index : Nat} {consumer : Consumer Body Task}
      {delivery : Delivery Body} {error : RequestError}
      (there : intake.consumers[index]? = some consumer)
      (phase : consumer.phase = .received)
      (current : consumer.delivery = some delivery)
      (rejected : newRequest unmarshal delivery = .error error) :
      Steps unmarshal jobs intake (.newRequest index)
        { intake with
          consumers := intake.consumers.set index
            { consumer with phase := .ranging }
          reports := intake.reports ++
            [⟨delivery.replyTo, delivery.correlationId, error⟩]
          ended := intake.ended ++ [delivery.tag] }
  | send {index : Nat} {consumer : Consumer Body Task}
      {request : Request Task} {tasks : Channel (Request Task)}
      (there : intake.consumers[index]? = some consumer)
      (phase : consumer.phase = .sending request)
      (sent : tasks.buffer = intake.tasks.buffer ++ [request]) :
      Steps unmarshal jobs intake (.send index)
        { intake with
          consumers := intake.consumers.set index
            { consumer with phase := .ranging }
          tasks }
  | handOver {index worker : Nat} {consumer : Consumer Body Task}
      {request : Request Task}
      (there : intake.consumers[index]? = some consumer)
      (phase : consumer.phase = .sending request)
      (idle : intake.workers[worker]? = some none) :
      Steps unmarshal jobs intake (.handOver index worker)
        { intake with
          consumers := intake.consumers.set index
            { consumer with phase := .ranging }
          workers := intake.workers.set worker (some request) }
  | receive {worker : Nat} {request : Request Task}
      {tasks : Channel (Request Task)}
      (idle : intake.workers[worker]? = some none)
      (taken : intake.tasks.buffer = request :: tasks.buffer) :
      Steps unmarshal jobs intake (.receive worker)
        { intake with
          tasks, workers := intake.workers.set worker (some request) }
  | finish {worker : Nat} {positive : Bool} {request : Request Task}
      {consumer : Consumer Body Task} {delivery : Delivery Body}
      (working : intake.workers[worker]? = some (some request))
      (there : intake.consumers[request.delivery]? = some consumer)
      (current : consumer.delivery = some delivery) :
      Steps unmarshal jobs intake (.finish worker positive)
        { intake with
          workers := intake.workers.set worker none
          acknowledgements := intake.acknowledgements ++
            [⟨delivery.tag, request.origin, positive⟩]
          ended := intake.ended ++ [request.origin] }

variable {unmarshal : Body → Option (RabbitTask Task)} {jobs : Nat}
  {intake next : Intake Body Task} {action : Action Body}

theorem step_steps (taken : step unmarshal jobs intake action = some next) :
    Steps unmarshal jobs intake action next := by
  cases action with
  | deliver index replyTo correlationId body =>
      simp only [step, Option.bind_eq_bind,
        Option.bind_eq_some_iff] at taken
      obtain ⟨consumer, there, taken⟩ := taken
      split at taken
      · cases taken
        exact .deliver there
      · cases taken
  | range index =>
      simp only [step, Option.bind_eq_bind,
        Option.bind_eq_some_iff] at taken
      obtain ⟨consumer, there, taken⟩ := taken
      split at taken
      · rename_i phase waiting
        cases taken
        exact .range there phase waiting
      · cases taken
  | newRequest index =>
      simp only [step, Option.bind_eq_bind,
        Option.bind_eq_some_iff] at taken
      obtain ⟨consumer, there, taken⟩ := taken
      split at taken
      · rename_i phase current
        split at taken
        · rename_i accepted
          cases taken
          exact .accept there phase current accepted
        · rename_i rejected
          cases taken
          exact .reject there phase current rejected
      · cases taken
  | send index =>
      simp only [step, Option.bind_eq_bind,
        Option.bind_eq_some_iff] at taken
      obtain ⟨consumer, there, taken⟩ := taken
      split at taken
      · rename_i phase
        simp only [Option.bind_eq_some_iff] at taken
        obtain ⟨tasks, sent, taken⟩ := taken
        cases taken
        apply Steps.send there phase
        rw [(Channel.send_spec sent).2]
      · cases taken
  | handOver index worker =>
      simp only [step, Option.bind_eq_bind,
        Option.bind_eq_some_iff] at taken
      obtain ⟨consumer, there, taken⟩ := taken
      split at taken
      · rename_i phase _ idle
        cases taken
        exact .handOver there phase idle
      · cases taken
  | receive worker =>
      simp only [step] at taken
      split at taken
      · rename_i idle received
        cases taken
        exact .receive idle (Channel.receive_value received).1
      · cases taken
  | finish worker positive =>
      simp only [step] at taken
      split at taken
      · rename_i working
        simp only [Option.bind_eq_bind, Option.bind_eq_some_iff] at taken
        obtain ⟨consumer, there, delivery, current, taken⟩ := taken
        cases taken
        exact .finish working there current
      · cases taken

end Bacs.Broker
