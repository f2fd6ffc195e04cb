import Bacs.Foundation.Channel
import Bacs.Foundation.Runs

/-!
# The worker pool

Each worker has a goroutine that takes requests from the channel given to
`DoAll`, until the channel is closed or the pool is canceled.  `Add`, `DoAll`
and `Cancel` run in goroutines of their own, and their parts interleave with
those of the workers.

A goroutine that finds no case of its second select ready is parked: a value
that is sent goes to a parked goroutine, and closing a channel wakes all of
them with that case.
-/

namespace Bacs.Broker.WorkerPool

open Foundation

variable {Request : Type}

inductive Running (Request : Type) where
  /-- `Get` waits for the channel. -/
  | starting
  /-- The select on the canceler. -/
  | checking
  /-- The select on requests and canceler. -/
  | selecting
  | parked
  | received (request : Request)
  | doing (request : Request)
  /-- After the loop. -/
  | exiting
  | done
  deriving DecidableEq, Repr

def Running.isParked : Running Request → Bool
  | .parked => true
  | _ => false

/-- Where a call of `Add` is. -/
inductive Adding where
  | checked
  /-- The worker is counted by the wait group. -/
  | counted
  /-- Its goroutine was started. -/
  | spawned
  | returned
  deriving DecidableEq, Repr

inductive DoingAll where
  | uncalled
  /-- It waits for the first worker. -/
  | started
  /-- It waits for the wait group. -/
  | waiting
  | returned
  deriving DecidableEq, Repr

inductive Canceling where
  | uncalled
  /-- The canceler is closed. -/
  | canceled
  | returned
  deriving DecidableEq, Repr

structure Pool (Request : Type) where
  /-- With the values of senders that wait for room. -/
  requests : Channel Request
  workers : List (Running Request)
  adding : List Adding
  waitGroup : Nat
  firstWorker : Bool
  doingAll : DoingAll
  canceling : Canceling
  sent : List Request
  /-- The receives from the channel, with the worker that received. -/
  received : List (Nat × Request)
  /-- The calls of `Do`, and those of them that have returned. -/
  started : List (Nat × Request)
  ended : List (Nat × Request)
  deriving DecidableEq

namespace Pool

def initial : Pool Request :=
  { requests := .make, workers := [], adding := [], waitGroup := 0
    firstWorker := false, doingAll := .uncalled, canceling := .uncalled
    sent := [], received := [], started := [], ended := [] }

variable (pool : Pool Request)

def canceled : Bool :=
  pool.canceling ≠ .uncalled

/-- Nothing will be received from the channel of requests any more. -/
def Drained : Prop :=
  pool.requests.closed = true ∧ pool.requests.buffer = []

/-- Parked goroutines go on with the case that has become ready. -/
def wake : Running Request → Running Request
  | .parked => .exiting
  | running => running

end Pool

inductive Action (Request : Type) where
  /-- A request is sent, to a parked worker if there is one. -/
  | send (request : Request) (worker : Option Nat)
  | closeRequests
  | callAdd
  | add (call : Nat)
  | doAll
  | cancel
  /-- The worker takes its next step. -/
  | run (worker : Nat)
  /-- The worker takes the case of the canceler. -/
  | runCanceled (worker : Nat)

def runWorker (pool : Pool Request) (index : Nat) :
    Running Request → Option (Pool Request)
  | .starting =>
      if pool.doingAll = .uncalled then none
      else some { pool with workers := pool.workers.set index .checking }
  | .checking =>
      if pool.canceled then none
      else some { pool with workers := pool.workers.set index .selecting }
  | .selecting =>
      match pool.requests.receive with
      | some (some request, requests) =>
          some { pool with
            requests
            workers := pool.workers.set index (.received request)
            received := pool.received ++ [(index, request)] }
      | some (none, _) =>
          some { pool with workers := pool.workers.set index .exiting }
      | none =>
          if pool.canceled then none
          else some { pool with workers := pool.workers.set index .parked }
  | .parked => none
  | .received request =>
      some { pool with
        workers := pool.workers.set index (.doing request)
        started := pool.started ++ [(index, request)] }
  | .doing request =>
      some { pool with
        workers := pool.workers.set index .checking
        ended := pool.ended ++ [(index, request)] }
  | .exiting =>
      some { pool with
        workers := pool.workers.set index .done
        waitGroup := pool.waitGroup - 1 }
  | .done => none

/-- `Add` panics after `Cancel`, and then does nothing.  `DoAll` and `Cancel`
are called at most once.  If the wait group is used again before `Wait` has
returned, `Wait` panics, which ends the run. -/
def step (pool : Pool Request) : Action Request → Option (Pool Request)
  | .send request worker =>
      if pool.requests.closed then none
      else match worker with
        | some index =>
            match pool.workers[index]? with
            | some .parked =>
                some { pool with
                  workers := pool.workers.set index (.received request)
                  sent := pool.sent ++ [request]
                  received := pool.received ++ [(index, request)] }
            | _ => none
        | none =>
            if ∃ running ∈ pool.workers, running.isParked then none
            else some { pool with
              requests :=
                { pool.requests with
                  buffer := pool.requests.buffer ++ [request] }
              sent := pool.sent ++ [request] }
  | .closeRequests =>
      if pool.requests.closed then none
      else some { pool with
        requests := pool.requests.close
        workers := pool.workers.map Pool.wake }
  | .callAdd =>
      if pool.canceled then none
      else some { pool with adding := pool.adding ++ [.checked] }
  | .add index =>
      match pool.adding[index]? with
      | some .checked =>
          some { pool with
            adding := pool.adding.set index .counted
            waitGroup := pool.waitGroup + 1 }
      | some .counted =>
          some { pool with
            adding := pool.adding.set index .spawned
            workers := pool.workers ++ [.starting] }
      | some .spawned =>
          some { pool with
            adding := pool.adding.set index .returned, firstWorker := true }
      | _ => none
  | .doAll =>
      match pool.doingAll with
      | .uncalled => some { pool with doingAll := .started }
      | .started =>
          if pool.firstWorker then some { pool with doingAll := .waiting }
          else none
      | .waiting =>
          if pool.waitGroup = 0 then some { pool with doingAll := .returned }
          else none
      | .returned => none
  | .cancel =>
      match pool.canceling with
      | .uncalled =>
          some { pool with
            canceling := .canceled, workers := pool.workers.map Pool.wake }
      | .canceled =>
          some { pool with canceling := .returned, firstWorker := true }
      | .returned => none
  | .run index =>
      (pool.workers[index]?).bind (runWorker pool index)
  | .runCanceled index =>
      match pool.workers[index]? with
      | some .checking | some .selecting =>
          if pool.canceled then
            some { pool with workers := pool.workers.set index .exiting }
          else none
      | _ => none

/-! ## Steps as a relation -/

/-- The steps of a worker that change nothing else. -/
inductive Moves (pool : Pool Request) : Running Request → Running Request →
    Prop
  | starts (called : pool.doingAll ≠ .uncalled) :
      Moves pool .starting .checking
  | checks (going : pool.canceled = false) : Moves pool .checking .selecting
  | ends (drained : pool.Drained) : Moves pool .selecting .exiting
  | parks (going : pool.canceled = false)
      (waiting : pool.requests.closed = false)
      (empty : pool.requests.buffer = []) :
      Moves pool .selecting .parked
  | leaves (canceled : pool.canceled = true) : Moves pool .checking .exiting
  | abandons (canceled : pool.canceled = true) :
      Moves pool .selecting .exiting

inductive Steps (pool : Pool Request) : Action Request → Pool Request → Prop
  | handOver {request : Request} {index : Nat}
      (unclosed : pool.requests.closed = false)
      (there : pool.workers[index]? = some .parked) :
      Steps pool (.send request (some index))
        { pool with
          workers := pool.workers.set index (.received request)
          sent := pool.sent ++ [request]
          received := pool.received ++ [(index, request)] }
  | queue {request : Request} (unclosed : pool.requests.closed = false)
      (nobody : ∀ running ∈ pool.workers, running ≠ .parked) :
      Steps pool (.send request none)
        { pool with
          requests :=
            { pool.requests with buffer := pool.requests.buffer ++ [request] }
          sent := pool.sent ++ [request] }
  | closes :
      Steps pool .closeRequests
        { pool with
          requests := pool.requests.close
          workers := pool.workers.map Pool.wake }
  | calls (going : pool.canceled = false) :
      Steps pool .callAdd { pool with adding := pool.adding ++ [.checked] }
  | counts {index : Nat} (there : pool.adding[index]? = some .checked) :
      Steps pool (.add index)
        { pool with
          adding := pool.adding.set index .counted
          waitGroup := pool.waitGroup + 1 }
  | spawns {index : Nat} (there : pool.adding[index]? = some .counted) :
      Steps pool (.add index)
        { pool with
          adding := pool.adding.set index .spawned
          workers := pool.workers ++ [.starting] }
  | adds {index : Nat} (there : pool.adding[index]? = some .spawned) :
      Steps pool (.add index)
        { pool with
          adding := pool.adding.set index .returned, firstWorker := true }
  | sets (uncalled : pool.doingAll = .uncalled) :
      Steps pool .doAll { pool with doingAll := .started }
  | waits (started : pool.doingAll = .started)
      (first : pool.firstWorker = true) :
      Steps pool .doAll { pool with doingAll := .waiting }
  | returns (waiting : pool.doingAll = .waiting)
      (nobody : pool.waitGroup = 0) :
      Steps pool .doAll { pool with doingAll := .returned }
  | cancels (uncalled : pool.canceling = .uncalled) :
      Steps pool .cancel
        { pool with
          canceling := .canceled, workers := pool.workers.map Pool.wake }
  | canceled (canceled : pool.canceling = .canceled) :
      Steps pool .cancel
        { pool with canceling := .returned, firstWorker := true }
  | moves {action : Action Request} {index : Nat}
      {before after : Running Request}
      (there : pool.workers[index]? = some before)
      (moves : Moves pool before after) :
      Steps pool action { pool with workers := pool.workers.set index after }
  | receives {index : Nat} {request : Request} {requests : Channel Request}
      (there : pool.workers[index]? = some .selecting)
      (buffer : pool.requests.buffer = request :: requests.buffer)
      (closed : requests.closed = pool.requests.closed) :
      Steps pool (.run index)
        { pool with
          requests
          workers := pool.workers.set index (.received request)
          received := pool.received ++ [(index, request)] }
  | starts {index : Nat} {request : Request}
      (there : pool.workers[index]? = some (.received request)) :
      Steps pool (.run index)
        { pool with
          workers := pool.workers.set index (.doing request)
          started := pool.started ++ [(index, request)] }
  | ends {index : Nat} {request : Request}
      (there : pool.workers[index]? = some (.doing request)) :
      Steps pool (.run index)
        { pool with
          workers := pool.workers.set index .checking
          ended := pool.ended ++ [(index, request)] }
  | exits {index : Nat} (there : pool.workers[index]? = some .exiting) :
      Steps pool (.run index)
        { pool with
          workers := pool.workers.set index .done
          waitGroup := pool.waitGroup - 1 }

variable {pool next : Pool Request} {action : Action Request}

theorem runWorker_steps {index : Nat} {running : Running Request}
    (there : pool.workers[index]? = some running)
    (taken : runWorker pool index running = some next) :
    Steps pool (.run index) next := by
  cases running with
  | starting =>
      simp only [runWorker] at taken
      split at taken
      · cases taken
      · rename_i called
        cases taken
        exact .moves there (.starts called)
  | checking =>
      simp only [runWorker] at taken
      split at taken
      · cases taken
      · rename_i going
        cases taken
        exact .moves there (.checks (by simpa using going))
  | selecting =>
      simp only [runWorker] at taken
      split at taken
      · rename_i received
        cases taken
        obtain ⟨buffer, closed⟩ := Channel.receive_value received
        exact .receives there buffer closed
      · rename_i received
        cases taken
        obtain ⟨empty, closed, _⟩ := Channel.receive_closed received
        exact .moves there (.ends ⟨closed, empty⟩)
      · rename_i waits
        split at taken
        · cases taken
        · rename_i going
          cases taken
          obtain ⟨empty, waiting⟩ := Channel.receive_waits waits
          exact .moves there (.parks (by simpa using going) waiting empty)
  | parked => cases taken
  | received request =>
      cases taken
      exact .starts there
  | doing request =>
      cases taken
      exact .ends there
  | exiting =>
      cases taken
      exact .exits there
  | done => cases taken

theorem send_steps {worker : Option Nat}
    (taken : step pool (.send request worker) = some next) :
    Steps pool (.send request worker) next := by
  simp only [step] at taken
  split at taken
  · cases taken
  · rename_i unclosed
    have unclosed : pool.requests.closed = false := by
      simpa using unclosed
    split at taken
    · split at taken
      · rename_i there
        cases taken
        exact .handOver unclosed there
      · cases taken
    · split at taken
      · cases taken
      · rename_i nobody
        cases taken
        apply Steps.queue unclosed
        intro running member parked
        subst parked
        exact nobody ⟨.parked, member, rfl⟩

theorem doAll_steps (taken : step pool .doAll = some next) :
    Steps pool .doAll next := by
  simp only [step] at taken
  split at taken
  · rename_i uncalled
    cases taken
    exact .sets uncalled
  · rename_i started
    split at taken
    · rename_i first
      cases taken
      exact .waits started first
    · cases taken
  · rename_i waiting
    split at taken
    · rename_i nobody
      cases taken
      exact .returns waiting nobody
    · cases taken
  · cases taken

theorem runCanceled_steps {index : Nat}
    (taken : step pool (.runCanceled index) = some next) :
    Steps pool (.runCanceled index) next := by
  simp only [step] at taken
  split at taken
  · rename_i there
    split at taken
    · rename_i canceled
      cases taken
      exact .moves there (.leaves canceled)
    · cases taken
  · rename_i there
    split at taken
    · rename_i canceled
      cases taken
      exact .moves there (.abandons canceled)
    · cases taken
  · cases taken

theorem step_steps (taken : step pool action = some next) :
    Steps pool action next := by
  cases action with
  | send request worker => exact send_steps taken
  | closeRequests =>
      simp only [step] at taken
      split at taken
      · cases taken
      · cases taken
        exact .closes
  | callAdd =>
      simp only [step] at taken
      split at taken
      · cases taken
      · rename_i going
        cases taken
        exact .calls (by simpa using going)
  | add index =>
      simp only [step] at taken
      split at taken
      · rename_i there
        cases taken
        exact .counts there
      · rename_i there
        cases taken
        exact .spawns there
      · rename_i there
        cases taken
        exact .adds there
      · cases taken
  | doAll => exact doAll_steps taken
  | cancel =>
      simp only [step] at taken
      split at taken
      · rename_i uncalled
        cases taken
        exact .cancels uncalled
      · rename_i canceled
        cases taken
        exact .canceled canceled
      · cases taken
  | run index =>
      simp only [step, Option.bind_eq_some_iff] at taken
      obtain ⟨running, there, taken⟩ := taken
      exact runWorker_steps there taken
  | runCanceled index => exact runCanceled_steps taken

end Bacs.Broker.WorkerPool
