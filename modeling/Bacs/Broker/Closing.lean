import Bacs.Broker.Reader

/-!
# When the channel of tasks is closed

`maintainConnection` closes the channel once, when no goroutine reads from a
connection.  A consumer may have outlived that goroutine: the goroutine waits
for its consumers only if all of them could be started.
-/

namespace Bacs.Broker.Reader

open Foundation

variable {Request : Type} {resources jobs : Nat}
  {state next : State Request} {action : Action Request}

/-! ## Steps of the consumers -/

/-- A step of a consumer; a consumer that is done takes no step. -/
structure Moved (state next : State Request) : Prop where
  maintenance : next.maintenance = state.maintenance
  connection : next.connection = state.connection
  reading : next.reading = state.reading
  closed : next.tasks.closed = state.tasks.closed
  closes : next.closes = state.closes
  panicked : next.panicked = state.panicked
  consumers : ∀ consumer ∈ next.consumers, consumer.phase ≠ .done →
    ∃ before ∈ state.consumers, before.phase ≠ .done ∧
      before.connection = consumer.connection

theorem stepConsumer_moved {index : Nat}
    {move : Consumer Request → Option (Consuming Request)}
    (alive : ∀ consumer phase, move consumer = some phase →
      state.consumers[index]? = some consumer → consumer.phase ≠ .done)
    (taken : state.stepConsumer index move = some next) :
    Moved state next := by
  simp only [State.stepConsumer, Option.bind_eq_bind,
    Option.bind_eq_some_iff] at taken
  obtain ⟨consumer, there, phase, moved, same⟩ := taken
  cases same
  constructor
  case consumers =>
    intro other member running
    rcases List.mem_or_eq_of_mem_set member with old | same
    · exact ⟨other, old, running, rfl⟩
    · subst same
      exact ⟨consumer, List.mem_of_getElem? there,
        alive consumer phase moved there, rfl⟩
  all_goals rfl

/-- Nothing that a consumer, the environment or `Close` does matters to the
goroutines that maintain the connection. -/
theorem Moved.of_same (maintenance : next.maintenance = state.maintenance)
    (connection : next.connection = state.connection)
    (reading : next.reading = state.reading)
    (closed : next.tasks.closed = state.tasks.closed)
    (closes : next.closes = state.closes)
    (panicked : next.panicked = state.panicked)
    (consumers : next.consumers = state.consumers) : Moved state next := by
  constructor
  case consumers =>
    intro consumer member running
    rw [consumers] at member
    exact ⟨consumer, member, running, rfl⟩
  all_goals assumption

/-! ## Steps that maintain the connection -/

/-- The goroutine is starting consumers or waits for them. -/
def Reading.Active : Reading → Prop
  | .declaring _ => True
  | .consuming _ => True
  | .waiting => True
  | _ => False

theorem nextResource_active (resource : Nat) :
    (nextResource resources resource).Active := by
  unfold nextResource
  split <;> trivial

inductive Steps (state : State Request) :
    Action Request → State Request → Prop
  | moved {action : Action Request} {next : State Request}
      (moved : Moved state next) : Steps state action next
  | panicked {index : Nat} {consumer : Consumer Request} {request : Request}
      (closed : state.tasks.closed = true)
      (there : consumer ∈ state.consumers)
      (sending : consumer.phase = .sending request) :
      Steps state (.send index) { state with panicked := true }
  | dialed (dialing : state.maintenance = .dialing) :
      Steps state (.dial true)
        { state with
          maintenance := .connected, connection := state.connection + 1
          reading := .openingChannel, channelOpen := true }
  | undialed (dialing : state.maintenance = .dialing) :
      Steps state (.dial false) { state with maintenance := .retrying }
  | retried (retrying : state.maintenance = .retrying) :
      Steps state .retry { state with maintenance := .dialing }
  | aborted (connected : state.maintenance = .connected) :
      Steps state .abort
        { state with maintenance := .aborting, channelOpen := false }
  | abandoned (retrying : state.maintenance = .retrying) :
      Steps state .abort state.closeTasks
  | disconnected (connected : state.maintenance = .connected)
      (returned : state.reading = .returned) :
      Steps state .receiveError
        { state with
          maintenance := .dialing, reading := .idle, channelOpen := false }
  | finished (aborting : state.maintenance = .aborting)
      (returned : state.reading = .returned) :
      Steps state .receiveError { state.closeTasks with reading := .idle }
  | limiting (opening : state.reading = .openingChannel) :
      Steps state (.openChannel true) { state with reading := .limiting }
  | advanced {action : Action Request} {reading : Reading}
      (unfinished : state.reading = .limiting ∨ state.reading.Active)
      (active : reading.Active) :
      Steps state action { state with reading }
  | started {resource : Nat} {reading : Reading}
      (consuming : state.reading = .consuming resource)
      (active : reading.Active) :
      Steps state (.consume true)
        { state with
          reading
          consumers := state.consumers ++ [⟨state.connection, .ranging⟩] }
  | failed {action : Action Request}
      (unstarted : state.reading = .openingChannel ∨
        state.reading = .limiting) :
      Steps state action state.return
  | consumeFailed {resource : Nat}
      (consuming : state.reading = .consuming resource) :
      Steps state (.consume false) state.return
  | waited (waiting : state.reading = .waiting) (drained : state.Drained) :
      Steps state .wait state.return

theorem stepConsumer_steps {index : Nat} {action : Action Request}
    {move : Consumer Request → Option (Consuming Request)}
    (alive : ∀ consumer phase, move consumer = some phase →
      consumer.phase ≠ .done)
    (taken : state.stepConsumer index move = some next) :
    Steps state action next :=
  .moved (stepConsumer_moved (fun consumer phase moved _ =>
    alive consumer phase moved) taken)

section Inversion

variable [DecidableEq Request]

theorem send_steps {index : Nat}
    (taken : stepAlive resources jobs state (.send index) = some next) :
    Steps state (.send index) next := by
  simp only [stepAlive, Option.bind_eq_bind,
    Option.bind_eq_some_iff] at taken
  obtain ⟨consumer, there, taken⟩ := taken
  split at taken
  · rename_i request sending
    split at taken
    · rename_i closed
      cases taken
      exact .panicked closed (List.mem_of_getElem? there) sending
    · simp only [Option.bind_eq_some_iff] at taken
      obtain ⟨tasks, sent, middle, moved, same⟩ := taken
      cases same
      have moved := stepConsumer_moved (fun other _ _ found => by
        rw [there] at found
        cases found
        simp [sending]) moved
      obtain ⟨open', sent⟩ := Channel.send_spec sent
      apply Steps.moved
      constructor
      case closed => rw [sent]
      case maintenance => exact moved.maintenance
      case connection => exact moved.connection
      case reading => exact moved.reading
      case closes => exact moved.closes
      case panicked => exact moved.panicked
      case consumers => exact moved.consumers
  · cases taken

theorem dial_steps {success : Bool}
    (taken : stepAlive resources jobs state (.dial success) = some next) :
    Steps state (.dial success) next := by
  simp only [stepAlive] at taken
  split at taken
  · rename_i dialing
    cases success with
    | true =>
        cases taken
        exact .dialed dialing
    | false =>
        cases taken
        exact .undialed dialing
  · cases taken

theorem abort_steps
    (taken : stepAlive resources jobs state .abort = some next) :
    Steps state .abort next := by
  simp only [stepAlive] at taken
  split at taken
  · split at taken
    · rename_i retrying
      cases taken
      exact .abandoned retrying
    · rename_i connected
      cases taken
      exact .aborted connected
    · cases taken
  · cases taken

theorem receiveError_steps
    (taken : stepAlive resources jobs state .receiveError = some next) :
    Steps state .receiveError next := by
  simp only [stepAlive] at taken
  split at taken
  · rename_i returned
    split at taken
    · rename_i connected
      cases taken
      exact .disconnected connected returned
    · rename_i aborting
      cases taken
      exact .finished aborting returned
    · cases taken
  · cases taken

theorem openChannel_steps {success : Bool}
    (taken : stepAlive resources jobs state (.openChannel success) =
      some next) :
    Steps state (.openChannel success) next := by
  simp only [stepAlive] at taken
  split at taken
  · rename_i opening
    cases success with
    | true =>
        cases taken
        exact .limiting opening
    | false =>
        cases taken
        exact .failed (.inl opening)
  · cases taken

theorem qos_steps {success : Bool}
    (taken : stepAlive resources jobs state (.qos success) = some next) :
    Steps state (.qos success) next := by
  simp only [stepAlive] at taken
  split at taken
  · rename_i limiting
    cases success with
    | true =>
        cases taken
        exact .advanced (.inl limiting) (nextResource_active 0)
    | false =>
        cases taken
        exact .failed (.inr limiting)
  · cases taken

theorem consume_steps {success : Bool}
    (taken : stepAlive resources jobs state (.consume success) = some next) :
    Steps state (.consume success) next := by
  simp only [stepAlive] at taken
  split at taken
  · rename_i resource consuming
    cases success with
    | true =>
        cases taken
        exact .started consuming (nextResource_active _)
    | false =>
        cases taken
        exact .consumeFailed consuming
  · cases taken

theorem deliver_steps {index : Nat} {request : Request}
    (taken : stepAlive resources jobs state (.deliver index request) =
      some next) :
    Steps state (.deliver index request) next := by
  apply stepConsumer_steps _ taken
  intro consumer phase moved
  split at moved
  · rename_i here
    simp [here]
  · cases moved

theorem newRequest_steps {index : Nat} {success : Bool}
    (taken : stepAlive resources jobs state (.newRequest index success) =
      some next) :
    Steps state (.newRequest index success) next := by
  apply stepConsumer_steps _ taken
  intro consumer phase moved
  split at moved
  · rename_i here
    simp [here]
  · cases moved

theorem handOver_steps {index : Nat}
    (taken : stepAlive resources jobs state (.handOver index) = some next) :
    Steps state (.handOver index) next := by
  apply stepConsumer_steps _ taken
  intro consumer phase moved
  split at moved
  · rename_i sending _ _
    simp [sending]
  · cases moved

theorem endRange_steps {index : Nat}
    (taken : stepAlive resources jobs state (.endRange index) = some next) :
    Steps state (.endRange index) next := by
  apply stepConsumer_steps _ taken
  intro consumer phase moved
  split at moved
  · rename_i ending
    simp [ending.1]
  · cases moved

theorem step_steps (taken : step resources jobs state action = some next) :
    state.panicked = false ∧ Steps state action next := by
  simp only [step] at taken
  split at taken
  · cases taken
  · rename_i alive
    refine ⟨by simpa using alive, ?_⟩
    cases action with
    | dial success => exact dial_steps taken
    | retry =>
        simp only [stepAlive] at taken
        split at taken
        · rename_i retrying
          cases taken
          exact .retried retrying
        · cases taken
    | abort => exact abort_steps taken
    | receiveError => exact receiveError_steps taken
    | openChannel success => exact openChannel_steps taken
    | qos success => exact qos_steps taken
    | queueDeclare =>
        simp only [stepAlive] at taken
        split at taken
        · rename_i resource declaring
          cases taken
          apply Steps.advanced
          · right
            rw [declaring]
            trivial
          · trivial
        · cases taken
    | consume success => exact consume_steps taken
    | wait =>
        simp only [stepAlive] at taken
        split at taken
        · rename_i waited
          cases taken
          exact .waited waited.1 waited.2
        · cases taken
    | lose =>
        cases taken
        exact .moved (Moved.of_same rfl rfl rfl rfl rfl rfl rfl)
    | deliver index request => exact deliver_steps taken
    | newRequest index success => exact newRequest_steps taken
    | send index => exact send_steps taken
    | handOver index => exact handOver_steps taken
    | endRange index => exact endRange_steps taken
    | receive =>
        simp only [stepAlive] at taken
        split at taken
        · rename_i received
          cases taken
          have same := (Channel.receive_value received).2
          exact .moved (Moved.of_same rfl rfl rfl same rfl rfl rfl)
        · cases taken
    | close =>
        cases taken
        exact .moved (Moved.of_same rfl rfl rfl rfl rfl rfl rfl)

end Inversion

/-! ## Closing -/

/-- The channel is closed when `maintainConnection` is finished. -/
structure Closed (state : State Request) : Prop where
  closed : state.tasks.closed = true ↔ state.maintenance = .finished
  closes : state.closes = if state.maintenance = .finished then 1 else 0

theorem closed_initial : Closed (initial : State Request) := by
  constructor
  · simp [initial, Channel.make]
  · simp [initial]

theorem closed_steps (taken : Steps state action next)
    (closed : Closed state) : Closed next := by
  cases taken with
  | moved moved =>
      constructor
      · rw [moved.closed, moved.maintenance]
        exact closed.closed
      · rw [moved.closes, moved.maintenance]
        exact closed.closes
  | abandoned retrying =>
      constructor
      · simp [State.closeTasks, Channel.close]
      · simp [State.closeTasks, closed.closes, retrying]
  | finished aborting returned =>
      constructor
      · simp [State.closeTasks, Channel.close]
      · simp [State.closeTasks, closed.closes, aborting]
  | dialed dialing =>
      constructor
      · simpa [dialing] using closed.closed
      · simpa [dialing] using closed.closes
  | undialed dialing =>
      constructor
      · simpa [dialing] using closed.closed
      · simpa [dialing] using closed.closes
  | retried retrying =>
      constructor
      · simpa [retrying] using closed.closed
      · simpa [retrying] using closed.closes
  | aborted connected =>
      constructor
      · simpa [connected] using closed.closed
      · simpa [connected] using closed.closes
  | disconnected connected returned =>
      constructor
      · simpa [connected] using closed.closed
      · simpa [connected] using closed.closes
  | _ => exact ⟨closed.closed, closed.closes⟩

/-! ## Consumers that outlive their connection -/

/-- `Consume` fails only when the consumers that were started before it on
the same connection are done. -/
def Orderly (state : State Request) (action : Action Request) : Prop :=
  action = .consume false → state.Drained

/-- A consumer that is not done is waited for. -/
structure Attended (state : State Request) : Prop where
  consumers : ∀ consumer ∈ state.consumers, consumer.phase ≠ .done →
    consumer.connection = state.connection ∧ state.reading.Active
  idle : (state.maintenance = .dialing ∨ state.maintenance = .retrying ∨
    state.maintenance = .finished) → state.reading = .idle

theorem Attended.done (attended : Attended state)
    (inactive : ¬ state.reading.Active) :
    ∀ consumer ∈ state.consumers, consumer.phase = .done := by
  intro consumer member
  by_contra running
  exact inactive (attended.consumers consumer member running).2

/-- Without active reading the consumers do not matter. -/
theorem Attended.quiet (attended : Attended state)
    (inactive : ¬ state.reading.Active)
    (same : next.consumers = state.consumers)
    (idle : (next.maintenance = .dialing ∨ next.maintenance = .retrying ∨
      next.maintenance = .finished) → next.reading = .idle) :
    Attended next where
  consumers := by
    intro consumer member running
    rw [same] at member
    exact absurd (attended.done inactive consumer member) running
  idle := idle

theorem attended_initial : Attended (initial : State Request) := by
  constructor
  · intro consumer member
    cases member
  · intro _
    rfl

/-- A goroutine that returns when its consumers are done leaves none. -/
theorem Attended.return (attended : Attended state)
    (busy : state.reading ≠ .idle)
    (done : ∀ consumer ∈ state.consumers,
      consumer.connection = state.connection → consumer.phase = .done) :
    Attended state.return := by
  constructor
  · intro consumer member running
    have current := (attended.consumers consumer member running).1
    exact absurd (done consumer member current) running
  · intro idle
    exact absurd (attended.idle idle) busy

theorem attended_steps (taken : Steps state action next)
    (orderly : Orderly state action) (attended : Attended state) :
    Attended next := by
  cases taken with
  | moved moved =>
      constructor
      · intro consumer member running
        obtain ⟨before, there, alive, same⟩ :=
          moved.consumers consumer member running
        rw [← same, moved.connection, moved.reading]
        exact attended.consumers before there alive
      · rw [moved.maintenance, moved.reading]
        exact attended.idle
  | panicked _ _ _ => exact ⟨attended.consumers, attended.idle⟩
  | dialed dialing =>
      have idle := attended.idle (Or.inl dialing)
      exact attended.quiet (by rw [idle]; exact id) rfl (by simp)
  | undialed dialing =>
      have idle := attended.idle (Or.inl dialing)
      exact ⟨attended.consumers, fun _ => idle⟩
  | retried retrying =>
      have idle := attended.idle (Or.inr (Or.inl retrying))
      exact ⟨attended.consumers, fun _ => idle⟩
  | aborted connected =>
      constructor
      · exact attended.consumers
      · simp
  | abandoned retrying =>
      have idle := attended.idle (Or.inr (Or.inl retrying))
      exact ⟨attended.consumers, fun _ => idle⟩
  | disconnected connected returned =>
      exact attended.quiet (by rw [returned]; exact id) rfl fun _ => rfl
  | finished aborting returned =>
      exact attended.quiet (by rw [returned]; exact id) rfl fun _ => rfl
  | limiting opening =>
      refine attended.quiet (by rw [opening]; exact id) rfl ?_
      intro idle
      rw [attended.idle idle] at opening
      cases opening
  | advanced unfinished active =>
      constructor
      · intro consumer member running
        exact ⟨(attended.consumers consumer member running).1, active⟩
      · intro idle
        rw [attended.idle idle] at unfinished
        rcases unfinished with limiting | impossible
        · cases limiting
        · exact impossible.elim
  | started consuming active =>
      constructor
      · intro consumer member running
        rcases List.mem_append.mp member with old | new
        · exact ⟨(attended.consumers consumer old running).1, active⟩
        · simp only [List.mem_singleton] at new
          subst new
          exact ⟨rfl, active⟩
      · intro idle
        rw [attended.idle idle] at consuming
        cases consuming
  | failed unstarted =>
      have busy : state.reading ≠ .idle ∧ ¬ state.reading.Active := by
        rcases unstarted with same | same
        · rw [same]
          exact ⟨by simp, id⟩
        · rw [same]
          exact ⟨by simp, id⟩
      apply attended.return busy.1
      intro consumer member _
      exact attended.done busy.2 consumer member
  | consumeFailed consuming =>
      apply attended.return _ (orderly rfl)
      rw [consuming]
      simp
  | waited waiting drained =>
      apply attended.return _ drained
      rw [waiting]
      simp

/-! ## Sending -/

/-- No consumer sends on the closed channel, or waits to, and the channel is
closed at most once. -/
structure Safe (state : State Request) : Prop where
  sending : state.tasks.closed = true → ∀ consumer ∈ state.consumers,
    ∀ request, consumer.phase ≠ .sending request
  closes : state.closes ≤ 1
  panicked : state.panicked = false

theorem Closed.closes_le (closed : Closed state) : state.closes ≤ 1 := by
  rw [closed.closes]
  split <;> omega

/-- Nobody sends when the channel is closed, so there is nothing to panic
about. -/
theorem Attended.sending (attended : Attended state) (closed : Closed state)
    (shut : state.tasks.closed = true) :
    ∀ consumer ∈ state.consumers, ∀ request,
      consumer.phase ≠ .sending request := by
  have finished := closed.closed.mp shut
  have idle := attended.idle (Or.inr (Or.inr finished))
  have done := attended.done (by rw [idle]; exact id)
  intro consumer member request sending
  rw [done consumer member] at sending
  cases sending

theorem panicked_steps (taken : Steps state action next)
    (alive : state.panicked = false) (attended : Attended state)
    (closed : Closed state) : next.panicked = false := by
  have unfinished : state.maintenance ≠ .finished →
      state.tasks.closed = false := by
    intro running
    have unclosed := mt closed.closed.mp running
    simpa using unclosed
  cases taken with
  | moved moved =>
      rw [moved.panicked]
      exact alive
  | panicked shut there sending =>
      exact absurd sending (attended.sending closed shut _ there _)
  | abandoned retrying =>
      apply unfinished
      rw [retrying]
      simp
  | finished aborting returned =>
      apply unfinished
      rw [aborting]
      simp
  | _ => exact alive

section Reader

variable [DecidableEq Request]

instance (state : State Request) (action : Action Request) :
    Decidable (Orderly state action) :=
  inferInstanceAs (Decidable (action = .consume false → state.Drained))

theorem run_closes {allowed : State Request → Action Request → Prop}
    (run : Runs (step resources jobs) allowed initial state) :
    Closed state := by
  apply run.invariant closed_initial
  intro before action after closed _ taken
  exact closed_steps (step_steps taken).2 closed

/-- No consumer sends on the closed channel in a run in which `Consume` fails
only when the consumers of the connection are done. -/
theorem orderly_safe (resources jobs : Nat) (state : State Request)
    (run : Runs (step resources jobs) Orderly initial state) :
    Safe state := by
  have held : Closed state ∧ Attended state ∧ state.panicked = false := by
    apply run.invariant
    · exact ⟨closed_initial, attended_initial, rfl⟩
    · intro before action after held orderly taken
      obtain ⟨closed, attended, alive⟩ := held
      have steps := (step_steps taken).2
      exact ⟨closed_steps steps closed,
        attended_steps steps orderly attended,
        panicked_steps steps alive attended closed⟩
  obtain ⟨closed, attended, alive⟩ := held
  exact ⟨attended.sending closed, closed.closes_le, alive⟩

end Reader

namespace Sample

/-- The first of two consumers is started and receives two deliveries; the
second request finds the channel full. -/
def started : List (Action Nat) :=
  [.dial true, .openChannel true, .qos true, .queueDeclare, .consume true,
    .deliver 0 1, .newRequest 0 true, .send 0, .deliver 0 2,
    .newRequest 0 true]

/-- The second consumer cannot be started, and the reader is closed while the
broker cannot be reached. -/
def abandoned : List (Action Nat) :=
  [.queueDeclare, .consume false, .receiveError, .dial false, .close, .abort]

/-- The second consumer is started as well, and the reader is closed. -/
def closed : List (Action Nat) :=
  [.queueDeclare, .consume true, .receive, .send 0, .close, .abort,
    .endRange 0, .endRange 1, .wait, .receiveError]

end Sample

theorem orderly_safe_sample : ∃ state : State Nat,
    state.tasks.closed = true ∧ Safe state := by
  have executed : (executeWhile (step 2 1) Orderly initial
      (Sample.started ++ Sample.closed)).map (·.tasks.closed) =
        some true := by
    decide +kernel
  obtain ⟨state, reached, shut⟩ := Option.map_eq_some_iff.mp executed
  exact ⟨state, shut,
    orderly_safe 2 1 state (Runs.of_executeWhile reached)⟩

/-- The channel is closed while the first consumer waits to send on it; its
send panics. -/
theorem safe_fails : ∃ state final : State Nat,
    Runs (step 2 1) (fun _ _ => True) initial state ∧
      state.tasks.closed = true ∧ ¬ Safe state ∧
      step 2 1 state (.send 0) = some final ∧ final.panicked = true := by
  have executed : (execute (step 2 1) initial
      (Sample.started ++ Sample.abandoned)).map (fun state =>
        (state.tasks.closed, state.consumers,
          (step 2 1 state (.send 0)).map (·.panicked))) =
      some (true, [⟨1, .sending 2⟩], some true) := by
    decide +kernel
  obtain ⟨state, reached, same⟩ := Option.map_eq_some_iff.mp executed
  simp only [Prod.mk.injEq, Option.map_eq_some_iff] at same
  obtain ⟨shut, consumers, final, sends, panics⟩ := same
  refine ⟨state, final, Runs.of_execute (fun _ _ _ => trivial) reached,
    shut, ?_, sends, panics⟩
  intro safe
  apply safe.sending shut ⟨1, .sending 2⟩ _ 2 rfl
  rw [consumers]
  exact List.mem_singleton.mpr rfl

end Bacs.Broker.Reader
