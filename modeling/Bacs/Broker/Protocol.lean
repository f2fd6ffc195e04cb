import Bacs.Broker.Worker

/-!
# The calls on a request

While the driver runs, only the goroutine of the statuses calls the request;
once it is done, only the worker does.
-/

namespace Bacs.Broker.Worker

open Foundation

variable {Status Error : Type} {errors : Errors Error}
  {state next : State Status Error} {action : Action Status Error}

/-! ## What the calls should be -/

/-- How `do` ends. -/
def doOutcome (errors : Errors Error)
    (extraction : Option (Outcome Error Unit))
    (driver : Option (Outcome Error Result)) :
    Option (Outcome Error Result) :=
  match extraction with
  | none => none
  | some (.returned _) => driver
  | some (.failed error) => some (.returned (packageError errors error))
  | some (.panicked value) => some (.panicked value)

/-- The call of `WriteResult`, if there is one, and the error after it. -/
inductive Answer (errors : Errors Error) (state : State Status Error) :
    List (Call Status Error) → Option Error → Prop
  | result {result : Result} {written : Outcome Error Unit}
      (done : doOutcome errors state.extraction state.driver =
        some (.returned result))
      (writes : state.written = some written) :
      Answer errors state [.writeResult result] (written.error errors)
  | error {outcome : Outcome Error Result} {error : Error}
      (done : doOutcome errors state.extraction state.driver = some outcome)
      (fails : outcome.error errors = some error)
      (unwritten : state.written = none) :
      Answer errors state [] (some error)

def acknowledgement : Option Error → List (Call Status Error)
  | none => [.ack]
  | some error => [.writeError error, .nack]

/-! ## The invariant -/

def Forwarder.holds : Forwarder Status → List Status
  | .writing status => [status]
  | _ => []

/-- The statuses that were sent are written, in the goroutine, or in the
channel. -/
def Forwarding (state : State Status Error) : Prop :=
  ∃ sent, state.calls = sent.map .writeStatus ∧
    state.emitted = sent ++ state.forwarder.holds ++ state.statuses.buffer

def Settled (state : State Status Error) : Prop :=
  state.forwarder = .unstarted ∨ state.forwarder = .done

/-- All statuses are written, and then `rest` was called. -/
def Called (state : State Status Error) (rest : List (Call Status Error)) :
    Prop :=
  Settled state ∧ state.calls = state.emitted.map .writeStatus ++ rest

structure Driven (state : State Status Error)
    (driver : Option (Outcome Error Result)) (closed : Bool) : Prop where
  forwarding : Forwarding state
  started : state.forwarder ≠ .unstarted
  drained : state.forwarder = .done →
    state.statuses.buffer = [] ∧ closed = true
  closed : state.statuses.closed = closed
  extraction : state.extraction = some (.returned ())
  driver : state.driver = driver
  written : state.written = none

def Invariant (errors : Errors Error) (state : State Status Error) : Prop :=
  match state.phase with
  | .extracting => state = initial
  | .driving => Driven state none false
  | .closing outcome => Driven state (some outcome) false
  | .joining outcome => Driven state (some outcome) true
  | .writing result => Called state [] ∧ state.written = none ∧
      doOutcome errors state.extraction state.driver =
        some (.returned result)
  | .acknowledging error => ∃ rest, Answer errors state rest error ∧
      Called state rest
  | .nacking error => ∃ rest, Answer errors state rest (some error) ∧
      Called state (rest ++ [.writeError error])
  | .finished error => ∃ rest, Answer errors state rest error ∧
      Called state (rest ++ acknowledgement error)

theorem invariant_initial :
    Invariant errors (initial : State Status Error) :=
  rfl

/-- The goroutine changes nothing but its own state, the channel and the
calls. -/
theorem Driven.goroutine {driver : Option (Outcome Error Result)}
    {closed : Bool} (driven : Driven state driver closed)
    {forwarder : Forwarder Status} {statuses : Channel Status}
    {calls : List (Call Status Error)}
    (forwarding : Forwarding { state with forwarder, statuses, calls })
    (started : forwarder ≠ .unstarted)
    (drained : forwarder = .done → statuses.buffer = [] ∧ closed = true)
    (same : statuses.closed = state.statuses.closed) :
    Driven { state with forwarder, statuses, calls } driver closed where
  forwarding := forwarding
  started := started
  drained := drained
  closed := same.trans driven.closed
  extraction := driven.extraction
  driver := driven.driver
  written := driven.written

theorem Driven.forward {driver : Option (Outcome Error Result)}
    {closed : Bool} (driven : Driven state driver closed)
    (taken : step errors state .forward = some next) :
    Driven next driver closed ∧ next.phase = state.phase := by
  obtain ⟨sent, calls, emitted⟩ := driven.forwarding
  simp only [step] at taken
  split at taken
  · rename_i status statuses ranging received
    cases taken
    obtain ⟨buffer, same⟩ := Channel.receive_value received
    refine ⟨driven.goroutine ⟨sent, calls, ?_⟩ nofun nofun same, rfl⟩
    rw [emitted, ranging, buffer]
    simp [Forwarder.holds]
  · rename_i statuses ranging received
    cases taken
    obtain ⟨empty, shut, same⟩ := Channel.receive_closed received
    subst same
    have drained : state.statuses.buffer = [] ∧ closed = true :=
      ⟨empty, driven.closed.symm.trans shut⟩
    refine ⟨driven.goroutine ⟨sent, calls, ?_⟩ nofun (fun _ => drained) rfl,
      rfl⟩
    rw [emitted, ranging]
    simp [Forwarder.holds]
  · cases taken

theorem Driven.writeStatus {driver : Option (Outcome Error Result)}
    {closed : Bool} (driven : Driven state driver closed)
    (taken : step errors state .writeStatus = some next) :
    Driven next driver closed ∧ next.phase = state.phase := by
  obtain ⟨sent, calls, emitted⟩ := driven.forwarding
  simp only [step] at taken
  split at taken
  · rename_i status writing
    cases taken
    refine ⟨driven.goroutine ⟨sent ++ [status], ?_, ?_⟩ nofun nofun rfl, rfl⟩
    · simp [calls]
    · rw [emitted, writing]
      simp [Forwarder.holds]
  · cases taken

theorem Settled.no_forward (settled : Settled state) :
    step errors state .forward = none ∧
      step errors state .writeStatus = none := by
  rcases settled with same | same <;> simp [step, same]

/-- The steps of the goroutine keep the invariant in every phase. -/
theorem invariant_goroutine
    (forwards : action = .forward ∨ action = .writeStatus)
    (taken : step errors state action = some next)
    (holds : Invariant errors state) : Invariant errors next := by
  have driven : ∀ driver closed, Driven state driver closed →
      Driven next driver closed ∧ next.phase = state.phase := by
    intro driver closed driven
    rcases forwards with same | same
    · subst same
      exact driven.forward taken
    · subst same
      exact driven.writeStatus taken
  have impossible : ¬ Settled state := by
    intro settled
    rcases forwards with same | same
    · subst same
      rw [settled.no_forward.1] at taken
      cases taken
    · subst same
      rw [settled.no_forward.2] at taken
      cases taken
  unfold Invariant at holds
  split at holds
  · exact absurd (Or.inl (by rw [holds]; rfl)) impossible
  · rename_i phase
    obtain ⟨kept, same⟩ := driven _ _ holds
    rw [Invariant, same, phase]
    exact kept
  · rename_i phase
    obtain ⟨kept, same⟩ := driven _ _ holds
    rw [Invariant, same, phase]
    exact kept
  · rename_i phase
    obtain ⟨kept, same⟩ := driven _ _ holds
    rw [Invariant, same, phase]
    exact kept
  · exact absurd holds.1.1 impossible
  · obtain ⟨_, _, called⟩ := holds
    exact absurd called.1 impossible
  · obtain ⟨_, _, called⟩ := holds
    exact absurd called.1 impossible
  · obtain ⟨_, _, called⟩ := holds
    exact absurd called.1 impossible

theorem invariant_extract {outcome : Outcome Error Unit}
    (taken : step errors state (.extract outcome) = some next)
    (holds : Invariant errors state) : Invariant errors next := by
  simp only [step] at taken
  split at taken
  · rename_i phase
    rw [Invariant, phase] at holds
    cases outcome with
    | returned value =>
        cases taken
        subst holds
        constructor <;> simp [Forwarding, Forwarder.holds, initial,
          Channel.make]
    | failed error =>
        cases taken
        subst holds
        exact ⟨⟨Or.inl rfl, rfl⟩, rfl, rfl⟩
    | panicked value =>
        cases taken
        subst holds
        exact ⟨[], .error rfl rfl rfl, Or.inl rfl, rfl⟩
  · cases taken

theorem invariant_emit {status : Status}
    (taken : step errors state (.emit status) = some next)
    (holds : Invariant errors state) : Invariant errors next := by
  simp only [step] at taken
  split at taken
  · rename_i phase
    rw [Invariant, phase] at holds
    simp only [Option.bind_eq_bind, Option.bind_eq_some_iff] at taken
    obtain ⟨statuses, sent, same⟩ := taken
    cases same
    obtain ⟨unclosed, appended⟩ := Channel.send_spec sent
    subst appended
    obtain ⟨written, calls, emitted⟩ := holds.forwarding
    rw [Invariant, phase]
    constructor
    case forwarding =>
      refine ⟨written, calls, ?_⟩
      rw [emitted]
      simp
    case drained =>
      intro done
      exact absurd (holds.drained done).2 Bool.false_ne_true
    case started => exact holds.started
    case closed => exact unclosed
    case extraction => exact holds.extraction
    case driver => exact holds.driver
    case written => exact holds.written
  · cases taken

theorem invariant_endDriver {outcome : Outcome Error Result}
    (taken : step errors state (.endDriver outcome) = some next)
    (holds : Invariant errors state) : Invariant errors next := by
  simp only [step] at taken
  split at taken
  · rename_i phase
    rw [Invariant, phase] at holds
    cases taken
    exact { holds with driver := rfl }
  · cases taken

theorem invariant_closeStatuses
    (taken : step errors state .closeStatuses = some next)
    (holds : Invariant errors state) : Invariant errors next := by
  simp only [step] at taken
  split at taken
  · rename_i phase
    rw [Invariant, phase] at holds
    cases taken
    constructor
    case forwarding => exact holds.forwarding
    case drained => exact fun done => ⟨(holds.drained done).1, rfl⟩
    case started => exact holds.started
    case closed => rfl
    case extraction => exact holds.extraction
    case driver => exact holds.driver
    case written => exact holds.written
  · cases taken

theorem Driven.called {driver : Option (Outcome Error Result)}
    {closed : Bool} (driven : Driven state driver closed)
    (done : state.forwarder = .done) : Called state [] := by
  obtain ⟨sent, calls, emitted⟩ := driven.forwarding
  refine ⟨Or.inr done, ?_⟩
  rw [calls, emitted, done, (driven.drained done).1]
  simp [Forwarder.holds]

theorem invariant_join (taken : step errors state .join = some next)
    (holds : Invariant errors state) : Invariant errors next := by
  simp only [step] at taken
  split at taken
  · rename_i outcome phase done
    rw [Invariant, phase] at holds
    have called := holds.called done
    have ended : doOutcome errors state.extraction state.driver =
        some outcome := by
      rw [holds.extraction, holds.driver]
      rfl
    cases taken
    cases outcome with
    | returned result => exact ⟨called, holds.written, ended⟩
    | failed error => exact ⟨[], .error ended rfl holds.written, called⟩
    | panicked value => exact ⟨[], .error ended rfl holds.written, called⟩
  · cases taken

theorem Called.append {rest : List (Call Status Error)}
    {phase : Phase Error} {call : Call Status Error}
    {written : Option (Outcome Error Unit)} (called : Called state rest) :
    Called { state with
      phase, calls := state.calls ++ [call], written } (rest ++ [call]) := by
  refine ⟨called.1, ?_⟩
  simp [called.2]

theorem invariant_writeResult {outcome : Outcome Error Unit}
    (taken : step errors state (.writeResult outcome) = some next)
    (holds : Invariant errors state) : Invariant errors next := by
  simp only [step] at taken
  split at taken
  · rename_i result phase
    rw [Invariant, phase] at holds
    obtain ⟨called, unwritten, ended⟩ := holds
    cases taken
    exact ⟨[.writeResult result], .result ended rfl, called.append⟩
  · cases taken

theorem Answer.same {rest : List (Call Status Error)} {error : Option Error}
    (answer : Answer errors state rest error)
    (extraction : next.extraction = state.extraction)
    (driver : next.driver = state.driver)
    (written : next.written = state.written) :
    Answer errors next rest error := by
  cases answer with
  | result done writes =>
      apply Answer.result
      · rw [extraction, driver]
        exact done
      · rw [written]
        exact writes
  | error done fails unwritten =>
      apply Answer.error
      · rw [extraction, driver]
        exact done
      · exact fails
      · rw [written]
        exact unwritten

theorem invariant_acknowledge
    (taken : step errors state .acknowledge = some next)
    (holds : Invariant errors state) : Invariant errors next := by
  simp only [step] at taken
  split at taken
  · rename_i phase
    rw [Invariant, phase] at holds
    obtain ⟨rest, answer, called⟩ := holds
    cases taken
    exact ⟨rest, answer.same rfl rfl rfl, called.append⟩
  · rename_i error phase
    rw [Invariant, phase] at holds
    obtain ⟨rest, answer, called⟩ := holds
    cases taken
    exact ⟨rest, answer.same rfl rfl rfl, called.append⟩
  · cases taken

theorem invariant_nack (taken : step errors state .nack = some next)
    (holds : Invariant errors state) : Invariant errors next := by
  simp only [step] at taken
  split at taken
  · rename_i error phase
    rw [Invariant, phase] at holds
    obtain ⟨rest, answer, called⟩ := holds
    cases taken
    refine ⟨rest, answer.same rfl rfl rfl, ?_⟩
    have last : rest ++ acknowledgement (some error) =
        rest ++ [.writeError error] ++ [.nack] := by
      simp [acknowledgement]
    rw [last]
    exact called.append
  · cases taken

theorem invariant_step (taken : step errors state action = some next)
    (holds : Invariant errors state) : Invariant errors next := by
  cases action with
  | extract outcome => exact invariant_extract taken holds
  | emit status => exact invariant_emit taken holds
  | endDriver outcome => exact invariant_endDriver taken holds
  | closeStatuses => exact invariant_closeStatuses taken holds
  | join => exact invariant_join taken holds
  | forward => exact invariant_goroutine (Or.inl rfl) taken holds
  | writeStatus => exact invariant_goroutine (Or.inr rfl) taken holds
  | writeResult outcome => exact invariant_writeResult taken holds
  | acknowledge => exact invariant_acknowledge taken holds
  | nack => exact invariant_nack taken holds

theorem run_invariant
    {allowed : State Status Error → Action Status Error → Prop}
    (run : Runs (step errors) allowed initial state) :
    Invariant errors state := by
  apply run.invariant invariant_initial
  intro before action after holds _ taken
  exact invariant_step taken holds

/-! ## The protocol -/

/-- The result that is to be written: of a package that cannot be extracted,
or of the driver. -/
def resultToWrite (errors : Errors Error)
    (extraction : Option (Outcome Error Unit))
    (driver : Option (Outcome Error Result)) : Option Result :=
  match extraction, driver with
  | some (.failed error), _ => some (packageError errors error)
  | some (.returned _), some (.returned result) => some result
  | _, _ => none

def Call.acknowledges : Call Status Error → Bool
  | .ack => true
  | .nack => true
  | _ => false

/-- What `Do` has called when it returns `error`. -/
structure Protocol (errors : Errors Error) (state : State Status Error)
    (error : Option Error) : Prop where
  calls : state.calls = state.emitted.map .writeStatus ++
    (resultToWrite errors state.extraction state.driver).toList.map
      .writeResult ++ acknowledgement error
  written : state.written.isSome ↔
    (resultToWrite errors state.extraction state.driver).isSome
  acked : error = none ↔ ∃ value, state.written = some (.returned value)
  once : (state.calls.filter Call.acknowledges).length = 1
  last : state.calls.getLast? = some (if error.isSome then .nack else .ack)
  nacked : error.isSome ↔ .nack ∈ state.calls

theorem resultToWrite_of_returned {result : Result}
    (done : doOutcome errors state.extraction state.driver =
      some (.returned result)) :
    resultToWrite errors state.extraction state.driver = some result := by
  unfold doOutcome at done
  split at done
  · cases done
  · rename_i extraction
    rw [extraction, done]
    rfl
  · rename_i extraction
    rw [extraction]
    cases done
    rfl
  · cases done

theorem resultToWrite_of_error {outcome : Outcome Error Result}
    {error : Error}
    (done : doOutcome errors state.extraction state.driver = some outcome)
    (fails : outcome.error errors = some error) :
    resultToWrite errors state.extraction state.driver = none := by
  unfold doOutcome at done
  split at done
  · cases done
  · rename_i extraction
    rw [extraction, done]
    cases outcome with
    | returned result => cases fails
    | failed error => rfl
    | panicked value => rfl
  · cases done
    cases fails
  · rename_i extraction
    rw [extraction]
    rfl

theorem Outcome.error_eq_none {written : Outcome Error Unit} :
    written.error errors = none ↔ ∃ value, written = .returned value := by
  cases written <;> simp [Outcome.error]

theorem acknowledges_statuses {statuses : List Status} :
    (statuses.map .writeStatus : List (Call Status Error)).filter
      Call.acknowledges = [] := by
  simp [List.filter_eq_nil_iff, Call.acknowledges]

theorem acknowledges_results {results : List Result} :
    (results.map .writeResult : List (Call Status Error)).filter
      Call.acknowledges = [] := by
  simp [List.filter_eq_nil_iff, Call.acknowledges]

theorem acknowledges_acknowledgement {error : Option Error} :
    ((acknowledgement error : List (Call Status Error)).filter
      Call.acknowledges).length = 1 := by
  cases error <;> rfl

theorem protocol_of_answer {error : Option Error}
    {rest : List (Call Status Error)}
    (answer : Answer errors state rest error)
    (called : Called state (rest ++ acknowledgement error)) :
    Protocol errors state error := by
  have results : rest =
      (resultToWrite errors state.extraction state.driver).toList.map
        .writeResult ∧
      (state.written.isSome ↔
        (resultToWrite errors state.extraction state.driver).isSome) ∧
      (error = none ↔ ∃ value, state.written = some (.returned value)) := by
    cases answer with
    | result done writes =>
        rw [resultToWrite_of_returned done, writes]
        refine ⟨rfl, by simp, ?_⟩
        rw [Outcome.error_eq_none]
        simp
    | error done fails unwritten =>
        rw [resultToWrite_of_error done fails, unwritten]
        exact ⟨rfl, by simp, by simp⟩
  obtain ⟨same, written, acked⟩ := results
  have calls := called.2
  rw [same, ← List.append_assoc] at calls
  constructor
  case calls => exact calls
  case written => exact written
  case acked => exact acked
  case once =>
    rw [calls, List.filter_append, List.filter_append,
      acknowledges_statuses, acknowledges_results]
    exact acknowledges_acknowledgement
  case last =>
    rw [calls]
    cases error <;> simp [acknowledgement]
  case nacked =>
    rw [calls]
    cases error <;>
      cases resultToWrite errors state.extraction state.driver <;>
      simp [acknowledgement]

/-- As long as `Do` has not returned, it or the goroutine goes on. -/
theorem invariant_progress (holds : Invariant errors state)
    (running : ∀ error, state.phase ≠ .finished error) :
    ∃ action next, step errors state action = some next := by
  have enabled : ∀ action, (step errors state action).isSome →
      ∃ action next, step errors state action = some next :=
    fun action some => ⟨action, Option.isSome_iff_exists.mp some⟩
  cases phase : state.phase with
  | extracting =>
      exact enabled (.extract (.failed (errors.new "")))
        (by simp [step, phase])
  | driving =>
      exact enabled (.endDriver (.failed (errors.new "")))
        (by simp [step, phase])
  | closing outcome => exact enabled .closeStatuses (by simp [step, phase])
  | joining outcome =>
      rw [Invariant, phase] at holds
      cases forwarder : state.forwarder with
      | unstarted => exact absurd forwarder holds.started
      | ranging =>
          apply enabled .forward
          cases buffer : state.statuses.buffer with
          | nil =>
              simp [step, forwarder, Channel.receive, buffer, holds.closed]
          | cons status rest =>
              simp [step, forwarder, Channel.receive, buffer]
      | writing status =>
          exact enabled .writeStatus (by simp [step, forwarder])
      | done => exact enabled .join (by simp [step, phase, forwarder])
  | writing result =>
      exact enabled (.writeResult (.returned ())) (by simp [step, phase])
  | acknowledging error =>
      apply enabled .acknowledge
      cases error <;> simp [step, phase]
  | nacking error => exact enabled .nack (by simp [step, phase])
  | finished error => exact absurd phase (running error)

/-- In every run, `Do` makes the calls of the protocol, and until it has
returned the run can go on. -/
theorem worker_protocol (errors : Errors Error) (state : State Status Error)
    (run : Runs (step errors) (fun _ _ => True) initial state) :
    (∀ error, state.phase = .finished error →
      Protocol errors state error) ∧
    ((∀ error, state.phase ≠ .finished error) →
      ∃ action next, step errors state action = some next) := by
  have holds := run_invariant run
  constructor
  · intro error finished
    rw [Invariant, finished] at holds
    obtain ⟨rest, answer, called⟩ := holds
    exact protocol_of_answer answer called
  · intro running
    exact invariant_progress holds running

namespace Sample

def texts : Errors String :=
  { text := id, new := id }

/-- The driver panics while one of its statuses is in the channel. -/
def panicking : List (Action Nat String) :=
  [.extract (.returned ()), .emit 1, .emit 2, .forward, .writeStatus,
    .endDriver (.panicked (.string "driver")), .closeStatuses, .forward,
    .writeStatus, .forward, .join, .acknowledge, .nack]

end Sample

theorem worker_protocol_sample : ∃ state : State Nat String,
    state.calls = [.writeStatus 1, .writeStatus 2, .writeError "driver",
      .nack] ∧
    Protocol Sample.texts state (some "driver") := by
  have executed : (execute (step Sample.texts) initial
      Sample.panicking).map (fun state => (state.phase, state.calls)) =
      some (.finished (some "driver"), [.writeStatus 1, .writeStatus 2,
        .writeError "driver", .nack]) := by
    decide +kernel
  obtain ⟨state, reached, same⟩ := Option.map_eq_some_iff.mp executed
  simp only [Prod.mk.injEq] at same
  refine ⟨state, same.2, ?_⟩
  have run : Runs (step Sample.texts) (fun _ _ => True) initial state :=
    Runs.of_execute (fun _ _ _ => trivial) reached
  exact (worker_protocol Sample.texts state run).1 _ same.1

end Bacs.Broker.Worker
