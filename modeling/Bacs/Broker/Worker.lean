import Bacs.Foundation.Channel
import Bacs.Foundation.Runs

/-!
# A worker and its request

`Do` extracts the package, runs the driver and writes its result.  The
statuses of the driver go through a channel to a goroutine that writes them.
The deferred calls run whatever the driver does, and the last of them
acknowledges the request.
-/

namespace Bacs.Broker.Worker

open Foundation

variable {Status Error : Type}

inductive ResultStatus where
  | ok
  | error
  | protoError
  | workerError
  | unknownWorker
  | incompatiblePackage
  | packageError
  | packageNotFound
  | packageBuildError
  | executionError
  | executionTimeout
  deriving DecidableEq, Repr

structure Result where
  status : ResultStatus
  reason : String
  data : List UInt8
  log : List UInt8
  deriving DecidableEq, Repr

inductive PanicValue (Error : Type) where
  | error (error : Error)
  | string (text : String)
  /-- Any other value, as it is formatted. -/
  | other (text : String)
  deriving DecidableEq, Repr

inductive Outcome (Error Value : Type) where
  | returned (value : Value)
  | failed (error : Error)
  | panicked (value : PanicValue Error)
  deriving DecidableEq, Repr

/-- The interface of errors: `text` is `Error()`, and `new` is `errors.New`
or `fmt.Errorf` of a text. -/
structure Errors (Error : Type) where
  text : Error → String
  new : String → Error

variable (errors : Errors Error)

/-- The error that the deferred function of `Do` makes of a panic. -/
def recovered : PanicValue Error → Error
  | .error error => error
  | .string text => errors.new text
  | .other text => errors.new text

/-- The error that `Do` has when its deferred function goes on. -/
def Outcome.error {Value : Type} : Outcome Error Value → Option Error
  | .returned _ => none
  | .failed error => some error
  | .panicked value => some (recovered errors value)

def packageError (error : Error) : Result :=
  { status := .packageError, reason := errors.text error
    data := [], log := [] }

inductive Call (Status Error : Type) where
  | writeStatus (status : Status)
  | writeResult (result : Result)
  | writeError (error : Error)
  | ack
  | nack
  deriving DecidableEq

inductive Phase (Error : Type) where
  | extracting
  | driving
  /-- The deferred function of `do` closes the channel of statuses. -/
  | closing (outcome : Outcome Error Result)
  /-- It waits for the goroutine. -/
  | joining (outcome : Outcome Error Result)
  | writing (result : Result)
  /-- The deferred function of `Do`. -/
  | acknowledging (error : Option Error)
  | nacking (error : Error)
  | finished (error : Option Error)
  deriving DecidableEq

/-- Where the goroutine that writes the statuses is. -/
inductive Forwarder (Status : Type) where
  | unstarted
  | ranging
  | writing (status : Status)
  | done
  deriving DecidableEq

structure State (Status Error : Type) where
  phase : Phase Error
  forwarder : Forwarder Status
  statuses : Channel Status
  calls : List (Call Status Error)
  emitted : List Status
  extraction : Option (Outcome Error Unit)
  driver : Option (Outcome Error Result)
  written : Option (Outcome Error Unit)
  deriving DecidableEq

def initial : State Status Error :=
  { phase := .extracting, forwarder := .unstarted, statuses := .make
    calls := [], emitted := []
    extraction := none, driver := none, written := none }

def numberOfBufferedStatuses : Nat := 100

inductive Action (Status Error : Type) where
  | extract (outcome : Outcome Error Unit)
  | emit (status : Status)
  | endDriver (outcome : Outcome Error Result)
  | closeStatuses
  | join
  | forward
  | writeStatus
  | writeResult (outcome : Outcome Error Unit)
  | acknowledge
  | nack

/-- After `do`: an error or a panic goes to the deferred function of `Do`. -/
def afterDo : Outcome Error Result → Phase Error
  | .returned result => .writing result
  | .failed error => .acknowledging (some error)
  | .panicked value => .acknowledging (some (recovered errors value))

/-- Errors of `WriteStatus`, `WriteError`, `Ack` and `Nack` are ignored. -/
def step (state : State Status Error) :
    Action Status Error → Option (State Status Error)
  | .extract outcome =>
      match state.phase with
      | .extracting =>
          match outcome with
          | .returned _ =>
              some { state with
                phase := .driving, forwarder := .ranging
                extraction := some outcome }
          | .failed error =>
              some { state with
                phase := .writing (packageError errors error)
                extraction := some outcome }
          | .panicked value =>
              some { state with
                phase := .acknowledging (some (recovered errors value))
                extraction := some outcome }
      | _ => none
  | .emit status =>
      match state.phase with
      | .driving => do
          let statuses ← state.statuses.send numberOfBufferedStatuses status
          return { state with
            statuses, emitted := state.emitted ++ [status] }
      | _ => none
  | .endDriver outcome =>
      match state.phase with
      | .driving =>
          some { state with phase := .closing outcome, driver := some outcome }
      | _ => none
  | .closeStatuses =>
      match state.phase with
      | .closing outcome =>
          some { state with
            phase := .joining outcome, statuses := state.statuses.close }
      | _ => none
  | .join =>
      match state.phase, state.forwarder with
      | .joining outcome, .done =>
          some { state with phase := afterDo errors outcome }
      | _, _ => none
  | .forward =>
      match state.forwarder, state.statuses.receive with
      | .ranging, some (some status, statuses) =>
          some { state with forwarder := .writing status, statuses }
      | .ranging, some (none, statuses) =>
          some { state with forwarder := .done, statuses }
      | _, _ => none
  | .writeStatus =>
      match state.forwarder with
      | .writing status =>
          some { state with
            forwarder := .ranging
            calls := state.calls ++ [.writeStatus status] }
      | _ => none
  | .writeResult outcome =>
      match state.phase with
      | .writing result =>
          some { state with
            phase := .acknowledging (outcome.error errors)
            calls := state.calls ++ [.writeResult result]
            written := some outcome }
      | _ => none
  | .acknowledge =>
      match state.phase with
      | .acknowledging none =>
          some { state with
            phase := .finished none, calls := state.calls ++ [.ack] }
      | .acknowledging (some error) =>
          some { state with
            phase := .nacking error
            calls := state.calls ++ [.writeError error] }
      | _ => none
  | .nack =>
      match state.phase with
      | .nacking error =>
          some { state with
            phase := .finished (some error)
            calls := state.calls ++ [.nack] }
      | _ => none

end Bacs.Broker.Worker
