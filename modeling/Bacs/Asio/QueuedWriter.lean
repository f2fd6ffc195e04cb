import Bacs.Foundation.Runs

/-!
# The queued writer

Calls of `write`, `close` and `terminate` and the completions of writes are
posted to a strand, which runs them one after another.  The handler of a
completed write may call these functions, too: they only post.
-/

namespace Bacs.Asio

open Foundation

inductive Posted (T : Type) where
  | push (object : T)
  | close
  | terminate
  | handleWrite (failed : Bool)
  deriving DecidableEq, Repr

def Posted.object {T : Type} : Posted T → Option T
  | .push object => some object
  | _ => none

/-- Whether it is the handler of a completed write. -/
def Posted.completion {T : Type} : Posted T → Bool
  | .handleWrite _ => true
  | _ => false

/-- A call of `close` on the connection: how many objects have been pushed
then, how many of them written, and whether `terminate` has been run. -/
structure ConnectionClosing where
  pushed : Nat
  completed : Nat
  terminated : Bool
  deriving DecidableEq, Repr

structure QueuedWriter (T : Type) where
  queue : List T
  last : Bool
  /-- What the strand has not run yet, oldest first. -/
  strand : List (Posted T)
  /-- The objects of the `async_write` operations that have not completed. -/
  writes : List T
  /-- The objects `write` was called with. -/
  written : List T
  pushed : List T
  /-- The objects handed to `async_write`. -/
  handed : List T
  /-- How many writes have been handled as completed without an error. -/
  completed : Nat
  failed : Bool
  /-- A call of `close` has been processed. -/
  closing : Bool
  terminated : Bool
  closings : List ConnectionClosing
  deriving DecidableEq, Repr

namespace QueuedWriter

variable {T : Type}

def initial : QueuedWriter T :=
  { queue := [], last := false, strand := [], writes := [], written := []
    pushed := [], handed := [], completed := 0, failed := false
    closing := false, terminated := false, closings := [] }

variable (writer : QueuedWriter T)

/-- `m_connection.close` -/
def connectionClose : QueuedWriter T :=
  { writer with
    closings := writer.closings ++
      [{ pushed := writer.pushed.length, completed := writer.completed
         terminated := writer.terminated }] }

/-- It is called only where there is something in the queue. -/
def spawnWriter : QueuedWriter T :=
  match writer.queue with
  | [] => writer
  | object :: _ =>
      { writer with
        writes := writer.writes ++ [object]
        handed := writer.handed ++ [object] }

def push (object : T) : QueuedWriter T :=
  let writer :=
    { writer with
      queue := writer.queue ++ [object], pushed := writer.pushed ++ [object] }
  if writer.queue.length = 1 then writer.spawnWriter else writer

def close : QueuedWriter T :=
  let writer := { writer with closing := true }
  if writer.last then writer
  else
    let writer := { writer with last := true }
    if writer.queue = [] then writer.connectionClose else writer

def terminate : QueuedWriter T :=
  connectionClose { writer with last := true, terminated := true }

def handleWrite (failed : Bool) : QueuedWriter T :=
  if failed then { writer with failed := true }
  else
    let writer :=
      { writer with
        queue := writer.queue.tail, completed := writer.completed + 1 }
    if writer.queue = [] then
      if writer.last then writer.connectionClose else writer
    else writer.spawnWriter

/-- `m_strand.post` -/
def post (handler : Posted T) : QueuedWriter T :=
  { writer with strand := writer.strand ++ [handler] }

def run : Posted T → QueuedWriter T
  | .push object => writer.push object
  | .close => writer.close
  | .terminate => writer.terminate
  | .handleWrite failed => writer.handleWrite failed

inductive Action (T : Type) where
  | write (object : T)
  | close
  | terminate
  /-- An `async_write` completes. -/
  | complete (index : Nat) (failed : Bool)
  /-- The strand runs the handler that was posted first. -/
  | run
  deriving DecidableEq

def step (writer : QueuedWriter T) : Action T → Option (QueuedWriter T)
  | .write object =>
      some (post { writer with written := writer.written ++ [object] }
        (.push object))
  | .close => some (writer.post .close)
  | .terminate => some (writer.post .terminate)
  | .complete index failed =>
      if index < writer.writes.length then
        some (post { writer with writes := writer.writes.eraseIdx index }
          (.handleWrite failed))
      else none
  | .run =>
      match writer.strand with
      | [] => none
      | handler :: strand => some (run { writer with strand } handler)

end QueuedWriter

end Bacs.Asio
