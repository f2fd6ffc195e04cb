import Bacs.Asio.BufferConnection

/-!
# What a buffer connection does to the outside

The same handlers with a log: of the writes they start and the calls of
`close` on the sink, and of the calls of the two data handlers.
-/

namespace Bacs.Asio

open Foundation

inductive Event where
  | write
  /-- `m_sink.close` -/
  | close
  /-- `m_handle_read_data`; there is no data at the end. -/
  | readData (data : Bytes)
  /-- `m_handle_write_data`; there is no data at the end. -/
  | writeData (data : Bytes)
  deriving DecidableEq, Repr

def Event.readCall : Event → Option Bytes
  | .readData data => some data
  | _ => none

def Event.writeCall : Event → Option Bytes
  | .writeData data => some data
  | _ => none

structure Observed where
  connection : BufferConnection
  log : List Event
  deriving DecidableEq, Repr

namespace Observed

def initial (closeSinkOnEof discardOnSinkError : Bool) : Observed :=
  { connection := .initial closeSinkOnEof discardOnSinkError, log := [] }

variable (observed : Observed)

def tell (event : Event) : Observed :=
  { observed with log := observed.log ++ [event] }

def sinkClose : Observed :=
  tell { observed with connection := observed.connection.sinkClose } .close

def close : Observed :=
  if observed.connection.closed then observed
  else
    let connection := { observed.connection with closed := true }
    if connection.queue = [] then sinkClose { observed with connection }
    else { observed with connection }

def terminate : Observed :=
  sinkClose { observed with
    connection :=
      { observed.connection with closed := true, terminated := true } }

def callback (closes : Bool) : Observed :=
  if closes then observed.close else observed

/-- A call of a data handler, which may call `close`. -/
def dataCallback (event : Event) (closes : Bool) : Observed :=
  (observed.tell event).callback closes

def spawnReader : Observed :=
  { observed with connection := observed.connection.spawnReader }

def spawnWriter : Observed :=
  let next := { observed with connection := observed.connection.spawnWriter }
  if observed.connection.terminated then next
  else if observed.connection.sinkOk = false then next
  else
    match observed.connection.queue with
    | [] => next
    | _ :: _ => next.tell .write

def tryCloseSink (closes : Bool) : Observed :=
  if observed.connection.closed ∨
      observed.connection.sourceOk = false ∧
        observed.connection.closeSinkOnEof then
    (observed.dataCallback (.writeData []) closes).sinkClose
  else observed

def enqueue (data : Bytes) (calls : Calls) : Observed :=
  if data ≠ [] ∧
      (observed.connection.sinkOk ∨
        observed.connection.discardOnSinkError = false) then
    let observed :=
      { observed with
        connection :=
          { observed.connection with
            queue := observed.connection.queue ++ [data]
            put := observed.connection.put ++ data } }
    let observed := observed.dataCallback (.readData data) calls.data
    if observed.connection.queue.length = 1 then observed.spawnWriter
    else observed
  else observed

def continueReading (failed : Bool) (calls : Calls) : Observed :=
  if failed then
    let observed := observed.dataCallback (.readData []) calls.eof
    { observed with
      connection := { observed.connection with sourceOk := false } }
  else if observed.connection.closed = false then observed.spawnReader
  else observed

def handleRead (data : Bytes) (failed : Bool) (calls : Calls) : Observed :=
  let observed := observed.callback calls.handler
  let observed := observed.enqueue data calls
  let observed := observed.continueReading failed calls
  if observed.connection.queue = [] then observed.tryCloseSink calls.sink
  else observed

def dequeue (size : Nat) (calls : Calls) : Observed :=
  if size ≠ 0 then
    let front := observed.connection.queue.headD []
    let observed :=
      observed.dataCallback (.writeData (front.take size)) calls.data
    match observed.connection.queue with
    | [] => observed
    | front :: rest =>
        let queue :=
          if size < front.length then front.drop size :: rest else rest
        { observed with connection := { observed.connection with queue } }
  else observed

def handleWrite (size : Nat) (failed : Bool) (calls : Calls) : Observed :=
  let observed := observed.callback calls.handler
  let observed := observed.dequeue size calls
  if failed then
    { observed with connection := { observed.connection with sinkOk := false } }
  else if observed.connection.queue = [] then
    observed.tryCloseSink calls.sink
  else observed.spawnWriter

def step (observed : Observed) : BufferConnection.Action → Option Observed
  | .start =>
      if observed.connection.started then none
      else
        some (spawnReader { observed with
          connection := { observed.connection with started := true } })
  | .read data failed calls =>
      if observed.connection.reads = 0 ∨
          BufferConnection.inboundSize < data.length then none
      else
        some (handleRead
          { observed with
            connection :=
              { observed.connection with
                reads := observed.connection.reads - 1 } }
          data failed calls)
  | .write index size failed calls =>
      match observed.connection.writes[index]? with
      | none => none
      | some buffer =>
          if buffer.length < size then none
          else
            some (handleWrite
              { observed with
                connection :=
                  { observed.connection with
                    writes := observed.connection.writes.eraseIdx index
                    transferred :=
                      observed.connection.transferred ++ buffer.take size } }
              size failed calls)
  | .close => some observed.close
  | .terminate => some observed.terminate

/-! ## The log changes nothing -/

@[simp] theorem sinkClose_connection :
    observed.sinkClose.connection = observed.connection.sinkClose := rfl

@[simp] theorem tell_connection (event : Event) :
    (observed.tell event).connection = observed.connection := rfl

@[simp] theorem close_connection :
    observed.close.connection = observed.connection.close := by
  unfold close BufferConnection.close
  dsimp only
  split
  · rfl
  · split
    · rfl
    · rfl

@[simp] theorem callback_connection (closes : Bool) :
    (observed.callback closes).connection =
      observed.connection.callback closes := by
  unfold callback BufferConnection.callback
  split
  · exact observed.close_connection
  · rfl

@[simp] theorem dataCallback_connection (event : Event) (closes : Bool) :
    (observed.dataCallback event closes).connection =
      observed.connection.callback closes :=
  (observed.tell event).callback_connection closes

@[simp] theorem spawnWriter_connection :
    observed.spawnWriter.connection = observed.connection.spawnWriter := by
  unfold spawnWriter
  dsimp only
  split
  · rfl
  · split
    · rfl
    · split
      · rfl
      · rfl

@[simp] theorem tryCloseSink_connection (closes : Bool) :
    (observed.tryCloseSink closes).connection =
      observed.connection.tryCloseSink closes := by
  unfold tryCloseSink BufferConnection.tryCloseSink
  split
  · simp
  · rfl

@[simp] theorem enqueue_connection (data : Bytes) (calls : Calls) :
    (observed.enqueue data calls).connection =
      observed.connection.enqueue data calls := by
  unfold enqueue BufferConnection.enqueue
  split
  · simp only [dataCallback_connection]
    split
    · simp
    · simp
  · rfl

@[simp] theorem continueReading_connection (failed : Bool) (calls : Calls) :
    (observed.continueReading failed calls).connection =
      observed.connection.continueReading failed calls := by
  unfold continueReading BufferConnection.continueReading
  split
  · simp
  · split
    · rfl
    · rfl

theorem handleRead_connection (data : Bytes) (failed : Bool)
    (calls : Calls) :
    (observed.handleRead data failed calls).connection =
      observed.connection.handleRead data failed calls := by
  unfold handleRead BufferConnection.handleRead
  simp only [continueReading_connection, enqueue_connection,
    callback_connection]
  split
  · simp
  · simp

@[simp] theorem dequeue_connection (size : Nat) (calls : Calls) :
    (observed.dequeue size calls).connection =
      observed.connection.dequeue size calls := by
  unfold dequeue BufferConnection.dequeue
  split
  · simp only [dataCallback_connection]
    cases queued : (observed.connection.callback calls.data).queue with
    | nil => simp
    | cons front rest =>
        dsimp only
        split
        · rfl
        · rfl
  · rfl

theorem handleWrite_connection (size : Nat) (failed : Bool)
    (calls : Calls) :
    (observed.handleWrite size failed calls).connection =
      observed.connection.handleWrite size failed calls := by
  unfold handleWrite BufferConnection.handleWrite
  simp only [dequeue_connection, callback_connection]
  split
  · simp
  · split
    · simp
    · simp

theorem step_connection (action : BufferConnection.Action) :
    (observed.step action).map Observed.connection =
      observed.connection.step action := by
  cases action with
  | start =>
      unfold step BufferConnection.step
      dsimp only
      split
      · rfl
      · rfl
  | read data failed calls =>
      unfold step BufferConnection.step
      dsimp only
      split
      · rfl
      · exact congrArg some (handleRead_connection _ data failed calls)
  | write index size failed calls =>
      unfold step BufferConnection.step
      dsimp only
      cases observed.connection.writes[index]? with
      | none => rfl
      | some buffer =>
          dsimp only
          split
          · rfl
          · exact congrArg some
              (handleWrite_connection _ size failed calls)
  | close => exact congrArg some observed.close_connection
  | terminate => rfl

theorem connection_run {allowed : Observed → BufferConnection.Action → Prop}
    {closeSinkOnEof discardOnSinkError : Bool} {observed : Observed}
    (run : Runs step allowed (initial closeSinkOnEof discardOnSinkError)
      observed) :
    Runs BufferConnection.step (fun _ _ => True)
      (.initial closeSinkOnEof discardOnSinkError) observed.connection := by
  apply Runs.map BufferConnection.step Observed.connection run
  intro before action after taken
  rw [← step_connection, taken]
  rfl

end Observed

end Bacs.Asio
