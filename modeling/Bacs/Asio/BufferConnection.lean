import Bacs.Foundation.Runs

/-!
# The buffer connection

Bytes are read from a source into a queue of buffers and written from its
front to a sink.  All handlers run in one strand, so each of them is a step;
a callback that calls `close` has it executed at once, inside the handler,
while `terminate` is always a step of its own.
-/

namespace Bacs.Asio

open Foundation

abbrev Bytes := List UInt8

/-- A call of `close` on the sink. -/
structure Closing where
  queue : List Bytes
  terminated : Bool
  deriving DecidableEq, Repr

structure BufferConnection where
  queue : List Bytes
  closed : Bool
  terminated : Bool
  sourceOk : Bool
  sinkOk : Bool
  closeSinkOnEof : Bool
  discardOnSinkError : Bool
  started : Bool
  reads : Nat
  /-- The buffers of the writes that have not completed. -/
  writes : List Bytes
  closings : List Closing
  /-- What completed reads have put into the queue. -/
  put : Bytes
  transferred : Bytes
  deriving DecidableEq, Repr

namespace BufferConnection

/-- The size of `m_inbound_data`. -/
def inboundSize : Nat := 4096

def initial (closeSinkOnEof discardOnSinkError : Bool) : BufferConnection :=
  { queue := [], closed := false, terminated := false, sourceOk := true
    sinkOk := true, closeSinkOnEof, discardOnSinkError, started := false
    reads := 0, writes := [], closings := [], put := [], transferred := [] }

variable (connection : BufferConnection)

/-- `m_sink.close` -/
def sinkClose : BufferConnection :=
  { connection with
    closings := connection.closings ++
      [{ queue := connection.queue, terminated := connection.terminated }] }

def close : BufferConnection :=
  if connection.closed then connection
  else
    let connection := { connection with closed := true }
    if connection.queue = [] then connection.sinkClose else connection

def terminate : BufferConnection :=
  sinkClose { connection with closed := true, terminated := true }

/-- A callback, which may call `close`. -/
def callback (closes : Bool) : BufferConnection :=
  if closes then connection.close else connection

def spawnReader : BufferConnection :=
  if connection.terminated then connection
  else { connection with reads := connection.reads + 1 }

/-- It is called only where there is something in the queue. -/
def spawnWriter : BufferConnection :=
  if connection.terminated then connection
  else if connection.sinkOk = false then
    if connection.discardOnSinkError then { connection with queue := [] }
    else connection
  else
    match connection.queue with
    | [] => connection
    | front :: _ =>
        { connection with writes := connection.writes ++ [front] }

def tryCloseSink (closes : Bool) : BufferConnection :=
  if connection.closed ∨
      connection.sourceOk = false ∧ connection.closeSinkOnEof then
    (connection.callback closes).sinkClose
  else connection

end BufferConnection

/-- Which of the callbacks of a completed operation call `close`. -/
structure Calls where
  /-- `m_handle_read` or `m_handle_write` -/
  handler : Bool
  data : Bool
  /-- `m_handle_read_data` at the end of the source. -/
  eof : Bool
  /-- `m_handle_write_data` before the sink is closed. -/
  sink : Bool
  deriving DecidableEq, Repr

namespace BufferConnection

variable (connection : BufferConnection)

/-- What is read is put into the queue, unless it is discarded. -/
def enqueue (data : Bytes) (calls : Calls) : BufferConnection :=
  if data ≠ [] ∧
      (connection.sinkOk ∨ connection.discardOnSinkError = false) then
    let connection :=
      { connection with
        queue := connection.queue ++ [data], put := connection.put ++ data }
    let connection := connection.callback calls.data
    if connection.queue.length = 1 then connection.spawnWriter
    else connection
  else connection

def continueReading (failed : Bool) (calls : Calls) : BufferConnection :=
  if failed then
    { connection.callback calls.eof with sourceOk := false }
  else if connection.closed = false then connection.spawnReader
  else connection

def handleRead (data : Bytes) (failed : Bool) (calls : Calls) :
    BufferConnection :=
  let connection := connection.callback calls.handler
  let connection := connection.enqueue data calls
  let connection := connection.continueReading failed calls
  if connection.queue = [] then connection.tryCloseSink calls.sink
  else connection

/-- The assertions on the size are left out: they only end the process. -/
def dequeue (size : Nat) (calls : Calls) : BufferConnection :=
  if size ≠ 0 then
    let connection := connection.callback calls.data
    match connection.queue with
    | [] => connection
    | front :: rest =>
        if size < front.length then
          { connection with queue := front.drop size :: rest }
        else { connection with queue := rest }
  else connection

def handleWrite (size : Nat) (failed : Bool) (calls : Calls) :
    BufferConnection :=
  let connection := connection.callback calls.handler
  let connection := connection.dequeue size calls
  if failed then { connection with sinkOk := false }
  else if connection.queue = [] then connection.tryCloseSink calls.sink
  else connection.spawnWriter

inductive Action where
  | start
  | read (data : Bytes) (failed : Bool) (calls : Calls)
  /-- A write completes after a number of its bytes. -/
  | write (index size : Nat) (failed : Bool) (calls : Calls)
  | close
  | terminate

/-- `start` is called once. -/
def step (connection : BufferConnection) : Action → Option BufferConnection
  | .start =>
      if connection.started then none
      else some (spawnReader { connection with started := true })
  | .read data failed calls =>
      if connection.reads = 0 ∨ inboundSize < data.length then none
      else
        some (handleRead { connection with reads := connection.reads - 1 }
          data failed calls)
  | .write index size failed calls =>
      match connection.writes[index]? with
      | none => none
      | some buffer =>
          if buffer.length < size then none
          else
            some (handleWrite
              { connection with
                writes := connection.writes.eraseIdx index
                transferred := connection.transferred ++ buffer.take size }
              size failed calls)
  | .close => some connection.close
  | .terminate => some connection.terminate

end BufferConnection

end Bacs.Asio
