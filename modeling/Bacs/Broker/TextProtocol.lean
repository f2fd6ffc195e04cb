import Bacs.Foundation.Base64
import Bacs.Foundation.Lines

/-!
# The text protocol of the workers

Each event is a line: its name, a space, and the message in base64.  The
worker writes its events with the C++ channel, the broker reads them with the
Go reader; the Go writer is the counterpart of the Go reader.
-/

namespace Bacs.Broker.Text

open Foundation

abbrev Bytes := List UInt8

variable {Status Result Error : Type}

def space : UInt8 := 32

def newline : UInt8 := 10

/-- `status` -/
def statusName : Bytes := [115, 116, 97, 116, 117, 115]

/-- `result` -/
def resultName : Bytes := [114, 101, 115, 117, 108, 116]

structure Coding (Message Error : Type) where
  marshal : Message → Except Error Bytes
  unmarshal : Bytes → Except Error Message

structure Codings (Status Result Error : Type) where
  status : Coding Status Error
  result : Coding Result Error

inductive Kind (Status Result : Type) where
  | status (status : Status)
  | result (result : Result)
  deriving DecidableEq, Repr

structure Event (Status Result : Type) where
  kind : Option (Kind Status Result)
  deriving DecidableEq, Repr

structure RawEvent where
  name : Bytes
  data : Bytes
  deriving DecidableEq, Repr

/-! ## The reader -/

inductive ReadError (Error : Type) where
  | eof
  /-- `invalid number of tokens: expected 2, got …` -/
  | tokens (got : Nat)
  /-- `illegal base64 data` -/
  | corrupt
  | unmarshal (error : Error)
  /-- `unknown event name …` -/
  | unknown (name : Bytes)
  deriving DecidableEq, Repr

/-- What `ReadRawEvent` does with a line. -/
def parseRawEvent (line : Bytes) : Except (ReadError Error) RawEvent :=
  let tokens := (trim space line).splitOn space
  match tokens with
  | [name, encoded] =>
      match Base64.decode encoded with
      | some data => .ok { name, data }
      | none => .error .corrupt
  | _ => .error (.tokens tokens.length)

/-- The reader is given by the bytes it will still read.  What follows the
last line break is dropped when the end is met. -/
def readRawEvent (stream : Bytes) :
    Except (ReadError Error) RawEvent × Bytes :=
  match cutLine newline stream with
  | some (line, rest) => (parseRawEvent line, rest)
  | none => (.error .eof, [])

/-- What `ReadEvent` does with a raw event. -/
def parseEvent (codings : Codings Status Result Error) (event : RawEvent) :
    Except (ReadError Error) (Event Status Result) :=
  if event.name = statusName then
    match codings.status.unmarshal event.data with
    | .ok status => .ok { kind := some (.status status) }
    | .error error => .error (.unmarshal error)
  else if event.name = resultName then
    match codings.result.unmarshal event.data with
    | .ok result => .ok { kind := some (.result result) }
    | .error error => .error (.unmarshal error)
  else .error (.unknown event.name)

def readEvent (codings : Codings Status Result Error) (stream : Bytes) :
    Except (ReadError Error) (Event Status Result) × Bytes :=
  let (event, rest) := readRawEvent stream
  (event.bind (parseEvent codings), rest)

/-- A number of calls of `ReadEvent`, one after the other. -/
def readEvents (codings : Codings Status Result Error) :
    Nat → Bytes →
      List (Except (ReadError Error) (Event Status Result)) × Bytes
  | 0, stream => ([], stream)
  | calls + 1, stream =>
      let (event, rest) := readEvent codings stream
      let (events, rest) := readEvents codings calls rest
      (event :: events, rest)

/-! ## The writer -/

inductive WriteError (Error : Type) where
  | marshal (error : Error)
  /-- `invalid event oneof` -/
  | invalidEvent
  deriving DecidableEq, Repr

def writeRawEvent (event : RawEvent) : Bytes :=
  event.name ++ space :: Base64.encode event.data ++ [newline]

/-- What `WriteEvent` writes; it writes nothing when it fails. -/
def writeEvent (codings : Codings Status Result Error)
    (event : Event Status Result) : Except (WriteError Error) Bytes :=
  match event.kind with
  | some (.status status) =>
      match codings.status.marshal status with
      | .ok data => .ok (writeRawEvent { name := statusName, data })
      | .error error => .error (.marshal error)
  | some (.result result) =>
      match codings.result.marshal result with
      | .ok data => .ok (writeRawEvent { name := resultName, data })
      | .error error => .error (.marshal error)
  | none => .error .invalidEvent

/-- The bytes written for a sequence of events, if all of them are. -/
def writeEvents (codings : Codings Status Result Error) :
    List (Event Status Result) → Except (WriteError Error) Bytes
  | [] => .ok []
  | event :: events => do
      let first ← writeEvent codings event
      let rest ← writeEvents codings events
      .ok (first ++ rest)

/-! ## The channel of the worker -/

/-- What the channel uses: `protobuf::binary::to_string` and
`crypto::base64::encode`. -/
structure Library (Status Result : Type) where
  statusToString : Status → Bytes
  resultToString : Result → Bytes
  encode : Bytes → Bytes

namespace StreamChannel

variable (library : Library Status Result)

def sendStatus (status : Status) (out : Bytes) : Bytes :=
  out ++ (statusName ++ [space]) ++
    library.encode (library.statusToString status) ++ [newline]

def sendResult (result : Result) (out : Bytes) : Bytes :=
  out ++ (resultName ++ [space]) ++
    library.encode (library.resultToString result) ++ [newline]

def send (out : Bytes) : Kind Status Result → Bytes
  | .status status => sendStatus library status out
  | .result result => sendResult library result out

end StreamChannel

end Bacs.Broker.Text
