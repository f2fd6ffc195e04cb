import Bacs.Asio.BufferConnection
import Bacs.Foundation.Lines
import Bacs.Foundation.Stream

/-!
# The line connection

A line is read by reading chunks until there is a delimiter.  What has been
read beyond it stays in the buffer, which the next read looks at first.
-/

namespace Bacs.Asio

open Foundation

/-- The end of the underlying stream, or an error of it. -/
inductive LineError where
  | stream
  deriving DecidableEq, Repr

/-- `invalid_data_error` -/
structure InvalidData where
  data : Bytes
  message : String
  deriving DecidableEq, Repr

/-- The connection, with the chunks that its reads will bring in. -/
structure LineConnection where
  inboundData : Bytes
  chunks : List Bytes
  deriving DecidableEq, Repr

namespace LineConnection

def delimiter : UInt8 := 10

def asyncWrite (data : Bytes) : Except InvalidData Bytes :=
  if delimiter ∈ data then .error { data, message := "\\n is forbidden" }
  else .ok (data ++ [delimiter])

def readUntil (inboundData : Bytes) :
    List Bytes → Option Bytes × LineConnection
  | [] =>
      match cutLine delimiter inboundData with
      | some (line, rest) => (some line, { inboundData := rest, chunks := [] })
      | none => (none, { inboundData, chunks := [] })
  | chunk :: chunks =>
      match cutLine delimiter inboundData with
      | some (line, rest) =>
          (some line, { inboundData := rest, chunks := chunk :: chunks })
      | none => readUntil (inboundData ++ chunk) chunks

/-- The delimiter is not a part of what is read. -/
def asyncRead (connection : LineConnection) :
    Except LineError Bytes × LineConnection :=
  let (line, next) := readUntil connection.inboundData connection.chunks
  match line with
  | some line => (.ok line.dropLast, next)
  | none => (.error .stream, next)

/-- The bytes of successive calls of `asyncWrite`; `none` if one throws. -/
def written : List Bytes → Except InvalidData Bytes
  | [] => .ok []
  | line :: lines => do
      let front ← asyncWrite line
      let rest ← written lines
      return front ++ rest

end LineConnection

end Bacs.Asio
