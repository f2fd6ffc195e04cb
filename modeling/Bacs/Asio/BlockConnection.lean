import Bacs.Asio.BufferConnection
import Bacs.Foundation.Numeral
import Bacs.Foundation.Stream

/-!
# The block connection

A message is sent after a header, its size in hexadecimal digits, which is
padded with spaces to the size of the longest one.
-/

namespace Bacs.Asio

open Foundation

inductive BlockError where
  /-- An error of the underlying stream, its end included. -/
  | stream
  | invalidArgument
  deriving DecidableEq, Repr

/-- What `async_write` does: the error that it posts, if any, and the bytes
that it writes. -/
structure BlockWrite where
  error : Option BlockError
  written : Bytes
  deriving DecidableEq, Repr

namespace BlockConnection

/-- `header` is a 64-bit integer. -/
def headerLimit : Nat := 2 ^ 64

def headerSize : Nat := 16

def toBytes (text : List Char) : Bytes :=
  text.map fun character => UInt8.ofNat character.toNat

def ofBytes (bytes : Bytes) : List Char :=
  bytes.map fun byte => Char.ofNat byte.toNat

/-- `std::setw(HEADER_SIZE) << std::hex << size` -/
def header (size : Nat) : List Char :=
  (Nat.toDigits 16 size).leftpad headerSize ' '

/-- An error of the header does not keep the message from being written. -/
def asyncWrite (data : Bytes) : BlockWrite :=
  let header := header (data.length % headerLimit)
  { error :=
      if header.length ≠ headerSize then some .invalidArgument else none
    written := toBytes header ++ data }

/-- `is >> std::hex >> size` -/
def parseHeader (text : List Char) : Option Nat :=
  match extractNumeral .hex text with
  | none => none
  | some numeral =>
      if headerLimit ≤ numeral.magnitude then none
      else if numeral.negative then
        some ((headerLimit - numeral.magnitude) % headerLimit)
      else some numeral.magnitude

/-- The stream is given by the chunks that its reads will bring in. -/
def asyncRead (chunks : List Bytes) : Except BlockError Bytes × List Bytes :=
  match readFull chunks headerSize with
  | none => (.error .stream, [])
  | some (inboundHeader, chunks) =>
      match parseHeader (ofBytes inboundHeader) with
      | none => (.error .invalidArgument, chunks)
      | some size =>
          match readFull chunks size with
          | none => (.error .stream, [])
          | some (data, chunks) => (.ok data, chunks)

end BlockConnection

end Bacs.Asio
