import Mathlib.Data.List.Infix

/-!
# Sending and receiving archives

An archive is sent as a stream of chunks.  The first one carries the format,
each of the others what one read from the file yields.  The receiver appends
the data of all chunks and keeps the last format.
-/

namespace Bacs.Archive.Rpc

variable {Byte : Type}

/-- `bacs.utility.Archiver` -/
structure Archiver where
  type : String
  format : String
  deriving DecidableEq, Repr

/-- A message after `Clear()`. -/
def Archiver.clear : Archiver :=
  ⟨"", ""⟩

structure Chunk (Byte : Type) where
  format : Option Archiver
  data : List Byte
  deriving DecidableEq, Repr

/-- `ifstream`: what was not read yet, and whether `fail()`. -/
structure InputStream (Byte : Type) where
  rest : List Byte
  fail : Bool

/-- The `gcount()` bytes that `read` stores.  The end of the file sets
`failbit`, and then nothing is read any more. -/
def InputStream.read (fin : InputStream Byte) (size : Nat) :
    List Byte × InputStream Byte :=
  if fin.fail then ([], fin)
  else (fin.rest.take size, ⟨fin.rest.drop size, fin.rest.length < size⟩)

theorem InputStream.read_progress {fin : InputStream Byte} {size : Nat}
    (positive : 0 < size) (good : (fin.read size).2.fail = false) :
    (fin.read size).2.rest.length < fin.rest.length := by
  unfold InputStream.read at good ⊢
  split at good
  case isTrue failed => simp [failed] at good
  case isFalse notFailed =>
    have enough : size ≤ fin.rest.length := by
      simpa using good
    rw [if_neg notFailed, List.length_drop]
    omega

/-- `sizeof(buf)` -/
def bufferSize : Nat :=
  1024 * 1024

theorem bufferSize_pos : 0 < bufferSize := by
  decide

/-- The loop of `send_file`.  The next `Write` succeeds if `accepts` says so
about the chunks written before. -/
def sendChunks (accepts : List (Chunk Byte) → Bool)
    (fin : InputStream Byte) (written : List (Chunk Byte)) :
    List (Chunk Byte) :=
  if accepts written then
    if (fin.read bufferSize).2.fail then
      written ++ [⟨none, (fin.read bufferSize).1⟩]
    else
      sendChunks accepts (fin.read bufferSize).2
        (written ++ [⟨none, (fin.read bufferSize).1⟩])
  else written
termination_by fin.rest.length
decreasing_by
  rename_i good
  exact InputStream.read_progress bufferSize_pos (Bool.eq_false_iff.2 good)

def sendFile (format : Archiver) (content : List Byte)
    (accepts : List (Chunk Byte) → Bool) : List (Chunk Byte) :=
  if accepts [] then
    sendChunks accepts ⟨content, false⟩ [⟨some format, []⟩]
  else []

structure Received (Byte : Type) where
  format : Archiver
  content : List Byte
  deriving DecidableEq, Repr

def receive (received : Received Byte) (chunk : Chunk Byte) :
    Received Byte :=
  let received :=
    match chunk.format with
    | some format => { received with format }
    | none => received
  if chunk.data.isEmpty then received
  else { received with content := received.content ++ chunk.data }

/-- The format passed by the caller is cleared first. -/
def recvFile (chunks : List (Chunk Byte)) (_format : Archiver) :
    Received Byte :=
  chunks.foldl receive ⟨.clear, []⟩

/-! ## What is received -/

theorem receive_content (received : Received Byte) (chunk : Chunk Byte) :
    (receive received chunk).content = received.content ++ chunk.data := by
  obtain ⟨format, data⟩ := chunk
  cases format <;> cases data <;> simp [receive]

theorem receive_format (received : Received Byte) (chunk : Chunk Byte) :
    (receive received chunk).format = chunk.format.getD received.format := by
  obtain ⟨format, data⟩ := chunk
  cases format <;> cases data <;> simp [receive]

theorem foldl_receive_content (chunks : List (Chunk Byte))
    (received : Received Byte) :
    (chunks.foldl receive received).content =
      received.content ++ chunks.flatMap (·.data) := by
  induction chunks generalizing received with
  | nil => simp
  | cons chunk rest ih =>
      rw [List.foldl_cons, ih, receive_content, List.append_assoc,
        List.flatMap_cons]

theorem foldl_receive_format (chunks : List (Chunk Byte))
    (received : Received Byte) :
    (chunks.foldl receive received).format =
      (chunks.filterMap (·.format)).getLastD received.format := by
  induction chunks generalizing received with
  | nil => rfl
  | cons chunk rest ih =>
      rw [List.foldl_cons, ih, receive_format]
      cases format : chunk.format with
      | none => rw [List.filterMap_cons_none format, Option.getD_none]
      | some sent =>
          rw [List.filterMap_cons_some format, List.getLastD_cons,
            Option.getD_some]

/-- Wherever the bytes are cut, and whichever chunk carries the format. -/
theorem recvFile_chunks {chunks : List (Chunk Byte)} {format : Archiver}
    (once : chunks.filterMap (·.format) = [format]) (before : Archiver) :
    recvFile chunks before = ⟨format, chunks.flatMap (·.data)⟩ := by
  have sameFormat : (recvFile chunks before).format = format := by
    rw [recvFile, foldl_receive_format, once]
    rfl
  have sameContent : (recvFile chunks before).content =
      chunks.flatMap (·.data) :=
    (foldl_receive_content chunks _).trans (List.nil_append _)
  rw [← sameFormat, ← sameContent]

/-! ## What is sent -/

theorem sendChunks_pieces (fin : InputStream Byte)
    (good : fin.fail = false) (written : List (Chunk Byte)) :
    ∃ pieces : List (List Byte), pieces.flatten = fin.rest ∧
      sendChunks (fun _ => true) fin written =
        written ++ pieces.map (Chunk.mk none) := by
  induction fin, written using sendChunks.induct (fun _ => true) with
  | case1 fin written _ ended =>
      refine ⟨[(fin.read bufferSize).1], ?_, ?_⟩
      · have short : fin.rest.length < bufferSize := by
          simpa [InputStream.read, good] using ended
        simp [InputStream.read, good, List.take_of_length_le short.le]
      · rw [sendChunks, if_pos rfl, if_pos ended]
        rfl
  | case2 fin written _ goesOn ih =>
      obtain ⟨pieces, whole, sent⟩ := ih (Bool.eq_false_iff.2 goesOn)
      refine ⟨(fin.read bufferSize).1 :: pieces, ?_, ?_⟩
      · rw [List.flatten_cons, whole]
        simp [InputStream.read, good]
      · rw [sendChunks, if_pos rfl, if_neg goesOn, sent, List.append_assoc]
        rfl
  | case3 fin written fails => exact absurd rfl fails

theorem sendFile_chunks (format : Archiver) (content : List Byte) :
    (sendFile format content fun _ => true).filterMap (·.format) = [format] ∧
      (sendFile format content fun _ => true).flatMap (·.data) =
        content := by
  obtain ⟨pieces, whole, sent⟩ :=
    sendChunks_pieces ⟨content, false⟩ rfl [⟨some format, []⟩]
  rw [sendFile, if_pos rfl, sent]
  constructor
  · have noFormat : (pieces.map (Chunk.mk none)).filterMap (·.format) = [] := by
      rw [List.filterMap_map, List.filterMap_eq_nil_iff]
      intro piece _
      rfl
    rw [List.filterMap_append, noFormat]
    rfl
  · rw [List.flatMap_append, List.flatMap_map]
    exact List.flatMap_id'.trans whole

/-- Receiving what was sent yields the same format and the same bytes, and so
does receiving any other splitting of the bytes with one format. -/
theorem transfer_round_trip (format : Archiver) (content : List Byte)
    (before : Archiver) :
    recvFile (sendFile format content fun _ => true) before =
      ⟨format, content⟩ ∧
    ∀ chunks : List (Chunk Byte),
      chunks.filterMap (·.format) = [format] →
      chunks.flatMap (·.data) = content →
      recvFile chunks before = ⟨format, content⟩ := by
  constructor
  · obtain ⟨once, whole⟩ := sendFile_chunks format content
    rw [recvFile_chunks once, whole]
  · rintro chunks once rfl
    exact recvFile_chunks once before

end Bacs.Archive.Rpc
