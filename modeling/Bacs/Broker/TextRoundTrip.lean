import Mathlib.Data.List.Forall2
import Bacs.Broker.TextProtocol

/-!
# Reading lines back

What the reader makes of a line depends on that line only, and it goes on with
the byte after it.  A line that a writer has written is read as its event.
-/

namespace Bacs.Broker.Text

open Foundation

variable {Status Result Error : Type}
  {codings : Codings Status Result Error} {library : Library Status Result}

/-! ## Well-formed lines -/

/-- The events that a line can stand for: spaces, the name of the event, one
space and the message. -/
inductive Denotes (codings : Codings Status Result Error) :
    Bytes → Event Status Result → Prop
  | status {spaces : Nat} {encoded data : Bytes} {status : Status}
      (unspaced : space ∉ encoded)
      (decoded : Base64.decode encoded = some data)
      (unmarshaled : codings.status.unmarshal data = .ok status) :
      Denotes codings
        (List.replicate spaces space ++ (statusName ++ space :: encoded))
        { kind := some (.status status) }
  | result {spaces : Nat} {encoded data : Bytes} {result : Result}
      (unspaced : space ∉ encoded)
      (decoded : Base64.decode encoded = some data)
      (unmarshaled : codings.result.unmarshal data = .ok result) :
      Denotes codings
        (List.replicate spaces space ++ (resultName ++ space :: encoded))
        { kind := some (.result result) }

def Malformed (codings : Codings Status Result Error) (line : Bytes) : Prop :=
  ∀ event, ¬Denotes codings line event

/-- A line yields its event, or an error if there is none. -/
structure Yields (codings : Codings Status Result Error) (line : Bytes)
    (outcome : Except (ReadError Error) (Event Status Result)) : Prop where
  event : ∀ event, outcome = .ok event ↔ Denotes codings line event
  malformed : Malformed codings line →
    ∃ error, outcome = .error error ∧ error ≠ .eof

def parseLine (codings : Codings Status Result Error) (line : Bytes) :
    Except (ReadError Error) (Event Status Result) :=
  (parseRawEvent (line ++ [newline])).bind (parseEvent codings)

theorem readEvent_line {line : Bytes} (unbroken : newline ∉ line)
    (rest : Bytes) :
    readEvent codings (line ++ newline :: rest) =
      (parseLine codings line, rest) := by
  simp [readEvent, readRawEvent, cutLine_terminated unbroken, parseLine]

theorem trim_line (line : Bytes) :
    trim space (line ++ [newline]) =
      line.dropWhile (· = space) ++ [newline] :=
  trim_terminated (by decide) line

theorem decode_line (encoded : Bytes) :
    Base64.decode (encoded ++ [newline]) = Base64.decode encoded :=
  Base64.decode_append_lineBreak encoded rfl

theorem parseRawEvent_line {name encoded data : Bytes} {spaces : Nat}
    {first : UInt8} (head : name.head? = some first)
    (named : space ∉ name) (unspaced : space ∉ encoded)
    (decoded : Base64.decode encoded = some data) :
    (parseRawEvent (List.replicate spaces space ++
      (name ++ space :: encoded) ++ [newline]) :
        Except (ReadError Error) RawEvent) = .ok { name, data } := by
  obtain ⟨more, same⟩ : ∃ more, name = first :: more := by
    cases name with
    | nil => cases head
    | cons other more =>
        cases head
        exact ⟨more, rfl⟩
  have different : first ≠ space := by
    intro same'
    apply named
    simp [same, same']
  have tokens : (trim space (List.replicate spaces space ++
      (name ++ space :: encoded) ++ [newline])).splitOn space =
        [name, encoded ++ [newline]] := by
    rw [trim_line, splitOn_eq_pair, same, List.cons_append,
      dropWhile_separators spaces different]
    refine ⟨by simp, same ▸ named, ?_⟩
    simpa [space, newline] using unspaced
  simp only [parseRawEvent]
  rw [tokens]
  simp only
  rw [decode_line, decoded]

theorem parseLine_denoted {line : Bytes} {event : Event Status Result}
    (denotes : Denotes codings line event) :
    parseLine codings line = .ok event := by
  cases denotes with
  | status unspaced decoded unmarshaled =>
      rw [parseLine, parseRawEvent_line rfl (by decide) unspaced decoded]
      simp [Except.bind, parseEvent, unmarshaled]
  | result unspaced decoded unmarshaled =>
      rw [parseLine, parseRawEvent_line rfl (by decide) unspaced decoded]
      have different : resultName ≠ statusName := by decide
      simp [Except.bind, parseEvent, unmarshaled, different]

theorem line_of_parseRawEvent {line : Bytes} {event : RawEvent}
    (parsed : (parseRawEvent (line ++ [newline]) :
      Except (ReadError Error) RawEvent) = .ok event) :
    ∃ spaces encoded, line =
        List.replicate spaces space ++ (event.name ++ space :: encoded) ∧
      space ∉ encoded ∧ Base64.decode encoded = some event.data := by
  simp only [parseRawEvent] at parsed
  split at parsed
  · rename_i name last tokens
    split at parsed
    · rename_i data decoded
      cases parsed
      rw [trim_line, splitOn_eq_pair] at tokens
      obtain ⟨same, _, unspaced⟩ := tokens
      obtain ⟨encoded, rfl⟩ : ∃ encoded, last = encoded ++ [newline] := by
        have ends := congrArg List.getLast? same
        cases last using List.reverseRecOn with
        | nil => simp [space, newline] at ends
        | append_singleton encoded final =>
            rw [← List.cons_append, ← List.append_assoc] at ends
            simp only [List.getLast?_concat, Option.some.injEq] at ends
            exact ⟨encoded, by rw [ends]⟩
      have stripped : line.dropWhile (· = space) =
          name ++ space :: encoded := by
        apply List.append_cancel_right
        rw [same]
        simp
      obtain ⟨spaces, shape⟩ : ∃ spaces, line =
          List.replicate spaces space ++ line.dropWhile (· = space) :=
        leading_separators line
      refine ⟨spaces, encoded, ?_, ?_, ?_⟩
      · rw [← stripped]
        exact shape
      · intro member
        exact unspaced (List.mem_append_left _ member)
      · rw [← decode_line]
        exact decoded
    · cases parsed
  · cases parsed

theorem denotes_of_parseLine {line : Bytes} {event : Event Status Result}
    (parsed : parseLine codings line = .ok event) :
    Denotes codings line event := by
  unfold parseLine at parsed
  cases raw : (parseRawEvent (line ++ [newline]) :
      Except (ReadError Error) RawEvent) with
  | error error =>
      rw [raw] at parsed
      cases parsed
  | ok found =>
      obtain ⟨spaces, encoded, shape, unspaced, decoded⟩ :=
        line_of_parseRawEvent raw
      rw [raw] at parsed
      simp only [Except.bind, parseEvent] at parsed
      split at parsed
      · rename_i named
        split at parsed
        · rename_i status unmarshaled
          cases parsed
          rw [shape, named]
          exact .status unspaced decoded unmarshaled
        · cases parsed
      · split at parsed
        · rename_i named
          split at parsed
          · rename_i result unmarshaled
            cases parsed
            rw [shape, named]
            exact .result unspaced decoded unmarshaled
          · cases parsed
        · cases parsed

/-- The end of the input is never taken for what is wrong with a line. -/
theorem parseLine_ne_eof (line : Bytes) :
    parseLine codings line ≠ .error .eof := by
  intro eof
  unfold parseLine at eof
  cases raw : (parseRawEvent (line ++ [newline]) :
      Except (ReadError Error) RawEvent) with
  | error error =>
      rw [raw] at eof
      cases eof
      simp only [parseRawEvent] at raw
      split at raw
      · split at raw <;> cases raw
      · cases raw
  | ok found =>
      rw [raw] at eof
      simp only [Except.bind, parseEvent] at eof
      split at eof
      · split at eof <;> cases eof
      · split at eof
        · split at eof <;> cases eof
        · cases eof

theorem parseLine_yields (line : Bytes) :
    Yields codings line (parseLine codings line) := by
  constructor
  · intro event
    constructor
    · exact denotes_of_parseLine
    · exact parseLine_denoted
  · intro malformed
    cases parsed : parseLine codings line with
    | ok event => exact absurd (denotes_of_parseLine parsed) (malformed event)
    | error error =>
        refine ⟨error, rfl, ?_⟩
        intro eof
        subst eof
        exact parseLine_ne_eof line parsed

/-! ## Whole streams -/

theorem readEvents_line {line : Bytes} (unbroken : newline ∉ line)
    (calls : Nat) (rest : Bytes) :
    readEvents codings (calls + 1) (line ++ newline :: rest) =
      (parseLine codings line :: (readEvents codings calls rest).1,
        (readEvents codings calls rest).2) := by
  rw [readEvents, readEvent_line unbroken]

/-- Each line yields one event or one error, and then the end is met. -/
theorem readEvents_lines {lines : List Bytes}
    (unbroken : ∀ line ∈ lines, newline ∉ line) :
    readEvents codings (lines.length + 1) (terminated newline lines) =
      (lines.map (parseLine codings) ++ [.error .eof], []) := by
  induction lines with
  | nil => rfl
  | cons line lines induction =>
      have rest := induction
        (fun other member => unbroken other (List.mem_cons_of_mem _ member))
      have here : terminated newline (line :: lines) =
          line ++ newline :: terminated newline lines := by
        simp [terminated]
      rw [here, List.length_cons,
        readEvents_line (unbroken line List.mem_cons_self), rest]
      rfl

structure Written (codings : Codings Status Result Error) (line : Bytes)
    (kind : Kind Status Result) : Prop where
  unbroken : newline ∉ line
  denotes : Denotes codings line { kind := some kind }

theorem readEvents_written {line : Kind Status Result → Bytes}
    (written : ∀ kind, Written codings (line kind) kind)
    (kinds : List (Kind Status Result)) :
    readEvents codings (kinds.length + 1)
        (terminated newline (kinds.map line)) =
      (kinds.map (fun kind => .ok { kind := some kind }) ++ [.error .eof],
        []) := by
  have unbroken : ∀ member ∈ kinds.map line, newline ∉ member := by
    intro member inside
    obtain ⟨kind, _, same⟩ := List.mem_map.mp inside
    rw [← same]
    exact (written kind).unbroken
  have parsed (kind : Kind Status Result) : parseLine codings (line kind) =
      .ok { kind := some kind } :=
    parseLine_denoted (written kind).denotes
  rw [← List.length_map (f := line), readEvents_lines unbroken]
  simp [Function.comp_def, parsed]

/-! ## The writers -/

/-- What was marshaled is unmarshaled as the same message. -/
def Coding.Inverts {Message : Type} (coding : Coding Message Error) : Prop :=
  ∀ message, ∃ data, coding.marshal message = .ok data ∧
    coding.unmarshal data = .ok message

structure Codings.Invert (codings : Codings Status Result Error) : Prop where
  status : codings.status.Inverts
  result : codings.result.Inverts

structure Library.Inverts (library : Library Status Result)
    (codings : Codings Status Result Error) : Prop where
  status : ∀ status,
    codings.status.unmarshal (library.statusToString status) = .ok status
  result : ∀ result,
    codings.result.unmarshal (library.resultToString result) = .ok result
  decodes : ∀ data, Base64.decode (library.encode data) = some data
  unbroken : ∀ data, newline ∉ library.encode data

theorem unspaced_of_decode {encoded data : Bytes}
    (decoded : Base64.decode encoded = some data) : space ∉ encoded := by
  intro member
  have known := Base64.decode_alphabet decoded member
  revert known
  decide

theorem encode_unbroken (data : Bytes) : newline ∉ Base64.encode data := by
  intro member
  have lineBreak := Base64.encode_not_lineBreak data newline member
  cases lineBreak

theorem written_status {encoded data : Bytes} {status : Status}
    (unbroken : newline ∉ encoded)
    (decoded : Base64.decode encoded = some data)
    (unmarshaled : codings.status.unmarshal data = .ok status) :
    Written codings (statusName ++ space :: encoded) (.status status) := by
  have denotes : Denotes codings
      (List.replicate 0 space ++ (statusName ++ space :: encoded)) _ :=
    .status (unspaced_of_decode decoded) decoded unmarshaled
  constructor
  · simpa [statusName, space, newline] using unbroken
  · exact denotes

theorem written_result {encoded data : Bytes} {result : Result}
    (unbroken : newline ∉ encoded)
    (decoded : Base64.decode encoded = some data)
    (unmarshaled : codings.result.unmarshal data = .ok result) :
    Written codings (resultName ++ space :: encoded) (.result result) := by
  have denotes : Denotes codings
      (List.replicate 0 space ++ (resultName ++ space :: encoded)) _ :=
    .result (unspaced_of_decode decoded) decoded unmarshaled
  constructor
  · simpa [resultName, space, newline] using unbroken
  · exact denotes

namespace StreamChannel

/-- The line of an event, without its terminator. -/
def line (library : Library Status Result) : Kind Status Result → Bytes
  | .status status =>
      statusName ++ space :: library.encode (library.statusToString status)
  | .result result =>
      resultName ++ space :: library.encode (library.resultToString result)

theorem send_line (out : Bytes) (kind : Kind Status Result) :
    send library out kind = out ++ (line library kind ++ [newline]) := by
  cases kind with
  | status status => simp [send, sendStatus, line]
  | result result => simp [send, sendResult, line]

theorem foldl_send (kinds : List (Kind Status Result)) (out : Bytes) :
    kinds.foldl (send library) out =
      out ++ terminated newline (kinds.map (line library)) := by
  induction kinds generalizing out with
  | nil => simp [terminated]
  | cons kind kinds induction =>
      rw [List.foldl_cons, induction, send_line]
      simp [terminated]

theorem line_written (inverts : library.Inverts codings)
    (kind : Kind Status Result) :
    Written codings (line library kind) kind := by
  cases kind with
  | status status =>
      exact written_status (inverts.unbroken _) (inverts.decodes _)
        (inverts.status status)
  | result result =>
      exact written_result (inverts.unbroken _) (inverts.decodes _)
        (inverts.result result)

end StreamChannel

theorem writeEvent_line (invert : codings.Invert)
    (kind : Kind Status Result) :
    ∃ line, writeEvent codings { kind := some kind } =
        .ok (line ++ [newline]) ∧
      Written codings line kind := by
  cases kind with
  | status status =>
      obtain ⟨data, marshaled, unmarshaled⟩ := invert.status status
      refine ⟨statusName ++ space :: Base64.encode data, ?_, ?_⟩
      · simp [writeEvent, marshaled, writeRawEvent]
      · exact written_status (encode_unbroken data)
          (Base64.decode_encode data) unmarshaled
  | result result =>
      obtain ⟨data, marshaled, unmarshaled⟩ := invert.result result
      refine ⟨resultName ++ space :: Base64.encode data, ?_, ?_⟩
      · simp [writeEvent, marshaled, writeRawEvent]
      · exact written_result (encode_unbroken data)
          (Base64.decode_encode data) unmarshaled

theorem writeEvents_lines {line : Kind Status Result → Bytes}
    (written : ∀ kind, writeEvent codings { kind := some kind } =
      .ok (line kind ++ [newline]))
    (kinds : List (Kind Status Result)) :
    writeEvents codings (kinds.map fun kind => { kind := some kind }) =
      .ok (terminated newline (kinds.map line)) := by
  induction kinds with
  | nil => rfl
  | cons kind kinds induction =>
      simp only [List.map_cons, writeEvents, written, induction]
      simp [terminated, bind, Except.bind]

/-- The calls of `ReadEvent` return the events, and then meet the end. -/
def ReadsBack (codings : Codings Status Result Error) (stream : Bytes)
    (kinds : List (Kind Status Result)) : Prop :=
  readEvents codings (kinds.length + 1) stream =
    (kinds.map (fun kind => .ok { kind := some kind }) ++ [.error .eof], [])

/-- What the channel and the writer write is read back, and whatever the
lines of a stream are, each of them is read for itself. -/
theorem text_protocol (codings : Codings Status Result Error)
    (library : Library Status Result) (invert : codings.Invert)
    (inverts : library.Inverts codings) :
    (∀ kinds, ReadsBack codings
      (kinds.foldl (StreamChannel.send library) []) kinds) ∧
    (∀ kinds, ∃ stream,
      writeEvents codings (kinds.map fun kind => { kind := some kind }) =
        .ok stream ∧
      ReadsBack codings stream kinds) ∧
    (∀ line rest, newline ∉ line → ∃ outcome,
      readEvent codings (line ++ newline :: rest) = (outcome, rest) ∧
      Yields codings line outcome) ∧
    ∀ lines, (∀ line ∈ lines, newline ∉ line) → ∃ outcomes,
      readEvents codings (lines.length + 1) (terminated newline lines) =
        (outcomes ++ [.error .eof], []) ∧
      List.Forall₂ (Yields codings) lines outcomes := by
  refine ⟨?_, ?_, ?_, ?_⟩
  · intro kinds
    rw [ReadsBack, StreamChannel.foldl_send, List.nil_append]
    exact readEvents_written (StreamChannel.line_written inverts) kinds
  · intro kinds
    choose line written using writeEvent_line invert
    refine ⟨_, writeEvents_lines (fun kind => (written kind).1) kinds, ?_⟩
    exact readEvents_written (fun kind => (written kind).2) kinds
  · intro line rest unbroken
    exact ⟨_, readEvent_line unbroken rest, parseLine_yields line⟩
  · intro lines unbroken
    refine ⟨_, readEvents_lines unbroken, ?_⟩
    rw [List.forall₂_map_right_iff]
    exact List.forall₂_same.mpr (fun line _ => parseLine_yields line)

namespace Sample

/-- Messages of which only `data` is set, with a length of one byte. -/
structure Message where
  data : Bytes
  short : data.length < 128

def wire (message : Message) : Bytes :=
  if message.data = [] then []
  else 26 :: .ofNat message.data.length :: message.data

def unmarshal : Bytes → Except String Message
  | [] => .ok { data := [], short := by decide }
  | 26 :: size :: data =>
      if short : data.length < 128 then
        if size = .ofNat data.length then .ok { data, short }
        else .error "proto: bad length"
      else .error "proto: long message"
  | _ => .error "proto: illegal tag"

def coding : Coding Message String :=
  { marshal := fun message => .ok (wire message), unmarshal }

def messages : Codings Message Message String :=
  { status := coding, result := coding }

def worker : Library Message Message :=
  { statusToString := wire, resultToString := wire, encode := Base64.encode }

theorem unmarshal_wire (message : Message) :
    unmarshal (wire message) = .ok message := by
  obtain ⟨data, short⟩ := message
  cases data with
  | nil => rfl
  | cons first rest =>
      have bound : rest.length + 1 < 128 := short
      simp [wire, unmarshal, bound]

theorem coding_inverts : coding.Inverts := by
  intro message
  exact ⟨wire message, rfl, unmarshal_wire message⟩

theorem worker_inverts : worker.Inverts messages := by
  constructor
  · exact unmarshal_wire
  · exact unmarshal_wire
  · exact Base64.decode_encode
  · exact encode_unbroken

/-- An empty status, and a result with the data `hi`. -/
def events : List (Kind Message Message) :=
  [.status { data := [], short := by decide },
    .result { data := [104, 105], short := by decide }]

end Sample

/-- `status ` and `result GgJoaQ==` -/
theorem text_protocol_sample :
    Sample.events.foldl (StreamChannel.send Sample.worker) [] =
      terminated newline
        [statusName ++ [32],
          resultName ++ [32, 71, 103, 74, 111, 97, 81, 61, 61]] ∧
      ReadsBack Sample.messages
        (Sample.events.foldl (StreamChannel.send Sample.worker) [])
        Sample.events := by
  constructor
  · decide
  · exact (text_protocol Sample.messages Sample.worker
      ⟨Sample.coding_inverts, Sample.coding_inverts⟩
      Sample.worker_inverts).1 Sample.events

end Bacs.Broker.Text
