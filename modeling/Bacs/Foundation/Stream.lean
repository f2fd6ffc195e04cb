import Mathlib.Data.List.Infix

/-!
# Streams of chunks

A stream is read in chunks, of which one read brings in at most one; where a
chunk ends says nothing about what it holds.  Reading a sequence of frames is
reading one frame after another.
-/

namespace Bacs.Foundation

variable {α Message Stream Failure : Type*}

/-- Read chunks until there is enough; `none` if the stream ends before. -/
def readFull : List (List α) → Nat → Option (List α × List (List α))
  | chunks, 0 => some ([], chunks)
  | [], _ + 1 => none
  | chunk :: chunks, size + 1 =>
      if size < chunk.length then
        some (chunk.take (size + 1), chunk.drop (size + 1) :: chunks)
      else
        (readFull chunks (size + 1 - chunk.length)).map
          fun (data, chunks) => (chunk ++ data, chunks)

theorem readFull_enough (chunks : List (List α)) {size : Nat}
    (enough : size ≤ chunks.flatten.length) :
    ∃ rest, readFull chunks size = some (chunks.flatten.take size, rest) ∧
      rest.flatten = chunks.flatten.drop size := by
  induction chunks generalizing size with
  | nil =>
      have zero : size = 0 := Nat.le_zero.mp enough
      rw [zero]
      exact ⟨[], rfl, rfl⟩
  | cons chunk chunks induction =>
      cases size with
      | zero => exact ⟨chunk :: chunks, rfl, rfl⟩
      | succ size =>
          unfold readFull
          split
          · rename_i inside
            refine ⟨chunk.drop (size + 1) :: chunks, ?_, ?_⟩
            · rw [List.flatten_cons, List.take_append_of_le_length inside]
            · rw [List.flatten_cons, List.flatten_cons,
                List.drop_append_of_le_length inside]
          · rename_i outside
            have outside : chunk.length ≤ size + 1 :=
              Nat.le_succ_of_le (Nat.le_of_not_lt outside)
            rw [List.flatten_cons, List.length_append] at enough
            obtain ⟨rest, read, same⟩ :=
              @induction (size + 1 - chunk.length) (by omega)
            refine ⟨rest, ?_, ?_⟩
            · rw [read, Option.map_some, List.flatten_cons,
                List.take_append, List.take_of_length_le outside]
            · rw [same, List.flatten_cons, List.drop_append,
                List.drop_of_length_le outside, List.nil_append]

theorem readFull_short (chunks : List (List α)) {size : Nat}
    (short : chunks.flatten.length < size) : readFull chunks size = none := by
  induction chunks generalizing size with
  | nil =>
      cases size with
      | zero => cases short
      | succ size => rfl
  | cons chunk chunks induction =>
      rw [List.flatten_cons, List.length_append] at short
      cases size with
      | zero => cases short
      | succ size =>
          unfold readFull
          rw [if_neg (by omega), induction (by omega)]
          rfl

/-- The messages of successive reads; `none` if one of them fails. -/
def reads (read : Stream → Except Failure Message × Stream) :
    Nat → Stream → Option (List Message × Stream)
  | 0, stream => some ([], stream)
  | count + 1, stream =>
      match read stream with
      | (.ok message, stream) =>
          (reads read count stream).map
            fun (messages, stream) => (message :: messages, stream)
      | (.error _, _) => none

/-- Where each read takes one frame off the front of a stream, successive
reads take off a sequence of frames. -/
theorem reads_frames {read : Stream → Except Failure Message × Stream}
    {contents : Stream → List α} {frame : Message → List α}
    {valid : Message → Prop}
    (reads_frame : ∀ stream message rest, valid message →
      contents stream = frame message ++ rest →
        ∃ next, read stream = (.ok message, next) ∧ contents next = rest)
    {messages : List Message} (all : ∀ message ∈ messages, valid message)
    {stream : Stream} {rest : List α}
    (same : contents stream = messages.flatMap frame ++ rest) :
    ∃ next, reads read messages.length stream = some (messages, next) ∧
      contents next = rest := by
  induction messages generalizing stream with
  | nil => exact ⟨stream, rfl, same⟩
  | cons message messages induction =>
      rw [List.flatMap_cons, List.append_assoc] at same
      obtain ⟨next, read_message, same'⟩ := reads_frame stream message _
        (all message List.mem_cons_self) same
      obtain ⟨last, read_messages, same''⟩ := induction
        (fun other member => all other (List.mem_cons_of_mem _ member)) same'
      refine ⟨last, ?_, same''⟩
      rw [List.length_cons, reads, read_message]
      dsimp only
      rw [read_messages]
      rfl

/-- A prefix of a sequence of frames is some complete frames, and a part of
the next. -/
theorem prefix_frames (frame : Message → List α) (messages : List Message)
    {text : List α} (before : text <+: messages.flatMap frame) :
    ∃ count ≤ messages.length, ∃ part,
      text = (messages.take count).flatMap frame ++ part ∧
      match messages[count]? with
      | none => part = []
      | some message => part <+: frame message ∧
          part.length < (frame message).length := by
  induction messages generalizing text with
  | nil => exact ⟨0, Nat.le_refl 0, [], by simpa using before, rfl⟩
  | cons message messages induction =>
      rw [List.flatMap_cons] at before
      by_cases inside : text.length < (frame message).length
      · refine ⟨0, Nat.zero_le _, text, rfl, ?_, inside⟩
        exact List.prefix_of_prefix_length_le before
          (List.prefix_append _ _) (Nat.le_of_lt inside)
      · have whole : frame message <+: text :=
          List.prefix_of_prefix_length_le (List.prefix_append _ _) before
            (Nat.le_of_not_lt inside)
        obtain ⟨rest, rfl⟩ := whole
        obtain ⟨count, bound, part, same, last⟩ :=
          induction ((List.prefix_append_right_inj _).mp before)
        refine ⟨count + 1, Nat.succ_le_succ bound, part, ?_, last⟩
        rw [same, List.take_succ_cons, List.flatMap_cons, List.append_assoc]

end Bacs.Foundation
