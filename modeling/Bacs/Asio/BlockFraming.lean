import Bacs.Asio.BlockConnection

/-!
# Blocks are read as they were written

A header has its fixed size and tells the size of the message, and so the
messages that are read are the messages that were written.
-/

namespace Bacs.Asio.BlockConnection

open Foundation

/-- The bytes written by successive calls of `asyncWrite`. -/
def written (messages : List Bytes) : Bytes :=
  messages.flatMap fun message => (asyncWrite message).written

variable {size : Nat}

theorem header_length (bound : size < headerLimit) :
    (header size).length = headerSize := by
  have short : (Nat.toDigits 16 size).length ≤ headerSize := by
    rw [Nat.length_toDigits_le_iff (by decide) (by decide)]
    exact Nat.lt_of_lt_of_eq bound (by decide)
  rw [header, List.length_leftpad]
  exact Nat.max_eq_left short

theorem header_ascii (size : Nat) :
    ∀ character ∈ header size, character.toNat < 128 := by
  intro character member
  rw [header, List.leftpad] at member
  obtain space | digit := List.mem_append.mp member
  · rw [List.eq_of_mem_replicate space]
    decide
  · exact toNat_isDigitOf
      (isDigitOf_toDigits (by decide) (Nat.le_refl 16) size character digit)

theorem ofBytes_toBytes {text : List Char}
    (ascii : ∀ character ∈ text, character.toNat < 128) :
    ofBytes (toBytes text) = text := by
  have same : ∀ character ∈ text,
      Char.ofNat (UInt8.ofNat character.toNat).toNat = character := by
    intro character member
    have small : character.toNat % 256 = character.toNat :=
      Nat.mod_eq_of_lt (Nat.lt_trans (ascii character member) (by decide))
    rw [UInt8.toNat_ofNat', small, Char.ofNat_toNat]
  rw [ofBytes, toBytes, List.map_map]
  exact (List.map_congr_left same).trans (List.map_id text)

/-- A message is written after a header that is well formed. -/
theorem asyncWrite_spec {data : Bytes} (bound : data.length < headerLimit) :
    asyncWrite data =
      { error := none, written := toBytes (header data.length) ++ data } := by
  have wellFormed := header_length bound
  unfold asyncWrite
  rw [Nat.mod_eq_of_lt bound]
  simp only [wellFormed, ne_eq, not_true_eq_false, if_false]

theorem parseHeader_header (bound : size < headerLimit) :
    parseHeader (header size) = some size := by
  unfold parseHeader header
  rw [List.leftpad, extractNumeral_hex]
  dsimp only
  rw [if_neg (Nat.not_le_of_lt bound)]
  rfl

theorem asyncRead_frame (chunks : List Bytes) (data rest : Bytes)
    (bound : data.length < headerLimit)
    (front : chunks.flatten = (asyncWrite data).written ++ rest) :
    ∃ next, asyncRead chunks = (.ok data, next) ∧ next.flatten = rest := by
  rw [asyncWrite_spec bound, List.append_assoc] at front
  have size : (toBytes (header data.length)).length = headerSize := by
    rw [toBytes, List.length_map, header_length bound]
  obtain ⟨afterHeader, read, same⟩ :=
    @readFull_enough _ chunks headerSize (by
      rw [front, List.length_append, size]
      exact Nat.le_add_right _ _)
  rw [front, List.take_left' size] at read
  rw [front, List.drop_left' size] at same
  obtain ⟨next, read', same'⟩ :=
    @readFull_enough _ afterHeader data.length (by
      rw [same, List.length_append]
      exact Nat.le_add_right _ _)
  rw [same, List.take_left] at read'
  rw [same, List.drop_left] at same'
  refine ⟨next, ?_, same'⟩
  unfold asyncRead
  rw [read]
  dsimp only
  rw [ofBytes_toBytes (header_ascii _), parseHeader_header bound]
  dsimp only
  rw [read']

theorem asyncRead_part {chunks : List Bytes} {data : Bytes}
    (bound : data.length < headerLimit)
    (part : chunks.flatten <+: (asyncWrite data).written)
    (proper : chunks.flatten.length < (asyncWrite data).written.length) :
    (asyncRead chunks).1 = .error .stream := by
  rw [asyncWrite_spec bound] at part proper
  dsimp only at part proper
  have size : (toBytes (header data.length)).length = headerSize := by
    rw [toBytes, List.length_map, header_length bound]
  rw [List.length_append, size] at proper
  unfold asyncRead
  by_cases short : chunks.flatten.length < headerSize
  · rw [readFull_short chunks short]
  · have enough := Nat.le_of_not_lt short
    obtain ⟨afterHeader, read, same⟩ := readFull_enough chunks enough
    have whole : toBytes (header data.length) <+: chunks.flatten :=
      List.prefix_of_prefix_length_le (List.prefix_append _ _) part
        (by rw [size]; exact enough)
    obtain ⟨rest, split⟩ := whole
    rw [← split, List.take_left' size] at read
    rw [← split, List.drop_left' size] at same
    rw [read]
    dsimp only
    rw [ofBytes_toBytes (header_ascii _), parseHeader_header bound]
    dsimp only
    rw [readFull_short afterHeader (by
      rw [same]
      rw [← split, List.length_append, size] at proper
      omega)]

theorem asyncRead_end {chunks : List Bytes} (none : chunks.flatten = []) :
    (asyncRead chunks).1 = .error .stream := by
  unfold asyncRead
  rw [readFull_short chunks (by rw [none]; decide)]

/-- All messages are read as they were written, and of a stream that is cut off
anywhere, those that are complete; then there is an error. -/
theorem block_round_trip (messages : List Bytes)
    (bounded : ∀ message ∈ messages, message.length < 2 ^ 64) :
    (∀ message ∈ messages, (asyncWrite message).error = none) ∧
    (∀ chunks : List Bytes, chunks.flatten = written messages →
      ∃ next, reads asyncRead messages.length chunks =
          some (messages, next) ∧
        (asyncRead next).1 = .error .stream) ∧
    ∀ chunks : List Bytes, chunks.flatten <+: written messages →
      chunks.flatten ≠ written messages →
        ∃ count < messages.length, ∃ next,
          reads asyncRead count chunks =
            some (messages.take count, next) ∧
          (asyncRead next).1 = .error .stream ∧
          written (messages.take count) <+: chunks.flatten ∧
          ¬ written (messages.take (count + 1)) <+: chunks.flatten := by
  refine ⟨?_, ?_, ?_⟩
  · intro message member
    rw [asyncWrite_spec (bounded message member)]
  · intro chunks same
    obtain ⟨next, delivered, rest⟩ := reads_frames asyncRead_frame bounded
      (same.trans (List.append_nil _).symm)
    exact ⟨next, delivered, asyncRead_end rest⟩
  · intro chunks front proper
    obtain ⟨count, bound, part, same, last⟩ :=
      prefix_frames _ messages front
    have taken : ∀ message ∈ messages.take count,
        message.length < headerLimit := by
      intro message member
      exact bounded message (List.mem_of_mem_take member)
    obtain ⟨next, delivered, rest⟩ := reads_frames asyncRead_frame taken same
    rw [List.length_take, Nat.min_eq_left bound] at delivered
    split at last
    · rename_i beyond
      exfalso
      apply proper
      rw [same, last, List.append_nil, List.take_of_length_le
        (List.getElem?_eq_none_iff.mp beyond)]
      rfl
    · rename_i message there
      obtain ⟨inside, here⟩ := List.getElem?_eq_some_iff.mp there
      have valid : message.length < headerLimit := by
        apply bounded
        rw [← here]
        exact List.getElem_mem inside
      refine ⟨count, inside, next, delivered, ?_, ?_, ?_⟩
      · apply asyncRead_part valid
        · rw [rest]
          exact last.1
        · rw [rest]
          exact last.2
      · rw [same]
        exact List.prefix_append _ _
      · intro complete
        have longer := complete.length_le
        rw [same, written, ← List.take_concat_get' _ _ inside,
          List.flatMap_append, here] at longer
        simp at longer
        omega

namespace Sample

def words : List Bytes := [[104, 105], [], [33]]

/-- The stream comes in chunks of five bytes and is cut off in the last
header. -/
def chunks : List Bytes :=
  [((written words).take 5), ((written words).drop 5).take 5,
    ((written words).drop 10).take 29]

end Sample

theorem block_round_trip_sample :
    ∃ count < 3, ∃ next,
      reads asyncRead count Sample.chunks =
        some (Sample.words.take count, next) ∧
      (asyncRead next).1 = .error .stream := by
  have bounded : ∀ message ∈ Sample.words, message.length < 2 ^ 64 := by
    decide
  obtain ⟨_, _, prefixes⟩ := block_round_trip Sample.words bounded
  obtain ⟨count, bound, next, delivered, failed, _⟩ :=
    prefixes Sample.chunks (by decide +kernel) (by decide +kernel)
  exact ⟨count, bound, next, delivered, failed⟩

end Bacs.Asio.BlockConnection
