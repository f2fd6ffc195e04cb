import Bacs.Asio.LineConnection

/-!
# Lines are read as they were written

Which chunks the bytes come in decides how much is read ahead, but not what is
read next: that is the first line of what has been read ahead and what is
still to come.
-/

namespace Bacs.Asio.LineConnection

open Foundation

/-- The bytes that have been read ahead, and those still to come. -/
def contents (connection : LineConnection) : Bytes :=
  connection.inboundData ++ connection.chunks.flatten

/-- The first line is found before all of the bytes have been read. -/
theorem cutLine_append {text line rest : Bytes}
    (cut : cutLine delimiter text = some (line, rest)) (more : Bytes) :
    cutLine delimiter (text ++ more) = some (line, rest ++ more) := by
  obtain absent | ⟨front, back, absent, rfl⟩ := first_line delimiter text
  · rw [cutLine_eq_none.mpr absent] at cut
    cases cut
  · rw [cutLine_terminated absent] at cut
    cases cut
    rw [List.append_assoc, List.cons_append]
    exact cutLine_terminated absent (rest ++ more)

theorem readUntil_some {inboundData : Bytes} {chunks : List Bytes}
    {line rest : Bytes}
    (cut : cutLine delimiter (inboundData ++ chunks.flatten) =
      some (line, rest)) :
    ∃ next, readUntil inboundData chunks = (some line, next) ∧
      next.contents = rest := by
  induction chunks generalizing inboundData with
  | nil =>
      rw [List.flatten_nil, List.append_nil] at cut
      refine ⟨{ inboundData := rest, chunks := [] }, ?_, ?_⟩
      · rw [readUntil, cut]
      · exact List.append_nil rest
  | cons chunk chunks induction =>
      unfold readUntil
      cases early : cutLine delimiter inboundData with
      | none =>
          rw [List.flatten_cons, ← List.append_assoc] at cut
          exact induction cut
      | some found =>
          rw [cutLine_append early] at cut
          cases cut
          exact ⟨_, rfl, rfl⟩

theorem readUntil_none {inboundData : Bytes} {chunks : List Bytes}
    (absent : delimiter ∉ inboundData ++ chunks.flatten) :
    (readUntil inboundData chunks).1 = none := by
  induction chunks generalizing inboundData with
  | nil =>
      rw [List.flatten_nil, List.append_nil] at absent
      rw [readUntil, cutLine_eq_none.mpr absent]
  | cons chunk chunks induction =>
      rw [List.flatten_cons, ← List.append_assoc] at absent
      have early : delimiter ∉ inboundData := by
        intro member
        exact absent (List.mem_append_left _ (List.mem_append_left _ member))
      rw [readUntil, cutLine_eq_none.mpr early]
      exact induction absent

theorem asyncRead_line (connection : LineConnection) (line rest : Bytes)
    (single : delimiter ∉ line)
    (front : connection.contents = (line ++ [delimiter]) ++ rest) :
    ∃ next, connection.asyncRead = (.ok line, next) ∧
      next.contents = rest := by
  rw [List.append_assoc, List.singleton_append] at front
  have cut := cutLine_terminated single rest
  rw [← front] at cut
  obtain ⟨next, read, kept⟩ := readUntil_some cut
  refine ⟨next, ?_, kept⟩
  rw [asyncRead, read]
  dsimp only
  rw [List.dropLast_concat]

theorem asyncRead_end {connection : LineConnection}
    (none : connection.contents = []) :
    connection.asyncRead.1 = .error .stream := by
  have absent : delimiter ∉ connection.contents := by
    rw [none]
    exact List.not_mem_nil
  have read := readUntil_none absent
  unfold asyncRead
  cases same : readUntil connection.inboundData connection.chunks with
  | mk line next =>
      rw [same] at read
      rw [show line = Option.none from read]

theorem written_spec {lines : List Bytes}
    (single : ∀ line ∈ lines, delimiter ∉ line) :
    written lines = .ok (terminated delimiter lines) := by
  induction lines with
  | nil => rfl
  | cons line lines induction =>
      rw [written, asyncWrite, if_neg (single line List.mem_cons_self),
        induction (fun other member =>
          single other (List.mem_cons_of_mem _ member))]
      rfl

/-- All lines are read as they were written, whatever chunks they come in, and
then there is an error.  Between two reads, what is left to read are the
following lines. -/
theorem line_round_trip (lines : List Bytes)
    (single : ∀ line ∈ lines, delimiter ∉ line) :
    ∃ bytes, written lines = .ok bytes ∧
      ∀ chunks : List Bytes, chunks.flatten = bytes →
        (∀ count ≤ lines.length, ∃ next,
          reads asyncRead count { inboundData := [], chunks } =
              some (lines.take count, next) ∧
            written (lines.drop count) = .ok next.contents) ∧
        ∃ next,
          reads asyncRead lines.length { inboundData := [], chunks } =
              some (lines, next) ∧
            next.asyncRead.1 = .error .stream := by
  refine ⟨_, written_spec single, ?_⟩
  intro chunks same
  have kept : ∀ count ≤ lines.length, ∃ next,
      reads asyncRead count { inboundData := [], chunks } =
          some (lines.take count, next) ∧
        next.contents = terminated delimiter (lines.drop count) := by
    intro count bound
    have front : contents { inboundData := [], chunks } =
        (lines.take count).flatMap (· ++ [delimiter]) ++
          terminated delimiter (lines.drop count) := by
      rw [contents, List.nil_append, same, terminated, terminated,
        ← List.flatMap_append, List.take_append_drop]
    obtain ⟨next, delivered, rest⟩ := reads_frames asyncRead_line
      (fun line member => single line (List.mem_of_mem_take member)) front
    rw [List.length_take, Nat.min_eq_left bound] at delivered
    exact ⟨next, delivered, rest⟩
  refine ⟨?_, ?_⟩
  · intro count bound
    obtain ⟨next, delivered, rest⟩ := kept count bound
    refine ⟨next, delivered, ?_⟩
    rw [rest]
    exact written_spec (fun line member =>
      single line (List.mem_of_mem_drop member))
  · obtain ⟨next, delivered, rest⟩ := kept lines.length (Nat.le_refl _)
    rw [List.drop_length] at rest
    rw [List.take_length] at delivered
    exact ⟨next, delivered, asyncRead_end rest⟩

namespace Sample

def lines : List Bytes := [[97, 98], [], [99]]

/-- The second chunk brings in the end of the first line and two more. -/
def chunks : List Bytes := [[97], [98, 10, 10, 99, 10]]

end Sample

theorem line_round_trip_sample :
    ∃ next, reads asyncRead 3
        { inboundData := [], chunks := Sample.chunks } =
          some (Sample.lines, next) ∧
      next.asyncRead.1 = .error .stream := by
  obtain ⟨bytes, wrote, read⟩ :=
    line_round_trip Sample.lines (by decide)
  have same : Sample.chunks.flatten = bytes := by
    cases wrote
    rfl
  exact (read Sample.chunks same).2

end Bacs.Asio.LineConnection
