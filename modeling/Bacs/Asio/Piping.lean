import Bacs.Asio.BufferConnection

/-!
# A pipe of bytes

What was transferred to the sink, followed by what is in the queue, is what
was put into the queue.  The buffer of an outstanding write is the front of
the queue, so a writer is started only where none is running.
-/

namespace Bacs.Asio.BufferConnection

open Foundation

variable {connection next : BufferConnection}

/-- Before `terminate`, the sink is closed only with nothing in the queue. -/
def Guarded (closings : List Closing) : Prop :=
  ∀ closing ∈ closings, closing.terminated = false → closing.queue = []

/-- A write is outstanding for the front of the queue. -/
def Writing (connection : BufferConnection) : Prop :=
  ∃ front rest, connection.queue = front :: rest ∧
    connection.writes = [front] ∧ connection.sinkOk = true

structure Piped (connection : BufferConnection) : Prop where
  writes : connection.writes = [] ∨ Writing connection
  bytes : connection.transferred ++ connection.queue.flatten =
    connection.put
  closings : Guarded connection.closings

theorem Piped.of_same (piped : Piped connection)
    (queue : next.queue = connection.queue)
    (writes : next.writes = connection.writes)
    (sinkOk : next.sinkOk = connection.sinkOk)
    (transferred : next.transferred = connection.transferred)
    (put : next.put = connection.put) (closings : Guarded next.closings) :
    Piped next := by
  constructor
  · rw [writes, Writing, queue, writes, sinkOk]
    exact piped.writes
  · rw [transferred, queue, put]
    exact piped.bytes
  · exact closings

theorem Piped.idle (piped : Piped connection)
    (empty : connection.queue = []) : connection.writes = [] := by
  obtain idle | ⟨front, rest, nonempty, _⟩ := piped.writes
  · exact idle
  · rw [empty] at nonempty
    cases nonempty

/-! ## Closing the sink -/

theorem sinkClose_guarded (guarded : Guarded connection.closings)
    (allowed : connection.terminated = false → connection.queue = []) :
    Guarded connection.sinkClose.closings := by
  intro closing member
  obtain earlier | here := List.mem_append.mp member
  · exact guarded closing earlier
  · rw [List.mem_singleton.mp here]
    exact allowed

/-- A callback changes nothing but whether the connection is closed. -/
theorem callback_spec (connection : BufferConnection) (closes : Bool) :
    ∃ closed closings,
      connection.callback closes = { connection with closed, closings } ∧
        (Guarded connection.closings → Guarded closings) := by
  unfold callback close
  split
  · split
    · exact ⟨_, _, rfl, id⟩
    · dsimp only
      split
      · rename_i empty
        refine ⟨true, _, rfl, ?_⟩
        intro guarded
        exact sinkClose_guarded guarded (fun _ => empty)
      · exact ⟨true, _, rfl, id⟩
  · exact ⟨_, _, rfl, id⟩

theorem tryCloseSink_spec (closes : Bool)
    (empty : connection.queue = []) : ∃ closed closings,
      connection.tryCloseSink closes =
          { connection with closed, closings } ∧
        (Guarded connection.closings → Guarded closings) := by
  unfold tryCloseSink
  split
  · obtain ⟨closed, closings, same, guarded⟩ :=
      callback_spec connection closes
    rw [same]
    refine ⟨closed, _, rfl, ?_⟩
    intro before
    exact sinkClose_guarded (guarded before) (fun _ => empty)
  · exact ⟨_, _, rfl, id⟩

theorem continueReading_spec (connection : BufferConnection)
    (failed : Bool) (calls : Calls) : ∃ closed closings sourceOk reads,
      connection.continueReading failed calls =
          { connection with closed, closings, sourceOk, reads } ∧
        (Guarded connection.closings → Guarded closings) ∧
          reads ≤ connection.reads + 1 := by
  unfold continueReading
  split
  · obtain ⟨closed, closings, same, guarded⟩ :=
      callback_spec connection calls.eof
    rw [same]
    exact ⟨closed, closings, false, _, rfl, guarded, Nat.le_succ _⟩
  · split
    · unfold spawnReader
      split
      · exact ⟨_, _, _, _, rfl, id, Nat.le_succ _⟩
      · exact ⟨_, _, _, _, rfl, id, Nat.le_refl _⟩
    · exact ⟨_, _, _, _, rfl, id, Nat.le_succ _⟩

/-! ## The writer -/

/-- The next state is a pipe, and has as many outstanding reads. -/
structure Pipes (connection next : BufferConnection) : Prop where
  piped : Piped next
  reads : next.reads = connection.reads
  started : next.started = connection.started

/-- A writer is started only where none is running, and then the queue is not
cleared. -/
theorem Piped.spawnWriter (piped : Piped connection)
    (idle : connection.writes = [])
    (kept : connection.sinkOk = true ∨
      connection.discardOnSinkError = false) :
    Pipes connection connection.spawnWriter := by
  unfold BufferConnection.spawnWriter
  split
  · exact ⟨piped, rfl, rfl⟩
  · split
    · rename_i failed
      split
      · rename_i discards
        simp [failed, discards] at kept
      · exact ⟨piped, rfl, rfl⟩
    · rename_i ok
      split
      · exact ⟨piped, rfl, rfl⟩
      · rename_i front rest queue
        refine ⟨?_, rfl, rfl⟩
        constructor
        · right
          refine ⟨front, rest, queue, ?_, by simpa using ok⟩
          simp [idle]
        · exact piped.bytes
        · exact piped.closings

theorem Piped.push (piped : Piped connection) (data : Bytes) :
    Piped { connection with
      queue := connection.queue ++ [data]
      put := connection.put ++ data } := by
  constructor
  · obtain idle | ⟨front, rest, queue, writes, ok⟩ := piped.writes
    · exact .inl idle
    · right
      refine ⟨front, rest ++ [data], ?_, writes, ok⟩
      simp [queue]
  · rw [← piped.bytes]
    simp
  · exact piped.closings

theorem Piped.enqueue (piped : Piped connection) (data : Bytes)
    (calls : Calls) :
    Pipes connection (connection.enqueue data calls) := by
  unfold BufferConnection.enqueue
  split
  · rename_i kept
    obtain ⟨_, kept⟩ := kept
    have pushed := piped.push data
    obtain ⟨closed, closings, same, guarded⟩ :=
      callback_spec { connection with
        queue := connection.queue ++ [data], put := connection.put ++ data }
        calls.data
    dsimp only
    rw [same]
    have called : Piped { connection with
        queue := connection.queue ++ [data], put := connection.put ++ data
        closed, closings } :=
      pushed.of_same rfl rfl rfl rfl rfl (guarded piped.closings)
    split
    · rename_i single
      have empty : connection.queue = [] := by
        simpa using single
      obtain ⟨written, reads, started⟩ :=
        called.spawnWriter (piped.idle empty) kept
      exact ⟨written, reads, started⟩
    · exact ⟨called, rfl, rfl⟩
  · exact ⟨piped, rfl, rfl⟩

/-! ## The handlers -/

theorem Piped.callback (piped : Piped connection) (closes : Bool) :
    Pipes connection (connection.callback closes) := by
  obtain ⟨closed, closings, same, guarded⟩ := callback_spec connection closes
  rw [same]
  exact ⟨piped.of_same rfl rfl rfl rfl rfl (guarded piped.closings), rfl, rfl⟩

theorem Piped.tryCloseSink (piped : Piped connection) (closes : Bool)
    (empty : connection.queue = []) :
    Pipes connection (connection.tryCloseSink closes) := by
  obtain ⟨closed, closings, same, guarded⟩ := tryCloseSink_spec closes empty
  rw [same]
  exact ⟨piped.of_same rfl rfl rfl rfl rfl (guarded piped.closings), rfl, rfl⟩

theorem Piped.continueReading (piped : Piped connection) (failed : Bool)
    (calls : Calls) :
    Piped (connection.continueReading failed calls) ∧
      (connection.continueReading failed calls).reads ≤
        connection.reads + 1 ∧
      (connection.continueReading failed calls).started =
        connection.started := by
  obtain ⟨closed, closings, sourceOk, reads, same, guarded, bound⟩ :=
    continueReading_spec connection failed calls
  rw [same]
  exact ⟨piped.of_same rfl rfl rfl rfl rfl (guarded piped.closings), bound,
    rfl⟩

theorem Piped.handleRead (piped : Piped connection) (data : Bytes)
    (failed : Bool) (calls : Calls) :
    Piped (connection.handleRead data failed calls) ∧
      (connection.handleRead data failed calls).reads ≤
        connection.reads + 1 ∧
      (connection.handleRead data failed calls).started =
        connection.started := by
  have called := piped.callback calls.handler
  have queued := called.piped.enqueue data calls
  obtain ⟨continued, reads, started⟩ :=
    queued.piped.continueReading failed calls
  rw [queued.reads, called.reads] at reads
  rw [queued.started, called.started] at started
  unfold BufferConnection.handleRead
  dsimp only
  split
  · rename_i empty
    obtain ⟨closed, reads', started'⟩ :=
      continued.tryCloseSink calls.sink empty
    rw [reads', started']
    exact ⟨closed, reads, started⟩
  · exact ⟨continued, reads, started⟩

theorem dequeue_spec {front : Bytes} {rest : List Bytes}
    (queued : connection.queue = front :: rest) {size : Nat}
    (bound : size ≤ front.length) (calls : Calls) :
    ∃ closed closings queue,
      connection.dequeue size calls =
          { connection with closed, closings, queue } ∧
        (Guarded connection.closings → Guarded closings) ∧
          queue.flatten = front.drop size ++ rest.flatten := by
  unfold dequeue
  split
  · obtain ⟨closed, closings, same, guarded⟩ :=
      callback_spec connection calls.data
    dsimp only
    rw [same]
    dsimp only
    rw [queued]
    dsimp only
    split
    · exact ⟨closed, closings, _, rfl, guarded, rfl⟩
    · rename_i whole
      refine ⟨closed, closings, rest, rfl, guarded, ?_⟩
      rw [List.drop_eq_nil_of_le (by omega), List.nil_append]
  · rename_i zero
    have zero : size = 0 := by simpa using zero
    refine ⟨_, _, connection.queue, rfl, id, ?_⟩
    rw [queued, zero]
    rfl

theorem Writing.handleWrite {front : Bytes} {rest : List Bytes}
    (piped : Piped connection) (queued : connection.queue = front :: rest)
    (ok : connection.sinkOk = true) {size : Nat}
    (bound : size ≤ front.length) (failed : Bool) (calls : Calls) :
    Pipes connection (handleWrite
      { connection with
        writes := []
        transferred := connection.transferred ++ front.take size }
      size failed calls) := by
  obtain ⟨closed, closings, same, guarded⟩ := callback_spec
    { connection with
      writes := []
      transferred := connection.transferred ++ front.take size }
    calls.handler
  obtain ⟨closed', closings', queue, same', guarded', bytes⟩ :=
    @dequeue_spec { connection with
      writes := []
      transferred := connection.transferred ++ front.take size
      closed, closings } front rest queued size bound calls
  have kept : Guarded closings' := guarded' (guarded piped.closings)
  have all : connection.transferred ++ front.take size ++ queue.flatten =
      connection.put := by
    rw [bytes, ← piped.bytes, queued, List.append_assoc,
      ← List.append_assoc (front.take size), List.take_append_drop]
    rfl
  unfold BufferConnection.handleWrite
  dsimp only
  rw [same, same']
  split
  · refine ⟨?_, rfl, rfl⟩
    exact ⟨.inl rfl, all, kept⟩
  · have dequeued : Piped { connection with
        writes := []
        transferred := connection.transferred ++ front.take size
        closed := closed', closings := closings', queue } :=
      ⟨.inl rfl, all, kept⟩
    split
    · rename_i empty
      obtain ⟨written, reads, started⟩ :=
        dequeued.tryCloseSink calls.sink empty
      exact ⟨written, reads, started⟩
    · obtain ⟨written, reads, started⟩ :=
        dequeued.spawnWriter rfl (.inl ok)
      exact ⟨written, reads, started⟩

/-! ## Every run -/

structure Faithful (connection : BufferConnection) : Prop where
  piped : Piped connection
  reads : connection.reads ≤ 1
  unstarted : connection.started = false → connection.reads = 0

theorem faithful_initial (closeSinkOnEof discardOnSinkError : Bool) :
    Faithful (initial closeSinkOnEof discardOnSinkError) := by
  constructor
  · constructor
    · exact .inl rfl
    · rfl
    · intro closing member
      cases member
  · exact Nat.zero_le 1
  · intro _
    rfl

theorem Faithful.of_pipes {before : BufferConnection}
    (faithful : Faithful before) (same : connection.reads = before.reads)
    (same' : connection.started = before.started)
    (pipes : Pipes connection next) : Faithful next := by
  obtain ⟨piped, reads, started⟩ := pipes
  constructor
  · exact piped
  · rw [reads, same]
    exact faithful.reads
  · rw [reads, started, same, same']
    exact faithful.unstarted

theorem faithful_step {action : Action}
    (taken : step connection action = some next)
    (faithful : Faithful connection) : Faithful next := by
  have piped := faithful.piped
  cases action with
  | start =>
      simp only [step] at taken
      split at taken
      · cases taken
      · rename_i first
        have none := faithful.unstarted (by simpa using first)
        cases taken
        have same : Piped { connection with started := true } :=
          piped.of_same rfl rfl rfl rfl rfl piped.closings
        unfold spawnReader
        split
        · exact ⟨same, faithful.reads, fun _ => none⟩
        · constructor
          · exact same.of_same rfl rfl rfl rfl rfl piped.closings
          · simp [none]
          · intro unstarted
            cases unstarted
  | read data failed calls =>
      simp only [step] at taken
      split at taken
      · cases taken
      · rename_i outstanding
        obtain ⟨nonzero, _⟩ := not_or.mp outstanding
        cases taken
        have read : Piped { connection with reads := connection.reads - 1 } :=
          piped.of_same rfl rfl rfl rfl rfl piped.closings
        obtain ⟨handled, reads, started⟩ :=
          read.handleRead data failed calls
        have bound := faithful.reads
        constructor
        · exact handled
        · dsimp only at reads
          omega
        · intro unstarted
          rw [started] at unstarted
          exact absurd (faithful.unstarted unstarted) nonzero
  | write index size failed calls =>
      simp only [step] at taken
      split at taken
      · cases taken
      · rename_i buffer there
        split at taken
        · cases taken
        · rename_i bound
          cases taken
          obtain idle | ⟨front, rest, queued, writes, ok⟩ := piped.writes
          · rw [idle] at there
            cases there
          · rw [writes] at there
            cases index with
            | succ index => cases there
            | zero =>
                cases there
                rw [writes]
                apply faithful.of_pipes rfl rfl
                exact Writing.handleWrite piped queued ok
                  (Nat.le_of_not_lt bound) failed calls
  | close =>
      cases taken
      exact faithful.of_pipes rfl rfl (piped.callback true)
  | terminate =>
      cases taken
      have guarded : Guarded connection.terminate.closings :=
        @sinkClose_guarded
          { connection with closed := true, terminated := true }
          piped.closings (by simp)
      constructor
      · exact piped.of_same rfl rfl rfl rfl rfl guarded
      · exact faithful.reads
      · exact faithful.unstarted

/-- In every run, at most one read and one write are outstanding, the bytes
go through in their order, and before `terminate` the sink is closed only with
nothing in the queue. -/
theorem buffer_connection_faithful
    (closeSinkOnEof discardOnSinkError : Bool)
    (connection : BufferConnection)
    (run : Runs step (fun _ _ => True)
      (initial closeSinkOnEof discardOnSinkError) connection) :
    connection.reads ≤ 1 ∧
    connection.writes.length ≤ 1 ∧
    (∀ buffer ∈ connection.writes,
      connection.queue.head? = some buffer) ∧
    connection.transferred ++ connection.queue.flatten = connection.put ∧
    ∀ closing ∈ connection.closings,
      closing.terminated = false → closing.queue = [] := by
  have faithful : Faithful connection := by
    apply run.invariant (faithful_initial closeSinkOnEof discardOnSinkError)
    intro before action after held _ taken
    exact faithful_step taken held
  refine ⟨faithful.reads, ?_, ?_, faithful.piped.bytes,
    faithful.piped.closings⟩
  · obtain idle | ⟨front, rest, queued, writes, ok⟩ :=
      faithful.piped.writes
    · simp [idle]
    · simp [writes]
  · intro buffer member
    obtain idle | ⟨front, rest, queued, writes, ok⟩ :=
      faithful.piped.writes
    · simp [idle] at member
    · rw [writes, List.mem_singleton] at member
      rw [member, queued]
      rfl

namespace Sample

def quiet : Calls :=
  { handler := false, data := false, eof := false, sink := false }

/-- The connection is closed while its first buffer is written, and the second
is still read. -/
def closing : List Action :=
  [.start, .read [1, 2, 3] false quiet, .close, .read [4] false quiet,
    .write 0 3 false quiet, .write 0 1 false quiet]

end Sample

theorem buffer_connection_faithful_sample :
    ∃ connection : BufferConnection,
      connection.transferred = [1, 2, 3, 4] ∧
      connection.closings = [{ queue := [], terminated := false }] ∧
      connection.transferred ++ connection.queue.flatten =
        connection.put := by
  have executed : (execute step (initial true false) Sample.closing).map
      (fun connection =>
        (connection.transferred, connection.closings)) =
      some ([1, 2, 3, 4], [{ queue := [], terminated := false }]) := by
    decide +kernel
  obtain ⟨connection, reached, same⟩ := Option.map_eq_some_iff.mp executed
  simp only [Prod.mk.injEq] at same
  have run : Runs step (fun _ _ => True) (initial true false) connection :=
    Runs.of_execute (fun _ _ _ => trivial) reached
  obtain ⟨_, _, _, bytes, _⟩ :=
    buffer_connection_faithful true false connection run
  exact ⟨connection, same.1, same.2, bytes⟩

end Bacs.Asio.BufferConnection
