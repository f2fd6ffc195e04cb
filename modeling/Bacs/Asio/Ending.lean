import Bacs.Asio.Observation
import Bacs.Asio.Piping
import Bacs.Foundation.EndMarker

/-!
# The end of a stream

Reading ends with an error, writing when there is nothing left to write after
that.  As long as no step is out of order, each data handler is called with
its end marker exactly then, and the sink is closed exactly then or when the
connection is closed with nothing in the queue.
-/

namespace Bacs.Asio.Observed

open Foundation

/-! ## The two data handlers -/

/-- The calls of `m_handle_read_data`. -/
def readCalls (log : List Event) : List Bytes :=
  log.filterMap Event.readCall

/-- The calls of `m_handle_write_data`. -/
def writeCalls (log : List Event) : List Bytes :=
  log.filterMap Event.writeCall

structure Proper (observed : Observed) : Prop where
  /-- No write is started after the sink has been closed. -/
  stops : ∀ before after, observed.log = before ++ .write :: after →
    Event.close ∉ before
  read : (readCalls observed.log).count [] ≤ 1 ∧
    ∀ before after, readCalls observed.log = before ++ [] :: after →
      after = []
  write : (writeCalls observed.log).count [] ≤ 1 ∧
    ∀ before after, writeCalls observed.log = before ++ [] :: after →
      after = []
  /-- Reading has ended, and no operation is outstanding. -/
  ended : observed.connection.closed = true ∨
      observed.connection.sourceOk = false →
    observed.connection.reads = 0 → observed.connection.writes = [] →
      (readCalls observed.log).count [] = 1 ∧
      (writeCalls observed.log).count [] = 1 ∧
      Event.close ∈ observed.log
  discarded : observed.connection.sinkOk = false →
    observed.connection.discardOnSinkError = true →
    observed.connection.writes = [] → observed.connection.queue = []

/-- The connection is closed after it has been started.  No write fails.  A
read of a closed connection fails, and brings nothing where the sink is closed
already, and the queue of a closed connection is not emptied while a read is
outstanding. -/
def Orderly (connection : BufferConnection) :
    BufferConnection.Action → Prop
  | .start => True
  | .read data failed calls =>
      (connection.closed ∨ calls.handler →
        failed ∧ (connection.queue = [] → data = [])) ∧
      (data ≠ [] ∧ calls.data → failed)
  | .write _ size failed calls =>
      failed = false ∧
      (connection.closed ∨ calls.handler ∨ calls.data →
        connection.reads ≠ 0 → size < connection.queue.flatten.length)
  | .close => connection.started
  | .terminate => False

instance (connection : BufferConnection) :
    ∀ action, Decidable (Orderly connection action)
  | .start => instDecidableTrue
  | .read _ _ _ => instDecidableAnd
  | .write _ _ _ _ => instDecidableAnd
  | .close => inferInstanceAs (Decidable (connection.started = true))
  | .terminate => instDecidableFalse

/-- In every state between two events of an orderly run. -/
structure Kept (observed : Observed) : Prop where
  alive : observed.connection.terminated = false
  sinkOk : observed.connection.sinkOk = true
  closes : observed.connection.closeSinkOnEof = true
  started : observed.connection.started = true
  filled : [] ∉ observed.connection.queue
  read : Marked [] (observed.connection.sourceOk = false)
    (readCalls observed.log)
  write : Marked []
    (observed.connection.sourceOk = false ∧ observed.connection.queue = [])
    (writeCalls observed.log)
  sink : .close ∈ observed.log ↔
    observed.connection.queue = [] ∧
      (observed.connection.closed = true ∨
        observed.connection.sourceOk = false)
  stops : Stops .close .write observed.log

structure Ending (observed : Observed) : Prop where
  kept : observed.connection.started = true → Kept observed
  unstarted : observed.connection.started = false →
    observed = initial true observed.connection.discardOnSinkError
  writes : observed.connection.writes =
    observed.connection.queue.head?.toList
  reads : observed.connection.reads =
    if observed.connection.started ∧ observed.connection.sourceOk then 1
    else 0

variable {observed : Observed}

theorem Ending.proper (ending : Ending observed) :
    Proper observed := by
  cases started : observed.connection.started with
  | false =>
      rw [ending.unstarted started]
      constructor
      · exact Stops.nil _ _
      · simp [initial, readCalls]
      · simp [initial, writeCalls]
      · simp [initial, BufferConnection.initial]
      · simp [initial, BufferConnection.initial]
  | true =>
      have kept := ending.kept started
      constructor
      · exact kept.stops
      · exact ⟨kept.read.count_le, kept.read.last⟩
      · exact ⟨kept.write.count_le, kept.write.last⟩
      · intro _ reads writes
        have queue : observed.connection.queue = [] := by
          rw [ending.writes] at writes
          simpa using writes
        have ended : observed.connection.sourceOk = false := by
          rw [ending.reads, started] at reads
          simpa using reads
        refine ⟨kept.read.count ended, kept.write.count ⟨ended, queue⟩, ?_⟩
        exact kept.sink.mpr ⟨queue, .inr ended⟩
      · intro failed
        rw [kept.sinkOk] at failed
        cases failed

/-! ## Callbacks -/

structure Adds (before after : List Event) : Prop where
  read : readCalls after = readCalls before
  write : writeCalls after = writeCalls before
  stops : Stops .close .write before → Stops .close .write after
  close : .close ∈ before → .close ∈ after

theorem Adds.sinkClose (log : List Event) : Adds log (log ++ [.close]) := by
  constructor
  · simp [readCalls, Event.readCall]
  · simp [writeCalls, Event.writeCall]
  · intro stops
    apply stops.append
    intro same
    cases same
  · intro member
    exact List.mem_append_left _ member

section Callback

variable (connection : BufferConnection) (closes : Bool)

@[simp] theorem callback_queue :
    (connection.callback closes).queue = connection.queue := by
  obtain ⟨_, _, same, _⟩ := connection.callback_spec closes
  rw [same]

@[simp] theorem callback_terminated :
    (connection.callback closes).terminated = connection.terminated := by
  obtain ⟨_, _, same, _⟩ := connection.callback_spec closes
  rw [same]

@[simp] theorem callback_sourceOk :
    (connection.callback closes).sourceOk = connection.sourceOk := by
  obtain ⟨_, _, same, _⟩ := connection.callback_spec closes
  rw [same]

@[simp] theorem callback_sinkOk :
    (connection.callback closes).sinkOk = connection.sinkOk := by
  obtain ⟨_, _, same, _⟩ := connection.callback_spec closes
  rw [same]

@[simp] theorem callback_closeSinkOnEof :
    (connection.callback closes).closeSinkOnEof =
      connection.closeSinkOnEof := by
  obtain ⟨_, _, same, _⟩ := connection.callback_spec closes
  rw [same]

@[simp] theorem callback_started :
    (connection.callback closes).started = connection.started := by
  obtain ⟨_, _, same, _⟩ := connection.callback_spec closes
  rw [same]

@[simp] theorem callback_reads :
    (connection.callback closes).reads = connection.reads := by
  obtain ⟨_, _, same, _⟩ := connection.callback_spec closes
  rw [same]

@[simp] theorem callback_writes :
    (connection.callback closes).writes = connection.writes := by
  obtain ⟨_, _, same, _⟩ := connection.callback_spec closes
  rw [same]

@[simp] theorem callback_closed :
    (connection.callback closes).closed = (connection.closed || closes) := by
  unfold BufferConnection.callback BufferConnection.close
  cases closes with
  | false => simp
  | true =>
      cases closed : connection.closed with
      | true => simp [closed]
      | false =>
          by_cases empty : connection.queue = []
          · simp [empty, BufferConnection.sinkClose]
          · simp [empty]

end Callback

/-- A callback closes the sink where there is nothing in the queue. -/
theorem callback_log (observed : Observed) (closes : Bool) :
    Adds observed.log (observed.callback closes).log ∧
      (.close ∈ (observed.callback closes).log ↔
        .close ∈ observed.log ∨ observed.connection.queue = [] ∧
          observed.connection.closed = false ∧ closes = true) := by
  have same : Adds observed.log observed.log := ⟨rfl, rfl, id, id⟩
  unfold callback close
  cases closes with
  | false => simp [same]
  | true =>
      cases closed : observed.connection.closed with
      | true => simp [same]
      | false =>
          by_cases empty : observed.connection.queue = []
          · simp [empty, sinkClose, tell, Adds.sinkClose]
          · simp [empty, same]

/-- The flags that no step of a running connection changes. -/
structure SameFlags (before after : BufferConnection) : Prop where
  terminated : after.terminated = before.terminated
  sinkOk : after.sinkOk = before.sinkOk
  closeSinkOnEof : after.closeSinkOnEof = before.closeSinkOnEof
  started : after.started = before.started

/-- What has to be shown again after something has happened. -/
theorem Kept.next (kept : Kept observed) {next : Observed}
    (same : SameFlags observed.connection next.connection)
    (filled : [] ∉ next.connection.queue)
    (read : Marked [] (next.connection.sourceOk = false)
      (readCalls next.log))
    (write : Marked []
      (next.connection.sourceOk = false ∧ next.connection.queue = [])
      (writeCalls next.log))
    (sink : .close ∈ next.log ↔
      next.connection.queue = [] ∧
        (next.connection.closed = true ∨
          next.connection.sourceOk = false))
    (stops : Stops .close .write next.log) : Kept next where
  alive := same.terminated.trans kept.alive
  sinkOk := same.sinkOk.trans kept.sinkOk
  closes := same.closeSinkOnEof.trans kept.closes
  started := same.started.trans kept.started
  filled := filled
  read := read
  write := write
  sink := sink
  stops := stops

theorem Kept.callback (kept : Kept observed) (closes : Bool) :
    Kept (observed.callback closes) := by
  obtain ⟨adds, close⟩ := callback_log observed closes
  apply kept.next
  · constructor <;> simp
  · simpa using kept.filled
  · rw [adds.read]
    simpa using kept.read
  · rw [adds.write]
    simpa using kept.write
  · rw [close, kept.sink]
    cases closed : observed.connection.closed
    · simp only [callback_connection, callback_queue, callback_sourceOk,
        callback_closed, closed, Bool.false_or]
      tauto
    · simp [closed]
  · exact adds.stops kept.stops

/-- The operations that are outstanding make no difference. -/
theorem Kept.outstanding (kept : Kept observed) (reads : Nat)
    (writes : List Bytes) (transferred : Bytes) :
    Kept { observed with
      connection :=
        { observed.connection with reads, writes, transferred } } :=
  ⟨kept.alive, kept.sinkOk, kept.closes, kept.started, kept.filled,
    kept.read, kept.write, kept.sink, kept.stops⟩

/-! ## The writer -/

@[simp] theorem readCalls_append (log : List Event) (event : Event) :
    readCalls (log ++ [event]) = readCalls log ++ event.readCall.toList := by
  unfold readCalls
  rw [List.filterMap_append]
  cases event <;> rfl

@[simp] theorem writeCalls_append (log : List Event) (event : Event) :
    writeCalls (log ++ [event]) =
      writeCalls log ++ event.writeCall.toList := by
  unfold writeCalls
  rw [List.filterMap_append]
  cases event <;> rfl

/-- As long as there is something in the queue, the sink is not closed. -/
theorem Kept.sinkOpen (kept : Kept observed)
    (queued : observed.connection.queue ≠ []) : .close ∉ observed.log := by
  intro closed
  exact queued (kept.sink.mp closed).1

theorem Kept.spawnWriter (kept : Kept observed)
    (queued : observed.connection.queue ≠ []) :
    Kept observed.spawnWriter ∧
      observed.spawnWriter.connection =
        { observed.connection with
          writes := observed.connection.writes ++
            observed.connection.queue.head?.toList } := by
  obtain ⟨front, rest, queue⟩ := List.exists_cons_of_ne_nil queued
  have spawned : observed.spawnWriter =
      { connection :=
          { observed.connection with
            writes := observed.connection.writes ++ [front] }
        log := observed.log ++ [.write] } := by
    simp [Observed.spawnWriter, BufferConnection.spawnWriter, kept.alive,
      kept.sinkOk, queue, tell]
  rw [spawned]
  refine ⟨?_, by rw [queue]; rfl⟩
  apply kept.next
  · exact ⟨rfl, rfl, rfl, rfl⟩
  · exact kept.filled
  · simpa [Event.readCall] using kept.read
  · simpa [Event.writeCall] using kept.write
  · simpa using kept.sink
  · apply kept.stops.append
    intro _
    exact kept.sinkOpen queued

/-- What is read before the sink is closed is put into the queue. -/
theorem Kept.push (kept : Kept observed)
    (reading : observed.connection.sourceOk = true) {data : Bytes}
    (some : data ≠ [])
    (intime : observed.connection.closed = true →
      observed.connection.queue ≠ []) :
    Kept (tell { observed with
      connection :=
        { observed.connection with
          queue := observed.connection.queue ++ [data]
          put := observed.connection.put ++ data } } (.readData data)) := by
  have unended : ¬ observed.connection.sourceOk = false := by
    simp [reading]
  apply kept.next
  · exact ⟨rfl, rfl, rfl, rfl⟩
  · intro member
    obtain earlier | here := List.mem_append.mp member
    · exact kept.filled earlier
    · exact some (List.mem_singleton.mp here).symm
  · have called := kept.read.call unended some
    simpa [tell, Event.readCall] using called
  · have called := kept.write
    simpa [tell, Event.writeCall, reading] using called
  · have opened : .close ∉ observed.log := by
      rw [kept.sink]
      intro closed
      obtain ⟨empty, closed | ended⟩ := closed
      · exact intime closed empty
      · exact unended ended
    simpa [tell] using opened
  · apply kept.stops.append
    intro same
    cases same

theorem Kept.enqueue (kept : Kept observed)
    (writes : observed.connection.writes =
      observed.connection.queue.head?.toList)
    (reading : observed.connection.sourceOk = true) {data : Bytes}
    {calls : Calls}
    (intime : observed.connection.closed = true →
      observed.connection.queue = [] → data = []) :
    Kept (observed.enqueue data calls) ∧
      (observed.enqueue data calls).connection.writes =
        (observed.enqueue data calls).connection.queue.head?.toList ∧
      (observed.enqueue data calls).connection.sourceOk = true ∧
      (observed.enqueue data calls).connection.reads =
        observed.connection.reads ∧
      (observed.enqueue data calls).connection.closed =
        (observed.connection.closed || data ≠ [] && calls.data) := by
  by_cases nothing : data = []
  · have same : observed.enqueue data calls = observed := by
      simp [Observed.enqueue, nothing]
    rw [same]
    exact ⟨kept, writes, reading, rfl, by simp [nothing]⟩
  · have pushed := kept.push reading nothing (fun closed empty =>
      nothing (intime closed empty))
    have called := pushed.callback calls.data
    unfold Observed.enqueue
    rw [if_pos ⟨nothing, .inl kept.sinkOk⟩]
    dsimp only
    split
    · rename_i single
      have empty : observed.connection.queue = [] := by
        simpa using single
      obtain ⟨spawned, same⟩ := called.spawnWriter (by simp)
      refine ⟨spawned, ?_⟩
      simp only [dataCallback] at *
      rw [same]
      simp [writes, empty, reading, nothing]
    · rename_i several
      refine ⟨called, ?_⟩
      simp [dataCallback, reading, nothing]
      rw [writes]
      cases queue : observed.connection.queue with
      | nil => simp [dataCallback, queue] at several
      | cons front rest => rfl

/-! ## Reading -/

/-- What the handlers need to know about an orderly state. -/
structure Running (observed : Observed) : Prop where
  kept : Kept observed
  writes : observed.connection.writes =
    observed.connection.queue.head?.toList
  reads : observed.connection.reads =
    if observed.connection.sourceOk then 1 else 0

/-- Everything is read and written, and the sink is not closed yet. -/
structure Drained (observed : Observed) : Prop where
  alive : observed.connection.terminated = false
  sinkOk : observed.connection.sinkOk = true
  closes : observed.connection.closeSinkOnEof = true
  started : observed.connection.started = true
  queue : observed.connection.queue = []
  sourceOk : observed.connection.sourceOk = false
  read : Marked [] True (readCalls observed.log)
  write : Marked [] False (writeCalls observed.log)
  stops : Stops .close .write observed.log

theorem Kept.drained (kept : Kept observed) {next : Observed}
    (same : SameFlags observed.connection next.connection)
    (queue : next.connection.queue = [])
    (sourceOk : next.connection.sourceOk = false)
    (read : Marked [] True (readCalls next.log))
    (write : Marked [] False (writeCalls next.log))
    (stops : Stops .close .write next.log) : Drained next where
  alive := same.terminated.trans kept.alive
  sinkOk := same.sinkOk.trans kept.sinkOk
  closes := same.closeSinkOnEof.trans kept.closes
  started := same.started.trans kept.started
  queue := queue
  sourceOk := sourceOk
  read := read
  write := write
  stops := stops

/-- The last call of the writing handler, after which the sink is closed. -/
theorem Drained.tryCloseSink (drained : Drained observed) (closes : Bool) :
    Kept (observed.tryCloseSink closes) ∧
      ∃ closed closings, (observed.tryCloseSink closes).connection =
        { observed.connection with closed, closings } := by
  refine ⟨?_, ?_⟩
  · have told : Marked [] True
        (writeCalls (observed.tell (.writeData [])).log) := by
      simpa [tell, Event.writeCall] using
        drained.write.finish id True trivial
    have stopped : Stops .close .write
        (observed.tell (.writeData [])).log := by
      apply drained.stops.append
      intro same
      cases same
    obtain ⟨adds, _⟩ := callback_log (observed.tell (.writeData [])) closes
    have last :=
      Adds.sinkClose (observed.dataCallback (.writeData []) closes).log
    unfold Observed.tryCloseSink
    rw [if_pos (.inr ⟨drained.sourceOk, drained.closes⟩)]
    constructor
    · simpa [BufferConnection.sinkClose] using drained.alive
    · simpa [BufferConnection.sinkClose] using drained.sinkOk
    · simpa [BufferConnection.sinkClose] using drained.closes
    · simpa [BufferConnection.sinkClose] using drained.started
    · simp [BufferConnection.sinkClose, drained.queue]
    · have same := last.read.trans adds.read
      have untold : readCalls (observed.tell (.writeData [])).log =
          readCalls observed.log := by
        simp [tell, Event.readCall]
      rw [sinkClose, tell, same, untold]
      apply drained.read.congr
      simp [BufferConnection.sinkClose, drained.sourceOk]
    · have same := last.write.trans adds.write
      rw [sinkClose, tell, same]
      apply told.congr
      simp [BufferConnection.sinkClose, drained.sourceOk, drained.queue]
    · simp [sinkClose, tell, BufferConnection.sinkClose, drained.queue,
        drained.sourceOk]
    · exact last.stops (adds.stops stopped)
  · obtain ⟨closed, closings, same, _⟩ :=
      BufferConnection.tryCloseSink_spec closes drained.queue
    exact ⟨closed, closings, by rw [tryCloseSink_connection, same]⟩

/-- Nothing happens where the connection is open and the source is too. -/
theorem tryCloseSink_open (closed : observed.connection.closed = false)
    (reading : observed.connection.sourceOk = true) (closes : Bool) :
    observed.tryCloseSink closes = observed := by
  simp [Observed.tryCloseSink, closed, reading]

/-- A read of an open connection that goes on is followed by the next. -/
theorem Kept.keepReading (kept : Kept observed)
    (writes : observed.connection.writes =
      observed.connection.queue.head?.toList)
    (reads : observed.connection.reads = 0)
    (reading : observed.connection.sourceOk = true)
    (opened : observed.connection.closed = false) (calls : Calls)
    {next : Observed} (same : next = observed.continueReading false calls) :
    Running (if next.connection.queue = [] then
      next.tryCloseSink calls.sink else next) := by
  have spawned : next =
      { observed with
        connection := { observed.connection with reads := 1 } } := by
    rw [same, Observed.continueReading, if_neg Bool.false_ne_true,
      if_pos opened, spawnReader, BufferConnection.spawnReader,
      if_neg (by simp [kept.alive]), reads]
  have unchanged : next.tryCloseSink calls.sink = next := by
    apply tryCloseSink_open
    · rw [spawned]
      exact opened
    · rw [spawned]
      exact reading
  rw [unchanged, ite_self, spawned]
  refine ⟨kept.outstanding 1 _ _, writes, ?_⟩
  dsimp only
  rw [reading]
  rfl

theorem Kept.endReading (kept : Kept observed)
    (reading : observed.connection.sourceOk = true) (calls : Calls)
    {next : Observed} (same : next = observed.continueReading true calls) :
    Kept (if next.connection.queue = [] then next.tryCloseSink calls.sink
        else next) ∧
      ∃ closed closings,
        (if next.connection.queue = [] then next.tryCloseSink calls.sink
          else next).connection =
        { observed.connection with sourceOk := false, closed, closings } := by
  have unended : ¬ observed.connection.sourceOk = false := by
    simp [reading]
  have logged : next.log =
      ((observed.tell (.readData [])).callback calls.eof).log := by
    rw [same]
    rfl
  obtain ⟨adds, close⟩ :=
    callback_log (observed.tell (.readData [])) calls.eof
  rw [← logged] at adds close
  have read : Marked [] True (readCalls next.log) := by
    rw [adds.read]
    simpa [tell, Event.readCall] using
      kept.read.finish unended True trivial
  have write : Marked [] False (writeCalls next.log) := by
    rw [adds.write]
    have called := kept.write
    simpa [tell, Event.writeCall, reading] using called
  have stops : Stops .close .write next.log := by
    apply adds.stops
    apply kept.stops.append
    intro same
    cases same
  obtain ⟨closed, closings, called, _⟩ :=
    observed.connection.callback_spec calls.eof
  have connection : next.connection =
      { observed.connection with sourceOk := false, closed, closings } := by
    rw [same, continueReading_connection, BufferConnection.continueReading,
      if_pos rfl, called]
  split
  · rename_i empty
    have drained : Drained next := by
      apply kept.drained
      · rw [connection]
        exact ⟨rfl, rfl, rfl, rfl⟩
      · exact empty
      · rw [connection]
      · exact read
      · exact write
      · exact stops
    obtain ⟨finished, closed', closings', same'⟩ :=
      drained.tryCloseSink calls.sink
    refine ⟨finished, closed', closings', ?_⟩
    rw [same', connection]
  · rename_i queued
    refine ⟨?_, closed, closings, connection⟩
    rw [connection] at queued
    have opened := kept.sinkOpen queued
    apply kept.next
    · rw [connection]
      exact ⟨rfl, rfl, rfl, rfl⟩
    · rw [connection]
      exact kept.filled
    · exact read.congr (by simp [connection])
    · exact write.congr (by simpa [connection] using queued)
    · rw [close, connection]
      simp [tell, opened, show observed.connection.queue ≠ [] from queued]
    · exact stops

theorem Kept.handleRead (kept : Kept observed)
    (writes : observed.connection.writes =
      observed.connection.queue.head?.toList)
    (reads : observed.connection.reads = 0)
    (reading : observed.connection.sourceOk = true) {data : Bytes}
    {failed : Bool} {calls : Calls}
    (orderly : Orderly observed.connection (.read data failed calls)) :
    Running (observed.handleRead data failed calls) := by
  obtain ⟨closing, called⟩ := orderly
  have handled := kept.callback calls.handler
  obtain ⟨queued, writes', reading', reads', closed⟩ :=
    @Kept.enqueue _ handled (by simpa using writes) (by simpa using reading)
      data calls (by
        intro closed empty
        simp only [callback_connection, callback_closed, callback_queue,
          Bool.or_eq_true] at closed empty
        exact (closing closed).2 empty)
  unfold Observed.handleRead
  dsimp only
  cases failed with
  | true =>
      obtain ⟨ended, closed, closings, same⟩ :=
        queued.endReading reading' calls rfl
      refine ⟨ended, ?_, ?_⟩
      · rw [same]
        exact writes'
      · rw [same]
        simpa [reads] using reads'
  | false =>
      have opened : ((observed.callback calls.handler).enqueue data
          calls).connection.closed = false := by
        rw [closed]
        simp only [Bool.false_eq_true, imp_false] at closing called
        simp_all
      exact queued.keepReading writes' (reads'.trans (by simpa using reads))
        reading' opened calls rfl

/-! ## Writing -/

def remaining (size : Nat) (front : Bytes) (rest : List Bytes) :
    List Bytes :=
  if size < front.length then front.drop size :: rest else rest

theorem Kept.dequeue (kept : Kept observed) {front : Bytes}
    {rest : List Bytes} (queue : observed.connection.queue = front :: rest)
    (size : Nat) (calls : Calls) :
    ∃ called : Observed, Kept called ∧
      observed.dequeue size calls =
        { called with
          connection :=
            { called.connection with queue := remaining size front rest } } ∧
      called.connection.queue = front :: rest ∧
      called.connection.sourceOk = observed.connection.sourceOk ∧
      called.connection.writes = observed.connection.writes ∧
      called.connection.reads = observed.connection.reads ∧
      (called.connection.closed = true →
        observed.connection.closed = true ∨ calls.data = true) := by
  have filled : front ≠ [] := by
    intro empty
    apply kept.filled
    rw [queue, empty]
    exact List.mem_cons_self
  by_cases nothing : size = 0
  · refine ⟨observed, kept, ?_, queue, rfl, rfl, rfl, .inl⟩
    have whole : remaining size front rest = observed.connection.queue := by
      rw [remaining, nothing, if_pos (List.length_pos_iff.mpr filled),
        queue]
      rfl
    rw [whole, Observed.dequeue, if_neg (by simpa using nothing)]
  · have told : Kept (observed.tell (.writeData (front.take size))) := by
      have call : front.take size ≠ [] := by
        simp [nothing, filled]
      apply kept.next
      · exact ⟨rfl, rfl, rfl, rfl⟩
      · exact kept.filled
      · simpa [tell, Event.readCall] using kept.read
      · have called := kept.write.call (by simp [queue]) call
        simpa [tell, Event.writeCall] using called
      · simpa [tell] using kept.sink
      · apply kept.stops.append
        intro same
        cases same
    refine ⟨_, told.callback calls.data, ?_, ?_, ?_, ?_, ?_, ?_⟩
    · have there : ((observed.tell
          (.writeData (front.take size))).callback calls.data
            ).connection.queue = front :: rest := by
        simpa using queue
      rw [Observed.dequeue, if_pos nothing, queue]
      dsimp only [List.headD_cons, dataCallback]
      rw [there]
      rfl
    · simpa using queue
    · simp
    · simp
    · simp
    · simp

theorem Kept.pop (kept : Kept observed)
    (queued : observed.connection.queue ≠ []) {queue : List Bytes}
    (filled : [] ∉ queue)
    (opened : queue = [] → observed.connection.closed = false ∧
      observed.connection.sourceOk = true) :
    Kept { observed with
      connection := { observed.connection with queue } } := by
  apply kept.next
  · exact ⟨rfl, rfl, rfl, rfl⟩
  · exact filled
  · exact kept.read
  · apply kept.write.congr
    constructor
    · intro ended
      exact absurd ended.2 queued
    · intro ended
      obtain ⟨_, reading⟩ := opened ended.2
      exact absurd (reading.symm.trans ended.1) Bool.noConfusion
  · have closed := kept.sinkOpen queued
    simp only [closed, false_iff, not_and]
    intro empty
    obtain ⟨closed, reading⟩ := opened empty
    simp [closed, reading]
  · exact kept.stops

/-- The write that empties the queue is the last one if reading has ended. -/
theorem Kept.emptied (kept : Kept observed)
    (queued : observed.connection.queue ≠ [])
    (writes : observed.connection.writes = [])
    (reads : observed.connection.reads =
      if observed.connection.sourceOk then 1 else 0)
    (opened : observed.connection.sourceOk = true →
      observed.connection.closed = false) (closes : Bool) :
    Running (tryCloseSink
      { observed with
        connection := { observed.connection with queue := [] } } closes) := by
  cases reading : observed.connection.sourceOk with
  | false =>
      have drained : Drained
          { observed with
            connection := { observed.connection with queue := [] } } := by
        apply kept.drained
        · exact ⟨rfl, rfl, rfl, rfl⟩
        · rfl
        · exact reading
        · exact kept.read.congr (by simp [reading])
        · exact kept.write.congr (by simp [queued])
        · exact kept.stops
      obtain ⟨finished, closed, closings, same⟩ :=
        drained.tryCloseSink closes
      refine ⟨finished, ?_, ?_⟩
      · rw [same]
        exact writes
      · rw [same]
        exact reads
  | true =>
      have same := @tryCloseSink_open
        { observed with
          connection := { observed.connection with queue := [] } }
        (opened reading) reading closes
      rw [same]
      have popped := kept.pop queued List.not_mem_nil
        (fun _ => ⟨opened reading, reading⟩)
      exact ⟨popped, writes, reads⟩

theorem Kept.handleWrite (kept : Kept observed) {front : Bytes}
    {rest : List Bytes} (queue : observed.connection.queue = front :: rest)
    (writes : observed.connection.writes = [])
    (reads : observed.connection.reads =
      if observed.connection.sourceOk then 1 else 0)
    (index : Nat) {size : Nat} {failed : Bool} {calls : Calls}
    (orderly : Orderly observed.connection (.write index size failed calls)) :
    Running (observed.handleWrite size failed calls) := by
  obtain ⟨rfl, closing⟩ := orderly
  have handled := kept.callback calls.handler
  obtain ⟨called, keptCalled, same, queued, sourceOk, writes', reads',
      closed⟩ := handled.dequeue (by simpa using queue) size calls
  simp only [callback_connection, callback_sourceOk] at sourceOk
  simp only [callback_connection, callback_writes] at writes'
  simp only [callback_connection, callback_reads] at reads'
  simp only [callback_connection, callback_closed, Bool.or_eq_true] at closed
  rw [writes] at writes'
  rw [reads, ← sourceOk] at reads'
  have nonempty : called.connection.queue ≠ [] := by
    rw [queued]
    exact List.cons_ne_nil _ _
  unfold Observed.handleWrite
  dsimp only
  rw [same, if_neg Bool.false_ne_true]
  dsimp only
  split
  · rename_i empty
    have opened : called.connection.sourceOk = true →
        called.connection.closed = false := by
      intro reading
      apply Bool.eq_false_iff.mpr
      intro finished
      have more := closing (or_assoc.mp (closed finished)) (by
        rw [reads, ← sourceOk, reading]
        exact Nat.one_ne_zero)
      unfold remaining at empty
      split at empty
      · cases empty
      · rename_i whole
        apply whole
        simpa [queue, empty] using more
    rw [empty]
    exact keptCalled.emptied nonempty writes' reads' opened calls.sink
  · rename_i more
    have filled : [] ∉ remaining size front rest := by
      have earlier := kept.filled
      rw [queue, List.mem_cons, not_or] at earlier
      unfold remaining
      split
      · simp only [List.mem_cons, not_or]
        refine ⟨?_, earlier.2⟩
        simp
        omega
      · exact earlier.2
    have popped := keptCalled.pop nonempty filled
      (fun empty => absurd empty more)
    obtain ⟨spawned, same'⟩ := popped.spawnWriter more
    refine ⟨spawned, ?_, ?_⟩
    · rw [same']
      dsimp only
      rw [writes', List.nil_append]
    · rw [same']
      exact reads'

/-! ## Every run -/

theorem ending_initial (discardOnSinkError : Bool) :
    Ending (initial true discardOnSinkError) := by
  constructor
  · intro started
    cases started
  · intro _
    rfl
  · rfl
  · rfl

theorem Running.callback (running : Running observed) (closes : Bool) :
    Running (observed.callback closes) := by
  constructor
  · exact running.kept.callback closes
  · simpa using running.writes
  · simpa using running.reads

theorem Running.ending (running : Running observed) : Ending observed := by
  have started := running.kept.started
  constructor
  · intro _
    exact running.kept
  · intro unstarted
    rw [started] at unstarted
    cases unstarted
  · exact running.writes
  · rw [started, running.reads]
    simp

theorem ending_start {next : Observed} (ending : Ending observed)
    (taken : observed.step .start = some next) : Ending next := by
  simp only [step] at taken
  split at taken
  · cases taken
  · rename_i first
    have same := ending.unstarted (Bool.eq_false_iff.mpr first)
    cases taken
    apply Running.ending
    rw [same]
    constructor
    · constructor
      · rfl
      · rfl
      · rfl
      · rfl
      · exact List.not_mem_nil
      · exact Marked.nil [] (by
          simp [spawnReader, initial, BufferConnection.initial,
            BufferConnection.spawnReader])
      · exact Marked.nil [] (by
          simp [spawnReader, initial, BufferConnection.initial,
            BufferConnection.spawnReader])
      · simp [spawnReader, initial, BufferConnection.initial,
          BufferConnection.spawnReader]
      · exact Stops.nil _ _
    · rfl
    · rfl

theorem ending_write {index size : Nat} {failed : Bool} {calls : Calls}
    {next : Observed} (ending : Ending observed)
    (orderly : Orderly observed.connection (.write index size failed calls))
    (taken : observed.step (.write index size failed calls) = some next) :
    Ending next := by
  have writes := ending.writes
  have reads := ending.reads
  simp only [step] at taken
  split at taken
  · cases taken
  · rename_i buffer there
    split at taken
    · cases taken
    · cases taken
      have queued : observed.connection.queue ≠ [] := by
        intro empty
        rw [writes, empty] at there
        cases there
      obtain ⟨front, rest, queue⟩ := List.exists_cons_of_ne_nil queued
      rw [writes, queue] at there
      cases index with
      | succ index => cases there
      | zero =>
          have started : observed.connection.started = true := by
            cases started : observed.connection.started with
            | true => rfl
            | false =>
                rw [ending.unstarted started] at queue
                cases queue
          have kept : Kept { observed with
              connection :=
                { observed.connection with
                  writes := observed.connection.writes.eraseIdx 0
                  transferred :=
                    observed.connection.transferred ++
                      buffer.take size } } :=
            (ending.kept started).outstanding _ _ _
          have none : observed.connection.writes.eraseIdx 0 = [] := by
            rw [writes, queue]
            rfl
          rw [started] at reads
          exact (kept.handleWrite queue none (by simpa using reads) 0
            orderly).ending

theorem ending_step {action : BufferConnection.Action} {next : Observed}
    (orderly : Orderly observed.connection action)
    (taken : observed.step action = some next)
    (ending : Ending observed) : Ending next := by
  have writes := ending.writes
  have reads := ending.reads
  cases action with
  | start => exact ending_start ending taken
  | read data failed calls =>
      simp only [step] at taken
      split at taken
      · cases taken
      · rename_i outstanding
        obtain ⟨nonzero, _⟩ := not_or.mp outstanding
        cases taken
        rw [reads] at nonzero
        have running : observed.connection.started = true ∧
            observed.connection.sourceOk = true := by
          by_contra idle
          rw [if_neg idle] at nonzero
          exact nonzero rfl
        rw [if_pos running] at reads
        have kept : Kept { observed with
            connection :=
              { observed.connection with
                reads := observed.connection.reads - 1 } } :=
          (ending.kept running.1).outstanding _ _ _
        exact (kept.handleRead writes (by simp [reads]) running.2
          orderly).ending
  | write index size failed calls => exact ending_write ending orderly taken
  | close =>
      cases taken
      have kept := ending.kept orderly
      rw [show observed.connection.started = true from orderly] at reads
      have running : Running observed :=
        ⟨kept, writes, by simpa using reads⟩
      exact (running.callback true).ending
  | terminate => exact absurd orderly id

/-- In every orderly run, every stream ends properly. -/
theorem buffer_connection_ends (discardOnSinkError : Bool)
    (observed : Observed)
    (run : Runs step
      (fun observed action => Orderly observed.connection action)
      (initial true discardOnSinkError) observed) :
    Proper observed := by
  apply Ending.proper
  apply run.invariant (ending_initial discardOnSinkError)
  intro before action after ending orderly taken
  exact ending_step orderly taken ending

namespace Sample

def quiet : Calls :=
  { handler := false, data := false, eof := false, sink := false }

/-- The connection is closed while a read is outstanding. -/
def early : List BufferConnection.Action :=
  [.start, .close, .read [1] false quiet]

/-- Two buffers are written, and the connection is closed after the end of the
source has been reached. -/
def orderly : List BufferConnection.Action :=
  [.start, .read [1, 2] false quiet, .read [3] true quiet, .close,
    .write 0 2 false quiet, .write 0 1 false quiet]

end Sample

theorem buffer_connection_ends_sample :
    ∃ observed : Observed,
      observed.log = [.readData [1, 2], .write, .readData [3], .readData [],
        .writeData [1, 2], .write, .writeData [3], .writeData [], .close] ∧
      Proper observed := by
  have executed : (executeWhile step
      (fun observed action => Orderly observed.connection action)
      (initial true false) Sample.orderly).map Observed.log =
      some [.readData [1, 2], .write, .readData [3], .readData [],
        .writeData [1, 2], .write, .writeData [3], .writeData [],
        .close] := by
    decide +kernel
  obtain ⟨observed, reached, log⟩ := Option.map_eq_some_iff.mp executed
  have run : Runs step
      (fun observed action => Orderly observed.connection action)
      (initial true false) observed := Runs.of_executeWhile reached
  exact ⟨observed, log, buffer_connection_ends false observed run⟩

/-- A connection closed while it reads starts a write after it has closed the
sink, and its reading handler is never told of the end. -/
theorem buffer_connection_ends_counterexample :
    ¬ ∀ (discardOnSinkError : Bool) (observed : Observed),
      Runs step (fun _ action => action ≠ .terminate)
        (initial true discardOnSinkError) observed → Proper observed := by
  intro claimed
  have executed : (execute step (initial true false) Sample.early).map
      Observed.log = some [.close, .readData [1], .write] := by
    decide +kernel
  obtain ⟨observed, reached, log⟩ := Option.map_eq_some_iff.mp executed
  have run : Runs step (fun _ action => action ≠ .terminate)
      (initial true false) observed := by
    apply Runs.of_execute _ reached
    intro _ action member same
    rw [same] at member
    simp [Sample.early] at member
  have proper := claimed false observed run
  exact proper.stops [.close, .readData [1]] [] log List.mem_cons_self

end Bacs.Asio.Observed
