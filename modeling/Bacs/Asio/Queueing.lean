import Bacs.Asio.QueuedWriter

/-!
# First in, first out

The queue is what has been pushed and not been written, and its front has been
handed to the connection.  A write that fails leaves the queue as it is, and
no other write is started.
-/

namespace Bacs.Asio.QueuedWriter

open Foundation

variable {T : Type} {writer next : QueuedWriter T}

/-- The number of writes that have been started and not been handled. -/
def underway (writer : QueuedWriter T) : Nat :=
  writer.writes.length + writer.strand.countP Posted.completion

structure Feeding (writer : QueuedWriter T) : Prop where
  queue : writer.queue = writer.pushed.drop writer.completed
  bound : writer.completed ≤ writer.pushed.length
  handed : writer.handed = writer.pushed.take (writer.completed + 1)
  underway : writer.underway =
    if writer.queue = [] ∨ writer.failed = true then 0 else 1
  stuck : writer.failed = true → writer.queue ≠ []
  written : writer.written =
    writer.pushed ++ writer.strand.filterMap Posted.object
  closings : ∀ closing ∈ writer.closings, closing.terminated = false →
    closing.completed = closing.pushed

theorem feeding_initial : Feeding (initial : QueuedWriter T) := by
  constructor
  · rfl
  · exact Nat.le_refl 0
  · rfl
  · rfl
  · intro failed
    cases failed
  · rfl
  · intro closing member
    cases member

/-- Nothing is left to write only where everything has been written. -/
theorem Feeding.drained (feeding : Feeding writer)
    (empty : writer.queue = []) :
    writer.completed = writer.pushed.length := by
  have bound := feeding.bound
  rw [feeding.queue, List.drop_eq_nil_iff] at empty
  exact Nat.le_antisymm bound empty

/-- The connection is closed by `terminate`, or with nothing in the queue. -/
theorem Feeding.connectionClose (feeding : Feeding writer)
    (allowed : writer.terminated = false → writer.queue = []) :
    Feeding writer.connectionClose := by
  constructor
  · exact feeding.queue
  · exact feeding.bound
  · exact feeding.handed
  · exact feeding.underway
  · exact feeding.stuck
  · exact feeding.written
  · intro closing member running
    obtain earlier | here := List.mem_append.mp member
    · exact feeding.closings closing earlier running
    · rw [List.mem_singleton.mp here] at running ⊢
      exact feeding.drained (allowed running)

/-- Something is left to write, and nothing of it has been handed over. -/
structure Waiting (writer : QueuedWriter T) : Prop where
  queue : writer.queue = writer.pushed.drop writer.completed
  bound : writer.completed < writer.pushed.length
  handed : writer.handed = writer.pushed.take writer.completed
  idle : writer.underway = 0
  sound : writer.failed = false
  written : writer.written =
    writer.pushed ++ writer.strand.filterMap Posted.object
  closings : ∀ closing ∈ writer.closings, closing.terminated = false →
    closing.completed = closing.pushed

theorem Waiting.spawnWriter (waiting : Waiting writer) :
    Feeding writer.spawnWriter := by
  have bound := waiting.bound
  have front : writer.queue = writer.pushed[writer.completed] ::
      writer.pushed.drop (writer.completed + 1) := by
    rw [waiting.queue, List.drop_eq_getElem_cons bound]
  have spawned : writer.spawnWriter =
      { writer with
        writes := writer.writes ++ [writer.pushed[writer.completed]]
        handed := writer.handed ++ [writer.pushed[writer.completed]] } := by
    unfold QueuedWriter.spawnWriter
    rw [front]
  have queued : writer.queue ≠ [] := by
    rw [front]
    exact List.cons_ne_nil _ _
  rw [spawned]
  constructor
  · exact waiting.queue
  · exact Nat.le_of_lt bound
  · dsimp only
    rw [waiting.handed, List.take_succ_eq_append_getElem bound]
  · have idle := waiting.idle
    dsimp only
    rw [if_neg (by simp [queued, waiting.sound])]
    unfold underway at idle ⊢
    dsimp only
    rw [List.length_append, List.length_singleton]
    omega
  · intro failed
    rw [waiting.sound] at failed
    cases failed
  · exact waiting.written
  · exact waiting.closings

theorem Feeding.push (feeding : Feeding writer) {strand : List (Posted T)}
    {object : T} (posted : writer.strand = .push object :: strand) :
    Feeding (QueuedWriter.push { writer with strand } object) := by
  have written : writer.written = writer.pushed ++ [object] ++
      strand.filterMap Posted.object := by
    rw [feeding.written, posted, List.append_assoc]
    rfl
  have same : writer.writes.length + strand.countP Posted.completion =
      writer.underway := by
    rw [QueuedWriter.underway, posted]
    rfl
  have queue : writer.queue ++ [object] =
      (writer.pushed ++ [object]).drop writer.completed := by
    rw [feeding.queue, List.drop_append_of_le_length feeding.bound]
  unfold QueuedWriter.push
  dsimp only
  split
  · rename_i single
    have empty : writer.queue = [] := by
      simpa using single
    have all := feeding.drained empty
    apply Waiting.spawnWriter
    constructor
    · exact queue
    · simp [all]
    · dsimp only
      rw [feeding.handed, all, List.take_of_length_le (Nat.le_succ _),
        List.take_left]
    · unfold QueuedWriter.underway
      rw [same, feeding.underway, if_pos (.inl empty)]
    · apply Bool.eq_false_iff.mpr
      intro failed
      exact feeding.stuck failed empty
    · exact written
    · exact feeding.closings
  · rename_i several
    have queued : writer.queue ≠ [] := by
      intro empty
      simp [empty] at several
    have more : writer.completed < writer.pushed.length := by
      rw [feeding.queue] at queued
      simpa using queued
    constructor
    · exact queue
    · simp
      omega
    · dsimp only
      rw [feeding.handed, List.take_append_of_le_length more]
    · have before := feeding.underway
      simp only [queued, false_or] at before
      unfold QueuedWriter.underway
      rw [same, before]
      simp
    · intro _
      simp
    · exact written
    · exact feeding.closings

theorem Feeding.handleWrite (feeding : Feeding writer)
    {strand : List (Posted T)} {failed : Bool}
    (posted : writer.strand = .handleWrite failed :: strand) :
    Feeding (QueuedWriter.handleWrite { writer with strand } failed) := by
  have written : writer.written =
      writer.pushed ++ strand.filterMap Posted.object := by
    rw [feeding.written, posted]
    rfl
  have handled : writer.underway =
      writer.writes.length + strand.countP Posted.completion + 1 := by
    rw [QueuedWriter.underway, posted]
    rw [List.countP_cons_of_pos (by rfl)]
    omega
  have started := feeding.underway
  rw [handled] at started
  split at started
  · omega
  · rename_i running
    obtain ⟨queued, sound⟩ := not_or.mp running
    have more : writer.completed < writer.pushed.length := by
      rw [feeding.queue] at queued
      simpa using queued
    unfold QueuedWriter.handleWrite
    split
    · constructor
      · exact feeding.queue
      · exact feeding.bound
      · exact feeding.handed
      · unfold QueuedWriter.underway
        rw [if_pos (.inr rfl)]
        exact Nat.succ.inj started
      · intro _
        exact queued
      · exact written
      · exact feeding.closings
    · dsimp only
      have queue : writer.queue.tail =
          writer.pushed.drop (writer.completed + 1) := by
        rw [feeding.queue, List.tail_drop]
      split
      · rename_i empty
        have drained : Feeding { writer with
            strand, queue := writer.queue.tail
            completed := writer.completed + 1 } := by
          constructor
          · exact queue
          · exact more
          · dsimp only
            rw [queue, List.drop_eq_nil_iff] at empty
            rw [feeding.handed, List.take_of_length_le empty,
              List.take_of_length_le (Nat.le_succ_of_le empty)]
          · unfold QueuedWriter.underway
            rw [if_pos (.inl empty)]
            exact Nat.succ.inj started
          · intro failed
            exact absurd failed sound
          · exact written
          · exact feeding.closings
        split
        · exact drained.connectionClose (fun _ => empty)
        · exact drained
      · rename_i rest
        apply Waiting.spawnWriter
        constructor
        · exact queue
        · rw [queue, List.drop_eq_nil_iff] at rest
          exact Nat.lt_of_not_le rest
        · exact feeding.handed
        · exact Nat.succ.inj started
        · exact Bool.eq_false_iff.mpr sound
        · exact written
        · exact feeding.closings

/-- A handler that neither pushes nor completes leaves the strand. -/
theorem Feeding.skip (feeding : Feeding writer) {handler : Posted T}
    {strand : List (Posted T)} (posted : writer.strand = handler :: strand)
    (other : handler.object = none) (other' : handler.completion = false) :
    Feeding { writer with strand } := by
  constructor
  · exact feeding.queue
  · exact feeding.bound
  · exact feeding.handed
  · have before := feeding.underway
    rw [QueuedWriter.underway, posted, List.countP_cons_of_neg (by
      simp [other'])] at before
    exact before
  · exact feeding.stuck
  · rw [feeding.written, posted, List.filterMap_cons_none other]
  · exact feeding.closings

theorem Feeding.close (feeding : Feeding writer) :
    Feeding writer.close := by
  have same : Feeding { writer with closing := true } :=
    ⟨feeding.queue, feeding.bound, feeding.handed, feeding.underway,
      feeding.stuck, feeding.written, feeding.closings⟩
  have same' : Feeding { writer with closing := true, last := true } :=
    ⟨feeding.queue, feeding.bound, feeding.handed, feeding.underway,
      feeding.stuck, feeding.written, feeding.closings⟩
  unfold QueuedWriter.close
  dsimp only
  split
  · exact same
  · split
    · rename_i empty
      exact same'.connectionClose (fun _ => empty)
    · exact same'

theorem Feeding.terminate (feeding : Feeding writer) :
    Feeding writer.terminate := by
  have same : Feeding { writer with last := true, terminated := true } :=
    ⟨feeding.queue, feeding.bound, feeding.handed, feeding.underway,
      feeding.stuck, feeding.written, feeding.closings⟩
  apply same.connectionClose
  intro running
  cases running

/-- What is posted waits behind what has been posted before. -/
theorem Feeding.post (feeding : Feeding writer) (handler : Posted T)
    {writes written : List T}
    (calls : written = writer.written ++ handler.object.toList)
    (completes : writes.length +
      (if handler.completion then 1 else 0) = writer.writes.length) :
    Feeding (QueuedWriter.post { writer with writes, written } handler) := by
  constructor
  · exact feeding.queue
  · exact feeding.bound
  · exact feeding.handed
  · have before := feeding.underway
    unfold QueuedWriter.underway QueuedWriter.post at *
    dsimp only
    rw [List.countP_append, List.countP_singleton, ← before]
    omega
  · exact feeding.stuck
  · unfold QueuedWriter.post
    dsimp only
    rw [calls, feeding.written, List.filterMap_append, List.append_assoc]
    cases handler <;> rfl
  · exact feeding.closings

theorem feeding_step {action : Action T}
    (taken : step writer action = some next) (feeding : Feeding writer) :
    Feeding next := by
  cases action with
  | write object =>
      cases taken
      exact feeding.post (.push object) rfl rfl
  | close =>
      cases taken
      exact feeding.post .close (by simp [Posted.object]) rfl
  | terminate =>
      cases taken
      exact feeding.post .terminate (by simp [Posted.object]) rfl
  | complete index failed =>
      simp only [step] at taken
      split at taken
      · rename_i there
        cases taken
        apply feeding.post (.handleWrite failed)
        · simp [Posted.object]
        · simp only [Posted.completion, if_pos]
          rw [List.length_eraseIdx_of_lt there]
          omega
      · cases taken
  | run =>
      simp only [step] at taken
      split at taken
      · cases taken
      · rename_i handler strand posted
        cases taken
        cases handler with
        | push object => exact feeding.push posted
        | handleWrite failed => exact feeding.handleWrite posted
        | close => exact (feeding.skip posted rfl rfl).close
        | terminate => exact (feeding.skip posted rfl rfl).terminate

/-- In every run, the objects are handed over in the order they were pushed
and once each, one at a time, the next when the earlier ones have been
written; and before `terminate`, the connection is closed only when all of
them have been written. -/
theorem queued_writer_fifo (writer : QueuedWriter T)
    (run : Runs step (fun _ _ => True) initial writer) :
    writer.pushed <+: writer.written ∧
    writer.handed <+: writer.pushed ∧
    writer.underway ≤ 1 ∧
    (∀ index < writer.pushed.length, index ≤ writer.completed →
      index < writer.handed.length) ∧
    ∀ closing ∈ writer.closings, closing.terminated = false →
      closing.completed = closing.pushed := by
  have feeding : Feeding writer := by
    apply run.invariant feeding_initial
    intro before action after held _ taken
    exact feeding_step taken held
  refine ⟨?_, ?_, ?_, ?_, feeding.closings⟩
  · rw [feeding.written]
    exact List.prefix_append _ _
  · rw [feeding.handed]
    exact List.take_prefix _ _
  · rw [feeding.underway]
    split
    · exact Nat.zero_le 1
    · exact Nat.le_refl 1
  · intro index pushed completed
    rw [feeding.handed, List.length_take]
    omega

namespace Sample

/-- Two objects are written, and the connection is closed. -/
def written : List (Action Nat) :=
  [.write 1, .write 2, .close, .run, .run, .complete 0 false, .run, .run,
    .complete 0 false, .run]

/-- The only write fails, and `close` is called afterwards. -/
def failing : List (Action Nat) :=
  [.write 1, .run, .complete 0 true, .run, .close, .run]

end Sample

theorem queued_writer_fifo_sample :
    ∃ writer : QueuedWriter Nat, writer.handed = [1, 2] ∧
      writer.closings =
        [{ pushed := 2, completed := 2, terminated := false }] ∧
      writer.handed <+: writer.pushed := by
  have executed : (execute step initial Sample.written).map
      (fun writer => (writer.handed, writer.closings)) =
      some ([1, 2],
        [{ pushed := 2, completed := 2, terminated := false }]) := by
    decide +kernel
  obtain ⟨writer, reached, same⟩ := Option.map_eq_some_iff.mp executed
  simp only [Prod.mk.injEq] at same
  have run : Runs step (fun _ _ => True) initial writer :=
    Runs.of_execute (fun _ _ _ => trivial) reached
  obtain ⟨_, handed, _⟩ := queued_writer_fifo writer run
  exact ⟨writer, same.1, same.2, handed⟩

/-! ## Closing after `close` -/

/-- No error of a write is handled before the connection is closed. -/
def Sound (writer : QueuedWriter T) : Action T → Prop
  | .run =>
      writer.strand.head? = some (.handleWrite true) → writer.closings ≠ []
  | _ => True

instance [DecidableEq T] (writer : QueuedWriter T) :
    ∀ action, Decidable (Sound writer action)
  | .run => inferInstanceAs (Decidable (_ → _))
  | .write _ => instDecidableTrue
  | .close => instDecidableTrue
  | .terminate => instDecidableTrue
  | .complete _ _ => instDecidableTrue

/-- Closing the connection is put off only as long as something is left to
write. -/
structure Closable (writer : QueuedWriter T) : Prop where
  closing : writer.closing = true → writer.last = true
  drained : writer.last = true → writer.queue = [] → writer.closings ≠ []
  failed : writer.failed = true → writer.closings ≠ []

theorem closable_initial : Closable (initial : QueuedWriter T) := by
  constructor
  · intro closing
    cases closing
  · intro last
    cases last
  · intro failed
    cases failed

theorem closable_connectionClose (last : writer.last = true) :
    Closable writer.connectionClose := by
  have closed : writer.connectionClose.closings ≠ [] := by
    simp [connectionClose]
  exact ⟨fun _ => last, fun _ _ => closed, fun _ => closed⟩

theorem Closable.spawnWriter (closable : Closable writer) :
    Closable writer.spawnWriter := by
  unfold QueuedWriter.spawnWriter
  split
  · exact closable
  · exact ⟨closable.closing, closable.drained, closable.failed⟩

theorem Closable.push (closable : Closable writer) (object : T) :
    Closable (writer.push object) := by
  unfold QueuedWriter.push
  have pushed : Closable { writer with
      queue := writer.queue ++ [object]
      pushed := writer.pushed ++ [object] } := by
    refine ⟨closable.closing, ?_, closable.failed⟩
    intro _ empty
    simp at empty
  dsimp only
  split
  · exact pushed.spawnWriter
  · exact pushed

theorem Closable.close (closable : Closable writer) :
    Closable writer.close := by
  unfold QueuedWriter.close
  dsimp only
  split
  · rename_i last
    exact ⟨fun _ => last, closable.drained, closable.failed⟩
  · split
    · apply closable_connectionClose
      rfl
    · rename_i queued
      refine ⟨fun _ => rfl, ?_, closable.failed⟩
      intro _ empty
      exact absurd empty queued

theorem Closable.handleWrite (closable : Closable writer) {failed : Bool}
    (sound : failed = true → writer.closings ≠ []) :
    Closable (writer.handleWrite failed) := by
  unfold QueuedWriter.handleWrite
  split
  · rename_i failure
    exact ⟨closable.closing, closable.drained, fun _ => sound failure⟩
  · dsimp only
    split
    · split
      · rename_i last
        exact closable_connectionClose last
      · rename_i unlast
        exact ⟨closable.closing, fun last => absurd last unlast,
          closable.failed⟩
    · rename_i rest
      have popped : Closable { writer with
          queue := writer.queue.tail
          completed := writer.completed + 1 } :=
        ⟨closable.closing, fun _ empty => absurd empty rest,
          closable.failed⟩
      exact popped.spawnWriter

theorem closable_step {action : Action T} (sound : Sound writer action)
    (taken : step writer action = some next) (closable : Closable writer) :
    Closable next := by
  cases action with
  | write object =>
      cases taken
      exact ⟨closable.closing, closable.drained, closable.failed⟩
  | close =>
      cases taken
      exact ⟨closable.closing, closable.drained, closable.failed⟩
  | terminate =>
      cases taken
      exact ⟨closable.closing, closable.drained, closable.failed⟩
  | complete index failed =>
      simp only [step] at taken
      split at taken
      · cases taken
        exact ⟨closable.closing, closable.drained, closable.failed⟩
      · cases taken
  | run =>
      simp only [step] at taken
      split at taken
      · cases taken
      · rename_i handler strand posted
        cases taken
        have taken : Closable { writer with strand } :=
          ⟨closable.closing, closable.drained, closable.failed⟩
        cases handler with
        | push object => exact taken.push object
        | close => exact taken.close
        | terminate => exact closable_connectionClose rfl
        | handleWrite failed =>
            apply taken.handleWrite
            intro failure
            apply sound
            rw [posted, failure]
            rfl

/-- In every run in which no write fails before the connection is closed, it
is closed when `close` has been processed and no write is outstanding. -/
theorem queued_writer_closes (writer : QueuedWriter T)
    (run : Runs step Sound initial writer) :
    writer.closing = true → writer.underway = 0 →
      writer.closings ≠ [] := by
  have feeding : Feeding writer := by
    apply run.invariant feeding_initial
    intro before action after held _ taken
    exact feeding_step taken held
  have closable : Closable writer := by
    apply run.invariant closable_initial
    intro before action after held sound taken
    exact closable_step sound taken held
  intro closing idle
  rw [feeding.underway] at idle
  split at idle
  · rename_i stopped
    obtain empty | failed := stopped
    · exact closable.drained (closable.closing closing) empty
    · exact closable.failed failed
  · cases idle

theorem queued_writer_closes_sample :
    ∃ writer : QueuedWriter Nat, writer.handed = [1, 2] ∧
      writer.closing = true ∧ writer.underway = 0 ∧
      writer.closings ≠ [] := by
  have executed : (executeWhile step Sound initial Sample.written).map
      (fun writer =>
        (writer.handed, writer.closing, writer.underway)) =
      some ([1, 2], true, 0) := by
    decide +kernel
  obtain ⟨writer, reached, same⟩ := Option.map_eq_some_iff.mp executed
  simp only [Prod.mk.injEq] at same
  obtain ⟨handed, closing, idle⟩ := same
  have run : Runs step Sound initial writer :=
    Runs.of_executeWhile reached
  exact ⟨writer, handed, closing, idle,
    queued_writer_closes writer run closing idle⟩

/-- After an error the queue is never empty again, and `close` is put off
forever. -/
theorem queued_writer_closes_counterexample :
    ¬ ∀ writer : QueuedWriter Nat,
      Runs step (fun _ action => action ≠ .terminate) initial writer →
        writer.closing = true → writer.underway = 0 →
          writer.closings ≠ [] := by
  intro claimed
  have executed : (execute step initial Sample.failing).map
      (fun writer =>
        (writer.closing, writer.underway, writer.closings)) =
      some (true, 0, []) := by
    decide +kernel
  obtain ⟨writer, reached, same⟩ := Option.map_eq_some_iff.mp executed
  simp only [Prod.mk.injEq] at same
  obtain ⟨closing, idle, unclosed⟩ := same
  have run : Runs step (fun _ action => action ≠ .terminate) initial
      writer := by
    apply Runs.of_execute _ reached
    intro _ action member same
    rw [same] at member
    simp [Sample.failing] at member
  exact claimed writer run closing idle unclosed

end Bacs.Asio.QueuedWriter
