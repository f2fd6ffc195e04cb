import Bacs.Broker.Processing

/-!
# Requests after `Cancel`

A worker looks at the canceler before its select on requests and canceler.
One that has already passed this check when `Cancel` returns may still choose
a request: nothing else lets a request start after `Cancel`.
-/

namespace Bacs.Broker.WorkerPool

open Foundation

variable {Request : Type} {pool next : Pool Request}
  {action : Action Request}

/-- Whatever happens from here on, `Do` is called only for requests that were
received before. -/
def Stops (pool : Pool Request) : Prop :=
  ∀ final, Runs step (fun _ _ => True) pool final →
    ∀ worker, own worker final.started <+: own worker pool.received

/-- No worker is between its check of the canceler and its other select, or
there will be no request for it. -/
def Unselecting (pool : Pool Request) : Prop :=
  .selecting ∉ pool.workers ∨ pool.Drained

/-! ## No worker is selecting -/

structure Stopped (pool : Pool Request) : Prop where
  canceled : pool.canceled = true
  parking : Parking pool
  unselecting : Unselecting pool

theorem Stopped.not_parked (stopped : Stopped pool) :
    .parked ∉ pool.workers := by
  intro parked
  obtain ⟨_, _, going⟩ := stopped.parking parked
  rw [stopped.canceled] at going
  cases going

theorem stopped_steps (taken : Steps pool action next)
    (stopped : Stopped pool) :
    Stopped next ∧ next.received = pool.received := by
  have canceled := canceled_steps taken stopped.canceled
  have parking := parking_steps taken stopped.parking
  have drained := drained_steps taken
  have kept (fewer : .selecting ∈ next.workers → .selecting ∈ pool.workers) :
      Stopped next := by
    refine ⟨canceled, parking, ?_⟩
    obtain nobody | finished := stopped.unselecting
    · exact .inl (fun member => nobody (fewer member))
    · exact .inr (drained finished)
  have woken (member : .selecting ∈ pool.workers.map Pool.wake) :
      .selecting ∈ pool.workers := by
    obtain ⟨before, there, same⟩ := List.mem_map.mp member
    cases before with
    | selecting => exact there
    | _ => cases same
  cases taken with
  | handOver unclosed there =>
      exact absurd (List.mem_of_getElem? there) stopped.not_parked
  | closes => exact ⟨kept woken, rfl⟩
  | cancels uncalled => exact ⟨kept woken, rfl⟩
  | spawns there =>
      constructor
      · apply kept
        intro member
        simpa using member
      · rfl
  | moves there moves =>
      cases moves with
      | checks going =>
          rw [stopped.canceled] at going
          cases going
      | _ => exact ⟨kept (mem_of_mem_set (by simp)), rfl⟩
  | receives there buffer closed =>
      obtain nobody | ⟨_, empty⟩ := stopped.unselecting
      · exact absurd (List.mem_of_getElem? there) nobody
      · rw [empty] at buffer
        cases buffer
  | starts there => exact ⟨kept (mem_of_mem_set (by simp)), rfl⟩
  | ends there => exact ⟨kept (mem_of_mem_set (by simp)), rfl⟩
  | exits there => exact ⟨kept (mem_of_mem_set (by simp)), rfl⟩
  | _ => exact ⟨kept id, rfl⟩

theorem Stopped.run {final : Pool Request}
    {allowed : Pool Request → Action Request → Prop}
    (stopped : Stopped pool) (run : Runs step allowed pool final) :
    final.received = pool.received := by
  have held : Stopped final ∧ final.received = pool.received := by
    apply run.invariant ⟨stopped, rfl⟩
    intro before action after held _ taken
    obtain ⟨stopped, same⟩ := held
    obtain ⟨stopped, received⟩ := stopped_steps (step_steps taken) stopped
    exact ⟨stopped, received.trans same⟩
  exact held.2

/-! ## A worker is selecting -/

/-- A worker that is selecting takes a request that is there, and starts it. -/
theorem selecting_starts {worker : Nat} {request : Request}
    {rest : List Request}
    (there : pool.workers[worker]? = some .selecting)
    (buffer : pool.requests.buffer = request :: rest) :
    ∃ final, Runs step (fun _ _ => True) pool final ∧
      final.started = pool.started ++ [(worker, request)] := by
  have inside := (List.getElem?_eq_some_iff.mp there).1
  have received : ∃ next, step pool (.run worker) = some next ∧
      next.workers[worker]? = some (.received request) ∧
        next.started = pool.started := by
    simp only [step, there, Option.bind_some, runWorker, Channel.receive,
      buffer]
    exact ⟨_, rfl, by simp [inside], rfl⟩
  obtain ⟨next, taken, holds, same⟩ := received
  have started : ∃ final, step next (.run worker) = some final ∧
      final.started = next.started ++ [(worker, request)] := by
    simp [step, holds, runWorker]
  obtain ⟨final, taken', started⟩ := started
  refine ⟨final, ?_, ?_⟩
  · exact (Runs.single trivial taken).trans (.single trivial taken')
  · rw [started, same]

theorem selecting_can_start [Nonempty Request] {worker : Nat}
    (there : pool.workers[worker]? = some .selecting)
    (nobody : .parked ∉ pool.workers) (more : ¬pool.Drained) :
    ∃ final request, Runs step (fun _ _ => True) pool final ∧
      final.started = pool.started ++ [(worker, request)] := by
  cases buffer : pool.requests.buffer with
  | cons request rest =>
      obtain ⟨final, run, started⟩ := selecting_starts there buffer
      exact ⟨final, request, run, started⟩
  | nil =>
      have unclosed : pool.requests.closed = false := by
        cases closed : pool.requests.closed with
        | false => rfl
        | true => exact absurd ⟨closed, buffer⟩ more
      have request : Request := Classical.choice inferInstance
      have unparked : ¬∃ running ∈ pool.workers, running.isParked := by
        intro found
        obtain ⟨running, member, parked⟩ := found
        cases running with
        | parked => exact nobody member
        | _ => cases parked
      obtain ⟨next, taken, same, sent, started⟩ :
          ∃ next, step pool (.send request none) = some next ∧
            next.workers = pool.workers ∧
              next.requests.buffer = request :: [] ∧
                next.started = pool.started := by
        simp [step, unclosed, unparked, buffer]
      have there : next.workers[worker]? = some .selecting := by
        rw [same]
        exact there
      obtain ⟨final, run, final'⟩ := selecting_starts there sent
      refine ⟨final, request, ?_, ?_⟩
      · exact (Runs.single trivial taken).trans run
      · rw [final', started]

/-! ## Every run -/

theorem own_started_prefix (accounted : Accounted pool) (worker : Nat) :
    own worker pool.started <+: own worker pool.received := by
  rw [accounted.received]
  exact List.prefix_append _ _

/-- Once `Cancel` has returned, no `Do` starts for a request that was not
received before, exactly where no worker is between its two selects. -/
theorem cancel_stops_iff [Nonempty Request] (pool : Pool Request)
    (run : Runs step (fun _ _ => True) .initial pool)
    (returned : pool.canceling = .returned) :
    Stops pool ↔ Unselecting pool := by
  have working := run_working run
  have canceled : pool.canceled = true := by
    simp [Pool.canceled, returned]
  constructor
  · intro stops
    by_contra selecting
    obtain ⟨member, more⟩ := not_or.mp selecting
    rw [not_not] at member
    obtain ⟨worker, there⟩ := List.getElem?_of_mem member
    have nobody : .parked ∉ pool.workers := by
      intro parked
      obtain ⟨_, _, going⟩ := working.parking parked
      rw [canceled] at going
      cases going
    obtain ⟨final, request, continued, started⟩ :=
      selecting_can_start there nobody more
    have passed : own worker pool.received = own worker pool.started := by
      rw [working.accounted.received]
      simp [held, there, Running.pending]
    have shorter := (stops final continued worker).length_le
    rw [started, own_append, passed] at shorter
    simp only [List.length_append, if_true, List.length_singleton] at shorter
    omega
  · intro unselecting final continued worker
    have stopped : Stopped pool := ⟨canceled, working.parking, unselecting⟩
    have same := stopped.run continued
    have accounted := (run_working (run.trans continued)).accounted
    rw [← same]
    exact own_started_prefix accounted worker

namespace Sample

/-- `Cancel` is called while the only worker has looked at the canceler. -/
def late : List (Action Nat) :=
  [.callAdd, .add 0, .add 0, .add 0, .doAll, .run 0, .run 0, .send 1 none,
    .cancel, .cancel]

/-- The worker is doing its first request when `Cancel` is called. -/
def inTime : List (Action Nat) :=
  [.callAdd, .add 0, .add 0, .add 0, .doAll, .run 0, .run 0, .send 1 none,
    .run 0, .run 0, .send 2 none, .cancel, .cancel]

end Sample

theorem cancel_stops_fails : ∃ pool : Pool Nat,
    Runs step (fun _ _ => True) .initial pool ∧
      pool.canceling = .returned ∧ ¬Stops pool := by
  have executed : ((execute step .initial Sample.late).bind fun pool =>
      (execute step pool [.run 0, .run 0]).map fun final =>
        (pool.canceling, own 0 pool.received, own 0 final.started)) =
          some (.returned, [], [1]) := by
    decide +kernel
  obtain ⟨pool, reached, executed⟩ := Option.bind_eq_some_iff.mp executed
  obtain ⟨final, continued, same⟩ := Option.map_eq_some_iff.mp executed
  simp only [Prod.mk.injEq] at same
  obtain ⟨returned, received, started⟩ := same
  refine ⟨pool, ?_, returned, ?_⟩
  · exact Runs.of_execute (fun _ _ _ => trivial) reached
  · intro stops
    have earlier := stops final
      (Runs.of_execute (fun _ _ _ => trivial) continued) 0
    rw [received, started] at earlier
    simp at earlier

theorem cancel_stops_sample : ∃ pool : Pool Nat,
    pool.canceling = .returned ∧ pool.requests.buffer = [2] ∧
      Stops pool := by
  have executed : (execute step .initial Sample.inTime).map
      (fun pool => (pool.canceling, pool.requests.buffer, pool.workers)) =
        some (.returned, [2], [.doing 1]) := by
    decide +kernel
  obtain ⟨pool, reached, same⟩ := Option.map_eq_some_iff.mp executed
  simp only [Prod.mk.injEq] at same
  obtain ⟨returned, buffer, workers⟩ := same
  have run : Runs step (fun _ _ => True) .initial pool :=
    Runs.of_execute (fun _ _ _ => trivial) reached
  have unselecting : Unselecting pool := by
    left
    rw [workers]
    simp
  exact ⟨pool, returned, buffer,
    (cancel_stops_iff pool run returned).mpr unselecting⟩

end Bacs.Broker.WorkerPool
