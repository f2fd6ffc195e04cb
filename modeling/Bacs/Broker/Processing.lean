import Bacs.Broker.WorkerPool

/-!
# Processing requests once

What a worker receives is what it passes to `Do`, one request after the
other.  The wait group counts the workers that have not left their loop, and a
worker leaves it only when there is nothing more to receive or the pool is
canceled.
-/

namespace Bacs.Broker.WorkerPool

open Foundation

variable {Request : Type} {pool next : Pool Request}
  {action : Action Request}

/-! ## Each request once -/

/-- The requests in a log that belong to a worker. -/
def own (worker : Nat) (log : List (Nat × Request)) : List Request :=
  (log.filter (·.1 = worker)).map (·.2)

theorem own_append (worker index : Nat) (log : List (Nat × Request))
    (request : Request) :
    own worker (log ++ [(index, request)]) =
      own worker log ++ if index = worker then [request] else [] := by
  by_cases same : index = worker <;> simp [own, same]

/-- The request that a worker has received and not yet passed to `Do`. -/
def Running.pending : Running Request → List Request
  | .received request => [request]
  | _ => []

/-- The request that a worker is doing. -/
def Running.current : Running Request → List Request
  | .doing request => [request]
  | _ => []

/-- What the goroutine of a worker holds; a worker that is not there holds
nothing. -/
def held (holds : Running Request → List Request)
    (workers : List (Running Request)) (worker : Nat) : List Request :=
  (workers[worker]?).elim [] holds

theorem held_set {holds : Running Request → List Request}
    {workers : List (Running Request)} {index : Nat}
    {before after : Running Request}
    (there : workers[index]? = some before) (worker : Nat) :
    held holds (workers.set index after) worker =
      if index = worker then holds after else held holds workers worker := by
  have bound := (List.getElem?_eq_some_iff.mp there).1
  by_cases same : index = worker
  · subst same
    simp [held, bound]
  · simp [held, same]

theorem held_set_same {holds : Running Request → List Request}
    {workers : List (Running Request)} {index : Nat}
    {before after : Running Request}
    (there : workers[index]? = some before)
    (same : holds after = holds before) (worker : Nat) :
    held holds (workers.set index after) worker =
      held holds workers worker := by
  rw [held_set there]
  split
  · rename_i here
    subst here
    rw [same, held, there]
    rfl
  · rfl

theorem held_wake {holds : Running Request → List Request}
    (kept : ∀ running, holds (Pool.wake running) = holds running)
    {workers : List (Running Request)} (worker : Nat) :
    held holds (workers.map Pool.wake) worker =
      held holds workers worker := by
  rw [held, List.getElem?_map]
  cases found : workers[worker]? with
  | none => simp [held, found]
  | some running => simp [held, found, kept]

theorem held_append {holds : Running Request → List Request}
    (nothing : holds .starting = []) {workers : List (Running Request)}
    (worker : Nat) :
    held holds (workers ++ [.starting]) worker =
      held holds workers worker := by
  unfold held
  by_cases inside : worker < workers.length
  · rw [List.getElem?_append_left inside]
  · have missing : workers[worker]? = none :=
      List.getElem?_eq_none (Nat.le_of_not_lt inside)
    rw [List.getElem?_append_right (Nat.le_of_not_lt inside), missing]
    cases worker - workers.length <;> simp [nothing]

/-- A worker takes up a request that one log has and the other has not. -/
theorem own_takes {holds : Running Request → List Request}
    {workers : List (Running Request)} {taken passed : List (Nat × Request)}
    {index : Nat} {before after : Running Request} {request : Request}
    (there : workers[index]? = some before)
    (free : holds before = []) (busy : holds after = [request])
    (worker : Nat) (balanced : own worker taken =
      own worker passed ++ held holds workers worker) :
    own worker (taken ++ [(index, request)]) =
      own worker passed ++ held holds (workers.set index after) worker := by
  rw [own_append, held_set there, balanced]
  split
  · rename_i here
    subst here
    simp [held, there, free, busy]
  · simp

theorem own_passes {holds : Running Request → List Request}
    {workers : List (Running Request)} {taken passed : List (Nat × Request)}
    {index : Nat} {before after : Running Request} {request : Request}
    (there : workers[index]? = some before)
    (busy : holds before = [request]) (free : holds after = [])
    (worker : Nat) (balanced : own worker taken =
      own worker passed ++ held holds workers worker) :
    own worker taken = own worker (passed ++ [(index, request)]) ++
      held holds (workers.set index after) worker := by
  rw [own_append, held_set there, balanced]
  split
  · rename_i here
    subst here
    simp [held, there, free, busy]
  · simp

/-- A worker goes on without taking up or passing on anything. -/
theorem own_keeps {holds : Running Request → List Request}
    {workers : List (Running Request)} {taken passed : List (Nat × Request)}
    {index : Nat} {before after : Running Request}
    (there : workers[index]? = some before)
    (same : holds after = holds before)
    (worker : Nat) (balanced : own worker taken =
      own worker passed ++ held holds workers worker) :
    own worker taken =
      own worker passed ++ held holds (workers.set index after) worker := by
  rw [held_set_same there same]
  exact balanced

structure Accounted (pool : Pool Request) : Prop where
  sent : (pool.sent : Multiset Request) =
    ↑(pool.received.map (·.2)) + ↑pool.requests.buffer
  received : ∀ worker, own worker pool.received =
    own worker pool.started ++ held Running.pending pool.workers worker
  started : ∀ worker, own worker pool.started =
    own worker pool.ended ++ held Running.current pool.workers worker

theorem accounted_initial : Accounted (Pool.initial : Pool Request) := by
  constructor <;> simp [Pool.initial, Channel.make, own, held]

theorem Moves.holds_nothing {before after : Running Request}
    (moves : Moves pool before after) :
    before.pending = [] ∧ after.pending = [] ∧
      before.current = [] ∧ after.current = [] := by
  cases moves <;> exact ⟨rfl, rfl, rfl, rfl⟩

theorem wake_pending (running : Running Request) :
    (Pool.wake running).pending = running.pending := by
  cases running <;> rfl

theorem wake_current (running : Running Request) :
    (Pool.wake running).current = running.current := by
  cases running <;> rfl

theorem Accounted.of_same (accounted : Accounted pool)
    (sent : next.sent = pool.sent) (received : next.received = pool.received)
    (started : next.started = pool.started) (ended : next.ended = pool.ended)
    (buffer : next.requests.buffer = pool.requests.buffer)
    (pending : ∀ worker, held Running.pending next.workers worker =
      held Running.pending pool.workers worker)
    (current : ∀ worker, held Running.current next.workers worker =
      held Running.current pool.workers worker) :
    Accounted next := by
  constructor
  · rw [sent, received, buffer]
    exact accounted.sent
  · intro worker
    rw [received, started, pending]
    exact accounted.received worker
  · intro worker
    rw [started, ended, current]
    exact accounted.started worker

theorem accounted_steps (taken : Steps pool action next)
    (accounted : Accounted pool) : Accounted next := by
  have received := accounted.received
  have started := accounted.started
  cases taken with
  | handOver unclosed there =>
      constructor
      · simp only [List.map_append, ← Multiset.coe_add, accounted.sent]
        exact add_right_comm _ _ _
      · intro worker
        exact own_takes there rfl rfl worker (received worker)
      · intro worker
        apply own_keeps there _ worker (started worker)
        rfl
  | queue unclosed nobody =>
      constructor
      · simp only [← Multiset.coe_add, accounted.sent]
        exact add_assoc _ _ _
      · exact received
      · exact started
  | closes =>
      exact accounted.of_same rfl rfl rfl rfl rfl
        (held_wake wake_pending) (held_wake wake_current)
  | cancels uncalled =>
      exact accounted.of_same rfl rfl rfl rfl rfl
        (held_wake wake_pending) (held_wake wake_current)
  | spawns there =>
      exact accounted.of_same rfl rfl rfl rfl rfl
        (held_append rfl) (held_append rfl)
  | moves there moves =>
      obtain ⟨before, after, before', after'⟩ := moves.holds_nothing
      constructor
      · exact accounted.sent
      · intro worker
        exact own_keeps there (after.trans before.symm) worker
          (received worker)
      · intro worker
        exact own_keeps there (after'.trans before'.symm) worker
          (started worker)
  | receives there buffer closed =>
      constructor
      · rw [accounted.sent, buffer]
        simp only [List.map_append, ← Multiset.coe_add,
          ← Multiset.cons_coe, ← Multiset.singleton_add]
        exact (add_assoc _ _ _).symm
      · intro worker
        exact own_takes there rfl rfl worker (received worker)
      · intro worker
        apply own_keeps there _ worker (started worker)
        rfl
  | starts there =>
      constructor
      · exact accounted.sent
      · intro worker
        exact own_passes there rfl rfl worker (received worker)
      · intro worker
        exact own_takes there rfl rfl worker (started worker)
  | ends there =>
      constructor
      · exact accounted.sent
      · intro worker
        apply own_keeps there _ worker (received worker)
        rfl
      · intro worker
        exact own_passes there rfl rfl worker (started worker)
  | exits there =>
      constructor
      · exact accounted.sent
      · intro worker
        apply own_keeps there _ worker (received worker)
        rfl
      · intro worker
        apply own_keeps there _ worker (started worker)
        rfl
  | _ =>
      exact ⟨accounted.sent, received, started⟩

/-- A request that was received stays with its worker until it is passed to
`Do`. -/
theorem received_stays {worker : Nat} {request : Request}
    (taken : Steps pool action next)
    (there : pool.workers[worker]? = some (.received request)) :
    next.workers[worker]? = some (.received request) ∨
      next.started = pool.started ++ [(worker, request)] := by
  have other {index : Nat} {before after : Running Request}
      (here : pool.workers[index]? = some before)
      (different : before ≠ .received request) :
      (pool.workers.set index after)[worker]? = some (.received request) := by
    have apart : index ≠ worker := by
      intro same
      subst same
      rw [here] at there
      exact different (Option.some.inj there)
    rw [List.getElem?_set_ne apart]
    exact there
  have woken :
      (pool.workers.map Pool.wake)[worker]? = some (.received request) := by
    rw [List.getElem?_map, there]
    rfl
  cases taken with
  | handOver unclosed here =>
      left
      exact other here (by simp)
  | closes =>
      left
      exact woken
  | cancels uncalled =>
      left
      exact woken
  | spawns here =>
      left
      have inside := (List.getElem?_eq_some_iff.mp there).1
      exact (List.getElem?_append_left inside).trans there
  | moves here moves =>
      left
      apply other here
      intro same
      subst same
      cases moves
  | receives here buffer closed =>
      left
      exact other here (by simp)
  | @starts index started here =>
      by_cases same : index = worker
      · subst same
        rw [here] at there
        cases there
        right
        rfl
      · left
        exact (List.getElem?_set_ne same).trans there
  | ends here =>
      left
      exact other here (by simp)
  | exits here =>
      left
      exact other here (by simp)
  | _ =>
      left
      exact there

/-! ## The wait group -/

def Running.live : Running Request → Nat
  | .done => 0
  | _ => 1

/-- Whether a call of `Add` has counted its worker without starting it. -/
def Adding.ahead : Adding → Nat
  | .counted => 1
  | _ => 0

def Counted (pool : Pool Request) : Prop :=
  pool.waitGroup =
    (pool.workers.map Running.live).sum + (pool.adding.map Adding.ahead).sum

theorem counted_initial : Counted (Pool.initial : Pool Request) :=
  rfl

theorem wake_live (running : Running Request) :
    (Pool.wake running).live = running.live := by
  cases running <;> rfl

theorem map_wake_live (workers : List (Running Request)) :
    (workers.map Pool.wake).map Running.live = workers.map Running.live := by
  rw [List.map_map]
  apply List.map_congr_left
  intro running _
  exact wake_live running

theorem Moves.live {before after : Running Request}
    (moves : Moves pool before after) : after.live = before.live := by
  cases moves <;> rfl

theorem Counted.of_live (counted : Counted pool) {index : Nat}
    {before : Running Request} (there : pool.workers[index]? = some before)
    (after : Running Request) (same : after.live = before.live) :
    pool.waitGroup =
      ((pool.workers.set index after).map Running.live).sum +
        (pool.adding.map Adding.ahead).sum := by
  rw [sum_map_set_same Running.live there same]
  exact counted

theorem counted_steps (taken : Steps pool action next)
    (counted : Counted pool) : Counted next := by
  cases taken with
  | handOver unclosed there => exact counted.of_live there _ rfl
  | closes =>
      unfold Counted
      rw [map_wake_live]
      exact counted
  | cancels uncalled =>
      unfold Counted
      rw [map_wake_live]
      exact counted
  | calls going =>
      unfold Counted at counted ⊢
      simpa [Adding.ahead] using counted
  | counts there =>
      have moved := sum_map_set Adding.ahead .counted there
      simp only [Adding.ahead] at moved
      unfold Counted at counted ⊢
      dsimp only
      omega
  | spawns there =>
      have moved := sum_map_set Adding.ahead .spawned there
      unfold Counted at counted ⊢
      simp only [List.map_append, List.sum_append, List.map_cons,
        List.map_nil, List.sum_cons, List.sum_nil]
      simp only [Adding.ahead, Running.live] at *
      omega
  | adds there =>
      have moved := sum_map_set Adding.ahead .returned there
      unfold Counted at counted ⊢
      simp only [Adding.ahead] at *
      omega
  | moves there moves => exact counted.of_live there _ moves.live
  | receives there buffer closed => exact counted.of_live there _ rfl
  | starts there => exact counted.of_live there _ rfl
  | ends there => exact counted.of_live there _ rfl
  | exits there =>
      have moved := sum_map_set Running.live .done there
      unfold Counted at counted ⊢
      simp only [Running.live] at *
      omega
  | _ => exact counted

/-- Where the wait group counts nobody, all workers have left. -/
theorem Counted.nobody (counted : Counted pool)
    (nobody : pool.waitGroup = 0) {running : Running Request}
    (member : running ∈ pool.workers) : running = .done := by
  have none : (pool.workers.map Running.live).sum = 0 := by
    unfold Counted at counted
    omega
  have dead : running.live = 0 :=
    List.sum_eq_zero_iff_forall_eq_nat.mp none _ (List.mem_map_of_mem member)
  cases running with
  | done => rfl
  | _ => cases dead

/-! ## Nothing more to do -/

def Finished (pool : Pool Request) : Prop :=
  pool.canceled = true ∨ pool.Drained

/-- Once nothing will be taken any more, nothing ever will. -/
theorem drained_steps (taken : Steps pool action next)
    (drained : pool.Drained) : next.Drained := by
  obtain ⟨closed, empty⟩ := drained
  cases taken with
  | queue unclosed nobody =>
      rw [closed] at unclosed
      cases unclosed
  | closes => exact ⟨rfl, empty⟩
  | receives there buffer same =>
      rw [empty] at buffer
      cases buffer
  | _ => exact ⟨closed, empty⟩

theorem canceled_steps (taken : Steps pool action next)
    (canceled : pool.canceled = true) : next.canceled = true := by
  cases taken with
  | cancels uncalled => rfl
  | canceled canceling => rfl
  | _ => exact canceled

theorem finished_steps (taken : Steps pool action next)
    (finished : Finished pool) : Finished next := by
  obtain canceled | drained := finished
  · exact .inl (canceled_steps taken canceled)
  · exact .inr (drained_steps taken drained)

def Left (pool : Pool Request) : Prop :=
  ∀ running ∈ pool.workers, running = .exiting ∨ running = .done →
    Finished pool

/-- A worker is parked only as long as there is nothing to take. -/
def Parking (pool : Pool Request) : Prop :=
  .parked ∈ pool.workers →
    pool.requests.closed = false ∧ pool.requests.buffer = [] ∧
      pool.canceled = false

/-- `DoAll` waits for the wait group after the first worker was added. -/
structure First (pool : Pool Request) : Prop where
  spawned : .spawned ∈ pool.adding → pool.workers ≠ []
  first : pool.firstWorker = true → pool.canceled = true ∨ pool.workers ≠ []
  waiting : pool.doingAll = .waiting → pool.firstWorker = true

theorem wake_not_parked {workers : List (Running Request)} :
    .parked ∉ workers.map Pool.wake := by
  intro parked
  obtain ⟨running, _, woken⟩ := List.mem_map.mp parked
  cases running <;> cases woken

theorem parking_steps (taken : Steps pool action next)
    (parking : Parking pool) : Parking next := by
  intro parked
  cases taken with
  | handOver unclosed there => exact parking (mem_of_mem_set (by simp) parked)
  | queue unclosed nobody => exact absurd rfl (nobody _ parked)
  | closes => exact absurd parked wake_not_parked
  | cancels uncalled => exact absurd parked wake_not_parked
  | canceled canceled =>
      obtain ⟨_, _, going⟩ := parking parked
      simp [Pool.canceled, canceled] at going
  | spawns there =>
      apply parking
      simpa using parked
  | moves there moves =>
      cases moves with
      | parks going waiting empty => exact ⟨waiting, empty, going⟩
      | _ => exact parking (mem_of_mem_set (by simp) parked)
  | receives there buffer closed =>
      obtain ⟨_, empty, _⟩ := parking (mem_of_mem_set (by simp) parked)
      rw [empty] at buffer
      cases buffer
  | starts there => exact parking (mem_of_mem_set (by simp) parked)
  | ends there => exact parking (mem_of_mem_set (by simp) parked)
  | exits there => exact parking (mem_of_mem_set (by simp) parked)
  | _ => exact parking parked

theorem left_steps (taken : Steps pool action next)
    (parking : Parking pool) (left : Left pool) : Left next := by
  have finished := finished_steps taken
  have kept : ∀ running ∈ pool.workers,
      running = .exiting ∨ running = .done → Finished next := by
    intro running member reason
    exact finished (left running member reason)
  cases taken with
  | handOver unclosed there => exact forall_mem_set kept (by simp)
  | closes =>
      intro running member reason
      obtain ⟨before, there, woken⟩ := List.mem_map.mp member
      cases before with
      | parked =>
          obtain ⟨_, empty, _⟩ := parking there
          exact .inr ⟨rfl, empty⟩
      | _ =>
          apply finished
          apply left _ there
          cases woken
          exact reason
  | cancels uncalled =>
      intro running member reason
      exact .inl rfl
  | spawns there =>
      intro running member reason
      obtain member | same := List.mem_append.mp member
      · exact kept running member reason
      · rw [List.mem_singleton] at same
        subst same
        simp at reason
  | moves there moves =>
      cases moves with
      | ends drained =>
          intro running member reason
          exact finished (.inr drained)
      | leaves canceled =>
          intro running member reason
          exact finished (.inl canceled)
      | abandons canceled =>
          intro running member reason
          exact finished (.inl canceled)
      | _ => exact forall_mem_set kept (by simp)
  | receives there buffer closed => exact forall_mem_set kept (by simp)
  | starts there => exact forall_mem_set kept (by simp)
  | ends there => exact forall_mem_set kept (by simp)
  | exits there =>
      intro running member reason
      exact finished (left _ (List.mem_of_getElem? there) (.inl rfl))
  | _ => exact kept

theorem workers_steps (taken : Steps pool action next)
    (present : pool.workers ≠ []) : next.workers ≠ [] := by
  cases taken with
  | spawns there => simp
  | _ => simpa using present

theorem first_steps (taken : Steps pool action next) (first : First pool) :
    First next := by
  have present := workers_steps taken
  have canceled := canceled_steps taken
  have kept (unset : pool.firstWorker = true) :
      next.canceled = true ∨ next.workers ≠ [] :=
    (first.first unset).imp canceled present
  cases taken with
  | calls going =>
      constructor
      · intro spawned
        apply first.spawned
        simpa using spawned
      · exact first.first
      · exact first.waiting
  | counts there =>
      constructor
      · intro spawned
        exact first.spawned (mem_of_mem_set (by simp) spawned)
      · exact first.first
      · exact first.waiting
  | spawns there =>
      constructor
      · simp
      · intro set
        exact kept set
      · exact first.waiting
  | adds there =>
      constructor
      · intro spawned
        exact first.spawned (mem_of_mem_set (by simp) spawned)
      · intro set
        exact .inr (first.spawned (List.mem_of_getElem? there))
      · intro waiting
        rfl
  | sets uncalled =>
      constructor
      · exact first.spawned
      · exact first.first
      · intro waiting
        cases waiting
  | waits started set =>
      constructor
      · exact first.spawned
      · exact first.first
      · intro waiting
        exact set
  | returns waiting nobody =>
      constructor
      · exact first.spawned
      · exact first.first
      · intro waiting
        cases waiting
  | canceled canceling =>
      constructor
      · exact first.spawned
      · intro set
        exact .inl rfl
      · intro waiting
        rfl
  | _ =>
      constructor
      · intro spawned
        exact present (first.spawned spawned)
      · intro set
        exact kept set
      · exact first.waiting

def Running.Idle (drained : Prop) : Running Request → Prop
  | .received _ | .doing _ | .parked => False
  | .selecting => drained
  | _ => True

theorem Running.Idle.mono {drained drained' : Prop} {running : Running Request}
    (idle : running.Idle drained) (weaker : drained → drained') :
    running.Idle drained' := by
  cases running with
  | selecting => exact weaker idle
  | _ => exact idle

theorem Running.Idle.wake {drained : Prop} {running : Running Request}
    (idle : running.Idle drained) : (Pool.wake running).Idle drained := by
  cases running with
  | parked => exact idle.elim
  | _ => exact idle

/-- Where `DoAll` has returned, no worker has a request and none will take
another. -/
structure Quiet (pool : Pool Request) : Prop where
  finished : Finished pool
  idle : ∀ running ∈ pool.workers, running.Idle pool.Drained

/-- Nothing that happens after `DoAll` has returned starts a request. -/
theorem quiet_steps (taken : Steps pool action next) (quiet : Quiet pool) :
    Quiet next ∧ next.started = pool.started := by
  have drained := drained_steps taken
  have idle {index : Nat} {running : Running Request}
      (there : pool.workers[index]? = some running) :
      running.Idle pool.Drained :=
    quiet.idle running (List.mem_of_getElem? there)
  have kept : ∀ running ∈ pool.workers, running.Idle next.Drained := by
    intro running member
    exact (quiet.idle running member).mono drained
  have woken : ∀ running ∈ pool.workers.map Pool.wake,
      running.Idle next.Drained := by
    intro running member
    obtain ⟨before, member, same⟩ := List.mem_map.mp member
    rw [← same]
    exact (kept before member).wake
  have finished := finished_steps taken quiet.finished
  cases taken with
  | handOver unclosed there => exact (idle there).elim
  | closes => exact ⟨⟨finished, woken⟩, rfl⟩
  | cancels uncalled => exact ⟨⟨finished, woken⟩, rfl⟩
  | spawns there =>
      refine ⟨⟨finished, ?_⟩, rfl⟩
      intro running member
      obtain member | same := List.mem_append.mp member
      · exact kept running member
      · rw [List.mem_singleton.mp same]
        trivial
  | moves there moves =>
      refine ⟨⟨finished, forall_mem_set kept ?_⟩, rfl⟩
      cases moves with
      | checks going =>
          obtain canceled | closed := quiet.finished
          · rw [going] at canceled
            cases canceled
          · exact closed
      | parks going waiting empty =>
          obtain ⟨closed, _⟩ : pool.Drained := idle there
          rw [waiting] at closed
          cases closed
      | _ => trivial
  | receives there buffer closed =>
      obtain ⟨_, empty⟩ : pool.Drained := idle there
      rw [empty] at buffer
      cases buffer
  | starts there => exact (idle there).elim
  | ends there => exact (idle there).elim
  | exits there => exact ⟨⟨finished, forall_mem_set kept trivial⟩, rfl⟩
  | _ => exact ⟨⟨finished, kept⟩, rfl⟩

/-! ## Every run -/

/-- What holds of the pool in every state of every run. -/
structure Working (pool : Pool Request) : Prop where
  accounted : Accounted pool
  counted : Counted pool
  parking : Parking pool
  left : Left pool
  first : First pool
  quiet : pool.doingAll = .returned → Quiet pool

theorem working_initial : Working (Pool.initial : Pool Request) := by
  constructor
  · exact accounted_initial
  · exact counted_initial
  · intro parked
    simp [Pool.initial] at parked
  · intro running member
    simp [Pool.initial] at member
  · constructor <;> simp [Pool.initial]
  · intro returned
    cases returned

/-- `DoAll` returns only where nothing is left to do. -/
theorem Working.returns (working : Working pool)
    (waiting : pool.doingAll = .waiting) (nobody : pool.waitGroup = 0) :
    Quiet pool := by
  have done {running : Running Request} (member : running ∈ pool.workers) :
      running = .done :=
    working.counted.nobody nobody member
  constructor
  · obtain canceled | present :=
      working.first.first (working.first.waiting waiting)
    · exact .inl canceled
    · obtain ⟨running, member⟩ := List.exists_mem_of_ne_nil _ present
      exact working.left running member (.inr (done member))
  · intro running member
    rw [done member]
    trivial

theorem working_steps (taken : Steps pool action next)
    (working : Working pool) : Working next := by
  constructor
  · exact accounted_steps taken working.accounted
  · exact counted_steps taken working.counted
  · exact parking_steps taken working.parking
  · exact left_steps taken working.parking working.left
  · exact first_steps taken working.first
  · intro returned
    by_cases already : pool.doingAll = .returned
    · exact (quiet_steps taken (working.quiet already)).1
    · cases taken with
      | returns waiting nobody =>
          obtain ⟨finished, idle⟩ := working.returns waiting nobody
          exact ⟨finished, idle⟩
      | sets uncalled => cases returned
      | waits started set => cases returned
      | _ => exact absurd returned already

theorem run_working
    {allowed : Pool Request → Action Request → Prop}
    (run : Runs step allowed .initial pool) : Working pool := by
  apply run.invariant working_initial
  intro before action after working _ taken
  exact working_steps (step_steps taken) working

/-- What is done after `DoAll` has returned starts no request. -/
theorem Quiet.run {final : Pool Request}
    {allowed : Pool Request → Action Request → Prop} (quiet : Quiet pool)
    (run : Runs step allowed pool final) :
    Quiet final ∧ final.started = pool.started := by
  apply run.invariant ⟨quiet, rfl⟩
  intro before action after held _ taken
  obtain ⟨quiet, same⟩ := held
  obtain ⟨quiet, started⟩ := quiet_steps (step_steps taken) quiet
  exact ⟨quiet, started.trans same⟩

theorem held_current_length (workers : List (Running Request))
    (worker : Nat) : (held Running.current workers worker).length ≤ 1 := by
  unfold held
  cases workers[worker]? with
  | none => exact Nat.zero_le _
  | some running => cases running <;> simp [Running.current]

structure Processes (pool : Pool Request) : Prop where
  /-- Only what was sent is received, each value once. -/
  sent : (pool.sent : Multiset Request) =
    ↑(pool.received.map (·.2)) + ↑pool.requests.buffer
  /-- What a worker received, it passes to `Do`, each request once. -/
  once : ∀ worker, own worker pool.received =
    own worker pool.started ++ held Running.pending pool.workers worker
  /-- The request it has not yet passed on can be passed on, and stays until
  it is. -/
  passes : ∀ worker request,
    pool.workers[worker]? = some (.received request) →
      ∃ next, step pool (.run worker) = some next ∧
        next.started = pool.started ++ [(worker, request)]
  stays : ∀ worker request action next,
    pool.workers[worker]? = some (.received request) →
      step pool action = some next →
        next.workers[worker]? = some (.received request) ∨
          next.started = pool.started ++ [(worker, request)]
  /-- Of the calls of `Do` by a worker, all but the last have returned. -/
  single : ∀ worker, ∃ current : List Request, current.length ≤ 1 ∧
    own worker pool.started = own worker pool.ended ++ current
  /-- Where `DoAll` has returned, no `Do` is running, and none will start. -/
  returned : pool.doingAll = .returned →
    (∀ running ∈ pool.workers, running.current = []) ∧
      ∀ final, Runs step (fun _ _ => True) pool final →
        final.started = pool.started

/-- In every run, each request that is received is processed once, and
`DoAll` returns only when nothing is left to do. -/
theorem worker_pool_processes (pool : Pool Request)
    (run : Runs step (fun _ _ => True) .initial pool) : Processes pool := by
  have working := run_working run
  constructor
  · exact working.accounted.sent
  · exact working.accounted.received
  · intro worker request there
    simp [step, there, runWorker]
  · intro worker request action next there taken
    exact received_stays (step_steps taken) there
  · intro worker
    exact ⟨_, held_current_length pool.workers worker,
      working.accounted.started worker⟩
  · intro returned
    have quiet := working.quiet returned
    constructor
    · intro running member
      have idle := quiet.idle running member
      cases running with
      | doing request => exact idle.elim
      | _ => rfl
    · intro final continued
      exact (quiet.run continued).2

namespace Sample

/-- Two workers share three requests; one of them is added late, and the
channel is closed while the other is parked. -/
def shared : List (Action Nat) :=
  [.callAdd, .add 0, .doAll, .add 0, .add 0, .doAll, .run 0, .run 0, .run 0,
    .send 1 (some 0), .send 2 none, .callAdd, .add 1, .add 1, .run 0, .run 1,
    .run 1, .run 1, .run 1, .send 3 none, .run 0, .run 0, .run 0, .run 0,
    .run 1, .run 0, .run 0, .run 0, .closeRequests, .run 0, .run 1, .run 1,
    .run 1, .doAll, .add 1]

end Sample

theorem worker_pool_processes_sample : ∃ pool : Pool Nat,
    pool.started = [(0, 1), (1, 2), (0, 3)] ∧ pool.ended = pool.started ∧
      pool.doingAll = .returned ∧ Processes pool := by
  have executed : (execute step .initial Sample.shared).map
      (fun pool => (pool.started, pool.ended, pool.doingAll)) =
        some ([(0, 1), (1, 2), (0, 3)], [(0, 1), (1, 2), (0, 3)],
          .returned) := by
    decide +kernel
  obtain ⟨pool, reached, same⟩ := Option.map_eq_some_iff.mp executed
  simp only [Prod.mk.injEq] at same
  obtain ⟨started, ended, returned⟩ := same
  have run : Runs step (fun _ _ => True) .initial pool :=
    Runs.of_execute (fun _ _ _ => trivial) reached
  exact ⟨pool, started, ended.trans started.symm, returned,
    worker_pool_processes pool run⟩

end Bacs.Broker.WorkerPool
