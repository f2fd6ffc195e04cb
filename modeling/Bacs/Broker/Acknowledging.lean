import Bacs.Broker.Delivery

/-!
# Which deliveries are acknowledged

Every delivery is in one place at a time, from the queue to the end of its
processing.  A request is acknowledged with the tag in the loop variable of
its consumer, so this is the right one as long as the consumer does not go on
before the acknowledgement.
-/

namespace Bacs.Broker

open Foundation

variable {Body Task : Type} {unmarshal : Body → Option (RabbitTask Task)}
  {jobs : Nat} {intake next : Intake Body Task} {action : Action Body}

/-! ## Nothing is lost or duplicated -/

/-- The tag of what a consumer is working on. -/
def Consumer.current (consumer : Consumer Body Task) : Multiset Nat :=
  match consumer.phase, consumer.delivery with
  | .ranging, _ => 0
  | .received, some delivery => {delivery.tag}
  | .received, none => 0
  | .sending request, _ => {request.origin}

def Consumer.tags (consumer : Consumer Body Task) : Multiset Nat :=
  (consumer.deliveries.map (·.tag) : Multiset Nat) + consumer.current

def workerTags : Option (Request Task) → Multiset Nat
  | none => 0
  | some request => {request.origin}

def Intake.tags (intake : Intake Body Task) : Multiset Nat :=
  (intake.consumers.map Consumer.tags).sum +
    (intake.tasks.buffer.map (·.origin) : Multiset Nat) +
    (intake.workers.map workerTags).sum + (intake.ended : Multiset Nat)

theorem tags_initial {consumers workers : Nat} :
    (Intake.initial consumers workers : Intake Body Task).tags = 0 := by
  simp [Intake.tags, Intake.initial, Consumer.tags, Consumer.current,
    workerTags, Channel.make]

section Consumers

variable {consumer : Consumer Body Task} {delivery : Delivery Body}
  {rest : List (Delivery Body)} {request : Request Task}

theorem Consumer.tags_deliver (delivery : Delivery Body) :
    ({ consumer with
      deliveries := consumer.deliveries ++ [delivery] } :
        Consumer Body Task).tags = consumer.tags + {delivery.tag} := by
  simp only [Consumer.tags, List.map_append, ← Multiset.coe_add]
  exact add_right_comm _ _ _

theorem Consumer.tags_range (phase : consumer.phase = .ranging)
    (waiting : consumer.deliveries = delivery :: rest) :
    ({ deliveries := rest, delivery := some delivery, phase := .received } :
      Consumer Body Task).tags = consumer.tags := by
  simp only [Consumer.tags, Consumer.current, phase, waiting, List.map_cons,
    ← Multiset.cons_coe, ← Multiset.singleton_add]
  abel

theorem Consumer.tags_accept (request : Request Task)
    (phase : consumer.phase = .received)
    (current : consumer.delivery = some delivery)
    (origin : request.origin = delivery.tag) :
    ({ consumer with phase := .sending request } :
      Consumer Body Task).tags = consumer.tags := by
  simp [Consumer.tags, Consumer.current, phase, current, origin]

/-- Going back to the loop, a consumer lets go of what it works on. -/
theorem Consumer.tags_release :
    consumer.tags = ({ consumer with phase := .ranging } :
      Consumer Body Task).tags + consumer.current := by
  simp [Consumer.tags, Consumer.current]

theorem Consumer.current_received (phase : consumer.phase = .received)
    (current : consumer.delivery = some delivery) :
    consumer.current = {delivery.tag} := by
  simp [Consumer.current, phase, current]

theorem Consumer.current_sending (phase : consumer.phase = .sending request) :
    consumer.current = {request.origin} := by
  simp [Consumer.current, phase]

end Consumers

theorem workerTags_some (request : Request Task) :
    workerTags (some request) =
      workerTags (none : Option (Request Task)) + {request.origin} :=
  (zero_add _).symm

theorem coe_map_append {Value : Type} (tag : Value → Nat)
    (values : List Value) (value : Value) :
    ((values ++ [value]).map tag : Multiset Nat) =
      (values.map tag : Multiset Nat) + {tag value} := by
  rw [List.map_append, ← Multiset.coe_add]
  rfl

theorem coe_append_singleton (tags : List Nat) (tag : Nat) :
    ((tags ++ [tag] : List Nat) : Multiset Nat) =
      (tags : Multiset Nat) + {tag} := by
  rw [← Multiset.coe_add]
  rfl

theorem tags_steps (taken : Steps unmarshal jobs intake action next)
    (counted : intake.tags = Multiset.range intake.nextTag) :
    next.tags = Multiset.range next.nextTag := by
  cases taken with
  | @deliver _ _ replyTo correlationId body there =>
      rw [Multiset.range_succ, ← Multiset.singleton_add, ← counted]
      have more := sum_map_set_gain Consumer.tags there
        (Consumer.tags_deliver
          ⟨intake.nextTag, replyTo, correlationId, body⟩)
      simp only [Intake.tags, more]
      abel
  | range there phase waiting =>
      rw [← counted]
      have same := sum_map_set_same Consumer.tags there
        (Consumer.tags_range phase waiting)
      simp only [Intake.tags, same]
  | @accept index _ delivery task there phase current accepted =>
      rw [← counted]
      have same := sum_map_set_same Consumer.tags there
        (Consumer.tags_accept ⟨task, index, delivery.tag⟩ phase current rfl)
      simp only [Intake.tags, same]
  | reject there phase current rejected =>
      rw [← counted]
      have less := sum_map_set_loss Consumer.tags there
        Consumer.tags_release
      rw [Consumer.current_received phase current] at less
      simp only [Intake.tags, less, coe_append_singleton]
      abel
  | send there phase sent =>
      rw [← counted]
      have less := sum_map_set_loss Consumer.tags there
        Consumer.tags_release
      rw [Consumer.current_sending phase] at less
      simp only [Intake.tags, less, sent, coe_map_append]
      abel
  | @handOver _ _ _ request there phase idle =>
      rw [← counted]
      have less := sum_map_set_loss Consumer.tags there
        Consumer.tags_release
      rw [Consumer.current_sending phase] at less
      have more := sum_map_set_gain workerTags idle
        (workerTags_some request)
      simp only [Intake.tags, less, more]
      abel
  | @receive _ request _ idle taken =>
      rw [← counted]
      have more := sum_map_set_gain workerTags idle
        (workerTags_some request)
      simp only [Intake.tags, more, taken, List.map_cons,
        ← Multiset.cons_coe, ← Multiset.singleton_add]
      abel
  | @finish _ _ request _ _ working there current =>
      rw [← counted]
      have less := sum_map_set_loss workerTags working
        (workerTags_some request)
      simp only [Intake.tags, less, coe_append_singleton]
      abel

/-- Every delivery is in exactly one place: waiting, with a consumer, in the
channel, with a worker, or its processing has ended. -/
theorem run_tags {consumers workers : Nat}
    {allowed : Intake Body Task → Action Body → Prop}
    (run : Runs (step unmarshal jobs) allowed
      (.initial consumers workers) intake) :
    intake.tags = Multiset.range intake.nextTag := by
  apply run.invariant
  · rw [tags_initial]
    rfl
  · intro before action after counted _ taken
    exact tags_steps (step_steps taken) counted

theorem run_ended_nodup {consumers workers : Nat}
    {allowed : Intake Body Task → Action Body → Prop}
    (run : Runs (step unmarshal jobs) allowed
      (.initial consumers workers) intake) :
    intake.ended.Nodup := by
  have counted := run_tags run
  have distinct : intake.tags.Nodup := by
    rw [counted]
    exact Multiset.nodup_range _
  rw [Intake.tags] at distinct
  exact Multiset.coe_nodup.mp (Multiset.nodup_add.mp distinct).2.1

/-! ## The loop variable -/

/-- A step that keeps a request and the loop variable together: `NewRequest`
rejects nothing, and a consumer goes on to the next delivery only when no
request that it made waits for its acknowledgement. -/
def Careful (unmarshal : Body → Option (RabbitTask Task))
    (intake : Intake Body Task) : Action Body → Prop
  | .range index => ∀ request ∈ intake.live, request.delivery ≠ index
  | .newRequest index => ∀ consumer ∈ intake.consumers[index]?,
      ∀ delivery ∈ consumer.delivery,
        (newRequest unmarshal delivery).toBool = true
  | _ => True

instance (intake : Intake Body Task) : (action : Action Body) →
    Decidable (Careful unmarshal intake action)
  | .range index => inferInstanceAs
      (Decidable (∀ request ∈ intake.live, request.delivery ≠ index))
  | .newRequest index => inferInstanceAs
      (Decidable (∀ consumer ∈ intake.consumers[index]?,
        ∀ delivery ∈ consumer.delivery,
          (newRequest unmarshal delivery).toBool = true))
  | .deliver _ _ _ _ => .isTrue trivial
  | .send _ => .isTrue trivial
  | .handOver _ _ => .isTrue trivial
  | .receive _ => .isTrue trivial
  | .finish _ _ => .isTrue trivial

theorem request_eq_some {phase : Phase Task} {request : Request Task} :
    phase.request = some request ↔ phase = .sending request := by
  cases phase <;> simp [Phase.request]

theorem mem_live {request : Request Task} :
    request ∈ intake.live ↔
      (∃ consumer ∈ intake.consumers, consumer.phase = .sending request) ∨
        request ∈ intake.tasks.buffer ∨ some request ∈ intake.workers := by
  simp [Intake.live, request_eq_some]

/-- The loop variable that a request points to still is its delivery. -/
def Points (consumers : List (Consumer Body Task)) (request : Request Task) :
    Prop :=
  ∃ consumer delivery, consumers[request.delivery]? = some consumer ∧
    consumer.delivery = some delivery ∧ delivery.tag = request.origin

theorem Points.set {consumers : List (Consumer Body Task)} {index : Nat}
    {before after : Consumer Body Task} {request : Request Task}
    (points : Points consumers request)
    (there : consumers[index]? = some before)
    (kept : request.delivery ≠ index ∨ after.delivery = before.delivery) :
    Points (consumers.set index after) request := by
  obtain ⟨consumer, delivery, found, current, tag⟩ := points
  by_cases same : request.delivery = index
  · have kept := kept.resolve_left (not_not_intro same)
    rw [same, there] at found
    cases found
    refine ⟨after, delivery, ?_, kept.trans current, tag⟩
    have bound := (List.getElem?_eq_some_iff.mp there).1
    rw [same, List.getElem?_set_self bound]
  · refine ⟨consumer, delivery, ?_, current, tag⟩
    rw [List.getElem?_set_ne (Ne.symm same)]
    exact found

structure Aimed (intake : Intake Body Task) : Prop where
  live : ∀ request ∈ intake.live, Points intake.consumers request
  acknowledgements : ∀ acknowledgement ∈ intake.acknowledgements,
    acknowledgement.tag = acknowledgement.origin
  ended : intake.acknowledgements.map (·.origin) = intake.ended

theorem aimed_initial {consumers workers : Nat} :
    Aimed (Intake.initial consumers workers : Intake Body Task) := by
  constructor
  · intro request member
    rw [mem_live] at member
    simp [Intake.initial, Channel.make] at member
  · simp [Intake.initial]
  · simp [Intake.initial]

theorem sending_set {consumers : List (Consumer Body Task)} {index : Nat}
    {after : Consumer Body Task} {request : Request Task}
    (sending : ∃ consumer ∈ consumers.set index after,
      consumer.phase = .sending request) :
    (∃ consumer ∈ consumers, consumer.phase = .sending request) ∨
      after.phase = .sending request := by
  obtain ⟨consumer, member, phase⟩ := sending
  rcases List.mem_or_eq_of_mem_set member with old | same
  · exact Or.inl ⟨consumer, old, phase⟩
  · subst same
    exact Or.inr phase

theorem working_set {workers : List (Option (Request Task))} {worker : Nat}
    {after : Option (Request Task)} {request : Request Task}
    (working : some request ∈ workers.set worker after) :
    some request ∈ workers ∨ after = some request := by
  rcases List.mem_or_eq_of_mem_set working with old | same
  · exact Or.inl old
  · exact Or.inr same.symm

/-- Requests only come from `NewRequest`, and they point to the delivery that
the consumer has just received. -/
theorem live_steps (taken : Steps unmarshal jobs intake action next)
    {request : Request Task} (live : request ∈ next.live) :
    request ∈ intake.live ∨ Points next.consumers request := by
  rw [mem_live] at live ⊢
  cases taken with
  | deliver there =>
      rcases live with sending | elsewhere
      · rcases sending_set sending with old | phase
        · exact Or.inl (Or.inl old)
        · exact Or.inl (Or.inl ⟨_, List.mem_of_getElem? there, phase⟩)
      · exact Or.inl (Or.inr elsewhere)
  | range there phase waiting =>
      rcases live with sending | elsewhere
      · rcases sending_set sending with old | new
        · exact Or.inl (Or.inl old)
        · cases new
      · exact Or.inl (Or.inr elsewhere)
  | @accept index consumer delivery _ there phase current accepted =>
      rcases live with sending | elsewhere
      · rcases sending_set sending with old | new
        · exact Or.inl (Or.inl old)
        · cases new
          have bound := (List.getElem?_eq_some_iff.mp there).1
          exact Or.inr
            ⟨_, delivery, List.getElem?_set_self bound, current, rfl⟩
      · exact Or.inl (Or.inr elsewhere)
  | reject there phase current rejected =>
      rcases live with sending | elsewhere
      · rcases sending_set sending with old | new
        · exact Or.inl (Or.inl old)
        · cases new
      · exact Or.inl (Or.inr elsewhere)
  | send there phase sent =>
      rcases live with sending | queued | working
      · rcases sending_set sending with old | new
        · exact Or.inl (Or.inl old)
        · cases new
      · simp only [sent, List.mem_append, List.mem_singleton] at queued
        rcases queued with queued | same
        · exact Or.inl (Or.inr (Or.inl queued))
        · subst same
          exact Or.inl (Or.inl ⟨_, List.mem_of_getElem? there, phase⟩)
      · exact Or.inl (Or.inr (Or.inr working))
  | handOver there phase idle =>
      rcases live with sending | queued | working
      · rcases sending_set sending with old | new
        · exact Or.inl (Or.inl old)
        · cases new
      · exact Or.inl (Or.inr (Or.inl queued))
      · rcases working_set working with old | same
        · exact Or.inl (Or.inr (Or.inr old))
        · cases same
          exact Or.inl (Or.inl ⟨_, List.mem_of_getElem? there, phase⟩)
  | receive idle taken =>
      rcases live with sending | queued | working
      · exact Or.inl (Or.inl sending)
      · left
        right
        left
        rw [taken]
        exact List.mem_cons_of_mem _ queued
      · rcases working_set working with old | same
        · exact Or.inl (Or.inr (Or.inr old))
        · cases same
          left
          right
          left
          rw [taken]
          exact List.mem_cons_self
  | finish working' there current =>
      rcases live with sending | queued | working
      · exact Or.inl (Or.inl sending)
      · exact Or.inl (Or.inr (Or.inl queued))
      · rcases working_set working with old | same
        · exact Or.inl (Or.inr (Or.inr old))
        · cases same

/-- Only the next iteration of the loop assigns its variable. -/
theorem points_steps (taken : Steps unmarshal jobs intake action next)
    {request : Request Task} (points : Points intake.consumers request)
    (stays : ∀ index, action = .range index → request.delivery ≠ index) :
    Points next.consumers request := by
  cases taken with
  | deliver there => exact points.set there (Or.inr rfl)
  | range there phase waiting =>
      exact points.set there (Or.inl (stays _ rfl))
  | accept there phase current accepted =>
      exact points.set there (Or.inr rfl)
  | reject there phase current rejected =>
      exact points.set there (Or.inr rfl)
  | send there phase sent => exact points.set there (Or.inr rfl)
  | handOver there phase idle => exact points.set there (Or.inr rfl)
  | receive idle taken => exact points
  | finish working there current => exact points

theorem acknowledgements_steps
    (taken : Steps unmarshal jobs intake action next)
    (careful : Careful unmarshal intake action) (aimed : Aimed intake) :
    (∀ acknowledgement ∈ next.acknowledgements,
      acknowledgement.tag = acknowledgement.origin) ∧
      next.acknowledgements.map (·.origin) = next.ended := by
  cases taken with
  | reject there phase current rejected =>
      have accepted := careful _ there _ current
      rw [rejected] at accepted
      cases accepted
  | @finish _ _ request _ _ working there current =>
      have live : request ∈ intake.live :=
        mem_live.mpr (Or.inr (Or.inr (List.mem_of_getElem? working)))
      obtain ⟨consumer, delivery, found, here, tag⟩ :=
        aimed.live request live
      rw [there] at found
      cases found
      rw [current] at here
      cases here
      constructor
      · intro acknowledgement member
        simp only [List.mem_append, List.mem_singleton] at member
        rcases member with old | same
        · exact aimed.acknowledgements acknowledgement old
        · subst same
          exact tag
      · simp [aimed.ended]
  | _ => exact ⟨aimed.acknowledgements, aimed.ended⟩

theorem aimed_steps (taken : Steps unmarshal jobs intake action next)
    (careful : Careful unmarshal intake action) (aimed : Aimed intake) :
    Aimed next := by
  obtain ⟨own, ended⟩ := acknowledgements_steps taken careful aimed
  constructor
  case live =>
    intro request live
    rcases live_steps taken live with old | points
    · apply points_steps taken (aimed.live request old)
      intro index same
      subst same
      exact careful request old
    · exact points
  case acknowledgements => exact own
  case ended => exact ended

/-! ## Acknowledgements -/

structure WellAcknowledged (intake : Intake Body Task) : Prop where
  own : ∀ acknowledgement ∈ intake.acknowledgements,
    acknowledgement.tag = acknowledgement.origin
  once : intake.acknowledged.Nodup
  ended : ∀ tag ∈ intake.ended, tag ∈ intake.acknowledged

theorem Aimed.acknowledged (aimed : Aimed intake) :
    intake.acknowledged = intake.ended := by
  rw [← aimed.ended, Intake.acknowledged]
  apply List.map_congr_left
  exact aimed.acknowledgements

/-- In a run of careful steps every delivery is acknowledged as it should
be. -/
theorem careful_wellAcknowledged
    (unmarshal : Body → Option (RabbitTask Task))
    (jobs consumers workers : Nat) (intake : Intake Body Task)
    (run : Runs (step unmarshal jobs) (Careful unmarshal)
      (.initial consumers workers) intake) :
    WellAcknowledged intake := by
  have aimed : Aimed intake := by
    apply run.invariant aimed_initial
    intro before action after aimed careful taken
    exact aimed_steps (step_steps taken) careful aimed
  constructor
  case own => exact aimed.acknowledgements
  case once =>
    rw [aimed.acknowledged]
    exact run_ended_nodup run
  case ended =>
    intro tag member
    rw [aimed.acknowledged]
    exact member

namespace Sample

def decode : Option (RabbitTask Unit) → Option (RabbitTask Unit) :=
  id

def task (identifier : String) : RabbitTask Unit :=
  { identifier, task := (), statusQueue := "s", resultQueue := "r" }

def deliver (identifier : String) : Action (Option (RabbitTask Unit)) :=
  .deliver 0 "e" identifier (some (task identifier))

/-- The consumer goes on to the second delivery before the worker has
acknowledged the first one. -/
def hurried : List (Action (Option (RabbitTask Unit))) :=
  [deliver "first", deliver "second", .range 0, .newRequest 0, .send 0,
    .receive 0, .range 0, .finish 0 true]

def malformed : List (Action (Option (RabbitTask Unit))) :=
  [.deliver 0 "e" "first" none, .range 0, .newRequest 0]

def patient : List (Action (Option (RabbitTask Unit))) :=
  [deliver "first", deliver "second", .range 0, .newRequest 0, .send 0,
    .receive 0, .finish 0 true, .range 0, .newRequest 0, .handOver 0 0,
    .finish 0 false]

end Sample

theorem careful_wellAcknowledged_sample :
    ∃ intake : Intake (Option (RabbitTask Unit)) Unit,
      intake.acknowledged = [0, 1] ∧ WellAcknowledged intake := by
  have executed : (executeWhile (step Sample.decode 2)
      (Careful Sample.decode) (.initial 1 1) Sample.patient).map
        Intake.acknowledged = some [0, 1] := by
    decide +kernel
  obtain ⟨intake, reached, acknowledged⟩ := Option.map_eq_some_iff.mp executed
  refine ⟨intake, acknowledged, ?_⟩
  exact careful_wellAcknowledged Sample.decode 2 1 1 intake
    (Runs.of_executeWhile reached)

/-- The first delivery is not acknowledged, the second one instead; and a
delivery that is rejected is not acknowledged at all. -/
theorem wellAcknowledged_fails :
    (∃ intake : Intake (Option (RabbitTask Unit)) Unit,
      Runs (step Sample.decode 2) (fun _ _ => True) (.initial 1 1)
          intake ∧
        intake.acknowledgements = [⟨1, 0, true⟩] ∧
          ¬ WellAcknowledged intake) ∧
    ∃ intake : Intake (Option (RabbitTask Unit)) Unit,
      Runs (step Sample.decode 2) (fun _ _ => True) (.initial 1 1)
          intake ∧
        intake.ended = [0] ∧ intake.acknowledgements = [] ∧
          ¬ WellAcknowledged intake := by
  constructor
  · have executed : (execute (step Sample.decode 2) (.initial 1 1)
        Sample.hurried).map Intake.acknowledgements =
          some [⟨1, 0, true⟩] := by
      decide +kernel
    obtain ⟨intake, reached, sent⟩ := Option.map_eq_some_iff.mp executed
    refine ⟨intake, Runs.of_execute (fun _ _ _ => trivial) reached, sent,
      ?_⟩
    intro well
    have own := well.own ⟨1, 0, true⟩ (by simp [sent])
    cases own
  · have executed : (execute (step Sample.decode 2) (.initial 1 1)
        Sample.malformed).map (fun intake =>
          (intake.ended, intake.acknowledgements)) = some ([0], []) := by
      decide +kernel
    obtain ⟨intake, reached, same⟩ := Option.map_eq_some_iff.mp executed
    simp only [Prod.mk.injEq] at same
    refine ⟨intake, Runs.of_execute (fun _ _ _ => trivial) reached, same.1,
      same.2, ?_⟩
    intro well
    have acknowledged := well.ended 0 (by simp [same.1])
    simp [Intake.acknowledged, same.2] at acknowledged

end Bacs.Broker
