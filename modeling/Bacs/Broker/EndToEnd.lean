import Bacs.Broker.Deployment

/-!
# From a client to a worker and back

Connections may be lost at any time, and the broker may be restarted.
-/

namespace Bacs.Broker.EndToEnd

open Foundation Foundation.Messaging Python Client

variable {Task Status Result : Type}

/-! ## Where a message of a client is -/

def Told (exchange : System Status Result) (index : Nat)
    (event : Event Status Result) : Prop :=
  ∃ handler ∈ exchange.handlers, handler.entry = index ∧
    .note event ∈ handler.moves

def Live (exchange : System Status Result) (number : Nat) : Prop :=
  ∃ connection, exchange.connections[number]? = some connection ∧
    connection.alive = true

/-- The result waits, is being handled, or was given to its callback. -/
def ResultReported (codec : Codec Task Status Result)
    (exchange : System Status Result) (client id : String)
    (result : Result) : Prop :=
  ∃ index : Nat, ∃ entry : Entry String Envelope,
    exchange.entries[index]? = some entry ∧
    entry.queue = resultQueue client ∧
    codec.parseResult entry.message.body = .ok (id, result) ∧
    match entry.place with
    | .ready => True
    | .delivered number => Live exchange number
    | .acked => Told exchange index (.result id result none)
    | .rejected =>
        ∃ error, Told exchange index (.result id result (some error))
    | .gone => False

/-- The report waits, is being handled, or was given to its callback. -/
def ErrorReported (exchange : System Status Result) (client : String)
    (id : Option String) (text : String) : Prop :=
  ∃ index : Nat, ∃ entry : Entry String Envelope,
    exchange.entries[index]? = some entry ∧
    entry.queue = errorQueue client ∧
    match entry.place with
    | .ready => True
    | .delivered number => Live exchange number
    | .acked => Told exchange index (.error id text none)
    | .rejected => False
    | .gone => False

/-- What is known of a task, by where it is. -/
def TaskSettled (codec : Codec Task Status Result)
    (workers : (Task → Callback Status Result) → Prop)
    (exchange : System Status Result) (client id : String) (task : Task)
    (message : Envelope) (place : Place) : Prop :=
  match place with
  | .ready => True
  | .delivered number => Live exchange number
  | .acked =>
      ∃ callback, workers callback ∧ ∃ result body,
        success codec callback message = .ok
          ({ identifier := id, task, statusQueue := statusQueue client
             resultQueue := resultQueue client }, result, body) ∧
        ResultReported codec exchange client id result
  | .rejected =>
      ∃ callback, workers callback ∧ ∃ text error,
        Failed codec callback message text error ∧
        ErrorReported exchange client (some id) (text ++ error)
  | .gone => False

section Reports

variable {codec : Codec Task Status Result}
  {workers : (Task → Callback Status Result) → Prop}
  {replaced : ByteArray → String} {deployment : Deployment}
  {base : List String} {exchange : System Status Result}
variable (apart : deployment.Apart)
  (run : Runs (Messaging.step deployment.setup)
    (Allowed (Handles codec workers replaced deployment)) (.start base)
    exchange)

include apart run

theorem result_reported {index : Nat} {entry : Entry String Envelope}
    {client id : String} {result : Result}
    (known : client ∈ deployment.clients)
    (found : exchange.entries[index]? = some entry)
    (own : entry.queue = resultQueue client)
    (durable : entry.message.durable = true)
    (parsed : codec.parseResult entry.message.body = .ok (id, result)) :
    ResultReported codec exchange client id result := by
  refine ⟨index, entry, found, own, parsed, ?_⟩
  cases place : entry.place with
  | ready => trivial
  | delivered number =>
      exact (run_orderly run).alive index entry number found place
  | acked =>
      obtain ⟨handler, member, same, before, inside, handles, _⟩ :=
        acked_answered run found place
      obtain ⟨callbacks, lost, did⟩ := handles_result apart known own handles
      obtain ⟨otherId, other, alike, all⟩ := result_acked did
      rw [parsed] at alike
      cases alike
      exact ⟨handler, member, same, inside.subset (by simp [all])⟩
  | rejected =>
      obtain ⟨handler, member, same, before, inside, handles, _⟩ :=
        rejected_answered run found place
      obtain ⟨callbacks, lost, did⟩ := handles_result apart known own handles
      rcases result_rejected did with ⟨error, failed⟩ | ends
      · rw [parsed] at failed
        cases failed
      · obtain ⟨otherId, other, error, alike, all⟩ := ends
        rw [parsed] at alike
        cases alike
        exact ⟨error, handler, member, same, inside.subset (by simp [all])⟩
  | gone =>
      rcases gone_volatile run found place with volatile | unacknowledged
      · rw [Deployment.setup] at volatile
        simp [durable] at volatile
      · rw [not_autoAck] at unacknowledged
        · cases unacknowledged
        · intro other _ same
          exact statusQueue_ne_resultQueue other client (same.symm.trans own)

theorem error_reported {index : Nat} {entry : Entry String Envelope}
    {client text : String}
    (known : client ∈ deployment.clients)
    (found : exchange.entries[index]? = some entry)
    (own : entry.queue = errorQueue client)
    (durable : entry.message.durable = true)
    (content : entry.message.body = text.toUTF8) :
    ErrorReported exchange client entry.message.correlationId text := by
  refine ⟨index, entry, found, own, ?_⟩
  have settled : ∀ handler ∈ exchange.handlers, handler.entry = index →
      ∀ before frame, before ++ [.send frame] <+: handler.moves →
        Handles codec workers replaced deployment entry.queue entry.message
          (before ++ [.send frame]) →
        frame = .ack ∧ Told exchange index
          (.error entry.message.correlationId text none) := by
    intro handler member same before frame inside handles
    obtain ⟨callbacks, lost, did⟩ := handles_error apart known own handles
    obtain ⟨last, all⟩ := error_settled did
    rw [content, getString_toUTF8] at all
    exact ⟨last, handler, member, same, inside.subset (by simp [all])⟩
  cases place : entry.place with
  | ready => trivial
  | delivered number =>
      exact (run_orderly run).alive index entry number found place
  | acked =>
      obtain ⟨handler, member, same, before, inside, handles, _⟩ :=
        acked_answered run found place
      exact (settled handler member same before _ inside handles).2
  | rejected =>
      obtain ⟨handler, member, same, before, inside, handles, _⟩ :=
        rejected_answered run found place
      cases (settled handler member same before _ inside handles).1
  | gone =>
      rcases gone_volatile run found place with volatile | unacknowledged
      · rw [Deployment.setup] at volatile
        simp [durable] at volatile
      · rw [not_autoAck] at unacknowledged
        · cases unacknowledged
        · intro other _ same
          exact statusQueue_ne_errorQueue other client (same.symm.trans own)

/-- What was published to a queue of `base` is there. -/
theorem task_settled {index : Nat} {entry : Entry String Envelope}
    {client id : String} {task : Task} (faithful : Faithful codec)
    (results : resultQueue client ∈ base) (errors : errorQueue client ∈ base)
    (found : exchange.entries[index]? = some entry)
    (sent : SentTask codec deployment client id task entry.queue
      entry.message) :
    TaskSettled codec workers exchange client id task entry.message
      entry.place := by
  obtain ⟨data, _, message⟩ := sent.message_eq
  have parsed := sent.parsed faithful
  have stored : ∀ {queue : String} {envelope : Envelope},
      (queue, envelope) ∈ exchange.contents →
      ∃ index : Nat, ∃ entry : Entry String Envelope,
        exchange.entries[index]? = some entry ∧ entry.queue = queue ∧
        entry.message = envelope := by
    intro queue envelope member
    obtain ⟨entry, inside, same⟩ := List.mem_map.mp member
    cases same
    obtain ⟨index, there⟩ := List.mem_iff_getElem?.mp inside
    exact ⟨index, entry, there, rfl, rfl⟩
  cases place : entry.place with
  | ready => trivial
  | delivered number =>
      exact (run_orderly run).alive index entry number found place
  | acked =>
      obtain ⟨handler, _, _, before, _, handles, published⟩ :=
        acked_answered run found place
      obtain ⟨callback, lost, worker, did⟩ :=
        handles_resource apart sent.resource handles
      obtain ⟨all, acked⟩ := consume_settled (.inl rfl) did
      obtain ⟨rabbit, result, body, succeeded, sends⟩ :=
        answer_acked acked.symm
      obtain ⟨same, _, serialized⟩ := success_parts succeeded
      rw [parsed] at same
      cases same
      have member := published _ results _ (by
        rw [all]
        exact sends _ (route_some (resultQueue_ne_empty client)))
      obtain ⟨other, answer, there, queue, envelope⟩ := stored member
      refine ⟨callback, worker, result, body, succeeded, ?_⟩
      apply result_reported apart run sent.known there queue
      · rw [envelope]
        rfl
      · rw [envelope]
        exact faithful.result _ _ _ serialized
  | rejected =>
      obtain ⟨handler, _, _, before, _, handles, published⟩ :=
        rejected_answered run found place
      obtain ⟨callback, lost, worker, did⟩ :=
        handles_resource apart sent.resource handles
      obtain ⟨all, rejected⟩ := consume_settled (.inr rfl) did
      obtain ⟨text, error, failed⟩ := failed_of_rejected rejected.symm
      have member := published _ errors _ (by
        rw [all]
        apply answer_failed failed
        rw [message]
        exact route_some (errorQueue_ne_empty client))
      obtain ⟨other, answer, there, queue, envelope⟩ := stored member
      refine ⟨callback, worker, text, error, failed, ?_⟩
      have reported : ErrorReported exchange client
          answer.message.correlationId (text ++ error) := by
        apply error_reported apart run sent.known there queue
        · rw [envelope]
          rfl
        · rw [envelope]
          rfl
      rw [envelope, message] at reported
      exact reported
  | gone =>
      rcases gone_volatile run found place with volatile | unacknowledged
      · rw [Deployment.setup, message] at volatile
        cases volatile
      · rw [not_autoAck] at unacknowledged
        · cases unacknowledged
        · intro other isClient same
          exact apart.status other isClient (same ▸ sent.resource)

end Reports

theorem task_settled_acked :
    TaskSettled OneTask.codec OneTask.workers OneTask.final "a" "7" ()
      OneTask.message .acked := by
  have run := OneTask.run.mono fun _ _ permitted => permitted.1
  have found : OneTask.final.entries[0]? = some (OneTask.taskAt .acked) := rfl
  exact task_settled OneTask.apart run OneTask.faithful (by decide)
    (by decide) found OneTask.sent

/-! ## What a client is told -/

section Calls

variable {codec : Codec Task Status Result}
  {workers : (Task → Callback Status Result) → Prop}
  {replaced : ByteArray → String} {deployment : Deployment}
  {base : List String} {exchange : System Status Result}

/-- A message that a client has sent, or that is for a client. -/
def Expected (codec : Codec Task Status Result) (deployment : Deployment)
    (queue : String) (message : Envelope) : Prop :=
  (∃ client id task, SentTask codec deployment client id task queue message) ∨
    ∃ client ∈ deployment.clients, queue = statusQueue client ∨
      queue = resultQueue client ∨ queue = errorQueue client

variable (apart : deployment.Apart) (faithful : Faithful codec)

include apart faithful

theorem contents_expected
    (run : Runs (Messaging.step deployment.setup)
      (fun state action =>
        Allowed (Handles codec workers replaced deployment) state action ∧
          Submits codec deployment state action) (.start base) exchange)
    {content : String × Envelope} (member : content ∈ exchange.contents) :
    Expected codec deployment content.1 content.2 := by
  apply run_closed run (fun _ _ permitted => permitted.1) _ _ member
  · intro state queue message permitted
    exact .inl permitted.2
  · intro source sourceMessage moves target envelope holds handles published
    rcases holds with ⟨client, id, task, sent⟩ | ⟨client, known, own⟩
    · obtain ⟨callback, lost, _, did⟩ :=
        handles_resource apart sent.resource handles
      exact .inr ⟨client, sent.known, published_expected faithful sent
        (consume_publishes did published)⟩
    · exact absurd published
        (listeners_publish_nothing (apart.unused known own) handles)

/-- A result is told only to the client that has sent the task, and it is
what a worker has made of the task. -/
theorem result_call_genuine
    (run : Runs (Messaging.step deployment.setup)
      (fun state action =>
        Allowed (Handles codec workers replaced deployment) state action ∧
          Submits codec deployment state action) (.start base) exchange)
    {handler : Handler String Envelope (Event Status Result)}
    {entry : Entry String Envelope} {client id : String} {result : Result}
    {thrown : Option String} (known : client ∈ deployment.clients)
    (member : handler ∈ exchange.handlers)
    (found : exchange.entries[handler.entry]? = some entry)
    (own : entry.queue = resultQueue client)
    (called : .note (.result id result thrown) ∈ handler.moves) :
    ∃ task queue message,
      SentTask codec deployment client id task queue message ∧
      (queue, message) ∈ exchange.contents ∧
      ∃ callback, workers callback ∧ ∃ body,
        success codec callback message = .ok
          ({ identifier := id, task, statusQueue := statusQueue client
             resultQueue := resultQueue client }, result, body) := by
  have behaved := run_behaved (run.mono fun _ _ permitted => permitted.1)
  obtain ⟨number, there⟩ := List.mem_iff_getElem?.mp member
  obtain ⟨content, isThere, handles⟩ := behaved.whole there called
  have content_eq : content = entry.content := by
    rw [Exchange.contents, List.getElem?_map, found] at isThere
    exact (Option.some.inj isThere).symm
  subst content_eq
  obtain ⟨callbacks, lost, did⟩ := handles_result apart known own handles
  have parsed := notes_resultListener.of_does did called id result thrown rfl
  rcases run_originates run (fun _ _ permitted => permitted.1)
      (fun _ _ _ permitted => permitted.2) isThere with
    outside | ⟨earlier, source, moves, _, sourceThere, sourceHandles, sends⟩
  · obtain ⟨_, _, _, sent⟩ := outside
    exact absurd sent.resource
      (apart.unused known (.inr (.inl own)))
  have inside := List.mem_of_getElem? sourceThere
  rcases contents_expected apart faithful run inside with
    ⟨other, otherId, task, sent⟩ | ⟨other, isClient, forOther⟩
  · obtain ⟨callback, _, worker, sourceDid⟩ :=
      handles_resource apart sent.resource sourceHandles
    have published := consume_publishes sourceDid sends
    have otherParsed := sent.parsed faithful
    change Published codec callback source.2 entry.queue entry.message
      at published
    rw [own] at published
    generalize message : entry.message = envelope at published parsed
    cases published with
    | status alike route _ =>
        rw [otherParsed] at alike
        cases alike
        exact absurd (Option.some.inj (route_eq route))
          (statusQueue_ne_resultQueue _ _)
    | result succeeded route =>
        obtain ⟨alike, ends, serialized⟩ := success_parts succeeded
        rw [otherParsed] at alike
        cases alike
        have same := resultQueue_inj (Option.some.inj (route_eq route))
        subst same
        have told := faithful.result _ _ _ serialized
        have body : entry.content.2.body = _ := congrArg Envelope.body message
        rw [body] at parsed
        cases told.symm.trans parsed
        exact ⟨task, source.1, source.2, sent, inside, callback, worker, _,
          succeeded⟩
    | error failed route =>
        obtain ⟨data, _, same⟩ := sent.message_eq
        have queueEq := route_eq route
        rw [same] at queueEq
        exact absurd (Option.some.inj queueEq).symm
          (resultQueue_ne_errorQueue _ _)
  · exact absurd sends (listeners_publish_nothing
      (apart.unused isClient forOther) sourceHandles)

end Calls

theorem result_call_genuine_told :
    ∃ task queue message,
      SentTask OneTask.codec OneTask.deployment "a" "7" task queue message ∧
      (queue, message) ∈ OneTask.final.contents ∧
      ∃ callback, OneTask.workers callback ∧ ∃ body,
        success OneTask.codec callback message = .ok
          ({ identifier := "7", task, statusQueue := statusQueue "a"
             resultQueue := resultQueue "a" }, (), body) := by
  have run := OneTask.run.mono fun _ _ permitted =>
    And.intro permitted.1 permitted.2.1
  have member : OneTask.listener [OneTask.called, .send .ack] ∈
      OneTask.final.handlers :=
    List.mem_cons_of_mem _ (List.mem_singleton.mpr rfl)
  have found : OneTask.final.entries[1]? = some (OneTask.replyAt .acked) := rfl
  have called : .note (.result "7" () none) ∈
      (OneTask.listener [OneTask.called, .send .ack]).moves :=
    List.mem_cons_self
  exact result_call_genuine OneTask.apart OneTask.faithful run
    (List.mem_singleton.mpr rfl) member found rfl called

/-! ## How often a client is told -/

/-- How often the callback for results was called for the message. -/
def resultCalls (exchange : System Status Result) (index : Nat) : Nat :=
  ((exchange.handlers.filter (·.entry = index)).map
    fun handler => noted isResult handler.moves).sum

/-- While nothing is interrupted, the callback for results is called once at
most, and once if the result was acknowledged. -/
theorem result_call_once {codec : Codec Task Status Result}
    {workers : (Task → Callback Status Result) → Prop}
    {replaced : ByteArray → String} {deployment : Deployment}
    {base : List String} {exchange : System Status Result}
    (apart : deployment.Apart)
    (run : Runs (Messaging.step deployment.setup)
      (fun state action =>
        Allowed (Handles codec workers replaced deployment) state action ∧
          Undisturbed state action) (.start base) exchange)
    {index : Nat} {entry : Entry String Envelope} {client : String}
    (known : client ∈ deployment.clients)
    (found : exchange.entries[index]? = some entry)
    (own : entry.queue = resultQueue client) :
    resultCalls exchange index ≤ 1 ∧
      (entry.place = .acked → resultCalls exchange index = 1) := by
  have permitted := run.mono fun _ _ permits => permits.1
  have single := run_single run fun _ _ permits => permits.2
  have few := single.length_handlers index
  have bounded : ∀ handler ∈ exchange.handlers, handler.entry = index →
      noted isResult handler.moves ≤ 1 := by
    intro handler member same
    by_cases idle : handler.moves = []
    · rw [idle]
      exact Nat.zero_le 1
    obtain ⟨number, there⟩ := List.mem_iff_getElem?.mp member
    obtain ⟨content, isThere, handles⟩ := (run_behaved permitted).whole there
      (List.getLast_mem idle)
    rw [same, Exchange.contents, List.getElem?_map, found] at isThere
    cases isThere
    obtain ⟨callbacks, lost, did⟩ := handles_result apart known own handles
    exact atMost_resultListener.of_does did
  have upper : resultCalls exchange index ≤ 1 := by
    unfold resultCalls
    generalize all : exchange.handlers.filter (·.entry = index) = handlers
      at few
    cases handlers with
    | nil => simp
    | cons handler rest =>
        cases rest with
        | cons other rest => simp at few
        | nil =>
            have member : handler ∈ exchange.handlers.filter
                (·.entry = index) := by
              rw [all]
              exact List.mem_singleton_self handler
            obtain ⟨inside, same⟩ := List.mem_filter.mp member
            simpa using bounded handler inside (of_decide_eq_true same)
  refine ⟨upper, ?_⟩
  intro acked
  obtain ⟨handler, member, same, before, inside, handles, _⟩ :=
    acked_answered permitted found acked
  obtain ⟨callbacks, lost, did⟩ := handles_result apart known own handles
  obtain ⟨id, result, _, all⟩ := result_acked did
  have told : 1 ≤ noted isResult handler.moves := by
    apply List.countP_pos_iff.mpr
    exact ⟨.note (.result id result none), inside.subset (by simp [all]), rfl⟩
  have counted : noted isResult handler.moves ≤ resultCalls exchange index := by
    have listed : handler ∈ exchange.handlers.filter (·.entry = index) :=
      List.mem_filter.mpr ⟨member, decide_eq_true same⟩
    obtain ⟨left, right, split⟩ := List.append_of_mem listed
    rw [resultCalls, split, List.map_append, List.map_cons, List.sum_append,
      List.sum_cons]
    omega
  omega

theorem result_call_once_told : resultCalls OneTask.final 1 = 1 := by
  have run := OneTask.run.mono fun _ _ permitted =>
    And.intro permitted.1 permitted.2.2
  have found : OneTask.final.entries[1]? = some (OneTask.replyAt .acked) := rfl
  exact (result_call_once OneTask.apart run (List.mem_singleton.mpr rfl) found
    rfl).2 rfl

end Bacs.Broker.EndToEnd
