import Bacs.Foundation.Sending

/-!
# Where the messages come from

A message was submitted from outside, or a handler of an earlier message has
published it.
-/

namespace Bacs.Foundation.Messaging

variable {Queue Message Note : Type} [DecidableEq Queue]
  {setup : Setup Queue Message} {base : List Queue}
  {exchange next : Exchange Queue Message Note}
  {action : Action Queue Message Note}
  {behaves : Queue → Message → List (Move Queue Message Note) → Prop}
  {permitted : Exchange Queue Message Note → Action Queue Message Note → Prop}
  {submitted : Queue → Message → Prop}

/-- The next message arrives from outside or over a connection. -/
inductive Arrival (exchange : Exchange Queue Message Note) (queue : Queue)
    (message : Message) : Action Queue Message Note → Prop where
  | submit : Arrival exchange queue message (.submit queue message)
  | arrive {connection sender : Nat} {line : Connection Queue Message}
      {rest : List (Nat × Frame Queue Message)}
      (there : exchange.connections[connection]? = some line)
      (wire : line.wire = (sender, .publish queue message) :: rest) :
      Arrival exchange queue message (.arrive connection)

theorem contents_arrival (taken : step setup exchange action = some next) :
    next.contents = exchange.contents ∨
      ∃ queue message, Arrival exchange queue message action ∧
        next.contents = exchange.contents ++ [(queue, message)] := by
  cases action with
  | connect =>
      cases taken
      exact .inl rfl
  | declare queue =>
      cases taken
      exact .inl rfl
  | submit queue message =>
      cases taken
      rw [Exchange.contents_store]
      split
      · exact .inr ⟨queue, message, .submit, rfl⟩
      · exact .inl rfl
  | deliver connection index =>
      simp only [step, Option.bind_eq_bind, Option.bind_eq_some_iff] at taken
      obtain ⟨line, _, entry, found, taken⟩ := taken
      split at taken
      · cases taken
        exact .inl (content_set found rfl)
      · cases taken
  | act number move =>
      simp only [step, Option.bind_eq_bind, Option.bind_eq_some_iff] at taken
      obtain ⟨handler, _, taken⟩ := taken
      cases taken
      exact .inl rfl
  | arrive connection =>
      simp only [step, Option.bind_eq_bind, Option.bind_eq_some_iff] at taken
      obtain ⟨line, there, taken⟩ := taken
      split at taken
      · cases taken
      · rename_i sender frame rest wire
        cases taken
        cases frame with
        | publish queue message =>
            rw [Exchange.obey, Exchange.contents_store]
            split
            · exact .inr ⟨queue, message, .arrive there wire, rfl⟩
            · exact .inl rfl
        | ack =>
            rw [Exchange.obey, Exchange.contents_settle]
            exact .inl rfl
        | reject =>
            rw [Exchange.obey, Exchange.contents_settle]
            exact .inl rfl
  | lose connection =>
      cases taken
      exact .inl (content_map fun _ => Entry.content_recover _)
  | restart =>
      cases taken
      exact .inl (content_map fun _ => Entry.content_restart setup)

omit [DecidableEq Queue] in
theorem Behaved.whole (behaved : Behaved behaves exchange) {number : Nat}
    {handler : Handler Queue Message Note}
    (found : exchange.handlers[number]? = some handler)
    {move : Move Queue Message Note} (member : move ∈ handler.moves) :
    ∃ content, exchange.contents[handler.entry]? = some content ∧
      behaves content.1 content.2 handler.moves := by
  obtain ⟨content, there, did⟩ := behaved number handler found
  refine ⟨content, there, ?_⟩
  have split := List.dropLast_append_getLast (List.ne_nil_of_mem member)
  have all := did handler.moves.dropLast
    (handler.moves.getLast (List.ne_nil_of_mem member))
    (split.symm ▸ List.prefix_rfl)
  rwa [split] at all

omit [DecidableEq Queue] in
theorem sender_of_arrival {connection sender : Nat}
    {line : Connection Queue Message} {frame : Frame Queue Message}
    {rest : List (Nat × Frame Queue Message)}
    (orderly : Orderly base exchange) (behaved : Behaved behaves exchange)
    (there : exchange.connections[connection]? = some line)
    (wire : line.wire = (sender, frame) :: rest) :
    ∃ earlier : Nat, ∃ source : Queue × Message, ∃ moves,
      exchange.contents[earlier]? = some source ∧
      behaves source.1 source.2 moves ∧ .send frame ∈ moves := by
  obtain ⟨handler, found, own⟩ := orderly.wired connection line there
    (sender, frame) (by rw [wire]; exact List.mem_cons_self)
  obtain ⟨known, same, arrived, dropped, all, _⟩ :=
    orderly.sent sender handler found
  rw [own, there, Option.some.injEq] at same
  subst same
  have sent : Move.send frame ∈ handler.moves := by
    rw [← mem_frames, all]
    simp [Connection.pending, wire]
  obtain ⟨source, isThere, did⟩ := behaved.whole found sent
  exact ⟨handler.entry, source, handler.moves, isThere, did, sent⟩

/-- The message with this index has an origin before it. -/
def Originates
    (behaves : Queue → Message → List (Move Queue Message Note) → Prop)
    (submitted : Queue → Message → Prop) (contents : List (Queue × Message))
    (index : Nat) (content : Queue × Message) : Prop :=
  submitted content.1 content.2 ∨
    ∃ earlier : Nat, ∃ source : Queue × Message, ∃ moves, earlier < index ∧
      contents[earlier]? = some source ∧ behaves source.1 source.2 moves ∧
      .send (.publish content.1 content.2) ∈ moves

omit [DecidableEq Queue] in
theorem Originates.mono {contents more : List (Queue × Message)} {index : Nat}
    {content : Queue × Message}
    (origin : Originates behaves submitted contents index content)
    (grown : contents <+: more) :
    Originates behaves submitted more index content := by
  rcases origin with outside | ⟨earlier, source, moves, before, there, rest⟩
  · exact .inl outside
  · obtain ⟨others, same⟩ := grown
    refine .inr ⟨earlier, source, moves, before, ?_, rest⟩
    rw [← same, List.getElem?_append_left
      (List.getElem?_eq_some_iff.mp there).1, there]

theorem run_originates
    (run : Runs (step setup) permitted (.start base) exchange)
    (allowed : ∀ state action, permitted state action →
      Allowed behaves state action)
    (submits : ∀ state queue message,
      permitted state (.submit queue message) → submitted queue message)
    {index : Nat} {content : Queue × Message}
    (found : exchange.contents[index]? = some content) :
    Originates behaves submitted exchange.contents index content := by
  have all : Orderly base exchange ∧ Behaved behaves exchange ∧
      ∀ (index : Nat) (content : Queue × Message),
        exchange.contents[index]? = some content →
        Originates behaves submitted exchange.contents index content := by
    apply run.invariant
    · refine ⟨orderly_start, ?_, ?_⟩
      · intro number handler impossible
        cases impossible
      · intro index content impossible
        cases impossible
    · intro before action after holds permits taken
      obtain ⟨orderly, behaved, origin⟩ := holds
      refine ⟨orderly_step orderly taken,
        behaved_step behaved (allowed before action permits) taken, ?_⟩
      intro index content found
      have grown := contents_step taken
      rcases contents_arrival taken with same | ⟨queue, message, arrival, same⟩
      · rw [same] at found ⊢
        exact origin index content found
      rw [same, List.getElem?_append] at found
      split at found
      · exact (origin index content found).mono grown
      rename_i notBefore
      cases at_end : index - before.contents.length with
      | succ more =>
          rw [at_end] at found
          cases found
      | zero =>
          rw [at_end] at found
          cases found
          cases arrival with
          | submit => exact .inl (submits before queue message permits)
          | arrive there wire =>
              obtain ⟨earlier, source, moves, isThere, did, sent⟩ :=
                sender_of_arrival orderly behaved there wire
              have bound := (List.getElem?_eq_some_iff.mp isThere).1
              apply Originates.mono _ grown
              exact .inr ⟨earlier, source, moves, by omega, isThere, did,
                sent⟩
  exact all.2.2 index content found

/-- What holds of all that is submitted, and of all that is published by
handlers of such messages, holds of all messages. -/
theorem run_closed {holds : Queue → Message → Prop}
    (run : Runs (step setup) permitted (.start base) exchange)
    (allowed : ∀ state action, permitted state action →
      Allowed behaves state action)
    (submits : ∀ state queue message,
      permitted state (.submit queue message) → holds queue message)
    (publishes : ∀ source sourceMessage moves queue message,
      holds source sourceMessage → behaves source sourceMessage moves →
      .send (.publish queue message) ∈ moves → holds queue message)
    {content : Queue × Message} (member : content ∈ exchange.contents) :
    holds content.1 content.2 := by
  have all : ∀ (index : Nat) (content : Queue × Message),
      exchange.contents[index]? = some content →
      holds content.1 content.2 := by
    intro index
    induction index using Nat.strongRecOn with
    | ind index ih =>
        intro content found
        rcases run_originates run allowed submits found with
          outside | ⟨earlier, source, moves, before, there, did, sent⟩
        · exact outside
        · exact publishes source.1 source.2 moves content.1 content.2
            (ih earlier before source there) did sent
  obtain ⟨index, found⟩ := List.mem_iff_getElem?.mp member
  exact all index content found

end Bacs.Foundation.Messaging
