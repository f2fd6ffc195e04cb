import Bacs.Foundation.Messaging

/-!
# What is known of an acknowledged message

The frames of a connection arrive in order, so that a message is acknowledged
only after everything its handler published before is in the queues.
-/

namespace Bacs.Foundation.Messaging

variable {Queue Message Note : Type}

/-! ## What has arrived -/

def frames (moves : List (Move Queue Message Note)) :
    List (Frame Queue Message) :=
  moves.filterMap Move.frame

/-- The frames of a handler that are on their way. -/
def Connection.pending (connection : Connection Queue Message)
    (handler : Nat) : List (Frame Queue Message) :=
  (connection.wire.filter (·.1 = handler)).map (·.2)

/-- The messages published to the queues of `base` are there. -/
def Stored (base : List Queue) (exchange : Exchange Queue Message Note)
    (sent : List (Frame Queue Message)) : Prop :=
  ∀ queue message, .publish queue message ∈ sent → queue ∈ base →
    (queue, message) ∈ exchange.contents

theorem stored_nil {base : List Queue}
    {exchange : Exchange Queue Message Note} :
    Stored base exchange [] := by
  intro queue message member
  cases member

/-- What a handler has sent has arrived, is on its way, or was lost with the
connection, in this order. -/
def Sent (base : List Queue) (exchange : Exchange Queue Message Note)
    (number : Nat) (handler : Handler Queue Message Note) : Prop :=
  ∃ connection, exchange.connections[handler.connection]? = some connection ∧
    ∃ arrived dropped,
      frames handler.moves = arrived ++ connection.pending number ++ dropped ∧
      (connection.alive = true → dropped = []) ∧
      Stored base exchange arrived

/-- A handler of the entry has sent `frame`, after what is there now. -/
def Confirmed (base : List Queue) (exchange : Exchange Queue Message Note)
    (index : Nat) (frame : Frame Queue Message) : Prop :=
  ∃ number : Nat, ∃ handler : Handler Queue Message Note,
    exchange.handlers[number]? = some handler ∧ handler.entry = index ∧
    ∃ before after, frames handler.moves = before ++ frame :: after ∧
      Stored base exchange before

structure Orderly (base : List Queue)
    (exchange : Exchange Queue Message Note) : Prop where
  declared : ∀ queue ∈ base, queue ∈ exchange.declared
  sent : ∀ (number : Nat) (handler : Handler Queue Message Note),
    exchange.handlers[number]? = some handler →
    Sent base exchange number handler
  wired : ∀ (number : Nat) (connection : Connection Queue Message),
    exchange.connections[number]? = some connection →
    ∀ item ∈ connection.wire, ∃ handler : Handler Queue Message Note,
      exchange.handlers[item.1]? = some handler ∧
      handler.connection = number
  acked : ∀ (index : Nat) (entry : Entry Queue Message),
    exchange.entries[index]? = some entry → entry.place = .acked →
    Confirmed base exchange index .ack
  rejected : ∀ (index : Nat) (entry : Entry Queue Message),
    exchange.entries[index]? = some entry → entry.place = .rejected →
    Confirmed base exchange index .reject
  alive : ∀ (index : Nat) (entry : Entry Queue Message) (number : Nat),
    exchange.entries[index]? = some entry →
    entry.place = .delivered number →
    ∃ connection, exchange.connections[number]? = some connection ∧
      connection.alive = true

section Rules

variable {base : List Queue} {exchange next : Exchange Queue Message Note}
  {number : Nat} {handler : Handler Queue Message Note}

theorem frames_append (moves more : List (Move Queue Message Note)) :
    frames (moves ++ more) = frames moves ++ frames more :=
  List.filterMap_append

theorem Stored.mono {sent : List (Frame Queue Message)}
    (stored : Stored base exchange sent)
    (grown : exchange.contents <+: next.contents) :
    Stored base next sent := by
  intro queue message member inBase
  exact grown.subset (stored queue message member inBase)

theorem Sent.keep (sent : Sent base exchange number handler)
    (grown : exchange.contents <+: next.contents)
    (same : ∀ connection : Connection Queue Message,
      exchange.connections[handler.connection]? = some connection →
      ∃ later, next.connections[handler.connection]? = some later ∧
        later.pending number = connection.pending number ∧
        later.alive = connection.alive) :
    Sent base next number handler := by
  obtain ⟨connection, found, arrived, dropped, all, complete, stored⟩ := sent
  obtain ⟨later, foundLater, pending, alive⟩ := same connection found
  refine ⟨later, foundLater, arrived, dropped, ?_, ?_, stored.mono grown⟩
  · rw [pending]
    exact all
  · rw [alive]
    exact complete

theorem Sent.lose (sent : Sent base exchange number handler)
    (grown : exchange.contents <+: next.contents)
    (lost : next.connections[handler.connection]? = some .lost) :
    Sent base next number handler := by
  obtain ⟨connection, _, arrived, dropped, all, _, stored⟩ := sent
  refine ⟨.lost, lost, arrived, connection.pending number ++ dropped, ?_, ?_,
    stored.mono grown⟩
  · rw [all]
    simp [Connection.pending, Connection.lost]
  · simp [Connection.lost]

def Continues (exchange next : Exchange Queue Message Note) : Prop :=
  ∀ (number : Nat) (handler : Handler Queue Message Note),
    exchange.handlers[number]? = some handler →
    ∃ later : Handler Queue Message Note,
      next.handlers[number]? = some later ∧
      later.connection = handler.connection ∧
      later.entry = handler.entry ∧ handler.moves <+: later.moves

theorem Continues.of_eq (same : next.handlers = exchange.handlers) :
    Continues exchange next := by
  intro number handler found
  exact ⟨handler, same ▸ found, rfl, rfl, List.prefix_rfl⟩

theorem Confirmed.mono {index : Nat} {frame : Frame Queue Message}
    (confirmed : Confirmed base exchange index frame)
    (grown : exchange.contents <+: next.contents)
    (continues : Continues exchange next) :
    Confirmed base next index frame := by
  obtain ⟨number, handler, found, same, before, after, all, stored⟩ :=
    confirmed
  obtain ⟨later, foundLater, _, entry, more, moves⟩ :=
    continues number handler found
  refine ⟨number, later, foundLater, entry.trans same, before,
    after ++ frames more, ?_, stored.mono grown⟩
  rw [← moves, frames_append, all]
  simp

variable [DecidableEq Queue] {setup : Setup Queue Message}
  {action : Action Queue Message Note}

theorem continues_step (taken : step setup exchange action = some next) :
    Continues exchange next := by
  cases action with
  | connect => cases taken; exact .of_eq rfl
  | declare queue => cases taken; exact .of_eq rfl
  | submit queue message =>
      cases taken
      exact .of_eq Exchange.handlers_store
  | deliver connection index =>
      simp only [step, Option.bind_eq_bind, Option.bind_eq_some_iff] at taken
      obtain ⟨line, _, entry, _, taken⟩ := taken
      split at taken
      · cases taken
        intro number handler found
        refine ⟨handler, ?_, rfl, rfl, List.prefix_rfl⟩
        exact (List.getElem?_append_left
          (List.getElem?_eq_some_iff.mp found).1).trans found
      · cases taken
  | act acting move =>
      simp only [step, Option.bind_eq_bind, Option.bind_eq_some_iff] at taken
      obtain ⟨actor, there, taken⟩ := taken
      cases taken
      intro number handler found
      by_cases same : acting = number
      · subst same
        rw [there, Option.some.injEq] at found
        subst found
        refine ⟨{ actor with moves := actor.moves ++ [move] }, ?_, rfl, rfl,
          List.prefix_append _ _⟩
        simp [(List.getElem?_eq_some_iff.mp there).1]
      · refine ⟨handler, ?_, rfl, rfl, List.prefix_rfl⟩
        simp [List.getElem?_set_ne same, found]
  | arrive connection =>
      simp only [step, Option.bind_eq_bind, Option.bind_eq_some_iff] at taken
      obtain ⟨line, _, taken⟩ := taken
      split at taken
      · cases taken
      · cases taken
        exact .of_eq (by simp)
  | lose connection => cases taken; exact .of_eq rfl
  | restart => cases taken; exact .of_eq rfl

omit [DecidableEq Queue] in
theorem pending_push {connection : Connection Queue Message}
    {acting : Nat} {frame : Frame Queue Message} :
    (connection.push acting frame).pending number =
      if connection.alive ∧ acting = number then
        connection.pending number ++ [frame]
      else connection.pending number := by
  unfold Connection.push
  by_cases alive : connection.alive
  · by_cases same : acting = number
    · simp [alive, same, Connection.pending]
    · simp [alive, same, Connection.pending]
  · simp [alive]

omit [DecidableEq Queue] in
@[simp] theorem alive_push {connection : Connection Queue Message}
    {acting : Nat} {frame : Frame Queue Message} :
    (connection.push acting frame).alive = connection.alive := by
  unfold Connection.push
  split <;> rfl

theorem sent_act {acting : Nat} {move : Move Queue Message Note}
    (orderly : Orderly base exchange)
    (taken : step setup exchange (.act acting move) = some next)
    (found : next.handlers[number]? = some handler) :
    Sent base next number handler := by
  have grown := contents_step taken
  simp only [step, Option.bind_eq_bind, Option.bind_eq_some_iff] at taken
  obtain ⟨actor, there, taken⟩ := taken
  cases taken
  by_cases same : acting = number
  · subst same
    have bound := (List.getElem?_eq_some_iff.mp there).1
    simp only [List.getElem?_set_self bound, Option.some.injEq] at found
    subst found
    obtain ⟨connection, line, arrived, dropped, all, complete, stored⟩ :=
      orderly.sent acting actor there
    cases move with
    | note note =>
        refine ⟨connection, line, arrived, dropped, ?_, complete,
          stored.mono grown⟩
        rw [frames_append, all]
        simp [frames, Move.frame]
    | send frame =>
        by_cases alive : connection.alive
        · refine ⟨connection.push acting frame, ?_, arrived, [], ?_, ?_,
            stored.mono grown⟩
          · simp [List.getElem?_modify_eq, line]
          · rw [frames_append, all, pending_push, complete alive]
            simp [alive, frames, Move.frame]
          · simp
        · refine ⟨connection.push acting frame, ?_, arrived,
            dropped ++ [frame], ?_, ?_, stored.mono grown⟩
          · simp [List.getElem?_modify_eq, line]
          · rw [frames_append, all, pending_push]
            simp [alive, frames, Move.frame]
          · intro impossible
            rw [alive_push] at impossible
            exact absurd impossible alive
  · rw [List.getElem?_set_ne same] at found
    apply (orderly.sent number handler found).keep grown
    intro connection line
    cases move with
    | note note => exact ⟨connection, line, rfl, rfl⟩
    | send frame =>
        by_cases here : actor.connection = handler.connection
        · refine ⟨connection.push acting frame, ?_, ?_, alive_push⟩
          · simp [here, List.getElem?_modify_eq, line]
          · rw [pending_push, if_neg]
            simp [same]
        · refine ⟨connection, ?_, rfl, rfl⟩
          simp [here, line]

theorem stored_obey {index : Nat} {arrived : List (Frame Queue Message)}
    {frame : Frame Queue Message}
    (declared : ∀ queue ∈ base, queue ∈ exchange.declared)
    (stored : Stored base exchange arrived) :
    Stored base (exchange.obey index number frame) (arrived ++ [frame]) := by
  intro queue message member inBase
  rcases List.mem_append.mp member with before | last
  · exact Exchange.contents_obey.subset (stored queue message before inBase)
  · rw [List.mem_singleton] at last
    subst last
    rw [Exchange.obey, Exchange.contents_store,
      if_pos (declared queue inBase)]
    exact List.mem_append_right _ (List.mem_singleton.mpr rfl)

/-- The frame that arrives is the first that its handler has on its way. -/
theorem sent_arrive {index sender : Nat} {line : Connection Queue Message}
    {frame : Frame Queue Message} {rest : List (Nat × Frame Queue Message)}
    (orderly : Orderly base exchange)
    (there : exchange.connections[index]? = some line)
    (wire : line.wire = (sender, frame) :: rest)
    (found : exchange.handlers[number]? = some handler) :
    Sent base ((exchange.remain index line rest).obey index sender frame)
      number handler := by
  have bound := (List.getElem?_eq_some_iff.mp there).1
  have sent := orderly.sent number handler found
  by_cases here : handler.connection = index
  · obtain ⟨connection, same, arrived, dropped, all, complete, stored⟩ := sent
    rw [here, there, Option.some.injEq] at same
    subst same
    refine ⟨{ line with wire := rest }, ?_, ?_⟩
    · simp [Exchange.remain, here, bound]
    by_cases own : sender = number
    · subst own
      refine ⟨arrived ++ [frame], dropped, ?_, complete, ?_⟩
      · rw [all]
        simp [Connection.pending, wire]
      · have before : Stored base (exchange.remain index line rest) arrived :=
          stored
        exact stored_obey orderly.declared before
    · refine ⟨arrived, dropped, ?_, complete,
        stored.mono Exchange.contents_remain_obey⟩
      rw [all]
      simp [Connection.pending, wire, own]
  · apply sent.keep Exchange.contents_remain_obey
    intro connection same
    refine ⟨connection, ?_, rfl, rfl⟩
    simp [Exchange.remain, List.getElem?_set_ne (Ne.symm here), same]

/-- Where the place of a message comes from, when a step is taken. -/
inductive Placed (setup : Setup Queue Message)
    (exchange next : Exchange Queue Message Note) (index : Nat) : Place → Prop
  | kept {before : Entry Queue Message}
      (found : exchange.entries[index]? = some before)
      (alive : ∀ (number : Nat) (line : Connection Queue Message),
        before.place = .delivered number →
        exchange.connections[number]? = some line →
        ∃ later, next.connections[number]? = some later ∧
          later.alive = line.alive) :
      Placed setup exchange next index before.place
  | ready : Placed setup exchange next index .ready
  | gone {content : Queue × Message}
      (there : next.contents[index]? = some content)
      (volatile : setup.persistent content.2 = false ∨
        setup.autoAck content.1 = true) :
      Placed setup exchange next index .gone
  | delivered {number : Nat} {line : Connection Queue Message}
      (found : next.connections[number]? = some line)
      (alive : line.alive = true) :
      Placed setup exchange next index (.delivered number)
  | settled {number sender : Nat} {line : Connection Queue Message}
      {frame : Frame Queue Message} {place : Place}
      {rest : List (Nat × Frame Queue Message)}
      {handler : Handler Queue Message Note}
      (there : exchange.connections[number]? = some line)
      (wire : line.wire = (sender, frame) :: rest)
      (found : exchange.handlers[sender]? = some handler)
      (own : handler.entry = index)
      (settles : frame = .ack ∧ place = .acked ∨
        frame = .reject ∧ place = .rejected) :
      Placed setup exchange next index place

omit [DecidableEq Queue] in
theorem Placed.gone_of {index : Nat} {place : Place}
    (gone : place = .gone) {content : Queue × Message}
    (there : next.contents[index]? = some content)
    (volatile : setup.persistent content.2 = false ∨
      setup.autoAck content.1 = true) :
    Placed setup exchange next index place :=
  gone ▸ .gone there volatile

omit [DecidableEq Queue] in
theorem Placed.delivered_of {index : Nat} {place : Place}
    (delivered : place = .delivered number) {line : Connection Queue Message}
    (found : next.connections[number]? = some line)
    (alive : line.alive = true) :
    Placed setup exchange next index place :=
  delivered ▸ .delivered found alive

omit [DecidableEq Queue] in
theorem Placed.same {index : Nat} {entry : Entry Queue Message}
    (entries : next.entries = exchange.entries)
    (connections : ∀ (number : Nat) (line : Connection Queue Message),
      exchange.connections[number]? = some line →
      ∃ later, next.connections[number]? = some later ∧
        later.alive = line.alive)
    (found : next.entries[index]? = some entry) :
    Placed setup exchange next index entry.place := by
  rw [entries] at found
  exact .kept found fun number line _ there => connections number line there

theorem placed_store {index : Nat} {entry : Entry Queue Message}
    {queue : Queue} {message : Message}
    (found : (exchange.store queue message).entries[index]? = some entry) :
    (∃ before, exchange.entries[index]? = some before ∧
      before.place = entry.place) ∨ entry.place = .ready := by
  unfold Exchange.store at found
  split at found
  · rw [List.getElem?_append] at found
    split at found
    · exact Or.inl ⟨entry, found, rfl⟩
    · cases List.mem_singleton.mp (List.mem_of_getElem? found)
      exact Or.inr rfl
  · exact Or.inl ⟨entry, found, rfl⟩

omit [DecidableEq Queue] in
theorem placed_settle {connection index : Nat} {place : Place}
    {entry : Entry Queue Message}
    (found : (exchange.settle connection number place).entries[index]? =
      some entry) :
    (∃ before, exchange.entries[index]? = some before ∧
      before.place = entry.place) ∨
    (entry.place = place ∧ ∃ handler,
      exchange.handlers[number]? = some handler ∧
      Handler.entry handler = index) := by
  unfold Exchange.settle at found
  split at found
  · exact Or.inl ⟨entry, found, rfl⟩
  · rename_i handler there
    rw [List.getElem?_modify] at found
    cases before : exchange.entries[index]? with
    | none => simp [before] at found
    | some earlier =>
        rw [before] at found
        by_cases own : handler.entry = index
        · simp only [own, if_true, Option.map_eq_map, Option.map_some,
            Option.some.injEq] at found
          subst found
          unfold Entry.settle
          split
          · exact Or.inr ⟨rfl, handler, there, own⟩
          · exact Or.inl ⟨earlier, rfl, rfl⟩
        · simp only [own, if_false, Option.map_eq_map, Option.map_some,
            Option.some.injEq] at found
          exact Or.inl ⟨earlier, rfl, congrArg Entry.place found⟩

theorem placed_deliver {connection target index : Nat}
    {entry : Entry Queue Message}
    (taken : step setup exchange (.deliver connection target) = some next)
    (found : next.entries[index]? = some entry) :
    Placed setup exchange next index entry.place := by
  have content : next.contents[index]? = some entry.content := by
    rw [Exchange.contents, List.getElem?_map, found]
    rfl
  simp only [step, Option.bind_eq_bind, Option.bind_eq_some_iff] at taken
  obtain ⟨line, there, given, isThere, taken⟩ := taken
  split at taken
  · rename_i possible
    cases taken
    simp only [List.getElem?_set] at found
    split at found
    · split at found
      · cases found
        by_cases automatic : setup.autoAck given.queue
        · exact .gone_of (if_pos automatic) content (Or.inr automatic)
        · exact .delivered_of (if_neg automatic) there possible.1
      · cases found
    · exact .kept found fun number line _ there => ⟨line, there, rfl⟩
  · cases taken

theorem placed_act {acting index : Nat} {move : Move Queue Message Note}
    {entry : Entry Queue Message}
    (taken : step setup exchange (.act acting move) = some next)
    (found : next.entries[index]? = some entry) :
    Placed setup exchange next index entry.place := by
  simp only [step, Option.bind_eq_bind, Option.bind_eq_some_iff] at taken
  obtain ⟨handler, _, taken⟩ := taken
  cases taken
  refine .same rfl (fun other line there => ?_) found
  cases move with
  | note note => exact ⟨line, there, rfl⟩
  | send frame =>
      dsimp only
      rw [List.getElem?_modify, there]
      by_cases own : handler.connection = other
      · exact ⟨line.push acting frame, by simp [own], alive_push⟩
      · exact ⟨line, by simp [own], rfl⟩

theorem alive_arrive {index sender : Nat} {line : Connection Queue Message}
    {frame : Frame Queue Message} {rest : List (Nat × Frame Queue Message)}
    (there : exchange.connections[index]? = some line) (number : Nat)
    (before : Connection Queue Message)
    (isThere : exchange.connections[number]? = some before) :
    ∃ later, ((exchange.remain index line rest).obey index sender
        frame).connections[number]? = some later ∧
      later.alive = before.alive := by
  rw [Exchange.connections_obey, Exchange.remain, List.getElem?_set]
  by_cases own : index = number
  · subst own
    rw [there, Option.some.injEq] at isThere
    subst isThere
    exact ⟨{ line with wire := rest },
      by simp [(List.getElem?_eq_some_iff.mp there).1], rfl⟩
  · exact ⟨before, by simp [own, isThere], rfl⟩

theorem placed_arrive {connection index : Nat} {entry : Entry Queue Message}
    (taken : step setup exchange (.arrive connection) = some next)
    (found : next.entries[index]? = some entry) :
    Placed setup exchange next index entry.place := by
  simp only [step, Option.bind_eq_bind, Option.bind_eq_some_iff] at taken
  obtain ⟨line, there, taken⟩ := taken
  split at taken
  · cases taken
  · rename_i sender frame rest wire
    cases taken
    have kept : ∀ before, exchange.entries[index]? = some before →
        before.place = entry.place →
        Placed setup exchange ((exchange.remain connection line rest).obey
          connection sender frame) index entry.place := by
      intro before isThere same
      rw [← same]
      exact .kept isThere fun number line _ => alive_arrive there number line
    cases frame with
    | publish queue message =>
        rcases placed_store found with ⟨before, isThere, same⟩ | ready
        · exact kept before isThere same
        · rw [ready]
          exact .ready
    | ack =>
        rcases placed_settle found with
          ⟨before, isThere, same⟩ | ⟨same, handler, isThere, own⟩
        · exact kept before isThere same
        · exact .settled there wire isThere own (Or.inl ⟨rfl, same⟩)
    | reject =>
        rcases placed_settle found with
          ⟨before, isThere, same⟩ | ⟨same, handler, isThere, own⟩
        · exact kept before isThere same
        · exact .settled there wire isThere own (Or.inr ⟨rfl, same⟩)

theorem placed_lose {connection index : Nat} {entry : Entry Queue Message}
    (taken : step setup exchange (.lose connection) = some next)
    (found : next.entries[index]? = some entry) :
    Placed setup exchange next index entry.place := by
  cases taken
  simp only [List.getElem?_map, Option.map_eq_some_iff] at found
  obtain ⟨before, isThere, same⟩ := found
  subst same
  unfold Entry.recover
  split
  · rename_i number place
    split
    · exact .ready
    · rename_i different
      apply Placed.kept isThere
      intro other line held there
      rw [place, Place.delivered.injEq] at held
      subst held
      refine ⟨line, ?_, rfl⟩
      rw [beq_iff_eq] at different
      dsimp only
      rw [List.getElem?_set_ne (Ne.symm different), there]
  · rename_i elsewhere
    apply Placed.kept isThere
    intro other line held
    exact absurd held (elsewhere other)

theorem placed_restart {index : Nat} {entry : Entry Queue Message}
    (taken : step setup exchange .restart = some next)
    (found : next.entries[index]? = some entry) :
    Placed setup exchange next index entry.place := by
  have content : next.contents[index]? = some entry.content := by
    rw [Exchange.contents, List.getElem?_map, found]
    rfl
  cases taken
  simp only [List.getElem?_map, Option.map_eq_some_iff] at found
  obtain ⟨before, isThere, same⟩ := found
  subst same
  rw [Entry.content_restart] at content
  have forgotten : setup.persistent before.message ≠ true →
      setup.persistent before.content.2 = false :=
    Bool.eq_false_iff.mpr
  have restarted : (before.restart setup).place =
      (if setup.persistent before.message then .ready else .gone) ∨
      (before.restart setup).place = before.place ∧
        ∀ other, before.place ≠ .delivered other := by
    unfold Entry.restart
    cases place : before.place <;> simp [place]
  rcases restarted with waiting | ⟨same, elsewhere⟩
  · rw [waiting]
    split
    · exact .ready
    · rename_i volatile
      exact .gone content (Or.inl (forgotten volatile))
  · rw [same]
    apply Placed.kept isThere
    intro other line held
    exact absurd held (elsewhere other)

/-- Only the arrival of an acknowledgement settles a message. -/
theorem placed_step {index : Nat} {entry : Entry Queue Message}
    (taken : step setup exchange action = some next)
    (found : next.entries[index]? = some entry) :
    Placed setup exchange next index entry.place := by
  cases action with
  | connect =>
      cases taken
      refine .same rfl (fun number line there => ⟨line, ?_, rfl⟩) found
      exact (List.getElem?_append_left
        (List.getElem?_eq_some_iff.mp there).1).trans there
  | declare queue =>
      cases taken
      exact .same rfl (fun number line there => ⟨line, there, rfl⟩) found
  | submit queue message =>
      cases taken
      rcases placed_store found with ⟨before, there, same⟩ | ready
      · rw [← same]
        refine .kept there fun number line _ isThere => ⟨line, ?_, rfl⟩
        rw [Exchange.connections_store]
        exact isThere
      · rw [ready]
        exact .ready
  | deliver connection target => exact placed_deliver taken found
  | act acting move => exact placed_act taken found
  | arrive connection => exact placed_arrive taken found
  | lose connection => exact placed_lose taken found
  | restart => exact placed_restart taken found

theorem sent_step (orderly : Orderly base exchange)
    (taken : step setup exchange action = some next)
    (found : next.handlers[number]? = some handler) :
    Sent base next number handler := by
  have grown := contents_step taken
  cases action with
  | connect =>
      cases taken
      apply (orderly.sent number handler found).keep grown
      intro connection there
      refine ⟨connection, ?_, rfl, rfl⟩
      exact (List.getElem?_append_left
        (List.getElem?_eq_some_iff.mp there).1).trans there
  | declare queue =>
      cases taken
      exact (orderly.sent number handler found).keep grown
        fun connection there => ⟨connection, there, rfl, rfl⟩
  | submit queue message =>
      cases taken
      rw [Exchange.handlers_store] at found
      apply (orderly.sent number handler found).keep grown
      intro connection there
      rw [Exchange.connections_store]
      exact ⟨connection, there, rfl, rfl⟩
  | deliver connection index =>
      simp only [step, Option.bind_eq_bind, Option.bind_eq_some_iff] at taken
      obtain ⟨line, there, given, _, taken⟩ := taken
      split at taken
      · cases taken
        simp only [List.getElem?_append] at found
        split at found
        · exact (orderly.sent number handler found).keep grown
            fun connection there => ⟨connection, there, rfl, rfl⟩
        · rename_i beyond
          have last := List.getElem?_eq_some_iff.mp found
          cases List.mem_singleton.mp (List.mem_of_getElem? found)
          refine ⟨line, there, [], [], ?_, fun _ => rfl,
            stored_nil⟩
          have nothing : line.pending number = [] := by
            rw [Connection.pending, List.map_eq_nil_iff,
              List.filter_eq_nil_iff]
            intro item member same
            obtain ⟨handler, isThere, _⟩ :=
              orderly.wired connection line there item member
            have bound := (List.getElem?_eq_some_iff.mp isThere).1
            simp only [decide_eq_true_eq] at same
            omega
          rw [nothing]
          rfl
      · cases taken
  | act acting move => exact sent_act orderly taken found
  | arrive connection =>
      simp only [step, Option.bind_eq_bind, Option.bind_eq_some_iff] at taken
      obtain ⟨line, there, taken⟩ := taken
      split at taken
      · cases taken
      · rename_i sender frame rest wire
        cases taken
        rw [Exchange.handlers_obey] at found
        exact sent_arrive orderly there wire found
  | lose connection =>
      cases taken
      have before := orderly.sent number handler found
      by_cases own : connection = handler.connection
      · apply before.lose grown
        obtain ⟨line, there, _⟩ := before
        simp [own, (List.getElem?_eq_some_iff.mp there).1]
      · apply before.keep grown
        intro line there
        refine ⟨line, ?_, rfl, rfl⟩
        simp [List.getElem?_set_ne own, there]
  | restart =>
      cases taken
      have before := orderly.sent number handler found
      apply before.lose grown
      obtain ⟨line, there, _⟩ := before
      rw [List.getElem?_map, there]
      rfl

/-- A handler of the connection has sent the frame. -/
def Wired (exchange : Exchange Queue Message Note) (index : Nat)
    (item : Nat × Frame Queue Message) : Prop :=
  ∃ handler : Handler Queue Message Note,
    exchange.handlers[item.1]? = some handler ∧ handler.connection = index

omit [DecidableEq Queue] in
theorem Wired.later {index : Nat} {item : Nat × Frame Queue Message}
    (wired : Wired exchange index item)
    (continues : Continues exchange next) : Wired next index item := by
  obtain ⟨handler, there, own⟩ := wired
  obtain ⟨later, isThere, same, _, _⟩ := continues item.1 handler there
  exact ⟨later, isThere, same.trans own⟩

theorem wired_act (orderly : Orderly base exchange) {acting : Nat}
    {move : Move Queue Message Note}
    (taken : step setup exchange (.act acting move) = some next)
    {index : Nat} {line : Connection Queue Message}
    (found : next.connections[index]? = some line) :
    ∀ item ∈ line.wire, Wired exchange index item := by
  simp only [step, Option.bind_eq_bind, Option.bind_eq_some_iff] at taken
  obtain ⟨actor, there, taken⟩ := taken
  cases taken
  cases move with
  | note note => exact orderly.wired index line found
  | send frame =>
      dsimp only at found
      rw [List.getElem?_modify] at found
      cases before : exchange.connections[index]? with
      | none => simp [before] at found
      | some earlier =>
          have old := orderly.wired index earlier before
          rw [before] at found
          by_cases own : actor.connection = index
          · simp only [own, if_true, Option.map_eq_map, Option.map_some,
              Option.some.injEq] at found
            subst found
            intro item member
            have cases : item ∈ earlier.wire ∨ item = (acting, frame) := by
              unfold Connection.push at member
              split at member
              · simpa using member
              · exact Or.inl member
            rcases cases with sent | rfl
            · exact old item sent
            · exact ⟨actor, there, own⟩
          · simp only [own, if_false, Option.map_eq_map, Option.map_some,
              Option.some.injEq] at found
            subst found
            exact old

theorem wired_arrive (orderly : Orderly base exchange) {connection : Nat}
    (taken : step setup exchange (.arrive connection) = some next)
    {index : Nat} {line : Connection Queue Message}
    (found : next.connections[index]? = some line) :
    ∀ item ∈ line.wire, Wired exchange index item := by
  simp only [step, Option.bind_eq_bind, Option.bind_eq_some_iff] at taken
  obtain ⟨earlier, there, taken⟩ := taken
  split at taken
  · cases taken
  · rename_i sender frame rest wire
    cases taken
    rw [Exchange.connections_obey, Exchange.remain,
      List.getElem?_set] at found
    split at found
    · rename_i own
      subst own
      split at found
      · cases found
        intro item member
        apply orderly.wired connection earlier there item
        rw [wire]
        exact List.mem_cons_of_mem _ member
      · cases found
    · exact orderly.wired index line found

theorem wired_step (orderly : Orderly base exchange)
    (taken : step setup exchange action = some next) {index : Nat}
    {line : Connection Queue Message}
    (found : next.connections[index]? = some line) :
    ∀ item ∈ line.wire, Wired next index item := by
  have continues := continues_step taken
  have kept : exchange.connections[index]? = some line →
      ∀ item ∈ line.wire, Wired next index item :=
    fun there item member =>
      Wired.later (orderly.wired index line there item member) continues
  cases action with
  | connect =>
      cases taken
      simp only [List.getElem?_append] at found
      split at found
      · exact kept found
      · cases List.mem_singleton.mp (List.mem_of_getElem? found)
        intro item member
        cases member
  | declare queue =>
      cases taken
      exact kept found
  | submit queue message =>
      cases taken
      rw [Exchange.connections_store] at found
      exact kept found
  | deliver connection target =>
      simp only [step, Option.bind_eq_bind, Option.bind_eq_some_iff] at taken
      obtain ⟨line, there, given, _, taken⟩ := taken
      split at taken
      · cases taken
        exact kept found
      · cases taken
  | act acting move =>
      exact fun item member =>
        (wired_act orderly taken found item member).later continues
  | arrive connection =>
      exact fun item member =>
        (wired_arrive orderly taken found item member).later continues
  | lose connection =>
      cases taken
      simp only [List.getElem?_set] at found
      split at found
      · split at found
        · cases found
          intro item member
          cases member
        · cases found
      · exact kept found
  | restart =>
      cases taken
      simp only [List.getElem?_map, Option.map_eq_some_iff] at found
      obtain ⟨_, _, same⟩ := found
      subst same
      intro item member
      cases member

omit [DecidableEq Queue] in
theorem confirmed_arrive {index sender : Nat}
    {line : Connection Queue Message} {frame : Frame Queue Message}
    {rest : List (Nat × Frame Queue Message)}
    (orderly : Orderly base exchange)
    (there : exchange.connections[index]? = some line)
    (wire : line.wire = (sender, frame) :: rest)
    (found : exchange.handlers[sender]? = some handler) :
    Confirmed base exchange handler.entry frame := by
  obtain ⟨connection, same, arrived, dropped, all, _, stored⟩ :=
    orderly.sent sender handler found
  have first : (sender, frame) ∈ line.wire := by
    rw [wire]
    exact List.mem_cons_self
  obtain ⟨owner, isThere, own⟩ := orderly.wired index line there _ first
  rw [found, Option.some.injEq] at isThere
  subst isThere
  rw [own, there, Option.some.injEq] at same
  subst same
  refine ⟨sender, handler, found, rfl, arrived,
    ({ line with wire := rest } : Connection Queue Message).pending sender ++
      dropped, ?_, stored⟩
  rw [all]
  simp [Connection.pending, wire]

theorem orderly_step (orderly : Orderly base exchange)
    (taken : step setup exchange action = some next) :
    Orderly base next := by
  have grown := contents_step taken
  have continues := continues_step taken
  constructor
  case declared =>
    exact fun queue inBase =>
      declared_step taken (orderly.declared queue inBase)
  case sent => exact fun number handler found => sent_step orderly taken found
  case wired => exact fun number line found => wired_step orderly taken found
  case acked =>
    intro index entry found acked
    have placed := placed_step taken found
    rw [acked] at placed
    generalize same : Place.acked = place at placed
    cases placed with
    | kept there alive =>
        exact (orderly.acked index _ there same.symm).mono grown continues
    | ready => cases same
    | gone => cases same
    | delivered there alive => cases same
    | settled there wire isThere own settles =>
        subst same
        rcases settles with ⟨frame, _⟩ | ⟨_, impossible⟩
        · subst frame own
          exact (confirmed_arrive orderly there wire isThere).mono grown
            continues
        · cases impossible
  case rejected =>
    intro index entry found rejected
    have placed := placed_step taken found
    rw [rejected] at placed
    generalize same : Place.rejected = place at placed
    cases placed with
    | kept there alive =>
        exact (orderly.rejected index _ there same.symm).mono grown continues
    | ready => cases same
    | gone => cases same
    | delivered there alive => cases same
    | settled there wire isThere own settles =>
        subst same
        rcases settles with ⟨_, impossible⟩ | ⟨frame, _⟩
        · cases impossible
        · subst frame own
          exact (confirmed_arrive orderly there wire isThere).mono grown
            continues
  case alive =>
    intro index entry number found delivered
    have placed := placed_step taken found
    rw [delivered] at placed
    generalize same : Place.delivered number = place at placed
    cases placed with
    | kept there alive =>
        obtain ⟨line, isThere, live⟩ :=
          orderly.alive index _ number there same.symm
        obtain ⟨later, foundLater, still⟩ :=
          alive number line same.symm isThere
        exact ⟨later, foundLater, still.trans live⟩
    | ready => cases same
    | gone => cases same
    | delivered there alive =>
        cases same
        exact ⟨_, there, alive⟩
    | settled there wire isThere own settles =>
        subst same
        rcases settles with ⟨_, impossible⟩ | ⟨_, impossible⟩
        · cases impossible
        · cases impossible

omit [DecidableEq Queue] in
theorem orderly_start :
    Orderly base (.start base : Exchange Queue Message Note) where
  declared := fun _ inBase => inBase
  sent := nofun
  wired := nofun
  acked := nofun
  rejected := nofun
  alive := nofun

def Behaved (behaves : Queue → Message → List (Move Queue Message Note) → Prop)
    (exchange : Exchange Queue Message Note) : Prop :=
  ∀ (number : Nat) (handler : Handler Queue Message Note),
    exchange.handlers[number]? = some handler →
    ∃ content, exchange.contents[handler.entry]? = some content ∧
      ∀ before move, before ++ [move] <+: handler.moves →
        behaves content.1 content.2 (before ++ [move])

theorem behaved_step
    {behaves : Queue → Message → List (Move Queue Message Note) → Prop}
    (behaved : Behaved behaves exchange)
    (permitted : Allowed behaves exchange action)
    (taken : step setup exchange action = some next) :
    Behaved behaves next := by
  have stays : ∀ (index : Nat) (content : Queue × Message),
      exchange.contents[index]? = some content →
      next.contents[index]? = some content := by
    intro index content there
    obtain ⟨more, same⟩ := contents_step taken
    rw [← same]
    exact (List.getElem?_append_left
      (List.getElem?_eq_some_iff.mp there).1).trans there
  have kept : ∀ (number : Nat) (handler : Handler Queue Message Note),
      exchange.handlers[number]? = some handler →
      ∃ content, next.contents[handler.entry]? = some content ∧
        ∀ before move, before ++ [move] <+: handler.moves →
          behaves content.1 content.2 (before ++ [move]) := by
    intro number handler found
    obtain ⟨content, there, did⟩ := behaved number handler found
    exact ⟨content, stays _ _ there, did⟩
  intro number handler found
  cases action with
  | connect => cases taken; exact kept number handler found
  | declare queue => cases taken; exact kept number handler found
  | submit queue message =>
      cases taken
      rw [Exchange.handlers_store] at found
      exact kept number handler found
  | deliver connection index =>
      simp only [step, Option.bind_eq_bind, Option.bind_eq_some_iff] at taken
      obtain ⟨line, _, entry, there, taken⟩ := taken
      split at taken
      · cases taken
        simp only [List.getElem?_append] at found
        split at found
        · exact kept number handler found
        · cases List.mem_singleton.mp (List.mem_of_getElem? found)
          refine ⟨entry.content, stays _ _ ?_, ?_⟩
          · rw [Exchange.contents, List.getElem?_map, there]
            rfl
          · intro before move prefixed
            exact absurd (List.prefix_nil.mp prefixed) (by simp)
      · cases taken
  | act acting move =>
      simp only [step, Option.bind_eq_bind, Option.bind_eq_some_iff] at taken
      obtain ⟨actor, there, taken⟩ := taken
      cases taken
      by_cases own : acting = number
      · subst own
        have bound := (List.getElem?_eq_some_iff.mp there).1
        simp only [List.getElem?_set_self bound, Option.some.injEq] at found
        subst found
        obtain ⟨content, isThere, did⟩ := kept acting actor there
        refine ⟨content, isThere, ?_⟩
        intro before last prefixed
        rcases List.prefix_concat_iff.mp prefixed with whole | earlier
        · rw [whole]
          exact permitted actor content there isThere
        · exact did before last earlier
      · rw [List.getElem?_set_ne own] at found
        exact kept number handler found
  | arrive connection =>
      simp only [step, Option.bind_eq_bind, Option.bind_eq_some_iff] at taken
      obtain ⟨line, _, taken⟩ := taken
      split at taken
      · cases taken
      · cases taken
        rw [Exchange.handlers_obey] at found
        exact kept number handler found
  | lose connection => cases taken; exact kept number handler found
  | restart => cases taken; exact kept number handler found

/-- A handler of the entry has sent `frame`; before, it did what its program
may do before, and what it published before is in the queues. -/
def Answered (base : List Queue)
    (behaves : Queue → Message → List (Move Queue Message Note) → Prop)
    (exchange : Exchange Queue Message Note) (index : Nat)
    (entry : Entry Queue Message) (frame : Frame Queue Message) : Prop :=
  ∃ handler ∈ exchange.handlers, handler.entry = index ∧
    ∃ before, before ++ [.send frame] <+: handler.moves ∧
      behaves entry.queue entry.message (before ++ [.send frame]) ∧
      ∀ queue ∈ base, ∀ message, .send (.publish queue message) ∈ before →
        (queue, message) ∈ exchange.contents

omit [DecidableEq Queue] in
theorem Confirmed.answered {index : Nat} {entry : Entry Queue Message}
    {frame : Frame Queue Message}
    {behaves : Queue → Message → List (Move Queue Message Note) → Prop}
    (confirmed : Confirmed base exchange index frame)
    (behaved : Behaved behaves exchange)
    (found : exchange.entries[index]? = some entry) :
    Answered base behaves exchange index entry frame := by
  obtain ⟨number, handler, there, own, before, after, all, stored⟩ := confirmed
  subst own
  obtain ⟨sent, others, same, earlier, later⟩ :=
    List.filterMap_eq_append_iff.mp all
  obtain ⟨notes, move, rest, split, silent, isFrame, _⟩ :=
    List.filterMap_eq_cons_iff.mp later
  have frameMove : move = .send frame := by
    cases move with
    | send other => exact congrArg Move.send (Option.some.inj isFrame)
    | note note => cases isFrame
  subst frameMove split
  have prefixed : sent ++ notes ++ [.send frame] <+: handler.moves := by
    rw [same]
    exact ⟨rest, by simp⟩
  obtain ⟨content, isThere, did⟩ := behaved number handler there
  rw [Exchange.contents, List.getElem?_map, found, Option.map_some,
    Option.some.injEq] at isThere
  subst isThere
  refine ⟨handler, List.mem_of_getElem? there, rfl, sent ++ notes, prefixed,
    did _ _ prefixed, ?_⟩
  intro queue inBase message member
  apply stored queue message _ inBase
  rw [← earlier]
  rcases List.mem_append.mp member with sentBefore | impossible
  · exact List.mem_filterMap.mpr ⟨_, sentBefore, rfl⟩
  · cases silent _ impossible

section Runs

variable {behaves : Queue → Message → List (Move Queue Message Note) → Prop}
  {permitted : Exchange Queue Message Note → Action Queue Message Note → Prop}

theorem run_orderly
    (run : Runs (step setup) permitted (.start base) exchange) :
    Orderly base exchange := by
  apply run.invariant orderly_start
  intro before action after holds _ taken
  exact orderly_step holds taken

theorem run_behaved
    (run : Runs (step setup) (Allowed behaves) (.start base) exchange) :
    Behaved behaves exchange := by
  apply run.invariant
  · exact nofun
  · intro before action after holds allowed taken
    exact behaved_step holds allowed taken

theorem acked_answered
    (run : Runs (step setup) (Allowed behaves) (.start base) exchange)
    {index : Nat} {entry : Entry Queue Message}
    (found : exchange.entries[index]? = some entry)
    (acked : entry.place = .acked) :
    Answered base behaves exchange index entry .ack :=
  ((run_orderly run).acked index entry found acked).answered
    (run_behaved run) found

theorem rejected_answered
    (run : Runs (step setup) (Allowed behaves) (.start base) exchange)
    {index : Nat} {entry : Entry Queue Message}
    (found : exchange.entries[index]? = some entry)
    (rejected : entry.place = .rejected) :
    Answered base behaves exchange index entry .reject :=
  ((run_orderly run).rejected index entry found rejected).answered
    (run_behaved run) found

theorem gone_volatile
    (run : Runs (step setup) permitted (.start base) exchange)
    {index : Nat} {entry : Entry Queue Message}
    (found : exchange.entries[index]? = some entry)
    (gone : entry.place = .gone) :
    setup.persistent entry.message = false ∨
      setup.autoAck entry.queue = true := by
  have all : ∀ (index : Nat) (entry : Entry Queue Message),
      exchange.entries[index]? = some entry → entry.place = .gone →
      setup.persistent entry.message = false ∨
        setup.autoAck entry.queue = true := by
    apply run.invariant
    · exact nofun
    · intro before action after holds _ taken index entry found gone
      have placed := placed_step taken found
      rw [gone] at placed
      have here : after.contents[index]? = some entry.content := by
        rw [Exchange.contents, List.getElem?_map, found]
        rfl
      generalize same : Place.gone = place at placed
      cases placed with
      | kept there alive =>
          rename_i earlier
          obtain ⟨more, whole⟩ := contents_step taken
          have isThere : before.contents[index]? = some earlier.content := by
            rw [Exchange.contents, List.getElem?_map, there]
            rfl
          rw [← whole, List.getElem?_append_left
            (List.getElem?_eq_some_iff.mp isThere).1, isThere,
            Option.some.injEq] at here
          have volatile := holds index earlier there same.symm
          have queue : earlier.queue = entry.queue := congrArg Prod.fst here
          have message : earlier.message = entry.message :=
            congrArg Prod.snd here
          rw [queue, message] at volatile
          exact volatile
      | ready => cases same
      | gone there volatile =>
          rw [here, Option.some.injEq] at there
          subst there
          exact volatile
      | delivered there alive => cases same
      | settled there wire isThere own settles =>
          subst same
          rcases settles with ⟨_, impossible⟩ | ⟨_, impossible⟩
          · cases impossible
          · cases impossible
  exact all index entry found gone

end Runs

/-! ## Without interruptions -/

/-- No connection is lost, and the broker is not restarted. -/
def Undisturbed (_ : Exchange Queue Message Note) :
    Action Queue Message Note → Prop
  | .lose _ => False
  | .restart => False
  | _ => True

structure Single (exchange : Exchange Queue Message Note) : Prop where
  delivered : ∀ (number : Nat) (handler : Handler Queue Message Note),
    exchange.handlers[number]? = some handler →
    ∃ entry, exchange.entries[handler.entry]? = some entry ∧
      entry.place ≠ .ready
  apart : ∀ (number other : Nat) (handler another : Handler Queue Message Note),
    exchange.handlers[number]? = some handler →
    exchange.handlers[other]? = some another →
    handler.entry = another.entry → number = other

omit [DecidableEq Queue] in
theorem unready_modify {index other : Nat}
    {entries : List (Entry Queue Message)}
    {change : Entry Queue Message → Entry Queue Message}
    (keeps : ∀ entry : Entry Queue Message,
      entry.place ≠ .ready → (change entry).place ≠ .ready)
    (before : ∃ entry, entries[index]? = some entry ∧ entry.place ≠ .ready) :
    ∃ entry, (entries.modify other change)[index]? = some entry ∧
      entry.place ≠ .ready := by
  obtain ⟨entry, found, unready⟩ := before
  rw [List.getElem?_modify, found]
  by_cases same : other = index
  · exact ⟨change entry, by simp [same], keeps entry unready⟩
  · exact ⟨entry, by simp [same], unready⟩

omit [DecidableEq Queue] in
theorem unready_settle {index connection sender : Nat} {place : Place}
    (settled : place ≠ .ready)
    (before : ∃ entry, exchange.entries[index]? = some entry ∧
      entry.place ≠ .ready) :
    ∃ entry, (exchange.settle connection sender place).entries[index]? =
      some entry ∧ entry.place ≠ .ready := by
  unfold Exchange.settle
  split
  · exact before
  · apply unready_modify _ before
    intro entry unready
    unfold Entry.settle
    split
    · exact settled
    · exact unready

theorem unready_store {index : Nat} {queue : Queue} {message : Message}
    (before : ∃ entry, exchange.entries[index]? = some entry ∧
      entry.place ≠ .ready) :
    ∃ entry, (exchange.store queue message).entries[index]? = some entry ∧
      entry.place ≠ .ready := by
  obtain ⟨entry, found, unready⟩ := before
  unfold Exchange.store
  split
  · exact ⟨entry, (List.getElem?_append_left
      (List.getElem?_eq_some_iff.mp found).1).trans found, unready⟩
  · exact ⟨entry, found, unready⟩

theorem unready_step {index : Nat} (calm : Undisturbed exchange action)
    (taken : step setup exchange action = some next)
    (before : ∃ entry, exchange.entries[index]? = some entry ∧
      entry.place ≠ .ready) :
    ∃ entry, next.entries[index]? = some entry ∧ entry.place ≠ .ready := by
  cases action with
  | connect => cases taken; exact before
  | declare queue => cases taken; exact before
  | submit queue message => cases taken; exact unready_store before
  | deliver connection target =>
      simp only [step, Option.bind_eq_bind, Option.bind_eq_some_iff] at taken
      obtain ⟨line, _, given, there, taken⟩ := taken
      split at taken
      · cases taken
        obtain ⟨entry, found, unready⟩ := before
        rw [List.getElem?_set]
        by_cases same : target = index
        · subst same
          rw [if_pos rfl, if_pos (List.getElem?_eq_some_iff.mp there).1]
          refine ⟨_, rfl, ?_⟩
          dsimp only
          split <;> simp
        · exact ⟨entry, by simp [same, found], unready⟩
      · cases taken
  | act number move =>
      simp only [step, Option.bind_eq_bind, Option.bind_eq_some_iff] at taken
      obtain ⟨_, _, taken⟩ := taken
      cases taken
      exact before
  | arrive connection =>
      simp only [step, Option.bind_eq_bind, Option.bind_eq_some_iff] at taken
      obtain ⟨line, _, taken⟩ := taken
      split at taken
      · cases taken
      · rename_i sender frame rest _
        cases taken
        cases frame with
        | publish queue message => exact unready_store before
        | ack => exact unready_settle (by simp) before
        | reject => exact unready_settle (by simp) before
  | lose connection => exact absurd calm id
  | restart => exact absurd calm id

/-- A new handler is for a message that was ready; the others keep their
messages. -/
theorem handlers_step (taken : step setup exchange action = some next)
    (found : next.handlers[number]? = some handler) :
    (∃ before : Handler Queue Message Note,
      exchange.handlers[number]? = some before ∧
      before.entry = handler.entry) ∨
    (number = exchange.handlers.length ∧
      (∃ entry, exchange.entries[handler.entry]? = some entry ∧
        entry.place = .ready) ∧
      ∃ entry, next.entries[handler.entry]? = some entry ∧
        entry.place ≠ .ready) := by
  cases action with
  | connect => cases taken; exact Or.inl ⟨handler, found, rfl⟩
  | declare queue => cases taken; exact Or.inl ⟨handler, found, rfl⟩
  | submit queue message =>
      cases taken
      rw [Exchange.handlers_store] at found
      exact Or.inl ⟨handler, found, rfl⟩
  | deliver connection target =>
      simp only [step, Option.bind_eq_bind, Option.bind_eq_some_iff] at taken
      obtain ⟨line, _, given, there, taken⟩ := taken
      split at taken
      · rename_i possible
        cases taken
        simp only [List.getElem?_append] at found
        split at found
        · exact Or.inl ⟨handler, found, rfl⟩
        · rename_i beyond
          have last := (List.getElem?_eq_some_iff.mp found).1
          cases List.mem_singleton.mp (List.mem_of_getElem? found)
          refine Or.inr ⟨?_, ⟨given, there, possible.2⟩, ?_⟩
          · rw [List.length_singleton] at last
            omega
          · refine ⟨_, List.getElem?_set_self
              (List.getElem?_eq_some_iff.mp there).1, ?_⟩
            dsimp only
            split <;> simp
      · cases taken
  | act acting move =>
      simp only [step, Option.bind_eq_bind, Option.bind_eq_some_iff] at taken
      obtain ⟨actor, there, taken⟩ := taken
      cases taken
      by_cases own : acting = number
      · subst own
        simp only [List.getElem?_set_self
          (List.getElem?_eq_some_iff.mp there).1, Option.some.injEq] at found
        subst found
        exact Or.inl ⟨actor, there, rfl⟩
      · rw [List.getElem?_set_ne own] at found
        exact Or.inl ⟨handler, found, rfl⟩
  | arrive connection =>
      simp only [step, Option.bind_eq_bind, Option.bind_eq_some_iff] at taken
      obtain ⟨line, _, taken⟩ := taken
      split at taken
      · cases taken
      · cases taken
        rw [Exchange.handlers_obey] at found
        exact Or.inl ⟨handler, found, rfl⟩
  | lose connection => cases taken; exact Or.inl ⟨handler, found, rfl⟩
  | restart => cases taken; exact Or.inl ⟨handler, found, rfl⟩

theorem single_step (single : Single exchange)
    (calm : Undisturbed exchange action)
    (taken : step setup exchange action = some next) : Single next := by
  have fresh : ∀ (number other : Nat)
      (earlier handler : Handler Queue Message Note),
      exchange.handlers[number]? = some earlier →
      other = exchange.handlers.length →
      (∃ entry, exchange.entries[handler.entry]? = some entry ∧
        entry.place = .ready) → earlier.entry ≠ handler.entry := by
    intro number other earlier handler there _ ready same
    obtain ⟨entry, found, unready⟩ := single.delivered number earlier there
    obtain ⟨waiting, isThere, isReady⟩ := ready
    rw [same, isThere, Option.some.injEq] at found
    subst found
    exact unready isReady
  constructor
  case delivered =>
    intro number handler found
    rcases handlers_step taken found with ⟨before, there, same⟩ | new
    · rw [← same]
      exact unready_step calm taken (single.delivered number before there)
    · exact new.2.2
  case apart =>
    intro number other handler another found foundOther equal
    rcases handlers_step taken found with ⟨before, there, same⟩ | new
    · rcases handlers_step taken foundOther with
        ⟨earlier, isThere, alike⟩ | newOther
      · exact single.apart number other before earlier there isThere
          (same.trans (equal.trans alike.symm))
      · exact absurd (same.trans equal)
          (fresh number other before another there newOther.1 newOther.2.1)
    · rcases handlers_step taken foundOther with
        ⟨earlier, isThere, alike⟩ | newOther
      · exact absurd (alike.trans equal.symm)
          (fresh other number earlier handler isThere new.1 new.2.1)
      · exact new.1.trans newOther.1.symm

omit [DecidableEq Queue] in
theorem Single.length_handlers (single : Single exchange) (index : Nat) :
    (exchange.handlers.filter (·.entry = index)).length ≤ 1 := by
  have apart : exchange.handlers.Pairwise
      fun handler other => handler.entry = index → other.entry ≠ index := by
    rw [List.pairwise_iff_getElem]
    intro number other first second less own also
    have same := single.apart number other _ _
      (List.getElem?_eq_getElem first) (List.getElem?_eq_getElem second)
      (own.trans also.symm)
    omega
  have kept := apart.sublist (List.filter_sublist (p := (·.entry = index)))
  generalize all : exchange.handlers.filter (·.entry = index) = handlers
    at kept
  have own : ∀ handler ∈ handlers, handler.entry = index := by
    intro handler member
    rw [← all] at member
    exact of_decide_eq_true (List.mem_filter.mp member).2
  cases handlers with
  | nil => exact Nat.zero_le 1
  | cons handler rest =>
      cases rest with
      | nil => exact Nat.le_refl 1
      | cons other rest =>
          have different := (List.pairwise_cons.mp kept).1 other
            List.mem_cons_self (own handler List.mem_cons_self)
          exact absurd
            (own other (List.mem_cons_of_mem _ List.mem_cons_self)) different

theorem run_single {permitted : Exchange Queue Message Note →
      Action Queue Message Note → Prop}
    (run : Runs (step setup) permitted (.start base) exchange)
    (calm : ∀ state action, permitted state action →
      Undisturbed state action) : Single exchange := by
  apply run.invariant
  · exact ⟨nofun, nofun⟩
  · intro before action after holds allowed taken
    exact single_step holds (calm before action allowed) taken

end Rules

end Bacs.Foundation.Messaging
