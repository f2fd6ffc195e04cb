import Bacs.Foundation.Runs

/-!
# Queues whose messages are acknowledged

A broker keeps messages in queues and delivers each over a connection to a
handler.  What the handlers of a connection send arrives in the order in which
it was sent.  When the connection is lost, what is still on its way never
arrives, and the messages delivered over it and not yet settled are ready
again.

The broker does not know what a handler does; its program is a set of lists of
moves, and it may have done any of them.
-/

namespace Bacs.Foundation.Messaging

variable {Queue Message Note : Type}

inductive Frame (Queue Message : Type) where
  | publish (queue : Queue) (message : Message)
  | ack
  | reject
  deriving DecidableEq, Repr

/-- What a handler does; its notes are for nobody else. -/
inductive Move (Queue Message Note : Type) where
  | send (frame : Frame Queue Message)
  | note (note : Note)
  deriving DecidableEq, Repr

def Move.frame : Move Queue Message Note → Option (Frame Queue Message)
  | .send frame => some frame
  | .note _ => none

inductive Place where
  | ready
  | delivered (connection : Nat)
  | acked
  | rejected
  /-- Given out from a queue without acknowledgements, or forgotten. -/
  | gone
  deriving DecidableEq, Repr

structure Entry (Queue Message : Type) where
  queue : Queue
  message : Message
  place : Place
  deriving DecidableEq, Repr

structure Connection (Queue Message : Type) where
  alive : Bool
  /-- The frames on their way to the broker, with the handlers they are
  from. -/
  wire : List (Nat × Frame Queue Message)
  deriving DecidableEq, Repr

structure Handler (Queue Message Note : Type) where
  connection : Nat
  entry : Nat
  moves : List (Move Queue Message Note)
  deriving DecidableEq, Repr

/-- The broker, with its connections and the handlers at their ends. -/
structure Exchange (Queue Message Note : Type) where
  declared : List Queue
  /-- All messages that were ever put into a queue. -/
  entries : List (Entry Queue Message)
  connections : List (Connection Queue Message)
  handlers : List (Handler Queue Message Note)
  deriving DecidableEq, Repr

structure Setup (Queue Message : Type) where
  /-- The message survives a restart of the broker. -/
  persistent : Message → Bool
  /-- The messages of the queue are not acknowledged. -/
  autoAck : Queue → Bool

inductive Action (Queue Message Note : Type) where
  | connect
  | declare (queue : Queue)
  | submit (queue : Queue) (message : Message)
  | deliver (connection entry : Nat)
  | act (handler : Nat) (move : Move Queue Message Note)
  | arrive (connection : Nat)
  | lose (connection : Nat)
  | restart
  deriving DecidableEq, Repr

/-- What the message says, wherever it is. -/
def Entry.content (entry : Entry Queue Message) : Queue × Message :=
  (entry.queue, entry.message)

def Connection.opened : Connection Queue Message :=
  { alive := true, wire := [] }

def Connection.lost : Connection Queue Message :=
  { alive := false, wire := [] }

def Connection.push (connection : Connection Queue Message) (handler : Nat)
    (frame : Frame Queue Message) : Connection Queue Message :=
  if connection.alive then
    { connection with wire := connection.wire ++ [(handler, frame)] }
  else connection

def Entry.settle (entry : Entry Queue Message) (connection : Nat)
    (place : Place) : Entry Queue Message :=
  if entry.place = .delivered connection then { entry with place }
  else entry

/-- A message whose delivery was interrupted is ready again. -/
def Entry.recover (entry : Entry Queue Message) (lost : Nat → Bool) :
    Entry Queue Message :=
  match entry.place with
  | .delivered connection =>
      if lost connection then { entry with place := .ready } else entry
  | _ => entry

def Entry.restart (setup : Setup Queue Message)
    (entry : Entry Queue Message) : Entry Queue Message :=
  match entry.place with
  | .ready | .delivered _ =>
      { entry with
        place := if setup.persistent entry.message then .ready else .gone }
  | _ => entry

namespace Exchange

def start (declared : List Queue) : Exchange Queue Message Note :=
  { declared, entries := [], connections := [], handlers := [] }

variable (exchange : Exchange Queue Message Note)

/-- A message for a queue that was not declared is dropped. -/
def store [DecidableEq Queue] (queue : Queue) (message : Message) :
    Exchange Queue Message Note :=
  if queue ∈ exchange.declared then
    { exchange with
      entries := exchange.entries ++ [{ queue, message, place := .ready }] }
  else exchange

def settle (connection handler : Nat) (place : Place) :
    Exchange Queue Message Note :=
  match exchange.handlers[handler]? with
  | none => exchange
  | some handler =>
      { exchange with
        entries := exchange.entries.modify handler.entry
          fun entry => entry.settle connection place }

def remain (connection : Nat) (line : Connection Queue Message)
    (rest : List (Nat × Frame Queue Message)) :
    Exchange Queue Message Note :=
  { exchange with
    connections :=
      exchange.connections.set connection { line with wire := rest } }

def obey [DecidableEq Queue] (connection handler : Nat) :
    Frame Queue Message → Exchange Queue Message Note
  | .publish queue message => exchange.store queue message
  | .ack => exchange.settle connection handler .acked
  | .reject => exchange.settle connection handler .rejected

def contents : List (Queue × Message) :=
  exchange.entries.map Entry.content

end Exchange

def step [DecidableEq Queue] (setup : Setup Queue Message)
    (exchange : Exchange Queue Message Note) :
    Action Queue Message Note → Option (Exchange Queue Message Note)
  | .connect =>
      some { exchange with
        connections := exchange.connections ++ [.opened] }
  | .declare queue =>
      some { exchange with declared := exchange.declared ++ [queue] }
  | .submit queue message => some (exchange.store queue message)
  | .deliver connection index => do
      let line ← exchange.connections[connection]?
      let entry ← exchange.entries[index]?
      if line.alive ∧ entry.place = .ready then
        some { exchange with
          entries := exchange.entries.set index
            { entry with
              place := if setup.autoAck entry.queue then .gone
                else .delivered connection }
          handlers := exchange.handlers ++
            [{ connection, entry := index, moves := [] }] }
      else none
  | .act number move => do
      let handler ← exchange.handlers[number]?
      some { exchange with
        handlers := exchange.handlers.set number
          { handler with moves := handler.moves ++ [move] }
        connections := match move with
          | .send frame => exchange.connections.modify handler.connection
              fun connection => connection.push number frame
          | .note _ => exchange.connections }
  | .arrive connection => do
      let line ← exchange.connections[connection]?
      match line.wire with
      | [] => none
      | (number, frame) :: rest =>
          some ((exchange.remain connection line rest).obey connection number
            frame)
  | .lose connection =>
      some { exchange with
        entries := exchange.entries.map fun entry =>
          entry.recover (· == connection)
        connections := exchange.connections.set connection .lost }
  | .restart =>
      some { exchange with
        entries := exchange.entries.map fun entry => entry.restart setup
        connections := exchange.connections.map fun _ => .lost }

/-- The handlers do what their programs may do. -/
def Allowed (behaves : Queue → Message → List (Move Queue Message Note) → Prop)
    (exchange : Exchange Queue Message Note) :
    Action Queue Message Note → Prop
  | .act number move =>
      ∀ handler content, exchange.handlers[number]? = some handler →
        exchange.contents[handler.entry]? = some content →
          behaves content.1 content.2 (handler.moves ++ [move])
  | _ => True

/-! ## The messages stay -/

section Contents

variable {entry : Entry Queue Message} {entries : List (Entry Queue Message)}
  {exchange : Exchange Queue Message Note}

@[simp] theorem Entry.content_settle (connection : Nat) (place : Place) :
    (entry.settle connection place).content = entry.content := by
  unfold settle
  split <;> rfl

@[simp] theorem Entry.content_recover (lost : Nat → Bool) :
    (entry.recover lost).content = entry.content := by
  unfold recover
  split
  · split <;> rfl
  · rfl

@[simp] theorem Entry.content_restart (setup : Setup Queue Message) :
    (entry.restart setup).content = entry.content := by
  unfold restart
  split <;> rfl

theorem content_map {change : Entry Queue Message → Entry Queue Message}
    (same : ∀ entry, (change entry).content = entry.content) :
    (entries.map change).map Entry.content = entries.map Entry.content := by
  rw [List.map_map]
  apply List.map_congr_left
  intro entry _
  exact same entry

theorem content_modify {index : Nat}
    {change : Entry Queue Message → Entry Queue Message}
    (same : ∀ entry, (change entry).content = entry.content) :
    (entries.modify index change).map Entry.content =
      entries.map Entry.content := by
  apply List.ext_getElem?
  intro other
  rw [List.getElem?_map, List.getElem?_map, List.getElem?_modify]
  cases entries[other]? with
  | none => simp
  | some entry =>
      by_cases equal : index = other
      · simp [equal, same]
      · simp [equal]

theorem content_set {index : Nat} (found : entries[index]? = some entry)
    {changed : Entry Queue Message} (same : changed.content = entry.content) :
    (entries.set index changed).map Entry.content =
      entries.map Entry.content := by
  apply List.ext_getElem?
  intro other
  rw [List.getElem?_map, List.getElem?_map, List.getElem?_set]
  split
  · rename_i equal
    subst equal
    rw [found]
    simp [(List.getElem?_eq_some_iff.mp found).1, same]
  · rfl

namespace Exchange

variable [DecidableEq Queue] {queue : Queue} {message : Message}

theorem contents_store :
    (exchange.store queue message).contents =
      if queue ∈ exchange.declared then
        exchange.contents ++ [(queue, message)]
      else exchange.contents := by
  unfold store contents
  split <;> simp [Entry.content]

@[simp] theorem handlers_store :
    (exchange.store queue message).handlers = exchange.handlers := by
  unfold store
  split <;> rfl

@[simp] theorem connections_store :
    (exchange.store queue message).connections = exchange.connections := by
  unfold store
  split <;> rfl

@[simp] theorem declared_store :
    (exchange.store queue message).declared = exchange.declared := by
  unfold store
  split <;> rfl

variable {connection number : Nat} {place : Place}

omit [DecidableEq Queue] in
@[simp] theorem handlers_settle :
    (exchange.settle connection number place).handlers =
      exchange.handlers := by
  unfold settle
  split <;> rfl

omit [DecidableEq Queue] in
@[simp] theorem connections_settle :
    (exchange.settle connection number place).connections =
      exchange.connections := by
  unfold settle
  split <;> rfl

omit [DecidableEq Queue] in
@[simp] theorem declared_settle :
    (exchange.settle connection number place).declared =
      exchange.declared := by
  unfold settle
  split <;> rfl

omit [DecidableEq Queue] in
@[simp] theorem contents_settle :
    (exchange.settle connection number place).contents =
      exchange.contents := by
  unfold settle
  split
  · rfl
  · apply content_modify
    intro entry
    exact entry.content_settle connection place

variable {frame : Frame Queue Message}

@[simp] theorem handlers_obey :
    (exchange.obey connection number frame).handlers = exchange.handlers := by
  cases frame <;> simp [obey]

@[simp] theorem connections_obey :
    (exchange.obey connection number frame).connections =
      exchange.connections := by
  cases frame <;> simp [obey]

@[simp] theorem declared_obey :
    (exchange.obey connection number frame).declared =
      exchange.declared := by
  cases frame <;> simp [obey]

theorem contents_store_prefix :
    exchange.contents <+: (exchange.store queue message).contents := by
  rw [contents_store]
  split
  · exact List.prefix_append _ _
  · exact List.prefix_rfl

theorem contents_obey :
    exchange.contents <+:
      (exchange.obey connection number frame).contents := by
  cases frame with
  | publish queue message => exact contents_store_prefix
  | ack => simp [obey]
  | reject => simp [obey]

omit [DecidableEq Queue] in
@[simp] theorem handlers_remain {line : Connection Queue Message}
    {rest : List (Nat × Frame Queue Message)} :
    (exchange.remain connection line rest).handlers = exchange.handlers := rfl

theorem contents_remain_obey {line : Connection Queue Message}
    {rest : List (Nat × Frame Queue Message)} :
    exchange.contents <+:
      ((exchange.remain connection line rest).obey connection number
        frame).contents := by
  have grown : (exchange.remain connection line rest).contents <+:
      ((exchange.remain connection line rest).obey connection number
        frame).contents := contents_obey
  exact grown

end Exchange

theorem contents_step [DecidableEq Queue] {setup : Setup Queue Message}
    {next : Exchange Queue Message Note} {action : Action Queue Message Note}
    (taken : step setup exchange action = some next) :
    exchange.contents <+: next.contents := by
  have of_eq : next.contents = exchange.contents →
      exchange.contents <+: next.contents := by
    intro same
    exact same.symm ▸ List.prefix_rfl
  cases action with
  | connect =>
      cases taken
      exact List.prefix_rfl
  | declare queue =>
      cases taken
      exact List.prefix_rfl
  | submit queue message =>
      cases taken
      exact Exchange.contents_store_prefix
  | deliver connection index =>
      simp only [step, Option.bind_eq_bind, Option.bind_eq_some_iff] at taken
      obtain ⟨line, _, entry, found, taken⟩ := taken
      split at taken
      · cases taken
        exact of_eq (content_set found rfl)
      · cases taken
  | act number move =>
      simp only [step, Option.bind_eq_bind, Option.bind_eq_some_iff] at taken
      obtain ⟨handler, _, taken⟩ := taken
      cases taken
      exact List.prefix_rfl
  | arrive connection =>
      simp only [step, Option.bind_eq_bind, Option.bind_eq_some_iff] at taken
      obtain ⟨line, _, taken⟩ := taken
      split at taken
      · cases taken
      · cases taken
        exact Exchange.contents_remain_obey
  | lose connection =>
      cases taken
      apply of_eq
      apply content_map
      intro entry
      exact entry.content_recover _
  | restart =>
      cases taken
      apply of_eq
      apply content_map
      intro entry
      exact entry.content_restart setup

theorem declared_step [DecidableEq Queue] {setup : Setup Queue Message}
    {next : Exchange Queue Message Note} {action : Action Queue Message Note}
    (taken : step setup exchange action = some next) :
    exchange.declared ⊆ next.declared := by
  intro queue before
  cases action with
  | declare other =>
      cases taken
      exact List.mem_append_left _ before
  | connect => cases taken; exact before
  | submit other message =>
      cases taken
      rw [Exchange.declared_store]
      exact before
  | deliver connection index =>
      simp only [step, Option.bind_eq_bind, Option.bind_eq_some_iff] at taken
      obtain ⟨_, _, _, _, taken⟩ := taken
      split at taken
      · cases taken; exact before
      · cases taken
  | act number move =>
      simp only [step, Option.bind_eq_bind, Option.bind_eq_some_iff] at taken
      obtain ⟨_, _, taken⟩ := taken
      cases taken
      exact before
  | arrive connection =>
      simp only [step, Option.bind_eq_bind, Option.bind_eq_some_iff] at taken
      obtain ⟨_, _, taken⟩ := taken
      split at taken
      · cases taken
      · cases taken
        rw [Exchange.declared_obey]
        exact before
  | lose connection => cases taken; exact before
  | restart => cases taken; exact before

end Contents

end Bacs.Foundation.Messaging
