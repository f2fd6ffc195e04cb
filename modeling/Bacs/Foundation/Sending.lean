import Bacs.Foundation.Acknowledged
import Bacs.Foundation.Ensures

/-!
# Programs that send over a connection

A program sends frames until its connection is lost; from then on each attempt
to send throws, and the program goes on as it likes.  `Performs` says what the
program does when the connection holds, and that it sends a prefix of that
when the connection is lost.
-/

namespace Bacs.Foundation.Messaging

variable {Error Queue Message Note α β : Type}

structure Session (Queue Message Note : Type) where
  /-- How many frames are sent before the connection is lost. -/
  left : Nat
  moves : List (Move Queue Message Note)
  deriving DecidableEq

abbrev Program (Error Queue Message Note α : Type) : Type :=
  EStateM Error (Session Queue Message Note) α

/-- Send a frame, or throw `lost`. -/
def send (lost : Error) (frame : Frame Queue Message) :
    Program Error Queue Message Note Unit := do
  let session ← get
  match session.left with
  | 0 => throw lost
  | left + 1 =>
      set { session with left, moves := session.moves ++ [Move.send frame] }

def note (happened : Note) : Program Error Queue Message Note Unit :=
  modify fun session =>
    { session with moves := session.moves ++ [.note happened] }

/-- The session when `moves` were done and the connection still holds. -/
def Session.after (session : Session Queue Message Note)
    (moves : List (Move Queue Message Note)) : Session Queue Message Note :=
  { left := session.left - (frames moves).length
    moves := session.moves ++ moves }

/-- Of the frames of `moves`, those were sent for which the connection held. -/
def Session.Cut (session : Session Queue Message Note)
    (moves : List (Move Queue Message Note))
    (final : Session Queue Message Note) : Prop :=
  final.left = 0 ∧
    frames final.moves =
      frames session.moves ++ (frames moves).take session.left

/-- A computation that ends with `outcome` in the state `final`. -/
def ended {State : Type} (outcome : Except Error α) (final : State) :
    EStateM.Result Error State α :=
  match outcome with
  | .ok value => .ok value final
  | .error error => .error error final

/-- What the program does and how it ends. -/
structure Performs (program : Program Error Queue Message Note α)
    (moves : List (Move Queue Message Note)) (outcome : Except Error α) :
    Prop where
  whole : ∀ session, (frames moves).length ≤ session.left →
    program session = ended outcome (session.after moves)
  cut : ∀ session, session.left < (frames moves).length →
    Ensures program session (fun _ => session.Cut moves)
      (fun _ => session.Cut moves)

/-- Without its connection the program sends nothing. -/
def Steady (program : Program Error Queue Message Note α) : Prop :=
  ∀ session, session.left = 0 →
    Ensures program session (fun _ => session.Cut []) (fun _ => session.Cut [])

/-- The program may have done `moves` so far. -/
def Does (program : Program Error Queue Message Note α)
    (moves : List (Move Queue Message Note)) : Prop :=
  ∃ left, Ensures program { left, moves := [] }
    (fun _ final => moves <+: final.moves)
    (fun _ final => moves <+: final.moves)

section Rules

variable {program : Program Error Queue Message Note α}
  {next : α → Program Error Queue Message Note β}
  {handler : Error → Program Error Queue Message Note α}
  {session middle final : Session Queue Message Note}
  {moves more : List (Move Queue Message Note)}

@[simp] theorem frames_nil :
    frames ([] : List (Move Queue Message Note)) = [] := rfl

@[simp] theorem frames_send (frame : Frame Queue Message) :
    frames ([.send frame] : List (Move Queue Message Note)) = [frame] := rfl

@[simp] theorem frames_note (happened : Note) :
    frames ([.note happened] : List (Move Queue Message Note)) = [] := rfl

theorem mem_frames {frame : Frame Queue Message} :
    frame ∈ frames moves ↔ Move.send frame ∈ moves := by
  unfold frames
  rw [List.mem_filterMap]
  constructor
  · intro given
    obtain ⟨move, member, same⟩ := given
    cases move with
    | send other =>
        cases same
        exact member
    | note happened => cases same
  · intro member
    exact ⟨_, member, rfl⟩

@[simp] theorem Session.after_nil : session.after [] = session := by
  simp [after]

theorem Session.after_after :
    (session.after moves).after more = session.after (moves ++ more) := by
  simp only [after, frames_append, List.length_append, Nat.sub_sub,
    List.append_assoc]

theorem Session.Cut.idle (lost : session.Cut moves middle)
    (idle : middle.Cut [] final) : session.Cut moves final := by
  refine ⟨idle.1, ?_⟩
  rw [idle.2, lost.2]
  simp

theorem Session.Cut.of_short (lost : session.Cut moves final)
    (short : session.left ≤ (frames moves).length) :
    session.Cut (moves ++ more) final := by
  refine ⟨lost.1, ?_⟩
  rw [lost.2, frames_append, List.take_append_of_le_length short]

/-- The connection is lost after `moves`, in what follows them. -/
theorem Session.Cut.after (enough : (frames moves).length ≤ session.left)
    (lost : (session.after moves).Cut more final) :
    session.Cut (moves ++ more) final := by
  refine ⟨lost.1, ?_⟩
  rw [lost.2, frames_append]
  simp only [Session.after, frames_append, List.append_assoc]
  rw [List.take_append, List.take_of_length_le enough]

/-! ### Without a connection -/

theorem steady_pure (value : α) :
    Steady (pure value : Program Error Queue Message Note α) := by
  intro session empty
  exact ⟨empty, by simp⟩

theorem steady_throw (error : Error) :
    Steady (throw error : Program Error Queue Message Note α) := by
  intro session empty
  exact ⟨empty, by simp⟩

theorem steady_send (lost : Error) (frame : Frame Queue Message) :
    Steady (send lost frame : Program Error Queue Message Note Unit) := by
  intro session empty
  simp only [send, ensures_bind, ensures_get]
  rw [empty]
  exact ⟨empty, by simp⟩

theorem Steady.bind (first : Steady program)
    (later : ∀ value, Steady (next value)) :
    Steady (program >>= next) := by
  intro session empty
  rw [ensures_bind]
  apply (first session empty).mono
  · intro value middle idle
    apply (later value middle idle.1).mono
    · intro _ final more
      exact idle.idle more
    · intro _ final more
      exact idle.idle more
  · intro _ _ idle
    exact idle

theorem Steady.tryCatch (first : Steady program)
    (handled : ∀ error, Steady (handler error)) :
    Steady (tryCatch program handler) := by
  intro session empty
  rw [ensures_tryCatch]
  apply (first session empty).mono
  · intro _ _ idle
    exact idle
  · intro error middle idle
    apply (handled error middle idle.1).mono
    · intro _ final more
      exact idle.idle more
    · intro _ final more
      exact idle.idle more

/-! ### With a connection -/

theorem ensures_ended {outcome : Except Error α}
    (ends : program session = ended outcome final)
    {normal : α → Session Queue Message Note → Prop}
    {thrown : Error → Session Queue Message Note → Prop}
    (onOk : ∀ value, outcome = .ok value → normal value final)
    (onError : ∀ error, outcome = .error error → thrown error final) :
    Ensures program session normal thrown := by
  unfold Ensures
  rw [ends]
  cases outcome with
  | ok value => exact onOk value rfl
  | error error => exact onError error rfl

theorem performs_pure (value : α) :
    Performs (pure value : Program Error Queue Message Note α) []
      (.ok value) where
  whole session _ := by
    rw [Session.after_nil]
    rfl
  cut session short := absurd short (Nat.not_lt_zero _)

theorem performs_throw (error : Error) :
    Performs (throw error : Program Error Queue Message Note α) []
      (.error error) where
  whole session _ := by
    rw [Session.after_nil]
    rfl
  cut session short := absurd short (Nat.not_lt_zero _)

theorem performs_send (lost : Error) (frame : Frame Queue Message) :
    Performs (send lost frame : Program Error Queue Message Note Unit)
      [.send frame] (.ok ()) where
  whole session enough := by
    obtain ⟨left, moves⟩ := session
    cases left with
    | zero => simp at enough
    | succ left => rfl
  cut session short := by
    have empty : session.left = 0 := by simpa using short
    apply (steady_send lost frame session empty).mono
    · intro _ _ idle
      exact ⟨idle.1, by rw [idle.2, empty]; simp⟩
    · intro _ _ idle
      exact ⟨idle.1, by rw [idle.2, empty]; simp⟩

theorem performs_note (happened : Note) :
    Performs (note happened : Program Error Queue Message Note Unit)
      [.note happened] (.ok ()) where
  whole _ _ := rfl
  cut _ short := absurd short (Nat.not_lt_zero _)

theorem Performs.steady {outcome : Except Error α}
    (performs : Performs program moves outcome) : Steady program := by
  intro session empty
  by_cases silent : (frames moves).length = 0
  · apply ensures_ended (performs.whole session (by omega))
    · intro _ _
      exact ⟨by simp [Session.after, empty], by
        simp [Session.after, frames_append,
          List.length_eq_zero_iff.mp silent]⟩
    · intro _ _
      exact ⟨by simp [Session.after, empty], by
        simp [Session.after, frames_append,
          List.length_eq_zero_iff.mp silent]⟩
  · apply (performs.cut session (by omega)).mono
    · intro _ _ lost
      exact ⟨lost.1, by rw [lost.2, empty]; simp⟩
    · intro _ _ lost
      exact ⟨lost.1, by rw [lost.2, empty]; simp⟩

/-- What comes next when the connection was lost in `program`. -/
theorem Performs.cut_bind {outcome : Except Error α}
    (first : Performs program moves outcome)
    (later : ∀ value, Steady (next value))
    (short : session.left < (frames moves).length) :
    Ensures (program >>= next) session (fun _ => session.Cut moves)
      (fun _ => session.Cut moves) := by
  rw [ensures_bind]
  apply (first.cut session short).mono
  · intro value middle lost
    apply (later value middle lost.1).mono
    · intro _ final idle
      exact lost.idle idle
    · intro _ final idle
      exact lost.idle idle
  · intro _ _ lost
    exact lost

theorem Performs.bind {value : α} {outcome : Except Error β}
    (first : Performs program moves (.ok value))
    (second : Performs (next value) more outcome)
    (later : ∀ value, Steady (next value)) :
    Performs (program >>= next) (moves ++ more) outcome where
  whole session enough := by
    rw [frames_append, List.length_append] at enough
    have ran := first.whole session (by omega)
    have finished := second.whole (session.after moves) (by
      simp only [Session.after]
      omega)
    rw [Session.after_after] at finished
    rw [← finished]
    simp only [Bind.bind, EStateM.bind, ran, ended]
  cut session short := by
    rw [frames_append, List.length_append] at short
    by_cases early : session.left < (frames moves).length
    · apply (first.cut_bind later early).mono
      · intro _ _ lost
        exact lost.of_short (by omega)
      · intro _ _ lost
        exact lost.of_short (by omega)
    · rw [ensures_bind]
      apply ensures_ended (first.whole session (by omega))
      · intro found same
        cases same
        apply (second.cut (session.after moves) (by
          simp only [Session.after]
          omega)).mono
        · intro _ _ lost
          exact Session.Cut.after (by omega) lost
        · intro _ _ lost
          exact Session.Cut.after (by omega) lost
      · intro _ impossible
        cases impossible

theorem Performs.bind_error {error : Error}
    (first : Performs program moves (.error error))
    (later : ∀ value, Steady (next value)) :
    Performs (program >>= next) moves (.error error) where
  whole session enough := by
    simp only [Bind.bind, EStateM.bind, first.whole session enough, ended]
  cut session short := first.cut_bind later short

theorem Performs.cut_tryCatch {outcome : Except Error α}
    (first : Performs program moves outcome)
    (handled : ∀ error, Steady (handler error))
    (short : session.left < (frames moves).length) :
    Ensures (tryCatch program handler) session (fun _ => session.Cut moves)
      (fun _ => session.Cut moves) := by
  rw [ensures_tryCatch]
  apply (first.cut session short).mono
  · intro _ _ lost
    exact lost
  · intro error middle lost
    apply (handled error middle lost.1).mono
    · intro _ final idle
      exact lost.idle idle
    · intro _ final idle
      exact lost.idle idle

theorem tryCatch_run (start : Session Queue Message Note) :
    tryCatch program handler start =
      match program start with
      | .ok value final => .ok value final
      | .error error middle => handler error middle := by
  simp only [MonadExcept.tryCatch, tryCatchThe, MonadExceptOf.tryCatch,
    EStateM.tryCatch, EStateM.Backtrackable.restore, EStateM.dummyRestore]
  cases program start <;> rfl

theorem Performs.tryCatch_ok {value : α}
    (first : Performs program moves (.ok value))
    (handled : ∀ error, Steady (handler error)) :
    Performs (tryCatch program handler) moves (.ok value) where
  whole session enough := by
    rw [tryCatch_run, first.whole session enough]
    rfl
  cut session short := first.cut_tryCatch handled short

theorem Performs.tryCatch_error {error : Error} {outcome : Except Error α}
    (first : Performs program moves (.error error))
    (second : Performs (handler error) more outcome)
    (handled : ∀ error, Steady (handler error)) :
    Performs (tryCatch program handler) (moves ++ more) outcome where
  whole session enough := by
    rw [frames_append, List.length_append] at enough
    rw [tryCatch_run, first.whole session (by omega),
      ← Session.after_after, ← second.whole (session.after moves) (by
        simp only [Session.after]
        omega)]
    rfl
  cut session short := by
    rw [frames_append, List.length_append] at short
    by_cases early : session.left < (frames moves).length
    · apply (first.cut_tryCatch handled early).mono
      · intro _ _ lost
        exact lost.of_short (by omega)
      · intro _ _ lost
        exact lost.of_short (by omega)
    · rw [ensures_tryCatch]
      apply ensures_ended (first.whole session (by omega))
      · intro _ impossible
        cases impossible
      · intro found same
        cases same
        apply (second.cut (session.after moves) (by
          simp only [Session.after]
          omega)).mono
        · intro _ _ lost
          exact Session.Cut.after (by omega) lost
        · intro _ _ lost
          exact Session.Cut.after (by omega) lost

/-! ### What is seen of a program -/

theorem frames_isPrefix {earlier later : List (Move Queue Message Note)}
    (known : earlier <+: later) : frames earlier <+: frames later := by
  obtain ⟨rest, whole⟩ := known
  exact ⟨frames rest, by rw [← frames_append, whole]⟩

theorem Performs.does {outcome : Except Error α}
    (performs : Performs program moves outcome) (known : more <+: moves) :
    Does program more := by
  apply Exists.intro (frames moves).length
  apply ensures_ended (performs.whole _ (Nat.le_refl _))
  · intro _ _
    exact known
  · intro _ _
    exact known

/-- A program sends nothing that it does not send over a connection that
holds. -/
theorem Performs.sends {outcome : Except Error α}
    (performs : Performs program moves outcome)
    (did : Does program more) : frames more <+: frames moves := by
  obtain ⟨left, did⟩ := did
  by_cases enough : (frames moves).length ≤ left
  · have ends := performs.whole { left, moves := [] } enough
    unfold Ensures at did
    rw [ends] at did
    have known : more <+: moves := by
      cases outcome with
      | ok value => simpa [ended, Session.after] using did
      | error error => simpa [ended, Session.after] using did
    exact frames_isPrefix known
  · have both := did.and
      (performs.cut { left, moves := [] } (Nat.lt_of_not_le enough))
    have bounded : ∀ final : Session Queue Message Note,
        more <+: final.moves →
        Session.Cut { left, moves := [] } moves final →
        frames more <+: frames moves := by
      intro final known lost
      have sent := frames_isPrefix known
      rw [lost.2, frames_nil, List.nil_append] at sent
      exact sent.trans (List.take_prefix _ _)
    cases ends : program { left, moves := [] } with
    | ok value final =>
        have facts := both.of_ok ends
        exact bounded final facts.1 facts.2
    | error error final =>
        have facts := both.of_error ends
        exact bounded final facts.1 facts.2

/-- An element that occurs once is reached after what is before it. -/
theorem eq_of_prefix_once {item : α} {body before rest : List α}
    (first : item ∉ body) (only : item ∉ rest)
    (known : before ++ [item] <+: body ++ item :: rest) : before = body := by
  induction body generalizing before with
  | nil =>
      cases before with
      | nil => rfl
      | cons head others =>
          have inside := (List.cons_prefix_cons.mp known).2
          exact absurd (inside.subset (by simp)) only
  | cons head body ih =>
      rw [List.mem_cons, not_or] at first
      cases before with
      | nil =>
          exact absurd (List.cons_prefix_cons.mp known).1 first.1
      | cons other others =>
          obtain ⟨same, inside⟩ := List.cons_prefix_cons.mp known
          rw [same, ih first.2 inside]

/-- The last frame of a program is sent after all the others. -/
theorem Performs.settled {body before rest : List (Move Queue Message Note)}
    {last : Frame Queue Message} {outcome : Except Error α}
    (performs : Performs program (body ++ .send last :: rest) outcome)
    (once : last ∉ frames body) (silent : frames rest = [])
    (did : Does program (before ++ [.send last])) : before = body := by
  obtain ⟨left, did⟩ := did
  have all : frames (body ++ Move.send last :: rest) = frames body ++ [last] := by
    rw [List.append_cons, frames_append, frames_append, silent, frames_send,
      List.append_nil]
  by_cases enough : (frames (body ++ Move.send last :: rest)).length ≤ left
  · have ends := performs.whole { left, moves := [] } enough
    unfold Ensures at did
    rw [ends] at did
    have known : before ++ [.send last] <+: body ++ Move.send last :: rest := by
      cases outcome with
      | ok value => simpa [ended, Session.after] using did
      | error error => simpa [ended, Session.after] using did
    apply eq_of_prefix_once _ _ known
    · intro member
      exact once (mem_frames.mpr member)
    · intro member
      have sent := mem_frames.mpr member
      rw [silent] at sent
      cases sent
  · have both := did.and
      (performs.cut { left, moves := [] } (Nat.lt_of_not_le enough))
    have short : left ≤ (frames body).length := by
      rw [all, List.length_append, List.length_singleton] at enough
      omega
    have absent : ∀ final : Session Queue Message Note,
        before ++ [Move.send last] <+: final.moves →
        Session.Cut { left, moves := [] } (body ++ .send last :: rest)
          final →
        before = body := by
      intro final known lost
      have sent : last ∈ frames final.moves := by
        apply (frames_isPrefix known).subset
        rw [frames_append]
        simp
      rw [lost.2, frames_nil, List.nil_append, all,
        List.take_append_of_le_length short] at sent
      exact absurd (List.mem_of_mem_take sent) once
    cases ends : program { left, moves := [] } with
    | ok value final =>
        have facts := both.of_ok ends
        exact absent final facts.1 facts.2
    | error error final =>
        have facts := both.of_error ends
        exact absent final facts.1 facts.2

end Rules

/-! ## The notes of a program -/

section Notes

variable {program : Program Error Queue Message Note α}
  {next : α → Program Error Queue Message Note β}
  {handler : Error → Program Error Queue Message Note α}
  {moves : List (Move Queue Message Note)}

/-- Each note of the program satisfies `allowed`, with the connection or
without it. -/
def Notes (allowed : Note → Prop)
    (program : Program Error Queue Message Note α) : Prop :=
  ∀ session : Session Queue Message Note,
    (∀ happened, .note happened ∈ session.moves → allowed happened) →
    Ensures program session
      (fun _ final => ∀ happened, .note happened ∈ final.moves →
        allowed happened)
      (fun _ final => ∀ happened, .note happened ∈ final.moves →
        allowed happened)

variable {allowed : Note → Prop}

theorem notes_pure (value : α) :
    Notes allowed (pure value : Program Error Queue Message Note α) :=
  fun _ before => before

theorem notes_throw (error : Error) :
    Notes allowed (throw error : Program Error Queue Message Note α) :=
  fun _ before => before

theorem notes_send (lost : Error) (frame : Frame Queue Message) :
    Notes allowed (send lost frame : Program Error Queue Message Note Unit) := by
  intro session before
  simp only [send, ensures_bind, ensures_get]
  cases session.left with
  | zero => exact before
  | succ left =>
      rw [ensures_set]
      intro happened member
      apply before happened
      simpa using member

theorem notes_note {happened : Note} (known : allowed happened) :
    Notes allowed
      (note happened : Program Error Queue Message Note Unit) := by
  intro session before
  simp only [note, ensures_modify]
  intro other member
  rcases List.mem_append.mp member with earlier | last
  · exact before other earlier
  · cases List.mem_singleton.mp last
    exact known

theorem Notes.bind (first : Notes allowed program)
    (later : ∀ value, Notes allowed (next value)) :
    Notes allowed (program >>= next) := by
  intro session before
  rw [ensures_bind]
  apply (first session before).mono
  · intro value middle kept
    exact later value middle kept
  · intro _ _ kept
    exact kept

theorem Notes.tryCatch (first : Notes allowed program)
    (handled : ∀ error, Notes allowed (handler error)) :
    Notes allowed (tryCatch program handler) := by
  intro session before
  rw [ensures_tryCatch]
  apply (first session before).mono
  · intro _ _ kept
    exact kept
  · intro error middle kept
    exact handled error middle kept

theorem Notes.of_does (notes : Notes allowed program)
    (did : Does program moves) {happened : Note}
    (member : .note happened ∈ moves) : allowed happened := by
  obtain ⟨left, did⟩ := did
  have both := did.and (notes { left, moves := [] } (by simp))
  cases ends : program { left, moves := [] } with
  | ok value final =>
      have facts := both.of_ok ends
      exact facts.2 happened (facts.1.subset member)
  | error error final =>
      have facts := both.of_error ends
      exact facts.2 happened (facts.1.subset member)

def noted (counted : Note → Bool) (moves : List (Move Queue Message Note)) :
    Nat :=
  moves.countP fun
    | .note happened => counted happened
    | .send _ => false

/-- The program adds at most `limit` of the counted notes. -/
def AtMost (counted : Note → Bool) (limit : Nat)
    (program : Program Error Queue Message Note α) : Prop :=
  ∀ session : Session Queue Message Note,
    Ensures program session
      (fun _ final =>
        noted counted final.moves ≤ noted counted session.moves + limit)
      (fun _ final =>
        noted counted final.moves ≤ noted counted session.moves + limit)

variable {counted : Note → Bool} {limit more : Nat}

theorem atMost_pure (value : α) :
    AtMost counted 0 (pure value : Program Error Queue Message Note α) :=
  fun _ => Nat.le_refl _

theorem atMost_throw (error : Error) :
    AtMost counted 0 (throw error : Program Error Queue Message Note α) :=
  fun _ => Nat.le_refl _

theorem atMost_send (lost : Error) (frame : Frame Queue Message) :
    AtMost counted 0
      (send lost frame : Program Error Queue Message Note Unit) := by
  intro session
  simp only [send, ensures_bind, ensures_get]
  cases session.left with
  | zero => exact Nat.le_refl _
  | succ left =>
      rw [ensures_set, noted, List.countP_append]
      exact Nat.le_refl _

theorem atMost_note (happened : Note) :
    AtMost counted (if counted happened then 1 else 0)
      (note happened : Program Error Queue Message Note Unit) := by
  intro session
  simp only [note, ensures_modify, noted, List.countP_append,
    List.countP_singleton]
  exact Nat.le_refl _

theorem AtMost.bind (first : AtMost counted limit program)
    (later : ∀ value, AtMost counted more (next value)) :
    AtMost counted (limit + more) (program >>= next) := by
  intro session
  rw [ensures_bind]
  apply (first session).mono
  · intro value middle fewer
    apply (later value middle).mono
    · intro _ _ fewest
      omega
    · intro _ _ fewest
      omega
  · intro _ _ fewer
    omega

theorem AtMost.tryCatch (first : AtMost counted limit program)
    (handled : ∀ error, AtMost counted more (handler error)) :
    AtMost counted (limit + more) (tryCatch program handler) := by
  intro session
  rw [ensures_tryCatch]
  apply (first session).mono
  · intro _ _ fewer
    omega
  · intro error middle fewer
    apply (handled error middle).mono
    · intro _ _ fewest
      omega
    · intro _ _ fewest
      omega

theorem AtMost.of_does (bounded : AtMost counted limit program)
    (did : Does program moves) : noted counted moves ≤ limit := by
  obtain ⟨left, did⟩ := did
  have both := did.and (bounded { left, moves := [] })
  have fewer : ∀ final : Session Queue Message Note,
      moves <+: final.moves →
      noted counted final.moves ≤ 0 + limit →
      noted counted moves ≤ limit := by
    intro final known few
    obtain ⟨rest, whole⟩ := known
    rw [← whole, noted, List.countP_append] at few
    rw [noted]
    omega
  cases ends : program { left, moves := [] } with
  | ok value final =>
      have facts := both.of_ok ends
      exact fewer final facts.1 facts.2
  | error error final =>
      have facts := both.of_error ends
      exact fewer final facts.1 facts.2

end Notes

end Bacs.Foundation.Messaging
