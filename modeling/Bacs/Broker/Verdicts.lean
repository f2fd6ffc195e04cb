import Bacs.Broker.TextDriver

/-!
# What the text driver makes of a process

The verdict is right unless the output of a process that has failed is
malformed as well, or a process that has succeeded reports no result.
-/

namespace Bacs.Broker.TextDriver

open Foundation Text

variable {Status Error : Type} {codings : Codings Status Result Error}
  {child : Child Error}

def Clean (codings : Codings Status Result Error) (stream : Bytes) : Prop :=
  ∀ line ∈ completeLines newline stream, ¬Malformed codings line

def Reported (codings : Codings Status Result Error) (stream : Bytes)
    (result : Result) : Prop :=
  ∃ line ∈ completeLines newline stream,
    Denotes codings line { kind := some (.result result) }

/-- A failed process gives an execution error, and only a result that was
reported by a process that has succeeded gives success. -/
structure Verdict (codings : Codings Status Result Error)
    (child : Child Error) (result : Result)
    (err : Option (DriverError Error)) : Prop where
  failure : ∀ status, child.Started → child.state = .exited status →
    status ≠ 0 → result.status = .executionError ∧ err = none
  success : result.status = .ok → err = none →
    child.Started ∧ child.state = .exited 0 ∧
      ∃ result, Reported codings child.output result ∧ result.status = .ok

/-! ## The parser -/

theorem clean_unterminated {stream : Bytes} (absent : newline ∉ stream) :
    Clean codings stream := by
  intro line member
  rw [completeLines_unterminated absent] at member
  cases member

theorem clean_cons {line rest : Bytes} (unbroken : newline ∉ line) :
    Clean codings (line ++ newline :: rest) ↔
      ¬Malformed codings line ∧ Clean codings rest := by
  simp [Clean, completeLines_cons unbroken]

theorem reported_unterminated {stream : Bytes} (absent : newline ∉ stream)
    (result : Result) : ¬Reported codings stream result := by
  intro reported
  obtain ⟨line, member, _⟩ := reported
  rw [completeLines_unterminated absent] at member
  cases member

theorem reported_cons {line rest : Bytes} (unbroken : newline ∉ line)
    (result : Result) :
    Reported codings (line ++ newline :: rest) result ↔
      Denotes codings line { kind := some (.result result) } ∨
        Reported codings rest result := by
  simp [Reported, completeLines_cons unbroken]

/-- The result is the last one reported, or none was. -/
def Last (codings : Codings Status Result Error) (stream : Bytes)
    (before after : Result) : Prop :=
  Reported codings stream after ∨
    (∀ result, ¬Reported codings stream result) ∧ after = before

theorem denotes_unique {line : Bytes} {event event' : Event Status Result}
    (denotes : Denotes codings line event)
    (denotes' : Denotes codings line event') : event = event' := by
  have same := parseLine_denoted denotes
  rw [parseLine_denoted denotes'] at same
  cases same
  rfl

theorem clean_event {line rest : Bytes} {event : Event Status Result}
    (unbroken : newline ∉ line) (denotes : Denotes codings line event) :
    Clean codings (line ++ newline :: rest) ↔ Clean codings rest := by
  rw [clean_cons unbroken]
  constructor
  · intro clean
    exact clean.2
  · intro clean
    exact ⟨fun malformed => malformed event denotes, clean⟩

theorem last_status {line rest : Bytes} {event : Event Status Result}
    {status : Status} {before after : Result} (unbroken : newline ∉ line)
    (denotes : Denotes codings line event)
    (kind : event.kind = some (.status status))
    (last : Last codings rest before after) :
    Last codings (line ++ newline :: rest) before after := by
  have other (result : Result) :
      ¬Denotes codings line { kind := some (.result result) } := by
    intro denotes'
    rw [denotes_unique denotes denotes'] at kind
    cases kind
  obtain reported | ⟨unreported, same⟩ := last
  · exact .inl ((reported_cons unbroken after).mpr (.inr reported))
  · right
    refine ⟨?_, same⟩
    intro result reported
    obtain here | later := (reported_cons unbroken result).mp reported
    · exact other result here
    · exact unreported result later

theorem last_result {line rest : Bytes} {event : Event Status Result}
    {result before after : Result} (unbroken : newline ∉ line)
    (denotes : Denotes codings line event)
    (kind : event.kind = some (.result result))
    (last : Last codings rest result after) :
    Last codings (line ++ newline :: rest) before after := by
  left
  apply (reported_cons unbroken after).mpr
  obtain reported | ⟨_, same⟩ := last
  · exact .inr reported
  · left
    rw [same, ← kind]
    exact denotes

/-- A line and what the reader makes of it, at the head of a stream. -/
inductive Head (codings : Codings Status Result Error) : Bytes →
    Except (ReadError Error) (Event Status Result) × Bytes → Prop
  | eof {stream : Bytes} (absent : newline ∉ stream) :
      Head codings stream (.error .eof, [])
  | event {line rest : Bytes} {event : Event Status Result}
      (unbroken : newline ∉ line) (denotes : Denotes codings line event) :
      Head codings (line ++ newline :: rest) (.ok event, rest)
  | error {line rest : Bytes} {error : ReadError Error}
      (unbroken : newline ∉ line) (malformed : Malformed codings line)
      (different : error ≠ .eof) :
      Head codings (line ++ newline :: rest) (.error error, rest)

theorem readEvent_head (stream : Bytes) :
    Head codings stream (readEvent codings stream) := by
  obtain absent | ⟨line, rest, unbroken, same⟩ := first_line newline stream
  · rw [readEvent, readRawEvent, cutLine_eq_none.mpr absent]
    exact .eof absent
  · rw [same, readEvent_line unbroken]
    cases parsed : parseLine codings line with
    | ok event => exact .event unbroken (denotes_of_parseLine parsed)
    | error error =>
        apply Head.error unbroken
        · intro event denotes
          rw [parseLine_denoted denotes] at parsed
          cases parsed
        · intro eof
          subst eof
          exact parseLine_ne_eof line parsed

theorem head_of_read {codings : Codings Status Result Error}
    {stream : Bytes}
    {outcome : Except (ReadError Error) (Event Status Result) × Bytes}
    (read : readEvent codings stream = outcome) :
    Head codings stream outcome := by
  rw [← read]
  exact readEvent_head stream

theorem parse_spec (codings : Codings Status Result Error) (stream : Bytes)
    (parsed : Parsed Status) :
    ∃ final err, parse codings stream parsed = some (final, err) ∧
      (err = none ↔ Clean codings stream) ∧
      (∀ state, err ≠ some (.exit state)) ∧
      (Clean codings stream →
        Last codings stream parsed.result final.result) := by
  fun_induction parse codings stream parsed with
  | case1 stream parsed event rest read status kind induction =>
      cases head_of_read read with
      | event unbroken denotes =>
          obtain ⟨final, err, same, clean, exit, last⟩ := induction
          refine ⟨final, err, same, ?_, exit, ?_⟩
          · rw [clean, clean_event unbroken denotes]
          · intro clean
            apply last_status unbroken denotes kind
            exact last ((clean_event unbroken denotes).mp clean)
  | case2 stream parsed event rest read result kind induction =>
      cases head_of_read read with
      | event unbroken denotes =>
          obtain ⟨final, err, same, clean, exit, last⟩ := induction
          refine ⟨final, err, same, ?_, exit, ?_⟩
          · rw [clean, clean_event unbroken denotes]
          · intro clean
            apply last_result unbroken denotes kind
            exact last ((clean_event unbroken denotes).mp clean)
  | case3 stream parsed event rest read kind =>
      cases head_of_read read with
      | event unbroken denotes => cases denotes <;> cases kind
  | case4 stream parsed rest read =>
      cases head_of_read read with
      | eof absent =>
          refine ⟨parsed, none, rfl, ?_, ?_, ?_⟩
          · simp [clean_unterminated absent]
          · simp
          · intro clean
            exact .inr ⟨reported_unterminated absent, rfl⟩
      | error unbroken malformed different => exact absurd rfl different
  | case5 stream parsed rest error read different =>
      cases head_of_read read with
      | eof absent => exact (different read rfl HEq.rfl).elim
      | error unbroken malformed _ =>
          refine ⟨parsed, _, rfl, ?_, ?_, ?_⟩
          · simp [clean_cons unbroken, malformed]
          · simp
          · intro clean
            exact absurd malformed ((clean_cons unbroken).mp clean).1

/-! ## The verdict -/

/-- A process that fails writes no malformed line, and one that succeeds and
writes none reports a result. -/
def Sound (codings : Codings Status Result Error) (child : Child Error) :
    Prop :=
  child.Started →
    (∀ status, child.state = .exited status → status ≠ 0 →
      Clean codings child.output) ∧
    (child.state = .exited 0 → child.copying = none →
      Clean codings child.output →
        ∃ result, Reported codings child.output result)

theorem finish_error {result : Result} {stderr : Bytes}
    {err : Option (DriverError Error)}
    (unexited : ∀ state, err ≠ some (.exit state)) :
    finish result stderr err = ({ result with log := stderr }, err) := by
  unfold finish
  split
  · exact absurd rfl (unexited _)
  · rfl

theorem wait_success (succeeded : child.state = .exited 0) :
    child.wait = child.copying.map .system := by
  simp [Child.wait, ProcessState.success, succeeded]

theorem wait_failure (failed : child.state ≠ .exited 0) :
    child.wait = some (.exit child.state) := by
  simp [Child.wait, ProcessState.success, failed]

theorem run_unstarted (codings : Codings Status Result Error)
    (unstarted : ¬child.Started) :
    ∃ error, run codings child =
      some ([], { Result.zero with log := child.stderr },
        some (.system error)) := by
  unfold run runStdout
  cases pipe : child.pipe with
  | some error => exact ⟨error, rfl⟩
  | none =>
      cases start : child.start with
      | some error => exact ⟨error, rfl⟩
      | none => exact absurd ⟨pipe, start⟩ unstarted

theorem run_started (codings : Codings Status Result Error)
    (started : child.Started) :
    ∃ (final : Parsed Status) (err : Option (DriverError Error)),
      run codings child =
        some (final.statuses,
          finish final.result child.stderr (join err child.wait)) ∧
      (err = none ↔ Clean codings child.output) ∧
      (∀ state, err ≠ some (.exit state)) ∧
      (Clean codings child.output →
        Last codings child.output .zero final.result) := by
  obtain ⟨final, err, parsed, clean, exit, last⟩ :=
    parse_spec codings child.output
      { statuses := [], result := .zero }
  refine ⟨final, err, ?_, clean, exit, last⟩
  obtain ⟨pipe, start⟩ := started
  simp [run, runStdout, pipe, start, parsed]

/-- The error of a parser that has failed is never dropped. -/
theorem finish_unread {result : Result} {stderr : Bytes}
    {err werr : Option (DriverError Error)} (failed : err ≠ none)
    (unexited : ∀ state, err ≠ some (.exit state)) :
    (finish result stderr (join err werr)).2 ≠ none := by
  cases err with
  | none => exact absurd rfl failed
  | some parser =>
      cases werr with
      | none =>
          rw [join, finish_error unexited]
          simp
      | some exec =>
          rw [join, finish_error (by simp)]
          simp

/-- A process that has succeeded, after output without malformed lines. -/
theorem verdict_success {result : Result}
    (started : child.Started) (succeeded : child.state = .exited 0)
    (clean : Clean codings child.output)
    (last : Last codings child.output .zero result) :
    Verdict codings child { result with log := child.stderr }
      (child.copying.map .system) ↔ Sound codings child := by
  constructor
  · intro verdict _
    constructor
    · intro status exited nonzero
      exact clean
    · intro _ copied _
      obtain reported | ⟨unreported, same⟩ := last
      · exact ⟨result, reported⟩
      · subst same
        obtain ⟨_, _, result, reported, _⟩ :=
          verdict.success rfl (by rw [copied]; rfl)
        exact ⟨result, reported⟩
  · intro sound
    constructor
    · intro status _ exited nonzero
      rw [succeeded] at exited
      cases exited
      exact absurd rfl nonzero
    · intro ok copied
      have copied : child.copying = none := Option.map_eq_none_iff.mp copied
      refine ⟨started, succeeded, result, ?_, ok⟩
      obtain ⟨other, reported⟩ := (sound started).2 succeeded copied clean
      obtain reported' | ⟨unreported, _⟩ := last
      · exact reported'
      · exact absurd reported (unreported other)

/-- A process that has failed, after output without malformed lines. -/
theorem verdict_failure {result : Result} (failed : child.state ≠ .exited 0)
    (clean : Clean codings child.output)
    (status : result.status = .executionError) :
    Verdict codings child result none ↔ Sound codings child := by
  constructor
  · intro _ _
    constructor
    · intro status exited nonzero
      exact clean
    · intro succeeded
      exact absurd succeeded failed
  · intro _
    constructor
    · intro _ _ _ _
      exact ⟨status, rfl⟩
    · intro ok
      rw [status] at ok
      cases ok

theorem verdict_malformed {result : Result}
    {err : Option (DriverError Error)} (started : child.Started)
    (malformed : ¬Clean codings child.output) (failed : err ≠ none) :
    Verdict codings child result err ↔ Sound codings child := by
  constructor
  · intro verdict _
    constructor
    · intro status exited nonzero
      exact absurd (verdict.failure status started exited nonzero).2 failed
    · intro _ _ clean
      exact absurd clean malformed
  · intro sound
    constructor
    · intro status _ exited nonzero
      exact absurd ((sound started).1 status exited nonzero) malformed
    · intro _ none
      exact absurd none failed

theorem verdict_started (started : child.Started) :
    ∃ statuses result err,
      run codings child = some (statuses, result, err) ∧
        (Verdict codings child result err ↔ Sound codings child) := by
  obtain ⟨final, parser, ran, clean, unexited, last⟩ :=
    run_started codings started
  let outcome := finish final.result child.stderr (join parser child.wait)
  refine ⟨final.statuses, outcome.1, outcome.2, ran, ?_⟩
  by_cases wellFormed : Clean codings child.output
  · have none := clean.mpr wellFormed
    subst none
    by_cases succeeded : child.state = .exited 0
    · have unexited : ∀ state, child.copying.map DriverError.system ≠
          some (.exit state) := by
        intro state
        cases child.copying <;> simp
      have same : outcome = ({ final.result with log := child.stderr },
          child.copying.map .system) := by
        simp only [outcome, join]
        rw [wait_success succeeded, finish_error unexited]
      rw [same]
      exact verdict_success started succeeded wellFormed (last wellFormed)
    · have same : outcome = finish final.result child.stderr
          (some (.exit child.state)) := by
        simp only [outcome, join]
        rw [wait_failure succeeded]
      rw [same]
      exact verdict_failure succeeded wellFormed rfl
  · have failed : parser ≠ none := fun same => wellFormed (clean.mp same)
    apply verdict_malformed started wellFormed
    exact finish_unread failed unexited

/-- The verdict is right exactly where the process is sound. -/
theorem verdict_iff (codings : Codings Status Result Error)
    (child : Child Error) : ∃ statuses result err,
      run codings child = some (statuses, result, err) ∧
        (Verdict codings child result err ↔ Sound codings child) := by
  by_cases started : child.Started
  · exact verdict_started started
  · obtain ⟨error, ran⟩ := run_unstarted codings started
    refine ⟨_, _, _, ran, ?_⟩
    constructor
    · intro _ started'
      exact absurd started' started
    · intro _
      constructor
      · intro _ started'
        exact absurd started' started
      · intro _ none
        cases none

namespace Sample

/-- A message without fields is empty; no other is needed here. -/
def coding {Message : Type} (empty : Message) : Coding Message String :=
  { marshal := fun _ => .ok []
    unmarshal := fun data =>
      if data = [] then .ok empty else .error "proto: illegal tag" }

def messages : Codings Unit Result String :=
  { status := coding (), result := coding .zero }

def silent : Child String :=
  { pipe := none, start := none, output := [], stderr := []
    state := .exited 0, copying := none }

/-- `hello d29ybGQ=` -/
def greeting : Bytes :=
  [104, 101, 108, 108, 111, 32, 100, 50, 57, 121, 98, 71, 81, 61]

/-- It exits with one after a line that is no event. -/
def failing : Child String :=
  { silent with output := greeting ++ [newline], state := .exited 1 }

end Sample

theorem verdict_fails :
    (∃ statuses result err,
      run Sample.messages Sample.silent = some (statuses, result, err) ∧
        ¬Verdict Sample.messages Sample.silent result err) ∧
    ∃ statuses result err,
      run Sample.messages Sample.failing = some (statuses, result, err) ∧
        ¬Verdict Sample.messages Sample.failing result err := by
  constructor
  · obtain ⟨statuses, result, err, ran, verdict⟩ :
        ∃ statuses result err, run Sample.messages Sample.silent =
          some (statuses, result, err) ∧ (Verdict Sample.messages
            Sample.silent result err ↔ _) :=
      verdict_started ⟨rfl, rfl⟩
    refine ⟨statuses, result, err, ran, ?_⟩
    rw [verdict]
    intro sound
    have absent : newline ∉ Sample.silent.output := List.not_mem_nil
    obtain ⟨reported, member⟩ := (sound ⟨rfl, rfl⟩).2 rfl rfl
      (clean_unterminated absent)
    exact reported_unterminated absent reported member
  · obtain ⟨statuses, result, err, ran, verdict⟩ :
        ∃ statuses result err, run Sample.messages Sample.failing =
          some (statuses, result, err) ∧ (Verdict Sample.messages
            Sample.failing result err ↔ _) :=
      verdict_started ⟨rfl, rfl⟩
    refine ⟨statuses, result, err, ran, ?_⟩
    rw [verdict]
    intro sound
    have clean := (sound ⟨rfl, rfl⟩).1 1 rfl (by decide)
    have unknown : parseLine Sample.messages Sample.greeting =
        .error (.unknown [104, 101, 108, 108, 111]) := by
      rfl
    apply clean Sample.greeting
    · decide
    · intro event denotes
      rw [parseLine_denoted denotes] at unknown
      cases unknown

end Bacs.Broker.TextDriver
