import Bacs.Curl.Header
import Bacs.Foundation.Backtracking

/-!
# Parsing HTTP headers

The expression for the name takes colons as well, and as much as it can.  The
separator is therefore not the first colon of a line but the last one that
only words without spaces stand before.
-/

namespace Bacs.Curl.Header

open Foundation

inductive Group where
  | name
  | value
  deriving DecidableEq, Repr

def space (character : Char) : Bool :=
  character == ' '

def notSpace (character : Char) : Bool :=
  character != ' '

def colon (character : Char) : Bool :=
  character == ':'

/-- The dot matches every character, newlines included. -/
def any (_ : Char) : Bool :=
  true

/-- `[^ ]+` -/
def word : Pattern Char Group :=
  .seq (.one notSpace) (.many notSpace)

/-- `([^ ](.*[^ ])?)?` -/
def trimmed : Pattern Char Group :=
  .optional (.seq (.one notSpace)
    (.optional (.seq (.many any) (.one notSpace))))

def tail : Pattern Char Group :=
  .seq (.many space) (.seq (.capture .value trimmed) (.many space))

def separated : Pattern Char Group :=
  .seq (.many space) (.seq (.one colon) tail)

def generalHeader : Pattern Char Group :=
  .seq (.capture .name word) separated

/-- The text of a group; a group without a match is empty. -/
def result (captures : Captures Char Group) (group : Group) : String :=
  String.ofList ((captures.lookup group).getD [])

def parse (data : String) : Except HeaderError Header :=
  match generalHeader.regexMatch data.toList with
  | some captures =>
      .ok (create (makeName (result captures .name)) [result captures .value])
  | none => .error (.headerParse "Not a header" data)

/-! ## Behind the separator -/

def spaces (count : Nat) : List Char :=
  List.replicate count ' '

/-- Values neither begin nor end with a space. -/
def Trimmed (value : List Char) : Prop :=
  value.head? ≠ some ' ' ∧ value.getLast? ≠ some ' '

theorem space_of_mem {count : Nat} :
    ∀ character ∈ spaces count, space character = true := by
  intro character member
  rw [List.eq_of_mem_replicate member]
  rfl

theorem notSpace_spaces {count : Nat} :
    ∀ character ∈ (spaces count).head?, notSpace character = false := by
  intro character first
  rw [List.eq_of_mem_replicate (List.mem_of_mem_head? first)]
  rfl

section Tail

variable {captures : Captures Char Group} {Result : Type} {result : Result}
  {next : List Char → Captures Char Group → Option Result}

theorem many_space_finish (count : Nat) :
    (Pattern.many space).attempt (spaces count) captures Pattern.finish =
      some captures := by
  rw [Pattern.attempt_many, ← List.append_nil (spaces count)]
  apply greedy_append_of_some space_of_mem
  rfl

theorem greedy_spaces {count : Nat} :
    greedy any (fun rest => (Pattern.one notSpace).attempt rest captures next)
      (spaces count) = none := by
  rw [greedy_eq_none_iff]
  intro taken rest split _
  apply Pattern.attempt_one_of_refused
  intro character first
  have member : character ∈ spaces count := by
    simp [← split, List.mem_of_mem_head? first]
  rw [List.eq_of_mem_replicate member]
  rfl

/-- The expression for the value takes a trimmed value and nothing else. -/
theorem trimmed_attempt {value : List Char} (clean : Trimmed value)
    (count : Nat) (follows : next (spaces count) captures = some result) :
    trimmed.attempt (value ++ spaces count) captures next = some result := by
  unfold trimmed
  rw [Pattern.attempt_optional, Pattern.attempt_seq]
  cases value with
  | nil =>
      rw [List.nil_append, Pattern.attempt_one_of_refused notSpace_spaces,
        Option.none_or, follows]
  | cons first rest =>
      have begins : notSpace first = true := by
        simpa [notSpace] using clean.1
      rw [List.cons_append, Pattern.attempt_one_of_accepted begins,
        Pattern.attempt_optional, Pattern.attempt_seq, Pattern.attempt_many]
      rcases List.eq_nil_or_concat rest with rfl | ⟨inner, last, rfl⟩
      · rw [List.nil_append, greedy_spaces, Option.none_or, follows,
          Option.some_or]
      · have ends : notSpace last = true := by
          simpa [notSpace, List.getLast?_cons, List.getLast?_append]
            using clean.2
        have taken : greedy any (fun rest =>
            (Pattern.one notSpace).attempt rest captures next)
            (last :: spaces count) = some result := by
          rw [greedy_of_accepted rfl greedy_spaces,
            Pattern.attempt_one_of_accepted ends, follows]
        have whole : greedy any (fun rest =>
            (Pattern.one notSpace).attempt rest captures next)
            (inner ++ last :: spaces count) = some result := by
          apply greedy_append_of_some
          · intro _ _
            rfl
          · exact taken
        rw [List.concat_append, whole, Option.some_or, Option.some_or]

theorem value_attempt {value : List Char} (clean : Trimmed value)
    (trailing : Nat) :
    (Pattern.seq (.capture Group.value trimmed) (.many space)).attempt
      (value ++ spaces trailing) captures Pattern.finish =
        some (captures ++ [(Group.value, value)]) := by
  have length : (value ++ spaces trailing).length -
      (spaces trailing).length = value.length := by
    simp
  rw [Pattern.attempt_seq, Pattern.attempt_capture]
  apply trimmed_attempt clean
  rw [length, List.take_left]
  exact many_space_finish trailing

theorem tail_attempt {value : List Char} (clean : Trimmed value)
    (after trailing : Nat) :
    tail.attempt (spaces after ++ (value ++ spaces trailing)) captures
      Pattern.finish = some (captures ++ [(Group.value, value)]) := by
  unfold tail
  rw [Pattern.attempt_seq, Pattern.attempt_many]
  apply greedy_append_of_some space_of_mem
  cases value with
  | nil =>
      rw [List.nil_append, ← List.append_nil (spaces trailing)]
      apply greedy_append_of_some space_of_mem
      exact value_attempt clean 0
  | cons first rest =>
      have begins : space first = false := by
        simpa [space] using clean.1
      rw [List.cons_append, greedy_of_refused begins]
      exact value_attempt clean trailing

theorem exists_trimmed (text : List Char) :
    ∃ after value trailing, Trimmed value ∧
      text = spaces after ++ (value ++ spaces trailing) := by
  induction text with
  | nil => exact ⟨0, [], 0, by simp [Trimmed], rfl⟩
  | cons character text ih =>
      obtain ⟨after, value, trailing, clean, rfl⟩ := ih
      by_cases blank : character = ' '
      · subst blank
        exact ⟨after + 1, value, trailing, clean, rfl⟩
      · cases value with
        | nil =>
            refine ⟨0, [character], after + trailing, ?_, ?_⟩
            · simp [Trimmed, blank]
            · simp [spaces, List.replicate_append_replicate]
        | cons first rest =>
            refine ⟨0, character :: (spaces after ++ first :: rest),
              trailing, ?_, ?_⟩
            · have last := clean.2
              constructor
              · simpa using blank
              · simpa [List.getLast?_cons, List.getLast?_append] using last
            · simp [spaces]

theorem tail_some (text : List Char) (captures : Captures Char Group) :
    ∃ value, tail.attempt text captures Pattern.finish =
      some (captures ++ [(Group.value, value)]) := by
  obtain ⟨after, value, trailing, clean, rfl⟩ := exists_trimmed text
  exact ⟨value, tail_attempt clean after trailing⟩

end Tail

/-! ## The separator -/

/-- A word, spaces and a colon, where the word may be missing. -/
def Early (text : List Char) : Prop :=
  ∃ taken count rest, text = taken ++ (spaces count ++ ':' :: rest) ∧
    ' ' ∉ taken

section Separator

variable {captures : Captures Char Group}

theorem separated_colon (count : Nat) (text : List Char) :
    separated.attempt (spaces count ++ ':' :: text) captures
      Pattern.finish = tail.attempt text captures Pattern.finish := by
  obtain ⟨value, found⟩ := tail_some text captures
  rw [found]
  unfold separated
  rw [Pattern.attempt_seq, Pattern.attempt_many]
  apply greedy_append_of_some space_of_mem
  rw [greedy_of_refused rfl, Pattern.attempt_seq,
    Pattern.attempt_one_of_accepted rfl, found]

theorem separated_some {text : List Char} {result : Captures Char Group}
    (found : separated.attempt text captures Pattern.finish = some result) :
    ∃ count rest, text = spaces count ++ ':' :: rest := by
  unfold separated at found
  rw [Pattern.attempt_seq, Pattern.attempt_many] at found
  obtain ⟨taken, rest, rfl, blank, follows⟩ := greedy_some found
  have same : taken = spaces taken.length := by
    apply List.eq_replicate_of_mem
    intro character member
    simpa [space] using blank character member
  cases rest with
  | nil => cases follows
  | cons character rest =>
      by_cases separator : colon character = true
      · have here : character = ':' := by simpa [colon] using separator
        subst here
        exact ⟨taken.length, rest, by rw [← same]⟩
      · rw [Pattern.attempt_seq, Pattern.attempt_one_of_refused] at follows
        · cases follows
        · simpa using separator

end Separator

theorem early_append_spaces (text : List Char) (count : Nat) :
    Early (text ++ spaces count) ↔ Early text := by
  have absent : ∀ count, ':' ∉ spaces count := by
    intro count member
    cases List.eq_of_mem_replicate member
  constructor
  · rintro ⟨taken, blanks, rest, split, word⟩
    rw [← List.append_assoc] at split
    rcases List.append_eq_append_iff.mp split with
      ⟨between, _, inside⟩ | ⟨between, same, last⟩
    · exact absurd (by simp [inside]) (absent count)
    · cases between with
      | nil =>
          rw [List.nil_append] at last
          exact absurd (by simp [← last]) (absent count)
      | cons character between =>
          cases (List.cons.inj last).1
          exact ⟨taken, blanks, between, by simp [same], word⟩
  · rintro ⟨taken, blanks, rest, rfl, word⟩
    exact ⟨taken, blanks, rest ++ spaces count, by simp, word⟩

/-! ## Lines -/

/-- A header line with spaces around its separator and behind its value. -/
def line (name value : List Char) (before after trailing : Nat) :
    List Char :=
  name ++ (spaces before ++
    ':' :: (spaces after ++ (value ++ spaces trailing)))

section Lines

variable {name value : List Char} {before after trailing : Nat}

theorem notSpace_of_not_mem {text : List Char} (plain : ' ' ∉ text) :
    ∀ character ∈ text, notSpace character = true := by
  intro character member
  have different : character ≠ ' ' := by
    rintro rfl
    exact plain member
  simpa [notSpace] using different

/-- The text that the name has taken when `rest` is left. -/
def named (text rest : List Char) : Captures Char Group :=
  [(Group.name, text.take (text.length - rest.length))]

theorem generalHeader_match {first : Char} {text : List Char}
    (begins : notSpace first = true) :
    generalHeader.regexMatch (first :: text) =
      greedy notSpace (fun rest =>
        separated.attempt rest (named (first :: text) rest) Pattern.finish)
          text := by
  unfold generalHeader word
  rw [Pattern.regexMatch, Pattern.attempt_seq, Pattern.attempt_capture,
    Pattern.attempt_seq, Pattern.attempt_one_of_accepted begins,
    Pattern.attempt_many]
  rfl

/-- The separator is found where no other colon can be one. -/
theorem match_of_not_early (filled : name ≠ []) (plain : ' ' ∉ name)
    (clean : Trimmed value)
    (apart : before ≠ 0 ∨ ¬ Early (spaces after ++ value)) :
    generalHeader.regexMatch (line name value before after trailing) =
      some [(Group.name, name), (Group.value, value)] := by
  have taken := notSpace_of_not_mem plain
  obtain ⟨first, inner, rfl⟩ := List.exists_cons_of_ne_nil filled
  unfold line
  rw [List.cons_append, generalHeader_match (taken first (by simp))]
  apply greedy_append_of_some
  · intro character member
    exact taken character (by simp [member])
  · have found : separated.attempt (spaces before ++
        ':' :: (spaces after ++ (value ++ spaces trailing)))
        [(Group.name, first :: inner)] Pattern.finish =
          some [(Group.name, first :: inner), (Group.value, value)] := by
      rw [separated_colon, tail_attempt clean]
      rfl
    have here : named (first :: (inner ++ (spaces before ++
        ':' :: (spaces after ++ (value ++ spaces trailing)))))
        (spaces before ++
          ':' :: (spaces after ++ (value ++ spaces trailing))) =
          [(Group.name, first :: inner)] := by
      rw [named, ← List.cons_append, List.length_append,
        Nat.add_sub_cancel, List.take_left]
    cases before with
    | succ before =>
        refine (greedy_of_refused rfl).trans ?_
        rw [← here] at found
        exact found
    | zero =>
        have late : ¬ Early (spaces after ++ value) := by
          simpa using apart
        rw [← here] at found
        refine (greedy_of_accepted rfl ?_).trans found
        rw [greedy_eq_none_iff]
        intro word rest split member
        cases follows : separated.attempt rest _ Pattern.finish with
        | none => rfl
        | some result =>
            obtain ⟨count, last, rfl⟩ := separated_some follows
            refine absurd ?_ late
            rw [← early_append_spaces _ trailing, List.append_assoc]
            refine ⟨word, count, last, split.symm, ?_⟩
            intro blank
            cases member ' ' blank

/-- Where a colon comes early, the name takes the separator, and whatever is
before the colon that is found. -/
theorem match_of_early (trailing : Nat) (filled : name ≠ [])
    (plain : ' ' ∉ name) (early : Early (spaces after ++ value)) :
    ∃ longer found,
      generalHeader.regexMatch (line name value 0 after trailing) =
        some [(Group.name, longer), (Group.value, found)] ∧
      name.length < longer.length := by
  have taken := notSpace_of_not_mem plain
  obtain ⟨first, inner, rfl⟩ := List.exists_cons_of_ne_nil filled
  rw [← early_append_spaces _ trailing, List.append_assoc] at early
  have whole : line (first :: inner) value 0 after trailing =
      first :: (inner ++ [':'] ++
        (spaces after ++ (value ++ spaces trailing))) := by
    simp [line, spaces]
  rw [whole, generalHeader_match (taken first (by simp))]
  generalize spaces after ++ (value ++ spaces trailing) = text at early
  generalize same : first :: (inner ++ [':'] ++ text) = all
  have total : all.length = inner.length + 2 + text.length := by
    simp [← same]
    omega
  cases follows : greedy notSpace (fun rest =>
      separated.attempt rest (named all rest) Pattern.finish) text with
  | none =>
      obtain ⟨word, count, rest, rfl, unbroken⟩ := early
      have stuck := greedy_eq_none_iff.mp follows word _ rfl
        (notSpace_of_not_mem unbroken)
      rw [separated_colon] at stuck
      obtain ⟨value, found⟩ := tail_some rest
        (named all (spaces count ++ ':' :: rest))
      rw [found] at stuck
      cases stuck
  | some result =>
      obtain ⟨word, rest, split, _, reached⟩ := greedy_some follows
      obtain ⟨count, last, rfl⟩ := separated_some reached
      rw [separated_colon] at reached
      obtain ⟨found, ends⟩ := tail_some last
        (named all (spaces count ++ ':' :: last))
      refine ⟨all.take (all.length - (spaces count ++ ':' :: last).length),
        found, ?_, ?_⟩
      · apply greedy_append_of_some
        · intro character member
          rcases List.mem_append.mp member with before | separator
          · exact taken character (by simp [before])
          · rw [List.mem_singleton.mp separator]
            rfl
        · rw [follows, ← reached, ends]
          rfl
      · have shorter : (spaces count ++ ':' :: last).length ≤
            text.length :=
          List.IsSuffix.length_le ⟨word, split⟩
        rw [List.length_take, List.length_cons]
        omega

end Lines

/-! ## Parsing lines -/

theorem length_makeName (name : String) :
    (makeName name).toList.length = name.toList.length := by
  simp [makeName]

theorem parse_of_match {text name value : List Char}
    (matched : generalHeader.regexMatch text =
      some [(Group.name, name), (Group.value, value)]) :
    parse (String.ofList text) =
      .ok (create (String.ofList name) [String.ofList value]) := by
  have twice : create (makeName (String.ofList name))
      [String.ofList value] =
        create (String.ofList name) [String.ofList value] := by
    simp [create]
  rw [parse, String.toList_ofList, matched]
  exact congrArg Except.ok twice

/-- A header line is parsed as it was written exactly if its separator is the
colon that is found. -/
theorem parse_line (name value : String) (before after trailing : Nat)
    (filled : name ≠ "") (plain : ' ' ∉ name.toList)
    (clean : Trimmed value.toList) :
    parse (String.ofList
      (line name.toList value.toList before after trailing)) =
        .ok (create name [value]) ↔
      before ≠ 0 ∨ ¬ Early (spaces after ++ value.toList) := by
  have some : name.toList ≠ [] := by simpa using filled
  constructor
  · intro right
    by_contra wrong
    obtain ⟨rfl, early⟩ : before = 0 ∧
        Early (spaces after ++ value.toList) := by
      simpa [not_or] using wrong
    obtain ⟨longer, found, matched, length⟩ :=
      match_of_early trailing some plain early
    rw [parse_of_match matched] at right
    have names : makeName (String.ofList longer) = makeName name :=
      congrArg Header.name (Except.ok.inj right)
    have lengths := congrArg (fun name => name.toList.length) names
    simp only [length_makeName, String.toList_ofList] at lengths
    omega
  · intro apart
    rw [parse_of_match (match_of_not_early some plain clean apart),
      String.ofList_toList, String.ofList_toList]

/-- Behind a space only the value itself can begin with a colon. -/
theorem early_space {value : List Char} (clean : Trimmed value) :
    Early (spaces 1 ++ value) ↔ value.head? = some ':' := by
  constructor
  · rintro ⟨taken, count, rest, split, unbroken⟩
    cases taken with
    | cons first taken =>
        have blank : first = ' ' := (List.cons.inj split).1.symm
        simp [blank] at unbroken
    | nil =>
        cases count with
        | zero => simp [spaces] at split
        | succ count =>
            have same : value = spaces count ++ ':' :: rest :=
              (List.cons.inj split).2
            cases count with
            | zero => simp [same, spaces]
            | succ count =>
                have first := clean.1
                simp [same, spaces, List.replicate_succ] at first
  · intro first
    cases value with
    | nil => cases first
    | cons character rest =>
        cases first
        exact ⟨[], 1, rest, rfl, by simp⟩

theorem merger_eq_line (name value : String) :
    merger name value = String.ofList (line name.toList value.toList 0
      (if value = "" then 0 else 1) 0) := by
  unfold merger line
  by_cases none : value = ""
  · subst none
    apply String.toList_inj.mp
    simp [spaces]
  · have filled : value.isEmpty = false := by
      simpa [String.isEmpty_iff] using none
    apply String.toList_inj.mp
    simp [none, filled, spaces]

/-- A line is read as it was written exactly if there are spaces before its
separator or no other colon is reached from it by a word and spaces.  Of the
plain headers, exactly those are read back whose value does not begin with a
colon. -/
theorem parse_written (name value : String) (filled : name ≠ "")
    (plain : ' ' ∉ name.toList ∧ ':' ∉ name.toList)
    (clean : Trimmed value.toList) :
    (∀ before after trailing : Nat,
      parse (String.ofList
        (line name.toList value.toList before after trailing)) =
          .ok (create name [value]) ↔
        before ≠ 0 ∨ ¬ Early (spaces after ++ value.toList)) ∧
    (∀ header : Header, header.name = name → header.values = [value] →
      (parse (merger header.name value) = .ok header ↔
        value.toList.head? ≠ some ':')) := by
  constructor
  · intro before after trailing
    exact parse_line name value before after trailing filled plain.1 clean
  · rintro header rfl values
    have same : create header.name [value] = header := by
      obtain ⟨name, _, lower⟩ := header
      cases values
      simp [create, lower]
    have read := parse_line header.name value 0
      (if value = "" then 0 else 1) 0 filled plain.1 clean
    rw [same] at read
    rw [merger_eq_line, read]
    by_cases none : value = ""
    · subst none
      have late : ¬ Early (spaces 0 ++ "".toList) := by
        rintro ⟨taken, count, rest, split, _⟩
        simp [spaces] at split
      simpa using late
    · rw [if_neg none, early_space clean]
      simp

theorem parse_written_date :
    parse (merger "date" "12:00") = .ok (create "date" ["12:00"]) := by
  have read := (parse_written "date" "12:00" (by decide) (by decide)
    (by unfold Trimmed; decide)).2 (create "date" ["12:00"]) (by decide) rfl
  exact read.mpr (by decide)

/-- Without a space behind the separator the name takes the scheme. -/
theorem parse_location :
    let written := String.ofList
      (line "Location".toList "http://bacs".toList 0 0 0)
    parse written = .ok (create "Location:http" ["//bacs"]) ∧
      parse written ≠ .ok (create "Location" ["http://bacs"]) := by
  have read : parse (String.ofList
      (line "Location".toList "http://bacs".toList 0 0 0)) =
        .ok (create "Location:http" ["//bacs"]) := by
    apply parse_of_match
    decide
  refine ⟨read, ?_⟩
  rw [read]
  intro same
  have names := congrArg Header.name (Except.ok.inj same)
  revert names
  decide

end Bacs.Curl.Header
