import Mathlib.Data.List.Basic

/-!
# Backtracking matchers

A pattern is tried at the beginning of a text and hands on what it leaves.
Alternatives are tried in their order, so that repetitions take as much as
they can, and the first one that lets the rest succeed decides what the groups
capture.
-/

namespace Bacs.Foundation

variable {Character Group Result : Type*}

inductive Pattern (Character Group : Type*) where
  | empty
  | one (accepts : Character → Bool)
  | many (accepts : Character → Bool)
  | seq (first second : Pattern Character Group)
  | optional (inner : Pattern Character Group)
  | capture (group : Group) (inner : Pattern Character Group)

abbrev Captures (Character Group : Type*) :=
  List (Group × List Character)

def greedy (accepts : Character → Bool)
    (next : List Character → Option Result) :
    List Character → Option Result
  | [] => next []
  | character :: rest =>
      if accepts character then
        (greedy accepts next rest).or (next (character :: rest))
      else next (character :: rest)

namespace Pattern

def attempt : Pattern Character Group → List Character →
    Captures Character Group →
    (List Character → Captures Character Group → Option Result) →
    Option Result
  | empty, text, captures, next => next text captures
  | one accepts, text, captures, next =>
      match text with
      | [] => none
      | character :: rest =>
          if accepts character then next rest captures else none
  | many accepts, text, captures, next =>
      greedy accepts (fun rest => next rest captures) text
  | seq first second, text, captures, next =>
      first.attempt text captures fun rest captures =>
        second.attempt rest captures next
  | optional inner, text, captures, next =>
      (inner.attempt text captures next).or (next text captures)
  | capture group inner, text, captures, next =>
      inner.attempt text captures fun rest captures =>
        next rest
          (captures ++ [(group, text.take (text.length - rest.length))])

def finish (rest : List Character) (captures : Captures Character Group) :
    Option (Captures Character Group) :=
  if rest.isEmpty then some captures else none

def regexMatch (pattern : Pattern Character Group) (text : List Character) :
    Option (Captures Character Group) :=
  pattern.attempt text [] finish

end Pattern

section Equations

variable {captures : Captures Character Group}
  {next : List Character → Captures Character Group → Option Result}

theorem Pattern.attempt_one_of_accepted {accepts : Character → Bool}
    {character : Character} {rest : List Character}
    (accepted : accepts character = true) :
    (Pattern.one accepts).attempt (character :: rest) captures next =
      next rest captures := by
  simp [Pattern.attempt, accepted]

theorem Pattern.attempt_one_of_refused {accepts : Character → Bool}
    {text : List Character}
    (refused : ∀ character ∈ text.head?, accepts character = false) :
    (Pattern.one accepts).attempt text captures next = none := by
  cases text with
  | nil => rfl
  | cons character rest => simp [Pattern.attempt, refused character rfl]

theorem Pattern.attempt_many {accepts : Character → Bool}
    {text : List Character} :
    (Pattern.many accepts).attempt text captures next =
      greedy accepts (fun rest => next rest captures) text :=
  rfl

theorem Pattern.attempt_seq {first second : Pattern Character Group}
    {text : List Character} :
    (Pattern.seq first second).attempt text captures next =
      first.attempt text captures fun rest captures =>
        second.attempt rest captures next :=
  rfl

theorem Pattern.attempt_optional {inner : Pattern Character Group}
    {text : List Character} :
    (Pattern.optional inner).attempt text captures next =
      (inner.attempt text captures next).or (next text captures) :=
  rfl

theorem Pattern.attempt_capture {group : Group}
    {inner : Pattern Character Group} {text : List Character} :
    (Pattern.capture group inner).attempt text captures next =
      inner.attempt text captures fun rest captures =>
        next rest
          (captures ++ [(group, text.take (text.length - rest.length))]) :=
  rfl

end Equations

/-! ## Greedy repetitions -/

variable {accepts : Character → Bool}
  {next : List Character → Option Result}

theorem greedy_eq_none_iff {text : List Character} :
    greedy accepts next text = none ↔
      ∀ taken rest, taken ++ rest = text →
        (∀ character ∈ taken, accepts character = true) →
          next rest = none := by
  induction text with
  | nil =>
      constructor
      · intro failed taken rest split _
        obtain ⟨-, rfl⟩ := List.append_eq_nil_iff.mp split
        exact failed
      · intro all
        exact all [] [] rfl (by simp)
  | cons character text ih =>
      unfold greedy
      split
      case isTrue accepted =>
        rw [Option.or_eq_none_iff, ih]
        constructor
        · rintro ⟨later, here⟩ taken rest split member
          rcases List.cons_eq_append_iff.mp split.symm with
            ⟨rfl, rfl⟩ | ⟨others, rfl, split'⟩
          · exact here
          · exact later others rest split'.symm
              fun other among => member other (by simp [among])
        · intro all
          constructor
          · intro taken rest split member
            apply all (character :: taken) rest (by simp [split])
            intro other among
            rcases List.mem_cons.mp among with rfl | later
            · exact accepted
            · exact member other later
          · exact all [] _ rfl (by simp)
      case isFalse refused =>
        constructor
        · rintro failed taken rest split member
          rcases List.cons_eq_append_iff.mp split.symm with
            ⟨rfl, rfl⟩ | ⟨others, rfl, _⟩
          · exact failed
          · exact absurd (member character (by simp)) refused
        · intro all
          exact all [] _ rfl (by simp)

theorem greedy_some {text : List Character} {result : Result}
    (found : greedy accepts next text = some result) :
    ∃ taken rest, taken ++ rest = text ∧
      (∀ character ∈ taken, accepts character = true) ∧
      next rest = some result := by
  induction text with
  | nil => exact ⟨[], [], rfl, by simp, found⟩
  | cons character text ih =>
      unfold greedy at found
      split at found
      case isTrue accepted =>
        rcases Option.or_eq_some_iff.mp found with later | ⟨_, here⟩
        · obtain ⟨taken, rest, rfl, member, reached⟩ := ih later
          refine ⟨character :: taken, rest, rfl, ?_, reached⟩
          intro other among
          rcases List.mem_cons.mp among with rfl | within
          · exact accepted
          · exact member other within
        · exact ⟨[], _, rfl, by simp, here⟩
      case isFalse => exact ⟨[], _, rfl, by simp, found⟩

/-- A repetition goes on as long as the rest can succeed later. -/
theorem greedy_append_of_some {taken rest : List Character}
    {result : Result}
    (accepted : ∀ character ∈ taken, accepts character = true)
    (found : greedy accepts next rest = some result) :
    greedy accepts next (taken ++ rest) = some result := by
  induction taken with
  | nil => exact found
  | cons character taken ih =>
      have first := accepted character (by simp)
      have later := ih fun other member => accepted other (by simp [member])
      rw [List.cons_append, greedy, if_pos first, later, Option.some_or]

theorem greedy_of_accepted {character : Character} {rest : List Character}
    (accepted : accepts character = true)
    (stuck : greedy accepts next rest = none) :
    greedy accepts next (character :: rest) = next (character :: rest) := by
  simp [greedy, accepted, stuck]

theorem greedy_of_refused {character : Character} {rest : List Character}
    (refused : accepts character = false) :
    greedy accepts next (character :: rest) = next (character :: rest) := by
  simp [greedy, refused]

end Bacs.Foundation
