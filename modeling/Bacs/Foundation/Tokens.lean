import Mathlib.Data.List.Basic

/-!
# Splitting with compressed separators

Neighbouring separators count as one.  A text that begins or ends with a
separator has an empty first or last token; there is no empty token in
between.
-/

namespace Bacs.Foundation

variable {Character : Type*}

def splitCompressed (separates : Character → Bool) :
    List Character → List (List Character)
  | [] => [[]]
  | character :: rest =>
      if separates character then
        if rest.head?.any separates then splitCompressed separates rest
        else [] :: splitCompressed separates rest
      else (splitCompressed separates rest).modifyHead (character :: ·)

variable {separates : Character → Bool}

theorem splitCompressed_token {token : List Character}
    (plain : ∀ character ∈ token, separates character = false) :
    splitCompressed separates token = [token] := by
  induction token with
  | nil => rfl
  | cons character rest ih =>
      have first := plain character (by simp)
      have others := ih fun other member => plain other (by simp [member])
      simp [splitCompressed, first, others]

/-- Of neighbouring separators only the last one is left. -/
def collapse (separates : Character → Bool) :
    List Character → List Character
  | [] => []
  | character :: rest =>
      if separates character && rest.head?.any separates then
        collapse separates rest
      else character :: collapse separates rest

/-- Compressing the separators is splitting where they are collapsed. -/
theorem splitCompressed_eq_splitOnP (text : List Character) :
    splitCompressed separates text =
      (collapse separates text).splitOnP separates := by
  induction text with
  | nil => rfl
  | cons character rest ih =>
      rw [splitCompressed, collapse]
      by_cases separator : separates character = true
      · by_cases more : rest.head?.any separates = true
        · simp [separator, more, ih]
        · simp [separator, more, ih, List.splitOnP_cons_eq_if_modifyHead]
      · simp [separator, ih, List.splitOnP_cons_eq_if_modifyHead]

/-- A token, one separator and a text that does not begin with another. -/
theorem splitCompressed_append {token rest : List Character}
    {separator : Character}
    (plain : ∀ character ∈ token, separates character = false)
    (ends : separates separator = true)
    (single : rest.head?.any separates = false) :
    splitCompressed separates (token ++ separator :: rest) =
      token :: splitCompressed separates rest := by
  induction token with
  | nil => simp [splitCompressed, ends, single]
  | cons character others ih =>
      have first := plain character (by simp)
      have later := ih fun other member => plain other (by simp [member])
      simp [splitCompressed, first, later]

/-- Tokens that are not empty are found again in the text they make. -/
theorem splitCompressed_intercalate [DecidableEq Character]
    {separator : Character} {tokens : List (List Character)}
    (some : tokens ≠ [])
    (plain : ∀ token ∈ tokens, token ≠ [] ∧ separator ∉ token) :
    splitCompressed (· == separator) ([separator].intercalate tokens) =
      tokens := by
  induction tokens with
  | nil => contradiction
  | cons token rest ih =>
      have absent := (plain token (by simp)).2
      have free : ∀ character ∈ token, (character == separator) = false := by
        intro character member
        have different : character ≠ separator := by
          rintro rfl
          exact absent member
        simpa using different
      cases rest with
      | nil => simpa using splitCompressed_token free
      | cons next others =>
          have found := ih (by simp)
            fun other member => plain other (by simp [member])
          obtain ⟨filled, unseparated⟩ := plain next (by simp)
          rw [List.intercalate_cons_cons, List.append_assoc,
            List.singleton_append, splitCompressed_append free (by simp),
            found]
          cases next with
          | nil => contradiction
          | cons character characters =>
              have different : character ≠ separator := by
                rintro rfl
                simp at unseparated
              cases others with
              | nil => simpa using different
              | cons _ _ =>
                  simpa [List.intercalate_cons_cons] using different

end Bacs.Foundation
