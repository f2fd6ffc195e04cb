import Mathlib.Data.List.TakeWhile

/-!
# Words between blanks

Words are read one after the other: blanks are skipped, and then as many
letters as there are make the next word.  Reading stops at the first character
that is neither, and what has been read are the words between the blanks
before it.
-/

namespace Bacs.Foundation

variable {Character : Type*}

section Definitions

variable (blank letter : Character → Bool)

def readWord (text : List Character) :
    Option (List Character × List Character) :=
  match (text.dropWhile blank).takeWhile letter with
  | [] => none
  | character :: word =>
      some (character :: word, (text.dropWhile blank).dropWhile letter)

/-- At most `count` words and what follows them. -/
def readWords : Nat → List Character →
    List (List Character) × List Character
  | 0, text => ([], text)
  | count + 1, text =>
      match readWord blank letter text with
      | none => ([], text)
      | some (word, rest) =>
          let (words, rest) := readWords count rest
          (word :: words, rest)

def words (text : List Character) : List (List Character) :=
  (text.splitOnP blank).filter fun word => !word.isEmpty

def wordy (character : Character) : Bool :=
  blank character || letter character

end Definitions

variable {blank letter : Character → Bool}

@[simp] theorem words_nil : words blank ([] : List Character) = [] :=
  rfl

theorem words_cons_of_blank {character : Character} {text : List Character}
    (skipped : blank character = true) :
    words blank (character :: text) = words blank text := by
  simp [words, List.splitOnP_cons_eq_if_modifyHead, skipped]

theorem words_blank_append {before text : List Character}
    (skipped : ∀ character ∈ before, blank character = true) :
    words blank (before ++ text) = words blank text := by
  induction before with
  | nil => rfl
  | cons character before ih =>
      rw [List.cons_append, words_cons_of_blank (skipped character (by simp))]
      exact ih fun other member => skipped other (by simp [member])

theorem words_append {word text : List Character} (filled : word ≠ [])
    (unbroken : ∀ character ∈ word, blank character = false)
    (ends : ∀ character ∈ text.head?, blank character = true) :
    words blank (word ++ text) = word :: words blank text := by
  have isFilled : (!word.isEmpty) = true := by simpa using filled
  cases text with
  | nil =>
      rw [words, List.append_nil, List.splitOnP_eq_singleton unbroken]
      simp [isFilled]
  | cons character text =>
      have separates := ends character rfl
      rw [words_cons_of_blank separates, words,
        List.splitOnP_append_cons_of_forall_mem unbroken character separates]
      simp [words, isFilled]

theorem of_mem_takeWhile {accepts : Character → Bool}
    {text : List Character} :
    ∀ character ∈ text.takeWhile accepts, accepts character = true :=
  List.all_eq_true.mp List.all_takeWhile

theorem not_of_head_dropWhile {accepts : Character → Bool}
    {text : List Character} :
    ∀ character ∈ (text.dropWhile accepts).head?,
      accepts character = false := by
  intro character first
  have refused := List.head?_dropWhile_not accepts text
  rw [first] at refused
  simpa using refused

theorem cut_append {accepts : Character → Bool}
    {before after : List Character}
    (inside : ∀ character ∈ before, accepts character = true)
    (stops : ∀ character ∈ after.head?, accepts character = false) :
    (before ++ after).takeWhile accepts = before ∧
      (before ++ after).dropWhile accepts = after := by
  rw [List.takeWhile_append_of_pos inside, List.dropWhile_append_of_pos inside]
  cases after with
  | nil => simp
  | cons character after =>
      have refused : accepts character = false := stops character rfl
      simp [refused]

theorem blank_of_head_takeWhile {text : List Character} :
    ∀ character ∈
        ((text.dropWhile letter).takeWhile (wordy blank letter)).head?,
      blank character = true := by
  intro character first
  rw [List.head?_takeWhile, Option.mem_def, Option.filter_eq_some_iff]
    at first
  obtain ⟨found, inside⟩ := first
  have outside : letter character = false :=
    not_of_head_dropWhile character found
  simpa [wordy, outside] using inside

theorem readWord_some {text word rest : List Character}
    (read : readWord blank letter text = some (word, rest)) :
    word ≠ [] ∧ (∀ character ∈ word, letter character = true) ∧
      text.dropWhile blank = word ++ rest ∧
      ∃ after : List Character, rest = after.dropWhile letter := by
  unfold readWord at read
  split at read
  case h_1 => cases read
  case h_2 character others taken =>
    cases read
    refine ⟨by simp, ?_, ?_, _, rfl⟩
    · rw [← taken]
      exact of_mem_takeWhile
    · rw [← taken, List.takeWhile_append_dropWhile]

theorem readWord_none {text : List Character}
    (read : readWord blank letter text = none) :
    (text.dropWhile blank).takeWhile (wordy blank letter) = [] := by
  unfold readWord at read
  split at read
  case h_1 none =>
    cases rest : text.dropWhile blank with
    | nil => rfl
    | cons character others =>
        have starts : blank character = false := by
          apply not_of_head_dropWhile character
          rw [rest]
          rfl
        have other : letter character = false := by
          simpa [rest] using none
        simp [wordy, starts, other]
  case h_2 => cases read

/-- Enough turns read all the words before the first other character, and
leave nothing but blanks before it. -/
theorem readWords_eq
    (apart : ∀ character, letter character = true → blank character = false)
    {count : Nat} {text : List Character} (enough : text.length ≤ count) :
    (readWords blank letter count text).1 =
        words blank (text.takeWhile (wordy blank letter)) ∧
      (readWords blank letter count text).2.dropWhile blank =
        text.dropWhile (wordy blank letter) := by
  induction count generalizing text with
  | zero =>
      rw [List.length_eq_zero_iff.mp (Nat.le_zero.mp enough)]
      exact ⟨rfl, rfl⟩
  | succ count ih =>
      have leading : ∀ character ∈ text.takeWhile blank,
          wordy blank letter character = true := by
        intro character member
        simp [wordy, of_mem_takeWhile character member]
      have split : text.takeWhile blank ++ text.dropWhile blank = text :=
        List.takeWhile_append_dropWhile
      have taken : (text.takeWhile blank ++ text.dropWhile blank).takeWhile
          (wordy blank letter) = _ := List.takeWhile_append_of_pos leading
      have dropped : (text.takeWhile blank ++ text.dropWhile blank).dropWhile
          (wordy blank letter) = _ := List.dropWhile_append_of_pos leading
      rw [split] at taken dropped
      rw [taken, dropped, words_blank_append of_mem_takeWhile, readWords]
      cases read : readWord blank letter text with
      | none =>
          have stops := readWord_none read
          have whole : (text.dropWhile blank).takeWhile
              (wordy blank letter) ++ (text.dropWhile blank).dropWhile
                (wordy blank letter) = _ := List.takeWhile_append_dropWhile
          rw [stops, List.nil_append] at whole
          exact ⟨by rw [stops]; rfl, whole.symm⟩
      | some found =>
          obtain ⟨word, rest⟩ := found
          obtain ⟨filled, letters, cut, after, ended⟩ := readWord_some read
          have shorter : rest.length ≤ count := by
            have parts := congrArg List.length cut
            have positive := List.length_pos_iff.mpr filled
            have bound := List.length_dropWhile_le blank text
            rw [List.length_append] at parts
            omega
          obtain ⟨found, left⟩ := ih shorter
          have inside : ∀ character ∈ word,
              wordy blank letter character = true := by
            intro character member
            simp [wordy, letters character member]
          have unbroken : ∀ character ∈ word, blank character = false :=
            fun character member => apart _ (letters character member)
          rw [cut, List.takeWhile_append_of_pos inside,
            List.dropWhile_append_of_pos inside]
          constructor
          · rw [words_append filled unbroken, ← found]
            rw [ended]
            exact blank_of_head_takeWhile
          · exact left

end Bacs.Foundation
