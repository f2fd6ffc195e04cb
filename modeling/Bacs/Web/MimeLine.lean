import Bacs.Foundation.Words

/-!
# A line of a mime file

A line has a MIME type and its extensions between blanks, and a comment from
the first `#` on.  Every other character has to be a printable one.
-/

namespace Bacs.Web

open Foundation

/-- `mime_file_line`. -/
structure MimeFileLine where
  mimeType : String
  extensions : List String
  deriving DecidableEq, Repr

/-- `qi::blank` and `qi::graph` of Boost.Spirit.  It is left open what they say
of characters that are not ASCII ones. -/
class CharacterClasses where
  blank : Char → Bool
  graph : Char → Bool
  blank_iff : ∀ character,
    blank character = true ↔ character = ' ' ∨ character = '\t'
  graph_of_printable : ∀ character, '!' ≤ character → character ≤ '~' →
    graph character = true
  blank_of_graph : ∀ character, graph character = true →
    blank character = false

namespace MimeFileLine

open CharacterClasses

variable [CharacterClasses]

/-- `qi::graph - '#'`, what `mime_type_parser` and `extension_parser` take. -/
def letter (character : Char) : Bool :=
  graph character && character != '#'

/-- `data_parser`.  There are no more extensions than characters. -/
def dataParser (text : List Char) : Option (MimeFileLine × List Char) :=
  match readWord blank letter text with
  | none => none
  | some (mimeType, rest) =>
      let (extensions, rest) := readWords blank letter text.length rest
      some
        ({ mimeType := String.ofList mimeType
           extensions := extensions.map String.ofList }, rest)

/-- `line_parser` and the blanks behind it: the attribute and what is left of
the line.  Both parts are optional, so that it never fails. -/
def lineParser (text : List Char) : Option MimeFileLine × List Char :=
  let (data, rest) :=
    match dataParser text with
    | none => (none, text)
    | some (line, rest) => (some line, rest)
  match rest.dropWhile blank with
  | '#' :: _ => (data, [])
  | rest => (data, rest)

/-! ## What a line says -/

/-- The line without its comment. -/
def content (text : List Char) : List Char :=
  text.takeWhile (· != '#')

/-- Something in the line is neither a blank nor printable. -/
def Malformed (text : List Char) : Prop :=
  ∃ character ∈ content text, blank character = false ∧
    graph character = false

instance (text : List Char) : Decidable (Malformed text) :=
  List.decidableBEx _ _

def ofWords : List (List Char) → Option MimeFileLine
  | [] => none
  | mimeType :: extensions =>
      some
        { mimeType := String.ofList mimeType
          extensions := extensions.map String.ofList }

theorem blank_of_letter (character : Char)
    (isLetter : letter character = true) : blank character = false := by
  rw [letter, Bool.and_eq_true] at isLetter
  exact blank_of_graph character isLetter.1

theorem blank_comment : blank '#' = false :=
  blank_of_graph '#' (graph_of_printable '#' (by decide) (by decide))

/-- A line is parsed to the words before the first other character. -/
theorem lineParser_eq (text : List Char) :
    lineParser text =
      (ofWords (words blank (text.takeWhile (wordy blank letter))),
        match text.dropWhile (wordy blank letter) with
        | '#' :: _ => []
        | rest => rest) := by
  obtain ⟨found, left⟩ :=
    readWords_eq blank_of_letter (Nat.le_succ text.length)
  rw [readWords] at found left
  unfold lineParser dataParser
  cases read : readWord blank letter text with
  | none =>
      simp only [read] at found left ⊢
      rw [← left, ← found]
      split <;> simp_all [ofWords]
  | some first =>
      obtain ⟨mimeType, rest⟩ := first
      simp only [read] at found left ⊢
      rw [← left, ← found]
      split <;> simp_all [ofWords]

/-- Where a character is wordy, it is neither malformed nor a comment. -/
theorem wordy_iff {character : Char} :
    wordy blank letter character = true ↔
      character ≠ '#' ∧
        ¬ (blank character = false ∧ graph character = false) := by
  by_cases same : character = '#'
  · subst same
    simp [wordy, letter, blank_comment]
  · simp [wordy, letter, same]
    cases blank character <;> simp

theorem lineParser_of_wellFormed {text : List Char}
    (wellFormed : ¬ Malformed text) :
    lineParser text = (ofWords (words blank (content text)), []) := by
  have inside : ∀ character ∈ content text,
      wordy blank letter character = true := by
    intro character member
    rw [wordy_iff]
    constructor
    · simpa using of_mem_takeWhile character member
    · intro bad
      exact wellFormed ⟨character, member, bad⟩
  have marked : ∀ character ∈ (text.dropWhile (· != '#')).head?,
      character = '#' := by
    intro character first
    simpa using not_of_head_dropWhile character first
  have stops : ∀ character ∈ (text.dropWhile (· != '#')).head?,
      wordy blank letter character = false := by
    intro character first
    rw [marked character first]
    simp [wordy, letter, blank_comment]
  obtain ⟨taken, dropped⟩ := cut_append inside stops
  have whole : content text ++ text.dropWhile (· != '#') = text :=
    List.takeWhile_append_dropWhile
  rw [whole] at taken dropped
  rw [lineParser_eq, taken, dropped]
  cases rest : text.dropWhile (· != '#') with
  | nil => rfl
  | cons character others =>
      rw [marked character (by rw [rest]; rfl)]
      rfl

theorem lineParser_of_malformed {text : List Char}
    (malformed : Malformed text) : (lineParser text).2 ≠ [] := by
  obtain ⟨character, member, bad⟩ := malformed
  intro finished
  have marked : ∀ character ∈ (text.dropWhile (wordy blank letter)).head?,
      (character != '#') = false := by
    intro character first
    rw [lineParser_eq] at finished
    cases rest : text.dropWhile (wordy blank letter) with
    | nil =>
        rw [rest] at first
        cases first
    | cons other others =>
        rw [rest] at finished first
        cases first
        by_contra different
        split at finished
        case h_1 same =>
          cases same
          exact different rfl
        case h_2 => cases finished
  have inside : ∀ character ∈ text.takeWhile (wordy blank letter),
      (character != '#') = true := by
    intro character member
    simpa using (wordy_iff.mp (of_mem_takeWhile character member)).1
  have same : content text = text.takeWhile (wordy blank letter) := by
    have cut := (cut_append inside marked).1
    rwa [List.takeWhile_append_dropWhile] at cut
  rw [same] at member
  exact (wordy_iff.mp (of_mem_takeWhile character member)).2 bad

end MimeFileLine

end Bacs.Web
