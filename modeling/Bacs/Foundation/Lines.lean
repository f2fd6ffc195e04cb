import Mathlib.Data.List.DropRight

/-!
# Lines and fields

A line is cut off at its terminator, which it keeps.  The fields of a line are
split at a separator; trimming removes the separators around a line.
-/

namespace Bacs.Foundation

variable {Character : Type*} [DecidableEq Character]
  {terminator separator : Character}

/-- The first line, with its terminator, and what follows it; `none` if there
is no terminator. -/
def cutLine (terminator : Character) :
    List Character → Option (List Character × List Character)
  | [] => none
  | character :: rest =>
      if character = terminator then some ([character], rest)
      else (cutLine terminator rest).map fun (line, rest) =>
        (character :: line, rest)

def trim (separator : Character) (line : List Character) : List Character :=
  (line.dropWhile (· = separator)).rdropWhile (· = separator)

/-- A sequence of lines, each with its terminator. -/
def terminated (terminator : Character) (lines : List (List Character)) :
    List Character :=
  lines.flatMap (· ++ [terminator])

/-- The lines of a text without their terminators; what follows the last
terminator is not a line. -/
def completeLines (terminator : Character) (text : List Character) :
    List (List Character) :=
  (text.splitOn terminator).dropLast

theorem cutLine_eq_none {text : List Character} :
    cutLine terminator text = none ↔ terminator ∉ text := by
  induction text with
  | nil => simp [cutLine]
  | cons character text induction =>
      by_cases same : character = terminator
      · simp [cutLine, same]
      · simp [cutLine, same, induction, Ne.symm same]

theorem cutLine_terminated {line : List Character}
    (unterminated : terminator ∉ line) (rest : List Character) :
    cutLine terminator (line ++ terminator :: rest) =
      some (line ++ [terminator], rest) := by
  induction line with
  | nil => simp [cutLine]
  | cons character line induction =>
      obtain ⟨different, unterminated⟩ :=
        not_or.mp (mt List.mem_cons.mpr unterminated)
      simp [cutLine, Ne.symm different, induction unterminated]

theorem first_line (terminator : Character) (text : List Character) :
    terminator ∉ text ∨ ∃ line rest, terminator ∉ line ∧
      text = line ++ terminator :: rest := by
  by_cases present : terminator ∈ text
  · obtain ⟨line, rest, same, absent⟩ :=
      List.eq_append_cons_of_mem present
    exact .inr ⟨line, rest, absent, same⟩
  · exact .inl present

theorem completeLines_unterminated {text : List Character}
    (absent : terminator ∉ text) : completeLines terminator text = [] := by
  rw [completeLines, List.splitOn_eq_singleton absent]
  rfl

theorem completeLines_cons {line : List Character}
    (unterminated : terminator ∉ line) (rest : List Character) :
    completeLines terminator (line ++ terminator :: rest) =
      line :: completeLines terminator rest := by
  rw [completeLines, List.splitOn_append_cons_self_of_not_mem unterminated]
  exact List.dropLast_cons_of_ne_nil (List.splitOn_ne_nil _ _)

theorem trim_terminated (different : terminator ≠ separator)
    (line : List Character) :
    trim separator (line ++ [terminator]) =
      line.dropWhile (· = separator) ++ [terminator] := by
  have kept : (line ++ [terminator]).dropWhile (· = separator) =
      line.dropWhile (· = separator) ++ [terminator] := by
    induction line with
    | nil => simp [different]
    | cons character line induction =>
        by_cases same : character = separator
        · simpa [same] using induction
        · simp [same]
  rw [trim, kept, List.rdropWhile_concat_neg]
  simpa using different

/-- A line is some separators followed by what trimming leaves of it. -/
theorem leading_separators (line : List Character) :
    ∃ count, line = List.replicate count separator ++
      line.dropWhile (· = separator) := by
  refine ⟨(line.takeWhile (· = separator)).length, ?_⟩
  have same : line.takeWhile (· = separator) =
      List.replicate (line.takeWhile (· = separator)).length separator := by
    apply List.eq_replicate_of_mem
    intro character member
    simpa using List.mem_takeWhile_imp member
  rw [← same]
  exact List.takeWhile_append_dropWhile.symm

theorem dropWhile_separators (count : Nat) {first : Character}
    (different : first ≠ separator) (rest : List Character) :
    (List.replicate count separator ++ first :: rest).dropWhile
      (· = separator) = first :: rest := by
  induction count with
  | zero => simp [different]
  | succ count induction => simpa [List.replicate_succ] using induction

theorem splitOn_eq_pair {line first second : List Character} :
    line.splitOn separator = [first, second] ↔
      line = first ++ separator :: second ∧ separator ∉ first ∧
        separator ∉ second := by
  constructor
  · intro split
    by_cases present : separator ∈ line
    · obtain ⟨before, after, same, absent⟩ :=
        List.eq_append_cons_of_mem present
      rw [same, List.splitOn_append_cons_self_of_not_mem absent] at split
      by_cases more : separator ∈ after
      · obtain ⟨middle, last, same', absent'⟩ :=
          List.eq_append_cons_of_mem more
        rw [same', List.splitOn_append_cons_self_of_not_mem absent'] at split
        have empty : last.splitOn separator = [] := by
          simpa using (List.cons.inj (List.cons.inj split).2).2
        exact absurd empty (List.splitOn_ne_nil _ _)
      · rw [List.splitOn_eq_singleton more] at split
        cases split
        exact ⟨same, absent, more⟩
    · rw [List.splitOn_eq_singleton present] at split
      cases split
  · intro shape
    obtain ⟨same, absent, absent'⟩ := shape
    rw [same, List.splitOn_append_cons_self_of_not_mem absent,
      List.splitOn_eq_singleton absent']

end Bacs.Foundation
