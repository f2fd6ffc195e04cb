import Mathlib.Data.List.Basic

/-!
# Matching file names

A pattern is translated to a regular expression, character by character.  What
follows an opening bracket is collected until the set is closed, and read once
more as text if it is not.
-/

namespace Bacs.Common

namespace Fnmatcher

/-- `parser::state_type`. -/
inductive StateType where
  | text
  | inChoiceFirst
  | inChoiceSecond
  | inChoiceAny
  | end
  deriving DecidableEq, Repr

/-- `parser`. -/
structure Translator where
  result : List Char
  choice : List Char
  state : StateType
  deriving DecidableEq, Repr

def escapeRest (character : Char) : List Char :=
  if character = '\\' then ['\\', '\\'] else [character]

def escapeFirst (character : Char) : List Char :=
  match character with
  | '!' => ['^']
  | '^' => ['\\', '^']
  | '\\' => ['\\', '\\']
  | _ => [character]

def commitChoice (choice : List Char) : List Char :=
  '[' :: ((match choice with
    | [] => []
    | first :: rest => escapeFirst first ++ rest.flatMap escapeRest) ++ [']'])

/-- `parser::operator()`. -/
def step (translator : Translator) (character : Char) : Translator :=
  match translator.state with
  | .text =>
      match character with
      | '*' => { translator with result := translator.result ++ ['.', '*'] }
      | '?' => { translator with result := translator.result ++ ['.'] }
      | '[' => { translator with choice := [], state := .inChoiceFirst }
      | _ =>
          { translator with
            result := translator.result ++
              (if character.isAlphanum then [character]
              else ['\\', character]) }
  | .inChoiceFirst =>
      { translator with
        choice := translator.choice ++ [character]
        state := if character = '!' then .inChoiceSecond else .inChoiceAny }
  | .inChoiceSecond =>
      { translator with
        choice := translator.choice ++ [character]
        state := .inChoiceAny }
  | .inChoiceAny =>
      if character = ']' then
        { translator with
          result := translator.result ++ commitChoice translator.choice
          state := .text }
      else { translator with choice := translator.choice ++ [character] }
  | .end => translator

/-- `parser::finish`.  The loop reads the choice as it was before: a bracket in
it clears the string, but only what has been read is written to again. -/
def finish (translator : Translator) : List Char :=
  match translator.state with
  | .inChoiceFirst | .inChoiceSecond | .inChoiceAny =>
      (translator.choice.foldl step
        { translator with
          result := translator.result ++ ['\\', '[']
          state := .text }).result
  | .text | .end => translator.result

def translateToRegex (pattern : String) : String :=
  String.ofList (finish (pattern.toList.foldl step ⟨[], [], .text⟩))

/-- What constructing a regular expression comes to: an exception, or what
`boost::regex_match` says of a string. -/
abbrev Regex := String → Option (String → Bool)

/-- `fnmatch`. -/
def fnmatch (regex : Regex) (pattern string : String) : Option Bool :=
  (regex (translateToRegex pattern)).map fun regexMatch => regexMatch string

end Fnmatcher

end Bacs.Common
