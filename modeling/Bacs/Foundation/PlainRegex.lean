import Bacs.Foundation.Assertions

/-!
# Plain regular expressions

Regular expressions in Perl's syntax that are made of single characters, the
wildcard, bracket expressions and assertions about words and the ends of the
text.  No others are read, and no names of classes in brackets.  A bracket is
malformed if a hyphen is neither at an end nor between the ends of a range, or
if a range decreases.
-/

namespace Bacs.Foundation

inductive Assertion where
  | wordStart
  | wordEnd
  | textStart
  | textEnd
  deriving DecidableEq, Repr

/-- The elements are characters that are escaped or not. -/
structure Bracket where
  negated : Bool
  elements : List (Char × Bool)
  deriving DecidableEq, Repr

inductive Atom where
  | any
  | anyMany
  | char (character : Char)
  | bracket (content : Bracket)
  | assertion (content : Assertion)
  deriving DecidableEq, Repr

def inRanges (ranges : List (Char × Char)) (character : Char) : Bool :=
  ranges.any fun range => range.1 ≤ character && character ≤ range.2

def isWord (character : Char) : Bool :=
  character.isAlphanum || character == '_'

/-- What there is between two characters, of which one may not be there. -/
def Assertion.holds : Assertion → Option Bool → Option Bool → Bool
  | wordStart, before, after => before != some true && after == some true
  | wordEnd, before, after => before == some true && after != some true
  | textStart, before, _ => before.isNone
  | textEnd, _, after => after.isNone

/-! ## Brackets -/

/-- A bracket ends at the first bare `]` but an element that comes first.  An
element is a character that is escaped or not. -/
def cutElements (first : Bool) :
    List Char → Option (List (Char × Bool) × List Char)
  | [] => none
  | '\\' :: [] => none
  | '\\' :: character :: rest =>
      if character.isAlphanum then none
      else
        (cutElements false rest).map fun (elements, rest) =>
          ((character, true) :: elements, rest)
  | ']' :: rest =>
      if first then
        (cutElements false rest).map fun (elements, rest) =>
          ((']', false) :: elements, rest)
      else some ([], rest)
  | '[' :: rest =>
      -- The name of a class, or of a collating or equivalence class.
      if rest.head?.any (· ∈ [':', '.', '=']) then none
      else
        (cutElements false rest).map fun (elements, rest) =>
          (('[', false) :: elements, rest)
  | character :: rest =>
      (cutElements false rest).map fun (elements, rest) =>
        ((character, false) :: elements, rest)

def isHyphen (element : Char × Bool) : Bool :=
  element == ('-', false)

/-- The ranges of a bracket, in which single characters are ranges, too. -/
def elementRanges (first : Bool) :
    List (Char × Bool) → Option (List (Char × Char))
  | [] => some []
  | [element] => some [(element.1, element.1)]
  | start :: hyphen :: [] =>
      if isHyphen start && !first then none
      else (elementRanges false [hyphen]).map ((start.1, start.1) :: ·)
  | start :: hyphen :: last :: rest =>
      if isHyphen start && !first then none
      else if isHyphen hyphen then
        if isHyphen last && !first && !rest.isEmpty then none
        else if start.1 ≤ last.1 then
          (elementRanges false rest).map ((start.1, last.1) :: ·)
        else none
      else
        (elementRanges false (hyphen :: last :: rest)).map
          ((start.1, start.1) :: ·)

def cutBracket (text : List Char) : Option (Bracket × List Char) :=
  let (negated, text) :=
    match text with
    | '^' :: text => (true, text)
    | text => (false, text)
  (cutElements true text).map fun (elements, rest) =>
    ({ negated, elements }, rest)

/-! ## Expressions -/

/-- The escapes that stand for no character. -/
def escapedAssertion : Char → Option Assertion
  | '<' => some .wordStart
  | '>' => some .wordEnd
  | '\x60' => some .textStart
  | '\x27' => some .textEnd
  | _ => none

/-- What an escape stands for: a letter or a digit is not plain. -/
def readEscape (character : Char) : Option Atom :=
  match escapedAssertion character with
  | some assertion => some (.assertion assertion)
  | none => if character.isAlphanum then none else some (.char character)

/-- Read at most `count` atoms. -/
def readAtoms : Nat → List Char → Option (List Atom)
  | _, [] => some []
  | 0, _ :: _ => none
  | count + 1, '.' :: '*' :: rest =>
      (readAtoms count rest).map (.anyMany :: ·)
  | count + 1, '.' :: rest => (readAtoms count rest).map (.any :: ·)
  | _ + 1, '\\' :: [] => none
  | count + 1, '\\' :: character :: rest =>
      match readEscape character with
      | none => none
      | some atom => (readAtoms count rest).map (atom :: ·)
  | count + 1, '[' :: rest =>
      match cutBracket rest with
      | none => none
      | some (bracket, rest) =>
          (readAtoms count rest).map (.bracket bracket :: ·)
  | count + 1, character :: rest =>
      if character.isAlphanum then
        (readAtoms count rest).map (.char character :: ·)
      else none

def readRegex (text : List Char) : Option (List Atom) :=
  readAtoms text.length text

/-- What an atom stands for, if it is not malformed. -/
def Atom.segment : Atom → Option (Segment Char)
  | any => some (.piece (.one fun _ => true))
  | anyMany => some (.piece .many)
  | char character => some (.piece (.one fun other => other == character))
  | bracket content =>
      (elementRanges true content.elements).map fun ranges =>
        .piece (.one fun character =>
          content.negated != inRanges ranges character)
  | assertion content => some (.look content.holds)

def regexSegments : List Atom → Option (List (Segment Char))
  | [] => some []
  | atom :: rest =>
      match atom.segment, regexSegments rest with
      | some segment, some segments => some (segment :: segments)
      | _, _ => none

end Bacs.Foundation
