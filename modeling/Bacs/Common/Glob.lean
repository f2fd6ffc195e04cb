import Bacs.Foundation.PlainRegex
import Bacs.Foundation.Words

/-!
# Shell globs

A glob is read item by item.  A bracket opens a set if the set is closed later
on, and is a character like any other if it is not.
-/

namespace Bacs.Common

open Foundation

inductive GlobItem where
  | many
  | any
  | char (character : Char)
  | set (negated : Bool) (body : List Char)
  deriving DecidableEq, Repr

/-- What follows the `!` of a set. -/
def withoutBang : List Char → List Char
  | '!' :: text => text
  | text => text

/-- A set, from after its bracket on, and what follows it.  What comes first
is a member of the set, even a closing bracket. -/
def cutSet (text : List Char) : Option (Bool × List Char × List Char) :=
  match withoutBang text with
  | [] => none
  | first :: rest =>
      match rest.dropWhile (· != ']') with
      | [] => none
      | _ :: after =>
          some (text.head? == some '!', first :: rest.takeWhile (· != ']'),
            after)

/-- Read at most `count` items. -/
def readItems : Nat → List Char → List GlobItem
  | 0, _ => []
  | _ + 1, [] => []
  | count + 1, '*' :: rest => .many :: readItems count rest
  | count + 1, '?' :: rest => .any :: readItems count rest
  | count + 1, '[' :: rest =>
      match cutSet rest with
      | some (negated, body, after) =>
          .set negated body :: readItems count after
      | none => .char '[' :: readItems count rest
  | count + 1, character :: rest => .char character :: readItems count rest

/-- The items of a pattern, which are no more than its characters. -/
def globItems (pattern : List Char) : List GlobItem :=
  readItems pattern.length pattern

def setRanges : List Char → List (Char × Char)
  | [] => []
  | first :: '-' :: last :: rest => (first, last) :: setRanges rest
  | character :: rest => (character, character) :: setRanges rest

def GlobItem.piece : GlobItem → Piece Char
  | many => .many
  | any => .one fun _ => true
  | char character => .one fun other => other == character
  | set negated body =>
      .one fun character => negated != inRanges (setRanges body) character

def GlobMatches (pattern text : List Char) : Prop :=
  Piece.Matches ((globItems pattern).map GlobItem.piece) text

instance (pattern text : List Char) : Decidable (GlobMatches pattern text) :=
  decidable_of_iff _ Piece.test_iff

/-- The ranges of a set do not decrease. -/
def RangesOrdered (pattern : List Char) : Prop :=
  ∀ negated body, .set negated body ∈ globItems pattern →
    ∀ range ∈ setRanges body, range.1 ≤ range.2

def Printable (character : Char) : Prop :=
  ' ' ≤ character ∧ character ≤ '~'

instance (character : Char) : Decidable (Printable character) :=
  inferInstanceAs (Decidable (_ ∧ _))

instance (text : List Char) :
    Decidable (∀ character ∈ text, Printable character) :=
  List.decidableBAll _ _

end Bacs.Common
