import Mathlib.Data.List.Basic
import Mathlib.Data.String.Basic
import Mathlib.Order.Lex

/-!
# Package references

An entry is the list of its path components.  Components are made of the
symbols allowed below; `.` and `..` are allowed components, because an index
may refer to other packages relative to its own.
-/

namespace Bacs.Pm

structure Entry where
  location : List String
  deriving DecidableEq, Repr

namespace Entry

def isAllowedSymbol (c : Char) : Bool :=
  ('0' ≤ c && c ≤ '9') || ('a' ≤ c && c ≤ 'z') ||
    ('A' ≤ c && c ≤ 'Z') || c == '_' || c == '-' || c == '.'

def isAllowedSubpath (subpath : String) : Bool :=
  !subpath.isEmpty && subpath.toList.all isAllowedSymbol

def empty (entry : Entry) : Bool :=
  entry.location.isEmpty

/-- Drop `.` components and let each `..` remove the component before it. -/
def normalize (location : List String) : List String :=
  location.foldl
    (fun normal component =>
      if component = "." then normal
      else if component = ".." then normal.dropLast
      else normal ++ [component]) []

/-- Entries that begin with `.` or `..` are relative to `root`. -/
def makeAbsolute (entry root : Entry) : Entry :=
  if entry.empty then entry
  else if entry.location.head? = some "." ∨ entry.location.head? = some ".."
  then ⟨normalize (root.location ++ entry.location)⟩
  else ⟨normalize entry.location⟩

/-- The order in which `std::set<entry>` lists its elements. -/
def before (left right : Entry) : Prop :=
  left.location ≤ right.location

instance : DecidableRel before :=
  fun left right => inferInstanceAs (Decidable (left.location ≤ right.location))

end Entry

end Bacs.Pm
