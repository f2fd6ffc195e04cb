import Bacs.Foundation.RealParser
import Bacs.Foundation.Rounding
import Mathlib.Data.List.MinMax

/-!
# Resource limits

Times and amounts of memory are numbers with an optional multiple and unit.
The parsers put a number of any form before the unit; numbers are rational,
and the special numbers are kept apart.
-/

namespace Bacs.Problem.Resource

open Foundation

inductive ResourceError where
  | timeError (value : String) (pos : Nat)
  | memoryError (value : String) (pos : Nat)
  /-- `boost::numeric::negative_overflow`. -/
  | negativeOverflow
  /-- `boost::numeric::positive_overflow`. -/
  | positiveOverflow
  deriving DecidableEq, Repr

/-- What a call comes to.  The conversion of a NaN is undefined. -/
inductive Outcome where
  | returns (result : Nat)
  | throws (error : ResourceError)
  | undefined
  deriving DecidableEq, Repr

/-! ## Multiples -/

def siMultiple : List (String × ℚ) :=
  [("da", 10), ("h", 10 ^ 2), ("k", 10 ^ 3), ("M", 10 ^ 6), ("G", 10 ^ 9),
    ("T", 10 ^ 12), ("P", 10 ^ 15), ("E", 10 ^ 18), ("Z", 10 ^ 21),
    ("Y", 10 ^ 24)]

def siSubmultiple : List (String × ℚ) :=
  [("d", 1 / 10), ("c", 1 / 10 ^ 2), ("m", 1 / 10 ^ 3), ("u", 1 / 10 ^ 6),
    ("n", 1 / 10 ^ 9), ("p", 1 / 10 ^ 12), ("f", 1 / 10 ^ 15),
    ("a", 1 / 10 ^ 18), ("z", 1 / 10 ^ 21), ("y", 1 / 10 ^ 24)]

def binaryMultiple : List (String × ℚ) :=
  [("Ki", 1024), ("Mi", 1024 ^ 2), ("Gi", 1024 ^ 3), ("Ti", 1024 ^ 4),
    ("Pi", 1024 ^ 5), ("Ei", 1024 ^ 6), ("Zi", 1024 ^ 7), ("Yi", 1024 ^ 8)]

/-- `qi::symbols`: the longest name that the text begins with. -/
def findSymbol (table : List (String × ℚ)) (text : List Char) :
    Option (ℚ × List Char) :=
  ((table.filter fun entry => entry.1.toList.isPrefixOf text).argmax
    fun entry => entry.1.length).map fun entry =>
      (entry.2, text.drop entry.1.length)

/-- The rule `multiple`: the first table with a name, or none, and the
unit. -/
def multiple (tables : List (List (String × ℚ))) (unit : Char)
    (text : List Char) : Option (ℚ × List Char) :=
  match (tables.findSome? fun table => findSymbol table text).getD
      (1, text) with
  | (factor, character :: rest) =>
      if character = unit then some (factor, rest) else none
  | (_, []) => none

/-- The rule `multiple_unit`. -/
def multipleUnit (tables : List (List (String × ℚ))) (unit : Char)
    (text : List Char) : ℚ × List Char :=
  (multiple tables unit text).getD (1, text)

section Parsers

variable (double : RealParser)

/-- The rule `start` over `qi::double_` of Boost.Spirit. -/
def start (tables : List (List (String × ℚ))) (unit : Char) : RealParser :=
    fun text =>
  (double text).map fun (number, rest) =>
    let (factor, rest) := multipleUnit tables unit rest
    (number.scale factor, rest)

def timeParser : RealParser :=
  start double [siMultiple, siSubmultiple] 's'

def memoryParser : RealParser :=
  start double [binaryMultiple] 'B'

end Parsers

/-! ## Limits -/

/-- `std::round` and `boost::numeric_cast<std::uint64_t>`. -/
def castRounded : Double → Outcome
  | .number value =>
      if roundAway value < 0 then .throws .negativeOverflow
      else if 2 ^ 64 ≤ roundAway value then .throws .positiveOverflow
      else .returns (roundAway value).toNat
  | .infinity true => .throws .negativeOverflow
  | .infinity false => .throws .positiveOverflow
  | .nan => .undefined

def whole (text : List Char) (parsed : Option (Double × List Char))
    (error : Nat → ResourceError) (cast : Double → Outcome) : Outcome :=
  match parsed with
  | some (result, []) => cast result
  | some (_, rest) => .throws (error (text.length - rest.length))
  | none => .throws (error 0)

def timeMillis (double : RealParser) (time : String) : Outcome :=
  whole time.toList (timeParser double time.toList) (.timeError time)
    fun result => castRounded (result.scale 1000)

def memoryBytes (double : RealParser) (memory : String) : Outcome :=
  whole memory.toList (memoryParser double memory.toList)
    (.memoryError memory) castRounded

end Bacs.Problem.Resource
