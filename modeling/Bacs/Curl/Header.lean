import Mathlib.Data.List.Basic
import Mathlib.Data.String.Basic

/-!
# HTTP headers

A header has a name in lower case and any number of values.  It is sent as one
line for each of its values.
-/

namespace Bacs.Curl

/-- `to_lower_copy` in the classic locale. -/
def makeName (rawName : String) : String :=
  String.ofList (rawName.toList.map Char.toLower)

theorem isUpper_iff {character : Char} :
    character.isUpper = true ↔
      character.val ≥ 'A'.val ∧ character.val ≤ 'Z'.val :=
  decide_eq_true_iff

theorem toLower_of_not_isUpper {character : Char}
    (other : character.isUpper = false) :
    character.toLower = character := by
  rw [Char.toLower.eq_def, dif_neg]
  rw [← isUpper_iff, other]
  simp

theorem isUpper_toLower (character : Char) :
    character.toLower.isUpper = false := by
  cases upper : character.isUpper with
  | false => rw [toLower_of_not_isUpper upper, upper]
  | true =>
      have bounds := isUpper_iff.mp upper
      have lower : character.toLower.val =
          character.val + ('a'.val - 'A'.val) := by
        rw [Char.toLower.eq_def, dif_pos bounds]
      have shifted : character.toLower.val.toNat =
          character.val.toNat + 32 := by
        obtain ⟨_, most⟩ := bounds
        rw [lower, UInt32.toNat_add]
        have small : character.val.toNat ≤ 90 := most
        change (character.val.toNat + 32) % 2 ^ 32 = _
        omega
      have least : 65 ≤ character.val.toNat := bounds.1
      have above : ¬ character.toLower.val ≤ 'Z'.val := by
        rw [UInt32.le_iff_toNat_le, shifted]
        change ¬ character.val.toNat + 32 ≤ 90
        omega
      rw [← Bool.not_eq_true, isUpper_iff]
      exact fun within => above within.2

@[simp] theorem makeName_makeName (rawName : String) :
    makeName (makeName rawName) = makeName rawName := by
  unfold makeName
  rw [String.toList_ofList, List.map_map]
  congr 2
  funext character
  exact toLower_of_not_isUpper (isUpper_toLower character)

structure Header where
  name : String
  values : List String
  lower : makeName name = name

inductive HeaderError where
  | undefinedBehaviour
  | headerNonUniqueValue (name : String)
  | headerMergeIncompatibleName (name otherName : String)
  | headerParse (message headerData : String)
  deriving DecidableEq, Repr

namespace Header

/-- The constructor from a name and values. -/
def create (name : String) (values : List String) : Header :=
  ⟨makeName name, values, makeName_makeName name⟩

/-- `header::merger` -/
def merger (name value : String) : String :=
  if value.isEmpty then name ++ ":" else name ++ ": " ++ value

def plainHeaders (header : Header) : List String :=
  header.values.map (merger header.name)

/-- The values of `h` are inserted as a range, which must not be one of the
container itself: `own` tells whether `h` is the header. -/
def merge (header h : Header) (own : Bool) : Except HeaderError Header :=
  if header.name = h.name then
    if own then .error .undefinedBehaviour
    else .ok { header with values := header.values ++ h.values }
  else .error (.headerMergeIncompatibleName header.name h.name)

theorem merge_of_name {header h : Header} (same : header.name = h.name) :
    header.merge h false =
      .ok { header with values := header.values ++ h.values } := by
  simp [merge, same]

theorem merge_own {header h : Header} (same : header.name = h.name) :
    header.merge h true = .error .undefinedBehaviour := by
  simp [merge, same]

theorem merge_name {header h changed : Header} {own : Bool}
    (merged : header.merge h own = .ok changed) :
    changed.name = header.name := by
  unfold merge at merged
  split at merged
  · cases own with
    | false =>
        cases merged
        rfl
    | true => cases merged
  · cases merged

end Header

end Bacs.Curl
