import Bacs.Problem.Resource
import Mathlib.Tactic.FieldSimp

/-!
# The grammar of resource limits

A limit is an unsigned fixed point decimal, directly followed by nothing or by
an optional multiple and the unit.  The parsers go further than the grammar in
the number, and the one for memory does not know all the multiples.
-/

namespace Bacs.Problem.Resource

open Foundation

/-! ## The documented grammar -/

def IsUnsigned (text : List Char) : Prop :=
  text ≠ [] ∧ ∀ character ∈ text, character.isDigit = true

def IsDecimal (text : List Char) (value : ℚ) : Prop :=
  (IsUnsigned text ∧ value = digitsValue 10 text) ∨
    ∃ integral fraction, IsUnsigned integral ∧ IsUnsigned fraction ∧
      text = integral ++ '.' :: fraction ∧
      value = digitsValue 10 integral +
        digitsValue 10 fraction / 10 ^ fraction.length

/-- A multiple of the table and the unit. -/
def IsMultiple (table : List (String × ℚ)) (unit : Char)
    (text : List Char) (factor : ℚ) : Prop :=
  ∃ name, (name, factor) ∈ table ∧ text = name.toList ++ [unit]

/-- Nothing, or an optional multiple and the unit. -/
def IsMultipleUnit (table : List (String × ℚ)) (unit : Char)
    (text : List Char) (factor : ℚ) : Prop :=
  (text = [] ∧ factor = 1) ∨ IsMultiple (("", 1) :: table) unit text factor

/-- A text has an integral value in parts of the unit. -/
def IsLimit (suffixed : List Char → ℚ → Prop) (parts : ℚ)
    (text : List Char) (result : Nat) : Prop :=
  ∃ decimal suffix value factor, text = decimal ++ suffix ∧
    IsDecimal decimal value ∧ suffixed suffix factor ∧
    Nearest (value * factor * parts) result ∧ result < 2 ^ 64

def IsTime : List Char → Nat → Prop :=
  IsLimit (IsMultipleUnit (siMultiple ++ siSubmultiple) 's') 1000

def IsMemory : List Char → Nat → Prop :=
  IsLimit (IsMultipleUnit (siMultiple ++ binaryMultiple) 'B') 1

/-- A call returns what is documented, and fails otherwise. -/
def Outcome.Meets (outcome : Outcome) (documented : Nat → Prop) : Prop :=
  (∀ result, outcome = .returns result ↔ documented result) ∧
    ((∃ result, outcome = .returns result) ∨
      ∃ error, outcome = .throws error)

/-! ## More than the grammar -/

/-- A literal without sign and exponent that has digits on both sides of its
point. -/
structure FixedPoint (literal : RealLiteral) : Prop where
  unsigned : literal.sign = none
  integral : literal.whole ≠ []
  fraction : literal.fraction ≠ some []
  exponent : literal.exponent = none

/-- A text has an integral value in parts of the unit, with a literal of a
kind. -/
def IsWritten (kind : RealLiteral → Prop)
    (suffixed : List Char → ℚ → Prop) (parts : ℚ) (text : List Char)
    (result : Nat) : Prop :=
  ∃ literal suffix factor, literal.Valid ∧ kind literal ∧
    text = literal.print ++ suffix ∧ suffixed suffix factor ∧
    Nearest (literal.value * factor * parts) result ∧ result < 2 ^ 64

/-- A text has a NaN before the unit, possibly with a sign or after a number
of value one. -/
def IsUndefined (suffixed : List Char → ℚ → Prop) (text : List Char) :
    Prop :=
  ∃ before nan suffix factor, BeforeSpecial before ∧ IsNan nan ∧
    text = before ++ (nan ++ suffix) ∧ suffixed suffix factor

theorem digitsValue_join (first second : List Char) :
    digitsValue 10 (first ++ second) =
      digitsValue 10 first * 10 ^ second.length + digitsValue 10 second := by
  induction second using List.reverseRecOn with
  | nil => simp [digitsValue]
  | append_singleton second digit ih =>
      rw [← List.append_assoc, digitsValue_append, digitsValue_append, ih,
        List.length_append, List.length_singleton, pow_succ]
      ring

theorem value_integral (integral : List Char) :
    RealLiteral.value ⟨none, integral, none, none⟩ =
      digitsValue 10 integral := by
  simp [RealLiteral.value, RealLiteral.magnitude]

theorem value_fraction (integral fraction : List Char) :
    RealLiteral.value ⟨none, integral, some fraction, none⟩ =
      digitsValue 10 integral +
        digitsValue 10 fraction / 10 ^ fraction.length := by
  simp only [RealLiteral.value, RealLiteral.magnitude, Option.getD_some,
    digitsValue_join]
  push_cast
  field_simp
  simp

theorem isDecimal_iff {text : List Char} {value : ℚ} :
    IsDecimal text value ↔ ∃ literal : RealLiteral, literal.Valid ∧
      FixedPoint literal ∧ text = literal.print ∧ value = literal.value := by
  constructor
  · rintro (⟨⟨filled, digits⟩, rfl⟩ |
      ⟨integral, fraction, ⟨filled, digits⟩, ⟨filled', digits'⟩, rfl, rfl⟩)
    · refine ⟨⟨none, text, none, none⟩, ⟨.inl filled, digits, nofun, nofun⟩,
        ⟨rfl, filled, nofun, rfl⟩, ?_, (value_integral text).symm⟩
      exact (List.append_nil text).symm
    · refine ⟨⟨none, integral, some fraction, none⟩,
        ⟨.inl filled, digits, digits', nofun⟩,
        ⟨rfl, filled, by simpa using filled', rfl⟩, ?_,
        (value_fraction integral fraction).symm⟩
      rw [RealLiteral.print, RealLiteral.printUnsigned, printExponent,
        List.append_nil]
      rfl
  · rintro ⟨⟨sign, integral, fraction, exponent⟩, valid,
      ⟨rfl, filled, nonempty, rfl⟩, rfl, rfl⟩
    cases fraction with
    | none =>
        have same : RealLiteral.print ⟨none, integral, none, none⟩ =
            integral := List.append_nil integral
        rw [same]
        exact .inl ⟨⟨filled, valid.whole⟩, value_integral integral⟩
    | some fraction =>
        have filled' : fraction ≠ [] := fun empty => nonempty (by rw [empty])
        refine .inr ⟨integral, fraction, ⟨filled, valid.whole⟩,
          ⟨filled', valid.fraction⟩, ?_, value_fraction integral fraction⟩
        rw [RealLiteral.print, RealLiteral.printUnsigned, printExponent,
          List.append_nil]
        rfl

end Bacs.Problem.Resource
