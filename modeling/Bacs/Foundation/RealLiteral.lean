import Bacs.Foundation.Numeral
import Bacs.Foundation.Words
import Mathlib.Data.Rat.Defs

/-!
# Literals of real numbers

A literal has an optional sign, digits with an optional point, at least one
digit on one side of it, and an optional exponent.  What looks like an
exponent without digits, or with more than an integer can hold, is not part of
the literal.  A literal is cut from the front of a text and is as long as it
can be.
-/

namespace Bacs.Foundation

structure Exponent where
  marker : Char
  sign : Option Bool
  digits : List Char
  deriving DecidableEq, Repr

/-- A sign is `some true` for minus and `some false` for plus. -/
structure RealLiteral where
  sign : Option Bool
  whole : List Char
  fraction : Option (List Char)
  exponent : Option Exponent
  deriving DecidableEq, Repr

def printSign : Option Bool → List Char
  | none => []
  | some true => ['-']
  | some false => ['+']

def printFraction : Option (List Char) → List Char
  | none => []
  | some digits => '.' :: digits

def printExponent : Option Exponent → List Char
  | none => []
  | some exponent =>
      exponent.marker :: (printSign exponent.sign ++ exponent.digits)

def signed (sign : Option Bool) (magnitude : Nat) : Int :=
  if sign = some true then -magnitude else magnitude

namespace Exponent

def value (exponent : Exponent) : Int :=
  signed exponent.sign (digitsValue 10 exponent.digits)

/-- The exponent fits in 32 bits. -/
structure Valid (exponent : Exponent) : Prop where
  marked : exponent.marker = 'e' ∨ exponent.marker = 'E'
  filled : exponent.digits ≠ []
  digits : ∀ character ∈ exponent.digits, character.isDigit = true
  fits : -2 ^ 31 ≤ exponent.value ∧ exponent.value < 2 ^ 31

end Exponent

namespace RealLiteral

def printUnsigned (literal : RealLiteral) : List Char :=
  literal.whole ++
    (printFraction literal.fraction ++ printExponent literal.exponent)

def print (literal : RealLiteral) : List Char :=
  printSign literal.sign ++ literal.printUnsigned

structure Valid (literal : RealLiteral) : Prop where
  filled : literal.whole ≠ [] ∨ literal.fraction.getD [] ≠ []
  whole : ∀ character ∈ literal.whole, character.isDigit = true
  fraction : ∀ character ∈ literal.fraction.getD [],
    character.isDigit = true
  exponent : ∀ exponent ∈ literal.exponent, exponent.Valid

def magnitude (literal : RealLiteral) : ℚ :=
  digitsValue 10 (literal.whole ++ literal.fraction.getD []) /
      10 ^ (literal.fraction.getD []).length *
    10 ^ (literal.exponent.elim 0 Exponent.value)

def value (literal : RealLiteral) : ℚ :=
  if literal.sign = some true then -literal.magnitude else literal.magnitude

end RealLiteral

/-! ## Cutting a literal -/

def cutOptionalSign : List Char → Option Bool × List Char
  | '-' :: text => (some true, text)
  | '+' :: text => (some false, text)
  | text => (none, text)

def cutFraction : List Char → Option (List Char) × List Char
  | '.' :: text =>
      (some (text.takeWhile Char.isDigit), text.dropWhile Char.isDigit)
  | text => (none, text)

def cutExponent : List Char → Option Exponent × List Char
  | [] => (none, [])
  | marker :: text =>
      if marker = 'e' ∨ marker = 'E' then
        let (sign, rest) := cutOptionalSign text
        let exponent : Exponent :=
          { marker, sign, digits := rest.takeWhile Char.isDigit }
        if exponent.digits ≠ [] ∧ -2 ^ 31 ≤ exponent.value ∧
            exponent.value < 2 ^ 31 then
          (some exponent, rest.dropWhile Char.isDigit)
        else (none, marker :: text)
      else (none, marker :: text)

def cutReal (text : List Char) : Option (RealLiteral × List Char) :=
  let (sign, text) := cutOptionalSign text
  let whole := text.takeWhile Char.isDigit
  let (fraction, rest) := cutFraction (text.dropWhile Char.isDigit)
  if whole = [] ∧ fraction.getD [] = [] then none
  else
    let (exponent, rest) := cutExponent rest
    some ({ sign, whole, fraction, exponent }, rest)

/-- A text that does not go on with a literal. -/
structure Separate (text : List Char) : Prop where
  noDigit : ∀ character ∈ text.head?, character.isDigit = false
  noPoint : text.head? ≠ some '.'
  noExponent : (cutExponent text).1 = none

instance (text : List Char) : Decidable (Separate text) :=
  have : Decidable (∀ character ∈ text.head?, character.isDigit = false) :=
    Option.decidableForallMem _
  decidable_of_iff
    ((∀ character ∈ text.head?, character.isDigit = false) ∧
      text.head? ≠ some '.' ∧ (cutExponent text).1 = none)
    ⟨fun ⟨noDigit, noPoint, noExponent⟩ => ⟨noDigit, noPoint, noExponent⟩,
      fun ⟨noDigit, noPoint, noExponent⟩ => ⟨noDigit, noPoint, noExponent⟩⟩

theorem digit_ne {character other : Char}
    (digit : character.isDigit = true) (notDigit : other.isDigit = false) :
    character ≠ other := by
  rintro rfl
  rw [digit] at notDigit
  cases notDigit

theorem cutOptionalSign_sound (text : List Char) :
    text = printSign (cutOptionalSign text).1 ++ (cutOptionalSign text).2 := by
  unfold cutOptionalSign
  split <;> rfl

theorem cutOptionalSign_print (sign : Option Bool) {rest : List Char}
    (unsigned : ∀ character ∈ rest.head?, character ≠ '-' ∧ character ≠ '+') :
    cutOptionalSign (printSign sign ++ rest) = (sign, rest) := by
  match sign with
  | some true => rfl
  | some false => rfl
  | none =>
      rw [printSign, List.nil_append]
      unfold cutOptionalSign
      split
      case h_1 => exact absurd rfl (unsigned '-' rfl).1
      case h_2 => exact absurd rfl (unsigned '+' rfl).2
      case h_3 => rfl

theorem cutFraction_sound (text : List Char) :
    text = printFraction (cutFraction text).1 ++ (cutFraction text).2 ∧
      ∀ character ∈ (cutFraction text).1.getD [],
        character.isDigit = true := by
  unfold cutFraction
  split
  case h_1 text =>
    constructor
    · simp [printFraction, List.takeWhile_append_dropWhile]
    · exact of_mem_takeWhile
  case h_2 => exact ⟨rfl, by simp⟩

theorem cutFraction_print {fraction : Option (List Char)}
    {rest : List Char}
    (digits : ∀ character ∈ fraction.getD [], character.isDigit = true)
    (noDigit : ∀ character ∈ rest.head?, character.isDigit = false)
    (noPoint : rest.head? ≠ some '.') :
    cutFraction (printFraction fraction ++ rest) = (fraction, rest) := by
  cases fraction with
  | none =>
      rw [printFraction, List.nil_append]
      unfold cutFraction
      split
      case h_1 => exact absurd rfl noPoint
      case h_2 => rfl
  | some fraction =>
      obtain ⟨taken, dropped⟩ := cut_append digits noDigit
      simp only [printFraction, List.cons_append, cutFraction]
      rw [Option.getD_some] at taken dropped
      rw [taken, dropped]

theorem cutExponent_sound (text : List Char) :
    text = printExponent (cutExponent text).1 ++ (cutExponent text).2 ∧
      ∀ exponent ∈ (cutExponent text).1, exponent.Valid := by
  cases text with
  | nil => exact ⟨rfl, nofun⟩
  | cons marker text =>
      rw [cutExponent]
      split
      case isFalse => exact ⟨rfl, nofun⟩
      case isTrue marked =>
        dsimp only
        split
        case isFalse => exact ⟨rfl, nofun⟩
        case isTrue valid =>
          constructor
          · simp only [printExponent, List.cons_append, List.append_assoc,
              List.takeWhile_append_dropWhile]
            rw [← cutOptionalSign_sound]
          · rintro exponent ⟨⟩
            exact ⟨marked, valid.1, of_mem_takeWhile, valid.2⟩

theorem unsigned_of_digits {digits rest : List Char} (filled : digits ≠ [])
    (all : ∀ character ∈ digits, character.isDigit = true) :
    ∀ character ∈ (digits ++ rest).head?,
      character ≠ '-' ∧ character ≠ '+' := by
  cases digits with
  | nil => contradiction
  | cons digit digits =>
      rintro character ⟨⟩
      have isDigit := all digit (by simp)
      exact ⟨digit_ne isDigit rfl, digit_ne isDigit rfl⟩

theorem cutExponent_print {exponent : Exponent} {rest : List Char}
    (valid : exponent.Valid)
    (noDigit : ∀ character ∈ rest.head?, character.isDigit = false) :
    cutExponent (printExponent (some exponent) ++ rest) =
      (some exponent, rest) := by
  obtain ⟨marker, sign, digits⟩ := exponent
  obtain ⟨taken, dropped⟩ := cut_append valid.digits noDigit
  have cut : cutOptionalSign (printSign sign ++ (digits ++ rest)) =
      (sign, digits ++ rest) := by
    apply cutOptionalSign_print
    exact unsigned_of_digits valid.filled valid.digits
  simp only [printExponent, List.cons_append, List.append_assoc, cutExponent,
    if_pos valid.marked, cut, taken, dropped]
  exact if_pos ⟨valid.filled, valid.fits⟩

theorem cutReal_sound {text rest : List Char} {literal : RealLiteral}
    (cut : cutReal text = some (literal, rest)) :
    literal.Valid ∧ text = literal.print ++ rest := by
  simp only [cutReal, Option.ite_none_left_eq_some, Option.some.injEq,
    Prod.mk.injEq] at cut
  obtain ⟨filled, rfl, rfl⟩ := cut
  have signed := cutOptionalSign_sound text
  obtain ⟨pointed, fraction⟩ := cutFraction_sound
    ((cutOptionalSign text).2.dropWhile Char.isDigit)
  obtain ⟨marked, exponent⟩ := cutExponent_sound
    (cutFraction ((cutOptionalSign text).2.dropWhile Char.isDigit)).2
  constructor
  · exact {
      filled := not_and_or.mp filled
      whole := of_mem_takeWhile
      fraction, exponent }
  · simp only [RealLiteral.print, RealLiteral.printUnsigned,
      List.append_assoc]
    rw [← marked, ← pointed, List.takeWhile_append_dropWhile, ← signed]

/-- Without its sign a literal begins with a digit or the point. -/
theorem RealLiteral.Valid.head {literal : RealLiteral}
    (valid : literal.Valid) :
    ∃ character text, literal.printUnsigned = character :: text ∧
      (character.isDigit = true ∨ character = '.') := by
  obtain ⟨sign, whole, fraction, exponent⟩ := literal
  cases whole with
  | cons digit digits =>
      exact ⟨digit, _, rfl, .inl (valid.whole digit (by simp))⟩
  | nil =>
      cases fraction with
      | none => exact absurd valid.filled (by simp)
      | some fraction => exact ⟨'.', _, rfl, .inr rfl⟩

theorem cutOptionalSign_literal {literal : RealLiteral}
    (valid : literal.Valid) (rest : List Char) :
    cutOptionalSign (literal.print ++ rest) =
      (literal.sign, literal.printUnsigned ++ rest) := by
  rw [RealLiteral.print, List.append_assoc]
  apply cutOptionalSign_print
  obtain ⟨first, text, starts, digit | point⟩ := valid.head
  · rw [starts]
    rintro character ⟨⟩
    exact ⟨digit_ne digit rfl, digit_ne digit rfl⟩
  · rw [starts, point]
    rintro character ⟨⟩
    decide

theorem cutReal_print {literal : RealLiteral} {rest : List Char}
    (valid : literal.Valid) (separate : Separate rest) :
    cutReal (literal.print ++ rest) = some (literal, rest) := by
  obtain ⟨sign, whole, fraction, exponent⟩ := literal
  have exponentCut : cutExponent (printExponent exponent ++ rest) =
      (exponent, rest) := by
    cases exponent with
    | none =>
        have kept := (cutExponent_sound rest).1
        rw [separate.noExponent, printExponent, List.nil_append] at kept
        rw [printExponent, List.nil_append]
        exact Prod.ext separate.noExponent kept.symm
    | some exponent =>
        exact cutExponent_print (valid.exponent exponent rfl)
          separate.noDigit
  have exponentHead : ∀ character ∈
      (printExponent exponent ++ rest).head?,
        character.isDigit = false ∧ character ≠ '.' := by
    cases exponent with
    | none =>
        intro character first
        refine ⟨separate.noDigit character first, ?_⟩
        rintro rfl
        exact separate.noPoint first
    | some exponent =>
        rintro character ⟨⟩
        rcases (valid.exponent exponent rfl).marked with marker | marker <;>
          simp [marker]
  have fractionCut : cutFraction (printFraction fraction ++
      (printExponent exponent ++ rest)) =
        (fraction, printExponent exponent ++ rest) := by
    apply cutFraction_print valid.fraction
    · exact fun character first => (exponentHead character first).1
    · exact fun first => (exponentHead '.' first).2 rfl
  have fractionHead : ∀ character ∈ (printFraction fraction ++
      (printExponent exponent ++ rest)).head?,
        character.isDigit = false := by
    cases fraction with
    | none => exact fun character first => (exponentHead character first).1
    | some fraction =>
        rintro character ⟨⟩
        rfl
  obtain ⟨taken, dropped⟩ := cut_append valid.whole fractionHead
  simp only [cutReal, cutOptionalSign_literal valid,
    RealLiteral.printUnsigned, List.append_assoc, taken, dropped,
    fractionCut, exponentCut]
  exact if_neg (not_and_or.mpr valid.filled)

end Bacs.Foundation
