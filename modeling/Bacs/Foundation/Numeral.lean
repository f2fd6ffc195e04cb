import Mathlib.Data.List.TakeWhile
import Mathlib.Data.Nat.Digits.Defs

/-!
# Numerals

A numeral is read from the front of a text: a sign, a prefix that may tell the
base, and as many digits as there are.  It is printed without a prefix and
without leading zeros, and reading it gives the number back.
-/

namespace Bacs.Foundation

def isSpace (character : Char) : Bool :=
  character ∈ [' ', '\t', '\n', '\x0b', '\x0c', '\r']

def digitValue (character : Char) : Option Nat :=
  if '0' ≤ character ∧ character ≤ '9' then some (character.toNat - 48)
  else if 'a' ≤ character ∧ character ≤ 'f' then
    some (character.toNat - 87)
  else if 'A' ≤ character ∧ character ≤ 'F' then
    some (character.toNat - 55)
  else none

def isDigitOf (base : Nat) (character : Char) : Bool :=
  (digitValue character).any (· < base)

/-- The number that digits stand for, the highest first. -/
def digitsValue (base : Nat) (digits : List Char) : Nat :=
  digits.foldl
    (fun value digit => value * base + (digitValue digit).getD 0) 0

/-- Which base a numeral has; without one, its prefix tells. -/
inductive Basefield where
  | dec
  | hex
  | unset
  deriving DecidableEq, Repr

/-- Whether there is a minus sign, and what follows the sign. -/
def cutSign : List Char → Bool × List Char
  | '-' :: text => (true, text)
  | '+' :: text => (false, text)
  | text => (false, text)

/-- What follows the prefix of a hexadecimal numeral. -/
def cutHexPrefix : List Char → Option (List Char)
  | '0' :: 'x' :: text => some text
  | '0' :: 'X' :: text => some text
  | _ => none

def cutPrefix (text : List Char) : Basefield → Nat × List Char
  | .dec => (10, text)
  | .hex => (16, (cutHexPrefix text).getD text)
  | .unset =>
      match cutHexPrefix text with
      | some text => (16, text)
      | none => if text.head? = some '0' then (8, text) else (10, text)

structure Numeral where
  negative : Bool
  magnitude : Nat
  rest : List Char
  deriving DecidableEq, Repr

def extractNumeral (basefield : Basefield) (text : List Char) :
    Option Numeral :=
  let (negative, text) := cutSign (text.dropWhile isSpace)
  let (base, text) := cutPrefix text basefield
  let digits := text.takeWhile (isDigitOf base)
  if digits = [] then none
  else
    some {
      negative, magnitude := digitsValue base digits
      rest := text.dropWhile (isDigitOf base) }

def printInteger : Int → List Char
  | .ofNat number => Nat.toDigits 10 number
  | .negSucc number => '-' :: Nat.toDigits 10 (number + 1)

variable {base number : Nat}

/-! ## Digits -/

theorem digitValue_digitChar (bound : number < 16) :
    digitValue number.digitChar = some number := by
  revert number
  decide

theorem digitsValue_append (base : Nat) (digits : List Char)
    (digit : Char) :
    digitsValue base (digits ++ [digit]) =
      digitsValue base digits * base + (digitValue digit).getD 0 := by
  rw [digitsValue, List.foldl_append]
  rfl

/-- The digits of a number are built by adding the last one to the digits of
its quotient. -/
theorem toDigits_induction (property : Nat → List Char → Prop)
    (two : 1 < base)
    (single : ∀ digit < base, property digit [digit.digitChar])
    (more : ∀ number digit, 0 < number → digit < base →
      property number (Nat.toDigits base number) →
        property (number * base + digit)
          (Nat.toDigits base number ++ [digit.digitChar]))
    (number : Nat) : property number (Nat.toDigits base number) := by
  induction number using Nat.strong_induction_on with
  | _ number induction =>
      rw [Nat.toDigits_eq_if two]
      split
      · rename_i small
        exact single number small
      · rename_i large
        have large := Nat.le_of_not_lt large
        have positive : 0 < number := by omega
        have built := more (number / base) (number % base)
          (Nat.div_pos large (by omega)) (Nat.mod_lt _ (by omega))
          (induction (number / base) (Nat.div_lt_self positive two))
        rw [Nat.div_add_mod'] at built
        exact built

theorem digitsValue_toDigits (two : 1 < base) (sixteen : base ≤ 16)
    (number : Nat) : digitsValue base (Nat.toDigits base number) = number := by
  apply toDigits_induction
    (fun number digits => digitsValue base digits = number) two
  · intro digit small
    simp [digitsValue, digitValue_digitChar (Nat.lt_of_lt_of_le small sixteen)]
  · intro number digit _ small induction
    rw [digitsValue_append, induction,
      digitValue_digitChar (Nat.lt_of_lt_of_le small sixteen)]
    rfl

theorem isDigitOf_digitChar (sixteen : base ≤ 16) (small : number < base) :
    isDigitOf base number.digitChar = true := by
  rw [isDigitOf, digitValue_digitChar (Nat.lt_of_lt_of_le small sixteen)]
  simpa using small

theorem isDigitOf_toDigits (two : 1 < base) (sixteen : base ≤ 16)
    (number : Nat) :
    ∀ digit ∈ Nat.toDigits base number, isDigitOf base digit = true := by
  apply toDigits_induction
    (fun _ digits => ∀ digit ∈ digits, isDigitOf base digit = true) two
  · intro digit small character member
    rw [List.mem_singleton.mp member]
    exact isDigitOf_digitChar sixteen small
  · intro number digit _ small induction character member
    obtain earlier | last := List.mem_append.mp member
    · exact induction character earlier
    · rw [List.mem_singleton.mp last]
      exact isDigitOf_digitChar sixteen small

theorem digitChar_ne_zero (positive : 0 < number) (bound : number < 16) :
    number.digitChar ≠ '0' := by
  intro zero
  have value := digitValue_digitChar bound
  rw [zero] at value
  cases value
  exact Nat.lt_irrefl 0 positive

theorem toDigits_head (two : 1 < base) (sixteen : base ≤ 16)
    (positive : 0 < number) :
    (Nat.toDigits base number).head? ≠ some '0' := by
  revert positive
  apply toDigits_induction
    (fun number digits => 0 < number → digits.head? ≠ some '0') two
  · intro digit small positive zero
    exact digitChar_ne_zero positive (Nat.lt_of_lt_of_le small sixteen)
      (Option.some.inj zero)
  · intro number digit positive small induction _
    rw [List.head?_append, Option.or_of_isSome]
    · exact induction positive
    · exact List.isSome_head?.mpr Nat.toDigits_ne_nil

/-! ## Reading a number back -/

theorem isDigitOf_ne {character digit : Char}
    (other : digitValue character = none)
    (isDigit : isDigitOf base digit = true) : digit ≠ character := by
  intro same
  rw [isDigitOf, same, other] at isDigit
  cases isDigit

theorem toNat_isDigitOf {digit : Char}
    (isDigit : isDigitOf base digit = true) : digit.toNat < 128 := by
  have bound : ∀ last : Char, digit ≤ last → digit.toNat ≤ last.toNat := by
    intro last least
    exact UInt32.le_iff_toNat_le.mp least
  unfold isDigitOf digitValue at isDigit
  split at isDigit
  · rename_i inside
    exact Nat.lt_of_le_of_lt (bound '9' inside.2) (by decide)
  · split at isDigit
    · rename_i inside
      exact Nat.lt_of_le_of_lt (bound 'f' inside.2) (by decide)
    · split at isDigit
      · rename_i inside
        exact Nat.lt_of_le_of_lt (bound 'F' inside.2) (by decide)
      · cases isDigit

theorem isSpace_of_isDigitOf {digit : Char}
    (isDigit : isDigitOf base digit = true) : isSpace digit = false := by
  apply Bool.eq_false_iff.mpr
  intro space
  simp only [isSpace, List.mem_cons, List.not_mem_nil, or_false,
    decide_eq_true_eq] at space
  obtain same | same | same | same | same | same := space
  all_goals exact isDigitOf_ne (by rfl) isDigit same

theorem cutSign_digit {digit : Char} (isDigit : isDigitOf base digit = true)
    (text : List Char) :
    cutSign ((digit :: text).dropWhile isSpace) = (false, digit :: text) := by
  rw [List.dropWhile_cons_of_neg (by simp [isSpace_of_isDigitOf isDigit])]
  unfold cutSign
  split
  · rename_i same
    exact absurd (List.cons.inj same).1 (isDigitOf_ne (by rfl) isDigit)
  · rename_i same
    exact absurd (List.cons.inj same).1 (isDigitOf_ne (by rfl) isDigit)
  · rfl

theorem dropWhile_isSpace_spaces (count : Nat) (text : List Char) :
    (List.replicate count ' ' ++ text).dropWhile isSpace =
      text.dropWhile isSpace := by
  induction count with
  | zero => rfl
  | succ count induction =>
      rw [List.replicate_succ, List.cons_append]
      exact induction

theorem cutHexPrefix_digits {digits : List Char}
    (all : ∀ digit ∈ digits, isDigitOf base digit = true) :
    cutHexPrefix digits = none := by
  unfold cutHexPrefix
  split
  · exact absurd rfl (isDigitOf_ne (by rfl) (all 'x' (by simp)))
  · exact absurd rfl (isDigitOf_ne (by rfl) (all 'X' (by simp)))
  · rfl

/-- Where the base is told and the sign and the spaces are cut off, a numeral
without a prefix is read to the end. -/
theorem extractNumeral_toDigits (two : 1 < base) (sixteen : base ≤ 16)
    (number : Nat) {basefield : Basefield} {negative : Bool}
    {text : List Char}
    (sign : cutSign (text.dropWhile isSpace) =
      (negative, Nat.toDigits base number))
    (told : cutPrefix (Nat.toDigits base number) basefield =
      (base, Nat.toDigits base number)) :
    extractNumeral basefield text =
      some { negative, magnitude := number, rest := [] } := by
  have all := isDigitOf_toDigits two sixteen number
  have taken : (Nat.toDigits base number).takeWhile (isDigitOf base) =
      Nat.toDigits base number := List.takeWhile_eq_self_iff.mpr all
  have dropped : (Nat.toDigits base number).dropWhile (isDigitOf base) =
      [] := List.dropWhile_eq_nil_iff.mpr all
  unfold extractNumeral
  rw [sign]
  dsimp only
  rw [told]
  dsimp only
  rw [taken, dropped, if_neg Nat.toDigits_ne_nil,
    digitsValue_toDigits two sixteen]

theorem cutSign_toDigits (two : 1 < base) (sixteen : base ≤ 16)
    (number : Nat) :
    cutSign ((Nat.toDigits base number).dropWhile isSpace) =
      (false, Nat.toDigits base number) := by
  have all := isDigitOf_toDigits two sixteen number
  obtain ⟨digit, digits, same⟩ :=
    List.exists_cons_of_ne_nil (@Nat.toDigits_ne_nil number base)
  rw [same] at all ⊢
  exact cutSign_digit (all digit List.mem_cons_self) digits

theorem extractNumeral_hex (count number : Nat) :
    extractNumeral .hex
        (List.replicate count ' ' ++ Nat.toDigits 16 number) =
      some { negative := false, magnitude := number, rest := [] } := by
  have two : 1 < 16 := by decide
  apply extractNumeral_toDigits two (Nat.le_refl 16)
  · rw [dropWhile_isSpace_spaces]
    exact cutSign_toDigits two (Nat.le_refl 16) number
  · rw [cutPrefix, cutHexPrefix_digits
      (isDigitOf_toDigits two (Nat.le_refl 16) number)]
    rfl

/-- The base of a decimal numeral is ten or told by its leading digit. -/
theorem cutPrefix_decimal {basefield : Basefield}
    (other : basefield ≠ .hex) (positive : 0 < number) :
    cutPrefix (Nat.toDigits 10 number) basefield =
      (10, Nat.toDigits 10 number) := by
  have two : 1 < 10 := by decide
  have sixteen : 10 ≤ 16 := by decide
  cases basefield with
  | dec => rfl
  | hex => exact absurd rfl other
  | unset =>
      rw [cutPrefix, cutHexPrefix_digits
        (isDigitOf_toDigits two sixteen number)]
      dsimp only
      rw [if_neg (toDigits_head two sixteen positive)]

/-- A decimal numeral is read back, whether or not its base is told. -/
theorem extractNumeral_decimal {basefield : Basefield}
    (other : basefield ≠ .hex) (number : Int) :
    extractNumeral basefield (printInteger number) =
      some {
        negative := number < 0, magnitude := number.natAbs, rest := [] } := by
  have two : 1 < 10 := by decide
  have sixteen : 10 ≤ 16 := by decide
  cases number with
  | ofNat number =>
      cases number with
      | zero =>
          cases basefield with
          | dec => rfl
          | hex => exact absurd rfl other
          | unset => rfl
      | succ number =>
          exact extractNumeral_toDigits two sixteen (number + 1)
            (cutSign_toDigits two sixteen _)
            (cutPrefix_decimal other (Nat.succ_pos number))
  | negSucc number =>
      have negative : decide (Int.negSucc number < 0) = true :=
        decide_eq_true (Int.negSucc_lt_zero number)
      rw [negative]
      exact extractNumeral_toDigits two sixteen (number + 1) (by rfl)
        (cutPrefix_decimal other (Nat.succ_pos number))

end Bacs.Foundation
