import Bacs.Foundation.RealLiteral

/-!
# Parsers of real numbers

A parser of real numbers takes a literal from the front of a text, or the name
of a special number.  The name may also follow a literal of value one.
-/

namespace Bacs.Foundation

inductive Double where
  | number (value : ℚ)
  | infinity (negative : Bool)
  | nan
  deriving DecidableEq

def Double.scale (factor : ℚ) : Double → Double
  | .number value => .number (value * factor)
  | double => double

/-- What is taken from a text, and what is left of it. -/
abbrev RealParser := List Char → Option (Double × List Char)

/-- The letters of `nan`, and something in parentheses. -/
def IsNan (text : List Char) : Prop :=
  ∃ letters inside, letters.map Char.toLower = "nan".toList ∧
    ')' ∉ inside ∧
    (text = letters ∨ text = letters ++ '(' :: (inside ++ [')']))

def IsInfinity (text : List Char) : Prop :=
  text.map Char.toLower = "inf".toList ∨
    text.map Char.toLower = "inf".toList ++ "inity".toList

/-- The value is one, with neither digits behind the point nor an exponent. -/
structure RealLiteral.IsOne (literal : RealLiteral) : Prop where
  one : digitsValue 10 literal.whole = 1
  fraction : literal.fraction.getD [] = []
  exponent : literal.exponent = none

instance (literal : RealLiteral) : Decidable literal.IsOne :=
  decidable_of_iff
    (digitsValue 10 literal.whole = 1 ∧ literal.fraction.getD [] = [] ∧
      literal.exponent = none)
    ⟨fun ⟨one, fraction, exponent⟩ => ⟨one, fraction, exponent⟩,
      fun ⟨one, fraction, exponent⟩ => ⟨one, fraction, exponent⟩⟩

/-- What may stand before the name of a special number. -/
def BeforeSpecial (text : List Char) : Prop :=
  (∃ sign, text = printSign sign) ∨
    ∃ literal : RealLiteral, literal.Valid ∧ literal.IsOne ∧
      text = literal.print

/-- A text that begins like the name of a special number. -/
def BeginsSpecial (text : List Char) : Prop :=
  (text.take 3).map Char.toLower = "nan".toList ∨
    (text.take 3).map Char.toLower = "inf".toList

instance (text : List Char) : Decidable (BeginsSpecial text) :=
  inferInstanceAs (Decidable (_ ∨ _))

inductive RealParser.Takes (text : List Char) (rest : List Char) :
    Double → Prop where
  | number (literal : RealLiteral) (valid : literal.Valid)
      (split : text = literal.print ++ rest) :
      Takes text rest (.number literal.value)
  | infinity (before word : List Char) (negative : Bool)
      (front : BeforeSpecial before) (named : IsInfinity word)
      (split : text = before ++ (word ++ rest)) :
      Takes text rest (.infinity negative)
  | nan (before word : List Char) (front : BeforeSpecial before)
      (named : IsNan word) (split : text = before ++ (word ++ rest)) :
      Takes text rest .nan

/-- Literals are taken as far as they go, and so are the names of special
numbers.  Nothing is said of a parenthesis that is not closed. -/
structure RealParser.Documented (double : RealParser) : Prop where
  takes : ∀ {text rest : List Char} {result : Double},
    double text = some (result, rest) → rest.head? ≠ some '(' →
      Takes text rest result
  number : ∀ {literal : RealLiteral} {rest : List Char}, literal.Valid →
    Separate rest → ¬ BeginsSpecial rest →
      double (literal.print ++ rest) = some (.number literal.value, rest)
  nan : ∀ {before word rest : List Char}, BeforeSpecial before →
    IsNan word → rest.head? ≠ some '(' →
      double (before ++ (word ++ rest)) = some (.nan, rest)

/-! ## A parser -/

def cutWord (word text : List Char) : Option (List Char) :=
  if (text.take word.length).map Char.toLower = word then
    some (text.drop word.length)
  else none

def cutNan (text : List Char) : Option (List Char) :=
  match cutWord "nan".toList text with
  | none => none
  | some ('(' :: rest) =>
      match rest.dropWhile (· != ')') with
      | [] => none
      | _ :: rest => some rest
  | some rest => some rest

def cutInfinity (text : List Char) : Option (List Char) :=
  (cutWord "inf".toList text).map fun rest =>
    (cutWord "inity".toList rest).getD rest

def cutSpecial (sign : Option Bool) : RealParser := fun text =>
  match cutNan text with
  | some rest => some (.nan, rest)
  | none =>
      (cutInfinity text).map fun rest => (.infinity (sign = some true), rest)

/-- What comes after a literal may still make it a special number. -/
def cutAfter (literal : RealLiteral) (rest : List Char) :
    Double × List Char :=
  let number := (.number literal.value, rest)
  if literal.IsOne then (cutSpecial literal.sign rest).getD number
  else number

def cutDouble : RealParser := fun text =>
  match cutSpecial (cutOptionalSign text).1 (cutOptionalSign text).2 with
  | some taken => some taken
  | none => (cutReal text).map fun (literal, rest) => cutAfter literal rest

theorem cutWord_eq_some {word text rest : List Char} :
    cutWord word text = some rest ↔ ∃ letters,
      letters.map Char.toLower = word ∧ text = letters ++ rest := by
  unfold cutWord
  constructor
  · intro cut
    obtain ⟨same, ⟨⟩⟩ := Option.ite_none_right_eq_some.mp cut
    exact ⟨_, same, (List.take_append_drop word.length text).symm⟩
  · rintro ⟨letters, rfl, rfl⟩
    simp

theorem toLower_digit {character : Char} (digit : character.isDigit = true) :
    character.toLower = character := by
  have outside : ¬ ('A'.val ≤ character.val ∧ character.val ≤ 'Z'.val) := by
    rw [Char.isDigit, Bool.and_eq_true, decide_eq_true_eq,
      decide_eq_true_eq] at digit
    rintro ⟨above, _⟩
    have below := digit.2
    rw [UInt32.le_iff_toNat_le] at above below
    simp at above below
    omega
  exact dif_neg outside

theorem cutNan_sound {text rest : List Char}
    (cut : cutNan text = some rest) :
    ∃ nan, IsNan nan ∧ text = nan ++ rest := by
  unfold cutNan at cut
  split at cut
  case h_1 => cases cut
  case h_2 after word =>
    obtain ⟨letters, same, rfl⟩ := cutWord_eq_some.mp word
    split at cut
    case h_1 => cases cut
    case h_2 closing after' found =>
      cases cut
      have whole : after.takeWhile (· != ')') ++
          after.dropWhile (· != ')') = after :=
        List.takeWhile_append_dropWhile
      have closes : closing = ')' := by
        have last : (closing != ')') = false := by
          apply not_of_head_dropWhile closing
          rw [found]
          rfl
        simpa using last
      rw [found, closes] at whole
      refine ⟨letters ++ '(' :: (after.takeWhile (· != ')') ++ [')']),
        ⟨letters, _, same, ?_, .inr rfl⟩, ?_⟩
      · intro inside
        simpa using of_mem_takeWhile _ inside
      · simp [whole]
  case h_3 after _ word =>
    cases cut
    obtain ⟨letters, same, rfl⟩ := cutWord_eq_some.mp word
    exact ⟨letters, ⟨letters, [], same, by simp, .inl rfl⟩, rfl⟩

theorem cutNan_print {nan rest : List Char} (isNan : IsNan nan)
    (unopened : rest.head? ≠ some '(') : cutNan (nan ++ rest) = some rest := by
  obtain ⟨letters, inside, same, closed, rfl | rfl⟩ := isNan
  · have word : cutWord "nan".toList (nan ++ rest) = some rest :=
      cutWord_eq_some.mpr ⟨_, same, rfl⟩
    rw [cutNan, word]
    split
    case h_1 other => cases other
    case h_2 other =>
      cases other
      exact absurd rfl unopened
    case h_3 other =>
      cases other
      rfl
  · have word : cutWord "nan".toList
        (letters ++ '(' :: (inside ++ [')']) ++ rest) =
          some ('(' :: (inside ++ ')' :: rest)) :=
      cutWord_eq_some.mpr ⟨letters, same, by simp⟩
    have open' : ∀ character ∈ inside, (character != ')') = true := by
      intro character member
      have different : character ≠ ')' := by
        rintro rfl
        exact closed member
      simpa using different
    have dropped : (inside ++ ')' :: rest).dropWhile (· != ')') =
        ')' :: rest := by
      apply (cut_append open' _).2
      rintro character ⟨⟩
      rfl
    rw [cutNan, word]
    simp only [dropped]

theorem cutInfinity_sound {text rest : List Char}
    (cut : cutInfinity text = some rest) :
    ∃ word, IsInfinity word ∧ text = word ++ rest := by
  obtain ⟨after, found, same⟩ := Option.map_eq_some_iff.mp cut
  obtain ⟨letters, short, rfl⟩ := cutWord_eq_some.mp found
  cases long : cutWord "inity".toList after with
  | none =>
      rw [long] at same
      cases same
      exact ⟨letters, .inl short, rfl⟩
  | some rest' =>
      rw [long] at same
      cases same
      obtain ⟨others, named, rfl⟩ := cutWord_eq_some.mp long
      refine ⟨letters ++ others, .inr ?_, (List.append_assoc _ _ _).symm⟩
      rw [List.map_append, short, named]

/-- A special number is taken behind what may stand before it. -/
theorem cutSpecial_takes {sign : Option Bool} {before text rest : List Char}
    {result : Double} (front : BeforeSpecial before)
    (cut : cutSpecial sign text = some (result, rest)) :
    RealParser.Takes (before ++ text) rest result := by
  unfold cutSpecial at cut
  split at cut
  · rename_i taken
    cases cut
    obtain ⟨word, named, rfl⟩ := cutNan_sound taken
    exact .nan before word front named rfl
  · obtain ⟨after, taken, ⟨⟩⟩ := Option.map_eq_some_iff.mp cut
    obtain ⟨word, named, rfl⟩ := cutInfinity_sound taken
    exact .infinity before word _ front named rfl

theorem cutSpecial_nan (sign : Option Bool) {word rest : List Char}
    (named : IsNan word) (unopened : rest.head? ≠ some '(') :
    cutSpecial sign (word ++ rest) = some (.nan, rest) := by
  simp only [cutSpecial, cutNan_print named unopened]

theorem cutSpecial_eq_none (sign : Option Bool) {text : List Char}
    (plain : ¬ BeginsSpecial text) : cutSpecial sign text = none := by
  obtain ⟨notNan, notInfinity⟩ := not_or.mp plain
  have noNan : cutWord "nan".toList text = none := if_neg notNan
  have noInfinity : cutWord "inf".toList text = none := if_neg notInfinity
  rw [cutSpecial, cutNan, noNan, cutInfinity, noInfinity]
  rfl

/-- What begins with a digit or a point does not begin with a name. -/
theorem not_beginsSpecial {character : Char} {text : List Char}
    (begins : character.isDigit = true ∨ character = '.') :
    ¬ BeginsSpecial (character :: text) := by
  have kept : character.toLower = character := by
    rcases begins with digit | rfl
    · exact toLower_digit digit
    · rfl
  rintro (named | named) <;>
  · obtain ⟨first, _⟩ := List.cons.inj named
    rw [kept] at first
    rw [first] at begins
    revert begins
    decide

theorem cutDouble_takes {text rest : List Char} {result : Double}
    (taken : cutDouble text = some (result, rest)) :
    RealParser.Takes text rest result := by
  have signed := cutOptionalSign_sound text
  unfold cutDouble at taken
  split at taken
  · rename_i special
    cases taken
    rw [signed]
    exact cutSpecial_takes (.inl ⟨_, rfl⟩) special
  · obtain ⟨⟨literal, after⟩, cut, same⟩ := Option.map_eq_some_iff.mp taken
    obtain ⟨valid, rfl⟩ := cutReal_sound cut
    simp only [cutAfter] at same
    split at same
    · rename_i one
      cases special : cutSpecial literal.sign after with
      | none =>
          rw [special] at same
          cases same
          exact .number literal valid rfl
      | some taken =>
          rw [special] at same
          cases same
          exact cutSpecial_takes (.inr ⟨literal, valid, one, rfl⟩) special
    · cases same
      exact .number literal valid rfl

theorem cutDouble_print {literal : RealLiteral} {rest : List Char}
    (valid : literal.Valid) (separate : Separate rest) :
    cutDouble (literal.print ++ rest) = some (cutAfter literal rest) := by
  obtain ⟨character, text, starts, begins⟩ := valid.head
  have plain : cutSpecial literal.sign (literal.printUnsigned ++ rest) =
      none := by
    rw [starts, List.cons_append]
    exact cutSpecial_eq_none _ (not_beginsSpecial begins)
  simp only [cutDouble, cutOptionalSign_literal valid, plain,
    cutReal_print valid separate, Option.map_some]

theorem IsNan.head {word : List Char} (named : IsNan word) :
    ∃ letter others, word = letter :: others ∧ letter.toLower = 'n' := by
  obtain ⟨letters, inside, same, _, whole⟩ := named
  cases letters with
  | nil => cases same
  | cons letter letters =>
      have lower : letter.toLower = 'n' := (List.cons.inj same).1
      rcases whole with rfl | rfl
      · exact ⟨letter, letters, rfl, lower⟩
      · exact ⟨letter, _, rfl, lower⟩

/-- The letter does not go on with a literal, and is no sign. -/
theorem separate_of_toLower {letter : Char} (lower : letter.toLower = 'n')
    (text : List Char) :
    Separate (letter :: text) ∧ letter ≠ '-' ∧ letter ≠ '+' := by
  have apart : ∀ other : Char, other.toLower ≠ 'n' → letter ≠ other := by
    rintro other different rfl
    exact different lower
  refine ⟨⟨?_, ?_, ?_⟩, apart '-' (by decide), apart '+' (by decide)⟩
  · rintro character ⟨⟩
    by_contra digit
    rw [Bool.not_eq_false] at digit
    rw [toLower_digit digit] at lower
    rw [lower] at digit
    cases digit
  · rintro ⟨⟩
    exact apart '.' (by decide) rfl
  · have unmarked : ¬ (letter = 'e' ∨ letter = 'E') := by
      rintro (marker | marker)
      · exact apart 'e' (by decide) marker
      · exact apart 'E' (by decide) marker
    rw [cutExponent, if_neg unmarked]

theorem cutDouble_nan {before word rest : List Char}
    (front : BeforeSpecial before) (named : IsNan word)
    (unopened : rest.head? ≠ some '(') :
    cutDouble (before ++ (word ++ rest)) = some (.nan, rest) := by
  obtain ⟨letter, others, starts, lower⟩ := named.head
  have special := fun sign => cutSpecial_nan sign named unopened
  obtain ⟨separate, unsigned⟩ := separate_of_toLower lower (others ++ rest)
  have same : word ++ rest = letter :: (others ++ rest) := by
    rw [starts, List.cons_append]
  rcases front with ⟨sign, rfl⟩ | ⟨literal, valid, one, rfl⟩
  · have signed : cutOptionalSign (printSign sign ++ (word ++ rest)) =
        (sign, word ++ rest) := by
      apply cutOptionalSign_print
      rw [same]
      rintro character ⟨⟩
      exact unsigned
    simp only [cutDouble, signed, special]
  · rw [← same] at separate
    rw [cutDouble_print valid separate]
    simp only [cutAfter, if_pos one, special, Option.getD_some]

theorem cutDouble_documented : RealParser.Documented cutDouble where
  takes taken _ := cutDouble_takes taken
  number valid separate plain := by
    rw [cutDouble_print valid separate]
    simp only [cutAfter, cutSpecial_eq_none _ plain, Option.getD_none,
      ite_self]
  nan := cutDouble_nan

end Bacs.Foundation
