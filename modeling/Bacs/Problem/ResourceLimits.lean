import Bacs.Problem.ResourceGrammar

/-!
# Resource limits and their grammar

A limit is parsed as a literal of any form and a multiple of the tables.  The
result is the documented one except for literals that are not in fixed point,
and for multiples of memory that are not binary.
-/

namespace Bacs.Problem.Resource

open Foundation

variable {tables : List (List (String × ℚ))} {unit : Char}

/-! ## Multiples -/

theorem findSymbol_sound {table : List (String × ℚ)} {text rest : List Char}
    {factor : ℚ} (found : findSymbol table text = some (factor, rest)) :
    ∃ name, (name, factor) ∈ table ∧ text = name.toList ++ rest := by
  obtain ⟨⟨name, _⟩, longest, ⟨⟩⟩ := Option.map_eq_some_iff.mp found
  obtain ⟨member, starts⟩ := List.mem_filter.mp (List.argmax_mem longest)
  obtain ⟨after, same⟩ := List.isPrefixOf_iff_prefix.mp starts
  refine ⟨name, member, ?_⟩
  rw [← same, ← String.length_toList, List.drop_left]

theorem multiple_sound {text rest : List Char} {factor : ℚ}
    (found : multiple tables unit text = some (factor, rest)) :
    ∃ name, (name, factor) ∈ ("", 1) :: tables.flatten ∧
      text = name.toList ++ unit :: rest := by
  unfold multiple at found
  split at found
  case h_1 factor' character rest' chosen =>
    obtain ⟨rfl, ⟨⟩⟩ := Option.ite_none_right_eq_some.mp found
    cases symbol : tables.findSome? fun table => findSymbol table text with
    | none =>
        rw [symbol] at chosen
        cases chosen
        exact ⟨"", by simp, rfl⟩
    | some result =>
        rw [symbol] at chosen
        cases chosen
        obtain ⟨table, inside, named⟩ := List.exists_of_findSome?_eq_some symbol
        obtain ⟨name, member, same⟩ := findSymbol_sound named
        exact ⟨name, List.mem_cons_of_mem _
          (List.mem_flatten.mpr ⟨table, inside, member⟩), same⟩
  case h_2 => cases found

/-- Every multiple of the tables is found before the unit. -/
def Distinct (tables : List (List (String × ℚ))) (unit : Char) : Prop :=
  ∀ entry ∈ ("", 1) :: tables.flatten,
    multiple tables unit (entry.1.toList ++ [unit]) = some (entry.2, [])

/-- What follows a number is a multiple and unit as a whole. -/
theorem multipleUnit_iff (distinct : Distinct tables unit)
    {text : List Char} {factor : ℚ} :
    multipleUnit tables unit text = (factor, []) ↔
      IsMultipleUnit tables.flatten unit text factor := by
  unfold multipleUnit
  constructor
  · intro found
    cases taken : multiple tables unit text with
    | none =>
        rw [taken] at found
        cases found
        exact .inl ⟨rfl, rfl⟩
    | some result =>
        rw [taken] at found
        cases found
        exact .inr (multiple_sound taken)
  · rintro (⟨rfl, rfl⟩ | ⟨name, member, rfl⟩)
    · cases taken : multiple tables unit [] with
      | none => rfl
      | some result =>
          obtain ⟨name, _, same⟩ := multiple_sound taken
          have longer := congrArg List.length same
          simp at longer
    · rw [distinct (name, factor) member]
      rfl

/-- A multiple and unit does not go on with the number before it. -/
def Apart (table : List (String × ℚ)) (unit : Char) : Prop :=
  ∀ entry ∈ ("", 1) :: table, Separate (entry.1.toList ++ [unit]) ∧
    ¬ BeginsSpecial (entry.1.toList ++ [unit]) ∧
      (entry.1.toList ++ [unit]).head? ≠ some '('

theorem IsMultipleUnit.separate {table : List (String × ℚ)}
    (apart : Apart table unit) {text : List Char} {factor : ℚ}
    (suffix : IsMultipleUnit table unit text factor) :
    Separate text ∧ ¬ BeginsSpecial text ∧ text.head? ≠ some '(' := by
  obtain ⟨rfl, _⟩ | ⟨name, member, rfl⟩ := suffix
  · exact ⟨⟨nofun, nofun, rfl⟩, by decide, nofun⟩
  · exact apart _ member

instance : Decidable (Distinct tables unit) :=
  inferInstanceAs (Decidable (∀ entry ∈ _, _))

instance (table : List (String × ℚ)) : Decidable (Apart table unit) :=
  inferInstanceAs (Decidable (∀ entry ∈ _, _))

theorem time_distinct : Distinct [siMultiple, siSubmultiple] 's' := by
  decide +kernel

theorem memory_distinct : Distinct [binaryMultiple] 'B' := by
  decide +kernel

theorem time_apart : Apart (siMultiple ++ siSubmultiple) 's' := by
  decide +kernel

theorem memory_apart : Apart (siMultiple ++ binaryMultiple) 'B' := by
  decide +kernel

theorem si_not_binary : ∀ entry ∈ siMultiple, ∀ other ∈ binaryMultiple,
    entry.1 ≠ other.1 := by
  decide

/-! ## Results -/

theorem castRounded_number {value : ℚ} {result : Nat} :
    castRounded (.number value) = .returns result ↔
      Nearest value result ∧ result < 2 ^ 64 := by
  rw [nearest_iff, castRounded]
  split
  case isTrue negative =>
    constructor
    · nofun
    · rintro ⟨same, _⟩
      omega
  case isFalse nonneg =>
    split
    case isTrue large =>
      constructor
      · nofun
      · rintro ⟨same, _⟩
        omega
    case isFalse =>
      rw [Outcome.returns.injEq]
      constructor
      · intro same
        omega
      · rintro ⟨same, _⟩
        omega

theorem castRounded_infinity (negative : Bool) :
    ∃ error, castRounded (.infinity negative) = .throws error := by
  cases negative
  · exact ⟨_, rfl⟩
  · exact ⟨_, rfl⟩

theorem castRounded_ne_undefined (value : ℚ) :
    castRounded (.number value) ≠ .undefined := by
  rw [castRounded]
  split
  · nofun
  · split <;> nofun

section Parsing

variable {double : RealParser}

theorem start_iff (distinct : Distinct tables unit) {text : List Char}
    {result : Double} :
    start double tables unit text = some (result, []) ↔
      ∃ number rest factor, double text = some (number, rest) ∧
        IsMultipleUnit tables.flatten unit rest factor ∧
        result = number.scale factor := by
  constructor
  · intro parsed
    obtain ⟨⟨number, rest⟩, taken, same⟩ := Option.map_eq_some_iff.mp parsed
    obtain ⟨rfl, left⟩ := Prod.mk.inj same
    refine ⟨number, rest, _, taken, (multipleUnit_iff distinct).mp ?_, rfl⟩
    exact Prod.ext rfl left
  · rintro ⟨number, rest, factor, taken, suffix, rfl⟩
    have cut := (multipleUnit_iff distinct).mpr suffix
    simp only [start, taken, Option.map_some, cut]

def limit (double : RealParser) (tables : List (List (String × ℚ)))
    (unit : Char) (parts : ℚ) (error : Nat → ResourceError)
    (text : List Char) : Outcome :=
  whole text (start double tables unit text) error fun result =>
    castRounded (result.scale parts)

variable {parts : ℚ} {error : Nat → ResourceError} {text : List Char}

/-- A limit fails, or it is the value of what has been parsed as a whole. -/
theorem limit_cases (distinct : Distinct tables unit) (parts : ℚ)
    (error : Nat → ResourceError) (text : List Char) :
    (∃ failure, limit double tables unit parts error text = .throws failure) ∨
      ∃ number rest factor, double text = some (number, rest) ∧
        IsMultipleUnit tables.flatten unit rest factor ∧
        limit double tables unit parts error text =
          castRounded ((number.scale factor).scale parts) := by
  cases parsed : start double tables unit text with
  | none =>
      refine .inl ⟨error 0, ?_⟩
      rw [limit, parsed]
      rfl
  | some found =>
      obtain ⟨result, rest⟩ := found
      cases rest with
      | cons character rest =>
          refine .inl ⟨error (text.length - (character :: rest).length), ?_⟩
          rw [limit, parsed]
          rfl
      | nil =>
          obtain ⟨number, rest, factor, taken, suffix, rfl⟩ :=
            (start_iff distinct).mp parsed
          refine .inr ⟨number, rest, factor, taken, suffix, ?_⟩
          rw [limit, parsed]
          rfl

theorem limit_of_double (distinct : Distinct tables unit) {number : Double}
    {rest : List Char} {factor : ℚ}
    (taken : double text = some (number, rest))
    (suffix : IsMultipleUnit tables.flatten unit rest factor) :
    limit double tables unit parts error text =
      castRounded ((number.scale factor).scale parts) := by
  have parsed := (start_iff distinct).mpr
    ⟨number, rest, factor, taken, suffix, rfl⟩
  rw [limit, parsed]
  rfl

theorem limit_returns_iff (documented : double.Documented)
    (distinct : Distinct tables unit)
    (apart : Apart tables.flatten unit) {result : Nat} :
    limit double tables unit parts error text = .returns result ↔
      IsWritten (fun _ => True) (IsMultipleUnit tables.flatten unit) parts
        text result := by
  constructor
  · intro returned
    obtain ⟨failure, fails⟩ | ⟨number, rest, factor, taken, suffix, same⟩ :=
      limit_cases distinct parts error text
    · rw [fails] at returned
      cases returned
    · rw [same] at returned
      cases documented.takes taken (suffix.separate apart).2.2 with
      | number literal valid split =>
          obtain ⟨near, fits⟩ := castRounded_number.mp returned
          exact ⟨literal, rest, factor, valid, trivial, split, suffix, near,
            fits⟩
      | infinity _ _ negative =>
          obtain ⟨failure, fails⟩ := castRounded_infinity negative
          cases fails.symm.trans returned
      | nan => cases returned
  · rintro ⟨literal, suffix, factor, valid, _, rfl, suffixed, near, fits⟩
    obtain ⟨separate, plain, _⟩ := suffixed.separate apart
    have taken := documented.number valid separate plain
    rw [limit_of_double distinct taken suffixed]
    exact castRounded_number.mpr ⟨near, fits⟩

theorem limit_undefined_iff (documented : double.Documented)
    (distinct : Distinct tables unit)
    (apart : Apart tables.flatten unit) :
    limit double tables unit parts error text = .undefined ↔
      IsUndefined (IsMultipleUnit tables.flatten unit) text := by
  constructor
  · intro undefined
    obtain ⟨failure, fails⟩ | ⟨number, rest, factor, taken, suffix, same⟩ :=
      limit_cases distinct parts error text
    · rw [fails] at undefined
      cases undefined
    · rw [same] at undefined
      cases documented.takes taken (suffix.separate apart).2.2 with
      | number => exact absurd undefined (castRounded_ne_undefined _)
      | infinity _ _ negative =>
          obtain ⟨failure, fails⟩ := castRounded_infinity negative
          cases fails.symm.trans undefined
      | nan before nan front isNan split =>
          exact ⟨before, nan, rest, factor, front, isNan, split, suffix⟩
  · rintro ⟨before, nan, suffix, factor, front, isNan, rfl, suffixed⟩
    have taken := documented.nan front isNan (suffixed.separate apart).2.2
    rw [limit_of_double distinct taken suffixed]
    rfl

/-! ## What is documented -/

theorem isLimit_iff {suffixed : List Char → ℚ → Prop} {parts : ℚ}
    {text : List Char} {result : Nat} :
    IsLimit suffixed parts text result ↔
      IsWritten FixedPoint suffixed parts text result := by
  constructor
  · rintro ⟨decimal, suffix, value, factor, rfl, isDecimal, rest⟩
    obtain ⟨literal, valid, fixed, rfl, rfl⟩ := isDecimal_iff.mp isDecimal
    exact ⟨literal, suffix, factor, valid, fixed, rfl, rest⟩
  · rintro ⟨literal, suffix, factor, valid, fixed, rfl, rest⟩
    exact ⟨literal.print, suffix, literal.value, factor, rfl,
      isDecimal_iff.mpr ⟨literal, valid, fixed, rfl, rfl⟩, rest⟩

theorem print_unique {literal other : RealLiteral}
    {suffix otherSuffix : List Char} (valid : literal.Valid)
    (otherValid : other.Valid) (separate : Separate suffix)
    (otherSeparate : Separate otherSuffix)
    (same : literal.print ++ suffix = other.print ++ otherSuffix) :
    literal = other ∧ suffix = otherSuffix := by
  have cut := cutReal_print valid separate
  rw [same, cutReal_print otherValid otherSeparate] at cut
  obtain ⟨same, rest⟩ := Prod.mk.inj (Option.some.inj cut)
  exact ⟨same.symm, rest.symm⟩

/-- A limit is as documented, with some multiples that are not in the tables,
unless it is a literal of another form or has one of these multiples. -/
theorem limit_meets_iff (spirit : double.Documented)
    (distinct : Distinct tables unit)
    (apart : Apart tables.flatten unit)
    (documented missing : List Char → ℚ → Prop)
    (either : ∀ suffix factor, documented suffix factor ↔
      IsMultipleUnit tables.flatten unit suffix factor ∨
        missing suffix factor)
    (separate : ∀ suffix factor, missing suffix factor → Separate suffix)
    (absent : ∀ suffix factor, missing suffix factor →
      ∀ other, ¬ IsMultipleUnit tables.flatten unit suffix other)
    (parts : ℚ) (error : Nat → ResourceError) (text : List Char) :
    (limit double tables unit parts error text).Meets
        (IsLimit documented parts text) ↔
      (∀ result, ¬ IsWritten (¬ FixedPoint ·)
        (IsMultipleUnit tables.flatten unit) parts text result) ∧
      ¬ IsUndefined (IsMultipleUnit tables.flatten unit) text ∧
      ∀ result, ¬ IsWritten FixedPoint missing parts text result := by
  unfold Outcome.Meets
  simp only [limit_returns_iff spirit distinct apart, isLimit_iff]
  constructor
  · rintro ⟨same, ends⟩
    refine ⟨?_, ?_, ?_⟩
    · rintro result ⟨literal, suffix, factor, valid, other, split, suffixed,
        value⟩
      obtain ⟨fixed, suffix', factor', valid', isFixed, split', suffixed', _⟩ :=
        (same result).mp
          ⟨literal, suffix, factor, valid, trivial, split, suffixed, value⟩
      have separate' : Separate suffix' := by
        rcases (either suffix' factor').mp suffixed' with known | new
        · exact (known.separate apart).1
        · exact separate suffix' factor' new
      obtain ⟨rfl, _⟩ := print_unique valid valid'
        (suffixed.separate apart).1 separate' (split.symm.trans split')
      exact other isFixed
    · intro undefined
      have ends' : limit double tables unit parts error text = .undefined :=
        (limit_undefined_iff spirit distinct apart).mpr undefined
      rcases ends with ⟨result, written⟩ | ⟨failure, fails⟩
      · cases ends'.symm.trans
          ((limit_returns_iff spirit distinct apart).mpr written)
      · cases ends'.symm.trans fails
    · rintro result ⟨literal, suffix, factor, valid, fixed, split, new, value⟩
      obtain ⟨other, suffix', factor', valid', _, split', suffixed', _⟩ :=
        (same result).mpr ⟨literal, suffix, factor, valid, fixed, split,
          (either suffix factor).mpr (.inr new), value⟩
      obtain ⟨_, rfl⟩ := print_unique valid valid'
        (separate suffix factor new) (suffixed'.separate apart).1
        (split.symm.trans split')
      exact absent suffix factor new factor' suffixed'
  · rintro ⟨onlyFixed, defined, onlyKnown⟩
    refine ⟨fun result => ⟨?_, ?_⟩, ?_⟩
    · rintro ⟨literal, suffix, factor, valid, _, split, suffixed, value⟩
      refine ⟨literal, suffix, factor, valid, ?_, split,
        (either suffix factor).mpr (.inl suffixed), value⟩
      by_contra other
      exact onlyFixed result
        ⟨literal, suffix, factor, valid, other, split, suffixed, value⟩
    · rintro ⟨literal, suffix, factor, valid, fixed, split, suffixed, value⟩
      rcases (either suffix factor).mp suffixed with known | new
      · exact ⟨literal, suffix, factor, valid, trivial, split, known, value⟩
      · exact absurd
          ⟨literal, suffix, factor, valid, fixed, split, new, value⟩
          (onlyKnown result)
    · cases ends : limit double tables unit parts error text with
      | returns result =>
          exact .inl ⟨result, (limit_returns_iff spirit distinct apart).mp ends⟩
      | throws failure => exact .inr ⟨failure, rfl⟩
      | undefined =>
          exact absurd ((limit_undefined_iff spirit distinct apart).mp ends) defined

/-! ## The two limits -/

theorem isMultipleUnit_append {first second : List (String × ℚ)}
    {suffix : List Char} {factor : ℚ} :
    IsMultipleUnit (first ++ second) unit suffix factor ↔
      IsMultipleUnit second unit suffix factor ∨
        IsMultiple first unit suffix factor := by
  simp only [IsMultipleUnit, IsMultiple, List.mem_cons, List.mem_append,
    or_and_right, exists_or, or_assoc]
  exact or_congr_right (or_congr_right or_comm)

theorem si_separate (suffix : List Char) (factor : ℚ)
    (multiple : IsMultiple siMultiple 'B' suffix factor) :
    Separate suffix := by
  have unit : IsMultipleUnit (siMultiple ++ binaryMultiple) 'B' suffix
      factor := isMultipleUnit_append.mpr (.inr multiple)
  exact (unit.separate memory_apart).1

theorem si_absent (suffix : List Char) (factor : ℚ)
    (multiple : IsMultiple siMultiple 'B' suffix factor) (other : ℚ) :
    ¬ IsMultipleUnit binaryMultiple 'B' suffix other := by
  obtain ⟨name, member, rfl⟩ := multiple
  rintro (⟨empty, _⟩ | ⟨name', member', same⟩)
  · simp at empty
  · obtain rfl := String.toList_injective (List.append_cancel_right same)
    rcases List.mem_cons.mp member' with unnamed | binary
    · obtain ⟨rfl, _⟩ := Prod.mk.inj unnamed
      revert member
      simp [siMultiple]
    · exact si_not_binary _ member _ binary rfl

theorem memoryBytes_eq_limit (memory : String) :
    memoryBytes double memory =
      limit double [binaryMultiple] 'B' 1 (.memoryError memory) memory.toList := by
  have scaled : (fun result => castRounded (result.scale 1)) =
      castRounded := by
    funext result
    cases result <;> simp [Double.scale]
  rw [limit, scaled]
  rfl

theorem timeMillis_meets_iff (spirit : double.Documented) (time : String) :
    (timeMillis double time).Meets (IsTime time.toList) ↔
      (∀ result, ¬ IsWritten (¬ FixedPoint ·)
        (IsMultipleUnit (siMultiple ++ siSubmultiple) 's') 1000
          time.toList result) ∧
      ¬ IsUndefined (IsMultipleUnit (siMultiple ++ siSubmultiple) 's')
        time.toList := by
  have flat : [siMultiple, siSubmultiple].flatten =
      siMultiple ++ siSubmultiple := by simp
  have apart : Apart [siMultiple, siSubmultiple].flatten 's' := by
    rw [flat]
    exact time_apart
  have meets := limit_meets_iff spirit time_distinct apart
    (IsMultipleUnit (siMultiple ++ siSubmultiple) 's') (fun _ _ => False)
    (by rw [flat]; exact fun _ _ => (iff_of_eq (or_false _)).symm)
    nofun nofun 1000
    (.timeError time) time.toList
  rw [flat] at meets
  refine meets.trans (and_congr_right fun _ => and_iff_left ?_)
  rintro result ⟨_, _, _, _, _, _, new, _⟩
  exact new

theorem memoryBytes_meets_iff (spirit : double.Documented)
    (memory : String) :
    (memoryBytes double memory).Meets (IsMemory memory.toList) ↔
      (∀ result, ¬ IsWritten (¬ FixedPoint ·)
        (IsMultipleUnit binaryMultiple 'B') 1 memory.toList result) ∧
      ¬ IsUndefined (IsMultipleUnit binaryMultiple 'B') memory.toList ∧
      ∀ result, ¬ IsWritten FixedPoint (IsMultiple siMultiple 'B') 1
        memory.toList result := by
  have flat : [binaryMultiple].flatten = binaryMultiple := by simp
  have apart : Apart [binaryMultiple].flatten 'B' := by
    rw [flat]
    intro entry member
    refine memory_apart entry ?_
    rw [List.mem_cons] at member ⊢
    exact member.imp_right (List.mem_append_right _)
  have meets := limit_meets_iff spirit memory_distinct apart
    (IsMultipleUnit (siMultiple ++ binaryMultiple) 'B')
    (IsMultiple siMultiple 'B')
    (by rw [flat]; exact fun _ _ => isMultipleUnit_append) si_separate
    (by rw [flat]; exact si_absent) 1 (.memoryError memory) memory.toList
  rw [flat] at meets
  rw [memoryBytes_eq_limit]
  exact meets

/-- A limit is parsed as documented exactly if it is no literal with a sign,
with an exponent or without digits on one side of its point that can be
returned, if it is no NaN, and for memory if it has no SI multiple with a value
that can be returned. -/
theorem limits_documented_iff (spirit : double.Documented) (text : String) :
    ((timeMillis double text).Meets (IsTime text.toList) ↔
      (∀ result, ¬ IsWritten (¬ FixedPoint ·)
        (IsMultipleUnit (siMultiple ++ siSubmultiple) 's') 1000
          text.toList result) ∧
      ¬ IsUndefined (IsMultipleUnit (siMultiple ++ siSubmultiple) 's')
        text.toList) ∧
    ((memoryBytes double text).Meets (IsMemory text.toList) ↔
      (∀ result, ¬ IsWritten (¬ FixedPoint ·)
        (IsMultipleUnit binaryMultiple 'B') 1 text.toList result) ∧
      ¬ IsUndefined (IsMultipleUnit binaryMultiple 'B') text.toList ∧
      ∀ result, ¬ IsWritten FixedPoint (IsMultiple siMultiple 'B') 1
        text.toList result) :=
  ⟨timeMillis_meets_iff spirit text, memoryBytes_meets_iff spirit text⟩

/-- The name of a NaN is also found after a one. -/
theorem limits_documented_nan :
    ¬ (timeMillis cutDouble "1nan").Meets (IsTime "1nan".toList) := by
  rw [(limits_documented_iff cutDouble_documented "1nan").1]
  rintro ⟨_, defined⟩
  apply defined
  refine ⟨['1'], ['n', 'a', 'n'], [], 1, .inr ⟨⟨none, ['1'], none, none⟩,
    ⟨by decide, List.all_eq_true.mp rfl, List.all_eq_true.mp rfl, nofun⟩,
    ⟨rfl, rfl, rfl⟩, rfl⟩, ?_, rfl, .inl ⟨rfl, rfl⟩⟩
  exact ⟨['n', 'a', 'n'], [], rfl, by decide, .inl rfl⟩

end Parsing

/-- A time with an exponent is accepted, and a memory limit in kilobytes is
not. -/
theorem not_documented :
    ¬ (timeMillis cutDouble "1e3").Meets (IsTime "1e3".toList) ∧
      ¬ (memoryBytes cutDouble "1kB").Meets (IsMemory "1kB".toList) := by
  constructor
  · rw [timeMillis_meets_iff cutDouble_documented]
    rintro ⟨onlyFixed, _⟩
    refine onlyFixed 1000000
      ⟨⟨none, ['1'], none, some ⟨'e', none, ['3']⟩⟩, [], 1,
        ⟨by decide, List.all_eq_true.mp rfl, List.all_eq_true.mp rfl, ?_⟩,
        ?_, rfl, .inl ⟨rfl, rfl⟩, ?_,
        by decide⟩
    · rintro exponent ⟨⟩
      exact ⟨by decide, by decide, List.all_eq_true.mp rfl, by decide⟩
    · exact fun fixed => nomatch fixed.exponent
    · rw [nearest_iff]
      decide +kernel
  · rw [memoryBytes_meets_iff cutDouble_documented]
    rintro ⟨_, _, onlyKnown⟩
    refine onlyKnown 1000 ⟨⟨none, ['1'], none, none⟩, ['k', 'B'], 10 ^ 3,
      ⟨by decide, List.all_eq_true.mp rfl, List.all_eq_true.mp rfl, nofun⟩,
      ⟨rfl, by decide, by decide, rfl⟩, rfl,
      ⟨"k", by simp [siMultiple], rfl⟩, ?_, by decide⟩
    rw [nearest_iff]
    decide +kernel

end Bacs.Problem.Resource
