import Mathlib.Algebra.Group.Nat.Defs
import Mathlib.Data.List.Basic

/-!
# Base64

The standard encoding with padding.  The decoder ignores line breaks, and it
does not ask the bits that the padding drops to be zero.
-/

namespace Bacs.Foundation.Base64

/-- The character of six bits. -/
def character (bits : Nat) : UInt8 :=
  if bits < 26 then .ofNat (bits + 65)
  else if bits < 52 then .ofNat (bits + 71)
  else if bits < 62 then .ofNat (bits - 4)
  else if bits = 62 then 43
  else 47

/-- The six bits of a character of the alphabet. -/
def value (character : UInt8) : Option Nat :=
  if 65 ≤ character ∧ character ≤ 90 then some (character.toNat - 65)
  else if 97 ≤ character ∧ character ≤ 122 then some (character.toNat - 71)
  else if 48 ≤ character ∧ character ≤ 57 then some (character.toNat + 4)
  else if character = 43 then some 62
  else if character = 47 then some 63
  else none

def padding : UInt8 := 61

def isLineBreak (character : UInt8) : Bool :=
  character = 10 ∨ character = 13

def sextet (bits shift : Nat) : UInt8 :=
  character (bits / 2 ^ shift % 64)

def encode : List UInt8 → List UInt8
  | [] => []
  | [first] =>
      let bits := first.toNat * 2 ^ 16
      [sextet bits 18, sextet bits 12, padding, padding]
  | [first, second] =>
      let bits := first.toNat * 2 ^ 16 + second.toNat * 2 ^ 8
      [sextet bits 18, sextet bits 12, sextet bits 6, padding]
  | first :: second :: third :: rest =>
      let bits :=
        first.toNat * 2 ^ 16 + second.toNat * 2 ^ 8 + third.toNat
      sextet bits 18 :: sextet bits 12 :: sextet bits 6 :: sextet bits 0 ::
        encode rest

def octet (bits shift : Nat) : UInt8 :=
  .ofNat (bits / 2 ^ shift % 256)

/-- The bytes of four characters, of which the last two may be padding. -/
def decodeQuantum (first second third fourth : UInt8) :
    Option (List UInt8) := do
  let high := (← value first) * 2 ^ 18 + (← value second) * 2 ^ 12
  if third = padding ∧ fourth = padding then
    some [octet high 16]
  else
    let middle := high + (← value third) * 2 ^ 6
    if fourth = padding then
      some [octet middle 16, octet middle 8]
    else
      let bits := middle + (← value fourth)
      some [octet bits 16, octet bits 8, octet bits 0]

/-- Padding is accepted in the last four characters only. -/
def decodeQuanta : List UInt8 → Option (List UInt8)
  | [] => some []
  | [first, second, third, fourth] =>
      decodeQuantum first second third fourth
  | first :: second :: third :: fourth :: rest =>
      if third = padding ∨ fourth = padding then none
      else do
        let bytes ← decodeQuantum first second third fourth
        let more ← decodeQuanta rest
        some (bytes ++ more)
  | _ => none

/-- `none` if the characters are not base64. -/
def decode (characters : List UInt8) : Option (List UInt8) :=
  decodeQuanta (characters.filter (!isLineBreak ·))

/-! ## Decoding what was encoded -/

theorem value_character : ∀ bits < 64, value (character bits) = some bits := by
  decide

theorem value_padding : value padding = none :=
  rfl

theorem padding_not_lineBreak : isLineBreak padding = false :=
  rfl

theorem value_lineBreak {character : UInt8}
    (lineBreak : isLineBreak character = true) : value character = none := by
  simp only [isLineBreak, decide_eq_true_eq] at lineBreak
  obtain same | same := lineBreak <;> subst same <;> rfl

theorem value_sextet (bits shift : Nat) :
    value (sextet bits shift) = some (bits / 2 ^ shift % 64) :=
  value_character _ (Nat.mod_lt _ (by decide))

theorem sextet_ne_padding (bits shift : Nat) :
    sextet bits shift ≠ padding := by
  intro same
  have found := value_sextet bits shift
  rw [same, value_padding] at found
  cases found

theorem sextet_not_lineBreak (bits shift : Nat) :
    isLineBreak (sextet bits shift) = false := by
  cases lineBreak : isLineBreak (sextet bits shift) with
  | false => rfl
  | true =>
      have found := value_sextet bits shift
      rw [value_lineBreak lineBreak] at found
      cases found

theorem octet_eq {bits shift : Nat} {byte : UInt8}
    (same : bits / 2 ^ shift % 256 = byte.toNat) :
    octet bits shift = byte := by
  rw [octet, same]
  exact UInt8.ofNat_toNat

theorem decodeQuantum_one (first : UInt8) :
    decodeQuantum (sextet (first.toNat * 2 ^ 16) 18)
      (sextet (first.toNat * 2 ^ 16) 12) padding padding =
        some [first] := by
  have bound := first.toNat_lt
  simp only [decodeQuantum, value_sextet, Option.bind_eq_bind,
    Option.bind_some, and_self, if_true]
  simp only [Option.some.injEq, List.cons.injEq, and_true]
  exact octet_eq (by omega)

theorem decodeQuantum_two (first second : UInt8) :
    let bits := first.toNat * 2 ^ 16 + second.toNat * 2 ^ 8
    decodeQuantum (sextet bits 18) (sextet bits 12) (sextet bits 6) padding =
      some [first, second] := by
  have first_bound := first.toNat_lt
  have second_bound := second.toNat_lt
  intro bits
  simp only [decodeQuantum, value_sextet, Option.bind_eq_bind,
    Option.bind_some, sextet_ne_padding, false_and, if_false, if_true]
  simp only [Option.some.injEq, List.cons.injEq, and_true]
  constructor
  · exact octet_eq (by omega)
  · exact octet_eq (by omega)

theorem decodeQuantum_three (first second third : UInt8) :
    let bits :=
      first.toNat * 2 ^ 16 + second.toNat * 2 ^ 8 + third.toNat
    decodeQuantum (sextet bits 18) (sextet bits 12) (sextet bits 6)
      (sextet bits 0) = some [first, second, third] := by
  have first_bound := first.toNat_lt
  have second_bound := second.toNat_lt
  have third_bound := third.toNat_lt
  intro bits
  simp only [decodeQuantum, value_sextet, Option.bind_eq_bind,
    Option.bind_some, sextet_ne_padding, false_and, if_false]
  simp only [Option.some.injEq, List.cons.injEq, and_true]
  refine ⟨?_, ?_, ?_⟩
  · exact octet_eq (by omega)
  · exact octet_eq (by omega)
  · exact octet_eq (by omega)

theorem decodeQuanta_cons {first second third fourth : UInt8}
    {rest bytes more : List UInt8}
    (quantum : decodeQuantum first second third fourth = some bytes)
    (unpadded : third ≠ padding ∧ fourth ≠ padding)
    (decoded : decodeQuanta rest = some more) :
    decodeQuanta (first :: second :: third :: fourth :: rest) =
      some (bytes ++ more) := by
  cases rest with
  | nil =>
      cases decoded
      simp [decodeQuanta, quantum]
  | cons next rest => simp [decodeQuanta, quantum, unpadded, decoded]

theorem decodeQuanta_encode (bytes : List UInt8) :
    decodeQuanta (encode bytes) = some bytes := by
  fun_induction encode bytes with
  | case1 => rfl
  | case2 first bits => exact decodeQuantum_one first
  | case3 first second bits => exact decodeQuantum_two first second
  | case4 first second third rest bits decoded =>
      apply decodeQuanta_cons (decodeQuantum_three first second third) _
        decoded
      exact ⟨sextet_ne_padding _ _, sextet_ne_padding _ _⟩

theorem encode_not_lineBreak (bytes : List UInt8) :
    ∀ character ∈ encode bytes, isLineBreak character = false := by
  fun_induction encode bytes with
  | case1 => simp
  | case2 first bits => simp [sextet_not_lineBreak, padding_not_lineBreak]
  | case3 first second bits =>
      simp [sextet_not_lineBreak, padding_not_lineBreak]
  | case4 first second third rest bits others =>
      simpa [sextet_not_lineBreak] using others

theorem decode_encode (bytes : List UInt8) :
    decode (encode bytes) = some bytes := by
  have kept : (encode bytes).filter (!isLineBreak ·) = encode bytes := by
    apply List.filter_eq_self.mpr
    intro character member
    simp [encode_not_lineBreak bytes character member]
  rw [decode, kept]
  exact decodeQuanta_encode bytes

/-! ## What is decoded -/

theorem decode_append_lineBreak (characters : List UInt8)
    {character : UInt8} (lineBreak : isLineBreak character = true) :
    decode (characters ++ [character]) = decode characters := by
  simp [decode, lineBreak]

theorem decodeQuantum_alphabet {first second third fourth : UInt8}
    {bytes : List UInt8}
    (decoded : decodeQuantum first second third fourth = some bytes) :
    ∀ character ∈ [first, second, third, fourth],
      value character ≠ none ∨ character = padding := by
  simp only [decodeQuantum, Option.bind_eq_bind,
    Option.bind_eq_some_iff] at decoded
  obtain ⟨one, first_known, two, second_known, decoded⟩ := decoded
  have heads : ∀ character ∈ [first, second],
      value character ≠ none ∨ character = padding := by
    simp [first_known, second_known]
  have tails : ∀ character ∈ [third, fourth],
      value character ≠ none ∨ character = padding := by
    split at decoded
    · rename_i padded
      simp [padded]
    · obtain ⟨three, third_known, decoded⟩ :=
        Option.bind_eq_some_iff.mp decoded
      split at decoded
      · rename_i padded
        simp [third_known, padded]
      · obtain ⟨four, fourth_known, _⟩ :=
          Option.bind_eq_some_iff.mp decoded
        simp [third_known, fourth_known]
  intro character member
  obtain member | member := List.mem_append.mp
    (show character ∈ [first, second] ++ [third, fourth] from member)
  · exact heads character member
  · exact tails character member

theorem decodeQuanta_alphabet {characters bytes : List UInt8}
    (decoded : decodeQuanta characters = some bytes) :
    ∀ character ∈ characters,
      value character ≠ none ∨ character = padding := by
  fun_induction decodeQuanta characters generalizing bytes with
  | case1 => simp
  | case2 first second third fourth =>
      exact decodeQuantum_alphabet decoded
  | case3 => cases decoded
  | case4 first second third fourth rest more unpadded induction =>
      simp only [Option.bind_eq_bind, Option.bind_eq_some_iff] at decoded
      obtain ⟨bytes, quantum, more, decoded, _⟩ := decoded
      intro character member
      obtain member | member := List.mem_append.mp
        (show character ∈ [first, second, third, fourth] ++ rest from member)
      · exact decodeQuantum_alphabet quantum character member
      · exact induction decoded character member
  | case5 => cases decoded

/-- Only characters of the alphabet, padding and line breaks are decoded. -/
theorem decode_alphabet {characters bytes : List UInt8}
    (decoded : decode characters = some bytes) {character : UInt8}
    (member : character ∈ characters) :
    value character ≠ none ∨ character = padding ∨
      isLineBreak character = true := by
  cases lineBreak : isLineBreak character with
  | true => exact .inr (.inr rfl)
  | false =>
      have kept : character ∈ characters.filter (!isLineBreak ·) := by
        simp [member, lineBreak]
      obtain known | same := decodeQuanta_alphabet decoded _ kept
      · exact .inl known
      · exact .inr (.inl same)

end Bacs.Foundation.Base64
