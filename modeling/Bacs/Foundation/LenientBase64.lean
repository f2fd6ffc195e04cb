import Bacs.Foundation.Base64

/-!
# Base64, decoded leniently

The decoder skips what is not a character of the alphabet, and it stops at the
padding of the first padded quantum.
-/

namespace Bacs.Foundation.Base64

/-- `position` characters of a quantum were read; `left` are their bits that
belong to no byte yet, and `pads` is the padding since the last of them. -/
def scan (position left pads : Nat) : List UInt8 → Option (List UInt8)
  | [] => if position = 0 then some [] else none
  | character :: rest =>
      if character = padding then
        if 2 ≤ position then
          if 4 ≤ position + (pads + 1) then some []
          else scan position left (pads + 1) rest
        else scan position left pads rest
      else
        match value character with
        | none => scan position left pads rest
        | some bits =>
            match position with
            | 0 => scan 1 bits 0 rest
            | 1 =>
                (scan 2 (bits % 16) 0 rest).map
                  (UInt8.ofNat (left * 4 + bits / 16) :: ·)
            | 2 =>
                (scan 3 (bits % 4) 0 rest).map
                  (UInt8.ofNat (left * 16 + bits / 4) :: ·)
            | _ =>
                (scan 0 0 0 rest).map (UInt8.ofNat (left * 64 + bits) :: ·)

/-- `none` if the last quantum is not complete. -/
def decodeLenient (characters : List UInt8) : Option (List UInt8) :=
  scan 0 0 0 characters

section Scan

variable {left pads bits shift : Nat} {rest : List UInt8}

end Scan

end Bacs.Foundation.Base64
