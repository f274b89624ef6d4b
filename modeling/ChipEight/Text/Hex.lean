/-! # Hexadecimal numerals

Addresses, opcodes and bytes are written in upper-case hexadecimal with a least number of digits. A
number that needs more digits than that is written in full. -/

namespace ChipEight.Hex

/-- The upper-case hexadecimal digits of `n`, filled up with zeros on the left to `width` digits. -/
def digits (width n : Nat) : List Char :=
  ((Nat.toDigits 16 n).map Char.toUpper).leftpad width '0'

/-- A hexadecimal numeral of at least `width` digits. -/
def text (width n : Nat) : String := String.ofList (digits width n)

end ChipEight.Hex
