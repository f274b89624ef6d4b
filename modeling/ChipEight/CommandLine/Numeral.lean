/-! # Decimal numerals

The numbers on a command line are decimal digits with or without a plus sign before them. -/

namespace ChipEight.Numeral

/-- The value of a digit. -/
def digit? (c : Char) : Option Nat :=
  if '0' ≤ c ∧ c ≤ '9' then some (c.toNat - '0'.toNat) else none

/-- The value of one or more digits. -/
def digits? : List Char → Option Nat
  | [] => none
  | cs => cs.foldlM (fun n c => (digit? c).map (10 * n + ·)) 0

/-- The value of a numeral. -/
def value? : List Char → Option Nat
  | '+' :: cs => digits? cs
  | cs => digits? cs

/-- The value of a numeral that may also have a minus sign, if the value is not negative. -/
def signedValue? : List Char → Option Nat
  | '-' :: cs => (digits? cs).filter (· = 0)
  | cs => value? cs

end ChipEight.Numeral
