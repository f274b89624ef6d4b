import ChipEight.Instruction.Assembly

/-! # Listings

A listing shows a program word by word: where it lies, the word, and the instruction that it stands
for. A byte left over at the end is listed as data. Addresses go on past 0xFFFF. -/

namespace ChipEight

/-- A line of a listing. -/
inductive Listing.Line where
  | word (address : Nat) (op : Opcode)
  | byte (address : Nat) (value : UInt8)
deriving DecidableEq

namespace Listing

/-- The lines for a program that lies at `address`. -/
def lines (address : Nat) : List UInt8 → List Line
  | high :: low :: rest => .word address (.ofBytes high low) :: lines (address + 2) rest
  | [value] => [.byte address value]
  | [] => []

/-- How a line is written: the address, the digits of the word or the byte, and what it stands for. -/
def Line.text : Line → String
  | .word address op => Hex.text 3 address ++ "  " ++ op.text ++ "  " ++ op.decode.text
  | .byte address value =>
    Hex.text 3 address ++ "  " ++ Hex.text 2 value.toNat ++ "    DB 0x" ++ Hex.text 2 value.toNat

end Listing

/-- The listing of a program that lies at `start`. -/
def disassemble (program : List UInt8) (start : UInt16) : List String :=
  (Listing.lines start.toNat program).map Listing.Line.text

end ChipEight
