import ChipEight.Text.Hex

/-! # Opcodes

An instruction is a word of two bytes, the high byte first. Its four hexadecimal digits say what it is
and what it works on: the first digit gives the family, `x` and `y` number registers, and the low end
is taken as a digit `n`, a byte `kk` or an address. -/

namespace ChipEight

/-- A word that may stand for an instruction. -/
abbrev Opcode := UInt16

namespace Opcode

/-- The word of two bytes. -/
def ofBytes (high low : UInt8) : Opcode := UInt16.ofNat (0x100 * high.toNat + low.toNat)

/-- The first digit. -/
def family (op : Opcode) : UInt8 := UInt8.ofNat (op.toNat / 0x1000)

/-- The second digit. -/
def x (op : Opcode) : UInt8 := UInt8.ofNat (op.toNat / 0x100 % 0x10)

/-- The third digit. -/
def y (op : Opcode) : UInt8 := UInt8.ofNat (op.toNat / 0x10 % 0x10)

/-- The last digit. -/
def n (op : Opcode) : UInt8 := UInt8.ofNat (op.toNat % 0x10)

/-- The low byte. -/
def kk (op : Opcode) : UInt8 := UInt8.ofNat (op.toNat % 0x100)

/-- The low three digits. -/
def addr (op : Opcode) : UInt16 := UInt16.ofNat (op.toNat % 0x1000)

/-- The four digits. -/
def text (op : Opcode) : String := Hex.text 4 op.toNat

end Opcode

end ChipEight
