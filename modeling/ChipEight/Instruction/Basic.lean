import ChipEight.Opcode

/-! # Instructions

What a word tells the machine to do, with its operands. Decoding gives register numbers and heights
below 16 and addresses below 4096, but an instruction may be made with any operands. -/

namespace ChipEight

/-- An instruction. Registers are given by number: `x` and `y`. -/
inductive Instruction where
  /-- A call into the host's own code; does nothing. -/
  | sys (addr : UInt16)
  | clear
  | ret
  | jump (addr : UInt16)
  | call (addr : UInt16)
  | skipEqByte (x kk : UInt8)
  | skipNeByte (x kk : UInt8)
  | skipEq (x y : UInt8)
  | loadByte (x kk : UInt8)
  | addByte (x kk : UInt8)
  | move (x y : UInt8)
  | or (x y : UInt8)
  | and (x y : UInt8)
  | xor (x y : UInt8)
  | add (x y : UInt8)
  | sub (x y : UInt8)
  | shiftRight (x : UInt8)
  /-- Subtracts `x` from `y`, into `x`. -/
  | subFrom (x y : UInt8)
  | shiftLeft (x : UInt8)
  | skipNe (x y : UInt8)
  | loadIndex (addr : UInt16)
  /-- Jumps to an address past `addr` by V0. -/
  | jumpOffset (addr : UInt16)
  /-- A random byte, of which only the bits in `kk` are kept. -/
  | random (x kk : UInt8)
  /-- A sprite of `n` rows from the index on, at the column and row in `x` and `y`. -/
  | draw (x y n : UInt8)
  | skipDown (x : UInt8)
  | skipUp (x : UInt8)
  | readDelay (x : UInt8)
  /-- Waits until a key is down. -/
  | waitKey (x : UInt8)
  | setDelay (x : UInt8)
  | setSound (x : UInt8)
  | addIndex (x : UInt8)
  /-- Points the index to the glyph of a digit. -/
  | loadGlyph (x : UInt8)
  /-- Stores the three decimal digits of a register. -/
  | storeDecimal (x : UInt8)
  /-- Stores V0 up to `Vx`. -/
  | storeRegisters (x : UInt8)
  /-- Loads V0 up to `Vx`. -/
  | loadRegisters (x : UInt8)
  /-- A word that is no instruction. -/
  | unknown (op : Opcode)
deriving DecidableEq

namespace Opcode

/-- The instructions of family 8, told apart by the last digit. -/
def arithmetic (op : Opcode) : Instruction :=
  match op.n with
  | 0x0 => .move op.x op.y
  | 0x1 => .or op.x op.y
  | 0x2 => .and op.x op.y
  | 0x3 => .xor op.x op.y
  | 0x4 => .add op.x op.y
  | 0x5 => .sub op.x op.y
  | 0x6 => .shiftRight op.x
  | 0x7 => .subFrom op.x op.y
  | 0xE => .shiftLeft op.x
  | _ => .unknown op

/-- The instructions of family F, told apart by the low byte. -/
def peripheral (op : Opcode) : Instruction :=
  match op.kk with
  | 0x07 => .readDelay op.x
  | 0x0A => .waitKey op.x
  | 0x15 => .setDelay op.x
  | 0x18 => .setSound op.x
  | 0x1E => .addIndex op.x
  | 0x29 => .loadGlyph op.x
  | 0x33 => .storeDecimal op.x
  | 0x55 => .storeRegisters op.x
  | 0x65 => .loadRegisters op.x
  | _ => .unknown op

/-- The instruction that a word stands for. -/
def decode (op : Opcode) : Instruction :=
  match op.family with
  | 0x0 => if op.addr = 0x0E0 then .clear else if op.addr = 0x0EE then .ret else .sys op.addr
  | 0x1 => .jump op.addr
  | 0x2 => .call op.addr
  | 0x3 => .skipEqByte op.x op.kk
  | 0x4 => .skipNeByte op.x op.kk
  | 0x5 => if op.n = 0 then .skipEq op.x op.y else .unknown op
  | 0x6 => .loadByte op.x op.kk
  | 0x7 => .addByte op.x op.kk
  | 0x8 => op.arithmetic
  | 0x9 => if op.n = 0 then .skipNe op.x op.y else .unknown op
  | 0xA => .loadIndex op.addr
  | 0xB => .jumpOffset op.addr
  | 0xC => .random op.x op.kk
  | 0xD => .draw op.x op.y op.n
  | 0xE => if op.kk = 0x9E then .skipDown op.x else if op.kk = 0xA1 then .skipUp op.x else .unknown op
  | 0xF => op.peripheral
  | _ => .unknown op

end Opcode

end ChipEight
