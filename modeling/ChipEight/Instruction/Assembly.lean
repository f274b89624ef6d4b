import ChipEight.Instruction.Basic

/-! # Assembly text

An instruction is written as a mnemonic and its operands. What an operand is shows in how it is
written, so a register is never taken for a number or for one of the named places. -/

namespace ChipEight

/-- What a mnemonic is applied to. -/
inductive Operand where
  | register (x : UInt8)
  | byte (kk : UInt8)
  | address (addr : UInt16)
  /-- The height of a sprite. -/
  | height (n : UInt8)
  /-- A word left as it is. -/
  | word (op : Opcode)
  | index
  /-- Memory from the index on. -/
  | indexed
  | delay
  | sound
  | key
  /-- The font. -/
  | glyph
  /-- The three decimal digits. -/
  | decimal
deriving DecidableEq

/-- How an operand is written. Numbers are hexadecimal, but for the height of a sprite. -/
def Operand.text : Operand → String
  | .register x => "V" ++ Hex.text 1 x.toNat
  | .byte kk => "0x" ++ Hex.text 2 kk.toNat
  | .address addr => "0x" ++ Hex.text 3 addr.toNat
  | .height n => toString n.toNat
  | .word op => op.text
  | .index => "I"
  | .indexed => "[I]"
  | .delay => "DT"
  | .sound => "ST"
  | .key => "K"
  | .glyph => "F"
  | .decimal => "B"

/-- A line of assembly. -/
structure Assembly where
  mnemonic : String
  operands : List Operand
deriving DecidableEq

/-- The mnemonic and, after a blank, the operands with commas between them. -/
def Assembly.text (a : Assembly) : String :=
  match a.operands with
  | [] => a.mnemonic
  | os => a.mnemonic ++ " " ++ ", ".intercalate (os.map Operand.text)

namespace Instruction
open Operand

/-- The line that an instruction is written as. -/
def assembly : Instruction → Assembly
  | .sys addr => ⟨"SYS", [address addr]⟩
  | .clear => ⟨"CLS", []⟩
  | .ret => ⟨"RET", []⟩
  | .jump addr => ⟨"JP", [address addr]⟩
  | .call addr => ⟨"CALL", [address addr]⟩
  | .skipEqByte x kk => ⟨"SE", [register x, byte kk]⟩
  | .skipNeByte x kk => ⟨"SNE", [register x, byte kk]⟩
  | .skipEq x y => ⟨"SE", [register x, register y]⟩
  | .loadByte x kk => ⟨"LD", [register x, byte kk]⟩
  | .addByte x kk => ⟨"ADD", [register x, byte kk]⟩
  | .move x y => ⟨"LD", [register x, register y]⟩
  | .or x y => ⟨"OR", [register x, register y]⟩
  | .and x y => ⟨"AND", [register x, register y]⟩
  | .xor x y => ⟨"XOR", [register x, register y]⟩
  | .add x y => ⟨"ADD", [register x, register y]⟩
  | .sub x y => ⟨"SUB", [register x, register y]⟩
  | .shiftRight x => ⟨"SHR", [register x]⟩
  | .subFrom x y => ⟨"SUBN", [register x, register y]⟩
  | .shiftLeft x => ⟨"SHL", [register x]⟩
  | .skipNe x y => ⟨"SNE", [register x, register y]⟩
  | .loadIndex addr => ⟨"LD", [index, address addr]⟩
  | .jumpOffset addr => ⟨"JP", [register 0, address addr]⟩
  | .random x kk => ⟨"RND", [register x, byte kk]⟩
  | .draw x y n => ⟨"DRW", [register x, register y, height n]⟩
  | .skipDown x => ⟨"SKP", [register x]⟩
  | .skipUp x => ⟨"SKNP", [register x]⟩
  | .readDelay x => ⟨"LD", [register x, delay]⟩
  | .waitKey x => ⟨"LD", [register x, key]⟩
  | .setDelay x => ⟨"LD", [delay, register x]⟩
  | .setSound x => ⟨"LD", [sound, register x]⟩
  | .addIndex x => ⟨"ADD", [index, register x]⟩
  | .loadGlyph x => ⟨"LD", [glyph, register x]⟩
  | .storeDecimal x => ⟨"LD", [decimal, register x]⟩
  | .storeRegisters x => ⟨"LD", [indexed, register x]⟩
  | .loadRegisters x => ⟨"LD", [register x, indexed]⟩
  | .unknown op => ⟨"???", [word op]⟩

/-- The text of an instruction. -/
def text (i : Instruction) : String := i.assembly.text

end Instruction

end ChipEight
