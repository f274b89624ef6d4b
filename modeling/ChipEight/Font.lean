import ChipEight.Memory

/-! # The font

Memory starts out with a glyph for each hexadecimal digit, four pixels wide and five rows tall, a byte
to a row. The glyph of 0 is

    0xF0  ****
    0x90  *  *
    0x90  *  *
    0x90  *  *
    0xF0  ****
-/

namespace ChipEight.Font

/-- Where the font is in memory. -/
def address : Nat := 0

/-- The bytes of one glyph. -/
def glyphSize : Nat := 5

/-- The glyphs of the sixteen digits in order. -/
def sheet : List UInt8 :=
  [0xF0, 0x90, 0x90, 0x90, 0xF0,
   0x20, 0x60, 0x20, 0x20, 0x70,
   0xF0, 0x10, 0xF0, 0x80, 0xF0,
   0xF0, 0x10, 0xF0, 0x10, 0xF0,
   0x90, 0x90, 0xF0, 0x10, 0x10,
   0xF0, 0x80, 0xF0, 0x10, 0xF0,
   0xF0, 0x80, 0xF0, 0x90, 0xF0,
   0xF0, 0x10, 0x20, 0x40, 0x40,
   0xF0, 0x90, 0xF0, 0x90, 0xF0,
   0xF0, 0x90, 0xF0, 0x10, 0xF0,
   0xF0, 0x90, 0xF0, 0x90, 0x90,
   0xE0, 0x90, 0xE0, 0x90, 0xE0,
   0xF0, 0x80, 0x80, 0x80, 0xF0,
   0xE0, 0x90, 0x90, 0x90, 0xE0,
   0xF0, 0x80, 0xF0, 0x80, 0xF0,
   0xF0, 0x80, 0xF0, 0x80, 0x80]

/-- The address of the glyph for the low four bits of `b`. -/
def glyphAddress (b : UInt8) : UInt16 := UInt16.ofNat (address + b.toNat % 16 * glyphSize)

/-- Memory that holds the font and nothing else. -/
def memory : Memory := Memory.zero.store address sheet

end ChipEight.Font
