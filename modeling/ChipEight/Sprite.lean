import ChipEight.Screen

/-! # Sprites

A sprite is a list of bytes, a row of eight pixels each, the most significant bit leftmost. Where it
passes an edge of the screen it goes on at the opposite one. -/

namespace ChipEight.Sprite

/-- The columns of a row that are set, from left to right. -/
def columns (row : UInt8) : List Nat :=
  (List.range 8).filter fun c => row.toNat.testBit (7 - c)

/-- The pixels that a sprite at `(x, y)` covers, row by row. -/
def points (x y : Nat) (rows : List UInt8) : List (Nat × Nat) :=
  rows.zipIdx.flatMap fun (row, r) =>
    (columns row).map fun c => ((x + c) % Screen.width, (y + r) % Screen.height)

/-- Flips the pixels of a sprite at `(x, y)` and says whether any was erased. -/
def draw (x y : Nat) (rows : List UInt8) : Faulting Screen Bool := Screen.flipAll (points x y rows)

end ChipEight.Sprite
