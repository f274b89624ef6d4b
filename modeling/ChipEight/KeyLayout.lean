/-! # The keyboard layout

The four rows of keys lie on the four left columns of a keyboard, each key on the character at its
place:

    1 2 3 C      1 2 3 4
    4 5 6 D      Q W E R
    7 8 9 E      A S D F
    A 0 B F      Z X C V
-/

namespace ChipEight.KeyLayout

/-- The character for each key, from key 0 on. -/
def characters : List Char :=
  ['X', '1', '2', '3', 'Q', 'W', 'E', 'A', 'S', 'D', 'Z', 'C', '4', 'R', 'F', 'V']

/-- The key that a character is on. Letters count in either case, but only those of ASCII. -/
def key? (c : Char) : Option UInt8 := (characters.idxOf? c.toUpper).map UInt8.ofNat

end ChipEight.KeyLayout
