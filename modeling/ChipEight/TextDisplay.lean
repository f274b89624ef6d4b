import ChipEight.FrameSink

/-! # Frames as text

A text display writes each frame as 32 lines of 64 characters, a full block for a lit pixel and a blank
for any other. It can clear the terminal before each frame, so that frames replace one another. If
what it writes to takes nothing, its frames are lost. -/

namespace ChipEight

/-- A display that writes frames as text, and what it has written. -/
structure TextDisplay where
  /-- Whether to clear the terminal before each frame. -/
  clear : Bool
  /-- Whether what is written arrives. -/
  accepting : Bool := true
  /-- All that has arrived. -/
  written : String := ""

namespace TextDisplay

/-- The character for a pixel. -/
def glyph (lit : Bool) : Char := if lit then '█' else ' '

/-- A frame as lines of characters. -/
def frameChars (s : Screen) : List Char :=
  s.rows.flatMap fun row => row.map glyph ++ ['\n']

/-- The control sequences that clear a terminal and put the cursor at its top left. -/
def clearSequence : String := "\x1b[2J\x1b[H"

/-- What is written for one frame. -/
def frameText (clear : Bool) (s : Screen) : String :=
  (if clear then clearSequence else "") ++ String.ofList (frameChars s)

instance : FrameSink TextDisplay where
  render d s := if d.accepting then { d with written := d.written ++ frameText d.clear s } else d

end TextDisplay

end ChipEight
