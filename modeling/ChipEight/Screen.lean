import ChipEight.Fault

/-! # The screen

A grid of 64 by 32 pixels, each lit or not. The pixels lie row after row in one vector; a pixel is
addressed by its column `x` and its row `y`, counted from the top left. -/

namespace ChipEight

/-- The pixels in a row. -/
abbrev Screen.width : Nat := 64

/-- The rows of the screen. -/
abbrev Screen.height : Nat := 32

/-- What is shown: whether each pixel is lit, the rows one after the other. -/
structure Screen where
  pixels : Vector Bool (Screen.width * Screen.height)
deriving DecidableEq

namespace Screen

/-- The screen with no pixel lit. -/
def blank : Screen := ⟨Vector.replicate _ false⟩

/-- The place of the pixel `(x, y)` among the pixels. -/
def index (x y : Nat) : Except Fault (Fin (width * height)) :=
  if h : x < width ∧ y < height then .ok ⟨x + y * width, by simp only [width, height] at *; omega⟩
  else .error (.coordinate x y)

/-- Whether the pixel `(x, y)` is lit. -/
def get (s : Screen) (x y : Nat) : Except Fault Bool := do
  let i ← index x y
  return s.pixels[i]

/-- Lights the pixel `(x, y)` or puts it out. -/
def set (x y : Nat) (on : Bool) : Faulting Screen Unit := fun s =>
  match index x y with
  | .ok i => .ok () { s with pixels := s.pixels.set i on }
  | .error f => .error f s

/-- Flips the pixel `(x, y)` and says whether it was lit, that is whether it has been erased. -/
def flip (x y : Nat) : Faulting Screen Bool := fun s =>
  match index x y with
  | .ok i =>
    let lit := s.pixels[i]
    .ok lit { s with pixels := s.pixels.set i !lit }
  | .error f => .error f s

/-- Flips pixels one by one and says whether any was erased. -/
def flipAll : List (Nat × Nat) → Faulting Screen Bool
  | [] => pure false
  | (x, y) :: rest => do
    let erased ← flip x y
    let more ← flipAll rest
    return erased || more

/-- Every pixel with its column and row, row by row. -/
def points (s : Screen) : List (Nat × Nat × Bool) :=
  s.pixels.toList.zipIdx.map fun (on, i) => (i % width, i / width, on)

/-- The rows from top to bottom, each from left to right. -/
def rows (s : Screen) : List (List Bool) :=
  (List.range height).map fun y => (s.pixels.extract (y * width) (y * width + width)).toList

/-- How many pixels are lit. -/
def litCount (s : Screen) : Nat := s.pixels.count true

/-- An account of a screen in one line: its size and the number of its lit pixels. -/
def summary (s : Screen) : String :=
  "Framebuffer \x7b width: " ++ toString width ++ ", height: " ++ toString height ++ ", lit: " ++
    toString s.litCount ++ " \x7d"

end Screen

end ChipEight
