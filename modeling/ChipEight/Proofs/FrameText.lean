import ChipEight.Proofs.Grid
import ChipEight.TextDisplay

/-! # Frames as lines of text

A frame is written as 32 lines of 64 characters, and the character at a place of a line stands for the pixel at
that place. -/

namespace ChipEight

namespace TextDisplay

/-- Lines of characters that show a screen: 32 lines of 64, with a full block for a lit pixel and a blank for any
    other. -/
structure Depicts (lines : List (List Char)) (s : Screen) : Prop where
  height : lines.length = 32
  width : ∀ line ∈ lines, line.length = 64
  glyph : ∀ x y on, s.get x y = .ok on → (lines[y]?.bind (·[x]?)) = some (if on then '█' else ' ')

/-- Lines as a text, each with its end. -/
def linesText (lines : List (List Char)) : String := .ofList (lines.flatMap (· ++ ['\n']))

/-- The lines that a text display writes for a screen. -/
def frameLines (s : Screen) : List (List Char) := s.rows.map (·.map glyph)

theorem frameText_eq (clear : Bool) (s : Screen) :
    frameText clear s = (if clear then clearSequence else "") ++ linesText (frameLines s) := by
  rw [frameText, linesText, frameLines, List.flatMap_map, frameChars]

theorem depicts_frameLines (s : Screen) : Depicts (frameLines s) s := by
  refine ⟨?_, fun line hline => ?_, fun x y on hget => ?_⟩
  · rw [frameLines, List.length_map, Screen.length_rows]
  · obtain ⟨row, hrow, rfl⟩ := List.mem_map.mp hline
    rw [List.length_map, Screen.length_of_mem_rows hrow]
  · obtain ⟨row, hrow, hpixel⟩ := Option.bind_eq_some_iff.mp (Screen.getElem?_rows_eq_some_iff.mpr hget)
    rw [frameLines, List.getElem?_map, hrow, Option.map_some, Option.bind_some, List.getElem?_map, hpixel,
      Option.map_some]
    rfl

end TextDisplay

end ChipEight
