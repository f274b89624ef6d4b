import ChipEight.Proofs.FrameText
import Mathlib.Data.List.Forall2

/-! # A stream of frames

All frames are written with the same number of characters, and the characters of a frame tell its pixels. So a text
of many frames is cut into frames by their length alone, and each of them is read back. -/

namespace ChipEight

/-! ### Pieces of one length -/

section Pieces
variable {α β : Type} {n : Nat} {f : α → List β}

/-- The first `count` pieces of `n` elements each. -/
def pieces (n : Nat) : Nat → List β → List (List β)
  | 0, _ => []
  | count + 1, l => l.take n :: pieces n count (l.drop n)

theorem pieces_flatMap {l : List α} (h : ∀ a ∈ l, (f a).length = n) : pieces n l.length (l.flatMap f) = l.map f := by
  induction l with
  | nil => rfl
  | cons a rest ih =>
    obtain ⟨ha, hrest⟩ := List.forall_mem_cons.mp h
    rw [List.length_cons, pieces, List.flatMap_cons, List.take_left' ha, List.drop_left' ha, ih hrest, List.map_cons]

theorem length_flatMap_of_length_eq {l : List α} (h : ∀ a ∈ l, (f a).length = n) :
    (l.flatMap f).length = l.length * n := by
  induction l with
  | nil => exact (Nat.zero_mul n).symm
  | cons a rest ih =>
    obtain ⟨ha, hrest⟩ := List.forall_mem_cons.mp h
    rw [List.flatMap_cons, List.length_append, ha, ih hrest, List.length_cons, Nat.succ_mul, Nat.add_comm]

theorem getElem?_flatMap_of_length_eq {l : List α} {i k : Nat} (h : ∀ a ∈ l, (f a).length = n) (hi : i < n) :
    (l.flatMap f)[k * n + i]? = l[k]?.bind fun a => (f a)[i]? := by
  induction l generalizing k with
  | nil => rfl
  | cons a rest ih =>
    obtain ⟨ha, hrest⟩ := List.forall_mem_cons.mp h
    rw [List.flatMap_cons]
    cases k with
    | zero =>
      rw [Nat.zero_mul, Nat.zero_add, List.getElem?_append_left (ha.symm ▸ hi)]
      rfl
    | succ k =>
      have hindex : (k + 1) * n + i = (f a).length + (k * n + i) := by
        rw [ha, Nat.succ_mul]
        omega
      rw [hindex, List.getElem?_append_right (Nat.le_add_right _ _), Nat.add_sub_cancel_left, ih hrest]
      rfl

end Pieces

namespace TextDisplay
variable {clear : Bool} {lines : List (List Char)} {s : Screen}

/-! ### Reading -/

/-- How many characters a frame takes. -/
def frameSize (clear : Bool) : Nat := (if clear then 7 else 0) + 32 * 65

/-- The screen that the characters of a frame show: a pixel is lit if there is a block at its place. -/
def readFrame (clear : Bool) (chars : List Char) : Screen :=
  let picture := chars.drop (if clear then 7 else 0)
  ⟨Vector.ofFn fun i => picture[i.val / 64 * 65 + i.val % 64]? == some '█'⟩

/-- The frames of a text, cut by their length. -/
def readFrames (clear : Bool) (text : String) : List Screen :=
  (pieces (frameSize clear) (text.toList.length / frameSize clear) text.toList).map (readFrame clear)

/-- The display after frames have been rendered one after the other. -/
def renderAll (d : TextDisplay) (frames : List Screen) : TextDisplay := frames.foldl FrameSink.render d

/-- What comes before the lines of a frame. -/
def opening (clear : Bool) : String := if clear then clearSequence else ""

theorem length_opening (clear : Bool) : (opening clear).toList.length = if clear then 7 else 0 := by
  cases clear <;> rfl

theorem length_line {line : List Char} (D : Depicts lines s) (h : line ∈ lines) : (line ++ ['\n']).length = 65 := by
  rw [List.length_append, D.width line h]
  rfl

theorem length_linesText (D : Depicts lines s) : (linesText lines).toList.length = 32 * 65 := by
  rw [linesText, String.toList_ofList, length_flatMap_of_length_eq fun line => length_line D, D.height]

theorem getElem?_linesText (D : Depicts lines s) {x y : Nat} (h : Screen.InGrid (x, y)) :
    (linesText lines).toList[y * 65 + x]? = some (if s.lit (x, y) then '█' else ' ') := by
  have hx : x < 64 := h.1
  obtain ⟨line, hline, hglyph⟩ := Option.bind_eq_some_iff.mp (D.glyph x y _ (s.get_of_inGrid h))
  have hwidth : x < line.length := by
    rw [D.width line (List.mem_of_getElem? hline)]
    exact hx
  rw [linesText, String.toList_ofList,
    getElem?_flatMap_of_length_eq (fun line => length_line D) (Nat.lt_succ_of_lt hx), hline, Option.bind_some,
    List.getElem?_append_left hwidth, hglyph]

theorem lit_readFrame (clear : Bool) (chars : List Char) {x y : Nat} (h : Screen.InGrid (x, y)) :
    (readFrame clear chars).lit (x, y) = ((chars.drop (if clear then 7 else 0))[y * 65 + x]? == some '█') := by
  have hcolumn : (x + y * 64) % 64 = x := h.place_mod_width
  have hrow : (x + y * 64) / 64 = y := h.place_div_width
  rw [Screen.lit, readFrame, Vector.getElem?_ofFn, dif_pos h.index_lt, Option.getD_some]
  simp only [Screen.width, hcolumn, hrow]

theorem readFrame_linesText (D : Depicts lines s) : readFrame clear (opening clear ++ linesText lines).toList = s := by
  refine Screen.eq_of_lit fun q hq => ?_
  rw [lit_readFrame clear _ hq, String.toList_append, List.drop_left' (length_opening clear), getElem?_linesText D hq]
  cases s.lit q <;> rfl

/-! ### What is written -/

theorem written_renderAll {d : TextDisplay} (h : d.accepting = true) (frames : List Screen) :
    (renderAll d frames).written = d.written ++ String.join (frames.map (frameText d.clear)) := by
  induction frames generalizing d with
  | nil => exact String.append_empty.symm
  | cons s rest ih =>
    have hrender : FrameSink.render d s = { d with written := d.written ++ frameText d.clear s } := if_pos h
    have hrest := ih (d := { d with written := d.written ++ frameText d.clear s }) h
    rw [renderAll, List.foldl_cons, hrender, List.map_cons, String.join_cons, ← String.append_assoc]
    exact hrest

theorem frameText_eq_opening (clear : Bool) (s : Screen) :
    frameText clear s = opening clear ++ linesText (frameLines s) := frameText_eq clear s

theorem length_frameText (clear : Bool) (s : Screen) : (frameText clear s).toList.length = frameSize clear := by
  rw [frameText_eq_opening, String.toList_append, List.length_append, length_opening,
    length_linesText (depicts_frameLines s), frameSize]

theorem readFrames_join (clear : Bool) (frames : List Screen) :
    readFrames clear (String.join (frames.map (frameText clear))) = frames := by
  have hlength : ∀ s ∈ frames, (frameText clear s).toList.length = frameSize clear := fun s _ => length_frameText clear s
  have htext : (String.join (frames.map (frameText clear))).toList = frames.flatMap fun s => (frameText clear s).toList := by
    rw [String.toList_join, List.flatMap_map]
  have hpositive : 0 < frameSize clear := Nat.lt_of_lt_of_le (by decide) (Nat.le_add_left _ _)
  have hread : ∀ s, readFrame clear (frameText clear s).toList = s := fun s => by
    rw [frameText_eq_opening]
    exact readFrame_linesText (depicts_frameLines s)
  rw [readFrames, htext, length_flatMap_of_length_eq hlength, Nat.mul_div_cancel _ hpositive, pieces_flatMap hlength,
    List.map_map]
  exact (List.map_congr_left fun s _ => hread s).trans (List.map_id _)

/-- Frames that are rendered one after the other become a text of their lines, each frame after what clears the
    terminal if that is asked for. They are read back from the text by the length of a frame, and so no other frames
    give the same text. -/
theorem frames_decodable (clear : Bool) (frames : List Screen) :
    (∃ pictures, List.Forall₂ Depicts pictures frames ∧
      (renderAll { clear } frames).written =
        String.join (pictures.map fun lines => (if clear then "\x1b[2J\x1b[H" else "") ++ linesText lines)) ∧
    readFrames clear (renderAll { clear } frames).written = frames ∧
    ∀ frames', (renderAll { clear } frames').written = (renderAll { clear } frames).written → frames' = frames := by
  have hwritten : ∀ frames, (renderAll { clear } frames).written = String.join (frames.map (frameText clear)) :=
    fun frames => (written_renderAll rfl frames).trans String.empty_append
  have hread : ∀ frames, readFrames clear (renderAll { clear } frames).written = frames := fun frames => by
    rw [hwritten, readFrames_join]
  refine ⟨⟨frames.map frameLines, ?_, ?_⟩, hread frames, fun frames' h => ?_⟩
  · rw [List.forall₂_map_left_iff, List.forall₂_same]
    exact fun s _ => depicts_frameLines s
  · rw [hwritten, List.map_map]
    exact congrArg String.join (List.map_congr_left fun s _ => frameText_eq clear s)
  · -- Reading is a left inverse of rendering.
    rw [← hread frames', h, hread frames]

/-- The screen with its last pixel lit. -/
def lastPixel : Screen := Screen.blank.toggled (63, 31)

/-- Two frames come back in their order, and the other way round they give another text. -/
theorem frames_decodable_last_pixel :
    readFrames true (renderAll { clear := true } [.blank, lastPixel]).written = [.blank, lastPixel] ∧
      (renderAll { clear := true } [lastPixel, .blank]).written ≠
        (renderAll { clear := true } [.blank, lastPixel]).written := by
  obtain ⟨-, hread, hsame⟩ := frames_decodable true [.blank, lastPixel]
  refine ⟨hread, fun h => ?_⟩
  have hfirst : lastPixel = .blank := (List.cons.inj (hsame [lastPixel, .blank] h)).1
  have hgrid : Screen.InGrid (63, 31) := ⟨by decide, by decide⟩
  have hlit : lastPixel.lit (63, 31) = true := by
    rw [lastPixel, Screen.lit_toggled_self _ hgrid, Screen.lit_blank hgrid, Bool.not_false]
  rw [hfirst, Screen.lit_blank hgrid] at hlit
  cases hlit

end TextDisplay

end ChipEight
