import ChipEight.Proofs.Parts
import Mathlib.Data.Finset.Prod
import Mathlib.Data.List.Nodup
import Mathlib.Logic.Function.Basic

/-! # The screen as a grid

The pixels lie in one row, but the screen is a grid: each of its points has a place of its own there, and each place
is that of a point. So one change changes one point, and the pixels in their order, the rows and the count of the lit
pixels all tell the same picture. -/

namespace ChipEight.Screen

/-! ### Points and places -/

section Points
variable {s t : Screen} {p q : Nat × Nat} {x y : Nat} {on : Bool}

theorem InGrid.place_mod_width (hp : InGrid p) : (p.1 + p.2 * width) % width = p.1 := by
  rw [Nat.add_mul_mod_self_right, Nat.mod_eq_of_lt hp.1]

theorem InGrid.place_div_width (hp : InGrid p) : (p.1 + p.2 * width) / width = p.2 := by
  rw [Nat.add_mul_div_right _ _ (by decide), Nat.div_eq_of_lt hp.1, Nat.zero_add]

theorem InGrid.eq_of_index_eq (hp : InGrid p) (hq : InGrid q) (h : p.1 + p.2 * width = q.1 + q.2 * width) :
    p = q := by
  refine Prod.ext ?_ ?_
  · rw [← hp.place_mod_width, h, hq.place_mod_width]
  · rw [← hp.place_div_width, h, hq.place_div_width]

theorem exists_inGrid_of_lt {i : Nat} (h : i < width * height) : ∃ q, InGrid q ∧ q.1 + q.2 * width = i := by
  simp only [width, height] at h
  refine ⟨(i % width, i / width), ⟨Nat.mod_lt _ (by decide), ?_⟩, ?_⟩
  · simp only [width, height]
    omega
  · simp only [width]
    omega

theorem eq_of_lit (h : ∀ q, InGrid q → s.lit q = t.lit q) : s = t := by
  suffices hpixels : s.pixels = t.pixels by
    cases s
    cases t
    exact congrArg Screen.mk hpixels
  refine Vector.ext fun i hi => ?_
  obtain ⟨q, hq, rfl⟩ := exists_inGrid_of_lt hi
  have hlit := h q hq
  rwa [lit, lit, Vector.getElem?_eq_getElem hi, Vector.getElem?_eq_getElem hi, Option.getD_some,
    Option.getD_some] at hlit

theorem index_of_not_inGrid (h : ¬InGrid (x, y)) : index x y = .error (.coordinate x y) := dif_neg h

theorem get_of_inGrid (s : Screen) (h : InGrid (x, y)) : s.get x y = .ok (s.lit (x, y)) := by
  rw [get, h.index_eq, ← h.getElem_pixels s]
  rfl

theorem get_of_not_inGrid (s : Screen) (h : ¬InGrid (x, y)) : s.get x y = .error (.coordinate x y) := by
  rw [get, index_of_not_inGrid h]
  rfl

theorem get_eq_ok_iff : s.get x y = .ok on ↔ InGrid (x, y) ∧ s.lit (x, y) = on := by
  by_cases h : InGrid (x, y)
  · simp [get_of_inGrid s h, h]
  · simp [get_of_not_inGrid s h, h]

/-! ### One pixel changed -/

/-- The screen with one pixel lit or put out. -/
def painted (s : Screen) (p : Nat × Nat) (on : Bool) : Screen := ⟨s.pixels.setIfInBounds (p.1 + p.2 * width) on⟩

theorem toggled_eq (s : Screen) (p : Nat × Nat) : s.toggled p = s.painted p !s.lit p := rfl

theorem lit_painted (s : Screen) (on : Bool) (hp : InGrid p) (hq : InGrid q) :
    (s.painted p on).lit q = if p = q then on else s.lit q := by
  rw [lit, painted, Vector.getElem?_setIfInBounds]
  by_cases h : p = q
  · subst h
    rw [if_pos rfl, if_pos hp.index_lt, Option.getD_some, if_pos rfl]
  · have hne : p.1 + p.2 * width ≠ q.1 + q.2 * width := fun hindex => h (hp.eq_of_index_eq hq hindex)
    rw [if_neg hne, if_neg h, lit]

theorem lit_toggled_self (s : Screen) (hp : InGrid p) : (s.toggled p).lit p = !s.lit p := by
  rw [toggled_eq, lit_painted s _ hp hp, if_pos rfl]

theorem lit_toggled_of_ne (s : Screen) (hp : InGrid p) (hq : InGrid q) (h : p ≠ q) :
    (s.toggled p).lit q = s.lit q := by
  rw [toggled_eq, lit_painted s _ hp hq, if_neg h]

theorem set_of_inGrid (s : Screen) (on : Bool) (h : InGrid (x, y)) : set x y on s = .ok () (s.painted (x, y) on) := by
  simp only [set, h.index_eq, painted, set_eq_setIfInBounds]

theorem set_of_not_inGrid (s : Screen) (on : Bool) (h : ¬InGrid (x, y)) :
    set x y on s = .error (.coordinate x y) s := by
  simp only [set, index_of_not_inGrid h]

theorem flip_of_not_inGrid (s : Screen) (h : ¬InGrid (x, y)) : flip x y s = .error (.coordinate x y) s := by
  simp only [flip, index_of_not_inGrid h]

theorem lit_blank (hq : InGrid q) : blank.lit q = false := by
  rw [lit, blank, Vector.getElem?_eq_getElem hq.index_lt, Vector.getElem_replicate, Option.getD_some]

end Points

/-! ### Views -/

/-- The points of the screen row by row, each from left to right. -/
def rowMajor : List (Nat × Nat) := (List.range height).flatMap fun y => (List.range width).map fun x => (x, y)

theorem mem_rowMajor {q : Nat × Nat} : q ∈ rowMajor ↔ InGrid q := by
  simp only [rowMajor, List.mem_flatMap, List.mem_map, List.mem_range]
  constructor
  · rintro ⟨y, hy, x, hx, rfl⟩
    exact ⟨hx, hy⟩
  · rintro ⟨hx, hy⟩
    exact ⟨q.2, hy, q.1, hx, rfl⟩

theorem range_mul (m n : Nat) :
    List.range (m * n) = (List.range m).flatMap fun y => (List.range n).map fun x => x + y * n := by
  induction m with
  | zero => rw [Nat.zero_mul, List.range_zero, List.flatMap_nil]
  | succ m ih =>
    have hrow : (List.range n).map (m * n + ·) = (List.range n).map fun x => x + m * n :=
      List.map_congr_left fun x _ => Nat.add_comm _ _
    rw [Nat.succ_mul, List.range_add, ih, List.range_succ, List.flatMap_append, List.flatMap_singleton, hrow]

/-- Row by row the points come in the order of their places. -/
theorem map_place_rowMajor : rowMajor.map (fun q => q.1 + q.2 * width) = List.range (width * height) := by
  rw [Nat.mul_comm, range_mul, rowMajor, List.map_flatMap]
  refine congrArg (fun row => List.flatMap row _) (funext fun y => ?_)
  rw [List.map_map]
  rfl

theorem nodup_rowMajor : rowMajor.Nodup := by
  have hplaces : (rowMajor.map fun q => q.1 + q.2 * width).Nodup := by
    rw [map_place_rowMajor]
    exact List.nodup_range
  exact hplaces.of_map _

theorem length_rowMajor : rowMajor.length = width * height := by
  rw [← List.length_map (fun q => q.1 + q.2 * width), map_place_rowMajor, List.length_range]

/-- The pixels with their places are the points row by row. -/
theorem zipIdx_pixels (s : Screen) :
    s.pixels.toList.zipIdx = rowMajor.map fun q => (s.lit q, q.1 + q.2 * width) := by
  have hplaces : s.pixels.toList.zipIdx =
      (List.range (width * height)).map fun i => (s.pixels[i]?.getD false, i) := by
    refine List.ext_getElem (by simp) fun i hi _ => ?_
    have hi' : i < width * height := by simpa using hi
    simp only [List.getElem_zipIdx, Vector.getElem_toList, List.getElem_map, List.getElem_range, Nat.zero_add,
      Vector.getElem?_eq_getElem hi', Option.getD_some]
  rw [hplaces, ← map_place_rowMajor, List.map_map]
  rfl

theorem points_eq (s : Screen) : s.points = rowMajor.map fun q => (q.1, q.2, s.lit q) := by
  rw [points, zipIdx_pixels, List.map_map]
  refine List.map_congr_left fun q hq => ?_
  have hgrid := mem_rowMajor.mp hq
  simp only [Function.comp_apply, hgrid.place_mod_width, hgrid.place_div_width]

theorem litCount_eq (s : Screen) :
    s.litCount = ((Finset.range width ×ˢ Finset.range height).filter fun q => s.get q.1 q.2 = .ok true).card := by
  have hpixels : s.pixels.toList = rowMajor.map s.lit := by
    rw [← List.zipIdx_map_fst 0 s.pixels.toList, zipIdx_pixels, List.map_map]
    rfl
  -- The places are all different, so a set of points has as many elements as the list of them.
  have hfilter : (Finset.range width ×ˢ Finset.range height).filter (fun q => s.get q.1 q.2 = .ok true) =
      (rowMajor.filter s.lit).toFinset := by
    ext q
    simp only [Finset.mem_filter, Finset.mem_product, Finset.mem_range, List.mem_toFinset, List.mem_filter,
      mem_rowMajor, get_eq_ok_iff]
    exact ⟨And.right, fun h => ⟨h.1, h⟩⟩
  rw [litCount, ← Vector.count_toList, hpixels, hfilter, List.toFinset_card_of_nodup (nodup_rowMajor.filter _),
    List.count, List.countP_map, List.countP_eq_length_filter]
  simp only [beq_true]
  rfl

theorem rows_eq (s : Screen) :
    s.rows = (List.range height).map fun y => (List.range width).map fun x => s.lit (x, y) := by
  refine List.map_congr_left fun y hy => ?_
  have hlt : y < height := List.mem_range.mp hy
  refine List.ext_getElem ?_ fun x hx hx' => ?_
  · have hend : y * width + width ≤ width * height := by
      simp only [width, height] at hlt ⊢
      omega
    simp only [Vector.length_toList, List.length_map, List.length_range]
    omega
  · have hin : InGrid (x, y) := ⟨by simpa using hx', hlt⟩
    have hindex : y * width + x < width * height := by
      rw [Nat.add_comm]
      exact hin.index_lt
    simp only [Vector.getElem_toList, Vector.getElem_extract, List.getElem_map, List.getElem_range, lit, Nat.add_comm x]
    rw [Vector.getElem?_eq_getElem hindex, Option.getD_some]

theorem length_rows (s : Screen) : s.rows.length = height := by
  rw [rows_eq, List.length_map, List.length_range]

theorem length_of_mem_rows {s : Screen} {row : List Bool} (h : row ∈ s.rows) : row.length = width := by
  rw [rows_eq] at h
  obtain ⟨y, -, rfl⟩ := List.mem_map.mp h
  rw [List.length_map, List.length_range]

theorem getElem?_rows_eq_some_iff {s : Screen} {x y : Nat} {on : Bool} :
    s.rows[y]?.bind (·[x]?) = some on ↔ s.get x y = .ok on := by
  rw [rows_eq, List.getElem?_map, get_eq_ok_iff]
  by_cases hy : y < height
  · rw [List.getElem?_range hy, Option.map_some, Option.bind_some, List.getElem?_map]
    by_cases hx : x < width
    · rw [List.getElem?_range hx, Option.map_some, Option.some.injEq]
      exact (and_iff_right ⟨hx, hy⟩).symm
    · rw [List.getElem?_eq_none (by simpa using hx), Option.map_none]
      exact ⟨nofun, fun h => absurd h.1.1 hx⟩
  · rw [List.getElem?_eq_none (by simpa using hy), Option.map_none, Option.bind_none]
    exact ⟨nofun, fun h => absurd h.1.2 hy⟩

/-! ### Edits -/

/-- A change that is asked of a screen, with whatever coordinates. -/
inductive Edit where
  | set (x y : Nat) (on : Bool)
  | flip (x y : Nat)
  | clear

namespace Edit

/-- What a screen answers to an edit, and what it becomes. A flip answers whether the pixel was lit. -/
def onScreen : Edit → Screen → Except Fault (Option Bool) × Screen
  | .set x y on, s =>
    match Screen.set x y on s with
    | .ok _ t => (.ok none, t)
    | .error f t => (.error f, t)
  | .flip x y, s =>
    match Screen.flip x y s with
    | .ok lit t => (.ok (some lit), t)
    | .error f t => (.error f, t)
  | .clear, _ => (.ok none, .blank)

/-- The same of a picture, that is of what is to be seen at each point: at most the point asked for is changed. -/
def onPicture : Edit → (Nat × Nat → Bool) → Except Fault (Option Bool) × (Nat × Nat → Bool)
  | .set x y on, picture =>
    if x < 64 ∧ y < 32 then (.ok none, Function.update picture (x, y) on)
    else (.error (.coordinate x y), picture)
  | .flip x y, picture =>
    if x < 64 ∧ y < 32 then (.ok (some (picture (x, y))), Function.update picture (x, y) !picture (x, y))
    else (.error (.coordinate x y), picture)
  | .clear, _ => (.ok none, fun _ => false)

/-- The answers to edits that are asked for one after the other, whether they fail or not, and what is left. -/
def run {σ : Type} (act : Edit → σ → Except Fault (Option Bool) × σ) :
    List Edit → σ → List (Except Fault (Option Bool)) × σ
  | [], s => ([], s)
  | e :: rest, s =>
    let (answer, t) := act e s
    let (answers, u) := run act rest t
    (answer :: answers, u)

end Edit

/-- A screen shows a picture if it tells the same at each of its points. -/
def Shows (s : Screen) (picture : Nat × Nat → Bool) : Prop :=
  ∀ x y, x < 64 → y < 32 → s.get x y = .ok (picture (x, y))

variable {s : Screen} {picture : Nat × Nat → Bool}

theorem shows_iff : s.Shows picture ↔ ∀ q, InGrid q → s.lit q = picture q := by
  constructor
  · intro h q hq
    exact (get_eq_ok_iff.mp (h q.1 q.2 hq.1 hq.2)).2
  · intro h x y hx hy
    exact get_eq_ok_iff.mpr ⟨⟨hx, hy⟩, h (x, y) ⟨hx, hy⟩⟩

theorem Shows.painted (S : s.Shows picture) {p : Nat × Nat} (hp : InGrid p) (on : Bool) :
    (s.painted p on).Shows (Function.update picture p on) := by
  rw [shows_iff] at S ⊢
  intro q hq
  rw [lit_painted s on hp hq, Function.update_apply]
  by_cases h : p = q
  · rw [if_pos h, if_pos h.symm]
  · rw [if_neg h, if_neg (Ne.symm h), S q hq]

/-- An edit of a screen is answered as the same edit of the picture that the screen shows, and leaves the screen with
    the picture that this leaves. -/
theorem Shows.edit (S : s.Shows picture) (e : Edit) :
    (e.onScreen s).1 = (e.onPicture picture).1 ∧ (e.onScreen s).2.Shows (e.onPicture picture).2 := by
  -- The screen and the picture ask the same question first: whether there is such a point.
  cases e with
  | set x y on =>
    by_cases h : InGrid (x, y)
    · have hpicture : (Edit.set x y on).onPicture picture = (.ok none, Function.update picture (x, y) on) := if_pos h
      simp only [hpicture, Edit.onScreen, set_of_inGrid s on h]
      exact ⟨trivial, S.painted h on⟩
    · have hpicture : (Edit.set x y on).onPicture picture = (.error (.coordinate x y), picture) := if_neg h
      simp only [hpicture, Edit.onScreen, set_of_not_inGrid s on h]
      exact ⟨trivial, S⟩
  | flip x y =>
    by_cases h : InGrid (x, y)
    · have hpicture : (Edit.flip x y).onPicture picture =
          (.ok (some (picture (x, y))), Function.update picture (x, y) !picture (x, y)) := if_pos h
      have hlit : s.lit (x, y) = picture (x, y) := shows_iff.mp S _ h
      simp only [hpicture, Edit.onScreen, flip_apply s h, toggled_eq, hlit]
      exact ⟨trivial, S.painted h _⟩
    · have hpicture : (Edit.flip x y).onPicture picture = (.error (.coordinate x y), picture) := if_neg h
      simp only [hpicture, Edit.onScreen, flip_of_not_inGrid s h]
      exact ⟨trivial, S⟩
  | clear =>
    refine ⟨rfl, shows_iff.mpr fun q hq => ?_⟩
    exact lit_blank hq

theorem Shows.run (S : s.Shows picture) (edits : List Edit) :
    (Edit.run Edit.onScreen edits s).1 = (Edit.run Edit.onPicture edits picture).1 ∧
      (Edit.run Edit.onScreen edits s).2.Shows (Edit.run Edit.onPicture edits picture).2 := by
  induction edits generalizing s picture with
  | nil => exact ⟨rfl, S⟩
  | cons e rest ih =>
    obtain ⟨hanswer, hshows⟩ := S.edit e
    obtain ⟨hanswers, hrest⟩ := ih hshows
    exact ⟨congrArg₂ List.cons hanswer hanswers, hrest⟩

/-! ### One picture -/

/-- The points, the rows and the summary of a screen tell what is to be seen at its points. -/
structure ViewsAgree (s : Screen) : Prop where
  length_points : s.points.length = 2048
  order : s.points.map (fun t => (t.1, t.2.1)) = (List.range 32).flatMap fun y => (List.range 64).map fun x => (x, y)
  once : ∀ x y, x < 64 → y < 32 → (s.points.map fun t => (t.1, t.2.1)).count (x, y) = 1
  point : ∀ x y on, (x, y, on) ∈ s.points → s.get x y = .ok on
  length_rows : s.rows.length = 32
  length_row : ∀ row ∈ s.rows, row.length = 64
  row : ∀ x y on, s.rows[y]?.bind (·[x]?) = some on ↔ s.get x y = .ok on
  summary : s.summary = "Framebuffer \x7b width: 64, height: 32, lit: " ++
    toString ((Finset.range 64 ×ˢ Finset.range 32).filter fun q => s.get q.1 q.2 = .ok true).card ++ " \x7d"

theorem viewsAgree (s : Screen) : s.ViewsAgree := by
  have horder : s.points.map (fun t => (t.1, t.2.1)) = rowMajor := by
    rw [points_eq, List.map_map]
    exact List.map_id _
  refine ⟨?_, horder, fun x y hx hy => ?_, fun x y on h => ?_, s.length_rows, fun row => length_of_mem_rows,
    fun x y on => getElem?_rows_eq_some_iff, ?_⟩
  · rw [points_eq, List.length_map]
    exact length_rowMajor
  · rw [horder]
    exact List.count_eq_one_of_mem nodup_rowMajor (mem_rowMajor.mpr ⟨hx, hy⟩)
  · rw [points_eq] at h
    obtain ⟨q, hq, hpoint⟩ := List.mem_map.mp h
    cases hpoint
    exact get_of_inGrid s (mem_rowMajor.mp hq)
  · have htext : "Framebuffer \x7b width: " ++ toString width ++ ", height: " ++ toString height ++ ", lit: " =
        "Framebuffer \x7b width: 64, height: 32, lit: " := by decide +kernel
    unfold summary
    rw [htext, litCount_eq]

/-- A place that is computed in words of 64 bits is right, for neither the product nor the sum passes the end of the
    screen. -/
theorem index_eq_ok {x y : UInt64} {i : Fin (width * height)} (h : index x.toNat y.toNat = .ok i) :
    (y * 64).toNat = y.toNat * 64 ∧ (x + y * 64).toNat = x.toNat + y.toNat * 64 ∧ i.val = (x + y * 64).toNat := by
  by_cases hgrid : InGrid (x.toNat, y.toNat)
  · rw [hgrid.index_eq] at h
    cases h
    have hx : x.toNat < 64 := hgrid.1
    have hy : y.toNat < 32 := hgrid.2
    have hproduct : (y * 64).toNat = y.toNat * 64 := by
      have hwidth : (64 : UInt64).toNat = 64 := rfl
      rw [UInt64.toNat_mul, hwidth]
      exact Nat.mod_eq_of_lt (by omega)
    have hsum : (x + y * 64).toNat = x.toNat + y.toNat * 64 := by
      rw [UInt64.toNat_add, hproduct]
      exact Nat.mod_eq_of_lt (by omega)
    exact ⟨hproduct, hsum, hsum.symm⟩
  · rw [index_of_not_inGrid hgrid] at h
    cases h

theorem eq_iff_get {s t : Screen} : s = t ↔ ∀ x y, x < 64 → y < 32 → s.get x y = t.get x y := by
  constructor
  · rintro rfl x y - -
    rfl
  · intro h
    refine eq_of_lit fun q hq => ?_
    have hget := h q.1 q.2 hq.1 hq.2
    rw [get_of_inGrid s hq, get_of_inGrid t hq] at hget
    exact Except.ok.inj hget

/-- Whatever edits are asked for, a screen that is blank at first answers and shows what a picture does of which each
    edit changes one point. All views of a screen tell this picture, screens are the same just if the pictures are,
    and the place of a pixel is computed without a carry. -/
theorem screen_is_grid :
    (∀ edits : List Edit,
      (Edit.run Edit.onScreen edits blank).1 = (Edit.run Edit.onPicture edits fun _ => false).1 ∧
        (Edit.run Edit.onScreen edits blank).2.Shows (Edit.run Edit.onPicture edits fun _ => false).2) ∧
    (∀ (x y : UInt64) (i : Fin (width * height)), index x.toNat y.toNat = .ok i →
      (y * 64).toNat = y.toNat * 64 ∧ (x + y * 64).toNat = x.toNat + y.toNat * 64 ∧ i.val = (x + y * 64).toNat) ∧
    (∀ s : Screen, s.ViewsAgree) ∧
    ∀ s t : Screen, s = t ↔ ∀ x y, x < 64 → y < 32 → s.get x y = t.get x y := by
  have hblank : blank.Shows fun _ => false := shows_iff.mpr fun q hq => lit_blank hq
  exact ⟨hblank.run, fun _ _ _ => index_eq_ok, viewsAgree, fun _ _ => eq_iff_get⟩

/-- A pixel is lit and put out again, and another one is lit. Two edits miss the screen, one by a single column. -/
def strayEdits : List Edit :=
  [.set 1 2 true, .flip 64 2, .flip 1 2, .set 0 0xFFFFFFFFFFFFFFFF true, .flip 63 31]

theorem screen_is_grid_stray :
    (Edit.run Edit.onScreen strayEdits blank).1 =
        [.ok none, .error (.coordinate 64 2), .ok (some true), .error (.coordinate 0 0xFFFFFFFFFFFFFFFF),
          .ok (some false)] ∧
      (Edit.run Edit.onScreen strayEdits blank).2.get 1 2 = .ok false ∧
      (Edit.run Edit.onScreen strayEdits blank).2.get 63 31 = .ok true ∧
      (63 + 31 * 64 : UInt64).toNat = 63 + 31 * 64 := by
  obtain ⟨hedits, hindex, -, -⟩ := screen_is_grid
  obtain ⟨hanswers, hshows⟩ := hedits strayEdits
  have hlast : InGrid (63, 31) := ⟨by decide, by decide⟩
  have hplace := hindex 63 31 _ hlast.index_eq
  exact ⟨hanswers, hshows 1 2 (by decide) (by decide), hshows 63 31 (by decide) (by decide), hplace.2.1⟩

end ChipEight.Screen
