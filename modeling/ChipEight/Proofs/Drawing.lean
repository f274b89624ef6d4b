import ChipEight.Proofs.Effect
import ChipEight.Proofs.Grid
import Mathlib.Data.List.Nodup

/-! # What a sprite draws

A sprite flips the pixels that its set bits fall on. It is neither wider nor taller than the screen, so wherever
it goes on at the opposite edge no two of its bits fall on one pixel, and none is flipped twice. The screen
afterwards is therefore the exclusive or of the screen before and the sprite, and a pixel has been erased on the
way just if some pixel was lit before and is not lit afterwards. -/

namespace ChipEight

/-! ### Flipped pixels -/

namespace Screen
variable {s t : Screen} {p q : Nat × Nat} {ps : List (Nat × Nat)}

/-- A pixel that is flipped an even number of times is as it was. -/
theorem lit_overlaid (s : Screen) (h : ∀ p ∈ ps, InGrid p) (hq : InGrid q) :
    (s.overlaid ps).lit q = (s.lit q ^^ decide (ps.count q % 2 = 1)) := by
  induction ps generalizing s with
  | nil => exact (Bool.xor_false _).symm
  | cons p rest ih =>
    obtain ⟨hp, hrest⟩ := List.forall_mem_cons.mp h
    have hcons : s.overlaid (p :: rest) = (s.toggled p).overlaid rest := rfl
    rw [hcons, ih _ hrest]
    by_cases hpq : p = q
    · subst hpq
      rw [lit_toggled_self s hp, List.count_cons_self]
      rcases Nat.mod_two_eq_zero_or_one (rest.count p) with heven | hodd
      · have hsucc : (rest.count p + 1) % 2 = 1 := by omega
        simp [heven, hsucc]
      · have hsucc : (rest.count p + 1) % 2 = 0 := by omega
        simp [hodd, hsucc]
    · rw [lit_toggled_of_ne s hp hq hpq, List.count_cons_of_ne hpq]

theorem lit_overlaid_of_nodup (s : Screen) (h : ∀ p ∈ ps, InGrid p) (hps : ps.Nodup) (hq : InGrid q) :
    (s.overlaid ps).lit q = (s.lit q ^^ decide (q ∈ ps)) := by
  rw [lit_overlaid s h hq, hps.count]
  by_cases hmem : q ∈ ps <;> simp [hmem]

/-- Of pixels that are flipped once each, none changes before its turn. -/
theorem erases_iff_of_nodup (s : Screen) (h : ∀ p ∈ ps, InGrid p) (hps : ps.Nodup) :
    s.erases ps = true ↔ ∃ p ∈ ps, s.lit p = true := by
  induction ps generalizing s with
  | nil => simp [erases]
  | cons p rest ih =>
    obtain ⟨hp, hrest⟩ := List.forall_mem_cons.mp h
    obtain ⟨hfresh, hnodup⟩ := List.nodup_cons.mp hps
    have hkept : ∀ q ∈ rest, (s.toggled p).lit q = s.lit q := by
      intro q hq
      refine lit_toggled_of_ne s hp (hrest q hq) ?_
      rintro rfl
      exact hfresh hq
    rw [erases, Bool.or_eq_true, ih _ hrest hnodup, List.exists_mem_cons_iff]
    refine or_congr_right (exists_congr fun q => and_congr_right fun hq => ?_)
    rw [hkept q hq]

/-- A pixel that was lit before and is not lit afterwards. -/
def Erased (s t : Screen) : Prop := ∃ x y, s.get x y = .ok true ∧ t.get x y = .ok false

theorem erased_iff : Erased s t ↔ ∃ q, InGrid q ∧ s.lit q = true ∧ t.lit q = false := by
  constructor
  · rintro ⟨x, y, hs, ht⟩
    obtain ⟨hgrid, hlit⟩ := get_eq_ok_iff.mp hs
    exact ⟨(x, y), hgrid, hlit, (get_eq_ok_iff.mp ht).2⟩
  · rintro ⟨⟨x, y⟩, hgrid, hs, ht⟩
    exact ⟨x, y, get_eq_ok_iff.mpr ⟨hgrid, hs⟩, get_eq_ok_iff.mpr ⟨hgrid, ht⟩⟩

end Screen

/-! ### The bits of a sprite -/

/-- The bit that falls on a pixel of a sprite whose rows are the `n` bytes from `start` on and whose upper left
    corner is at column `x` and row `y`. -/
def Memory.spriteBit (m : Memory) (start n x y : Nat) (p : Nat × Nat) : Bool :=
  let c := ((p.1 - x : Int) % 64).toNat
  let r := ((p.2 - y : Int) % 32).toNat
  c < 8 && r < n && (m.byte (start + r)).toNat.testBit (7 - c)

namespace Sprite
variable {m : Memory} {start n x y : Nat} {p : Nat × Nat}

theorem mem_columns {row : UInt8} {c : Nat} : c ∈ columns row ↔ c < 8 ∧ row.toNat.testBit (7 - c) = true := by
  rw [columns, List.mem_filter, List.mem_range]

theorem mem_points_bytes_iff (hn : n ≤ Screen.height) (hp : Screen.InGrid p) :
    p ∈ points x y (m.bytes start n) ↔ m.spriteBit start n x y p = true := by
  have hpx : p.1 < 64 := hp.1
  have hpy : p.2 < 32 := hp.2
  simp only [points_bytes, rowPoints, List.mem_flatMap, List.mem_map, List.mem_range, mem_columns, Memory.spriteBit,
    Bool.and_eq_true, decide_eq_true_eq]
  constructor
  · rintro ⟨r, hr, c, ⟨hc, hbit⟩, rfl⟩
    have hcolumn : (((((x + c) % 64 : Nat) : Int) - x) % 64).toNat = c := by omega
    have hrow : (((((y + r) % 32 : Nat) : Int) - y) % 32).toNat = r := by
      simp only [Screen.height] at hn
      omega
    rw [hcolumn, hrow]
    exact ⟨⟨hc, hr⟩, hbit⟩
  · rintro ⟨⟨hc, hr⟩, hbit⟩
    refine ⟨_, hr, _, ⟨hc, hbit⟩, Prod.ext ?_ ?_⟩
    · simp only [Screen.width]
      omega
    · simp only [Screen.height]
      omega

theorem nodup_rowPoints (x y r : Nat) (row : UInt8) : (rowPoints x y r row).Nodup := by
  refine List.Nodup.map_on ?_ (List.nodup_range.filter _)
  intro c hc c' hc' heq
  have hlt := (mem_columns.mp hc).1
  have hlt' := (mem_columns.mp hc').1
  have hcolumn := congrArg Prod.fst heq
  simp only [Screen.width] at hcolumn
  omega

/-- No two bits of a sprite fall on one pixel. -/
theorem nodup_points_bytes (m : Memory) (start x y : Nat) (hn : n ≤ Screen.height) :
    (points x y (m.bytes start n)).Nodup := by
  rw [points_bytes, List.nodup_flatMap]
  refine ⟨fun r _ => nodup_rowPoints _ _ _ _, List.pairwise_lt_range.imp_of_mem ?_⟩
  intro r r' hr hr' hlt p hp hp'
  obtain ⟨c, -, rfl⟩ := List.mem_map.mp hp
  obtain ⟨c', -, heq⟩ := List.mem_map.mp hp'
  have hrow := congrArg Prod.snd heq
  rw [List.mem_range] at hr hr'
  simp only [Screen.height] at hrow hn
  omega

end Sprite

namespace Screen
variable {m : Memory} {start n x y : Nat} {q : Nat × Nat}

theorem lit_overlaid_sprite (s : Screen) (hn : n ≤ height) (hq : InGrid q) :
    (s.overlaid (Sprite.points x y (m.bytes start n))).lit q = (s.lit q ^^ m.spriteBit start n x y q) := by
  rw [lit_overlaid_of_nodup s (fun _ => Sprite.inGrid_of_mem_points) (Sprite.nodup_points_bytes _ _ _ _ hn) hq,
    decide_eq_decide.mpr (Sprite.mem_points_bytes_iff hn hq), Bool.decide_coe]

theorem erases_sprite_iff (s : Screen) (hn : n ≤ height) :
    s.erases (Sprite.points x y (m.bytes start n)) = true ↔
      ∃ q, InGrid q ∧ m.spriteBit start n x y q = true ∧ s.lit q = true := by
  rw [erases_iff_of_nodup s (fun _ => Sprite.inGrid_of_mem_points) (Sprite.nodup_points_bytes _ _ _ _ hn)]
  constructor
  · rintro ⟨q, hmem, hlit⟩
    have hq := Sprite.inGrid_of_mem_points hmem
    exact ⟨q, hq, (Sprite.mem_points_bytes_iff hn hq).mp hmem, hlit⟩
  · rintro ⟨q, hq, hbit, hlit⟩
    exact ⟨q, (Sprite.mem_points_bytes_iff hn hq).mpr hbit, hlit⟩

/-- Pixels are erased just if some pixel that was lit no longer is. -/
theorem erases_sprite_iff_erased (s : Screen) (hn : n ≤ height) :
    s.erases (Sprite.points x y (m.bytes start n)) = true ↔
      s.Erased (s.overlaid (Sprite.points x y (m.bytes start n))) := by
  rw [erases_sprite_iff s hn, erased_iff]
  refine exists_congr fun q => and_congr_right fun hq => ?_
  rw [lit_overlaid_sprite s hn hq]
  cases s.lit q <;> simp

end Screen

/-! ### Drawing -/

theorem Instruction.spritePoints_eq (s : State) (x y : UInt8) {n : UInt8} (hn : n.toNat ≤ 15) :
    spritePoints s x y n = Sprite.points (s.registers.value x).toNat (s.registers.value y).toNat
      (s.memory.bytes s.index.toNat n.toNat) := by
  rw [spritePoints, Nat.mod_eq_of_lt (Nat.lt_succ_of_le hn)]

namespace Cpu

/-- What is drawn from `c` to `c'` by the sprite of `n` rows from the index on, at the column and row that were in
    `Vx` and `Vy`. -/
structure Drawn (c : Cpu) (x y n : UInt8) (c' : Cpu) : Prop where
  pixel : ∀ px py, px < 64 → py < 32 → ∃ lit, c.state.screen.get px py = .ok lit ∧
    c'.state.screen.get px py = .ok (lit ^^ c.state.memory.spriteBit c.state.index.toNat n.toNat
      (c.state.registers.value x).toNat (c.state.registers.value y).toNat (px, py))
  flag_of_erased : c.state.screen.Erased c'.state.screen → c'.state.registers.value 15 = 1
  flag_of_not_erased : ¬c.state.screen.Erased c'.state.screen → c'.state.registers.value 15 = 0
  redraw : c'.state.redraw = true
  register : ∀ k, k ≠ 15 → c'.state.registers.value k = c.state.registers.value k
  other : c' = { c with state.registers := c'.state.registers, state.screen := c'.state.screen,
                        state.redraw := c'.state.redraw }

theorem draw_apply {c : Cpu} {x y n : UInt8} (hx : x.toNat ≤ 15) (hy : y.toNat ≤ 15) (hn : n.toNat ≤ 15)
    (hrange : c.state.index.toNat + n.toNat ≤ Memory.capacity) :
    draw x y n c = .ok () ((Instruction.draw x y n).effect .idle c) := by
  have hmissing : ∀ {i : UInt8}, i.toNat ≤ 15 → Registers.missing i = false := fun hi =>
    Registers.missing_eq_false_iff.mpr (Nat.lt_succ_of_le hi)
  have hheight : n.toNat % 16 = n.toNat := Nat.mod_eq_of_lt (Nat.lt_succ_of_le hn)
  have hfault : (Instruction.draw x y n).fault? c.state = none := by
    simp [Instruction.fault?, hmissing hx, hmissing hy, hheight, hrange]
  exact execute_of_fault?_eq_none .idle hfault

/-- What a sprite draws is the exclusive or of the screen and its bits, pixel by pixel. The flag tells whether a lit
    pixel has been put out. Nothing else is changed but the mark that the screen has to be shown again. -/
theorem draw_pixels {c : Cpu} {x y n : UInt8} (hx : x.toNat ≤ 15) (hy : y.toNat ≤ 15) (hn : n.toNat ≤ 15)
    (hrange : c.state.index.toNat + n.toNat ≤ Memory.capacity) :
    ∃ c', draw x y n c = .ok () c' ∧ Drawn c x y n c' := by
  have hheight : n.toNat ≤ Screen.height := Nat.le_trans hn (by decide)
  have hpoints := Instruction.spritePoints_eq c.state x y hn
  have herased : c.state.screen.erases (Instruction.spritePoints c.state x y n) = true ↔
      c.state.screen.Erased (c.state.screen.overlaid (Instruction.spritePoints c.state x y n)) := by
    rw [hpoints]
    exact Screen.erases_sprite_iff_erased _ hheight
  have hflag : ∀ erased, c.state.screen.erases (Instruction.spritePoints c.state x y n) = erased →
      ((Instruction.draw x y n).effect .idle c).state.registers.value 15 = if erased then 1 else 0 := by
    rintro erased rfl
    exact Registers.value_setFlag_self _ _
  refine ⟨_, draw_apply hx hy hn hrange, ?_, ?_, ?_, rfl, ?_, rfl⟩
  · intro px py hpx hpy
    have hgrid : Screen.InGrid (px, py) := ⟨hpx, hpy⟩
    refine ⟨_, Screen.get_of_inGrid _ hgrid, ?_⟩
    rw [Screen.get_of_inGrid _ hgrid, ← Screen.lit_overlaid_sprite _ hheight hgrid, ← hpoints]
    rfl
  · intro h
    exact hflag true (herased.mpr h)
  · intro h
    exact hflag false (Bool.eq_false_iff.mpr fun herases => h (herased.mp herases))
  · intro k hk
    exact Registers.value_setFlag_of_ne _ _ hk

/-- The glyph of 0 is to be drawn across the corner of a screen with one lit pixel. Its column is in the register that
    becomes the flag. -/
def corner : Cpu where
  state :=
    { registers := (Registers.zero.put 15 62).put 3 31, screen := Screen.blank.toggled (1, 31) }
  random := .ofArray #[]

theorem draw_pixels_corner :
    ∃ c', draw 15 3 5 corner = .ok () c' ∧ c'.state.screen.get 1 31 = .ok false ∧
      c'.state.registers.value 15 = 1 := by
  obtain ⟨c', hdraw, D⟩ := draw_pixels (c := corner) (x := 15) (y := 3) (n := 5) (by decide) (by decide) (by decide)
    (by decide)
  obtain ⟨lit, hbefore, hafter⟩ := D.pixel 1 31 (by decide) (by decide)
  obtain ⟨hlit, hbit⟩ : corner.state.screen.lit (1, 31) = true ∧
      corner.state.memory.spriteBit corner.state.index.toNat 5 (corner.state.registers.value 15).toNat
        (corner.state.registers.value 3).toNat (1, 31) = true := by decide +kernel
  obtain ⟨-, rfl⟩ := Screen.get_eq_ok_iff.mp hbefore
  have hout : c'.state.screen.get 1 31 = .ok false := by
    rw [hafter, hlit]
    exact congrArg (fun bit => Except.ok (true ^^ bit)) hbit
  rw [hlit] at hbefore
  exact ⟨c', hdraw, hout, D.flag_of_erased ⟨1, 31, hbefore, hout⟩⟩

end Cpu

end ChipEight
