import ChipEight.Proofs.Drawing

/-! # Sprites on top of one another

Each sprite is laid over the screen by exclusive or, whatever lies there already and wherever the sprites overlap or
wrap around. So a number of sprites leave the same screen in whatever order they are drawn, and drawing them all once
more, again in any order, takes them away. -/

namespace ChipEight

/-! ### Pixels in any order -/

namespace Screen
variable {ps qs : List (Nat × Nat)}

theorem overlaid_perm (s : Screen) (h : ps.Perm qs) (hps : ∀ p ∈ ps, InGrid p) : s.overlaid ps = s.overlaid qs := by
  have hqs : ∀ p ∈ qs, InGrid p := fun p hp => hps p (h.mem_iff.mpr hp)
  refine eq_of_lit fun q hq => ?_
  rw [lit_overlaid s hps hq, lit_overlaid s hqs hq, h.count_eq]

/-- Pixels that are flipped twice, in whatever orders, are as they were. -/
theorem overlaid_overlaid_of_perm (s : Screen) (h : ps.Perm qs) (hps : ∀ p ∈ ps, InGrid p) :
    (s.overlaid ps).overlaid qs = s := by
  have hqs : ∀ p ∈ qs, InGrid p := fun p hp => hps p (h.mem_iff.mpr hp)
  refine eq_of_lit fun q hq => ?_
  rw [lit_overlaid _ hqs hq, lit_overlaid s hps hq, h.count_eq, Bool.xor_assoc, Bool.xor_self, Bool.xor_false]

end Screen

/-! ### Requests -/

/-- A sprite of `n` rows to be drawn from memory at an index, at a column and a row. -/
structure DrawRequest where
  index : UInt16
  x : UInt8
  y : UInt8
  n : UInt8
  n_le : n.toNat ≤ 15
  inMemory : index.toNat + n.toNat ≤ Memory.capacity

namespace DrawRequest

/-- Sets the index, V0 and V1 and draws. -/
def perform (r : DrawRequest) : Faulting Cpu Unit := do
  Cpu.change ({ · with index := r.index })
  Cpu.setRegister 0 r.x
  Cpu.setRegister 1 r.y
  Cpu.draw 0 1 r.n

/-- Performs requests one after the other. -/
def performAll : List DrawRequest → Faulting Cpu Unit
  | [] => pure ()
  | r :: rest => do
    r.perform
    performAll rest

/-- The pixels that the set bits of the sprite fall on. -/
def points (m : Memory) (r : DrawRequest) : List (Nat × Nat) :=
  Sprite.points r.x.toNat r.y.toNat (m.bytes r.index.toNat r.n.toNat)

theorem n_le_height (r : DrawRequest) : r.n.toNat ≤ Screen.height :=
  Nat.le_trans r.n_le (by decide)

theorem inGrid_of_mem_points {m : Memory} {L : List DrawRequest} : ∀ p ∈ L.flatMap (points m), Screen.InGrid p := by
  intro p hp
  obtain ⟨r, -, hp⟩ := List.mem_flatMap.mp hp
  exact Sprite.inGrid_of_mem_points hp

/-- What performing a request makes of the screen, of memory and of the flag. -/
structure Performed (r : DrawRequest) (c c' : Cpu) : Prop where
  screen : c'.state.screen = c.state.screen.overlaid (r.points c.state.memory)
  memory : c'.state.memory = c.state.memory
  flag : c'.state.registers.value 15 = if c.state.screen.erases (r.points c.state.memory) then 1 else 0

theorem perform_ok (r : DrawRequest) (c : Cpu) : ∃ c', r.perform c = .ok () c' ∧ Performed r c c' := by
  have h0 : Registers.missing 0 = false := by decide
  have h1 : Registers.missing 1 = false := by decide
  -- What `draw` finds: the sprite's place is read back from the registers that it was put into.
  let placed : Cpu := { c with
    state.index := r.index
    state.registers := (c.state.registers.put 0 r.x).put 1 r.y }
  have hx : placed.state.registers.value 0 = r.x := by
    rw [Registers.value_put_of_ne _ _ (by decide), Registers.value_put_self _ _ h0]
  have hy : placed.state.registers.value 1 = r.y := Registers.value_put_self _ _ h1
  have hpoints : Instruction.spritePoints placed.state 0 1 r.n = r.points c.state.memory := by
    rw [Instruction.spritePoints_eq placed.state 0 1 r.n_le, hx, hy]
    rfl
  have hdraw := Cpu.draw_apply (c := placed) (x := 0) (y := 1) (by decide) (by decide) r.n_le r.inMemory
  refine ⟨(Instruction.draw 0 1 r.n).effect .idle placed, ?_, ?_, rfl, ?_⟩
  · rw [← hdraw]
    simp only [perform, bind_apply, Cpu.change_apply, Cpu.setRegister_apply, h0, h1, Bool.false_eq_true, if_false]
    rfl
  · rw [← hpoints]
    rfl
  · rw [← hpoints]
    exact Registers.value_setFlag_self _ _

theorem performAll_ok (L : List DrawRequest) (c : Cpu) :
    ∃ c', performAll L c = .ok () c' ∧ c'.state.screen = c.state.screen.overlaid (L.flatMap (points c.state.memory)) ∧
      c'.state.memory = c.state.memory := by
  induction L generalizing c with
  | nil => exact ⟨c, rfl, rfl, rfl⟩
  | cons r rest ih =>
    obtain ⟨d, hperform, P⟩ := perform_ok r c
    obtain ⟨c', hrest, hscreen, hmemory⟩ := ih d
    refine ⟨c', ?_, ?_, hmemory.trans P.memory⟩
    · rw [performAll, bind_apply, hperform]
      exact hrest
    · rw [hscreen, P.screen, P.memory, List.flatMap_cons, Screen.overlaid_append]

/-- The flag after a request tells whether a set bit of its sprite has fallen on a lit pixel. -/
theorem Performed.flag_iff {r : DrawRequest} {c c' : Cpu} (P : Performed r c c') :
    c'.state.registers.value 15 = 1 ↔ ∃ px py,
      c.state.memory.spriteBit r.index.toNat r.n.toNat r.x.toNat r.y.toNat (px, py) = true ∧
        c.state.screen.get px py = .ok true := by
  have hflag : c'.state.registers.value 15 = 1 ↔ c.state.screen.erases (r.points c.state.memory) = true := by
    rw [P.flag]
    split <;> simp [*]
  rw [hflag, points, c.state.screen.erases_sprite_iff r.n_le_height]
  constructor
  · rintro ⟨q, hq, hbit, hlit⟩
    exact ⟨q.1, q.2, hbit, Screen.get_eq_ok_iff.mpr ⟨hq, hlit⟩⟩
  · rintro ⟨px, py, hbit, hget⟩
    obtain ⟨hq, hlit⟩ := Screen.get_eq_ok_iff.mp hget
    exact ⟨_, hq, hbit, hlit⟩

/-- A request turns over each pixel that a set bit of its sprite falls on. -/
theorem Performed.get_iff {r : DrawRequest} {c c' : Cpu} (P : Performed r c c') {px py : Nat}
    (hbit : c.state.memory.spriteBit r.index.toNat r.n.toNat r.x.toNat r.y.toNat (px, py) = true) :
    c'.state.screen.get px py = .ok true ↔ c.state.screen.get px py = .ok false := by
  rw [Screen.get_eq_ok_iff, Screen.get_eq_ok_iff]
  refine and_congr_right fun hq => ?_
  rw [P.screen, points, Screen.lit_overlaid_sprite _ r.n_le_height hq, hbit, Bool.xor_true, Bool.not_eq_true']

/-- Sprites leave the same screen in whatever order they are drawn, and drawn again in any order they leave the screen
    that was there before. Of a sprite that is drawn twice the flag tells first whether a set bit has fallen on a lit
    pixel, and then whether one had fallen on a pixel that was not lit. -/
theorem sprites_commute {L L' : List DrawRequest} (h : L.Perm L') (c : Cpu) :
    (∃ d d' e, performAll L c = .ok () d ∧ performAll L' c = .ok () d' ∧ d'.state.screen = d.state.screen ∧
      performAll L' d = .ok () e ∧ e.state.screen = c.state.screen) ∧
    ∀ r : DrawRequest, ∃ d e, r.perform c = .ok () d ∧ r.perform d = .ok () e ∧
      (d.state.registers.value 15 = 1 ↔ ∃ px py,
        c.state.memory.spriteBit r.index.toNat r.n.toNat r.x.toNat r.y.toNat (px, py) = true ∧
          c.state.screen.get px py = .ok true) ∧
      (e.state.registers.value 15 = 1 ↔ ∃ px py,
        c.state.memory.spriteBit r.index.toNat r.n.toNat r.x.toNat r.y.toNat (px, py) = true ∧
          c.state.screen.get px py = .ok false) := by
  constructor
  · obtain ⟨d, hd, hscreen, hmemory⟩ := performAll_ok L c
    obtain ⟨d', hd', hscreen', -⟩ := performAll_ok L' c
    obtain ⟨e, he, hback, -⟩ := performAll_ok L' d
    have hpoints := h.flatMap_right (points c.state.memory)
    refine ⟨d, d', e, hd, hd', ?_, he, ?_⟩
    · rw [hscreen, hscreen', Screen.overlaid_perm _ hpoints inGrid_of_mem_points]
    · rw [hback, hscreen, hmemory, Screen.overlaid_overlaid_of_perm _ hpoints inGrid_of_mem_points]
  · intro r
    obtain ⟨d, hd, P⟩ := perform_ok r c
    obtain ⟨e, he, P'⟩ := perform_ok r d
    refine ⟨d, e, hd, he, P.flag_iff, ?_⟩
    rw [P'.flag_iff, P.memory]
    exact exists_congr fun px => exists_congr fun py => and_congr_right fun hbit => P.get_iff hbit

/-- The glyph of 0 across the corner of the screen. -/
def zero : DrawRequest where
  index := 0
  x := 62
  y := 31
  n := 5
  n_le := by decide
  inMemory := by decide

/-- The glyph of 1 on top of it. -/
def one : DrawRequest where
  index := 5
  x := 61
  y := 30
  n := 5
  n_le := by decide
  inMemory := by decide

theorem sprites_commute_glyphs :
    (∃ d d', performAll [zero, one] .corner = .ok () d ∧ performAll [one, zero] .corner = .ok () d' ∧
      d'.state.screen = d.state.screen) ∧
    ∃ d e, zero.perform .corner = .ok () d ∧ zero.perform d = .ok () e ∧
      d.state.registers.value 15 = 1 ∧ e.state.registers.value 15 = 1 := by
  obtain ⟨⟨d, d', -, hd, hd', hscreen, -⟩, htwice⟩ := sprites_commute (List.Perm.swap one zero []) Cpu.corner
  obtain ⟨a, b, ha, hb, hfirst, hsecond⟩ := htwice zero
  obtain ⟨hbit, hlit, hbit', hunlit⟩ : Cpu.corner.state.memory.spriteBit 0 5 62 31 (1, 31) = true ∧
      Cpu.corner.state.screen.get 1 31 = .ok true ∧ Cpu.corner.state.memory.spriteBit 0 5 62 31 (0, 31) = true ∧
      Cpu.corner.state.screen.get 0 31 = .ok false := by
    simp only [Screen.get_eq_ok_iff, Screen.InGrid]
    decide +kernel
  exact ⟨⟨d, d', hd, hd', hscreen⟩, a, b, ha, hb, hfirst.mpr ⟨1, 31, hbit, hlit⟩, hsecond.mpr ⟨0, 31, hbit', hunlit⟩⟩

end DrawRequest

end ChipEight
