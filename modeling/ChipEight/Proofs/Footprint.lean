import ChipEight.Proofs.Step

/-! # What a step writes

Every field of the state is written by few instructions only, and all others leave it as it was. Memory and
the registers are written within bounds that the instruction sets: the bytes from the index on that a store
puts there, and the register that an instruction names, the flag, or the registers up to one that a load
names. -/

namespace ChipEight

/-! ### Forms that write a field -/

/-- Whether an opcode has one of some forms. -/
def Opcode.FitsAny (op : Opcode) (forms : List Form) : Prop := ∃ form ∈ forms, op.fits form

namespace Form

/-- The instructions that put their result into `Vx`. -/
def intoRegister : List Form :=
  ["6XKK", "7XKK", "8XY0", "8XY1", "8XY2", "8XY3", "8XY4", "8XY5", "8XY6", "8XY7", "8XYE", "CXKK", "FX07", "FX0A"]

/-- The instructions that put a carry, a borrow, a bit shifted out or a collision into VF. -/
def intoFlag : List Form := ["8XY4", "8XY5", "8XY6", "8XY7", "8XYE", "DXYN"]

end Form

namespace Instruction
variable {op : Opcode} {s : State} {i : Instruction}

/-- Whether an instruction has one of some forms. -/
def HasForm (i : Instruction) (forms : List Form) : Prop := ∃ form ∈ forms, i.form? = some form

theorem HasForm.fitsAny {forms : List Form} (h : op.decode.HasForm forms) : op.FitsAny forms := by
  obtain ⟨form, hmem, hform⟩ := h
  exact ⟨form, hmem, Opcode.fits_of_form? hform⟩

theorem HasForm.fits {form : Form} (h : op.decode.HasForm [form]) : op.fits form := by
  obtain ⟨_, hmem, hfits⟩ := h.fitsAny
  rwa [List.mem_singleton.mp hmem] at hfits

theorem hasForm_of_indexAfter_ne (h : i.indexAfter s ≠ s.index) : i.HasForm ["ANNN", "FX1E", "FX29"] := by
  cases i with
  | loadIndex | addIndex | loadGlyph => exact ⟨_, by decide, rfl⟩
  | _ => exact absurd rfl h

theorem hasForm_of_stackAfter_ne (h : i.stackAfter s ≠ s.stack) : i.HasForm ["2NNN", "00EE"] := by
  cases i with
  | call | ret => exact ⟨_, by decide, rfl⟩
  | _ => exact absurd rfl h

theorem hasForm_of_delayAfter_ne (h : i.delayAfter s ≠ s.delay) : i.HasForm ["FX15"] := by
  cases i with
  | setDelay => exact ⟨_, by decide, rfl⟩
  | _ => exact absurd rfl h

theorem hasForm_of_soundAfter_ne (h : i.soundAfter s ≠ s.sound) : i.HasForm ["FX18"] := by
  cases i with
  | setSound => exact ⟨_, by decide, rfl⟩
  | _ => exact absurd rfl h

theorem hasForm_of_draws (h : i.draws = true) : i.HasForm ["00E0", "DXYN"] := by
  cases i with
  | clear | draw => exact ⟨_, by decide, rfl⟩
  | _ => cases h

theorem hasForm_of_screenAfter_ne (h : i.screenAfter s ≠ s.screen) : i.HasForm ["00E0", "DXYN"] := by
  cases i with
  | clear | draw => exact ⟨_, by decide, rfl⟩
  | _ => exact absurd rfl h

theorem hasForm_of_isRandom (h : i.isRandom = true) : i.HasForm ["CXKK"] := by
  cases i with
  | random => exact ⟨_, by decide, rfl⟩
  | _ => cases h

/-- The first register that an instruction names is the one that the second digit of its opcode numbers. -/
theorem OperandsOf.eq_x (h : i.OperandsOf op) : ∀ x ∈ i.registers.head?, x = op.x := by
  cases i <;> simp_all [OperandsOf]

theorem register_of_registersAfter_ne {keys : KeySource} {b k : UInt8} (hoperands : i.OperandsOf op)
    (h : (i.registersAfter keys s b).value k ≠ s.registers.value k) :
    i.HasForm Form.intoRegister ∧ k = op.x ∨ i.HasForm ["FX65"] ∧ k ≤ op.x ∨ i.HasForm Form.intoFlag ∧ k = 0xF := by
  cases i with
  | loadByte x | addByte x | move x | or x | and x | xor x | random x | readDelay x =>
    obtain rfl := hoperands.eq_x x rfl
    exact .inl ⟨⟨_, by decide, rfl⟩, Registers.eq_of_value_put_ne h⟩
  | waitKey x =>
    obtain rfl := hoperands.eq_x x rfl
    cases hkey : keys.firstDown with
    | none =>
      simp only [registersAfter, hkey, Option.elim_none] at h
      exact absurd rfl h
    | some key =>
      simp only [registersAfter, hkey, Option.elim_some] at h
      exact .inl ⟨⟨_, by decide, rfl⟩, Registers.eq_of_value_put_ne h⟩
  | add x | sub x | shiftRight x | subFrom x | shiftLeft x =>
    obtain rfl := hoperands.eq_x x rfl
    rcases Registers.eq_of_value_setFlag_ne h with hk | h
    · exact .inr (.inr ⟨⟨_, by decide, rfl⟩, hk⟩)
    · exact .inl ⟨⟨_, by decide, rfl⟩, Registers.eq_of_value_put_ne h⟩
  | draw =>
    rcases Registers.eq_of_value_setFlag_ne h with hk | h
    · exact .inr (.inr ⟨⟨_, by decide, rfl⟩, hk⟩)
    · exact absurd rfl h
  | loadRegisters x =>
    obtain rfl := hoperands.eq_x x rfl
    refine .inr (.inl ⟨⟨_, by decide, rfl⟩, UInt8.not_lt.mp fun hlt => h ?_⟩)
    refine Registers.value_load_of_length_le _ ?_
    rw [Memory.length_bytes]
    exact UInt8.lt_iff_toNat_lt.mp hlt
  | _ => exact absurd rfl h

theorem address_of_store_ne {a : Nat} (hoperands : i.OperandsOf op)
    (h : (s.memory.store s.index.toNat (i.stored s)).byte a ≠ s.memory.byte a) :
    i.HasForm ["FX33"] ∧ s.index.toNat ≤ a ∧ a < s.index.toNat + 3 ∨
      i.HasForm ["FX55"] ∧ s.index.toNat ≤ a ∧ a ≤ s.index.toNat + op.x.toNat := by
  obtain ⟨hle, hlt⟩ := Memory.window_of_byte_store_ne h
  cases i with
  | storeDecimal x => exact .inl ⟨⟨_, by decide, rfl⟩, hle, hlt⟩
  | storeRegisters x =>
    obtain rfl := hoperands.eq_x x rfl
    have hlength : (s.registers.upTo op.x).length ≤ op.x.toNat + 1 := List.length_take_le _ _
    simp only [stored] at hlt
    exact .inr ⟨⟨_, by decide, rfl⟩, hle, by omega⟩
  | _ => exact absurd rfl h

end Instruction

/-! ### The footprint of a step -/

namespace Machine

/-- What a step from `m` to `m'` may have changed, told by the word that it executes. -/
structure Footprint (m m' : Machine) : Prop where
  memory : ∀ a, m'.state.memory.byte a ≠ m.state.memory.byte a →
    m.state.nextWord.fits "FX33" ∧ m.state.index.toNat ≤ a ∧ a < m.state.index.toNat + 3 ∨
      m.state.nextWord.fits "FX55" ∧ m.state.index.toNat ≤ a ∧ a ≤ m.state.index.toNat + m.state.nextWord.x.toNat
  screen : m'.state.screen ≠ m.state.screen → m.state.nextWord.FitsAny ["00E0", "DXYN"]
  redraw : m'.state.redraw ≠ m.state.redraw → m.state.nextWord.FitsAny ["00E0", "DXYN"]
  stack : m'.state.stack ≠ m.state.stack → m.state.nextWord.FitsAny ["2NNN", "00EE"]
  delay : m'.state.delay ≠ m.state.delay → m.state.nextWord.fits "FX15"
  sound : m'.state.sound ≠ m.state.sound → m.state.nextWord.fits "FX18"
  index : m'.state.index ≠ m.state.index → m.state.nextWord.FitsAny ["ANNN", "FX1E", "FX29"]
  random : m'.random ≠ m.random → m.state.nextWord.fits "CXKK"
  /-- A register changes as the one that the result goes to, as one of those that are loaded, or as the flag. -/
  register : ∀ k, m'.state.registers.value k ≠ m.state.registers.value k →
    m.state.nextWord.FitsAny Form.intoRegister ∧ k = m.state.nextWord.x ∨
      m.state.nextWord.fits "FX65" ∧ k ≤ m.state.nextWord.x ∨
      m.state.nextWord.FitsAny Form.intoFlag ∧ k = 0xF

theorem footprint_advanced (keys : KeySource) (m : Machine) : Footprint m (m.advanced keys) where
  memory a hne := by
    have hoperands := m.state.nextWord.operandsOf_decode
    rcases Instruction.address_of_store_ne (s := m.state.fetched) hoperands hne with ⟨hform, ha⟩ | ⟨hform, ha⟩
    · exact .inl ⟨hform.fits, ha⟩
    · exact .inr ⟨hform.fits, ha⟩
  screen hne := (Instruction.hasForm_of_screenAfter_ne (s := m.state.fetched) hne).fitsAny
  redraw hne := by
    cases hdraws : m.state.nextInstruction.draws with
    | true => exact (Instruction.hasForm_of_draws hdraws).fitsAny
    | false =>
      have hredraw : (m.advanced keys).state.redraw = (m.state.nextInstruction.draws || m.state.redraw) := rfl
      rw [hredraw, hdraws, Bool.false_or] at hne
      exact absurd rfl hne
  stack hne := (Instruction.hasForm_of_stackAfter_ne (s := m.state.fetched) hne).fitsAny
  delay hne := (Instruction.hasForm_of_delayAfter_ne (s := m.state.fetched) hne).fits
  sound hne := (Instruction.hasForm_of_soundAfter_ne (s := m.state.fetched) hne).fits
  index hne := (Instruction.hasForm_of_indexAfter_ne (s := m.state.fetched) hne).fitsAny
  random hne := by
    cases hrandom : m.state.nextInstruction.isRandom with
    | true => exact (Instruction.hasForm_of_isRandom hrandom).fits
    | false =>
      have hsame : (m.advanced keys).random =
          if m.state.nextInstruction.isRandom then m.random.advance else m.random := rfl
      rw [hsame, hrandom] at hne
      exact absurd rfl hne
  register k hne := by
    have hoperands := m.state.nextWord.operandsOf_decode
    rcases Instruction.register_of_registersAfter_ne (s := m.state.fetched) hoperands hne with
      ⟨hform, hk⟩ | ⟨hform, hk⟩ | ⟨hform, hk⟩
    · exact .inl ⟨hform.fitsAny, hk⟩
    · exact .inr (.inl ⟨hform.fits, hk⟩)
    · exact .inr (.inr ⟨hform.fitsAny, hk⟩)

theorem footprint_of_step {m m' : Machine} {keys : KeySource} (h : m.step keys = .ok () m') : Footprint m m' := by
  obtain ⟨-, -, rfl⟩ := step_eq_ok_iff.mp h
  exact footprint_advanced keys m

end Machine

end ChipEight
