import ChipEight.Proofs.MemoryRanges
import ChipEight.Proofs.Step

/-! # Registers in memory

The registers from V0 on are stored as a block of bytes from the index on and loaded from such a block, and so are
the digits of a register. A block that has been stored is loaded again whatever has happened to the registers in
the meantime, and a block that has been loaded is stored again where it already is. -/

namespace ChipEight

/-! ### Blocks of bytes -/

namespace Registers
variable {x : UInt8}

theorem upTo_load (r : Registers) {bytes : List UInt8} (hx : missing x = false) (h : bytes.length = x.toNat + 1) :
    (r.load bytes).upTo x = bytes := by
  refine List.ext_getElem ?_ fun i hi hi' => ?_
  · rw [length_upTo _ hx, h]
  · simp only [upTo, load, List.getElem_take, Vector.getElem_toList, Vector.getElem_ofFn]
    rw [List.getD_eq_getElem?_getD, List.getElem?_eq_getElem hi', Option.getD_some]

end Registers

/-! ### The digits of a byte -/

namespace Cpu

theorem decimalDigits_eq (b : UInt8) :
    ∃ d₂ d₁ d₀ : UInt8, decimalDigits b = [d₂, d₁, d₀] ∧ d₂ ≤ 9 ∧ d₁ ≤ 9 ∧ d₀ ≤ 9 ∧
      100 * d₂.toNat + 10 * d₁.toNat + d₀.toNat = b.toNat := by
  have hb := b.toNat_lt
  refine ⟨_, _, _, rfl, ?_, ?_, ?_, ?_⟩
  all_goals simp only [UInt8.le_iff_toNat_le, UInt8.toNat_mod, UInt8.toNat_div, UInt8.reduceToNat]
  all_goals omega

/-! ### Storing and loading -/

variable {c : Cpu} {x : UInt8}

theorem execute_of_span (keys : KeySource) {i : Instruction} {n : Nat} (hregisters : i.registers = [x])
    (hspan : i.span = some n) (hx : Registers.missing x = false) (h : c.state.index.toNat + n ≤ Memory.capacity) :
    execute keys i c = .ok () (i.effect keys c) := by
  refine execute_of_fault?_eq_none keys ?_
  have hpresent : ∀ r ∈ i.registers, Registers.missing r = false := by
    rw [hregisters]
    exact List.forall_mem_singleton.mpr hx
  rw [Instruction.fault?_of_span hpresent hspan, if_pos h]

theorem execute_storeRegisters (keys : KeySource) (hx : Registers.missing x = false)
    (h : c.state.index.toNat + x.toNat ≤ 4095) :
    execute keys (.storeRegisters x) c = .ok () { c with
      state.memory := c.state.memory.store c.state.index.toNat (c.state.registers.upTo x) } := by
  rw [execute_of_span keys rfl rfl hx (Nat.succ_le_succ h)]
  rfl

theorem execute_loadRegisters (keys : KeySource) (hx : Registers.missing x = false)
    (h : c.state.index.toNat + x.toNat ≤ 4095) :
    execute keys (.loadRegisters x) c = .ok () { c with
      state.registers :=
        c.state.registers.load (c.state.memory.bytes c.state.index.toNat (x.toNat + 1)) } := by
  rw [execute_of_span keys rfl rfl hx (Nat.succ_le_succ h)]
  rfl

theorem execute_storeDecimal (keys : KeySource) (hx : Registers.missing x = false)
    (h : c.state.index.toNat + 3 ≤ 4096) :
    execute keys (.storeDecimal x) c = .ok () { c with
      state.memory := c.state.memory.store c.state.index.toNat (decimalDigits (c.state.registers.value x)) } := by
  rw [execute_of_span keys rfl rfl hx h]
  rfl

/-- What storing V0 up to `Vx` makes of memory. Nothing else is changed. -/
structure BlockStored (c : Cpu) (x : UInt8) (c' : Cpu) : Prop where
  byte : ∀ j, j ≤ x → c'.state.memory.byte (c.state.index.toNat + j.toNat) = c.state.registers.value j
  outside : ∀ a, a < c.state.index.toNat ∨ c.state.index.toNat + x.toNat < a →
    c'.state.memory.byte a = c.state.memory.byte a
  other : c' = { c with state.memory := c'.state.memory }

/-- V0 up to `Vx` are loaded and have the values that they have in `r`. Nothing else is changed. -/
structure BlockRestored (r : Registers) (c : Cpu) (x : UInt8) (c' : Cpu) : Prop where
  register : ∀ k, k ≤ x → c'.state.registers.value k = r.value k
  above : ∀ k, x < k → c'.state.registers.value k = c.state.registers.value k
  other : c' = { c with state.registers := c'.state.registers }

theorem store_block (keys : KeySource) (hx : Registers.missing x = false) (h : c.state.index.toNat + x.toNat ≤ 4095) :
    ∃ c', execute keys (.storeRegisters x) c = .ok () c' ∧ BlockStored c x c' := by
  refine ⟨_, execute_storeRegisters keys hx h, fun j hj => ?_, fun a ha => ?_, rfl⟩
  · have hj' : j.toNat ≤ x.toNat := UInt8.le_iff_toNat_le.mp hj
    have hrange : c.state.index.toNat + j.toNat < Memory.capacity := by
      simp only [Memory.capacity]
      omega
    exact Memory.byte_store_of_getElem? _ (c.state.registers.getElem?_upTo hx hj) hrange
  · refine Memory.byte_store_of_outside _ (ha.imp_right fun ha => ?_)
    rw [Registers.length_upTo _ hx]
    omega

/-- Where memory holds the registers of a block, loading the block or a part of it from V0 on gives them back. -/
theorem load_block {r : Registers} (keys : KeySource) (hx : Registers.missing x = false)
    (h : c.state.index.toNat + x.toNat ≤ 4095)
    (hbyte : ∀ j, j ≤ x → c.state.memory.byte (c.state.index.toNat + j.toNat) = r.value j) :
    ∃ c', execute keys (.loadRegisters x) c = .ok () c' ∧ BlockRestored r c x c' := by
  have hx' := Registers.missing_eq_false_iff.mp hx
  refine ⟨_, execute_loadRegisters keys hx h, fun k hk => ?_, fun k hk => ?_, rfl⟩
  · have hk' : k.toNat ≤ x.toNat := UInt8.le_iff_toNat_le.mp hk
    have hmissing : Registers.missing k = false :=
      Registers.missing_eq_false_iff.mpr (Nat.lt_of_le_of_lt hk' hx')
    rw [Registers.value_load _ _ hmissing, List.getD_eq_getElem?_getD,
      Memory.getElem?_bytes _ _ (Nat.lt_succ_of_le hk'), Option.getD_some]
    exact hbyte k hk
  · refine Registers.value_load_of_length_le _ ?_
    rw [Memory.length_bytes]
    exact UInt8.lt_iff_toNat_lt.mp hk

theorem load_then_store (keys keys' : KeySource) (hx : Registers.missing x = false)
    (h : c.state.index.toNat + x.toNat ≤ 4095) :
    ∃ d e, execute keys (.loadRegisters x) c = .ok () d ∧ execute keys' (.storeRegisters x) d = .ok () e ∧
      d = { c with state.registers := d.state.registers } ∧ e = { c with state.registers := e.state.registers } ∧
      ∀ k, x < k → e.state.registers.value k = c.state.registers.value k := by
  have hlength := c.state.memory.length_bytes c.state.index.toNat (x.toNat + 1)
  refine ⟨_, _, execute_loadRegisters keys hx h, execute_storeRegisters keys' hx h, rfl, ?_, fun k hk => ?_⟩
  · simp only [Registers.upTo_load _ hx hlength, Memory.store_bytes]
  · refine Registers.value_load_of_length_le _ ?_
    rw [hlength]
    exact UInt8.lt_iff_toNat_lt.mp hk

theorem store_digits_then_load (keys keys' : KeySource) (hx : Registers.missing x = false)
    (h : c.state.index.toNat + 3 ≤ 4096) :
    ∃ d e, execute keys (.storeDecimal x) c = .ok () d ∧ execute keys' (.loadRegisters 2) d = .ok () e ∧
      d = { c with state.memory := d.state.memory } ∧
      e = { c with state.registers := e.state.registers, state.memory := e.state.memory } ∧
      e.state.registers = c.state.registers.load (decimalDigits (c.state.registers.value x)) := by
  have hindex : c.state.index.toNat + (2 : UInt8).toNat ≤ 4095 := by
    have htwo : (2 : UInt8).toNat = 2 := rfl
    omega
  refine ⟨_, _, execute_storeDecimal keys hx h, execute_loadRegisters keys' (by decide) hindex, rfl, rfl, ?_⟩
  exact congrArg c.state.registers.load (Memory.bytes_store _ h)

/-- V0 up to a register come back from the block that they have been stored as, all of them or those up to a lower
    register, and everything around them is left alone. Storing what has just been loaded changes no memory. The digits
    of a register come back in V0, V1 and V2. -/
theorem registers_through_memory :
    (∀ (op : Opcode) (keys : KeySource) (c : Cpu), op.fits "FX55" → c.state.index.toNat + op.x.toNat ≤ 4095 →
      ∃ c', execute keys op.decode c = .ok () c' ∧ BlockStored c op.x c' ∧
        ∀ (op' : Opcode) (keys' : KeySource) (d : Cpu), op'.fits "FX65" → op'.x ≤ op.x →
          d.state.index = c'.state.index →
          (∀ j, j ≤ op.x → d.state.memory.byte (c.state.index.toNat + j.toNat) =
            c'.state.memory.byte (c.state.index.toNat + j.toNat)) →
          ∃ e, execute keys' op'.decode d = .ok () e ∧ BlockRestored c.state.registers d op'.x e) ∧
    (∀ (load store : Opcode) (keys keys' : KeySource) (c : Cpu), load.fits "FX65" → store.fits "FX55" →
      store.x = load.x → c.state.index.toNat + load.x.toNat ≤ 4095 →
      ∃ d e, execute keys load.decode c = .ok () d ∧ execute keys' store.decode d = .ok () e ∧
        d = { c with state.registers := d.state.registers } ∧ e = { c with state.registers := e.state.registers } ∧
        ∀ k, load.x < k → e.state.registers.value k = c.state.registers.value k) ∧
    ∀ (op : Opcode) (keys keys' : KeySource) (c : Cpu), op.fits "FX33" → c.state.index.toNat + 3 ≤ 4096 →
      ∃ d e d₂ d₁ d₀, execute keys op.decode c = .ok () d ∧ execute keys' (Opcode.decode 0xF265) d = .ok () e ∧
        d = { c with state.memory := d.state.memory } ∧
        e = { c with state.registers := e.state.registers, state.memory := e.state.memory } ∧
        e.state.registers.value 0 = d₂ ∧ e.state.registers.value 1 = d₁ ∧ e.state.registers.value 2 = d₀ ∧
        d₂ ≤ 9 ∧ d₁ ≤ 9 ∧ d₀ ≤ 9 ∧
        100 * d₂.toNat + 10 * d₁.toNat + d₀.toNat = (c.state.registers.value op.x).toNat := by
  have decode_store : ∀ {op : Opcode}, op.fits "FX55" → op.decode = .storeRegisters op.x := fun h =>
    Opcode.decode_of_fits h rfl (by decide) rfl
  have decode_load : ∀ {op : Opcode}, op.fits "FX65" → op.decode = .loadRegisters op.x := fun h =>
    Opcode.decode_of_fits h rfl (by decide) rfl
  refine ⟨?_, ?_, ?_⟩
  · intro op keys c hop h
    obtain ⟨c', hstore, S⟩ := store_block keys op.missing_x h
    refine ⟨c', by rwa [decode_store hop], S, ?_⟩
    intro op' keys' d hop' hx hindex hbyte
    have hindex' : d.state.index = c.state.index := by rw [hindex, S.other]
    have hx' : op'.x.toNat ≤ op.x.toNat := UInt8.le_iff_toNat_le.mp hx
    rw [decode_load hop']
    refine load_block keys' op'.missing_x ?_ fun j hj => ?_
    · rw [hindex']
      omega
    · have hj' := UInt8.le_trans hj hx
      rw [hindex', hbyte j hj', S.byte j hj']
  · intro load store keys keys' c hload hstore hx h
    rw [decode_load hload, decode_store hstore, hx]
    exact load_then_store keys keys' load.missing_x h
  · intro op keys keys' c hop h
    have hop' : op.decode = .storeDecimal op.x := Opcode.decode_of_fits hop rfl (by decide) rfl
    obtain ⟨d, e, hstore, hload, hbetween, hother, hregisters⟩ := store_digits_then_load keys keys' op.missing_x h
    obtain ⟨d₂, d₁, d₀, hdigits, h₂, h₁, h₀, hsum⟩ := decimalDigits_eq (c.state.registers.value op.x)
    rw [hdigits] at hregisters
    refine ⟨d, e, d₂, d₁, d₀, by rwa [hop'], hload, hbetween, hother, ?_, ?_, ?_, h₂, h₁, h₀, hsum⟩
    -- The digits are those of `c`, so the register may itself be one that they come back in.
    all_goals rw [hregisters, Registers.value_load _ _ (by decide)]
    all_goals rfl

/-- The index is at the last three bytes of memory. -/
def lastBytes : Cpu where
  state := { registers := (Registers.zero.put 1 254).put 2 9, index := 0xFFD }
  random := .ofArray #[]

/-- V0, V1 and V2 go to the last bytes of memory, and two of them come back to cleared registers. The digits of V1 fit
    there too. -/
theorem registers_through_memory_last_bytes :
    (∃ c' e, execute .idle (Opcode.decode 0xF255) lastBytes = .ok () c' ∧
      execute .idle (Opcode.decode 0xF165) { c' with state.registers := .zero } = .ok () e ∧
      e.state.registers.value 1 = 254 ∧ e.state.registers.value 2 = 0) ∧
    ∃ d e, execute .idle (Opcode.decode 0xF133) lastBytes = .ok () d ∧
      execute .idle (Opcode.decode 0xF265) d = .ok () e ∧
      100 * (e.state.registers.value 0).toNat + 10 * (e.state.registers.value 1).toNat +
        (e.state.registers.value 2).toNat = 254 := by
  obtain ⟨hblock, -, hdigits⟩ := registers_through_memory
  constructor
  · obtain ⟨c', hstore, -, hload⟩ := hblock 0xF255 .idle lastBytes (by decide) (by decide)
    obtain ⟨e, hload, R⟩ := hload 0xF165 .idle { c' with state.registers := .zero } (by decide) (by decide) rfl
      (fun _ _ => rfl)
    exact ⟨c', e, hstore, hload, R.register 1 (by decide), R.above 2 (by decide)⟩
  · obtain ⟨d, e, d₂, d₁, d₀, hstore, hload, -, -, rfl, rfl, rfl, -, -, -, hsum⟩ :=
      hdigits 0xF133 .idle .idle lastBytes (by decide) (by decide)
    exact ⟨d, e, hstore, hload, hsum⟩

end Cpu

end ChipEight
