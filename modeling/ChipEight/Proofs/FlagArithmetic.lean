import ChipEight.Proofs.Step

/-! # Arithmetic with a flag

Five instructions leave a result in a register and in VF what the result does not show: a carry, whether there was
something left to subtract from, or the bit that was shifted out. Both operands are read before the result is
written, and the flag is written last. So the flag is right even where an operand or the result is in VF, and in any
other register the result and the operands balance as whole numbers. -/

namespace ChipEight

/-- The instructions that compute with a flag. -/
inductive Arithmetic where
  | add
  | sub
  | shiftRight
  | subFrom
  | shiftLeft

namespace Arithmetic

/-- The form of the words that stand for the instruction. -/
def form : Arithmetic → Form
  | .add => "8XY4"
  | .sub => "8XY5"
  | .shiftRight => "8XY6"
  | .subFrom => "8XY7"
  | .shiftLeft => "8XYE"

/-- The instruction on `Vx` and `Vy`; the shifts have no use for `Vy`. -/
def instruction (x y : UInt8) : Arithmetic → Instruction
  | .add => .add x y
  | .sub => .sub x y
  | .shiftRight => .shiftRight x
  | .subFrom => .subFrom x y
  | .shiftLeft => .shiftLeft x

/-- The result for the operands `a` in `Vx` and `b` in `Vy`. -/
def result (a b : UInt8) : Arithmetic → UInt8
  | .add => a + b
  | .sub => a - b
  | .shiftRight => a / 2
  | .subFrom => b - a
  | .shiftLeft => 2 * a

/-- The flag for the operands `a` in `Vx` and `b` in `Vy`. -/
def flag (a b : Nat) : Arithmetic → Nat
  | .add => if 255 < a + b then 1 else 0
  | .sub => if b < a then 1 else 0
  | .shiftRight => a % 2
  | .subFrom => if a < b then 1 else 0
  | .shiftLeft => if 128 ≤ a then 1 else 0

/-- How a result `r` and the flag balance with the operands. A difference is short of a whole 256 just if the
    subtrahend is greater, which is not the same as the flag being 0. -/
def Balances (a b r flag : Nat) : Arithmetic → Prop
  | .add => r + 256 * flag = a + b
  | .sub => r + b = a + 256 * if a < b then 1 else 0
  | .shiftRight => 2 * r + flag = a
  | .subFrom => r + a = b + 256 * if b < a then 1 else 0
  | .shiftLeft => r + 256 * flag = 2 * a

variable {kind : Arithmetic} {op : Opcode}

theorem decode_eq (h : op.fits kind.form) : op.decode = kind.instruction op.x op.y := by
  cases kind with
  | add | sub | subFrom => exact Opcode.decode_of_fits h rfl (by decide) ⟨rfl, rfl⟩
  | shiftRight | shiftLeft => exact Opcode.decode_of_fits h rfl (by decide) rfl

theorem flag_le_one (a b : Nat) (kind : Arithmetic) : kind.flag a b ≤ 1 := by
  cases kind <;> simp only [flag]
  case shiftRight => omega
  all_goals split <;> decide

theorem balances (a b : UInt8) (kind : Arithmetic) :
    kind.Balances a.toNat b.toNat (kind.result a b).toNat (kind.flag a.toNat b.toNat) := by
  have ha := a.toNat_lt
  have hb := b.toNat_lt
  cases kind with
  | add =>
    simp only [Balances, result, flag, UInt8.toNat_add]
    split <;> omega
  | sub =>
    simp only [Balances, result, UInt8.toNat_sub]
    split <;> omega
  | shiftRight =>
    simp only [Balances, result, flag, UInt8.toNat_div, UInt8.reduceToNat]
    omega
  | subFrom =>
    simp only [Balances, result, UInt8.toNat_sub]
    split <;> omega
  | shiftLeft =>
    simp only [Balances, result, flag, UInt8.toNat_mul, UInt8.reduceToNat]
    split <;> omega

/-! ### Execution -/

theorem registersAfter_eq (kind : Arithmetic) (keys : KeySource) (s : State) (random x y : UInt8) :
    (kind.instruction x y).registersAfter keys s random =
      (s.registers.put x (kind.result (s.registers.value x) (s.registers.value y))).setFlag
        (kind.flag (s.registers.value x).toNat (s.registers.value y).toNat = 1) := by
  cases kind with
  | add | sub | subFrom | shiftLeft =>
    simp [instruction, result, flag, UInt8.lt_iff_toNat_lt, UInt8.le_iff_toNat_le]
  | shiftRight =>
    have hbit : (s.registers.value x % 2 == 1) =
        decide (shiftRight.flag (s.registers.value x).toNat (s.registers.value y).toNat = 1) := by
      rw [Bool.eq_iff_iff, beq_iff_eq, ← UInt8.toNat_inj, UInt8.toNat_mod, decide_eq_true_iff]
      rfl
    exact congrArg (Registers.setFlag _) hbit

theorem effect_eq (kind : Arithmetic) (keys : KeySource) (c : Cpu) (x y : UInt8) :
    (kind.instruction x y).effect keys c =
      { c with state.registers := (kind.instruction x y).registersAfter keys c.state c.random.next } := by
  cases kind <;> rfl

theorem execute_eq {x y : UInt8} (hx : Registers.missing x = false) (hy : Registers.missing y = false)
    (kind : Arithmetic) (keys : KeySource) (c : Cpu) :
    Cpu.execute keys (kind.instruction x y) c = .ok () { c with
      state.registers :=
        (c.state.registers.put x (kind.result (c.state.registers.value x) (c.state.registers.value y))).setFlag
          (kind.flag (c.state.registers.value x).toNat (c.state.registers.value y).toNat = 1) } := by
  have hfault : (kind.instruction x y).fault? c.state = none := by
    cases kind <;> simp [Instruction.fault?, instruction, hx, hy]
  rw [Cpu.execute_of_fault?_eq_none keys hfault, ← registersAfter_eq kind keys c.state c.random.next, ← effect_eq]

/-- What a word of this kind makes of the registers `Vx`, `Vy` and VF, told from the operands as they were before. -/
structure Outcome (kind : Arithmetic) (op : Opcode) (c c' : Cpu) : Prop where
  flag : (c'.state.registers.value 15).toNat =
    kind.flag (c.state.registers.value op.x).toNat (c.state.registers.value op.y).toNat
  balance : op.x ≠ 15 → kind.Balances (c.state.registers.value op.x).toNat (c.state.registers.value op.y).toNat
    (c'.state.registers.value op.x).toNat (c'.state.registers.value 15).toNat
  register : ∀ k, k ≠ op.x → k ≠ 15 → c'.state.registers.value k = c.state.registers.value k
  other : c' = { c with state.registers := c'.state.registers }

theorem outcome_of_fits (h : op.fits kind.form) (keys : KeySource) (c : Cpu) :
    ∃ c', Cpu.execute keys op.decode c = .ok () c' ∧ kind.Outcome op c c' := by
  rw [decode_eq h, execute_eq op.missing_x op.missing_y]
  generalize ha : c.state.registers.value op.x = a
  generalize hb : c.state.registers.value op.y = b
  have hle := kind.flag_le_one a.toNat b.toNat
  have hflag : (((c.state.registers.put op.x (kind.result a b)).setFlag
      (kind.flag a.toNat b.toNat = 1)).value 15).toNat = kind.flag a.toNat b.toNat := by
    rw [Registers.value_setFlag_self]
    rcases Nat.le_one_iff_eq_zero_or_eq_one.mp hle with hzero | hone
    · simp [hzero]
    · simp [hone]
  refine ⟨_, rfl, ?_, fun hx => ?_, fun k hk hk15 => ?_, rfl⟩
  · rw [ha, hb]
    exact hflag
  · rw [ha, hb, hflag, Registers.value_setFlag_of_ne _ _ hx, Registers.value_put_self _ _ op.missing_x]
    exact kind.balances a b
  · rw [Registers.value_setFlag_of_ne _ _ hk15, Registers.value_put_of_ne _ _ hk]

/-- Two kinds that agree on a pair of equal operands do the same to one register. -/
theorem execute_congr (kind kind' : Arithmetic) (hresult : ∀ a, kind.result a a = kind'.result a a)
    (hflag : ∀ a, kind.flag a a = kind'.flag a a) {op op' : Opcode} (h : op.fits kind.form)
    (h' : op'.fits kind'.form) (hy : op.y = op.x) (hx' : op'.x = op.x) (hy' : op'.y = op.x) (keys : KeySource) :
    Cpu.execute keys op.decode = Cpu.execute keys op'.decode := by
  funext c
  rw [decode_eq h, decode_eq h', hy, hx', hy', execute_eq op.missing_x op.missing_x,
    execute_eq op.missing_x op.missing_x, hresult, hflag]

/-- Each of the five instructions sets the flag as its operands say and leaves a result that balances with them,
    whichever registers these are, and changes nothing else. A register added to itself is shifted to the left, and
    taken from itself it does not matter which way round. -/
theorem flag_arithmetic_exact :
    (∀ (kind : Arithmetic) (op : Opcode), op.fits kind.form → ∀ (keys : KeySource) (c : Cpu),
      ∃ c', Cpu.execute keys op.decode c = .ok () c' ∧ kind.Outcome op c c') ∧
    ∀ op op' : Opcode, op.y = op.x → op'.x = op.x → op'.y = op.x →
      (op.fits "8XY4" ∧ op'.fits "8XYE" ∨ op.fits "8XY5" ∧ op'.fits "8XY7") →
        ∀ keys : KeySource, Cpu.execute keys op.decode = Cpu.execute keys op'.decode := by
  refine ⟨fun kind op h keys c => outcome_of_fits h keys c, ?_⟩
  rintro op op' hy hx' hy' (⟨h, h'⟩ | ⟨h, h'⟩) keys
  · have hresult : ∀ a : UInt8, a + a = 2 * a := fun a => by
      rw [← UInt8.toNat_inj, UInt8.toNat_add, UInt8.toNat_mul, ← Nat.two_mul]
      rfl
    have hflag : ∀ a, add.flag a a = shiftLeft.flag a a := fun a => by
      have hdouble : 255 < a + a ↔ 128 ≤ a := by omega
      simp only [flag, hdouble]
    exact execute_congr .add .shiftLeft hresult hflag h h' hy hx' hy' keys
  · exact execute_congr .sub .subFrom (fun _ => rfl) (fun _ => rfl) h h' hy hx' hy' keys

/-- A sum of 300 whose first operand is in VF. -/
theorem flag_arithmetic_exact_carry :
    ∃ c', Cpu.execute .idle (Opcode.decode 0x8F14)
        { state := { registers := (Registers.zero.put 15 200).put 1 100 }, random := .ofArray #[] } = .ok () c' ∧
      (c'.state.registers.value 15).toNat = 1 ∧
      Cpu.execute .idle (Opcode.decode 0x8FF5) = Cpu.execute .idle (Opcode.decode 0x8FF7) := by
  obtain ⟨hexact, hsame⟩ := flag_arithmetic_exact
  obtain ⟨c', hexecute, O⟩ := hexact .add 0x8F14 (by decide) .idle
    { state := { registers := (Registers.zero.put 15 200).put 1 100 }, random := .ofArray #[] }
  refine ⟨c', hexecute, O.flag.trans (by decide +kernel), ?_⟩
  exact hsame 0x8FF5 0x8FF7 (by decide) (by decide) (by decide) (by decide) .idle

end Arithmetic

end ChipEight
