import ChipEight.Machine.Basic
import ChipEight.Proofs.Decoding
import ChipEight.Proofs.Effect

/-! # A step

A step fetches a word and executes the instruction that it stands for. A running machine either meets a
fault, which depends on its state alone, and is halted with nothing else changed, or goes on to the effect
of the instruction. The fault of a step is one of four kinds and its conditions are stated over the word
and the fields it works on (`State.Meets`). -/

namespace ChipEight

/-! ### What a step does -/

namespace State

/-- The word that the program counter points to. -/
def nextWord (s : State) : Opcode := s.memory.word s.pc.toNat

/-- The instruction that the program counter points to. -/
def nextInstruction (s : State) : Instruction := s.nextWord.decode

/-- The state with the program counter past its instruction. -/
def fetched (s : State) : State := { s with pc := s.pc + 2 }

/-- The fault that the next instruction meets, if it meets one. -/
def nextFault? (s : State) : Option Fault :=
  if s.pc.toNat + 2 ≤ Memory.capacity then s.nextInstruction.fault? s else some (Memory.outside s.pc.toNat)

/-- Fetching moves the program counter only, and no fault depends on that. -/
theorem fault?_fetched (s : State) (i : Instruction) : i.fault? s.fetched = i.fault? s := by
  unfold Instruction.fault?
  rfl

theorem pc_of_nextFault? {s : State} (h : s.nextFault? = none) : s.pc.toNat + 2 ≤ 0x1000 := by
  unfold nextFault? at h
  split at h
  · assumption
  · cases h

theorem toNat_pc_fetched {s : State} (h : s.nextFault? = none) : s.fetched.pc.toNat = s.pc.toNat + 2 := by
  have hpc := pc_of_nextFault? h
  simp only [fetched, UInt16.toNat_add, UInt16.reduceToNat]
  omega

theorem fault?_of_nextFault? {s : State} (h : s.nextFault? = none) : s.nextInstruction.fault? s = none := by
  rwa [nextFault?, if_pos (pc_of_nextFault? h)] at h

end State

namespace Cpu

/-- The processor after the next instruction, if that meets no fault. -/
def advanced (keys : KeySource) (c : Cpu) : Cpu :=
  c.state.nextInstruction.effect keys { c with state := c.state.fetched }

theorem next_eq (keys : KeySource) (c : Cpu) :
    next keys c = match c.state.nextFault? with
      | some f => .error f c
      | none => .ok () (c.advanced keys) := by
  unfold next State.nextFault?
  rw [Memory.readWord_eq]
  by_cases hpc : c.state.pc.toNat + 2 ≤ Memory.capacity
  · have hfault := State.fault?_fetched c.state c.state.nextInstruction
    simp only [State.fetched, State.nextInstruction, State.nextWord] at hfault
    simp only [if_pos hpc, execute_eq, State.nextInstruction, State.nextWord, hfault]
    cases (Opcode.decode (c.state.memory.word c.state.pc.toNat)).fault? c.state <;> rfl
  · simp only [if_neg hpc]

end Cpu

namespace Machine

/-- The machine after a step that meets no fault. -/
def advanced (keys : KeySource) (m : Machine) : Machine := { m with toCpu := m.toCpu.advanced keys }

theorem step_of_halted {m : Machine} {f : Fault} (h : m.status = .halted f) (keys : KeySource) :
    m.step keys = .error f m := by
  simp only [step, h]

theorem step_of_running {m : Machine} (h : m.status = .running) (keys : KeySource) :
    m.step keys = match m.state.nextFault? with
      | some f => .error f { m with status := .halted f }
      | none => .ok () (m.advanced keys) := by
  simp only [step, h, Cpu.next_eq, advanced]
  cases m.state.nextFault? <;> rfl

theorem step_eq_ok_iff {m m' : Machine} {keys : KeySource} :
    m.step keys = .ok () m' ↔ m.status = .running ∧ m.state.nextFault? = none ∧ m' = m.advanced keys := by
  cases hstatus : m.status with
  | halted f => simp [step_of_halted hstatus]
  | running =>
    rw [step_of_running hstatus]
    cases m.state.nextFault? <;> simp [eq_comm]

theorem nextFault?_of_step_error {m m' : Machine} {keys : KeySource} {f : Fault} (h : m.status = .running)
    (hstep : m.step keys = .error f m') : m.state.nextFault? = some f := by
  rw [step_of_running h] at hstep
  cases hfault : m.state.nextFault? with
  | none =>
    rw [hfault] at hstep
    cases hstep
  | some f' =>
    rw [hfault] at hstep
    cases hstep
    rfl

theorem eq_of_step_error {m m' : Machine} {keys : KeySource} {f : Fault} (h : m.step keys = .error f m') :
    m' = { m with status := .halted f } := by
  cases hstatus : m.status with
  | halted f' =>
    rw [step_of_halted hstatus] at h
    cases h
    rw [← hstatus]
  | running =>
    have hfault := nextFault?_of_step_error hstatus h
    rw [step_of_running hstatus, hfault] at h
    cases h
    rfl

/-- A fault leaves the state and the random bytes of a machine as they were and halts it; without a fault
    it keeps running. -/
theorem step_atomic (keys : KeySource) (m : Machine) (h : m.status = .running) :
    (∀ f m', m.step keys = .error f m' →
      m'.state = m.state ∧ m'.random = m.random ∧ m'.status = .halted f) ∧
      ∀ m', m.step keys = .ok () m' → m'.status = .running := by
  rw [step_of_running h]
  cases m.state.nextFault? with
  | none =>
    refine ⟨by simp, ?_⟩
    rintro m' ⟨⟩
    exact h
  | some f =>
    refine ⟨?_, by simp⟩
    rintro f' m' ⟨⟩
    exact ⟨rfl, rfl, rfl⟩

/-- A machine that is to draw five rows from two bytes before the end of memory. -/
def fiveRows : Machine where
  state := { index := 0xFFE, memory := Memory.zero.store programStart.toNat [0xD0, 0x15] }
  random := .ofArray #[]

theorem nextFault?_fiveRows : fiveRows.state.nextFault? = some (.address 0x1000) := by decide +kernel

theorem step_atomic_five_rows :
    ∃ m', fiveRows.step .idle = .error (.address 0x1000) m' ∧ m'.state = fiveRows.state ∧
      m'.random = fiveRows.random ∧ m'.status = .halted (.address 0x1000) := by
  have hstep := step_of_running (m := fiveRows) rfl .idle
  rw [nextFault?_fiveRows] at hstep
  exact ⟨_, hstep, (step_atomic .idle fiveRows rfl).1 _ _ hstep⟩

end Machine

/-! ### When a step faults -/

namespace State

/-- When the next instruction of a state meets a fault. -/
def Meets (s : State) : Fault → Prop
  | .address a =>
    (Memory.capacity < s.pc.toNat + 2 ∧ a = max s.pc.toNat Memory.capacity) ∨
    (s.pc.toNat + 2 ≤ Memory.capacity ∧ a = max s.index.toNat Memory.capacity ∧
      (s.nextWord.fits "DXYN" ∧ Memory.capacity < s.index.toNat + s.nextWord.n.toNat ∨
        s.nextWord.fits "FX33" ∧ Memory.capacity < s.index.toNat + 3 ∨
        (s.nextWord.fits "FX55" ∨ s.nextWord.fits "FX65") ∧
          Memory.capacity < s.index.toNat + s.nextWord.x.toNat + 1))
  | .coordinate _ _ => False
  | .stackOverflow =>
    s.pc.toNat + 2 ≤ Memory.capacity ∧ s.nextWord.fits "2NNN" ∧ s.stack.depth.toNat = 15
  | .stackUnderflow => s.pc.toNat + 2 ≤ Memory.capacity ∧ s.nextWord = 0x00EE ∧ s.stack.depth.toNat = 0
  | .unknownOpcode op =>
    s.pc.toNat + 2 ≤ Memory.capacity ∧ op = s.nextWord ∧ ∀ form ∈ Form.all, ¬s.nextWord.fits form

end State

/-- A digit of an opcode always numbers a register. -/
theorem Opcode.missing_x (op : Opcode) : Registers.missing op.x = false :=
  Registers.missing_eq_false_iff.mpr (by rw [op.toNat_x]; omega)

theorem Opcode.missing_y (op : Opcode) : Registers.missing op.y = false :=
  Registers.missing_eq_false_iff.mpr (by rw [op.toNat_y]; omega)

theorem Opcode.toNat_n_mod (op : Opcode) : op.n.toNat % 16 = op.n.toNat := by
  rw [op.toNat_n]
  omega

theorem Instruction.OperandsOf.find?_missing {op : Opcode} {i : Instruction} (h : i.OperandsOf op) :
    i.registers.find? Registers.missing = none := by
  have hx := op.missing_x
  have hy := op.missing_y
  cases i <;> simp_all [OperandsOf]

namespace State

theorem fault?_nextInstruction_eq_some_iff {s : State} (hdepth : s.stack.depth.toNat ≤ 15)
    (hpc : s.pc.toNat + 2 ≤ Memory.capacity) (f : Fault) :
    s.nextInstruction.fault? s = some f ↔ s.Meets f := by
  have hoperands := s.nextWord.operandsOf_decode
  have hfind := hoperands.find?_missing
  have hpc' : ¬Memory.capacity < s.pc.toNat + 2 := by omega
  have hn := s.nextWord.toNat_n_mod
  unfold Instruction.fault? nextInstruction Meets
  rw [← Opcode.fits_00EE_iff, ← Opcode.form?_decode_eq_none_iff]
  iterate 6 rw [Opcode.fits_iff_form? (by decide) (by decide)]
  rw [hfind]
  -- Only the instruction matters from here on, not how it was read off the word.
  generalize s.nextWord.decode = i at hoperands
  cases i with
  | draw x y n =>
    obtain ⟨-, -, rfl⟩ := hoperands
    cases f <;> simp [Instruction.form?, Memory.outside, hpc, hpc', hn]
    omega
  | storeDecimal x =>
    cases f <;> simp [Instruction.form?, Memory.outside, hpc, hpc']
    omega
  | storeRegisters x | loadRegisters x =>
    obtain rfl := hoperands
    cases f <;> simp [Instruction.form?, Memory.outside, hpc, hpc']
    omega
  | call addr =>
    cases f <;> simp [Instruction.form?, hpc, hpc', CallStack.slotCount]
    omega
  | ret =>
    cases f <;> simp [Instruction.form?, hpc, hpc', CallStack.slotCount]
    omega
  | unknown op =>
    obtain rfl := hoperands
    cases f <;> simp [Instruction.form?, hpc, hpc', eq_comm]
  | _ => cases f <;> simp [Instruction.form?, hpc']

theorem nextFault?_eq_some_iff {s : State} (hdepth : s.stack.depth.toNat ≤ 15) (f : Fault) :
    s.nextFault? = some f ↔ s.Meets f := by
  unfold nextFault?
  split
  · next hpc => exact fault?_nextInstruction_eq_some_iff hdepth hpc f
  · next hpc =>
    have hpc' : Memory.capacity < s.pc.toNat + 2 := by omega
    cases f <;> simp only [Meets, Memory.outside, hpc, hpc', Option.some.injEq, Fault.address.injEq, reduceCtorEq,
      true_and, false_and, or_false]
    exact eq_comm

end State

namespace Machine

/-- A step faults just in the cases of `State.Meets` and succeeds in every other case. No step faults
    because of a pixel, and none because of a register number, for each address that is reported lies beyond
    memory. -/
theorem step_faults_iff (keys : KeySource) (m : Machine) (h : m.status = .running)
    (hdepth : m.state.stack.depth.toNat ≤ 15) :
    (∀ f, (∃ m', m.step keys = .error f m') ↔ m.state.Meets f) ∧
      ((∃ m', m.step keys = .ok () m') ↔ ∀ f, ¬m.state.Meets f) ∧
      (∀ x y m', m.step keys ≠ .error (.coordinate x y) m') ∧
      ∀ a m', m.step keys = .error (.address a) m' → Memory.capacity ≤ a := by
  have hiff := State.nextFault?_eq_some_iff hdepth
  have herror : ∀ f, (∃ m', m.step keys = .error f m') ↔ m.state.Meets f := by
    intro f
    rw [step_of_running h, ← hiff]
    cases m.state.nextFault? <;> simp
  refine ⟨herror, ?_, ?_, ?_⟩
  · rw [step_of_running h]
    simp only [← hiff]
    cases m.state.nextFault? <;> simp
  · intro x y m' hstep
    exact (herror _).mp ⟨m', hstep⟩
  · intro a m' hstep
    rcases (herror _).mp ⟨m', hstep⟩ with ⟨-, rfl⟩ | ⟨-, rfl, -⟩ <;> exact Nat.le_max_right _ _

/-- Of the five rows to be drawn memory has only two. -/
theorem step_faults_iff_five_rows :
    ∃ m', fiveRows.step .idle = .error (.address 0x1000) m' := by
  refine ((step_faults_iff .idle fiveRows rfl (by decide)).1 _).mpr (.inr ?_)
  have hword : fiveRows.state.nextWord = 0xD015 := by decide +kernel
  rw [hword]
  decide

end Machine

end ChipEight
