import ChipEight.Proofs.Unchecked

/-! # Address arithmetic that does not wrap around

Addresses have sixteen bits, and where the program counter is moved past an instruction, past the next one, back
again, or to an address with an offset, the machine takes sums and differences modulo 65536. Here the same is written
with sums and differences that break off unless they are exact. None of them ever does, wherever the program counter
of a machine stands: a word is fetched from within memory only, and the address in a word has twelve bits. -/

namespace ChipEight.Unwrapped
open Unchecked (ofFaulting)

/-! ### The operations that move the program counter -/

/-- The sum of two addresses, unless it is beyond sixteen bits. -/
def sum (a b : UInt16) : Unchecked Cpu UInt16 :=
  if a.toNat + b.toNat < UInt16.size then pure (a + b) else throw none

/-- The difference of two addresses, unless it is below zero. -/
def difference (a b : UInt16) : Unchecked Cpu UInt16 :=
  if b.toNat ≤ a.toNat then pure (a - b) else throw none

/-- Passes over the next instruction if the condition holds. -/
def skipIf (condition : Bool) : Unchecked Cpu Unit := do
  if condition then
    let pc ← sum (← get).state.pc 2
    ofFaulting (Cpu.jump pc)

/-- Passes over the next instruction if two registers pass a test. -/
def skipWhen (x y : UInt8) (test : UInt8 → UInt8 → Bool) : Unchecked Cpu Unit := do
  let a ← ofFaulting (Cpu.register x)
  let b ← ofFaulting (Cpu.register y)
  skipIf (test a b)

/-- Goes on at an address with V0 added to it. -/
def jumpOffset (addr : UInt16) : Unchecked Cpu Unit := do
  let offset ← ofFaulting (Cpu.register 0)
  let pc ← sum addr offset.toUInt16
  ofFaulting (Cpu.jump pc)

/-- Stores the lowest key that is down, or goes back to this instruction if there is none. -/
def waitKey (keys : KeySource) (x : UInt8) : Unchecked Cpu Unit := do
  let _ ← ofFaulting (Cpu.register x)
  match keys.firstDown with
  | some key => ofFaulting (Cpu.setRegister x key)
  | none =>
    let pc ← difference (← get).state.pc 2
    ofFaulting (Cpu.jump pc)

/-- Executes an instruction. Those not named take no sum or difference of addresses. -/
def execute (keys : KeySource) : Instruction → Unchecked Cpu Unit
  | .skipEqByte x kk => do skipIf ((← ofFaulting (Cpu.register x)) == kk)
  | .skipNeByte x kk => do skipIf ((← ofFaulting (Cpu.register x)) != kk)
  | .skipEq x y => skipWhen x y (· == ·)
  | .skipNe x y => skipWhen x y (· != ·)
  | .jumpOffset addr => jumpOffset addr
  | .skipDown x => do skipIf (keys.isDown (← ofFaulting (Cpu.register x)))
  | .skipUp x => do skipIf (!keys.isDown (← ofFaulting (Cpu.register x)))
  | .waitKey x => waitKey keys x
  | i => ofFaulting (Cpu.execute keys i)

/-- Fetches, moves past the word and executes it. -/
def next (keys : KeySource) : Unchecked Cpu Unit := fun c =>
  match c.state.memory.readWord c.state.pc.toNat with
  | .error f => .error (some f) c
  | .ok word =>
    match sum c.state.pc 2 c with
    | .error f c => .error f c
    | .ok past c =>
      let address := c.state.pc
      match execute keys (Opcode.decode word) { c with state.pc := past } with
      | .ok a c => .ok a c
      | .error f c => .error f { c with state.pc := address }

/-! ### Each sum and each difference is exact -/

variable {c : Cpu}

theorem sum_apply {a b : UInt16} (h : a.toNat + b.toNat < UInt16.size) (c : Cpu) : sum a b c = .ok (a + b) c := by
  rw [sum, if_pos h, pure_apply]

theorem difference_apply {a b : UInt16} (h : b.toNat ≤ a.toNat) (c : Cpu) : difference a b c = .ok (a - b) c := by
  rw [difference, if_pos h, pure_apply]

theorem skipIf_eq (h : c.state.pc.toNat ≤ Memory.capacity) (condition : Bool) :
    skipIf condition c = ofFaulting (Cpu.skipIf condition) c := by
  have hsum : c.state.pc.toNat + (2 : UInt16).toNat < UInt16.size := by
    simp only [Memory.capacity, UInt16.reduceToNat, UInt16.size] at h ⊢
    omega
  cases condition with
  | false => rfl
  | true =>
    simp only [skipIf, if_true, bind_apply, Unchecked.get_apply, sum_apply hsum]
    rfl

theorem skipWhen_eq (h : c.state.pc.toNat ≤ Memory.capacity) (x y : UInt8) (test : UInt8 → UInt8 → Bool) :
    skipWhen x y test c = ofFaulting (Cpu.skipWhen x y test) c := by
  simp only [skipWhen, Cpu.skipWhen, bind_apply, Unchecked.ofFaulting_apply, Cpu.register_apply]
  cases Registers.missing x <;> cases Registers.missing y <;>
    simp [skipIf_eq h, Unchecked.ofFaulting_apply]

theorem jumpOffset_eq {addr : UInt16} (h : addr.toNat < 0x1000) (keys : KeySource) (c : Cpu) :
    jumpOffset addr c = ofFaulting (Cpu.execute keys (.jumpOffset addr)) c := by
  have hzero : Registers.missing 0 = false := by decide
  have hsum : addr.toNat + (c.state.registers.value 0).toUInt16.toNat < UInt16.size := by
    have hbyte := (c.state.registers.value 0).toNat_lt
    simp only [UInt8.toNat_toUInt16, UInt16.size]
    omega
  simp only [jumpOffset, Cpu.execute, bind_apply, Unchecked.ofFaulting_apply, Cpu.register_apply, hzero,
    Bool.false_eq_true, if_false, sum_apply hsum]

theorem waitKey_eq (h : 2 ≤ c.state.pc.toNat) (keys : KeySource) (x : UInt8) :
    waitKey keys x c = ofFaulting (Cpu.waitKey keys x) c := by
  have hdifference : (2 : UInt16).toNat ≤ c.state.pc.toNat := h
  simp only [waitKey, Cpu.waitKey, bind_apply, Unchecked.ofFaulting_apply, Cpu.register_apply]
  cases Registers.missing x with
  | true => rfl
  | false =>
    cases keys.firstDown with
    | some key => rfl
    | none =>
      simp only [Bool.false_eq_true, if_false, bind_apply, Unchecked.get_apply, difference_apply hdifference]
      rfl

theorem execute_eq {op : Opcode} {i : Instruction} (hoperands : i.OperandsOf op) (hlow : 2 ≤ c.state.pc.toNat)
    (hhigh : c.state.pc.toNat ≤ Memory.capacity) (keys : KeySource) :
    execute keys i c = ofFaulting (Cpu.execute keys i) c := by
  cases i with
  | skipEqByte x | skipNeByte x | skipDown x | skipUp x =>
    simp only [execute, Cpu.execute, bind_apply, Unchecked.ofFaulting_apply, Cpu.register_apply]
    cases Registers.missing x <;> simp [skipIf_eq hhigh, Unchecked.ofFaulting_apply]
  | skipEq x y | skipNe x y => exact skipWhen_eq hhigh x y _
  | jumpOffset addr =>
    obtain rfl := hoperands
    refine jumpOffset_eq ?_ keys c
    rw [op.toNat_addr]
    omega
  | waitKey x => exact waitKey_eq hlow keys x
  | _ => rfl

/-- The next instruction moves the program counter by exact sums and differences, wherever that stands. -/
theorem next_eq (keys : KeySource) (c : Cpu) : next keys c = ofFaulting (Cpu.next keys) c := by
  simp only [next, Unchecked.ofFaulting_apply, Cpu.next, Memory.readWord_eq]
  by_cases hpc : c.state.pc.toNat + 2 ≤ Memory.capacity
  · have hsum : c.state.pc.toNat + (2 : UInt16).toNat < UInt16.size := Nat.lt_of_le_of_lt hpc (by decide)
    have hpast : (c.state.pc + 2).toNat = c.state.pc.toNat + 2 := by
      rw [UInt16.toNat_add, Nat.mod_eq_of_lt hsum]
      rfl
    have hexecute := execute_eq (c := { c with state.pc := c.state.pc + 2 })
      (Opcode.operandsOf_decode (c.state.memory.word c.state.pc.toNat)) (by simp only [hpast]; omega)
      (by simp only [hpast]; exact hpc) keys
    simp only [if_pos hpc, sum_apply hsum, hexecute, Unchecked.ofFaulting_apply]
    cases Cpu.execute keys (Opcode.decode (c.state.memory.word c.state.pc.toNat))
      { c with state.pc := c.state.pc + 2 } <;> rfl
  · simp only [if_neg hpc]

end ChipEight.Unwrapped
