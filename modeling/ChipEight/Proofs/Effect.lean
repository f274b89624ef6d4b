import ChipEight.Instruction.Execute
import ChipEight.Proofs.Parts

/-! # What an instruction does

An instruction either meets a fault, and then it has changed nothing, or it has its effect. Which fault it
meets depends on the registers it names, on the bytes from the index on that it reads or writes, and on
the depth of the call stack (`Instruction.fault?`). Its effect is given field by field, so that what one
instruction does to one field can be read off (`Instruction.effect`). -/

namespace ChipEight

/-! ### Faults -/

namespace Instruction

/-- The registers that an instruction names, in the order in which they are checked. -/
@[simp] def registers : Instruction → List UInt8
  | .skipEqByte x _ | .skipNeByte x _ | .loadByte x _ | .addByte x _ | .random x _ => [x]
  | .shiftRight x | .shiftLeft x | .skipDown x | .skipUp x | .readDelay x | .waitKey x => [x]
  | .setDelay x | .setSound x | .addIndex x | .loadGlyph x => [x]
  | .storeDecimal x | .storeRegisters x | .loadRegisters x => [x]
  | .skipEq x y | .skipNe x y | .move x y | .or x y | .and x y | .xor x y => [x, y]
  | .add x y | .sub x y | .subFrom x y | .draw x y _ => [x, y]
  | .sys _ | .clear | .ret | .jump _ | .call _ | .loadIndex _ | .jumpOffset _ | .unknown _ => []

/-- How many bytes from the index on an instruction reads or writes, if it works on memory. -/
@[simp] def span : Instruction → Option Nat
  | .draw _ _ n => some (n.toNat % 16)
  | .storeDecimal _ => some 3
  | .storeRegisters x | .loadRegisters x => some (x.toNat + 1)
  | _ => none

/-- The fault that an instruction meets in a state, if it meets one. -/
def fault? (s : State) (i : Instruction) : Option Fault :=
  match i.registers.find? Registers.missing, i.span with
  | some r, _ => some (.address r.toNat)
  | none, some n => if s.index.toNat + n ≤ Memory.capacity then none else some (Memory.outside s.index.toNat)
  | none, none =>
    match i with
    | .ret =>
      if 0 < s.stack.depth.toNat ∧ s.stack.depth.toNat < CallStack.slotCount then none
      else some .stackUnderflow
    | .call _ => if s.stack.depth.toNat + 1 < CallStack.slotCount then none else some .stackOverflow
    | .unknown op => some (.unknownOpcode op)
    | _ => none

theorem find?_missing_eq_none_iff {i : Instruction} :
    i.registers.find? Registers.missing = none ↔ ∀ r ∈ i.registers, Registers.missing r = false := by
  simp only [List.find?_eq_none, Bool.not_eq_true]

/-- Where all of its registers are there, an instruction that works on memory is refused only for bytes beyond it. -/
theorem fault?_of_span {s : State} {i : Instruction} {n : Nat}
    (hregisters : ∀ r ∈ i.registers, Registers.missing r = false) (hspan : i.span = some n) :
    i.fault? s = if s.index.toNat + n ≤ Memory.capacity then none else some (Memory.outside s.index.toNat) := by
  unfold fault?
  rw [find?_missing_eq_none_iff.mpr hregisters, hspan]

/-! ### Effects

Each field of the state is given on its own, as it is after an instruction that meets no fault. The program
counter is already past the instruction when that is executed. -/

/-- Whether an instruction passes over the next one. -/
@[simp] def skips (keys : KeySource) (s : State) : Instruction → Bool
  | .skipEqByte x kk => s.registers.value x == kk
  | .skipNeByte x kk => s.registers.value x != kk
  | .skipEq x y => s.registers.value x == s.registers.value y
  | .skipNe x y => s.registers.value x != s.registers.value y
  | .skipDown x => keys.isDown (s.registers.value x)
  | .skipUp x => !keys.isDown (s.registers.value x)
  | _ => false

/-- The program counter afterwards. An instruction that waits for a key comes again until there is one. -/
@[simp] def pcAfter (keys : KeySource) (s : State) : Instruction → UInt16
  | .ret => s.stack.top
  | .jump addr | .call addr => addr
  | .jumpOffset addr => addr + (s.registers.value 0).toUInt16
  | .waitKey _ => if keys.firstDown = none then s.pc - 2 else s.pc
  | i => if i.skips keys s then s.pc + 2 else s.pc

/-- The pixels that a sprite of `n` rows covers. -/
def spritePoints (s : State) (x y n : UInt8) : List (Nat × Nat) :=
  Sprite.points (s.registers.value x).toNat (s.registers.value y).toNat
    (s.memory.bytes s.index.toNat (n.toNat % 16))

/-- The registers afterwards, where `random` is the next random byte. -/
@[simp] def registersAfter (keys : KeySource) (s : State) (random : UInt8) (i : Instruction) : Registers :=
  let r := s.registers
  match i with
  | .loadByte x kk => r.put x kk
  | .addByte x kk => r.put x (r.value x + kk)
  | .move x y => r.put x (r.value y)
  | .or x y => r.put x (r.value x ||| r.value y)
  | .and x y => r.put x (r.value x &&& r.value y)
  | .xor x y => r.put x (r.value x ^^^ r.value y)
  | .add x y =>
    (r.put x (r.value x + r.value y)).setFlag (0xFF < (r.value x).toNat + (r.value y).toNat)
  | .sub x y => (r.put x (r.value x - r.value y)).setFlag (r.value y < r.value x)
  | .shiftRight x => (r.put x (r.value x / 2)).setFlag (r.value x % 2 == 1)
  | .subFrom x y => (r.put x (r.value y - r.value x)).setFlag (r.value x < r.value y)
  | .shiftLeft x => (r.put x (2 * r.value x)).setFlag (0x80 ≤ r.value x)
  | .random x kk => r.put x (random &&& kk)
  | .draw x y n => r.setFlag (s.screen.erases (spritePoints s x y n))
  | .readDelay x => r.put x s.delay
  | .waitKey x => keys.firstDown.elim r (r.put x)
  | .loadRegisters x => r.load (s.memory.bytes s.index.toNat (x.toNat + 1))
  | _ => r

/-- The index register afterwards. -/
@[simp] def indexAfter (s : State) : Instruction → UInt16
  | .loadIndex addr => addr
  | .addIndex x => s.index + (s.registers.value x).toUInt16
  | .loadGlyph x => Font.glyphAddress (s.registers.value x)
  | _ => s.index

/-- The call stack afterwards. A call returns to the instruction that follows it. -/
@[simp] def stackAfter (s : State) : Instruction → CallStack
  | .ret => s.stack.popped
  | .call _ => s.stack.pushed s.pc
  | _ => s.stack

/-- The delay timer afterwards. -/
@[simp] def delayAfter (s : State) : Instruction → UInt8
  | .setDelay x => s.registers.value x
  | _ => s.delay

/-- The sound timer afterwards. -/
@[simp] def soundAfter (s : State) : Instruction → UInt8
  | .setSound x => s.registers.value x
  | _ => s.sound

/-- The bytes that an instruction writes from the index on. -/
@[simp] def stored (s : State) : Instruction → List UInt8
  | .storeDecimal x => Cpu.decimalDigits (s.registers.value x)
  | .storeRegisters x => s.registers.upTo x
  | _ => []

/-- The screen afterwards. -/
@[simp] def screenAfter (s : State) : Instruction → Screen
  | .clear => .blank
  | .draw x y n => s.screen.overlaid (spritePoints s x y n)
  | _ => s.screen

/-- Whether an instruction leaves the mark that the screen has changed, even if no pixel has. -/
@[simp] def draws : Instruction → Bool
  | .clear | .draw .. => true
  | _ => false

/-- Whether an instruction draws a random byte. -/
@[simp] def isRandom : Instruction → Bool
  | .random .. => true
  | _ => false

/-- The state that an instruction leads to from one in which it meets no fault. -/
def stateAfter (keys : KeySource) (s : State) (random : UInt8) (i : Instruction) : State where
  registers := i.registersAfter keys s random
  index := i.indexAfter s
  pc := i.pcAfter keys s
  stack := i.stackAfter s
  delay := i.delayAfter s
  sound := i.soundAfter s
  memory := s.memory.store s.index.toNat (i.stored s)
  screen := i.screenAfter s
  redraw := i.draws || s.redraw

/-- What an instruction makes of the state and the random bytes. -/
def effect (keys : KeySource) (c : Cpu) (i : Instruction) : Cpu where
  state := i.stateAfter keys c.state c.random.next
  random := if i.isRandom then c.random.advance else c.random

end Instruction

/-! ### The elementary operations -/

theorem bind_apply {ε σ α β : Type} (op : EStateM ε σ α) (rest : α → EStateM ε σ β) (s : σ) :
    (op >>= rest) s = match op s with
      | .ok a s => rest a s
      | .error e s => .error e s := by
  show EStateM.bind op rest s = _
  unfold EStateM.bind
  cases op s <;> rfl

theorem pure_apply {ε σ α : Type} (a : α) (s : σ) : (pure a : EStateM ε σ α) s = .ok a s := rfl

namespace Cpu
variable {α : Type}

theorem throw_apply (f : Fault) (c : Cpu) : (throw f : Faulting Cpu α) c = .error f c := rfl

theorem change_apply (g : State → State) (c : Cpu) : change g c = .ok () { c with state := g c.state } := rfl

theorem ask_apply (look : State → α) (c : Cpu) : ask look c = .ok (look c.state) c := rfl

theorem register_apply (i : UInt8) (c : Cpu) :
    register i c =
      if Registers.missing i then .error (.address i.toNat) c else .ok (c.state.registers.value i) c := by
  cases h : Registers.missing i <;> simp [register, Faulting.inspect, Registers.read_eq, h]

theorem setRegister_apply (i b : UInt8) (c : Cpu) :
    setRegister i b c =
      if Registers.missing i then .error (.address i.toNat) c
      else .ok () { c with state.registers := c.state.registers.put i b } := by
  cases h : Registers.missing i <;> simp [setRegister, Faulting.focus, Registers.write_apply, h]

theorem setFlag_apply (on : Bool) (c : Cpu) :
    setFlag on c = .ok () { c with state.registers := c.state.registers.setFlag on } := rfl

theorem jump_apply (address : UInt16) (c : Cpu) : jump address c = .ok () { c with state.pc := address } := rfl

theorem skipIf_apply (condition : Bool) (c : Cpu) :
    skipIf condition c = .ok () { c with state.pc := if condition then c.state.pc + 2 else c.state.pc } := by
  cases condition <;> rfl

theorem pushAddress_apply (address : UInt16) (c : Cpu) :
    pushAddress address c =
      if c.state.stack.depth.toNat + 1 < CallStack.slotCount then
        .ok () { c with state.stack := c.state.stack.pushed address }
      else .error .stackOverflow c := by
  by_cases h : c.state.stack.depth.toNat + 1 < CallStack.slotCount <;>
    simp only [pushAddress, Faulting.focus, CallStack.push_apply, h, if_true, if_false]

theorem popAddress_apply (c : Cpu) :
    popAddress c =
      if 0 < c.state.stack.depth.toNat ∧ c.state.stack.depth.toNat < CallStack.slotCount then
        .ok c.state.stack.top { c with state.stack := c.state.stack.popped }
      else .error .stackUnderflow c := by
  by_cases h : 0 < c.state.stack.depth.toNat ∧ c.state.stack.depth.toNat < CallStack.slotCount
  · simp only [popAddress, Faulting.focus, CallStack.pop_apply, if_pos h]
  · simp only [popAddress, Faulting.focus, CallStack.pop_apply, if_neg h]

theorem readBytes_apply (length : Nat) (c : Cpu) :
    readBytes length c =
      if c.state.index.toNat + length ≤ Memory.capacity then
        .ok (c.state.memory.bytes c.state.index.toNat length) c
      else .error (Memory.outside c.state.index.toNat) c := by
  by_cases h : c.state.index.toNat + length ≤ Memory.capacity <;>
    simp only [readBytes, Faulting.inspect, Memory.readBytes_eq, h, if_true, if_false]

theorem writeBytes_apply (data : List UInt8) (c : Cpu) :
    writeBytes data c =
      if c.state.index.toNat + data.length ≤ Memory.capacity then
        .ok () { c with state.memory := c.state.memory.store c.state.index.toNat data }
      else .error (Memory.outside c.state.index.toNat) c := by
  by_cases h : c.state.index.toNat + data.length ≤ Memory.capacity <;>
    simp only [writeBytes, bind_apply, ask_apply, Faulting.focus, Memory.writeBytes, h, if_true, if_false]

theorem drawSprite_apply (x y : Nat) (rows : List UInt8) (c : Cpu) :
    drawSprite x y rows c =
      .ok (c.state.screen.erases (Sprite.points x y rows))
        { c with state.screen := c.state.screen.overlaid (Sprite.points x y rows) } := by
  simp only [drawSprite, Faulting.focus, Sprite.draw_apply]

theorem randomByte_apply (c : Cpu) : randomByte c = .ok c.random.next { c with random := c.random.advance } := rfl

/-! ### Execution -/

open Instruction in
/-- An instruction either meets its fault, and then nothing has changed, or it has its effect. -/
theorem execute_eq (keys : KeySource) (i : Instruction) (c : Cpu) :
    execute keys i c = match i.fault? c.state with
      | some f => .error f c
      | none => .ok () (i.effect keys c) := by
  -- Each case splits on what its instruction checks: registers, then the bytes or the slots it needs.
  cases i with
  | sys | clear | jump | loadIndex | unknown =>
    simp [execute, fault?, effect, stateAfter, Memory.store, change_apply, pure_apply, throw_apply, jump_apply]
  | jumpOffset =>
    have h : Registers.missing 0 = false := by decide
    simp [execute, fault?, effect, stateAfter, Memory.store, bind_apply, jump_apply, register_apply, h]
  | call =>
    by_cases h : c.state.stack.depth.toNat + 1 < CallStack.slotCount <;>
      simp [execute, fault?, effect, stateAfter, Memory.store, bind_apply, ask_apply, jump_apply,
        pushAddress_apply, h]
  | ret =>
    by_cases h : 0 < c.state.stack.depth.toNat ∧ c.state.stack.depth.toNat < CallStack.slotCount
    · simp [execute, fault?, effect, stateAfter, Memory.store, bind_apply, jump_apply, popAddress_apply, h]
    · simp only [execute, fault?, bind_apply, popAddress_apply, if_neg h]
      rfl
  | skipEqByte x | skipNeByte x | loadByte x | addByte x | random x | shiftRight x | shiftLeft x | readDelay x
    | setDelay x | setSound x | addIndex x | loadGlyph x =>
    cases hx : Registers.missing x <;>
      simp [execute, shift, fault?, effect, stateAfter, Memory.store, bind_apply, ask_apply, change_apply,
        skipIf_apply, register_apply, setRegister_apply, setFlag_apply, randomByte_apply, hx]
  | skipDown x | skipUp x =>
    cases hx : Registers.missing x <;> cases hk : keys.isDown (c.state.registers.value x) <;>
      simp [execute, fault?, effect, stateAfter, Memory.store, bind_apply, skipIf_apply, register_apply, hx, hk]
  | waitKey x =>
    cases hx : Registers.missing x <;> cases hk : keys.firstDown <;>
      simp [execute, waitKey, fault?, effect, stateAfter, Memory.store, bind_apply, change_apply, register_apply,
        setRegister_apply, hx, hk]
  | skipEq x y | skipNe x y | move x y | or x y | and x y | xor x y | add x y | sub x y | subFrom x y =>
    cases hx : Registers.missing x <;> cases hy : Registers.missing y <;>
      simp [execute, skipWhen, combine, combineFlagged, fault?, effect, stateAfter, Memory.store, bind_apply,
        skipIf_apply, register_apply, setRegister_apply, setFlag_apply, hx, hy]
  | draw x y n =>
    cases hx : Registers.missing x <;> cases hy : Registers.missing y <;>
      by_cases hn : c.state.index.toNat + n.toNat % 16 ≤ Memory.capacity <;>
        simp [execute, draw, fault?, effect, stateAfter, Memory.store, spritePoints, bind_apply, change_apply,
          register_apply, readBytes_apply, drawSprite_apply, setFlag_apply, hx, hy, hn]
  | storeDecimal x =>
    cases hx : Registers.missing x <;> by_cases hn : c.state.index.toNat + 3 ≤ Memory.capacity <;>
      simp [execute, fault?, effect, stateAfter, bind_apply, register_apply, writeBytes_apply, decimalDigits, hx,
        hn]
  | storeRegisters x =>
    cases hx : Registers.missing x
    · have hlen := c.state.registers.length_upTo hx
      by_cases hn : c.state.index.toNat + (x.toNat + 1) ≤ Memory.capacity <;>
        simp [execute, fault?, effect, stateAfter, bind_apply, ask_apply, register_apply, writeBytes_apply, hx,
          hlen, hn]
    · simp [execute, fault?, bind_apply, register_apply, hx]
  | loadRegisters x =>
    cases hx : Registers.missing x <;> by_cases hn : c.state.index.toNat + (x.toNat + 1) ≤ Memory.capacity <;>
      simp [execute, fault?, effect, stateAfter, Memory.store, bind_apply, change_apply, register_apply,
        readBytes_apply, hx, hn]

theorem execute_of_fault?_eq_none (keys : KeySource) {i : Instruction} {c : Cpu} (h : i.fault? c.state = none) :
    execute keys i c = .ok () (i.effect keys c) := by
  rw [execute_eq, h]

end Cpu

end ChipEight
