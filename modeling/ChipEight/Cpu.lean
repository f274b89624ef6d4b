import ChipEight.Sprite
import ChipEight.State

/-! # The processor

What an instruction acts on, and the elementary operations that instructions are made of. -/

namespace ChipEight

/-- The state of the machine and the random bytes still to come. -/
structure Cpu where
  state : State
  random : RandomBytes

namespace Cpu
variable {α : Type}

/-- Changes the state. -/
@[inline] def change (f : State → State) : Faulting Cpu Unit :=
  modify fun c => { c with state := f c.state }

/-- Looks something up in the state. -/
@[inline] def ask (f : State → α) : Faulting Cpu α := return f (← get).state

/-- Reads `Vi`. -/
def register (i : UInt8) : Faulting Cpu UInt8 := .inspect fun c => c.state.registers.read i

/-- Writes `Vi`. -/
def setRegister (i value : UInt8) : Faulting Cpu Unit :=
  .focus (·.state.registers) (fun c r => { c with state.registers := r }) (Registers.write i value)

/-- Sets VF to 1 or 0. -/
def setFlag (on : Bool) : Faulting Cpu Unit :=
  change fun s => { s with registers := s.registers.setFlag on }

/-- Goes on at an address. -/
def jump (address : UInt16) : Faulting Cpu Unit := change ({ · with pc := address })

/-- Passes over the next instruction if the condition holds. -/
def skipIf (condition : Bool) : Faulting Cpu Unit :=
  if condition then change fun s => { s with pc := s.pc + 2 } else pure ()

/-- Puts a return address on the call stack. -/
def pushAddress (address : UInt16) : Faulting Cpu Unit :=
  .focus (·.state.stack) (fun c t => { c with state.stack := t }) (CallStack.push address)

/-- Takes the latest return address off the call stack. -/
def popAddress : Faulting Cpu UInt16 :=
  .focus (·.state.stack) (fun c t => { c with state.stack := t }) CallStack.pop

/-- Reads `length` bytes from the index on. -/
def readBytes (length : Nat) : Faulting Cpu (List UInt8) :=
  .inspect fun c => c.state.memory.readBytes c.state.index.toNat length

/-- Writes bytes from the index on. -/
def writeBytes (data : List UInt8) : Faulting Cpu Unit := do
  let index ← ask (·.index)
  .focus (·.state.memory) (fun c m => { c with state.memory := m })
    (Memory.writeBytes index.toNat data)

/-- Flips the pixels of a sprite and says whether any was erased. -/
def drawSprite (x y : Nat) (rows : List UInt8) : Faulting Cpu Bool :=
  .focus (·.state.screen) (fun c t => { c with state.screen := t }) (Sprite.draw x y rows)

/-- Draws the next random byte. -/
def randomByte : Faulting Cpu UInt8 :=
  modifyGet fun c => (c.random.next, { c with random := c.random.advance })

end Cpu

end ChipEight
