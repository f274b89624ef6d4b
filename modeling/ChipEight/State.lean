import ChipEight.Font
import ChipEight.Keypad
import ChipEight.RandomBytes
import ChipEight.Screen

/-! # The state of the machine

Sixteen registers of eight bits, the index register, the program counter, the call stack, two timers,
memory, the screen, and a mark that the screen has changed since it was last shown. -/

namespace ChipEight

/-! ### Registers -/

/-- The number of registers. -/
abbrev Registers.count : Nat := 16

/-- The registers V0 to VF. -/
abbrev Registers := Vector UInt8 Registers.count

namespace Registers

/-- VF, which holds the carry, the borrow or the collision of the last operation that has one. -/
abbrev flag : Fin count := 15

/-- The registers with every one zero. -/
def zero : Registers := Vector.replicate count 0

/-- Reads `Vi`; there is no register above 15. -/
def read (r : Registers) (i : UInt8) : Except Fault UInt8 :=
  if h : i.toNat < count then .ok r[i.toNat] else .error (.address i.toNat)

/-- Writes `Vi`; there is no register above 15. -/
def write (i value : UInt8) : Faulting Registers Unit := fun r =>
  if h : i.toNat < count then .ok () (r.set i.toNat value) else .error (.address i.toNat) r

/-- Sets VF to 1 or 0. -/
def setFlag (r : Registers) (on : Bool) : Registers := r.set flag (if on then 1 else 0)

/-- V0 up to `Vi`. -/
def upTo (r : Registers) (i : UInt8) : List UInt8 := r.toList.take (i.toNat + 1)

/-- Loads the registers from V0 on with as many bytes as there are. -/
def load (r : Registers) (bytes : List UInt8) : Registers :=
  Vector.ofFn fun i => bytes.getD i r[i]

end Registers

/-! ### The call stack -/

/-- The slots for return addresses, with the one that is never written. -/
abbrev CallStack.slotCount : Nat := 16

/-- The return addresses of the calls in progress: those in the slots from 1 to `depth`. Slot 0 is never
    written, since depth 0 is an empty stack. -/
structure CallStack where
  slots : Vector UInt16 CallStack.slotCount
  depth : UInt8
deriving DecidableEq

namespace CallStack

/-- The stack with no call in progress. -/
def empty : CallStack := ⟨Vector.replicate _ 0, 0⟩

/-- Puts a return address on, as long as there is a slot above the latest one. -/
def push (address : UInt16) : Faulting CallStack Unit := fun s =>
  if h : s.depth.toNat + 1 < slotCount then
    .ok () { slots := s.slots.set (s.depth.toNat + 1) address, depth := s.depth + 1 }
  else .error .stackOverflow s

/-- Takes the latest return address off. A depth beyond the slots has none. -/
def pop : Faulting CallStack UInt16 := fun s =>
  if h : 0 < s.depth.toNat ∧ s.depth.toNat < slotCount then
    .ok s.slots[s.depth.toNat] { s with depth := s.depth - 1 }
  else .error .stackUnderflow s

end CallStack

/-! ### The state -/

/-- Where programs are put and where they start. -/
def programStart : UInt16 := 0x200

/-- All that instructions can change, apart from the random bytes they draw. -/
structure State where
  registers : Registers := Registers.zero
  index : UInt16 := 0
  pc : UInt16 := programStart
  stack : CallStack := CallStack.empty
  delay : UInt8 := 0
  sound : UInt8 := 0
  memory : Memory := Font.memory
  screen : Screen := Screen.blank
  /-- Whether the screen has been drawn on or cleared since it was last shown. -/
  redraw : Bool := false
deriving DecidableEq

/-- The state of a machine before a program is put into it. -/
def State.initial : State := {}

end ChipEight
