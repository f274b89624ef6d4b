import ChipEight.Text.Hex

/-! # Faults

A fault is a cause for which the machine cannot go on. The operations that may meet one run in
`Faulting`, which hands back what they worked on in either case: what an operation has already
changed when it fails is part of its meaning. -/

namespace ChipEight

/-- Why an operation cannot be carried out. -/
inductive Fault where
  /-- An address outside memory, or a register number outside the register file. -/
  | address (address : Nat)
  /-- A pixel outside the screen. -/
  | coordinate (x y : Nat)
  /-- A call with every stack slot taken. -/
  | stackOverflow
  /-- A return with no call to return from. -/
  | stackUnderflow
  /-- A word that is no instruction. -/
  | unknownOpcode (opcode : UInt16)
deriving DecidableEq

/-- What is reported of a fault. -/
def Fault.message : Fault → String
  | .address a => "address 0x" ++ Hex.text 4 a ++ " is out of range"
  | .coordinate x y => s!"pixel ({x}, {y}) is outside the display"
  | .stackOverflow => "stack overflow: too many nested subroutine calls"
  | .stackUnderflow => "stack underflow: returned with no active subroutine call"
  | .unknownOpcode w => "unknown opcode 0x" ++ Hex.text 4 w.toNat

/-- An operation on an `σ` that gives an `α` or fails, and leaves an `σ` behind either way. -/
abbrev Faulting (σ α : Type) := EStateM Fault σ α

namespace Faulting
variable {σ τ α : Type}

/-- Looks something up without changing anything. -/
@[inline] def inspect (look : σ → Except Fault α) : Faulting σ α := fun s =>
  match look s with
  | .ok a => .ok a s
  | .error f => .error f s

/-- Runs an operation on one part of a whole and puts the part back, also when the operation fails. -/
@[inline] def focus (part : σ → τ) (put : σ → τ → σ) (op : Faulting τ α) : Faulting σ α := fun s =>
  match op (part s) with
  | .ok a t => .ok a (put s t)
  | .error f t => .error f (put s t)

end Faulting

end ChipEight
