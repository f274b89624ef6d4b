import ChipEight.Machine.Basic

/-! # Loading a program

A program is a list of bytes that is copied into memory from 0x200 on. It is read from its source
once, and it must fit. -/

namespace ChipEight

/-- The most bytes that a program can have. -/
def maxProgramSize : Nat := Memory.capacity - programStart.toNat

/-- Why a program cannot be loaded. -/
inductive LoadError where
  | tooLarge (size : Nat)
  | unreadable (reason : String)
deriving DecidableEq

/-- The words in which a user is told why a program cannot be loaded. -/
def LoadError.message : LoadError → String
  | .tooLarge size => s!"ROM is {size} bytes but at most {maxProgramSize} fit in memory"
  | .unreadable reason => s!"unable to read ROM: {reason}"

namespace Machine

/-- A new machine with a program in it. -/
def ofProgram (program : List UInt8) (random : RandomBytes) : Except LoadError Machine :=
  if program.length ≤ maxProgramSize then
    let m := new random
    .ok { m with state.memory := m.state.memory.store programStart.toNat program }
  else .error (.tooLarge program.length)

/-- A new machine with the program that a source delivers, or the reason why it delivers none. -/
def load (source : Except String (List UInt8)) (random : RandomBytes) : Except LoadError Machine :=
  match source with
  | .ok program => ofProgram program random
  | .error reason => .error (.unreadable reason)

end Machine

end ChipEight
