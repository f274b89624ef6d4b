import ChipEight.Instruction.Execute

/-! # The machine

A machine runs until an instruction faults and is halted from then on. It keeps no clock: its host
calls for steps at the clock rate and for timer ticks at 60 Hz. -/

namespace ChipEight

/-- Whether a machine still executes instructions. A halted one never does again. -/
inductive Status where
  | running
  | halted (fault : Fault)
deriving DecidableEq

namespace Cpu

/-- Fetches the word at the program counter, moves past it and executes it. If that fails the counter
    goes back to the instruction. -/
def next (keys : KeySource) : Faulting Cpu Unit := fun c =>
  match c.state.memory.readWord c.state.pc.toNat with
  | .error f => .error f c
  | .ok word =>
    let address := c.state.pc
    match execute keys (Opcode.decode word) { c with state.pc := address + 2 } with
    | .ok a c => .ok a c
    | .error f c => .error f { c with state.pc := address }

end Cpu

/-- A processor, and whether it still runs. -/
structure Machine extends Cpu where
  status : Status := .running

namespace Machine

/-- A machine with nothing but the font in memory. -/
def new (random : RandomBytes) : Machine := { state := .initial, random }

/-- A machine with another source of random bytes. -/
def withRandom (m : Machine) (random : RandomBytes) : Machine := { m with random }

/-- Executes one instruction. A fault halts the machine, and a halted machine gives its fault again. -/
def step (keys : KeySource) : Faulting Machine Unit := fun m =>
  match m.status with
  | .halted f => .error f m
  | .running =>
    match Cpu.next keys m.toCpu with
    | .ok _ c => .ok () { m with toCpu := c }
    | .error f c => .error f { toCpu := c, status := .halted f }

/-- Lets both timers count down by one, unless they are at zero. -/
def tick (m : Machine) : Machine :=
  { m with state.delay := m.state.delay - min 1 m.state.delay,
           state.sound := m.state.sound - min 1 m.state.sound }

/-- Whether the buzzer sounds. -/
def soundActive (m : Machine) : Bool := 0 < m.state.sound

/-- The screen, if it has to be shown again. -/
def frame? (m : Machine) : Option Screen := if m.state.redraw then some m.state.screen else none

end Machine

end ChipEight
