import ChipEight.FrameSink
import ChipEight.Machine.Load

/-! # Running a machine

A run executes instructions until one faults or until as many have been executed as its limit allows.
After every so many of them the timers tick once. In real time a frame is shown as soon as the screen
changes; otherwise only the last one is shown, when the run is over.

The executed instructions are counted in 64 bits. A run without a limit that meets no fault goes on
forever; it is followed for as long as its count has room, and nothing is said of how it ends. -/

namespace ChipEight

/-- How a machine is to be run. -/
structure RunConfig where
  /-- The instructions in a second. -/
  clock : UInt32
  /-- The most instructions to execute; without a limit only a fault ends the run. -/
  limit : Option UInt64
  /-- The keys that are down all the time. -/
  keypad : Keypad
  realtime : Bool
deriving DecidableEq

namespace RunConfig

/-- The instructions in a second if nothing else is asked for. -/
def defaultClock : UInt32 := 500

/-- The timer ticks in a second. -/
def timerRate : Nat := 60

/-- The instructions executed if neither a limit nor real time is asked for. -/
def defaultLimit : UInt64 := 10000

/-- The instructions from one timer tick to the next, at least one. -/
def stepsPerTick (config : RunConfig) : Nat := max (config.clock.toNat / timerRate) 1

/-- The most instructions that a run is followed for: without a limit, as many as its count can hold. -/
def budget (config : RunConfig) : Nat :=
  match config.limit with
  | some n => n.toNat
  | none => UInt64.size - 1

end RunConfig

/-- How far a run has got: the machine, the sink for its frames and the number of instructions
    executed. -/
structure Progress (σ : Type) where
  machine : Machine
  sink : σ
  cycles : Nat

namespace Progress
variable {σ : Type} [FrameSink σ]

/-- Shows the screen if it has changed, and says whether it has. -/
def present : Faulting (Progress σ) Bool := fun p =>
  let (shown, machine, sink) := p.machine.present p.sink
  .ok shown { p with machine, sink }

/-- Executes one instruction and what comes with it. -/
def cycle (config : RunConfig) : Faulting (Progress σ) Unit := do
  .focus (·.machine) ({ · with machine := · }) (Machine.step config.keypad.source)
  modify fun p => { p with cycles := p.cycles + 1 }
  if (← get).cycles % config.stepsPerTick = 0 then
    modify fun p => { p with machine := p.machine.tick }
  if config.realtime then
    let _ ← present

/-- Executes instructions until one faults, but at most as many as given. -/
def advance (config : RunConfig) : Nat → Faulting (Progress σ) Unit
  | 0 => pure ()
  | n + 1 => do
    cycle config
    advance config n

/-- Shows what is left to be shown at the end of a run: outside real time always one frame. -/
def finish (config : RunConfig) (p : Progress σ) : Progress σ :=
  let (shown, machine, sink) := p.machine.present p.sink
  if shown || config.realtime then { p with machine, sink }
  else { p with machine, sink := FrameSink.render sink machine.state.screen }

end Progress

/-- How a run ends. -/
inductive RunOutcome where
  /-- The limit is reached, and so many instructions have been executed. -/
  | ok (executed : Nat)
  /-- An instruction has met a fault. -/
  | error (fault : Fault)
  /-- It has not ended: there is no limit, and no fault in as many instructions as can be counted. -/
  | unended
deriving DecidableEq

/-- The outcome of a run all of whose instructions have been executed. Only a limit ends it then. -/
def RunOutcome.ofLimit (limit : Option UInt64) (executed : Nat) : RunOutcome :=
  match limit with
  | some _ => .ok executed
  | none => .unended

/-- What comes of a run: its outcome, and the machine and the sink as they are then. Of a run left
    unended they are what they would be if it were broken off. -/
structure RunResult (σ : Type) where
  outcome : RunOutcome
  machine : Machine
  sink : σ

/-- Runs a machine. -/
def Machine.run {σ : Type} [FrameSink σ] (m : Machine) (config : RunConfig) (sink : σ) : RunResult σ :=
  match Progress.advance config config.budget { machine := m, sink, cycles := 0 } with
  | .ok _ p =>
    let p := p.finish config
    ⟨.ofLimit config.limit p.cycles, p.machine, p.sink⟩
  | .error f p =>
    let p := p.finish config
    ⟨.error f, p.machine, p.sink⟩

end ChipEight
