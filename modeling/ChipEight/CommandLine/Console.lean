import ChipEight.CommandLine.Task

/-! # Printing as a run goes on

A console prints texts and lets time pass. A task is carried out on a console: each frame of a run is
printed as soon as it is shown, and in real time the run waits after each instruction until the next
one is due. -/

namespace ChipEight

/-- Where texts are printed and time passes. -/
structure Console (m : Type → Type) where
  print : String → m Unit
  /-- Waits until so many instructions are due at a clock. -/
  wait : UInt32 → Nat → m Unit

section
variable {m : Type → Type} [Monad m]

namespace Progress

/-- Prints what the display has taken in since the last time. -/
def flush (console : Console m) (p : Progress TextDisplay) : m (Progress TextDisplay) := do
  unless p.sink.written.isEmpty do
    console.print p.sink.written
  return { p with sink.written := "" }

/-- Executes instructions until one faults, but at most as many as given, and prints the frames they show. -/
def advanceOn (console : Console m) (config : RunConfig) :
    Nat → Progress TextDisplay → m (EStateM.Result Fault (Progress TextDisplay) Unit)
  | 0, p => return .ok () p
  | n + 1, p =>
    match cycle config p with
    | .error f p => return .error f p
    | .ok _ p => do
      let p ← flush console p
      if config.realtime then
        console.wait config.clock p.cycles
      advanceOn console config n p

end Progress

namespace Task

/-- Carries a task out, printing as it goes on, and says why it fails if it does; nothing if it is a run
    that is not known to end. -/
def perform (console : Console m) : Task → m (Option (Option CommandError))
  | .list lines => do
    lines.forM fun line => console.print (line ++ "\n")
    return some none
  | .run machine config => do
    match ← Progress.advanceOn console config config.budget { machine, sink := display config, cycles := 0 } with
    | .error f p =>
      let _ ← (p.finish config).flush console
      return some (some (.fault f))
    | .ok _ p =>
      match config.limit with
      | some _ =>
        let _ ← (p.finish config).flush console
        return some none
      | none => return none

end Task

end

end ChipEight
