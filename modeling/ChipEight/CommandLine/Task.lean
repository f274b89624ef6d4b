import ChipEight.CommandLine.Config
import ChipEight.CommandLine.RomFile
import ChipEight.Listing
import ChipEight.TextDisplay

/-! # What the command does

The command lists a program or runs it. A listing is made of any file whatever the other arguments
are. For a run the arguments are looked at before the program, and nothing is printed before both are
in order. The random bytes come from outside: `ofSeed` says which ones a seed has, and `entropy` are
those of a run without a seed. -/

namespace ChipEight

/-- Why the command fails. -/
inductive CommandError where
  | file (error : FileError)
  | config (error : ConfigError)
  | load (error : LoadError)
  | fault (fault : Fault)

/-- The words in which a user is told why the command fails. -/
def CommandError.message : CommandError → String
  | .file e => e.message
  | .config e => e.message
  | .load e => e.message
  | .fault f => f.message

/-- What the command is to do once its arguments and its file have been looked at. -/
inductive Task where
  | list (lines : List String)
  | run (machine : Machine) (config : RunConfig)

namespace Task

/-- The random bytes for a run: those of the seed, if there is one. -/
def randomFor (ofSeed : UInt64 → RandomBytes) (seed : Option UInt64) (entropy : RandomBytes) : RandomBytes :=
  match seed with
  | some n => ofSeed n
  | none => entropy

/-- The run that arguments ask for, of the program that a source delivers. -/
def ofSource (ofSeed : UInt64 → RandomBytes) (args : Args) (source : Except String (List UInt8))
    (entropy : RandomBytes) : Except CommandError Task := do
  let config ← (RunConfig.ofArgs args).mapError .config
  let machine ← (Machine.load source entropy).mapError .load
  return .run (machine.withRandom (randomFor ofSeed args.seed entropy)) config

/-- The task that arguments ask for. -/
def ofArgs (ofSeed : UInt64 → RandomBytes) (args : Args) (file : RomFile) (entropy : RandomBytes) :
    Except CommandError Task :=
  match file with
  | .unopened e => .error (.file e)
  | .unreadable e =>
    if args.disassemble then .error (.file e) else ofSource ofSeed args (.error e.message) entropy
  | .bytes program =>
    if args.disassemble then .ok (.list (disassemble program programStart))
    else ofSource ofSeed args (.ok program) entropy

/-- The display of a run: in real time each frame replaces the one before. -/
def display (config : RunConfig) : TextDisplay := { clear := config.realtime }

/-- What a task prints and, if it fails, why; nothing if it is a run that is not known to end. -/
def result : Task → Option (String × Option CommandError)
  | .list lines => some (String.join (lines.map (· ++ "\n")), none)
  | .run machine config =>
    let result := machine.run config (display config)
    match result.outcome with
    | .ok _ => some (result.sink.written, none)
    | .error f => some (result.sink.written, some (.fault f))
    | .unended => none

end Task

/-- What the command prints and, if it fails, why; nothing if its run is not known to end. -/
def command (ofSeed : UInt64 → RandomBytes) (args : Args) (file : RomFile) (entropy : RandomBytes) :
    Option (String × Option CommandError) :=
  match Task.ofArgs ofSeed args file entropy with
  | .error e => some ("", some e)
  | .ok task => task.result

end ChipEight
