import ChipEight.CommandLine.Numeral
import ChipEight.Run

/-! # Arguments

The words of a command line are first told apart into operands, settings with a value and switches.
A setting takes its value from the same word, after an equals sign, or else from the next word. After
a lone double dash every word is an operand. -/

namespace ChipEight

/-- What a command line asks for. -/
structure Args where
  /-- The file with the program. -/
  rom : String
  clock : UInt32 := RunConfig.defaultClock
  cycles : Option UInt64 := none
  /-- The characters of the keys to hold down. -/
  hold : List Char := []
  realtime : Bool := false
  seed : Option UInt64 := none
  disassemble : Bool := false
deriving DecidableEq

/-- What is wrong with a command line. -/
inductive UsageError where
  | unknownOption (word : String)
  | missingValue (option : String)
  | invalidValue (option value : String)
  | unneededValue (option : String)
  | repeatedOption (option : String)
  | unexpectedOperand (word : String)
  | missingRom
deriving DecidableEq

/-- The words in which a user is told what is wrong with a command line. -/
def UsageError.message : UsageError → String
  | .unknownOption word => s!"unknown option '{word}'"
  | .missingValue option => s!"option '--{option}' needs a value"
  | .invalidValue option value => s!"invalid value '{value}' for option '--{option}'"
  | .unneededValue option => s!"option '--{option}' takes no value"
  | .repeatedOption option => s!"option '--{option}' is given more than once"
  | .unexpectedOperand word => s!"unexpected argument '{word}'"
  | .missingRom => "no ROM is given"

namespace CommandLine

/-- The options that take a value. -/
inductive Setting where
  | clock
  | cycles
  | hold
  | seed
deriving DecidableEq

/-- The options that take none. -/
inductive Switch where
  | realtime
  | disassemble
deriving DecidableEq

/-- What is written after the two dashes to give a setting. -/
def Setting.name : Setting → String
  | .clock => "clock"
  | .cycles => "cycles"
  | .hold => "hold"
  | .seed => "seed"

/-- What is written after the two dashes to turn a switch on. -/
def Switch.name : Switch → String
  | .realtime => "realtime"
  | .disassemble => "disassemble"

/-- The settings in the order in which a name is looked up among them. -/
def settings : List Setting := [.clock, .cycles, .hold, .seed]

/-- The switches in the order in which a name is looked up among them. -/
def switches : List Switch := [.realtime, .disassemble]

/-- A part of a command line. -/
inductive Item where
  | operand (word : String)
  | setting (setting : Setting) (value : String)
  | switch (switch : Switch)
deriving DecidableEq

/-- How a word begins. -/
inductive Shape where
  | plain
  | doubleDash
  /-- A long option: its name and the value that is attached to it. -/
  | long (name : String) (attached : Option String)
  /-- A short option, of which there are none. -/
  | short

/-- Parts a long option at its first equals sign. -/
def splitAttached (cs : List Char) : String × Option String :=
  match cs.span (· != '=') with
  | (name, _ :: value) => (.ofList name, some (.ofList value))
  | (name, []) => (.ofList name, none)

/-- A lone dash is a plain word. -/
def shape (word : String) : Shape :=
  match word.toList with
  | ['-', '-'] => .doubleDash
  | '-' :: '-' :: cs =>
    let (name, attached) := splitAttached cs
    .long name attached
  | '-' :: _ :: _ => .short
  | _ => .plain

/-- Tells the words of a command line apart. -/
def items : List String → Except UsageError (List Item)
  | [] => .ok []
  | word :: rest =>
    match shape word with
    | .plain => (.operand word :: ·) <$> items rest
    | .doubleDash => .ok (rest.map .operand)
    | .short => .error (.unknownOption word)
    | .long name attached =>
      match settings.find? (·.name = name), switches.find? (·.name = name), attached with
      | some s, _, some value => (.setting s value :: ·) <$> items rest
      | some s, _, none =>
        match rest with
        | [] => .error (.missingValue name)
        | value :: rest =>
          match shape value with
          | .plain => (.setting s value :: ·) <$> items rest
          | _ => .error (.missingValue name)
      | none, some s, none => (.switch s :: ·) <$> items rest
      | none, some _, some _ => .error (.unneededValue name)
      | none, none, _ => .error (.unknownOption word)

/-- The characters between the commas of a value, each of which must stand alone. -/
def characters? (value : String) : Option (List Char) :=
  (value.toList.splitOn ',').mapM fun
    | [c] => some c
    | _ => none

/-- A number that a setting gives, below `bound`. -/
def number (s : Setting) (value : String) (read : List Char → Option Nat) (bound : Nat) :
    Except UsageError Nat :=
  match read value.toList with
  | some n => if n < bound then .ok n else .error (.invalidValue s.name value)
  | none => .error (.invalidValue s.name value)

/-- What has been read of a command line. -/
structure Draft where
  rom : Option String := none
  clock : Option UInt32 := none
  cycles : Option UInt64 := none
  hold : List Char := []
  realtime : Bool := false
  seed : Option UInt64 := none
  disassemble : Bool := false

/-- Takes one more item in. Only held keys may be given more than once. -/
def Draft.add (d : Draft) : Item → Except UsageError Draft
  | .operand word =>
    if d.rom.isSome then .error (.unexpectedOperand word)
    else if word.isEmpty then .error .missingRom
    else .ok { d with rom := some word }
  | .setting .clock value => do
    let n ← number .clock value Numeral.signedValue? UInt32.size
    if d.clock.isSome then .error (.repeatedOption "clock")
    else .ok { d with clock := some (.ofNat n) }
  | .setting .cycles value => do
    let n ← number .cycles value Numeral.value? UInt64.size
    if d.cycles.isSome then .error (.repeatedOption "cycles")
    else .ok { d with cycles := some (.ofNat n) }
  | .setting .seed value => do
    let n ← number .seed value Numeral.value? UInt64.size
    if d.seed.isSome then .error (.repeatedOption "seed")
    else .ok { d with seed := some (.ofNat n) }
  | .setting .hold value =>
    match characters? value with
    | some cs => .ok { d with hold := d.hold ++ cs }
    | none => .error (.invalidValue "hold" value)
  | .switch .realtime =>
    if d.realtime then .error (.repeatedOption "realtime") else .ok { d with realtime := true }
  | .switch .disassemble =>
    if d.disassemble then .error (.repeatedOption "disassemble")
    else .ok { d with disassemble := true }

/-- The arguments that a draft comes to. Only the ROM has to be given. -/
def Draft.finish (d : Draft) : Except UsageError Args :=
  match d.rom with
  | some rom =>
    .ok { rom, clock := d.clock.getD RunConfig.defaultClock, cycles := d.cycles, hold := d.hold,
          realtime := d.realtime, seed := d.seed, disassemble := d.disassemble }
  | none => .error .missingRom

end CommandLine

/-- Reads a command line, given as its words without the name of the program. -/
def Args.parse (words : List String) : Except UsageError Args := do
  let items ← CommandLine.items words
  let draft ← items.foldlM CommandLine.Draft.add {}
  draft.finish

end ChipEight
