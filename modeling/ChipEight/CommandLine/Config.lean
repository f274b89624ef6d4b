import ChipEight.CommandLine.Args
import ChipEight.KeyLayout

/-! # From arguments to a run

The arguments that parse may still make no sense for a run: the clock must not stand still, and every
held character must be on the keypad. The clock is looked at first, then the characters in order. -/

namespace ChipEight

/-- Why arguments describe no run. -/
inductive ConfigError where
  | zeroClock
  | unmappedKey (c : Char)
deriving DecidableEq

/-- The words in which a user is told why arguments describe no run. -/
def ConfigError.message : ConfigError → String
  | .zeroClock => "clock speed must be at least 1Hz"
  | .unmappedKey c => "'" ++ c.toString ++ "' is not a keypad key"

namespace RunConfig

/-- Presses the keys that the characters are on. -/
def hold (keypad : Keypad) : List Char → Except ConfigError Keypad
  | [] => .ok keypad
  | c :: rest =>
    match KeyLayout.key? c with
    | some k => hold (keypad.press k) rest
    | none => .error (.unmappedKey c)

/-- The limit for a number of cycles asked for. Zero lifts it, and so does real time if no number is
    asked for. -/
def limitFor (cycles : Option UInt64) (realtime : Bool) : Option UInt64 :=
  match cycles, realtime with
  | none, true => none
  | none, false => some defaultLimit
  | some n, _ => if n = 0 then none else some n

/-- The run that arguments ask for. -/
def ofArgs (args : Args) : Except ConfigError RunConfig :=
  if args.clock = 0 then .error .zeroClock
  else do
    let keypad ← hold Keypad.released args.hold
    return { clock := args.clock, limit := limitFor args.cycles args.realtime, keypad,
             realtime := args.realtime }

end RunConfig

end ChipEight
