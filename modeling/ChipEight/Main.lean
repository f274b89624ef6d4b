import ChipEight.CommandLine.Console

/-! # The command

Reads the arguments and the file, has the task carried out on the standard output, and reports what goes
wrong. The random bytes are made here, and time is that of the system. -/

namespace ChipEight

/-- What an error of the system says of a file. -/
def fileError (e : IO.Error) : FileError :=
  match e with
  | .noFileOrDirectory .. => .notFound
  | .permissionDenied .. => .permissionDenied
  | .inappropriateType _ 20 _ => .notDirectory
  | .inappropriateType _ 21 _ => .isDirectory
  | .invalidArgument _ 36 _ => .nameTooLong
  | e => .other (toString e)

/-- Opens a file and reads all of it. -/
def readRom (path : String) : IO RomFile := do
  match ← (IO.FS.Handle.mk path .read).toBaseIO with
  | .error e => return .unopened (fileError e)
  | .ok handle =>
    match ← handle.readBinToEnd.toBaseIO with
    | .error e => return .unreadable (fileError e)
    | .ok bytes => return .bytes bytes.toList

/-- Mixes the bits of a 64-bit word so that words next to each other have unlike results. -/
def mixBits (w : UInt64) : UInt64 :=
  let w := (w ^^^ (w >>> 30)) * 0xBF58476D1CE4E5B9
  let w := (w ^^^ (w >>> 27)) * 0x94D049BB133111EB
  w ^^^ (w >>> 31)

/-- The random bytes that a seed has here. They are a choice of this program alone: all that runs on them takes whichever
    it is given. -/
def mixedBytes (seed : UInt64) : RandomBytes :=
  ⟨fun n => (mixBits (seed + UInt64.ofNat (n + 1) * 0x9E3779B97F4A7C15)).toUInt8, 0⟩

/-- Random bytes that nobody can foresee. -/
def entropy : IO RandomBytes := do
  let bytes ← IO.getRandomBytes 8
  return mixedBytes (bytes.foldl (fun n b => n * 0x100 + b.toUInt64) 0)

/-- The standard output, and the time since `start`. -/
def standardConsole (start : Nat) : Console IO where
  print text := do
    let out ← IO.getStdout
    out.putStr text
    out.flush
  wait clock executed := do
    let due := start + executed * 1000000000 / max clock.toNat 1
    let now ← IO.monoNanosNow
    if now + 1000000 ≤ due then
      IO.sleep (UInt32.ofNat ((due - now) / 1000000))

end ChipEight

open ChipEight in
/-- The command, given the words that follow its name. What goes wrong is reported on the standard error, and said by
    the exit code: 2 for a command line that does not parse, 1 for anything else. -/
def main (words : List String) : IO UInt32 := do
  match Args.parse words with
  | .error e =>
    IO.eprintln ("error: " ++ e.message)
    return 2
  | .ok args =>
    let ending ← match Task.ofArgs mixedBytes args (← readRom args.rom) (← entropy) with
      | .error e => pure (some (some e))
      | .ok task => task.perform (standardConsole (← IO.monoNanosNow))
    match ending with
    | some none => return 0
    | some (some e) =>
      IO.eprintln ("chip8: " ++ e.message)
      return 1
    | none =>
      IO.eprintln "chip8: too many instructions to be counted"
      return 1
