import ChipEight.Cpu
import ChipEight.Instruction.Basic

/-! # Executing an instruction

When an instruction is executed the program counter is already past it, so a skip adds two and a wait
takes two away. Operands are checked in the order `x`, `y`, memory, and all of them before anything is
changed. An instruction that yields a flag writes it last: if its result goes to VF, the flag stays. -/

namespace ChipEight

namespace Cpu

/-- Puts into `Vx` what `f` makes of `Vx` and `Vy`. -/
def combine (x y : UInt8) (f : UInt8 → UInt8 → UInt8) : Faulting Cpu Unit := do
  let a ← register x
  let b ← register y
  setRegister x (f a b)

/-- Puts into `Vx` what `f` makes of `Vx` and `Vy`, then sets the flag. -/
def combineFlagged (x y : UInt8) (f : UInt8 → UInt8 → UInt8) (flag : UInt8 → UInt8 → Bool) :
    Faulting Cpu Unit := do
  let a ← register x
  let b ← register y
  setRegister x (f a b)
  setFlag (flag a b)

/-- Puts into `Vx` what `f` makes of it, then sets the flag. -/
def shift (x : UInt8) (f : UInt8 → UInt8) (flag : UInt8 → Bool) : Faulting Cpu Unit := do
  let a ← register x
  setRegister x (f a)
  setFlag (flag a)

/-- Passes over the next instruction if `Vx` and `Vy` are as `test` says. -/
def skipWhen (x y : UInt8) (test : UInt8 → UInt8 → Bool) : Faulting Cpu Unit := do
  let a ← register x
  let b ← register y
  skipIf (test a b)

/-- Draws a sprite of the low four bits of `n` rows. -/
def draw (x y n : UInt8) : Faulting Cpu Unit := do
  let column ← register x
  let row ← register y
  let rows ← readBytes (n.toNat % 16)
  let erased ← drawSprite column.toNat row.toNat rows
  change ({ · with redraw := true })
  setFlag erased

/-- Puts the lowest key that is down into `Vx`; with no key down the same instruction comes again. -/
def waitKey (keys : KeySource) (x : UInt8) : Faulting Cpu Unit := do
  let _ ← register x
  match keys.firstDown with
  | some key => setRegister x key
  | none => change fun s => { s with pc := s.pc - 2 }

/-- The three decimal digits of a byte. -/
def decimalDigits (b : UInt8) : List UInt8 := [b / 100 % 10, b / 10 % 10, b % 10]

/-- Does what an instruction says. -/
def execute (keys : KeySource) : Instruction → Faulting Cpu Unit
  | .sys _ => pure ()
  | .clear => change fun s => { s with screen := .blank, redraw := true }
  | .ret => do jump (← popAddress)
  | .jump addr => jump addr
  | .call addr => do
    pushAddress (← ask (·.pc))
    jump addr
  | .skipEqByte x kk => do skipIf ((← register x) == kk)
  | .skipNeByte x kk => do skipIf ((← register x) != kk)
  | .skipEq x y => skipWhen x y (· == ·)
  | .loadByte x kk => setRegister x kk
  | .addByte x kk => do setRegister x ((← register x) + kk)
  | .move x y => combine x y fun _ b => b
  | .or x y => combine x y (· ||| ·)
  | .and x y => combine x y (· &&& ·)
  | .xor x y => combine x y (· ^^^ ·)
  | .add x y => combineFlagged x y (· + ·) fun a b => 0xFF < a.toNat + b.toNat
  | .sub x y => combineFlagged x y (· - ·) fun a b => b < a
  | .shiftRight x => shift x (· / 2) fun a => a % 2 == 1
  | .subFrom x y => combineFlagged x y (fun a b => b - a) fun a b => a < b
  | .shiftLeft x => shift x (2 * ·) fun a => 0x80 ≤ a
  | .skipNe x y => skipWhen x y (· != ·)
  | .loadIndex addr => change ({ · with index := addr })
  | .jumpOffset addr => do jump (addr + (← register 0).toUInt16)
  | .random x kk => do
    let _ ← register x
    setRegister x ((← randomByte) &&& kk)
  | .draw x y n => draw x y n
  | .skipDown x => do skipIf (keys.isDown (← register x))
  | .skipUp x => do skipIf (!keys.isDown (← register x))
  | .readDelay x => do setRegister x (← ask (·.delay))
  | .waitKey x => waitKey keys x
  | .setDelay x => do
    let a ← register x
    change ({ · with delay := a })
  | .setSound x => do
    let a ← register x
    change ({ · with sound := a })
  | .addIndex x => do
    let a ← register x
    change fun s => { s with index := s.index + a.toUInt16 }
  | .loadGlyph x => do
    let a ← register x
    change ({ · with index := Font.glyphAddress a })
  | .storeDecimal x => do writeBytes (decimalDigits (← register x))
  | .storeRegisters x => do
    let _ ← register x
    writeBytes (← ask (·.registers.upTo x))
  | .loadRegisters x => do
    let _ ← register x
    let bytes ← readBytes (x.toNat + 1)
    change fun s => { s with registers := s.registers.load bytes }
  | .unknown op => throw (.unknownOpcode op)

end Cpu

end ChipEight
