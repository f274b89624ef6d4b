/-! # Keys

The machine has sixteen keys, numbered 0 to 15. It asks a key source which of them are down; the keypad
is the source that follows the presses and releases it is told of. -/

namespace ChipEight

/-- Where the machine learns which keys are down. -/
structure KeySource where
  isDown : UInt8 → Bool

namespace KeySource

/-- The number of keys. -/
abbrev keyCount : Nat := 16

/-- The keys in order. -/
def keys : List UInt8 := (List.range keyCount).map UInt8.ofNat

/-- The lowest key that is down. It is found by asking for one key after the other; no source has a way
    of its own to tell it. -/
def firstDown (s : KeySource) : Option UInt8 := keys.find? s.isDown

/-- The source of which no key is ever down. -/
def idle : KeySource := ⟨fun _ => false⟩

/-- The source that has down what the table says, and no key beyond it. -/
def ofTable (down : Vector Bool keyCount) : KeySource :=
  ⟨fun k => if h : k.toNat < keyCount then down[k.toNat] else false⟩

end KeySource

/-- Which of the sixteen keys are down. -/
structure Keypad where
  down : Vector Bool KeySource.keyCount
deriving DecidableEq

namespace Keypad

/-- The keypad with no key down. -/
def released : Keypad := ⟨Vector.replicate _ false⟩

/-- Puts a key down; there is no key above 15. -/
def press (p : Keypad) (k : UInt8) : Keypad := ⟨p.down.setIfInBounds k.toNat true⟩

/-- Lets a key go; there is no key above 15. -/
def release (p : Keypad) (k : UInt8) : Keypad := ⟨p.down.setIfInBounds k.toNat false⟩

/-- Lets every key go. -/
def releaseAll (_ : Keypad) : Keypad := released

/-- The keypad as a key source. -/
def source (p : Keypad) : KeySource := .ofTable p.down

end Keypad

end ChipEight
