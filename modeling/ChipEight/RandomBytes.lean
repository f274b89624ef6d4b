/-! # Random bytes

The machine draws its random bytes one after the other from a sequence. The sequence is fixed in
advance, so a run is determined by it. Where it comes from is not said here. -/

namespace ChipEight

/-- A sequence of bytes and how many of them have been drawn. -/
structure RandomBytes where
  byteAt : Nat → UInt8
  drawn : Nat

namespace RandomBytes

/-- The next byte to be drawn. -/
def next (r : RandomBytes) : UInt8 := r.byteAt r.drawn

/-- The sequence with its next byte drawn. -/
def advance (r : RandomBytes) : RandomBytes := { r with drawn := r.drawn + 1 }

/-- The given bytes, then zeros. -/
def ofArray (bytes : Array UInt8) : RandomBytes := ⟨fun n => bytes.getD n 0, 0⟩

end RandomBytes

end ChipEight
