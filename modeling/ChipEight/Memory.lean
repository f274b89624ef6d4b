import ChipEight.Fault

/-! # Memory

4096 bytes, read and written one by one or as a range. A range is refused as a whole if any of its
bytes lies outside memory; the fault then names the first address that does. -/

namespace ChipEight

/-- The bytes of addressable memory. -/
abbrev Memory.capacity : Nat := 4096

/-- The contents of memory. -/
abbrev Memory := Vector UInt8 Memory.capacity

namespace Memory

/-- Memory with every byte zero. -/
def zero : Memory := Vector.replicate capacity 0

/-- The fault of a range that starts at `address` and leaves memory: the first address outside. -/
def outside (address : Nat) : Fault := .address (max address capacity)

/-- Whether `length` bytes from `address` on are all in memory. -/
def checkRange (address length : Nat) : Except Fault Unit :=
  if address + length ≤ capacity then .ok () else .error (outside address)

/-- Reads one byte. -/
def readByte (m : Memory) (address : Nat) : Except Fault UInt8 :=
  if h : address < capacity then .ok m[address] else .error (.address address)

/-- Reads `length` bytes from `address` on, or none if any of them is outside. -/
def readBytes (m : Memory) (address length : Nat) : Except Fault (List UInt8) :=
  if h : address + length ≤ capacity then .ok (List.ofFn fun i : Fin length => m[address + i])
  else .error (outside address)

/-- Reads two bytes as one number, the high byte first. -/
def readWord (m : Memory) (address : Nat) : Except Fault UInt16 :=
  if h : address + 2 ≤ capacity then
    .ok (UInt16.ofNat (0x100 * m[address].toNat + m[address + 1].toNat))
  else .error (outside address)

/-- Writes one byte. -/
def writeByte (address : Nat) (value : UInt8) : Faulting Memory Unit := fun m =>
  if h : address < capacity then .ok () (m.set address value) else .error (.address address) m

/-- Memory with `data` put at `address`; what would fall outside is dropped. -/
def store (m : Memory) (address : Nat) : List UInt8 → Memory
  | [] => m
  | b :: rest => store (m.setIfInBounds address b) (address + 1) rest

/-- Writes `data` from `address` on, or nothing if any of its bytes would be outside. -/
def writeBytes (address : Nat) (data : List UInt8) : Faulting Memory Unit := fun m =>
  if address + data.length ≤ capacity then .ok () (m.store address data)
  else .error (outside address) m

end Memory

end ChipEight
