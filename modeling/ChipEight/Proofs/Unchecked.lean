import ChipEight.Proofs.Step

/-! # Accesses without a check

Some accesses to an array are not checked where they are made but rely on a check made before or on what
every state keeps. Here they are written out with nothing to rely on: where an access leaves its array, the
operation breaks off and has no fault to report. As long as the call stack has no more than fifteen return
addresses, no access does, and the operations are those of the machine. -/

namespace ChipEight

/-- An operation that may meet a fault, or break off at an access outside an array. -/
abbrev Unchecked (σ α : Type) := EStateM (Option Fault) σ α

/-- The elements of a list from one place up to another, unless it is too short. -/
def slice? {α : Type} (l : List α) (start stop : Nat) : Option (List α) :=
  if start ≤ stop ∧ stop ≤ l.length then some ((l.take stop).drop start) else none

/-- A vector with one element overwritten, unless it is too short. -/
def place? {α : Type} {n : Nat} (xs : Vector α n) (i : Nat) (a : α) : Option (Vector α n) :=
  if h : i < n then some (xs.set i a) else none

namespace Unchecked

section
variable {σ α : Type}

/-- An operation that makes only checked accesses. -/
def ofFaulting (op : Faulting σ α) : Unchecked σ α := fun s =>
  match op s with
  | .ok a s => .ok a s
  | .error f s => .error (some f) s

/-- Reads what may lie outside an array. -/
def access (look : σ → Option α) : Unchecked σ α := fun s =>
  match look s with
  | some a => .ok a s
  | none => .error none s

/-- Writes what may lie outside an array. -/
def update (write : σ → Option σ) : Unchecked σ Unit := fun s =>
  match write s with
  | some s => .ok () s
  | none => .error none s

end

/-! ### The operations that make such accesses -/

/-- Puts a return address on. The depth is checked, but not that the slot exists. -/
def push (address : UInt16) : Unchecked Cpu Unit := do
  let top := (← get).state.stack.depth.toNat + 1
  if CallStack.slotCount ≤ top then
    throw (some .stackOverflow)
  update fun c => (place? c.state.stack.slots top address).map fun slots => { c with state.stack.slots := slots }
  modify fun c => { c with state.stack.depth := UInt8.ofNat top }

/-- Takes the latest return address off. Only an empty stack is checked for, not a depth beyond the slots. -/
def pop : Unchecked Cpu UInt16 := do
  if (← get).state.stack.depth = 0 then
    throw (some .stackUnderflow)
  let address ← access fun c => c.state.stack.slots[c.state.stack.depth.toNat]?
  modify fun c => { c with state.stack.depth := c.state.stack.depth - 1 }
  return address

/-- The one check that accesses to memory rely on: `length` bytes from `address` on are all in memory. -/
def checkRange (address length : Nat) : Unchecked Cpu Unit :=
  ofFaulting (.inspect fun _ => Memory.checkRange address length)

/-- Reads bytes as a slice of memory after its range has been checked. -/
def readBytes (address length : Nat) : Unchecked Cpu (List UInt8) := do
  checkRange address length
  access fun c => slice? c.state.memory.toList address (address + length)

/-- Writes bytes over a slice of memory after its range has been checked. -/
def writeBytes (address : Nat) (data : List UInt8) : Unchecked Cpu Unit := do
  checkRange address data.length
  update fun c => (slice? c.state.memory.toList address (address + data.length)).map fun _ =>
    { c with state.memory := c.state.memory.store address data }

/-- Reads two bytes and takes them as the first and the second of what was read. -/
def readWord (address : Nat) : Unchecked Cpu Opcode := do
  let bytes ← readBytes address 2
  let high ← access fun _ => bytes[0]?
  let low ← access fun _ => bytes[1]?
  return .ofBytes high low

/-- Flips a pixel. Its column and row are checked, but not that its place is among the pixels. -/
def flip (p : Nat × Nat) : Unchecked Cpu Bool :=
  if p.1 < Screen.width ∧ p.2 < Screen.height then do
    let i := p.1 + p.2 * Screen.width
    let lit ← access fun c => c.state.screen.pixels[i]?
    update fun c => (place? c.state.screen.pixels i !lit).map fun pixels => { c with state.screen := ⟨pixels⟩ }
    return lit
  else throw (some (.coordinate p.1 p.2))

/-- Flips pixels one by one and says whether any was erased. -/
def flipAll : List (Nat × Nat) → Unchecked Cpu Bool
  | [] => pure false
  | p :: rest => do
    let erased ← flip p
    let more ← flipAll rest
    return erased || more

/-- Draws the given rows of the sprite that starts at an address. -/
def drawRows (x y start : Nat) : List Nat → Unchecked Cpu Bool
  | [] => pure false
  | r :: rest => do
    let row ← access fun c => c.state.memory[start + r]?
    let erased ← flipAll (Sprite.rowPoints x y r row)
    let more ← drawRows x y start rest
    return erased || more

/-- Draws a sprite. The range of its rows is checked at once, and each is then read where it is drawn. -/
def draw (x y n : UInt8) : Unchecked Cpu Unit := do
  let column ← ofFaulting (Cpu.register x)
  let row ← ofFaulting (Cpu.register y)
  let start := (← get).state.index.toNat
  let height := n.toNat % 16
  checkRange start height
  let erased ← drawRows column.toNat row.toNat start (List.range height)
  ofFaulting (Cpu.change ({ · with redraw := true }))
  ofFaulting (Cpu.setFlag erased)

/-- Writes V0 up to `Vx`, taken as a slice of the registers, from the index on. -/
def storeRegisters (x : UInt8) : Unchecked Cpu Unit := do
  let _ ← ofFaulting (Cpu.register x)
  let c ← get
  let bytes ← access fun c => slice? c.state.registers.toList 0 (x.toNat + 1)
  writeBytes c.state.index.toNat bytes

/-- Loads V0 up to `Vx`, a slice of the registers, from the index on. -/
def loadRegisters (x : UInt8) : Unchecked Cpu Unit := do
  let _ ← ofFaulting (Cpu.register x)
  let c ← get
  let bytes ← readBytes c.state.index.toNat (x.toNat + 1)
  update fun c => (slice? c.state.registers.toList 0 (x.toNat + 1)).map fun _ =>
    { c with state.registers := c.state.registers.load bytes }

/-- Executes an instruction. Those not named make no access without a check. -/
def execute (keys : KeySource) : Instruction → Unchecked Cpu Unit
  | .ret => do
    let address ← pop
    ofFaulting (Cpu.jump address)
  | .call addr => do
    push (← get).state.pc
    ofFaulting (Cpu.jump addr)
  | .draw x y n => draw x y n
  | .storeDecimal x => do
    let a ← ofFaulting (Cpu.register x)
    writeBytes (← get).state.index.toNat (Cpu.decimalDigits a)
  | .storeRegisters x => storeRegisters x
  | .loadRegisters x => loadRegisters x
  | i => ofFaulting (Cpu.execute keys i)

/-- Fetches the word at the program counter and executes it. -/
def next (keys : KeySource) : Unchecked Cpu Unit := fun c =>
  match readWord c.state.pc.toNat c with
  | .error f c => .error f c
  | .ok word c =>
    let address := c.state.pc
    match execute keys word.decode { c with state.pc := address + 2 } with
    | .ok a c => .ok a c
    | .error f c => .error f { c with state.pc := address }

/-- Executes one instruction of a machine. One that breaks off does not halt it. -/
def step (keys : KeySource) : Unchecked Machine Unit := fun m =>
  match m.status with
  | .halted f => .error (some f) m
  | .running =>
    match next keys m.toCpu with
    | .ok _ c => .ok () { m with toCpu := c }
    | .error (some f) c => .error (some f) { toCpu := c, status := .halted f }
    | .error none c => .error none { m with toCpu := c }

/-! ### Each access stays within its array -/

theorem ofFaulting_apply {σ α : Type} (op : Faulting σ α) (s : σ) :
    ofFaulting op s = match op s with
      | .ok a s => .ok a s
      | .error f s => .error (some f) s := rfl

theorem get_apply {σ : Type} (s : σ) : (get : Unchecked σ σ) s = .ok s s := rfl

theorem throw_apply {σ α : Type} (f : Option Fault) (s : σ) : (throw f : Unchecked σ α) s = .error f s := rfl

theorem modify_apply {σ : Type} (g : σ → σ) (s : σ) : (modify g : Unchecked σ Unit) s = .ok () (g s) := rfl

theorem push_eq (address : UInt16) (c : Cpu) : push address c = ofFaulting (Cpu.pushAddress address) c := by
  simp only [push, bind_apply, get_apply, ofFaulting_apply, Cpu.pushAddress_apply]
  by_cases h : c.state.stack.depth.toNat + 1 < CallStack.slotCount
  · have hdepth : UInt8.ofNat (c.state.stack.depth.toNat + 1) = c.state.stack.depth + 1 := by
      simp
    simp [h, Nat.not_le.mpr h, place?, update, CallStack.pushed, set_eq_setIfInBounds, bind_apply,
      modify_apply, hdepth]
  · simp [h, Nat.not_lt.mp h, throw_apply, bind_apply]

/-- The depth tells the slots in use only as long as there are that many slots. -/
theorem pop_eq {c : Cpu} (h : c.state.stack.depth.toNat ≤ 15) : pop c = ofFaulting Cpu.popAddress c := by
  simp only [pop, bind_apply, get_apply, ofFaulting_apply, Cpu.popAddress_apply]
  by_cases h0 : c.state.stack.depth = 0
  · simp [h0, throw_apply, bind_apply]
  · have hpos : 0 < c.state.stack.depth.toNat := by
      rw [Nat.pos_iff_ne_zero]
      exact fun h' => h0 (UInt8.toNat_inj.mp h')
    have hlt : c.state.stack.depth.toNat < CallStack.slotCount := by
      simp only [CallStack.slotCount]
      omega
    rw [if_neg h0, if_pos ⟨hpos, hlt⟩]
    simp only [bind_apply, access, Vector.getElem?_eq_getElem hlt, modify_apply, pure_apply, CallStack.top,
      CallStack.slot, Option.getD_some, CallStack.popped]

theorem slice?_memory (m : Memory) {address length : Nat} (h : address + length ≤ Memory.capacity) :
    slice? m.toList address (address + length) = some (m.bytes address length) := by
  have hlen : m.toList.length = Memory.capacity := Vector.length_toList
  rw [slice?, if_pos ⟨by omega, by omega⟩]
  congr 1
  refine List.ext_getElem ?_ fun i hi hi' => ?_
  · simp
    omega
  · have : i < length := by simpa using hi'
    simp [Memory.bytes, m.byte_eq_getElem (show address + i < Memory.capacity by omega)]

theorem checkRange_apply (address length : Nat) (c : Cpu) :
    checkRange address length c =
      if address + length ≤ Memory.capacity then .ok () c else .error (some (Memory.outside address)) c := by
  simp only [checkRange, ofFaulting_apply, Faulting.inspect, Memory.checkRange]
  by_cases h : address + length ≤ Memory.capacity <;> simp only [h, if_true, if_false]

theorem readBytes_apply (address length : Nat) (c : Cpu) :
    readBytes address length c =
      if address + length ≤ Memory.capacity then .ok (c.state.memory.bytes address length) c
      else .error (some (Memory.outside address)) c := by
  by_cases h : address + length ≤ Memory.capacity
  · simp [readBytes, bind_apply, checkRange_apply, h, access, slice?_memory]
  · simp [readBytes, bind_apply, checkRange_apply, h]

theorem writeBytes_apply (address : Nat) (data : List UInt8) (c : Cpu) :
    writeBytes address data c =
      if address + data.length ≤ Memory.capacity then
        .ok () { c with state.memory := c.state.memory.store address data }
      else .error (some (Memory.outside address)) c := by
  by_cases h : address + data.length ≤ Memory.capacity
  · simp [writeBytes, bind_apply, checkRange_apply, h, update, slice?_memory]
  · simp [writeBytes, bind_apply, checkRange_apply, h]

theorem readWord_apply (address : Nat) (c : Cpu) :
    readWord address c =
      if address + 2 ≤ Memory.capacity then .ok (c.state.memory.word address) c
      else .error (some (Memory.outside address)) c := by
  have hbytes : c.state.memory.bytes address 2 =
      [c.state.memory.byte address, c.state.memory.byte (address + 1)] := by
    simp [Memory.bytes, List.range_succ]
  by_cases h : address + 2 ≤ Memory.capacity
  · simp only [readWord, bind_apply, readBytes_apply, if_pos h, hbytes, access, List.getElem?_cons_zero,
      List.getElem?_cons_succ]
    rfl
  · simp only [readWord, bind_apply, readBytes_apply, if_neg h]

theorem flip_apply {p : Nat × Nat} (hp : Screen.InGrid p) (c : Cpu) :
    flip p c = .ok (c.state.screen.lit p) { c with state.screen := c.state.screen.toggled p } := by
  have hp' : p.1 < Screen.width ∧ p.2 < Screen.height := hp
  simp only [flip, if_pos hp', bind_apply, pure_apply, access, hp.getElem?_pixels, update, place?,
    dif_pos hp.index_lt, Option.map_some, set_eq_setIfInBounds, Screen.toggled]

theorem flipAll_apply {points : List (Nat × Nat)} (h : ∀ p ∈ points, Screen.InGrid p) (c : Cpu) :
    flipAll points c =
      .ok (c.state.screen.erases points) { c with state.screen := c.state.screen.overlaid points } := by
  induction points generalizing c with
  | nil => rfl
  | cons p rest ih =>
    simp only [flipAll, bind_apply, pure_apply, flip_apply (h p List.mem_cons_self),
      ih fun q hq => h q (List.mem_cons_of_mem p hq)]
    rfl

theorem drawRows_apply (x y start : Nat) {rows : List Nat} (h : ∀ r ∈ rows, start + r < Memory.capacity)
    (c : Cpu) :
    drawRows x y start rows c =
      let points := rows.flatMap fun r => Sprite.rowPoints x y r (c.state.memory.byte (start + r))
      .ok (c.state.screen.erases points) { c with state.screen := c.state.screen.overlaid points } := by
  induction rows generalizing c with
  | nil => rfl
  | cons r rest ih =>
    have hrow : c.state.memory[start + r]? = some (c.state.memory.byte (start + r)) := by
      rw [Memory.byte, Vector.getElem?_eq_getElem (h r List.mem_cons_self), Option.getD_some]
    have hgrid : ∀ p ∈ Sprite.rowPoints x y r (c.state.memory.byte (start + r)), Screen.InGrid p :=
      fun _ hp => Sprite.inGrid_of_mem_rowPoints hp
    have hrest : ∀ r ∈ rest, start + r < Memory.capacity := fun r hr => h r (List.mem_cons_of_mem _ hr)
    simp only [drawRows, bind_apply, pure_apply, access, hrow, flipAll_apply hgrid, ih hrest, List.flatMap_cons,
      Screen.erases_append, Screen.overlaid_append]

theorem draw_eq (x y n : UInt8) (c : Cpu) : draw x y n c = ofFaulting (Cpu.draw x y n) c := by
  simp only [draw, Cpu.draw, bind_apply, get_apply, ofFaulting_apply, Cpu.register_apply, Cpu.readBytes_apply,
    checkRange_apply, Cpu.drawSprite_apply, Cpu.change_apply, Cpu.setFlag_apply]
  cases Registers.missing x <;> cases Registers.missing y <;> simp only [if_true, if_false, Bool.false_eq_true]
  by_cases h : c.state.index.toNat + n.toNat % 16 ≤ Memory.capacity
  · have hrows : ∀ r ∈ List.range (n.toNat % 16), c.state.index.toNat + r < Memory.capacity := by
      intro r hr
      rw [List.mem_range] at hr
      omega
    simp only [if_pos h, drawRows_apply _ _ _ hrows, Sprite.points_bytes]
  · simp only [if_neg h]

theorem writeBytes_eq (data : List UInt8) (c : Cpu) :
    writeBytes c.state.index.toNat data c = ofFaulting (Cpu.writeBytes data) c := by
  rw [writeBytes_apply, ofFaulting_apply, Cpu.writeBytes_apply]
  by_cases h : c.state.index.toNat + data.length ≤ Memory.capacity <;> simp only [h, if_true, if_false]

theorem slice?_registers (r : Registers) {x : UInt8} (h : Registers.missing x = false) :
    slice? r.toList 0 (x.toNat + 1) = some (r.upTo x) := by
  have hx := Registers.missing_eq_false_iff.mp h
  have hlen : r.toList.length = 16 := Vector.length_toList
  rw [slice?, if_pos ⟨by omega, by omega⟩]
  rfl

theorem storeRegisters_eq (keys : KeySource) (x : UInt8) (c : Cpu) :
    storeRegisters x c = ofFaulting (Cpu.execute keys (.storeRegisters x)) c := by
  simp only [storeRegisters, Cpu.execute, bind_apply, get_apply, ofFaulting_apply, Cpu.register_apply,
    Cpu.ask_apply, access]
  cases hx : Registers.missing x
  · simp only [Bool.false_eq_true, if_false, slice?_registers _ hx, writeBytes_eq, ofFaulting_apply]
  · simp only [if_true]

theorem loadRegisters_eq (keys : KeySource) (x : UInt8) (c : Cpu) :
    loadRegisters x c = ofFaulting (Cpu.execute keys (.loadRegisters x)) c := by
  simp only [loadRegisters, Cpu.execute, bind_apply, get_apply, ofFaulting_apply, Cpu.register_apply,
    readBytes_apply, Cpu.readBytes_apply, Cpu.change_apply, update]
  cases hx : Registers.missing x
  · by_cases h : c.state.index.toNat + (x.toNat + 1) ≤ Memory.capacity <;>
      simp only [Bool.false_eq_true, if_false, h, if_true, slice?_registers _ hx, Option.map_some]
  · simp only [if_true]

theorem ofFaulting_bind {σ α β : Type} (op : Faulting σ α) (rest : α → Faulting σ β) (s : σ) :
    ofFaulting (op >>= rest) s = (ofFaulting op >>= fun a => ofFaulting (rest a)) s := by
  simp only [ofFaulting_apply, bind_apply]
  cases op s <;> rfl

theorem ofFaulting_ask {α : Type} (look : State → α) (c : Cpu) :
    ofFaulting (Cpu.ask look) c = .ok (look c.state) c := rfl

theorem execute_eq (keys : KeySource) (i : Instruction) {c : Cpu} (h : c.state.stack.depth.toNat ≤ 15) :
    execute keys i c = ofFaulting (Cpu.execute keys i) c := by
  cases i with
  | call addr =>
    simp only [execute, Cpu.execute, ofFaulting_bind, bind_apply, get_apply, ofFaulting_ask, push_eq]
  | ret => simp only [execute, Cpu.execute, ofFaulting_bind, bind_apply, pop_eq h]
  | draw x y n => exact draw_eq x y n c
  | storeDecimal x =>
    simp only [execute, Cpu.execute, ofFaulting_bind, bind_apply, get_apply, writeBytes_eq]
  | storeRegisters x => exact storeRegisters_eq keys x c
  | loadRegisters x => exact loadRegisters_eq keys x c
  | _ => rfl

theorem next_eq (keys : KeySource) {c : Cpu} (h : c.state.stack.depth.toNat ≤ 15) :
    next keys c = ofFaulting (Cpu.next keys) c := by
  simp only [next, readWord_apply, ofFaulting_apply, Cpu.next, Memory.readWord_eq]
  by_cases hpc : c.state.pc.toNat + 2 ≤ Memory.capacity
  · have hexecute := execute_eq keys (Opcode.decode (c.state.memory.word c.state.pc.toNat))
      (c := { c with state.pc := c.state.pc + 2 }) h
    simp only [if_pos hpc, hexecute, ofFaulting_apply]
    cases Cpu.execute keys (Opcode.decode (c.state.memory.word c.state.pc.toNat))
      { c with state.pc := c.state.pc + 2 } <;> rfl
  · simp only [if_neg hpc]

/-- With no more than fifteen return addresses on the call stack no access of a step leaves its array. -/
theorem step_eq (keys : KeySource) {m : Machine} (h : m.state.stack.depth.toNat ≤ 15) :
    step keys m = ofFaulting (Machine.step keys) m := by
  simp only [step, Machine.step, ofFaulting_apply, next_eq keys h]
  cases m.status with
  | halted f => rfl
  | running => cases Cpu.next keys m.toCpu <;> rfl

end Unchecked

end ChipEight
