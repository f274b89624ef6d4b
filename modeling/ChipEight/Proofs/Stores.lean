import ChipEight.Proofs.Footprint
import ChipEight.Proofs.Schedule

/-! # Memory as the history of its stores

Two instructions write to memory: one stores the digits of a register, the other the registers up to one. So
memory is what was loaded with all that these have stored put over it, one store after the other, and each of
its bytes is the one that the last store over it has put there. -/

namespace ChipEight

/-! ### Stores -/

/-- Bytes that an instruction puts into memory, and where they start. -/
structure Store where
  address : Nat
  bytes : List UInt8
deriving DecidableEq

namespace Store

/-- The byte that a store puts at an address, if it covers that. -/
def byte? (t : Store) (a : Nat) : Option UInt8 := if t.address ≤ a then t.bytes[a - t.address]? else none

/-- Whether a store writes to an address. -/
def Covers (t : Store) (a : Nat) : Prop := t.address ≤ a ∧ a < t.address + t.bytes.length

instance (t : Store) (a : Nat) : Decidable (t.Covers a) := inferInstanceAs (Decidable (_ ∧ _))

/-- The byte that the last of some stores over an address has put there. -/
def last? (history : List Store) (a : Nat) : Option UInt8 := (history.filterMap (·.byte? a)).getLast?

theorem byte?_eq_none_of_not_covers {t : Store} {a : Nat} (h : ¬t.Covers a) : t.byte? a = none := by
  unfold byte?
  split
  · next hle =>
    have hlt : ¬a < t.address + t.bytes.length := fun hlt => h ⟨hle, hlt⟩
    exact List.getElem?_eq_none (by omega)
  · rfl

theorem last?_cons (t : Store) (history : List Store) (a : Nat) :
    last? (t :: history) a = (last? history a).or (t.byte? a) := by
  rw [last?, last?, List.filterMap_cons]
  cases t.byte? a with
  | none => rw [Option.or_none]
  | some b =>
    rw [List.getLast?_cons]
    cases (history.filterMap (·.byte? a)).getLast? <;> rfl

theorem last?_eq_none {history : List Store} {a : Nat} (h : ∀ t ∈ history, ¬t.Covers a) : last? history a = none := by
  have hnil : history.filterMap (·.byte? a) = [] :=
    List.filterMap_eq_nil_iff.mpr fun t ht => byte?_eq_none_of_not_covers (h t ht)
  rw [last?, hnil, List.getLast?_nil]

end Store

namespace Memory

/-- Memory after a store. -/
def put (m : Memory) (t : Store) : Memory := m.store t.address t.bytes

theorem byte_put (m : Memory) (t : Store) {a : Nat} (h : a < capacity) :
    (m.put t).byte a = (t.byte? a).getD (m.byte a) := by
  rw [put, byte_store m _ _ h, Store.byte?]
  split
  · rw [List.getD_eq_getElem?_getD]
  · rfl

theorem byte_foldl_put (m : Memory) (history : List Store) {a : Nat} (h : a < capacity) :
    (history.foldl put m).byte a = (Store.last? history a).getD (m.byte a) := by
  induction history generalizing m with
  | nil => rfl
  | cons t rest ih =>
    rw [List.foldl_cons, ih, byte_put m t h, Store.last?_cons]
    cases Store.last? rest a <;> rfl

end Memory

/-! ### What a schedule stores -/

/-- What an instruction stores in a state: the digits of a register, or the registers up to one. -/
def State.store? (s : State) (op : Opcode) : Option Store :=
  if op.fits "FX33" then some ⟨s.index.toNat, Cpu.decimalDigits (s.registers.value op.x)⟩
  else if op.fits "FX55" then some ⟨s.index.toNat, s.registers.upTo op.x⟩
  else none

theorem State.store_stored (s : State) (op : Opcode) :
    s.memory.store s.index.toNat (op.decode.stored s) = (s.store? op).toList.foldl Memory.put s.memory := by
  have hoperands := op.operandsOf_decode
  have hdigits : op.fits "FX33" ↔ op.decode.form? = some "FX33" := Opcode.fits_iff_form? (by decide) (by decide)
  have hregisters : op.fits "FX55" ↔ op.decode.form? = some "FX55" := Opcode.fits_iff_form? (by decide) (by decide)
  simp only [store?, hdigits, hregisters]
  generalize op.decode = i at hoperands
  cases i with
  | storeDecimal x | storeRegisters x =>
    obtain rfl := hoperands
    simp [Instruction.form?, Memory.put]
  | _ => simp [Instruction.form?, Memory.store]

namespace Machine

/-- What an event stores. -/
def stored (m : Machine) (e : Event) : List Store := (m.executed e).filterMap m.state.store?

theorem memory_act (m : Machine) (e : Event) :
    (m.act e).state.memory = (m.stored e).foldl Memory.put m.state.memory := by
  cases e with
  | step keys =>
    rw [act_step, stored]
    cases hr : m.step keys with
    | error f m' =>
      rw [executed_of_step_error hr, eq_of_step_error hr]
      rfl
    | ok _ m' =>
      have hstored : [m.state.nextWord].filterMap m.state.store? = (m.state.store? m.state.nextWord).toList := by
        rw [List.filterMap_cons]
        cases m.state.store? m.state.nextWord <;> rfl
      rw [executed_of_step_ok hr, hstored]
      obtain ⟨-, -, rfl⟩ := step_eq_ok_iff.mp hr
      exact m.state.fetched.store_stored m.state.nextWord
  | tick => rfl
  | present => rw [act_present]; rfl

theorem memory_follow (m : Machine) (events : List Event) :
    (m.follow events).state.memory = (m.record stored events).foldl Memory.put m.state.memory := by
  induction events generalizing m with
  | nil => rfl
  | cons e rest ih =>
    rw [record, List.foldl_append, ← memory_act]
    exact ih (m.act e)

theorem byte_follow_of_not_covers {m : Machine} {events : List Event} {a : Nat} (ha : a < Memory.capacity)
    (h : ∀ t ∈ m.record stored events, ¬t.Covers a) :
    (m.follow events).state.memory.byte a = m.state.memory.byte a := by
  rw [memory_follow, Memory.byte_foldl_put _ _ ha, Store.last?_eq_none h, Option.getD_none]

end Machine

/-! ### What is loaded -/

/-- Memory with a program in it, byte by byte: the font and zeros, the program and zeros. -/
def loadImage (program : List UInt8) (a : Nat) : UInt8 :=
  if programStart.toNat ≤ a then program.getD (a - programStart.toNat) 0 else Font.sheet.getD a 0

theorem Font.byte_memory {a : Nat} (h : a < Memory.capacity) : Font.memory.byte a = Font.sheet.getD a 0 := by
  have hzero : Memory.zero.byte a = 0 := by
    rw [Memory.byte_eq_getElem _ h, Memory.zero, Vector.getElem_replicate]
  rw [Font.memory, Memory.byte_store _ _ _ h, hzero]
  rfl

namespace Machine

theorem byte_of_ofProgram {program : List UInt8} {random : RandomBytes} {m : Machine}
    (h : ofProgram program random = .ok m) {a : Nat} (ha : a < Memory.capacity) :
    m.state.memory.byte a = loadImage program a := by
  obtain rfl := eq_of_ofProgram h
  show (Font.memory.store programStart.toNat program).byte a = _
  rw [Memory.byte_store _ _ _ ha, Font.byte_memory ha, loadImage]
  split
  · next hle =>
    -- Beyond the start of programs there is nothing of the font.
    have hfont : Font.sheet.getD a 0 = 0 := by
      have hlength : Font.sheet.length ≤ a := Nat.le_trans (by decide) hle
      rw [List.getD_eq_getElem?_getD, List.getElem?_eq_none hlength, Option.getD_none]
    rw [hfont]
  · rfl

/-- A step without a fault changes nothing but what its footprint allows. From a loaded program on, each byte of
    memory is the one that the last store over it has put there, or the one that was loaded. -/
theorem footprint_and_history :
    (∀ (m m' : Machine) (keys : KeySource), m.step keys = .ok () m' → Footprint m m') ∧
      ∀ (program : List UInt8) (random : RandomBytes) (m : Machine), ofProgram program random = .ok m →
        ∀ (events : List Event) (a : Nat), a < Memory.capacity →
          (m.follow events).state.memory.byte a =
            (Store.last? (m.record stored events) a).getD (loadImage program a) := by
  refine ⟨fun m m' keys h => footprint_of_step h, fun program random m h events a ha => ?_⟩
  rw [memory_follow, Memory.byte_foldl_put _ _ ha, byte_of_ofProgram h ha]

/-- The digits of 254 are stored, and then two registers over the first two of them. -/
theorem footprint_and_history_digits :
    ∃ m, ofProgram [0x60, 0xFE, 0xA3, 0x00, 0xF0, 0x33, 0xF1, 0x55] (.ofArray #[]) = .ok m ∧
      (∃ m', m.step .idle = .ok () m' ∧ Footprint m m') ∧
      let m' := m.follow [.step .idle, .step .idle, .step .idle, .tick, .step .idle, .present]
      m'.state.memory.byte 0x300 = 254 ∧ m'.state.memory.byte 0x302 = 4 ∧ m'.state.memory.byte 0x200 = 0x60 ∧
        m'.state.memory.byte 0 = 0xF0 := by
  obtain ⟨m, h⟩ :=
    (exists_ofProgram_iff [0x60, 0xFE, 0xA3, 0x00, 0xF0, 0x33, 0xF1, 0x55] (.ofArray #[])).mpr (by decide)
  obtain ⟨hfootprint, hhistory⟩ := footprint_and_history
  have hbyte := hhistory _ _ _ h [.step .idle, .step .idle, .step .idle, .tick, .step .idle, .present]
  have hstep : m.step .idle = .ok () (m.advanced .idle) := by
    rw [step_eq_ok_iff, eq_of_ofProgram h]
    exact ⟨rfl, by decide +kernel, rfl⟩
  refine ⟨m, h, ⟨_, hstep, hfootprint _ _ .idle hstep⟩, ?_⟩
  intro m'
  rw [hbyte 0x300 (by decide), hbyte 0x302 (by decide), hbyte 0x200 (by decide), hbyte 0 (by decide),
    eq_of_ofProgram h]
  decide +kernel

end Machine

end ChipEight
