import ChipEight.Listing
import ChipEight.Proofs.Stores

/-! # Listings and execution

A listing is made of the bytes of a program, and the machine executes words that it fetches from memory. As
long as nothing is stored over a program the two go together: at each address that a line shows, the machine
executes the instruction on that line. -/

namespace ChipEight

/-! ### Lines -/

theorem Listing.getElem?_lines (address : Nat) (program : List UInt8) {k : Nat} (h : 2 * k + 1 < program.length) :
    (lines address program)[k]? =
      some (.word (address + 2 * k) (.ofBytes (program.getD (2 * k) 0) (program.getD (2 * k + 1) 0))) := by
  induction address, program using lines.induct generalizing k with
  | case1 address high low rest ih =>
    cases k with
    | zero => rfl
    | succ k =>
      have hrest : 2 * k + 1 < rest.length := by
        simp only [List.length_cons] at h
        omega
      have haddress : address + 2 + 2 * k = address + 2 * (k + 1) := by omega
      rw [lines, List.getElem?_cons_succ, ih hrest, haddress]
      rfl
  | case2 | case3 => simp at h

/-! ### The instruction that a step executes -/

namespace Machine

/-- Executes an instruction as if it were the next one. -/
def carryOut (keys : KeySource) (i : Instruction) : Faulting Machine Unit := fun m =>
  match Cpu.execute keys i { m.toCpu with state.pc := m.state.pc + 2 } with
  | .ok _ c => .ok () { m with toCpu := c }
  | .error f c => .error f { toCpu := { c with state.pc := m.state.pc }, status := .halted f }

/-- A machine fetches a word and executes the instruction that it stands for. -/
structure Executes (m : Machine) (op : Opcode) : Prop where
  fetch : m.state.memory.readWord m.state.pc.toNat = .ok op
  step : ∀ keys, m.step keys = m.carryOut keys op.decode

theorem executes_nextWord {m : Machine} (h : m.status = .running) (hpc : m.state.pc.toNat + 2 ≤ Memory.capacity) :
    m.Executes m.state.nextWord := by
  have hfetch : m.state.memory.readWord m.state.pc.toNat = .ok m.state.nextWord := by
    rw [Memory.readWord_eq, if_pos hpc]
    rfl
  refine ⟨hfetch, fun keys => ?_⟩
  simp only [step, h, Cpu.next, hfetch, carryOut]
  cases Cpu.execute keys m.state.nextWord.decode { m.toCpu with state.pc := m.state.pc + 2 } <;> rfl

/-! ### A program that nothing is stored over -/

section
variable {program : List UInt8} {random : RandomBytes} {m : Machine} {events : List Event}

theorem length_of_ofProgram (h : ofProgram program random = .ok m) :
    programStart.toNat + program.length ≤ Memory.capacity := by
  have hlength := (exists_ofProgram_iff program random).mp ⟨m, h⟩
  have hstart : programStart.toNat ≤ Memory.capacity := by decide
  rw [maxProgramSize] at hlength
  omega

/-- A byte that nothing has been stored over is the one of the program, or the zero behind it. -/
theorem byte_of_program (h : ofProgram program random = .ok m) {i : Nat}
    (hi : programStart.toNat + i < Memory.capacity)
    (hkept : ∀ t ∈ m.record stored events, ¬t.Covers (programStart.toNat + i)) :
    (m.follow events).state.memory.byte (programStart.toNat + i) = program.getD i 0 := by
  rw [byte_follow_of_not_covers hi hkept, byte_of_ofProgram h hi, loadImage, if_pos (Nat.le_add_right _ _),
    Nat.add_sub_cancel_left]

theorem nextWord_eq {s : State} {a : Nat} (h : s.pc.toNat = a) :
    s.nextWord = .ofBytes (s.memory.byte a) (s.memory.byte (a + 1)) := by
  rw [← h]
  rfl

/-- If nothing is stored over a program, the machine executes at each address of its listing the instruction that
    the listing shows there. At a byte left over at the end it executes a word that starts with that byte, and that
    ends with zero if nothing is stored behind the program either. -/
theorem listing_is_executed (h : ofProgram program random = .ok m)
    (hkept : ∀ t ∈ m.record stored events, ∀ i < program.length, ¬t.Covers (programStart.toNat + i)) :
    let m' := m.follow events
    m'.status = .running →
      (∀ k, 2 * k + 1 < program.length → m'.state.pc.toNat = programStart.toNat + 2 * k →
        ∃ op, m'.Executes op ∧
          (Listing.lines programStart.toNat program)[k]? = some (.word m'.state.pc.toNat op) ∧
          (disassemble program programStart)[k]? =
            some (Hex.text 3 m'.state.pc.toNat ++ "  " ++ op.text ++ "  " ++ op.decode.text)) ∧
        ∀ b, program.length % 2 = 1 → program.getLast? = some b →
          m'.state.pc.toNat + 1 = programStart.toNat + program.length →
          ∃ low, m'.Executes (.ofBytes b low) ∧
            ((∀ t ∈ m.record stored events, ¬t.Covers (programStart.toNat + program.length)) → low = 0) := by
  intro m' hstatus
  have hlength := length_of_ofProgram h
  have hbyte : ∀ i < program.length, m'.state.memory.byte (programStart.toNat + i) = program.getD i 0 :=
    fun i hi => byte_of_program h (by omega) fun t ht => hkept t ht i hi
  refine ⟨fun k hk hpc => ?_, fun b hodd hlast hpc => ?_⟩
  · have hline := Listing.getElem?_lines programStart.toNat program hk
    have hword := nextWord_eq hpc
    rw [hbyte (2 * k) (by omega), Nat.add_assoc, hbyte (2 * k + 1) hk] at hword
    rw [← hword, ← hpc] at hline
    refine ⟨m'.state.nextWord, executes_nextWord hstatus (by omega), hline, ?_⟩
    rw [disassemble, List.getElem?_map, hline]
    rfl
  · -- The last byte has an even address, so there is one more byte of memory behind it.
    have hend : programStart.toNat + program.length < Memory.capacity := by
      have heven : (Memory.capacity - programStart.toNat) % 2 = 0 := by decide
      omega
    have hpc' : m'.state.pc.toNat = programStart.toNat + (program.length - 1) := by omega
    have hsucc : programStart.toNat + (program.length - 1) + 1 = programStart.toNat + program.length := by omega
    have hb : program.getD (program.length - 1) 0 = b := by
      rw [List.getD_eq_getElem?_getD, ← List.getLast?_eq_getElem?, hlast, Option.getD_some]
    have hword := nextWord_eq hpc'
    rw [hbyte _ (by omega), hb, hsucc] at hword
    refine ⟨m'.state.memory.byte (programStart.toNat + program.length), ?_, fun hbehind => ?_⟩
    · rw [← hword]
      exact executes_nextWord hstatus (by omega)
    · rw [byte_of_program h hend hbehind, List.getD_eq_getElem?_getD, List.getElem?_eq_none (Nat.le_refl _),
        Option.getD_none]

end

/-- A program of seven bytes that stores a register elsewhere and runs on to its last byte. -/
theorem listing_is_executed_seven_bytes :
    ∃ m, ofProgram [0x60, 0x07, 0xA3, 0x00, 0xF0, 0x55, 0x71] (.ofArray #[]) = .ok m ∧
      (∃ op, (m.follow [.step .idle, .step .idle]).Executes op ∧
        (Listing.lines 0x200 [0x60, 0x07, 0xA3, 0x00, 0xF0, 0x55, 0x71])[2]? = some (.word 0x204 op)) ∧
      (m.follow [.step .idle, .step .idle, .tick, .step .idle]).Executes 0x7100 := by
  obtain ⟨m, h⟩ := (exists_ofProgram_iff [0x60, 0x07, 0xA3, 0x00, 0xF0, 0x55, 0x71] (.ofArray #[])).mpr (by decide)
  have hstart : m.record stored [.step .idle, .step .idle] = [] ∧
      (m.follow [.step .idle, .step .idle]).status = .running ∧
      (m.follow [.step .idle, .step .idle]).state.pc = 0x204 := by
    rw [eq_of_ofProgram h]
    decide +kernel
  have hend : m.record stored [.step .idle, .step .idle, .tick, .step .idle] = [⟨0x300, [0x07]⟩] ∧
      (m.follow [.step .idle, .step .idle, .tick, .step .idle]).status = .running ∧
      (m.follow [.step .idle, .step .idle, .tick, .step .idle]).state.pc = 0x206 := by
    rw [eq_of_ofProgram h]
    decide +kernel
  refine ⟨m, h, ?_, ?_⟩
  · obtain ⟨hstored, hstatus, hpc⟩ := hstart
    obtain ⟨hlines, -⟩ := listing_is_executed h (by rw [hstored]; decide) hstatus
    obtain ⟨op, hexecutes, hline, -⟩ := hlines 2 (by decide) (by rw [hpc]; decide)
    rw [hpc] at hline
    exact ⟨op, hexecutes, hline⟩
  · obtain ⟨hstored, hstatus, hpc⟩ := hend
    obtain ⟨-, hlast⟩ := listing_is_executed h (by rw [hstored]; decide) hstatus
    obtain ⟨low, hexecutes, hlow⟩ := hlast 0x71 (by decide) (by decide) (by rw [hpc]; decide)
    rw [hlow (by rw [hstored]; decide)] at hexecutes
    exact hexecutes

end Machine

end ChipEight
