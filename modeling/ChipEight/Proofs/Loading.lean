import ChipEight.Proofs.Frames
import ChipEight.Proofs.MemoryRanges
import ChipEight.Proofs.Stores
import Mathlib.Data.List.GetD

/-! # What is loaded

A program that fits makes a machine, and what that machine is like is settled by the program and the random bytes:
memory has the font, the program and zeros, and all the rest is as in any new machine. The zeros behind a program
cannot be told from zeros at its end, and nothing else of it is lost. -/

namespace ChipEight

/-! ### The image in memory -/

section
variable {program program' : List UInt8} {a i : Nat}

theorem loadImage_of_lt_80 (program : List UInt8) (h : a < 80) : Font.sheet[a]? = some (loadImage program a) := by
  have hlow : ¬programStart.toNat ≤ a := Nat.not_le.mpr (Nat.lt_trans h (by decide))
  have hfont : a < Font.sheet.length := h
  rw [loadImage, if_neg hlow, List.getD_eq_getElem _ _ hfont, List.getElem?_eq_getElem hfont]

theorem loadImage_add (program : List UInt8) (i : Nat) : loadImage program (0x200 + i) = program.getD i 0 := by
  have hhigh : programStart.toNat ≤ 0x200 + i := Nat.le_add_right _ _
  rw [loadImage, if_pos hhigh]
  exact congrArg (program.getD · 0) (Nat.add_sub_cancel_left _ _)

theorem loadImage_of_outside (hfont : 80 ≤ a) (h : a < 0x200 ∨ 0x200 + program.length ≤ a) :
    loadImage program a = 0 := by
  rw [loadImage]
  split
  · next hhigh =>
    have hbehind : program.length ≤ a - programStart.toNat := by
      have hstart : programStart.toNat = 0x200 := rfl
      omega
    exact List.getD_eq_default _ _ hbehind
  · exact List.getD_eq_default _ _ hfont

end

namespace Memory
variable {m m' : Memory} {program : List UInt8}

/-- Memory has the font at its start, a program from 0x200 on, and zeros elsewhere. -/
structure Holds (m : Memory) (program : List UInt8) : Prop where
  font : ∀ a < 80, m[a]? = Font.sheet[a]?
  bytes : ∀ i (h : i < program.length), m[0x200 + i]? = some program[i]
  zero : ∀ a < 4096, 80 ≤ a → a < 0x200 ∨ 0x200 + program.length ≤ a → m[a]? = some 0

theorem getElem?_eq_some_byte (m : Memory) {a : Nat} (h : a < capacity) : m[a]? = some (m.byte a) := by
  rw [byte_eq_getElem m h, Vector.getElem?_eq_getElem h]

theorem holds_iff :
    m.Holds program ↔ program.length ≤ maxProgramSize ∧ ∀ a < capacity, m.byte a = loadImage program a := by
  constructor
  · intro H
    have hfits : program.length ≤ maxProgramSize := by
      refine Nat.le_of_not_lt fun hlt => ?_
      have hlast := H.bytes maxProgramSize hlt
      rw [Vector.getElem?_eq_none (by decide)] at hlast
      cases hlast
    refine ⟨hfits, fun a ha => Option.some.inj ?_⟩
    rw [← getElem?_eq_some_byte m ha]
    rcases Nat.lt_or_ge a 80 with hfont | hfont
    · rw [H.font a hfont, loadImage_of_lt_80 program hfont]
    · by_cases hin : 0x200 ≤ a ∧ a < 0x200 + program.length
      · obtain ⟨i, rfl⟩ := Nat.exists_eq_add_of_le hin.1
        have hi : i < program.length := Nat.lt_of_add_lt_add_left hin.2
        rw [H.bytes i hi, loadImage_add, List.getD_eq_getElem _ _ hi]
      · have hout : a < 0x200 ∨ 0x200 + program.length ≤ a := by omega
        rw [H.zero a ha hfont hout, loadImage_of_outside hfont hout]
  · rintro ⟨hfits, himage⟩
    have hsome : ∀ a < capacity, m[a]? = some (loadImage program a) := fun a ha => by
      rw [getElem?_eq_some_byte m ha, himage a ha]
    refine ⟨fun a ha => ?_, fun i hi => ?_, fun a ha hfont hout => ?_⟩
    · rw [hsome a (Nat.lt_trans ha (by decide)), loadImage_of_lt_80 program ha]
    · have hin : 0x200 + i < capacity := Nat.add_lt_add_left (Nat.lt_of_lt_of_le hi hfits) 0x200
      rw [hsome _ hin, loadImage_add, List.getD_eq_getElem _ _ hi]
    · rw [hsome a ha, loadImage_of_outside hfont hout]

end Memory

/-! ### The machine -/

namespace Machine
variable {program program' : List UInt8} {random random' : RandomBytes} {m m' : Machine}

/-- A machine that has done nothing yet: it has a program in memory, and all else of its state is zero or blank. -/
structure Fresh (program : List UInt8) (random : RandomBytes) (m : Machine) : Prop where
  memory : m.state.memory.Holds program
  state : m.state =
    { registers := .replicate _ 0, index := 0, pc := 0x200, stack := ⟨.replicate _ 0, 0⟩, delay := 0, sound := 0,
      memory := m.state.memory, screen := ⟨.replicate _ false⟩, redraw := false }
  status : m.status = .running
  random : m.random = random

theorem fresh_of_ofProgram (h : ofProgram program random = .ok m) : Fresh program random m := by
  have hfits := (exists_ofProgram_iff program random).mp ⟨m, h⟩
  have himage : m.state.memory.Holds program := Memory.holds_iff.mpr ⟨hfits, fun a ha => byte_of_ofProgram h ha⟩
  obtain rfl := eq_of_ofProgram h
  exact ⟨himage, rfl, rfl, rfl⟩

namespace Fresh

theorem eq_of_memory (F : Fresh program random m) (F' : Fresh program' random' m')
    (h : m.state.memory = m'.state.memory) : m' = m.withRandom random' := by
  have hstate : m'.state = m.state := by rw [F.state, F'.state, h]
  have hstatus : m'.status = m.status := F'.status.trans F.status.symm
  obtain ⟨⟨s, r⟩, status⟩ := m
  obtain ⟨⟨s', r'⟩, status'⟩ := m'
  obtain rfl : s' = s := hstate
  obtain rfl : status' = status := hstatus
  obtain rfl : r' = random' := F'.random
  rfl

theorem ofProgram_eq (F : Fresh program random m) : ofProgram program random = .ok m := by
  obtain ⟨hfits, himage⟩ := Memory.holds_iff.mp F.memory
  obtain ⟨m', h⟩ := (exists_ofProgram_iff program random).mpr hfits
  have hmemory : m.state.memory = m'.state.memory :=
    Memory.eq_of_byte fun a ha => (himage a ha).trans (byte_of_ofProgram h ha).symm
  have hrandom : m.withRandom random = m := by
    rw [← F.random]
    rfl
  rw [h, F.eq_of_memory (fresh_of_ofProgram h) hmemory, hrandom]

/-- What tells two new machines apart is a byte of their programs, where a program that has come to its end counts as
    going on with zeros. -/
theorem state_eq_iff (F : Fresh program random m) (F' : Fresh program' random' m') :
    m.state = m'.state ↔ ∀ i, program.getD i 0 = program'.getD i 0 := by
  obtain ⟨hfits, himage⟩ := Memory.holds_iff.mp F.memory
  obtain ⟨hfits', himage'⟩ := Memory.holds_iff.mp F'.memory
  constructor
  · intro h i
    rcases Nat.lt_or_ge i maxProgramSize with hi | hi
    · have hin : 0x200 + i < Memory.capacity := Nat.add_lt_add_left hi 0x200
      rw [← loadImage_add, ← loadImage_add, ← himage _ hin, ← himage' _ hin, h]
    · rw [List.getD_eq_default _ _ (Nat.le_trans hfits hi), List.getD_eq_default _ _ (Nat.le_trans hfits' hi)]
  · intro h
    have hmemory : m.state.memory = m'.state.memory := Memory.eq_of_byte fun a ha => by
      rw [himage a ha, himage' a ha, loadImage, loadImage, h]
    rw [F.eq_of_memory F' hmemory]
    rfl

end Fresh

theorem getD_append_zeros (program : List UInt8) (zeros i : Nat) :
    (program ++ List.replicate zeros 0).getD i 0 = program.getD i 0 := by
  rcases Nat.lt_or_ge i program.length with hi | hi
  · exact List.getD_append _ _ _ _ hi
  · rw [List.getD_append_right _ _ _ _ hi, List.getD_eq_default _ _ hi, List.getD_eq_getElem?_getD,
      List.getElem?_getD_replicate_default_eq]

theorem eq_of_getD_eq (hlength : program.length = program'.length) (h : ∀ i, program.getD i 0 = program'.getD i 0) :
    program = program' := by
  refine List.ext_getElem hlength fun i hi hi' => ?_
  rw [← List.getD_eq_getElem _ 0 hi, ← List.getD_eq_getElem _ 0 hi']
  exact h i

/-- Whether two machines give the same answers, hand over the same frames and come to be the same, in whatever way
    both are stepped, ticked and shown. -/
def Indistinguishable (m m' : Machine) : Prop :=
  ∀ events, m.record answers events = m'.record answers events ∧ m.record handed events = m'.record handed events ∧
    m.follow events = m'.follow events

/-- A program is loaded just if it has at most 3584 bytes, and refused with its length otherwise. What is loaded is
    the fresh machine that has the program in memory, also if the program comes from a source. With zeros put behind it
    that still fit, a program makes the same machine apart from the random bytes, and no host can tell the two apart
    once these are the same as well. Among programs of one length, each makes a state of its own. -/
theorem program_makes_fresh_machine (program : List UInt8) (random : RandomBytes) :
    ((∃ m, ofProgram program random = .ok m) ↔ program.length ≤ 3584) ∧
      (3584 < program.length → ofProgram program random = .error (.tooLarge program.length)) ∧
      (∀ m, ofProgram program random = .ok m ↔ Fresh program random m) ∧
      load (.ok program) random = ofProgram program random ∧
      (∀ zeros random', program.length + zeros ≤ 3584 → ∃ m m', ofProgram program random = .ok m ∧
        ofProgram (program ++ List.replicate zeros 0) random' = .ok m' ∧ m' = m.withRandom random' ∧
          ∀ same, (m.withRandom same).Indistinguishable (m'.withRandom same)) ∧
      ∀ program' random' m m', ofProgram program random = .ok m → ofProgram program' random' = .ok m' →
        program.length = program'.length → (m.state = m'.state ↔ program = program') := by
  refine ⟨exists_ofProgram_iff program random, fun h => if_neg (Nat.not_le.mpr h),
    fun m => ⟨fresh_of_ofProgram, Fresh.ofProgram_eq⟩, rfl, ?_, ?_⟩
  · intro zeros random' hfits
    have hlength : (program ++ List.replicate zeros 0).length ≤ maxProgramSize := by
      rwa [List.length_append, List.length_replicate]
    obtain ⟨m, h⟩ := (exists_ofProgram_iff program random).mpr (Nat.le_trans (Nat.le_add_right _ _) hfits)
    obtain ⟨m', h'⟩ := (exists_ofProgram_iff _ random').mpr hlength
    have F := fresh_of_ofProgram h
    have F' := fresh_of_ofProgram h'
    have hstate : m.state = m'.state := (F.state_eq_iff F').mpr fun i => (getD_append_zeros program zeros i).symm
    have hsame := F.eq_of_memory F' (congrArg State.memory hstate)
    refine ⟨m, m', h, h', hsame, fun same events => ?_⟩
    rw [hsame]
    exact ⟨rfl, rfl, rfl⟩
  · intro program' random' m m' h h' hlength
    constructor
    · intro hstate
      exact eq_of_getD_eq hlength (((fresh_of_ofProgram h).state_eq_iff (fresh_of_ofProgram h')).mp hstate)
    · rintro rfl
      exact ((fresh_of_ofProgram h).state_eq_iff (fresh_of_ofProgram h')).mpr fun _ => rfl

/-- Three bytes with zeros up to the end of memory behind them, and with one zero more than that. -/
theorem program_makes_fresh_machine_three_bytes :
    ∃ m m', ofProgram [0x12, 0x34, 0x56] (.ofArray #[]) = .ok m ∧
      ofProgram ([0x12, 0x34, 0x56] ++ List.replicate 3581 0) (.ofArray #[7]) = .ok m' ∧
      (m.withRandom (.ofArray #[3, 1])).Indistinguishable (m'.withRandom (.ofArray #[3, 1])) ∧
      m.state.memory[0x202]? = some 0x56 ∧ m.state.memory[0x203]? = some 0 ∧ m.state.memory[4]? = some 0xF0 ∧
      (∀ m'', ofProgram [0x12, 0x34, 0x57] (.ofArray #[]) = .ok m'' → m.state ≠ m''.state) ∧
      ofProgram ([0x12, 0x34, 0x56] ++ List.replicate 3582 0) (.ofArray #[]) = .error (.tooLarge 3585) := by
  obtain ⟨-, -, hfresh, -, hzeros, hequal⟩ := program_makes_fresh_machine [0x12, 0x34, 0x56] (.ofArray #[])
  obtain ⟨-, hlarge, -⟩ := program_makes_fresh_machine ([0x12, 0x34, 0x56] ++ List.replicate 3582 0) (.ofArray #[])
  have hlength : ([0x12, 0x34, 0x56] ++ List.replicate 3582 (0 : UInt8)).length = 3585 := by
    rw [List.length_append, List.length_replicate]
    rfl
  rw [hlength] at hlarge
  obtain ⟨m, m', h, h', -, hsame⟩ := hzeros 3581 (.ofArray #[7]) (by decide)
  have F := (hfresh m).mp h
  refine ⟨m, m', h, h', hsame _, F.memory.bytes 2 (by decide), F.memory.zero 0x203 (by decide) (by decide) (.inr ?_),
    F.memory.font 4 (by decide), ?_, hlarge (by decide)⟩
  · decide
  · intro m'' h'' hstate
    exact absurd ((hequal _ _ m m'' h h'' rfl).mp hstate) (by decide)

end Machine

end ChipEight
