import ChipEight.Proofs.Calls
import ChipEight.Proofs.Footprint
import ChipEight.Proofs.Keys
import ChipEight.Proofs.Unwrapped

/-! # Where execution goes on

After most instructions execution goes on two bytes further. A test passes over the next instruction or does not, and
each test comes in two instructions of which always one does; jumps, calls and returns go where they say; and waiting
for a key comes back to the same address until a key is down. All of this holds of addresses as whole numbers. -/

namespace ChipEight

/-! ### Keys -/

namespace KeySource

/-- The key sources that there are: no input, a table of the keys, and the keypad. -/
def Provided (s : KeySource) : Prop := s = idle ∨ (∃ down, s = ofTable down) ∨ ∃ p : Keypad, s = p.source

theorem Provided.isDown_eq_false {s : KeySource} (h : s.Provided) {k : UInt8} (hk : 16 ≤ k.toNat) :
    s.isDown k = false := by
  have htable : ∀ down, (ofTable down).isDown k = false := fun down => dif_neg (Nat.not_lt.mpr hk)
  rcases h with rfl | ⟨down, rfl⟩ | ⟨p, rfl⟩
  · rfl
  · exact htable down
  · exact htable p.down

end KeySource

/-! ### Tests -/

/-- What an instruction that may pass over the next one looks at. -/
inductive SkipTest where
  | byte
  | register
  | key

namespace SkipTest

/-- The form that skips when the test holds. -/
def whenTrue : SkipTest → Form
  | .byte => "3XKK"
  | .register => "5XY0"
  | .key => "EX9E"

/-- The form that skips when the test fails. -/
def whenFalse : SkipTest → Form
  | .byte => "4XKK"
  | .register => "9XY0"
  | .key => "EXA1"

/-- The numbers of registers and the bytes of a word that a test works on. -/
def operands (op : Opcode) : SkipTest → List UInt8
  | .byte => [op.x, op.kk]
  | .register => [op.x, op.y]
  | .key => [op.x]

/-- Whether a test holds for the operands in a word. -/
def holds (keys : KeySource) (s : State) (op : Opcode) : SkipTest → Bool
  | .byte => s.registers.value op.x == op.kk
  | .register => s.registers.value op.x == s.registers.value op.y
  | .key => keys.isDown (s.registers.value op.x)

variable {op : Opcode} {test : SkipTest}

/-- The instruction of a word that tests, where `wanted` says which outcome makes it skip. -/
def instruction (op : Opcode) (wanted : Bool) : SkipTest → Instruction
  | .byte => if wanted then .skipEqByte op.x op.kk else .skipNeByte op.x op.kk
  | .register => if wanted then .skipEq op.x op.y else .skipNe op.x op.y
  | .key => if wanted then .skipDown op.x else .skipUp op.x

theorem decode_of_whenTrue (h : op.fits test.whenTrue) : op.decode = test.instruction op true := by
  cases test with
  | byte | register => exact Opcode.decode_of_fits h rfl (by decide) ⟨rfl, rfl⟩
  | key => exact Opcode.decode_of_fits h rfl (by decide) rfl

theorem decode_of_whenFalse (h : op.fits test.whenFalse) : op.decode = test.instruction op false := by
  cases test with
  | byte | register => exact Opcode.decode_of_fits h rfl (by decide) ⟨rfl, rfl⟩
  | key => exact Opcode.decode_of_fits h rfl (by decide) rfl

theorem fault?_instruction (op : Opcode) (wanted : Bool) (test : SkipTest) (s : State) :
    (test.instruction op wanted).fault? s = none := by
  cases test <;> cases wanted <;> simp [instruction, Instruction.fault?, op.missing_x, op.missing_y]

theorem skips_instruction (op : Opcode) (wanted : Bool) (test : SkipTest) (keys : KeySource) (s : State) :
    (test.instruction op wanted).skips keys s = (test.holds keys s op == wanted) := by
  cases test <;> cases wanted <;> simp [instruction, holds, bne]

theorem pcAfter_instruction (op : Opcode) (wanted : Bool) (test : SkipTest) (keys : KeySource) (s : State) :
    (test.instruction op wanted).pcAfter keys s = if test.holds keys s op = wanted then s.pc + 2 else s.pc := by
  have hpc : (test.instruction op wanted).pcAfter keys s =
      if (test.instruction op wanted).skips keys s then s.pc + 2 else s.pc := by
    cases test <;> cases wanted <;> rfl
  simp only [hpc, skips_instruction, beq_iff_eq]

theorem holds_congr {op' : Opcode} (h : test.operands op = test.operands op') (keys : KeySource) (s : State) :
    test.holds keys s op = test.holds keys s op' := by
  cases test <;> simp_all [operands, holds]

end SkipTest

/-! ### One step -/

/-- The instructions that may go elsewhere than to the next one. -/
def Form.redirecting : List Form :=
  ["00EE", "1NNN", "2NNN", "3XKK", "4XKK", "5XY0", "9XY0", "BNNN", "EX9E", "EXA1", "FX0A"]

theorem Instruction.hasForm_of_pcAfter_ne {i : Instruction} {keys : KeySource} {s : State}
    (h : i.pcAfter keys s ≠ s.pc) : i.HasForm Form.redirecting := by
  cases i with
  | ret | jump | call | skipEqByte | skipNeByte | skipEq | skipNe | jumpOffset | skipDown | skipUp | waitKey =>
    exact ⟨_, by decide, rfl⟩
  | _ => exact absurd rfl h

namespace Machine

/-- Where a step from `m` to `m'` has gone, told by the word that it executed. -/
structure Succession (keys : KeySource) (m m' : Machine) : Prop where
  pc_le : m.state.pc.toNat ≤ 0xFFE
  next : ¬m.state.nextWord.FitsAny Form.redirecting → m'.state.pc.toNat = m.state.pc.toNat + 2
  skipWhenTrue : ∀ test : SkipTest, m.state.nextWord.fits test.whenTrue →
    m'.state.pc.toNat = if test.holds keys m.state m.state.nextWord then m.state.pc.toNat + 4 else m.state.pc.toNat + 2
  skipWhenFalse : ∀ test : SkipTest, m.state.nextWord.fits test.whenFalse →
    m'.state.pc.toNat = if test.holds keys m.state m.state.nextWord then m.state.pc.toNat + 2 else m.state.pc.toNat + 4
  jump : m.state.nextWord.FitsAny ["1NNN", "2NNN"] → m'.state.pc.toNat = m.state.nextWord.addr.toNat
  jumpOffset : m.state.nextWord.fits "BNNN" →
    m'.state.pc.toNat = m.state.nextWord.addr.toNat + (m.state.registers.value 0).toNat
  ret : m.state.nextWord.fits "00EE" → m'.state.pc = m.state.stack.slot m.state.stack.depth.toNat
  wait : m.state.nextWord.fits "FX0A" → (∀ k : UInt8, k.toNat < 16 → keys.isDown k = false) →
    m'.state.pc.toNat = m.state.pc.toNat
  goOn : m.state.nextWord.fits "FX0A" → (∃ k : UInt8, k.toNat < 16 ∧ keys.isDown k = true) →
    m'.state.pc.toNat = m.state.pc.toNat + 2

variable {m m' : Machine} {keys : KeySource}

theorem pc_advanced_of_decode {i : Instruction} (h : m.state.nextWord.decode = i) (keys : KeySource) :
    (m.advanced keys).state.pc = i.pcAfter keys m.state.fetched := by
  rw [pc_advanced, State.nextInstruction, h]

theorem pc_advanced_of_fits {form : Form} {i : Instruction} (h : m.state.nextWord.fits form)
    (hform : i.form? = some form) (h0 : form ≠ "0NNN") (hi : i.OperandsOf m.state.nextWord) (keys : KeySource) :
    (m.advanced keys).state.pc = i.pcAfter keys m.state.fetched :=
  pc_advanced_of_decode (Opcode.decode_of_fits h hform h0 hi) keys

/-- Behind a word that has been fetched there is room to pass over one more. -/
theorem toNat_pc_skipped {s : State} (h : s.nextFault? = none) : (s.fetched.pc + 2).toNat = s.pc.toNat + 4 := by
  have hpc := State.pc_of_nextFault? h
  simp only [UInt16.toNat_add, State.toNat_pc_fetched h, UInt16.reduceToNat]
  omega

theorem toNat_pc_of_test {test : SkipTest} {wanted : Bool} (h : m.state.nextFault? = none)
    (hdecode : m.state.nextWord.decode = test.instruction m.state.nextWord wanted) (keys : KeySource) :
    (m.advanced keys).state.pc.toNat =
      if test.holds keys m.state m.state.nextWord = wanted then m.state.pc.toNat + 4 else m.state.pc.toNat + 2 := by
  -- A test looks at the registers and the keys, and fetching has changed neither.
  have hholds : test.holds keys m.state.fetched m.state.nextWord = test.holds keys m.state m.state.nextWord := by
    cases test <;> rfl
  rw [pc_advanced_of_decode hdecode, SkipTest.pcAfter_instruction, hholds]
  split
  · exact toNat_pc_skipped h
  · exact State.toNat_pc_fetched h

theorem succession_advanced (h : m.state.nextFault? = none) (keys : KeySource) :
    Succession keys m (m.advanced keys) where
  pc_le := Nat.le_of_add_le_add_right (State.pc_of_nextFault? h)
  next hother := by
    rw [← State.toNat_pc_fetched h]
    refine congrArg UInt16.toNat (Decidable.byContradiction fun hne => hother ?_)
    exact (Instruction.hasForm_of_pcAfter_ne hne).fitsAny
  skipWhenTrue test hfits := toNat_pc_of_test h (SkipTest.decode_of_whenTrue hfits) keys
  skipWhenFalse test hfits := by
    rw [toNat_pc_of_test h (SkipTest.decode_of_whenFalse hfits)]
    cases test.holds keys m.state m.state.nextWord <;> rfl
  jump := by
    rintro ⟨form, hmem, hfits⟩
    simp only [List.mem_cons, List.not_mem_nil, or_false] at hmem
    rcases hmem with rfl | rfl
    · rw [pc_advanced_of_fits (i := .jump _) hfits rfl (by decide) rfl, Instruction.pcAfter]
    · rw [pc_advanced_of_fits (i := .call _) hfits rfl (by decide) rfl, Instruction.pcAfter]
  jumpOffset hfits := by
    have haddr := m.state.nextWord.toNat_addr
    have hoffset := (m.state.registers.value 0).toNat_lt
    rw [pc_advanced_of_fits (i := .jumpOffset _) hfits rfl (by decide) rfl, Instruction.pcAfter, UInt16.toNat_add,
      UInt8.toNat_toUInt16]
    refine Nat.mod_eq_of_lt ?_
    simp only [State.fetched]
    omega
  ret hfits := by
    rw [pc_advanced_of_fits (i := .ret) hfits rfl (by decide) trivial, Instruction.pcAfter]
    rfl
  wait hfits hidle := by
    have hpc := State.toNat_pc_fetched h
    have hback : (2 : UInt16) ≤ m.state.fetched.pc := by
      rw [UInt16.le_iff_toNat_le, hpc]
      exact Nat.le_add_left _ _
    rw [pc_advanced_of_fits (i := .waitKey _) hfits rfl (by decide) rfl, Instruction.pcAfter,
      if_pos (KeySource.firstDown_eq_none_iff.mpr hidle), UInt16.toNat_sub_of_le _ _ hback, hpc]
    exact Nat.add_sub_cancel _ _
  goOn hfits := by
    rintro ⟨k, hk, hdown⟩
    have hsome : keys.firstDown ≠ none := fun hnone => by
      rw [KeySource.firstDown_eq_none_iff.mp hnone k hk] at hdown
      cases hdown
    rw [pc_advanced_of_fits (i := .waitKey _) hfits rfl (by decide) rfl, Instruction.pcAfter, if_neg hsome]
    exact State.toNat_pc_fetched h

theorem succession_of_step (h : m.step keys = .ok () m') : Succession keys m m' := by
  obtain ⟨-, hfault, rfl⟩ := step_eq_ok_iff.mp h
  exact succession_advanced hfault keys

/-- A test meets no fault. -/
theorem step_of_test {test : SkipTest} {wanted : Bool} (h : m.status = .running) (hpc : m.state.pc.toNat ≤ 0xFFE)
    (hdecode : m.state.nextWord.decode = test.instruction m.state.nextWord wanted) (keys : KeySource) :
    m.step keys = .ok () (m.advanced keys) := by
  refine step_eq_ok_iff.mpr ⟨h, ?_, rfl⟩
  rw [State.nextFault?, if_pos (Nat.add_le_add_right hpc 2), State.nextInstruction, hdecode,
    SkipTest.fault?_instruction]

/-- Of the two instructions that make a test of the same operands, one passes over the next instruction and one does
    not. -/
theorem exactly_one_skips {test : SkipTest} {m m₂ : Machine} (h : m.status = .running) (h₂ : m₂.status = .running)
    (hsame : m₂.state = { m.state with memory := m₂.state.memory }) (hpc : m.state.pc.toNat ≤ 0xFFE)
    (hfits : m.state.nextWord.fits test.whenTrue) (hfits₂ : m₂.state.nextWord.fits test.whenFalse)
    (hoperands : test.operands m.state.nextWord = test.operands m₂.state.nextWord) (keys : KeySource) :
    ∃ m' m₂', m.step keys = .ok () m' ∧ m₂.step keys = .ok () m₂' ∧
      (m'.state.pc.toNat = m.state.pc.toNat + 4 ∧ m₂'.state.pc.toNat = m.state.pc.toNat + 2 ∨
        m'.state.pc.toNat = m.state.pc.toNat + 2 ∧ m₂'.state.pc.toNat = m.state.pc.toNat + 4) := by
  have hpc₂ : m₂.state.pc = m.state.pc := by rw [hsame]
  have hholds : test.holds keys m₂.state m₂.state.nextWord = test.holds keys m.state m.state.nextWord := by
    rw [SkipTest.holds_congr hoperands, hsame]
    cases test <;> rfl
  have hstep := step_of_test h hpc (SkipTest.decode_of_whenTrue hfits) keys
  have hstep₂ := step_of_test h₂ (by rwa [hpc₂]) (SkipTest.decode_of_whenFalse hfits₂) keys
  have hgoes := (succession_of_step hstep).skipWhenTrue test hfits
  have hgoes₂ := (succession_of_step hstep₂).skipWhenFalse test hfits₂
  rw [hholds, hpc₂] at hgoes₂
  refine ⟨_, _, hstep, hstep₂, ?_⟩
  cases hcase : test.holds keys m.state m.state.nextWord with
  | true =>
    rw [hcase] at hgoes hgoes₂
    exact .inl ⟨hgoes, hgoes₂⟩
  | false =>
    rw [hcase] at hgoes hgoes₂
    exact .inr ⟨hgoes, hgoes₂⟩

/-- Where a step without a fault goes is told by the word that it executes, in whole numbers. Of the two instructions
    for a test always one skips, and no key beyond the sixteen is ever down. Nothing that is added to or taken from
    the program counter on the way makes it wrap around, wherever it stands. -/
theorem successor_addresses (keys : KeySource) (m : Machine) (h : m.status = .running) :
    (∀ m', m.step keys = .ok () m' → Succession keys m m') ∧
      (∀ (test : SkipTest) (m₂ : Machine), m₂.status = .running →
        m₂.state = { m.state with memory := m₂.state.memory } → m.state.pc.toNat ≤ 0xFFE →
        m.state.nextWord.fits test.whenTrue → m₂.state.nextWord.fits test.whenFalse →
        test.operands m.state.nextWord = test.operands m₂.state.nextWord →
        ∃ m' m₂', m.step keys = .ok () m' ∧ m₂.step keys = .ok () m₂' ∧
          (m'.state.pc.toNat = m.state.pc.toNat + 4 ∧ m₂'.state.pc.toNat = m.state.pc.toNat + 2 ∨
            m'.state.pc.toNat = m.state.pc.toNat + 2 ∧ m₂'.state.pc.toNat = m.state.pc.toNat + 4)) ∧
      (∀ m', m.step keys = .ok () m' → m.state.nextWord.fits "EX9E" → keys.Provided →
        16 ≤ (m.state.registers.value m.state.nextWord.x).toNat → m'.state.pc.toNat = m.state.pc.toNat + 2) ∧
      Unwrapped.next keys m.toCpu = Unchecked.ofFaulting (Cpu.next keys) m.toCpu ∧
      ∀ c, Unwrapped.next keys m.toCpu ≠ .error none c := by
  refine ⟨fun m' hstep => succession_of_step hstep, ?_, ?_, Unwrapped.next_eq keys m.toCpu, fun c => ?_⟩
  · intro test m₂ h₂ hsame hpc hfits hfits₂ hoperands
    exact exactly_one_skips h h₂ hsame hpc hfits hfits₂ hoperands keys
  · intro m' hstep hfits hprovided hkey
    have hup : SkipTest.key.holds keys m.state m.state.nextWord = false := hprovided.isDown_eq_false hkey
    rw [(succession_of_step hstep).skipWhenTrue .key hfits, hup]
    rfl
  · rw [Unwrapped.next_eq, Unchecked.ofFaulting_apply]
    cases Cpu.next keys m.toCpu <;> simp

/-- A machine at the last word of memory, which is to skip if V1 is 7, as it is. -/
def lastWord : Machine where
  state :=
    { pc := 0xFFE, registers := Registers.zero.put 1 7, memory := Memory.zero.store 0xFFE [0x31, 0x07] }
  random := .ofArray #[]

theorem successor_addresses_last_word :
    ∃ m', lastWord.step .idle = .ok () m' ∧ m'.state.pc.toNat = 0x1002 ∧
      ∀ c, Unwrapped.next .idle lastWord.toCpu ≠ .error none c := by
  obtain ⟨hsuccession, -, -, -, hexact⟩ := successor_addresses .idle lastWord rfl
  obtain ⟨hfault, hword⟩ : lastWord.state.nextFault? = none ∧ lastWord.state.nextWord = 0x3107 := by decide +kernel
  have hstep : lastWord.step .idle = .ok () (lastWord.advanced .idle) := step_eq_ok_iff.mpr ⟨rfl, hfault, rfl⟩
  have hgoes := (hsuccession _ hstep).skipWhenTrue .byte (by rw [hword]; decide)
  rw [hword] at hgoes
  exact ⟨_, hstep, hgoes.trans (by decide +kernel), hexact⟩

end Machine

end ChipEight
