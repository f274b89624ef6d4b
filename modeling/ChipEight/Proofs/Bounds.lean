import ChipEight.Proofs.Schedule
import ChipEight.Proofs.Unchecked

/-! # Bounds of a reached state

From a loaded program on, the depth of the call stack never exceeds fifteen and the program counter never
gets far beyond memory. The two bounds need each other: a return goes where a call came from, and a call
comes from where a word was fetched, hence from within memory. That the depth is bounded is what the
accesses without a check rely on, so none of them leaves its array in a step from a reached state. -/

namespace ChipEight

/-! ### The call stack -/

namespace CallStack

/-- Slot 0 is never used, the slots in use hold addresses behind a fetched word, and what is left in the
    others came from a call too. -/
structure Bounded (t : CallStack) : Prop where
  depth_le : t.depth.toNat ≤ 15
  slot_zero : t.slot 0 = 0
  two_le_slot : ∀ i, 1 ≤ i → i ≤ t.depth.toNat → 2 ≤ (t.slot i).toNat
  slot_le : ∀ i, (t.slot i).toNat ≤ 0x1000

theorem bounded_empty : empty.Bounded := by
  have hslot : ∀ i, empty.slot i = 0 := by
    intro i
    simp only [slot, empty, Vector.getElem?_replicate]
    split <;> rfl
  refine ⟨by decide, hslot 0, fun i hi hdepth => ?_, fun i => ?_⟩
  · simp only [empty, UInt8.reduceToNat] at hdepth
    omega
  · rw [hslot]
    decide

theorem slot_pushed {t : CallStack} (h : t.depth.toNat < 15) (address : UInt16) (i : Nat) :
    (t.pushed address).slot i = if i = t.depth.toNat + 1 then address else t.slot i := by
  simp only [slot, pushed, Vector.getElem?_setIfInBounds]
  by_cases hi : i = t.depth.toNat + 1
  · subst hi
    have hslots : t.depth.toNat + 1 < slotCount := Nat.succ_lt_succ h
    simp [hslots]
  · simp [hi, Ne.symm hi]

theorem depth_pushed {t : CallStack} (h : t.depth.toNat < 15) (address : UInt16) :
    (t.pushed address).depth.toNat = t.depth.toNat + 1 := by
  simp only [pushed, UInt8.toNat_add, UInt8.reduceToNat]
  omega

theorem depth_popped {t : CallStack} (h : 0 < t.depth.toNat) : t.popped.depth.toNat = t.depth.toNat - 1 :=
  UInt8.toNat_sub_of_le _ _ (UInt8.le_iff_toNat_le.mpr h)

theorem Bounded.pushed {t : CallStack} (B : t.Bounded) (h : t.depth.toNat < 15) {address : UInt16}
    (hlow : 2 ≤ address.toNat) (hhigh : address.toNat ≤ 0x1000) : (t.pushed address).Bounded := by
  have hdepth := depth_pushed h address
  refine ⟨by omega, ?_, fun i hi hle => ?_, fun i => ?_⟩
  · rw [slot_pushed h, if_neg (by omega)]
    exact B.slot_zero
  · rw [slot_pushed h]
    split
    · exact hlow
    · exact B.two_le_slot i hi (by omega)
  · rw [slot_pushed h]
    split
    · exact hhigh
    · exact B.slot_le i

theorem Bounded.popped {t : CallStack} (B : t.Bounded) (h : 0 < t.depth.toNat) : t.popped.Bounded := by
  have hdepth := depth_popped h
  have hmax := B.depth_le
  exact ⟨by omega, B.slot_zero, fun i hi hle => B.two_le_slot i hi (by omega), B.slot_le⟩

end CallStack

/-! ### The program counter -/

/-- The program counter gets beyond memory by a jump with an offset only, which adds a byte to an address of
    twelve bits, or by passing over what would be the word behind memory. -/
structure State.Bounded (s : State) : Prop where
  stack : s.stack.Bounded
  pc_le : s.pc.toNat ≤ 0x10FE

namespace Instruction
variable {s : State} {i : Instruction}

theorem depth_of_call {addr : UInt16} (h : (call addr).fault? s = none) : s.stack.depth.toNat < 15 := by
  have hdepth : s.stack.depth.toNat + 1 < CallStack.slotCount := by simpa [fault?] using h
  exact Nat.lt_of_succ_lt_succ hdepth

theorem depth_of_ret (h : ret.fault? s = none) : 0 < s.stack.depth.toNat := by
  have hdepth : 0 < s.stack.depth.toNat ∧ s.stack.depth.toNat < CallStack.slotCount := by simpa [fault?] using h
  exact hdepth.1

/-- The program counter is past the instruction here, so a call has a return address to put on the stack. -/
theorem stackAfter_bounded (B : s.stack.Bounded) (hfault : i.fault? s = none) (hlow : 2 ≤ s.pc.toNat)
    (hhigh : s.pc.toNat ≤ 0x1000) : (i.stackAfter s).Bounded := by
  cases i with
  | call addr => exact B.pushed (depth_of_call hfault) hlow hhigh
  | ret => exact B.popped (depth_of_ret hfault)
  | _ => exact B

theorem pcAfter_le {op : Opcode} (keys : KeySource) (B : s.stack.Bounded) (hoperands : i.OperandsOf op)
    (hlow : 2 ≤ s.pc.toNat) (hhigh : s.pc.toNat ≤ 0x1000) : (i.pcAfter keys s).toNat ≤ 0x10FE := by
  have hskip : (s.pc + 2).toNat ≤ 0x10FE := by
    simp only [UInt16.toNat_add, UInt16.reduceToNat]
    omega
  have haddr := op.toNat_addr
  cases i with
  | ret =>
    have htop : s.stack.top.toNat ≤ 0x1000 := B.slot_le _
    simp only [pcAfter]
    omega
  | jump addr | call addr =>
    obtain rfl := hoperands
    simp only [pcAfter]
    omega
  | jumpOffset addr =>
    obtain rfl := hoperands
    have hoffset := (s.registers.value 0).toNat_lt
    simp only [pcAfter, UInt16.toNat_add, UInt8.toNat_toUInt16]
    omega
  | waitKey x =>
    have hback : (s.pc - 2).toNat = s.pc.toNat - 2 := UInt16.toNat_sub_of_le _ _ (UInt16.le_iff_toNat_le.mpr hlow)
    simp only [pcAfter]
    split <;> omega
  | _ =>
    simp only [pcAfter]
    split <;> omega

end Instruction

/-! ### Steps and schedules -/

namespace Machine

theorem advanced_bounded {m : Machine} (keys : KeySource) (h : m.state.nextFault? = none) (B : m.state.Bounded) :
    (m.advanced keys).state.Bounded := by
  have hpc := State.pc_of_nextFault? h
  have hfetched := State.toNat_pc_fetched h
  -- The stack is that of the state itself: fetching moves the program counter only.
  have hstack : m.state.fetched.stack.Bounded := B.stack
  have hfault : m.state.nextInstruction.fault? m.state.fetched = none := by
    rw [State.fault?_fetched]
    exact State.fault?_of_nextFault? h
  have hlow : 2 ≤ m.state.fetched.pc.toNat := by omega
  have hhigh : m.state.fetched.pc.toNat ≤ 0x1000 := by omega
  exact ⟨Instruction.stackAfter_bounded hstack hfault hlow hhigh,
    Instruction.pcAfter_le keys hstack m.state.nextWord.operandsOf_decode hlow hhigh⟩

theorem bounded_of_ofProgram {program : List UInt8} {random : RandomBytes} {m : Machine}
    (h : ofProgram program random = .ok m) : m.state.Bounded := by
  obtain rfl := eq_of_ofProgram h
  have hstart : programStart.toNat ≤ 0x10FE := by decide
  exact ⟨CallStack.bounded_empty, hstart⟩

theorem follow_bounded {m : Machine} (B : m.state.Bounded) (events : List Event) :
    (m.follow events).state.Bounded :=
  follow_induction
    (act_state (fun _ B => ⟨B.stack, B.pc_le⟩) (fun _ B => ⟨B.stack, B.pc_le⟩)
      fun _ keys hfault B => advanced_bounded keys hfault B)
    B events

/-- Whatever the host does with a loaded machine, its state stays bounded, and a step that leaves out every
    check the machine does not make never leaves an array and does what the machine does. -/
theorem unchecked_step_of_loaded {program : List UInt8} {random : RandomBytes} {m : Machine}
    (h : ofProgram program random = .ok m) (events : List Event) :
    (m.follow events).state.Bounded ∧
      ∀ keys, Unchecked.step keys (m.follow events) = Unchecked.ofFaulting (step keys) (m.follow events) ∧
        ∀ m', Unchecked.step keys (m.follow events) ≠ .error none m' := by
  have B := follow_bounded (bounded_of_ofProgram h) events
  refine ⟨B, fun keys => ?_⟩
  have hstep := Unchecked.step_eq keys B.stack.depth_le
  refine ⟨hstep, fun m' => ?_⟩
  rw [hstep, Unchecked.ofFaulting_apply]
  cases step keys (m.follow events) <;> simp

/-- A program that calls itself. -/
theorem unchecked_step_of_loaded_call :
    ∃ m, ofProgram [0x22, 0x00] (.ofArray #[]) = .ok m ∧
      (m.follow [.step .idle, .tick, .step .idle, .present]).state.Bounded ∧
      ∀ m', Unchecked.step .idle (m.follow [.step .idle, .tick, .step .idle, .present]) ≠ .error none m' := by
  obtain ⟨m, h⟩ : ∃ m, ofProgram [0x22, 0x00] (.ofArray #[]) = .ok m := ⟨_, if_pos (by decide)⟩
  obtain ⟨B, hstep⟩ := unchecked_step_of_loaded h [.step .idle, .tick, .step .idle, .present]
  exact ⟨m, h, B, (hstep .idle).2⟩

end Machine

end ChipEight
