import ChipEight.Proofs.Effect

/-! # When an instruction is refused

An instruction may be made with any operands, also with such as no word gives. It is refused for the first of its
registers that there is none of, then for bytes that it needs beyond memory, and otherwise only for the call stack or
because it is no instruction at all. Whatever it is refused for, nothing has been changed by then. -/

namespace ChipEight

namespace Instruction
variable {s : State} {i : Instruction} {f : Fault}

/-- An instruction is refused in a state, with the fault that is reported. -/
inductive Refused (s : State) : Instruction → Fault → Prop
  | register {i : Instruction} {r : UInt8} {before after : List UInt8} (hregisters : i.registers = before ++ r :: after)
      (hbefore : ∀ q ∈ before, q.toNat ≤ 15) (hr : 15 < r.toNat) : Refused s i (.address r.toNat)
  | draw {x y n : UInt8} (hx : x.toNat ≤ 15) (hy : y.toNat ≤ 15) (hrange : 4096 < s.index.toNat + n.toNat % 16) :
      Refused s (.draw x y n) (.address (max s.index.toNat 4096))
  | storeDecimal {x : UInt8} (hx : x.toNat ≤ 15) (hrange : 4096 < s.index.toNat + 3) :
      Refused s (.storeDecimal x) (.address (max s.index.toNat 4096))
  | storeRegisters {x : UInt8} (hx : x.toNat ≤ 15) (hrange : 4096 < s.index.toNat + x.toNat + 1) :
      Refused s (.storeRegisters x) (.address (max s.index.toNat 4096))
  | loadRegisters {x : UInt8} (hx : x.toNat ≤ 15) (hrange : 4096 < s.index.toNat + x.toNat + 1) :
      Refused s (.loadRegisters x) (.address (max s.index.toNat 4096))
  | call {addr : UInt16} (hdepth : s.stack.depth.toNat = 15) : Refused s (.call addr) .stackOverflow
  | ret (hdepth : s.stack.depth.toNat = 0) : Refused s .ret .stackUnderflow
  | unknown {op : Opcode} : Refused s (.unknown op) (.unknownOpcode op)

theorem missing_eq_false_iff_le {r : UInt8} : Registers.missing r = false ↔ r.toNat ≤ 15 := by
  rw [Registers.missing_eq_false_iff, Nat.lt_succ_iff]

theorem find?_missing_eq_some_iff {r : UInt8} :
    i.registers.find? Registers.missing = some r ↔
      15 < r.toNat ∧ ∃ before after, i.registers = before ++ r :: after ∧ ∀ q ∈ before, q.toNat ≤ 15 := by
  have hmissing : Registers.missing r = true ↔ 15 < r.toNat := by
    rw [← Bool.not_eq_false, missing_eq_false_iff_le, Nat.not_le]
  simp only [List.find?_eq_some_iff_append, hmissing, Bool.not_eq_true', missing_eq_false_iff_le]

theorem refused_of_fault? (hdepth : s.stack.depth.toNat ≤ 15) (h : i.fault? s = some f) : Refused s i f := by
  unfold fault? at h
  cases hfind : i.registers.find? Registers.missing with
  | some r =>
    rw [hfind] at h
    cases h
    obtain ⟨hr, before, after, hregisters, hbefore⟩ := find?_missing_eq_some_iff.mp hfind
    exact .register hregisters hbefore hr
  | none =>
    have hpresent : ∀ r ∈ i.registers, r.toNat ≤ 15 := fun r hr =>
      missing_eq_false_iff_le.mp (find?_missing_eq_none_iff.mp hfind r hr)
    rw [hfind] at h
    -- The registers are there, so it is the bytes, the stack or the instruction itself.
    cases i with
    | draw x y n =>
      obtain ⟨hx, hy⟩ : x.toNat ≤ 15 ∧ y.toNat ≤ 15 := by simpa using hpresent
      obtain ⟨hrange, ⟨⟩⟩ := Option.ite_none_left_eq_some.mp h
      exact .draw hx hy (Nat.lt_of_not_le hrange)
    | storeDecimal x =>
      obtain ⟨hrange, ⟨⟩⟩ := Option.ite_none_left_eq_some.mp h
      exact .storeDecimal (hpresent x List.mem_cons_self) (Nat.lt_of_not_le hrange)
    | storeRegisters x =>
      obtain ⟨hrange, ⟨⟩⟩ := Option.ite_none_left_eq_some.mp h
      exact .storeRegisters (hpresent x List.mem_cons_self) (Nat.lt_of_not_le hrange)
    | loadRegisters x =>
      obtain ⟨hrange, ⟨⟩⟩ := Option.ite_none_left_eq_some.mp h
      exact .loadRegisters (hpresent x List.mem_cons_self) (Nat.lt_of_not_le hrange)
    | call addr =>
      obtain ⟨hfull, ⟨⟩⟩ := Option.ite_none_left_eq_some.mp h
      exact .call (Nat.le_antisymm hdepth (Nat.le_of_succ_le_succ (Nat.le_of_not_lt hfull)))
    | ret =>
      obtain ⟨hempty, ⟨⟩⟩ := Option.ite_none_left_eq_some.mp h
      have hlt : s.stack.depth.toNat < CallStack.slotCount := Nat.lt_succ_of_le hdepth
      exact .ret (Nat.eq_zero_of_not_pos fun hpos => hempty ⟨hpos, hlt⟩)
    | unknown op =>
      cases h
      exact .unknown
    | _ => cases h

theorem fault?_of_lt_span {n : Nat} (hpresent : ∀ r ∈ i.registers, r.toNat ≤ 15) (hspan : i.span = some n)
    (hrange : 4096 < s.index.toNat + n) : i.fault? s = some (.address (max s.index.toNat 4096)) := by
  rw [fault?_of_span (fun r hr => missing_eq_false_iff_le.mpr (hpresent r hr)) hspan]
  exact if_neg (Nat.not_le_of_lt hrange)

theorem Refused.fault?_eq (R : Refused s i f) : i.fault? s = some f := by
  cases R with
  | register hregisters hbefore hr =>
    unfold fault?
    rw [find?_missing_eq_some_iff.mpr ⟨hr, _, _, hregisters, hbefore⟩]
  | draw hx hy hrange =>
    exact fault?_of_lt_span (List.forall_mem_cons.mpr ⟨hx, List.forall_mem_singleton.mpr hy⟩) rfl hrange
  | storeDecimal hx hrange | storeRegisters hx hrange | loadRegisters hx hrange =>
    exact fault?_of_lt_span (List.forall_mem_singleton.mpr hx) rfl hrange
  | call hdepth =>
    have hfull : ¬s.stack.depth.toNat + 1 < CallStack.slotCount := by
      rw [hdepth]
      exact Nat.lt_irrefl 16
    exact if_neg hfull
  | ret hdepth =>
    have hempty : ¬(0 < s.stack.depth.toNat ∧ s.stack.depth.toNat < CallStack.slotCount) := by
      rw [hdepth]
      exact fun h => Nat.lt_irrefl 0 h.1
    exact if_neg hempty
  | unknown => rfl

theorem fault?_eq_some_iff (hdepth : s.stack.depth.toNat ≤ 15) : i.fault? s = some f ↔ Refused s i f :=
  ⟨refused_of_fault? hdepth, Refused.fault?_eq⟩

end Instruction

namespace Cpu
open Instruction

/-- Executing an instruction fails just if it is refused, and has then changed neither the state nor the random bytes. -/
theorem execute_all_or_nothing (keys : KeySource) (i : Instruction) (c : Cpu) (hdepth : c.state.stack.depth.toNat ≤ 15) :
    (∀ f c', execute keys i c = .error f c' ↔ Refused c.state i f ∧ c' = c) ∧
      ((∃ c', execute keys i c = .ok () c') ↔ ∀ f, ¬Refused c.state i f) := by
  simp only [← fault?_eq_some_iff hdepth, execute_eq]
  cases i.fault? c.state with
  | some f =>
    refine ⟨fun f' c' => ⟨?_, ?_⟩, ?_, ?_⟩
    · rintro ⟨⟩
      exact ⟨rfl, rfl⟩
    · rintro ⟨⟨⟩, rfl⟩
      rfl
    · rintro ⟨c', ⟨⟩⟩
    · intro h
      exact absurd rfl (h f)
  | none =>
    refine ⟨fun f c' => ⟨?_, ?_⟩, ?_, ?_⟩
    · rintro ⟨⟩
    · rintro ⟨⟨⟩, -⟩
    · rintro - f ⟨⟩
    · intro _
      exact ⟨_, rfl⟩

/-- With the index two bytes before the end of memory and no room on the stack. -/
def cornered : Cpu where
  state := { index := 0xFFE, stack := ⟨Vector.replicate _ 0x200, 15⟩ }
  random := .ofArray #[]

/-- Of two registers that are missing the first is reported. Only the low digit of a height counts: three rows are too
    many, and two can be drawn. -/
theorem execute_all_or_nothing_cornered :
    execute .idle (.random 16 0xFF) cornered = .error (.address 16) cornered ∧
      execute .idle (.sub 200 16) cornered = .error (.address 200) cornered ∧
      execute .idle (.draw 15 0 0x13) cornered = .error (.address 4096) cornered ∧
      execute .idle (.call 0x300) cornered = .error .stackOverflow cornered ∧
      ∃ c', execute .idle (.draw 15 0 0x12) cornered = .ok () c' := by
  have hdepth : cornered.state.stack.depth.toNat ≤ 15 := by decide
  refine ⟨?_, ?_, ?_, ?_, ?_⟩
  · refine ((execute_all_or_nothing .idle _ cornered hdepth).1 _ _).mpr ⟨?_, rfl⟩
    exact @Refused.register _ _ 16 [] [] rfl (fun _ h => nomatch h) (by decide)
  · refine ((execute_all_or_nothing .idle _ cornered hdepth).1 _ _).mpr ⟨?_, rfl⟩
    exact @Refused.register _ _ 200 [] [16] rfl (fun _ h => nomatch h) (by decide)
  · refine ((execute_all_or_nothing .idle _ cornered hdepth).1 _ _).mpr ⟨?_, rfl⟩
    exact .draw (by decide) (by decide) (by decide)
  · exact ((execute_all_or_nothing .idle _ cornered hdepth).1 _ _).mpr ⟨.call rfl, rfl⟩
  · refine (execute_all_or_nothing .idle _ cornered hdepth).2.mpr fun f R => ?_
    cases R with
    | register hregisters _ hr =>
      have hpresent : ∀ q ∈ (Instruction.draw 15 0 0x12).registers, q.toNat ≤ 15 :=
        List.forall_mem_cons.mpr ⟨by decide, List.forall_mem_singleton.mpr (by decide)⟩
      have hmem := hpresent _ (hregisters ▸ List.mem_append_right _ List.mem_cons_self)
      exact absurd hr (Nat.not_lt_of_le hmem)
    | draw hx hy hrange => exact absurd hrange (by decide)

end Cpu

end ChipEight
