import ChipEight.Proofs.Schedule

/-! # A halted machine

A fault leaves everything as it was before the instruction, and a halted machine executes nothing. So
its state is still the one in which the fault arose, but for the timers and the mark, and as no fault
depends on these, the fault can be had from it again. -/

namespace ChipEight.Machine

/-- What is left to a host of a halted machine is to let its timers run down and to show its screen. -/
theorem follow_of_halted {m : Machine} {f : Fault} (h : m.status = .halted f) (events : List Event) :
    m.follow events = m.aged (events.countP Event.isTick) (events.any Event.isPresent) :=
  follow_of_still fun keys _ t p => act_step_of_halted (m := m.aged t p) h keys

/-- A machine that a fault has halted stays halted and gives the fault at every step. Its state remains that in
    which the fault arose, apart from the timers, which count the ticks, and the mark, which goes when the screen is
    shown. A running machine in that state meets the same fault, whatever its keys and its random bytes, and a word
    that is no instruction is still the word at the program counter. -/
theorem halted_frozen {m m₁ : Machine} {keys : KeySource} {f : Fault} (h : m.status = .running)
    (hdepth : m.state.stack.depth.toNat ≤ 15) (hstep : m.step keys = .error f m₁) (events : List Event) :
    let m₂ := m₁.follow events
    m₂.status = .halted f ∧ (∀ keys', m₂.step keys' = .error f m₂) ∧
      m₂.state = m.state.aged (events.countP Event.isTick) (events.any Event.isPresent) ∧
      (∀ random keys', ∃ m', step keys' { state := m₂.state, random } = .error f m') ∧
      ∀ word, f = .unknownOpcode word → m₂.state.memory.readWord m₂.state.pc.toNat = .ok word := by
  have hfault := nextFault?_of_step_error h hstep
  obtain rfl := eq_of_step_error hstep
  intro m₂
  have hm₂ : m₂ = { m with state := m.state.aged (events.countP Event.isTick) (events.any Event.isPresent),
                           status := .halted f } := follow_of_halted rfl events
  have hfault₂ : m₂.state.nextFault? = some f := by
    rw [hm₂, State.nextFault?_aged, hfault]
  have hstatus : m₂.status = .halted f := by rw [hm₂]
  refine ⟨hstatus, step_of_halted hstatus, by rw [hm₂], fun random keys' => ?_, ?_⟩
  · rw [step_of_running rfl, hfault₂]
    exact ⟨_, rfl⟩
  · intro word hword
    have hmeets : m₂.state.Meets (.unknownOpcode word) := by
      rw [← State.nextFault?_eq_some_iff (by rw [hm₂]; exact hdepth), hfault₂, hword]
    obtain ⟨hpc, rfl, -⟩ := hmeets
    rw [Memory.readWord_eq, if_pos hpc]
    rfl

/-- A machine that comes upon a word that is no instruction while both timers run and its screen is to be shown. -/
def noInstruction : Machine where
  state :=
    { memory := Memory.zero.store programStart.toNat [0xFF, 0xFF], delay := 2, sound := 5, redraw := true }
  random := .ofArray #[]

theorem nextFault?_noInstruction : noInstruction.state.nextFault? = some (.unknownOpcode 0xFFFF) := by
  decide +kernel

theorem halted_frozen_no_instruction :
    ∃ m₁, noInstruction.step .idle = .error (.unknownOpcode 0xFFFF) m₁ ∧
      let m₂ := m₁.follow [.tick, .step .idle, .present, .tick, .tick]
      m₂.status = .halted (.unknownOpcode 0xFFFF) ∧ m₂.state = noInstruction.state.aged 3 true ∧
        m₂.state.delay = 0 ∧ m₂.state.sound = 2 ∧
        m₂.state.memory.readWord m₂.state.pc.toNat = .ok 0xFFFF := by
  have hstep := step_of_running (m := noInstruction) rfl .idle
  rw [nextFault?_noInstruction] at hstep
  obtain ⟨hstatus, -, hstate, -, hword⟩ :=
    halted_frozen rfl (by decide) hstep [.tick, .step .idle, .present, .tick, .tick]
  refine ⟨_, hstep, hstatus, hstate, ?_, ?_, hword _ rfl⟩
  all_goals
    rw [hstate]
    rfl

end ChipEight.Machine
