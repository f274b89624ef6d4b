import ChipEight.Proofs.Keys
import ChipEight.Proofs.RunLoop

/-! # Waiting for a key

While no key is down, the instruction that waits for one winds the program counter back to itself, and
nothing else of it is to be seen: however often it is executed, the machine only ages. With the first step
that finds a key down, it goes on. -/

namespace ChipEight.Machine

/-- A machine whose next instruction waits for a key. -/
structure Waits (m : Machine) : Prop where
  running : m.status = .running
  pc_le : m.state.pc.toNat ≤ 0xFFE
  fits : m.state.nextWord.fits "FX0A"

/-- The machine that has found a key down and goes on. -/
def woken (m : Machine) (k : UInt8) : Machine :=
  { m with state.registers := m.state.registers.put m.state.nextWord.x k, state.pc := m.state.pc + 2 }

namespace Waits
variable {m : Machine} {keys : KeySource} {events : List Event}

theorem nextInstruction (h : m.Waits) : m.state.nextInstruction = .waitKey m.state.nextWord.x :=
  Opcode.decode_of_fits h.fits rfl (by decide) rfl

theorem nextFault? (h : m.Waits) : m.state.nextFault? = none := by
  rw [State.nextFault?, if_pos (Nat.add_le_add_right h.pc_le 2), h.nextInstruction]
  simp [Instruction.fault?, Opcode.missing_x]

/-- An instruction that waits looks for the first key down and for nothing else. -/
theorem step_eq (h : m.Waits) (keys : KeySource) :
    m.step keys = .ok () (keys.firstDown.elim m m.woken) := by
  refine step_eq_ok_iff.mpr ⟨h.running, h.nextFault?, ?_⟩
  -- Fetching has moved the counter on, and waiting moves it back.
  have hback : m.state.pc + 2 - 2 = m.state.pc := UInt16.add_sub_cancel _ _
  rw [advanced, Cpu.advanced, h.nextInstruction]
  cases hdown : keys.firstDown <;>
    simp [Instruction.effect, Instruction.stateAfter, Memory.store, State.fetched, woken, hdown, hback]

theorem step_silent (h : m.Waits) (hsilent : keys.Silent) : m.step keys = .ok () m := by
  rw [h.step_eq, KeySource.firstDown_eq_none_iff.mpr hsilent]
  rfl

theorem step_down (h : m.Waits) {k : UInt8} (hdown : keys.firstDown = some k) : m.step keys = .ok () (m.woken k) := by
  rw [h.step_eq, hdown]
  rfl

theorem aged (h : m.Waits) (t : Nat) (p : Bool) : (m.aged t p).Waits := ⟨h.running, h.pc_le, h.fits⟩

/-- Through any schedule without a key down the machine waits, and only ages. -/
theorem follow (h : m.Waits) (hsilent : ∀ keys, .step keys ∈ events → keys.Silent) :
    m.follow events = m.aged (events.countP Event.isTick) (events.any Event.isPresent) :=
  follow_of_still fun _ hmem t p => act_of_step_ok ((h.aged t p).step_silent (hsilent _ hmem))

/-- The iteration that a run follows ages its machine by the ticks that it counts. -/
theorem next {it : Iteration} (h : m.Waits) (hsilent : keys.Silent) (hit : it.machine = m.aged it.ticks false)
    (every : Nat) : ∃ it', Iteration.next keys every it = .ok () it' ∧ it'.machine = m.aged it'.ticks false := by
  have hstep : it.machine.step keys = .ok () it.machine := by
    rw [hit]
    exact (h.aged _ _).step_silent hsilent
  rw [Iteration.next, hstep]
  by_cases htick : every ∣ it.steps + 1
  · refine ⟨_, if_pos htick, ?_⟩
    rw [hit, tick_aged]
  · exact ⟨_, if_neg htick, hit⟩

theorem iterate {it : Iteration} (h : m.Waits) (hsilent : keys.Silent) (hit : it.machine = m.aged it.ticks false)
    (every n : Nat) : ∃ it', Iteration.iterate keys every n it = .ok () it' ∧ it'.machine = m.aged it'.ticks false := by
  induction n generalizing it with
  | zero => exact ⟨it, rfl, hit⟩
  | succ n ih =>
    obtain ⟨it₁, hnext, hit₁⟩ := h.next hsilent hit every
    obtain ⟨it', hrest, hit'⟩ := ih hit₁
    refine ⟨it', ?_, hit'⟩
    rw [Iteration.iterate_succ, hnext]
    exact hrest

/-- A run without a key down uses up its limit, and the ticks in it are all that comes of it. -/
theorem run {σ : Type} [FrameSink σ] (h : m.Waits) {config : RunConfig} {n : UInt64} (hlimit : config.limit = some n)
    (hsilent : config.keypad.source.Silent) (sink : σ) :
    (m.run config sink).outcome = .ok n.toNat ∧
      (m.run config sink).machine = m.aged (n.toNat / config.stepsPerTick) true := by
  obtain ⟨it, hreference, hit⟩ : ∃ it, m.reference config n.toNat = .ok () it ∧ it.machine = m.aged it.ticks false :=
    h.iterate hsilent m.aged_zero.symm config.stepsPerTick n.toNat
  have hsteps := steps_of_reference_ok hreference
  have hticks := m.ticks_of_reference config n.toNat
  simp only [hreference, Faulting.left, hsteps] at hticks
  rw [run_outcome, run_machine, budget_of_limit hlimit, hreference, hlimit]
  refine ⟨congrArg RunOutcome.ok hsteps, ?_⟩
  rw [Faulting.left, hit, hticks, shown_aged]

end Waits

/-- What has become of a waiting machine in a step that found key `k` down. -/
structure Woken (m m' : Machine) (k : UInt8) : Prop where
  register : m'.state.registers.value m.state.nextWord.x = k
  others : ∀ i ≠ m.state.nextWord.x, m'.state.registers.value i = m.state.registers.value i
  pc : m'.state.pc.toNat = m.state.pc.toNat + 2
  rest : m' = { m with state.registers := m'.state.registers, state.pc := m'.state.pc }

theorem Waits.woken {m : Machine} (h : m.Waits) (k : UInt8) : Woken m (m.woken k) k where
  register := Registers.value_put_self _ _ (Opcode.missing_x _)
  others _ hne := Registers.value_put_of_ne _ _ hne
  pc := State.toNat_pc_fetched h.nextFault?
  rest := rfl

/-- With no key down, a machine that waits for one makes every step without a fault and is the same after it: its
    timers tick, its screen is shown, and nothing else happens for as long as that goes on. The first step that finds
    a key down puts the lowest one into the register and moves on. A run with no key down counts up to its limit. -/
theorem waits_for_key (m : Machine) (h : m.Waits) :
    (∀ keys ∈ [KeySource.idle, Keypad.released.source, .ofTable (Vector.replicate _ false)], keys.Silent) ∧
      (∀ events, (∀ keys, .step keys ∈ events → keys.Silent) →
        (∀ before keys after, events = before ++ .step keys :: after →
          (m.follow before).step keys = .ok () (m.follow before)) ∧
        m.follow events = m.aged (events.countP Event.isTick) (events.any Event.isPresent) ∧
        ∀ keys : KeySource, ¬keys.Silent → ∃ k : UInt8, k.toNat ≤ 15 ∧ keys.isDown k = true ∧
          (∀ j < k, keys.isDown j = false) ∧
          ∃ m', (m.follow events).step keys = .ok () m' ∧ Woken (m.follow events) m' k) ∧
      ∀ {σ : Type} [FrameSink σ] (sink : σ) (config : RunConfig) (n : UInt64), config.limit = some n →
        config.keypad.source.Silent →
        (m.run config sink).outcome = .ok n.toNat ∧
          (m.run config sink).machine = m.aged (n.toNat / config.stepsPerTick) true := by
  refine ⟨?_, fun events hsilent => ⟨?_, h.follow hsilent, fun keys hkeys => ?_⟩,
    fun sink config n hlimit hsilent => h.run hlimit hsilent sink⟩
  · simp only [Keypad.source_released, KeySource.ofTable_replicate, List.forall_mem_cons]
    exact ⟨KeySource.silent_idle, KeySource.silent_idle, KeySource.silent_idle, List.forall_mem_nil _⟩
  · rintro before keys after rfl
    have hbefore : ∀ keys, .step keys ∈ before → keys.Silent := fun keys hmem =>
      hsilent keys (List.mem_append_left _ hmem)
    rw [h.follow hbefore]
    exact (h.aged _ _).step_silent (hsilent keys (List.mem_append_right _ List.mem_cons_self))
  · obtain ⟨k, hfirst⟩ := Option.ne_none_iff_exists'.mp (mt KeySource.firstDown_eq_none_iff.mp hkeys)
    obtain ⟨hk, hdown, hlower⟩ := KeySource.firstDown_eq_some_iff.mp hfirst
    have hwaits : (m.follow events).Waits := by
      rw [h.follow hsilent]
      exact h.aged _ _
    exact ⟨k, Nat.le_of_lt_succ hk, hdown, hlower, _, hwaits.step_down hfirst, hwaits.woken k⟩

/-- A machine that waits at the last word of memory, for a key to go into VF. -/
def lastWait : Machine where
  state := { pc := 0xFFE, memory := Memory.zero.store 0xFFE [0xFF, 0x0A], delay := 1, redraw := true }
  random := .ofArray #[]

theorem waits_for_key_last_word :
    let m := lastWait.follow [.step .idle, .tick, .present, .tick]
    m = lastWait.aged 2 true ∧
      (∃ m', m.step (Keypad.released.press 9).source = .ok () m' ∧ Woken m m' 9) ∧
      (lastWait.run ⟨500, some 1000000, .released, false⟩ ({} : FrameLog)).outcome = .ok 1000000 := by
  intro m
  have hwaits : lastWait.Waits := ⟨rfl, by decide, by decide +kernel⟩
  obtain ⟨hsources, hschedule, hrun⟩ := waits_for_key lastWait hwaits
  obtain ⟨-, hfollow, hgoes⟩ := hschedule [.step .idle, .tick, .present, .tick] fun keys hmem => by
    simp only [List.mem_cons, Event.step.injEq, reduceCtorEq, List.not_mem_nil, or_false] at hmem
    rw [hmem]
    exact KeySource.silent_idle
  have hfirst : (Keypad.released.press 9).source.firstDown = some 9 := by decide
  obtain ⟨k, hk, hdown, hlower, m', hstep, hwoken⟩ := hgoes (Keypad.released.press 9).source fun hsilent => by
    rw [KeySource.firstDown_eq_none_iff.mpr hsilent] at hfirst
    cases hfirst
  rw [KeySource.firstDown_eq_some_iff.mpr ⟨Nat.lt_succ_of_le hk, hdown, hlower⟩] at hfirst
  rw [Option.some.inj hfirst] at hwoken
  exact ⟨hfollow, ⟨m', hstep, hwoken⟩, (hrun _ _ 1000000 rfl (hsources _ (by simp))).1⟩

end ChipEight.Machine
