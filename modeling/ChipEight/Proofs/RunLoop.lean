import ChipEight.Proofs.Schedule
import ChipEight.Run

/-! # The loop of a run

What a run does to its machine can be told without frames, sinks and real time: instructions one after the
other, a timer tick after every so many, and an end at the first fault (`Iteration`). A run keeps in step
with that iteration whatever it shows in between, for showing the screen changes nothing that instructions
look at. -/

namespace ChipEight

open Faulting (Alike)

/-! ### The iteration that a run follows -/

/-- How far an iteration has got: the machine, the number of instructions executed without a fault, and the
    number of timer ticks. -/
structure Iteration where
  machine : Machine
  steps : Nat := 0
  ticks : Nat := 0

namespace Iteration

/-- Executes one instruction, and lets the timers tick if the number of instructions is then a multiple of
    `every`. -/
def next (keys : KeySource) (every : Nat) : Faulting Iteration Unit := fun it =>
  match it.machine.step keys with
  | .error f m => .error f { it with machine := m }
  | .ok _ m =>
    if every ∣ it.steps + 1 then .ok () { machine := m.tick, steps := it.steps + 1, ticks := it.ticks + 1 }
    else .ok () { machine := m, steps := it.steps + 1, ticks := it.ticks }

/-- Executes so many instructions, or fewer if one faults. -/
def iterate (keys : KeySource) (every : Nat) : Nat → Faulting Iteration Unit
  | 0 => pure ()
  | n + 1 => do
    next keys every
    iterate keys every n

/-- How a run ends that executes the instructions of an iteration and has a limit or none. -/
def outcome (limit : Option UInt64) : EStateM.Result Fault Iteration Unit → RunOutcome
  | .ok _ it => .ofLimit limit it.steps
  | .error f _ => .error f

variable {keys : KeySource} {every n : Nat} {f : Fault} {it it' : Iteration}

theorem iterate_succ (keys : KeySource) (every n : Nat) (it : Iteration) :
    iterate keys every (n + 1) it = match next keys every it with
      | .ok _ it => iterate keys every n it
      | .error f it => .error f it := by
  rw [iterate, bind_apply]
  cases next keys every it <;> rfl

theorem next_steps (keys : KeySource) (every : Nat) (it : Iteration) :
    match next keys every it with
    | .ok _ it' => it'.steps = it.steps + 1
    | .error _ it' => it'.steps = it.steps := by
  unfold next
  cases it.machine.step keys with
  | error f m => rfl
  | ok _ m => by_cases htick : every ∣ it.steps + 1 <;> simp only [htick, if_true, if_false]

theorem steps_of_next_ok (h : next keys every it = .ok () it') : it'.steps = it.steps + 1 := by
  have hsteps := next_steps keys every it
  rwa [h] at hsteps

theorem steps_of_next_error (h : next keys every it = .error f it') : it'.steps = it.steps := by
  have hsteps := next_steps keys every it
  rwa [h] at hsteps

/-- Among the instructions executed so far, a tick falls on every multiple of `every`. -/
def InTime (every : Nat) (it : Iteration) : Prop := it.ticks = it.steps / every

theorem next_inTime (keys : KeySource) (h : it.InTime every) :
    (Faulting.left (next keys every it)).InTime every := by
  unfold next
  cases it.machine.step keys with
  | error f m => exact h
  | ok _ m =>
    unfold InTime at h
    by_cases htick : every ∣ it.steps + 1
    · simp only [if_pos htick, Faulting.left, InTime, Nat.succ_div, h]
    · simp only [if_neg htick, Faulting.left, InTime, Nat.succ_div, h, Nat.add_zero]

theorem iterate_inTime (keys : KeySource) (n : Nat) (h : it.InTime every) :
    (Faulting.left (iterate keys every n it)).InTime every := by
  induction n generalizing it with
  | zero => exact h
  | succ n ih =>
    have hnext := next_inTime keys h
    rw [iterate_succ]
    cases hr : next keys every it with
    | ok _ it' =>
      rw [hr] at hnext
      exact ih hnext
    | error f it' =>
      rw [hr] at hnext
      exact hnext

theorem steps_of_iterate_ok (h : iterate keys every n it = .ok () it') : it'.steps = it.steps + n := by
  induction n generalizing it with
  | zero => cases h; rfl
  | succ n ih =>
    rw [iterate_succ] at h
    cases hr : next keys every it with
    | ok _ it₁ =>
      rw [hr] at h
      have hsteps := steps_of_next_ok hr
      have hrest := ih h
      omega
    | error f it₁ =>
      rw [hr] at h
      cases h

/-- A fault comes after fewer instructions than were asked for, and the same fault comes whenever more are
    asked for than were executed. -/
theorem iterate_error (h : iterate keys every n it = .error f it') :
    it.steps ≤ it'.steps ∧ it'.steps < it.steps + n ∧
      ∀ k, it'.steps < it.steps + k → iterate keys every k it = .error f it' := by
  induction n generalizing it with
  | zero => cases h
  | succ n ih =>
    rw [iterate_succ] at h
    cases hr : next keys every it with
    | ok _ it₁ =>
      -- The fault is still to come, and one instruction less is to be executed until then.
      rw [hr] at h
      have hsteps := steps_of_next_ok hr
      obtain ⟨hle, hlt, hagain⟩ := ih h
      refine ⟨by omega, by omega, fun k hk => ?_⟩
      cases k with
      | zero => omega
      | succ k =>
        rw [iterate_succ, hr]
        exact hagain k (by omega)
    | error f₁ it₁ =>
      rw [hr] at h
      cases h
      have hsteps := steps_of_next_error hr
      refine ⟨by omega, by omega, fun k hk => ?_⟩
      cases k with
      | zero => omega
      | succ k => rw [iterate_succ, hr]

end Iteration

/-- The first `n` instructions of a machine with the keys and the timer ticks that a configuration asks for. -/
def Machine.reference (m : Machine) (config : RunConfig) (n : Nat) : EStateM.Result Fault Iteration Unit :=
  Iteration.iterate config.keypad.source config.stepsPerTick n { machine := m }

/-! ### A run keeps in step -/

namespace Progress
variable {σ : Type} [FrameSink σ] {config : RunConfig} {p : Progress σ} {it : Iteration}

/-- What comes after an instruction: the timers tick if it is time, and in real time the screen is shown. -/
def settled (config : RunConfig) (p : Progress σ) : Progress σ :=
  let p := if p.cycles % config.stepsPerTick = 0 then { p with machine := p.machine.tick } else p
  if config.realtime then { p with machine := p.machine.shown, sink := (p.machine.present p.sink).2.2 } else p

theorem present_apply (p : Progress σ) :
    present p = .ok (p.machine.present p.sink).1
      { p with machine := p.machine.shown, sink := (p.machine.present p.sink).2.2 } := by
  rw [← p.machine.present_machine p.sink]
  rfl

theorem cycle_apply (config : RunConfig) (p : Progress σ) :
    cycle config p = match p.machine.step config.keypad.source with
      | .error f m => .error f { p with machine := m }
      | .ok _ m => .ok () (settled config { p with machine := m, cycles := p.cycles + 1 }) := by
  have hmodify : ∀ (g : Progress σ → Progress σ) p,
      (modify g : Faulting (Progress σ) Unit) p = .ok () (g p) := fun _ _ => rfl
  have hget : ∀ p, (get : Faulting (Progress σ) (Progress σ)) p = .ok p p := fun _ => rfl
  simp only [cycle, bind_apply, Faulting.focus, settled]
  cases p.machine.step config.keypad.source with
  | error f m => rfl
  | ok _ m =>
    by_cases htick : (p.cycles + 1) % config.stepsPerTick = 0 <;> cases config.realtime <;>
      simp only [hmodify, hget, htick, bind_apply, pure_apply, present_apply, if_true, if_false,
        Bool.false_eq_true]

theorem settled_cycles (config : RunConfig) (p : Progress σ) : (settled config p).cycles = p.cycles := by
  unfold settled
  by_cases htick : p.cycles % config.stepsPerTick = 0 <;> cases config.realtime <;> simp [htick]

theorem settled_machine (config : RunConfig) (p : Progress σ) :
    (settled config p).machine.shown =
      if config.stepsPerTick ∣ p.cycles then p.machine.shown.tick.shown else p.machine.shown := by
  unfold settled
  rw [Machine.tick_shown]
  by_cases htick : p.cycles % config.stepsPerTick = 0 <;> cases config.realtime <;>
    simp [htick, Nat.dvd_iff_mod_eq_zero] <;> rfl

/-- A run and the iteration are at the same instruction, with machines that differ in the mark at most. -/
structure Tracks (p : Progress σ) (it : Iteration) : Prop where
  machine : p.machine.shown = it.machine.shown
  cycles : p.cycles = it.steps

theorem cycle_alike (h : Tracks p it) :
    Alike Tracks (cycle config p) (Iteration.next config.keypad.source config.stepsPerTick it) := by
  have hstep := Machine.step_alike h.machine config.keypad.source
  rw [cycle_apply, Iteration.next]
  generalize p.machine.step config.keypad.source = r at hstep ⊢
  generalize it.machine.step config.keypad.source = r' at hstep ⊢
  cases hstep with
  | error hm => exact .error ⟨hm, h.cycles⟩
  | @ok _ m m' hm =>
    -- A tick keeps in step too, and what is shown in between takes away the mark only.
    have hcycles := settled_cycles config { p with machine := m, cycles := p.cycles + 1 }
    have hmachine := settled_machine config { p with machine := m, cycles := p.cycles + 1 }
    simp only [h.cycles, hm, Machine.tick_shown] at hcycles hmachine
    by_cases htick : config.stepsPerTick ∣ it.steps + 1
    · rw [if_pos htick] at hmachine
      simp only [if_pos htick, h.cycles]
      exact .ok ⟨hmachine, hcycles⟩
    · rw [if_neg htick] at hmachine
      simp only [if_neg htick, h.cycles]
      exact .ok ⟨hmachine, hcycles⟩

theorem advance_alike (h : Tracks p it) (n : Nat) :
    Alike Tracks (advance config n p) (Iteration.iterate config.keypad.source config.stepsPerTick n it) := by
  induction n generalizing p it with
  | zero => exact .ok h
  | succ n ih => exact (cycle_alike h).bind fun _ _ _ h => ih h

theorem finish_machine (config : RunConfig) (p : Progress σ) : (p.finish config).machine = p.machine.shown := by
  have hshown := p.machine.present_machine p.sink
  unfold finish
  generalize p.machine.present p.sink = r at hshown ⊢
  obtain ⟨shown, machine, sink⟩ := r
  cases hrender : shown || config.realtime <;> simpa [hrender] using hshown

theorem finish_cycles (config : RunConfig) (p : Progress σ) : (p.finish config).cycles = p.cycles := by
  unfold finish
  generalize p.machine.present p.sink = r
  obtain ⟨shown, machine, sink⟩ := r
  cases hrender : shown || config.realtime <;> simp [hrender]

end Progress

namespace Machine
variable {σ : Type} [FrameSink σ] {config : RunConfig} {m : Machine} {it : Iteration} {f : Fault}

theorem advance_alike (m : Machine) (config : RunConfig) (sink : σ) (n : Nat) :
    Alike Progress.Tracks (Progress.advance config n { machine := m, sink, cycles := 0 }) (m.reference config n) :=
  Progress.advance_alike ⟨rfl, rfl⟩ n

theorem run_outcome (m : Machine) (config : RunConfig) (sink : σ) :
    (m.run config sink).outcome = Iteration.outcome config.limit (m.reference config config.budget) := by
  have halike := m.advance_alike config sink config.budget
  unfold run
  generalize Progress.advance config config.budget { machine := m, sink, cycles := 0 } = r at halike ⊢
  generalize m.reference config config.budget = r' at halike ⊢
  cases halike with
  | ok h => simp only [Iteration.outcome, Progress.finish_cycles, h.cycles]
  | error h => rfl

theorem run_machine (m : Machine) (config : RunConfig) (sink : σ) :
    (m.run config sink).machine = (Faulting.left (m.reference config config.budget)).machine.shown := by
  have halike := m.advance_alike config sink config.budget
  unfold run
  generalize Progress.advance config config.budget { machine := m, sink, cycles := 0 } = r at halike ⊢
  generalize m.reference config config.budget = r' at halike ⊢
  cases halike with
  | ok h => simp only [Faulting.left, Progress.finish_machine, h.machine]
  | error h => simp only [Faulting.left, Progress.finish_machine, h.machine]

theorem budget_of_limit {n : UInt64} (h : config.limit = some n) : config.budget = n.toNat := by
  rw [RunConfig.budget, h]

theorem budget_lt (config : RunConfig) : config.budget < UInt64.size := by
  unfold RunConfig.budget
  split
  · exact UInt64.toNat_lt_size _
  · decide

theorem ticks_of_reference (m : Machine) (config : RunConfig) (n : Nat) :
    (Faulting.left (m.reference config n)).ticks =
      (Faulting.left (m.reference config n)).steps / config.stepsPerTick :=
  Iteration.iterate_inTime _ n (Nat.zero_div _).symm

theorem steps_of_reference_ok {n : Nat} (h : m.reference config n = .ok () it) : it.steps = n := by
  have hsteps := Iteration.steps_of_iterate_ok h
  rwa [Nat.zero_add] at hsteps

theorem reference_error {n : Nat} (h : m.reference config n = .error f it) :
    it.steps < n ∧ ∀ k, it.steps < k → m.reference config k = .error f it := by
  obtain ⟨-, hlt, hagain⟩ := Iteration.iterate_error h
  rw [Nat.zero_add] at hlt
  refine ⟨hlt, fun k hk => hagain k ?_⟩
  rwa [Nat.zero_add]

theorem steps_le_of_reference (m : Machine) (config : RunConfig) (n : Nat) :
    (Faulting.left (m.reference config n)).steps ≤ n := by
  cases hr : m.reference config n with
  | ok _ it => exact Nat.le_of_eq (steps_of_reference_ok hr)
  | error f it => exact Nat.le_of_lt (reference_error hr).1

/-- A run is left unended just if it has no limit and meets no fault while its instructions can be counted. -/
theorem run_outcome_eq_unended_iff (m : Machine) (config : RunConfig) (sink : σ) :
    (m.run config sink).outcome = .unended ↔
      config.limit = none ∧ ∃ it, m.reference config config.budget = .ok () it := by
  rw [run_outcome]
  cases m.reference config config.budget with
  | error f it =>
    constructor
    · intro h
      cases h
    · rintro ⟨-, it', h⟩
      cases h
  | ok _ it =>
    cases hlimit : config.limit with
    | none => exact ⟨fun _ => ⟨rfl, it, rfl⟩, fun _ => rfl⟩
    | some n =>
      constructor
      · intro h
        cases h
      · rintro ⟨h, -⟩
        cases h

/-- Neither real time nor the sink has a part in what comes of the machine. -/
theorem run_eq_run {τ : Type} [FrameSink τ] (m : Machine) (config : RunConfig) (sink : σ) (realtime : Bool)
    (other : τ) :
    (m.run { config with realtime } other).outcome = (m.run config sink).outcome ∧
      (m.run { config with realtime } other).machine = (m.run config sink).machine := by
  rw [run_outcome, run_outcome, run_machine, run_machine]
  exact ⟨rfl, rfl⟩

/-- A run with a limit gives what the iteration gives. Its count of instructions is that of the iteration and
    never outgrows 64 bits. Without a limit a run ends where it ends with any limit that lets it reach the
    fault. In real time or not, and whatever shows its frames, it gives the same. -/
theorem run_eq_reference (m : Machine) (config : RunConfig) (sink : σ) :
    0 < config.stepsPerTick ∧
      (∀ n : UInt64, config.limit = some n →
        (∀ it, m.reference config n.toNat = .ok () it →
          (m.run config sink).outcome = .ok n.toNat ∧ (m.run config sink).machine = it.machine.shown ∧
            it.steps = n.toNat ∧ it.ticks = n.toNat / config.stepsPerTick) ∧
        ∀ f it, m.reference config n.toNat = .error f it →
          (m.run config sink).outcome = .error f ∧ (m.run config sink).machine = it.machine.shown ∧
            it.steps < n.toNat ∧ it.ticks = it.steps / config.stepsPerTick) ∧
      (∀ k ≤ config.budget,
        let p := Faulting.left (Progress.advance config k { machine := m, sink, cycles := 0 })
        p.cycles = (Faulting.left (m.reference config k)).steps ∧ p.cycles < UInt64.size) ∧
      (config.limit = none → ∀ k f it, m.reference config k = .error f it → it.steps < UInt64.size - 1 →
        ∀ n : UInt64, it.steps < n.toNat →
          let limited := m.run { config with limit := some n } sink
          (m.run config sink).outcome = limited.outcome ∧ (m.run config sink).machine = limited.machine) ∧
      ∀ {τ : Type} [FrameSink τ] (realtime : Bool) (other : τ),
        (m.run { config with realtime } other).outcome = (m.run config sink).outcome ∧
          (m.run { config with realtime } other).machine = (m.run config sink).machine := by
  refine ⟨?_, fun n hlimit => ⟨fun it hit => ?_, fun f it hit => ?_⟩, fun k hk => ?_, ?_,
    m.run_eq_run config sink⟩
  · exact Nat.lt_of_lt_of_le Nat.one_pos (Nat.le_max_right _ _)
  · have hticks := m.ticks_of_reference config n.toNat
    have houtcome := m.run_outcome config sink
    have hmachine := m.run_machine config sink
    rw [budget_of_limit hlimit, hit] at houtcome hmachine
    rw [hlimit] at houtcome
    rw [hit] at hticks
    rw [← steps_of_reference_ok hit]
    exact ⟨houtcome, hmachine, rfl, hticks⟩
  · have hticks := m.ticks_of_reference config n.toNat
    have houtcome := m.run_outcome config sink
    have hmachine := m.run_machine config sink
    rw [budget_of_limit hlimit, hit] at houtcome hmachine
    rw [hit] at hticks
    exact ⟨houtcome, hmachine, (reference_error hit).1, hticks⟩
  · have hcycles := (m.advance_alike config sink k).left.cycles
    have hsteps := m.steps_le_of_reference config k
    have hbudget := budget_lt config
    exact ⟨hcycles, by omega⟩
  · intro hlimit k f it hit hsize n hn
    have hagain := (reference_error hit).2
    have hbudget : config.budget = UInt64.size - 1 := by rw [RunConfig.budget, hlimit]
    have hfree : m.reference config config.budget = .error f it := hagain _ (by omega)
    have hlimited : m.reference { config with limit := some n } n.toNat = .error f it := hagain _ hn
    have houtcome := m.run_outcome config sink
    have hmachine := m.run_machine config sink
    rw [hfree] at houtcome hmachine
    have houtcome' := m.run_outcome { config with limit := some n } sink
    have hmachine' := m.run_machine { config with limit := some n } sink
    rw [budget_of_limit rfl, hlimited] at houtcome' hmachine'
    exact ⟨houtcome.trans houtcome'.symm, hmachine.trans hmachine'.symm⟩

/-- A program sets a timer, clears the screen, adds twice and then returns from nowhere. The timers tick twice before
    that, and the run ends there without a limit too. -/
theorem run_eq_reference_before_return :
    ∃ m, ofProgram [0x60, 0x09, 0xF0, 0x15, 0x00, 0xE0, 0x70, 0x01, 0x71, 0x01, 0x00, 0xEE] (.ofArray #[]) = .ok m ∧
      (m.run ⟨120, some 4, .released, true⟩ ({} : FrameLog)).outcome = .ok 4 ∧
      ∃ it, m.reference ⟨120, none, .released, true⟩ 7 = .error .stackUnderflow it ∧
        it.steps = 5 ∧ it.ticks = 2 ∧ it.machine.state.delay = 7 ∧
        let result := m.run ⟨120, none, .released, true⟩ ({} : FrameLog)
        result.outcome = .error .stackUnderflow ∧ result.machine = it.machine.shown := by
  obtain ⟨m, h⟩ := (exists_ofProgram_iff
    [0x60, 0x09, 0xF0, 0x15, 0x00, 0xE0, 0x70, 0x01, 0x71, 0x01, 0x00, 0xEE] (.ofArray #[])).mpr (by decide)
  let config : RunConfig := ⟨120, none, .released, true⟩
  obtain ⟨hfour, hseven, hsteps, hdelay⟩ :
      Iteration.outcome (some 4) (m.reference config 4) = .ok 4 ∧
      Iteration.outcome (some 7) (m.reference config 7) = .error .stackUnderflow ∧
      (Faulting.left (m.reference config 7)).steps = 5 ∧
      (Faulting.left (m.reference config 7)).machine.state.delay = 7 := by
    rw [eq_of_ofProgram h]
    decide +kernel
  obtain ⟨-, hlimit₄, -⟩ := m.run_eq_reference { config with limit := some 4 } ({} : FrameLog)
  obtain ⟨-, hlimit₇, -⟩ := m.run_eq_reference { config with limit := some 7 } ({} : FrameLog)
  obtain ⟨-, -, -, hnone, -⟩ := m.run_eq_reference config ({} : FrameLog)
  cases hr₄ : m.reference config 4 with
  | error f it =>
    rw [hr₄] at hfour
    cases hfour
  | ok _ it₄ =>
    cases hr : m.reference config 7 with
    | ok _ it =>
      rw [hr] at hseven
      cases hseven
    | error f it =>
      rw [hr] at hseven hsteps hdelay
      cases hseven
      obtain ⟨hok, -⟩ := (hlimit₄ 4 rfl).1 it₄ hr₄
      obtain ⟨houtcome, hmachine, hlt, hticks⟩ := (hlimit₇ 7 rfl).2 _ it hr
      obtain ⟨hsame, hsame'⟩ := hnone rfl 7 _ it hr (Nat.lt_trans hlt (by decide)) 7 hlt
      refine ⟨m, h, hok, it, hr, hsteps, ?_, hdelay, hsame.trans houtcome, hsame'.trans hmachine⟩
      have hsteps' : it.steps = 5 := hsteps
      rw [hticks, hsteps']
      decide

end Machine

end ChipEight
