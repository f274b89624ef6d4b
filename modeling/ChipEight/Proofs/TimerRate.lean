import ChipEight.Proofs.Countdown
import ChipEight.Proofs.RunEvents
import ChipEight.Proofs.Waiting

/-! # How fast the timers tick

A run counts instructions from one tick to the next and takes the clock over sixty for their number, rounded down and
at least one. So it does not always tick sixty times a second. In so many seconds it ticks as often as its distance
goes into its instructions: too often by what the rounding has left over, yet less than twice too often, and at slow
clocks after every instruction. -/

namespace ChipEight

/-! ### The ticks among the events of a run -/

namespace Iteration
variable {keys : KeySource} {every n : Nat} {it it' : Iteration}

theorem countP_ticksAt (every steps : Nat) :
    (ticksAt every steps).countP Event.isTick = (ticksAt every steps).length := by
  unfold ticksAt
  split <;> rfl

/-- An iteration counts the ticks that there are among its events. -/
theorem ticks_iterate (keys : KeySource) (every n : Nat) (it : Iteration) :
    (Faulting.left (iterate keys every n it)).ticks = it.ticks + (events keys every n it).countP Event.isTick := by
  induction n generalizing it with
  | zero => rfl
  | succ n ih =>
    rw [iterate_succ, events, List.countP_cons_of_neg Bool.false_ne_true, next_eq]
    cases it.machine.step keys with
    | error f m => rfl
    | ok _ m => simp only [ih, List.countP_append, countP_ticksAt, Nat.add_assoc]

/-- If the timers are to tick after every instruction, steps and ticks take turns. -/
theorem events_of_every_one (h : iterate keys 1 n it = .ok () it') :
    events keys 1 n it = (List.replicate n [.step keys, .tick]).flatten := by
  induction n generalizing it with
  | zero => rfl
  | succ n ih =>
    rw [iterate_succ] at h
    cases hr : next keys 1 it with
    | error f it₁ =>
      rw [hr] at h
      cases h
    | ok _ it₁ =>
      rw [hr] at h
      have hticks : ticksAt 1 it₁.steps = [.tick] := if_pos (Nat.one_dvd _)
      simp only [events, hr, hticks, ih h, List.replicate_succ, List.flatten_cons, List.cons_append, List.nil_append]

end Iteration

/-! ### Seconds -/

namespace RunConfig
variable {config : RunConfig}

theorem stepsPerTick_of_le (h : 60 ≤ config.clock.toNat) : config.stepsPerTick = config.clock.toNat / 60 :=
  Nat.max_eq_left (Nat.div_pos h (by decide))

theorem stepsPerTick_of_lt (h : config.clock.toNat < 60) : config.stepsPerTick = 1 := by
  rw [stepsPerTick, timerRate, Nat.div_eq_of_lt h]
  rfl

end RunConfig

/-- The instructions of some seconds are those of the ticks that are due, and for each second those that the rounding
    leaves over. -/
theorem seconds_div {clock : Nat} (h : 60 ≤ clock) (seconds : Nat) :
    seconds * clock / (clock / 60) = 60 * seconds + seconds * (clock % 60) / (clock / 60) := by
  have hpos : 0 < clock / 60 := Nat.div_pos h (by decide)
  have hsum : seconds * clock = seconds * (clock % 60) + clock / 60 * (60 * seconds) := by
    calc seconds * clock = seconds * (clock % 60 + 60 * (clock / 60)) := by rw [Nat.mod_add_div]
      _ = seconds * (clock % 60) + clock / 60 * (60 * seconds) := by rw [Nat.mul_add]; ac_rfl
  rw [hsum, Nat.add_mul_div_left _ _ hpos, Nat.add_comm]

theorem seconds_mod_div_lt (clock : Nat) {seconds : Nat} (h : 0 < seconds) :
    seconds * (clock % 60) / (clock / 60) < 60 * seconds := by
  have hrest : clock % 60 < 60 := Nat.mod_lt _ (by decide)
  calc seconds * (clock % 60) / (clock / 60) ≤ seconds * (clock % 60) := Nat.div_le_self _ _
    _ < seconds * 60 := Nat.mul_lt_mul_of_pos_left hrest h
    _ = 60 * seconds := Nat.mul_comm _ _

namespace Machine
variable {σ : Type} [FrameSink σ] {m : Machine} {config : RunConfig} {sink : σ} {seconds : Nat}

/-- How often the timers tick in a run. -/
def runTicks (m : Machine) (config : RunConfig) : Nat := (m.runEvents config).countP Event.isTick

/-- A run that is given the instructions of some seconds and meets no fault in them. -/
structure RunsFor (m : Machine) (config : RunConfig) (sink : σ) (seconds : Nat) : Prop where
  fits : seconds * config.clock.toNat < UInt64.size
  limit : config.limit = some (.ofNat (seconds * config.clock.toNat))
  outcome : ∃ n, (m.run config sink).outcome = .ok n

namespace RunsFor

theorem budget (R : m.RunsFor config sink seconds) : config.budget = seconds * config.clock.toNat := by
  rw [budget_of_limit R.limit, UInt64.toNat_ofNat', Nat.mod_eq_of_lt R.fits]

theorem exists_reference (R : m.RunsFor config sink seconds) :
    ∃ it, m.reference config config.budget = .ok () it := by
  obtain ⟨n, houtcome⟩ := R.outcome
  rw [run_outcome] at houtcome
  cases hr : m.reference config config.budget with
  | ok _ it => exact ⟨it, rfl⟩
  | error f it =>
    rw [hr] at houtcome
    cases houtcome

theorem runTicks_eq (R : m.RunsFor config sink seconds) :
    m.runTicks config = seconds * config.clock.toNat / config.stepsPerTick := by
  obtain ⟨it, hr⟩ := R.exists_reference
  have hcount := Iteration.ticks_iterate config.keypad.source config.stepsPerTick config.budget { machine := m }
  have hticks := m.ticks_of_reference config config.budget
  rw [reference] at hr hticks
  rw [hr, Faulting.left] at hcount hticks
  rw [steps_of_reference_ok hr, R.budget] at hticks
  rw [Nat.zero_add] at hcount
  exact hcount.symm.trans hticks

theorem runTicks_of_le (R : m.RunsFor config sink seconds) (h : 60 ≤ config.clock.toNat) :
    m.runTicks config = 60 * seconds + seconds * (config.clock.toNat % 60) / (config.clock.toNat / 60) := by
  rw [R.runTicks_eq, RunConfig.stepsPerTick_of_le h, seconds_div h]

theorem runTicks_of_lt (R : m.RunsFor config sink seconds) (h : config.clock.toNat < 60) :
    m.runTicks config = seconds * config.clock.toNat := by
  rw [R.runTicks_eq, RunConfig.stepsPerTick_of_lt h, Nat.div_one]

theorem runEvents_of_lt (R : m.RunsFor config sink seconds) (h : config.clock.toNat < 60) :
    m.runEvents config =
      (List.replicate (seconds * config.clock.toNat) [.step config.keypad.source, .tick]).flatten := by
  obtain ⟨it, hr⟩ := R.exists_reference
  rw [reference, RunConfig.stepsPerTick_of_lt h] at hr
  rw [runEvents, RunConfig.stepsPerTick_of_lt h, Iteration.events_of_every_one hr, R.budget]

end RunsFor

/-- What a run leaves of a timer that it does not load. -/
theorem toNat_value_run {timer : Timer} (h : ∀ op ∈ m.record executed (m.runEvents config), ¬op.fits timer.form)
    (sink : σ) :
    (timer.value (m.run config sink).machine.state).toNat = (timer.value m.state).toNat - m.runTicks config := by
  have hshown : ∀ m : Machine, timer.value m.shown.state = timer.value m.state := fun _ => by cases timer <;> rfl
  rw [run_machine_eq_follow, hshown, Timer.toNat_value_follow_of_unloaded h, runTicks]

theorem Waits.runsFor (h : m.Waits) (hsilent : config.keypad.source.Silent)
    (hfits : seconds * config.clock.toNat < UInt64.size)
    (hlimit : config.limit = some (.ofNat (seconds * config.clock.toNat))) (sink : σ) :
    m.RunsFor config sink seconds := ⟨hfits, hlimit, _, (h.run hlimit hsilent sink).1⟩

/-- Whether the timers tick sixty times in each second of all runs at a clock. -/
def KeepTime (clock : UInt32) : Prop :=
  ∀ (σ : Type) [FrameSink σ] (m : Machine) (config : RunConfig) (sink : σ) (seconds : Nat), config.clock = clock →
    m.RunsFor config sink seconds → m.runTicks config = 60 * seconds

/-- A machine that does nothing but wait for a key. -/
def waiter : Machine where
  state := { pc := 0, delay := 200, memory := Memory.zero.store 0 [0xF0, 0x0A] }
  random := .ofArray #[]

theorem waits_waiter : waiter.Waits := ⟨rfl, by decide, by decide +kernel⟩

theorem runsFor_waiter (clock : UInt32) (seconds : Nat) (hfits : seconds * clock.toNat < UInt64.size) (sink : σ) :
    waiter.RunsFor ⟨clock, some (.ofNat (seconds * clock.toNat)), .released, false⟩ sink seconds := by
  have hsilent : Keypad.released.source.Silent := by
    rw [Keypad.source_released]
    exact KeySource.silent_idle
  exact waits_waiter.runsFor hsilent hfits rfl sink

theorem keepTime_iff {clock : UInt32} (h : 60 ≤ clock.toNat) : KeepTime clock ↔ 60 ∣ clock.toNat := by
  constructor
  · intro hkeep
    have hpos : 0 < clock.toNat / 60 := Nat.div_pos h (by decide)
    have hfits : clock.toNat / 60 * clock.toNat < UInt64.size := by
      have hclock := clock.toNat_lt_size
      calc clock.toNat / 60 * clock.toNat ≤ clock.toNat * clock.toNat := Nat.mul_le_mul_right _ (Nat.div_le_self _ _)
        _ < UInt32.size * UInt32.size := Nat.mul_lt_mul'' hclock hclock
    -- By then what the rounding has left over makes up for whole ticks.
    have R := runsFor_waiter clock _ hfits ({} : FrameLog)
    have hticks := R.runTicks_eq.symm.trans (hkeep _ _ _ _ _ rfl R)
    rw [RunConfig.stepsPerTick_of_le h, Nat.mul_div_cancel_left _ hpos] at hticks
    exact ⟨_, hticks⟩
  · rintro hdvd _ _ m config sink seconds rfl R
    rw [R.runTicks_of_le h, Nat.mod_eq_zero_of_dvd hdvd, Nat.mul_zero, Nat.zero_div, Nat.add_zero]

/-- In a run of some seconds that meets no fault the timers tick sixty times a second, and once more whenever the
    instructions that the rounding leaves over fill the distance to a tick. That is less than twice as often as they
    should, and right in all runs just if sixty divides the clock. At a clock below sixty they tick after every
    instruction. A timer that is not loaded has gone down by the number of ticks, or to zero. -/
theorem timers_tick_at_rate :
    (∀ (σ : Type) [FrameSink σ] (m : Machine) (config : RunConfig) (sink : σ) (seconds : Nat),
      m.RunsFor config sink seconds →
      let clock := config.clock.toNat
      (m.run config sink).machine = (m.follow (m.runEvents config)).shown ∧
        (60 ≤ clock → m.runTicks config = 60 * seconds + seconds * (clock % 60) / (clock / 60) ∧
          60 * seconds ≤ m.runTicks config ∧ (0 < seconds → m.runTicks config < 120 * seconds)) ∧
        (clock < 60 → m.runTicks config = seconds * clock ∧
          m.runEvents config = (List.replicate (seconds * clock) [.step config.keypad.source, .tick]).flatten) ∧
        ∀ timer : Timer, (∀ op ∈ m.record executed (m.runEvents config), ¬op.fits timer.form) →
          (timer.value (m.run config sink).machine.state).toNat =
            (timer.value m.state).toNat - m.runTicks config) ∧
      ∀ clock : UInt32, 60 ≤ clock.toNat → (KeepTime clock ↔ 60 ∣ clock.toNat) := by
  refine ⟨fun σ _ m config sink seconds R => ?_, fun clock h => keepTime_iff h⟩
  intro clock
  refine ⟨m.run_machine_eq_follow config sink, fun h => ?_, fun h => ⟨R.runTicks_of_lt h, R.runEvents_of_lt h⟩,
    fun timer h => toNat_value_run h sink⟩
  have hticks := R.runTicks_of_le h
  refine ⟨hticks, ?_, fun hseconds => ?_⟩
  · rw [hticks]
    exact Nat.le_add_right _ _
  · have hrest := seconds_mod_div_lt config.clock.toNat hseconds
    omega

/-- At 119 instructions in a second the timers tick almost twice as often as they should. They are too fast at the usual
    500 as well, and too slow at two. -/
theorem timers_tick_at_rate_waiter :
    waiter.runTicks ⟨119, some 119, .released, false⟩ = 119 ∧
      (waiter.run ⟨119, some 119, .released, false⟩ ({} : FrameLog)).machine.state.delay.toNat = 81 ∧
      waiter.runTicks ⟨2, some 6, .released, false⟩ = 6 ∧ ¬KeepTime 500 ∧ KeepTime 600 := by
  obtain ⟨hrun, hkeep⟩ := timers_tick_at_rate
  have R : waiter.RunsFor ⟨119, some 119, .released, false⟩ ({} : FrameLog) 1 :=
    runsFor_waiter 119 1 (by decide) _
  have R' : waiter.RunsFor ⟨2, some 6, .released, false⟩ ({} : FrameLog) 3 :=
    runsFor_waiter 2 3 (by decide) _
  have hunloaded : (waiter.record executed (waiter.runEvents ⟨119, some 119, .released, false⟩)).any
      (·.fits "FX15") = false := by decide +kernel
  obtain ⟨-, hfast, -, htimers⟩ := hrun _ _ _ _ _ R
  obtain ⟨-, -, hslow, -⟩ := hrun _ _ _ _ _ R'
  have hticks := (hfast (by decide)).1
  have hdelay := htimers .delay (List.any_eq_false.mp hunloaded)
  rw [hticks] at hdelay
  refine ⟨hticks, hdelay, (hslow (by decide)).1, ?_, ?_⟩
  · rw [hkeep 500 (by decide)]
    decide
  · rw [hkeep 600 (by decide)]
    decide

end Machine

end ChipEight
