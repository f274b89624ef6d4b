import ChipEight.Proofs.RunLoop

/-! # A run as a schedule

What a run does to its machine is a schedule: a step for each instruction up to the first fault, and a tick
after every so many. So what holds of schedules holds of runs. Two runs whose machines are alike, in a way that
their steps and their ticks keep, end alike and with the same outcome. -/

namespace ChipEight

open Faulting (Alike)

namespace Iteration
variable {keys : KeySource} {every every' : Nat}

/-- The ticks that are due when so many instructions have been executed. -/
def ticksAt (every steps : Nat) : List Event := if every ∣ steps then [.tick] else []

theorem keys?_of_mem_ticksAt (every steps : Nat) : ∀ e ∈ ticksAt every steps, e.keys? = none := by
  unfold ticksAt
  split
  · exact List.forall_mem_singleton.mpr rfl
  · exact fun _ he => absurd he List.not_mem_nil

/-- The next `n` instructions of an iteration as events, up to the first fault. -/
def events (keys : KeySource) (every : Nat) : Nat → Iteration → List Event
  | 0, _ => []
  | n + 1, it =>
    .step keys :: match next keys every it with
      | .ok _ it => ticksAt every it.steps ++ events keys every n it
      | .error _ _ => []

theorem next_eq (keys : KeySource) (every : Nat) (it : Iteration) :
    next keys every it = match it.machine.step keys with
      | .error f m => .error f { it with machine := m }
      | .ok _ m =>
        .ok () { machine := m.follow (ticksAt every (it.steps + 1)), steps := it.steps + 1,
                 ticks := it.ticks + (ticksAt every (it.steps + 1)).length } := by
  unfold next ticksAt
  cases it.machine.step keys with
  | error f m => rfl
  | ok _ m => by_cases htick : every ∣ it.steps + 1 <;> simp only [htick, if_true, if_false] <;> rfl

theorem machine_of_next_ok {it it' : Iteration} (h : next keys every it = .ok () it') :
    it'.machine = (it.machine.act (.step keys)).follow (ticksAt every it'.steps) := by
  rw [next_eq] at h
  rw [Machine.act_step]
  generalize it.machine.step keys = r at h ⊢
  cases r with
  | error f m => cases h
  | ok _ m =>
    cases h
    rfl

theorem machine_of_next_error {it it' : Iteration} {f : Fault} (h : next keys every it = .error f it') :
    it'.machine = it.machine.act (.step keys) := by
  rw [next_eq] at h
  rw [Machine.act_step]
  generalize it.machine.step keys = r at h ⊢
  cases r with
  | error f m =>
    cases h
    rfl
  | ok _ m => cases h

theorem machine_iterate (keys : KeySource) (every n : Nat) (it : Iteration) :
    (Faulting.left (iterate keys every n it)).machine = it.machine.follow (events keys every n it) := by
  induction n generalizing it with
  | zero => rfl
  | succ n ih =>
    have hfollow : ∀ rest, it.machine.follow (.step keys :: rest) = (it.machine.act (.step keys)).follow rest :=
      fun _ => rfl
    rw [iterate_succ, events, hfollow]
    cases hr : next keys every it with
    | error f it' => exact machine_of_next_error hr
    | ok _ it' =>
      simp only [Machine.follow_append, ← machine_of_next_ok hr]
      exact ih it'

/-! ### Two iterations -/

/-- Two iterations are at the same instruction with related machines. -/
structure Together (R : Machine → Machine → Prop) (it it' : Iteration) : Prop where
  machine : R it.machine it'.machine
  steps : it.steps = it'.steps

/-- Machines may be related in view of the events that are still to come. If steps and ticks keep such a relation,
    iterations end with machines in relation. -/
theorem iterate_alike {K : List Event → Machine → Machine → Prop}
    (hstep : ∀ m m' rest, K (.step keys :: rest) m m' → Alike (K rest) (m.step keys) (m'.step keys))
    (hticks : ∀ m m' steps rest, K (ticksAt every steps ++ rest) m m' →
      K rest (m.follow (ticksAt every steps)) (m'.follow (ticksAt every' steps)))
    {it it' : Iteration} (n : Nat) (hsteps : it.steps = it'.steps)
    (h : K (events keys every n it) it.machine it'.machine) :
    Alike (Together (K [])) (iterate keys every n it) (iterate keys every' n it') := by
  induction n generalizing it it' with
  | zero => exact .ok ⟨h, hsteps⟩
  | succ n ih =>
    rw [events, next_eq] at h
    have halike := hstep _ _ _ h
    rw [iterate_succ, iterate_succ, next_eq, next_eq, ← hsteps]
    generalize it.machine.step keys = r at halike ⊢
    generalize it'.machine.step keys = r' at halike ⊢
    cases halike with
    | error h => exact .error ⟨h, rfl⟩
    | ok h => exact ih rfl (hticks _ _ _ _ h)

end Iteration

namespace Machine
variable {σ τ : Type} [FrameSink σ] [FrameSink τ]

/-- The events of a run. -/
def runEvents (m : Machine) (config : RunConfig) : List Event :=
  Iteration.events config.keypad.source config.stepsPerTick config.budget { machine := m }

/-- A run leaves its machine as the schedule of its events does, with the screen shown. -/
theorem run_machine_eq_follow (m : Machine) (config : RunConfig) (sink : σ) :
    (m.run config sink).machine = (m.follow (m.runEvents config)).shown := by
  rw [run_machine, reference, Iteration.machine_iterate]
  rfl

/-- Two runs with the same limit give the same outcome and leave related machines if their iterations do. -/
theorem run_alike {R : Machine → Machine → Prop} {m m' : Machine} {config config' : RunConfig}
    (hlimit : config'.limit = config.limit)
    (h : Alike (Iteration.Together R) (m.reference config config.budget) (m'.reference config' config.budget))
    (sink : σ) (sink' : τ) :
    (m'.run config' sink').outcome = (m.run config sink).outcome ∧
      ∃ n n', R n n' ∧ (m.run config sink).machine = n.shown ∧ (m'.run config' sink').machine = n'.shown := by
  have hbudget : config'.budget = config.budget := by rw [RunConfig.budget, RunConfig.budget, hlimit]
  refine ⟨?_, _, _, h.left.machine, m.run_machine config sink, ?_⟩
  · rw [run_outcome, run_outcome, hbudget, hlimit]
    generalize m.reference config config.budget = r at h ⊢
    generalize m'.reference config' config.budget = r' at h ⊢
    cases h with
    | ok T => exact congrArg (RunOutcome.ofLimit config.limit) T.steps.symm
    | error T => rfl
  · rw [run_machine, hbudget]

end Machine

end ChipEight
