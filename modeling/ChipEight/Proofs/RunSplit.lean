import ChipEight.Proofs.RunLoop

/-! # A run in two parts

A run counts its instructions from zero, so its timers tick at multiples of their distance from where it
starts. If it stops at such a multiple, a run that takes over from it lets them tick where the first would have,
and the two together do what a single run does. The first one shows the screen when it stops, but no instruction
looks at the mark. -/

namespace ChipEight

open Faulting (Alike)

/-! ### An iteration that takes over -/

namespace Iteration
variable {keys : KeySource} {every start : Nat} {it it' : Iteration} {f : Fault}

theorem iterate_add (keys : KeySource) (every a b : Nat) (it : Iteration) :
    iterate keys every (a + b) it = match iterate keys every a it with
      | .ok _ it => iterate keys every b it
      | .error f it => .error f it := by
  induction a generalizing it with
  | zero => rw [Nat.zero_add, iterate, pure_apply]
  | succ a ih =>
    rw [Nat.succ_add, iterate_succ, iterate_succ]
    cases next keys every it with
    | error f it' => rfl
    | ok _ it' => exact ih it'

/-- An iteration that counts from zero goes on where another is after `start` instructions. -/
structure TakesOver (start : Nat) (it it' : Iteration) : Prop where
  machine : it.machine.shown = it'.machine.shown
  steps : it.steps = start + it'.steps

theorem TakesOver.next (hdue : every ∣ start) (T : TakesOver start it it') :
    Alike (TakesOver start) (next keys every it) (next keys every it') := by
  have hstep := Machine.step_alike T.machine keys
  have hsteps : it.steps + 1 = start + (it'.steps + 1) := by rw [T.steps, Nat.add_assoc]
  have hticks : every ∣ it.steps + 1 ↔ every ∣ it'.steps + 1 := by
    rw [hsteps]
    exact Nat.dvd_add_right hdue
  unfold Iteration.next
  generalize it.machine.step keys = r at hstep ⊢
  generalize it'.machine.step keys = r' at hstep ⊢
  cases hstep with
  | error hm => exact .error ⟨hm, T.steps⟩
  | @ok _ m m' hm =>
    by_cases htick : every ∣ it'.steps + 1
    · have htick' := hticks.mpr htick
      have hticked : m.tick.shown = m'.tick.shown := by rw [← m.tick_shown, hm, m'.tick_shown]
      simp only [if_pos htick, if_pos htick']
      exact .ok ⟨hticked, hsteps⟩
    · have htick' := mt hticks.mp htick
      simp only [if_neg htick, if_neg htick']
      exact .ok ⟨hm, hsteps⟩

theorem TakesOver.iterate (hdue : every ∣ start) (T : TakesOver start it it') (n : Nat) :
    Alike (TakesOver start) (iterate keys every n it) (iterate keys every n it') := by
  induction n generalizing it it' with
  | zero => exact .ok T
  | succ n ih => exact (T.next hdue).bind fun _ _ _ T => ih T

theorem status_of_next_error (h : next keys every it = .error f it') : it'.machine.status = .halted f := by
  unfold next at h
  cases hr : it.machine.step keys with
  | error f' m =>
    rw [hr] at h
    cases h
    rw [Machine.eq_of_step_error hr]
  | ok _ m =>
    rw [hr] at h
    by_cases htick : every ∣ it.steps + 1 <;> simp [htick] at h

theorem status_of_iterate_error {n : Nat} (h : iterate keys every n it = .error f it') :
    it'.machine.status = .halted f := by
  induction n generalizing it with
  | zero => cases h
  | succ n ih =>
    rw [iterate_succ] at h
    cases hr : next keys every it with
    | ok _ it₁ =>
      rw [hr] at h
      exact ih h
    | error f₁ it₁ =>
      rw [hr] at h
      cases h
      exact status_of_next_error hr

end Iteration

/-! ### Two runs and one -/

namespace Machine
variable {m : Machine} {config : RunConfig} {it : Iteration} {f : Fault} {a b n : Nat}

theorem reference_of_halted (h : m.status = .halted f) (config : RunConfig) (hn : 0 < n) :
    m.reference config n = .error f { machine := m } := by
  cases n with
  | zero => cases hn
  | succ n => rw [reference, Iteration.iterate_succ, Iteration.next, step_of_halted h]

/-- What a machine does after `a` instructions, it does too if it is run anew from there. -/
theorem reference_add (hdue : config.stepsPerTick ∣ a) (h : m.reference config a = .ok () it) (b : Nat) :
    Alike (Iteration.TakesOver a) (m.reference config (a + b)) (it.machine.shown.reference config b) := by
  have T : Iteration.TakesOver a it { machine := it.machine.shown } := ⟨rfl, steps_of_reference_ok h⟩
  have hsplit := Iteration.iterate_add config.keypad.source config.stepsPerTick a b { machine := m }
  rw [reference] at h ⊢
  rw [hsplit, h]
  exact T.iterate hdue b

theorem outcome_reference_add (hdue : config.stepsPerTick ∣ a) (h : m.reference config a = .ok () it) (b : Nat)
    (limit limit' : UInt64) :
    (Iteration.outcome (some limit) (it.machine.shown.reference config b) = .ok b ∧
        Iteration.outcome (some limit') (m.reference config (a + b)) = .ok (a + b)) ∨
      ∃ f, Iteration.outcome (some limit) (it.machine.shown.reference config b) = .error f ∧
        Iteration.outcome (some limit') (m.reference config (a + b)) = .error f := by
  have halike := reference_add hdue h b
  generalize m.reference config (a + b) = r at halike ⊢
  generalize hr' : it.machine.shown.reference config b = r' at halike ⊢
  cases halike with
  | ok T =>
    rw [Iteration.outcome, Iteration.outcome, T.steps, steps_of_reference_ok hr']
    exact .inl ⟨rfl, rfl⟩
  | error T => exact .inr ⟨_, rfl, rfl⟩

theorem run_limited {σ : Type} [FrameSink σ] (m : Machine) (config : RunConfig) (n : UInt64) (sink : σ) :
    (m.run { config with limit := some n } sink).outcome = Iteration.outcome (some n) (m.reference config n.toNat) ∧
      (m.run { config with limit := some n } sink).machine =
        (Faulting.left (m.reference config n.toNat)).machine.shown :=
  ⟨m.run_outcome _ sink, m.run_machine _ sink⟩

/-- A run that stops when the timers have just ticked may be followed by another one, with a sink of its own: the
    machine that the second one leaves is that of a single run, and if the first one meets no fault, the single run
    meets the same as the second. A fault in the first one is met by the single run, and again by the second unless
    that is to execute nothing. -/
theorem run_split (m : Machine) (config : RunConfig) (a b : UInt64) (hfit : a.toNat + b.toNat < UInt64.size)
    (hdue : config.stepsPerTick ∣ a.toNat) {σ τ υ : Type} [FrameSink σ] [FrameSink τ] [FrameSink υ] (sink : σ)
    (sink' : τ) (sink'' : υ) :
    let first := m.run { config with limit := some a } sink
    let second := first.machine.run { config with limit := some b } sink'
    let whole := m.run { config with limit := some (a + b) } sink''
    whole.machine = second.machine ∧
      ((first.outcome = .ok a.toNat ∧
          (second.outcome = .ok b.toNat ∧ whole.outcome = .ok (a.toNat + b.toNat) ∨
            ∃ f, second.outcome = .error f ∧ whole.outcome = .error f)) ∨
        ∃ f, first.outcome = .error f ∧ whole.outcome = .error f ∧
          second.outcome = if b = 0 then .ok 0 else .error f) := by
  intro first second whole
  have hsum : (a + b).toNat = a.toNat + b.toNat := by
    rw [UInt64.toNat_add]
    exact Nat.mod_eq_of_lt hfit
  obtain ⟨hfirst, hstop⟩ := m.run_limited config a sink
  obtain ⟨hsecond, hend⟩ := first.machine.run_limited config b sink'
  obtain ⟨hwhole, hend'⟩ := m.run_limited config (a + b) sink''
  rw [hsum] at hwhole hend'
  have hanew : first.machine.reference config b.toNat =
      (Faulting.left (m.reference config a.toNat)).machine.shown.reference config b.toNat := by rw [hstop]
  rw [hanew] at hsecond hend
  cases hr : m.reference config a.toNat with
  | ok _ it =>
    have T := (reference_add hdue hr b.toNat).left
    rw [hr, Iteration.outcome, steps_of_reference_ok hr] at hfirst
    rw [hr, Faulting.left] at hsecond hend
    refine ⟨hend'.trans (T.machine.trans hend.symm), .inl ⟨hfirst, ?_⟩⟩
    rw [hsecond, hwhole]
    exact outcome_reference_add hdue hr b.toNat b (a + b)
  | error f it =>
    -- The machine is halted when the second run starts, and the single run ends where the first one has.
    obtain ⟨hlt, hagain⟩ := reference_error hr
    have hhalted : it.machine.shown.status = .halted f := Iteration.status_of_iterate_error hr
    rw [hr, Faulting.left] at hsecond hend
    rw [hagain _ (Nat.lt_of_lt_of_le hlt (Nat.le_add_right _ _))] at hwhole hend'
    rw [hr] at hfirst
    by_cases hb : b = 0
    · subst hb
      exact ⟨hend'.trans hend.symm, .inr ⟨f, hfirst, hwhole, hsecond⟩⟩
    · have hpos : 0 < b.toNat := Nat.pos_of_ne_zero fun hzero => hb (UInt64.toNat_inj.mp hzero)
      rw [reference_of_halted hhalted config hpos] at hsecond hend
      refine ⟨hend'.trans hend.symm, .inr ⟨f, hfirst, hwhole, ?_⟩⟩
      rw [if_neg hb]
      exact hsecond

/-- A timer is set, and the run is split when it has ticked once. The second run meets a return from nowhere. -/
theorem run_split_before_return :
    ∃ m, ofProgram [0x60, 0x09, 0xF0, 0x15, 0x70, 0x01, 0x00, 0xEE] (.ofArray #[]) = .ok m ∧
      let config : RunConfig := ⟨120, none, .released, true⟩
      let first := m.run { config with limit := some 2 } ({} : FrameLog)
      let second := first.machine.run { config with limit := some 5 } ({} : FrameLog)
      let whole := m.run { config with limit := some 7 } ({} : FrameLog)
      first.machine.state.delay = 8 ∧ first.outcome = .ok 2 ∧ whole.machine = second.machine ∧
        ∃ f, second.outcome = .error f ∧ whole.outcome = .error f := by
  obtain ⟨m, h⟩ :=
    (exists_ofProgram_iff [0x60, 0x09, 0xF0, 0x15, 0x70, 0x01, 0x00, 0xEE] (.ofArray #[])).mpr (by decide)
  obtain ⟨hdelay, hfirst, hsecond⟩ :
      (m.run ⟨120, some 2, .released, true⟩ ({} : FrameLog)).machine.state.delay = 8 ∧
      (m.run ⟨120, some 2, .released, true⟩ ({} : FrameLog)).outcome = .ok 2 ∧
      ((m.run ⟨120, some 2, .released, true⟩ ({} : FrameLog)).machine.run
        ⟨120, some 5, .released, true⟩ ({} : FrameLog)).outcome ≠ .ok 5 := by
    rw [eq_of_ofProgram h]
    decide +kernel
  obtain ⟨hmachine, ⟨hok, ⟨hok', -⟩ | herror⟩ | ⟨f, herror, -⟩⟩ :=
    run_split m ⟨120, none, .released, true⟩ 2 5 (by decide) (by decide) ({} : FrameLog) ({} : FrameLog)
      ({} : FrameLog)
  · exact absurd hok' hsecond
  · exact ⟨m, h, hdelay, hok, hmachine, herror⟩
  · rw [herror] at hfirst
    cases hfirst

end Machine

end ChipEight
