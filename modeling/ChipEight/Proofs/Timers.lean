import ChipEight.Proofs.RunEvents

/-! # What the timers reach

One instruction only looks at a timer: the one that reads the delay timer into a register. As long as that is
not executed, machines that differ in their timers go the same way, whenever these tick and whenever the screen
is shown. -/

namespace ChipEight

open Faulting (Alike)

/-! ### States apart from time -/

/-- A state with its timers at zero and without the mark. -/
def State.untimed (s : State) : State := { s with delay := 0, sound := 0, redraw := false }

namespace Instruction
variable {i : Instruction}

theorem registersAfter_untimed (h : i.form? ≠ some "FX07") (keys : KeySource) (s : State) (random : UInt8) :
    i.registersAfter keys s.untimed random = i.registersAfter keys s random := by
  cases i with
  | readDelay x => exact absurd rfl h
  | _ => rfl

theorem stateAfter_untimed (h : i.form? ≠ some "FX07") (keys : KeySource) (s : State) (random : UInt8) :
    (i.stateAfter keys s.untimed random).untimed = (i.stateAfter keys s random).untimed := by
  unfold stateAfter
  rw [registersAfter_untimed h]
  rfl

end Instruction

namespace Machine

/-- Two machines differ in the timers and the mark at most. -/
structure SameButTime (m m' : Machine) : Prop where
  state : m.state.untimed = m'.state.untimed
  random : m.random = m'.random
  status : m.status = m'.status

namespace SameButTime
variable {m m' : Machine}

theorem symm (S : SameButTime m m') : SameButTime m' m := ⟨S.state.symm, S.random.symm, S.status.symm⟩

theorem act_left (S : SameButTime m m') {e : Event} (h : e.keys? = none) : SameButTime (m.act e) m' := by
  cases e with
  | step keys => cases h
  | tick => exact ⟨S.state, S.random, S.status⟩
  | present =>
    rw [act_present]
    exact ⟨S.state, S.random, S.status⟩

theorem nextWord (S : SameButTime m m') : m.state.nextWord = m'.state.nextWord := by
  show m.state.untimed.nextWord = m'.state.untimed.nextWord
  rw [S.state]

theorem nextFault? (S : SameButTime m m') : m.state.nextFault? = m'.state.nextFault? := by
  show m.state.untimed.nextFault? = m'.state.untimed.nextFault?
  rw [S.state]

theorem advanced (S : SameButTime m m') (h : ¬m.state.nextWord.fits "FX07") (keys : KeySource) :
    SameButTime (m.advanced keys) (m'.advanced keys) := by
  have hform : m.state.nextWord.decode.form? ≠ some "FX07" := fun hform => h (Opcode.fits_of_form? hform)
  have hfetched : m.state.fetched.untimed = m'.state.fetched.untimed := by
    show m.state.untimed.fetched = m'.state.untimed.fetched
    rw [S.state]
  refine ⟨?_, ?_, S.status⟩
  · show (m.state.nextWord.decode.stateAfter keys m.state.fetched m.random.next).untimed =
      (m'.state.nextWord.decode.stateAfter keys m'.state.fetched m'.random.next).untimed
    rw [← S.nextWord, ← S.random, ← Instruction.stateAfter_untimed hform, hfetched,
      Instruction.stateAfter_untimed hform]
  · show (if m.state.nextWord.decode.isRandom then m.random.advance else m.random) =
      if m'.state.nextWord.decode.isRandom then m'.random.advance else m'.random
    rw [S.nextWord, S.random]

theorem step (S : SameButTime m m') {keys : KeySource} (h : ∀ op ∈ m.executed (.step keys), ¬op.fits "FX07") :
    Alike SameButTime (m.step keys) (m'.step keys) := by
  refine step_alike_of S.status S.nextFault? S (fun f => ⟨S.state, S.random, rfl⟩) fun hstep => S.advanced ?_ keys
  rw [executed_of_step_ok hstep] at h
  exact h _ List.mem_cons_self

/-! ### Ticks and showings on either side -/

theorem follow_idle (S : SameButTime m m') {idle : List Event} (h : ∀ e ∈ idle, e.keys? = none) :
    SameButTime m (m'.follow idle) := by
  induction idle generalizing m' with
  | nil => exact S
  | cons e rest ih =>
    obtain ⟨he, hrest⟩ := List.forall_mem_cons.mp h
    exact ih (S.symm.act_left he).symm hrest

theorem follow_ticksAt (S : SameButTime m m') (every every' steps : Nat) :
    SameButTime (m.follow (Iteration.ticksAt every steps)) (m'.follow (Iteration.ticksAt every' steps)) :=
  ((S.follow_idle (Iteration.keys?_of_mem_ticksAt every' steps)).symm.follow_idle
    (Iteration.keys?_of_mem_ticksAt every steps)).symm

end SameButTime

/-! ### Schedules that do not read the delay timer -/

/-- Machines that differ in time only, before a schedule that does not read the delay timer. -/
structure SameUnread (events : List Event) (m m' : Machine) : Prop where
  same : SameButTime m m'
  unread : ∀ op ∈ m.record executed events, ¬op.fits "FX07"

namespace SameUnread
variable {m m' : Machine} {events rest : List Event}

theorem after (events : List Event) (U : SameUnread (events ++ rest) m m') :
    ∀ op ∈ (m.follow events).record executed rest, ¬op.fits "FX07" := by
  intro op hop
  refine U.unread op ?_
  rw [record_append]
  exact List.mem_append_right _ hop

theorem step {keys : KeySource} (U : SameUnread (.step keys :: rest) m m') :
    Alike (SameUnread rest) (m.step keys) (m'.step keys) := by
  have halike := U.same.step fun op hop => U.unread op (List.mem_append_left _ hop)
  exact halike.of_left ⟨halike.left, U.after [.step keys]⟩

theorem follow {events' : List Event} (U : SameUnread events m m')
    (hkeys : events.filterMap Event.keys? = events'.filterMap Event.keys?) :
    m.record answers events = m'.record answers events' ∧ SameButTime (m.follow events) (m'.follow events') := by
  induction events generalizing m m' events' with
  | nil =>
    have hidle := List.filterMap_eq_nil_iff.mp hkeys.symm
    exact ⟨(record_answers_of_idle m' hidle).symm, U.same.follow_idle hidle⟩
  | cons e rest ih =>
    cases he : e.keys? with
    | none =>
      rw [List.filterMap_cons_none he] at hkeys
      rw [record, answers_of_idle m he, List.nil_append]
      exact ih ⟨U.same.act_left he, U.after [e]⟩ hkeys
    | some keys =>
      obtain rfl := Event.eq_step_of_keys? he
      rw [List.filterMap_cons_some he] at hkeys
      obtain ⟨idle, e', rest', rfl, hidle, he', hrest⟩ := List.filterMap_eq_cons_iff.mp hkeys.symm
      obtain rfl := Event.eq_step_of_keys? he'
      -- What comes before the step on the other side is no step.
      have halike := SameUnread.step ⟨U.same.follow_idle hidle, U.unread⟩
      obtain ⟨hanswers, S⟩ := ih halike.left hrest.symm
      rw [follow_append, record_append, record_answers_of_idle m' hidle, List.nil_append, record, record, answers,
        answers, halike.answer]
      exact ⟨congrArg _ hanswers, S⟩

end SameUnread

/-- As long as the delay timer is not read, a host may let the timers tick and show the screen when it likes: each
    step answers the same, and only the timers and the mark come to differ. So runs at different clocks give the
    same outcome and leave machines that differ in the timers only. -/
theorem alike_of_delay_unread :
    (∀ (m m' : Machine) (events events' : List Event), SameButTime m m' →
      events.filterMap Event.keys? = events'.filterMap Event.keys? →
      (∀ op ∈ m.record executed events, ¬op.fits "FX07") →
      m.record answers events = m'.record answers events' ∧
        SameButTime (m.follow events) (m'.follow events')) ∧
    ∀ (σ τ : Type) [FrameSink σ] [FrameSink τ] (m : Machine) (config config' : RunConfig) (sink : σ) (sink' : τ),
      config'.limit = config.limit → config'.keypad = config.keypad →
      (∀ op ∈ m.record executed (m.runEvents config), ¬op.fits "FX07") →
      (m.run config' sink').outcome = (m.run config sink).outcome ∧
        SameButTime (m.run config sink).machine (m.run config' sink').machine ∧
        (m.run config' sink').machine.state.redraw = (m.run config sink).machine.state.redraw := by
  refine ⟨fun _ _ _ _ S hkeys h => SameUnread.follow ⟨S, h⟩ hkeys,
    fun σ τ _ _ m config config' sink sink' hlimit hkeypad h => ?_⟩
  have halike : Alike (Iteration.Together (SameUnread [])) (m.reference config config.budget)
      (m.reference config' config.budget) := by
    rw [reference, reference, hkeypad]
    exact Iteration.iterate_alike (fun _ _ _ => SameUnread.step)
      (fun _ _ steps _ U => ⟨U.same.follow_ticksAt _ _ steps, U.after _⟩) _ rfl ⟨⟨rfl, rfl, rfl⟩, h⟩
  obtain ⟨houtcome, n, n', U, hrun, hrun'⟩ := run_alike hlimit halike sink sink'
  refine ⟨houtcome, ?_, ?_⟩
  · rw [hrun, hrun']
    exact ⟨U.same.state, U.same.random, U.same.status⟩
  · rw [hrun, hrun']
    rfl

/-- A loop that sets the delay timer, from different values of it with ticks in different places, and run at
    different clocks. -/
theorem alike_of_delay_unread_loop :
    ∃ m, ofProgram [0x60, 0x05, 0xF0, 0x15, 0x12, 0x00] (.ofArray #[]) = .ok m ∧
      SameButTime (m.follow [.step .idle, .step .idle, .tick, .step .idle])
        ({ m with state.delay := 9 }.follow [.tick, .step .idle, .present, .step .idle, .step .idle]) ∧
      (m.run ⟨500, some 5, .released, true⟩ ({} : FrameLog)).outcome =
        (m.run ⟨60, some 5, .released, false⟩ ({} : FrameLog)).outcome := by
  obtain ⟨m, h⟩ := (exists_ofProgram_iff [0x60, 0x05, 0xF0, 0x15, 0x12, 0x00] (.ofArray #[])).mpr (by decide)
  obtain ⟨hstepped, hrun⟩ :
      (m.record executed [.step .idle, .step .idle, .tick, .step .idle]).any (·.fits "FX07") = false ∧
      (m.record executed (m.runEvents ⟨60, some 5, .released, false⟩)).any (·.fits "FX07") = false := by
    rw [eq_of_ofProgram h]
    decide +kernel
  obtain ⟨hevents, hruns⟩ := alike_of_delay_unread
  refine ⟨m, h, ?_, ?_⟩
  · obtain ⟨-, S⟩ := hevents m { m with state.delay := 9 } [.step .idle, .step .idle, .tick, .step .idle]
      [.tick, .step .idle, .present, .step .idle, .step .idle] ⟨rfl, rfl, rfl⟩ rfl
      (List.any_eq_false.mp hstepped)
    exact S
  · obtain ⟨houtcome, -⟩ := hruns FrameLog FrameLog m ⟨60, some 5, .released, false⟩ ⟨500, some 5, .released, true⟩
      {} {} rfl rfl (List.any_eq_false.mp hrun)
    exact houtcome

end Machine

end ChipEight
