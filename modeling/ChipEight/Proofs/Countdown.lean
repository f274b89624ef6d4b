import ChipEight.Proofs.Schedule

/-! # The timers count down

One instruction loads the delay timer and one the sound timer, and beside these only the ticks reach them. So
what a timer shows is what it was loaded with last, less the ticks since then, and zero when there were more of
these. It does not matter what else was executed, and a halted machine counts on. -/

namespace ChipEight

/-! ### What a timer goes through -/

/-- The two timers. -/
inductive Timer where
  | delay
  | sound

namespace Timer

/-- The form of the instruction that loads a timer. -/
def form : Timer → Form
  | .delay => "FX15"
  | .sound => "FX18"

/-- What a timer shows in a state. -/
def value (s : State) : Timer → UInt8
  | .delay => s.delay
  | .sound => s.sound

/-- What happens to a timer: it is loaded, or it ticks. -/
inductive Mark where
  | loaded (value : UInt8)
  | ticked

namespace Mark

/-- The value that a timer is loaded with, if it is loaded. -/
def loaded? : Mark → Option UInt8
  | .loaded v => some v
  | .ticked => none

/-- Whether the timer ticks. -/
def isTick : Mark → Bool
  | .loaded _ => false
  | .ticked => true

/-- What a timer that shows `v` shows after it has been loaded or has ticked. -/
def after : Mark → UInt8 → UInt8
  | .loaded w, _ => w
  | .ticked, v => v - min 1 v

end Mark

/-- What happens to a timer in an event. -/
def marks (timer : Timer) (m : Machine) : Event → List Mark
  | .step keys =>
    (m.executed (.step keys)).filterMap fun op =>
      if op.fits timer.form then some (.loaded (m.state.registers.value op.x)) else none
  | .tick => [.ticked]
  | .present => []

/-- The value that a timer was loaded with last in a schedule; what it showed at the start if that never happened. -/
def lastLoaded (timer : Timer) (m : Machine) (events : List Event) : UInt8 :=
  ((m.record timer.marks events).reverse.findSome? Mark.loaded?).getD (timer.value m.state)

/-- How often a timer has ticked since it was loaded last, or since the start. -/
def ticksSince (timer : Timer) (m : Machine) (events : List Event) : Nat :=
  ((m.record timer.marks events).reverse.takeWhile Mark.isTick).length

/-- What a timer has to show after a schedule. -/
def due (timer : Timer) (m : Machine) (events : List Event) : Nat :=
  (timer.lastLoaded m events).toNat - min (timer.lastLoaded m events).toNat (timer.ticksSince m events)

/-! ### One event and all of them -/

theorem toNat_after_ticked (v : UInt8) : (Mark.ticked.after v).toNat = v.toNat - 1 := by
  have hlt := v.toNat_lt
  rw [Mark.after, Machine.sub_min_one, UInt8.toNat_ofNat', Nat.mod_eq_of_lt (by omega)]

theorem value_stateAfter (timer : Timer) (keys : KeySource) (s : State) (random : UInt8) (op : Opcode) :
    timer.value (op.decode.stateAfter keys s random) =
      if op.fits timer.form then s.registers.value op.x else timer.value s := by
  have hoperands := op.operandsOf_decode
  have hfits : op.fits timer.form ↔ op.decode.form? = some timer.form := by
    cases timer <;> exact Opcode.fits_iff_form? (by decide) (by decide)
  simp only [hfits]
  generalize op.decode = i at hoperands
  cases i with
  | setDelay x | setSound x =>
    obtain rfl := hoperands
    cases timer <;> simp [form, value, Instruction.form?, Instruction.stateAfter]
  | _ => cases timer <;> simp [form, value, Instruction.form?, Instruction.stateAfter]

theorem value_fetched (timer : Timer) (s : State) : timer.value s.fetched = timer.value s := by
  cases timer <;> rfl

theorem value_act (timer : Timer) (m : Machine) (e : Event) :
    timer.value (m.act e).state = (timer.marks m e).foldl (fun v mark => mark.after v) (timer.value m.state) := by
  cases e with
  | step keys =>
    rw [Machine.act_step, marks]
    cases hr : m.step keys with
    | error f m' =>
      rw [Machine.executed_of_step_error hr, Machine.eq_of_step_error hr]
      rfl
    | ok _ m' =>
      obtain ⟨-, -, rfl⟩ := Machine.step_eq_ok_iff.mp hr
      rw [Machine.executed_of_step_ok hr]
      have hvalue := timer.value_stateAfter keys m.state.fetched m.random.next m.state.nextWord
      rw [value_fetched] at hvalue
      refine hvalue.trans ?_
      cases hfits : m.state.nextWord.fits timer.form with
      | true => simp [hfits, Mark.after, State.fetched]
      | false => simp [hfits]
  | tick => cases timer <;> rfl
  | present =>
    rw [Machine.act_present]
    cases timer <;> rfl

theorem value_follow (timer : Timer) (m : Machine) (events : List Event) :
    timer.value (m.follow events).state =
      (m.record timer.marks events).foldl (fun v mark => mark.after v) (timer.value m.state) := by
  induction events generalizing m with
  | nil => rfl
  | cons e rest ih =>
    rw [Machine.record, List.foldl_append, ← value_act]
    exact ih (m.act e)

/-- Looking back from the latest mark, the ticks up to the first value that was loaded are taken off that value. -/
theorem toNat_foldr_after (back : List Mark) (v : UInt8) :
    (back.foldr Mark.after v).toNat =
      ((back.findSome? Mark.loaded?).getD v).toNat - (back.takeWhile Mark.isTick).length := by
  induction back with
  | nil => rfl
  | cons mark back ih =>
    cases mark with
    | loaded w => rfl
    | ticked =>
      rw [List.foldr_cons, toNat_after_ticked, ih, Nat.sub_sub]
      rfl

theorem toNat_value_follow (timer : Timer) (m : Machine) (events : List Event) :
    (timer.value (m.follow events).state).toNat = timer.due m events := by
  rw [value_follow, ← List.foldr_reverse, toNat_foldr_after]
  exact Nat.sub_eq_sub_min _ _

/-! ### A timer that is not loaded -/

theorem marks_of_unloaded {timer : Timer} {m : Machine} {e : Event} (h : ∀ op ∈ m.executed e, ¬op.fits timer.form) :
    timer.marks m e = List.replicate (if e.isTick then 1 else 0) .ticked := by
  cases e with
  | step keys =>
    show (m.executed (.step keys)).filterMap _ = []
    exact List.filterMap_eq_nil_iff.mpr fun op hop => if_neg (h op hop)
  | tick | present => rfl

theorem record_marks_of_unloaded {timer : Timer} {m : Machine} {events : List Event}
    (h : ∀ op ∈ m.record Machine.executed events, ¬op.fits timer.form) :
    m.record timer.marks events = List.replicate (events.countP Event.isTick) .ticked := by
  induction events generalizing m with
  | nil => rfl
  | cons e rest ih =>
    obtain ⟨he, hrest⟩ := List.forall_mem_append.mp h
    rw [Machine.record, marks_of_unloaded he, ih hrest, List.replicate_append_replicate, List.countP_cons, Nat.add_comm]

theorem toNat_foldl_ticked (n : Nat) (v : UInt8) :
    ((List.replicate n Mark.ticked).foldl (fun v mark => mark.after v) v).toNat = v.toNat - n := by
  induction n generalizing v with
  | zero => rfl
  | succ n ih => rw [List.replicate_succ, List.foldl_cons, ih, toNat_after_ticked, Nat.sub_sub, Nat.add_comm]

/-- A timer that a schedule does not load goes down by one with each tick, until it is at zero. -/
theorem toNat_value_follow_of_unloaded {timer : Timer} {m : Machine} {events : List Event}
    (h : ∀ op ∈ m.record Machine.executed events, ¬op.fits timer.form) :
    (timer.value (m.follow events).state).toNat = (timer.value m.state).toNat - events.countP Event.isTick := by
  rw [value_follow, record_marks_of_unloaded h, toNat_foldl_ticked]

end Timer

/-! ### What reads a timer -/

theorem Instruction.value_registersAfter_of_fits_FX07 {op : Opcode} (h : op.fits "FX07") (keys : KeySource) (s : State)
    (random : UInt8) : (op.decode.registersAfter keys s random).value op.x = s.delay := by
  rw [Opcode.decode_of_fits (i := .readDelay op.x) h rfl (by decide) rfl]
  exact Registers.value_put_self _ _ op.missing_x

namespace Machine

theorem soundActive_iff (m : Machine) : m.soundActive = true ↔ 0 < m.state.sound.toNat := by
  rw [soundActive, decide_eq_true_iff]
  exact UInt8.lt_iff_toNat_lt

/-- However a machine is stepped, ticked and shown, running or halted, each of its timers shows the value that it was
    loaded with last, less the ticks since then, or zero. That is what is read from the delay timer, and the sound is
    on as long as the sound timer has not come to zero. A tick takes one from each timer that is not at zero and
    changes nothing else. -/
theorem timers_count_down (m : Machine) (events : List Event) :
    let m' := m.follow events
    (∀ timer : Timer, (timer.value m'.state).toNat = timer.due m events) ∧
      (∀ keys m'', m'.step keys = .ok () m'' → m'.state.nextWord.fits "FX07" →
        (m''.state.registers.value m'.state.nextWord.x).toNat = Timer.delay.due m events) ∧
      (m'.soundActive = true ↔ 0 < Timer.sound.due m events) ∧
      (∀ timer : Timer, (timer.value m'.tick.state).toNat = (timer.value m'.state).toNat - 1) ∧
      m'.tick = { m' with state.delay := m'.tick.state.delay, state.sound := m'.tick.state.sound } := by
  intro m'
  have hdue : ∀ timer : Timer, (timer.value m'.state).toNat = timer.due m events :=
    fun timer => timer.toNat_value_follow m events
  refine ⟨hdue, ?_, ?_, ?_, rfl⟩
  · intro keys m'' hstep hread
    obtain ⟨-, -, rfl⟩ := step_eq_ok_iff.mp hstep
    have hregister := Instruction.value_registersAfter_of_fits_FX07 hread keys m'.state.fetched m'.random.next
    exact (congrArg UInt8.toNat hregister).trans (hdue .delay)
  · rw [soundActive_iff]
    exact iff_of_eq (congrArg (0 < ·) (hdue .sound))
  · intro timer
    cases timer <;> exact Timer.toNat_after_ticked _

/-- The delay timer is loaded with 5 and read after two ticks; the sound timer is loaded with 1 and silent then. -/
theorem timers_count_down_read :
    ∃ m m', ofProgram [0x60, 0x05, 0xF0, 0x15, 0x60, 0x01, 0xF0, 0x18, 0xF3, 0x07] (.ofArray #[]) = .ok m ∧
      let events := [.step .idle, .step .idle, .tick, .step .idle, .step .idle, .present, .tick]
      (m.follow events).step .idle = .ok () m' ∧ (m'.state.registers.value 3).toNat = 3 ∧
        (m.follow events).soundActive = false := by
  obtain ⟨m, h⟩ := (exists_ofProgram_iff
    [0x60, 0x05, 0xF0, 0x15, 0x60, 0x01, 0xF0, 0x18, 0xF3, 0x07] (.ofArray #[])).mpr (by decide)
  obtain ⟨hstatus, hfault, hword, hdelay, hsound⟩ :
      let events := [.step .idle, .step .idle, .tick, .step .idle, .step .idle, .present, .tick]
      (m.follow events).status = .running ∧ (m.follow events).state.nextFault? = none ∧
        (m.follow events).state.nextWord = 0xF307 ∧ Timer.delay.due m events = 3 ∧ Timer.sound.due m events = 0 := by
    rw [eq_of_ofProgram h]
    decide +kernel
  obtain ⟨-, hread, hactive, -⟩ :=
    timers_count_down m [.step .idle, .step .idle, .tick, .step .idle, .step .idle, .present, .tick]
  have hregister := hread .idle _ (step_eq_ok_iff.mpr ⟨hstatus, hfault, rfl⟩) (by rw [hword]; decide)
  rw [hword, hdelay] at hregister
  rw [hsound] at hactive
  refine ⟨m, _, h, step_eq_ok_iff.mpr ⟨hstatus, hfault, rfl⟩, hregister, ?_⟩
  exact Bool.eq_false_iff.mpr fun hon => Nat.lt_irrefl 0 (hactive.mp hon)

end Machine

end ChipEight
