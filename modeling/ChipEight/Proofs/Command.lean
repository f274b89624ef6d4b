import ChipEight.CommandLine.Task
import ChipEight.Proofs.FrameText
import ChipEight.Proofs.RunFrames

/-! # How the command ends

The command looks at its arguments and its program in a fixed order and stops at the first thing that is wrong,
before it has printed anything. Only the listing of a program does without these checks. A run that meets a
fault has printed its frame by then. -/

namespace ChipEight

/-! ### Arguments -/

namespace RunConfig
variable {args : Args} {config : RunConfig} {cs before after : List Char} {c : Char}

theorem hold_of_mapped (h : ∀ c ∈ cs, KeyLayout.key? c ≠ none) (keypad : Keypad) (rest : List Char) :
    hold keypad (cs ++ rest) = hold ((cs.filterMap KeyLayout.key?).foldl Keypad.press keypad) rest := by
  induction cs generalizing keypad with
  | nil => rfl
  | cons c cs ih =>
    obtain ⟨hc, hcs⟩ := List.forall_mem_cons.mp h
    obtain ⟨k, hk⟩ := Option.ne_none_iff_exists'.mp hc
    rw [List.cons_append, hold, hk, List.filterMap_cons_some hk]
    exact ih hcs (keypad.press k)

theorem ofArgs_of_zeroClock (h : args.clock = 0) : ofArgs args = .error .zeroClock := if_pos h

theorem ofArgs_of_unmapped (hclock : args.clock ≠ 0) (hhold : args.hold = before ++ c :: after)
    (hbefore : ∀ c ∈ before, KeyLayout.key? c ≠ none) (hc : KeyLayout.key? c = none) :
    ofArgs args = .error (.unmappedKey c) := by
  rw [ofArgs, if_neg hclock, hhold, hold_of_mapped hbefore, hold, hc]
  rfl

theorem ofArgs_of_mapped (hclock : args.clock ≠ 0) (hhold : ∀ c ∈ args.hold, KeyLayout.key? c ≠ none) :
    ofArgs args = .ok
      { clock := args.clock, limit := limitFor args.cycles args.realtime,
        keypad := (args.hold.filterMap KeyLayout.key?).foldl Keypad.press .released, realtime := args.realtime } := by
  have hmapped := hold_of_mapped hhold .released []
  rw [List.append_nil] at hmapped
  rw [ofArgs, if_neg hclock, hmapped]
  rfl

theorem eq_of_ofArgs (h : ofArgs args = .ok config) :
    config.clock = args.clock ∧ config.limit = limitFor args.cycles args.realtime ∧
      config.realtime = args.realtime := by
  unfold ofArgs at h
  split at h
  · cases h
  · cases hkeys : hold .released args.hold with
    | error e =>
      rw [hkeys] at h
      cases h
    | ok keypad =>
      rw [hkeys] at h
      cases h
      exact ⟨rfl, rfl, rfl⟩

theorem limitFor_eq (cycles : Option UInt64) (realtime : Bool) :
    limitFor cycles realtime =
      if cycles = some 0 ∨ cycles = none ∧ realtime = true then none else some (cycles.getD 10000) := by
  cases cycles with
  | none => cases realtime <;> simp [limitFor, defaultLimit]
  | some n => by_cases hn : n = 0 <;> simp [limitFor, hn]

end RunConfig

/-! ### What the command gets to -/

/-- The lines of a listing as they are printed. -/
def Task.listing (program : List UInt8) : String :=
  String.join ((disassemble program programStart).map (· ++ "\n"))

section
variable {ofSeed : UInt64 → RandomBytes} {args : Args} {program : List UInt8} {entropy : RandomBytes}
variable {config : RunConfig} {m : Machine}

theorem command_of_disassemble (h : args.disassemble = true) :
    command ofSeed args (.bytes program) entropy = some (Task.listing program, none) := by
  simp only [command, Task.ofArgs, h, if_true, Task.result, Task.listing]

theorem command_of_ofArgs_error {e : ConfigError} (hrun : args.disassemble = false)
    (h : RunConfig.ofArgs args = .error e) :
    command ofSeed args (.bytes program) entropy = some ("", some (.config e)) := by
  have htask : Task.ofSource ofSeed args (.ok program) entropy = .error (.config e) := by
    rw [Task.ofSource, h]
    rfl
  simp only [command, Task.ofArgs, hrun, Bool.false_eq_true, if_false, htask]

theorem command_of_ofProgram_error {e : LoadError} (hrun : args.disassemble = false)
    (hconfig : RunConfig.ofArgs args = .ok config) (h : Machine.ofProgram program entropy = .error e) :
    command ofSeed args (.bytes program) entropy = some ("", some (.load e)) := by
  have htask : Task.ofSource ofSeed args (.ok program) entropy = .error (.load e) := by
    rw [Task.ofSource, hconfig, Machine.load, h]
    rfl
  simp only [command, Task.ofArgs, hrun, Bool.false_eq_true, if_false, htask]

theorem command_of_ofProgram_ok (hrun : args.disassemble = false) (hconfig : RunConfig.ofArgs args = .ok config)
    (h : Machine.ofProgram program (Task.randomFor ofSeed args.seed entropy) = .ok m) :
    command ofSeed args (.bytes program) entropy = (Task.run m config).result := by
  -- The machine is loaded with other random bytes at first, but it draws none of them.
  have hsize := (Machine.exists_ofProgram_iff program _).mp ⟨m, h⟩
  obtain ⟨m₀, h₀⟩ := (Machine.exists_ofProgram_iff program entropy).mpr hsize
  have hseeded : m₀.withRandom (Task.randomFor ofSeed args.seed entropy) = m := by
    rw [Machine.eq_of_ofProgram h₀, Machine.eq_of_ofProgram h]
    rfl
  have htask : Task.ofSource ofSeed args (.ok program) entropy = .ok (.run m config) := by
    rw [Task.ofSource, hconfig, Machine.load, h₀, ← hseeded]
    rfl
  simp only [command, Task.ofArgs, hrun, Bool.false_eq_true, if_false, htask]

end

/-! ### The order of the checks -/

/-- Arguments that ask for a run and a program that fits. -/
structure Runnable (args : Args) (program : List UInt8) : Prop where
  run : args.disassemble = false
  clock : args.clock ≠ 0
  hold : ∀ c ∈ args.hold, KeyLayout.key? c ≠ none
  size : program.length ≤ 3584

/-- What the command prints and why it fails, told by the first of its checks that decides on that. -/
inductive CommandEnds (ofSeed : UInt64 → RandomBytes) (args : Args) (program : List UInt8) (entropy : RandomBytes) :
    String × Option CommandError → Prop where
  | listed (h : args.disassemble = true) : CommandEnds ofSeed args program entropy (Task.listing program, none)
  | zeroClock (hrun : args.disassemble = false) (h : args.clock = 0) :
    CommandEnds ofSeed args program entropy ("", some (.config .zeroClock))
  | unmappedKey {before after : List Char} {c : Char} (hrun : args.disassemble = false) (hclock : args.clock ≠ 0)
    (hhold : args.hold = before ++ c :: after) (hbefore : ∀ c ∈ before, KeyLayout.key? c ≠ none)
    (h : KeyLayout.key? c = none) : CommandEnds ofSeed args program entropy ("", some (.config (.unmappedKey c)))
  | tooLarge (hrun : args.disassemble = false) (hclock : args.clock ≠ 0)
    (hhold : ∀ c ∈ args.hold, KeyLayout.key? c ≠ none) (h : 3584 < program.length) :
    CommandEnds ofSeed args program entropy ("", some (.load (.tooLarge program.length)))
  | finished {config : RunConfig} {m : Machine} {n : Nat} (R : Runnable args program)
    (hconfig : RunConfig.ofArgs args = .ok config)
    (hload : Machine.ofProgram program (Task.randomFor ofSeed args.seed entropy) = .ok m)
    (h : (m.run config (Task.display config)).outcome = .ok n) :
    CommandEnds ofSeed args program entropy ((m.run config (Task.display config)).sink.written, none)
  | faulted {config : RunConfig} {m : Machine} {f : Fault} (R : Runnable args program)
    (hconfig : RunConfig.ofArgs args = .ok config)
    (hload : Machine.ofProgram program (Task.randomFor ofSeed args.seed entropy) = .ok m)
    (h : (m.run config (Task.display config)).outcome = .error f) :
    CommandEnds ofSeed args program entropy ((m.run config (Task.display config)).sink.written, some (.fault f))

/-- A run comes of the arguments and the program, but it has no limit and meets no fault for as long as its instructions
    can be counted. -/
structure CommandRunsOn (ofSeed : UInt64 → RandomBytes) (args : Args) (program : List UInt8) (entropy : RandomBytes)
    (config : RunConfig) (m : Machine) : Prop where
  runnable : Runnable args program
  asked : RunConfig.ofArgs args = .ok config
  loaded : Machine.ofProgram program (Task.randomFor ofSeed args.seed entropy) = .ok m
  unlimited : config.limit = none
  faultless : ∃ it, m.reference config (UInt64.size - 1) = .ok () it

section
variable {ofSeed : UInt64 → RandomBytes} {args : Args} {program : List UInt8} {entropy : RandomBytes}
variable {config : RunConfig} {m : Machine} {result : String × Option CommandError}

theorem CommandEnds.command_eq (E : CommandEnds ofSeed args program entropy result) :
    command ofSeed args (.bytes program) entropy = some result := by
  cases E with
  | listed h => exact command_of_disassemble h
  | zeroClock hrun h => exact command_of_ofArgs_error hrun (RunConfig.ofArgs_of_zeroClock h)
  | unmappedKey hrun hclock hhold hbefore h =>
    exact command_of_ofArgs_error hrun (RunConfig.ofArgs_of_unmapped hclock hhold hbefore h)
  | tooLarge hrun hclock hhold h =>
    have hload : Machine.ofProgram program entropy = .error (.tooLarge program.length) := if_neg (Nat.not_le.mpr h)
    exact command_of_ofProgram_error hrun (RunConfig.ofArgs_of_mapped hclock hhold) hload
  | finished R hconfig hload h | faulted R hconfig hload h =>
    refine (command_of_ofProgram_ok R.run hconfig hload).trans ?_
    simp only [Task.result, h]

theorem CommandRunsOn.outcome (C : CommandRunsOn ofSeed args program entropy config m) :
    (m.run config (Task.display config)).outcome = .unended := by
  rw [Machine.run_outcome_eq_unended_iff, RunConfig.budget, C.unlimited]
  exact ⟨rfl, C.faultless⟩

theorem CommandRunsOn.command_eq (C : CommandRunsOn ofSeed args program entropy config m) :
    command ofSeed args (.bytes program) entropy = none := by
  refine (command_of_ofProgram_ok C.runnable.run C.asked C.loaded).trans ?_
  simp only [Task.result, C.outcome]

/-- One of the cases always applies. -/
theorem commandEnds_or_runsOn (ofSeed : UInt64 → RandomBytes) (args : Args) (program : List UInt8)
    (entropy : RandomBytes) :
    (∃ result, CommandEnds ofSeed args program entropy result) ∨
      ∃ config m, CommandRunsOn ofSeed args program entropy config m := by
  cases hrun : args.disassemble with
  | true => exact .inl ⟨_, .listed hrun⟩
  | false =>
    by_cases hclock : args.clock = 0
    · exact .inl ⟨_, .zeroClock hrun hclock⟩
    cases hunmapped : args.hold.find? (fun c => KeyLayout.key? c = none) with
    | some c =>
      obtain ⟨hc, before, after, hhold, hbefore⟩ := List.find?_eq_some_iff_append.mp hunmapped
      exact .inl ⟨_, .unmappedKey hrun hclock hhold (fun c hc => by simpa using hbefore c hc) (by simpa using hc)⟩
    | none =>
      have hhold : ∀ c ∈ args.hold, KeyLayout.key? c ≠ none := by simpa using List.find?_eq_none.mp hunmapped
      by_cases hsize : 3584 < program.length
      · exact .inl ⟨_, .tooLarge hrun hclock hhold hsize⟩
      have R : Runnable args program := ⟨hrun, hclock, hhold, Nat.not_lt.mp hsize⟩
      obtain ⟨m, hload⟩ :=
        (Machine.exists_ofProgram_iff program (Task.randomFor ofSeed args.seed entropy)).mpr R.size
      have hconfig := RunConfig.ofArgs_of_mapped hclock hhold
      cases hr : (m.run _ (Task.display _)).outcome with
      | ok n => exact .inl ⟨_, .finished R hconfig hload hr⟩
      | error f => exact .inl ⟨_, .faulted R hconfig hload hr⟩
      | unended =>
        obtain ⟨hlimit, hreference⟩ := (m.run_outcome_eq_unended_iff _ _).mp hr
        rw [RunConfig.budget, hlimit] at hreference
        exact .inr ⟨_, m, R, hconfig, hload, hlimit, hreference⟩

theorem commandEnds_iff :
    CommandEnds ofSeed args program entropy result ↔
      command ofSeed args (.bytes program) entropy = some result := by
  refine ⟨CommandEnds.command_eq, fun h => ?_⟩
  rcases commandEnds_or_runsOn ofSeed args program entropy with ⟨result', E⟩ | ⟨config, m, C⟩
  · obtain rfl := Option.some.inj (E.command_eq.symm.trans h)
    exact E
  · rw [C.command_eq] at h
    cases h

theorem exists_commandRunsOn_iff :
    (∃ config m, CommandRunsOn ofSeed args program entropy config m) ↔
      command ofSeed args (.bytes program) entropy = none := by
  constructor
  · rintro ⟨config, m, C⟩
    exact C.command_eq
  · intro h
    rcases commandEnds_or_runsOn ofSeed args program entropy with ⟨result, E⟩ | hrunsOn
    · rw [E.command_eq] at h
      cases h
    · exact hrunsOn

end

/-! ### What a run prints -/

/-- Outside real time a run hands its last screen to the sink and nothing else, also when it meets a fault. -/
theorem Machine.run_sink_batch {σ : Type} [FrameSink σ] {config : RunConfig} (h : config.realtime = false)
    (m : Machine) (sink : σ) :
    (m.run config sink).sink = FrameSink.render sink (m.run config sink).machine.state.screen := by
  rw [run_sink, run_screen, Progress.finish_batch h, Progress.advance_batch h]

theorem Task.written_batch {config : RunConfig} (h : config.realtime = false) (m : Machine) :
    (m.run config (display config)).sink.written =
      TextDisplay.linesText (TextDisplay.frameLines (m.run config (display config)).machine.state.screen) := by
  have hrender : ∀ s, (FrameSink.render (display config) s).written = "" ++ TextDisplay.frameText config.realtime s :=
    fun _ => rfl
  rw [m.run_sink_batch h, hrender, TextDisplay.frameText_eq, h]
  simp

/-- The command lists any program, whatever the other arguments are. Otherwise a clock that stands still comes before
    the first character without a key, this before a program that does not fit, and none of them prints anything. What
    is left is run, with a limit that the arguments choose, and ends as the run does. Nothing is said to come of it just
    if there is no limit and no fault for as long as the instructions can be counted. Outside real time a run that ends
    has printed just one frame, which shows its last screen, also after a fault. -/
theorem command_outcome (ofSeed : UInt64 → RandomBytes) (args : Args) (program : List UInt8) (entropy : RandomBytes) :
    (∀ result, command ofSeed args (.bytes program) entropy = some result ↔
        CommandEnds ofSeed args program entropy result) ∧
      (command ofSeed args (.bytes program) entropy = none ↔
        ∃ config m, CommandRunsOn ofSeed args program entropy config m) ∧
      ∀ config, RunConfig.ofArgs args = .ok config →
        config.clock = args.clock ∧ config.realtime = args.realtime ∧
          (config.limit = if args.cycles = some 0 ∨ args.cycles = none ∧ args.realtime = true then none
            else some (args.cycles.getD 10000)) ∧
          (args.realtime = false → ∀ m : Machine,
            let result := m.run config (Task.display config)
            result.outcome ≠ .unended → ∃ lines, TextDisplay.Depicts lines result.machine.state.screen ∧
              result.sink.written = TextDisplay.linesText lines) := by
  refine ⟨fun _ => commandEnds_iff.symm, exists_commandRunsOn_iff.symm, fun config hconfig => ?_⟩
  obtain ⟨hclock, hlimit, hrealtime⟩ := RunConfig.eq_of_ofArgs hconfig
  refine ⟨hclock, hrealtime, ?_, fun hbatch m => ?_⟩
  · rw [hlimit, RunConfig.limitFor_eq]
  · intro result _
    exact ⟨_, TextDisplay.depicts_frameLines _, Task.written_batch (hrealtime.trans hbatch) m⟩

/-- A key is held, there is no limit, and the program returns from nowhere: a frame is printed and the fault is
    reported. It does not matter what the seed gives, for no random byte is drawn. -/
theorem command_outcome_return :
    ∃ lines, TextDisplay.Depicts lines .blank ∧
      command (fun seed => .ofArray #[seed.toUInt8]) { rom := "return", cycles := some 0, hold := ['w'], seed := some 7 }
          (.bytes [0x00, 0xEE]) (.ofArray #[]) =
        some (TextDisplay.linesText lines, some (.fault .stackUnderflow)) := by
  obtain ⟨hends, -, hprinted⟩ := command_outcome (fun seed => .ofArray #[seed.toUInt8])
    { rom := "return", cycles := some 0, hold := ['w'], seed := some 7 } [0x00, 0xEE] (.ofArray #[])
  have hheld : ∀ c ∈ ['w'], KeyLayout.key? c ≠ none := by
    intro c hc
    rw [List.mem_singleton.mp hc]
    decide
  have R : Runnable { rom := "return", cycles := some 0, hold := ['w'], seed := some 7 } [0x00, 0xEE] :=
    ⟨rfl, by decide, hheld, by decide⟩
  obtain ⟨config, hconfig⟩ :
      ∃ config, RunConfig.ofArgs { rom := "return", cycles := some 0, hold := ['w'], seed := some 7 } = .ok config :=
    ⟨_, RunConfig.ofArgs_of_mapped R.clock R.hold⟩
  obtain ⟨m, hload⟩ := (Machine.exists_ofProgram_iff [0x00, 0xEE] (.ofArray #[7])).mpr (by decide)
  obtain ⟨-, -, hlimit, hbatch⟩ := hprinted config hconfig
  have hfault : m.state.nextFault? = some .stackUnderflow := by
    rw [Machine.eq_of_ofProgram hload]
    decide +kernel
  have hstatus : m.status = .running := by
    rw [Machine.eq_of_ofProgram hload]
    rfl
  have hbudget : config.budget = (UInt64.size - 2) + 1 := by
    rw [RunConfig.budget, hlimit]
    rfl
  have hreference : m.reference config config.budget =
      .error .stackUnderflow { machine := { m with status := .halted .stackUnderflow } } := by
    rw [Machine.reference, hbudget, Iteration.iterate_succ, Iteration.next, Machine.step_of_running hstatus, hfault]
  have houtcome := m.run_outcome config (Task.display config)
  have hmachine := m.run_machine config (Task.display config)
  rw [hreference] at houtcome hmachine
  have hended : (m.run config (Task.display config)).outcome ≠ .unended := by
    rw [houtcome]
    exact RunOutcome.noConfusion
  obtain ⟨lines, hlines, hwritten⟩ := hbatch rfl m hended
  rw [hmachine, Machine.screen_shown] at hlines
  have hscreen := (Machine.screen_of_ofProgram hload).1
  have hresult := (hends _).mpr (.faulted R hconfig hload houtcome)
  rw [hwritten] at hresult
  exact ⟨lines, hscreen ▸ hlines, hresult⟩

end ChipEight
