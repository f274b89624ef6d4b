import ChipEight.Proofs.Schedule

/-! # Frames that are shown

Only clearing the screen and drawing a sprite change it, and both mark it as changed; only showing it
takes the mark away. So a host that looks at nothing but the mark never misses a change: without it the
screen is what was shown last, and with it the screen is still to be shown. -/

namespace ChipEight

/-! ### Instructions that draw -/

/-- Whether the next instruction clears the screen or draws a sprite. -/
def State.drawsNext (s : State) : Bool := s.nextWord.fits "00E0" || s.nextWord.fits "DXYN"

theorem State.drawsNext_eq (s : State) : s.drawsNext = s.nextInstruction.draws := by
  have hclear : s.nextWord.fits "00E0" ↔ s.nextInstruction.form? = some "00E0" :=
    Opcode.fits_iff_form? (by decide) (by decide)
  have hdraw : s.nextWord.fits "DXYN" ↔ s.nextInstruction.form? = some "DXYN" :=
    Opcode.fits_iff_form? (by decide) (by decide)
  rw [Bool.eq_iff_iff, drawsNext, Bool.or_eq_true, hclear, hdraw]
  cases s.nextInstruction <;> simp [Instruction.form?]

theorem Instruction.screenAfter_of_not_draws {i : Instruction} (h : i.draws = false) (s : State) :
    i.screenAfter s = s.screen := by
  cases i with
  | clear | draw => cases h
  | _ => rfl

namespace Machine

/-- The screen after a step that draws without a fault. -/
def drawn (m : Machine) (keys : KeySource) : List Screen :=
  match m.step keys with
  | .ok _ m' => if m.state.drawsNext then [m'.state.screen] else []
  | .error _ _ => []

/-- A step draws and marks the screen, or leaves it with its mark. -/
theorem drawn_cases (m : Machine) (keys : KeySource) :
    (m.drawn keys = [(m.act (.step keys)).state.screen] ∧ (m.act (.step keys)).state.redraw = true) ∨
      (m.drawn keys = [] ∧ (m.act (.step keys)).state.screen = m.state.screen ∧
        (m.act (.step keys)).state.redraw = m.state.redraw) := by
  rw [act_step, drawn]
  cases hr : m.step keys with
  | error f m' =>
    rw [eq_of_step_error hr]
    exact .inr ⟨rfl, rfl, rfl⟩
  | ok _ m' =>
    obtain ⟨-, -, rfl⟩ := step_eq_ok_iff.mp hr
    have hredraw : (m.advanced keys).state.redraw = (m.state.nextInstruction.draws || m.state.redraw) := rfl
    simp only [Faulting.left, State.drawsNext_eq, hredraw]
    cases hdraws : m.state.nextInstruction.draws with
    | true => exact .inl ⟨rfl, Bool.true_or _⟩
    | false =>
      exact .inr ⟨rfl, Instruction.screenAfter_of_not_draws hdraws m.state.fetched, Bool.false_or _⟩

/-! ### What is shown -/

/-- A sink gets the screen if that is marked, and the mark is gone then. -/
theorem present_eq {σ : Type} [FrameSink σ] (m : Machine) (sink : σ) :
    m.present sink = (m.state.redraw, m.shown, m.frame?.toList.foldl FrameSink.render sink) := by
  have hmachine := m.present_machine sink
  unfold present frame? at *
  cases hredraw : m.state.redraw with
  | true => rfl
  | false =>
    simp only [hredraw, Bool.false_eq_true, if_false] at hmachine ⊢
    rw [← hmachine]
    rfl

theorem frame?_shown (m : Machine) : m.shown.frame? = none := rfl

theorem screen_shown (m : Machine) : m.shown.state.screen = m.state.screen := rfl

/-- The frames that an event hands to the sink. -/
def handed (m : Machine) : Event → List Screen
  | .step _ | .tick => []
  | .present => (m.present ({} : FrameLog)).2.2.frames

/-- The screens that an event draws. -/
def drew (m : Machine) : Event → List Screen
  | .step keys => m.drawn keys
  | .tick | .present => []

theorem handed_present (m : Machine) : m.handed .present = m.frame?.toList := by
  rw [handed, present_eq]
  cases m.frame? <;> rfl

/-- The frames handed over, and the one that still has to be, are screens that were drawn, in the order in which
    they were drawn. As long as none has to be, the last one handed over is the screen. -/
structure UpToDate (m : Machine) (shown drawn : List Screen) : Prop where
  current : m.state.redraw = false → m.state.screen = shown.getLastD .blank
  drawn : (shown ++ m.frame?.toList).Sublist drawn

theorem UpToDate.act {m : Machine} {shown drawn : List Screen} (U : UpToDate m shown drawn) (e : Event) :
    UpToDate (m.act e) (shown ++ m.handed e) (drawn ++ m.drew e) := by
  cases e with
  | step keys =>
    rw [handed, drew, List.append_nil]
    rcases m.drawn_cases keys with ⟨hdrawn, hredraw⟩ | ⟨hdrawn, hscreen, hredraw⟩
    · -- A frame that was still to be shown is lost: the screen drawn now takes its place.
      have hshown : shown.Sublist drawn := (List.sublist_append_left _ _).trans U.drawn
      refine ⟨fun h => ?_, ?_⟩
      · rw [hredraw] at h
        cases h
      · rw [hdrawn, frame?, hredraw]
        exact hshown.append (List.Sublist.refl _)
    · have hframe : (m.act (.step keys)).frame? = m.frame? := by
        rw [frame?, frame?, hredraw, hscreen]
      refine ⟨fun h => ?_, ?_⟩
      · rw [hredraw] at h
        rw [hscreen]
        exact U.current h
      · rw [hdrawn, hframe, List.append_nil]
        exact U.drawn
  | tick =>
    rw [handed, drew, List.append_nil, List.append_nil]
    exact ⟨U.current, U.drawn⟩
  | present =>
    rw [handed_present, drew, List.append_nil, act_present]
    refine ⟨fun _ => ?_, ?_⟩
    · rw [screen_shown]
      cases hredraw : m.state.redraw with
      | true => simp [frame?, hredraw]
      | false => simpa [frame?, hredraw] using U.current hredraw
    · rw [frame?_shown, Option.toList_none, List.append_nil]
      exact U.drawn

theorem UpToDate.follow {m : Machine} {shown drawn : List Screen} (U : UpToDate m shown drawn)
    (events : List Event) :
    UpToDate (m.follow events) (shown ++ m.record handed events) (drawn ++ m.record drew events) := by
  induction events generalizing m shown drawn with
  | nil =>
    rw [record, record, List.append_nil, List.append_nil]
    exact U
  | cons e rest ih =>
    rw [record, record, ← List.append_assoc, ← List.append_assoc]
    exact ih (U.act e)

theorem screen_of_ofProgram {program : List UInt8} {random : RandomBytes} {m : Machine}
    (h : ofProgram program random = .ok m) : m.state.screen = .blank ∧ m.state.redraw = false := by
  obtain rfl := eq_of_ofProgram h
  exact ⟨rfl, rfl⟩

/-- However a host steps, ticks and shows a loaded machine, a screen without the mark is the last frame shown, and
    no more frames are shown than screens are drawn. The machine says truly whether it has a frame, hands over that
    frame, and hands it over only once. -/
theorem no_change_missed {program : List UInt8} {random : RandomBytes} {m : Machine}
    (h : ofProgram program random = .ok m) (events : List Event) :
    ((m.follow events).state.redraw = false →
      (m.follow events).state.screen = (m.record handed events).getLastD .blank) ∧
      (m.record handed events).length ≤ (m.record drew events).length ∧
      ∀ {σ : Type} [FrameSink σ] (sink : σ), let m' := m.follow events
        (m'.frame? = some m'.state.screen ↔ (m'.present sink).1 = true) ∧
        (m'.frame? = none ↔ (m'.present sink).1 = false) ∧
        ((m'.present sink).1 = true → (m'.present sink).2.2 = FrameSink.render sink m'.state.screen) ∧
        ((m'.present sink).1 = false → (m'.present sink).2.2 = sink) ∧
        ∀ {τ : Type} [FrameSink τ] (other : τ),
          (m'.present sink).2.1.present other = (false, (m'.present sink).2.1, other) := by
  obtain ⟨hscreen, hredraw⟩ := screen_of_ofProgram h
  have hstart : UpToDate m [] [] := by
    refine ⟨fun _ => hscreen, ?_⟩
    rw [frame?, hredraw]
    exact List.Sublist.refl _
  have U := hstart.follow events
  refine ⟨U.current, ?_, fun sink => ?_⟩
  · have hlength := ((List.sublist_append_left _ _).trans U.drawn).length_le
    simpa using hlength
  · intro m'
    simp only [present_eq, frame?_shown]
    refine ⟨?_, ?_, ?_, ?_, fun other => rfl⟩
    all_goals
      rw [frame?]
      cases m'.state.redraw <;> simp

/-- A glyph is drawn and shown, and then neither drawn on nor shown again. -/
theorem no_change_missed_glyph :
    ∃ m, ofProgram [0xD0, 0x05] (.ofArray #[]) = .ok m ∧
      (m.follow [.step .idle, .present, .tick, .present]).state.screen =
        (m.record handed [.step .idle, .present, .tick, .present]).getLastD .blank ∧
      (m.record handed [.step .idle, .present, .tick, .present]).length ≤ 1 := by
  have h : ofProgram [0xD0, 0x05] (.ofArray #[]) = .ok _ := if_pos (by decide)
  obtain ⟨hcurrent, hcount, -⟩ := no_change_missed h [.step .idle, .present, .tick, .present]
  exact ⟨_, h, hcurrent (by decide +kernel), Nat.le_trans hcount (by decide +kernel)⟩

end Machine

end ChipEight
