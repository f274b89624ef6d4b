import ChipEight.Proofs.Frames
import ChipEight.Proofs.RunLoop
import ChipEight.TextDisplay

/-! # The frames of a run

In real time a run shows the screen after every instruction that has drawn, and nothing when it is over;
otherwise it shows nothing until it is over, and then one frame. Either way the sink gets what the
iteration that the run follows draws: all of it in real time, the last of it otherwise. -/

namespace ChipEight

open Faulting (Alike)

/-- The screens that the next `n` instructions of an iteration draw, each as it is right after its instruction. -/
def Iteration.drawn (keys : KeySource) (every : Nat) : Nat → Iteration → List Screen
  | 0, _ => []
  | n + 1, it =>
    it.machine.drawn keys ++ match next keys every it with
      | .ok _ it => drawn keys every n it
      | .error _ _ => []

/-- The screens that the first `n` instructions of a machine draw. -/
def Machine.drawings (m : Machine) (config : RunConfig) (n : Nat) : List Screen :=
  Iteration.drawn config.keypad.source config.stepsPerTick n { machine := m }

namespace Machine

/-- The mark has no part in what is drawn. -/
theorem drawn_congr {m m' : Machine} (h : m.shown = m'.shown) (keys : KeySource) : m.drawn keys = m'.drawn keys := by
  have hnext : m.state.drawsNext = m'.state.drawsNext := by
    show m.shown.state.drawsNext = m'.shown.state.drawsNext
    rw [h]
  have hstep := step_alike h keys
  rw [drawn, drawn, hnext]
  generalize m.step keys = r at hstep ⊢
  generalize m'.step keys = r' at hstep ⊢
  cases hstep with
  | error h => rfl
  | @ok _ m m' h =>
    have hscreen : m.state.screen = m'.state.screen := by
      rw [← screen_shown m, h, screen_shown]
    simp only [hscreen]

/-- The screen after a step is what the step has drawn, or the screen before. -/
theorem screen_act_step (m : Machine) (keys : KeySource) :
    (m.act (.step keys)).state.screen = (m.drawn keys).getLastD m.state.screen := by
  rcases m.drawn_cases keys with ⟨hdrawn, -⟩ | ⟨hdrawn, hscreen, -⟩
  · rw [hdrawn]
    rfl
  · rw [hdrawn, hscreen]
    rfl

/-- If nothing is left to be shown before a step, what is to be shown after it is what it has drawn. -/
theorem frame?_act_step {m : Machine} (h : m.state.redraw = false) (keys : KeySource) :
    (m.act (.step keys)).frame?.toList = m.drawn keys := by
  rw [frame?]
  rcases m.drawn_cases keys with ⟨hdrawn, hredraw⟩ | ⟨hdrawn, -, hredraw⟩
  · rw [hdrawn, hredraw]
    rfl
  · rw [hdrawn, hredraw, h]
    rfl

end Machine

/-! ### The screen of the iteration -/

namespace Iteration
variable {keys : KeySource} {every : Nat}

theorem screen_next (keys : KeySource) (every : Nat) (it : Iteration) :
    (Faulting.left (next keys every it)).machine.state.screen =
      (it.machine.drawn keys).getLastD it.machine.state.screen := by
  rw [← it.machine.screen_act_step keys, Machine.act_step, next]
  cases it.machine.step keys with
  | error f m => rfl
  | ok _ m => by_cases htick : every ∣ it.steps + 1 <;> simp only [htick, if_true, if_false] <;> rfl

theorem screen_iterate (keys : KeySource) (every n : Nat) (it : Iteration) :
    (Faulting.left (iterate keys every n it)).machine.state.screen =
      (drawn keys every n it).getLastD it.machine.state.screen := by
  induction n generalizing it with
  | zero => rfl
  | succ n ih =>
    have hnext := screen_next keys every it
    rw [iterate_succ, drawn]
    cases hr : next keys every it with
    | error f it' =>
      rw [hr] at hnext
      simpa using hnext
    | ok _ it' =>
      rw [hr] at hnext
      have hrest := ih it'
      rw [show it'.machine.state.screen = _ from hnext] at hrest
      simpa using hrest

end Iteration

/-! ### What the sink gets -/

namespace Progress
variable {σ : Type} [FrameSink σ] {config : RunConfig} {p : Progress σ} {it : Iteration}

theorem settled_live (h : config.realtime = true) (p : Progress σ) :
    (settled config p).machine.state.redraw = false ∧
      (settled config p).sink = p.machine.frame?.toList.foldl FrameSink.render p.sink := by
  simp only [settled, h, if_true, Machine.present_eq]
  by_cases htick : p.cycles % config.stepsPerTick = 0
  · rw [if_pos htick]
    exact ⟨rfl, rfl⟩
  · rw [if_neg htick]
    exact ⟨rfl, rfl⟩

theorem settled_batch (h : config.realtime = false) (p : Progress σ) : (settled config p).sink = p.sink := by
  unfold settled
  by_cases htick : p.cycles % config.stepsPerTick = 0 <;> simp [htick, h]

/-- In real time nothing is left to be shown after an instruction, and what it has drawn is shown. -/
theorem cycle_live (h : config.realtime = true) (T : Tracks p it) (hredraw : p.machine.state.redraw = false) :
    (Faulting.left (cycle config p)).machine.state.redraw = false ∧
      (Faulting.left (cycle config p)).sink =
        (it.machine.drawn config.keypad.source).foldl FrameSink.render p.sink := by
  rw [cycle_apply, ← Machine.drawn_congr T.machine]
  cases hr : p.machine.step config.keypad.source with
  | error f m =>
    rw [Machine.drawn, hr, Machine.eq_of_step_error hr]
    exact ⟨hredraw, rfl⟩
  | ok _ m =>
    rw [← Machine.frame?_act_step hredraw, Machine.act_of_step_ok hr]
    exact settled_live h _

theorem advance_succ (config : RunConfig) (n : Nat) (p : Progress σ) :
    advance config (n + 1) p = match cycle config p with
      | .ok _ p => advance config n p
      | .error f p => .error f p := by
  rw [advance, bind_apply]
  cases cycle config p <;> rfl

theorem advance_live (h : config.realtime = true) (T : Tracks p it) (hredraw : p.machine.state.redraw = false)
    (n : Nat) :
    (Faulting.left (advance config n p)).machine.state.redraw = false ∧
      (Faulting.left (advance config n p)).sink =
        (Iteration.drawn config.keypad.source config.stepsPerTick n it).foldl FrameSink.render p.sink := by
  induction n generalizing p it with
  | zero => exact ⟨hredraw, rfl⟩
  | succ n ih =>
    have hcycle := cycle_live h T hredraw
    have halike : Alike Tracks (cycle config p) _ := cycle_alike T
    rw [advance_succ, Iteration.drawn, List.foldl_append, ← hcycle.2]
    -- The run and the iteration meet a fault at the same instruction.
    generalize cycle config p = r at halike hcycle ⊢
    generalize Iteration.next config.keypad.source config.stepsPerTick it = r' at halike ⊢
    cases halike with
    | ok T' => exact ih T' hcycle.1
    | error T' => exact ⟨hcycle.1, rfl⟩

theorem advance_batch (h : config.realtime = false) (n : Nat) (p : Progress σ) :
    (Faulting.left (advance config n p)).sink = p.sink := by
  induction n generalizing p with
  | zero => rfl
  | succ n ih =>
    rw [advance_succ, cycle_apply]
    cases p.machine.step config.keypad.source with
    | error f m => rfl
    | ok _ m => exact (ih _).trans (settled_batch h _)

theorem finish_live (h : config.realtime = true) (p : Progress σ) (hredraw : p.machine.state.redraw = false) :
    (p.finish config).sink = p.sink := by
  simp [finish, Machine.present_eq, h, Machine.frame?, hredraw]

theorem finish_batch (h : config.realtime = false) (p : Progress σ) :
    (p.finish config).sink = FrameSink.render p.sink p.machine.state.screen := by
  cases hredraw : p.machine.state.redraw <;>
    simp [finish, Machine.present_eq, h, Machine.frame?, hredraw, Machine.screen_shown]

end Progress

namespace Machine

section
variable {σ : Type} [FrameSink σ] (m : Machine) (config : RunConfig) (sink : σ)

theorem run_sink :
    (m.run config sink).sink =
      ((Faulting.left (Progress.advance config config.budget { machine := m, sink, cycles := 0 })).finish
        config).sink := by
  unfold run
  cases Progress.advance config config.budget { machine := m, sink, cycles := 0 } <;> rfl

theorem run_screen :
    (m.run config sink).machine.state.screen =
      (Faulting.left
        (Progress.advance config config.budget { machine := m, sink, cycles := 0 })).machine.state.screen := by
  unfold run
  cases Progress.advance config config.budget { machine := m, sink, cycles := 0 } <;>
    simp only [Progress.finish_machine, Faulting.left, screen_shown]

end

/-- Real time and the sink have no part in what comes of a loaded machine. Outside real time the sink gets the final
    screen and nothing else. In real time it gets what clearing and drawing leave, one frame for each such
    instruction; the last of these is the final screen, and without any the final screen is blank. -/
theorem run_frames {program : List UInt8} {random : RandomBytes} {m : Machine}
    (h : ofProgram program random = .ok m) (clock : UInt32) (n : UInt64) (keypad : Keypad) {σ τ : Type}
    [FrameSink σ] [FrameSink τ] (sink : σ) (other : τ) :
    let config (realtime : Bool) : RunConfig := { clock, limit := some n, keypad, realtime }
    (∀ realtime realtime', (m.run (config realtime) sink).outcome = (m.run (config realtime') other).outcome ∧
      (m.run (config realtime) sink).machine = (m.run (config realtime') other).machine) ∧
      (m.run (config false) sink).sink =
        FrameSink.render sink (m.run (config false) sink).machine.state.screen ∧
      (m.run (config true) sink).sink = (m.drawings (config true) n.toNat).foldl FrameSink.render sink ∧
      (m.run (config true) sink).machine.state.screen = (m.drawings (config true) n.toNat).getLastD .blank := by
  obtain ⟨hscreen, hredraw⟩ := screen_of_ofProgram h
  intro config
  have hbudget : ∀ realtime, (config realtime).budget = n.toNat := fun _ => rfl
  refine ⟨fun realtime realtime' => m.run_eq_run (config realtime') other realtime sink, ?_, ?_, ?_⟩
  · rw [run_screen, run_sink, Progress.finish_batch rfl, Progress.advance_batch rfl]
  · have hlive : (config true).realtime = true := rfl
    have T : Progress.Tracks { machine := m, sink, cycles := 0 } { machine := m } := ⟨rfl, rfl⟩
    obtain ⟨hshown, hsink⟩ := Progress.advance_live hlive T hredraw n.toNat
    rw [run_sink, hbudget, Progress.finish_live rfl _ hshown]
    exact hsink
  · rw [run_machine, screen_shown, hbudget, ← hscreen]
    exact Iteration.screen_iterate _ _ _ _

/-- The screen is cleared, a glyph is drawn, and a return faults. What is shown outside real time is lost here. -/
theorem run_frames_glyph :
    ∃ m, ofProgram [0x00, 0xE0, 0xD0, 0x05, 0x00, 0xEE] (.ofArray #[]) = .ok m ∧
      let live := m.run ⟨500, some 5, .released, true⟩ ({} : FrameLog)
      let batch := m.run ⟨500, some 5, .released, false⟩ ({ clear := true, accepting := false } : TextDisplay)
      live.outcome = batch.outcome ∧ live.machine = batch.machine ∧ live.sink.frames.length = 2 := by
  have h : ofProgram [0x00, 0xE0, 0xD0, 0x05, 0x00, 0xEE] (.ofArray #[]) = .ok _ := if_pos (by decide)
  obtain ⟨hsame, -, hlive, -⟩ := run_frames h 500 5 .released ({} : FrameLog)
    ({ clear := true, accepting := false } : TextDisplay)
  obtain ⟨houtcome, hmachine⟩ := hsame true false
  refine ⟨_, h, houtcome, hmachine, ?_⟩
  rw [hlive]
  decide +kernel

end Machine

end ChipEight
