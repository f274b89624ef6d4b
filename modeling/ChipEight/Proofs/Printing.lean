import ChipEight.CommandLine.Console
import ChipEight.Proofs.RunFrames

/-! # What is printed in the end

A run that is carried out on a console prints its frames one by one. At each time, what has been printed followed by
what the display still holds is what the display would hold if nothing had been printed before the end. So the text
that has been printed in the end is the one that the task is said to print. -/

namespace ChipEight

open Faulting (Alike)

/-- A console that keeps all that is printed, and on which no time passes. -/
def Console.recorder : Console (StateM String) where
  print text := modify (· ++ text)
  wait _ _ := pure ()

theorem Console.run_bind {α β : Type} (op : StateM String α) (rest : α → StateM String β) (text : String) :
    (op >>= rest).run text = (rest (op.run text).1).run (op.run text).2 := rfl

/-! ### A display that has taken in more -/

/-- A display that has taken in a text before all that it has taken in. -/
def TextDisplay.after (text : String) (d : TextDisplay) : TextDisplay := { d with written := text ++ d.written }

theorem TextDisplay.render_after (text : String) (d : TextDisplay) (s : Screen) :
    FrameSink.render (d.after text) s = (FrameSink.render d s).after text := by
  obtain ⟨clear, accepting, written⟩ := d
  cases accepting with
  | false => rfl
  | true => exact congrArg (TextDisplay.mk clear true) String.append_assoc

namespace Progress
variable {config : RunConfig} {p : Progress TextDisplay} {text : String}

/-- A run whose display has taken in a text before all that it has taken in. -/
def after (text : String) (p : Progress TextDisplay) : Progress TextDisplay := { p with sink := p.sink.after text }

theorem present_after (m : Machine) (d : TextDisplay) :
    m.present (d.after text) = ((m.present d).1, (m.present d).2.1, (m.present d).2.2.after text) := by
  unfold Machine.present
  split
  · rw [TextDisplay.render_after]
  · rfl

theorem settled_after (config : RunConfig) (text : String) (p : Progress TextDisplay) :
    settled config (p.after text) = (settled config p).after text := by
  by_cases htick : p.cycles % config.stepsPerTick = 0 <;> cases hlive : config.realtime <;>
    simp [settled, after, htick, hlive, present_after]

theorem cycle_after (config : RunConfig) (text : String) (p : Progress TextDisplay) :
    cycle config (p.after text) = match cycle config p with
      | .ok _ p => .ok () (p.after text)
      | .error f p => .error f (p.after text) := by
  have hmachine : (p.after text).machine = p.machine := rfl
  rw [cycle_apply, cycle_apply, hmachine]
  cases p.machine.step config.keypad.source with
  | error f m => rfl
  | ok _ m => exact congrArg (EStateM.Result.ok ()) (settled_after config text { p with machine := m, cycles := _ })

theorem finish_after (config : RunConfig) (text : String) (p : Progress TextDisplay) :
    (p.after text).finish config = (p.finish config).after text := by
  simp only [finish, after, present_after]
  cases (p.machine.present p.sink).1 || config.realtime with
  | true => rfl
  | false => simp [TextDisplay.render_after]

/-! ### Printing bit by bit -/

/-- What is printed of a run is not in its display any more. -/
theorem flush_recorder (p : Progress TextDisplay) (text : String) :
    (flush Console.recorder p).run text = ({ p with sink.written := "" }, text ++ p.sink.written) := by
  rw [flush]
  cases hempty : p.sink.written.isEmpty with
  | true =>
    rw [String.isEmpty_iff.mp hempty, String.append_empty]
    rfl
  | false => rfl

theorem after_flushed (p : Progress TextDisplay) (text : String) :
    after (text ++ p.sink.written) { p with sink.written := "" } = p.after text := by
  simp [after, TextDisplay.after]

theorem advanceOn_recorder_succ (config : RunConfig) (n : Nat) (p : Progress TextDisplay) (text : String) :
    (advanceOn Console.recorder config (n + 1) p).run text = match cycle config p with
      | .ok _ p =>
        (advanceOn Console.recorder config n { p with sink.written := "" }).run (text ++ p.sink.written)
      | .error f p => (.error f p, text) := by
  rw [advanceOn]
  cases cycle config p with
  | error f p' => rfl
  | ok _ p' =>
    rw [Console.run_bind, flush_recorder]
    cases config.realtime <;> rfl

/-- What has been printed and what the display holds are together what a display holds of which nothing is printed. -/
theorem advanceOn_recorder (config : RunConfig) (n : Nat) (p : Progress TextDisplay) (text : String) :
    Alike (fun q q' => q = q'.after ((advanceOn Console.recorder config n p).run text).2)
      (advance config n (p.after text)) ((advanceOn Console.recorder config n p).run text).1 := by
  induction n generalizing p text with
  | zero => exact .ok rfl
  | succ n ih =>
    rw [advance_succ, cycle_after, advanceOn_recorder_succ]
    cases cycle config p with
    | error f p' => exact .error rfl
    | ok _ p' =>
      have hrest := ih { p' with sink.written := "" } (text ++ p'.sink.written)
      rw [after_flushed] at hrest
      exact hrest

end Progress

namespace Task

theorem forM_print_recorder (lines : List String) (text : String) :
    (lines.forM fun line => Console.recorder.print (line ++ "\n")).run text =
      ((), text ++ String.join (lines.map (· ++ "\n"))) := by
  induction lines generalizing text with
  | nil => exact Prod.ext rfl String.append_empty.symm
  | cons line lines ih =>
    show (lines.forM fun line => Console.recorder.print (line ++ "\n")).run (text ++ (line ++ "\n")) = _
    rw [ih, List.map_cons, String.join_cons, String.append_assoc]

/-- What is left to be printed when a run is over is printed last. Nothing more is printed of a run left unended. -/
theorem perform_run_recorder (m : Machine) (config : RunConfig) :
    ((run m config).perform Console.recorder).run "" =
      match (Progress.advanceOn Console.recorder config config.budget
          { machine := m, sink := display config, cycles := 0 }).run "", config.limit with
      | (.error f p, text), _ => (some (some (.fault f)), text ++ (p.finish config).sink.written)
      | (.ok _ p, text), some _ => (some none, text ++ (p.finish config).sink.written)
      | (.ok _ _, text), none => (none, text) := by
  rw [perform, Console.run_bind]
  generalize (Progress.advanceOn Console.recorder config config.budget
    { machine := m, sink := display config, cycles := 0 }).run "" = printed
  obtain ⟨r, text⟩ := printed
  cases r with
  | error f p =>
    show (_, (((p.finish config).flush Console.recorder).run text).2) = _
    rw [Progress.flush_recorder]
  | ok _ p =>
    cases config.limit with
    | none => rfl
    | some n =>
      show (_, (((p.finish config).flush Console.recorder).run text).2) = _
      rw [Progress.flush_recorder]

/-- What is printed on a console that a task is carried out on is what the task is said to print, and it fails if the
    task is said to. -/
theorem result_eq_perform (task : Task) :
    task.result = ((task.perform Console.recorder).run "").1.map (((task.perform Console.recorder).run "").2, ·) := by
  cases task with
  | list lines =>
    rw [perform, Console.run_bind, forM_print_recorder, String.empty_append]
    rfl
  | run m config =>
    have hempty : ({ machine := m, sink := display config, cycles := 0 } : Progress TextDisplay).after "" =
        { machine := m, sink := display config, cycles := 0 } := by
      simp [Progress.after, TextDisplay.after]
    have halike := Progress.advanceOn_recorder config config.budget
      { machine := m, sink := display config, cycles := 0 } ""
    rw [hempty] at halike
    rw [perform_run_recorder, result, Machine.run]
    generalize Progress.advance config config.budget
      { machine := m, sink := display config, cycles := 0 } = r at halike ⊢
    generalize (Progress.advanceOn Console.recorder config config.budget
      { machine := m, sink := display config, cycles := 0 }).run "" = printed at halike ⊢
    obtain ⟨r', text⟩ := printed
    cases halike with
    | error h =>
      subst h
      simp only [Progress.finish_after]
      rfl
    | ok h =>
      subst h
      cases config.limit <;> simp only [Progress.finish_after, RunOutcome.ofLimit] <;> rfl

end Task

end ChipEight
