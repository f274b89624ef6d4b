import ChipEight.Machine.Basic

/-! # Showing frames

A frame sink takes the screens that it is handed and may do with them what it likes. The machine hands
its screen over only when it has changed. -/

namespace ChipEight

/-- Something that frames can be shown on. -/
class FrameSink (σ : Type) where
  render : σ → Screen → σ

/-- A record of the frames handed over, the latest last. -/
structure FrameLog where
  frames : List Screen := []

instance : FrameSink FrameLog := ⟨fun log s => ⟨log.frames ++ [s]⟩⟩

/-- Hands the screen to the sink if it has changed since the last time, and says whether it has. -/
def Machine.present {σ : Type} [FrameSink σ] (m : Machine) (sink : σ) : Bool × Machine × σ :=
  if m.state.redraw then
    (true, { m with state.redraw := false }, FrameSink.render sink m.state.screen)
  else (false, m, sink)

end ChipEight
