import ChipEight.FrameSink
import ChipEight.Machine.Load
import ChipEight.Proofs.Step
import Mathlib.Data.List.Induction

/-! # Schedules

A host steps a machine, lets its timers tick and shows its screen, in any order and each time with keys
and sinks of its choice. What holds of a loaded machine and is kept by each of the three holds after every
schedule. -/

namespace ChipEight

/-! ### What comes of an operation -/

namespace Faulting
variable {σ τ α β : Type}

/-- What an operation leaves behind, also when it fails. -/
def left : EStateM.Result Fault σ α → σ
  | .ok _ s => s
  | .error _ s => s

/-- What an operation answers, a value or a fault. -/
def answer : EStateM.Result Fault σ α → Except Fault α
  | .ok a _ => .ok a
  | .error f _ => .error f

/-- Two operations give the same, a value or a fault, and leave related things behind. -/
inductive Alike (R : σ → τ → Prop) : EStateM.Result Fault σ α → EStateM.Result Fault τ α → Prop where
  | ok {a : α} {s : σ} {t : τ} (h : R s t) : Alike R (.ok a s) (.ok a t)
  | error {f : Fault} {s : σ} {t : τ} (h : R s t) : Alike R (.error f s) (.error f t)

theorem Alike.bind {R : σ → τ → Prop} {op : Faulting σ α} {op' : Faulting τ α}
    {rest : α → Faulting σ β} {rest' : α → Faulting τ β} {s : σ} {t : τ} (h : Alike R (op s) (op' t))
    (hrest : ∀ a s t, R s t → Alike R (rest a s) (rest' a t)) :
    Alike R ((op >>= rest) s) ((op' >>= rest') t) := by
  rw [bind_apply, bind_apply]
  generalize op s = r at h ⊢
  generalize op' t = r' at h ⊢
  cases h with
  | ok h => exact hrest _ _ _ h
  | error h => exact .error h

theorem Alike.left {R : σ → τ → Prop} {r : EStateM.Result Fault σ α} {r' : EStateM.Result Fault τ α}
    (h : Alike R r r') : R (left r) (left r') := by
  cases h with
  | ok h => exact h
  | error h => exact h

theorem Alike.of_left {R S : σ → τ → Prop} {r : EStateM.Result Fault σ α} {r' : EStateM.Result Fault τ α}
    (h : Alike R r r') (hleft : S (Faulting.left r) (Faulting.left r')) : Alike S r r' := by
  cases h with
  | ok h => exact .ok hleft
  | error h => exact .error hleft

theorem Alike.answer {R : σ → τ → Prop} {r : EStateM.Result Fault σ α} {r' : EStateM.Result Fault τ α}
    (h : Alike R r r') : answer r = answer r' := by
  cases h with
  | ok h => rfl
  | error h => rfl

end Faulting

open Faulting (Alike)

/-! ### The screen shown

Showing the screen takes away the mark that it has changed. No instruction looks at that mark. -/

namespace Machine

/-- The machine with its screen shown. -/
def shown (m : Machine) : Machine := { m with state.redraw := false }

/-- What shows the screen has no part in what becomes of the machine. -/
theorem present_machine {σ : Type} [FrameSink σ] (m : Machine) (sink : σ) : (m.present sink).2.1 = m.shown := by
  unfold present shown
  split
  · rfl
  · next h =>
    have hredraw : m.state.redraw = false := by simpa using h
    rw [← hredraw]

theorem tick_shown (m : Machine) : m.shown.tick.shown = m.tick.shown := rfl

theorem advanced_shown (keys : KeySource) (m : Machine) :
    (m.shown.advanced keys).shown = (m.advanced keys).shown := rfl

/-- Two machines that meet the same fault, or both meet none, step alike. -/
theorem step_alike_of {R : Machine → Machine → Prop} {m m' : Machine} {keys : KeySource}
    (hstatus : m.status = m'.status) (hfault : m.state.nextFault? = m'.state.nextFault?) (hsame : R m m')
    (hhalted : ∀ f, R { m with status := .halted f } { m' with status := .halted f })
    (hadvanced : m.step keys = .ok () (m.advanced keys) → R (m.advanced keys) (m'.advanced keys)) :
    Alike R (m.step keys) (m'.step keys) := by
  cases hm : m.status with
  | halted f =>
    rw [step_of_halted hm, step_of_halted (hstatus ▸ hm)]
    exact .error hsame
  | running =>
    have hstep := step_of_running hm keys
    have hstep' := step_of_running (hstatus ▸ hm) keys
    rw [← hfault] at hstep'
    cases hf : m.state.nextFault? with
    | some f =>
      rw [hf] at hstep hstep'
      rw [hstep, hstep']
      exact .error (hhalted f)
    | none =>
      rw [hf] at hstep hstep'
      rw [hstep, hstep']
      exact .ok (hadvanced hstep)

/-- Of two machines that differ in the mark at most, an instruction makes two such machines again. -/
theorem step_alike {m m' : Machine} (h : m.shown = m'.shown) (keys : KeySource) :
    Alike (fun m m' => m.shown = m'.shown) (m.step keys) (m'.step keys) := by
  have hstatus : m.status = m'.status := by
    show m.shown.status = m'.shown.status
    rw [h]
  have hfault : m.state.nextFault? = m'.state.nextFault? := by
    show m.shown.state.nextFault? = m'.shown.state.nextFault?
    rw [h]
  refine step_alike_of hstatus hfault h (fun f => congrArg (fun m => { m with status := .halted f }) h) fun _ => ?_
  rw [← advanced_shown, h, advanced_shown]

end Machine

/-! ### Ticks and showings

They reach the timers and the mark only, and it makes no difference in which order they come. -/

namespace State

/-- A state after so many timer ticks, and with the screen shown or not. -/
def aged (s : State) (ticks : Nat) (presented : Bool) : State :=
  { s with delay := UInt8.ofNat (s.delay.toNat - ticks), sound := UInt8.ofNat (s.sound.toNat - ticks),
           redraw := s.redraw && !presented }

theorem aged_zero (s : State) : s.aged 0 false = s := by
  simp [aged]

theorem aged_aged (s : State) (t t' : Nat) (p p' : Bool) :
    (s.aged t p).aged t' p' = s.aged (t + t') (p || p') := by
  have htimer : ∀ d : UInt8, UInt8.ofNat ((UInt8.ofNat (d.toNat - t)).toNat - t') =
      UInt8.ofNat (d.toNat - (t + t')) := by
    intro d
    have hlt := d.toNat_lt
    rw [UInt8.toNat_ofNat', Nat.mod_eq_of_lt (by omega), Nat.sub_sub]
  simp only [aged, htimer, Bool.and_assoc, Bool.not_or]

/-- No fault depends on the timers or on the mark. -/
theorem nextFault?_aged (s : State) (t : Nat) (p : Bool) : (s.aged t p).nextFault? = s.nextFault? := by
  unfold nextFault? Instruction.fault?
  rfl

end State

namespace Machine

theorem sub_min_one (d : UInt8) : d - min 1 d = UInt8.ofNat (d.toNat - 1) := by
  show d - (if 1 ≤ d then 1 else d) = _
  apply UInt8.toNat_inj.mp
  have hlt := d.toNat_lt
  have hle : (1 : UInt8) ≤ d ↔ 1 ≤ d.toNat := UInt8.le_iff_toNat_le
  rw [UInt8.toNat_ofNat', Nat.mod_eq_of_lt (by omega)]
  split
  · next h => exact UInt8.toNat_sub_of_le _ _ h
  · next h =>
    rw [hle] at h
    rw [UInt8.sub_self, UInt8.toNat_zero]
    omega

theorem tick_eq (m : Machine) : m.tick = { m with state := m.state.aged 1 false } := by
  simp [tick, State.aged, sub_min_one]

theorem shown_eq (m : Machine) : m.shown = { m with state := m.state.aged 0 true } := by
  simp [shown, State.aged]

/-- A machine after so many timer ticks, and with its screen shown or not. -/
def aged (m : Machine) (ticks : Nat) (presented : Bool) : Machine := { m with state := m.state.aged ticks presented }

theorem aged_zero (m : Machine) : m.aged 0 false = m := by
  rw [aged, State.aged_zero]

theorem tick_aged (m : Machine) (t : Nat) (p : Bool) : (m.aged t p).tick = m.aged (t + 1) p := by
  rw [tick_eq, aged, State.aged_aged, Bool.or_false]
  rfl

theorem shown_aged (m : Machine) (t : Nat) (p : Bool) : (m.aged t p).shown = m.aged t true := by
  rw [shown_eq, aged, State.aged_aged, Bool.or_true]
  rfl

end Machine

/-! ### What a host does -/

/-- What a host does with a machine: it has an instruction executed, lets the timers tick, or shows the screen. -/
inductive Event where
  | step (keys : KeySource)
  | tick
  | present

/-- Whether the timers tick in an event. -/
def Event.isTick : Event → Bool
  | .tick => true
  | .step _ | .present => false

/-- Whether the screen is shown in an event. -/
def Event.isPresent : Event → Bool
  | .present => true
  | .step _ | .tick => false

/-- The keys of a step. -/
def Event.keys? : Event → Option KeySource
  | .step keys => some keys
  | .tick | .present => none

theorem Event.eq_step_of_keys? {e : Event} {keys : KeySource} (h : e.keys? = some keys) : e = .step keys := by
  cases e with
  | step keys' => rw [Option.some.inj h]
  | tick | present => cases h

namespace Machine

/-- The machine after an event, whatever comes of it. -/
def act (m : Machine) : Event → Machine
  | .step keys => Faulting.left (m.step keys)
  | .tick => m.tick
  | .present => (m.present ({} : FrameLog)).2.1

/-- The machine after a schedule of events. -/
def follow (m : Machine) (events : List Event) : Machine := events.foldl act m

theorem eq_of_ofProgram {program : List UInt8} {random : RandomBytes} {m : Machine}
    (h : ofProgram program random = .ok m) :
    m = { new random with state.memory := Font.memory.store programStart.toNat program } := by
  unfold ofProgram at h
  split at h
  · exact (Except.ok.inj h).symm
  · cases h

theorem exists_ofProgram_iff (program : List UInt8) (random : RandomBytes) :
    (∃ m, ofProgram program random = .ok m) ↔ program.length ≤ maxProgramSize := by
  unfold ofProgram
  split <;> simp [*]

theorem act_step (m : Machine) (keys : KeySource) : m.act (.step keys) = Faulting.left (m.step keys) := rfl

theorem act_of_step_ok {m m' : Machine} {keys : KeySource} (h : m.step keys = .ok () m') :
    m.act (.step keys) = m' := by
  rw [act_step, h]
  rfl

theorem act_present (m : Machine) : m.act .present = m.shown := m.present_machine _

theorem act_step_of_halted {m : Machine} {f : Fault} (h : m.status = .halted f) (keys : KeySource) :
    m.act (.step keys) = m := by
  simp only [act, step_of_halted h, Faulting.left]

theorem act_step_of_running {m : Machine} (h : m.status = .running) (keys : KeySource) :
    m.act (.step keys) = match m.state.nextFault? with
      | some f => { m with status := .halted f }
      | none => m.advanced keys := by
  simp only [act, step_of_running h]
  cases m.state.nextFault? <;> rfl

/-- What is noted of the events of a schedule, one after the other. -/
def record {α : Type} (m : Machine) (note : Machine → Event → List α) : List Event → List α
  | [] => []
  | e :: rest => note m e ++ (m.act e).record note rest

theorem follow_append (m : Machine) (before after : List Event) :
    m.follow (before ++ after) = (m.follow before).follow after := List.foldl_append

theorem record_append {α : Type} (m : Machine) (note : Machine → Event → List α) (before after : List Event) :
    m.record note (before ++ after) = m.record note before ++ (m.follow before).record note after := by
  induction before generalizing m with
  | nil => rfl
  | cons e rest ih =>
    rw [List.cons_append, record, record, ih, List.append_assoc]
    rfl

/-- What a step answers. -/
def answers (m : Machine) : Event → List (Except Fault Unit)
  | .step keys => [Faulting.answer (m.step keys)]
  | .tick | .present => []

theorem answers_of_idle (m : Machine) {e : Event} (h : e.keys? = none) : m.answers e = [] := by
  cases e with
  | step keys => cases h
  | tick | present => rfl

theorem record_answers_of_idle (m : Machine) {idle : List Event} (h : ∀ e ∈ idle, e.keys? = none) :
    m.record answers idle = [] := by
  induction idle generalizing m with
  | nil => rfl
  | cons e rest ih =>
    obtain ⟨he, hrest⟩ := List.forall_mem_cons.mp h
    rw [record, answers_of_idle m he, ih _ hrest, List.nil_append]

/-- The word that a step without a fault executes. -/
def executed (m : Machine) : Event → List Opcode
  | .step keys =>
    match m.step keys with
    | .ok _ _ => [m.state.nextWord]
    | .error _ _ => []
  | .tick | .present => []

theorem executed_of_step_ok {m m' : Machine} {keys : KeySource} (h : m.step keys = .ok () m') :
    m.executed (.step keys) = [m.state.nextWord] := by
  rw [executed, h]

theorem executed_of_step_error {m m' : Machine} {keys : KeySource} {f : Fault} (h : m.step keys = .error f m') :
    m.executed (.step keys) = [] := by
  rw [executed, h]

/-- What every event keeps, every schedule keeps. -/
theorem follow_induction {P : Machine → Prop} (hact : ∀ m e, P m → P (m.act e)) {m : Machine} (h : P m)
    (events : List Event) : P (m.follow events) := by
  induction events generalizing m with
  | nil => exact h
  | cons e rest ih => exact ih (hact m e h)

/-- A schedule whose steps change nothing comes down to its ticks and to whether it shows the screen. -/
theorem follow_of_still {m : Machine} {events : List Event}
    (h : ∀ keys, .step keys ∈ events → ∀ t p, (m.aged t p).act (.step keys) = m.aged t p) :
    m.follow events = m.aged (events.countP Event.isTick) (events.any Event.isPresent) := by
  induction events using List.reverseRecOn with
  | nil => exact m.aged_zero.symm
  | append_singleton events e ih =>
    rw [follow_append, ih fun keys hmem => h keys (List.mem_append_left _ hmem), List.countP_append, List.any_append]
    cases e with
    | step keys =>
      refine (h keys (List.mem_append_right _ (List.mem_singleton_self _)) _ _).trans ?_
      simp [Event.isTick, Event.isPresent]
    | tick =>
      refine (m.tick_aged _ _).trans ?_
      simp [Event.isTick, Event.isPresent]
    | present =>
      refine (act_present _).trans ((m.shown_aged _ _).trans ?_)
      simp [Event.isTick, Event.isPresent]

/-- A property of the state that neither a tick nor the showing of the screen can break is kept by every
    event if every step without a fault keeps it. -/
theorem act_state {P : State → Prop} (htick : ∀ m : Machine, P m.state → P m.tick.state)
    (hshown : ∀ m : Machine, P m.state → P m.shown.state)
    (hadvanced : ∀ (m : Machine) keys, m.state.nextFault? = none → P m.state → P (m.advanced keys).state)
    (m : Machine) (e : Event) (h : P m.state) : P (m.act e).state := by
  cases e with
  | step keys =>
    cases hstatus : m.status with
    | halted f => rwa [act_step_of_halted hstatus]
    | running =>
      rw [act_step_of_running hstatus]
      cases hfault : m.state.nextFault? with
      | some f => exact h
      | none => exact hadvanced m keys hfault h
  | tick => exact htick m h
  | present =>
    rw [act_present]
    exact hshown m h

end Machine

end ChipEight
