import ChipEight.Proofs.RunEvents

/-! # What randomness reaches

One instruction draws a random byte, one for each time that it is executed, and masks it before anything else sees
it. So of the random bytes a machine only gets to know the bits under those masks. -/

namespace ChipEight

open Faulting (Alike)

/-! ### The instruction that draws -/

theorem Opcode.decode_of_fits_CXKK {op : Opcode} (h : op.fits "CXKK") : op.decode = .random op.x op.kk :=
  decode_of_fits h rfl (by decide) ⟨rfl, rfl⟩

namespace Instruction
variable {op : Opcode}

theorem isRandom_decode (op : Opcode) : op.decode.isRandom = op.fits "CXKK" := by
  cases hfits : op.fits "CXKK" with
  | true => rw [Opcode.decode_of_fits_CXKK hfits, isRandom]
  | false =>
    have hform : op.decode.form? ≠ some "CXKK" := fun hform => by simp [Opcode.fits_of_form? hform] at hfits
    generalize op.decode = i at hform
    cases i with
    | random => exact absurd rfl hform
    | _ => rfl

/-- Bytes that are the same under its mask are the same to an instruction. -/
theorem stateAfter_congr {b b' : UInt8} (h : op.fits "CXKK" → b &&& op.kk = b' &&& op.kk) (keys : KeySource)
    (s : State) : op.decode.stateAfter keys s b = op.decode.stateAfter keys s b' := by
  cases hfits : op.fits "CXKK" with
  | true =>
    rw [Opcode.decode_of_fits_CXKK hfits, stateAfter, stateAfter, registersAfter, registersAfter, h hfits]
  | false =>
    have hrandom := isRandom_decode op
    rw [hfits] at hrandom
    generalize op.decode = i at hrandom
    cases i with
    | random => cases hrandom
    | _ => rfl

end Instruction

/-! ### The bytes that a schedule draws -/

namespace Machine

/-- The masks of the random bytes that a schedule draws, one after the other. -/
def masks (m : Machine) (events : List Event) : List UInt8 :=
  ((m.record executed events).filter (·.fits "CXKK")).map Opcode.kk

theorem masks_cons (m : Machine) (e : Event) (rest : List Event) :
    m.masks (e :: rest) = m.masks [e] ++ (m.act e).masks rest := by
  simp only [masks, record, List.append_nil, List.filter_append, List.map_append]

theorem length_masks (m : Machine) (events : List Event) :
    (m.masks events).length = (m.record executed events).countP (·.fits "CXKK") := by
  rw [masks, List.length_map, List.countP_eq_length_filter]

theorem masks_step_of_ok {m m' : Machine} {keys : KeySource} (h : m.step keys = .ok () m') :
    m.masks [.step keys] = if m.state.nextWord.fits "CXKK" then [m.state.nextWord.kk] else [] := by
  rw [masks, record, record, executed_of_step_ok h]
  cases hfits : m.state.nextWord.fits "CXKK" <;> simp [hfits]

theorem masks_step_of_error {m m' : Machine} {keys : KeySource} {f : Fault} (h : m.step keys = .error f m') :
    m.masks [.step keys] = [] := by
  rw [masks, record, record, executed_of_step_error h]
  rfl

end Machine

namespace RandomBytes

/-- The bytes after so many more have been drawn. -/
def skip (r : RandomBytes) (n : Nat) : RandomBytes := { r with drawn := r.drawn + n }

theorem skip_skip (r : RandomBytes) (n n' : Nat) : (r.skip n).skip n' = r.skip (n + n') := by
  simp only [skip, Nat.add_assoc]

/-- Of the next bytes to be drawn those for which there are masks are the same under them. -/
def AgreeUnder (masks : List UInt8) (r r' : RandomBytes) : Prop :=
  ∀ j mask, masks[j]? = some mask → r.byteAt (r.drawn + j) &&& mask = r'.byteAt (r'.drawn + j) &&& mask

variable {masks masks' : List UInt8} {r r' : RandomBytes}

theorem agreeUnder_of_append (h : AgreeUnder (masks ++ masks') r r') :
    AgreeUnder masks r r' ∧ AgreeUnder masks' (r.skip masks.length) (r'.skip masks.length) := by
  refine ⟨fun j mask hmask => h j mask ?_, fun j mask hmask => ?_⟩
  · rwa [List.getElem?_append_left (List.getElem?_eq_some_iff.mp hmask).1]
  · have hj : (masks ++ masks')[masks.length + j]? = some mask := by
      rwa [List.getElem?_append_right (Nat.le_add_right _ _), Nat.add_sub_cancel_left]
    have hagree := h _ _ hj
    rwa [← Nat.add_assoc, ← Nat.add_assoc] at hagree

theorem agreeUnder_of_zero (h : ∀ mask ∈ masks, mask = 0) : AgreeUnder masks r r' := by
  intro j mask hmask
  rw [h mask (List.mem_of_getElem? hmask), UInt8.and_zero, UInt8.and_zero]

end RandomBytes

open RandomBytes (AgreeUnder)

namespace Machine

theorem random_act (m : Machine) (e : Event) : (m.act e).random = m.random.skip (m.masks [e]).length := by
  cases e with
  | step keys =>
    rw [act_step]
    cases hr : m.step keys with
    | error f m' =>
      rw [masks_step_of_error hr, eq_of_step_error hr]
      rfl
    | ok _ m' =>
      rw [masks_step_of_ok hr, ← Instruction.isRandom_decode]
      obtain ⟨-, -, rfl⟩ := step_eq_ok_iff.mp hr
      show (if m.state.nextWord.decode.isRandom then m.random.advance else m.random) = _
      split <;> rfl
  | tick => rfl
  | present =>
    rw [act_present]
    rfl

theorem random_follow (m : Machine) (events : List Event) :
    (m.follow events).random = m.random.skip (m.masks events).length := by
  induction events generalizing m with
  | nil => rfl
  | cons e rest ih =>
    have hfollow : m.follow (e :: rest) = (m.act e).follow rest := rfl
    rw [hfollow, ih, random_act, RandomBytes.skip_skip, masks_cons m e rest, List.length_append]

theorem value_of_step_ok {m m' : Machine} {keys : KeySource} (h : m.step keys = .ok () m')
    (hfits : m.state.nextWord.fits "CXKK") :
    m'.state.registers.value m.state.nextWord.x = m.random.next &&& m.state.nextWord.kk := by
  obtain ⟨-, -, rfl⟩ := step_eq_ok_iff.mp h
  have hregisters : (m.advanced keys).state.registers =
      m.state.nextWord.decode.registersAfter keys m.state.fetched m.random.next := rfl
  rw [hregisters, Opcode.decode_of_fits_CXKK hfits]
  exact Registers.value_put_self _ _ m.state.nextWord.missing_x

/-! ### Two machines with random bytes of their own -/

/-- Two machines differ in the random bytes at most. -/
structure SameButRandom (m m' : Machine) : Prop where
  state : m.state = m'.state
  status : m.status = m'.status

namespace SameButRandom
variable {m m' : Machine}

theorem step (S : SameButRandom m m') {keys : KeySource}
    (h : AgreeUnder (m.masks [.step keys]) m.random m'.random) :
    Alike SameButRandom (m.step keys) (m'.step keys) := by
  have hfault : m.state.nextFault? = m'.state.nextFault? := by rw [S.state]
  refine step_alike_of S.status hfault S (fun f => ⟨S.state, rfl⟩) fun hstep => ⟨?_, S.status⟩
  rw [masks_step_of_ok hstep] at h
  have hnext : m.state.nextWord.fits "CXKK" →
      m.random.next &&& m.state.nextWord.kk = m'.random.next &&& m.state.nextWord.kk := by
    intro hfits
    rw [if_pos hfits] at h
    exact h 0 _ rfl
  show m.state.nextWord.decode.stateAfter keys m.state.fetched m.random.next =
    m'.state.nextWord.decode.stateAfter keys m'.state.fetched m'.random.next
  rw [← S.state]
  exact Instruction.stateAfter_congr hnext keys _

theorem masks_step (S : SameButRandom m m') {keys : KeySource} {R : Machine → Machine → Prop}
    (h : Alike R (m.step keys) (m'.step keys)) : m.masks [.step keys] = m'.masks [.step keys] := by
  rw [masks, masks, record, record, record, record, executed, executed, S.state]
  generalize m.step keys = r at h ⊢
  generalize m'.step keys = r' at h ⊢
  cases h <;> rfl

theorem act (S : SameButRandom m m') {e : Event} (h : AgreeUnder (m.masks [e]) m.random m'.random) :
    m.answers e = m'.answers e ∧ m.masks [e] = m'.masks [e] ∧ SameButRandom (m.act e) (m'.act e) := by
  cases e with
  | step keys =>
    have halike := S.step h
    exact ⟨congrArg (fun a => [a]) halike.answer, S.masks_step halike, halike.left⟩
  | tick =>
    refine ⟨rfl, rfl, ?_, S.status⟩
    show m.tick.state = m'.tick.state
    rw [tick_eq, tick_eq, S.state]
  | present =>
    refine ⟨rfl, rfl, ?_, ?_⟩ <;> rw [act_present, act_present, shown, shown]
    · rw [S.state]
    · exact S.status

end SameButRandom

/-- Two machines differ in the random bytes at most, and those that a schedule draws are the same under their
    masks. -/
structure SameMasked (events : List Event) (m m' : Machine) : Prop where
  same : SameButRandom m m'
  agree : AgreeUnder (m.masks events) m.random m'.random

namespace SameMasked
variable {m m' : Machine} {e : Event} {events rest : List Event}

theorem agree_cons (A : SameMasked (e :: rest) m m') :
    AgreeUnder (m.masks [e]) m.random m'.random ∧
      AgreeUnder ((m.act e).masks rest) (m.random.skip (m.masks [e]).length)
        (m'.random.skip (m.masks [e]).length) := by
  have hagree := A.agree
  rw [masks_cons] at hagree
  exact RandomBytes.agreeUnder_of_append hagree

theorem act (A : SameMasked (e :: rest) m m') :
    m.answers e = m'.answers e ∧ SameMasked rest (m.act e) (m'.act e) := by
  obtain ⟨hfirst, hrest⟩ := A.agree_cons
  obtain ⟨hanswers, hmasks, S⟩ := A.same.act hfirst
  refine ⟨hanswers, S, ?_⟩
  -- Both have drawn as many bytes, so the masks that are left meet the bytes that are left.
  rw [random_act, random_act, ← hmasks]
  exact hrest

theorem step {keys : KeySource} (A : SameMasked (.step keys :: rest) m m') :
    Alike (SameMasked rest) (m.step keys) (m'.step keys) :=
  (A.same.step A.agree_cons.1).of_left A.act.2

theorem follow (A : SameMasked (events ++ rest) m m') :
    m.record answers events = m'.record answers events ∧ SameMasked rest (m.follow events) (m'.follow events) := by
  induction events generalizing m m' with
  | nil => exact ⟨rfl, A⟩
  | cons e events ih =>
    obtain ⟨hanswer, A⟩ := A.act
    obtain ⟨hanswers, A⟩ := ih A
    rw [record, record, hanswer, hanswers]
    exact ⟨rfl, A⟩

end SameMasked

theorem run_of_agreeUnder {σ τ : Type} [FrameSink σ] [FrameSink τ] {m m' : Machine} (S : SameButRandom m m')
    (config : RunConfig) (h : AgreeUnder (m.masks (m.runEvents config)) m.random m'.random) (sink : σ) (sink' : τ) :
    (m'.run config sink').outcome = (m.run config sink).outcome ∧
      SameButRandom (m.run config sink).machine (m'.run config sink').machine := by
  have halike : Alike (Iteration.Together (SameMasked [])) (m.reference config config.budget)
      (m'.reference config config.budget) :=
    Iteration.iterate_alike (fun _ _ _ => SameMasked.step) (fun _ _ _ _ A => A.follow.2) _ rfl ⟨S, h⟩
  obtain ⟨houtcome, n, n', A, hrun, hrun'⟩ := run_alike rfl halike sink sink'
  refine ⟨houtcome, ?_, ?_⟩ <;> rw [hrun, hrun', shown, shown]
  · rw [A.same.state]
  · exact A.same.status

/-- A schedule draws one random byte for each `CXKK` that it executes, in order, and that instruction masks it; a step
    that faults draws none. So a machine with other random bytes goes the same way if these are the same under the
    masks, and if all masks are zero with any random bytes. -/
theorem randomness_masked :
    (∀ (m : Machine) (events : List Event),
      (m.follow events).random = m.random.skip ((m.record executed events).countP (·.fits "CXKK"))) ∧
    (∀ (m m' : Machine) (events : List Event) (keys : KeySource), (m.follow events).step keys = .ok () m' →
      (m.follow events).state.nextWord.fits "CXKK" →
      m'.state.registers.value (m.follow events).state.nextWord.x =
        m.random.byteAt (m.random.drawn + (m.record executed events).countP (·.fits "CXKK")) &&&
          (m.follow events).state.nextWord.kk) ∧
    (∀ (m m' : Machine) (keys : KeySource) (f : Fault), m.step keys = .error f m' → m'.random = m.random) ∧
    (∀ (m m' : Machine) (events : List Event), SameButRandom m m' →
      AgreeUnder (m.masks events) m.random m'.random →
      m.record answers events = m'.record answers events ∧ SameButRandom (m.follow events) (m'.follow events)) ∧
    ∀ (σ τ : Type) [FrameSink σ] [FrameSink τ] (m m' : Machine) (config : RunConfig) (sink : σ) (sink' : τ),
      SameButRandom m m' → (∀ mask ∈ m.masks (m.runEvents config), mask = 0) →
      (m'.run config sink').outcome = (m.run config sink).outcome ∧
        SameButRandom (m.run config sink).machine (m'.run config sink').machine := by
  have hrandom : ∀ (m : Machine) (events : List Event),
      (m.follow events).random = m.random.skip ((m.record executed events).countP (·.fits "CXKK")) := by
    intro m events
    rw [random_follow, length_masks]
  refine ⟨hrandom, fun m m' events keys hstep hfits => ?_, fun m m' keys f hstep => ?_,
    fun m m' events S h => ?_, fun σ τ _ _ m m' config sink sink' S h => ?_⟩
  · rw [value_of_step_ok hstep hfits, RandomBytes.next, hrandom]
    rfl
  · rw [eq_of_step_error hstep]
  · rw [← List.append_nil events] at h
    obtain ⟨hanswers, A⟩ := SameMasked.follow ⟨S, h⟩
    exact ⟨hanswers, A.same⟩
  · exact run_of_agreeUnder S config (RandomBytes.agreeUnder_of_zero h) sink sink'

/-- Three draws, of which the first keeps the low digit, the second the high digit and the third nothing, and a step
    that faults. -/
theorem randomness_masked_three_draws :
    ∃ m m', ofProgram [0xC0, 0x0F, 0xC1, 0xF0, 0xC2, 0x00] (.ofArray #[0x12, 0x34, 0x56]) = .ok m ∧
      ofProgram [0xC0, 0x0F, 0xC1, 0xF0, 0xC2, 0x00] (.ofArray #[0x72, 0x3F]) = .ok m' ∧
      let n := m.follow [.step .idle, .tick, .step .idle]
      let n' := m'.follow [.step .idle, .tick, .step .idle]
      SameButRandom n n' ∧
        ((m.follow [.step .idle]).advanced .idle).state.registers.value 1 = 0x30 ∧
        (∃ halted, fiveRows.step .idle = .error (.address 0x1000) halted ∧ halted.random = fiveRows.random) ∧
        (n'.run ⟨500, some 1, .released, true⟩ ({} : FrameLog)).outcome =
          (n.run ⟨500, some 1, .released, true⟩ ({} : FrameLog)).outcome := by
  obtain ⟨m, h⟩ :=
    (exists_ofProgram_iff [0xC0, 0x0F, 0xC1, 0xF0, 0xC2, 0x00] (.ofArray #[0x12, 0x34, 0x56])).mpr (by decide)
  obtain ⟨m', h'⟩ :=
    (exists_ofProgram_iff [0xC0, 0x0F, 0xC1, 0xF0, 0xC2, 0x00] (.ofArray #[0x72, 0x3F])).mpr (by decide)
  obtain ⟨-, hvalues, hfaulting, hevents, hruns⟩ := randomness_masked
  obtain ⟨hmasks, hthird, hstatus, hfault, hword, hcount⟩ :
      m.masks [.step .idle, .tick, .step .idle] = [0x0F, 0xF0] ∧
      (m.follow [.step .idle, .tick, .step .idle]).masks
        ((m.follow [.step .idle, .tick, .step .idle]).runEvents ⟨500, some 1, .released, true⟩) = [0x00] ∧
      (m.follow [.step .idle]).status = .running ∧ (m.follow [.step .idle]).state.nextFault? = none ∧
      (m.follow [.step .idle]).state.nextWord = 0xC1F0 ∧
      (m.record executed [.step .idle]).countP (·.fits "CXKK") = 1 := by
    rw [eq_of_ofProgram h]
    decide +kernel
  have hagree : AgreeUnder (m.masks [.step .idle, .tick, .step .idle]) m.random m'.random := by
    rw [hmasks, eq_of_ofProgram h, eq_of_ofProgram h']
    rintro (_ | _ | j) mask hmask
    · obtain rfl := Option.some.inj hmask
      decide
    · obtain rfl := Option.some.inj hmask
      decide
    · cases hmask
  have hsame : SameButRandom m m' := by
    rw [eq_of_ofProgram h, eq_of_ofProgram h']
    exact ⟨rfl, rfl⟩
  obtain ⟨-, S⟩ := hevents m m' _ hsame hagree
  refine ⟨m, m', h, h', S, ?_, ?_, ?_⟩
  · have hvalue := hvalues m _ [.step .idle] .idle (step_eq_ok_iff.mpr ⟨hstatus, hfault, rfl⟩)
    rw [hword, hcount, eq_of_ofProgram h] at hvalue
    rw [eq_of_ofProgram h]
    exact hvalue (by decide)
  · have hstep := step_of_running (m := fiveRows) rfl .idle
    rw [nextFault?_fiveRows] at hstep
    exact ⟨_, hstep, hfaulting _ _ _ _ hstep⟩
  · obtain ⟨houtcome, -⟩ := hruns FrameLog FrameLog (m.follow [.step .idle, .tick, .step .idle])
      (m'.follow [.step .idle, .tick, .step .idle]) ⟨500, some 1, .released, true⟩ {} {} S
      (by rw [hthird]; exact List.forall_mem_singleton.mpr rfl)
    exact houtcome

end Machine

end ChipEight
