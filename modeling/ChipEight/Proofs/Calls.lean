import ChipEight.Proofs.Bounds

/-! # Calls and returns

The call stack is a list of return addresses. A call puts the address behind it on that list, a return
goes to the latest address and takes it off, and nothing else touches the stack. So whatever a called
piece of code does, calls of its own included, as long as the stack stays deeper than before the call the
address that the call has put on it stays where it is, with all that lies below. -/

namespace ChipEight

/-! ### The list of return addresses -/

namespace CallStack

/-- The return addresses of the calls in progress, the latest first. -/
def addresses (t : CallStack) : List UInt16 := (List.range t.depth.toNat).reverse.map fun i => t.slot (i + 1)

@[simp] theorem length_addresses (t : CallStack) : t.addresses.length = t.depth.toNat := by
  simp [addresses]

theorem addresses_pushed {t : CallStack} (h : t.depth.toNat < 15) (address : UInt16) :
    (t.pushed address).addresses = address :: t.addresses := by
  have htop : (t.pushed address).slot (t.depth.toNat + 1) = address := by
    rw [slot_pushed h, if_pos rfl]
  have hbelow : ∀ i ∈ (List.range t.depth.toNat).reverse, (t.pushed address).slot (i + 1) = t.slot (i + 1) := by
    intro i hi
    rw [List.mem_reverse, List.mem_range] at hi
    rw [slot_pushed h, if_neg (by omega)]
  rw [addresses, depth_pushed h, List.range_succ, List.reverse_append, List.map_append, List.map_congr_left hbelow]
  simp [htop, addresses]

theorem addresses_popped {t : CallStack} (h : 0 < t.depth.toNat) : t.addresses = t.top :: t.popped.addresses := by
  have hdepth : t.depth.toNat = t.popped.depth.toNat + 1 := by
    rw [depth_popped h]
    omega
  rw [addresses, hdepth, List.range_succ, List.reverse_append, List.map_append, top, hdepth]
  rfl

theorem getElem?_addresses (t : CallStack) {i : Nat} (hpos : 1 ≤ i) (hle : i ≤ t.depth.toNat) :
    t.addresses[t.depth.toNat - i]? = some (t.slot i) := by
  have hlen : t.depth.toNat - i < (List.range t.depth.toNat).length := by
    rw [List.length_range]
    omega
  have hback : t.depth.toNat - 1 - (t.depth.toNat - i) = i - 1 := by omega
  have hsucc : i - 1 + 1 = i := by omega
  rw [addresses, List.getElem?_map, List.getElem?_reverse hlen, List.length_range, hback,
    List.getElem?_range (by omega), Option.map_some, hsucc]

theorem slot_congr {t u : CallStack} (h : t.addresses = u.addresses) {i : Nat} (hpos : 1 ≤ i)
    (hle : i ≤ u.depth.toNat) : t.slot i = u.slot i := by
  have hdepth : t.depth.toNat = u.depth.toNat := by
    rw [← length_addresses, h, length_addresses]
  have ht := t.getElem?_addresses hpos (by omega)
  rw [h, hdepth, u.getElem?_addresses hpos hle] at ht
  exact (Option.some.inj ht).symm

end CallStack

/-! ### One step -/

namespace Instruction

theorem eq_call_of_form? {i : Instruction} (h : i.form? = some "2NNN") : ∃ addr, i = .call addr := by
  cases i with
  | call addr => exact ⟨addr, rfl⟩
  | _ => simp [form?] at h

theorem eq_ret_of_form? {i : Instruction} (h : i.form? = some "00EE") : i = .ret := by
  cases i with
  | ret => rfl
  | _ => simp [form?] at h

theorem depth_stackAfter_le {i : Instruction} {s : State} (hfault : i.fault? s = none)
    (h : s.stack.depth.toNat ≤ 15) : (i.stackAfter s).depth.toNat ≤ 15 := by
  cases i with
  | call addr =>
    have hroom := depth_of_call hfault
    rw [stackAfter, CallStack.depth_pushed hroom]
    exact hroom
  | ret =>
    rw [stackAfter, CallStack.depth_popped (depth_of_ret hfault)]
    omega
  | _ => exact h

theorem stackAfter_of_form? {i : Instruction} (hcall : i.form? ≠ some "2NNN") (hret : i.form? ≠ some "00EE")
    (s : State) : i.stackAfter s = s.stack := by
  cases i with
  | call addr => exact absurd rfl hcall
  | ret => exact absurd rfl hret
  | _ => rfl

end Instruction

namespace Machine

/-- What a step from `m` to `m'` makes of the return addresses. -/
structure Returning (m m' : Machine) : Prop where
  call : m.state.nextWord.fits "2NNN" →
    m'.state.stack.addresses = (m.state.pc + 2) :: m.state.stack.addresses
  ret : m.state.nextWord.fits "00EE" → m.state.stack.addresses = m'.state.pc :: m'.state.stack.addresses
  other : ¬m.state.nextWord.fits "2NNN" → ¬m.state.nextWord.fits "00EE" → m'.state.stack = m.state.stack

theorem stack_advanced (keys : KeySource) (m : Machine) :
    (m.advanced keys).state.stack = m.state.nextInstruction.stackAfter m.state.fetched := rfl

theorem pc_advanced (keys : KeySource) (m : Machine) :
    (m.advanced keys).state.pc = m.state.nextInstruction.pcAfter keys m.state.fetched := rfl

theorem returning_advanced {m : Machine} (h : m.state.nextFault? = none) (keys : KeySource) :
    Returning m (m.advanced keys) := by
  have hfault := State.fault?_of_nextFault? h
  have hcall : m.state.nextWord.fits "2NNN" ↔ m.state.nextInstruction.form? = some "2NNN" :=
    Opcode.fits_iff_form? (by decide) (by decide)
  have hret : m.state.nextWord.fits "00EE" ↔ m.state.nextInstruction.form? = some "00EE" :=
    Opcode.fits_iff_form? (by decide) (by decide)
  constructor
  · intro h
    obtain ⟨addr, hi⟩ := Instruction.eq_call_of_form? (hcall.mp h)
    rw [hi] at hfault
    rw [stack_advanced, hi]
    exact CallStack.addresses_pushed (Instruction.depth_of_call hfault) _
  · intro h
    have hi := Instruction.eq_ret_of_form? (hret.mp h)
    rw [hi] at hfault
    rw [stack_advanced, pc_advanced, hi]
    exact CallStack.addresses_popped (Instruction.depth_of_ret hfault)
  · intro hnocall hnoret
    rw [hcall] at hnocall
    rw [hret] at hnoret
    exact Instruction.stackAfter_of_form? hnocall hnoret _

/-! ### Schedules -/

theorem stack_act_tick (m : Machine) : (m.act .tick).state.stack = m.state.stack := rfl

theorem stack_act_present (m : Machine) : (m.act .present).state.stack = m.state.stack := by
  rw [act_present, shown]

theorem stack_act_step (m : Machine) (keys : KeySource) :
    Returning m (m.act (.step keys)) ∨ (m.act (.step keys)).state.stack = m.state.stack := by
  cases hstatus : m.status with
  | halted f =>
    rw [act_step_of_halted hstatus]
    exact .inr rfl
  | running =>
    rw [act_step_of_running hstatus]
    cases hfault : m.state.nextFault? with
    | some f => exact .inr rfl
    | none => exact .inl (returning_advanced hfault keys)

/-- After each step of a schedule the stack is deeper than `d`. -/
def StaysDeeper (d : Nat) (m : Machine) : List Event → Prop
  | [] => True
  | .step keys :: rest =>
    d < (m.act (.step keys)).state.stack.depth.toNat ∧ (m.act (.step keys)).StaysDeeper d rest
  | e :: rest => (m.act e).StaysDeeper d rest

instance decidableStaysDeeper (d : Nat) : ∀ (m : Machine) (events : List Event), Decidable (m.StaysDeeper d events)
  | _, [] => inferInstanceAs (Decidable True)
  | m, .step keys :: rest =>
    have := decidableStaysDeeper d (m.act (.step keys)) rest
    inferInstanceAs (Decidable (_ ∧ _))
  | m, .tick :: rest => decidableStaysDeeper d (m.act .tick) rest
  | m, .present :: rest => decidableStaysDeeper d (m.act .present) rest

/-- With the stack still deeper after a step than there are addresses below `a`, the step has not taken `a` off. -/
theorem suffix_act_step {m : Machine} {keys : KeySource} {a : UInt16} {l : List UInt16}
    (h : a :: l <:+ m.state.stack.addresses) (hdeeper : l.length < (m.act (.step keys)).state.stack.depth.toNat) :
    a :: l <:+ (m.act (.step keys)).state.stack.addresses := by
  rcases m.stack_act_step keys with hreturning | hstack
  · by_cases hcall : m.state.nextWord.fits "2NNN"
    · rw [hreturning.call hcall]
      exact h.trans (List.suffix_cons _ _)
    · by_cases hret : m.state.nextWord.fits "00EE"
      · rw [hreturning.ret hret] at h
        rcases List.suffix_cons_iff.mp h with heq | hsuffix
        · obtain ⟨-, rfl⟩ := List.cons.inj heq
          rw [CallStack.length_addresses] at hdeeper
          exact absurd hdeeper (Nat.lt_irrefl _)
        · exact hsuffix
      · rwa [hreturning.other hcall hret]
  · rwa [hstack]

theorem suffix_follow {m : Machine} {events : List Event} {a : UInt16} {l : List UInt16}
    (h : a :: l <:+ m.state.stack.addresses) (hdeeper : m.StaysDeeper l.length events) :
    a :: l <:+ (m.follow events).state.stack.addresses := by
  induction events generalizing m with
  | nil => exact h
  | cons e rest ih =>
    cases e with
    | step keys => exact ih (suffix_act_step h hdeeper.1) hdeeper.2
    | tick => exact ih h hdeeper
    | present =>
      rw [← stack_act_present] at h
      exact ih h hdeeper

/-! ### From a call to the return from it -/

/-- A call by `m`, a schedule that stays deeper than `m`, and a return that brings the stack back to the depth
    that it had before the call, with `m'` the machine then. -/
structure Bracket (m : Machine) (keys : KeySource) (events : List Event) (keys' : KeySource) (m' : Machine) :
    Prop where
  isCall : m.state.nextWord.fits "2NNN"
  call : m.step keys = .ok () (m.act (.step keys))
  deeper : (m.act (.step keys)).StaysDeeper m.state.stack.depth.toNat events
  isReturn : (m.follow (.step keys :: events)).state.nextWord.fits "00EE"
  ret : (m.follow (.step keys :: events)).step keys' = .ok () m'
  back : m'.state.stack.depth = m.state.stack.depth

theorem step_eq_act {m : Machine} (h : m.status = .running) (hfault : m.state.nextFault? = none) (keys : KeySource) :
    m.step keys = .ok () (m.act (.step keys)) := by
  rw [step_eq_ok_iff, act_step_of_running h, hfault]
  exact ⟨h, rfl, rfl⟩

theorem returning_of_step {m m' : Machine} {keys : KeySource} (h : m.step keys = .ok () m') : Returning m m' := by
  obtain ⟨-, hfault, rfl⟩ := step_eq_ok_iff.mp h
  exact returning_advanced hfault keys

theorem Bracket.restores {m m' : Machine} {keys keys' : KeySource} {events : List Event}
    (B : Bracket m keys events keys' m') :
    m'.state.pc = m.state.pc + 2 ∧ m'.state.stack.addresses = m.state.stack.addresses := by
  have hcalled := (returning_of_step B.call).call B.isCall
  have hsuffix : (m.state.pc + 2) :: m.state.stack.addresses <:+
      (m.follow (.step keys :: events)).state.stack.addresses := by
    refine suffix_follow (m := m.act (.step keys)) ⟨[], hcalled.symm⟩ ?_
    rw [CallStack.length_addresses]
    exact B.deeper
  rw [(returning_of_step B.ret).ret B.isReturn] at hsuffix
  -- The return leaves as many addresses as there were, so it has taken off the one that the call put on.
  have hlength : ((m.state.pc + 2) :: m.state.stack.addresses).length =
      (m'.state.pc :: m'.state.stack.addresses).length := by
    simp [B.back]
  obtain ⟨hpc, haddresses⟩ := List.cons.inj (hsuffix.eq_of_length hlength)
  exact ⟨hpc.symm, haddresses.symm⟩

theorem follow_depth_le {m : Machine} (h : m.state.stack.depth.toNat ≤ 15) (events : List Event) :
    (m.follow events).state.stack.depth.toNat ≤ 15 := by
  refine follow_induction (act_state (P := fun s => s.stack.depth.toNat ≤ 15) (fun _ h => h) (fun _ h => h) ?_) h
    events
  intro m keys hfault h
  have hfetched := State.fault?_of_nextFault? hfault
  rw [← State.fault?_fetched] at hfetched
  exact Instruction.depth_stackAfter_le hfetched h

/-- The return from a call goes to the address behind it and finds the slots in use as they were. The stack is
    never more than a list of fifteen return addresses on which calls and returns work. -/
theorem calls_bracketed (m : Machine) (h : m.state.stack.depth.toNat ≤ 15) :
    (∀ keys events keys' m', Bracket m keys events keys' m' →
      m'.state.pc.toNat = m.state.pc.toNat + 2 ∧
        ∀ i, 1 ≤ i → i ≤ m.state.stack.depth.toNat → m'.state.stack.slot i = m.state.stack.slot i) ∧
      ∀ events, (m.follow events).state.stack.addresses.length ≤ 15 ∧
        (∀ keys m', (m.follow events).step keys = .ok () m' → Returning (m.follow events) m') ∧
        ((m.follow events).act .tick).state.stack = (m.follow events).state.stack ∧
        ((m.follow events).act .present).state.stack = (m.follow events).state.stack := by
  refine ⟨fun keys events keys' m' B => ?_, fun events => ⟨?_, ?_, ?_, ?_⟩⟩
  · obtain ⟨hpc, haddresses⟩ := B.restores
    obtain ⟨-, hfault, -⟩ := step_eq_ok_iff.mp B.call
    rw [hpc]
    exact ⟨State.toNat_pc_fetched hfault, fun i hpos hle => CallStack.slot_congr haddresses hpos hle⟩
  · rw [CallStack.length_addresses]
    exact follow_depth_le h events
  · exact fun keys m' hstep => returning_of_step hstep
  · exact stack_act_tick _
  · exact stack_act_present _

/-- Thirteen calls are in progress, and what the next call goes to is a call again. -/
def fourteenth : Machine where
  state :=
    { memory := Memory.zero.store programStart.toNat [0x22, 0x02, 0x22, 0x04, 0x00, 0xEE],
      stack := ⟨Vector.ofFn fun i => 0x300 + 2 * UInt16.ofNat i, 13⟩ }
  random := .ofArray #[]

theorem bracket_fourteenth :
    ∃ m', Bracket fourteenth .idle [.step .idle, .tick, .step .idle, .present] .idle m' := by
  have hrun : let r := fourteenth.follow [.step .idle, .step .idle, .tick, .step .idle, .present]
      fourteenth.state.nextWord.fits "2NNN" ∧ fourteenth.state.nextFault? = none ∧
        (fourteenth.act (.step .idle)).StaysDeeper 13 [.step .idle, .tick, .step .idle, .present] ∧
        r.state.nextWord.fits "00EE" ∧ r.status = .running ∧ r.state.nextFault? = none ∧
        (r.act (.step .idle)).state.stack.depth = 13 := by decide +kernel
  obtain ⟨hcall, hfault, hdeeper, hret, hstatus, hfault', hback⟩ := hrun
  exact ⟨_, hcall, step_eq_act rfl hfault .idle, hdeeper, hret, step_eq_act hstatus hfault' .idle, hback⟩

theorem calls_bracketed_fourteenth :
    ∃ m', Bracket fourteenth .idle [.step .idle, .tick, .step .idle, .present] .idle m' ∧
      m'.state.pc.toNat = 0x202 ∧ m'.state.stack.slot 13 = 0x31A := by
  obtain ⟨m', hbracket⟩ := bracket_fourteenth
  obtain ⟨hpc, hslot⟩ := (calls_bracketed fourteenth (by decide)).1 _ _ _ _ hbracket
  exact ⟨m', hbracket, hpc, (hslot 13 (by decide) (by decide)).trans (by decide)⟩

end Machine

end ChipEight
