import ChipEight.Proofs.Frames
import ChipEight.Proofs.Stores

/-! # Memory that is not read

A step reads the two bytes of its word, and beyond these only a sprite that is drawn and the bytes that
registers are loaded with. Two machines that differ in no other byte take the same step, and what that stores
is the same in both from then on. So a byte that a schedule does not read before it stores something over it has
no part in anything that can be seen. -/

namespace ChipEight

open Faulting (Alike)

/-! ### What an event reads -/

namespace State

/-- The addresses that the next word is fetched from, if they are in memory. -/
def fetchReads (s : State) : List Nat :=
  if s.pc.toNat + 2 ≤ Memory.capacity then [s.pc.toNat, s.pc.toNat + 1] else []

/-- The addresses that an instruction reads: those of a sprite, or those that registers are loaded from. -/
def operandReads (s : State) (op : Opcode) : List Nat :=
  if op.fits "DXYN" then List.range' s.index.toNat op.n.toNat
  else if op.fits "FX65" then List.range' s.index.toNat (op.x.toNat + 1)
  else []

end State

/-- The addresses that an event reads. A halted machine reads nothing, and what a fault hits only its word. -/
def Machine.reads (m : Machine) : Event → List Nat
  | .step keys =>
    match m.status with
    | .running => m.state.fetchReads ++ (m.executed (.step keys)).flatMap m.state.operandReads
    | .halted _ => []
  | .tick | .present => []

/-! ### Instructions on another memory -/

namespace Memory
variable {memory memory' : Memory} {address n : Nat}

theorem bytes_congr (h : ∀ a ∈ List.range' address n, memory'.byte a = memory.byte a) :
    memory'.bytes address n = memory.bytes address n := by
  refine List.map_congr_left fun i hi => h _ ?_
  rw [List.mem_range'_1]
  have hlt := List.mem_range.mp hi
  omega

theorem word_congr (h : ∀ a ∈ [address, address + 1], memory'.byte a = memory.byte a) :
    memory'.word address = memory.word address := by
  rw [word, word, h address (by simp), h (address + 1) (by simp)]

end Memory

namespace Instruction
variable {memory : Memory} {op : Opcode}

theorem fault?_memory (s : State) (memory : Memory) (i : Instruction) :
    i.fault? { s with memory } = i.fault? s := by
  unfold fault?
  rfl

/-- With other contents of memory an instruction does the same, but that it stores into these, as long as the bytes
    that it reads are the same. -/
theorem stateAfter_memory (keys : KeySource) (s : State) (random : UInt8)
    (h : ∀ a ∈ s.operandReads op, memory.byte a = s.memory.byte a) :
    op.decode.stateAfter keys { s with memory } random =
      { op.decode.stateAfter keys s random with
        memory := memory.store s.index.toNat (op.decode.stored s) } := by
  have hoperands := op.operandsOf_decode
  have hdraw : op.fits "DXYN" ↔ op.decode.form? = some "DXYN" := Opcode.fits_iff_form? (by decide) (by decide)
  have hload : op.fits "FX65" ↔ op.decode.form? = some "FX65" := Opcode.fits_iff_form? (by decide) (by decide)
  simp only [State.operandReads, hdraw, hload] at h
  generalize op.decode = i at hoperands h
  cases i with
  | draw x y n =>
    obtain ⟨-, -, rfl⟩ := hoperands
    have hn := op.toNat_n_mod
    have hsprite : memory.bytes s.index.toNat op.n.toNat = s.memory.bytes s.index.toNat op.n.toNat :=
      Memory.bytes_congr (by simpa [form?] using h)
    simp [stateAfter, spritePoints, hn, hsprite]
  | loadRegisters x =>
    obtain rfl := hoperands
    have hbytes : memory.bytes s.index.toNat (op.x.toNat + 1) = s.memory.bytes s.index.toNat (op.x.toNat + 1) :=
      Memory.bytes_congr (by simpa [form?] using h)
    simp [stateAfter, hbytes]
  | _ => rfl

end Instruction

/-! ### Addresses that nothing is stored over -/

theorem Store.exists_last?_of_covers {t : Store} {history : List Store} {a : Nat} (ht : t ∈ history)
    (hcovers : t.Covers a) : ∃ b, last? history a = some b := by
  obtain ⟨hle, hlt⟩ := hcovers
  have hindex : a - t.address < t.bytes.length := by omega
  have hbyte : t.byte? a = some t.bytes[a - t.address] := by
    rw [byte?, if_pos hle, List.getElem?_eq_getElem hindex]
  have hmem : t.bytes[a - t.address] ∈ history.filterMap (·.byte? a) := List.mem_filterMap.mpr ⟨t, ht, hbyte⟩
  exact ⟨_, List.getLast?_eq_some_getLast (List.ne_nil_of_mem hmem)⟩

/-- What is left of some addresses when bytes have been stored over them. -/
def Unstored (D : Nat → Prop) (history : List Store) (a : Nat) : Prop := D a ∧ ∀ t ∈ history, ¬t.Covers a

instance (D : Nat → Prop) [DecidablePred D] (history : List Store) : DecidablePred (Unstored D history) :=
  fun _ => inferInstanceAs (Decidable (_ ∧ _))

theorem unstored_nil {D : Nat → Prop} {a : Nat} : Unstored D [] a ↔ D a := by
  simp [Unstored]

theorem unstored_append {D : Nat → Prop} {history later : List Store} {a : Nat} :
    Unstored D (history ++ later) a ↔ Unstored (Unstored D history) later a := by
  simp only [Unstored, List.mem_append, or_imp, forall_and, and_assoc]

/-- Storing the same over two memories makes them equal where it is stored. -/
theorem Memory.byte_foldl_put_congr {D : Nat → Prop} {memory memory' : Memory} {history : List Store}
    (h : ∀ a, ¬D a → memory'.byte a = memory.byte a) {a : Nat} (ha : ¬Unstored D history a) :
    (history.foldl put memory').byte a = (history.foldl put memory).byte a := by
  by_cases hin : a < capacity
  · rw [byte_foldl_put _ _ hin, byte_foldl_put _ _ hin]
    by_cases hD : D a
    · obtain ⟨t, ht, hcovers⟩ : ∃ t ∈ history, t.Covers a :=
        Decidable.byContradiction fun hnone => ha ⟨hD, fun t ht hcovers => hnone ⟨t, ht, hcovers⟩⟩
      obtain ⟨b, hb⟩ := Store.exists_last?_of_covers ht hcovers
      rw [hb, Option.getD_some, Option.getD_some]
    · rw [h a hD]
  · rw [byte_of_capacity_le _ (Nat.le_of_not_lt hin), byte_of_capacity_le _ (Nat.le_of_not_lt hin)]

/-! ### Machines that differ in memory only -/

namespace Machine
variable {D E : Nat → Prop} {m m' : Machine} {keys : KeySource} {e : Event} {rest : List Event}

theorem mem_reads_of_fetch (h : m.status = .running) {a : Nat} (ha : a ∈ m.state.fetchReads) :
    a ∈ m.reads (.step keys) := by
  rw [reads, h]
  exact List.mem_append_left _ ha

theorem mem_reads_of_operand (h : m.step keys = .ok () m') {a : Nat}
    (ha : a ∈ m.state.operandReads m.state.nextWord) : a ∈ m.reads (.step keys) := by
  obtain ⟨hstatus, -, -⟩ := step_eq_ok_iff.mp h
  rw [reads, hstatus, executed_of_step_ok h]
  exact List.mem_append_right _ (List.mem_flatMap.mpr ⟨_, List.mem_singleton_self _, ha⟩)

theorem pc_of_step_ok (h : m.step keys = .ok () m') : m.state.pc.toNat + 2 ≤ Memory.capacity := by
  obtain ⟨-, hfault, -⟩ := step_eq_ok_iff.mp h
  rw [State.nextFault?] at hfault
  split at hfault
  · assumption
  · cases hfault

/-- Two machines that are equal but for some bytes of memory, which lie at addresses of `D`. -/
structure SameOutside (D : Nat → Prop) (m m' : Machine) : Prop where
  rest : m' = { m with state.memory := m'.state.memory }
  memory : ∀ a, ¬D a → m'.state.memory.byte a = m.state.memory.byte a

namespace SameOutside

theorem state (S : SameOutside D m m') : m'.state = { m.state with memory := m'.state.memory } :=
  congrArg (·.state) S.rest

theorem status (S : SameOutside D m m') : m'.status = m.status := congrArg (·.status) S.rest

theorem random (S : SameOutside D m m') : m'.random = m.random := congrArg (·.random) S.rest

theorem pc (S : SameOutside D m m') : m'.state.pc = m.state.pc := congrArg (·.pc) S.state

theorem mono (h : ∀ a, D a → E a) (S : SameOutside D m m') : SameOutside E m m' :=
  ⟨S.rest, fun a ha => S.memory a (mt (h a) ha)⟩

theorem nextWord (S : SameOutside D m m') (hfetch : ∀ a ∈ m.state.fetchReads, ¬D a)
    (hpc : m.state.pc.toNat + 2 ≤ Memory.capacity) : m'.state.nextWord = m.state.nextWord := by
  rw [State.fetchReads, if_pos hpc] at hfetch
  rw [State.nextWord, State.nextWord, S.pc]
  exact Memory.word_congr fun a ha => S.memory a (hfetch a ha)

theorem nextFault? (S : SameOutside D m m') (hfetch : ∀ a ∈ m.state.fetchReads, ¬D a) :
    m'.state.nextFault? = m.state.nextFault? := by
  rw [State.nextFault?, State.nextFault?, S.pc]
  by_cases hpc : m.state.pc.toNat + 2 ≤ Memory.capacity
  · rw [if_pos hpc, if_pos hpc, State.nextInstruction, State.nextInstruction, S.nextWord hfetch hpc, S.state]
    exact Instruction.fault?_memory _ _ _
  · rw [if_neg hpc, if_neg hpc]

theorem store? (S : SameOutside D m m') : m'.state.store? = m.state.store? := by
  rw [S.state]
  rfl

theorem advanced (S : SameOutside D m m') (hword : m'.state.nextWord = m.state.nextWord)
    (hoperands : ∀ a ∈ m.state.operandReads m.state.nextWord, ¬D a) :
    m'.advanced keys = { m.advanced keys with state.memory := (m'.advanced keys).state.memory } := by
  have hstate := Instruction.stateAfter_memory keys m.state.fetched m.random.next
    fun a ha => S.memory a (hoperands a ha)
  have hfetched : m'.state.fetched = { m.state.fetched with memory := m'.state.memory } := by
    rw [S.state]
    rfl
  have hcpu : m'.toCpu.advanced keys = m.state.nextInstruction.effect keys
      { state := { m.state.fetched with memory := m'.state.memory }, random := m.random } := by
    rw [Cpu.advanced, State.nextInstruction, hword, hfetched, S.random]
    rfl
  rw [Machine.advanced, hcpu, Instruction.effect, State.nextInstruction, hstate, S.status]
  rfl

/-- The machines take the same step, whatever it stores. -/
theorem step_alike (S : SameOutside D m m') (hreads : ∀ a ∈ m.reads (.step keys), ¬D a) :
    Alike (SameOutside fun _ => True) (m.step keys) (m'.step keys) := by
  have hany : SameOutside (fun _ => True) m m' := S.mono fun _ _ => trivial
  cases hstatus : m.status with
  | halted f =>
    have hstatus' : m'.status = .halted f := S.status.trans hstatus
    rw [step_of_halted hstatus, step_of_halted hstatus']
    exact .error hany
  | running =>
    have hfetch : ∀ a ∈ m.state.fetchReads, ¬D a := fun a ha => hreads a (mem_reads_of_fetch hstatus ha)
    refine step_alike_of S.status.symm (S.nextFault? hfetch).symm hany (fun f => ?_) fun hok => ?_
    · exact ⟨congrArg (fun m => { m with status := .halted f }) S.rest, fun _ h => absurd trivial h⟩
    · have hword := S.nextWord hfetch (pc_of_step_ok hok)
      exact ⟨S.advanced hword fun a ha => hreads a (mem_reads_of_operand hok ha), fun _ h => absurd trivial h⟩

theorem answers (S : SameOutside D m m') (hreads : ∀ a ∈ m.reads e, ¬D a) : m'.answers e = m.answers e := by
  cases e with
  | step keys => rw [Machine.answers, Machine.answers, (S.step_alike hreads).answer]
  | tick | present => rfl

theorem executed (S : SameOutside D m m') (hreads : ∀ a ∈ m.reads e, ¬D a) : m'.executed e = m.executed e := by
  cases e with
  | step keys =>
    have halike := S.step_alike hreads
    generalize hr : m.step keys = r at halike
    generalize hr' : m'.step keys = r' at halike
    cases halike with
    | error h => rw [executed_of_step_error hr, executed_of_step_error hr']
    | ok h =>
      obtain ⟨hstatus, -, -⟩ := step_eq_ok_iff.mp hr
      have hfetch : ∀ a ∈ m.state.fetchReads, ¬D a := fun a ha => hreads a (mem_reads_of_fetch hstatus ha)
      rw [executed_of_step_ok hr, executed_of_step_ok hr', S.nextWord hfetch (pc_of_step_ok hr)]
  | tick | present => rfl

theorem stored (S : SameOutside D m m') (hreads : ∀ a ∈ m.reads e, ¬D a) : m'.stored e = m.stored e := by
  rw [Machine.stored, Machine.stored, S.executed hreads, S.store?]

theorem handed (S : SameOutside D m m') (e : Event) : m'.handed e = m.handed e := by
  cases e with
  | step keys => rfl
  | tick => rfl
  | present =>
    rw [handed_present, handed_present, S.rest]
    rfl

theorem act (S : SameOutside D m m') (hreads : ∀ a ∈ m.reads e, ¬D a) :
    SameOutside (Unstored D (m.stored e)) (m.act e) (m'.act e) := by
  refine ⟨?_, fun a ha => ?_⟩
  · cases e with
    | step keys => exact (S.step_alike hreads).left.rest
    | tick => exact congrArg tick S.rest
    | present =>
      rw [act_present, act_present]
      exact congrArg shown S.rest
  · rw [memory_act, memory_act, S.stored hreads]
    exact Memory.byte_foldl_put_congr S.memory ha

theorem step (S : SameOutside D m m') (hreads : ∀ a ∈ m.reads (.step keys), ¬D a) :
    Alike (SameOutside (Unstored D (m.stored (.step keys)))) (m.step keys) (m'.step keys) :=
  (S.step_alike hreads).of_left (S.act hreads)

end SameOutside

/-! ### Schedules that store before they read -/

/-- Whatever an event of a schedule reads at addresses of `D`, something has been stored over it before. -/
def StoresBeforeReads (m : Machine) (D : Nat → Prop) (events : List Event) : Prop :=
  ∀ before e after, events = before ++ e :: after →
    ∀ a ∈ (m.follow before).reads e, ¬Unstored D (m.record stored before) a

theorem storesBeforeReads_nil : m.StoresBeforeReads D [] := by
  intro before e after h
  cases before <;> cases h

theorem storesBeforeReads_cons :
    m.StoresBeforeReads D (e :: rest) ↔
      (∀ a ∈ m.reads e, ¬D a) ∧ (m.act e).StoresBeforeReads (Unstored D (m.stored e)) rest := by
  constructor
  · intro h
    refine ⟨fun a ha => ?_, fun before e' after hrest a ha => ?_⟩
    · exact mt unstored_nil.mpr (h [] e rest rfl a ha)
    · exact mt unstored_append.mpr (h (e :: before) e' after (congrArg (e :: ·) hrest) a ha)
  · rintro ⟨hreads, hafter⟩ before e' after h a ha
    cases before with
    | nil =>
      obtain ⟨rfl, rfl⟩ := List.cons.inj h
      exact mt unstored_nil.mp (hreads a ha)
    | cons e'' before =>
      obtain ⟨rfl, rfl⟩ := List.cons.inj h
      exact mt unstored_append.mp (hafter before e' after rfl a ha)

/-- Two machines go through a schedule alike: they answer the same and show the same frames, and at its end they are
    equal but for bytes at addresses of `D` that nothing has been stored over. -/
structure SameCourse (D : Nat → Prop) (events : List Event) (m m' : Machine) : Prop where
  answers : m'.record answers events = m.record answers events
  frames : m'.record handed events = m.record handed events
  left : SameOutside (Unstored D (m.record stored events)) (m.follow events) (m'.follow events)

theorem SameOutside.follow {events : List Event} (S : SameOutside D m m') (h : m.StoresBeforeReads D events) :
    SameCourse D events m m' := by
  induction events generalizing m m' D with
  | nil => exact ⟨rfl, rfl, S.mono fun _ => unstored_nil.mpr⟩
  | cons e rest ih =>
    obtain ⟨hreads, hafter⟩ := storesBeforeReads_cons.mp h
    have C := ih (S.act hreads) hafter
    refine ⟨?_, ?_, C.left.mono fun _ => unstored_append.mpr⟩
    · rw [record, record, S.answers hreads, C.answers]
    · rw [record, record, S.handed e, C.frames]

theorem sameOutside_of_ofProgram {program program' : List UInt8} {random : RandomBytes}
    (h : ofProgram program random = .ok m) (h' : ofProgram program' random = .ok m') :
    SameOutside (fun a => loadImage program a ≠ loadImage program' a) m m' := by
  refine ⟨?_, fun a ha => ?_⟩
  · rw [eq_of_ofProgram h, eq_of_ofProgram h']
  · by_cases hin : a < Memory.capacity
    · rw [byte_of_ofProgram h hin, byte_of_ofProgram h' hin, Decidable.not_not.mp ha]
    · rw [Memory.byte_of_capacity_le _ (Nat.le_of_not_lt hin), Memory.byte_of_capacity_le _ (Nat.le_of_not_lt hin)]

/-- Two machines that differ in bytes of memory only, at addresses of `D`, take the same step if that reads none of
    them, and differ afterwards in no byte that the step has stored. They go alike through every schedule that stores
    something over these bytes before it reads them, and so do two programs that are loaded with different bytes at such
    addresses only. -/
theorem unread_memory_invisible :
    (∀ (D : Nat → Prop) (m m' : Machine), SameOutside D m m' →
      (∀ keys, (∀ a ∈ m.reads (.step keys), ¬D a) →
        Alike (SameOutside (Unstored D (m.stored (.step keys)))) (m.step keys) (m'.step keys)) ∧
      ∀ events, m.StoresBeforeReads D events → SameCourse D events m m') ∧
      ∀ (program program' : List UInt8) (random : RandomBytes) (m m' : Machine),
        ofProgram program random = .ok m → ofProgram program' random = .ok m' →
        let D := fun a => loadImage program a ≠ loadImage program' a
        ∀ events, m.StoresBeforeReads D events → SameCourse D events m m' :=
  ⟨fun _ _ _ S => ⟨fun _ hreads => S.step hreads, fun _ h => S.follow h⟩,
    fun _ _ _ _ _ h h' _ hstores => (sameOutside_of_ofProgram h h').follow hstores⟩

/-- A register is stored over the first of the two bytes in which the programs differ, and then drawn. -/
theorem unread_memory_invisible_sprite :
    ∃ m m', ofProgram [0x60, 0x81, 0xA2, 0x08, 0xF0, 0x55, 0xD0, 0x01, 0xAA, 0xBB] (.ofArray #[]) = .ok m ∧
      ofProgram [0x60, 0x81, 0xA2, 0x08, 0xF0, 0x55, 0xD0, 0x01, 0xCC, 0xDD] (.ofArray #[]) = .ok m' ∧
      let events := [.step .idle, .step .idle, .step .idle, .tick, .step .idle, .present]
      m.state.memory.byte 0x208 ≠ m'.state.memory.byte 0x208 ∧
        (m.follow events).state.memory.byte 0x208 = (m'.follow events).state.memory.byte 0x208 ∧
        (m.record handed events).length = 1 ∧ m'.record handed events = m.record handed events := by
  obtain ⟨m, h⟩ := (exists_ofProgram_iff
    [0x60, 0x81, 0xA2, 0x08, 0xF0, 0x55, 0xD0, 0x01, 0xAA, 0xBB] (.ofArray #[])).mpr (by decide)
  obtain ⟨m', h'⟩ := (exists_ofProgram_iff
    [0x60, 0x81, 0xA2, 0x08, 0xF0, 0x55, 0xD0, 0x01, 0xCC, 0xDD] (.ofArray #[])).mpr (by decide)
  obtain ⟨hstores, hstored, hcount⟩ :
      m.StoresBeforeReads (fun a => loadImage [0x60, 0x81, 0xA2, 0x08, 0xF0, 0x55, 0xD0, 0x01, 0xAA, 0xBB] a ≠
          loadImage [0x60, 0x81, 0xA2, 0x08, 0xF0, 0x55, 0xD0, 0x01, 0xCC, 0xDD] a)
        [.step .idle, .step .idle, .step .idle, .tick, .step .idle, .present] ∧
      (∃ t ∈ m.record stored [.step .idle, .step .idle, .step .idle, .tick, .step .idle, .present],
        t.Covers 0x208) ∧
      (m.record handed [.step .idle, .step .idle, .step .idle, .tick, .step .idle, .present]).length = 1 := by
    simp only [storesBeforeReads_cons, storesBeforeReads_nil, and_true]
    rw [eq_of_ofProgram h]
    decide +kernel
  obtain ⟨-, hprograms⟩ := unread_memory_invisible
  have C := hprograms _ _ _ m m' h h' _ hstores
  obtain ⟨t, ht, hcovers⟩ := hstored
  refine ⟨m, m', h, h', ?_, (C.left.memory 0x208 fun hleft => hleft.2 t ht hcovers).symm, hcount, C.frames⟩
  rw [byte_of_ofProgram h (by decide), byte_of_ofProgram h' (by decide)]
  decide

end Machine

end ChipEight
