import ChipEight.Proofs.Decoding
import ChipEight.Proofs.Effect

/-! # Ranges of memory

A range of memory is read and written as its bytes would be one after the other, except that it is refused as a whole:
where any of its bytes lies outside memory nothing is written, and the fault is that of the first such byte. -/

namespace ChipEight

namespace Memory

/-! ### Bytes of a range -/

theorem eq_of_byte {m m' : Memory} (h : ∀ a, a < capacity → m.byte a = m'.byte a) : m = m' := by
  refine Vector.ext fun a ha => ?_
  rw [← byte_eq_getElem m ha, ← byte_eq_getElem m' ha]
  exact h a ha

theorem getElem?_bytes (m : Memory) (address : Nat) {length i : Nat} (h : i < length) :
    (m.bytes address length)[i]? = some (m.byte (address + i)) := by
  rw [bytes, List.getElem?_map, List.getElem?_range h, Option.map_some]

theorem bytes_succ (m : Memory) (address length : Nat) :
    m.bytes address (length + 1) = m.byte address :: m.bytes (address + 1) length := by
  rw [bytes, List.range_succ_eq_map, List.map_cons, List.map_map]
  refine congrArg _ (List.map_congr_left fun i _ => ?_)
  rw [Function.comp_apply, Nat.succ_eq_add_one, Nat.add_assoc, Nat.add_comm 1]

theorem byte_store_of_getElem? (m : Memory) {address i : Nat} {data : List UInt8} {b : UInt8}
    (h : data[i]? = some b) (hi : address + i < capacity) : (m.store address data).byte (address + i) = b := by
  rw [byte_store m address data hi, if_pos (Nat.le_add_right _ _), Nat.add_sub_cancel_left,
    List.getD_eq_getElem?_getD, h, Option.getD_some]

theorem byte_store_of_outside (m : Memory) {address a : Nat} {data : List UInt8}
    (h : a < address ∨ address + data.length ≤ a) : (m.store address data).byte a = m.byte a := by
  refine Decidable.byContradiction fun hne => ?_
  have hwindow := window_of_byte_store_ne hne
  omega

theorem byte_store_congr {m m' : Memory} {a : Nat} (address : Nat) (data : List UInt8) (h : m.byte a = m'.byte a) :
    (m.store address data).byte a = (m'.store address data).byte a := by
  by_cases ha : a < capacity
  · rw [byte_store m _ _ ha, byte_store m' _ _ ha, h]
  · have hcapacity := Nat.le_of_not_lt ha
    rw [byte_of_capacity_le _ hcapacity, byte_of_capacity_le _ hcapacity]

theorem bytes_store (m : Memory) {address : Nat} {data : List UInt8} (h : address + data.length ≤ capacity) :
    (m.store address data).bytes address data.length = data := by
  refine List.ext_getElem (length_bytes _ _ _) fun i hi hi' => ?_
  have hin : address + i < capacity := Nat.lt_of_lt_of_le (Nat.add_lt_add_left hi' _) h
  have hbyte := m.byte_store_of_getElem? (List.getElem?_eq_getElem hi') hin
  have hread := (m.store address data).getElem?_bytes address hi'
  rw [hbyte, List.getElem?_eq_getElem hi] at hread
  exact Option.some.inj hread

theorem store_bytes (m : Memory) (address length : Nat) : m.store address (m.bytes address length) = m := by
  refine eq_of_byte fun a ha => ?_
  by_cases h : a < address ∨ address + length ≤ a
  · exact byte_store_of_outside m (by rwa [length_bytes])
  · obtain ⟨i, rfl⟩ : ∃ i, a = address + i := ⟨a - address, by omega⟩
    exact byte_store_of_getElem? m (getElem?_bytes m address (by omega)) ha

theorem store_of_capacity_le (m : Memory) {address : Nat} (data : List UInt8) (h : capacity ≤ address) :
    m.store address data = m :=
  eq_of_byte fun _ ha => byte_store_of_outside m (.inl (Nat.lt_of_lt_of_le ha h))

theorem store_comm (m : Memory) {a b : Nat} {data data' : List UInt8}
    (h : ∀ x, a ≤ x ∧ x < a + data.length → ¬(b ≤ x ∧ x < b + data'.length)) :
    (m.store a data).store b data' = (m.store b data').store a data := by
  refine eq_of_byte fun x _ => ?_
  by_cases hin : a ≤ x ∧ x < a + data.length
  · have hout : x < b ∨ b + data'.length ≤ x := by
      have hfree := h x hin
      omega
    rw [byte_store_of_outside (m.store a data) hout]
    exact (byte_store_congr a data (byte_store_of_outside m hout)).symm
  · have hout : x < a ∨ a + data.length ≤ x := by omega
    rw [byte_store_of_outside (m.store b data') hout]
    exact byte_store_congr b data' (byte_store_of_outside m hout)

/-! ### Byte by byte -/

/-- Reads bytes one after the other, up to the first that is refused. -/
def readEach (m : Memory) (address length : Nat) : Except Fault (List UInt8) :=
  (List.range' address length).mapM m.readByte

/-- Writes bytes one after the other, up to the first that is refused. -/
def writeEach (address : Nat) (data : List UInt8) : Faulting Memory Unit :=
  (data.zipIdx address).forM fun (b, a) => writeByte a b

theorem readByte_eq (m : Memory) (address : Nat) :
    m.readByte address = if address < capacity then .ok (m.byte address) else .error (.address address) := by
  unfold readByte
  split
  · next h => rw [byte_eq_getElem m h]
  · rfl

theorem writeByte_apply (address : Nat) (b : UInt8) (m : Memory) :
    writeByte address b m =
      if address < capacity then .ok () (m.store address [b]) else .error (.address address) m := by
  unfold writeByte
  split
  · rw [set_eq_setIfInBounds]
    rfl
  · rfl

theorem outside_succ {address : Nat} (h : address < capacity) : outside (address + 1) = outside address := by
  rw [outside, outside, Nat.max_eq_right h, Nat.max_eq_right (Nat.le_of_lt h)]

theorem outside_of_capacity_le {address : Nat} (h : capacity ≤ address) : outside address = .address address := by
  rw [outside, Nat.max_eq_left h]

section
variable (m : Memory) {address length : Nat} {data : List UInt8}

theorem readEach_succ (address length : Nat) :
    m.readEach address (length + 1) =
      m.readByte address >>= fun b => (b :: ·) <$> m.readEach (address + 1) length := by
  rw [readEach, List.range'_succ, List.mapM_cons, readEach]
  rfl

theorem readEach_of_le (h : address + length ≤ capacity) :
    m.readEach address length = .ok (m.bytes address length) := by
  induction length generalizing address with
  | zero => rfl
  | succ length ih =>
    have hfirst : address < capacity := by omega
    rw [readEach_succ, readByte_eq, if_pos hfirst, ih (by omega), bytes_succ]
    rfl

theorem readEach_of_lt (h : capacity < address + length) (hlength : 0 < length) :
    m.readEach address length = .error (outside address) := by
  induction length generalizing address with
  | zero => exact absurd hlength (Nat.lt_irrefl 0)
  | succ length ih =>
    rw [readEach_succ, readByte_eq]
    by_cases hfirst : address < capacity
    · rw [if_pos hfirst, ih (by omega) (by omega), outside_succ hfirst]
      rfl
    · rw [if_neg hfirst, outside_of_capacity_le (Nat.le_of_not_lt hfirst)]
      rfl

theorem writeEach_cons (address : Nat) (b : UInt8) (rest : List UInt8) :
    writeEach address (b :: rest) = writeByte address b >>= fun _ => writeEach (address + 1) rest := by
  rw [writeEach, List.zipIdx_cons]
  exact List.forM_cons

theorem writeEach_of_le (h : address + data.length ≤ capacity) :
    writeEach address data m = .ok () (m.store address data) := by
  induction data generalizing address m with
  | nil => rfl
  | cons b rest ih =>
    rw [List.length_cons] at h
    have hfirst : address < capacity := by omega
    simp only [writeEach_cons, bind_apply, writeByte_apply, if_pos hfirst]
    rw [ih _ (by omega)]
    rfl

/-- The bytes before the one that is refused have been written. -/
theorem writeEach_of_lt (h : capacity < address + data.length) (hdata : data ≠ []) :
    writeEach address data m = .error (outside address) (m.store address data) := by
  induction data generalizing address m with
  | nil => exact absurd rfl hdata
  | cons b rest ih =>
    rw [List.length_cons] at h
    simp only [writeEach_cons, bind_apply, writeByte_apply]
    by_cases hfirst : address < capacity
    · have hrest : rest ≠ [] := by
        rintro rfl
        exact absurd h (Nat.not_lt.mpr hfirst)
      simp only [if_pos hfirst]
      rw [ih _ (by omega) hrest, outside_succ hfirst]
      rfl
    · have hcapacity := Nat.le_of_not_lt hfirst
      simp only [if_neg hfirst, outside_of_capacity_le hcapacity, store_of_capacity_le m _ hcapacity]

end

/-! ### Ranges in words of 64 bits -/

/-- The sum of two words, unless it is too large for a word. -/
def checkedSum? (a b : UInt64) : Option UInt64 := if a ≤ a + b then some (a + b) else none

/-- Whether a range is in memory, where its end is computed as a word. -/
def checkRangeOfWords (address length : UInt64) : Except Fault Unit :=
  match checkedSum? address length with
  | some stop => if stop ≤ 4096 then .ok () else .error (outside address.toNat)
  | none => .error (outside address.toNat)

theorem le_add_iff (a b : UInt64) : a ≤ a + b ↔ a.toNat + b.toNat < UInt64.size := by
  have ha := a.toNat_lt
  have hb := b.toNat_lt
  simp only [UInt64.le_iff_toNat_le, UInt64.toNat_add, UInt64.size]
  omega

theorem checkRangeOfWords_eq (address length : UInt64) :
    checkRangeOfWords address length = checkRange address.toNat length.toNat := by
  unfold checkRangeOfWords checkedSum? checkRange
  by_cases hsum : address.toNat + length.toNat < UInt64.size
  · have hstop : address + length ≤ 4096 ↔ address.toNat + length.toNat ≤ capacity := by
      rw [UInt64.le_iff_toNat_le, UInt64.toNat_add, Nat.mod_eq_of_lt hsum]
      rfl
    simp only [if_pos ((le_add_iff address length).mpr hsum), hstop]
  · have hcapacity : ¬address.toNat + length.toNat ≤ capacity := fun h => hsum (Nat.lt_of_le_of_lt h (by decide))
    rw [if_neg (mt (le_add_iff address length).mp hsum), if_neg hcapacity]

end Memory

/-! ### The memory of a state -/

namespace State

/-- An operation on the memory of a state. -/
def onMemory {α : Type} (op : Faulting Memory α) : Faulting State α :=
  .focus (·.memory) (fun s m => { s with memory := m }) op

/-- What comes of reading a range. -/
structure ReadAsBytes (s : State) (address length : Nat) : Prop where
  inside : address + length ≤ 4096 → Memory.checkRange address length = .ok () ∧
    ∃ bytes, s.memory.readBytes address length = .ok bytes ∧ s.memory.readEach address length = .ok bytes
  outside : 4096 < address + length →
    Memory.checkRange address length = .error (.address (max address 4096)) ∧
      s.memory.readBytes address length = .error (.address (max address 4096)) ∧
      (0 < length → s.memory.readEach address length = .error (.address (max address 4096)))

/-- What comes of writing a range. -/
structure WrittenAsBytes (s : State) (address : Nat) (data : List UInt8) : Prop where
  inside : address + data.length ≤ 4096 → ∃ s', onMemory (Memory.writeBytes address data) s = .ok () s' ∧
    onMemory (Memory.writeEach address data) s = .ok () s' ∧
    s'.memory.readBytes address data.length = .ok data
  outside : 4096 < address + data.length →
    onMemory (Memory.writeBytes address data) s = .error (.address (max address 4096)) s ∧
      (data ≠ [] → ∃ s', onMemory (Memory.writeEach address data) s = .error (.address (max address 4096)) s')

/-- What comes of reading a word. -/
structure WordAsBytes (s : State) (address : Nat) : Prop where
  read : ∀ high low, s.memory.readByte address = .ok high → s.memory.readByte (address + 1) = .ok low →
    ∃ word, s.memory.readWord address = .ok word ∧ word.toNat = 256 * high.toNat + low.toNat
  refused : ∀ f, s.memory.readByte address = .error f ∨ s.memory.readByte (address + 1) = .error f →
    s.memory.readWord address = .error (.address (max address 4096))

theorem onMemory_writeBytes (s : State) {address : Nat} {data : List UInt8}
    (h : address + data.length ≤ Memory.capacity) :
    onMemory (Memory.writeBytes address data) s = .ok () { s with memory := s.memory.store address data } := by
  simp only [onMemory, Faulting.focus, Memory.writeBytes, if_pos h]

theorem readAsBytes (s : State) (address length : Nat) : s.ReadAsBytes address length where
  inside h := by
    refine ⟨if_pos h, s.memory.bytes address length, ?_, s.memory.readEach_of_le h⟩
    rw [Memory.readBytes_eq, if_pos h]
  outside h := by
    have hout : ¬address + length ≤ Memory.capacity := Nat.not_le.mpr h
    refine ⟨if_neg hout, ?_, s.memory.readEach_of_lt h⟩
    rw [Memory.readBytes_eq, if_neg hout]
    rfl

theorem writtenAsBytes (s : State) (address : Nat) (data : List UInt8) : s.WrittenAsBytes address data where
  inside h := by
    refine ⟨_, s.onMemory_writeBytes h, ?_, ?_⟩
    · simp only [onMemory, Faulting.focus, Memory.writeEach_of_le _ h]
    · rw [Memory.readBytes_eq, if_pos h, Memory.bytes_store _ h]
  outside h := by
    have hout : ¬address + data.length ≤ Memory.capacity := Nat.not_le.mpr h
    refine ⟨?_, fun hdata => ?_⟩
    · simp only [onMemory, Faulting.focus, Memory.writeBytes, if_neg hout]
      rfl
    · simp only [onMemory, Faulting.focus, Memory.writeEach_of_lt _ h hdata]
      exact ⟨_, rfl⟩

theorem writeBytes_comm (s : State) {a b : Nat} {data data' : List UInt8} (ha : a + data.length ≤ Memory.capacity)
    (hb : b + data'.length ≤ Memory.capacity)
    (h : ∀ x, a ≤ x ∧ x < a + data.length → ¬(b ≤ x ∧ x < b + data'.length)) :
    (do onMemory (Memory.writeBytes a data); onMemory (Memory.writeBytes b data')) s =
      (do onMemory (Memory.writeBytes b data'); onMemory (Memory.writeBytes a data)) s := by
  rw [bind_apply, bind_apply, onMemory_writeBytes s ha, onMemory_writeBytes s hb]
  simp only [onMemory_writeBytes _ ha, onMemory_writeBytes _ hb, Memory.store_comm _ h]

theorem wordAsBytes (s : State) (address : Nat) : s.WordAsBytes address := by
  have hword := s.memory.readWord_eq address
  have hhigh := s.memory.readByte_eq address
  have hlow := s.memory.readByte_eq (address + 1)
  by_cases h : address + 1 < Memory.capacity
  · have hfirst : address < Memory.capacity := Nat.lt_of_succ_lt h
    rw [if_pos (Nat.succ_le_of_lt h)] at hword
    rw [if_pos hfirst] at hhigh
    rw [if_pos h] at hlow
    constructor
    · intro high low hreadHigh hreadLow
      obtain rfl := Except.ok.inj (hhigh.symm.trans hreadHigh)
      obtain rfl := Except.ok.inj (hlow.symm.trans hreadLow)
      exact ⟨_, hword, Opcode.toNat_ofBytes _ _⟩
    · rintro f (hf | hf)
      · cases hhigh.symm.trans hf
      · cases hlow.symm.trans hf
  · rw [if_neg (mt Nat.lt_of_succ_le h)] at hword
    rw [if_neg h] at hlow
    refine ⟨fun high low _ hreadLow => ?_, fun _ _ => hword⟩
    cases hlow.symm.trans hreadLow

/-- Reading and writing a range comes to the same as reading and writing its bytes in order: the range is in memory
    just if all of its bytes are, also where its end is no word of 64 bits, and the fault of a range that is not is that
    of its first byte outside. Then nothing is written. What has been written is read back, and two writes that have no
    byte in common may be made in either order. -/
theorem ranges_told_by_bytes (s : State) :
    (∀ address length, s.ReadAsBytes address length) ∧
      (∀ address data, s.WrittenAsBytes address data) ∧
      (∀ (a b : Nat) (data data' : List UInt8), a + data.length ≤ 4096 → b + data'.length ≤ 4096 →
        (∀ x, a ≤ x ∧ x < a + data.length → ¬(b ≤ x ∧ x < b + data'.length)) →
        (do onMemory (Memory.writeBytes a data); onMemory (Memory.writeBytes b data')) s =
          (do onMemory (Memory.writeBytes b data'); onMemory (Memory.writeBytes a data)) s) ∧
      (∀ address, s.WordAsBytes address) ∧
      ∀ address length : UInt64,
        Memory.checkRangeOfWords address length = Memory.checkRange address.toNat length.toNat :=
  ⟨s.readAsBytes, s.writtenAsBytes, fun _ _ _ _ ha hb h => s.writeBytes_comm ha hb h, s.wordAsBytes,
    Memory.checkRangeOfWords_eq⟩

/-- Two writes fill the last bytes of memory, a third would reach beyond them, and the largest word is the address of
    no byte. -/
theorem ranges_told_by_bytes_last_bytes :
    (do onMemory (Memory.writeBytes 0xFFC [1, 2]); onMemory (Memory.writeBytes 0xFFE [3, 4])) initial =
        (do onMemory (Memory.writeBytes 0xFFE [3, 4]); onMemory (Memory.writeBytes 0xFFC [1, 2])) initial ∧
      onMemory (Memory.writeBytes 0xFFF [1, 2]) initial = .error (.address 0x1000) initial ∧
      (∃ s', onMemory (Memory.writeEach 0xFFF [1, 2]) initial = .error (.address 0x1000) s') ∧
      (∃ word, initial.memory.readWord 0 = .ok word ∧ word.toNat = 0xF090) ∧
      initial.memory.readWord 0xFFFFFFFFFFFFFFFF = .error (.address 0xFFFFFFFFFFFFFFFF) ∧
      Memory.checkRangeOfWords 0xFFFFFFFFFFFFFFFF 2 = .error (.address 0xFFFFFFFFFFFFFFFF) := by
  obtain ⟨hread, hwritten, hcomm, hword, hwords⟩ := initial.ranges_told_by_bytes
  obtain ⟨hrefused, hfirst⟩ := (hwritten 0xFFF [1, 2]).outside (by decide)
  obtain ⟨hlargest, -, -⟩ := (hread 0xFFFFFFFFFFFFFFFF 2).outside (by decide)
  refine ⟨hcomm _ _ _ _ (by decide) (by decide) fun x hx => ?_, hrefused, hfirst (by decide), ?_, ?_, ?_⟩
  · simp only [List.length_cons, List.length_nil] at hx ⊢
    omega
  · obtain ⟨hhigh, hlow⟩ : initial.memory.byte 0 = 0xF0 ∧ initial.memory.byte 1 = 0x90 := by decide +kernel
    refine (hword 0).read 0xF0 0x90 ?_ ?_
    · rw [Memory.readByte_eq, if_pos (by decide), hhigh]
    · rw [Memory.readByte_eq, if_pos (by decide), hlow]
  · exact (hword 0xFFFFFFFFFFFFFFFF).refused _ (.inl ((initial.memory.readByte_eq _).trans (if_neg (by decide))))
  · exact (hwords 0xFFFFFFFFFFFFFFFF 2).trans hlargest

end State

end ChipEight
