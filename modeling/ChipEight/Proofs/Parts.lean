import ChipEight.Sprite
import ChipEight.State

/-! # The parts of the state

Registers, call stack, memory and screen are read and written by operations that check where they are
asked to go. Each of these operations comes down to a reading or a writing that needs no check, under a
plain condition, and changes nothing where the condition fails. -/

namespace ChipEight

theorem set_eq_setIfInBounds {α : Type} {n i : Nat} (xs : Vector α n) (a : α) (h : i < n) :
    xs.set i a h = xs.setIfInBounds i a := by
  ext j hj
  rw [Vector.getElem_set, Vector.getElem_setIfInBounds]

/-! ### Registers -/

namespace Registers

/-- What a register holds; a register that does not exist holds 0. -/
def value (r : Registers) (i : UInt8) : UInt8 := r[i.toNat]?.getD 0

/-- The registers with one of them overwritten. -/
def put (r : Registers) (i b : UInt8) : Registers := r.setIfInBounds i.toNat b

/-- Whether there is no register of a number. -/
def missing (i : UInt8) : Bool := count ≤ i.toNat

theorem missing_eq_false_iff {i : UInt8} : missing i = false ↔ i.toNat < 16 := by
  simp [missing, count]

theorem read_eq (r : Registers) (i : UInt8) :
    r.read i = if missing i then .error (.address i.toNat) else .ok (r.value i) := by
  cases h : missing i
  · have hi : i.toNat < count := missing_eq_false_iff.mp h
    simp [read, value, hi]
  · have hi : ¬i.toNat < count := by simpa [missing] using h
    simp [read, hi]

theorem write_apply (r : Registers) (i b : UInt8) :
    write i b r = if missing i then .error (.address i.toNat) r else .ok () (r.put i b) := by
  cases h : missing i
  · have hi : i.toNat < count := missing_eq_false_iff.mp h
    simp [write, put, hi, set_eq_setIfInBounds]
  · have hi : ¬i.toNat < count := by simpa [missing] using h
    simp [write, hi]

theorem value_put_of_ne (r : Registers) {i k : UInt8} (b : UInt8) (h : k ≠ i) : (r.put i b).value k = r.value k := by
  have hne : i.toNat ≠ k.toNat := fun hi => h (UInt8.toNat_inj.mp hi.symm)
  rw [value, put, Vector.getElem?_setIfInBounds, if_neg hne]
  rfl

theorem value_put_self (r : Registers) {i : UInt8} (b : UInt8) (h : missing i = false) : (r.put i b).value i = b := by
  rw [value, put, Vector.getElem?_setIfInBounds, if_pos rfl, if_pos (missing_eq_false_iff.mp h), Option.getD_some]

theorem setFlag_eq (r : Registers) (on : Bool) : r.setFlag on = r.put 15 (if on then 1 else 0) :=
  set_eq_setIfInBounds r _ (by decide)

theorem value_setFlag_self (r : Registers) (on : Bool) : (r.setFlag on).value 15 = if on then 1 else 0 := by
  rw [setFlag_eq, value_put_self r _ (by decide)]

theorem value_setFlag_of_ne (r : Registers) (on : Bool) {k : UInt8} (h : k ≠ 15) :
    (r.setFlag on).value k = r.value k := by
  rw [setFlag_eq, value_put_of_ne r _ h]

theorem eq_of_value_put_ne {r : Registers} {i b k : UInt8} (h : (r.put i b).value k ≠ r.value k) : k = i :=
  Decidable.byContradiction fun hne => h (r.value_put_of_ne b hne)

theorem eq_of_value_setFlag_ne {r r' : Registers} {on : Bool} {k : UInt8} (h : (r.setFlag on).value k ≠ r'.value k) :
    k = 15 ∨ r.value k ≠ r'.value k := by
  by_cases hk : k = 15
  · exact .inl hk
  · rw [value_setFlag_of_ne r on hk] at h
    exact .inr h

theorem value_of_missing (r : Registers) {k : UInt8} (h : missing k = true) : r.value k = 0 := by
  have hcount : count ≤ k.toNat := of_decide_eq_true h
  rw [value, Vector.getElem?_eq_none hcount, Option.getD_none]

theorem value_load (r : Registers) (bytes : List UInt8) {k : UInt8} (h : missing k = false) :
    (r.load bytes).value k = bytes.getD k.toNat (r.value k) := by
  have hcount : k.toNat < count := missing_eq_false_iff.mp h
  rw [value, load, Vector.getElem?_ofFn, dif_pos hcount, Option.getD_some, value, Vector.getElem?_eq_getElem hcount,
    Option.getD_some]
  rfl

theorem value_load_of_length_le (r : Registers) {bytes : List UInt8} {k : UInt8} (h : bytes.length ≤ k.toNat) :
    (r.load bytes).value k = r.value k := by
  cases hk : missing k with
  | true => rw [value_of_missing _ hk, value_of_missing _ hk]
  | false => rw [value_load r bytes hk, List.getD_eq_getElem?_getD, List.getElem?_eq_none h, Option.getD_none]

theorem length_upTo (r : Registers) {i : UInt8} (h : missing i = false) : (r.upTo i).length = i.toNat + 1 := by
  have hi := missing_eq_false_iff.mp h
  simp only [upTo, List.length_take, Vector.length_toList, count]
  omega

theorem getElem?_upTo (r : Registers) {i k : UInt8} (h : missing i = false) (hk : k ≤ i) :
    (r.upTo i)[k.toNat]? = some (r.value k) := by
  have hk' : k.toNat ≤ i.toNat := UInt8.le_iff_toNat_le.mp hk
  have hcount : k.toNat < count := Nat.lt_of_le_of_lt hk' (missing_eq_false_iff.mp h)
  rw [upTo, List.getElem?_take_of_lt (Nat.lt_succ_of_le hk'), Vector.getElem?_toList, value,
    Vector.getElem?_eq_getElem hcount, Option.getD_some]

end Registers

/-! ### The call stack -/

namespace CallStack

/-- The return address that a slot holds. -/
def slot (s : CallStack) (i : Nat) : UInt16 := s.slots[i]?.getD 0

/-- The latest return address, in the slot that the depth points to. -/
def top (s : CallStack) : UInt16 := s.slot s.depth.toNat

/-- The stack with a return address put on. -/
def pushed (s : CallStack) (address : UInt16) : CallStack :=
  { slots := s.slots.setIfInBounds (s.depth.toNat + 1) address, depth := s.depth + 1 }

/-- The stack with the latest return address taken off. -/
def popped (s : CallStack) : CallStack := { s with depth := s.depth - 1 }

theorem push_apply (s : CallStack) (address : UInt16) :
    push address s =
      if s.depth.toNat + 1 < slotCount then .ok () (s.pushed address) else .error .stackOverflow s := by
  unfold push pushed
  split
  · rw [set_eq_setIfInBounds]
  · rfl

theorem pop_apply (s : CallStack) :
    pop s =
      if 0 < s.depth.toNat ∧ s.depth.toNat < slotCount then .ok s.top s.popped
      else .error .stackUnderflow s := by
  unfold pop top slot popped
  split
  · next h => rw [Vector.getElem?_eq_getElem h.2, Option.getD_some]
  · rfl

end CallStack

/-! ### Memory -/

namespace Memory

/-- The byte at an address, 0 outside memory. -/
def byte (m : Memory) (address : Nat) : UInt8 := m[address]?.getD 0

/-- The bytes from an address on. -/
def bytes (m : Memory) (address length : Nat) : List UInt8 :=
  (List.range length).map fun i => m.byte (address + i)

/-- The two bytes at an address as one number, the high byte first. -/
def word (m : Memory) (address : Nat) : UInt16 :=
  UInt16.ofNat (0x100 * (m.byte address).toNat + (m.byte (address + 1)).toNat)

theorem byte_eq_getElem (m : Memory) {address : Nat} (h : address < capacity) : m.byte address = m[address] := by
  rw [byte, Vector.getElem?_eq_getElem h, Option.getD_some]

@[simp] theorem length_bytes (m : Memory) (address length : Nat) : (m.bytes address length).length = length := by
  simp [bytes]

theorem readBytes_eq (m : Memory) (address length : Nat) :
    m.readBytes address length =
      if address + length ≤ capacity then .ok (m.bytes address length) else .error (outside address) := by
  unfold readBytes bytes
  split
  · next h =>
    congr 1
    refine List.ext_getElem (by simp) fun i hi _ => ?_
    have hi' : i < length := by simpa using hi
    simp [byte_eq_getElem m (show address + i < capacity by omega)]
  · rfl

theorem readWord_eq (m : Memory) (address : Nat) :
    m.readWord address =
      if address + 2 ≤ capacity then .ok (m.word address) else .error (outside address) := by
  unfold readWord word
  split
  · next h =>
    rw [byte_eq_getElem m (show address < capacity by omega),
      byte_eq_getElem m (show address + 1 < capacity by omega)]
  · rfl

theorem byte_setIfInBounds (m : Memory) (address : Nat) (b : UInt8) {a : Nat} (h : a < capacity) :
    Memory.byte (m.setIfInBounds address b) a = if address = a then b else m.byte a := by
  rw [byte, Vector.getElem?_setIfInBounds]
  split
  · next ha => rw [if_pos (ha ▸ h), Option.getD_some]
  · rfl

theorem byte_of_capacity_le (m : Memory) {a : Nat} (h : capacity ≤ a) : m.byte a = 0 := by
  rw [byte, Vector.getElem?_eq_none h, Option.getD_none]

theorem byte_store (m : Memory) (address : Nat) (data : List UInt8) {a : Nat} (h : a < capacity) :
    (m.store address data).byte a = if address ≤ a then data.getD (a - address) (m.byte a) else m.byte a := by
  induction data generalizing m address with
  | nil => simp [store]
  | cons b rest ih =>
    rw [store, ih, byte_setIfInBounds m address b h]
    by_cases heq : address = a
    · have hsucc : ¬address + 1 ≤ a := by omega
      rw [if_neg hsucc, if_pos heq, if_pos (Nat.le_of_eq heq), heq, Nat.sub_self, List.getD_cons_zero]
    · by_cases hle : address ≤ a
      · have hsucc : address + 1 ≤ a := by omega
        have hindex : a - address = a - (address + 1) + 1 := by omega
        rw [if_pos hsucc, if_neg heq, if_pos hle, hindex, List.getD_cons_succ]
      · have hsucc : ¬address + 1 ≤ a := by omega
        rw [if_neg hsucc, if_neg heq, if_neg hle]

/-- What a store changes lies in the window that it covers. -/
theorem window_of_byte_store_ne {m : Memory} {address a : Nat} {data : List UInt8}
    (h : (m.store address data).byte a ≠ m.byte a) : address ≤ a ∧ a < address + data.length := by
  by_cases hin : a < capacity
  · rw [byte_store m address data hin] at h
    split at h
    · next hle =>
      rw [List.getD_eq_getElem?_getD] at h
      refine ⟨hle, Nat.lt_of_not_le fun hge => h ?_⟩
      rw [List.getElem?_eq_none (by omega), Option.getD_none]
    · exact absurd rfl h
  · have hout : capacity ≤ a := Nat.le_of_not_lt hin
    rw [byte_of_capacity_le _ hout, byte_of_capacity_le _ hout] at h
    exact absurd rfl h

end Memory

/-! ### The screen -/

namespace Screen

/-- Whether a pixel is lit, given by its column and row. -/
def lit (s : Screen) (p : Nat × Nat) : Bool := s.pixels[p.1 + p.2 * width]?.getD false

/-- The screen with one pixel flipped. -/
def toggled (s : Screen) (p : Nat × Nat) : Screen := ⟨s.pixels.setIfInBounds (p.1 + p.2 * width) !s.lit p⟩

/-- The screen with pixels flipped one after the other. -/
def overlaid (s : Screen) (points : List (Nat × Nat)) : Screen := points.foldl toggled s

/-- Whether flipping pixels one after the other erases any. -/
def erases (s : Screen) : List (Nat × Nat) → Bool
  | [] => false
  | p :: rest => s.lit p || (s.toggled p).erases rest

theorem overlaid_append (s : Screen) (ps qs : List (Nat × Nat)) :
    s.overlaid (ps ++ qs) = (s.overlaid ps).overlaid qs := List.foldl_append

theorem erases_append (s : Screen) (ps qs : List (Nat × Nat)) :
    s.erases (ps ++ qs) = (s.erases ps || (s.overlaid ps).erases qs) := by
  induction ps generalizing s with
  | nil => rfl
  | cons p rest ih =>
    simp only [List.cons_append, erases, ih, Bool.or_assoc]
    rfl

/-- The pixels that there are. -/
def InGrid (p : Nat × Nat) : Prop := p.1 < width ∧ p.2 < height

theorem InGrid.index_lt {p : Nat × Nat} (hp : InGrid p) : p.1 + p.2 * width < width * height := by
  have hx : p.1 < 64 := hp.1
  have hy : p.2 < 32 := hp.2
  simp only [width, height]
  omega

theorem InGrid.getElem?_pixels {p : Nat × Nat} (hp : InGrid p) (s : Screen) :
    s.pixels[p.1 + p.2 * width]? = some (s.lit p) := by
  rw [lit, Vector.getElem?_eq_getElem hp.index_lt, Option.getD_some]

theorem InGrid.getElem_pixels {p : Nat × Nat} (hp : InGrid p) (s : Screen) :
    s.pixels[(⟨p.1 + p.2 * width, hp.index_lt⟩ : Fin (width * height))] = s.lit p := by
  rw [Fin.getElem_fin, lit, Vector.getElem?_eq_getElem hp.index_lt, Option.getD_some]

theorem InGrid.index_eq {p : Nat × Nat} (hp : InGrid p) :
    index p.1 p.2 = .ok ⟨p.1 + p.2 * width, hp.index_lt⟩ := dif_pos hp

theorem flip_apply (s : Screen) {p : Nat × Nat} (hp : InGrid p) :
    flip p.1 p.2 s = .ok (s.lit p) (s.toggled p) := by
  simp only [flip, hp.index_eq, hp.getElem_pixels, toggled, set_eq_setIfInBounds]

theorem flipAll_apply (s : Screen) {points : List (Nat × Nat)} (h : ∀ p ∈ points, InGrid p) :
    flipAll points s = .ok (s.erases points) (s.overlaid points) := by
  induction points generalizing s with
  | nil => rfl
  | cons p rest ih =>
    have hrest := ih (s.toggled p) fun q hq => h q (List.mem_cons_of_mem p hq)
    simp only [flipAll, bind, EStateM.bind, flip_apply s (h p List.mem_cons_self), hrest]
    rfl

end Screen

namespace Sprite

/-- The pixels that one row of a sprite covers. -/
def rowPoints (x y r : Nat) (row : UInt8) : List (Nat × Nat) :=
  (columns row).map fun c => ((x + c) % Screen.width, (y + r) % Screen.height)

theorem inGrid_of_mem_rowPoints {x y r : Nat} {row : UInt8} {p : Nat × Nat} (hp : p ∈ rowPoints x y r row) :
    Screen.InGrid p := by
  obtain ⟨_, -, rfl⟩ := List.mem_map.mp hp
  exact ⟨Nat.mod_lt _ (by decide), Nat.mod_lt _ (by decide)⟩

theorem points_eq (x y : Nat) (rows : List UInt8) :
    points x y rows = rows.zipIdx.flatMap fun (row, r) => rowPoints x y r row := rfl

/-- Row by row a sprite covers the same pixels in the same order as all at once. -/
theorem points_bytes (m : Memory) (x y start height : Nat) :
    points x y (m.bytes start height) =
      (List.range height).flatMap fun r => rowPoints x y r (m.byte (start + r)) := by
  have hzip : (m.bytes start height).zipIdx = (List.range height).map fun r => (m.byte (start + r), r) := by
    refine List.ext_getElem (by simp) fun i hi hi' => ?_
    simp [Memory.bytes]
  rw [points_eq, hzip, List.flatMap_map]

/-- However far it reaches beyond an edge, a sprite covers pixels of the screen only. -/
theorem inGrid_of_mem_points {x y : Nat} {rows : List UInt8} {p : Nat × Nat} (hp : p ∈ points x y rows) :
    Screen.InGrid p := by
  rw [points_eq] at hp
  obtain ⟨_, -, hp⟩ := List.mem_flatMap.mp hp
  exact inGrid_of_mem_rowPoints hp

theorem draw_apply (x y : Nat) (rows : List UInt8) (s : Screen) :
    draw x y rows s = .ok (s.erases (points x y rows)) (s.overlaid (points x y rows)) :=
  s.flipAll_apply fun _ => inGrid_of_mem_points

end Sprite

end ChipEight
