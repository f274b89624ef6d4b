import ChipEight.Proofs.Schedule
import Mathlib.Data.List.Induction

/-! # Keys

A keypad has down the keys whose last event is a press; a key that there is not is never down, whatever the keypad is
told of it. All that a machine asks of a source is which keys are down, so in place of a keypad it can be given a table
of the same keys, or no input at all if none is down. -/

namespace ChipEight

/-! ### The lowest key down -/

namespace KeySource
variable {s t : KeySource} {k : UInt8}

/-- Whether none of the sixteen keys is down. -/
def Silent (s : KeySource) : Prop := ∀ k : UInt8, k.toNat < keyCount → s.isDown k = false

theorem toNat_ofNat_key {i : Nat} (h : i < keyCount) : (UInt8.ofNat i).toNat = i :=
  UInt8.toNat_ofNat_of_lt' (Nat.lt_trans h (by decide))

theorem mem_keys_iff : k ∈ keys ↔ k.toNat < 16 := by
  simp only [keys, List.mem_map, List.mem_range]
  constructor
  · rintro ⟨n, hn, rfl⟩
    rw [UInt8.toNat_ofNat']
    exact Nat.lt_of_le_of_lt (Nat.mod_le _ _) hn
  · intro h
    exact ⟨k.toNat, h, UInt8.ofNat_toNat⟩

theorem firstDown_eq_none_iff : s.firstDown = none ↔ s.Silent := by
  simp only [firstDown, List.find?_eq_none, mem_keys_iff, Bool.not_eq_true, Silent]

theorem firstDown_eq_some_iff :
    s.firstDown = some k ↔ k.toNat < 16 ∧ s.isDown k = true ∧ ∀ j < k, s.isDown j = false := by
  rw [firstDown, keys, List.find?_map, Option.map_eq_some_iff]
  simp only [List.find?_range_eq_some, List.mem_range, Function.comp_apply, Bool.not_eq_eq_eq_not, Bool.not_true]
  constructor
  · rintro ⟨i, ⟨hdown, hi, hlower⟩, rfl⟩
    refine ⟨by rwa [toNat_ofNat_key hi], hdown, fun j hj => ?_⟩
    rw [UInt8.lt_iff_toNat_lt, toNat_ofNat_key hi] at hj
    rw [← hlower j.toNat hj, UInt8.ofNat_toNat]
  · rintro ⟨hk, hdown, hlower⟩
    refine ⟨k.toNat, ⟨by rwa [UInt8.ofNat_toNat], hk, fun i hi => hlower _ ?_⟩, UInt8.ofNat_toNat⟩
    rw [UInt8.lt_iff_toNat_lt, toNat_ofNat_key (Nat.lt_trans hi hk)]
    exact hi

theorem isDown_ofTable (down : Vector Bool keyCount) (k : UInt8) :
    (ofTable down).isDown k = down[k.toNat]?.getD false := by
  show (if h : k.toNat < keyCount then down[k.toNat] else false) = _
  split
  · next h => rw [Vector.getElem?_eq_getElem h, Option.getD_some]
  · next h => rw [Vector.getElem?_eq_none (Nat.le_of_not_lt h), Option.getD_none]

theorem isDown_ofTable_set (down : Vector Bool keyCount) (j k : UInt8) (b : Bool) :
    (ofTable (down.setIfInBounds j.toNat b)).isDown k =
      if j = k then decide (k.toNat < 16) && b else (ofTable down).isDown k := by
  rw [isDown_ofTable, isDown_ofTable, Vector.getElem?_setIfInBounds]
  by_cases hj : j = k
  · subst hj
    by_cases hk : j.toNat < keyCount <;> simp [hk]
  · rw [if_neg hj, if_neg fun h => hj (UInt8.toNat_inj.mp h)]

/-- A table with no key down is as good as no input. -/
theorem ofTable_replicate : ofTable (Vector.replicate _ false) = idle := by
  refine congrArg mk (funext fun k => (isDown_ofTable _ k).trans ?_)
  rw [Vector.getElem?_replicate]
  split <;> rfl

theorem ext_isDown (h : ∀ k, s.isDown k = t.isDown k) : s = t := congrArg mk (funext h)

/-- A table is the only source that has what it says down of the sixteen keys, and nothing beyond. -/
theorem ofTable_eq_iff {down : Vector Bool keyCount} :
    ofTable down = s ↔ (∀ i (hi : i < keyCount), down[i] = s.isDown (UInt8.ofNat i)) ∧
      ∀ k : UInt8, keyCount ≤ k.toNat → s.isDown k = false := by
  constructor
  · rintro rfl
    refine ⟨fun i hi => ?_, fun k hk => ?_⟩
    · rw [isDown_ofTable, toNat_ofNat_key hi, Vector.getElem?_eq_getElem hi, Option.getD_some]
    · rw [isDown_ofTable, Vector.getElem?_eq_none hk, Option.getD_none]
  · rintro ⟨hkeys, hbeyond⟩
    refine ext_isDown fun k => ?_
    rw [isDown_ofTable]
    by_cases hk : k.toNat < keyCount
    · rw [Vector.getElem?_eq_getElem hk, Option.getD_some, hkeys, UInt8.ofNat_toNat]
    · rw [Vector.getElem?_eq_none (Nat.le_of_not_lt hk), Option.getD_none, hbeyond k (Nat.le_of_not_lt hk)]

theorem ofTable_injective {down down' : Vector Bool keyCount} (h : ofTable down = ofTable down') : down = down' := by
  ext i hi
  rw [(ofTable_eq_iff.mp h).1 i hi, (ofTable_eq_iff.mp rfl).1 i hi]

theorem silent_idle : idle.Silent := fun _ _ => rfl

/-! ### Sources that no machine can tell apart

A test of a key tells any two sources apart that differ, be it in a number that no key has. -/

/-- Whether every machine gives the same answers and comes to be the same, however many steps it makes with the one or
    the other source. -/
def Interchangeable (s t : KeySource) : Prop :=
  ∀ (m : Machine) (n : Nat),
    m.record Machine.answers (List.replicate n (.step s)) = m.record Machine.answers (List.replicate n (.step t)) ∧
      m.follow (List.replicate n (.step s)) = m.follow (List.replicate n (.step t))

/-- A machine that is to pass over an instruction if key `k` is down. -/
def tester (k : UInt8) : Machine where
  state := { registers := Registers.zero.put 0 k, memory := Memory.zero.store programStart.toNat [0xE0, 0x9E] }
  random := .ofArray #[]

theorem nextInstruction_tester (k : UInt8) : (tester k).state.nextInstruction = .skipDown 0 := by
  have hword : (Memory.zero.store programStart.toNat [0xE0, 0x9E]).word programStart.toNat = 0xE09E := by
    decide +kernel
  show Opcode.decode ((Memory.zero.store programStart.toNat [0xE0, 0x9E]).word programStart.toNat) = _
  rw [hword]
  rfl

theorem pc_follow_tester (s : KeySource) (k : UInt8) :
    ((tester k).follow [.step s]).state.pc = if s.isDown k then 0x204 else 0x202 := by
  have hfault : (tester k).state.nextFault? = none := by
    rw [State.nextFault?, nextInstruction_tester]
    rfl
  have hvalue : (tester k).state.registers.value 0 = k := Registers.value_put_self _ _ rfl
  show ((tester k).act (.step s)).state.pc = _
  rw [Machine.act_step_of_running rfl, hfault]
  show (tester k).state.nextInstruction.pcAfter s (tester k).state.fetched = _
  rw [nextInstruction_tester]
  show (if s.isDown ((tester k).state.registers.value 0) then _ else _) = _
  rw [hvalue]
  rfl

theorem interchangeable_iff : s.Interchangeable t ↔ s = t := by
  constructor
  · intro h
    refine ext_isDown fun k => ?_
    have hpc := congrArg (·.state.pc) (h (tester k) 1).2
    simp only [List.replicate_one, pc_follow_tester] at hpc
    cases hs : s.isDown k <;> cases ht : t.isDown k <;> simp [hs, ht] at hpc ⊢
  · rintro rfl m n
    exact ⟨rfl, rfl⟩

end KeySource

/-! ### What a keypad is told -/

/-- What a keypad can be told. -/
inductive KeyEvent where
  | press (k : UInt8)
  | release (k : UInt8)
  | releaseAll
deriving DecidableEq

namespace KeyEvent

/-- Whether an event is about a key. -/
def affects (k : UInt8) : KeyEvent → Bool
  | .press j | .release j => j == k
  | .releaseAll => true

/-- The last of the events that are about a key. -/
def last? (k : UInt8) (events : List KeyEvent) : Option KeyEvent := events.reverse.find? (affects k)

/-- Whether events leave a key down: there is such a key, and it was pressed last. -/
def Holds (k : UInt8) (events : List KeyEvent) : Prop := k.toNat ≤ 15 ∧ last? k events = some (.press k)

instance (k : UInt8) (events : List KeyEvent) : Decidable (Holds k events) :=
  inferInstanceAs (Decidable (_ ∧ _))

theorem last?_concat (k : UInt8) (events : List KeyEvent) (e : KeyEvent) :
    last? k (events ++ [e]) = if e.affects k then some e else last? k events := by
  rw [last?, List.reverse_concat, List.find?_cons]
  cases e.affects k <;> rfl

end KeyEvent

namespace Keypad

/-- The keypad after an event. -/
def handle (p : Keypad) : KeyEvent → Keypad
  | .press k => p.press k
  | .release k => p.release k
  | .releaseAll => p.releaseAll

/-- A keypad, with no key down at first, after the events that it was told of. -/
def told (events : List KeyEvent) : Keypad := events.foldl handle released

theorem told_concat (events : List KeyEvent) (e : KeyEvent) : told (events ++ [e]) = (told events).handle e :=
  List.foldl_append

theorem eq_of_isDown_eq {p q : Keypad} (h : ∀ k, p.source.isDown k = q.source.isDown k) : p = q :=
  congrArg mk (KeySource.ofTable_injective (KeySource.ext_isDown h))

theorem source_released : released.source = .idle := KeySource.ofTable_replicate

/-- An event decides about the keys that it affects and leaves the others as they are. -/
theorem isDown_handle (p : Keypad) (e : KeyEvent) (k : UInt8) :
    (p.handle e).source.isDown k =
      if e.affects k then decide (k.toNat ≤ 15 ∧ e = .press k) else p.source.isDown k := by
  cases e with
  | press j =>
    refine (KeySource.isDown_ofTable_set p.down j k true).trans ?_
    by_cases hj : j = k <;> simp [KeyEvent.affects, hj, source, Nat.lt_succ_iff]
  | release j =>
    refine (KeySource.isDown_ofTable_set p.down j k false).trans ?_
    by_cases hj : j = k <;> simp [KeyEvent.affects, hj, source]
  | releaseAll =>
    refine (congrArg (·.isDown k) source_released).trans ?_
    simp [KeyEvent.affects, KeySource.idle]

theorem isDown_told_iff (events : List KeyEvent) (k : UInt8) :
    (told events).source.isDown k = true ↔ KeyEvent.Holds k events := by
  induction events using List.reverseRecOn with
  | nil =>
    show released.source.isDown k = true ↔ _
    rw [source_released]
    simp [KeySource.idle, KeyEvent.Holds, KeyEvent.last?]
  | append_singleton events e ih =>
    rw [told_concat, isDown_handle, KeyEvent.Holds, KeyEvent.last?_concat]
    split
    · simp
    · exact ih

theorem press_of_missing (p : Keypad) {k : UInt8} (h : 15 < k.toNat) : p.press k = p :=
  congrArg mk (Vector.setIfInBounds_eq_of_size_le h)

theorem release_of_missing (p : Keypad) {k : UInt8} (h : 15 < k.toNat) : p.release k = p :=
  congrArg mk (Vector.setIfInBounds_eq_of_size_le h)

theorem source_eq_ofTable {events : List KeyEvent} {down : Vector Bool KeySource.keyCount}
    (h : ∀ i (hi : i < KeySource.keyCount), down[i] = true ↔ KeyEvent.Holds (UInt8.ofNat i) events) :
    (told events).source = .ofTable down := by
  refine (KeySource.ofTable_eq_iff.mpr ⟨fun i hi => ?_, ?_⟩).symm
  · rw [Bool.eq_iff_iff, h i hi, isDown_told_iff]
  · exact (KeySource.ofTable_eq_iff.mp (rfl : _ = (told events).source)).2

theorem source_eq_idle {events : List KeyEvent} (h : ∀ k, ¬KeyEvent.Holds k events) :
    (told events).source = .idle := by
  refine KeySource.ext_isDown fun k => ?_
  rw [KeySource.idle, Bool.eq_false_iff, ne_eq, isDown_told_iff]
  exact h k

/-- A keypad has down just the keys up to 15 that were pressed last, and the first key down is the lowest of these.
    A key beyond 15 makes no difference to it, and it is settled by the keys that are down. No machine can tell it
    from a table of these keys or, if there are none, from no input. -/
theorem holds_what_was_pressed_last (events : List KeyEvent) :
    (∀ k, (told events).source.isDown k = true ↔ KeyEvent.Holds k events) ∧
      (∀ k, (told events).source.firstDown = some k ↔
        KeyEvent.Holds k events ∧ ∀ j < k, ¬KeyEvent.Holds j events) ∧
      ((told events).source.firstDown = none ↔ ∀ k, ¬KeyEvent.Holds k events) ∧
      (∀ k : UInt8, 15 < k.toNat → (told events).press k = told events ∧ (told events).release k = told events) ∧
      (∀ p : Keypad, (∀ k, p.source.isDown k = true ↔ KeyEvent.Holds k events) → p = told events) ∧
      (∀ down : Vector Bool KeySource.keyCount,
        (∀ i (hi : i < KeySource.keyCount), down[i] = true ↔ KeyEvent.Holds (UInt8.ofNat i) events) →
        (told events).source.Interchangeable (.ofTable down)) ∧
      ((∀ k, ¬KeyEvent.Holds k events) → (told events).source.Interchangeable .idle) := by
  have hdown := isDown_told_iff events
  have hup : ∀ k, (told events).source.isDown k = false ↔ ¬KeyEvent.Holds k events := fun k => by
    rw [← hdown, Bool.not_eq_true]
  refine ⟨hdown, fun k => ?_, ?_, fun k hk => ⟨press_of_missing _ hk, release_of_missing _ hk⟩, fun p hp => ?_,
    fun down h => ?_, fun h => ?_⟩
  · rw [KeySource.firstDown_eq_some_iff]
    simp only [hdown, hup]
    constructor
    · rintro ⟨-, hk, hlower⟩
      exact ⟨hk, hlower⟩
    · rintro ⟨hk, hlower⟩
      exact ⟨Nat.lt_succ_of_le hk.1, hk, hlower⟩
  · rw [KeySource.firstDown_eq_none_iff]
    simp only [KeySource.Silent, hup]
    constructor
    · intro hsilent k hk
      exact hsilent k (Nat.lt_succ_of_le hk.1) hk
    · intro hnone k _
      exact hnone k
  · refine eq_of_isDown_eq fun k => ?_
    rw [Bool.eq_iff_iff, hp, hdown]
  · exact KeySource.interchangeable_iff.mpr (source_eq_ofTable h)
  · exact KeySource.interchangeable_iff.mpr (source_eq_idle h)

/-- What a host tells of keys, among them one that there is not. -/
def strokes : List KeyEvent := [.press 12, .press 3, .release 3, .press 42, .release 12, .press 3]

theorem holds_what_was_pressed_last_strokes :
    (∀ j < 3, ¬KeyEvent.Holds j strokes) ∧
      (told strokes).source.Interchangeable (.ofTable (.ofFn fun i => i.val == 3)) ∧
      (told (strokes ++ [.release 3])).source.Interchangeable .idle := by
  obtain ⟨-, hfirst, -, -, -, htable, -⟩ := holds_what_was_pressed_last strokes
  obtain ⟨-, -, hnone, -, -, -, hidle⟩ := holds_what_was_pressed_last (strokes ++ [.release 3])
  refine ⟨((hfirst 3).mp ?_).2, htable _ ?_, hidle (hnone.mp ?_)⟩
  · decide
  · decide
  · decide

end Keypad

end ChipEight
