import ChipEight.Proofs.Command
import ChipEight.Proofs.Keys

/-! # Held keys

The characters of the keys to hold are pressed one after the other, and a pressed key stays down. So all that comes of
them is the set of their keys, and neither their order nor their case nor how often they are given makes a difference.
Only when a character has no key it matters which one of these comes first. -/

namespace ChipEight

/-! ### Characters and keys -/

namespace KeyLayout
variable {c : Char} {k : UInt8}

/-- The characters on the keys, row after row. -/
def labels : List Char :=
  ['1', '2', '3', '4', 'Q', 'W', 'E', 'R', 'A', 'S', 'D', 'F', 'Z', 'X', 'C', 'V']

/-- Whether a character is on a key, or is the small letter for one that is. -/
def OnKey (c : Char) : Prop := ∃ d ∈ labels, c = d ∨ c = d.toLower

/-- What a small letter becomes goes back to it, and any other character stays as it is. -/
theorem eq_or_eq_toLower_toUpper (c : Char) : c = c.toUpper ∨ c = c.toUpper.toLower := by
  unfold Char.toUpper
  split
  · next hsmall =>
    right
    have hcapital : 'A'.val ≤ c.val + ('A'.val - 'a'.val) ∧ c.val + ('A'.val - 'a'.val) ≤ 'Z'.val := by
      obtain ⟨hle, hge⟩ := hsmall
      rw [UInt32.le_iff_toNat_le] at hle hge
      rw [UInt32.le_iff_toNat_le, UInt32.le_iff_toNat_le, UInt32.toNat_add]
      have hshift : ('A'.val - 'a'.val).toNat = 2 ^ 32 - 32 := by decide
      have ha : 'a'.val.toNat = 97 := rfl
      have hz : 'z'.val.toNat = 122 := rfl
      have hA : 'A'.val.toNat = 65 := rfl
      have hZ : 'Z'.val.toNat = 90 := rfl
      omega
    refine Char.ext ?_
    unfold Char.toLower
    rw [dif_pos hcapital]
    simp [UInt32.add_assoc]
  · exact .inl rfl

theorem onKey_iff_toUpper_mem : OnKey c ↔ c.toUpper ∈ characters := by
  constructor
  · have hall : labels.all (fun d => d.toUpper ∈ characters ∧ d.toLower.toUpper ∈ characters) = true := by decide
    rintro ⟨d, hd, hc⟩
    obtain ⟨hcapital, hsmall⟩ := of_decide_eq_true (List.all_eq_true.mp hall d hd)
    rcases hc with rfl | rfl
    · exact hcapital
    · exact hsmall
  · have hall : characters.all (· ∈ labels) = true := by decide
    intro h
    exact ⟨_, of_decide_eq_true (List.all_eq_true.mp hall _ h), eq_or_eq_toLower_toUpper c⟩

-- Found in the list, since characters are too many to be tried one by one.
instance (c : Char) : Decidable (OnKey c) := decidable_of_iff (c.toUpper ∈ characters) onKey_iff_toUpper_mem.symm

theorem key?_eq_none_iff : key? c = none ↔ ¬OnKey c := by
  rw [key?, Option.map_eq_none_iff, List.idxOf?_eq_none_iff, onKey_iff_toUpper_mem]

theorem toNat_lt_of_key? (h : key? c = some k) : k.toNat < 16 := by
  rw [key?, Option.map_eq_some_iff] at h
  obtain ⟨i, hi, rfl⟩ := h
  obtain ⟨hlength, -⟩ := List.idxOf?_eq_some_iff.mp hi
  rw [KeySource.toNat_ofNat_key hlength]
  exact hlength

end KeyLayout

/-! ### Keys that are pressed one after the other -/

theorem KeyEvent.holds_map_press_iff {k : UInt8} {keys : List UInt8} :
    Holds k (keys.map .press) ↔ k.toNat ≤ 15 ∧ k ∈ keys := by
  refine and_congr_right fun _ => ?_
  constructor
  · intro h
    have hmem := List.mem_of_find?_eq_some h
    rw [List.mem_reverse, List.mem_map] at hmem
    obtain ⟨j, hj, hpress⟩ := hmem
    rwa [← KeyEvent.press.inj hpress]
  · intro h
    cases hlast : last? k (keys.map .press) with
    | none =>
      have hnone := List.find?_eq_none.mp hlast (.press k) (List.mem_reverse.mpr (List.mem_map_of_mem h))
      exact absurd (BEq.refl k) hnone
    | some e =>
      have hmem := List.mem_of_find?_eq_some hlast
      rw [List.mem_reverse, List.mem_map] at hmem
      obtain ⟨j, -, rfl⟩ := hmem
      have haffects : affects k (.press j) = true := List.find?_some hlast
      rw [eq_of_beq haffects]

/-! ### The keypad of a list of characters -/

namespace RunConfig
variable {args : Args} {config config' : RunConfig} {hold hold' : List Char}

/-- Whether a key is among those of some characters. -/
def Denotes (hold : List Char) (k : UInt8) : Prop := ∃ c ∈ hold, KeyLayout.key? c = some k

/-- The keypad that has been told of the keys of some characters, one after the other. -/
def heldKeypad (hold : List Char) : Keypad := .told ((hold.filterMap KeyLayout.key?).map .press)

theorem isDown_heldKeypad (hold : List Char) (k : UInt8) :
    (heldKeypad hold).source.isDown k = true ↔ Denotes hold k := by
  rw [heldKeypad, Keypad.isDown_told_iff, KeyEvent.holds_map_press_iff, List.mem_filterMap]
  constructor
  · rintro ⟨-, hkey⟩
    exact hkey
  · rintro ⟨c, hc, hkey⟩
    exact ⟨Nat.le_of_lt_succ (KeyLayout.toNat_lt_of_key? hkey), c, hc, hkey⟩

theorem heldKeypad_eq_iff : heldKeypad hold = heldKeypad hold' ↔ ∀ k, Denotes hold k ↔ Denotes hold' k := by
  constructor
  · intro h k
    rw [← isDown_heldKeypad, ← isDown_heldKeypad, h]
  · intro h
    refine Keypad.eq_of_isDown_eq fun k => ?_
    rw [Bool.eq_iff_iff, isDown_heldKeypad, isDown_heldKeypad]
    exact h k

theorem ofArgs_of_onKey (hclock : args.clock ≠ 0) (h : ∀ c ∈ args.hold, KeyLayout.OnKey c) :
    ofArgs args = .ok
      { clock := args.clock, limit := limitFor args.cycles args.realtime, keypad := heldKeypad args.hold,
        realtime := args.realtime } := by
  have hmapped : ∀ c ∈ args.hold, KeyLayout.key? c ≠ none := fun c hc =>
    mt KeyLayout.key?_eq_none_iff.mp (not_not_intro (h c hc))
  rw [ofArgs_of_mapped hclock hmapped, heldKeypad, Keypad.told, List.foldl_map]
  rfl

/-! ### Characters without a key -/

theorem ofArgs_of_first_not_onKey {before after : List Char} {c : Char} (hclock : args.clock ≠ 0)
    (hsplit : args.hold = before ++ c :: after) (hbefore : ∀ b ∈ before, KeyLayout.OnKey b)
    (hc : ¬KeyLayout.OnKey c) : ofArgs args = .error (.unmappedKey c) := by
  refine ofArgs_of_unmapped hclock hsplit (fun b hb => ?_) (KeyLayout.key?_eq_none_iff.mpr hc)
  exact mt KeyLayout.key?_eq_none_iff.mp (not_not_intro (hbefore b hb))

/-- Either each character is on a key, or there is a first one that is not. -/
theorem onKey_or_first_not (hold : List Char) :
    (∀ c ∈ hold, KeyLayout.OnKey c) ∨ ∃ before c after, hold = before ++ c :: after ∧
      (∀ b ∈ before, KeyLayout.OnKey b) ∧ ¬KeyLayout.OnKey c := by
  cases hfirst : hold.find? (fun c => ¬KeyLayout.OnKey c) with
  | none =>
    left
    simpa using List.find?_eq_none.mp hfirst
  | some c =>
    right
    obtain ⟨hc, before, after, hsplit, hbefore⟩ := List.find?_eq_some_iff_append.mp hfirst
    exact ⟨before, c, after, hsplit, by simpa using hbefore, of_decide_eq_true hc⟩

theorem exists_ofArgs_iff (hclock : args.clock ≠ 0) :
    (∃ config, ofArgs args = .ok config) ↔ ∀ c ∈ args.hold, KeyLayout.OnKey c := by
  constructor
  · rintro ⟨config, h⟩
    rcases onKey_or_first_not args.hold with hkeys | ⟨before, c, after, hsplit, hbefore, hc⟩
    · exact hkeys
    · rw [ofArgs_of_first_not_onKey hclock hsplit hbefore hc] at h
      cases h
  · intro hkeys
    exact ⟨_, ofArgs_of_onKey hclock hkeys⟩

theorem ofArgs_eq_error_iff {e : ConfigError} (hclock : args.clock ≠ 0) :
    ofArgs args = .error e ↔ ∃ before c after, args.hold = before ++ c :: after ∧
      (∀ b ∈ before, KeyLayout.OnKey b) ∧ ¬KeyLayout.OnKey c ∧ e = .unmappedKey c := by
  constructor
  · intro h
    rcases onKey_or_first_not args.hold with hkeys | ⟨before, c, after, hsplit, hbefore, hc⟩
    · rw [ofArgs_of_onKey hclock hkeys] at h
      cases h
    · rw [ofArgs_of_first_not_onKey hclock hsplit hbefore hc] at h
      exact ⟨before, c, after, hsplit, hbefore, hc, (Except.error.inj h).symm⟩
  · rintro ⟨before, c, after, hsplit, hbefore, hc, rfl⟩
    exact ofArgs_of_first_not_onKey hclock hsplit hbefore hc

theorem eq_of_ofArgs_ok (h : ofArgs args = .ok config) (hclock : args.clock ≠ 0) :
    config = { clock := args.clock, limit := limitFor args.cycles args.realtime, keypad := heldKeypad args.hold,
               realtime := args.realtime } := by
  have hkeys := (exists_ofArgs_iff hclock).mp ⟨config, h⟩
  exact Except.ok.inj (h.symm.trans (ofArgs_of_onKey hclock hkeys))

/-- With a clock that stands still no list of held characters will do. Otherwise a list makes a run just if each of its
    characters is on a key, in either case; then down are the keys of its characters and no others, and lists with the
    same keys make the same run. If a character is on no key, the first such one is reported, whatever comes before it
    and after it. -/
theorem held_keys_are_a_set (args : Args) :
    (args.clock = 0 → ∀ hold, ofArgs { args with hold } = .error .zeroClock) ∧
      (args.clock ≠ 0 →
        (∀ hold, (∃ config, ofArgs { args with hold } = .ok config) ↔ ∀ c ∈ hold, KeyLayout.OnKey c) ∧
          (∀ hold config, ofArgs { args with hold } = .ok config →
            ∀ k, config.keypad.source.isDown k = true ↔ Denotes hold k) ∧
          (∀ hold hold' config config', ofArgs { args with hold } = .ok config →
            ofArgs { args with hold := hold' } = .ok config' →
            (config = config' ↔ ∀ k, Denotes hold k ↔ Denotes hold' k)) ∧
          ∀ hold e, ofArgs { args with hold } = .error e ↔ ∃ before c after, hold = before ++ c :: after ∧
            (∀ b ∈ before, KeyLayout.OnKey b) ∧ ¬KeyLayout.OnKey c ∧ e = .unmappedKey c) := by
  refine ⟨fun hclock hold => ofArgs_of_zeroClock hclock, fun hclock => ⟨fun hold => exists_ofArgs_iff hclock, ?_, ?_,
    fun hold e => ofArgs_eq_error_iff hclock⟩⟩
  · intro hold config h k
    rw [eq_of_ofArgs_ok h hclock]
    exact isDown_heldKeypad hold k
  · intro hold hold' config config' h h'
    rw [eq_of_ofArgs_ok h hclock, eq_of_ofArgs_ok h' hclock, ← heldKeypad_eq_iff]
    simp only [mk.injEq, true_and, and_true]

/-- Two keys are held, one of them twice. A long s is no S, although it becomes one as a capital. -/
theorem held_keys_are_a_set_letters :
    ofArgs { rom := "game", clock := 0, hold := ['p'] } = .error .zeroClock ∧
      (∃ config, ofArgs { rom := "game", hold := ['w', 'V', 'W'] } = .ok config ∧
        ofArgs { rom := "game", hold := ['v', 'w'] } = .ok config ∧ config.keypad.source.isDown 5 = true) ∧
      ofArgs { rom := "game", hold := ['w', 'ſ', 'p', 'v'] } = .error (.unmappedKey 'ſ') := by
  obtain ⟨hzero, -⟩ := held_keys_are_a_set { rom := "game", clock := 0 }
  obtain ⟨-, hclock⟩ := held_keys_are_a_set { rom := "game" }
  obtain ⟨hok, hdown, hsame, herror⟩ := hclock (by decide)
  have hw : ∀ c ∈ ['w'], KeyLayout.OnKey c := List.forall_mem_singleton.mpr (by decide)
  have hvw : ∀ c ∈ ['v', 'w'], KeyLayout.OnKey c := List.forall_mem_cons.mpr ⟨by decide, hw⟩
  have hVW : ∀ c ∈ ['V', 'W'], KeyLayout.OnKey c :=
    List.forall_mem_cons.mpr ⟨by decide, List.forall_mem_singleton.mpr (by decide)⟩
  have hwVW : ∀ c ∈ ['w', 'V', 'W'], KeyLayout.OnKey c := List.forall_mem_cons.mpr ⟨by decide, hVW⟩
  obtain ⟨config, h⟩ := (hok _).mpr hwVW
  obtain ⟨config', h'⟩ := (hok _).mpr hvw
  have hkeys : ∀ k, Denotes ['w', 'V', 'W'] k ↔ Denotes ['v', 'w'] k := by
    intro k
    have hcase : KeyLayout.key? 'V' = KeyLayout.key? 'v' ∧ KeyLayout.key? 'W' = KeyLayout.key? 'w' := by decide
    simp only [Denotes, List.mem_cons, List.not_mem_nil, or_false, exists_eq_or_imp, exists_eq_left, hcase]
    rw [or_comm, or_assoc, or_self]
  refine ⟨hzero rfl ['p'], ⟨config, h, ?_, ?_⟩, (herror _ _).mpr ?_⟩
  · rw [(hsame _ _ _ _ h h').mpr hkeys]
    exact h'
  · exact (hdown _ _ h 5).mpr ⟨'w', List.mem_cons_self, by decide⟩
  · exact ⟨['w'], 'ſ', ['p', 'v'], rfl, hw, by decide, rfl⟩

end RunConfig

end ChipEight
