import ChipEight.Instruction.Assembly
import Mathlib.Algebra.Group.Nat.Defs
import Mathlib.Data.List.Basic

/-! # Reading assembly text

The text of an instruction says which instruction it is. A numeral is read back digit by digit, an operand by the
characters that it starts with and by its length. A mnemonic ends at the first blank and an operand at a comma, so
the line of an instruction is found again in its text, and no two instructions are written as the same line. -/

namespace ChipEight

/-! ### Hexadecimal numerals -/

namespace Hex

/-- The characters of the sixteen digits in order. -/
def alphabet : List Char := ['0', '1', '2', '3', '4', '5', '6', '7', '8', '9', 'A', 'B', 'C', 'D', 'E', 'F']

/-- The number that digits stand for, the first of them the highest. -/
def value (cs : List Char) : Nat := cs.foldl (fun v c => 0x10 * v + alphabet.idxOf c) 0

/-- Upper-case hexadecimal digits of `n`, at least `width` of them, and more only if `n` needs more. -/
structure IsNumeral (width n : Nat) (cs : List Char) : Prop where
  digit : ∀ c ∈ cs, c ∈ alphabet
  value : value cs = n
  atLeast : width ≤ cs.length
  noMore : cs.length = width ∨ 0x10 ^ (cs.length - 1) ≤ n

variable {width m n : Nat}

theorem idxOf_digitChar : ∀ d < 16, alphabet.idxOf (Nat.digitChar d).toUpper = d := by decide

theorem digitChar_mem_alphabet : ∀ d < 16, (Nat.digitChar d).toUpper ∈ alphabet := by decide

theorem exists_digitChar_eq {b : Nat} (hb : 1 < b) (n : Nat) :
    ∀ c ∈ Nat.toDigits b n, ∃ d < b, c = Nat.digitChar d := by
  induction n using Nat.strongRecOn with
  | ind n ih =>
    by_cases hn : n < b
    · rw [Nat.toDigits_of_lt_base hn]
      exact List.forall_mem_singleton.mpr ⟨n, hn, rfl⟩
    · have hle := Nat.le_of_not_lt hn
      rw [Nat.toDigits_of_base_le hb hle, List.forall_mem_append]
      exact ⟨ih (n / b) (Nat.div_lt_self (by omega) hb),
        List.forall_mem_singleton.mpr ⟨n % b, Nat.mod_lt n (by omega), rfl⟩⟩

theorem value_singleton (c : Char) : value [c] = alphabet.idxOf c := Nat.zero_add _

theorem value_append (cs : List Char) (c : Char) : value (cs ++ [c]) = 0x10 * value cs + alphabet.idxOf c := by
  rw [value, List.foldl_append]
  rfl

theorem value_replicate_zero (k : Nat) : value (List.replicate k '0') = 0 := by
  induction k with
  | zero => rfl
  | succ k ih =>
    rw [List.replicate_succ', value_append, ih]
    rfl

theorem value_leftpad (width : Nat) (cs : List Char) : value (cs.leftpad width '0') = value cs := by
  have hzeros := value_replicate_zero (width - cs.length)
  rw [value] at hzeros
  rw [List.leftpad, value, List.foldl_append, hzeros]
  rfl

theorem value_toDigits (n : Nat) : value ((Nat.toDigits 16 n).map Char.toUpper) = n := by
  induction n using Nat.strongRecOn with
  | ind n ih =>
    by_cases hn : n < 16
    · rw [Nat.toDigits_of_lt_base hn, List.map_singleton, value_singleton]
      exact idxOf_digitChar n hn
    · rw [Nat.toDigits_of_base_le (by decide) (Nat.le_of_not_lt hn), List.map_append, List.map_singleton, value_append,
        ih (n / 16) (by omega), idxOf_digitChar _ (Nat.mod_lt _ (by decide))]
      exact Nat.div_add_mod n 16

theorem mem_alphabet_of_mem_digits {c : Char} (h : c ∈ digits width n) : c ∈ alphabet := by
  rcases List.mem_append.mp h with hc | hc
  · rw [(List.mem_replicate.mp hc).2]
    exact List.mem_cons_self
  · obtain ⟨c', hc', rfl⟩ := List.mem_map.mp hc
    obtain ⟨d, hd, rfl⟩ := exists_digitChar_eq (by decide) n c' hc'
    exact digitChar_mem_alphabet d hd

theorem mem_alphabet_of_mem_toDigits {c : Char} (h : c ∈ Nat.toDigits 10 n) : c ∈ alphabet := by
  obtain ⟨d, hd, rfl⟩ := exists_digitChar_eq (by decide) n c h
  exact (by decide : ∀ d < 10, Nat.digitChar d ∈ alphabet) d hd

theorem value_digits (width n : Nat) : value (digits width n) = n := by
  rw [digits, value_leftpad, value_toDigits]

theorem length_digits (width n : Nat) : (digits width n).length = max width (Nat.toDigits 16 n).length := by
  rw [digits, List.length_leftpad, List.length_map]

theorem length_digits_eq (h : 0 < width) (hn : n < 0x10 ^ width) : (digits width n).length = width := by
  rw [length_digits, Nat.max_eq_left]
  exact (Nat.length_toDigits_le_iff (by decide) h).mpr hn

theorem digits_injective (h : digits width m = digits width n) : m = n := by
  rw [← value_digits width m, h, value_digits]

theorem isNumeral_digits (h : 0 < width) (n : Nat) : IsNumeral width n (digits width n) := by
  refine ⟨fun c => mem_alphabet_of_mem_digits, value_digits width n, ?_, ?_⟩
  · rw [length_digits]
    exact Nat.le_max_left _ _
  · rw [length_digits]
    by_cases hfits : (Nat.toDigits 16 n).length ≤ width
    · exact .inl (Nat.max_eq_left hfits)
    · have hmore : ¬(Nat.toDigits 16 n).length ≤ (Nat.toDigits 16 n).length - 1 := by omega
      rw [Nat.length_toDigits_le_iff (by decide) (by omega)] at hmore
      rw [Nat.max_eq_right (by omega)]
      exact .inr (Nat.le_of_not_lt hmore)

end Hex

/-! ### Operands -/

namespace Operand

/-- The operand that some characters stand for. Bytes and addresses differ in their length, and so do words and
    heights. -/
def read : List Char → Operand
  | 'V' :: cs => .register (.ofNat (Hex.value cs))
  | '0' :: 'x' :: cs => if cs.length = 2 then .byte (.ofNat (Hex.value cs)) else .address (.ofNat (Hex.value cs))
  | 'I' :: _ => .index
  | '[' :: _ => .indexed
  | 'D' :: 'T' :: _ => .delay
  | 'S' :: _ => .sound
  | 'K' :: _ => .key
  | ['F'] => .glyph
  | ['B'] => .decimal
  | cs => if cs.length = 4 then .word (.ofNat (Hex.value cs)) else .height (.ofNat (Nat.ofDigitChars 10 cs 0))

theorem toList_text (o : Operand) : o.text.toList =
    match o with
    | .register x => 'V' :: Hex.digits 1 x.toNat
    | .byte kk => '0' :: 'x' :: Hex.digits 2 kk.toNat
    | .address addr => '0' :: 'x' :: Hex.digits 3 addr.toNat
    | .height n => Nat.toDigits 10 n.toNat
    | .word op => Hex.digits 4 op.toNat
    | .index => ['I']
    | .indexed => ['[', 'I', ']']
    | .delay => ['D', 'T']
    | .sound => ['S', 'T']
    | .key => ['K']
    | .glyph => ['F']
    | .decimal => ['B'] := by
  cases o <;> simp [text, Hex.text, Opcode.text, Nat.repr]

theorem read_of_digits {cs : List Char} (h : ∀ c ∈ cs, c ∈ Hex.alphabet) (hF : cs ≠ ['F']) (hB : cs ≠ ['B']) :
    read cs = if cs.length = 4 then .word (.ofNat (Hex.value cs)) else .height (.ofNat (Nat.ofDigitChars 10 cs 0)) := by
  unfold read
  split
  all_goals simp [Hex.alphabet] at h hF hB ⊢

theorem read_word (op : Opcode) : read (Hex.digits 4 op.toNat) = .word op := by
  have hlength : (Hex.digits 4 op.toNat).length = 4 := Hex.length_digits_eq (by decide) op.toNat_lt
  have hne : ∀ c, Hex.digits 4 op.toNat ≠ [c] := by
    intro c hc
    rw [hc] at hlength
    cases hlength
  rw [read_of_digits (fun c => Hex.mem_alphabet_of_mem_digits) (hne _) (hne _), if_pos hlength, Hex.value_digits,
    UInt16.ofNat_toNat]

theorem read_height (n : UInt8) : read (Nat.toDigits 10 n.toNat) = .height n := by
  have hne : ∀ c, (∀ d < 10, c ≠ Nat.digitChar d) → Nat.toDigits 10 n.toNat ≠ [c] := by
    intro c hc heq
    obtain ⟨d, hd, hcd⟩ := Hex.exists_digitChar_eq (by decide) n.toNat c (heq ▸ List.mem_cons_self)
    exact hc d hd hcd
  have hlength : (Nat.toDigits 10 n.toNat).length ≤ 3 :=
    (Nat.length_toDigits_le_iff (by decide) (by decide)).mpr (Nat.lt_trans n.toNat_lt (by decide))
  rw [read_of_digits (fun c => Hex.mem_alphabet_of_mem_toDigits) (hne _ (by decide)) (hne _ (by decide)),
    if_neg (by omega), Nat.ofDigitChars_toDigits (by decide) (by decide), UInt8.ofNat_toNat]

theorem read_text (o : Operand) : read o.text.toList = o := by
  rw [toList_text]
  cases o with
  | register x => simp only [read, Hex.value_digits, UInt8.ofNat_toNat]
  | byte kk =>
    have hlength : (Hex.digits 2 kk.toNat).length = 2 := Hex.length_digits_eq (by decide) kk.toNat_lt
    simp only [read, if_pos hlength, Hex.value_digits, UInt8.ofNat_toNat]
  | address addr =>
    have hlength : (Hex.digits 3 addr.toNat).length ≠ 2 := by
      have hleast := (Hex.isNumeral_digits (by decide : 0 < 3) addr.toNat).atLeast
      omega
    simp only [read, if_neg hlength, Hex.value_digits, UInt16.ofNat_toNat]
  | height n => exact read_height n
  | word op => exact read_word op
  | index | indexed | delay | sound | key | glyph | decimal => rfl

theorem comma_not_mem_text (o : Operand) : ',' ∉ o.text.toList := by
  have hcomma : ',' ∉ Hex.alphabet := by decide
  have hdigits : ∀ width n, ',' ∉ Hex.digits width n := fun _ _ h => hcomma (Hex.mem_alphabet_of_mem_digits h)
  have hheight : ∀ n, ',' ∉ Nat.toDigits 10 n := fun _ h => hcomma (Hex.mem_alphabet_of_mem_toDigits h)
  rw [toList_text]
  cases o <;> simp [hdigits, hheight]

end Operand

/-! ### Lines of assembly -/

section
variable {α : Type} {a : α} {rest : List α}

theorem append_cons_inj_of_not_mem {u v s t : List α} (hu : a ∉ u) (hv : a ∉ v) (h : u ++ a :: s = v ++ a :: t) :
    u = v ∧ s = t := by
  rcases List.append_eq_append_iff.mp h with ⟨c, rfl, hc⟩ | ⟨c, rfl, hc⟩
  all_goals
    cases c with
    | nil => simpa [eq_comm] using hc
    | cons b c =>
      obtain ⟨rfl, -⟩ := List.cons.inj hc
      simp at hu hv

/-- Words with a separator between them are told apart if the separator starts with what is in none of the words. -/
theorem eq_of_intercalate_eq {l l' : List (List α)} (hl : l ≠ []) (hl' : l' ≠ []) (hfree : ∀ u ∈ l, a ∉ u)
    (hfree' : ∀ u ∈ l', a ∉ u) (h : (a :: rest).intercalate l = (a :: rest).intercalate l') : l = l' := by
  induction l generalizing l' with
  | nil => exact absurd rfl hl
  | cons u l ih =>
    cases l' with
    | nil => exact absurd rfl hl'
    | cons u' l' =>
      obtain ⟨hu, hrest⟩ := List.forall_mem_cons.mp hfree
      obtain ⟨hu', hrest'⟩ := List.forall_mem_cons.mp hfree'
      rcases l with _ | ⟨v, l⟩ <;> rcases l' with _ | ⟨v', l'⟩
      · rw [List.intercalate_singleton, List.intercalate_singleton] at h
        rw [h]
      · rw [List.intercalate_singleton, List.intercalate_cons_cons] at h
        simp [h] at hu
      · rw [List.intercalate_singleton, List.intercalate_cons_cons] at h
        simp [← h] at hu'
      · rw [List.intercalate_cons_cons, List.intercalate_cons_cons, List.append_assoc, List.append_assoc,
          List.cons_append, List.cons_append] at h
        obtain ⟨rfl, htail⟩ := append_cons_inj_of_not_mem hu hu' h
        rw [ih (List.cons_ne_nil _ _) (List.cons_ne_nil _ _) hrest hrest' (List.append_cancel_left htail)]

end

namespace Assembly

theorem text_of_nil {a : Assembly} (h : a.operands = []) : a.text = a.mnemonic := by
  rw [text, h]

theorem toList_text {a : Assembly} (h : a.operands ≠ []) :
    a.text.toList =
      a.mnemonic.toList ++ ' ' :: [',', ' '].intercalate (a.operands.map fun o => o.text.toList) := by
  unfold text
  split
  · next hnil => exact absurd hnil h
  · simp [String.toList_intercalate, Function.comp_def]

theorem operands_injective {os os' : List Operand} (hos : os ≠ []) (hos' : os' ≠ [])
    (h : [',', ' '].intercalate (os.map fun o => o.text.toList) =
      [',', ' '].intercalate (os'.map fun o => o.text.toList)) : os = os' := by
  have hfree : ∀ os : List Operand, ∀ u ∈ os.map fun o => o.text.toList, ',' ∉ u := by
    intro os u hu
    obtain ⟨o, -, rfl⟩ := List.mem_map.mp hu
    exact o.comma_not_mem_text
  have hwords := eq_of_intercalate_eq (mt List.map_eq_nil_iff.mp hos) (mt List.map_eq_nil_iff.mp hos') (hfree os)
    (hfree os') h
  have hread : ∀ os : List Operand, (os.map fun o => o.text.toList).map Operand.read = os := by
    intro os
    rw [List.map_map]
    exact List.map_id'' Operand.read_text os
  rw [← hread os, hwords, hread]

/-- A line is found again in its text if its mnemonic is one word. -/
theorem eq_of_text_eq {a b : Assembly} (ha : ' ' ∉ a.mnemonic.toList) (hb : ' ' ∉ b.mnemonic.toList)
    (h : a.text = b.text) : a = b := by
  have hchars := congrArg String.toList h
  obtain ⟨mnemonic, os⟩ := a
  obtain ⟨mnemonic', os'⟩ := b
  rcases Decidable.em (os = []) with rfl | hos <;> rcases Decidable.em (os' = []) with rfl | hos'
  · obtain rfl : mnemonic = mnemonic' := h
    rfl
  · rw [text_of_nil rfl, toList_text hos'] at hchars
    simp [hchars] at ha
  · rw [toList_text hos, text_of_nil rfl] at hchars
    simp [← hchars] at hb
  · rw [toList_text hos, toList_text hos'] at hchars
    obtain ⟨hmnemonic, hoperands⟩ := append_cons_inj_of_not_mem ha hb hchars
    obtain rfl : mnemonic = mnemonic' := String.toList_inj.mp hmnemonic
    rw [operands_injective hos hos' hoperands]

end Assembly

namespace Instruction

/-- The instruction that a line of assembly stands for, if it stands for one. -/
def ofAssembly? (a : Assembly) : Option Instruction :=
  match a.mnemonic, a.operands with
  | "SYS", [.address addr] => some (.sys addr)
  | "CLS", [] => some .clear
  | "RET", [] => some .ret
  | "JP", [.address addr] => some (.jump addr)
  | "JP", [.register 0, .address addr] => some (.jumpOffset addr)
  | "CALL", [.address addr] => some (.call addr)
  | "SE", [.register x, .byte kk] => some (.skipEqByte x kk)
  | "SE", [.register x, .register y] => some (.skipEq x y)
  | "SNE", [.register x, .byte kk] => some (.skipNeByte x kk)
  | "SNE", [.register x, .register y] => some (.skipNe x y)
  | "LD", [.register x, .byte kk] => some (.loadByte x kk)
  | "LD", [.register x, .register y] => some (.move x y)
  | "LD", [.index, .address addr] => some (.loadIndex addr)
  | "LD", [.register x, .delay] => some (.readDelay x)
  | "LD", [.register x, .key] => some (.waitKey x)
  | "LD", [.delay, .register x] => some (.setDelay x)
  | "LD", [.sound, .register x] => some (.setSound x)
  | "LD", [.glyph, .register x] => some (.loadGlyph x)
  | "LD", [.decimal, .register x] => some (.storeDecimal x)
  | "LD", [.indexed, .register x] => some (.storeRegisters x)
  | "LD", [.register x, .indexed] => some (.loadRegisters x)
  | "ADD", [.register x, .byte kk] => some (.addByte x kk)
  | "ADD", [.register x, .register y] => some (.add x y)
  | "ADD", [.index, .register x] => some (.addIndex x)
  | "OR", [.register x, .register y] => some (.or x y)
  | "AND", [.register x, .register y] => some (.and x y)
  | "XOR", [.register x, .register y] => some (.xor x y)
  | "SUB", [.register x, .register y] => some (.sub x y)
  | "SUBN", [.register x, .register y] => some (.subFrom x y)
  | "SHR", [.register x] => some (.shiftRight x)
  | "SHL", [.register x] => some (.shiftLeft x)
  | "RND", [.register x, .byte kk] => some (.random x kk)
  | "DRW", [.register x, .register y, .height n] => some (.draw x y n)
  | "SKP", [.register x] => some (.skipDown x)
  | "SKNP", [.register x] => some (.skipUp x)
  | "???", [.word op] => some (.unknown op)
  | _, _ => none

theorem ofAssembly?_assembly (i : Instruction) : ofAssembly? i.assembly = some i := by
  cases i <;> rfl

theorem blank_not_mem_mnemonic (i : Instruction) : ' ' ∉ i.assembly.mnemonic.toList := by
  cases i <;> simp [assembly]

theorem text_injective {i j : Instruction} (h : i.text = j.text) : i = j := by
  have hassembly := Assembly.eq_of_text_eq i.blank_not_mem_mnemonic j.blank_not_mem_mnemonic h
  have hread := ofAssembly?_assembly i
  rw [hassembly, ofAssembly?_assembly] at hread
  exact (Option.some.inj hread).symm

end Instruction

end ChipEight
