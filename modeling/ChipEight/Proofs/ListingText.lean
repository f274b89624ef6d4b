import ChipEight.Listing
import ChipEight.Proofs.AssemblyText
import ChipEight.Proofs.Decoding

/-! # Reading a listing

A listing tells the program that it lists and where that lies. Each line starts with its address and the digits of
its word or byte, both ended by blanks, and a word has four digits where a byte has two. -/

namespace ChipEight

theorem Opcode.ofBytes_injective {high low high' low' : UInt8} (h : ofBytes high low = ofBytes high' low') :
    high = high' ∧ low = low' := by
  have hlow := low.toNat_lt
  have hlow' := low'.toNat_lt
  have heq := toNat_ofBytes high low
  rw [h, toNat_ofBytes] at heq
  exact ⟨UInt8.toNat_inj.mp (by omega), UInt8.toNat_inj.mp (by omega)⟩

namespace Listing

/-! ### Lines -/

namespace Line

/-- The address of the word or the byte on a line. -/
def address : Line → Nat
  | .word address _ | .byte address _ => address

/-- The digits of the word or the byte on a line. -/
def digits : Line → List Char
  | .word _ op => Hex.digits 4 op.toNat
  | .byte _ value => Hex.digits 2 value.toNat

theorem length_digits (line : Line) :
    line.digits.length = match line with
      | .word .. => 4
      | .byte .. => 2 := by
  cases line with
  | word address op => exact Hex.length_digits_eq (by decide) op.toNat_lt
  | byte address value => exact Hex.length_digits_eq (by decide) value.toNat_lt

theorem exists_toList_text (line : Line) :
    ∃ rest, line.text.toList = Hex.digits 3 line.address ++ ' ' :: ' ' :: (line.digits ++ ' ' :: rest) := by
  cases line with
  | word address op =>
    exact ⟨' ' :: op.decode.text.toList, by simp [text, Line.address, digits, Hex.text, Opcode.text]⟩
  | byte address value =>
    exact ⟨[' ', ' ', ' ', 'D', 'B', ' ', '0', 'x'] ++ Hex.digits 2 value.toNat,
      by simp [text, Line.address, digits, Hex.text]⟩

theorem text_injective : Function.Injective text := by
  intro line line' h
  have hblank : ' ' ∉ Hex.alphabet := by decide
  have hdigits : ∀ {width n}, ' ' ∉ Hex.digits width n := fun h => hblank (Hex.mem_alphabet_of_mem_digits h)
  have hfree : ∀ line : Line, ' ' ∉ line.digits := by
    intro line
    cases line <;> exact hdigits
  obtain ⟨rest, hline⟩ := line.exists_toList_text
  obtain ⟨rest', hline'⟩ := line'.exists_toList_text
  rw [h, hline'] at hline
  obtain ⟨haddress, htail⟩ := append_cons_inj_of_not_mem hdigits hdigits hline
  obtain ⟨hsame, -⟩ := append_cons_inj_of_not_mem (hfree line') (hfree line) (List.cons.inj htail).2
  have haddress := Hex.digits_injective haddress
  cases line with
  | word a op =>
    cases line' with
    | word a' op' =>
      obtain rfl : a' = a := haddress
      rw [UInt16.toNat_inj.mp (Hex.digits_injective hsame)]
    | byte a' value => exact absurd (congrArg List.length hsame) (by simp [length_digits])
  | byte a value =>
    cases line' with
    | word a' op' => exact absurd (congrArg List.length hsame) (by simp [length_digits])
    | byte a' value' =>
      obtain rfl : a' = a := haddress
      rw [UInt8.toNat_inj.mp (Hex.digits_injective hsame)]

end Line

/-! ### Programs -/

theorem length_lines (address : Nat) (program : List UInt8) :
    (lines address program).length = (program.length + 1) / 2 := by
  induction address, program using lines.induct with
  | case1 address high low rest ih =>
    rw [lines, List.length_cons, ih, List.length_cons, List.length_cons]
    omega
  | case2 address value => simp [lines]
  | case3 address => simp [lines]

theorem address_of_getElem?_lines {address k : Nat} {program : List UInt8} {line : Line}
    (h : (lines address program)[k]? = some line) : line.address = address + 2 * k := by
  induction address, program using lines.induct generalizing k with
  | case1 address high low rest ih =>
    rw [lines] at h
    cases k with
    | zero =>
      cases h
      rfl
    | succ k =>
      rw [List.getElem?_cons_succ] at h
      rw [ih h]
      omega
  | case2 address value =>
    rw [lines] at h
    cases k with
    | zero =>
      cases h
      rfl
    | succ k => cases h
  | case3 address => simp [lines] at h

theorem eq_of_lines_eq {address address' : Nat} {program program' : List UInt8}
    (h : lines address program = lines address' program') :
    program = program' ∧ (program ≠ [] → address = address') := by
  induction address, program using lines.induct generalizing address' program' with
  | case1 address high low rest ih =>
    rcases program' with _ | ⟨high', _ | ⟨low', rest'⟩⟩
    · simp [lines] at h
    · simp [lines] at h
    · obtain ⟨hword, hrest⟩ := List.cons.inj h
      obtain ⟨rfl, hop⟩ := Line.word.inj hword
      obtain ⟨rfl, rfl⟩ := Opcode.ofBytes_injective hop
      obtain ⟨rfl, -⟩ := ih hrest
      exact ⟨rfl, fun _ => rfl⟩
  | case2 address value =>
    rcases program' with _ | ⟨value', _ | ⟨low', rest'⟩⟩
    · simp [lines] at h
    · obtain ⟨rfl, rfl⟩ := Line.byte.inj (List.cons.inj h).1
      exact ⟨rfl, fun _ => rfl⟩
    · simp [lines] at h
  | case3 address =>
    rcases program' with _ | ⟨value', _ | ⟨low', rest'⟩⟩
    · exact ⟨rfl, fun hne => absurd rfl hne⟩
    · simp [lines] at h
    · simp [lines] at h

end Listing

/-- A listing has a line for each word of a program and one for a byte left over, each starting with its address,
    which may have any number of digits. A line tells the address and the word or the byte on it, a listing tells the
    program and where it starts, and the text of an instruction tells the instruction, whatever its operands are. -/
theorem listing_tells_program :
    (∀ (program : List UInt8) (start : UInt16),
      (disassemble program start).length = (program.length + 1) / 2 ∧
        ∀ i text, (disassemble program start)[i]? = some text →
          ∃ numeral rest, text.toList = numeral ++ ' ' :: ' ' :: rest ∧
            Hex.IsNumeral 3 (start.toNat + 2 * i) numeral) ∧
    (∀ line line' : Listing.Line, line.text = line'.text → line = line') ∧
    (∀ (program program' : List UInt8) (start start' : UInt16), program ≠ [] → program' ≠ [] →
      disassemble program start = disassemble program' start' → program = program' ∧ start = start') ∧
    (∀ i j : Instruction, i.text = j.text → i = j) ∧
    ∀ op op' : Opcode, op.decode.text = op'.decode.text → op.decode = op'.decode := by
  refine ⟨fun program start => ⟨?_, fun i text h => ?_⟩, fun _ _ h => Listing.Line.text_injective h,
    fun program program' start start' hne _ h => ?_, fun _ _ => Instruction.text_injective,
    fun _ _ => Instruction.text_injective⟩
  · rw [disassemble, List.length_map, Listing.length_lines]
  · rw [disassemble, List.getElem?_map] at h
    obtain ⟨line, hline, rfl⟩ := Option.map_eq_some_iff.mp h
    obtain ⟨rest, htext⟩ := line.exists_toList_text
    rw [Listing.address_of_getElem?_lines hline] at htext
    exact ⟨_, _, htext, Hex.isNumeral_digits (by decide) _⟩
  · obtain ⟨hprogram, hstart⟩ := Listing.eq_of_lines_eq (List.map_injective_iff.mpr Listing.Line.text_injective h)
    exact ⟨hprogram, UInt16.toNat_inj.mp (hstart hne)⟩

/-- A word at the last address of sixteen bits and a byte behind it, and two words for one shift. -/
theorem listing_tells_program_last_address :
    (disassemble [0x81, 0x24, 0x12] 0xFFFF).length = 2 ∧
      (∃ numeral rest, "10001  12    DB 0x12".toList = numeral ++ ' ' :: ' ' :: rest ∧
        Hex.IsNumeral 3 0x10001 numeral) ∧
      Listing.Line.word 0xFFFF (.ofBytes 0x81 0x24) = .word 0xFFFF 0x8124 ∧
      ([0x81, 0x24] ++ [0x12] : List UInt8) = [0x81, 0x24, 0x12] ∧
      Opcode.decode 0x8124 = .add 1 2 ∧ Opcode.decode 0x8126 = Opcode.decode 0x8136 := by
  obtain ⟨hlines, hline, hprogram, htext, hword⟩ := listing_tells_program
  obtain ⟨hlength, haddress⟩ := hlines [0x81, 0x24, 0x12] 0xFFFF
  have hlast : (disassemble [0x81, 0x24, 0x12] 0xFFFF)[1]? = some "10001  12    DB 0x12" := by decide +kernel
  refine ⟨hlength, haddress 1 _ hlast, hline _ _ rfl, ?_, htext _ _ (by decide +kernel),
    hword _ _ (by decide +kernel)⟩
  exact (hprogram _ _ 0xFFFF 0xFFFF (by decide) (by decide) rfl).1

end ChipEight
