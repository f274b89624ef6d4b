import ChipEight.Instruction.Basic

/-! # Forms of opcodes

The instruction set is a table of forms, a digit or a letter for each digit of an opcode. An opcode stands
for the instruction whose form it has, where `0NNN` gives way to the two forms of its family that are more
special, and for no instruction if it has none of them. -/

namespace ChipEight

/-- A form of opcodes: a hexadecimal digit stands for itself, any other letter for an arbitrary digit. -/
abbrev Form := String

namespace Form

/-- The digit that a character fixes, if it fixes one. -/
def digit? : Char → Option UInt8
  | '0' => some 0x0 | '1' => some 0x1 | '2' => some 0x2 | '3' => some 0x3
  | '4' => some 0x4 | '5' => some 0x5 | '6' => some 0x6 | '7' => some 0x7
  | '8' => some 0x8 | '9' => some 0x9 | 'A' => some 0xA | 'B' => some 0xB
  | 'C' => some 0xC | 'D' => some 0xD | 'E' => some 0xE | 'F' => some 0xF
  | _ => none

/-- The instruction set. -/
def all : List Form :=
  ["0NNN", "00E0", "00EE", "1NNN", "2NNN", "3XKK", "4XKK", "5XY0", "6XKK", "7XKK",
   "8XY0", "8XY1", "8XY2", "8XY3", "8XY4", "8XY5", "8XY6", "8XY7", "8XYE", "9XY0",
   "ANNN", "BNNN", "CXKK", "DXYN", "EX9E", "EXA1",
   "FX07", "FX0A", "FX15", "FX18", "FX1E", "FX29", "FX33", "FX55", "FX65"]

end Form

/-- The form of the opcodes that stand for an instruction like this one. -/
def Instruction.form? : Instruction → Option Form
  | .sys _ => "0NNN" | .clear => "00E0" | .ret => "00EE" | .jump _ => "1NNN" | .call _ => "2NNN"
  | .skipEqByte .. => "3XKK" | .skipNeByte .. => "4XKK" | .skipEq .. => "5XY0"
  | .loadByte .. => "6XKK" | .addByte .. => "7XKK"
  | .move .. => "8XY0" | .or .. => "8XY1" | .and .. => "8XY2" | .xor .. => "8XY3"
  | .add .. => "8XY4" | .sub .. => "8XY5" | .shiftRight _ => "8XY6" | .subFrom .. => "8XY7"
  | .shiftLeft _ => "8XYE" | .skipNe .. => "9XY0"
  | .loadIndex _ => "ANNN" | .jumpOffset _ => "BNNN" | .random .. => "CXKK" | .draw .. => "DXYN"
  | .skipDown _ => "EX9E" | .skipUp _ => "EXA1"
  | .readDelay _ => "FX07" | .waitKey _ => "FX0A" | .setDelay _ => "FX15" | .setSound _ => "FX18"
  | .addIndex _ => "FX1E" | .loadGlyph _ => "FX29" | .storeDecimal _ => "FX33"
  | .storeRegisters _ => "FX55" | .loadRegisters _ => "FX65"
  | .unknown _ => none

/-- Whether the operands of an instruction are those that an opcode gives. -/
def Instruction.OperandsOf (op : Opcode) : Instruction → Prop
  | .sys addr | .jump addr | .call addr | .loadIndex addr | .jumpOffset addr => addr = op.addr
  | .skipEqByte x kk | .skipNeByte x kk | .loadByte x kk | .addByte x kk | .random x kk => x = op.x ∧ kk = op.kk
  | .skipEq x y | .skipNe x y | .move x y | .or x y | .and x y | .xor x y => x = op.x ∧ y = op.y
  | .add x y | .sub x y | .subFrom x y => x = op.x ∧ y = op.y
  | .draw x y n => x = op.x ∧ y = op.y ∧ n = op.n
  | .shiftRight x | .shiftLeft x | .skipDown x | .skipUp x | .readDelay x | .waitKey x => x = op.x
  | .setDelay x | .setSound x | .addIndex x | .loadGlyph x => x = op.x
  | .storeDecimal x | .storeRegisters x | .loadRegisters x => x = op.x
  | .clear | .ret => True
  | .unknown op' => op' = op

namespace Opcode

/-- The digits of an opcode, the first one first. -/
def digits (op : Opcode) : List UInt8 := [op.family, op.x, op.y, op.n]

/-- Whether an opcode has a form, that is each of the digits that the form fixes. -/
def fits (op : Opcode) (form : Form) : Bool :=
  (op.digits.zip (form.toList.map Form.digit?)).all fun (d, fixed) => fixed.all (d == ·)

/-! ### Digits -/

theorem toNat_family (op : Opcode) : op.family.toNat = op.toNat / 0x1000 := by
  have := op.toNat_lt
  simp only [family, UInt8.toNat_ofNat']
  omega

theorem toNat_x (op : Opcode) : op.x.toNat = op.toNat / 0x100 % 0x10 := by
  simp only [x, UInt8.toNat_ofNat']
  omega

theorem toNat_y (op : Opcode) : op.y.toNat = op.toNat / 0x10 % 0x10 := by
  simp only [y, UInt8.toNat_ofNat']
  omega

theorem toNat_n (op : Opcode) : op.n.toNat = op.toNat % 0x10 := by
  simp only [n, UInt8.toNat_ofNat']
  omega

theorem toNat_kk (op : Opcode) : op.kk.toNat = op.toNat % 0x100 := by
  simp only [kk, UInt8.toNat_ofNat']
  omega

theorem toNat_addr (op : Opcode) : op.addr.toNat = op.toNat % 0x1000 := by
  simp only [addr, UInt16.toNat_ofNat']
  omega

theorem toNat_ofBytes (high low : UInt8) : (ofBytes high low).toNat = 0x100 * high.toNat + low.toNat := by
  have hhigh := high.toNat_lt
  have hlow := low.toNat_lt
  rw [ofBytes, UInt16.toNat_ofNat']
  exact Nat.mod_eq_of_lt (by omega)

theorem kk_eq (op : Opcode) : op.kk = 0x10 * op.y + op.n := by
  apply UInt8.toNat_inj.mp
  simp only [UInt8.toNat_add, UInt8.toNat_mul, toNat_kk, toNat_y, toNat_n, UInt8.reduceToNat]
  omega

theorem addr_eq (op : Opcode) : op.addr = 0x100 * op.x.toUInt16 + 0x10 * op.y.toUInt16 + op.n.toUInt16 := by
  apply UInt16.toNat_inj.mp
  simp only [UInt16.toNat_add, UInt16.toNat_mul, UInt8.toNat_toUInt16, toNat_addr, toNat_x, toNat_y, toNat_n,
    UInt16.reduceToNat]
  omega

theorem y_eq (op : Opcode) : op.y = op.kk / 0x10 := by
  apply UInt8.toNat_inj.mp
  simp only [UInt8.toNat_div, toNat_kk, toNat_y, UInt8.reduceToNat]
  omega

theorem n_eq (op : Opcode) : op.n = op.kk % 0x10 := by
  apply UInt8.toNat_inj.mp
  simp only [UInt8.toNat_mod, toNat_kk, toNat_n, UInt8.reduceToNat]
  omega

theorem x_eq (op : Opcode) : op.x = (op.addr / 0x100).toUInt8 := by
  apply UInt8.toNat_inj.mp
  simp only [UInt16.toNat_toUInt8, UInt16.toNat_div, toNat_addr, toNat_x, UInt16.reduceToNat]
  omega

theorem kk_eq_toUInt8_addr (op : Opcode) : op.kk = op.addr.toUInt8 := by
  apply UInt8.toNat_inj.mp
  simp only [UInt16.toNat_toUInt8, toNat_addr, toNat_kk]
  omega

/-! ### Decoding -/

theorem operandsOf_decode (op : Opcode) : op.decode.OperandsOf op := by
  unfold decode arithmetic peripheral
  repeat' split
  all_goals simp [Instruction.OperandsOf]

theorem form?_of_fits {op : Opcode} {form : Form} (hform : form ∈ Form.all) (h0 : form ≠ "0NNN")
    (h : op.fits form) : op.decode.form? = some form := by
  simp only [Form.all, List.mem_cons, List.not_mem_nil, or_false] at hform
  rcases hform with rfl | rfl | rfl | rfl | rfl | rfl | rfl | rfl | rfl | rfl | rfl | rfl | rfl | rfl | rfl |
    rfl | rfl | rfl | rfl | rfl | rfl | rfl | rfl | rfl | rfl | rfl | rfl | rfl | rfl | rfl | rfl | rfl | rfl |
    rfl | rfl
  -- With the digits that the form fixes the decoder takes one branch only.
  all_goals simp [fits, digits, Form.digit?] at h h0
  all_goals simp [decode, arithmetic, peripheral, kk_eq, addr_eq, h, Instruction.form?]

/-- An opcode stands for the instruction whose form it has, with the operands that it gives. -/
theorem decode_of_fits {op : Opcode} {i : Instruction} {form : Form} (h : op.fits form) (hform : i.form? = some form)
    (h0 : form ≠ "0NNN") (hi : i.OperandsOf op) : op.decode = i := by
  cases i <;> cases hform <;> simp [Instruction.OperandsOf] at hi <;> simp [fits, digits, Form.digit?] at h h0
  all_goals simp [decode, arithmetic, peripheral, kk_eq, addr_eq, h, hi]

theorem fits_of_form? {op : Opcode} {form : Form} (h : op.decode.form? = some form) : op.fits form := by
  revert h
  unfold decode arithmetic peripheral
  repeat' split
  all_goals rintro ⟨⟩
  -- A branch was entered by some digits only, or by the digits of the last byte or address as one number.
  all_goals simp_all [fits, digits, Form.digit?, x_eq, y_eq, n_eq, kk_eq_toUInt8_addr]

/-- An opcode has one of the more special forms just if it stands for an instruction of that form. -/
theorem fits_iff_form? {op : Opcode} {form : Form} (hform : form ∈ Form.all) (h0 : form ≠ "0NNN") :
    op.fits form ↔ op.decode.form? = some form :=
  ⟨form?_of_fits hform h0, fits_of_form?⟩

theorem form?_ne_none_of_family_eq_zero {op : Opcode} (h : op.family = 0) : op.decode.form? ≠ none := by
  simp only [decode, h]
  repeat' split
  all_goals simp [Instruction.form?]

theorem mem_all_of_form? {i : Instruction} {form : Form} (h : i.form? = some form) : form ∈ Form.all := by
  cases i <;> cases h <;> decide

/-- An opcode stands for no instruction just if it has none of the forms. -/
theorem form?_decode_eq_none_iff {op : Opcode} :
    op.decode.form? = none ↔ ∀ form ∈ Form.all, ¬op.fits form := by
  constructor
  · intro hnone form hform hfits
    by_cases h0 : form = "0NNN"
    · subst h0
      have hzero : op.family = 0 := by simpa [fits, digits, Form.digit?] using hfits
      exact form?_ne_none_of_family_eq_zero hzero hnone
    · rw [form?_of_fits hform h0 hfits] at hnone
      cases hnone
  · intro h
    cases hform : op.decode.form? with
    | none => rfl
    | some form => exact absurd (fits_of_form? hform) (h form (mem_all_of_form? hform))

theorem fits_00EE_iff {op : Opcode} : op.fits "00EE" ↔ op = 0x00EE := by
  have hop : op.toNat = 0x1000 * op.family.toNat + 0x100 * op.x.toNat + 0x10 * op.y.toNat + op.n.toNat := by
    rw [toNat_family, toNat_x, toNat_y, toNat_n]
    omega
  constructor
  · intro h
    have hd : op.family = 0 ∧ op.x = 0 ∧ op.y = 14 ∧ op.n = 14 := by simpa [fits, digits, Form.digit?] using h
    apply UInt16.toNat_inj.mp
    simp [hop, hd]
  · rintro rfl
    decide

end Opcode

end ChipEight
