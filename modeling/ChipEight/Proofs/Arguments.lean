import ChipEight.CommandLine.Args
import Mathlib.Data.List.TakeDrop
import Mathlib.Data.List.TakeWhile

/-! # What can be asked for

Arguments are written as the words of a command line and read back from them. So there is a command line for any
arguments with a program's name in which no comma is held; a comma only parts the characters of a list, and so none
can be asked for. -/

namespace ChipEight

theorem exists_of_bind_eq_ok {α β ε : Type} {x : Except ε α} {f : α → Except ε β} {b : β} (h : (x >>= f) = .ok b) :
    ∃ a, x = .ok a ∧ f a = .ok b := by
  cases x with
  | error e => cases h
  | ok a => exact ⟨a, rfl, h⟩

/-! ### Decimal numerals -/

namespace Numeral
variable {cs : List Char} {n : Nat}

theorem foldlM_digits (h : ∀ c ∈ cs, c.isDigit = true) (n : Nat) :
    cs.foldlM (fun n c => (digit? c).map (10 * n + ·)) n = some (Nat.ofDigitChars 10 cs n) := by
  induction cs generalizing n with
  | nil => rfl
  | cons c cs ih =>
    obtain ⟨hc, hcs⟩ := List.forall_mem_cons.mp h
    have hdigit : digit? c = some (c.toNat - '0'.toNat) := by
      simpa [digit?, Char.isDigit, Char.le_def] using hc
    rw [List.foldlM_cons, hdigit, Nat.ofDigitChars_cons]
    exact ih hcs _

theorem digits?_toDigits (n : Nat) : digits? (Nat.toDigits 10 n) = some n := by
  have hdigits : ∀ c ∈ Nat.toDigits 10 n, c.isDigit = true := fun c hc =>
    Nat.isDigit_of_mem_toDigits (by decide) (by decide) hc
  unfold digits?
  split
  · next hnil => exact absurd hnil Nat.toDigits_ne_nil
  · rw [foldlM_digits hdigits, Nat.ofDigitChars_toDigits (by decide) (by decide)]

/-- A numeral without a sign is its digits. -/
theorem value?_toDigits (n : Nat) : value? (Nat.toDigits 10 n) = some n := by
  unfold value?
  split
  · next cs hplus =>
    have hdigit : '+'.isDigit = true :=
      Nat.isDigit_of_mem_toDigits (by decide) (by decide) (hplus ▸ List.mem_cons_self)
    cases hdigit
  · exact digits?_toDigits n

theorem signedValue?_toDigits (n : Nat) : signedValue? (Nat.toDigits 10 n) = some n := by
  unfold signedValue?
  split
  · next cs hminus =>
    have hdigit : '-'.isDigit = true :=
      Nat.isDigit_of_mem_toDigits (by decide) (by decide) (hminus ▸ List.mem_cons_self)
    cases hdigit
  · exact value?_toDigits n

end Numeral

namespace CommandLine

/-! ### Words -/

/-- The word for an item: a setting has its value after an equals sign. -/
def Item.word : Item → String
  | .operand word => word
  | .setting s value => "--" ++ s.name ++ "=" ++ value
  | .switch s => "--" ++ s.name

theorem shape_of_toList {word : String} {cs : List Char} (h : word.toList = '-' :: '-' :: cs) (hcs : cs ≠ []) :
    shape word = .long (splitAttached cs).1 (splitAttached cs).2 := by
  rw [shape, h]
  cases cs with
  | nil => exact absurd rfl hcs
  | cons c cs => rfl

theorem splitAttached_append {name : List Char} (h : '=' ∉ name) (value : List Char) :
    splitAttached (name ++ '=' :: value) = (.ofList name, some (.ofList value)) := by
  have hname : ∀ c ∈ name, (c != '=') = true := fun c hc => bne_iff_ne.mpr fun hequals => h (hequals ▸ hc)
  rw [splitAttached, List.span_eq_takeWhile_dropWhile, List.takeWhile_append_of_pos hname,
    List.dropWhile_append_of_pos hname]
  simp

theorem splitAttached_of_not_mem {name : List Char} (h : '=' ∉ name) : splitAttached name = (.ofList name, none) := by
  have hname : ∀ c ∈ name, (c != '=') = true := fun c hc => bne_iff_ne.mpr fun hequals => h (hequals ▸ hc)
  rw [splitAttached, List.span_eq_takeWhile_dropWhile, List.takeWhile_eq_self_iff.mpr hname,
    List.dropWhile_eq_nil_iff.mpr hname]

theorem shape_setting (s : Setting) (value : String) :
    shape (Item.word (.setting s value)) = .long s.name (some value) := by
  have hname : '=' ∉ s.name.toList := by cases s <;> decide
  have hword : (Item.word (.setting s value)).toList = '-' :: '-' :: (s.name.toList ++ '=' :: value.toList) := by
    simp [Item.word]
  rw [shape_of_toList hword (by simp), splitAttached_append hname, String.ofList_toList, String.ofList_toList]

theorem shape_switch (s : Switch) : shape (Item.word (.switch s)) = .long s.name none := by
  have hname : '=' ∉ s.name.toList ∧ s.name.toList ≠ [] := by cases s <;> decide
  have hword : (Item.word (.switch s)).toList = '-' :: '-' :: s.name.toList := by simp [Item.word]
  rw [shape_of_toList hword hname.2, splitAttached_of_not_mem hname.1, String.ofList_toList]

theorem items_setting (s : Setting) (value : String) (rest : List String) :
    items (Item.word (.setting s value) :: rest) = (.setting s value :: ·) <$> items rest := by
  rw [items, shape_setting]
  cases s <;> rfl

theorem items_switch (s : Switch) (rest : List String) :
    items (Item.word (.switch s) :: rest) = (.switch s :: ·) <$> items rest := by
  rw [items, shape_switch]
  cases s <;> rfl

/-- Settings and switches are read back from their words, and what stands after a double dash is an operand. -/
theorem items_words {l : List Item} (h : ∀ word, .operand word ∉ l) (rom : String) :
    items (l.map Item.word ++ ["--", rom]) = .ok (l ++ [.operand rom]) := by
  induction l with
  | nil => rfl
  | cons item l ih =>
    have hrest := ih fun word hmem => h word (List.mem_cons_of_mem _ hmem)
    cases item with
    | operand word => exact absurd List.mem_cons_self (h word)
    | setting s value =>
      rw [List.map_cons, List.cons_append, items_setting, hrest]
      rfl
    | switch s =>
      rw [List.map_cons, List.cons_append, items_switch, hrest]
      rfl

/-! ### Taking items in -/

/-- The decimal numeral of a number. -/
def numeral (n : Nat) : String := .ofList (Nat.toDigits 10 n)

namespace Draft
variable {d : Draft}

/-- A setting that is a number is taken in if it has not been given before. -/
theorem number_bind {s : Setting} {read : List Char → Option Nat} {n bound : Nat} {given : Bool} {e : UsageError}
    (hread : read (Nat.toDigits 10 n) = some n) (hbound : n < bound) (hgiven : given = false) (next : Nat → Draft) :
    (number s (numeral n) read bound >>= fun n => if given then .error e else .ok (next n)) = .ok (next n) := by
  have hnumber : number s (numeral n) read bound = .ok n := by
    rw [number, numeral, String.toList_ofList, hread]
    exact if_pos hbound
  rw [hnumber, hgiven]
  rfl

theorem add_clock (h : d.clock = none) (n : UInt32) :
    d.add (.setting .clock (numeral n.toNat)) = .ok { d with clock := some n } := by
  rw [add, number_bind (Numeral.signedValue?_toDigits _) n.toNat_lt_size (by rw [h]; rfl),
    UInt32.ofNat_toNat]

theorem add_cycles (h : d.cycles = none) (n : UInt64) :
    d.add (.setting .cycles (numeral n.toNat)) = .ok { d with cycles := some n } := by
  rw [add, number_bind (Numeral.value?_toDigits _) n.toNat_lt_size (by rw [h]; rfl), UInt64.ofNat_toNat]

theorem add_seed (h : d.seed = none) (n : UInt64) :
    d.add (.setting .seed (numeral n.toNat)) = .ok { d with seed := some n } := by
  rw [add, number_bind (Numeral.value?_toDigits _) n.toNat_lt_size (by rw [h]; rfl), UInt64.ofNat_toNat]

theorem add_hold (d : Draft) {c : Char} (h : c ≠ ',') :
    d.add (.setting .hold (.singleton c)) = .ok { d with hold := d.hold ++ [c] } := by
  have hsplit : (String.singleton c).toList.splitOn ',' = [[c]] := by
    rw [String.toList_singleton]
    exact List.splitOn_eq_singleton (by simpa using h.symm)
  have hcharacters : characters? (.singleton c) = some [c] := by
    rw [characters?, hsplit]
    rfl
  rw [add, hcharacters]

/-- An option that may be left out is asked for by one item or none. -/
theorem foldlM_toList {α : Type} {item : α → Item} (given : Option α → Draft) (hnone : given none = d)
    (hsome : ∀ a, d.add (item a) = .ok (given (some a))) (o : Option α) :
    (o.toList.map item).foldlM add d = .ok (given o) := by
  cases o with
  | none => exact congrArg Except.ok hnone.symm
  | some a =>
    show (d.add (item a) >>= fun d => [].foldlM add d) = _
    rw [hsome]
    rfl

theorem foldlM_cycles (h : d.cycles = none) (cycles : Option UInt64) :
    (cycles.toList.map fun n => Item.setting .cycles (numeral n.toNat)).foldlM add d = .ok { d with cycles } :=
  foldlM_toList (fun cycles => { d with cycles }) (by rw [← h]) (add_cycles h) cycles

theorem foldlM_seed (h : d.seed = none) (seed : Option UInt64) :
    (seed.toList.map fun n => Item.setting .seed (numeral n.toNat)).foldlM add d = .ok { d with seed } :=
  foldlM_toList (fun seed => { d with seed }) (by rw [← h]) (add_seed h) seed

/-- A switch is asked for by its item or by none. -/
theorem foldlM_ite {item : Item} (given : Bool → Draft) (hoff : given false = d)
    (hon : d.add item = .ok (given true)) (b : Bool) : (if b then [item] else []).foldlM add d = .ok (given b) := by
  cases b with
  | false => exact congrArg Except.ok hoff.symm
  | true =>
    show (d.add item >>= fun d => [].foldlM add d) = _
    rw [hon]
    rfl

theorem foldlM_realtime (h : d.realtime = false) (realtime : Bool) :
    (if realtime then [Item.switch .realtime] else []).foldlM add d = .ok { d with realtime } :=
  foldlM_ite (fun realtime => { d with realtime }) (by rw [← h]) (by rw [add, h]; rfl) realtime

theorem foldlM_disassemble (h : d.disassemble = false) (disassemble : Bool) :
    (if disassemble then [Item.switch .disassemble] else []).foldlM add d = .ok { d with disassemble } :=
  foldlM_ite (fun disassemble => { d with disassemble }) (by rw [← h]) (by rw [add, h]; rfl) disassemble

theorem add_operand (h : d.rom = none) {rom : String} (hrom : rom ≠ "") :
    d.add (.operand rom) = .ok { d with rom := some rom } := by
  have hempty : rom.isEmpty = false := by simpa using hrom
  rw [add, h, hempty]
  rfl

theorem foldlM_hold (d : Draft) {cs : List Char} (h : ',' ∉ cs) :
    (cs.map fun c => Item.setting .hold (.singleton c)).foldlM add d = .ok { d with hold := d.hold ++ cs } := by
  induction cs generalizing d with
  | nil => simp [pure, Except.pure]
  | cons c cs ih =>
    have hc : c ≠ ',' := fun hcomma => h (hcomma ▸ List.mem_cons_self)
    have hcs : ',' ∉ cs := fun hmem => h (List.mem_cons_of_mem _ hmem)
    rw [List.map_cons, List.foldlM_cons, add_hold d hc]
    refine (ih _ hcs).trans ?_
    simp

end Draft

/-! ### A command line for any arguments -/

/-- The items by which arguments are asked for. -/
def itemsOf (args : Args) : List Item :=
  .setting .clock (numeral args.clock.toNat) ::
    (args.cycles.toList.map (fun n => .setting .cycles (numeral n.toNat)) ++
      args.seed.toList.map (fun n => .setting .seed (numeral n.toNat)) ++
      args.hold.map (fun c => .setting .hold (.singleton c)) ++
      (if args.realtime then [.switch .realtime] else []) ++
      if args.disassemble then [.switch .disassemble] else [])

/-- The words by which arguments are asked for, the program after a double dash. -/
def wordsOf (args : Args) : List String := (itemsOf args).map Item.word ++ ["--", args.rom]

theorem foldlM_itemsOf {args : Args} (h : ',' ∉ args.hold) :
    (itemsOf args).foldlM Draft.add {} =
      .ok { clock := args.clock, cycles := args.cycles, hold := args.hold, realtime := args.realtime,
            seed := args.seed, disassemble := args.disassemble } := by
  have hbind : ∀ (d : Draft) (next : Draft → Except UsageError Draft), (Except.ok d >>= next) = next d :=
    fun _ _ => rfl
  simp only [itemsOf, List.foldlM_cons, List.foldlM_append, Draft.add_clock, Draft.foldlM_cycles, Draft.foldlM_seed,
    Draft.foldlM_hold _ h, Draft.foldlM_realtime, Draft.foldlM_disassemble, hbind, List.nil_append]

/-- Arguments are read back from their words. -/
theorem parse_wordsOf {args : Args} (hrom : args.rom ≠ "") (hhold : ',' ∉ args.hold) :
    Args.parse (wordsOf args) = .ok args := by
  have hoptions : ∀ word, Item.operand word ∉ itemsOf args := by
    intro word
    cases args.cycles <;> cases args.seed <;> cases args.realtime <;> cases args.disassemble <;> simp [itemsOf]
  rw [Args.parse, wordsOf, items_words hoptions]
  show ((itemsOf args ++ [Item.operand args.rom]).foldlM Draft.add {} >>= Draft.finish) = _
  rw [List.foldlM_append, foldlM_itemsOf hhold]
  show ((Draft.add _ _ >>= fun d => [].foldlM Draft.add d) >>= Draft.finish) = _
  rw [Draft.add_operand rfl hrom]
  rfl

/-! ### What no command line asks for -/

theorem not_mem_of_mem_splitOn {a : Char} {xs piece : List Char} (h : piece ∈ xs.splitOn a) : a ∉ piece := by
  induction xs generalizing piece with
  | nil =>
    rw [List.splitOn_nil] at h
    rw [List.mem_singleton.mp h]
    exact List.not_mem_nil
  | cons x xs ih =>
    rw [List.splitOn_cons_eq_if_modifyHead] at h
    split at h
    · rcases List.mem_cons.mp h with rfl | h
      · exact List.not_mem_nil
      · exact ih h
    · next hx =>
      cases hrest : xs.splitOn a with
      | nil => exact absurd hrest (List.splitOn_ne_nil a xs)
      | cons head tail =>
        rw [hrest] at h ih
        rcases List.mem_cons.mp h with rfl | h
        · have hne : a ≠ x := fun hax => hx (beq_iff_eq.mpr hax.symm)
          simpa [hne] using ih List.mem_cons_self
        · exact ih (List.mem_cons_of_mem _ h)

theorem comma_not_mem_of_characters? {value : String} {cs : List Char} (h : characters? value = some cs) :
    ',' ∉ cs := by
  have hpieces : ∀ piece ∈ value.toList.splitOn ',', ',' ∉ piece := fun _ => not_mem_of_mem_splitOn
  rw [characters?] at h
  generalize value.toList.splitOn ',' = pieces at h hpieces
  induction pieces generalizing cs with
  | nil =>
    cases h
    exact List.not_mem_nil
  | cons piece pieces ih =>
    obtain ⟨hpiece, hrest⟩ := List.forall_mem_cons.mp hpieces
    rw [List.mapM_cons] at h
    split at h
    · next c =>
      obtain ⟨_, hc, h⟩ := Option.bind_eq_some_iff.mp h
      obtain ⟨rest, hmapM, hcs⟩ := Option.bind_eq_some_iff.mp h
      cases hc
      cases hcs
      exact List.not_mem_cons_of_ne_of_not_mem (fun hc => hpiece (hc ▸ List.mem_cons_self)) (ih hmapM hrest)
    · cases h

/-- A program that has a name, if there is one, and no comma among the held characters. -/
structure Draft.Possible (d : Draft) : Prop where
  rom : d.rom ≠ some ""
  hold : ',' ∉ d.hold

namespace Draft.Possible
variable {d d' : Draft}

theorem of_number {number : Except UsageError Nat} {given : Bool} {e : UsageError} {next : Nat → Draft}
    (hnext : ∀ n, (next n).Possible)
    (h : (number >>= fun n => if given then .error e else .ok (next n)) = .ok d') : d'.Possible := by
  obtain ⟨n, -, h⟩ := exists_of_bind_eq_ok h
  cases given with
  | true => cases h
  | false =>
    cases h
    exact hnext n

/-- No item that is taken in makes a draft impossible. -/
theorem add {item : Item} (P : d.Possible) (h : d.add item = .ok d') : d'.Possible := by
  cases item with
  | operand word =>
    rw [Draft.add] at h
    split at h
    · cases h
    split at h
    · cases h
    next hword =>
      cases h
      exact ⟨fun hrom => hword (by rw [Option.some.inj hrom]; rfl), P.hold⟩
  | setting s value =>
    rw [Draft.add.eq_def] at h
    cases s with
    | clock | cycles | seed =>
      refine of_number ?_ h
      exact fun _ => ⟨P.rom, P.hold⟩
    | hold =>
      simp only at h
      split at h
      · next cs hcs =>
        cases h
        exact ⟨P.rom, List.not_mem_append P.hold (comma_not_mem_of_characters? hcs)⟩
      · cases h
  | switch s =>
    cases s with
    | realtime | disassemble =>
      rw [Draft.add] at h
      split at h
      · cases h
      · cases h
        exact ⟨P.rom, P.hold⟩

theorem foldlM {l : List Item} (P : d.Possible) (h : l.foldlM Draft.add d = .ok d') : d'.Possible := by
  induction l generalizing d with
  | nil =>
    cases h
    exact P
  | cons item l ih =>
    rw [List.foldlM_cons] at h
    obtain ⟨d₁, hadd, h⟩ := exists_of_bind_eq_ok h
    exact ih (P.add hadd) h

end Draft.Possible

end CommandLine

/-- A command line can ask for arguments just if their program has a name and none of their held characters is a
    comma. -/
theorem Args.exists_parse_eq_ok_iff {args : Args} :
    (∃ words, Args.parse words = .ok args) ↔ args.rom ≠ "" ∧ ',' ∉ args.hold := by
  constructor
  · rintro ⟨words, h⟩
    obtain ⟨items, -, h⟩ := exists_of_bind_eq_ok h
    obtain ⟨d, hdraft, hfinish⟩ := exists_of_bind_eq_ok h
    have start : CommandLine.Draft.Possible {} := ⟨nofun, List.not_mem_nil⟩
    have P := start.foldlM hdraft
    unfold CommandLine.Draft.finish at hfinish
    split at hfinish
    · next rom hrom =>
      cases hfinish
      exact ⟨fun hempty => P.rom (hempty ▸ hrom), P.hold⟩
    · cases hfinish
  · rintro ⟨hrom, hhold⟩
    exact ⟨_, CommandLine.parse_wordsOf hrom hhold⟩

end ChipEight
