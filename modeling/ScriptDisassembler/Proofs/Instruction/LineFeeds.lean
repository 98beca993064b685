import Mathlib.Algebra.GroupWithZero.Nat
import ScriptDisassembler.CommandLine.Run
import ScriptDisassembler.Proofs.Prototype.Stability
import ScriptDisassembler.Proofs.Text.Digits

/-!
# Line feeds in source lines

The text of an instruction holds the line feeds of its strings, which are written as they stand, and
no others: numbers, variables and array elements hold none, and neither do the names that definition
texts give (`Instruction.count_newline_text`).  So an instruction without a line feed in its strings
takes one line, and a string with a line feed breaks it.
-/

namespace ScriptDisassembler

/-! ## Numbers -/

namespace Numeral

theorem newline_notMem_toDigits {base : Nat} (base_gt : 1 < base) (base_le : base ≤ 16)
    (value : Nat) : '\n' ∉ Nat.toDigits base value := by
  apply Text.newline_notMem_of_plain
  intro digit member
  exact isPlain_of_mem_alphabet digit (mem_alphabet_of_mem_toDigits base_gt base_le member)

theorem newline_notMem_padded {width : Nat} {digits : List Char} (unbroken : '\n' ∉ digits) :
    '\n' ∉ padded width digits := by
  simp [padded, unbroken]

theorem newline_notMem_hex (value : Nat) : '\n' ∉ (hex value).toList := by
  rw [hex, String.toList_ofList]
  exact newline_notMem_toDigits (by decide) (by decide) value

theorem newline_notMem_hexPadded (width value : Nat) : '\n' ∉ (hexPadded width value).toList := by
  rw [hexPadded, String.toList_ofList]
  exact newline_notMem_padded (newline_notMem_toDigits (by decide) (by decide) value)

theorem newline_notMem_decimal (value : Nat) : '\n' ∉ (decimal value).toList := by
  rw [decimal, String.toList_ofList]
  exact newline_notMem_toDigits (by decide) (by decide) value

theorem newline_notMem_signedDecimal (value : Int) : '\n' ∉ (signedDecimal value).toList := by
  cases value with
  | ofNat value => exact newline_notMem_decimal value
  | negSucc value => simp [signedDecimal, newline_notMem_decimal]

end Numeral

namespace Binary32

theorem newline_notMem_positional (decimal : Decimal.Scaled) : '\n' ∉ positional decimal := by
  have written : '\n' ∉ Numeral.decimalDigits decimal.coefficient :=
    Numeral.newline_notMem_toDigits (by decide) (by decide) _
  unfold positional
  dsimp only
  split
  · simp [written]
  · intro member
    rcases List.mem_append.mp member with front | back
    · exact Numeral.newline_notMem_padded written (List.mem_of_mem_take front)
    · rcases List.mem_cons.mp back with point | behind
      · exact absurd point (by decide)
      · exact Numeral.newline_notMem_padded written (List.mem_of_mem_drop behind)

theorem newline_notMem_text (number : Binary32) : '\n' ∉ number.text.toList := by
  have signs : ∀ negative text, '\n' ∉ text → '\n' ∉ signed negative text := by
    intro negative text clean
    cases negative <;> simp [signed, clean]
  cases number with
  | notANumber => decide
  | infinite negative =>
      rw [text, String.toList_ofList]
      exact signs negative _ (by decide)
  | finite negative mantissa scale =>
      rw [text, String.toList_ofList]
      apply signs
      unfold magnitude
      split
      · decide
      · exact newline_notMem_positional _

end Binary32

/-! ## Operands -/

/-- The number of line feeds in the string that an operand is; other operands have none. -/
def Operand.lineFeeds (operand : Operand) : Nat :=
  match operand.payload with
  | .text value => value.toList.count '\n'
  | _ => 0

/-- An operand is written with the line feeds of its string. -/
theorem Operand.count_newline_text {operand : Operand} {text : String}
    (written : operand.text = .ok text) : text.toList.count '\n' = operand.lineFeeds := by
  unfold Operand.text at written
  unfold lineFeeds
  split at written <;> cases written <;> rename_i payload <;> rw [payload]
  · rw [List.count_eq_zero, String.toList_append, List.mem_append, not_or]
    refine ⟨?_, Numeral.newline_notMem_signedDecimal _⟩
    unfold Kind.scope
    split_ifs <;> decide
  · exact List.count_eq_zero.mpr (Binary32.newline_notMem_text _)
  · simp
  · have base := List.count_eq_zero.mpr (Numeral.newline_notMem_hex ‹ArrayAccess›.base.toNat)
    have index := List.count_eq_zero.mpr (Numeral.newline_notMem_hex ‹ArrayAccess›.index.toNat)
    simp [ArrayAccess.text, base, index]

theorem Operand.count_newline_of_mapM {operands : List Operand} {texts : List String}
    (written : operands.mapM Operand.text = .ok texts) :
    (texts.map fun text => text.toList.count '\n') = operands.map Operand.lineFeeds := by
  have each := except_mapM_eq_ok_iff.mp written
  clear written
  induction each with
  | nil => rfl
  | cons first others ih =>
      rw [List.map_cons, List.map_cons, Operand.count_newline_text first, ih]

/-! ## Instructions -/

/-- A separator adds nothing of what it does not hold. -/
theorem count_intercalate {c : Char} {separator : List Char} (absent : c ∉ separator)
    (texts : List (List Char)) :
    (separator.intercalate texts).count c = (texts.map (List.count c)).sum := by
  rw [List.intercalate, List.count_flatten]
  induction texts with
  | nil => rfl
  | cons text texts ih =>
      cases texts with
      | nil => rfl
      | cons next texts =>
          rw [List.intersperse_cons_cons]
          simp only [List.map_cons, List.sum_cons, List.count_eq_zero.mpr absent] at ih ⊢
          omega

/-- No name of a listable table holds a line feed, and neither does a number in its place. -/
theorem Table.newline_notMem_nameOf {table : Table} (listable : table.Listable) (opcode : UInt16) :
    '\n' ∉ (Lookup.nameOf table.find? opcode).toList := by
  unfold Lookup.nameOf
  split
  · rename_i name named
    obtain ⟨prototype, found, name_eq⟩ := Option.bind_eq_some_iff.mp named
    exact ((listable prototype (List.mem_of_find?_eq_some found)).name name name_eq).unbroken
  · simp [Numeral.newline_notMem_hex]

/-- The form in which an opcode is written adds no line feed to its operands. -/
theorem Lookup.count_newline_applicationText {lookup : Lookup} {opcode : UInt16}
    (unbroken : '\n' ∉ (lookup.nameOf opcode).toList) (texts : List String) :
    (lookup.applicationText opcode texts).1.toList.count '\n' =
      (texts.map fun text => text.toList.count '\n').sum := by
  have name := List.count_eq_zero.mpr unbroken
  have call : (callText (lookup.nameOf opcode) texts).toList.count '\n' =
      (texts.map fun text => text.toList.count '\n').sum := by
    have operands := @count_intercalate '\n' [',', ' '] (by decide) (texts.map String.toList)
    simp [callText, name, operands, Function.comp_def]
  unfold applicationText
  dsimp only
  split
  · exact call
  · split
    · split
      · simp [name]
      · simp [name]
      all_goals exact call
    · exact call

theorem count_newline_invertText (inverted : Bool) (text : String) :
    (invertText inverted text).toList.count '\n' = text.toList.count '\n' := by
  cases inverted <;> simp [invertText]

/-- An instruction is written with the line feeds of its strings. -/
theorem Instruction.count_newline_text {table : Table} (listable : table.Listable)
    {instruction : Instruction} {text : String}
    (written : (instruction.text table.find?).1 = .ok text) :
    text.toList.count '\n' = (instruction.operands.map Operand.lineFeeds).sum := by
  unfold Instruction.text at written
  split at written
  · cases written
  · rename_i texts operands
    cases written
    rw [count_newline_invertText,
      Lookup.count_newline_applicationText (Table.newline_notMem_nameOf listable _),
      Operand.count_newline_of_mapM operands]

theorem Operand.lineFeeds_pos_iff {operand : Operand} :
    0 < operand.lineFeeds ↔ ∃ value, operand.payload = .text value ∧ '\n' ∈ value.toList := by
  unfold lineFeeds
  cases operand.payload <;> simp

/-! ## Main result -/

/-- With a table from definition texts, an instruction breaks its line exactly if one of its strings
holds a line feed, and then takes as many lines more as its strings hold line feeds. -/
theorem Instruction.newline_mem_text_iff (loads : List (Format × Source))
    {instruction : Instruction} {text : String}
    (written : (instruction.text (Table.loadAll loads).find?).1 = .ok text) :
    ('\n' ∈ text.toList ↔ ∃ operand ∈ instruction.operands, ∃ value,
        operand.payload = .text value ∧ '\n' ∈ value.toList) ∧
      ∀ offsets,
        (CommandLine.Task.plainLine offsets
            ⟨instruction.offset, instruction.opcode, text⟩).toList.count '\n' =
          (instruction.operands.map Operand.lineFeeds).sum + 1 := by
  have feeds := count_newline_text (Table.listable_loadAll loads) written
  constructor
  · rw [← List.count_pos_iff, feeds, List.sum_pos_iff_exists_pos_nat]
    simp [Operand.lineFeeds_pos_iff]
  · intro offsets
    have offset := List.count_eq_zero.mpr (Numeral.newline_notMem_hexPadded 8 instruction.offset)
    cases offsets <;> simp [CommandLine.Task.plainLine, feeds, offset]

/-- A printed text that holds a line feed takes two lines. -/
theorem Instruction.newline_mem_text_print :
    let loads : List (Format × Source) := [(.dump, .text "0001 (func 1) print")]
    let instruction : Instruction := ⟨0, 7, 1, false, [.ofTag .variableString (.text "a\nb")]⟩
    (instruction.text (Table.loadAll loads).find?).1 = .ok "print(\"a\nb\")" ∧
      '\n' ∈ "print(\"a\nb\")".toList := by
  intro loads instruction
  have written : (instruction.text (Table.loadAll loads).find?).1 = .ok "print(\"a\nb\")" := by
    decide +kernel
  exact ⟨written, (newline_mem_text_iff loads written).1.mpr
    ⟨_, List.mem_singleton_self _, "a\nb", rfl, by decide⟩⟩

/-- A run over one instruction with such a text puts out two lines. -/
theorem CommandLine.output_of_string_with_newline :
    let folder : Folder :=
      ⟨[("d", (Text.utf8Bytes "0001 (func 1) print\n").toArray),
        ("s", #[1, 0, 0x0e, 3, 0x61, 0x0a, 0x62])]⟩
    ((run Folder.access ["disasm", "s", "-p", "d"]).run folder).1 =
      ⟨0, "print(\"a\nb\")\n", "[INFO ] 1 instructions in 7 bytes\n"⟩ := by
  decide +kernel

end ScriptDisassembler
