import Mathlib.Data.List.Forall2
import Mathlib.Data.List.TakeDrop
import ScriptDisassembler.Disassembly
import ScriptDisassembler.Proofs.Instruction.Step

/-!
# Lines up to a failure

A disassembly takes the longest beginning of the outcomes in which every one is decoded and written
(`Decoder.writes_disassemble`).  Its failure is that of the outcome behind it, which was either not
decoded or not written.
-/

namespace ScriptDisassembler

namespace Disassembly

variable {lookup : Lookup} {item : Decoding Instruction} {items : List (Decoding Instruction)}

/-- Whether an instruction was decoded and is written as a line. -/
def WrittenAs (lookup : Lookup) (item : Decoding Instruction) (line : SourceLine) : Prop :=
  ∃ instruction, item.result = .ok instruction ∧ instruction.offset = line.offset ∧
    instruction.opcode = line.opcode ∧ (instruction.text lookup).1 = .ok line.text

/-- Whether decoding an instruction failed, or writing the decoded instruction. -/
def FailsWith (lookup : Lookup) (item : Decoding Instruction) (error : Error) : Prop :=
  item.result = .error error ∨
    ∃ instruction, item.result = .ok instruction ∧ (instruction.text lookup).1 = .error error

/-- Whether lines are those of a beginning of the outcomes behind which nothing follows, or an
outcome that fails. -/
def Writes (lookup : Lookup) (items : List (Decoding Instruction)) (lines : List SourceLine)
    (failure : Option Error) : Prop :=
  ∃ written rest, items = written ++ rest ∧ List.Forall₂ (WrittenAs lookup) written lines ∧
    match failure with
    | none => rest = []
    | some error => ∃ item, rest.head? = some item ∧ FailsWith lookup item error

/-- An outcome that is written does not fail. -/
theorem WrittenAs.not_failsWith {line : SourceLine} {error : Error}
    (written : WrittenAs lookup item line) : ¬FailsWith lookup item error := by
  obtain ⟨instruction, decoded, -, -, text⟩ := written
  rintro (failure | ⟨other, same, failure⟩)
  · rw [decoded] at failure
    cases failure
  · rw [decoded] at same
    cases same
    rw [text] at failure
    cases failure

/-- A line is given for an outcome exactly if it is written so. -/
theorem lineOf_eq_ok_iff {line : SourceLine} :
    (lineOf lookup item).1 = .ok line ↔ WrittenAs lookup item line := by
  unfold lineOf WrittenAs
  cases item.result with
  | error error => simp
  | ok instruction =>
      cases line
      cases text : (instruction.text lookup).1 <;> simp [text, Except.map]

/-- There is no line for an outcome exactly if it fails. -/
theorem lineOf_eq_error_iff {error : Error} :
    (lineOf lookup item).1 = .error error ↔ FailsWith lookup item error := by
  unfold lineOf FailsWith
  cases item.result with
  | error error => simp
  | ok instruction => cases text : (instruction.text lookup).1 <;> simp [text, Except.map]

/-! ## One result after another -/

section Results

variable (notices : List Notice) (results : List (Except Error SourceLine × List Notice))

theorem ofResults_cons_ok (line : SourceLine) :
    ofResults ((.ok line, notices) :: results) =
      ⟨line :: (ofResults results).lines, (ofResults results).failure,
        notices ++ (ofResults results).notices⟩ := by
  simp [ofResults, List.span_eq_takeWhile_dropWhile, Except.isOk, Except.toBool, Except.toOption]

theorem ofResults_cons_error (error : Error) :
    ofResults ((.error error, notices) :: results) = ⟨[], some error, notices⟩ := by
  simp [ofResults, List.span_eq_takeWhile_dropWhile, Except.isOk, Except.toBool, failure?]

end Results

/-- The results of outcomes are the lines up to the first one that fails. -/
theorem writes_ofResults (lookup : Lookup) (items : List (Decoding Instruction)) :
    Writes lookup items (ofResults (items.map (lineOf lookup))).lines
      (ofResults (items.map (lineOf lookup))).failure := by
  induction items with
  | nil => exact ⟨[], [], rfl, .nil, rfl⟩
  | cons item items ih =>
      rcases given : lineOf lookup item with ⟨result, notices⟩
      cases result with
      | error error =>
          have fails : FailsWith lookup item error := lineOf_eq_error_iff.mp (by rw [given])
          rw [List.map_cons, given, ofResults_cons_error]
          exact ⟨[], item :: items, rfl, .nil, item, rfl, fails⟩
      | ok line =>
          have written : WrittenAs lookup item line := lineOf_eq_ok_iff.mp (by rw [given])
          obtain ⟨earlier, rest, items_eq, lines, ended⟩ := ih
          rw [List.map_cons, given, ofResults_cons_ok]
          exact ⟨item :: earlier, rest, by rw [items_eq, List.cons_append], .cons written lines,
            ended⟩

/-! ## What the lines say of the outcomes -/

namespace Writes

variable {lines : List SourceLine} {failure : Option Error}

/-- Every line is that of an outcome. -/
theorem exists_writtenAs (writes : Writes lookup items lines failure) {line : SourceLine}
    (member : line ∈ lines) : ∃ item ∈ items, WrittenAs lookup item line := by
  obtain ⟨written, rest, rfl, given, -⟩ := writes
  induction given with
  | nil => cases member
  | cons first others ih =>
      rcases List.mem_cons.mp member with rfl | member
      · exact ⟨_, by simp, first⟩
      · obtain ⟨item, among, as⟩ := ih member
        exact ⟨item, List.mem_cons_of_mem _ among, as⟩

/-- There is no failure exactly if every outcome is written. -/
theorem failure_eq_none_iff (writes : Writes lookup items lines failure) :
    failure = none ↔ ∀ item ∈ items, ∃ line, WrittenAs lookup item line := by
  obtain ⟨written, rest, rfl, given, ended⟩ := writes
  cases failure with
  | none =>
      have all : ∀ item ∈ written, ∃ line, WrittenAs lookup item line := by
        induction given with
        | nil => simp
        | cons first others ih =>
            intro item member
            rcases List.mem_cons.mp member with rfl | member
            · exact ⟨_, first⟩
            · exact ih item member
      simpa [ended] using all
  | some error =>
      obtain ⟨item, head, fails⟩ := ended
      have member : item ∈ written ++ rest :=
        List.mem_append_right _ (List.mem_of_head? head)
      refine iff_of_false (by simp) fun all => ?_
      obtain ⟨line, as⟩ := all item member
      exact as.not_failsWith fails

/-- The opcode of a line is without the bit for inversion. -/
theorem opcode_le {decoder : Decoder} {cursor : Cursor}
    (writes : Writes lookup (decoder.items cursor) lines failure) {line : SourceLine}
    (member : line ∈ lines) : line.opcode ≤ 0x7fff := by
  obtain ⟨item, among, instruction, decoded, -, opcode_eq, -⟩ := writes.exists_writtenAs member
  obtain ⟨there, rfl⟩ := Decoder.exists_decode_of_mem_items among
  obtain ⟨header, behind, count, operands, -, -, -, rfl⟩ :=
    Decoder.decode_eq_ok_iff.mp (show decoder.decode there =
      ⟨.ok instruction, (decoder.decode there).cursor, (decoder.decode there).notices⟩ by
        rw [← decoded])
  rw [← opcode_eq]
  exact Header.opcode_le header

end Writes

end Disassembly

/-! ## Main result -/

/-- A disassembly writes the outcomes of its script, up to the first one that fails. -/
theorem Decoder.writes_disassemble (decoder : Decoder) (cursor : Cursor) :
    Disassembly.Writes decoder.lookup (decoder.items cursor) (decoder.disassemble cursor).lines
      (decoder.disassemble cursor).failure :=
  Disassembly.writes_ofResults decoder.lookup (decoder.items cursor)

end ScriptDisassembler
