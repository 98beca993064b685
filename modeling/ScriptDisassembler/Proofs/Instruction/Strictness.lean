import ScriptDisassembler.Proofs.Instruction.Step

/-!
# Strict and lenient decoders

A strict decoder does what a lenient one does as long as every opcode is declared, and refuses the
first instruction whose opcode is not.  The lenient one decodes that instruction and says so in a
notice; nothing else is noticed while decoding (`Decoder.items_strict`).
-/

namespace ScriptDisassembler

open Numeral

namespace Lookup

/-- The decoder that takes undeclared opcodes to have no operands. -/
def lenient (lookup : Lookup) : Decoder :=
  ⟨lookup, .lenient⟩

/-- The decoder that refuses undeclared opcodes. -/
def strict (lookup : Lookup) : Decoder :=
  ⟨lookup, .strict⟩

/-- The instruction of an outcome, if its opcode has no prototype. -/
def undeclared? (lookup : Lookup) (item : Decoding Instruction) : Option Instruction :=
  match item.result with
  | .ok instruction => if lookup instruction.opcode = none then some instruction else none
  | .error _ => none

variable {lookup : Lookup} {item : Decoding Instruction} {instruction : Instruction}

theorem undeclared?_of_error {error : Error} (failure : item.result = .error error) :
    lookup.undeclared? item = none := by
  rw [undeclared?, failure]

theorem undeclared?_of_declared {prototype : Prototype}
    (success : item.result = .ok instruction)
    (declared : lookup instruction.opcode = some prototype) :
    lookup.undeclared? item = none := by
  simp [undeclared?, success, declared]

theorem undeclared?_eq_some_iff :
    lookup.undeclared? item = some instruction ↔
      item.result = .ok instruction ∧ lookup instruction.opcode = none := by
  unfold undeclared?
  cases item.result with
  | error error => simp
  | ok found =>
      by_cases unknown : lookup found.opcode = none
      · simp only [unknown, if_true, Option.some.injEq, Except.ok.injEq]
        constructor
        · rintro rfl
          exact ⟨rfl, unknown⟩
        · exact And.left
      · simp only [unknown, if_false, reduceCtorEq, Except.ok.injEq, false_iff, not_and]
        rintro rfl
        exact unknown

end Lookup

/-- The refusal of an instruction of a script, with the cursor behind its header. -/
def Instruction.refusal (instruction : Instruction) (data : Array UInt8) : Decoding Instruction :=
  ⟨.error (.unknownOpcode instruction.opcode instruction.offset), ⟨data, instruction.offset + 2⟩,
    []⟩

namespace Decoder

/-! ## One instruction -/

/-- An undeclared instruction is noticed by the lenient decoder and refused by the strict one;
anything else is the same for both and without a notice. -/
theorem decode_strict (lookup : Lookup) (cursor : Cursor) :
    (lookup.undeclared? (lookup.lenient.decode cursor) = none ∧
        (lookup.lenient.decode cursor).notices = [] ∧
        lookup.strict.decode cursor = lookup.lenient.decode cursor) ∨
      ∃ instruction, lookup.undeclared? (lookup.lenient.decode cursor) = some instruction ∧
        (lookup.lenient.decode cursor).notices =
          [.assumedNoOperands instruction.opcode instruction.offset] ∧
        lookup.strict.decode cursor = instruction.refusal cursor.data := by
  rcases cursor.remaining_lt_or_heads with short | ⟨header, heads⟩
  · rw [decode_of_remaining_lt _ short, decode_of_remaining_lt _ short]
    exact .inl ⟨Lookup.undeclared?_of_error rfl, rfl, rfl⟩
  cases declared : lookup (Header.opcode header) with
  | none =>
      have decoded := @decode_of_lenient lookup.lenient cursor header heads declared rfl
      have refused := @decode_of_strict lookup.strict cursor header heads declared rfl
      rw [decoded, refused]
      exact .inr ⟨_, Lookup.undeclared?_eq_some_iff.mpr ⟨rfl, declared⟩, rfl, rfl⟩
  | some prototype =>
      have byLenient := @decode_of_declared lookup.lenient cursor header heads prototype declared
      have byStrict := @decode_of_declared lookup.strict cursor header heads prototype declared
      rw [byLenient, byStrict]
      refine .inl ⟨?_, rfl, rfl⟩
      rcases Operand.readAll prototype.count (cursor.advance 2) with ⟨result, after⟩
      cases result with
      | error source => exact Lookup.undeclared?_of_error rfl
      | ok operands => exact Lookup.undeclared?_of_declared rfl declared

/-! ## All instructions -/

/-- The outcomes of the strict decoder are those of the lenient one, up to the first undeclared
instruction if there is one. -/
theorem items_strict_or (lookup : Lookup) (cursor : Cursor) :
    ((∀ item ∈ lookup.lenient.items cursor, lookup.undeclared? item = none) ∧
        lookup.strict.items cursor = lookup.lenient.items cursor) ∨
      ∃ before item rest instruction,
        lookup.lenient.items cursor = before ++ item :: rest ∧
        (∀ earlier ∈ before, lookup.undeclared? earlier = none) ∧
        lookup.undeclared? item = some instruction ∧
        lookup.strict.items cursor = before ++ [instruction.refusal cursor.data] := by
  induction cursor using lookup.lenient.induction with
  | done cursor done =>
      rw [items_of_done done, items_of_done done]
      exact .inl ⟨by simp, rfl⟩
  | error cursor error more failure =>
      rcases decode_strict lookup cursor with ⟨known, -, same⟩ | ⟨instruction, unknown, -, -⟩
      · have likewise : (lookup.strict.decode cursor).result = .error error := by
          rw [same, failure]
        rw [items_of_error more failure, items_of_error more likewise, same]
        exact .inl ⟨by simpa using known, rfl⟩
      · rw [Lookup.undeclared?_of_error failure] at unknown
        cases unknown
  | ok cursor instruction success ih =>
      rcases decode_strict lookup cursor with
        ⟨known, -, same⟩ | ⟨instruction, unknown, -, refused⟩
      · have data_eq := (lookup.lenient.forward_decode cursor).1
        have likewise : (lookup.strict.decode cursor).result = .ok instruction := by
          rw [same, success]
        rw [items_of_ok success, items_of_ok likewise, same]
        rcases ih with ⟨allKnown, equal⟩ |
          ⟨before, item, rest, other, split, earlier, unknown, stopped⟩
        · exact .inl ⟨List.forall_mem_cons.mpr ⟨known, allKnown⟩, by rw [equal]⟩
        · rw [split, stopped, data_eq]
          exact .inr ⟨_ :: before, item, rest, other, rfl,
            List.forall_mem_cons.mpr ⟨known, earlier⟩, unknown, rfl⟩
      · have stop : (lookup.strict.decode cursor).result =
            .error (.unknownOpcode instruction.opcode instruction.offset) := by
          rw [refused]
          rfl
        rw [items_of_ok success, items_of_error (hasMore_of_decode success) stop, refused]
        exact .inr ⟨[], _, _, instruction, rfl, by simp, unknown, rfl⟩

/-- The lenient decoder notices each undeclared instruction, in order. -/
theorem notices_lenient (lookup : Lookup) (cursor : Cursor) :
    (lookup.lenient.items cursor).flatMap Decoding.notices =
      ((lookup.lenient.items cursor).filterMap lookup.undeclared?).map fun instruction =>
        .assumedNoOperands instruction.opcode instruction.offset := by
  have single : ∀ item ∈ lookup.lenient.items cursor,
      item.notices = (lookup.undeclared? item).toList.map fun instruction =>
        .assumedNoOperands instruction.opcode instruction.offset := by
    intro item member
    obtain ⟨there, rfl⟩ := exists_decode_of_mem_items member
    rcases decode_strict lookup there with ⟨known, silent, -⟩ | ⟨instruction, unknown, noticed, -⟩
    · rw [known, silent]
      rfl
    · rw [unknown, noticed]
      rfl
  generalize lookup.lenient.items cursor = items at single ⊢
  induction items with
  | nil => rfl
  | cons item items ih =>
      rw [List.flatMap_cons, single item List.mem_cons_self,
        ih fun other member => single other (List.mem_cons_of_mem item member)]
      cases found : lookup.undeclared? item <;> simp [found]

/-- The strict decoder notices nothing. -/
theorem notices_strict (lookup : Lookup) (cursor : Cursor) :
    (lookup.strict.items cursor).flatMap Decoding.notices = [] := by
  rw [List.flatMap_eq_nil_iff]
  intro item member
  obtain ⟨there, rfl⟩ := exists_decode_of_mem_items member
  rcases decode_strict lookup there with ⟨-, silent, same⟩ | ⟨instruction, -, -, refused⟩
  · rw [same, silent]
  · rw [refused]
    rfl

/-! ## Main result -/

/-- A strict decoder refines a lenient one.  If no instruction of the lenient one is undeclared,
both have the same outcomes and come to the same end; otherwise the strict one stops at the first
that is, behind its header.  The lenient one says one line for each undeclared instruction, and the
strict one nothing. -/
theorem items_strict (lookup : Lookup) (cursor : Cursor) :
    (((∀ item ∈ lookup.lenient.items cursor, lookup.undeclared? item = none) ∧
          lookup.strict.items cursor = lookup.lenient.items cursor ∧
          lookup.strict.finish cursor = lookup.lenient.finish cursor) ∨
        ∃ before item rest instruction,
          lookup.lenient.items cursor = before ++ item :: rest ∧
          (∀ earlier ∈ before, lookup.undeclared? earlier = none) ∧
          lookup.undeclared? item = some instruction ∧
          lookup.strict.items cursor = before ++ [instruction.refusal cursor.data] ∧
          lookup.strict.finish cursor = ⟨cursor.data, instruction.offset + 2⟩) ∧
      ((lookup.lenient.items cursor).flatMap Decoding.notices).map
          (fun notice => (notice.level, notice.text)) =
        ((lookup.lenient.items cursor).filterMap lookup.undeclared?).map (fun instruction =>
          (.debug, "Opcode 0x" ++ hexPadded 4 instruction.opcode.toNat ++ " at offset 0x"
            ++ hex instruction.offset ++ " has no prototype, assuming no operands")) ∧
      (lookup.strict.items cursor).flatMap Decoding.notices = [] := by
  refine ⟨?_, ?_, notices_strict lookup cursor⟩
  · rcases items_strict_or lookup cursor with ⟨known, same⟩ |
      ⟨before, item, rest, instruction, split, earlier, unknown, stopped⟩
    · refine .inl ⟨known, same, ?_⟩
      rw [finish, finish, same]
    · exact .inr ⟨before, item, rest, instruction, split, earlier, unknown, stopped,
        finish_of_concat stopped⟩
  · rw [notices_lenient, List.map_map]
    rfl

end Decoder

end ScriptDisassembler
