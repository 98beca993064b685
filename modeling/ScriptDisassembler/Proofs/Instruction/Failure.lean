import ScriptDisassembler.Proofs.Instruction.Step
import ScriptDisassembler.Proofs.Operand.Failure

/-!
# How decoding fails

A failure tells by its form what went wrong and where.  A truncation is one of the header, a refused
opcode needs a strict decoder and a lookup without it, and a failure in an instruction is one of its
operands, of which the lookup declares some number.  The form also fixes where the cursor stands.

Nothing else fails: the sizes of the tags agree with what is made of their payloads, so a payload is
never too short for its kind, an integer never has another width than integers have, and no failure
counts positions from the start of a payload.
-/

namespace ScriptDisassembler

namespace Decoder

/-- How decoding the instruction at a cursor can fail, with the cursor afterwards. -/
def Fault (decoder : Decoder) (cursor after : Cursor) : Error → Prop
  | .truncated offset requested available =>
      offset = cursor.position ∧ requested = 2 ∧ available = cursor.data.size - cursor.position ∧
        available < 2 ∧ after = cursor
  | .unknownOpcode opcode offset =>
      ∃ header, cursor.Heads header ∧ opcode = header &&& 0x7fff ∧ offset = cursor.position ∧
        decoder.unknownOpcodes = .strict ∧ decoder.lookup opcode = none ∧ after = cursor.advance 2
  | .instruction opcode offset source =>
      ∃ header prototype, cursor.Heads header ∧ opcode = header &&& 0x7fff ∧
        offset = cursor.position ∧ decoder.lookup opcode = some prototype ∧
        Operand.Fault (cursor.advance 2) after source
  | _ => False

/-- Every failure of decoding an instruction is one of these, and no two of them have the same
form. -/
theorem fault_of_decode {decoder : Decoder} {cursor : Cursor} {error : Error}
    (failure : (decoder.decode cursor).result = .error error) :
    decoder.Fault cursor (decoder.decode cursor).cursor error := by
  rcases cursor.remaining_lt_or_heads with short | ⟨header, heads⟩
  · rw [decode_of_remaining_lt decoder short] at failure ⊢
    cases failure
    exact ⟨rfl, rfl, rfl, short, rfl⟩
  cases declared : decoder.lookup (Header.opcode header) with
  | none =>
      cases policy : decoder.unknownOpcodes with
      | lenient =>
          rw [decode_of_lenient heads declared policy] at failure
          cases failure
      | strict =>
          rw [decode_of_strict heads declared policy] at failure ⊢
          cases failure
          exact ⟨header, heads, rfl, rfl, policy, declared, rfl⟩
  | some prototype =>
      rw [decode_of_declared heads declared] at failure ⊢
      rcases outcome : Operand.readAll prototype.count (cursor.advance 2) with ⟨result, after⟩
      rw [outcome] at failure
      cases result with
      | ok operands => cases failure
      | error source =>
          cases failure
          exact ⟨header, prototype, heads, rfl, rfl, declared,
            Operand.fault_of_readAll heads.advance_two_le outcome⟩

/-- The second operand of an inverted instruction starts with a byte that is no tag. -/
theorem fault_of_decode_noTag :
    let decoder : Decoder := ⟨Lookup.ofPairs [(1, .unnamed 1 (.fixed 3))], .lenient⟩
    let cursor : Cursor := ⟨#[0xff, 0x01, 0x80, 0x04, 0x05, 0x14, 0x00], 1⟩
    (decoder.decode cursor).result = .error (.instruction 1 1 (.invalidTag 0x14)) ∧
      decoder.Fault cursor ⟨cursor.data, 6⟩ (.instruction 1 1 (.invalidTag 0x14)) := by
  intro decoder cursor
  have outcome : decoder.decode cursor =
      ⟨.error (.instruction 1 1 (.invalidTag 0x14)), ⟨cursor.data, 6⟩, []⟩ := by
    simp only [decoder, cursor]
    rfl
  have failure : (decoder.decode cursor).result =
      .error (.instruction 1 1 (.invalidTag 0x14)) := by rw [outcome]
  have fault := fault_of_decode failure
  rw [outcome] at fault
  exact ⟨failure, fault⟩

end Decoder

end ScriptDisassembler
