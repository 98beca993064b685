import ScriptDisassembler.Instruction.Text
import ScriptDisassembler.Proofs.Instruction.Stored
import ScriptDisassembler.Proofs.Operand.Meaning
import ScriptDisassembler.Proofs.Result

/-!
# Which instructions have a source line

An operand that was read has an empty payload exactly if its tag is the end marker
(`Operand.payload_eq_empty_iff_of_read`), and only an empty payload has no written form.  Names,
operators and operand counts decide how a source line looks, never whether there is one: the lookup
it is written with plays no part (`Instruction.text_iff_of_decode`).
-/

namespace ScriptDisassembler

namespace Operand

theorem payload_eq_empty_iff_of_read {operand : Operand} {cursor after : Cursor}
    (success : read cursor = (.ok operand, after)) :
    operand.payload = .empty ↔ operand.tag = .endOfArguments := by
  obtain ⟨kind_eq, stored, admitted, meaning, -⟩ := read_eq_ok_iff.mp success
  constructor
  · intro empty
    rw [empty] at meaning
    exact Tag.kind_eq_terminator_iff.mp (Payload.means_of_ofBytes admitted meaning).1
  · intro marker
    rw [marker] at meaning
    injection meaning with payload_eq
    exact payload_eq.symm

/-- An operand that was read has no written form exactly if it is an end marker. -/
theorem text_eq_error_iff_of_read {operand : Operand} {cursor after : Cursor} {error : Error}
    (success : read cursor = (.ok operand, after)) :
    operand.text = .error error ↔
      operand.tag = .endOfArguments ∧ error = .unrenderable .terminator := by
  rw [text_eq_error_iff, payload_eq_empty_iff_of_read success]
  apply and_congr_right
  intro marker
  rw [(read_eq_ok_iff.mp success).1, marker]
  rfl

theorem ReadsThrough.exists_read_of_mem {cursor after : Cursor} {operands : List Operand}
    (through : ReadsThrough cursor operands after) {operand : Operand}
    (member : operand ∈ operands) : ∃ there behind, read there = (.ok operand, behind) := by
  induction through with
  | nil cursor => cases member
  | @cons cursor middle after head others headRead tail ih =>
      rcases List.mem_cons.mp member with rfl | later
      · exact ⟨cursor, middle, headRead⟩
      · exact ih later

end Operand

namespace Decoder

variable {decoder : Decoder} {cursor : Cursor} {instruction : Instruction}

/-- A decoded instruction has operands that its count allows and that were read. -/
theorem allows_and_read_of_decode
    (success : (decoder.decode cursor).result = .ok instruction) :
    (decoder.lookup.countOf instruction.opcode).Allows instruction.operands ∧
      ∀ operand ∈ instruction.operands, ∃ there behind,
        Operand.read there = (.ok operand, behind) := by
  obtain ⟨header, behind, count, operands, -, known, operandsRead, same⟩ :=
    decode_eq_ok_iff.mp (decode_eq_of_ok success)
  obtain ⟨allowed, middle, through, -⟩ := Operand.readAll_eq_ok_iff.mp operandsRead
  rw [countOf_of_operandCount known] at allowed
  rw [same]
  exact ⟨allowed, fun operand member => through.exists_read_of_mem member⟩

/-- No operand of an open-ended list, or of an opcode without a prototype, is an end marker. -/
theorem tag_ne_endOfArguments_of_decode
    (success : (decoder.decode cursor).result = .ok instruction)
    (uncounted : ∀ prototype, decoder.lookup instruction.opcode = some prototype →
      prototype.count = .variadic) :
    ∀ operand ∈ instruction.operands, operand.tag ≠ .endOfArguments := by
  obtain ⟨allowed, wereRead⟩ := allows_and_read_of_decode success
  intro operand member marker
  obtain ⟨there, behind, operandRead⟩ := wereRead operand member
  unfold Lookup.countOf at allowed
  cases declared : decoder.lookup instruction.opcode with
  | none =>
      simp only [declared] at allowed
      rw [List.length_eq_zero_iff.mp allowed] at member
      cases member
  | some prototype =>
      simp only [declared, uncounted prototype declared] at allowed
      apply allowed operand member
      rw [(Operand.read_eq_ok_iff.mp operandRead).1, marker]
      rfl

end Decoder

namespace Instruction

variable {instruction : Instruction}

/-! ## Written operands make a line -/

theorem text_of_mapM {lookup : Lookup} {texts : List String}
    (written : instruction.operands.mapM Operand.text = .ok texts) :
    instruction.text lookup =
      (.ok (invertText instruction.inverted (lookup.applicationText instruction.opcode texts).1),
        (lookup.applicationText instruction.opcode texts).2) := by
  simp only [text, written]

theorem text_of_mapM_error {lookup : Lookup} {error : Error}
    (failure : instruction.operands.mapM Operand.text = .error error) :
    instruction.text lookup = (.error error, []) := by
  simp only [text, failure]

/-! ## Main result -/

/-- Whatever lookup a decoded instruction is written with, it has no source line exactly if one of
its operands was read behind the tag of an end marker; that is then the failure, and nothing is
noticed.  This happens to no instruction with an open-ended list of operands, nor to one whose
opcode has no prototype. -/
theorem text_iff_of_decode {decoder : Decoder} {cursor : Cursor}
    (success : (decoder.decode cursor).result = .ok instruction) (lookup : Lookup) :
    ((∃ error, (instruction.text lookup).1 = .error error) ↔
        ∃ operand ∈ instruction.operands, operand.tag = .endOfArguments) ∧
      (∀ error, (instruction.text lookup).1 = .error error →
        error = .unrenderable .terminator ∧ (instruction.text lookup).2 = []) ∧
      ((∀ prototype, decoder.lookup instruction.opcode = some prototype →
          prototype.count = .variadic) →
        ∃ text, (instruction.text lookup).1 = .ok text) := by
  have wereRead := (Decoder.allows_and_read_of_decode success).2
  cases outcome : instruction.operands.mapM Operand.text with
  | error error =>
      obtain ⟨operand, member, fails⟩ := exists_of_except_mapM_eq_error outcome
      obtain ⟨there, behind, operandRead⟩ := wereRead operand member
      obtain ⟨marker, rfl⟩ := (Operand.text_eq_error_iff_of_read operandRead).mp fails
      rw [text_of_mapM_error outcome]
      refine ⟨⟨fun _ => ⟨operand, member, marker⟩, fun _ => ⟨_, rfl⟩⟩, ?_, ?_⟩
      · rintro error ⟨⟩
        exact ⟨rfl, rfl⟩
      · intro uncounted
        exact absurd marker
          (Decoder.tag_ne_endOfArguments_of_decode success uncounted operand member)
  | ok texts =>
      rw [text_of_mapM outcome]
      refine ⟨⟨?_, ?_⟩, ?_, fun _ => ⟨_, rfl⟩⟩
      · rintro ⟨error, ⟨⟩⟩
      · rintro ⟨operand, member, marker⟩
        obtain ⟨there, behind, operandRead⟩ := wereRead operand member
        have fails := (Operand.text_eq_error_iff_of_read operandRead).mpr ⟨marker, rfl⟩
        obtain ⟨text, written⟩ := exists_of_except_mapM_eq_ok outcome member
        rw [fails] at written
        cases written
      · rintro error ⟨⟩

/-- The second of two operands is an end marker, which no operator can be written with. -/
theorem text_iff_of_decode_marker :
    let decoder : Decoder := ⟨Lookup.ofPairs [(1, .unnamed 1 (.fixed 2))], .strict⟩
    let cursor : Cursor := ⟨#[0x01, 0x80, 0x04, 0x05, 0x00], 0⟩
    let instruction : Instruction := ⟨0, 5, 1, true,
      [⟨.signed8, .integer, .integer 5⟩, ⟨.endOfArguments, .terminator, .empty⟩]⟩
    (decoder.decode cursor).result = .ok instruction ∧
      ∃ error, (instruction.text (Lookup.ofPairs [(1, .operator 1 "+=" 2)])).1 = .error error := by
  intro decoder cursor instruction
  have success : (decoder.decode cursor).result = .ok instruction := by
    simp only [decoder, cursor, instruction]
    rfl
  exact ⟨success, (text_iff_of_decode success _).1.mpr
    ⟨⟨.endOfArguments, .terminator, .empty⟩, by decide, rfl⟩⟩

end Instruction

end ScriptDisassembler
