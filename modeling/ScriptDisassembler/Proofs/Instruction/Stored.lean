import ScriptDisassembler.Instruction.Decoding
import ScriptDisassembler.Instruction.Writing
import ScriptDisassembler.Proofs.Operand.Sequence

/-!
# The stored form of an instruction

Opcode and inversion can be recovered from a header, and the operand count tells where the operands
end.  `Decoder.decode_eq_ok_iff` takes a decoded instruction apart; from it follow the two
directions of the stored form, one instruction at a time.
-/

namespace ScriptDisassembler

namespace Header

theorem opcode_le (header : UInt16) : Header.opcode header ≤ 0x7fff :=
  UInt16.and_le_right

theorem opcode_eq_self {opcode : UInt16} (small : opcode ≤ 0x7fff) :
    Header.opcode opcode = opcode := by
  apply UInt16.toNat_inj.mp
  have mask : opcodeMask.toNat = 2 ^ 15 - 1 := rfl
  have bound : opcode.toNat ≤ 0x7fff := UInt16.le_iff_toNat_le.mp small
  rw [Header.opcode, UInt16.toNat_and, mask, Nat.and_two_pow_sub_one_eq_mod]
  omega

theorem opcode_compose {opcode : UInt16} (small : opcode ≤ 0x7fff) (inverted : Bool) :
    Header.opcode (compose opcode inverted) = opcode := by
  have masked : opcode &&& opcodeMask = opcode := opcode_eq_self small
  have clear : (if inverted then invertBit else 0) &&& opcodeMask = 0 := by
    cases inverted <;> rfl
  rw [compose, masked, Header.opcode]
  apply UInt16.toBitVec_inj.mp
  rw [UInt16.toBitVec_and, UInt16.toBitVec_or, BitVec.and_or_distrib_right, ← UInt16.toBitVec_and,
    ← UInt16.toBitVec_and, masked, clear]
  exact BitVec.or_zero

theorem inverts_compose {opcode : UInt16} (small : opcode ≤ 0x7fff) (inverted : Bool) :
    inverts (compose opcode inverted) = inverted := by
  have masked : opcode &&& opcodeMask = opcode := opcode_eq_self small
  have clear : opcode &&& invertBit = 0 := by
    have disjoint : opcodeMask &&& invertBit = 0 := rfl
    rw [← masked, UInt16.and_assoc, disjoint, UInt16.and_zero]
  have flag : flags (compose opcode inverted) = if inverted then invertBit else 0 := by
    rw [compose, masked, flags]
    apply UInt16.toBitVec_inj.mp
    rw [UInt16.toBitVec_and, UInt16.toBitVec_or, BitVec.and_or_distrib_right,
      ← UInt16.toBitVec_and, clear]
    cases inverted <;> rfl
  rw [inverts, flag]
  cases inverted <;> rfl

end Header

namespace OperandCount

/-- The operands are as many as declared; an open-ended list holds no end marker. -/
def Allows (operands : List Operand) : OperandCount → Prop
  | .fixed count => operands.length = count
  | .variadic => ∀ operand ∈ operands, operand.kind ≠ .terminator

instance (operands : List Operand) : (count : OperandCount) → Decidable (count.Allows operands)
  | .fixed _ => inferInstanceAs (Decidable (_ = _))
  | .variadic => inferInstanceAs (Decidable (∀ operand ∈ operands, operand.kind ≠ .terminator))

/-- What closes a list of operands. -/
def closing : OperandCount → List UInt8
  | .fixed _ => []
  | .variadic => [Tag.endOfArguments.code]

end OperandCount

namespace Operand

/-- An end marker is one byte. -/
theorem read_terminator_iff {cursor after : Cursor} :
    (∃ last, read cursor = (.ok last, after) ∧ last.kind = .terminator) ↔
      cursor.Passes [Tag.endOfArguments.code] after := by
  constructor
  · rintro ⟨last, success, kind_eq⟩
    have tag_eq : last.tag = .endOfArguments := by
      rw [← Tag.kind_eq_terminator_iff, ← kind_eq]
      exact (read_eq_ok_iff.mp success).1.symm
    rcases read_eq_ok_iff.mp success with ⟨_, stored, admitted, _, framed⟩
    rw [tag_eq] at admitted framed
    rwa [List.length_eq_zero_iff.mp admitted] at framed
  · intro passage
    have storable : (ofTag .endOfArguments .empty).Storable := ⟨rfl, rfl⟩
    exact ⟨_, read_of_passes storable passage, rfl⟩

/-- The operands that a count declares are read through, and what closes them is passed. -/
theorem readAll_eq_ok_iff {count : OperandCount} {operands : List Operand}
    {cursor after : Cursor} :
    readAll count cursor = (.ok operands, after) ↔
      count.Allows operands ∧
        ∃ middle, ReadsThrough cursor operands middle ∧ middle.Passes count.closing after := by
  cases count with
  | fixed count =>
      simp only [OperandCount.closing, Cursor.passes_nil_iff, exists_eq_right']
      exact readExactly_eq_ok_iff
  | variadic =>
      rw [OperandCount.closing, readAll, readUntilEnd_eq_ok_iff]
      apply and_congr_right
      intro _
      apply exists_congr
      intro middle
      rw [exists_and_left, read_terminator_iff]

end Operand

namespace Lookup

/-- The operand count by which an opcode is decoded: the declared one, or else none. -/
def countOf (lookup : Lookup) (opcode : UInt16) : OperandCount :=
  match lookup opcode with
  | some prototype => prototype.count
  | none => .fixed 0

theorem endMarker_eq (lookup : Lookup) (opcode : UInt16) :
    lookup.endMarker opcode = (lookup.countOf opcode).closing := by
  unfold endMarker countOf
  cases lookup opcode with
  | none => rfl
  | some prototype =>
      simp only [Option.map_some, Option.some.injEq]
      cases prototype.count <;> rfl

end Lookup

/-- An instruction that can be stored under a lookup: it has the operands that its opcode is
declared with, and no others. -/
structure Instruction.Storable (instruction : Instruction) (lookup : Lookup) : Prop where
  opcode_le : instruction.opcode ≤ 0x7fff
  allowed : (lookup.countOf instruction.opcode).Allows instruction.operands
  operands : ∀ operand ∈ instruction.operands, operand.Storable

instance (instruction : Instruction) (lookup : Lookup) :
    Decidable (instruction.Storable lookup) :=
  decidable_of_iff
    (instruction.opcode ≤ 0x7fff ∧
      (lookup.countOf instruction.opcode).Allows instruction.operands ∧
      ∀ operand ∈ instruction.operands, operand.Storable)
    ⟨fun parts => ⟨parts.1, parts.2.1, parts.2.2⟩,
      fun storable => ⟨storable.opcode_le, storable.allowed, storable.operands⟩⟩

namespace Decoder

/-- Every count that a decoder goes by is the one of its lookup. -/
theorem countOf_of_operandCount {decoder : Decoder} {opcode : UInt16} {offset : Nat}
    {count : OperandCount} {notices : List Notice}
    (known : decoder.operandCount opcode offset = .ok (count, notices)) :
    count = decoder.lookup.countOf opcode := by
  unfold operandCount at known
  unfold Lookup.countOf
  cases declared : decoder.lookup opcode with
  | some prototype =>
      rw [declared] at known
      cases known
      rfl
  | none =>
      rw [declared] at known
      cases policy : decoder.unknownOpcodes with
      | lenient =>
          rw [policy] at known
          cases known
          rfl
      | strict =>
          rw [policy] at known
          cases known

/-- A lenient decoder has a count for every opcode. -/
theorem operandCount_of_lenient {decoder : Decoder} (lenient : decoder.unknownOpcodes = .lenient)
    (opcode : UInt16) (offset : Nat) :
    ∃ notices, decoder.operandCount opcode offset =
      .ok (decoder.lookup.countOf opcode, notices) := by
  unfold operandCount Lookup.countOf
  cases decoder.lookup opcode with
  | some prototype => exact ⟨[], rfl⟩
  | none =>
      rw [lenient]
      exact ⟨[.assumedNoOperands opcode offset], rfl⟩

/-- The outcome of decoding an instruction, with the cursor and the notices that it has. -/
theorem decode_eq_of_ok {decoder : Decoder} {cursor : Cursor} {instruction : Instruction}
    (success : (decoder.decode cursor).result = .ok instruction) :
    decoder.decode cursor =
      ⟨.ok instruction, (decoder.decode cursor).cursor, (decoder.decode cursor).notices⟩ := by
  rw [← success]

/-- A decoded instruction is a header, then the operands that its opcode has. -/
theorem decode_eq_ok_iff {decoder : Decoder} {cursor after : Cursor} {instruction : Instruction}
    {notices : List Notice} :
    decoder.decode cursor = ⟨.ok instruction, after, notices⟩ ↔
      ∃ header behind count operands,
        cursor.Passes (LittleEndian.bytes 2 header.toNat) behind ∧
        decoder.operandCount (Header.opcode header) cursor.position = .ok (count, notices) ∧
        Operand.readAll count behind = (.ok operands, after) ∧
        instruction = ⟨cursor.position, after.position - cursor.position, Header.opcode header,
          Header.inverts header, operands⟩ := by
  simp only [← Reader.word_eq_ok_iff]
  constructor
  · intro success
    unfold decode at success
    rcases headerRead : Reader.word cursor with ⟨result, behind⟩
    rw [headerRead] at success
    cases result with
    | error error => cases success
    | ok header =>
        simp only [decodeBehind] at success
        cases declared : decoder.operandCount (Header.opcode header) cursor.position with
        | error error =>
            rw [declared] at success
            cases success
        | ok known =>
            rcases operandsRead : Operand.readAll known.1 behind with ⟨outcome, last⟩
            rw [declared] at success
            simp only [operandsRead] at success
            cases outcome with
            | error error => cases success
            | ok operands =>
                cases success
                exact ⟨header, behind, known.1, operands, rfl, declared, operandsRead, rfl⟩
  · rintro ⟨header, behind, count, operands, headerRead, declared, operandsRead, rfl⟩
    simp only [decode, headerRead, decodeBehind, declared, operandsRead]

/-- The bytes of a storable instruction are decoded as this instruction, where it stands. -/
theorem decode_of_passes {decoder : Decoder} (lenient : decoder.unknownOpcodes = .lenient)
    {instruction : Instruction} (storable : instruction.Storable decoder.lookup)
    {cursor after : Cursor}
    (passage : cursor.Passes (instruction.bytes decoder.lookup) after) :
    ∃ notices, decoder.decode cursor =
      ⟨.ok { instruction with
          offset := cursor.position
          size := (instruction.bytes decoder.lookup).length }, after, notices⟩ := by
  have size_eq : after.position - cursor.position =
      (instruction.bytes decoder.lookup).length := by
    rw [passage.position_eq, Nat.add_sub_cancel_left]
  obtain ⟨notices, known⟩ :=
    operandCount_of_lenient lenient instruction.opcode cursor.position
  rw [Instruction.bytes, Lookup.endMarker_eq] at passage
  rcases Cursor.passes_append_iff.mp passage with ⟨middle, front, closed⟩
  rcases Cursor.passes_append_iff.mp front with ⟨behind, headerStands, operandsStand⟩
  have opcode_eq : Header.opcode instruction.header = instruction.opcode :=
    Header.opcode_compose storable.opcode_le instruction.inverted
  have inverts_eq : Header.inverts instruction.header = instruction.inverted :=
    Header.inverts_compose storable.opcode_le instruction.inverted
  have through := Operand.ReadsThrough.of_passes storable.operands operandsStand
  refine ⟨notices, decode_eq_ok_iff.mpr ⟨instruction.header, behind, _, instruction.operands,
    headerStands, by rw [opcode_eq]; exact known, ?_, ?_⟩⟩
  · exact Operand.readAll_eq_ok_iff.mpr ⟨storable.allowed, middle, through, closed⟩
  · rw [size_eq, opcode_eq, inverts_eq]

/-- An instruction that was decoded and has no string operand stands in the script in its bytes. -/
theorem passes_of_decode {decoder : Decoder} {cursor after : Cursor} {instruction : Instruction}
    {notices : List Notice}
    (success : decoder.decode cursor = ⟨.ok instruction, after, notices⟩)
    (noString : ∀ operand ∈ instruction.operands, operand.kind ≠ .string) :
    cursor.Passes (instruction.bytes decoder.lookup) after := by
  obtain ⟨header, behind, count, operands, headerStands, known, operandsRead, rfl⟩ :=
    decode_eq_ok_iff.mp success
  rcases Operand.readAll_eq_ok_iff.mp operandsRead with ⟨-, middle, through, closed⟩
  rw [countOf_of_operandCount known, ← Lookup.endMarker_eq] at closed
  have operandsStand := through.passes noString
  rw [Instruction.bytes, Instruction.header, Header.compose_opcode_inverts]
  exact (headerStands.trans operandsStand).trans closed

end Decoder

end ScriptDisassembler
