import ScriptDisassembler.Proofs.Instruction.Step
import ScriptDisassembler.Proofs.Operand.OpenEnd

/-!
# Open-ended and counted declarations

Decoders that declare an opcode with different operand counts read the same header and differ in
how far they read operands.  `Decoder.decode_variadic` compares the open-ended declaration with all
counted ones: it succeeds exactly if the counted list of one operand more ends in the first end
marker, and fails exactly as the first counted list that fails.
-/

namespace ScriptDisassembler.Decoder

variable {cursor after : Cursor} {header : UInt16}

/-- The instruction of a header that stands at a cursor, with operands that end at another one. -/
def instructionAt (cursor : Cursor) (header : UInt16) (operands : List Operand)
    (after : Cursor) : Instruction :=
  ⟨cursor.position, after.position - cursor.position, Header.opcode header,
    Header.inverts header, operands⟩

/-- Whether decoders declare an opcode with the operand counts that they belong to. -/
def DeclareEach (decoders : OperandCount → Decoder) (opcode : UInt16) : Prop :=
  ∀ count, ∃ prototype, (decoders count).lookup opcode = some prototype ∧ prototype.count = count

namespace DeclareEach

variable {decoders : OperandCount → Decoder}

/-- What a declared opcode makes of the operands that are read, without a notice. -/
theorem decode_eq (each : DeclareEach decoders (Header.opcode header))
    (heads : cursor.Heads header) (count : OperandCount) :
    (decoders count).decode cursor =
      match Operand.readAll count (cursor.advance 2) with
      | (.ok operands, after) => ⟨.ok (instructionAt cursor header operands after), after, []⟩
      | (.error source, after) =>
          ⟨.error (.instruction (Header.opcode header) cursor.position source), after, []⟩ := by
  obtain ⟨prototype, declared, rfl⟩ := each count
  rw [decode_of_declared heads declared]
  rcases Operand.readAll prototype.count (cursor.advance 2) with ⟨result, after⟩
  cases result <;> rfl

/-- The instruction is decoded exactly if its operands are read. -/
theorem decode_eq_ok_iff (each : DeclareEach decoders (Header.opcode header))
    (heads : cursor.Heads header) {count : OperandCount} {instruction : Instruction} :
    (decoders count).decode cursor = ⟨.ok instruction, after, []⟩ ↔
      ∃ operands, Operand.readAll count (cursor.advance 2) = (.ok operands, after) ∧
        instruction = instructionAt cursor header operands after := by
  rw [each.decode_eq heads]
  constructor
  · intro success
    split at success
    · rename_i operands stop read
      cases success
      exact ⟨operands, read, rfl⟩
    · cases success
  · rintro ⟨operands, read, rfl⟩
    rw [read]

/-- The instruction fails exactly as its operands do. -/
theorem decode_eq_error_iff (each : DeclareEach decoders (Header.opcode header))
    (heads : cursor.Heads header) {count : OperandCount} {error : Error} :
    (decoders count).decode cursor = ⟨.error error, after, []⟩ ↔
      ∃ source, Operand.readAll count (cursor.advance 2) = (.error source, after) ∧
        error = .instruction (Header.opcode header) cursor.position source := by
  rw [each.decode_eq heads]
  constructor
  · intro failure
    split at failure
    · cases failure
    · rename_i source stop read
      cases failure
      exact ⟨source, read, rfl⟩
  · rintro ⟨source, read, rfl⟩
    rw [read]

/-! ## The open-ended declaration -/

theorem decode_variadic_eq_ok_iff (each : DeclareEach decoders (Header.opcode header))
    (heads : cursor.Heads header) {instruction : Instruction} :
    (decoders .variadic).decode cursor = ⟨.ok instruction, after, []⟩ ↔
      (∀ operand ∈ instruction.operands, operand.kind ≠ .terminator) ∧
        ∃ marker, marker.kind = .terminator ∧
          (decoders (.fixed (instruction.operands.length + 1))).decode cursor =
            ⟨.ok { instruction with operands := instruction.operands ++ [marker] },
              after, []⟩ := by
  simp only [each.decode_eq_ok_iff heads, Operand.readAll]
  constructor
  · rintro ⟨operands, listed, rfl⟩
    obtain ⟨others, marker, ends, counted⟩ :=
      Operand.readUntilEnd_eq_ok_iff_readExactly.mp listed
    exact ⟨others, marker, ends, operands ++ [marker], counted, rfl⟩
  · rintro ⟨others, marker, ends, operands, counted, same⟩
    cases instruction
    cases same
    exact ⟨_, Operand.readUntilEnd_eq_ok_iff_readExactly.mpr ⟨others, marker, ends, counted⟩, rfl⟩

/-- Smaller counts decode the same operands as far as they go. -/
theorem decode_fixed_of_variadic (each : DeclareEach decoders (Header.opcode header))
    (heads : cursor.Heads header) {instruction : Instruction}
    (success : (decoders .variadic).decode cursor = ⟨.ok instruction, after, []⟩) {count : Nat}
    (fewer : count ≤ instruction.operands.length) :
    ∃ size stop, (decoders (.fixed count)).decode cursor =
      ⟨.ok { instruction with size := size, operands := instruction.operands.take count },
        stop, []⟩ := by
  obtain ⟨operands, listed, rfl⟩ := (each.decode_eq_ok_iff heads).mp success
  obtain ⟨-, middle, -, through, -, -⟩ := Operand.readUntilEnd_eq_ok_iff.mp listed
  obtain ⟨stop, front⟩ := Operand.exists_readExactly_take through fewer
  exact ⟨_, stop, (each.decode_eq_ok_iff heads).mpr ⟨operands.take count, front, rfl⟩⟩

/-- Without the end marker the instruction is one byte smaller. -/
theorem decode_fixed_length_of_variadic (each : DeclareEach decoders (Header.opcode header))
    (heads : cursor.Heads header) {instruction : Instruction}
    (success : (decoders .variadic).decode cursor = ⟨.ok instruction, after, []⟩) :
    ∃ stop, (decoders (.fixed instruction.operands.length)).decode cursor =
      ⟨.ok { instruction with size := instruction.size - 1 }, stop, []⟩ := by
  obtain ⟨operands, listed, rfl⟩ := (each.decode_eq_ok_iff heads).mp success
  obtain ⟨-, middle, marker, through, last, ends⟩ := Operand.readUntilEnd_eq_ok_iff.mp listed
  have front := Operand.readExactly_eq_ok_iff.mpr ⟨rfl, through⟩
  have stop_eq : after.position = middle.position + 1 :=
    (Operand.read_terminator_iff.mp ⟨marker, last, ends⟩).position_eq
  have size_eq : after.position - cursor.position - 1 = middle.position - cursor.position := by
    omega
  refine ⟨middle, (each.decode_eq_ok_iff heads).mpr ⟨operands, front, ?_⟩⟩
  simp only [instructionAt, size_eq]

theorem decode_variadic_eq_error_iff (each : DeclareEach decoders (Header.opcode header))
    (heads : cursor.Heads header) {error : Error} :
    (decoders .variadic).decode cursor = ⟨.error error, after, []⟩ ↔
      ∃ count instruction stop,
        (decoders (.fixed count)).decode cursor = ⟨.ok instruction, stop, []⟩ ∧
        instruction.operands.length = count ∧
        (∀ operand ∈ instruction.operands, operand.kind ≠ .terminator) ∧
        (decoders (.fixed (count + 1))).decode cursor = ⟨.error error, after, []⟩ := by
  simp only [each.decode_eq_ok_iff heads, each.decode_eq_error_iff heads, Operand.readAll]
  constructor
  · rintro ⟨source, failed, rfl⟩
    obtain ⟨operands, middle, others, front, failure⟩ :=
      Operand.readUntilEnd_eq_error_iff_readExactly.mp failed
    exact ⟨operands.length, _, middle, ⟨operands, front, rfl⟩, rfl, others, source, failure, rfl⟩
  · rintro ⟨count, _, middle, ⟨operands, front, rfl⟩, rfl, others, source, failure, rfl⟩
    exact ⟨source, Operand.readUntilEnd_eq_error_iff_readExactly.mpr
      ⟨operands, middle, others, front, failure⟩, rfl⟩

end DeclareEach

/-! ## Main result -/

/-- Let decoders declare the opcode of a header with every operand count; they notice nothing.  With
the open-ended one an instruction is decoded exactly if with the count of one operand more an end
marker is the last operand and the only one; then smaller counts decode the same operands as far as
they go, and without the marker the instruction is one byte smaller.  With the open-ended one
decoding fails exactly if it does so in the same way with the count of one operand more than can be
read, none of them an end marker. -/
theorem decode_variadic (heads : cursor.Heads header) {decoders : OperandCount → Decoder}
    (each : DeclareEach decoders (Header.opcode header)) :
    (∀ count, ((decoders count).decode cursor).notices = []) ∧
      (∀ instruction after,
        (decoders .variadic).decode cursor = ⟨.ok instruction, after, []⟩ ↔
          (∀ operand ∈ instruction.operands, operand.kind ≠ .terminator) ∧
            ∃ marker, marker.kind = .terminator ∧
              (decoders (.fixed (instruction.operands.length + 1))).decode cursor =
                ⟨.ok { instruction with operands := instruction.operands ++ [marker] },
                  after, []⟩) ∧
      (∀ instruction after,
        (decoders .variadic).decode cursor = ⟨.ok instruction, after, []⟩ →
          (∀ count ≤ instruction.operands.length, ∃ size stop,
            (decoders (.fixed count)).decode cursor =
              ⟨.ok { instruction with
                  size := size
                  operands := instruction.operands.take count }, stop, []⟩) ∧
          ∃ stop, (decoders (.fixed instruction.operands.length)).decode cursor =
            ⟨.ok { instruction with size := instruction.size - 1 }, stop, []⟩) ∧
      ∀ error after,
        (decoders .variadic).decode cursor = ⟨.error error, after, []⟩ ↔
          ∃ count instruction stop,
            (decoders (.fixed count)).decode cursor = ⟨.ok instruction, stop, []⟩ ∧
            instruction.operands.length = count ∧
            (∀ operand ∈ instruction.operands, operand.kind ≠ .terminator) ∧
            (decoders (.fixed (count + 1))).decode cursor = ⟨.error error, after, []⟩ := by
  refine ⟨?_, fun _ _ => each.decode_variadic_eq_ok_iff heads, ?_,
    fun _ _ => each.decode_variadic_eq_error_iff heads⟩
  · intro count
    rw [each.decode_eq heads]
    split <;> rfl
  · intro instruction after success
    exact ⟨fun count fewer => each.decode_fixed_of_variadic heads success fewer,
      each.decode_fixed_length_of_variadic heads success⟩

/-- Two operands, the end marker, and a byte that is no tag. -/
theorem decode_variadic_marker :
    let decoders : OperandCount → Decoder :=
      fun count => ⟨Lookup.ofPairs [(1, .unnamed 1 count)], .strict⟩
    let cursor : Cursor := ⟨#[0xff, 0x01, 0x80, 0x04, 0x05, 0x03, 0x07, 0x00, 0x00, 0x14], 1⟩
    let operands : List Operand := [.ofTag .signed8 (.integer 5), .ofTag .local32 (.integer 7)]
    cursor.Heads 0x8001 ∧ DeclareEach decoders (Header.opcode 0x8001) ∧
      (decoders .variadic).decode cursor =
        ⟨.ok ⟨1, 8, 1, true, operands⟩, ⟨cursor.data, 9⟩, []⟩ ∧
      ∃ stop, (decoders (.fixed 2)).decode cursor =
        ⟨.ok ⟨1, 7, 1, true, operands⟩, stop, []⟩ := by
  intro decoders cursor operands
  have heads : cursor.Heads 0x8001 := ⟨by decide, by decide⟩
  have each : DeclareEach decoders (Header.opcode 0x8001) := fun count => ⟨_, rfl, rfl⟩
  have ⟨_, succeeds, shorter, _⟩ := decode_variadic heads each
  have variadic : (decoders .variadic).decode cursor =
      ⟨.ok ⟨1, 8, 1, true, operands⟩, ⟨cursor.data, 9⟩, []⟩ := by
    refine (succeeds _ _).mpr ⟨by decide, .ofTag .endOfArguments .empty, rfl, ?_⟩
    simp only [decoders, cursor, operands]
    rfl
  exact ⟨heads, each, variadic, (shorter _ _ variadic).2⟩

end ScriptDisassembler.Decoder
