import ScriptDisassembler.Proofs.Instruction.OpenEnd
import ScriptDisassembler.Proofs.Operand.Counted

/-!
# Declared counts and the bytes behind a header

A declared operand count can be larger than any script.  `Decoder.decode_fixed` says that this does
no harm: an instruction is decoded only if there are as many bytes as operands, decoding fails as it
does with the smallest count that fails, and all counts past the number of bytes fail alike.
-/

namespace ScriptDisassembler.Decoder

variable {cursor : Cursor} {header : UInt16} {decoders : OperandCount → Decoder}

namespace DeclareEach

/-- An instruction is decoded only if there are as many bytes as operands. -/
theorem le_remaining_of_decode (each : DeclareEach decoders (Header.opcode header))
    (heads : cursor.Heads header) {count : Nat} {instruction : Instruction}
    (success : ((decoders (.fixed count)).decode cursor).result = .ok instruction) :
    count ≤ (cursor.advance 2).remaining ∧ instruction.operands.length = count := by
  rw [each.decode_eq heads] at success
  split at success
  · rename_i operands after read
    cases success
    exact ⟨Operand.le_remaining_of_readExactly read, (Operand.readExactly_eq_ok_iff.mp read).1⟩
  · cases success

/-- All counts past the number of bytes behind the header fail alike. -/
theorem exists_decode_eq_error (each : DeclareEach decoders (Header.opcode header))
    (heads : cursor.Heads header) :
    ∃ error after, ∀ count, (cursor.advance 2).remaining < count →
      (decoders (.fixed count)).decode cursor = ⟨.error error, after, []⟩ := by
  obtain ⟨source, after, alike⟩ := Operand.exists_readExactly_eq_error (cursor.advance 2)
  exact ⟨_, after, fun count more =>
    (each.decode_eq_error_iff heads).mpr ⟨source, alike count more, rfl⟩⟩

/-- A count fails exactly as the smallest count that fails. -/
theorem decode_fixed_eq_error_iff (each : DeclareEach decoders (Header.opcode header))
    (heads : cursor.Heads header) {count : Nat} {error : Error} {after : Cursor} :
    (decoders (.fixed count)).decode cursor = ⟨.error error, after, []⟩ ↔
      ∃ fewer < count, ∃ instruction stop,
        (decoders (.fixed fewer)).decode cursor = ⟨.ok instruction, stop, []⟩ ∧
        (decoders (.fixed (fewer + 1))).decode cursor = ⟨.error error, after, []⟩ := by
  simp only [each.decode_eq_ok_iff heads, each.decode_eq_error_iff heads, Operand.readAll]
  constructor
  · rintro ⟨source, failed, rfl⟩
    obtain ⟨fewer, less, operands, middle, front, failure⟩ :=
      Operand.readExactly_eq_error_iff_readExactly.mp failed
    exact ⟨fewer, less, _, middle, ⟨operands, front, rfl⟩, source, failure, rfl⟩
  · rintro ⟨fewer, less, _, middle, ⟨operands, front, rfl⟩, source, failure, rfl⟩
    exact ⟨source, Operand.readExactly_eq_error_iff_readExactly.mpr
      ⟨fewer, less, operands, middle, front, failure⟩, rfl⟩

end DeclareEach

/-! ## Main result -/

/-- Let decoders declare the opcode of a header with every operand count; they notice nothing.  A
count is decoded only if there are as many bytes behind the header, and then gives as many operands.
All counts past the number of these bytes fail in the same way at the same place.  A count fails
exactly if a smaller one is decoded and the next one after that fails, and then as the latter does,
so all counts from the first that fails on fail alike. -/
theorem decode_fixed (heads : cursor.Heads header)
    (each : DeclareEach decoders (Header.opcode header)) :
    (∀ count, ((decoders (.fixed count)).decode cursor).notices = []) ∧
      (∀ count instruction,
        ((decoders (.fixed count)).decode cursor).result = .ok instruction →
          count ≤ (cursor.advance 2).remaining ∧ instruction.operands.length = count) ∧
      (∃ error after, ∀ count, (cursor.advance 2).remaining < count →
        (decoders (.fixed count)).decode cursor = ⟨.error error, after, []⟩) ∧
      ∀ count error after,
        (decoders (.fixed count)).decode cursor = ⟨.error error, after, []⟩ ↔
          ∃ fewer < count, ∃ instruction stop,
            (decoders (.fixed fewer)).decode cursor = ⟨.ok instruction, stop, []⟩ ∧
            (decoders (.fixed (fewer + 1))).decode cursor = ⟨.error error, after, []⟩ := by
  refine ⟨?_, fun _ _ => each.le_remaining_of_decode heads, each.exists_decode_eq_error heads,
    fun _ _ _ => each.decode_fixed_eq_error_iff heads⟩
  intro count
  rw [each.decode_eq heads]
  split <;> rfl

/-- Two operands are there, the second of them an end marker, and half of a third. -/
theorem decode_fixed_huge :
    let decoders : OperandCount → Decoder :=
      fun count => ⟨Lookup.ofPairs [(1, .unnamed 1 count)], .lenient⟩
    let cursor : Cursor := ⟨#[0xff, 0x01, 0x00, 0x04, 0x05, 0x00, 0x05, 0x01], 1⟩
    let error : Error := .instruction 1 1 (.truncated 7 2 1)
    cursor.Heads 0x0001 ∧ DeclareEach decoders (Header.opcode 0x0001) ∧
      (decoders (.fixed 3)).decode cursor = ⟨.error error, ⟨cursor.data, 7⟩, []⟩ ∧
      ∀ count, 2 < count →
        (decoders (.fixed count)).decode cursor = ⟨.error error, ⟨cursor.data, 7⟩, []⟩ := by
  intro decoders cursor error
  have heads : cursor.Heads 0x0001 := ⟨by decide, by decide⟩
  have each : DeclareEach decoders (Header.opcode 0x0001) := fun count => ⟨_, rfl, rfl⟩
  have ⟨_, _, _, fails⟩ := decode_fixed heads each
  have second : (decoders (.fixed 2)).decode cursor =
      ⟨.ok ⟨1, 5, 1, false, [.ofTag .signed8 (.integer 5), .ofTag .endOfArguments .empty]⟩,
        ⟨cursor.data, 6⟩, []⟩ := by
    simp only [decoders, cursor]
    rfl
  have third : (decoders (.fixed 3)).decode cursor =
      ⟨.error error, ⟨cursor.data, 7⟩, []⟩ := by
    simp only [decoders, cursor, error]
    rfl
  refine ⟨heads, each, third, fun count more => ?_⟩
  exact (fails count error _).mpr ⟨2, more, _, _, second, third⟩

end ScriptDisassembler.Decoder
