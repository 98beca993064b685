import ScriptDisassembler.Instruction.Basic
import ScriptDisassembler.Notice
import ScriptDisassembler.Operand.Reading

/-!
# Decoding instructions

A decoder reads instructions by the operand counts that a lookup declares.  A script does not say
where its instructions end, so everything behind a wrongly declared one is read wrongly; an opcode
without a declaration is either taken to have no operands, with a notice, or refused.

`Decoder.decode` reads one instruction and moves forward whether it succeeds or not
(`Decoder.forward_decode`); a success takes at least the two bytes of the header
(`Decoder.remaining_lt_of_decode`).
-/

namespace ScriptDisassembler

/-- What to do with an opcode that has no prototype. -/
inductive UnknownOpcodes
  /-- Take it to have no operands. -/
  | lenient
  /-- Refuse it. -/
  | strict
deriving DecidableEq, Repr

instance : Inhabited UnknownOpcodes :=
  ⟨.lenient⟩

/-- The rules by which instructions are decoded. -/
structure Decoder where
  /-- The declared opcodes. -/
  lookup : Lookup
  /-- What happens to the others. -/
  unknownOpcodes : UnknownOpcodes

/-- The outcome of decoding: a result, the cursor afterwards, and what was noticed. -/
structure Decoding (α : Type) where
  /-- What was decoded, or why it was not. -/
  result : Except Error α
  /-- The cursor behind the last byte that was read. -/
  cursor : Cursor
  /-- What was noticed, in order. -/
  notices : List Notice

namespace Decoder

/-- How many operands an opcode found at `offset` has, with what is to be noticed about it. -/
def operandCount (decoder : Decoder) (opcode : UInt16) (offset : Nat) :
    Except Error (OperandCount × List Notice) :=
  match decoder.lookup opcode with
  | some prototype => .ok (prototype.count, [])
  | none =>
      match decoder.unknownOpcodes with
      | .lenient => .ok (.fixed 0, [.assumedNoOperands opcode offset])
      | .strict => .error (.unknownOpcode opcode offset)

/-- Read the operands of the instruction that starts with `header` at `offset`. -/
def decodeBehind (decoder : Decoder) (offset : Nat) (header : UInt16) (behind : Cursor) :
    Decoding Instruction :=
  let opcode := Header.opcode header
  match decoder.operandCount opcode offset with
  | .error error => ⟨.error error, behind, []⟩
  | .ok (count, notices) =>
      match Operand.readAll count behind with
      | (.error error, after) => ⟨.error (.instruction opcode offset error), after, notices⟩
      | (.ok operands, after) =>
          let size := after.position - offset
          ⟨.ok ⟨offset, size, opcode, Header.inverts header, operands⟩, after, notices⟩

/-- Read one instruction. -/
def decode (decoder : Decoder) (cursor : Cursor) : Decoding Instruction :=
  match Reader.word cursor with
  | (.error error, after) => ⟨.error error, after, []⟩
  | (.ok header, behind) => decoder.decodeBehind cursor.position header behind

end Decoder

/-! ## Decoding goes forward -/

namespace Operand

theorem forward_readExactly (count : Nat) : (readExactly count).Forward := by
  induction count with
  | zero => exact Reader.forward_pure []
  | succ count ih =>
      rw [readExactly_succ]
      exact forward_read.bind fun _ => ih.bind fun _ => Reader.forward_pure _

theorem forward_readUntilEnd : readUntilEnd.Forward := by
  intro cursor
  induction left : cursor.remaining using Nat.strongRecOn generalizing cursor with
  | ind bound ih =>
      have head := forward_read cursor
      rw [readUntilEnd_eq, Reader.bind_apply]
      rcases outcome : read cursor with ⟨result, after⟩
      rw [outcome] at head
      cases result with
      | error error => exact head
      | ok operand =>
          by_cases last : operand.kind = .terminator
          · simpa [last] using head
          · have fewer := remaining_lt_of_read outcome
            have further := ih after.remaining (by omega) after rfl
            simp only [last, if_false]
            rw [Reader.bind_apply]
            rcases rest : readUntilEnd after with ⟨result, final⟩
            rw [rest] at further
            simp only at head further
            rw [head.1] at further
            have reached : final.data = cursor.data ∧ cursor.position ≤ final.position ∧
                final.position ≤ max cursor.position cursor.data.size :=
              ⟨further.1, by omega, by omega⟩
            cases result with
            | error error => exact reached
            | ok operands => exact reached

theorem forward_readAll (count : OperandCount) : (readAll count).Forward := by
  cases count with
  | fixed count => exact forward_readExactly count
  | variadic => exact forward_readUntilEnd

end Operand

namespace Decoder

theorem forward_decodeBehind (decoder : Decoder) (offset : Nat) (header : UInt16)
    (behind : Cursor) :
    (decoder.decodeBehind offset header behind).cursor.data = behind.data ∧
      behind.position ≤ (decoder.decodeBehind offset header behind).cursor.position ∧
      (decoder.decodeBehind offset header behind).cursor.position ≤
        max behind.position behind.data.size := by
  cases declared : decoder.operandCount (Header.opcode header) offset with
  | error error =>
      simp only [decodeBehind, declared]
      exact ⟨trivial, Nat.le_refl _, Nat.le_max_left _ _⟩
  | ok count =>
      have forward := Operand.forward_readAll count.1 behind
      rcases outcome : Operand.readAll count.1 behind with ⟨result, after⟩
      rw [outcome] at forward
      cases result <;> simpa only [decodeBehind, declared, outcome] using forward

/-- Decoding keeps the data and never moves backwards or past the end. -/
theorem forward_decode (decoder : Decoder) (cursor : Cursor) :
    (decoder.decode cursor).cursor.data = cursor.data ∧
      cursor.position ≤ (decoder.decode cursor).cursor.position ∧
      (decoder.decode cursor).cursor.position ≤ max cursor.position cursor.data.size := by
  have head := Reader.forward_word cursor
  unfold decode
  rcases outcome : Reader.word cursor with ⟨result, behind⟩
  rw [outcome] at head
  cases result with
  | error error => exact head
  | ok header =>
      have tail := decoder.forward_decodeBehind cursor.position header behind
      simp only at head ⊢
      rw [head.1] at tail
      exact ⟨tail.1, by omega, by omega⟩

/-- A header that is there takes two bytes, whatever follows. -/
theorem position_add_two_le_decode (decoder : Decoder) {cursor : Cursor}
    (header : 2 ≤ cursor.remaining) :
    cursor.position + 2 ≤ (decoder.decode cursor).cursor.position := by
  simp only [decode, Reader.word_of_le header]
  exact (decoder.forward_decodeBehind cursor.position _ (cursor.advance 2)).2.1

/-- Without two bytes for a header nothing is consumed. -/
theorem decode_of_remaining_lt (decoder : Decoder) {cursor : Cursor}
    (short : cursor.remaining < 2) :
    decoder.decode cursor = ⟨.error (cursor.shortfall 2), cursor, []⟩ := by
  simp only [decode, Reader.word_of_lt short]

/-- A decoded instruction takes at least two of the bytes that are left. -/
theorem remaining_lt_of_decode {decoder : Decoder} {cursor : Cursor} {instruction : Instruction}
    (success : (decoder.decode cursor).result = .ok instruction) :
    (decoder.decode cursor).cursor.remaining < cursor.remaining := by
  by_cases header : 2 ≤ cursor.remaining
  · have moved := decoder.position_add_two_le_decode header
    have forward := decoder.forward_decode cursor
    simp only [Cursor.remaining, forward.1] at header ⊢
    omega
  · rw [decode_of_remaining_lt decoder (by omega)] at success
    cases success

/-- A decoded instruction has been there. -/
theorem hasMore_of_decode {decoder : Decoder} {cursor : Cursor} {instruction : Instruction}
    (success : (decoder.decode cursor).result = .ok instruction) : cursor.hasMore = true :=
  Cursor.hasMore_iff.mpr (Nat.zero_lt_of_lt (remaining_lt_of_decode success))

end Decoder

end ScriptDisassembler
