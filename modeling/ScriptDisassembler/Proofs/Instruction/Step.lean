import ScriptDisassembler.Instruction.Stream
import ScriptDisassembler.Proofs.Instruction.Stored

/-!
# One instruction after another

What decoding an instruction does is said by four equations, of which exactly one applies: too few
bytes are left for a header, or the opcode in the header is declared, or it is not and the decoder
is lenient, or strict.  A whole script is an induction over its instructions (`Decoder.induction`),
and the list of its outcomes is what a walk gives step by step (`Walk.yields_items`).
-/

namespace ScriptDisassembler

namespace Cursor

/-- The header that stands at a cursor. -/
def Heads (cursor : Cursor) (header : UInt16) : Prop :=
  cursor.Passes (LittleEndian.bytes 2 header.toNat) (cursor.advance 2)

theorem Heads.word {cursor : Cursor} {header : UInt16} (heads : cursor.Heads header) :
    Reader.word cursor = (.ok header, cursor.advance 2) :=
  Reader.word_eq_ok_iff.mpr heads

theorem Heads.two_le_remaining {cursor : Cursor} {header : UInt16} (heads : cursor.Heads header) :
    2 ≤ cursor.remaining := by
  rw [← length_rest, heads.rest_eq, List.length_append, LittleEndian.length_bytes]
  omega

/-- Behind a header the cursor is not past the end. -/
theorem Heads.advance_two_le {cursor : Cursor} {header : UInt16} (heads : cursor.Heads header) :
    (cursor.advance 2).position ≤ (cursor.advance 2).data.size := by
  have room := heads.two_le_remaining
  simp only [remaining, advance] at room ⊢
  omega

/-- A header stands at a cursor unless too few bytes are left. -/
theorem remaining_lt_or_heads (cursor : Cursor) :
    cursor.remaining < 2 ∨ ∃ header, cursor.Heads header := by
  by_cases fits : 2 ≤ cursor.remaining
  · exact .inr ⟨_, Reader.word_eq_ok_iff.mp (Reader.word_of_le fits)⟩
  · exact .inl (by omega)

end Cursor

namespace Decoder

variable {decoder : Decoder} {cursor : Cursor} {header : UInt16}

/-! ## One instruction -/

/-- The operands of a declared opcode are read, and what fails there fails in this instruction. -/
theorem decode_of_declared (heads : cursor.Heads header) {prototype : Prototype}
    (declared : decoder.lookup (Header.opcode header) = some prototype) :
    decoder.decode cursor =
      let (result, after) := Operand.readAll prototype.count (cursor.advance 2)
      ⟨(result.mapError (.instruction (Header.opcode header) cursor.position)).map fun operands =>
          ⟨cursor.position, after.position - cursor.position, Header.opcode header,
            Header.inverts header, operands⟩,
        after, []⟩ := by
  simp only [decode, heads.word, decodeBehind, operandCount, declared]
  rcases Operand.readAll prototype.count (cursor.advance 2) with ⟨result, after⟩
  cases result <;> rfl

/-- A lenient decoder takes an undeclared opcode to have no operands, and says so. -/
theorem decode_of_lenient (heads : cursor.Heads header)
    (undeclared : decoder.lookup (Header.opcode header) = none)
    (lenient : decoder.unknownOpcodes = .lenient) :
    decoder.decode cursor =
      ⟨.ok ⟨cursor.position, 2, Header.opcode header, Header.inverts header, []⟩,
        cursor.advance 2, [.assumedNoOperands (Header.opcode header) cursor.position]⟩ := by
  simp only [decode, heads.word, decodeBehind, operandCount, undeclared, lenient,
    Operand.readAll, Operand.readExactly_zero, Cursor.advance, Nat.add_sub_cancel_left]

/-- A strict decoder refuses an undeclared opcode behind its header. -/
theorem decode_of_strict (heads : cursor.Heads header)
    (undeclared : decoder.lookup (Header.opcode header) = none)
    (strict : decoder.unknownOpcodes = .strict) :
    decoder.decode cursor =
      ⟨.error (.unknownOpcode (Header.opcode header) cursor.position), cursor.advance 2, []⟩ := by
  simp only [decode, heads.word, decodeBehind, operandCount, undeclared, strict]

/-- A decoded instruction takes the bytes between the cursors, and at least those of its header. -/
theorem extent_of_decode {after : Cursor} {instruction : Instruction} {notices : List Notice}
    (success : decoder.decode cursor = ⟨.ok instruction, after, notices⟩) :
    instruction.offset = cursor.position ∧
      instruction.offset + instruction.size = after.position ∧
      cursor.position + 2 ≤ after.position := by
  obtain ⟨header, behind, count, operands, heads, -, operandsRead, rfl⟩ :=
    decode_eq_ok_iff.mp success
  have forward := (Operand.forward_readAll count behind).2.1
  rw [operandsRead, heads.position_eq, LittleEndian.length_bytes] at forward
  have reached : cursor.position + (after.position - cursor.position) = after.position :=
    Nat.add_sub_cancel' (Nat.le_of_add_right_le forward)
  exact ⟨rfl, reached, forward⟩

/-! ## All instructions -/

/-- What holds behind the last byte, in front of a failure, and in front of an instruction if it
holds behind it, holds of every cursor. -/
@[elab_as_elim]
theorem induction (decoder : Decoder) {motive : Cursor → Prop}
    (done : ∀ cursor, cursor.hasMore = false → motive cursor)
    (error : ∀ cursor error, cursor.hasMore = true →
      (decoder.decode cursor).result = .error error → motive cursor)
    (ok : ∀ cursor instruction, (decoder.decode cursor).result = .ok instruction →
      motive (decoder.decode cursor).cursor → motive cursor) (cursor : Cursor) :
    motive cursor := by
  induction left : cursor.remaining using Nat.strongRecOn generalizing cursor with
  | ind bound ih =>
      cases more : cursor.hasMore with
      | false => exact done cursor more
      | true =>
          cases outcome : (decoder.decode cursor).result with
          | error failure => exact error cursor failure more outcome
          | ok instruction =>
              have fewer := remaining_lt_of_decode outcome
              exact ok cursor instruction outcome (ih _ (left ▸ fewer) _ rfl)

/-- Behind the last byte there are no outcomes. -/
theorem items_of_done (done : cursor.hasMore = false) : decoder.items cursor = [] := by
  rw [items_eq, if_neg (by simp [done])]

/-- A failure is the last outcome. -/
theorem items_of_error (more : cursor.hasMore = true) {error : Error}
    (failure : (decoder.decode cursor).result = .error error) :
    decoder.items cursor = [decoder.decode cursor] := by
  have ended : (decoder.decode cursor).result.isOk = false := by
    rw [failure]
    rfl
  rw [items_eq, if_pos more, if_neg (by simp [ended])]

/-- Behind an instruction the outcomes go on. -/
theorem items_of_ok {instruction : Instruction}
    (success : (decoder.decode cursor).result = .ok instruction) :
    decoder.items cursor =
      decoder.decode cursor :: decoder.items (decoder.decode cursor).cursor := by
  have goesOn : (decoder.decode cursor).result.isOk = true := by
    rw [success]
    rfl
  rw [items_eq, if_pos (hasMore_of_decode success), if_pos goesOn]

theorem decodeAll_of_done (done : cursor.hasMore = false) :
    decoder.decodeAll cursor = ⟨.ok [], cursor, []⟩ := by
  rw [decodeAll_eq, if_neg (by simp [done])]

theorem decodeAll_of_error (more : cursor.hasMore = true) {error : Error}
    (failure : (decoder.decode cursor).result = .error error) :
    decoder.decodeAll cursor =
      ⟨.error error, (decoder.decode cursor).cursor, (decoder.decode cursor).notices⟩ := by
  rw [decodeAll_eq, if_pos more, failure]

theorem decodeAll_of_ok {instruction : Instruction}
    (success : (decoder.decode cursor).result = .ok instruction) :
    decoder.decodeAll cursor =
      let rest := decoder.decodeAll (decoder.decode cursor).cursor
      ⟨rest.result.map (instruction :: ·), rest.cursor,
        (decoder.decode cursor).notices ++ rest.notices⟩ := by
  rw [decodeAll_eq, if_pos (hasMore_of_decode success), success]

/-- Every outcome is that of decoding somewhere. -/
theorem exists_decode_of_mem_items {item : Decoding Instruction}
    (member : item ∈ decoder.items cursor) : ∃ there, item = decoder.decode there := by
  induction cursor using decoder.induction with
  | done cursor done =>
      rw [items_of_done done] at member
      cases member
  | error cursor error more failure =>
      rw [items_of_error more failure] at member
      exact ⟨cursor, List.mem_singleton.mp member⟩
  | ok cursor instruction success ih =>
      rw [items_of_ok success] at member
      rcases List.mem_cons.mp member with here | later
      · exact ⟨cursor, here⟩
      · exact ih later

/-- The cursor where the outcomes from a cursor on come to their end. -/
def finish (decoder : Decoder) (cursor : Cursor) : Cursor :=
  ((decoder.items cursor).getLast?.map Decoding.cursor).getD cursor

theorem finish_of_concat {before : List (Decoding Instruction)} {last : Decoding Instruction}
    (items_eq : decoder.items cursor = before ++ [last]) : decoder.finish cursor = last.cursor := by
  rw [finish, items_eq, List.getLast?_concat]
  rfl

theorem finish_of_done (done : cursor.hasMore = false) : decoder.finish cursor = cursor := by
  rw [finish, items_of_done done]
  rfl

theorem finish_of_error (more : cursor.hasMore = true) {error : Error}
    (failure : (decoder.decode cursor).result = .error error) :
    decoder.finish cursor = (decoder.decode cursor).cursor := by
  rw [finish, items_of_error more failure]
  rfl

theorem finish_of_ok {instruction : Instruction}
    (success : (decoder.decode cursor).result = .ok instruction) :
    decoder.finish cursor = decoder.finish (decoder.decode cursor).cursor := by
  rw [finish, finish, items_of_ok success, List.getLast?_cons]
  cases decoder.items (decoder.decode cursor).cursor <;> simp [List.getLast?_cons]

end Decoder

namespace Walk

/-- The outcomes that a walk gives one by one until it gives none, and the walk that is left. -/
inductive Yields (decoder : Decoder) : Walk → List (Decoding Instruction) → Walk → Prop
  | done {walk : Walk} (ended : walk.next decoder = (none, walk)) : Yields decoder walk [] walk
  | step {walk middle after : Walk} {item : Decoding Instruction}
      {items : List (Decoding Instruction)} (head : walk.next decoder = (some item, middle))
      (tail : Yields decoder middle items after) : Yields decoder walk (item :: items) after

theorem next_start (decoder : Decoder) {cursor : Cursor} (more : cursor.hasMore = true) :
    (start cursor).next decoder =
      (some (decoder.decode cursor),
        ⟨(decoder.decode cursor).cursor, !(decoder.decode cursor).result.isOk⟩) := by
  simp [next, start, more]

/-- A walk from a cursor gives the outcomes from there on, and ends where they do. -/
theorem yields_items (decoder : Decoder) (cursor : Cursor) :
    ∃ failed, Yields decoder (start cursor) (decoder.items cursor)
      ⟨decoder.finish cursor, failed⟩ := by
  induction cursor using decoder.induction with
  | done cursor done =>
      rw [Decoder.items_of_done done, Decoder.finish_of_done done]
      exact ⟨false, .done (by simp [next, start, done])⟩
  | error cursor error more failure =>
      rw [Decoder.items_of_error more failure, Decoder.finish_of_error more failure]
      have head := next_start decoder more
      rw [failure] at head
      exact ⟨true, .step head (.done rfl)⟩
  | ok cursor instruction success ih =>
      rw [Decoder.items_of_ok success, Decoder.finish_of_ok success]
      have head := next_start decoder (Decoder.hasMore_of_decode success)
      rw [success] at head
      obtain ⟨failed, tail⟩ := ih
      exact ⟨failed, .step head tail⟩

end Walk

end ScriptDisassembler
