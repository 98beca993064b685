import ScriptDisassembler.Proofs.Instruction.Assembly
import ScriptDisassembler.Proofs.Instruction.Step
import ScriptDisassembler.Proofs.Operand.Relocation

/-!
# Decoding the same bytes elsewhere

Decoding does not depend on what stands in front of the cursor: there the outcomes are those of the
bytes behind it alone, at positions that are greater by the number of bytes in front.  So a script
in two parts, of which the first can be decoded, is decoded part by part
(`Decoder.decodeAll_append`).
-/

namespace ScriptDisassembler

/-- The same instruction, that many bytes later in the script. -/
def Instruction.shift (distance : Nat) (instruction : Instruction) : Instruction :=
  { instruction with offset := distance + instruction.offset }

/-- The same notice, with its position that many bytes later in the script. -/
def Notice.shift (distance : Nat) : Notice → Notice
  | assumedNoOperands opcode offset => .assumedNoOperands opcode (distance + offset)
  | notice => notice

namespace Decoding

variable {α : Type}

/-- The same outcome with other bytes in front of the data; `move` says what becomes of a result. -/
def withFront (front : Array UInt8) (move : α → α) (decoding : Decoding α) : Decoding α :=
  ⟨(decoding.result.mapError (Error.shift front.size)).map move,
    decoding.cursor.withFront front, decoding.notices.map (Notice.shift front.size)⟩

@[simp]
theorem cursor_withFront (front : Array UInt8) (move : α → α) (decoding : Decoding α) :
    (decoding.withFront front move).cursor = decoding.cursor.withFront front :=
  rfl

/-- The same outcome with other bytes behind the data. -/
def withBack (back : Array UInt8) (decoding : Decoding α) : Decoding α :=
  { decoding with cursor := decoding.cursor.withBack back }

end Decoding

namespace Cursor

variable {cursor : Cursor} {header : UInt16}

theorem Heads.withFront (heads : cursor.Heads header) (front : Array UInt8) :
    (cursor.withFront front).Heads header := by
  constructor
  · rw [advance_withFront, rest_withFront, rest_withFront, heads.rest_eq]
  · rw [LittleEndian.length_bytes]

theorem Heads.withBack (heads : cursor.Heads header) (back : Array UInt8) :
    (cursor.withBack back).Heads header := by
  have room := heads.advance_two_le
  have inside : cursor.position ≤ cursor.data.size := by
    simp only [advance] at room
    omega
  constructor
  · rw [advance_withBack, rest_withBack back inside, rest_withBack back room, heads.rest_eq,
      List.append_assoc]
  · rw [LittleEndian.length_bytes]

end Cursor

namespace Decoder

variable (decoder : Decoder)

/-! ## Bytes in front -/

/-- An instruction is decoded the same way behind other bytes. -/
theorem decode_withFront (front : Array UInt8) (cursor : Cursor) :
    decoder.decode (cursor.withFront front) =
      (decoder.decode cursor).withFront front (Instruction.shift front.size) := by
  rcases cursor.remaining_lt_or_heads with short | ⟨header, heads⟩
  · have shortThere : (cursor.withFront front).remaining < 2 := by simpa using short
    rw [decode_of_remaining_lt decoder short, decode_of_remaining_lt decoder shortThere,
      Cursor.shortfall_withFront]
    rfl
  have headsThere := heads.withFront front
  cases declared : decoder.lookup (Header.opcode header) with
  | none =>
      cases policy : decoder.unknownOpcodes with
      | lenient =>
          rw [decode_of_lenient heads declared policy, decode_of_lenient headsThere declared policy,
            Cursor.advance_withFront]
          rfl
      | strict =>
          rw [decode_of_strict heads declared policy, decode_of_strict headsThere declared policy,
            Cursor.advance_withFront]
          rfl
  | some prototype =>
      rw [decode_of_declared heads declared, decode_of_declared headsThere declared,
        Cursor.advance_withFront,
        (Operand.composed_readAll prototype.count (cursor.advance 2)).withFront front]
      rcases Operand.readAll prototype.count (cursor.advance 2) with ⟨result, after⟩
      cases result with
      | error source => rfl
      | ok operands =>
          have size_eq : (after.withFront front).position - (cursor.withFront front).position =
              after.position - cursor.position := Nat.add_sub_add_left _ _ _
          show Decoding.mk (.ok _) _ _ = Decoding.mk (.ok _) _ _
          rw [size_eq]
          rfl

theorem decode_withFront_of_error {decoder : Decoder} {cursor : Cursor} {error : Error}
    (failure : (decoder.decode cursor).result = .error error) (front : Array UInt8) :
    (decoder.decode (cursor.withFront front)).result = .error (error.shift front.size) := by
  rw [decode_withFront, Decoding.withFront, failure]
  rfl

theorem decode_withFront_of_ok {decoder : Decoder} {cursor : Cursor} {instruction : Instruction}
    (success : (decoder.decode cursor).result = .ok instruction) (front : Array UInt8) :
    (decoder.decode (cursor.withFront front)).result = .ok (instruction.shift front.size) := by
  rw [decode_withFront, Decoding.withFront, success]
  rfl

theorem items_withFront (front : Array UInt8) (cursor : Cursor) :
    decoder.items (cursor.withFront front) =
      (decoder.items cursor).map (Decoding.withFront front (Instruction.shift front.size)) := by
  induction cursor using decoder.induction with
  | done cursor done =>
      rw [items_of_done done, items_of_done (by simpa using done)]
      rfl
  | error cursor error more failure =>
      have there := decode_withFront_of_error failure front
      rw [items_of_error more failure, items_of_error (by simpa using more) there,
        decode_withFront]
      rfl
  | ok cursor instruction success ih =>
      have there := decode_withFront_of_ok success front
      rw [items_of_ok success, items_of_ok there, decode_withFront, Decoding.cursor_withFront, ih]
      rfl

theorem finish_withFront (front : Array UInt8) (cursor : Cursor) :
    decoder.finish (cursor.withFront front) = (decoder.finish cursor).withFront front := by
  rw [finish, finish, items_withFront, List.getLast?_map]
  cases (decoder.items cursor).getLast? <;> rfl

theorem decodeAll_withFront (front : Array UInt8) (cursor : Cursor) :
    decoder.decodeAll (cursor.withFront front) =
      (decoder.decodeAll cursor).withFront front (List.map (Instruction.shift front.size)) := by
  induction cursor using decoder.induction with
  | done cursor done =>
      rw [decodeAll_of_done done, decodeAll_of_done (by simpa using done)]
      rfl
  | error cursor error more failure =>
      have there := decode_withFront_of_error failure front
      rw [decodeAll_of_error more failure, decodeAll_of_error (by simpa using more) there,
        decode_withFront]
      rfl
  | ok cursor instruction success ih =>
      have there := decode_withFront_of_ok success front
      rw [decodeAll_of_ok success, decodeAll_of_ok there, decode_withFront,
        Decoding.cursor_withFront, ih]
      rcases decoder.decodeAll (decoder.decode cursor).cursor with ⟨result, after, notices⟩
      cases result <;> simp only [Decoding.withFront, List.map_append] <;> rfl

/-! ## Bytes behind -/

/-- An instruction is decoded the same way in front of other bytes, unless bytes were missing; then
it takes some of the others. -/
theorem decode_withBack {cursor : Cursor} (inside : cursor.position ≤ cursor.data.size)
    (back : Array UInt8) :
    decoder.decode (cursor.withBack back) = (decoder.decode cursor).withBack back ∨
      ∃ error, (decoder.decode cursor).result = .error error ∧
        (decoder.decode cursor).cursor.Starves error.root ∧
        ∀ instruction, (decoder.decode (cursor.withBack back)).result = .ok instruction →
          cursor.data.size < (decoder.decode (cursor.withBack back)).cursor.position := by
  rcases cursor.remaining_lt_or_heads with short | ⟨header, heads⟩
  · right
    rw [decode_of_remaining_lt decoder short]
    refine ⟨_, rfl, ⟨2, short, rfl⟩, ?_⟩
    intro instruction success
    by_cases enough : 2 ≤ (cursor.withBack back).remaining
    · have moved := decoder.position_add_two_le_decode enough
      simp only [Cursor.withBack, Cursor.remaining] at moved short ⊢
      omega
    · rw [decode_of_remaining_lt decoder (by omega)] at success
      cases success
  have headsThere := heads.withBack back
  cases declared : decoder.lookup (Header.opcode header) with
  | none =>
      left
      cases policy : decoder.unknownOpcodes with
      | lenient =>
          rw [decode_of_lenient heads declared policy, decode_of_lenient headsThere declared policy]
          rfl
      | strict =>
          rw [decode_of_strict heads declared policy, decode_of_strict headsThere declared policy]
          rfl
  | some prototype =>
      have law := (Operand.composed_readAll prototype.count (cursor.advance 2)).withBack
        heads.advance_two_le back
      rw [decode_of_declared heads declared, decode_of_declared headsThere declared,
        Cursor.advance_withBack]
      rcases law with same | ⟨source, after, failure, starves, beyondEnd⟩
      · rw [same]
        exact .inl rfl
      · right
        rw [failure]
        obtain ⟨requested, missing, rfl⟩ := starves
        refine ⟨_, rfl, ⟨requested, missing, rfl⟩, ?_⟩
        intro instruction success
        rcases outcome : Operand.readAll prototype.count ((cursor.advance 2).withBack back) with
          ⟨result, beyond⟩
        rw [outcome] at success
        cases result with
        | error error => cases success
        | ok operands => exact beyondEnd operands beyond outcome

namespace DecodesThrough

variable {decoder} {cursor after : Cursor} {instructions : List Instruction}
  {notices : List Notice}

/-- Decoding through a script goes forward in it. -/
theorem forward (through : decoder.DecodesThrough cursor instructions notices after) :
    after.data = cursor.data ∧ after.position ≤ max cursor.position cursor.data.size := by
  induction through with
  | nil cursor => exact ⟨rfl, Nat.le_max_left _ _⟩
  | @cons cursor middle after instruction instructions noticed later head tail ih =>
      have step := decoder.forward_decode cursor
      rw [head] at step
      simp only at step
      rw [step.1] at ih
      exact ⟨ih.1, by omega⟩

/-- What is decoded through is decoded through in front of other bytes. -/
theorem withBack (through : decoder.DecodesThrough cursor instructions notices after)
    (inside : cursor.position ≤ cursor.data.size) (back : Array UInt8) :
    decoder.DecodesThrough (cursor.withBack back) instructions notices (after.withBack back) := by
  induction through with
  | nil cursor => exact .nil _
  | @cons cursor middle after instruction instructions noticed later head tail ih =>
      have step := decoder.forward_decode cursor
      rw [head] at step
      simp only at step
      have insideThere : middle.position ≤ middle.data.size := by
        rw [step.1]
        omega
      rcases decoder.decode_withBack inside back with same | ⟨error, failure, -, -⟩
      · rw [head] at same
        exact .cons same (ih insideThere)
      · rw [head] at failure
        cases failure

/-- What was decoded through comes first, and then what follows it. -/
theorem decodeAll_eq (through : decoder.DecodesThrough cursor instructions notices after) :
    decoder.decodeAll cursor =
      ⟨(decoder.decodeAll after).result.map (instructions ++ ·), (decoder.decodeAll after).cursor,
        notices ++ (decoder.decodeAll after).notices⟩ := by
  induction through with
  | nil cursor =>
      rcases decoder.decodeAll cursor with ⟨result, after, notices⟩
      cases result <;> rfl
  | @cons cursor middle after instruction instructions noticed later head tail ih =>
      rw [decodeAll_of_ok (congrArg Decoding.result head), head]
      simp only [ih, List.append_assoc]
      cases (decoder.decodeAll after).result <;> rfl

end DecodesThrough

/-! ## Main result -/

/-- Decoding behind other bytes is decoding from the start, with all positions greater by their
number.  If the bytes in front are themselves a script, it is decoded first and the rest behind
it. -/
theorem decodeAll_append (front back : Array UInt8) :
    let beyond : Cursor := ⟨front ++ back, front.size⟩
    decoder.items beyond =
        (decoder.items (Cursor.start back)).map
          (Decoding.withFront front (Instruction.shift front.size)) ∧
      decoder.finish beyond = (decoder.finish (Cursor.start back)).withFront front ∧
      decoder.decodeAll beyond =
        (decoder.decodeAll (Cursor.start back)).withFront front
          (List.map (Instruction.shift front.size)) ∧
      ∀ instructions, (decoder.decodeAll (Cursor.start front)).result = .ok instructions →
        (decoder.decodeAll (Cursor.start (front ++ back))).result =
          match (decoder.decodeAll (Cursor.start back)).result with
          | .ok others => .ok (instructions ++ others.map (Instruction.shift front.size))
          | .error error => .error (error.shift front.size) := by
  intro beyond
  have whole : decoder.decodeAll beyond =
      (decoder.decodeAll (Cursor.start back)).withFront front
        (List.map (Instruction.shift front.size)) :=
    decoder.decodeAll_withFront front (Cursor.start back)
  refine ⟨decoder.items_withFront front (Cursor.start back),
    decoder.finish_withFront front (Cursor.start back), whole, ?_⟩
  intro instructions success
  rcases outcome : decoder.decodeAll (Cursor.start front) with ⟨result, after, notices⟩
  rw [outcome] at success
  cases success
  rcases decodeAll_eq_ok_iff.mp outcome with ⟨through, done⟩
  -- The first part ends at its last byte, where the second one starts.
  have ended : after.withBack back = beyond := by
    obtain ⟨data_eq, bounded⟩ := through.forward
    have position_eq : after.position = front.size := by
      simp only [Cursor.hasMore, data_eq, Cursor.start, decide_eq_false_iff_not] at done bounded
      omega
    rw [Cursor.withBack, data_eq, position_eq]
    rfl
  have there := through.withBack (Nat.zero_le _) back
  rw [ended] at there
  have script : (Cursor.start front).withBack back = Cursor.start (front ++ back) := rfl
  rw [← script, there.decodeAll_eq, whole]
  unfold Decoding.withFront
  cases (decoder.decodeAll (Cursor.start back)).result <;> rfl

/-- An instruction with an operand, and behind it one whose operand is cut off. -/
theorem decodeAll_append_truncated :
    let decoder : Decoder := ⟨Lookup.ofPairs [(1, .unnamed 1 (.fixed 1))], .lenient⟩
    let front : Array UInt8 := #[0x01, 0x00, 0x04, 0x80]
    let back : Array UInt8 := #[0x01, 0x80, 0x05, 0x80]
    let instructions : List Instruction :=
      [⟨0, 4, 1, false, [.ofTag .signed8 (.integer (-128))]⟩]
    (decoder.decodeAll (Cursor.start front)).result = .ok instructions ∧
      (decoder.decodeAll (Cursor.start back)).result =
        .error (.instruction 1 0 (.truncated 3 2 1)) ∧
      (decoder.decodeAll (Cursor.start (front ++ back))).result =
        .error (.instruction 1 4 (.truncated 7 2 1)) := by
  intro decoder front back instructions
  have decoded : decoder.decode (Cursor.start front) =
      ⟨.ok ⟨0, 4, 1, false, [.ofTag .signed8 (.integer (-128))]⟩, ⟨front, 4⟩, []⟩ := by
    simp only [decoder, front]
    rfl
  have cutOff : decoder.decode (Cursor.start back) =
      ⟨.error (.instruction 1 0 (.truncated 3 2 1)), ⟨back, 3⟩, []⟩ := by
    simp only [decoder, back]
    rfl
  have first : (decoder.decodeAll (Cursor.start front)).result = .ok instructions := by
    rw [decodeAll_eq_ok_iff.mpr ⟨.cons decoded (.nil _), rfl⟩]
  have second : (decoder.decodeAll (Cursor.start back)).result =
      .error (.instruction 1 0 (.truncated 3 2 1)) := by
    rw [decodeAll_of_error rfl (congrArg Decoding.result cutOff)]
  have both := (decoder.decodeAll_append front back).2.2.2 instructions first
  rw [second] at both
  exact ⟨first, second, both⟩

end Decoder

end ScriptDisassembler
