import ScriptDisassembler.Proofs.Operand.Stored
import ScriptDisassembler.Proofs.Text.Pieces
import ScriptDisassembler.Proofs.Text.Zeros

/-!
# Strings end at their first zero byte

An immediate string is stored in a buffer (`Operand.HoldsString`), of which only the bytes in front
of the first zero byte count.  It makes no difference whether the buffer is cut there before it is
read as text, or the text at its first zero character afterwards (`toList_ofBytesLossy_upToZero`),
not even if the zero byte stands where a character was to go on.  `Operand.read_string` says what
is read from a buffer, and that every other one with the same bytes in front gives the same text.
-/

namespace ScriptDisassembler

/-! ## Buffers -/

theorem upToZero_of_notMem {stored : List UInt8} (nonzero : 0 ∉ stored) :
    upToZero stored = stored := by
  have whole := upToZero_append nonzero []
  rwa [List.append_nil, upToZero_nil, List.append_nil] at whole

theorem zero_notMem_upToZero (stored : List UInt8) : 0 ∉ upToZero stored := by
  intro member
  have passes := List.all_eq_true.mp (List.all_takeWhile (p := (· != 0)) (l := stored)) 0 member
  cases passes

/-- Cutting bytes at their first zero byte and reading them as text commute. -/
theorem toList_ofBytesLossy_upToZero (stored : List UInt8) :
    (Text.ofBytesLossy (upToZero stored)).toList =
      Text.upTo '\x00' (Text.ofBytesLossy stored).toList := by
  by_cases ends : 0 ∈ stored
  · obtain ⟨front, rest, rfl, nonzero⟩ := List.eq_append_cons_of_mem ends
    rw [upToZero_append nonzero, upToZero_cons_zero, List.append_nil, Text.ofBytesLossy_append_zero,
      String.toList_append, String.toList_push, List.append_assoc, List.singleton_append, Text.upTo]
    exact (Text.takeWhile_bne_append_cons _ (Text.zero_notMem_ofBytesLossy nonzero)).1.symm
  · rw [upToZero_of_notMem ends, Text.upTo_of_notMem (Text.zero_notMem_ofBytesLossy ends)]

/-! ## Operands -/

namespace Operand

/-- Whether an immediate string stands between two cursors: its tag, and behind it, framed as the
tag demands, a buffer of a size that the tag allows. -/
structure HoldsString (tag : Tag) (buffer : List UInt8) (cursor after : Cursor) : Prop where
  isString : tag ∈ [.string8, .string16, .variableString]
  admitted : tag.Admits buffer
  stands : cursor.Passes (tag.code :: tag.framed buffer) after

theorem kind_eq_string_iff {tag : Tag} :
    tag.kind = .string ↔ tag ∈ [.string8, .string16, .variableString] := by
  cases tag <;> decide

variable {tag : Tag} {text : String} {buffer : List UInt8} {cursor after : Cursor}

/-- A text is read exactly from a buffer whose bytes up to the first zero byte have this text. -/
theorem read_eq_text_iff (isString : tag ∈ [.string8, .string16, .variableString]) :
    read cursor = (.ok (ofTag tag (.text text)), after) ↔
      ∃ buffer, HoldsString tag buffer cursor after ∧
        text = Text.ofBytesLossy (upToZero buffer) := by
  have kind_eq := kind_eq_string_iff.mpr isString
  rw [read_eq_ok_iff]
  simp only [ofTag, kind_eq, Payload.ofBytes, Except.ok.injEq, Payload.text.injEq]
  constructor
  · rintro ⟨-, buffer, admitted, text_eq, stands⟩
    exact ⟨buffer, ⟨isString, admitted, stands⟩, text_eq.symm⟩
  · rintro ⟨buffer, holds, text_eq⟩
    exact ⟨trivial, buffer, holds.admitted, text_eq.symm, holds.stands⟩

theorem HoldsString.read_eq (holds : HoldsString tag buffer cursor after) :
    read cursor = (.ok (ofTag tag (.text (Text.ofBytesLossy (upToZero buffer)))), after) :=
  (read_eq_text_iff holds.isString).mpr ⟨buffer, holds, rfl⟩

/-! ## Main result -/

/-- From a buffer of a string operand a text is read that holds no zero character: what stands in
front of the first zero character when the whole buffer is read as text.  If the bytes in front of
the first zero byte are a text in UTF-8, it is this text.  The same text is read from every other
buffer with the same bytes in front of its first zero byte, or end, with whatever tag it comes. -/
theorem read_string (holds : HoldsString tag buffer cursor after) :
    ∃ text, read cursor = (.ok (ofTag tag (.text text)), after) ∧
      '\x00' ∉ text.toList ∧
      text.toList = Text.upTo '\x00' (Text.ofBytesLossy buffer).toList ∧
      (∀ written, upToZero buffer = Text.utf8Bytes written → text = written) ∧
      ∀ (otherTag : Tag) (otherBuffer : List UInt8) (otherCursor otherAfter : Cursor),
        HoldsString otherTag otherBuffer otherCursor otherAfter →
        upToZero otherBuffer = upToZero buffer →
        read otherCursor = (.ok (ofTag otherTag (.text text)), otherAfter) := by
  refine ⟨_, holds.read_eq, Text.zero_notMem_ofBytesLossy (zero_notMem_upToZero buffer),
    toList_ofBytesLossy_upToZero buffer, ?_, ?_⟩
  · intro written same
    rw [same, Text.ofBytesLossy_utf8Bytes]
  · intro otherTag otherBuffer otherCursor otherAfter otherHolds same
    rw [← same]
    exact otherHolds.read_eq

/-- A character that a zero byte cuts off is read as one that the end of the buffer cuts off. -/
theorem read_string_cutOff :
    let buffer : List UInt8 := [0x61, 0xc3, 0, 0xa9, 0x62, 0, 0, 0]
    let first := Cursor.start (Tag.string8.code :: buffer).toArray
    let second := Cursor.start #[Tag.variableString.code, 2, 0x61, 0xc3]
    HoldsString .string8 buffer first (first.advance 9) ∧
      HoldsString .variableString [0x61, 0xc3] second (second.advance 4) ∧
      read first = (.ok (ofTag .string8 (.text "a\uFFFD")), first.advance 9) ∧
      read second = (.ok (ofTag .variableString (.text "a\uFFFD")), second.advance 4) ∧
      upToZero buffer ≠ Text.utf8Bytes "a\uFFFD" := by
  intro buffer first second
  have one : HoldsString .string8 buffer first (first.advance 9) :=
    ⟨by decide, (rfl : buffer.length = 8), ⟨by decide, by decide⟩⟩
  have other : HoldsString .variableString [0x61, 0xc3] second (second.advance 4) :=
    ⟨by decide, (by decide : 2 < 256), ⟨by decide, by decide⟩⟩
  obtain ⟨text, read_one, -, text_eq, -, same⟩ := read_string one
  have text_is : text = "a\uFFFD" := by
    apply String.toList_inj.mp
    rw [text_eq]
    decide
  rw [text_is] at read_one same
  exact ⟨one, other, read_one, same _ _ _ _ other (by decide), by decide⟩

end Operand

end ScriptDisassembler
