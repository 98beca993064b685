import ScriptDisassembler.Bytes.Cursor
import ScriptDisassembler.Operand.Basic
import ScriptDisassembler.Text.Lossy

/-!
# Reading operands

An operand is a tag byte, for counted strings a length byte, and the payload.  The payload is taken
from the script as a whole before it is looked at, so a payload that does not fit is reported with
its full length.

`Operand.readExactly` reads a given number of operands and `Operand.readUntilEnd` those before an
end marker.  Every operand takes at least its tag byte (`Operand.advances_of_read`), which bounds
both.
-/

namespace ScriptDisassembler

namespace ArrayAccess

/-- The number of bytes that describe an element access. -/
def size : Nat :=
  6

/-- Read a description field by field. -/
def read : Reader ArrayAccess := do
  let element ← Reader.byte
  let base ← Reader.word
  let index ← Reader.word
  let info ← Reader.byte
  return ⟨ElementType.ofCode element, base, index, info⟩

/-- The access that a sequence of bytes describes; offsets in failures count from its start. -/
def ofBytes (stored : List UInt8) : Except Error ArrayAccess :=
  (read (Cursor.start stored.toArray)).1

end ArrayAccess

/-- The bytes before the first zero byte. -/
def upToZero (stored : List UInt8) : List UInt8 :=
  stored.takeWhile (· != 0)

/-- The integer in a payload, which has 1, 2 or 4 bytes. -/
def Payload.integerOfBytes (stored : List UInt8) : Except Error Int :=
  match stored.length with
  | 1 | 2 | 4 => (Reader.signed stored.length (Cursor.start stored.toArray)).1
  | width => .error (.malformed (.integerWidth width) none)

/-- The payload of an operand of a kind, from its bytes. -/
def Payload.ofBytes (kind : Kind) (stored : List UInt8) : Except Error Payload :=
  match kind with
  | .terminator => .ok .empty
  | .integer | .globalScalar | .localScalar | .globalString | .localString =>
      (integerOfBytes stored).map .integer
  | .float => ((Reader.doubleWord (Cursor.start stored.toArray)).1).map .float
  | .string => .ok (.text (Text.ofBytesLossy (upToZero stored)))
  | .globalArray | .localArray | .globalStringArray | .localStringArray =>
      (ArrayAccess.ofBytes stored).map .element

namespace Tag

/-- Read the tag that stands for the next byte. -/
def read : Reader Tag := do
  let code ← Reader.byte
  Reader.ofExcept (((ofCode? code).map .ok).getD (.error (.invalidTag code)))

/-- Read the bytes of the payload behind a tag. -/
def readPayload (tag : Tag) : Reader (List UInt8) :=
  match tag.payloadSize with
  | .fixed size => Reader.bytes size
  | .counted => do
      let size ← Reader.byte
      Reader.bytes size.toNat

theorem forward_read : read.Forward :=
  Reader.forward_byte.bind fun _ => Reader.forward_ofExcept _

theorem forward_readPayload (tag : Tag) : tag.readPayload.Forward := by
  unfold readPayload
  split
  · exact Reader.forward_bytes _
  · exact Reader.forward_byte.bind fun _ => Reader.forward_bytes _

end Tag

namespace Operand

/-- Read what follows a tag. -/
def readBehind (tag : Tag) : Reader Operand := do
  let stored ← tag.readPayload
  let payload ← Reader.ofExcept (Payload.ofBytes tag.kind stored)
  return ofTag tag payload

/-- Read one operand. -/
def read : Reader Operand := do
  readBehind (← Tag.read)

theorem forward_readBehind (tag : Tag) : (readBehind tag).Forward :=
  (Tag.forward_readPayload tag).bind fun _ =>
    (Reader.forward_ofExcept _).bind fun _ => Reader.forward_pure _

theorem forward_read : read.Forward :=
  Tag.forward_read.bind forward_readBehind

/-- An operand that was read takes at least one byte of the script. -/
theorem advances_of_read {cursor after : Cursor} {operand : Operand}
    (success : read cursor = (.ok operand, after)) :
    after.data = cursor.data ∧ cursor.position < after.position ∧
      after.position ≤ cursor.data.size := by
  obtain ⟨tag, middle, tagRead, behind⟩ := Reader.bind_eq_ok_iff.mp success
  obtain ⟨code, behindCode, codeRead, lifted⟩ := Reader.bind_eq_ok_iff.mp tagRead
  obtain ⟨stored, rfl⟩ := Reader.byte_eq_ok_iff.mp codeRead
  have inside := (Array.getElem?_eq_some_iff.mp stored).1
  have same : middle = cursor.advance 1 := (congrArg Prod.snd lifted).symm
  subst same
  have forward := forward_readBehind tag (cursor.advance 1)
  rw [behind] at forward
  simp only [Cursor.advance] at forward
  exact ⟨forward.1, by omega, by omega⟩

theorem remaining_lt_of_read {cursor after : Cursor} {operand : Operand}
    (success : read cursor = (.ok operand, after)) : after.remaining < cursor.remaining := by
  have advances := advances_of_read success
  simp only [Cursor.remaining, advances.1]
  omega

/-- Read `count` operands behind those already seen, which are listed in reverse. -/
def readOnto (seen : List Operand) : Nat → Reader (List Operand)
  | 0, cursor => (.ok seen.reverse, cursor)
  | count + 1, cursor =>
      match read cursor with
      | (.ok operand, after) => readOnto (operand :: seen) count after
      | (.error error, after) => (.error error, after)

/-- Read `count` operands; end markers count like any other. -/
def readExactly (count : Nat) : Reader (List Operand) :=
  readOnto [] count

/-- Read operands up to an end marker behind those already seen, which are listed in reverse. -/
def readUntilEndOnto (seen : List Operand) (cursor : Cursor) :
    Except Error (List Operand) × Cursor :=
  match _ : read cursor with
  | (.ok operand, after) =>
      if operand.kind = .terminator then (.ok seen.reverse, after)
      else readUntilEndOnto (operand :: seen) after
  | (.error error, after) => (.error error, after)
termination_by cursor.remaining
decreasing_by exact remaining_lt_of_read ‹_›

/-- Read operands up to an end marker, which is consumed and not listed. -/
def readUntilEnd : Reader (List Operand) :=
  readUntilEndOnto []

/-- Read as many operands as declared. -/
def readAll : OperandCount → Reader (List Operand)
  | .fixed count => readExactly count
  | .variadic => readUntilEnd

/-! ## The readers one operand at a time -/

/-- The operands already seen come first. -/
theorem readOnto_eq (seen : List Operand) (count : Nat) (cursor : Cursor) :
    readOnto seen count cursor =
      ((readExactly count cursor).1.map (seen.reverse ++ ·), (readExactly count cursor).2) := by
  unfold readExactly
  induction count generalizing seen cursor with
  | zero => simp [readOnto, Except.map]
  | succ count ih =>
      rw [readOnto, readOnto]
      rcases read cursor with ⟨result, after⟩
      cases result with
      | error error => rfl
      | ok operand =>
          simp only
          rw [ih (operand :: seen) after, ih [operand] after]
          cases (readOnto [] count after).1 <;> simp [Except.map]

@[simp]
theorem readExactly_zero (cursor : Cursor) : readExactly 0 cursor = (.ok [], cursor) :=
  rfl

/-- The first of several operands is read before the others. -/
theorem readExactly_succ (count : Nat) :
    readExactly (count + 1) = (do return (← read) :: (← readExactly count)) := by
  funext cursor
  rw [Reader.bind_apply, readExactly, readOnto]
  rcases read cursor with ⟨result, after⟩
  cases result with
  | error error => rfl
  | ok operand =>
      simp only [Reader.bind_apply]
      rw [readOnto_eq]
      rcases readExactly count after with ⟨rest, final⟩
      cases rest <;> simp [Except.map]

theorem readUntilEndOnto_apply (seen : List Operand) (cursor : Cursor) :
    readUntilEndOnto seen cursor =
      match read cursor with
      | (.ok operand, after) =>
          if operand.kind = .terminator then (.ok seen.reverse, after)
          else readUntilEndOnto (operand :: seen) after
      | (.error error, after) => (.error error, after) := by
  rw [readUntilEndOnto]
  split <;> simp [*]

/-- Operands seen earlier come first. -/
theorem readUntilEndOnto_append (seen earlier : List Operand) (cursor : Cursor) :
    readUntilEndOnto (seen ++ earlier) cursor =
      ((readUntilEndOnto seen cursor).1.map (earlier.reverse ++ ·),
        (readUntilEndOnto seen cursor).2) := by
  fun_induction readUntilEndOnto seen cursor with
  | case1 seen cursor operand after success last =>
      rw [readUntilEndOnto_apply, success]
      simp [last, Except.map]
  | case2 seen cursor operand after success more ih =>
      rw [readUntilEndOnto_apply, success]
      simpa [more] using ih
  | case3 seen cursor error after failure =>
      rw [readUntilEndOnto_apply, failure]
      rfl

/-- An end marker ends the list; any other operand is followed by the rest of it. -/
theorem readUntilEnd_eq :
    readUntilEnd = (do
      let first ← read
      if first.kind = .terminator then return [] else return first :: (← readUntilEnd)) := by
  funext cursor
  rw [Reader.bind_apply]
  change readUntilEndOnto [] cursor = _
  rw [readUntilEndOnto_apply]
  rcases read cursor with ⟨result, after⟩
  cases result with
  | error error => rfl
  | ok operand =>
      by_cases last : operand.kind = .terminator
      · simp [last]
      · have split := readUntilEndOnto_append [] [operand] after
        rw [List.nil_append] at split
        simp only [last, if_false]
        rw [Reader.bind_apply, split]
        change (Except.map _ (readUntilEnd after).1, (readUntilEnd after).2) = _
        rcases readUntilEnd after with ⟨rest, final⟩
        cases rest <;> simp [Except.map]

end Operand

end ScriptDisassembler
