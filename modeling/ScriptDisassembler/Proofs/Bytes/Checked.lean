import ScriptDisassembler.Bytes.Cursor

/-!
# Reads in the arithmetic of words

Positions and lengths are words of 64 bits.  Here the primitive reads are carried out in checked
arithmetic, in which a difference below zero, a sum that is no word and a slice that is not inside the
data have no result.  The read of bytes compares with a difference, the read of a number with
one that is cut off at zero.  At a cursor inside the data both have a result, and it is that of the
reads (`Cursor.sound`).
-/

namespace ScriptDisassembler

namespace Checked

/-! ## Arithmetic -/

/-- The difference of two words, unless it lies below zero. -/
def difference? (first second : Nat) : Option Nat :=
  if second ≤ first then some (first - second) else none

/-- The sum of two words, if it is a word. -/
def sum? (first second : Nat) : Option Nat :=
  if first + second < 2 ^ 64 then some (first + second) else none

/-- The bytes between two positions that are inside the data and in order. -/
def slice? (data : Array UInt8) (start stop : Nat) : Option (List UInt8) :=
  if start ≤ stop ∧ stop ≤ data.size then some (data.extract start stop).toList else none

/-! ## Reads -/

/-- Look at the next byte; only a failure asks for what is left. -/
def peek (cursor : Cursor) : Option (Except Error UInt8 × Cursor) :=
  match cursor.data[cursor.position]? with
  | some byte => some (.ok byte, cursor)
  | none => do
      let left ← difference? cursor.data.size cursor.position
      return (.error (.truncated cursor.position 1 left), cursor)

/-- Read bytes as they stand, if no more are wanted than are left. -/
def bytes (count : Nat) (cursor : Cursor) : Option (Except Error (List UInt8) × Cursor) := do
  let left ← difference? cursor.data.size cursor.position
  if left < count then
    return (.error (.truncated cursor.position count left), cursor)
  else
    let stop ← sum? cursor.position count
    let stored ← slice? cursor.data cursor.position stop
    return (.ok stored, ⟨cursor.data, stop⟩)

/-- Read a number; behind the end, nothing is left.  The slice is converted only if it has the size
of the number. -/
def unsigned (width : Nat) (cursor : Cursor) : Option (Except Error Nat × Cursor) :=
  let left := cursor.data.size - cursor.position
  let missing := (.error (.truncated cursor.position width left), cursor)
  if left < width then some missing
  else do
    let stop ← sum? cursor.position width
    let stored ← slice? cursor.data cursor.position stop
    return if stored.length = width then (.ok (LittleEndian.value stored), ⟨cursor.data, stop⟩)
      else missing

end Checked

namespace Cursor

/-- Whether reads at a cursor have a result in checked arithmetic, and the right one. -/
structure Sound (cursor : Cursor) : Prop where
  inside : cursor.position ≤ cursor.data.size
  peek_eq : Checked.peek cursor = some (Reader.peek cursor)
  bytes_eq : ∀ count, Checked.bytes count cursor = some (Reader.bytes count cursor)
  unsigned_eq : ∀ width, Checked.unsigned width cursor = some (Reader.unsigned width cursor)

variable {cursor : Cursor}

theorem difference?_eq (inside : cursor.position ≤ cursor.data.size) :
    Checked.difference? cursor.data.size cursor.position = some cursor.remaining :=
  if_pos inside

/-- Where a read fits, its end is a word and its bytes are inside the data. -/
theorem slice?_eq {count : Nat} (word : cursor.data.size < 2 ^ 64)
    (inside : cursor.position ≤ cursor.data.size) (fits : count ≤ cursor.remaining) :
    Checked.sum? cursor.position count = some (cursor.position + count) ∧
      Checked.slice? cursor.data cursor.position (cursor.position + count) =
        some (cursor.rest.take count) := by
  unfold remaining at fits
  constructor
  · exact if_pos (by omega)
  · have ordered : cursor.position ≤ cursor.position + count ∧
        cursor.position + count ≤ cursor.data.size := by omega
    rw [Checked.slice?, if_pos ordered]
    simp [rest, List.extract_eq_take_drop]

/-- At a cursor inside data whose size is a word, no read leaves the words or the data. -/
theorem sound (word : cursor.data.size < 2 ^ 64) (inside : cursor.position ≤ cursor.data.size) :
    cursor.Sound := by
  refine ⟨inside, ?_, fun count => ?_, fun width => ?_⟩
  · unfold Checked.peek Reader.peek
    cases cursor.data[cursor.position]? with
    | some byte => rfl
    | none =>
        rw [difference?_eq inside]
        rfl
  · rw [Checked.bytes, difference?_eq inside, Option.bind_eq_bind, Option.bind_some]
    by_cases fits : count ≤ cursor.remaining
    · obtain ⟨stop, stored⟩ := slice?_eq word inside fits
      rw [if_neg (Nat.not_lt.mpr fits), stop, Option.bind_eq_bind, Option.bind_some, stored,
        Reader.bytes_of_le fits]
      rfl
    · have short := Nat.not_le.mp fits
      rw [if_pos short, Reader.bytes_of_lt short]
      rfl
  · rw [Reader.unsigned_eq_bytes]
    by_cases fits : width ≤ cursor.remaining
    · obtain ⟨stop, stored⟩ := slice?_eq word inside fits
      have length_eq : (cursor.rest.take width).length = width := by
        rw [List.length_take, length_rest, Nat.min_eq_left fits]
      have enough : ¬ cursor.data.size - cursor.position < width := Nat.not_lt.mpr fits
      unfold Checked.unsigned
      simp only
      rw [if_neg enough, stop, Option.bind_eq_bind, Option.bind_some, stored, Option.bind_eq_bind,
        Option.bind_some, if_pos length_eq, Reader.bytes_of_le fits]
      rfl
    · have short := Nat.not_le.mp fits
      rw [Reader.bytes_of_lt short]
      exact if_pos short

end Cursor

end ScriptDisassembler
