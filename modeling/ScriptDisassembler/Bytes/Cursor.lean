import ScriptDisassembler.Bytes.LittleEndian
import ScriptDisassembler.Error

/-!
# Reading bytes in order

A cursor is a position in a sequence of bytes.  A reader consumes bytes at the cursor and reports
the cursor afterwards, also when it fails; a read that does not fit leaves the cursor where it is.

Two primitive reads test the bounds on their own: `Reader.bytes` compares a length with what is
left, `Reader.unsigned` looks for each of its bytes.  `Reader.unsigned_eq_bytes` says that they
agree.
-/

namespace ScriptDisassembler

/-- A position in a sequence of bytes. -/
structure Cursor where
  /-- The whole sequence. -/
  data : Array UInt8
  /-- The number of bytes before the cursor. -/
  position : Nat
deriving DecidableEq, Repr

namespace Cursor

/-- The cursor before the first byte. -/
def start (data : Array UInt8) : Cursor :=
  ⟨data, 0⟩

/-- The number of bytes from the cursor to the end. -/
def remaining (cursor : Cursor) : Nat :=
  cursor.data.size - cursor.position

/-- Whether a byte is left. -/
def hasMore (cursor : Cursor) : Bool :=
  cursor.position < cursor.data.size

/-- The bytes from the cursor to the end. -/
def rest (cursor : Cursor) : List UInt8 :=
  cursor.data.toList.drop cursor.position

/-- The cursor `count` bytes further on. -/
def advance (cursor : Cursor) (count : Nat) : Cursor :=
  ⟨cursor.data, cursor.position + count⟩

/-- The failure of a read that wants `requested` bytes at the cursor. -/
def shortfall (cursor : Cursor) (requested : Nat) : Error :=
  .truncated cursor.position requested cursor.remaining

@[simp]
theorem advance_zero (cursor : Cursor) : cursor.advance 0 = cursor :=
  rfl

@[simp]
theorem advance_advance (cursor : Cursor) (first second : Nat) :
    (cursor.advance first).advance second = cursor.advance (first + second) := by
  simp [advance, Nat.add_assoc]

@[simp]
theorem length_rest (cursor : Cursor) : cursor.rest.length = cursor.remaining := by
  simp [rest, remaining]

theorem hasMore_iff {cursor : Cursor} : cursor.hasMore = true ↔ 0 < cursor.remaining := by
  simp only [hasMore, remaining, decide_eq_true_eq]
  omega

end Cursor

/-- A step that consumes bytes at a cursor: its result, and the cursor afterwards. -/
def Reader (α : Type) : Type :=
  Cursor → Except Error α × Cursor

namespace Reader

variable {α β : Type}

/-- Read nothing. -/
protected def pure (a : α) : Reader α :=
  fun cursor => (.ok a, cursor)

/-- Read one thing after another; a failure ends the reading where it arises. -/
protected def bind (first : Reader α) (next : α → Reader β) : Reader β :=
  fun cursor =>
    match first cursor with
    | (.ok a, after) => next a after
    | (.error error, after) => (.error error, after)

instance : Monad Reader where
  pure := Reader.pure
  bind := Reader.bind

/-- Take over a result that needs no bytes. -/
def ofExcept (result : Except Error α) : Reader α :=
  fun cursor => (result, cursor)

/-- Look at the next byte and stay in front of it. -/
def peek : Reader UInt8 :=
  fun cursor =>
    match cursor.data[cursor.position]? with
    | some byte => (.ok byte, cursor)
    | none => (.error (cursor.shortfall 1), cursor)

/-- The next `count` bytes as they stand. -/
def bytes (count : Nat) : Reader (List UInt8) :=
  fun cursor =>
    if count ≤ cursor.remaining then
      (.ok (cursor.data.extract cursor.position (cursor.position + count)).toList,
        cursor.advance count)
    else (.error (cursor.shortfall count), cursor)

/-- The number in `width` bytes from a position, least significant first, if all are there. -/
def unsignedAt? (data : Array UInt8) : Nat → Nat → Option Nat
  | _, 0 => some 0
  | position, width + 1 => do
      let low ← data[position]?
      let high ← unsignedAt? data (position + 1) width
      return low.toNat + 256 * high

/-- The number stored in the next `width` bytes. -/
def unsigned (width : Nat) : Reader Nat :=
  fun cursor =>
    match unsignedAt? cursor.data cursor.position width with
    | some number => (.ok number, cursor.advance width)
    | none => (.error (cursor.shortfall width), cursor)

/-- The integer stored in the next `width` bytes in two's complement. -/
def signed (width : Nat) : Reader Int := do
  return LittleEndian.toSigned width (← unsigned width)

/-- The next byte. -/
def byte : Reader UInt8 := do
  return UInt8.ofNat (← unsigned 1)

/-- The next 16-bit word. -/
def word : Reader UInt16 := do
  return UInt16.ofNat (← unsigned 2)

/-- The next 32-bit word. -/
def doubleWord : Reader UInt32 := do
  return UInt32.ofNat (← unsigned 4)

/-! ## How reads compose -/

theorem bind_apply (first : Reader α) (next : α → Reader β) (cursor : Cursor) :
    (first >>= next) cursor =
      match first cursor with
      | (.ok a, after) => next a after
      | (.error error, after) => (.error error, after) :=
  rfl

@[simp]
theorem pure_apply (a : α) (cursor : Cursor) : (pure a : Reader α) cursor = (.ok a, cursor) :=
  rfl

@[simp]
theorem ofExcept_apply (result : Except Error α) (cursor : Cursor) :
    ofExcept result cursor = (result, cursor) :=
  rfl

/-- Two reads succeed together exactly when the second succeeds behind the first. -/
theorem bind_eq_ok_iff {first : Reader α} {next : α → Reader β} {cursor after : Cursor} {b : β} :
    (first >>= next) cursor = (.ok b, after) ↔
      ∃ a middle, first cursor = (.ok a, middle) ∧ next a middle = (.ok b, after) := by
  rw [bind_apply]
  rcases first cursor with ⟨result, middle⟩
  cases result <;> simp [and_assoc]

/-- Two reads fail together exactly when the first fails, or the second behind the first. -/
theorem bind_eq_error_iff {first : Reader α} {next : α → Reader β} {cursor after : Cursor}
    {error : Error} :
    (first >>= next) cursor = (.error error, after) ↔
      first cursor = (.error error, after) ∨
        ∃ a middle, first cursor = (.ok a, middle) ∧ next a middle = (.error error, after) := by
  rw [bind_apply]
  rcases first cursor with ⟨result, middle⟩
  cases result <;> simp [and_assoc]

/-! ## The two primitive reads agree -/

theorem bytes_of_le {count : Nat} {cursor : Cursor} (fits : count ≤ cursor.remaining) :
    bytes count cursor = (.ok (cursor.rest.take count), cursor.advance count) := by
  simp [bytes, fits, Cursor.rest, List.extract_eq_take_drop]

theorem bytes_of_lt {count : Nat} {cursor : Cursor} (short : cursor.remaining < count) :
    bytes count cursor = (.error (cursor.shortfall count), cursor) := by
  simp [bytes, Nat.not_le.mpr short]

/-- Bytes read one by one give the number that the list of them stores. -/
theorem unsignedAt?_eq {data : Array UInt8} {position width : Nat} :
    unsignedAt? data position width =
      if width ≤ data.size - position then
        some (LittleEndian.value ((data.toList.drop position).take width))
      else none := by
  induction width generalizing position with
  | zero => simp [unsignedAt?, LittleEndian.value]
  | succ width ih =>
      rw [unsignedAt?, ih]
      by_cases inside : position < data.size
      · have first : data.toList.drop position =
            data[position] :: data.toList.drop (position + 1) := by
          rw [List.drop_eq_getElem_cons (by simpa using inside)]
          simp
        have bound : width + 1 ≤ data.size - position ↔ width ≤ data.size - (position + 1) := by
          omega
        by_cases fits : width ≤ data.size - (position + 1)
        · simp [inside, fits, bound.mpr fits, first, LittleEndian.value]
        · simp [inside, fits, mt bound.mp fits]
      · have outside : ¬ width + 1 ≤ data.size - position := by omega
        simp [inside, outside]

/-- Reading a number is reading its bytes and taking the number that they store. -/
theorem unsigned_eq_bytes (width : Nat) (cursor : Cursor) :
    unsigned width cursor =
      ((bytes width cursor).1.map LittleEndian.value, (bytes width cursor).2) := by
  by_cases fits : width ≤ cursor.remaining
  · rw [bytes_of_le fits]
    have present : width ≤ cursor.data.size - cursor.position := fits
    simp [unsigned, unsignedAt?_eq, present, Cursor.rest, Except.map]
  · rw [bytes_of_lt (by omega)]
    have absent : ¬ width ≤ cursor.data.size - cursor.position := fits
    simp [unsigned, unsignedAt?_eq, absent, Except.map]

theorem word_of_le {cursor : Cursor} (fits : 2 ≤ cursor.remaining) :
    word cursor =
      (.ok (UInt16.ofNat (LittleEndian.value (cursor.rest.take 2))), cursor.advance 2) := by
  rw [word, bind_apply, unsigned_eq_bytes, bytes_of_le fits]
  rfl

theorem word_of_lt {cursor : Cursor} (short : cursor.remaining < 2) :
    word cursor = (.error (cursor.shortfall 2), cursor) := by
  rw [word, bind_apply, unsigned_eq_bytes, bytes_of_lt short]
  rfl

/-! ## Reads go forward -/

/-- A reader that keeps the data and moves from where it is towards the end of it. -/
def Forward (reader : Reader α) : Prop :=
  ∀ cursor, (reader cursor).2.data = cursor.data ∧
    cursor.position ≤ (reader cursor).2.position ∧
    (reader cursor).2.position ≤ max cursor.position cursor.data.size

theorem forward_pure (a : α) : Forward (pure a : Reader α) := by
  intro cursor
  refine ⟨rfl, Nat.le_refl _, Nat.le_max_left _ _⟩

theorem forward_ofExcept (result : Except Error α) : Forward (ofExcept result) := by
  intro cursor
  refine ⟨rfl, Nat.le_refl _, Nat.le_max_left _ _⟩

theorem Forward.bind {first : Reader α} {next : α → Reader β} (head : Forward first)
    (tail : ∀ a, Forward (next a)) : Forward (first >>= next) := by
  intro cursor
  have step := head cursor
  rw [bind_apply]
  rcases result : first cursor with ⟨outcome, middle⟩
  rw [result] at step
  cases outcome with
  | error error => exact step
  | ok a =>
      have further := tail a middle
      simp only at step ⊢
      rw [step.1] at further
      refine ⟨further.1, by omega, ?_⟩
      omega

theorem forward_bytes (count : Nat) : Forward (bytes count) := by
  intro cursor
  by_cases fits : count ≤ cursor.remaining
  · rw [bytes_of_le fits]
    simp only [Cursor.remaining] at fits
    simp only [Cursor.advance, true_and]
    omega
  · rw [bytes_of_lt (by omega)]
    simp only [true_and]
    omega

theorem forward_unsigned (width : Nat) : Forward (unsigned width) := by
  intro cursor
  rw [unsigned_eq_bytes]
  exact forward_bytes width cursor

theorem forward_byte : Forward byte :=
  (forward_unsigned 1).bind fun _ => forward_pure _

theorem forward_word : Forward word :=
  (forward_unsigned 2).bind fun _ => forward_pure _

/-- A byte that was read stood at the cursor. -/
theorem byte_eq_ok_iff {cursor after : Cursor} {value : UInt8} :
    byte cursor = (.ok value, after) ↔
      cursor.data[cursor.position]? = some value ∧ after = cursor.advance 1 := by
  cases stored : cursor.data[cursor.position]? with
  | none => simp [byte, bind_apply, unsigned, unsignedAt?, stored]
  | some found => simp [byte, bind_apply, unsigned, unsignedAt?, stored, eq_comm]

end Reader

end ScriptDisassembler
