import ScriptDisassembler.Proofs.Bytes.Passage

/-!
# Numbers are read as their bytes

The types of numbers that a script holds, each with its size and with the number that bytes of this
size store.  Reading a number is reading its bytes and taking the number that they store, with the
same cursor afterwards and the same failure (`Number.read_eq`).
-/

namespace ScriptDisassembler

/-- The types of numbers that are read from a script. -/
inductive Number
  /-- An unsigned number of 8 bits. -/
  | unsigned8
  /-- A signed number of 8 bits. -/
  | signed8
  /-- An unsigned number of 16 bits. -/
  | unsigned16
  /-- A signed number of 16 bits. -/
  | signed16
  /-- An unsigned number of 32 bits. -/
  | unsigned32
  /-- A signed number of 32 bits. -/
  | signed32
  /-- A single-precision number, as its bit pattern. -/
  | float32
deriving DecidableEq, Repr

namespace Number

/-- How many bytes a number takes. -/
def size : Number → Nat
  | unsigned8 | signed8 => 1
  | unsigned16 | signed16 => 2
  | unsigned32 | signed32 | float32 => 4

/-- What a number is read as. -/
def Value : Number → Type
  | unsigned8 => UInt8
  | unsigned16 => UInt16
  | unsigned32 | float32 => UInt32
  | signed8 | signed16 | signed32 => Int

/-- Read a number. -/
def read : (number : Number) → Reader number.Value
  | unsigned8 => Reader.byte
  | signed8 => Reader.signed 1
  | unsigned16 => Reader.word
  | signed16 => Reader.signed 2
  | unsigned32 => Reader.doubleWord
  | signed32 => Reader.signed 4
  | float32 => Reader.doubleWord

/-- The number that bytes store, least significant first, in two's complement if it is signed. -/
def ofBytes : (number : Number) → List UInt8 → number.Value
  | unsigned8, stored => UInt8.ofNat (LittleEndian.value stored)
  | unsigned16, stored => UInt16.ofNat (LittleEndian.value stored)
  | unsigned32, stored | float32, stored => UInt32.ofNat (LittleEndian.value stored)
  | signed8, stored | signed16, stored | signed32, stored => LittleEndian.signedValue stored

end Number

namespace Reader

/-- A number that is made of an unsigned one is made of the bytes of that one. -/
theorem map_unsigned_apply {α : Type} (width : Nat) (make : Nat → α) (cursor : Cursor) :
    (do return make (← unsigned width) : Reader α) cursor =
      ((bytes width cursor).1.map fun stored => make (LittleEndian.value stored),
        (bytes width cursor).2) := by
  rw [bind_apply, unsigned_eq_bytes]
  rcases bytes width cursor with ⟨result, after⟩
  cases result <;> rfl

theorem signed_apply (width : Nat) (cursor : Cursor) :
    signed width cursor =
      ((bytes width cursor).1.map LittleEndian.signedValue, (bytes width cursor).2) := by
  rw [signed, map_unsigned_apply]
  rcases outcome : bytes width cursor with ⟨result, after⟩
  cases result with
  | error error => rfl
  | ok stored =>
      obtain ⟨rfl, -⟩ := bytes_eq_ok_iff.mp outcome
      rfl

end Reader

/-- Reading a number is reading its bytes and taking the number that they store. -/
theorem Number.read_eq (number : Number) (cursor : Cursor) :
    number.read cursor =
      ((Reader.bytes number.size cursor).1.map number.ofBytes,
        (Reader.bytes number.size cursor).2) := by
  cases number with
  | signed8 | signed16 | signed32 => exact Reader.signed_apply _ cursor
  | unsigned8 | unsigned16 | unsigned32 | float32 => exact Reader.map_unsigned_apply _ _ cursor

end ScriptDisassembler
