import ScriptDisassembler.Text.Numeral

/-!
# Little-endian numbers

Numbers are stored least significant byte first.  Unsigned values and fixed-width bytes are
inverse to each other (`value_bytes`, `bytes_value`); a signed number of `width` bytes is the
balanced remainder of the unsigned one.
-/

namespace ScriptDisassembler.LittleEndian

/-- The unsigned number that a sequence of bytes stores. -/
def value : List UInt8 → Nat
  | [] => 0
  | byte :: rest => byte.toNat + 256 * value rest

/-- The lowest `width` bytes of a number, least significant first. -/
def bytes : Nat → Nat → List UInt8
  | 0, _ => []
  | width + 1, number => UInt8.ofNat number :: bytes width (number / 256)

/-- An unsigned number of `width` bytes, read as two's complement. -/
def toSigned (width number : Nat) : Int :=
  Int.bmod number (256 ^ width)

/-- The unsigned number of `width` bytes that stores an integer in two's complement. -/
def ofSigned (width : Nat) (number : Int) : Nat :=
  (number % (256 ^ width : Nat)).toNat

/-- The signed number that a sequence of bytes stores. -/
def signedValue (stored : List UInt8) : Int :=
  toSigned stored.length (value stored)

/-- The two's complement bytes of an integer. -/
def signedBytes (width : Nat) (number : Int) : List UInt8 :=
  bytes width (ofSigned width number)

@[simp]
theorem length_bytes (width number : Nat) : (bytes width number).length = width := by
  induction width generalizing number with
  | zero => rfl
  | succ width ih => simp [bytes, ih]

theorem value_lt (stored : List UInt8) : value stored < 256 ^ stored.length := by
  induction stored with
  | nil => simp [value]
  | cons byte rest ih =>
      have bound := byte.toNat_lt
      simp only [value, List.length_cons, Nat.pow_succ]
      omega

/-- Storing a number and reading it keeps its lowest bytes. -/
theorem value_bytes (width number : Nat) : value (bytes width number) = number % 256 ^ width := by
  induction width generalizing number with
  | zero => simp [bytes, value, Nat.mod_one]
  | succ width ih =>
      rw [bytes, value, ih, Nat.pow_succ', Nat.mod_mul, UInt8.toNat_ofNat']

/-- Reading bytes and storing the number again gives the same bytes. -/
theorem bytes_value (stored : List UInt8) : bytes stored.length (value stored) = stored := by
  induction stored with
  | nil => rfl
  | cons byte rest ih =>
      have bound := byte.toNat_lt
      have low : UInt8.ofNat (byte.toNat + 256 * value rest) = byte := by
        apply UInt8.toNat_inj.mp
        rw [UInt8.toNat_ofNat']
        omega
      have high : (byte.toNat + 256 * value rest) / 256 = value rest := by omega
      simp [bytes, value, low, high, ih]

end ScriptDisassembler.LittleEndian
