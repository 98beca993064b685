import ScriptDisassembler.Bytes.LittleEndian
import ScriptDisassembler.Operand.Basic
import ScriptDisassembler.Text.Lossy

/-!
# Operands as bytes

The stored form of an operand: its tag, for counted strings a length byte, and the payload.  Texts
in fields of a fixed size are filled up with zero bytes.
-/

namespace ScriptDisassembler

/-- The bytes that describe an element access, field by field. -/
def ArrayAccess.bytes (access : ArrayAccess) : List UInt8 :=
  access.element.code :: (LittleEndian.bytes 2 access.base.toNat
    ++ LittleEndian.bytes 2 access.index.toNat ++ [access.info])

/-- The bytes of a payload; integers and texts take the size of their field. -/
def Payload.bytes (size : Nat) : Payload → List UInt8
  | .empty => []
  | .integer value => LittleEndian.signedBytes size value
  | .float bits => LittleEndian.bytes 4 bits.toNat
  | .text value =>
      Text.utf8Bytes value ++ List.replicate (size - (Text.utf8Bytes value).length) 0
  | .element access => access.bytes

/-- The bytes of an operand. -/
def Operand.bytes (operand : Operand) : List UInt8 :=
  operand.tag.code ::
    match operand.tag.payloadSize with
    | .fixed size => operand.payload.bytes size
    | .counted => UInt8.ofNat (operand.payload.bytes 0).length :: operand.payload.bytes 0

@[simp]
theorem ArrayAccess.length_bytes (access : ArrayAccess) : access.bytes.length = 6 := by
  simp [bytes]

/-- Every operand is stored in at least one byte. -/
theorem Operand.bytes_ne_nil (operand : Operand) : operand.bytes ≠ [] := by
  simp [bytes]

end ScriptDisassembler
