import ScriptDisassembler.Operand.Basic

/-!
# Instructions

An instruction starts with a header of 16 bits: the lower 15 are the opcode, the highest says that
the result is inverted.
-/

namespace ScriptDisassembler

namespace Header

/-- The bits of a header that hold the opcode. -/
def opcodeMask : UInt16 :=
  0x7fff

/-- The bit of a header that inverts the result. -/
def invertBit : UInt16 :=
  0x8000

/-- The opcode in a header. -/
def opcode (header : UInt16) : UInt16 :=
  header &&& opcodeMask

/-- What a header holds beside the opcode. -/
def flags (header : UInt16) : UInt16 :=
  header &&& invertBit

/-- Whether a header inverts the result. -/
def inverts (header : UInt16) : Bool :=
  flags header == invertBit

/-- The header of an opcode, of which only the lower 15 bits are used. -/
def compose (opcode : UInt16) (inverted : Bool) : UInt16 :=
  (opcode &&& opcodeMask) ||| if inverted then invertBit else 0

/-- The one bit outside the opcode is either clear or the bit that inverts. -/
theorem flags_eq_or (header : UInt16) : flags header = 0 ∨ flags header = invertBit := by
  have bits : header.toBitVec &&& 0x8000#16 = header.toBitVec &&& BitVec.twoPow 16 15 := rfl
  simp only [← UInt16.toBitVec_inj, flags, invertBit, UInt16.toBitVec_and]
  change header.toBitVec &&& 0x8000#16 = 0#16 ∨ header.toBitVec &&& 0x8000#16 = 0x8000#16
  rw [bits, BitVec.and_twoPow]
  split
  · exact Or.inr rfl
  · exact Or.inl rfl

/-- Opcode and flags are all of a header. -/
theorem opcode_or_flags (header : UInt16) : opcode header ||| flags header = header := by
  simp only [← UInt16.toBitVec_inj, opcode, flags, UInt16.toBitVec_or, UInt16.toBitVec_and]
  rw [← BitVec.and_or_distrib_left]
  exact BitVec.and_allOnes

@[simp]
theorem opcode_and_opcodeMask (header : UInt16) :
    opcode header &&& opcodeMask = opcode header := by
  simp [opcode, UInt16.and_assoc]

/-- A header is composed again of the opcode and the inversion that it holds. -/
@[simp]
theorem compose_opcode_inverts (header : UInt16) :
    compose (opcode header) (inverts header) = header := by
  have flag : (if inverts header then invertBit else 0) = flags header := by
    rcases flags_eq_or header with clear | set
    · simp [inverts, clear, invertBit]
    · simp [inverts, set]
  rw [compose, opcode_and_opcodeMask, flag, opcode_or_flags]

end Header

/-- An instruction as it stands in a script. -/
structure Instruction where
  /-- The position of its first byte. -/
  offset : Nat
  /-- The number of its bytes. -/
  size : Nat
  /-- Its opcode. -/
  opcode : UInt16
  /-- Whether its result is inverted. -/
  inverted : Bool
  /-- Its operands, without an end marker that closed an open list. -/
  operands : List Operand
deriving DecidableEq, Repr

/-- The header of an instruction. -/
def Instruction.header (instruction : Instruction) : UInt16 :=
  Header.compose instruction.opcode instruction.inverted

end ScriptDisassembler
