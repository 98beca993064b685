import ScriptDisassembler.Instruction.Basic
import ScriptDisassembler.Operand.Writing
import ScriptDisassembler.Prototype.Basic

/-!
# Instructions as bytes

The stored form of an instruction is its header and its operands.  An open-ended operand list, which
only the prototype tells from a list of fixed length, is closed by an end marker.
-/

namespace ScriptDisassembler

/-- The end marker behind the operands of an opcode, if its list is open-ended. -/
def Lookup.endMarker (lookup : Lookup) (opcode : UInt16) : List UInt8 :=
  if (lookup opcode).map Prototype.count = some .variadic then [Tag.endOfArguments.code] else []

/-- The bytes of an instruction. -/
def Instruction.bytes (instruction : Instruction) (lookup : Lookup) : List UInt8 :=
  LittleEndian.bytes 2 instruction.header.toNat ++ instruction.operands.flatMap Operand.bytes
    ++ lookup.endMarker instruction.opcode

/-- The bytes of instructions, one behind the other. -/
def Lookup.assemble (lookup : Lookup) (instructions : List Instruction) : List UInt8 :=
  instructions.flatMap fun instruction => instruction.bytes lookup

@[simp]
theorem Lookup.assemble_nil (lookup : Lookup) : lookup.assemble [] = [] :=
  rfl

/-- Scripts are assembled part by part. -/
@[simp]
theorem Lookup.assemble_append (lookup : Lookup) (first second : List Instruction) :
    lookup.assemble (first ++ second) = lookup.assemble first ++ lookup.assemble second := by
  simp [assemble]

end ScriptDisassembler
