import ScriptDisassembler.Operand.Tag

/-!
# Operands

An operand is a payload with the tag it is stored under and the kind it is shown as.  Operands that
are read from a script have the kind of their tag.
-/

namespace ScriptDisassembler

/-- The type of the elements of an array, as an element access states it. -/
inductive ElementType
  /-- 32-bit integers. -/
  | int
  /-- Single-precision numbers. -/
  | float
  /-- Strings of 8 bytes. -/
  | string8
  /-- Strings of 16 bytes. -/
  | string16
  /-- A code without a meaning of its own. -/
  | other (code : UInt8)
deriving DecidableEq, Repr

namespace ElementType

/-- The element type that a byte states; every byte states one. -/
def ofCode (code : UInt8) : ElementType :=
  if code = 0 then int
  else if code = 1 then float
  else if code = 2 then string8
  else if code = 3 then string16
  else other code

/-- The byte that states an element type. -/
def code : ElementType → UInt8
  | int => 0
  | float => 1
  | string8 => 2
  | string16 => 3
  | other code => code

@[simp]
theorem code_ofCode (code : UInt8) : (ofCode code).code = code := by
  grind [ofCode, ElementType.code]

end ElementType

/-- An access to an array element: `base` is the array, `index` the variable that holds the
position. -/
structure ArrayAccess where
  /-- The type of the elements. -/
  element : ElementType
  /-- The offset of the array. -/
  base : UInt16
  /-- The variable that holds the position. -/
  index : UInt16
  /-- Further flags, which have no effect on the written form. -/
  info : UInt8
deriving DecidableEq, Repr

/-- The content of an operand. -/
inductive Payload
  /-- Nothing, as behind an end marker. -/
  | empty
  /-- An integer, or the number of a variable. -/
  | integer (value : Int)
  /-- A single-precision number, as its bit pattern. -/
  | float (bits : UInt32)
  /-- A text. -/
  | text (value : String)
  /-- An access to an array element. -/
  | element (access : ArrayAccess)
deriving DecidableEq, Repr

/-- A tagged value. -/
structure Operand where
  /-- How the value is stored. -/
  tag : Tag
  /-- What the value is shown as. -/
  kind : Kind
  /-- The value. -/
  payload : Payload
deriving DecidableEq, Repr

/-- An operand whose kind is that of its tag. -/
def Operand.ofTag (tag : Tag) (payload : Payload) : Operand :=
  ⟨tag, tag.kind, payload⟩

end ScriptDisassembler
