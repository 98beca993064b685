/-!
# Kinds of operands

An operand's tag fixes how its payload is stored; its kind says what the payload means.  Many
tags share a kind: an 8-bit and a 32-bit immediate are both integers.  Formatting decisions look
at the kind alone.
-/

namespace ScriptDisassembler

/-- What an operand stands for, whatever its width. -/
inductive Kind
  /-- The end of an open-ended operand list. -/
  | terminator
  /-- An immediate integer. -/
  | integer
  /-- An immediate floating-point number. -/
  | float
  /-- An immediate string. -/
  | string
  /-- A global numeric variable. -/
  | globalScalar
  /-- A local numeric variable. -/
  | localScalar
  /-- An element of a global numeric array. -/
  | globalArray
  /-- An element of a local numeric array. -/
  | localArray
  /-- A global string variable. -/
  | globalString
  /-- A local string variable. -/
  | localString
  /-- An element of a global string array. -/
  | globalStringArray
  /-- An element of a local string array. -/
  | localStringArray
deriving DecidableEq, Repr

namespace Kind

/-- Every kind, once. -/
def all : List Kind :=
  [terminator, integer, float, string, globalScalar, localScalar, globalArray, localArray,
    globalString, localString, globalStringArray, localStringArray]

theorem mem_all (kind : Kind) : kind ∈ all := by
  cases kind <;> decide

/-- The word for a kind in messages. -/
def name : Kind → String
  | terminator => "End"
  | integer => "Integer"
  | float => "Float"
  | string => "String"
  | globalScalar => "GlobalScalar"
  | localScalar => "LocalScalar"
  | globalArray => "GlobalArray"
  | localArray => "LocalArray"
  | globalString => "GlobalString"
  | localString => "LocalString"
  | globalStringArray => "GlobalStringArray"
  | localStringArray => "LocalStringArray"

/-- A local variable, numeric or string, that is not an array element. -/
def isLocal : Kind → Bool
  | localScalar | localString => true
  | _ => false

/-- A global variable, numeric or string, that is not an array element. -/
def isGlobal : Kind → Bool
  | globalScalar | globalString => true
  | _ => false

/-- A variable of either scope that is not an array element. -/
def isVariable (kind : Kind) : Bool :=
  kind.isGlobal || kind.isLocal

/-- An element of an array of either scope. -/
def isArrayElement : Kind → Bool
  | globalArray | localArray | globalStringArray | localStringArray => true
  | _ => false

/-- No variable belongs to both scopes. -/
theorem isLocal_eq_false_of_isGlobal {kind : Kind} (isGlobal : kind.isGlobal = true) :
    kind.isLocal = false := by
  cases kind <;> simp_all [Kind.isGlobal, Kind.isLocal]

end Kind

end ScriptDisassembler
