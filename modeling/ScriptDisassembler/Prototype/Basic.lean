import ScriptDisassembler.Prototype.Count

/-!
# Prototypes

A prototype declares an opcode: its name, how many operands follow it in a script, and whether it is
written as a call or as an operator.
-/

namespace ScriptDisassembler

/-- How an instruction is written. -/
inductive Invocation
  /-- As a call, with operands in parentheses. -/
  | function
  /-- As an operator in front of its operand or between two of them. -/
  | operator
deriving DecidableEq, Repr

namespace Invocation

instance : Inhabited Invocation :=
  ⟨function⟩

/-- The word for an invocation form. -/
def word : Invocation → String
  | function => "func"
  | operator => "oper"

/-- The invocation form that a word stands for, in exactly this spelling. -/
def ofWord? (word : List Char) : Option Invocation :=
  if word = function.word.toList then some function
  else if word = operator.word.toList then some operator
  else none

@[simp]
theorem ofWord?_word (invocation : Invocation) :
    ofWord? invocation.word.toList = some invocation := by
  cases invocation
  · simp [ofWord?]
  · simp [ofWord?, word]

end Invocation

/-- The declaration of one opcode. -/
structure Prototype where
  /-- The opcode. -/
  opcode : UInt16
  /-- The name, if one is known. -/
  name : Option String
  /-- How many operands follow. -/
  count : OperandCount
  /-- How the instruction is written. -/
  invocation : Invocation
deriving DecidableEq, Repr

namespace Prototype

/-- A function without a name. -/
def unnamed (opcode : UInt16) (count : OperandCount) : Prototype :=
  ⟨opcode, none, count, .function⟩

/-- A named function of so many operands. -/
def function (opcode : UInt16) (name : String) (count : Nat) : Prototype :=
  ⟨opcode, some name, .fixed count, .function⟩

/-- A named operator of so many operands. -/
def operator (opcode : UInt16) (name : String) (count : Nat) : Prototype :=
  ⟨opcode, some name, .fixed count, .operator⟩

/-- Whether the instruction is written as an operator. -/
def isOperator (prototype : Prototype) : Bool :=
  prototype.invocation == .operator

/-- The same declaration under a name. -/
def withName (prototype : Prototype) (name : String) : Prototype :=
  { prototype with name := some name }

end Prototype

/-- A source of prototypes, asked by opcode. -/
abbrev Lookup :=
  UInt16 → Option Prototype

/-- The lookup that pairs of key and prototype give; of equal keys the last one counts. -/
def Lookup.ofPairs (pairs : List (UInt16 × Prototype)) : Lookup :=
  fun opcode => pairs.reverse.lookup opcode

end ScriptDisassembler
