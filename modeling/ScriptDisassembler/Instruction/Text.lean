import ScriptDisassembler.Instruction.Basic
import ScriptDisassembler.Notice
import ScriptDisassembler.Operand.Text

/-!
# Instructions as source lines

An instruction is written as a call `name(a, b)`, or, if its prototype is an operator of one or two
operands, as `name a` without the space or as `a name b`.  An inverted result stands in `!(...)`.
An opcode without a name is called by its number.
-/

namespace ScriptDisassembler

/-- The name of an opcode: that of its prototype, or else its number in hexadecimal. -/
def Lookup.nameOf (lookup : Lookup) (opcode : UInt16) : String :=
  match (lookup opcode).bind Prototype.name with
  | some name => name
  | none => "0x" ++ Numeral.hex opcode.toNat

/-- A call: the name, and the operands in parentheses. -/
def callText (name : String) (operands : List String) : String :=
  name ++ "(" ++ String.intercalate ", " operands ++ ")"

/-- The text of an opcode with its written operands, before inversion.  An operator with other than
one or two declared operands is reported and written as a call; one that is declared with one or two
but stands with a different number is written as a call too. -/
def Lookup.applicationText (lookup : Lookup) (opcode : UInt16) (operands : List String) :
    String × List Notice :=
  let name := lookup.nameOf opcode
  let call := callText name operands
  match lookup opcode with
  | none => (call, [])
  | some prototype =>
      if prototype.isOperator then
        match prototype.count, operands with
        | .fixed 1, [operand] => (name ++ operand, [])
        | .fixed 2, [left, right] => (left ++ " " ++ name ++ " " ++ right, [])
        | .fixed 1, _ => (call, [])
        | .fixed 2, _ => (call, [])
        | count, _ => (call, [.operatorArity opcode count])
      else (call, [])

/-- A text, inverted if so asked. -/
def invertText (inverted : Bool) (text : String) : String :=
  if inverted then "!(" ++ text ++ ")" else text

/-- The source line of an instruction, with what is to be noticed about it.  The first operand
without a written form is the failure. -/
def Instruction.text (instruction : Instruction) (lookup : Lookup) :
    Except Error String × List Notice :=
  match instruction.operands.mapM Operand.text with
  | .error error => (.error error, [])
  | .ok operands =>
      let application := lookup.applicationText instruction.opcode operands
      (.ok (invertText instruction.inverted application.1), application.2)

end ScriptDisassembler
