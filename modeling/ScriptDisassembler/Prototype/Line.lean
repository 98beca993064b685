import ScriptDisassembler.Error
import ScriptDisassembler.Prototype.Basic
import ScriptDisassembler.Text.Blank
import ScriptDisassembler.Text.Cut

/-!
# Prototypes as lines of text

A prototype is written in one line as `0004 (oper 2) =`: the opcode in four hexadecimal digits, in
parentheses the invocation form and the operand count, and the name if there is one.  Reading is
laxer than writing: blanks may stand around every part, and the numbers may have a sign and leading
zeros.
-/

namespace ScriptDisassembler

/-- An opcode from hexadecimal digits behind an optional plus sign, with blanks around them. -/
def readOpcode (text : List Char) : Except Malformed UInt16 :=
  let digits := Text.strip text
  match Numeral.readUnsigned? 16 digits with
  | some value =>
      if value ≤ 0x7fff then .ok (UInt16.ofNat value)
      else if value ≤ 0xffff then .error (.wideOpcode (UInt16.ofNat value))
      else .error (.opcode (String.ofList digits))
  | none => .error (.opcode (String.ofList digits))

/-- A count from decimal digits behind an optional sign, with blanks around them. -/
def readCount (text : List Char) : Except Malformed OperandCount :=
  match OperandCount.ofChars? (Text.strip text) with
  | some count => .ok count
  | none => .error (.operandCount (String.ofList text))

/-- An invocation form from its word. -/
def readInvocation (word : List Char) : Except Malformed Invocation :=
  match Invocation.ofWord? word with
  | some invocation => .ok invocation
  | none => .error (.invocation (String.ofList word))

namespace Prototype

/-- The line that declares a prototype, without a line end. -/
def line (prototype : Prototype) : String :=
  let signature := Numeral.hexPadded 4 prototype.opcode.toNat ++ " ("
    ++ prototype.invocation.word ++ " " ++ prototype.count.text ++ ")"
  match prototype.name with
  | some name => signature ++ " " ++ name
  | none => signature

/-- The prototype that a line declares.  The parentheses are looked for first, then the parts are
read from left to right. -/
def ofLine (text : List Char) : Except Malformed Prototype := do
  let line := Text.strip text
  let some (opcode, behind) := Text.cutAt? '(' line
    | throw (.unopened (String.ofList line))
  let some (signature, name) := Text.cutAt? ')' behind
    | throw (.unclosed (String.ofList line))
  let opcode ← readOpcode opcode
  let [invocation, count] := Text.words signature
    | throw (.signature (String.ofList line))
  let invocation ← readInvocation invocation
  let count ← readCount count
  let name := Text.strip name
  return ⟨opcode, if name.isEmpty then none else some (String.ofList name), count, invocation⟩

end Prototype

end ScriptDisassembler
