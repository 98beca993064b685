import ScriptDisassembler.Operand.Kind
import ScriptDisassembler.Prototype.Count

/-!
# Failures

Every failure of the library as a cause with its data, and the wording of each in one place:
`Error.message` for a single line, `Error.causes` for the chain that a report lists.
-/

namespace ScriptDisassembler

/-- What is wrong with data that should have a certain form, such as a text that should define a
prototype. -/
inductive Malformed
  /-- The opcode is not a hexadecimal number of 16 bits. -/
  | opcode (text : String)
  /-- The opcode needs the bit that a header uses for inversion. -/
  | wideOpcode (value : UInt16)
  /-- The operand count is not a number from minus one upwards. -/
  | operandCount (text : String)
  /-- A dump line has no opening parenthesis. -/
  | unopened (line : String)
  /-- A dump line has no closing parenthesis behind the opening one. -/
  | unclosed (line : String)
  /-- The parentheses of a dump line do not hold exactly two words. -/
  | signature (line : String)
  /-- The first word in the parentheses is no invocation form. -/
  | invocation (word : String)
  /-- An integer takes a number of bytes that no integer has. -/
  | integerWidth (width : Nat)
  /-- Any other fault, in words. -/
  | other (message : String)
deriving DecidableEq, Repr

namespace Malformed

/-- The wording of a fault. -/
def message : Malformed → String
  | opcode text => "Invalid opcode - '" ++ text ++ "'"
  | wideOpcode value => "Opcode 0x" ++ Numeral.hex value.toNat ++ " does not fit in 15 bits"
  | operandCount text => "Invalid operand count - '" ++ text ++ "'"
  | unopened line => "Missing '(' in prototype '" ++ line ++ "'"
  | unclosed line => "Missing ')' in prototype '" ++ line ++ "'"
  | signature line => "Expected '(<func|oper> <count>)' in prototype '" ++ line ++ "'"
  | invocation word => "Unknown invoke type '" ++ word ++ "'"
  | integerWidth width =>
      "Integer payloads are 1, 2 or 4 bytes wide, not " ++ Numeral.decimal width
  | other message => message

end Malformed

/-- Why a file could not be read or written. -/
inductive FileError
  /-- Nothing has that name. -/
  | notFound
  /-- The name denotes a directory. -/
  | isDirectory
  /-- The name leads through something that is no directory. -/
  | notDirectory
  /-- The file can not be mapped into memory. -/
  | notMappable
  /-- A name on the way, or the whole path, is too long. -/
  | nameTooLong
  /-- There is no room for what is to be written. -/
  | noSpace
  /-- There is no terminal. -/
  | noTerminal
  /-- What is to be read has no end. -/
  | endless
  /-- The name is no text, where names have to be. -/
  | illFormed
  /-- Any other reason, in words. -/
  | other (message : String)
deriving DecidableEq, Repr

namespace FileError

/-- The wording of a file failure. -/
def message : FileError → String
  | notFound => "No such file or directory (os error 2)"
  | isDirectory => "Is a directory (os error 21)"
  | notDirectory => "Not a directory (os error 20)"
  | notMappable => "No such device (os error 19)"
  | nameTooLong => "File name too long (os error 36)"
  | noSpace => "No space left on device (os error 28)"
  | noTerminal => "No such device or address (os error 6)"
  | endless => "out of memory"
  | illFormed => "Invalid or incomplete multibyte or wide character (os error 84)"
  | other message => message

end FileError

/-- Where in the text of a program a fault was noticed. -/
structure Place where
  /-- The name of the file. -/
  file : String
  /-- The number of the line, counted from one. -/
  line : Nat
deriving DecidableEq, Repr

/-- The failures of reading definitions, decoding scripts and writing source lines. -/
inductive Error
  /-- An operand starts with a byte that is no tag. -/
  | invalidTag (code : UInt8)
  /-- A read at `offset` wants more bytes than are left. -/
  | truncated (offset requested available : Nat)
  /-- An operand has no written form. -/
  | unrenderable (kind : Kind)
  /-- An operator is declared with a count that has no operator form. -/
  | operatorArity (opcode : UInt16) (count : OperandCount)
  /-- An opcode without a prototype, where one is demanded. -/
  | unknownOpcode (opcode : UInt16) (offset : Nat)
  /-- An operand of the instruction at `offset` could not be decoded. -/
  | instruction (opcode : UInt16) (offset : Nat) (source : Error)
  /-- A definition or a payload has a fault.  The readers of this library leave the place out, which
  is that of a line in the text of the reader itself; so the file and the line that stand in front
  of the fault where a place is given are missing from what they say. -/
  | malformed (fault : Malformed) (place : Option Place)
  /-- A file could not be read or written. -/
  | file (cause : FileError)
deriving DecidableEq, Repr

namespace Error

open Numeral

/-- The wording of a failure. -/
def message : Error → String
  | invalidTag code => "Invalid operand type tag - 0x" ++ hexPadded 2 code.toNat
  | truncated offset requested available =>
      "Truncated input at offset 0x" ++ hex offset ++ ": needed " ++ decimal requested
        ++ " bytes, " ++ decimal available ++ " available"
  | unrenderable kind => "Value of kind " ++ kind.name ++ " can not be rendered"
  | operatorArity opcode count =>
      "Operator 0x" ++ hexPadded 4 opcode.toNat ++ " declares " ++ count.text
        ++ " operands, only unary and binary operators are supported"
  | unknownOpcode opcode offset =>
      "Unknown opcode 0x" ++ hexPadded 4 opcode.toNat ++ " at offset 0x" ++ hex offset
  | instruction opcode offset source =>
      "Failed to decode instruction 0x" ++ hexPadded 4 opcode.toNat ++ " at offset 0x"
        ++ hex offset ++ ": " ++ source.message
  | malformed fault none => "Malformed - " ++ fault.message
  | malformed fault (some place) =>
      "Malformed - " ++ place.file ++ ":" ++ decimal place.line ++ ": " ++ fault.message
  | file cause => cause.message

/-- The failure at the bottom of a chain of instructions. -/
def root : Error → Error
  | instruction _ _ source => source.root
  | error => error

/-- The lines of a report, outermost cause first.  A file failure stands there twice, once for the
library and once for the system below it. -/
def causes : Error → List String
  | instruction opcode offset source =>
      (instruction opcode offset source).message :: source.causes
  | file cause => [cause.message, cause.message]
  | error => [error.message]

theorem causes_ne_nil (error : Error) : error.causes ≠ [] := by
  cases error <;> simp [causes]

@[simp]
theorem root_root (error : Error) : error.root.root = error.root := by
  induction error with
  | instruction opcode offset source ih => simpa [root] using ih
  | _ => rfl

end Error

end ScriptDisassembler
