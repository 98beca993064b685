import ScriptDisassembler.Text.Numeral

/-!
# Operand counts

Scripts do not store how many operands an instruction has.  The count is declared with the opcode:
a number, or an open end closed by a marker, which is written as minus one.
-/

namespace ScriptDisassembler

/-- How many operands an instruction takes. -/
inductive OperandCount
  /-- Exactly this many operands. -/
  | fixed (count : Nat)
  /-- As many operands as stand before an end marker. -/
  | variadic
deriving DecidableEq, Repr

namespace OperandCount

/-- No operands, unless something else is declared. -/
instance : Inhabited OperandCount :=
  ⟨fixed 0⟩

/-- The written form of a count. -/
def text : OperandCount → String
  | fixed count => Numeral.decimal count
  | variadic => "-1"

/-- A count from its integer value: minus one is variadic, other negative numbers and numbers of
64 bits and more are no counts. -/
def ofInt? (value : Int) : Option OperandCount :=
  if value = -1 then some variadic
  else if 0 ≤ value ∧ value < (2 ^ 63 : Nat) then some (fixed value.toNat)
  else none

/-- A count from decimal digits behind an optional sign. -/
def ofChars? (chars : List Char) : Option OperandCount :=
  (Numeral.readSigned? 10 chars).bind ofInt?

end OperandCount

end ScriptDisassembler
