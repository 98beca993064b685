import ScriptDisassembler.Decimal.Binary32
import ScriptDisassembler.Error
import ScriptDisassembler.Operand.Basic

/-!
# Operands as source text

The written form of an operand depends on its payload and, for integers, on its kind: the number of
a variable stands behind the name of its scope.  Only an empty payload has no written form
(`Operand.text_eq_error_iff`).
-/

namespace ScriptDisassembler

/-- What stands in front of the number of a variable. -/
def Kind.scope (kind : Kind) : String :=
  if kind.isLocal then "local_"
  else if kind.isGlobal then "global_"
  else ""

/-- The written form of an array element: the array, then the variable that holds the position. -/
def ArrayAccess.text (access : ArrayAccess) : String :=
  "0x" ++ Numeral.hex access.base.toNat ++ "[*0x" ++ Numeral.hex access.index.toNat ++ "]"

namespace Operand

/-- The written form of an operand.  Strings stand between quotes as they are, also where they hold
a quote themselves. -/
def text (operand : Operand) : Except Error String :=
  match operand.payload with
  | .empty => .error (.unrenderable operand.kind)
  | .integer value => .ok (operand.kind.scope ++ Numeral.signedDecimal value)
  | .float bits => .ok (Binary32.ofBits bits).text
  | .text value => .ok ("\"" ++ value ++ "\"")
  | .element access => .ok access.text

/-- An operand has no written form exactly when its payload is empty. -/
theorem text_eq_error_iff {operand : Operand} {error : Error} :
    operand.text = .error error ↔
      operand.payload = .empty ∧ error = .unrenderable operand.kind := by
  cases payload : operand.payload <;> simp [text, payload, eq_comm]

end Operand

end ScriptDisassembler
