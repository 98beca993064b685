import ScriptDisassembler.Decimal.Shortest
import ScriptDisassembler.Text.Numeral

/-!
# Single-precision numbers as text

A binary32 pattern is decoded into its exact value: every finite one is a whole number of units of
ten to the power -149.  Its text is the shortest decimal that reads back to the same pattern,
written positionally without an exponent.
-/

namespace ScriptDisassembler

/-- What a pattern of 32 bits stands for. -/
inductive Binary32
  /-- No number. -/
  | notANumber
  /-- Infinity of either sign. -/
  | infinite (negative : Bool)
  /-- A finite number: a sign, and `mantissa` times two to the power `scale - 149`. -/
  | finite (negative : Bool) (mantissa scale : Nat)
deriving DecidableEq, Repr

namespace Binary32

/-- The number of decimal places in which every finite number is exact. -/
def places : Nat :=
  149

/-- The greatest power of ten, counted from the last of these places, at which a digit of a finite
number can stand. -/
def topExponent : Nat :=
  places + 39

/-- What a pattern of 32 bits stands for. -/
def ofBits (bits : UInt32) : Binary32 :=
  let negative := 2 ^ 31 ≤ bits.toNat
  let exponent := bits.toNat / 2 ^ 23 % 2 ^ 8
  let fraction := bits.toNat % 2 ^ 23
  if exponent = 2 ^ 8 - 1 then
    if fraction = 0 then infinite negative else notANumber
  else if exponent = 0 then finite negative fraction 0
  else finite negative (2 ^ 23 + fraction) (exponent - 1)

/-- The value of the last bit of a mantissa, in units of ten to the power -149. -/
def lastBit (scale : Nat) : Nat :=
  2 ^ scale * 5 ^ places

/-- The numbers that round to a finite positive one: those up to half of a last bit away, or a
quarter downwards from where the last bit doubles.  The ends round to the even mantissa. -/
def roundingInterval (mantissa scale : Nat) : Decimal.Interval where
  units := mantissa * lastBit scale
  low := (4 * mantissa - if mantissa = 2 ^ 23 ∧ 0 < scale then 1 else 2) * lastBit scale
  high := (4 * mantissa + 2) * lastBit scale
  closed := mantissa % 2 = 0

/-- A decimal of so many places, written with a point only in front of a fraction. -/
def positional (decimal : Decimal.Scaled) : List Char :=
  let digits := Numeral.decimalDigits decimal.coefficient
  if places ≤ decimal.exponent then
    digits ++ List.replicate (decimal.exponent - places) '0'
  else
    let fraction := places - decimal.exponent
    let digits := Numeral.padded (fraction + 1) digits
    digits.take (digits.length - fraction) ++ '.' :: digits.drop (digits.length - fraction)

/-- The shortest text of a finite number without its sign. -/
def magnitude (mantissa scale : Nat) : List Char :=
  if mantissa = 0 then ['0']
  else positional (Decimal.shortest (roundingInterval mantissa scale) topExponent)

/-- A text behind a minus sign, if it is to have one. -/
def signed (negative : Bool) (text : List Char) : List Char :=
  if negative then '-' :: text else text

/-- The text of a number. -/
def text : Binary32 → String
  | notANumber => "NaN"
  | infinite negative => String.ofList (signed negative ['i', 'n', 'f'])
  | finite negative mantissa scale => String.ofList (signed negative (magnitude mantissa scale))

end Binary32

end ScriptDisassembler
