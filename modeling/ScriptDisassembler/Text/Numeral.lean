/-!
# Numerals

Whole numbers as text: lower-case hexadecimal with optional zero padding, decimal, and the reading
of both.  Reading accepts a leading plus sign, any number of leading zeros and both cases of a
hexadecimal digit; `readDigits?_toDigits` says that the digits of a number read back as that number.

What stands on a place is multiplied by a power of the base.  More than one instance gives the
powers of a natural number, and which of them a statement takes depends on what is imported beside
it; from here on it is the one of the core library throughout, also for numerals, whose types are
found by default.
-/

namespace ScriptDisassembler.Numeral

/-- The powers of a natural number. -/
@[default_instance 20000]
instance natPower : Pow Nat Nat :=
  instPowNat

/-! ## Writing -/

/-- The hexadecimal digits of a number, most significant first. -/
def hexDigits (value : Nat) : List Char :=
  Nat.toDigits 16 value

/-- The decimal digits of a number, most significant first. -/
def decimalDigits (value : Nat) : List Char :=
  Nat.toDigits 10 value

/-- A digit string brought to at least `width` digits by leading zeros. -/
def padded (width : Nat) (digits : List Char) : List Char :=
  List.replicate (width - digits.length) '0' ++ digits

@[simp]
theorem length_padded (width : Nat) (digits : List Char) :
    (padded width digits).length = max width digits.length := by
  simp only [padded, List.length_append, List.length_replicate]
  omega

/-- A number in hexadecimal, without leading zeros. -/
def hex (value : Nat) : String :=
  String.ofList (hexDigits value)

/-- A number in hexadecimal, in at least `width` digits. -/
def hexPadded (width value : Nat) : String :=
  String.ofList (padded width (hexDigits value))

/-- A number in decimal. -/
def decimal (value : Nat) : String :=
  String.ofList (decimalDigits value)

/-- An integer in decimal; only negative numbers carry a sign. -/
def signedDecimal : Int → String
  | .ofNat value => decimal value
  | .negSucc value => "-" ++ decimal (value + 1)

/-! ## Reading -/

/-- The value of a decimal digit or of a letter from A to F in either case. -/
def hexDigitValue? (digit : Char) : Option Nat :=
  if '0' ≤ digit ∧ digit ≤ '9' then some (digit.toNat - '0'.toNat)
  else if 'a' ≤ digit ∧ digit ≤ 'f' then some (digit.toNat - 'a'.toNat + 10)
  else if 'A' ≤ digit ∧ digit ≤ 'F' then some (digit.toNat - 'A'.toNat + 10)
  else none

/-- The value of a digit in a base of at most sixteen. -/
def digitValue? (base : Nat) (digit : Char) : Option Nat :=
  (hexDigitValue? digit).filter (· < base)

/-- The number that a nonempty string of digits stands for. -/
def readDigits? (base : Nat) (digits : List Char) : Option Nat :=
  if digits.isEmpty then none
  else digits.foldlM (fun value digit => (digitValue? base digit).map (value * base + ·)) 0

/-- The number that digits behind an optional plus sign stand for. -/
def readUnsigned? (base : Nat) : List Char → Option Nat
  | '+' :: digits => readDigits? base digits
  | digits => readDigits? base digits

/-- The integer that digits behind an optional sign stand for. -/
def readSigned? (base : Nat) : List Char → Option Int
  | '-' :: digits => (readDigits? base digits).map fun value => -Int.ofNat value
  | digits => (readUnsigned? base digits).map Int.ofNat

/-! ## What is written reads back -/

/-- A written digit has the value it was written for. -/
@[simp]
theorem digitValue?_digitChar {base value : Nat} (small : value < base) (base_le : base ≤ 16) :
    digitValue? base value.digitChar = some value := by
  have digits : ∀ index : Fin 16, hexDigitValue? index.val.digitChar = some index.val := by decide
  have read := digits ⟨value, by omega⟩
  simp only at read
  simp [digitValue?, read, small]

theorem foldlM_toDigits {base : Nat} (base_gt : 1 < base) (base_le : base ≤ 16) (value : Nat) :
    (Nat.toDigits base value).foldlM
      (fun value digit => (digitValue? base digit).map (value * base + ·)) 0 = some value := by
  induction value using Nat.strongRecOn with
  | ind value ih =>
      by_cases small : value < base
      · simp [Nat.toDigits_of_lt_base small, digitValue?_digitChar small base_le]
      · have split : Nat.toDigits base value =
            Nat.toDigits base (value / base) ++ [(value % base).digitChar] :=
          Nat.toDigits_of_base_le base_gt (by omega)
        have lower : value / base < value := Nat.div_lt_self (by omega) base_gt
        have last := digitValue?_digitChar (Nat.mod_lt value (by omega : 0 < base)) base_le
        rw [split, List.foldlM_append, ih _ lower]
        simp [last, Nat.div_add_mod']

/-- The digits of a number read back as that number. -/
theorem readDigits?_toDigits {base : Nat} (base_gt : 1 < base) (base_le : base ≤ 16)
    (value : Nat) : readDigits? base (Nat.toDigits base value) = some value := by
  have nonempty : Nat.toDigits base value ≠ [] := Nat.toDigits_ne_nil
  simp [readDigits?, nonempty, foldlM_toDigits base_gt base_le]

end ScriptDisassembler.Numeral
