import Mathlib.Algebra.Order.Field.Rat
import Mathlib.Order.Monotone.Basic
import Mathlib.Tactic.Linarith
import Mathlib.Tactic.NormNum
import Mathlib.Tactic.Positivity
import Mathlib.Tactic.Ring
import ScriptDisassembler.Decimal.Binary32

/-!
# Rounding to single precision

`Binary32.RoundsTo` says which pattern of 32 bits a rational number rounds to: the nearest number,
and of two that are equally near the one with an even mantissa.  The numbers of one sign ascend with
their patterns (`absolute_strictMono`), and the mantissas of neighbours are even in turn, so a
number rounds to at most one pattern of either sign (`RoundsTo.eq`).  What lies between the points
halfway to the neighbours of a pattern rounds to it (`Attracts.roundsTo`).
-/

namespace ScriptDisassembler.Binary32

/-! ## The numbers -/

/-- Whether 32 bits are those of a finite number: the exponent is not the greatest one. -/
def IsFinite (bits : UInt32) : Prop :=
  bits.toNat / 2 ^ 23 % 2 ^ 8 ≠ 2 ^ 8 - 1

instance : DecidablePred IsFinite := fun _ => inferInstanceAs (Decidable (_ ≠ _))

/-- Whether the sign bit is set. -/
def isNegative (bits : UInt32) : Bool :=
  2 ^ 31 ≤ bits.toNat

/-- The exponent and the fraction of a pattern in a row, without the sign. -/
def unsignedPart (bits : UInt32) : Nat :=
  bits.toNat % 2 ^ 31

/-- The mantissa of an exponent and a fraction in a row, with the leading bit that is not stored. -/
def mantissa (pattern : Nat) : Nat :=
  if pattern / 2 ^ 23 = 0 then pattern % 2 ^ 23 else 2 ^ 23 + pattern % 2 ^ 23

/-- The power of two by which the mantissa is scaled, counted from the least one.  The two least
exponents scale alike. -/
def scale (pattern : Nat) : Nat :=
  pattern / 2 ^ 23 - 1

/-- The number that an exponent and a fraction in a row stand for. -/
def absolute (pattern : Nat) : ℚ :=
  (mantissa pattern * 2 ^ scale pattern : ℕ) / 2 ^ 149

/-- A number with the sign turned, if it is to be negative. -/
def withSign (negative : Bool) (number : ℚ) : ℚ :=
  if negative then -number else number

/-- The number that the bits of a finite number stand for. -/
def value (bits : UInt32) : ℚ :=
  withSign (isNegative bits) (absolute (unsignedPart bits))

/-- Whether a number rounds to the finite number of a pattern: it lies below the numbers that round
to infinity, no finite number is nearer, and if another one is equally near, the mantissa of the
pattern is even. -/
structure RoundsTo (number : ℚ) (bits : UInt32) : Prop where
  isFinite : IsFinite bits
  bounded : |number| < 2 ^ 128 - 2 ^ 103
  nearest : ∀ other, IsFinite other → |number - value bits| ≤ |number - value other|
  even : ∀ other, IsFinite other → value other ≠ value bits →
    |number - value bits| = |number - value other| → mantissa (unsignedPart bits) % 2 = 0

/-! ## Numbers of one sign -/

variable {pattern other : Nat} {number : ℚ} {bits : UInt32}

theorem isFinite_iff : IsFinite bits ↔ unsignedPart bits < 255 * 2 ^ 23 := by
  have small := bits.toNat_lt
  unfold IsFinite unsignedPart
  omega

/-- Neighbours have mantissas that are even in turn. -/
theorem mantissa_mod_two (pattern : Nat) : mantissa pattern % 2 = pattern % 2 := by
  unfold mantissa
  split <;> omega

/-- In the next pattern the fraction has grown by one, or it was full and is carried over to the
exponent. -/
theorem exponent_fraction_succ (pattern : Nat) :
    (pattern % 2 ^ 23 + 1 = 2 ^ 23 ∧ (pattern + 1) / 2 ^ 23 = pattern / 2 ^ 23 + 1 ∧
        (pattern + 1) % 2 ^ 23 = 0) ∨
      (pattern % 2 ^ 23 + 1 < 2 ^ 23 ∧ (pattern + 1) / 2 ^ 23 = pattern / 2 ^ 23 ∧
        (pattern + 1) % 2 ^ 23 = pattern % 2 ^ 23 + 1) := by
  omega

/-- The next number lies a last bit further, also where the last bit doubles. -/
theorem mantissa_succ_mul (pattern : Nat) :
    mantissa (pattern + 1) * 2 ^ scale (pattern + 1) =
      mantissa pattern * 2 ^ scale pattern + 2 ^ scale pattern := by
  unfold mantissa scale
  rcases exponent_fraction_succ pattern with
    ⟨full, exponent, fraction⟩ | ⟨-, exponent, fraction⟩
  · rw [exponent, fraction, if_neg (Nat.succ_ne_zero _), Nat.add_sub_cancel]
    generalize pattern / 2 ^ 23 = lower, pattern % 2 ^ 23 = ones at *
    cases lower with
    | zero => simpa using full.symm
    | succ lower =>
        have carried : 2 ^ 23 + ones + 1 = 2 * 2 ^ 23 := by omega
        rw [if_neg (Nat.succ_ne_zero _), Nat.add_sub_cancel, ← Nat.succ_mul, Nat.succ_eq_add_one,
          carried]
        ring
  · rw [exponent, fraction]
    split <;> ring

theorem absolute_succ (pattern : Nat) :
    absolute (pattern + 1) = absolute pattern + 2 ^ scale pattern / 2 ^ 149 := by
  unfold absolute
  rw [mantissa_succ_mul, ← add_div]
  push_cast
  rfl

theorem absolute_strictMono : StrictMono absolute := by
  apply strictMono_nat_of_lt_succ
  intro pattern
  rw [absolute_succ]
  have positive : (0 : ℚ) < 2 ^ scale pattern / 2 ^ 149 := by positivity
  linarith

theorem absolute_nonneg (pattern : Nat) : 0 ≤ absolute pattern := by
  unfold absolute
  positivity

theorem absolute_zero : absolute 0 = 0 := by
  simp [absolute, mantissa]

/-- The numbers from halfway between the greatest finite one and the next power of two round to
infinity. -/
theorem absolute_add_absolute_succ_le (finite : pattern < 255 * 2 ^ 23) :
    absolute pattern + absolute (pattern + 1) ≤ 2 * (2 ^ 128 - 2 ^ 103) := by
  have greatest : absolute (255 * 2 ^ 23 - 1) = 2 ^ 128 - 2 ^ 104 := by
    norm_num [absolute, mantissa, scale]
  have next : absolute (255 * 2 ^ 23) = 2 ^ 128 := by
    norm_num [absolute, mantissa, scale]
  have lower := absolute_strictMono.monotone (Nat.le_sub_one_of_lt finite)
  have upper := absolute_strictMono.monotone (Nat.succ_le_of_lt finite)
  rw [greatest] at lower
  rw [next] at upper
  linarith

/-! ## Distances -/

/-- Of two numbers, the greater one is nearer to what lies behind the middle. -/
theorem abs_sub_le_of_add_le {low high : ℚ} (ascending : low < high)
    (behind : low + high ≤ 2 * number) :
    |number - high| ≤ |number - low| := by
  rw [abs_of_nonneg (by linarith : 0 ≤ number - low)]
  exact abs_le.mpr ⟨by linarith, by linarith⟩

/-- Of two numbers, the lesser one is nearer to what lies in front of the middle. -/
theorem abs_sub_le_of_le_add {low high : ℚ} (ascending : low < high)
    (ahead : 2 * number ≤ low + high) :
    |number - low| ≤ |number - high| := by
  rw [abs_of_nonpos (by linarith : number - high ≤ 0)]
  exact abs_le.mpr ⟨by linarith, by linarith⟩

/-- What is equally near to two numbers lies in the middle. -/
theorem add_eq_of_abs_sub_eq {low high : ℚ} (ascending : low < high)
    (same : |number - low| = |number - high|) : low + high = 2 * number := by
  rcases abs_eq_abs.mp same with equal | opposite
  · linarith
  · linarith

theorem withSign_withSign (negative : Bool) (number : ℚ) :
    withSign negative (withSign negative number) = number := by
  cases negative with
  | false => rfl
  | true => exact neg_neg number

theorem withSign_withSign_of_ne {negative other : Bool} (differs : other ≠ negative) (number : ℚ) :
    withSign other (withSign negative number) = -number := by
  cases negative <;> cases other
  case false.false | true.true => exact absurd rfl differs
  case false.true | true.false => rfl

theorem abs_withSign (negative : Bool) (number : ℚ) : |withSign negative number| = |number| := by
  cases negative with
  | false => rfl
  | true => exact abs_neg number

/-- The sign of a number may be turned with that of a pattern. -/
theorem abs_sub_value (number : ℚ) (bits : UInt32) :
    |number - value bits| =
      |withSign (isNegative bits) number - absolute (unsignedPart bits)| := by
  unfold value withSign
  split
  · rw [← abs_neg (-number - _)]
    ring_nf
  · rfl

/-! ## What is attracted -/

/-- Whether a number without a sign is attracted by a pattern: it lies between the points halfway to
its neighbours, and on one of these points only if the mantissa is even. -/
structure Attracts (pattern : Nat) (number : ℚ) : Prop where
  nonneg : 0 ≤ number
  below : ∀ previous, previous + 1 = pattern → absolute previous + absolute pattern ≤ 2 * number
  above : 2 * number ≤ absolute pattern + absolute (pattern + 1)
  even : (∃ neighbour, (neighbour + 1 = pattern ∨ neighbour = pattern + 1) ∧
    absolute pattern + absolute neighbour = 2 * number) → mantissa pattern % 2 = 0

namespace Attracts

/-- No number of this sign is nearer. -/
theorem nearest (attracted : Attracts pattern number) (other : Nat) :
    |number - absolute pattern| ≤ |number - absolute other| := by
  rcases Nat.lt_trichotomy other pattern with less | rfl | greater
  · obtain ⟨previous, rfl⟩ := Nat.exists_eq_add_one_of_ne_zero (Nat.ne_zero_of_lt less)
    have ordered := absolute_strictMono.monotone (Nat.le_of_lt_succ less)
    have middle := attracted.below previous rfl
    exact abs_sub_le_of_add_le (absolute_strictMono less) (by linarith)
  · exact le_rfl
  · have ordered := absolute_strictMono.monotone (Nat.succ_le_of_lt greater)
    have middle := attracted.above
    exact abs_sub_le_of_le_add (absolute_strictMono greater) (by linarith)

/-- If another number of this sign is equally near, the mantissa is even. -/
theorem even_of_abs_sub_eq (attracted : Attracts pattern number) (differs : other ≠ pattern)
    (same : |number - absolute pattern| = |number - absolute other|) :
    mantissa pattern % 2 = 0 := by
  apply attracted.even
  rcases Nat.lt_or_gt_of_ne differs with less | greater
  · obtain ⟨previous, rfl⟩ := Nat.exists_eq_add_one_of_ne_zero (Nat.ne_zero_of_lt less)
    have ordered := absolute_strictMono.monotone (Nat.le_of_lt_succ less)
    have middle := attracted.below previous rfl
    have halfway := add_eq_of_abs_sub_eq (absolute_strictMono less) same.symm
    exact ⟨previous, .inl rfl, by linarith⟩
  · have ordered := absolute_strictMono.monotone (Nat.succ_le_of_lt greater)
    have middle := attracted.above
    have halfway := add_eq_of_abs_sub_eq (absolute_strictMono greater) same
    exact ⟨pattern + 1, .inr rfl, by linarith⟩

/-- What the pattern of a finite number attracts does not round to infinity. -/
theorem lt (attracted : Attracts pattern number) (finite : pattern < 255 * 2 ^ 23) :
    number < 2 ^ 128 - 2 ^ 103 := by
  have bound := absolute_add_absolute_succ_le finite
  have above := attracted.above
  apply lt_of_le_of_ne (by linarith)
  rintro rfl
  -- The point halfway to infinity goes to the even side, which is not that of the last mantissa.
  have even := attracted.even ⟨pattern + 1, .inr rfl, le_antisymm bound above⟩
  rw [mantissa_mod_two] at even
  have further := @absolute_add_absolute_succ_le (pattern + 1) (by omega)
  have first := absolute_strictMono (Nat.lt_succ_self pattern)
  have second := absolute_strictMono (Nat.lt_succ_self (pattern + 1))
  simp only [Nat.succ_eq_add_one] at first second
  linarith

/-- Numbers of the other sign are not nearer than zero. -/
theorem abs_sub_le_add (attracted : Attracts pattern number) (other : Nat) :
    |number - absolute pattern| ≤ |-number - absolute other| := by
  have zero := attracted.nearest 0
  have nonneg := attracted.nonneg
  have positive := absolute_nonneg other
  rw [absolute_zero, sub_zero, abs_of_nonneg nonneg] at zero
  rw [abs_of_nonpos (by linarith : -number - absolute other ≤ 0)]
  linarith

/-- If a number of the other sign is equally near, so is zero. -/
theorem abs_sub_zero_eq (attracted : Attracts pattern number)
    (same : |number - absolute pattern| = |-number - absolute other|) :
    |number - absolute pattern| = |number - absolute 0| := by
  have zero := attracted.nearest 0
  have nonneg := attracted.nonneg
  have positive := absolute_nonneg other
  rw [abs_of_nonpos (by linarith : -number - absolute other ≤ 0)] at same
  rw [absolute_zero, sub_zero, abs_of_nonneg nonneg] at zero ⊢
  linarith

/-- A number rounds to the pattern that attracts it, with its sign. -/
theorem roundsTo (attracted : Attracts (unsignedPart bits) number) (finite : IsFinite bits) :
    RoundsTo (withSign (isNegative bits) number) bits := by
  refine ⟨finite, ?_, fun other _ => ?_, fun other _ differs same => ?_⟩
  · rw [abs_withSign, abs_of_nonneg attracted.nonneg]
    exact attracted.lt (isFinite_iff.mp finite)
  · rw [abs_sub_value, abs_sub_value, withSign_withSign]
    by_cases sign : isNegative other = isNegative bits
    · rw [sign, withSign_withSign]
      exact attracted.nearest _
    · rw [withSign_withSign_of_ne sign]
      exact attracted.abs_sub_le_add _
  · rw [abs_sub_value, abs_sub_value, withSign_withSign] at same
    by_cases sign : isNegative other = isNegative bits
    · rw [sign, withSign_withSign] at same
      apply attracted.even_of_abs_sub_eq _ same
      intro equal
      apply differs
      rw [value, value, sign, equal]
    · rw [withSign_withSign_of_ne sign] at same
      by_cases zero : unsignedPart bits = 0
      · rw [zero]
        rfl
      · exact attracted.even_of_abs_sub_eq (Ne.symm zero) (attracted.abs_sub_zero_eq same)

end Attracts

/-! ## Rounding is unique -/

/-- The sign and the part without it make up the bits. -/
theorem toNat_eq (bits : UInt32) :
    bits.toNat = (if isNegative bits then 2 ^ 31 else 0) + unsignedPart bits := by
  have small := bits.toNat_lt
  simp only [isNegative, unsignedPart, decide_eq_true_eq]
  split <;> omega

theorem eq_of_unsignedPart_eq {first second : UInt32} (sign : isNegative first = isNegative second)
    (same : unsignedPart first = unsignedPart second) : first = second := by
  apply UInt32.toNat_inj.mp
  rw [toNat_eq first, toNat_eq second, sign, same]

/-- The pattern behind that of a finite number has the same sign. -/
theorem exists_next (finite : IsFinite bits) :
    ∃ next, isNegative next = isNegative bits ∧ unsignedPart next = unsignedPart bits + 1 := by
  have inside := isFinite_iff.mp finite
  have whole := bits.toNat_lt
  have small : bits.toNat + 1 < 2 ^ 32 := by
    unfold unsignedPart at inside
    omega
  refine ⟨UInt32.ofNat (bits.toNat + 1), ?_⟩
  unfold unsignedPart at inside
  simp only [isNegative, unsignedPart, UInt32.toNat_ofNat_of_lt' small, decide_eq_decide]
  constructor <;> omega

namespace RoundsTo

variable {first second : UInt32}

/-- Two numbers to which the same one rounds are equally near. -/
theorem abs_sub_eq (one : RoundsTo number first) (other : RoundsTo number second) :
    |number - value first| = |number - value second| :=
  le_antisymm (one.nearest second other.isFinite) (other.nearest first one.isFinite)

/-- A number does not round to two patterns of one sign: between two with even mantissas there is a
third, which would be nearer. -/
theorem not_lt (one : RoundsTo number first) (other : RoundsTo number second)
    (sign : isNegative first = isNegative second) :
    ¬ unsignedPart first < unsignedPart second := by
  intro less
  have same := one.abs_sub_eq other
  have differs : value first ≠ value second := by
    intro equal
    unfold value at equal
    rw [sign] at equal
    have parts := congrArg (withSign (isNegative second)) equal
    rw [withSign_withSign, withSign_withSign] at parts
    exact absurd (absolute_strictMono.injective parts) (Nat.ne_of_lt less)
  have firstEven := one.even second other.isFinite differs.symm same
  have secondEven := other.even first one.isFinite differs same.symm
  rw [mantissa_mod_two] at firstEven secondEven
  obtain ⟨next, nextSign, nextPart⟩ := exists_next one.isFinite
  have inside := isFinite_iff.mp other.isFinite
  have nearest := one.nearest next (isFinite_iff.mpr (by omega))
  rw [abs_sub_value, abs_sub_value, ← sign] at same
  rw [abs_sub_value, abs_sub_value, nextSign, nextPart] at nearest
  have middle := add_eq_of_abs_sub_eq (absolute_strictMono less) same
  have lower := absolute_strictMono (Nat.lt_succ_self (unsignedPart first))
  have upper := absolute_strictMono (by omega : unsignedPart first + 1 < unsignedPart second)
  rw [Nat.succ_eq_add_one] at lower
  rw [abs_of_nonneg (by linarith), le_abs] at nearest
  rcases nearest with above | below <;> linarith

/-- A number rounds to at most one pattern of either sign. -/
theorem eq (one : RoundsTo number first) (other : RoundsTo number second)
    (sign : isNegative first = isNegative second) : first = second := by
  apply eq_of_unsignedPart_eq sign
  exact Nat.le_antisymm (Nat.not_lt.mp (other.not_lt one sign.symm))
    (Nat.not_lt.mp (one.not_lt other sign))

end RoundsTo

end ScriptDisassembler.Binary32
