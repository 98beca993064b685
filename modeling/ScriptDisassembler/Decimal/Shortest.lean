import ScriptDisassembler.Text.Numeral

/-!
# The shortest decimal in an interval

A number is given exactly, together with the interval of numbers that may stand for it.  Its
shortest decimal is the one on the coarsest grid of powers of ten that meets the interval; of two
grid points in the interval the nearer is taken, and the greater if both are equally near.

All lengths are whole numbers of quarters of one unit, so that the number is a whole number of units
and its distance to a halfway point is not a fraction.
-/

namespace ScriptDisassembler.Decimal

/-- A number of units and the interval around it, measured in quarters of a unit. -/
structure Interval where
  /-- The number, in units. -/
  units : Nat
  /-- The lower end, in quarters. -/
  low : Nat
  /-- The upper end, in quarters. -/
  high : Nat
  /-- Whether the ends belong to the interval. -/
  closed : Bool
deriving DecidableEq, Repr

namespace Interval

/-- Whether a number of quarters lies in the interval. -/
def contains (interval : Interval) (quarters : Nat) : Bool :=
  if interval.closed then interval.low ≤ quarters && quarters ≤ interval.high
  else interval.low < quarters && quarters < interval.high

/-- The multiple of `grid` units in the interval that is nearest to the number, as a coefficient of
`grid`.  Only the neighbours of the number on the grid are candidates. -/
def nearestOn? (interval : Interval) (grid : Nat) : Option Nat :=
  let below := interval.units / grid
  let lower := interval.contains (4 * (below * grid))
  let upper := interval.contains (4 * ((below + 1) * grid))
  if lower && upper then
    some (if 2 * (interval.units - below * grid) < grid then below else below + 1)
  else if lower then some below
  else if upper then some (below + 1)
  else none

end Interval

/-- A decimal: `coefficient` times ten to the power `exponent`, in units. -/
structure Scaled where
  /-- The significant digits as one number. -/
  coefficient : Nat
  /-- The power of ten of the last digit. -/
  exponent : Nat
deriving DecidableEq, Repr

/-- The shortest decimal of an interval whose last digit stands at the power `exponent` of ten or
below. -/
def shortest (interval : Interval) : Nat → Scaled
  | 0 => ⟨interval.units, 0⟩
  | exponent + 1 =>
      match interval.nearestOn? (10 ^ (exponent + 1)) with
      | some coefficient => ⟨coefficient, exponent + 1⟩
      | none => shortest interval exponent

/-- What is found on a grid lies in the interval. -/
theorem Interval.contains_of_nearestOn? {interval : Interval} {grid coefficient : Nat}
    (found : interval.nearestOn? grid = some coefficient) :
    interval.contains (4 * (coefficient * grid)) = true := by
  grind [Interval.nearestOn?]

/-- The shortest decimal is the number itself or another member of the interval. -/
theorem shortest_mem (interval : Interval) (exponent : Nat) :
    (shortest interval exponent = ⟨interval.units, 0⟩) ∨
      interval.contains
        (4 * ((shortest interval exponent).coefficient
          * 10 ^ (shortest interval exponent).exponent)) = true := by
  induction exponent with
  | zero => exact Or.inl rfl
  | succ exponent ih =>
      rw [shortest]
      cases found : interval.nearestOn? (10 ^ (exponent + 1)) with
      | none => exact ih
      | some coefficient => exact Or.inr (Interval.contains_of_nearestOn? found)

end ScriptDisassembler.Decimal
