import Mathlib.Algebra.Order.Field.Rat
import Mathlib.Tactic.FieldSimp
import Mathlib.Tactic.Ring
import ScriptDisassembler.Decimal.Binary32
import ScriptDisassembler.Proofs.Text.Numerals

/-!
# What decimals denote

`Decimal.Spells` says which rational number digits denote, with or without a point among them; the
point divides digits from digits, and nothing else stands in a decimal.  The positional form of a
decimal of so many places spells this decimal (`Binary32.spells_positional`).
-/

namespace ScriptDisassembler

open Numeral

namespace Decimal

/-- Whether characters are the digits of a number, with or without a point among them. -/
inductive Spells : List Char → ℚ → Prop
  /-- Digits alone spell a whole number. -/
  | whole {digits : List Char} {number : ℕ} (denoted : Denotes 10 digits number) :
      Spells digits number
  /-- Digits behind a point count as a fraction with as many places. -/
  | pointed {digits places : List Char} {number fraction : ℕ} (denoted : Denotes 10 digits number)
      (behind : Denotes 10 places fraction) :
      Spells (digits ++ '.' :: places) (number + fraction / 10 ^ places.length)

/-- A point is no digit. -/
theorem point_notMem {base value : Nat} {digits : List Char} (denoted : Denotes base digits value) :
    '.' ∉ digits := by
  intro member
  obtain ⟨single, isDigit⟩ := denoted.exists_isDigit member
  have foreign : '.' ∉ alphabet ++ alphabet.map Char.toUpper := by decide
  exact foreign isDigit.mem_alphabet

/-- Digits begin with one, hence not with a sign. -/
theorem exists_eq_cons {digits : List Char} {value : Nat} (denoted : Denotes 10 digits value) :
    ∃ digit rest, digits = digit :: rest ∧ digit ≠ '-' := by
  obtain ⟨digit, rest, rfl⟩ := List.exists_cons_of_ne_nil denoted.1
  refine ⟨digit, rest, rfl, ?_⟩
  rintro rfl
  exact not_denotes_sign (by decide) rest denoted

namespace Spells

variable {chars : List Char} {first second number : ℚ}

/-- A decimal begins with a digit, hence not with a sign. -/
theorem head?_ne_minus (spelled : Spells chars number) : chars.head? ≠ some '-' := by
  cases spelled with
  | whole denoted =>
      obtain ⟨digit, rest, rfl, differs⟩ := exists_eq_cons denoted
      simpa using differs
  | pointed denoted _ =>
      obtain ⟨digit, rest, rfl, differs⟩ := exists_eq_cons denoted
      simpa using differs

/-- A decimal spells one number. -/
theorem eq (one : Spells chars first) (other : Spells chars second) : first = second := by
  cases one with
  | whole denoted =>
      generalize same : chars = written at other
      cases other with
      | whole denoted' =>
          subst same
          rw [denoted.eq (by decide) denoted']
      | pointed denoted' behind' =>
          subst same
          exact absurd (List.mem_append_right _ List.mem_cons_self) (point_notMem denoted)
  | @pointed digits places number fraction denoted behind =>
      generalize same : digits ++ '.' :: places = written at other
      cases other with
      | whole denoted' =>
          subst same
          exact absurd (List.mem_append_right _ List.mem_cons_self) (point_notMem denoted')
      | pointed denoted' behind' =>
          have cut := Text.cutAt?_eq_some_iff.mpr ⟨same, point_notMem denoted'⟩
          rw [Text.cutAt?_eq_some_iff.mpr ⟨rfl, point_notMem denoted⟩, Option.some.injEq,
            Prod.mk.injEq] at cut
          obtain ⟨rfl, rfl⟩ := cut
          rw [denoted.eq (by decide) denoted', behind.eq (by decide) behind']

end Spells

/-! ## Moving the point -/

theorem mul_pow_div_of_le {coefficient exponent places : ℕ} (whole : places ≤ exponent) :
    ((coefficient * 10 ^ exponent : ℕ) : ℚ) / 10 ^ places =
      (coefficient * 10 ^ (exponent - places) : ℕ) := by
  obtain ⟨more, rfl⟩ := Nat.exists_eq_add_of_le whole
  rw [div_eq_iff (by positivity), Nat.add_sub_cancel_left]
  push_cast
  ring

theorem mul_pow_div_of_lt {high low exponent places : ℕ} (pointed : exponent < places) :
    (((high * 10 ^ (places - exponent) + low) * 10 ^ exponent : ℕ) : ℚ) / 10 ^ places =
      high + low / 10 ^ (places - exponent) := by
  obtain ⟨more, rfl⟩ := Nat.exists_eq_add_of_le (Nat.le_of_lt pointed)
  rw [Nat.add_sub_cancel_left]
  push_cast
  field_simp
  ring

end Decimal

/-! ## The positional form -/

namespace Binary32

open Decimal

/-- Zeros in a row denote zero. -/
theorem denotes_zeros (count : Nat) : Denotes 10 (List.replicate (count + 1) '0') 0 := by
  have denoted := @readDigits?_padded 10 0 (count + 1) (by decide) (by decide)
  rw [readDigits?_eq_some_iff (by decide), padded, Nat.toDigits_of_lt_base (by decide)] at denoted
  rwa [List.replicate_succ']

/-- Zeros behind digits move their number up. -/
theorem denotes_append_zeros {digits : List Char} {value : Nat} (denoted : Denotes 10 digits value)
    (count : Nat) : Denotes 10 (digits ++ List.replicate count '0') (value * 10 ^ count) := by
  cases count with
  | zero => simpa using denoted
  | succ count =>
      rw [denotes_append_iff denoted.1 (denotes_zeros count).1]
      exact ⟨value, 0, denoted, denotes_zeros count, by simp⟩

/-- The last digits and those in front of them denote parts of the number. -/
theorem exists_denotes_take_drop {digits : List Char} {value count : Nat}
    (denoted : Denotes 10 digits value) (positive : 0 < count) (short : count < digits.length) :
    ∃ high low, Denotes 10 (digits.take (digits.length - count)) high ∧
      Denotes 10 (digits.drop (digits.length - count)) low ∧
      (digits.drop (digits.length - count)).length = count ∧ value = high * 10 ^ count + low := by
  have back : (digits.drop (digits.length - count)).length = count := by
    rw [List.length_drop]
    omega
  have front : (digits.take (digits.length - count)).length = digits.length - count := by
    rw [List.length_take]
    omega
  rw [← List.take_append_drop (digits.length - count) digits, denotes_append_iff
    (List.ne_nil_of_length_pos (by omega)) (List.ne_nil_of_length_pos (by omega)), back] at denoted
  obtain ⟨high, low, ahead, behind, rfl⟩ := denoted
  exact ⟨high, low, ahead, behind, back, rfl⟩

/-- The positional form of a decimal spells its number. -/
theorem spells_positional (decimal : Scaled) :
    Spells (positional decimal)
      ((decimal.coefficient * 10 ^ decimal.exponent : ℕ) / (10 : ℚ) ^ places) := by
  unfold positional decimalDigits
  split
  · rename_i whole
    have digits := @readDigits?_toDigits 10 (by decide) (by decide) decimal.coefficient
    rw [readDigits?_eq_some_iff (by decide)] at digits
    rw [mul_pow_div_of_le whole]
    exact .whole (denotes_append_zeros digits _)
  · rename_i pointed
    have digits := @readDigits?_padded 10 decimal.coefficient (places - decimal.exponent + 1)
      (by decide) (by decide)
    rw [readDigits?_eq_some_iff (by decide)] at digits
    have long : places - decimal.exponent <
        (padded (places - decimal.exponent + 1) (Nat.toDigits 10 decimal.coefficient)).length := by
      rw [length_padded]
      omega
    obtain ⟨high, low, ahead, behind, count, value⟩ :=
      exists_denotes_take_drop digits (Nat.sub_pos_of_lt (Nat.not_le.mp pointed)) long
    have spelled := Spells.pointed ahead behind
    rwa [count, ← mul_pow_div_of_lt (Nat.not_le.mp pointed), ← value] at spelled

end Binary32

end ScriptDisassembler
