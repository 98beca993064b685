import ScriptDisassembler.Proofs.Decimal.Rounding
import ScriptDisassembler.Proofs.Decimal.Spelling

/-!
# The shortest decimal rounds back

The ends of a rounding interval are the points halfway to the neighbours of a number
(`low_eq_halfway`, `high_eq_halfway`), so a pattern attracts what its interval contains
(`attracts_of_contains`).  The shortest decimal is looked for in the interval, which the number
itself is never outside of.  So the text of a finite number spells a number that its pattern
attracts (`exists_spells_magnitude`).
-/

namespace ScriptDisassembler.Binary32

open Decimal

variable {pattern : Nat}

/-! ## Ends of intervals -/

/-- So many quarters of the last of the places in which every finite number is exact. -/
def ofQuarters (quarters : Nat) : ℚ :=
  quarters / (4 * 10 ^ 149)

/-- The point halfway between the numbers of two patterns, in quarters of the last place. -/
def halfway (first second : Nat) : Nat :=
  2 * (mantissa first * 2 ^ scale first + mantissa second * 2 ^ scale second) * 5 ^ places

theorem absolute_add_absolute (first second : Nat) :
    absolute first + absolute second = 2 * ofQuarters (halfway first second) := by
  have split : (10 : ℚ) ^ 149 = 2 ^ 149 * 5 ^ 149 := by norm_num
  unfold absolute ofQuarters halfway places
  rw [split]
  push_cast
  field_simp
  ring

/-- The last bit of a number is that of the one before, or twice as great where the mantissa begins
anew. -/
theorem two_mul_scale (previous : Nat) :
    2 * 2 ^ scale previous =
      (if mantissa (previous + 1) = 2 ^ 23 ∧ 0 < scale (previous + 1) then 1 else 2) *
        2 ^ scale (previous + 1) := by
  unfold mantissa scale
  rcases exponent_fraction_succ previous with
    ⟨-, exponent, fraction⟩ | ⟨short, exponent, fraction⟩
  · rw [exponent, fraction, Nat.add_sub_cancel]
    generalize previous / 2 ^ 23 = lower
    cases lower with
    | zero => simp
    | succ lower => simp [Nat.pow_succ, Nat.mul_comm]
  · rw [exponent, fraction, if_neg]
    rintro ⟨anew, -⟩
    split at anew <;> omega

theorem low_eq_halfway (previous : Nat) :
    (roundingInterval (mantissa (previous + 1)) (scale (previous + 1))).low =
      halfway previous (previous + 1) := by
  have step := mantissa_succ_mul previous
  have last := two_mul_scale previous
  simp only [roundingInterval, halfway, lastBit, ← Nat.mul_assoc]
  rw [Nat.sub_mul, ← last, Nat.mul_assoc 4, step]
  congr 1
  omega

theorem high_eq_halfway (pattern : Nat) :
    (roundingInterval (mantissa pattern) (scale pattern)).high = halfway pattern (pattern + 1) := by
  unfold roundingInterval halfway lastBit
  simp only
  rw [mantissa_succ_mul]
  ring

/-! ## What an interval contains -/

theorem ofQuarters_le {first second : Nat} :
    ofQuarters first ≤ ofQuarters second ↔ first ≤ second := by
  unfold ofQuarters
  rw [div_le_div_iff_of_pos_right (by positivity), Nat.cast_le]

theorem ofQuarters_inj {first second : Nat} :
    ofQuarters first = ofQuarters second ↔ first = second := by
  simp only [le_antisymm_iff, ofQuarters_le]

/-- A pattern attracts what lies between the points halfway to its neighbours. -/
theorem attracts_of_halfway {quarters : Nat}
    (below : ∀ previous, previous + 1 = pattern → halfway previous pattern ≤ quarters)
    (above : quarters ≤ halfway pattern (pattern + 1))
    (even : mantissa pattern % 2 = 0 ∨ quarters ≠ halfway pattern (pattern + 1) ∧
      ∀ previous, previous + 1 = pattern → quarters ≠ halfway previous pattern) :
    Attracts pattern (ofQuarters quarters) := by
  refine ⟨by unfold ofQuarters; positivity, fun previous next => ?_, ?_, ?_⟩
  · rw [absolute_add_absolute]
    have ordered := ofQuarters_le.mpr (below previous next)
    linarith
  · rw [absolute_add_absolute]
    have ordered := ofQuarters_le.mpr above
    linarith
  · rintro ⟨neighbour, beside, middle⟩
    rcases even with isEven | ⟨notAbove, notBelow⟩
    · exact isEven
    · exfalso
      rcases beside with next | rfl
      · rw [add_comm, absolute_add_absolute, mul_right_inj' two_ne_zero, ofQuarters_inj] at middle
        exact notBelow neighbour next middle.symm
      · rw [absolute_add_absolute, mul_right_inj' two_ne_zero, ofQuarters_inj] at middle
        exact notAbove middle.symm

/-- A pattern attracts what its interval contains. -/
theorem attracts_of_contains {quarters : Nat}
    (contained : (roundingInterval (mantissa pattern) (scale pattern)).contains quarters = true) :
    Attracts pattern (ofQuarters quarters) := by
  have high := high_eq_halfway pattern
  have low : ∀ previous, previous + 1 = pattern →
      (roundingInterval (mantissa pattern) (scale pattern)).low = halfway previous pattern := by
    rintro previous rfl
    exact low_eq_halfway previous
  unfold Interval.contains at contained
  rw [high] at contained
  split at contained
  · rename_i closed
    rw [Bool.and_eq_true, decide_eq_true_eq, decide_eq_true_eq] at contained
    apply attracts_of_halfway _ contained.2 (.inl (of_decide_eq_true closed))
    intro previous next
    rw [← low previous next]
    exact contained.1
  · rw [Bool.and_eq_true, decide_eq_true_eq, decide_eq_true_eq] at contained
    apply attracts_of_halfway _ (Nat.le_of_lt contained.2)
    · refine .inr ⟨Nat.ne_of_lt contained.2, fun previous next => ?_⟩
      rw [← low previous next]
      exact Nat.ne_of_gt contained.1
    · intro previous next
      rw [← low previous next]
      exact Nat.le_of_lt contained.1

/-- A number other than zero lies inside its interval. -/
theorem contains_self (positive : 0 < mantissa pattern) :
    (roundingInterval (mantissa pattern) (scale pattern)).contains
      (4 * (roundingInterval (mantissa pattern) (scale pattern)).units) = true := by
  have lastBit_pos : 0 < lastBit (scale pattern) := by
    unfold lastBit
    positivity
  have low : (roundingInterval (mantissa pattern) (scale pattern)).low <
      4 * (roundingInterval (mantissa pattern) (scale pattern)).units := by
    unfold roundingInterval
    simp only
    rw [← Nat.mul_assoc]
    apply Nat.mul_lt_mul_of_pos_right _ lastBit_pos
    split <;> omega
  have high : 4 * (roundingInterval (mantissa pattern) (scale pattern)).units <
      (roundingInterval (mantissa pattern) (scale pattern)).high := by
    unfold roundingInterval
    simp only
    rw [← Nat.mul_assoc]
    exact Nat.mul_lt_mul_of_pos_right (by omega) lastBit_pos
  unfold Interval.contains
  split <;> simp only [Bool.and_eq_true, decide_eq_true_eq]
  · exact ⟨Nat.le_of_lt low, Nat.le_of_lt high⟩
  · exact ⟨low, high⟩

/-- The shortest decimal is found in the interval, if the number itself lies there. -/
theorem contains_shortest {interval : Interval}
    (self : interval.contains (4 * interval.units) = true) (exponent : Nat) :
    interval.contains
      (4 * ((shortest interval exponent).coefficient
        * 10 ^ (shortest interval exponent).exponent)) = true := by
  rcases shortest_mem interval exponent with exactly | contained
  · rw [exactly, Nat.pow_zero, Nat.mul_one]
    exact self
  · exact contained

/-! ## Main result -/

theorem ofQuarters_four_mul (number : Nat) : ofQuarters (4 * number) = number / 10 ^ 149 := by
  unfold ofQuarters
  push_cast
  rw [mul_div_mul_left _ _ four_ne_zero]

theorem eq_zero_of_mantissa (zero : mantissa pattern = 0) : pattern = 0 := by
  unfold mantissa at zero
  split at zero <;> omega

/-- Zero is attracted by zero. -/
theorem attracts_zero : Attracts 0 (ofQuarters 0) := by
  apply attracts_of_halfway
  · intro previous next
    exact absurd next (Nat.succ_ne_zero previous)
  · exact Nat.zero_le _
  · exact .inl rfl

/-- The text of a finite number without its sign spells a number that its pattern attracts. -/
theorem exists_spells_magnitude (pattern : Nat) :
    ∃ number, Spells (magnitude (mantissa pattern) (scale pattern)) number ∧
      Attracts pattern number := by
  unfold magnitude
  split
  · rename_i zero
    rw [eq_zero_of_mantissa zero]
    refine ⟨_, .whole (denotes_zeros 0), ?_⟩
    have whole := ofQuarters_four_mul 0
    rw [Nat.mul_zero, Nat.cast_zero, zero_div] at whole
    rw [Nat.cast_zero, ← whole]
    exact attracts_zero
  · rename_i nonzero
    refine ⟨_, spells_positional _, ?_⟩
    rw [places, ← ofQuarters_four_mul]
    exact attracts_of_contains (contains_shortest (contains_self (Nat.pos_of_ne_zero nonzero)) _)

end ScriptDisassembler.Binary32
