import ScriptDisassembler.Operand.Text
import ScriptDisassembler.Proofs.Decimal.Shortest
import ScriptDisassembler.Proofs.Operand.Stored

/-!
# Single-precision operands survive writing

A finite number is written as a decimal behind a minus sign if its sign bit is set.  The decimal
rounds back to the bits of the number and to no others of this sign (`Operand.text_float`), so the
texts of two numbers differ if their bits do.
-/

namespace ScriptDisassembler

namespace Binary32

variable {bits : UInt32}

theorem ofBits_of_isFinite (isFinite : IsFinite bits) :
    ofBits bits =
      .finite (isNegative bits) (mantissa (unsignedPart bits)) (scale (unsignedPart bits)) := by
  have small := bits.toNat_lt
  have exponent : unsignedPart bits / 2 ^ 23 = bits.toNat / 2 ^ 23 % 2 ^ 8 := by
    unfold unsignedPart
    omega
  have fraction : unsignedPart bits % 2 ^ 23 = bits.toNat % 2 ^ 23 := by
    unfold unsignedPart
    omega
  unfold ofBits mantissa scale
  rw [exponent, fraction]
  simp only
  rw [if_neg isFinite]
  split
  · rename_i least
    rw [least]
    rfl
  · rfl

/-- A sign in front of digits can be told from them. -/
theorem signed_inj {first second : Bool} {digits others : List Char}
    (unsigned : digits.head? ≠ some '-') (unsigned' : others.head? ≠ some '-')
    (same : signed first digits = signed second others) : first = second ∧ digits = others := by
  cases first <;> cases second
  case false.false => exact ⟨rfl, same⟩
  case true.true => exact ⟨rfl, List.tail_eq_of_cons_eq same⟩
  case true.false => exact absurd (congrArg List.head? same).symm unsigned'
  case false.true => exact absurd (congrArg List.head? same) unsigned

end Binary32

namespace Operand

open Binary32 Decimal

variable {operand : Operand} {bits : UInt32}

/-- A single-precision operand stands in a script as its tag and the four bytes of its bits. -/
theorem read_float {cursor after : Cursor}
    (stands : cursor.Passes (Tag.float32.code :: LittleEndian.bytes 4 bits.toNat) after) :
    read cursor = (.ok (ofTag .float32 (.float bits)), after) :=
  read_of_passes ⟨rfl, rfl⟩ stands

/-- The text of a finite number is a decimal that its bits attract, behind the sign. -/
theorem exists_text_eq (isFloat : operand.payload = .float bits) (isFinite : IsFinite bits) :
    ∃ (digits : List Char) (number : ℚ),
      operand.text = .ok (String.ofList (signed (isNegative bits) digits)) ∧
      Spells digits number ∧ Attracts (unsignedPart bits) number := by
  obtain ⟨number, spelled, attracted⟩ := exists_spells_magnitude (unsignedPart bits)
  refine ⟨_, number, ?_, spelled, attracted⟩
  rw [text, isFloat]
  simp only [ofBits_of_isFinite isFinite, Binary32.text]

/-! ## Main result -/

/-- An operand that is stored in the four bytes of the bits of a finite number is read as it.  Its
text is a decimal, behind a minus sign exactly if the sign bit is set.  Among the bits with this
sign, the number that the decimal spells rounds to these and no others, so no other operand with a
finite number has the same text. -/
theorem text_float (isFloat : operand.payload = .float bits) (isFinite : IsFinite bits) :
    (∀ cursor after : Cursor,
      cursor.Passes (Tag.float32.code :: LittleEndian.bytes 4 bits.toNat) after →
      read cursor = (.ok (ofTag .float32 operand.payload), after)) ∧
    (∃ (digits : List Char) (number : ℚ),
      operand.text =
        .ok (String.ofList (if isNegative bits then '-' :: digits else digits)) ∧
      Spells digits number ∧
      ∀ candidate, candidate = bits ↔
        RoundsTo (withSign (isNegative bits) number) candidate ∧
          isNegative candidate = isNegative bits) ∧
    ∀ (other : Operand) (otherBits : UInt32), other.payload = .float otherBits →
      IsFinite otherBits → other.text = operand.text → otherBits = bits := by
  obtain ⟨digits, number, text_eq, spelled, attracted⟩ := exists_text_eq isFloat isFinite
  have rounds := attracted.roundsTo isFinite
  refine ⟨fun cursor after stands => ?_, ⟨digits, number, text_eq, spelled, fun candidate => ?_⟩,
    fun other otherBits otherIsFloat otherIsFinite same => ?_⟩
  · rw [isFloat]
    exact read_float stands
  · constructor
    · rintro rfl
      exact ⟨rounds, rfl⟩
    · rintro ⟨candidateRounds, sign⟩
      exact candidateRounds.eq rounds sign
  · obtain ⟨otherDigits, otherNumber, other_eq, otherSpelled, otherAttracted⟩ :=
      exists_text_eq otherIsFloat otherIsFinite
    rw [text_eq, other_eq, Except.ok.injEq, String.ofList_inj] at same
    obtain ⟨sign, rfl⟩ := signed_inj otherSpelled.head?_ne_minus spelled.head?_ne_minus same
    have otherRounds := otherAttracted.roundsTo otherIsFinite
    rw [otherSpelled.eq spelled, sign] at otherRounds
    exact otherRounds.eq rounds sign

/-- A power of two, whose neighbour towards zero is only half as far as the other one: one digit
less would spell the neighbour. -/
theorem text_float_powerOfTwo :
    let operand := ofTag .float32 (.float 0xcc000000)
    operand.payload = .float 0xcc000000 ∧ IsFinite 0xcc000000 ∧
      operand.text = .ok "-33554432" ∧
      (∃ number, Spells "33554432".toList number ∧ RoundsTo (-number) 0xcc000000) ∧
      ∀ bits, IsFinite bits → (ofTag .float32 (.float bits)).text = .ok "-33554432" →
        bits = 0xcc000000 := by
  intro operand
  have isFinite : IsFinite 0xcc000000 := by decide
  have written : operand.text = .ok "-33554432" := by decide +kernel
  obtain ⟨-, ⟨digits, number, text_eq, spelled, rounds⟩, unique⟩ :=
    text_float (rfl : operand.payload = .float 0xcc000000) isFinite
  have negative : isNegative 0xcc000000 = true := by decide
  rw [negative] at rounds text_eq
  have digits_eq : digits = "33554432".toList := by
    rw [written, if_pos rfl, Except.ok.injEq] at text_eq
    have characters := congrArg String.toList text_eq
    simp only [String.toList_ofList] at characters
    exact (List.tail_eq_of_cons_eq characters).symm
  rw [digits_eq] at spelled
  refine ⟨rfl, isFinite, written, ⟨number, spelled, ((rounds _).mp rfl).1⟩, ?_⟩
  intro bits otherIsFinite same
  exact unique _ bits rfl otherIsFinite (same.trans written.symm)

end Operand

end ScriptDisassembler
