import ScriptDisassembler.Proofs.Text.Numerals
import ScriptDisassembler.Prototype.Line

/-!
# What the parts of a line are read as

The opcode, the invocation form and the count of a prototype stand in its line as texts.  For each
of them one lemma says which texts are read as which value (`readOpcode_eq_ok_iff`,
`readInvocation_eq_ok_iff`, `readCount_eq_ok_iff`), and one which are refused, and for what.
-/

namespace ScriptDisassembler

open Numeral (DenotesUnsigned DenotesSigned)

/-! ## Opcodes -/

theorem readOpcode_eq_ok_iff {text : List Char} {opcode : UInt16} :
    readOpcode text = .ok opcode ↔
      DenotesUnsigned 16 (Text.strip text) opcode.toNat ∧ opcode.toNat ≤ 0x7fff := by
  simp only [← Numeral.readUnsigned?_eq_some_iff (by decide : 16 ≤ 16), readOpcode]
  cases Numeral.readUnsigned? 16 (Text.strip text) with
  | none => simp
  | some value =>
      dsimp only
      split
      · rename_i small
        have kept : (UInt16.ofNat value).toNat = value :=
          UInt16.toNat_ofNat_of_lt' (Nat.lt_of_le_of_lt small (by decide))
        simp only [Except.ok.injEq, Option.some.injEq]
        constructor
        · rintro rfl
          exact ⟨kept.symm, kept.symm ▸ small⟩
        · rintro ⟨rfl, -⟩
          exact UInt16.ofNat_toNat
      · rename_i wide
        have other : value = opcode.toNat → 0x7fff < opcode.toNat := by omega
        split <;> simpa using other

/-- An opcode is refused with its value if that has 16 bits, and otherwise with its text. -/
theorem readOpcode_eq_error_iff {text : List Char} {fault : Malformed} :
    readOpcode text = .error fault ↔
      (∃ opcode : UInt16, DenotesUnsigned 16 (Text.strip text) opcode.toNat ∧
          0x7fff < opcode.toNat ∧ fault = .wideOpcode opcode) ∨
        (∀ value, DenotesUnsigned 16 (Text.strip text) value → 0xffff < value) ∧
          fault = .opcode (String.ofList (Text.strip text)) := by
  simp only [← Numeral.readUnsigned?_eq_some_iff (by decide : 16 ≤ 16), readOpcode]
  cases Numeral.readUnsigned? 16 (Text.strip text) with
  | none => simp [eq_comm]
  | some value =>
      simp only [Option.some.injEq, forall_eq']
      split
      · rename_i small
        simp only [reduceCtorEq, false_iff]
        rintro (⟨opcode, rfl, wide, -⟩ | ⟨long, -⟩) <;> omega
      · rename_i wide
        split
        · rename_i short
          have kept : (UInt16.ofNat value).toNat = value :=
            UInt16.toNat_ofNat_of_lt' (Nat.lt_of_le_of_lt short (by decide))
          simp only [Except.error.injEq]
          constructor
          · rintro rfl
            exact .inl ⟨_, kept.symm, by omega, rfl⟩
          · rintro (⟨opcode, rfl, -, rfl⟩ | ⟨long, -⟩)
            · rw [UInt16.ofNat_toNat]
            · omega
        · rename_i long
          simp only [Except.error.injEq]
          constructor
          · rintro rfl
            exact .inr ⟨by omega, rfl⟩
          · rintro (⟨opcode, rfl, -, -⟩ | ⟨-, rfl⟩)
            · exact absurd (Nat.le_of_lt_succ opcode.toNat_lt) long
            · rfl

/-! ## Invocation forms -/

theorem Invocation.ofWord?_eq_some_iff {word : List Char} {invocation : Invocation} :
    ofWord? word = some invocation ↔ word = invocation.word.toList := by
  constructor
  · intro read
    unfold ofWord? at read
    split at read
    · rename_i same
      cases read
      exact same
    · split at read
      · rename_i same
        cases read
        exact same
      · cases read
  · rintro rfl
    exact ofWord?_word invocation

theorem readInvocation_eq_ok_iff {word : List Char} {invocation : Invocation} :
    readInvocation word = .ok invocation ↔ word = invocation.word.toList := by
  rw [← Invocation.ofWord?_eq_some_iff, readInvocation]
  cases Invocation.ofWord? word <;> simp

/-- A word is refused with itself. -/
theorem readInvocation_eq_error_iff {word : List Char} {fault : Malformed} :
    readInvocation word = .error fault ↔
      (∀ invocation : Invocation, word ≠ invocation.word.toList) ∧
        fault = .invocation (String.ofList word) := by
  simp only [ne_eq, ← Invocation.ofWord?_eq_some_iff, readInvocation]
  cases Invocation.ofWord? word <;> simp [eq_comm]

/-! ## Counts -/

namespace OperandCount

/-- The count that an integer stands for. -/
theorem ofInt?_eq_some_iff {value : Int} {count : OperandCount} :
    ofInt? value = some count ↔
      -1 ≤ value ∧ value ≤ 2 ^ 63 - 1 ∧
        count = if value = -1 then .variadic else .fixed value.toNat := by
  unfold ofInt?
  split
  · rename_i minusOne
    simp [minusOne, eq_comm]
  · rename_i other
    split
    · rename_i bounds
      simp only [Option.some.injEq, eq_comm]
      constructor
      · intro same
        exact ⟨by omega, by omega, same⟩
      · exact fun read => read.2.2
    · rename_i outside
      simp only [reduceCtorEq, false_iff]
      omega

theorem ofChars?_eq_some_iff {text : List Char} {count : OperandCount} :
    ofChars? text = some count ↔
      ∃ value, DenotesSigned 10 text value ∧ -1 ≤ value ∧ value ≤ 2 ^ 63 - 1 ∧
        count = if value = -1 then .variadic else .fixed value.toNat := by
  rw [ofChars?, Option.bind_eq_some_iff]
  simp only [Numeral.readSigned?_eq_some_iff (by decide : 10 ≤ 16),
    ofInt?_eq_some_iff]

end OperandCount

theorem readCount_eq_ok_iff {text : List Char} {count : OperandCount} :
    readCount text = .ok count ↔
      ∃ value, DenotesSigned 10 (Text.strip text) value ∧ -1 ≤ value ∧ value ≤ 2 ^ 63 - 1 ∧
        count = if value = -1 then .variadic else .fixed value.toNat := by
  rw [← OperandCount.ofChars?_eq_some_iff, readCount]
  cases OperandCount.ofChars? (Text.strip text) <;> simp

/-- A count is refused with everything around it. -/
theorem readCount_eq_error_iff {text : List Char} {fault : Malformed} :
    readCount text = .error fault ↔
      (∀ value, DenotesSigned 10 (Text.strip text) value → value < -1 ∨ 2 ^ 63 ≤ value) ∧
        fault = .operandCount (String.ofList text) := by
  have unread : OperandCount.ofChars? (Text.strip text) = none ↔
      ∀ value, DenotesSigned 10 (Text.strip text) value → value < -1 ∨ 2 ^ 63 ≤ value := by
    rw [Option.eq_none_iff_forall_ne_some]
    simp only [ne_eq, OperandCount.ofChars?_eq_some_iff]
    constructor
    · intro none value denoted
      by_contra inside
      exact none _ ⟨value, denoted, by omega, by omega, rfl⟩
    · rintro outside count ⟨value, denoted, low, high, -⟩
      have := outside value denoted
      omega
  rw [← unread, readCount]
  cases OperandCount.ofChars? (Text.strip text) <;> simp [eq_comm]

end ScriptDisassembler
