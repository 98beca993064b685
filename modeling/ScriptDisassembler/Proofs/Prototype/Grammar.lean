import ScriptDisassembler.Proofs.Prototype.Line

/-!
# The grammar of prototype lines

`Prototype.DeclaredBy` says which lines declare a prototype, in terms of the characters of the line
and of what its numerals denote, and `Prototype.RefusedFor` says what is wrong with any other line:
the first fault in the order in which the parts are read.  `Prototype.ofLine_iff` says that lines
are read just so, and that what was read is written in a line that is read as the same.
-/

namespace ScriptDisassembler

open Numeral (DenotesUnsigned DenotesSigned)

namespace Prototype

/-- Whether a line declares a prototype.  In front of the parentheses stands the opcode, in them the
word for the invocation form and the count, and behind them the name, unless there are only blanks;
an integer stands for itself as a count, but minus one for an open end. -/
def DeclaredBy (prototype : Prototype) (line : List Char) : Prop :=
  ∃ before inside behind number value,
    Parted line before inside behind ∧
      DenotesUnsigned 16 (Text.strip before) prototype.opcode.toNat ∧
      prototype.opcode.toNat ≤ 0x7fff ∧
      Text.HasWords inside [prototype.invocation.word.toList, number] ∧
      DenotesSigned 10 number value ∧ -1 ≤ value ∧ value ≤ 2 ^ 63 - 1 ∧
      prototype.count = (if value = -1 then .variadic else .fixed value.toNat) ∧
      prototype.name = if Text.AllBlank behind then none
        else some (String.ofList (Text.strip behind))

/-- The fault of a line that declares no prototype: the first one, when the parentheses are looked
for and then the parts are read from left to right. -/
inductive RefusedFor (line : List Char) : Malformed → Prop
  | unopened (missing : '(' ∉ Text.strip line) :
      RefusedFor line (.unopened (String.ofList (Text.strip line)))
  | unclosed {before rest : List Char} (split : Text.strip line = before ++ '(' :: rest)
      (opening : '(' ∉ before) (missing : ')' ∉ rest) :
      RefusedFor line (.unclosed (String.ofList (Text.strip line)))
  | wideOpcode {before inside behind : List Char} {opcode : UInt16}
      (parted : Parted line before inside behind)
      (denoted : DenotesUnsigned 16 (Text.strip before) opcode.toNat)
      (wide : 0x7fff < opcode.toNat) : RefusedFor line (.wideOpcode opcode)
  | opcode {before inside behind : List Char} (parted : Parted line before inside behind)
      (none : ∀ value, DenotesUnsigned 16 (Text.strip before) value → 0xffff < value) :
      RefusedFor line (.opcode (String.ofList (Text.strip before)))
  | signature {before inside behind : List Char} {opcode : UInt16}
      (parted : Parted line before inside behind)
      (denoted : DenotesUnsigned 16 (Text.strip before) opcode.toNat)
      (small : opcode.toNat ≤ 0x7fff)
      (notTwo : ∀ word number, ¬ Text.HasWords inside [word, number]) :
      RefusedFor line (.signature (String.ofList (Text.strip line)))
  | invocation {before inside behind word number : List Char} {opcode : UInt16}
      (parted : Parted line before inside behind)
      (denoted : DenotesUnsigned 16 (Text.strip before) opcode.toNat)
      (small : opcode.toNat ≤ 0x7fff)
      (fields : Text.HasWords inside [word, number])
      (none : ∀ invocation : Invocation, word ≠ invocation.word.toList) :
      RefusedFor line (.invocation (String.ofList word))
  | count {before inside behind number : List Char} {opcode : UInt16} {invocation : Invocation}
      (parted : Parted line before inside behind)
      (denoted : DenotesUnsigned 16 (Text.strip before) opcode.toNat)
      (small : opcode.toNat ≤ 0x7fff)
      (fields : Text.HasWords inside [invocation.word.toList, number])
      (none : ∀ value, DenotesSigned 10 number value → value < -1 ∨ 2 ^ 63 ≤ value) :
      RefusedFor line (.operandCount (String.ofList number))

variable {line : List Char} {prototype : Prototype} {fault : Malformed}

/-- A word has nothing to strip. -/
theorem strip_of_hasWords {inside word number : List Char}
    (fields : Text.HasWords inside [word, number]) : Text.strip number = number :=
  Text.strip_of_solid (fields.solid number (by simp))

/-- A line yields a prototype exactly if it declares it. -/
theorem ofLine_eq_ok_iff_declaredBy : ofLine line = .ok prototype ↔ prototype.DeclaredBy line := by
  rw [ofLine_eq_ok_iff]
  constructor
  · rintro ⟨before, inside, behind, word, number, parted, fields, read_opcode, read_invocation,
      read_count, name_eq⟩
    have hasWords := Text.words_eq_iff.mp fields
    obtain ⟨denoted, small⟩ := readOpcode_eq_ok_iff.mp read_opcode
    obtain ⟨value, integer, low, high, count_eq⟩ := readCount_eq_ok_iff.mp read_count
    rw [strip_of_hasWords hasWords] at integer
    rw [readInvocation_eq_ok_iff.mp read_invocation] at hasWords
    refine ⟨before, inside, behind, number, value, parted, denoted, small, hasWords, integer, low,
      high, count_eq, ?_⟩
    simpa [← Text.strip_eq_nil_iff] using name_eq
  · rintro ⟨before, inside, behind, number, value, parted, denoted, small, hasWords, integer, low,
      high, count_eq, name_eq⟩
    have fields := Text.words_eq_iff.mpr hasWords
    refine ⟨before, inside, behind, _, number, parted, fields,
      readOpcode_eq_ok_iff.mpr ⟨denoted, small⟩, readInvocation_eq_ok_iff.mpr rfl,
      readCount_eq_ok_iff.mpr ⟨value, ?_, low, high, count_eq⟩, ?_⟩
    · rwa [strip_of_hasWords hasWords]
    · simpa [← Text.strip_eq_nil_iff] using name_eq

theorem refusedFor_of_ofLine (failure : ofLine line = .error fault) : RefusedFor line fault := by
  rcases exists_parted_or line with missing | ⟨before, rest, split, opening, missing⟩ |
    ⟨before, inside, behind, parted⟩
  · rw [ofLine_of_unopened missing] at failure
    cases failure
    exact .unopened missing
  · rw [ofLine_of_unclosed split opening missing] at failure
    cases failure
    exact .unclosed split opening missing
  · rw [ofLine_of_parted parted, except_bind_eq_error_iff] at failure
    rcases failure with noOpcode | ⟨opcode, read, failure⟩
    · rcases readOpcode_eq_error_iff.mp noOpcode with ⟨opcode, denoted, wide, rfl⟩ | ⟨none, rfl⟩
      · exact .wideOpcode parted denoted wide
      · exact .opcode parted none
    · obtain ⟨denoted, small⟩ := readOpcode_eq_ok_iff.mp read
      split at failure
      · rename_i word number fields
        have hasWords := Text.words_eq_iff.mp fields
        rcases except_bind_eq_error_iff.mp failure with noInvocation | ⟨invocation, known, failure⟩
        · obtain ⟨none, rfl⟩ := readInvocation_eq_error_iff.mp noInvocation
          exact .invocation parted denoted small hasWords none
        · rcases except_bind_eq_error_iff.mp failure with noCount | ⟨count, -, failure⟩
          · obtain ⟨none, rfl⟩ := readCount_eq_error_iff.mp noCount
            rw [strip_of_hasWords hasWords] at none
            rw [readInvocation_eq_ok_iff.mp known] at hasWords
            exact .count parted denoted small hasWords none
          · cases failure
      · rename_i notTwo
        cases failure
        apply RefusedFor.signature parted denoted small
        exact fun word number hasWords => notTwo word number (Text.words_eq_iff.mpr hasWords)

theorem RefusedFor.ofLine_eq (refused : RefusedFor line fault) : ofLine line = .error fault := by
  cases refused with
  | unopened missing => exact ofLine_of_unopened missing
  | unclosed split opening missing => exact ofLine_of_unclosed split opening missing
  | wideOpcode parted denoted wide =>
      rw [ofLine_of_parted parted, except_bind_eq_error_iff]
      exact .inl (readOpcode_eq_error_iff.mpr (.inl ⟨_, denoted, wide, rfl⟩))
  | opcode parted none =>
      rw [ofLine_of_parted parted, except_bind_eq_error_iff]
      exact .inl (readOpcode_eq_error_iff.mpr (.inr ⟨none, rfl⟩))
  | signature parted denoted small notTwo =>
      rw [ofLine_of_parted parted, except_bind_eq_error_iff]
      refine .inr ⟨_, readOpcode_eq_ok_iff.mpr ⟨denoted, small⟩, ?_⟩
      split
      · rename_i word number fields
        exact absurd (Text.words_eq_iff.mp fields) (notTwo word number)
      · rfl
  | invocation parted denoted small fields none =>
      rw [ofLine_of_parted parted, except_bind_eq_error_iff, Text.words_eq_iff.mpr fields]
      refine .inr ⟨_, readOpcode_eq_ok_iff.mpr ⟨denoted, small⟩, ?_⟩
      apply except_bind_eq_error_iff.mpr
      exact .inl (readInvocation_eq_error_iff.mpr ⟨none, rfl⟩)
  | count parted denoted small fields none =>
      rw [ofLine_of_parted parted, except_bind_eq_error_iff, Text.words_eq_iff.mpr fields]
      refine .inr ⟨_, readOpcode_eq_ok_iff.mpr ⟨denoted, small⟩, ?_⟩
      apply except_bind_eq_error_iff.mpr
      refine .inr ⟨_, readInvocation_eq_ok_iff.mpr rfl, ?_⟩
      apply except_bind_eq_error_iff.mpr
      refine .inl (readCount_eq_error_iff.mpr ⟨?_, rfl⟩)
      rwa [strip_of_hasWords fields]

/-- A line is refused exactly for its first fault. -/
theorem ofLine_eq_error_iff : ofLine line = .error fault ↔ RefusedFor line fault :=
  ⟨refusedFor_of_ofLine, RefusedFor.ofLine_eq⟩

/-! ## Main result -/

/-- A line is read as the prototype that it declares.  Any other line is refused as malformed, for
its first fault.  What a line declares is written in a line that is read as the same. -/
theorem ofLine_iff (line : List Char) :
    (∀ prototype : Prototype, ofLine line = .ok prototype ↔ prototype.DeclaredBy line) ∧
      ((∃ fault, ofLine line = .error fault) ↔
        ¬ ∃ prototype : Prototype, prototype.DeclaredBy line) ∧
      (∀ fault, ofLine line = .error fault ↔ RefusedFor line fault) ∧
      ∀ prototype : Prototype, prototype.DeclaredBy line →
        ofLine prototype.line.toList = .ok prototype := by
  refine ⟨fun _ => ofLine_eq_ok_iff_declaredBy, ?_, fun _ => ofLine_eq_error_iff, ?_⟩
  · simp only [← ofLine_eq_ok_iff_declaredBy]
    cases ofLine line <;> simp
  · intro prototype declared
    apply ofLine_line
    exact legible_of_ofLine (ofLine_eq_ok_iff_declaredBy.mpr declared)

end Prototype

end ScriptDisassembler
