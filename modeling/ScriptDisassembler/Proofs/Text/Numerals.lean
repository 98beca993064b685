import Mathlib.Data.List.Forall2
import Mathlib.Data.Nat.Digits.Defs
import ScriptDisassembler.Proofs.Text.Digits

/-!
# What numerals denote

`IsDigit` and `Denotes` say which characters are digits and which number a row of them stands for,
without saying how either is read.  The readers find exactly that number
(`readDigits?_eq_some_iff`), also behind a sign (`readUnsigned?_eq_some_iff`,
`readSigned?_eq_some_iff`).
-/

namespace ScriptDisassembler.Numeral

/-- Whether a character is the digit for a value: the digits are those that are written, and the
letters among them also in the upper case. -/
def IsDigit (base : Nat) (digit : Char) (value : Nat) : Prop :=
  value < base ∧
    (alphabet[value]? = some digit ∨ (alphabet.map Char.toUpper)[value]? = some digit)

instance (base : Nat) (digit : Char) (value : Nat) : Decidable (IsDigit base digit value) :=
  inferInstanceAs (Decidable (_ ∧ _))

/-- Whether characters are one or more digits, the most significant first, of a number. -/
def Denotes (base : Nat) (digits : List Char) (value : Nat) : Prop :=
  digits ≠ [] ∧
    ∃ values, List.Forall₂ (IsDigit base) digits values ∧ value = Nat.ofDigits base values.reverse

/-- Whether characters are the digits of a number behind an optional plus sign. -/
def DenotesUnsigned (base : Nat) (chars : List Char) (value : Nat) : Prop :=
  Denotes base chars value ∨ ∃ digits, chars = '+' :: digits ∧ Denotes base digits value

/-- Whether characters are the digits of an integer behind an optional sign. -/
def DenotesSigned (base : Nat) (chars : List Char) (value : Int) : Prop :=
  (∃ size : Nat, DenotesUnsigned base chars size ∧ value = size) ∨
    ∃ (digits : List Char) (size : Nat),
      chars = '-' :: digits ∧ Denotes base digits size ∧ value = -size

/-! ## Single digits -/

/-- Characters in a row are digits if their code points, counted from the first, are. -/
theorem isDigit_of_bounds {base low count start : Nat} {digit : Char}
    (each : ∀ index : Fin count, IsDigit base (Char.ofNat (low + index)) (index + start))
    (from_low : low ≤ digit.toNat) (below : digit.toNat < low + count) :
    IsDigit base digit (digit.toNat - low + start) := by
  have found := each ⟨digit.toNat - low, by omega⟩
  rwa [Nat.add_sub_cancel' from_low, Char.ofNat_toNat] at found

theorem hexDigitValue?_eq_some_iff {digit : Char} {value : Nat} :
    hexDigitValue? digit = some value ↔ IsDigit 16 digit value := by
  constructor
  · intro read
    unfold hexDigitValue? at read
    split at read
    · rename_i bounds
      cases read
      exact @isDigit_of_bounds 16 48 10 0 digit (by decide) bounds.1 (Nat.lt_succ_of_le bounds.2)
    · split at read
      · rename_i bounds
        cases read
        exact @isDigit_of_bounds 16 97 6 10 digit (by decide) bounds.1 (Nat.lt_succ_of_le bounds.2)
      · split at read
        · rename_i bounds
          cases read
          exact @isDigit_of_bounds 16 65 6 10 digit (by decide) bounds.1
            (Nat.lt_succ_of_le bounds.2)
        · cases read
  · rintro ⟨small, stored⟩
    have each : ∀ index : Fin 16,
        alphabet[index.val]?.bind hexDigitValue? = some index.val ∧
          (alphabet.map Char.toUpper)[index.val]?.bind hexDigitValue? = some index.val := by
      decide
    have read := each ⟨value, small⟩
    rcases stored with lower | upper
    · simpa [lower] using read.1
    · simpa [upper] using read.2

theorem digitValue?_eq_some_iff {base : Nat} (base_le : base ≤ 16) {digit : Char} {value : Nat} :
    digitValue? base digit = some value ↔ IsDigit base digit value := by
  rw [digitValue?, Option.filter_eq_some_iff, hexDigitValue?_eq_some_iff]
  simp only [IsDigit, decide_eq_true_eq]
  constructor
  · rintro ⟨⟨-, stored⟩, small⟩
    exact ⟨small, stored⟩
  · rintro ⟨small, stored⟩
    exact ⟨⟨by omega, stored⟩, small⟩

theorem IsDigit.mem_alphabet {base value : Nat} {digit : Char}
    (isDigit : IsDigit base digit value) : digit ∈ alphabet ++ alphabet.map Char.toUpper := by
  rw [List.mem_append]
  exact isDigit.2.imp List.mem_of_getElem? List.mem_of_getElem?

/-- A sign is no digit. -/
theorem not_isDigit_sign {base value : Nat} {sign : Char} (isSign : sign ∈ ['+', '-']) :
    ¬ IsDigit base sign value := by
  intro isDigit
  have none : ['+', '-'].all (· ∉ alphabet ++ alphabet.map Char.toUpper) = true := by decide
  exact of_decide_eq_true (List.all_eq_true.mp none sign isSign) isDigit.mem_alphabet

/-- A digit takes one byte. -/
theorem IsDigit.utf8Size_eq {base value : Nat} {digit : Char} (isDigit : IsDigit base digit value) :
    digit.utf8Size = 1 := by
  have each : (alphabet ++ alphabet.map Char.toUpper).all (·.utf8Size = 1) = true := by decide
  exact of_decide_eq_true (List.all_eq_true.mp each digit isDigit.mem_alphabet)

/-- A digit divides no line. -/
theorem IsDigit.isPlain {base value : Nat} {digit : Char} (isDigit : IsDigit base digit value) :
    Text.IsPlain digit := by
  have each : ∀ digit ∈ alphabet ++ alphabet.map Char.toUpper, Text.IsPlain digit :=
    Text.isPlain_of_all (by decide)
  exact each digit isDigit.mem_alphabet

/-! ## Digits in a row -/

/-- Digits are read one after the other onto the number that those before them denote. -/
theorem foldlM_eq_some_iff {base : Nat} (base_le : base ≤ 16) {digits : List Char}
    {before value : Nat} :
    digits.foldlM (fun value digit => (digitValue? base digit).map (value * base + ·)) before =
        some value ↔
      ∃ values, List.Forall₂ (IsDigit base) digits values ∧
        value = values.foldl (fun value digit => value * base + digit) before := by
  induction digits generalizing before with
  | nil => simp [List.forall₂_nil_left_iff, eq_comm]
  | cons digit digits ih =>
      simp only [List.foldlM_cons, Option.bind_eq_bind, Option.bind_eq_some_iff,
        Option.map_eq_some_iff, digitValue?_eq_some_iff base_le, ih,
        List.forall₂_cons_left_iff]
      constructor
      · rintro ⟨_, ⟨first, isFirst, rfl⟩, values, others, rfl⟩
        exact ⟨first :: values, ⟨first, values, isFirst, others, rfl⟩, rfl⟩
      · rintro ⟨_, ⟨first, values, isFirst, others, rfl⟩, rfl⟩
        exact ⟨_, ⟨first, isFirst, rfl⟩, values, others, rfl⟩

/-- The number of digits, the most significant first. -/
theorem ofDigits_reverse (base : Nat) (values : List Nat) :
    Nat.ofDigits base values.reverse =
      values.foldl (fun value digit => value * base + digit) 0 := by
  rw [Nat.ofDigits_eq_foldr, List.foldr_reverse]
  congr 1
  funext value digit
  simp [Nat.mul_comm, Nat.add_comm]

/-- Digits are read as the number that they denote, and nothing else is. -/
theorem readDigits?_eq_some_iff {base : Nat} (base_le : base ≤ 16) {digits : List Char}
    {value : Nat} : readDigits? base digits = some value ↔ Denotes base digits value := by
  unfold readDigits? Denotes
  cases digits with
  | nil => simp
  | cons digit digits =>
      simp only [ofDigits_reverse, ne_eq, reduceCtorEq, not_false_eq_true, true_and]
      exact foldlM_eq_some_iff base_le

theorem not_denotes_sign {base value : Nat} {sign : Char} (isSign : sign ∈ ['+', '-'])
    (digits : List Char) : ¬ Denotes base (sign :: digits) value := by
  rintro ⟨-, _, each, -⟩
  obtain ⟨_, _, isDigit, -, -⟩ := List.forall₂_cons_left_iff.mp each
  exact not_isDigit_sign isSign isDigit

theorem Denotes.exists_isDigit {base value : Nat} {digits : List Char}
    (denoted : Denotes base digits value) {digit : Char} (member : digit ∈ digits) :
    ∃ single, IsDigit base digit single := by
  obtain ⟨-, values, each, -⟩ := denoted
  obtain ⟨index, inside, rfl⟩ := List.mem_iff_getElem.mp member
  exact ⟨_, each.get inside (each.length_eq ▸ inside)⟩

/-- Digits divide no line. -/
theorem Denotes.isPlain {base value : Nat} {digits : List Char}
    (denoted : Denotes base digits value) : ∀ digit ∈ digits, Text.IsPlain digit := by
  intro digit member
  obtain ⟨_, isDigit⟩ := denoted.exists_isDigit member
  exact isDigit.isPlain

/-- Digits take as many bytes as they are. -/
theorem Denotes.utf8Size_eq {base value : Nat} {digits : List Char}
    (denoted : Denotes base digits value) : Text.utf8Size digits = digits.length := by
  obtain ⟨-, values, each, -⟩ := denoted
  induction each with
  | nil => rfl
  | cons isDigit _ ih =>
      rw [List.length_cons, ← ih, Nat.add_comm, ← isDigit.utf8Size_eq]
      rfl

/-- Digits denote one number. -/
theorem Denotes.eq {base first second : Nat} (base_le : base ≤ 16) {digits : List Char}
    (one : Denotes base digits first) (other : Denotes base digits second) : first = second := by
  have same := (readDigits?_eq_some_iff base_le).mpr one
  rwa [(readDigits?_eq_some_iff base_le).mpr other, Option.some.injEq, eq_comm] at same

/-- Digits that are divided denote the number of the front, moved up by the places of the back, and
the number of the back. -/
theorem denotes_append_iff {base value : Nat} {front back : List Char} (frontNonempty : front ≠ [])
    (backNonempty : back ≠ []) :
    Denotes base (front ++ back) value ↔
      ∃ high low, Denotes base front high ∧ Denotes base back low ∧
        value = high * base ^ back.length + low := by
  have ofDigits_split : ∀ highs lows : List Nat,
      Nat.ofDigits base (highs ++ lows).reverse =
        Nat.ofDigits base highs.reverse * base ^ lows.length + Nat.ofDigits base lows.reverse := by
    intro highs lows
    rw [List.reverse_append, Nat.ofDigits_append, List.length_reverse, Nat.add_comm, Nat.mul_comm]
  constructor
  · rintro ⟨-, values, each, rfl⟩
    have split := List.take_append_drop front.length values
    have fronts := (List.forall₂_take_append _ _ _ each.flip).flip
    have backs := (List.forall₂_drop_append _ _ _ each.flip).flip
    refine ⟨_, _, ⟨frontNonempty, _, fronts, rfl⟩, ⟨backNonempty, _, backs, rfl⟩, ?_⟩
    rw [backs.length_eq, ← ofDigits_split, split]
  · rintro ⟨high, low, ⟨-, highs, fronts, rfl⟩, ⟨-, lows, backs, rfl⟩, rfl⟩
    refine ⟨fun empty => frontNonempty (List.append_eq_nil_iff.mp empty).1, highs ++ lows,
      List.rel_append fronts backs, ?_⟩
    rw [backs.length_eq, ofDigits_split]

/-! ## Signs -/

theorem readUnsigned?_eq_some_iff {base : Nat} (base_le : base ≤ 16) {chars : List Char}
    {value : Nat} : readUnsigned? base chars = some value ↔ DenotesUnsigned base chars value := by
  unfold readUnsigned? DenotesUnsigned
  split
  · rename_i digits
    have signed := @not_denotes_sign base value '+' (by decide) digits
    simp [readDigits?_eq_some_iff base_le, signed]
  · rename_i unsigned
    rw [readDigits?_eq_some_iff base_le]
    constructor
    · exact .inl
    · rintro (denoted | ⟨digits, rfl, -⟩)
      · exact denoted
      · exact absurd rfl (unsigned digits)

theorem not_denotesUnsigned_minus {base value : Nat} (digits : List Char) :
    ¬ DenotesUnsigned base ('-' :: digits) value := by
  rintro (denoted | ⟨_, differs, -⟩)
  · exact not_denotes_sign (by decide) digits denoted
  · cases differs

theorem readSigned?_eq_some_iff {base : Nat} (base_le : base ≤ 16) {chars : List Char}
    {value : Int} : readSigned? base chars = some value ↔ DenotesSigned base chars value := by
  unfold readSigned? DenotesSigned
  split
  · rename_i digits
    have negative := fun size => @not_denotesUnsigned_minus base size digits
    simp [readDigits?_eq_some_iff base_le, negative, eq_comm]
  · rename_i positive
    rw [Option.map_eq_some_iff]
    simp only [readUnsigned?_eq_some_iff base_le]
    constructor
    · rintro ⟨size, denoted, rfl⟩
      exact .inl ⟨size, denoted, rfl⟩
    · rintro (⟨size, denoted, rfl⟩ | ⟨digits, _, rfl, -⟩)
      · exact ⟨size, denoted, rfl⟩
      · exact absurd rfl (positive digits)

end ScriptDisassembler.Numeral
