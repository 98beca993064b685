import ScriptDisassembler.Proofs.Text.Pieces
import ScriptDisassembler.Text.Numeral

/-!
# Digits

A written number holds nothing but digits from one alphabet (`mem_alphabet_of_mem_toDigits`), so no
blank, sign or mark hides in it, and it reads back through the readers that accept signs and
leading zeros.
-/

namespace ScriptDisassembler.Numeral

open Text

/-- The digits that are written. -/
def alphabet : List Char :=
  "0123456789abcdef".toList

/-- Digits divide no line. -/
theorem isPlain_of_mem_alphabet : ∀ digit ∈ alphabet, IsPlain digit :=
  isPlain_of_all (by decide)

theorem sign_notMem_alphabet : '+' ∉ alphabet ∧ '-' ∉ alphabet := by
  decide

theorem digitChar_mem_alphabet {value : Nat} (small : value < 16) : value.digitChar ∈ alphabet := by
  have digits : ∀ index : Fin 16, index.val.digitChar ∈ alphabet := by decide
  exact digits ⟨value, small⟩

theorem mem_alphabet_of_mem_toDigits {base value : Nat} (base_gt : 1 < base) (base_le : base ≤ 16)
    {digit : Char} (member : digit ∈ Nat.toDigits base value) : digit ∈ alphabet := by
  induction value using Nat.strongRecOn with
  | ind value ih =>
      by_cases small : value < base
      · rw [Nat.toDigits_of_lt_base small, List.mem_singleton] at member
        rw [member]
        exact digitChar_mem_alphabet (by omega)
      · have split : Nat.toDigits base value =
            Nat.toDigits base (value / base) ++ [(value % base).digitChar] :=
          Nat.toDigits_of_base_le base_gt (by omega)
        rw [split, List.mem_append, List.mem_singleton] at member
        rcases member with earlier | rfl
        · exact ih (value / base) (Nat.div_lt_self (by omega) base_gt) earlier
        · have last : value % base < base := Nat.mod_lt value (by omega)
          exact digitChar_mem_alphabet (by omega)

theorem mem_alphabet_of_mem_padded {base value width : Nat} (base_gt : 1 < base)
    (base_le : base ≤ 16) {digit : Char} (member : digit ∈ padded width (Nat.toDigits base value)) :
    digit ∈ alphabet := by
  rcases List.mem_append.mp member with zero | written
  · rw [List.eq_of_mem_replicate zero]
    decide
  · exact mem_alphabet_of_mem_toDigits base_gt base_le written

theorem padded_ne_nil {base value width : Nat} : padded width (Nat.toDigits base value) ≠ [] := by
  intro empty
  exact Nat.toDigits_ne_nil (List.append_eq_nil_iff.mp empty).2

/-- Leading zeros do not change the number. -/
theorem readDigits?_padded {base value width : Nat} (base_gt : 1 < base) (base_le : base ≤ 16) :
    readDigits? base (padded width (Nat.toDigits base value)) = some value := by
  have zeros : ∀ count : Nat, (List.replicate count '0').foldlM
      (fun value digit => (digitValue? base digit).map (value * base + ·)) 0 = some 0 := by
    intro count
    have base_pos : 0 < base := by omega
    have zero : digitValue? base (Nat.digitChar 0) = some 0 :=
      digitValue?_digitChar base_pos base_le
    change digitValue? base '0' = some 0 at zero
    induction count with
    | zero => rfl
    | succ count ih => simp [List.replicate_succ, zero, ih]
  have nonempty : (padded width (Nat.toDigits base value)).isEmpty = false := by
    simp [padded_ne_nil]
  rw [readDigits?, nonempty, if_neg Bool.false_ne_true, padded, List.foldlM_append, zeros]
  exact foldlM_toDigits base_gt base_le value

/-- Digits need no sign to be read. -/
theorem readUnsigned?_of_alphabet {base : Nat} {digits : List Char}
    (written : ∀ digit ∈ digits, digit ∈ alphabet) :
    readUnsigned? base digits = readDigits? base digits := by
  unfold readUnsigned?
  split
  · exact absurd (written '+' List.mem_cons_self) sign_notMem_alphabet.1
  · rfl

theorem readSigned?_of_alphabet {base : Nat} {digits : List Char}
    (written : ∀ digit ∈ digits, digit ∈ alphabet) :
    readSigned? base digits = (readDigits? base digits).map Int.ofNat := by
  unfold readSigned?
  split
  · exact absurd (written '-' List.mem_cons_self) sign_notMem_alphabet.2
  · rw [readUnsigned?_of_alphabet written]

end ScriptDisassembler.Numeral
