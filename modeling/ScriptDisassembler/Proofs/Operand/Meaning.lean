import ScriptDisassembler.Proofs.Operand.Stored

/-!
# What the bytes of a payload mean

`Payload.Means` relates bytes and payloads without saying how one is computed from the other: an
integer lies in the range of two's complement and leaves the same remainder as the stored number,
and the fields of an element access are the parts of six bytes.  Bytes of the size that their tag
asks for mean exactly what is read from them (`Payload.ofBytes_eq_ok_iff_means`).
-/

namespace ScriptDisassembler

namespace Payload

/-- Whether the bytes behind a tag of a kind mean a payload. -/
def Means (kind : Kind) (stored : List UInt8) : Payload → Prop
  | .empty => kind = .terminator ∧ stored = []
  | .integer value =>
      kind.isNumeric = true ∧ stored.length ∈ [1, 2, 4] ∧
        LittleEndian.InRange stored.length value ∧
        value % (256 ^ stored.length : Nat) = LittleEndian.value stored
  | .float bits => kind = .float ∧ stored.length = 4 ∧ bits.toNat = LittleEndian.value stored
  | .text value => kind = .string ∧ value = Text.ofBytesLossy (upToZero stored)
  | .element access =>
      kind.isArrayElement = true ∧ ∃ element base₀ base₁ index₀ index₁ info,
        stored = [element, base₀, base₁, index₀, index₁, info] ∧
        access.element = ElementType.ofCode element ∧
        access.base.toNat = LittleEndian.value [base₀, base₁] ∧
        access.index.toNat = LittleEndian.value [index₀, index₁] ∧ access.info = info

end Payload

/-! ## Single payloads -/

namespace LittleEndian

/-- The integer that bytes store is in range and has their number as its remainder. -/
theorem inRange_signedValue {stored : List UInt8} (nonempty : stored ≠ []) :
    InRange stored.length (signedValue stored) ∧
      signedValue stored % (256 ^ stored.length : Nat) = value stored := by
  have positive : 0 < 256 ^ stored.length := Nat.pow_pos (by decide)
  have even : 256 ^ stored.length % 2 = 0 := by
    obtain ⟨byte, rest, rfl⟩ := List.exists_cons_of_ne_nil nonempty
    rw [List.length_cons, Nat.pow_succ]
    omega
  have small := value_lt stored
  constructor
  · have low := @Int.le_bmod (value stored) _ positive
    have high := @Int.bmod_lt (value stored) _ positive
    rw [InRange, signedValue, toSigned]
    omega
  · rw [signedValue, toSigned, Int.bmod_emod, Int.emod_eq_of_lt (by omega) (by omega)]

/-- Only one integer in range has a given remainder. -/
theorem eq_of_inRange {width : Nat} {first second : Int} (firstFits : InRange width first)
    (secondFits : InRange width second)
    (same : first % (256 ^ width : Nat) = second % (256 ^ width : Nat)) : first = second := by
  rw [← toSigned_ofSigned firstFits, ← toSigned_ofSigned secondFits, ofSigned, ofSigned, same]

/-- The two bytes of a word. -/
theorem bytes_two (word : UInt16) :
    ∃ low high, bytes 2 word.toNat = [low, high] ∧ word.toNat = value [low, high] := by
  refine ⟨_, _, rfl, ?_⟩
  have small : word.toNat < 256 ^ 2 := word.toNat_lt
  have whole := value_bytes 2 word.toNat
  rw [Nat.mod_eq_of_lt small] at whole
  exact whole.symm

end LittleEndian

/-- The bytes of an element access are its fields in order. -/
theorem ArrayAccess.exists_bytes_eq_list (access : ArrayAccess) :
    ∃ base₀ base₁ index₀ index₁,
      access.bytes = [access.element.code, base₀, base₁, index₀, index₁, access.info] ∧
      access.base.toNat = LittleEndian.value [base₀, base₁] ∧
      access.index.toNat = LittleEndian.value [index₀, index₁] := by
  obtain ⟨base₀, base₁, base_eq, base⟩ := LittleEndian.bytes_two access.base
  obtain ⟨index₀, index₁, index_eq, index⟩ := LittleEndian.bytes_two access.index
  refine ⟨base₀, base₁, index₀, index₁, ?_, base, index⟩
  rw [bytes, base_eq, index_eq]
  rfl

namespace Payload

variable {tag : Tag} {kind : Kind} {stored : List UInt8} {payload : Payload}

/-! ## What is read is meant -/

theorem means_of_ofBytes (admitted : tag.Admits stored)
    (success : ofBytes tag.kind stored = .ok payload) : payload.Means tag.kind stored := by
  by_cases numeric : tag.kind.isNumeric = true
  · have length_eq :=
      (Tag.admits_iff_of_kind_ne_string (Kind.ne_string_of_isNumeric numeric)).mp admitted
    have widths := Tag.fieldSize_of_isNumeric numeric
    rw [← length_eq] at widths
    have nonempty : stored ≠ [] := by
      rintro rfl
      simp at widths
    obtain ⟨inRange, remainder⟩ := LittleEndian.inRange_signedValue nonempty
    rw [ofBytes_of_isNumeric numeric length_eq] at success
    cases success
    exact ⟨numeric, by simpa using widths, inRange, remainder⟩
  by_cases isElement : tag.kind.isArrayElement = true
  · have complete :=
      (Tag.admits_iff_of_kind_ne_string (Kind.ne_string_of_isArrayElement isElement)).mp admitted
    rw [Tag.fieldSize_of_isArrayElement isElement] at complete
    rw [ofBytes_of_isArrayElement isElement] at success
    cases described : ArrayAccess.ofBytes stored with
    | error error =>
        rw [described] at success
        cases success
    | ok access =>
        rw [described] at success
        cases success
        obtain ⟨stated, stored_eq⟩ := (ArrayAccess.ofBytes_eq_ok_iff complete).mp described
        obtain ⟨base₀, base₁, index₀, index₁, bytes_eq, base, index⟩ :=
          access.exists_bytes_eq_list
        exact ⟨isElement, _, base₀, base₁, index₀, index₁, _, stored_eq.trans bytes_eq,
          stated.symm, base, index, rfl⟩
  cases kind_eq : tag.kind with
  | terminator =>
      rw [kind_eq] at success
      cases success
      have length_eq := (Tag.admits_iff_of_kind_ne_string (by simp [kind_eq])).mp admitted
      rw [Tag.fieldSize_of_terminator kind_eq] at length_eq
      exact ⟨rfl, List.length_eq_zero_iff.mp length_eq⟩
  | float =>
      have length_eq := (Tag.admits_iff_of_kind_ne_string (by simp [kind_eq])).mp admitted
      rw [Tag.fieldSize_of_float kind_eq] at length_eq
      rw [kind_eq, ofBytes_float length_eq] at success
      cases success
      have small := LittleEndian.value_lt stored
      rw [length_eq] at small
      exact ⟨rfl, length_eq, UInt32.toNat_ofNat_of_lt' small⟩
  | string =>
      rw [kind_eq] at success
      cases success
      exact ⟨rfl, rfl⟩
  | _ => simp_all [Kind.isNumeric, Kind.isVariable, Kind.isGlobal, Kind.isLocal,
      Kind.isArrayElement]

/-! ## Nothing else is meant -/

theorem Means.element_eq {first second : ArrayAccess}
    (firstMeant : (element first).Means kind stored)
    (secondMeant : (element second).Means kind stored) : first = second := by
  obtain ⟨-, _, _, _, _, _, _, rfl, element_eq, base_eq, index_eq, info_eq⟩ := firstMeant
  obtain ⟨-, _, _, _, _, _, _, same, element_eq', base_eq', index_eq', info_eq'⟩ := secondMeant
  cases same
  cases first
  cases second
  simp only [ArrayAccess.mk.injEq]
  exact ⟨element_eq.trans element_eq'.symm, UInt16.toNat_inj.mp (base_eq.trans base_eq'.symm),
    UInt16.toNat_inj.mp (index_eq.trans index_eq'.symm), info_eq.trans info_eq'.symm⟩

/-- Bytes mean at most one payload. -/
theorem Means.eq {first second : Payload} (firstMeant : first.Means kind stored)
    (secondMeant : second.Means kind stored) : first = second := by
  cases first <;> cases second
  case empty.empty => rfl
  case integer.integer first second =>
    have remainders := firstMeant.2.2.2.trans secondMeant.2.2.2.symm
    rw [LittleEndian.eq_of_inRange firstMeant.2.2.1 secondMeant.2.2.1 remainders]
  case float.float first second =>
    rw [UInt32.toNat_inj.mp (firstMeant.2.2.trans secondMeant.2.2.symm)]
  case text.text => rw [firstMeant.2, secondMeant.2]
  case element.element => rw [firstMeant.element_eq secondMeant]
  -- Payloads of different forms belong to different kinds.
  all_goals
    exfalso
    have firstKind := firstMeant.1
    have secondKind := secondMeant.1
    clear firstMeant secondMeant
    revert firstKind secondKind
    cases kind <;> decide

/-! ## Main result -/

/-- Of bytes that a tag admits, the payload is read that they mean. -/
theorem ofBytes_eq_ok_iff_means (admitted : tag.Admits stored) :
    ofBytes tag.kind stored = .ok payload ↔ payload.Means tag.kind stored := by
  constructor
  · exact means_of_ofBytes admitted
  · intro meant
    obtain ⟨read, success⟩ := exists_ofBytes_eq_ok admitted
    rw [success, (means_of_ofBytes admitted success).eq meant]

end Payload

end ScriptDisassembler
