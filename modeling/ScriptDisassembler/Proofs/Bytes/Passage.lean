import ScriptDisassembler.Bytes.Cursor

/-!
# The bytes between two cursors

`Cursor.Passes` says which bytes lie between a cursor and a later one.  The primitive reads are
characterised by it exactly: a read succeeds with a result if and only if the cursor passes the
stored form of that result.
-/

namespace ScriptDisassembler

namespace LittleEndian

/-! ## Two's complement -/

/-- The integers that two's complement stores in `width` bytes. -/
def InRange (width : Nat) (number : Int) : Prop :=
  -(256 ^ width : Nat) ≤ number * 2 ∧ number * 2 < (256 ^ width : Nat)

instance (width : Nat) (number : Int) : Decidable (InRange width number) :=
  inferInstanceAs (Decidable (_ ∧ _))

theorem bytes_value_of_length {stored : List UInt8} {width : Nat}
    (length_eq : stored.length = width) : bytes width (value stored) = stored := by
  subst length_eq
  exact bytes_value stored

theorem modulus_pos (width : Nat) : (0 : Int) < (256 ^ width : Nat) := by
  exact_mod_cast Nat.pow_pos (by decide)

theorem ofSigned_lt (width : Nat) (number : Int) : ofSigned width number < 256 ^ width := by
  have nonneg := Int.emod_nonneg number (Int.ne_of_gt (modulus_pos width))
  have small := Int.emod_lt_of_pos number (modulus_pos width)
  simp only [ofSigned]
  omega

theorem ofSigned_toSigned {width number : Nat} (small : number < 256 ^ width) :
    ofSigned width (toSigned width number) = number := by
  rw [ofSigned, toSigned, Int.bmod_emod, Int.emod_eq_of_lt (by omega) (by exact_mod_cast small)]
  rfl

theorem toSigned_ofSigned {width : Nat} {number : Int} (fits : InRange width number) :
    toSigned width (ofSigned width number) = number := by
  have nonneg := Int.emod_nonneg number (Int.ne_of_gt (modulus_pos width))
  rw [toSigned, ofSigned, Int.toNat_of_nonneg nonneg, Int.emod_bmod]
  exact Int.bmod_eq_of_le_mul_two fits.1 fits.2

/-- An integer that fits is read back from its bytes. -/
theorem signedValue_signedBytes {width : Nat} {number : Int} (fits : InRange width number) :
    signedValue (signedBytes width number) = number := by
  rw [signedValue, signedBytes, length_bytes, value_bytes, Nat.mod_eq_of_lt (ofSigned_lt _ _)]
  exact toSigned_ofSigned fits

/-- The bytes of the integer that was read are those it was read from. -/
theorem signedBytes_signedValue (stored : List UInt8) :
    signedBytes stored.length (signedValue stored) = stored := by
  rw [signedBytes, signedValue, ofSigned_toSigned (value_lt stored), bytes_value]

end LittleEndian

namespace Cursor

/-! ## Passages -/

/-- The bytes `stored` lie between a cursor and `after`. -/
structure Passes (cursor : Cursor) (stored : List UInt8) (after : Cursor) : Prop where
  /-- The bytes are those that come next. -/
  rest_eq : cursor.rest = stored ++ after.rest
  /-- The later cursor stands behind them. -/
  after_eq : after = cursor.advance stored.length

theorem hasMore_eq_false_iff {cursor : Cursor} : cursor.hasMore = false ↔ cursor.rest = [] := by
  rw [← List.length_eq_zero_iff, length_rest, ← Bool.not_eq_true, hasMore_iff]
  omega

theorem rest_advance (cursor : Cursor) (count : Nat) :
    (cursor.advance count).rest = cursor.rest.drop count := by
  simp [rest, advance, Nat.add_comm]

/-- A cursor passes whatever its rest starts with. -/
theorem passes_advance {cursor : Cursor} {stored tail : List UInt8}
    (rest_eq : cursor.rest = stored ++ tail) :
    cursor.Passes stored (cursor.advance stored.length) ∧
      (cursor.advance stored.length).rest = tail := by
  have behind : (cursor.advance stored.length).rest = tail := by
    rw [rest_advance, rest_eq, List.drop_left]
  exact ⟨⟨by rw [behind, rest_eq], rfl⟩, behind⟩

@[simp]
theorem passes_nil_iff {cursor after : Cursor} : cursor.Passes [] after ↔ after = cursor := by
  constructor
  · rintro ⟨-, rfl⟩
    rfl
  · rintro rfl
    exact ⟨rfl, rfl⟩

theorem Passes.trans {cursor middle after : Cursor} {first second : List UInt8}
    (head : cursor.Passes first middle) (tail : middle.Passes second after) :
    cursor.Passes (first ++ second) after := by
  constructor
  · rw [head.rest_eq, tail.rest_eq, List.append_assoc]
  · rw [tail.after_eq, head.after_eq, advance_advance, List.length_append]

/-- A passage can be made in two steps. -/
theorem passes_append_iff {cursor after : Cursor} {first second : List UInt8} :
    cursor.Passes (first ++ second) after ↔
      ∃ middle, cursor.Passes first middle ∧ middle.Passes second after := by
  constructor
  · rintro ⟨rest_eq, rfl⟩
    rw [List.append_assoc] at rest_eq
    rcases passes_advance rest_eq with ⟨head, behind⟩
    refine ⟨_, head, behind, ?_⟩
    rw [advance_advance, List.length_append]
  · rintro ⟨middle, head, tail⟩
    exact head.trans tail

theorem passes_cons_iff {cursor after : Cursor} {byte : UInt8} {stored : List UInt8} :
    cursor.Passes (byte :: stored) after ↔
      ∃ middle, cursor.Passes [byte] middle ∧ middle.Passes stored after :=
  @passes_append_iff cursor after [byte] stored

theorem Passes.position_eq {cursor after : Cursor} {stored : List UInt8}
    (passage : cursor.Passes stored after) :
    after.position = cursor.position + stored.length := by
  rw [passage.after_eq]
  rfl

/-- A cursor passes all bytes of the data from the first one on. -/
theorem passes_start (stored : List UInt8) :
    (start stored.toArray).Passes stored ⟨stored.toArray, stored.toArray.size⟩ := by
  constructor
  · simp [rest, start]
  · simp [advance, start]

end Cursor

namespace Reader

/-! ## What the primitive reads read -/

theorem bytes_eq_ok_iff {count : Nat} {cursor after : Cursor} {stored : List UInt8} :
    bytes count cursor = (.ok stored, after) ↔
      stored.length = count ∧ cursor.Passes stored after := by
  constructor
  · intro success
    by_cases fits : count ≤ cursor.remaining
    · rw [bytes_of_le fits] at success
      cases success
      have length_eq : (cursor.rest.take count).length = count := by
        rw [List.length_take, Cursor.length_rest, Nat.min_eq_left fits]
      refine ⟨length_eq, ?_, by rw [length_eq]⟩
      rw [Cursor.rest_advance, List.take_append_drop]
    · rw [bytes_of_lt (by omega)] at success
      cases success
  · rintro ⟨rfl, rest_eq, rfl⟩
    have fits : stored.length ≤ cursor.remaining := by
      rw [← Cursor.length_rest, rest_eq, List.length_append]
      omega
    rw [bytes_of_le fits, rest_eq, List.take_left]

/-- A number is read exactly where its bytes stand. -/
theorem unsigned_eq_ok_iff {width number : Nat} {cursor after : Cursor} :
    unsigned width cursor = (.ok number, after) ↔
      number < 256 ^ width ∧ cursor.Passes (LittleEndian.bytes width number) after := by
  rw [unsigned_eq_bytes]
  constructor
  · intro success
    rcases outcome : bytes width cursor with ⟨result, behind⟩
    rw [outcome] at success
    cases result with
    | error error => cases success
    | ok stored =>
        cases success
        rcases bytes_eq_ok_iff.mp outcome with ⟨rfl, passage⟩
        exact ⟨LittleEndian.value_lt stored, by rwa [LittleEndian.bytes_value]⟩
  · rintro ⟨small, passage⟩
    rw [bytes_eq_ok_iff.mpr ⟨LittleEndian.length_bytes width number, passage⟩]
    simp [Except.map, LittleEndian.value_bytes, Nat.mod_eq_of_lt small]

/-- A number that takes all bytes is the one that they store. -/
theorem unsigned_start {stored : List UInt8} {width : Nat} (length_eq : stored.length = width) :
    unsigned width (Cursor.start stored.toArray) =
      (.ok (LittleEndian.value stored), ⟨stored.toArray, stored.toArray.size⟩) := by
  subst length_eq
  have passage := Cursor.passes_start stored
  rw [← LittleEndian.bytes_value stored] at passage
  rw [unsigned_eq_ok_iff]
  exact ⟨LittleEndian.value_lt stored, by simpa only [LittleEndian.bytes_value] using passage⟩

theorem byte_eq_ok_iff_passes {cursor after : Cursor} {value : UInt8} :
    byte cursor = (.ok value, after) ↔ cursor.Passes [value] after := by
  have stored : LittleEndian.bytes 1 value.toNat = [value] := by simp [LittleEndian.bytes]
  rw [byte, bind_eq_ok_iff]
  constructor
  · rintro ⟨number, middle, success, same⟩
    rcases unsigned_eq_ok_iff.mp success with ⟨small, passage⟩
    cases same
    simpa [LittleEndian.bytes] using passage
  · intro passage
    refine ⟨value.toNat, after, unsigned_eq_ok_iff.mpr ⟨value.toNat_lt, ?_⟩, by simp⟩
    rwa [stored]

theorem word_eq_ok_iff {cursor after : Cursor} {value : UInt16} :
    word cursor = (.ok value, after) ↔
      cursor.Passes (LittleEndian.bytes 2 value.toNat) after := by
  rw [word, bind_eq_ok_iff]
  constructor
  · rintro ⟨number, middle, success, same⟩
    rcases unsigned_eq_ok_iff.mp success with ⟨small, passage⟩
    cases same
    have fits : number < UInt16.size := small
    rwa [UInt16.toNat_ofNat_of_lt' fits]
  · intro passage
    exact ⟨value.toNat, after, unsigned_eq_ok_iff.mpr ⟨value.toNat_lt, passage⟩, by simp⟩

end Reader

end ScriptDisassembler
