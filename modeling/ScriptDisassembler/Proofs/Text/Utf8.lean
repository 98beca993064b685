import ScriptDisassembler.Text.Lossy

/-!
# Text that is written in UTF-8 is read back

The lossy reader puts no replacement where there is nothing to replace.  It reads the bytes of one
character from any text on (`LossyReader.foldl_read_utf8EncodeChar`), hence the bytes of a whole
text (`ofBytesLossy_utf8Bytes`).  A zero byte stands only for the zero character.
-/

namespace ScriptDisassembler.Text

namespace Opening

/-- The first of two bytes. -/
theorem ofByte_of_two {high : Nat} (from_two : 2 ≤ high) (small : high < 32) :
    ofByte (UInt8.ofNat (high + 0xc0)) = .begun ⟨high, 0, 0x80, 0xbf⟩ := by
  have byte : (UInt8.ofNat (high + 0xc0)).toNat = high + 0xc0 := by
    rw [UInt8.toNat_ofNat']
    omega
  simp only [ofByte, byte, Nat.add_sub_cancel]
  rw [if_neg (by omega), if_neg (by omega), if_pos (by omega)]

/-- The first of three bytes lets any second byte follow that is neither overlong nor a
surrogate. -/
theorem ofByte_of_three {high next : Nat} (small : high < 16) (next_small : next < 64)
    (long : high = 0 → 32 ≤ next) (scalar : high = 0xd → next < 32) :
    ∃ least greatest, ofByte (UInt8.ofNat (high + 0xe0)) = .begun ⟨high, 1, least, greatest⟩ ∧
      least.toNat ≤ next + 0x80 ∧ next + 0x80 ≤ greatest.toNat := by
  have byte : (UInt8.ofNat (high + 0xe0)).toNat = high + 0xe0 := by
    rw [UInt8.toNat_ofNat']
    omega
  simp only [ofByte, byte, Nat.add_sub_cancel]
  rw [if_neg (by omega), if_neg (by omega), if_neg (by omega)]
  by_cases lowest : high = 0
  · subst lowest
    exact ⟨0xa0, 0xbf, rfl, by simpa using long rfl, by simpa using by omega⟩
  · rw [if_neg (by omega)]
    by_cases surrogates : high = 0xd
    · subst surrogates
      exact ⟨0x80, 0x9f, rfl, by simp, by simpa using by have := scalar rfl; omega⟩
    · rw [if_neg (by omega), if_pos (by omega)]
      exact ⟨0x80, 0xbf, rfl, by simp, by simpa using by omega⟩

/-- The first of four bytes lets any second byte follow that is neither overlong nor past the last
code point. -/
theorem ofByte_of_four {high next : Nat} (small : high < 5) (next_small : next < 64)
    (long : high = 0 → 16 ≤ next) (scalar : high = 4 → next < 16) :
    ∃ least greatest, ofByte (UInt8.ofNat (high + 0xf0)) = .begun ⟨high, 2, least, greatest⟩ ∧
      least.toNat ≤ next + 0x80 ∧ next + 0x80 ≤ greatest.toNat := by
  have byte : (UInt8.ofNat (high + 0xf0)).toNat = high + 0xf0 := by
    rw [UInt8.toNat_ofNat']
    omega
  simp only [ofByte, byte, Nat.add_sub_cancel]
  rw [if_neg (by omega), if_neg (by omega), if_neg (by omega), if_neg (by omega),
    if_neg (by omega), if_neg (by omega)]
  by_cases lowest : high = 0
  · subst lowest
    exact ⟨0x90, 0xbf, rfl, by simpa using by have := long rfl; omega, by simpa using by omega⟩
  · rw [if_neg (by omega)]
    by_cases last : high = 4
    · subst last
      exact ⟨0x80, 0x8f, rfl, by simp, by simpa using by have := scalar rfl; omega⟩
    · rw [if_pos (by omega)]
      exact ⟨0x80, 0xbf, rfl, by simp, by simpa using by omega⟩

end Opening

namespace LossyReader

theorem read_of_begun {text : String} {byte : UInt8} {character : OpenCharacter}
    (begun : Opening.ofByte byte = .begun character) :
    read ⟨text, none⟩ byte = ⟨text, some character⟩ := by
  simp [read, openWith, begun]

/-- A byte within the bounds of an open character adds its lower six bits. -/
theorem read_continuation {text : String} {bits later value : Nat} {least greatest : UInt8}
    (small : value < 64) (from_least : least.toNat ≤ value + 0x80)
    (to_greatest : value + 0x80 ≤ greatest.toNat) :
    read ⟨text, some ⟨bits, later, least, greatest⟩⟩ (UInt8.ofNat (value + 0x80)) =
      match later with
      | 0 => ⟨text.push (Char.ofNat (bits * 64 + value)), none⟩
      | later + 1 => ⟨text, some ⟨bits * 64 + value, later, 0x80, 0xbf⟩⟩ := by
  have byte : (UInt8.ofNat (value + 0x80)).toNat = value + 0x80 := by
    rw [UInt8.toNat_ofNat']
    omega
  have within : least ≤ UInt8.ofNat (value + 0x80) ∧ UInt8.ofNat (value + 0x80) ≤ greatest := by
    rw [UInt8.le_iff_toNat_le, UInt8.le_iff_toNat_le, byte]
    exact ⟨from_least, to_greatest⟩
  cases later with
  | zero => simp only [read, within, and_self, if_true, byte, Nat.add_sub_cancel]
  | succ later => simp only [read, within, and_self, if_true, byte, Nat.add_sub_cancel]

/-- Behind the second byte of a character every continuation is within the bounds. -/
theorem read_later {text : String} {bits later value : Nat} (small : value < 64) :
    read ⟨text, some ⟨bits, later, 0x80, 0xbf⟩⟩ (UInt8.ofNat (value + 0x80)) =
      match later with
      | 0 => ⟨text.push (Char.ofNat (bits * 64 + value)), none⟩
      | later + 1 => ⟨text, some ⟨bits * 64 + value, later, 0x80, 0xbf⟩⟩ :=
  read_continuation small (by simp) (by simpa using by omega)

/-- The bytes of a character are read as that character. -/
theorem foldl_read_utf8EncodeChar (text : String) (c : Char) :
    (String.utf8EncodeChar c).foldl read ⟨text, none⟩ = ⟨text.push c, none⟩ := by
  have scalar : c.val.toNat < 0xd800 ∨ 0xdfff < c.val.toNat ∧ c.val.toNat < 0x110000 := c.valid
  have same : Char.ofNat c.val.toNat = c := Char.ofNat_toNat c
  simp only [String.utf8EncodeChar]
  generalize c.val.toNat = point at scalar same
  split
  · have byte : (UInt8.ofNat point).toNat = point := by
      rw [UInt8.toNat_ofNat']
      omega
    simp only [List.foldl_cons, List.foldl_nil, read, openWith, Opening.ofByte, byte]
    rw [if_pos (by omega)]
    exact congrArg (fun c => (⟨text.push c, none⟩ : LossyReader)) same
  · split
    · have lead := @Opening.ofByte_of_two (point / 64 % 0x20) (by omega) (by omega)
      have sum : point / 64 % 0x20 * 64 + point % 0x40 = point := by omega
      simp only [List.foldl_cons, List.foldl_nil]
      rw [read_of_begun lead, read_later (by omega), sum, same]
    · split
      · obtain ⟨least, greatest, lead, above, below⟩ :=
          @Opening.ofByte_of_three (point / 4096 % 0x10) (point / 64 % 0x40) (by omega) (by omega)
            (by omega) (by omega)
        have sum : (point / 4096 % 0x10 * 64 + point / 64 % 0x40) * 64 + point % 0x40 = point := by
          omega
        simp only [List.foldl_cons, List.foldl_nil]
        rw [read_of_begun lead, read_continuation (by omega) above below]
        simp only
        rw [read_later (by omega), sum, same]
      · obtain ⟨least, greatest, lead, above, below⟩ :=
          @Opening.ofByte_of_four (point / 262144 % 8) (point / 4096 % 0x40) (by omega) (by omega)
            (by omega) (by omega)
        have sum : ((point / 262144 % 8 * 64 + point / 4096 % 0x40) * 64 + point / 64 % 0x40) * 64
            + point % 0x40 = point := by
          omega
        simp only [List.foldl_cons, List.foldl_nil]
        rw [read_of_begun lead, read_continuation (by omega) above below]
        simp only
        rw [read_later (by omega)]
        simp only
        rw [read_later (by omega), sum, same]

/-- The bytes of characters are read as those characters. -/
theorem foldl_read_flatMap (text : String) (chars : List Char) :
    (chars.flatMap String.utf8EncodeChar).foldl read ⟨text, none⟩ =
      ⟨text ++ String.ofList chars, none⟩ := by
  induction chars generalizing text with
  | nil => simp
  | cons c chars ih =>
      have pushed : text.push c ++ String.ofList chars = text ++ String.ofList (c :: chars) := by
        apply String.toList_inj.mp
        simp
      rw [List.flatMap_cons, List.foldl_append, foldl_read_utf8EncodeChar, ih, pushed]

end LossyReader

/-- Text that is written in UTF-8 is read as it was. -/
@[simp]
theorem ofBytesLossy_utf8Bytes (text : String) : ofBytesLossy (utf8Bytes text) = text := by
  rw [ofBytesLossy, utf8Bytes, LossyReader.start, LossyReader.foldl_read_flatMap]
  simp [LossyReader.finish]

/-! ## Zero bytes -/

theorem zero_notMem_utf8EncodeChar {c : Char} (nonzero : c ≠ Char.ofNat 0) :
    0 ∉ String.utf8EncodeChar c := by
  have point_ne : c.val.toNat ≠ 0 := by
    intro zero
    apply nonzero
    rw [← zero]
    exact (Char.ofNat_toNat c).symm
  have byte_ne : ∀ value : Nat, value % 256 ≠ 0 → 0 ≠ UInt8.ofNat value := by
    intro value differs same
    apply differs
    rw [← UInt8.toNat_ofNat', ← same]
    rfl
  simp only [String.utf8EncodeChar]
  split
  · simp only [List.mem_singleton]
    exact byte_ne _ (by omega)
  · split
    · simp only [List.mem_cons, List.not_mem_nil, or_false, not_or]
      exact ⟨byte_ne _ (by omega), byte_ne _ (by omega)⟩
    · split
      · simp only [List.mem_cons, List.not_mem_nil, or_false, not_or]
        exact ⟨byte_ne _ (by omega), byte_ne _ (by omega), byte_ne _ (by omega)⟩
      · simp only [List.mem_cons, List.not_mem_nil, or_false, not_or]
        exact ⟨byte_ne _ (by omega), byte_ne _ (by omega), byte_ne _ (by omega),
          byte_ne _ (by omega)⟩

theorem zero_notMem_utf8Bytes {text : String} (nonzero : Char.ofNat 0 ∉ text.toList) :
    0 ∉ utf8Bytes text := by
  intro member
  rcases List.mem_flatMap.mp member with ⟨c, listed, encoded⟩
  refine zero_notMem_utf8EncodeChar ?_ encoded
  rintro rfl
  exact nonzero listed

end ScriptDisassembler.Text
