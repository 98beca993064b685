import ScriptDisassembler.Text.Lossy
import ScriptDisassembler.Text.Numeral

/-!
# Zero bytes in text

A zero byte continues no character: it settles whatever was open and is read as the zero character,
and nothing in front of it bears on what follows (`ofBytesLossy_append_zero`).  No other byte has a
part in a zero character (`zero_notMem_ofBytesLossy`), because a character that is open can only get
code points that are past ASCII and no surrogates (`OpenCharacter.Sound`).
-/

namespace ScriptDisassembler.Text

/-! ## Open characters -/

namespace OpenCharacter

/-- The least code point that an open character can get. -/
def low (character : OpenCharacter) : Nat :=
  (character.bits * 64 + (character.least.toNat - 0x80)) * 64 ^ character.later

/-- What comes behind the greatest code point that an open character can get. -/
def high (character : OpenCharacter) : Nat :=
  (character.bits * 64 + (character.greatest.toNat - 0x80) + 1) * 64 ^ character.later

/-- Whether an open character goes on in continuation bytes and can only get code points past ASCII
that are no surrogates. -/
structure Sound (character : OpenCharacter) : Prop where
  from_least : 0x80 ≤ character.least.toNat
  to_greatest : character.greatest.toNat ≤ 0xbf
  long : 0x80 ≤ character.low
  scalar : character.high ≤ 0xd800 ∨ 0xe000 ≤ character.low ∧ character.high ≤ 0x110000

end OpenCharacter

/-- Every byte that begins a character begins a sound one. -/
theorem Opening.sound_of_begun {byte : UInt8} {character : OpenCharacter}
    (opens : ofByte byte = .begun character) : character.Sound := by
  have small : byte.toNat < 256 := byte.toNat_lt
  unfold ofByte at opens
  dsimp only at opens
  generalize byte.toNat = value at opens small
  repeat' split at opens
  all_goals simp only [reduceCtorEq, Opening.begun.injEq] at opens
  all_goals subst opens
  -- The tests that led here bound the byte, and with it the code points.
  all_goals constructor
  all_goals
    simp only [OpenCharacter.low, OpenCharacter.high, UInt8.reduceToNat]
    omega

/-- Of the code points that characters have, only zero is that of the zero character. -/
theorem char_ne_zero {point : Nat} (valid : point.isValidChar) (nonzero : point ≠ 0) :
    Char.ofNat point ≠ '\x00' := by
  intro zero
  have same := congrArg Char.toNat zero
  rw [Char.ofNat, dif_pos valid] at same
  exact nonzero same

/-- A byte that is a character by itself is the zero character only if it is the zero byte. -/
theorem Opening.ne_zero_of_whole {byte : UInt8} {c : Char} (opens : ofByte byte = .whole c)
    (nonzero : byte ≠ 0) : c ≠ '\x00' := by
  unfold ofByte at opens
  dsimp only at opens
  repeat' split at opens
  all_goals simp only [reduceCtorEq, Opening.whole.injEq] at opens
  rename_i ascii
  rw [← opens]
  apply char_ne_zero (.inl (by omega))
  exact fun zero => nonzero (UInt8.toNat_inj.mp zero)

namespace OpenCharacter

variable {character : OpenCharacter} {byte : UInt8} {later : Nat}

/-- A character that one more byte completes gets a code point past ASCII. -/
theorem Sound.ofNat_ne_zero (sound : character.Sound) (last : character.later = 0)
    (from_least : character.least ≤ byte) (to_greatest : byte ≤ character.greatest) :
    Char.ofNat (character.bits * 64 + (byte.toNat - 0x80)) ≠ '\x00' := by
  have least := sound.from_least
  have long := sound.long
  have scalar := sound.scalar
  rw [UInt8.le_iff_toNat_le] at from_least to_greatest
  simp only [low, high, last, Nat.pow_zero, Nat.mul_one] at long scalar
  apply char_ne_zero
  · simp only [Nat.isValidChar]
    omega
  · omega

/-- A character that a byte leaves open is still sound: what it can get, it could get before. -/
theorem Sound.next (sound : character.Sound) (more : character.later = later + 1)
    (from_least : character.least ≤ byte) (to_greatest : byte ≤ character.greatest) :
    Sound ⟨character.bits * 64 + (byte.toNat - 0x80), later, 0x80, 0xbf⟩ := by
  have least := sound.from_least
  have long := sound.long
  have scalar := sound.scalar
  rw [UInt8.le_iff_toNat_le] at from_least to_greatest
  simp only [low, high, more, Nat.pow_succ', ← Nat.mul_assoc] at long scalar
  have fromLow : (character.bits * 64 + (character.least.toNat - 0x80)) * 64 * 64 ^ later ≤
      (character.bits * 64 + (byte.toNat - 0x80)) * 64 * 64 ^ later :=
    Nat.mul_le_mul_right _ (by omega)
  have toHigh : ((character.bits * 64 + (byte.toNat - 0x80)) * 64 + 64) * 64 ^ later ≤
      (character.bits * 64 + (character.greatest.toNat - 0x80) + 1) * 64 * 64 ^ later :=
    Nat.mul_le_mul_right _ (by omega)
  constructor
  · simp
  · simp
  · simp only [low, UInt8.reduceToNat, Nat.sub_self, Nat.add_zero]
    omega
  · simp only [low, high, UInt8.reduceToNat, Nat.sub_self, Nat.add_zero, Nat.reduceSub,
      Nat.add_assoc, Nat.reduceAdd]
    omega

end OpenCharacter

namespace LossyReader

/-! ## Single bytes -/

/-- Whether the character that is open, if there is one, is sound. -/
def Sound (reader : LossyReader) : Prop :=
  ∀ character, reader.pending = some character → character.Sound

theorem sound_of_none (text : String) : Sound ⟨text, none⟩ :=
  fun _ pending => by cases pending

theorem sound_of_some {text : String} {character : OpenCharacter} (sound : character.Sound) :
    Sound ⟨text, some character⟩ := by
  intro _ pending
  rwa [← Option.some.inj pending]

/-- What a byte adds where a character may begin. -/
theorem exists_openWith (text : String) (byte : UInt8) :
    (openWith text byte).Sound ∧ ∃ added,
      (openWith text byte).text.toList = text.toList ++ added ∧ (byte ≠ 0 → '\x00' ∉ added) := by
  unfold openWith
  cases opens : Opening.ofByte byte with
  | whole c =>
      refine ⟨sound_of_none _, [c], String.toList_push _, fun nonzero => ?_⟩
      simpa using (Opening.ne_zero_of_whole opens nonzero).symm
  | begun character =>
      exact ⟨sound_of_some (Opening.sound_of_begun opens), [], (List.append_nil _).symm,
        fun _ => List.not_mem_nil⟩
  | impossible => exact ⟨sound_of_none _, [replacement], String.toList_push _, fun _ => by decide⟩

/-- A byte adds characters to the text, and no zero character unless it is zero. -/
theorem Sound.exists_read {reader : LossyReader} (sound : reader.Sound) (byte : UInt8) :
    (reader.read byte).Sound ∧ ∃ added,
      (reader.read byte).text.toList = reader.text.toList ++ added ∧
        (byte ≠ 0 → '\x00' ∉ added) := by
  unfold LossyReader.read
  cases pending : reader.pending with
  | none => exact exists_openWith reader.text byte
  | some character =>
      have opened := sound character pending
      dsimp only
      split
      · rename_i within
        split
        · rename_i last
          refine ⟨sound_of_none _, [_], String.toList_push _, fun _ => ?_⟩
          simpa using (opened.ofNat_ne_zero last within.1 within.2).symm
        · rename_i later more
          exact ⟨sound_of_some (opened.next more within.1 within.2), [], (List.append_nil _).symm,
            fun _ => List.not_mem_nil⟩
      · obtain ⟨begun, added, text_eq, clean⟩ :=
          exists_openWith (reader.text.push replacement) byte
        refine ⟨begun, replacement :: added, ?_, fun nonzero => ?_⟩
        · rw [text_eq, String.toList_push, List.append_assoc, List.singleton_append]
        · have differs : '\x00' ≠ replacement := by decide
          simp [differs, clean nonzero]

/-- A zero byte settles what is open and is read as the zero character. -/
theorem Sound.read_zero {reader : LossyReader} (sound : reader.Sound) :
    reader.read 0 = ⟨reader.finish.push '\x00', none⟩ := by
  unfold LossyReader.read finish
  cases pending : reader.pending with
  | none => rfl
  | some character =>
      have least := (sound character pending).from_least
      have outside : ¬ (character.least ≤ 0 ∧ 0 ≤ character.greatest) := by
        rw [UInt8.le_iff_toNat_le, UInt8.toNat_zero]
        omega
      simp only [if_neg outside]
      rfl

/-! ## Bytes in a row -/

theorem Sound.exists_foldl {reader : LossyReader} (sound : reader.Sound) (bytes : List UInt8) :
    (bytes.foldl read reader).Sound ∧ ∃ added,
      (bytes.foldl read reader).text.toList = reader.text.toList ++ added ∧
        (0 ∉ bytes → '\x00' ∉ added) := by
  induction bytes generalizing reader with
  | nil => exact ⟨sound, [], (List.append_nil _).symm, fun _ => List.not_mem_nil⟩
  | cons byte bytes ih =>
      obtain ⟨next, first, first_eq, firstClean⟩ := sound.exists_read byte
      obtain ⟨final, rest, rest_eq, restClean⟩ := ih next
      refine ⟨final, first ++ rest, ?_, fun nonzero => ?_⟩
      · rw [List.foldl_cons, rest_eq, first_eq, List.append_assoc]
      · rw [List.mem_cons, not_or] at nonzero
        rw [List.mem_append, not_or]
        exact ⟨firstClean (Ne.symm nonzero.1), restClean nonzero.2⟩

/-- A reader in front of whose text stands some more. -/
def withFront (front : String) (reader : LossyReader) : LossyReader :=
  ⟨front ++ reader.text, reader.pending⟩

theorem append_push (front text : String) (c : Char) :
    (front ++ text).push c = front ++ text.push c := by
  apply String.toList_inj.mp
  simp

theorem openWith_append (front text : String) (byte : UInt8) :
    openWith (front ++ text) byte = (openWith text byte).withFront front := by
  unfold openWith
  cases Opening.ofByte byte <;> simp only [append_push, withFront]

/-- What stands in front of the text has no part in reading. -/
theorem read_withFront (front : String) (reader : LossyReader) (byte : UInt8) :
    (reader.withFront front).read byte = (reader.read byte).withFront front := by
  unfold read
  cases pending : reader.pending with
  | none => simp only [withFront, pending, openWith_append]
  | some character =>
      simp only [withFront, pending]
      split
      · split <;> simp only [append_push]
      · rw [append_push, openWith_append]
        rfl

theorem finish_withFront (front : String) (reader : LossyReader) :
    (reader.withFront front).finish = front ++ reader.finish := by
  unfold finish
  cases pending : reader.pending <;> simp only [withFront, pending, append_push]

theorem foldl_read_withFront (front : String) (bytes : List UInt8) (reader : LossyReader) :
    bytes.foldl read (reader.withFront front) = (bytes.foldl read reader).withFront front := by
  induction bytes generalizing reader with
  | nil => rfl
  | cons byte bytes ih => rw [List.foldl_cons, List.foldl_cons, read_withFront, ih]

theorem sound_start : start.Sound :=
  sound_of_none ""

end LossyReader

/-! ## Cutting at zero bytes -/

/-- What is read on either side of a zero byte is read for itself. -/
theorem ofBytesLossy_append_zero (first rest : List UInt8) :
    ofBytesLossy (first ++ 0 :: rest) = (ofBytesLossy first).push '\x00' ++ ofBytesLossy rest := by
  have sound := (LossyReader.sound_start.exists_foldl first).1
  have behind : (⟨(ofBytesLossy first).push '\x00', none⟩ : LossyReader) =
      LossyReader.start.withFront ((ofBytesLossy first).push '\x00') := by
    rw [LossyReader.withFront, LossyReader.start, String.append_empty]
  rw [ofBytesLossy, List.foldl_append, List.foldl_cons, sound.read_zero, ← ofBytesLossy, behind,
    LossyReader.foldl_read_withFront, LossyReader.finish_withFront, ← ofBytesLossy]

/-- Bytes other than zero are not read as the zero character. -/
theorem zero_notMem_ofBytesLossy {bytes : List UInt8} (nonzero : 0 ∉ bytes) :
    '\x00' ∉ (ofBytesLossy bytes).toList := by
  obtain ⟨-, added, text_eq, clean⟩ := LossyReader.sound_start.exists_foldl bytes
  have text_clean : '\x00' ∉ (bytes.foldl LossyReader.read LossyReader.start).text.toList := by
    rw [text_eq]
    exact clean nonzero
  unfold ofBytesLossy LossyReader.finish
  split
  · exact text_clean
  · have differs : '\x00' ≠ replacement := by decide
    simp [differs, text_clean]

end ScriptDisassembler.Text
