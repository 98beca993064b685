import ScriptDisassembler.Proofs.Instruction.Tiling
import ScriptDisassembler.Proofs.Instruction.Writability
import ScriptDisassembler.Proofs.Operand.Locality

/-!
# The bit that inverts

The topmost bit of a header says that the result is inverted, and says nothing else.  Everything in
front of the header is decoded without looking at it (`Decoder.decode_inData`), the instruction with
this header goes by the opcode alone (`Decoder.decode_flip`), and what comes behind is decoded from
behind it.  So flipping the bit changes this one flag in the outcomes of a whole script
(`Decoder.items_flip`).
-/

namespace ScriptDisassembler

namespace Header

/-- The data with the topmost bit flipped in the header at `offset`. -/
def flipAt (offset : Nat) (data : Array UInt8) : Array UInt8 :=
  data.modify (offset + 1) (· ^^^ 0x80)

/-! ## One header -/

theorem opcode_xor_invertBit (header : UInt16) :
    opcode (header ^^^ invertBit) = opcode header := by
  have mask : opcodeMask.toNat = 2 ^ 15 - 1 := rfl
  have clear : invertBit.toNat % 2 ^ 15 = 0 := rfl
  apply UInt16.toNat_inj.mp
  rw [opcode, opcode, UInt16.toNat_and, UInt16.toNat_and, UInt16.toNat_xor, mask,
    Nat.and_two_pow_sub_one_eq_mod, Nat.and_two_pow_sub_one_eq_mod, Nat.xor_mod_two_pow, clear,
    Nat.xor_zero]

theorem inverts_eq_getLsbD (header : UInt16) : inverts header = header.toBitVec.getLsbD 15 := by
  have bits : flags header = ⟨header.toBitVec &&& BitVec.twoPow 16 15⟩ := rfl
  rw [inverts, bits, BitVec.and_twoPow]
  cases header.toBitVec.getLsbD 15 <;> rfl

theorem inverts_xor_invertBit (header : UInt16) :
    inverts (header ^^^ invertBit) = !inverts header := by
  have set : invertBit.toBitVec.getLsbD 15 = true := rfl
  rw [inverts_eq_getLsbD, inverts_eq_getLsbD, UInt16.toBitVec_xor, BitVec.getLsbD_xor, set,
    Bool.xor_true]

/-- The bit stands in the second byte of a header. -/
theorem bytes_xor_invertBit (header : UInt16) :
    LittleEndian.bytes 2 (header ^^^ invertBit).toNat =
      (LittleEndian.bytes 2 header.toNat).modify 1 (· ^^^ 0x80) := by
  have low : UInt8.ofNat (header ^^^ invertBit).toNat = UInt8.ofNat header.toNat := by
    have clear : UInt8.ofNat invertBit.toNat = 0 := rfl
    rw [UInt16.toNat_xor, UInt8.ofNat_xor, clear, UInt8.xor_zero]
  have high : UInt8.ofNat ((header ^^^ invertBit).toNat / 256) =
      UInt8.ofNat (header.toNat / 256) ^^^ 0x80 := by
    have place : (256 : Nat) = 2 ^ 8 := rfl
    have bit : UInt8.ofNat (invertBit.toNat / 2 ^ 8) = 0x80 := rfl
    rw [UInt16.toNat_xor, place, Nat.xor_div_two_pow, UInt8.ofNat_xor, bit]
  simp only [LittleEndian.bytes, low, high]
  rfl

end Header

namespace Cursor

variable {cursor : Cursor} {data : Array UInt8} {header : UInt16} {offset stop : Nat}

/-! ## Where the data agree -/

theorem agreesUpTo_flipAt (data_eq : cursor.data = data)
    (elsewhere : stop ≤ offset + 1 ∨ offset + 1 < cursor.position) :
    cursor.AgreesUpTo (Header.flipAt offset data) stop := by
  subst data_eq
  constructor
  · exact Array.size_modify
  · intro place behind before
    rw [Header.flipAt, Array.getElem?_modify, if_neg (by omega)]

theorem Heads.inData (heads : cursor.Heads header)
    (agrees : cursor.AgreesUpTo data (cursor.position + 2)) : (cursor.inData data).Heads header := by
  have same := (Reader.composed_word cursor).inData data
  rw [heads.word] at same
  exact Reader.word_eq_ok_iff.mp (same agrees)

theorem rest_inData_modify (cursor : Cursor) (change : UInt8 → UInt8) (distance : Nat) :
    (cursor.inData (cursor.data.modify (cursor.position + distance) change)).rest =
      cursor.rest.modify distance change := by
  apply List.ext_getElem?
  intro place
  simp only [rest, inData, Array.toList_modify, List.getElem?_drop, List.getElem?_modify,
    Nat.add_left_cancel_iff]

theorem Heads.hasMore (heads : cursor.Heads header) : cursor.hasMore = true :=
  hasMore_iff.mpr (Nat.lt_of_lt_of_le Nat.zero_lt_two heads.two_le_remaining)

/-- Flipping the bit in a header gives the header with the bit flipped. -/
theorem Heads.flip (heads : cursor.Heads header) :
    (cursor.inData (Header.flipAt cursor.position cursor.data)).Heads
      (header ^^^ Header.invertBit) := by
  constructor
  · rw [rest_advance, Header.flipAt, rest_inData_modify, heads.rest_eq, Header.bytes_xor_invertBit]
    rfl
  · rw [LittleEndian.length_bytes]

end Cursor

/-- The same instruction with the opposite result. -/
def Instruction.invert (instruction : Instruction) : Instruction :=
  { instruction with inverted := !instruction.inverted }

namespace Decoding

/-- The same outcome in other data. -/
def inData {α : Type} (data : Array UInt8) (decoding : Decoding α) : Decoding α :=
  { decoding with cursor := decoding.cursor.inData data }

/-- The same outcome but for the inversion of a decoded instruction. -/
def invert (decoding : Decoding Instruction) : Decoding Instruction :=
  { decoding with result := decoding.result.map Instruction.invert }

theorem cursor_invert (decoding : Decoding Instruction) :
    decoding.invert.cursor = decoding.cursor :=
  rfl

theorem notices_invert (decoding : Decoding Instruction) :
    decoding.invert.notices = decoding.notices :=
  rfl

end Decoding

namespace Decoder

variable {decoder : Decoder} {cursor : Cursor} {data : Array UInt8}

/-! ## One instruction -/

theorem decode_of_heads {header : UInt16} (heads : cursor.Heads header) :
    decoder.decode cursor = decoder.decodeBehind cursor.position header (cursor.advance 2) := by
  simp only [decode, heads.word]

/-- The bit of the header that inverts the result does nothing else. -/
theorem decodeBehind_xor_invertBit (decoder : Decoder) (offset : Nat) (header : UInt16)
    (behind : Cursor) :
    decoder.decodeBehind offset (header ^^^ Header.invertBit) behind =
      (decoder.decodeBehind offset header behind).invert := by
  simp only [decodeBehind, Header.opcode_xor_invertBit, Header.inverts_xor_invertBit]
  rcases decoder.operandCount (Header.opcode header) offset with error | ⟨count, notices⟩
  · rfl
  · rcases outcome : Operand.readAll count behind with ⟨error | operands, after⟩ <;>
      simp only [outcome] <;> rfl

/-- Behind its header an instruction is decoded from the bytes that it takes. -/
theorem decodeBehind_inData {offset : Nat} {header : UInt16} {behind : Cursor}
    (agrees : behind.AgreesUpTo data
      (decoder.decodeBehind offset header behind).cursor.position) :
    decoder.decodeBehind offset header (behind.inData data) =
      (decoder.decodeBehind offset header behind).inData data := by
  unfold decodeBehind at agrees ⊢
  dsimp only at agrees ⊢
  cases declared : decoder.operandCount (Header.opcode header) offset with
  | error error => rfl
  | ok known =>
      have same := (Operand.composed_readAll known.1 behind).inData data
      rw [declared] at agrees
      rcases outcome : Operand.readAll known.1 behind with ⟨result, after⟩
      rw [outcome] at same
      simp only [outcome] at agrees ⊢
      cases result with
      | error source =>
          rw [same agrees]
          rfl
      | ok operands =>
          rw [same agrees]
          rfl

/-- An instruction is decoded from the bytes that it takes. -/
theorem decode_inData
    (agrees : cursor.AgreesUpTo data (decoder.decode cursor).cursor.position) :
    decoder.decode (cursor.inData data) = (decoder.decode cursor).inData data := by
  rcases cursor.remaining_lt_or_heads with short | ⟨header, heads⟩
  · have shortThere : (cursor.inData data).remaining < 2 := agrees.remaining_inData ▸ short
    rw [decode_of_remaining_lt decoder short, decode_of_remaining_lt decoder shortThere,
      agrees.shortfall_inData]
    rfl
  · have moved := decoder.position_add_two_le_decode heads.two_le_remaining
    have headsThere := heads.inData (agrees.mono moved)
    rw [decode_of_heads heads] at agrees ⊢
    rw [decode_of_heads headsThere]
    exact decodeBehind_inData (agrees.from_later rfl (Nat.le_add_right _ 2))

/-- With the bit of its header flipped, an instruction is decoded with the opposite result. -/
theorem decode_flip (decoder : Decoder) {header : UInt16} (heads : cursor.Heads header) :
    let flipped := Header.flipAt cursor.position cursor.data
    decoder.decode (cursor.inData flipped) = ((decoder.decode cursor).inData flipped).invert := by
  intro flipped
  have agrees : (cursor.advance 2).AgreesUpTo flipped
      (decoder.decodeBehind cursor.position header (cursor.advance 2)).cursor.position :=
    Cursor.agreesUpTo_flipAt rfl (.inr (Nat.lt_succ_self _))
  rw [decode_of_heads heads, decode_of_heads heads.flip, decodeBehind_xor_invertBit,
    Cursor.advance_inData, ← decodeBehind_inData agrees]
  rfl

/-! ## All instructions -/

/-- The outcomes depend on the bytes from the cursor on. -/
theorem items_inData (agrees : cursor.AgreesUpTo data cursor.data.size) :
    decoder.items (cursor.inData data) = (decoder.items cursor).map (Decoding.inData data) := by
  induction cursor using decoder.induction with
  | done cursor done =>
      rw [items_of_done done, items_of_done (agrees.hasMore_inData.trans done)]
      rfl
  | error cursor error more failure =>
      have same := decode_inData (agrees.of_size (decoder.decode cursor).cursor.position)
      rw [items_of_error more failure,
        items_of_error (agrees.hasMore_inData.trans more) (by rw [same]; exact failure), same]
      rfl
  | ok cursor instruction success ih =>
      have same := decode_inData (agrees.of_size (decoder.decode cursor).cursor.position)
      obtain ⟨data_eq, moved, -⟩ := decoder.forward_decode cursor
      have behind := ih (data_eq ▸ agrees.from_later data_eq moved)
      rw [items_of_ok success, items_of_ok (by rw [same]; exact success), same, List.map_cons,
        ← behind]
      rfl

end Decoder

namespace Walk

/-- A walk never goes back. -/
theorem position_le_after (decoder : Decoder) (calls : Nat) (walk : Walk) :
    walk.cursor.position ≤ (walk.after decoder calls).cursor.position := by
  induction calls generalizing walk with
  | zero => exact Nat.le_refl _
  | succ calls ih =>
      refine Nat.le_trans ?_ (ih (walk.next decoder).2)
      unfold next
      split
      · exact Nat.le_refl _
      · exact (decoder.forward_decode walk.cursor).2.1

theorem after_start_succ {decoder : Decoder} {cursor : Cursor} {instruction : Instruction}
    (success : (decoder.decode cursor).result = .ok instruction) (calls : Nat) :
    (start cursor).after decoder (calls + 1) =
      (start (decoder.decode cursor).cursor).after decoder calls := by
  rw [after, next_start decoder (Decoder.hasMore_of_decode success), success]
  rfl

end Walk

namespace Decoder

variable {decoder : Decoder} {cursor : Cursor} {count : Nat} {item : Decoding Instruction}

/-- An outcome is that of the place where the walk stands. -/
theorem eq_decode_of_items_getElem? (stands : (decoder.items cursor)[count]? = some item) :
    item = decoder.decode ((Walk.start cursor).after decoder count).cursor := by
  obtain ⟨failed, yields⟩ := Walk.yields_items decoder cursor
  rw [← yields.next_after count, Walk.next] at stands
  split at stands
  · cases stands
  · exact (Option.some.inj stands).symm

theorem offset_of_decode {instruction : Instruction}
    (success : (decoder.decode cursor).result = .ok instruction) :
    instruction.offset = cursor.position :=
  (extent_of_decode (decode_eq_of_ok success)).1

/-- Only an instruction is followed by an outcome. -/
theorem exists_ok_of_items_getElem?_succ
    (stands : (decoder.items cursor)[count + 1]? = some item) :
    ∃ instruction, (decoder.decode cursor).result = .ok instruction := by
  cases more : cursor.hasMore with
  | false =>
      rw [items_of_done more] at stands
      cases stands
  | true =>
      cases outcome : (decoder.decode cursor).result with
      | ok instruction => exact ⟨instruction, rfl⟩
      | error error =>
          rw [items_of_error more outcome] at stands
          cases stands

/-- With the bit of the first header flipped, the first outcome is inverted. -/
theorem items_flip_zero {header : UInt16} (heads : cursor.Heads header) :
    let flipped := Header.flipAt cursor.position cursor.data
    decoder.items (cursor.inData flipped) =
      ((decoder.items cursor).map (Decoding.inData flipped)).modify 0 Decoding.invert := by
  intro flipped
  have flippedOutcome := decoder.decode_flip heads
  have more := heads.hasMore
  have moreThere := heads.flip.hasMore
  cases outcome : (decoder.decode cursor).result with
  | error error =>
      have failsThere : (decoder.decode (cursor.inData flipped)).result = .error error := by
        rw [flippedOutcome, Decoding.invert, Decoding.inData, outcome]
        rfl
      rw [items_of_error more outcome, items_of_error moreThere failsThere, flippedOutcome]
      rfl
  | ok instruction =>
      have succeedsThere :
          (decoder.decode (cursor.inData flipped)).result = .ok instruction.invert := by
        rw [flippedOutcome, Decoding.invert, Decoding.inData, outcome]
        rfl
      have data_eq := (decoder.forward_decode cursor).1
      have moved := decoder.position_add_two_le_decode heads.two_le_remaining
      have agrees : (decoder.decode cursor).cursor.AgreesUpTo flipped
          (decoder.decode cursor).cursor.data.size :=
        Cursor.agreesUpTo_flipAt data_eq (.inr moved)
      rw [items_of_ok outcome, items_of_ok succeedsThere, flippedOutcome, List.map_cons,
        ← items_inData agrees]
      rfl

/-- With the bit of any header flipped, the outcome that starts with the header is inverted. -/
theorem items_flip_of_getElem? (stands : (decoder.items cursor)[count]? = some item)
    {offset : Nat}
    (offset_eq : ((Walk.start cursor).after decoder count).cursor.position = offset)
    (complete : offset + 2 ≤ cursor.data.size) :
    let flipped := Header.flipAt offset cursor.data
    decoder.items (cursor.inData flipped) =
      ((decoder.items cursor).map (Decoding.inData flipped)).modify count Decoding.invert := by
  intro flipped
  -- The walk to the header is followed step by step; only its last step meets the flipped bit.
  induction count generalizing cursor with
  | zero =>
      obtain rfl : cursor.position = offset := offset_eq
      rcases cursor.remaining_lt_or_heads with short | ⟨header, heads⟩
      · rw [Cursor.remaining] at short
        omega
      · exact items_flip_zero heads
  | succ count ih =>
      obtain ⟨instruction, success⟩ := exists_ok_of_items_getElem?_succ stands
      rw [items_of_ok success, List.getElem?_cons_succ] at stands
      rw [Walk.after_start_succ success] at offset_eq
      have data_eq := (decoder.forward_decode cursor).1
      have before : (decoder.decode cursor).cursor.position ≤ offset :=
        offset_eq ▸ Walk.position_le_after decoder count (Walk.start (decoder.decode cursor).cursor)
      have same : decoder.decode (cursor.inData flipped) =
          (decoder.decode cursor).inData flipped :=
        decode_inData (Cursor.agreesUpTo_flipAt rfl (.inl (Nat.le_succ_of_le before)))
      have behind := ih stands offset_eq (data_eq ▸ complete)
      rw [data_eq] at behind
      rw [items_of_ok success, items_of_ok (by rw [same]; exact success), same, List.map_cons,
        List.modify_succ_cons, ← behind]
      rfl

end Decoder

/-! ## What does not show -/

/-- Where a change does not show, it does not show in a list with one changed entry. -/
theorem map_modify_of_eq {α β : Type} {change : α → α} {view : α → β}
    (hidden : ∀ a, view (change a) = view a) (list : List α) (place : Nat) :
    (list.modify place change).map view = list.map view := by
  induction list generalizing place with
  | nil => cases place <;> rfl
  | cons a list ih =>
      cases place with
      | zero => rw [List.modify_zero_cons, List.map_cons, List.map_cons, hidden]
      | succ place => rw [List.modify_succ_cons, List.map_cons, List.map_cons, ih]

/-- An inverted instruction is written as the other one is, in `!(...)`. -/
theorem Instruction.text_invert {plain : Instruction} (notInverted : plain.inverted = false)
    (lookup : Lookup) :
    plain.invert.text lookup =
      ((plain.text lookup).1.map fun text => "!(" ++ text ++ ")", (plain.text lookup).2) := by
  have operands_eq : plain.invert.operands = plain.operands := rfl
  cases written : plain.operands.mapM Operand.text with
  | error error =>
      rw [text_of_mapM_error written, text_of_mapM_error (operands_eq ▸ written)]
      rfl
  | ok texts =>
      rw [text_of_mapM written, text_of_mapM (operands_eq ▸ written), notInverted]
      simp only [Instruction.invert, notInverted]
      rfl

namespace Decoder

/-! ## Main result -/

/-- Flipping the bit that inverts, in a complete header that the walk through a script comes to,
inverts the instruction that starts there if there is one, and changes nothing else: not the other
outcomes, nor what fails, nor the end, nor what is noticed.  Of the two instructions the inverted
one is written as the other is, in `!(...)`, or fails as it does. -/
theorem items_flip (decoder : Decoder) (cursor : Cursor) {count : Nat}
    {item : Decoding Instruction} (stands : (decoder.items cursor)[count]? = some item)
    {offset : Nat}
    (offset_eq : ((Walk.start cursor).after decoder count).cursor.position = offset)
    (complete : offset + 2 ≤ cursor.data.size) :
    let flipped := Header.flipAt offset cursor.data
    decoder.items (cursor.inData flipped) =
        ((decoder.items cursor).map (Decoding.inData flipped)).modify count Decoding.invert ∧
      decoder.finish (cursor.inData flipped) = (decoder.finish cursor).inData flipped ∧
      (decoder.items (cursor.inData flipped)).map Decoding.notices =
        (decoder.items cursor).map Decoding.notices ∧
      ∀ instruction, item.result = .ok instruction → instruction.offset = offset ∧
        ∀ plain ∈ [instruction, instruction.invert], plain.inverted = false →
          ∀ lookup : Lookup, plain.invert.text lookup =
            ((plain.text lookup).1.map fun text => "!(" ++ text ++ ")",
              (plain.text lookup).2) := by
  intro flipped
  have items_eq : decoder.items (cursor.inData flipped) =
      ((decoder.items cursor).map (Decoding.inData flipped)).modify count Decoding.invert :=
    items_flip_of_getElem? stands offset_eq complete
  refine ⟨items_eq, ?_, ?_, ?_⟩
  · have cursors_eq : (decoder.items (cursor.inData flipped)).map Decoding.cursor =
        ((decoder.items cursor).map Decoding.cursor).map (Cursor.inData flipped) := by
      rw [items_eq, map_modify_of_eq Decoding.cursor_invert, List.map_map, List.map_map]
      rfl
    rw [finish, finish, ← List.getLast?_map, ← List.getLast?_map, cursors_eq, List.getLast?_map]
    cases ((decoder.items cursor).map Decoding.cursor).getLast? <;> rfl
  · rw [items_eq, map_modify_of_eq Decoding.notices_invert, List.map_map]
    rfl
  · intro instruction success
    refine ⟨?_, fun plain _ notInverted lookup => Instruction.text_invert notInverted lookup⟩
    rw [eq_decode_of_items_getElem? stands] at success
    rw [offset_of_decode success, offset_eq]

/-- The second of two inverted instructions, in front of an opcode that is refused. -/
theorem items_flip_second :
    let decoder : Decoder := ⟨Lookup.ofPairs [(1, .unnamed 1 (.fixed 1))], .strict⟩
    let cursor := Cursor.start #[0x01, 0x80, 0x04, 0x05, 0x01, 0x80, 0x04, 0x07, 0x02, 0x00]
    let item : Decoding Instruction :=
      ⟨.ok ⟨4, 4, 1, true, [.ofTag .signed8 (.integer 7)]⟩, ⟨cursor.data, 8⟩, []⟩
    let flipped := Header.flipAt 4 cursor.data
    (decoder.items cursor)[1]? = some item ∧
      ((Walk.start cursor).after decoder 1).cursor.position = 4 ∧ 4 + 2 ≤ cursor.data.size ∧
      decoder.items (cursor.inData flipped) =
        ((decoder.items cursor).map (Decoding.inData flipped)).modify 1 Decoding.invert := by
  intro decoder cursor item flipped
  have first : decoder.decode cursor =
      ⟨.ok ⟨0, 4, 1, true, [.ofTag .signed8 (.integer 5)]⟩, ⟨cursor.data, 4⟩, []⟩ := by
    simp only [decoder, cursor]
    rfl
  have second : decoder.decode ⟨cursor.data, 4⟩ = item := by
    simp only [decoder, cursor, item]
    rfl
  have stands : (decoder.items cursor)[1]? = some item := by
    rw [items_of_ok (by rw [first]), first, List.getElem?_cons_succ,
      items_of_ok (by rw [second]), second, List.getElem?_cons_zero]
  have offset_eq : ((Walk.start cursor).after decoder 1).cursor.position = 4 := by
    rw [Walk.after_start_succ (by rw [first]), first]
    rfl
  have complete : 4 + 2 ≤ cursor.data.size := by decide
  exact ⟨stands, offset_eq, complete, (items_flip decoder cursor stands offset_eq complete).1⟩

end Decoder

end ScriptDisassembler
