import ScriptDisassembler.Operand.Reading
import ScriptDisassembler.Operand.Writing
import ScriptDisassembler.Proofs.Bytes.Passage
import ScriptDisassembler.Proofs.Text.Utf8

/-!
# The stored form of an operand

`Operand.read_eq_ok_iff` says where an operand is read and what stands there: its tag, the frame
of its payload, and in the frame bytes that have the payload as their meaning.  `Tag.Stores` says
which payloads have such bytes.

Both directions of the stored form follow: the bytes of a storable operand are read as that
operand, and an operand that was read and is no string stands there in exactly its bytes.  Of a
string only the text before its first zero byte is kept.
-/

namespace ScriptDisassembler

namespace Tag

/-- The number of payload bytes that a tag fixes. -/
def fieldSize (tag : Tag) : Nat :=
  match tag.payloadSize with
  | .fixed size => size
  | .counted => 0

/-- The greatest number of payload bytes. -/
def capacity (tag : Tag) : Nat :=
  match tag.payloadSize with
  | .fixed size => size
  | .counted => 255

/-- The payload has a length that the tag lets it have. -/
def Admits (tag : Tag) (stored : List UInt8) : Prop :=
  match tag.payloadSize with
  | .fixed size => stored.length = size
  | .counted => stored.length < 256

/-- What stands behind a tag: the payload, with its length in front if the tag does not fix it. -/
def framed (tag : Tag) (stored : List UInt8) : List UInt8 :=
  match tag.payloadSize with
  | .fixed _ => stored
  | .counted => UInt8.ofNat stored.length :: stored

/-! ## Sizes by kind -/

theorem payloadSize_of_kind_ne_string {tag : Tag} (other : tag.kind ≠ .string) :
    tag.payloadSize = .fixed tag.fieldSize := by
  revert other
  cases tag <;> decide

theorem fieldSize_of_terminator {tag : Tag} (kind_eq : tag.kind = .terminator) :
    tag.fieldSize = 0 := by
  revert kind_eq
  cases tag <;> decide

theorem fieldSize_of_float {tag : Tag} (kind_eq : tag.kind = .float) : tag.fieldSize = 4 := by
  revert kind_eq
  cases tag <;> decide

theorem fieldSize_of_isArrayElement {tag : Tag} (element : tag.kind.isArrayElement = true) :
    tag.fieldSize = ArrayAccess.size := by
  revert element
  cases tag <;> decide

theorem admits_iff_of_kind_ne_string {tag : Tag} (other : tag.kind ≠ .string)
    {stored : List UInt8} : tag.Admits stored ↔ stored.length = tag.fieldSize := by
  rw [Admits, payloadSize_of_kind_ne_string other]

/-! ## Reading a tag and the bytes behind it -/

theorem read_eq_ok_iff {tag : Tag} {cursor after : Cursor} :
    read cursor = (.ok tag, after) ↔ cursor.Passes [tag.code] after := by
  rw [read, Reader.bind_eq_ok_iff]
  constructor
  · rintro ⟨code, middle, success, lifted⟩
    cases known : ofCode? code with
    | none =>
        rw [known] at lifted
        cases lifted
    | some found =>
        rw [known] at lifted
        cases lifted
        rw [← ofCode?_eq_some_iff.mp known]
        exact Reader.byte_eq_ok_iff_passes.mp success
  · intro passage
    refine ⟨tag.code, after, Reader.byte_eq_ok_iff_passes.mpr passage, ?_⟩
    rw [ofCode?_code]
    rfl

/-- The bytes of a payload are read exactly where they stand in their frame. -/
theorem readPayload_eq_ok_iff {tag : Tag} {cursor after : Cursor} {stored : List UInt8} :
    tag.readPayload cursor = (.ok stored, after) ↔
      tag.Admits stored ∧ cursor.Passes (tag.framed stored) after := by
  unfold readPayload Admits framed
  cases tag.payloadSize with
  | fixed size => exact Reader.bytes_eq_ok_iff
  | counted =>
      simp only
      rw [Reader.bind_eq_ok_iff]
      constructor
      · rintro ⟨size, middle, sizeRead, payloadRead⟩
        rcases Reader.bytes_eq_ok_iff.mp payloadRead with ⟨length_eq, payload⟩
        refine ⟨length_eq ▸ size.toNat_lt, Cursor.passes_cons_iff.mpr ⟨middle, ?_, payload⟩⟩
        rw [length_eq, UInt8.ofNat_toNat]
        exact Reader.byte_eq_ok_iff_passes.mp sizeRead
      · rintro ⟨small, passage⟩
        rcases Cursor.passes_cons_iff.mp passage with ⟨middle, length, payload⟩
        refine ⟨_, middle, Reader.byte_eq_ok_iff_passes.mpr length, ?_⟩
        apply Reader.bytes_eq_ok_iff.mpr
        exact ⟨by rw [UInt8.toNat_ofNat', Nat.mod_eq_of_lt small], payload⟩

end Tag

/-! ## Descriptions of element accesses -/

/-- The element types that some byte states: a code that has a meaning of its own is no other
code. -/
def ElementType.Stated (element : ElementType) : Prop :=
  ofCode element.code = element

instance (element : ElementType) : Decidable element.Stated :=
  inferInstanceAs (Decidable (_ = _))

theorem ElementType.stated_ofCode (code : UInt8) : (ofCode code).Stated := by
  rw [Stated, code_ofCode]

namespace ArrayAccess

theorem read_eq_ok_iff {access : ArrayAccess} {cursor after : Cursor} :
    read cursor = (.ok access, after) ↔
      access.element.Stated ∧ cursor.Passes access.bytes after := by
  simp only [read, Reader.bind_eq_ok_iff, Reader.byte_eq_ok_iff_passes, Reader.word_eq_ok_iff]
  constructor
  · rintro ⟨element, first, elementRead, base, second, baseRead, index, third, indexRead, info,
      fourth, infoRead, same⟩
    cases same
    constructor
    · exact ElementType.stated_ofCode element
    · rw [bytes, ElementType.code_ofCode]
      exact elementRead.trans ((baseRead.trans indexRead).trans infoRead)
  · rintro ⟨stated, passage⟩
    rcases Cursor.passes_cons_iff.mp passage with ⟨first, elementRead, behindElement⟩
    rcases Cursor.passes_append_iff.mp behindElement with ⟨third, words, infoRead⟩
    rcases Cursor.passes_append_iff.mp words with ⟨second, baseRead, indexRead⟩
    refine ⟨_, first, elementRead, _, second, baseRead, _, third, indexRead, _, after, infoRead, ?_⟩
    rw [stated]
    rfl

/-- A description of the right size describes exactly the access whose bytes it is. -/
theorem ofBytes_eq_ok_iff {stored : List UInt8} {access : ArrayAccess}
    (complete : stored.length = size) :
    ofBytes stored = .ok access ↔ access.element.Stated ∧ stored = access.bytes := by
  constructor
  · intro success
    rcases outcome : read (Cursor.start stored.toArray) with ⟨result, behind⟩
    rw [ofBytes, outcome] at success
    subst success
    rcases read_eq_ok_iff.mp outcome with ⟨stated, passage⟩
    have rest_eq : stored = access.bytes ++ behind.rest := by
      simpa [Cursor.rest, Cursor.start] using passage.rest_eq
    have lengths := congrArg List.length rest_eq
    rw [List.length_append, length_bytes, complete] at lengths
    have nothing : behind.rest = [] := List.length_eq_zero_iff.mp (Nat.left_eq_add.mp lengths)
    rw [nothing, List.append_nil] at rest_eq
    exact ⟨stated, rest_eq⟩
  · rintro ⟨stated, rfl⟩
    rw [ofBytes, read_eq_ok_iff.mpr ⟨stated, Cursor.passes_start access.bytes⟩]

/-- Bytes of the right number describe some access. -/
theorem exists_bytes_eq {stored : List UInt8} (complete : stored.length = size) :
    ∃ access : ArrayAccess, access.element.Stated ∧ stored = access.bytes := by
  obtain ⟨element, base₀, base₁, index₀, index₁, info, rfl⟩ :
      ∃ element base₀ base₁ index₀ index₁ info,
        stored = [element, base₀, base₁, index₀, index₁, info] := by
    match stored, complete with
    | [element, base₀, base₁, index₀, index₁, info], _ => exact ⟨_, _, _, _, _, _, rfl⟩
  refine ⟨⟨ElementType.ofCode element, UInt16.ofNat (LittleEndian.value [base₀, base₁]),
    UInt16.ofNat (LittleEndian.value [index₀, index₁]), info⟩,
    ElementType.stated_ofCode element, ?_⟩
  have word (low high : UInt8) :
      LittleEndian.bytes 2 (UInt16.ofNat (LittleEndian.value [low, high])).toNat = [low, high] := by
    have small : LittleEndian.value [low, high] < 256 ^ 2 := LittleEndian.value_lt [low, high]
    have fits : LittleEndian.value [low, high] < UInt16.size := small
    rw [UInt16.toNat_ofNat_of_lt' fits]
    exact LittleEndian.bytes_value [low, high]
  rw [bytes, ElementType.code_ofCode, word, word]
  rfl

end ArrayAccess

/-! ## Payloads and their bytes -/

theorem upToZero_append {stored : List UInt8} (nonzero : 0 ∉ stored) (rest : List UInt8) :
    upToZero (stored ++ rest) = stored ++ upToZero rest := by
  have passes : ∀ byte ∈ stored, (byte != 0) = true := by
    intro byte member
    rw [bne_iff_ne]
    rintro rfl
    exact nonzero member
  rw [upToZero, List.takeWhile_append_of_pos passes]
  rfl

@[simp]
theorem upToZero_nil : upToZero [] = [] :=
  rfl

@[simp]
theorem upToZero_cons_zero (rest : List UInt8) : upToZero (0 :: rest) = [] :=
  rfl

/-- Padding with zero bytes does not change what stands before the first of them. -/
theorem upToZero_append_replicate {stored : List UInt8} (nonzero : 0 ∉ stored) (count : Nat) :
    upToZero (stored ++ List.replicate count 0) = stored := by
  rw [upToZero_append nonzero]
  cases count with
  | zero => exact List.append_nil stored
  | succ count => rw [List.replicate_succ, upToZero_cons_zero, List.append_nil]

/-- The payload is an integer: an immediate one or the number of a variable. -/
def Kind.isNumeric (kind : Kind) : Bool :=
  kind == .integer || kind.isVariable

theorem Kind.ne_string_of_isNumeric {kind : Kind} (numeric : kind.isNumeric = true) :
    kind ≠ .string := by
  rintro rfl
  cases numeric

theorem Kind.ne_string_of_isArrayElement {kind : Kind} (element : kind.isArrayElement = true) :
    kind ≠ .string := by
  rintro rfl
  cases element

/-- The payloads that can be stored behind a tag. -/
def Tag.Stores (tag : Tag) : Payload → Prop
  | .empty => tag.kind = .terminator
  | .integer value => tag.kind.isNumeric = true ∧ LittleEndian.InRange tag.fieldSize value
  | .float _ => tag.kind = .float
  | .text value =>
      tag.kind = .string ∧ Char.ofNat 0 ∉ value.toList ∧
        (Text.utf8Bytes value).length ≤ tag.capacity
  | .element access => tag.kind.isArrayElement = true ∧ access.element.Stated

instance (tag : Tag) : (payload : Payload) → Decidable (tag.Stores payload)
  | .empty => inferInstanceAs (Decidable (_ = _))
  | .integer _ => inferInstanceAs (Decidable (_ ∧ _))
  | .float _ => inferInstanceAs (Decidable (_ = _))
  | .text _ => inferInstanceAs (Decidable (_ ∧ _ ∧ _))
  | .element _ => inferInstanceAs (Decidable (_ ∧ _))

theorem Tag.fieldSize_of_isNumeric {tag : Tag} (numeric : tag.kind.isNumeric = true) :
    tag.fieldSize = 1 ∨ tag.fieldSize = 2 ∨ tag.fieldSize = 4 := by
  revert numeric
  cases tag <;> decide

namespace Payload

/-- Every width that a numeric tag fixes is one that integers have. -/
theorem integerOfBytes_of_isNumeric {tag : Tag} (numeric : tag.kind.isNumeric = true)
    {stored : List UInt8} (length_eq : stored.length = tag.fieldSize) :
    integerOfBytes stored = .ok (LittleEndian.signedValue stored) := by
  have whole : (Reader.signed stored.length (Cursor.start stored.toArray)).1 =
      .ok (LittleEndian.signedValue stored) := by
    rw [Reader.signed, Reader.bind_apply, Reader.unsigned_start rfl]
    rfl
  unfold integerOfBytes
  rcases Tag.fieldSize_of_isNumeric numeric with width | width | width
  all_goals
    rw [width] at length_eq
    simp only [length_eq] at whole ⊢
    exact whole

theorem ofBytes_of_isNumeric {tag : Tag} (numeric : tag.kind.isNumeric = true)
    {stored : List UInt8} (length_eq : stored.length = tag.fieldSize) :
    ofBytes tag.kind stored = .ok (.integer (LittleEndian.signedValue stored)) := by
  have taken : ofBytes tag.kind stored = (integerOfBytes stored).map .integer := by
    cases kind_eq : tag.kind <;>
      simp_all [Kind.isNumeric, Kind.isVariable, Kind.isGlobal, Kind.isLocal, ofBytes]
  rw [taken, integerOfBytes_of_isNumeric numeric length_eq]
  rfl

theorem ofBytes_float {stored : List UInt8} (length_eq : stored.length = 4) :
    ofBytes .float stored = .ok (.float (UInt32.ofNat (LittleEndian.value stored))) := by
  rw [ofBytes, Reader.doubleWord, Reader.bind_apply, Reader.unsigned_start length_eq]
  rfl

theorem ofBytes_of_isArrayElement {kind : Kind} (element : kind.isArrayElement = true)
    (stored : List UInt8) :
    ofBytes kind stored = (ArrayAccess.ofBytes stored).map .element := by
  cases kind <;> simp_all [Kind.isArrayElement, ofBytes]

/-- Bytes that a tag admits always mean something: the sizes of the tags agree with what the kinds
take. -/
theorem exists_ofBytes_eq_ok {tag : Tag} {stored : List UInt8} (admitted : tag.Admits stored) :
    ∃ payload, ofBytes tag.kind stored = .ok payload := by
  by_cases numeric : tag.kind.isNumeric = true
  · have length_eq :=
      (Tag.admits_iff_of_kind_ne_string (Kind.ne_string_of_isNumeric numeric)).mp admitted
    exact ⟨_, ofBytes_of_isNumeric numeric length_eq⟩
  · by_cases isElement : tag.kind.isArrayElement = true
    · have complete :=
        (Tag.admits_iff_of_kind_ne_string (Kind.ne_string_of_isArrayElement isElement)).mp admitted
      rw [Tag.fieldSize_of_isArrayElement isElement] at complete
      obtain ⟨access, described⟩ := ArrayAccess.exists_bytes_eq complete
      rw [ofBytes_of_isArrayElement isElement,
        (ArrayAccess.ofBytes_eq_ok_iff complete).mpr described]
      exact ⟨.element access, rfl⟩
    · cases kind_eq : tag.kind with
      | terminator => exact ⟨.empty, rfl⟩
      | float =>
          have length_eq := (Tag.admits_iff_of_kind_ne_string (by simp [kind_eq])).mp admitted
          rw [Tag.fieldSize_of_float kind_eq] at length_eq
          exact ⟨_, ofBytes_float length_eq⟩
      | string => exact ⟨.text _, rfl⟩
      | _ => simp_all [Kind.isNumeric, Kind.isVariable, Kind.isGlobal, Kind.isLocal,
          Kind.isArrayElement]

/-- The bytes of a text fill the field that its tag fixes, or have a length that one byte holds. -/
theorem admits_bytes_text {tag : Tag} {value : String}
    (short : (Text.utf8Bytes value).length ≤ tag.capacity) :
    tag.Admits ((Payload.text value).bytes tag.fieldSize) := by
  have filled : ((Payload.text value).bytes tag.fieldSize).length =
      max (Text.utf8Bytes value).length tag.fieldSize := by
    rw [bytes, List.length_append, List.length_replicate]
    omega
  unfold Tag.Admits Tag.capacity Tag.fieldSize at *
  cases size : tag.payloadSize with
  | fixed size_eq =>
      simp only [size] at short filled ⊢
      rw [filled, Nat.max_eq_right short]
  | counted =>
      simp only [size] at short filled ⊢
      omega

/-- A payload that a tag stores has bytes that the tag admits and that mean this payload. -/
theorem ofBytes_bytes {tag : Tag} {payload : Payload} (stores : tag.Stores payload) :
    tag.Admits (payload.bytes tag.fieldSize) ∧
      ofBytes tag.kind (payload.bytes tag.fieldSize) = .ok payload := by
  cases payload with
  | empty =>
      have kind_eq : tag.kind = .terminator := stores
      have admitted := @Tag.admits_iff_of_kind_ne_string tag (by simp [kind_eq]) []
      constructor
      · exact admitted.mpr (Tag.fieldSize_of_terminator kind_eq).symm
      · rw [kind_eq]
        rfl
  | integer value =>
      rcases stores with ⟨numeric, inRange⟩
      have kind_ne := Kind.ne_string_of_isNumeric numeric
      have length_eq : ((Payload.integer value).bytes tag.fieldSize).length = tag.fieldSize := by
        rw [bytes, LittleEndian.signedBytes, LittleEndian.length_bytes]
      constructor
      · exact (Tag.admits_iff_of_kind_ne_string kind_ne).mpr length_eq
      · rw [ofBytes_of_isNumeric numeric length_eq, bytes,
          LittleEndian.signedValue_signedBytes inRange]
  | float bits =>
      have kind_eq : tag.kind = .float := stores
      constructor
      · apply (Tag.admits_iff_of_kind_ne_string (by simp [kind_eq])).mpr
        rw [bytes, LittleEndian.length_bytes, Tag.fieldSize_of_float kind_eq]
      · have fits : bits.toNat < 256 ^ 4 := bits.toNat_lt
        rw [kind_eq, bytes, ofBytes_float (LittleEndian.length_bytes 4 _), LittleEndian.value_bytes,
          Nat.mod_eq_of_lt fits, UInt32.ofNat_toNat]
  | text value =>
      rcases stores with ⟨kind_eq, nonzero, short⟩
      constructor
      · exact admits_bytes_text short
      · rw [kind_eq, bytes, ofBytes, upToZero_append_replicate (Text.zero_notMem_utf8Bytes nonzero),
          Text.ofBytesLossy_utf8Bytes]
  | element access =>
      rcases stores with ⟨isElement, stated⟩
      have kind_ne := Kind.ne_string_of_isArrayElement isElement
      constructor
      · apply (Tag.admits_iff_of_kind_ne_string kind_ne).mpr
        rw [bytes, ArrayAccess.length_bytes, Tag.fieldSize_of_isArrayElement isElement]
        rfl
      · rw [ofBytes_of_isArrayElement isElement, bytes,
          (ArrayAccess.ofBytes_eq_ok_iff access.length_bytes).mpr ⟨stated, rfl⟩]
        rfl

/-- What was read behind a tag other than that of a string has the bytes it was read from. -/
theorem bytes_of_ofBytes {tag : Tag} {stored : List UInt8} {payload : Payload}
    (kind_ne : tag.kind ≠ .string) (admitted : tag.Admits stored)
    (success : ofBytes tag.kind stored = .ok payload) :
    payload.bytes tag.fieldSize = stored := by
  have length_eq := (Tag.admits_iff_of_kind_ne_string kind_ne).mp admitted
  by_cases numeric : tag.kind.isNumeric = true
  · rw [ofBytes_of_isNumeric numeric length_eq] at success
    cases success
    rw [bytes, ← length_eq, LittleEndian.signedBytes_signedValue]
  · by_cases isElement : tag.kind.isArrayElement = true
    · rw [ofBytes_of_isArrayElement isElement] at success
      cases described : ArrayAccess.ofBytes stored with
      | error error =>
          rw [described] at success
          cases success
      | ok access =>
          rw [described] at success
          cases success
          rw [Tag.fieldSize_of_isArrayElement isElement] at length_eq
          exact ((ArrayAccess.ofBytes_eq_ok_iff length_eq).mp described).2.symm
    · cases kind_eq : tag.kind with
      | terminator =>
          rw [kind_eq] at success
          cases success
          rw [Tag.fieldSize_of_terminator kind_eq] at length_eq
          exact (List.length_eq_zero_iff.mp length_eq).symm
      | float =>
          rw [Tag.fieldSize_of_float kind_eq] at length_eq
          rw [kind_eq, ofBytes_float length_eq] at success
          cases success
          have small : LittleEndian.value stored < 2 ^ 32 := by
            have bound := LittleEndian.value_lt stored
            rwa [length_eq] at bound
          rw [bytes, UInt32.toNat_ofNat', Nat.mod_eq_of_lt small,
            LittleEndian.bytes_value_of_length length_eq]
      | string => exact absurd kind_eq kind_ne
      | _ => simp_all [Kind.isNumeric, Kind.isVariable, Kind.isGlobal, Kind.isLocal,
          Kind.isArrayElement]

end Payload

namespace Operand

/-- An operand that can be stored: it has the kind of its tag, and its tag stores its payload. -/
structure Storable (operand : Operand) : Prop where
  kind_eq : operand.kind = operand.tag.kind
  stores : operand.tag.Stores operand.payload

instance (operand : Operand) : Decidable operand.Storable :=
  decidable_of_iff (operand.kind = operand.tag.kind ∧ operand.tag.Stores operand.payload)
    ⟨fun parts => ⟨parts.1, parts.2⟩, fun storable => ⟨storable.kind_eq, storable.stores⟩⟩

theorem bytes_eq (operand : Operand) :
    operand.bytes =
      operand.tag.code :: operand.tag.framed (operand.payload.bytes operand.tag.fieldSize) := by
  unfold bytes Tag.framed Tag.fieldSize
  cases operand.tag.payloadSize <;> rfl

theorem readBehind_eq_ok_iff {tag : Tag} {operand : Operand} {cursor after : Cursor} :
    readBehind tag cursor = (.ok operand, after) ↔
      ∃ stored payload, operand = ofTag tag payload ∧ tag.Admits stored ∧
        Payload.ofBytes tag.kind stored = .ok payload ∧
        cursor.Passes (tag.framed stored) after := by
  simp only [readBehind, Reader.bind_eq_ok_iff, Tag.readPayload_eq_ok_iff, Reader.ofExcept_apply,
    Reader.pure_apply, Prod.mk.injEq, Except.ok.injEq]
  constructor
  · rintro ⟨stored, middle, ⟨admitted, passage⟩, payload, after, ⟨meaning, rfl⟩, rfl, rfl⟩
    exact ⟨stored, payload, rfl, admitted, meaning, passage⟩
  · rintro ⟨stored, payload, rfl, admitted, meaning, passage⟩
    exact ⟨stored, after, ⟨admitted, passage⟩, payload, after, ⟨meaning, rfl⟩, rfl, rfl⟩

/-- An operand is read exactly where its tag stands with a framed payload of this meaning. -/
theorem read_eq_ok_iff {operand : Operand} {cursor after : Cursor} :
    read cursor = (.ok operand, after) ↔
      operand.kind = operand.tag.kind ∧
        ∃ stored, operand.tag.Admits stored ∧
          Payload.ofBytes operand.tag.kind stored = .ok operand.payload ∧
          cursor.Passes (operand.tag.code :: operand.tag.framed stored) after := by
  rw [read, Reader.bind_eq_ok_iff]
  constructor
  · rintro ⟨tag, middle, tagRead, behind⟩
    rcases readBehind_eq_ok_iff.mp behind with ⟨stored, payload, rfl, admitted, meaning, passage⟩
    refine ⟨rfl, stored, admitted, meaning, ?_⟩
    exact Cursor.passes_cons_iff.mpr ⟨middle, Tag.read_eq_ok_iff.mp tagRead, passage⟩
  · rintro ⟨kind_eq, stored, admitted, meaning, passage⟩
    rcases Cursor.passes_cons_iff.mp passage with ⟨middle, tagStands, payloadStands⟩
    refine ⟨operand.tag, middle, Tag.read_eq_ok_iff.mpr tagStands, ?_⟩
    apply readBehind_eq_ok_iff.mpr
    refine ⟨stored, operand.payload, ?_, admitted, meaning, payloadStands⟩
    rw [ofTag, ← kind_eq]

/-- The bytes of a storable operand are read as this operand. -/
theorem read_of_passes {operand : Operand} {cursor after : Cursor} (storable : operand.Storable)
    (passage : cursor.Passes operand.bytes after) : read cursor = (.ok operand, after) := by
  rcases Payload.ofBytes_bytes storable.stores with ⟨admitted, meaning⟩
  rw [bytes_eq] at passage
  exact read_eq_ok_iff.mpr ⟨storable.kind_eq, _, admitted, meaning, passage⟩

/-- An operand that was read and is no string stands in the script in its bytes. -/
theorem passes_of_read {operand : Operand} {cursor after : Cursor}
    (success : read cursor = (.ok operand, after)) (kind_ne : operand.kind ≠ .string) :
    cursor.Passes operand.bytes after := by
  rcases read_eq_ok_iff.mp success with ⟨kind_eq, stored, admitted, meaning, passage⟩
  rw [kind_eq] at kind_ne
  rwa [bytes_eq, Payload.bytes_of_ofBytes kind_ne admitted meaning]

end Operand

end ScriptDisassembler
