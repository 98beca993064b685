import ScriptDisassembler.Proofs.Operand.Failure
import ScriptDisassembler.Proofs.Operand.Meaning

/-!
# The grammar of operands

`Layout.all` is the format of operands as a table: for each tag byte the tag, its kind, and the size
of the payload.  From it `Operand.Frames` tells where the payload of an operand lies among the bytes
behind a cursor, and `Operand.Field` which fields are looked for one after another.

`Operand.read_iff` says that reading does what the table says: an operand is read exactly if all its
fields are there, and otherwise the first one that is not there is missed.
-/

namespace ScriptDisassembler

/-- One line of the operand format. -/
structure Layout where
  /-- The tag. -/
  tag : Tag
  /-- What an operand with this tag stands for. -/
  kind : Kind
  /-- How long the payload behind the tag is. -/
  size : PayloadSize
deriving DecidableEq

namespace Layout

/-- The operand format, in the order of the tag bytes. -/
def all : List Layout :=
  [⟨.endOfArguments, .terminator, .fixed 0⟩,
    ⟨.signed32, .integer, .fixed 4⟩,
    ⟨.global32, .globalScalar, .fixed 2⟩,
    ⟨.local32, .localScalar, .fixed 2⟩,
    ⟨.signed8, .integer, .fixed 1⟩,
    ⟨.signed16, .integer, .fixed 2⟩,
    ⟨.float32, .float, .fixed 4⟩,
    ⟨.global32Element, .globalArray, .fixed 6⟩,
    ⟨.local32Element, .localArray, .fixed 6⟩,
    ⟨.string8, .string, .fixed 8⟩,
    ⟨.globalString8, .globalString, .fixed 2⟩,
    ⟨.localString8, .localString, .fixed 2⟩,
    ⟨.globalString8Element, .globalStringArray, .fixed 6⟩,
    ⟨.localString8Element, .localStringArray, .fixed 6⟩,
    ⟨.variableString, .string, .counted⟩,
    ⟨.string16, .string, .fixed 16⟩,
    ⟨.globalString16, .globalString, .fixed 2⟩,
    ⟨.localString16, .localString, .fixed 2⟩,
    ⟨.globalString16Element, .globalStringArray, .fixed 6⟩,
    ⟨.localString16Element, .localStringArray, .fixed 6⟩]

/-- The line of a tag byte. -/
def ofCode? (code : UInt8) : Option Layout :=
  all[code.toNat]?

/-- The line that holds of a tag what is stated of it elsewhere. -/
def ofTag (tag : Tag) : Layout :=
  ⟨tag, tag.kind, tag.payloadSize⟩

/-- Tags, kinds and sizes are those of the table. -/
theorem all_eq : all = Tag.all.map ofTag :=
  rfl

theorem ofCode?_eq (code : UInt8) : ofCode? code = (Tag.ofCode? code).map ofTag := by
  rw [ofCode?, all_eq, List.getElem?_map, Tag.ofCode?]

theorem ofCode?_eq_some_iff {code : UInt8} {layout : Layout} :
    ofCode? code = some layout ↔ ∃ tag, code = tag.code ∧ layout = ofTag tag := by
  rw [ofCode?_eq, Option.map_eq_some_iff]
  simp only [Tag.ofCode?_eq_some_iff, @eq_comm _ layout]

/-- Bytes past the last line are no tags. -/
theorem ofCode?_eq_none_iff {code : UInt8} : ofCode? code = none ↔ 0x13 < code := by
  rw [ofCode?_eq, Option.map_eq_none_iff, Tag.ofCode?_eq_none_iff, UInt8.lt_iff_toNat_lt]
  rfl

end Layout

namespace Tag

variable {tag : Tag}

theorem readPayload_of_fixed {size : Nat} (fixed : tag.payloadSize = .fixed size) :
    tag.readPayload = Reader.bytes size := by
  simp only [readPayload, fixed]

theorem readPayload_of_counted (counted : tag.payloadSize = .counted) :
    tag.readPayload = (do Reader.bytes (← Reader.byte).toNat) := by
  simp only [readPayload, counted]

end Tag

namespace Operand

/-- Whether bytes begin an operand of a layout whose payload is to stand behind `front` of them and
to have `size` bytes, which need not be there. -/
inductive Frames : List UInt8 → Layout → Nat → Nat → Prop
  | fixed {code : UInt8} {behind : List UInt8} {layout : Layout} {size : Nat}
      (known : Layout.ofCode? code = some layout) (fixed : layout.size = .fixed size) :
      Frames (code :: behind) layout 1 size
  | counted {code length : UInt8} {behind : List UInt8} {layout : Layout}
      (known : Layout.ofCode? code = some layout) (counted : layout.size = .counted) :
      Frames (code :: length :: behind) layout 2 length.toNat

/-- Whether bytes begin an operand of which a field of `size` bytes is to stand behind `front` of
them.  What stands in front of a field tells that there is one. -/
inductive Field : List UInt8 → Nat → Nat → Prop
  | tag (bytes : List UInt8) : Field bytes 0 1
  | length {code : UInt8} {behind : List UInt8} {layout : Layout}
      (known : Layout.ofCode? code = some layout) (counted : layout.size = .counted) :
      Field (code :: behind) 1 1
  | payload {bytes : List UInt8} {layout : Layout} {front size : Nat}
      (frames : Frames bytes layout front size) : Field bytes front size

theorem Frames.front_le {bytes : List UInt8} {layout : Layout} {front size : Nat}
    (frames : Frames bytes layout front size) : front ≤ bytes.length := by
  cases frames <;> simp

/-- Bytes are too few for a tag, or begin with no tag, or are too few for a length, or tell where
the payload is to stand. -/
theorem exists_frames_or (bytes : List UInt8) :
    bytes = [] ∨ (∃ code behind, bytes = code :: behind ∧ 0x13 < code) ∨
      (∃ code layout, bytes = [code] ∧ Layout.ofCode? code = some layout ∧
        layout.size = .counted) ∨
      ∃ layout front size, Frames bytes layout front size := by
  match bytes with
  | [] => exact .inl rfl
  | code :: behind =>
      right
      cases known : Layout.ofCode? code with
      | none => exact .inl ⟨code, behind, rfl, Layout.ofCode?_eq_none_iff.mp known⟩
      | some layout =>
          right
          cases size_eq : layout.size with
          | fixed size => exact .inr ⟨layout, 1, size, .fixed known size_eq⟩
          | counted =>
              match behind with
              | [] => exact .inl ⟨code, layout, rfl, known, size_eq⟩
              | length :: behind => exact .inr ⟨layout, 2, _, .counted known size_eq⟩

variable {cursor : Cursor} {code : UInt8} {behind : List UInt8} {layout : Layout}
  {front size : Nat}

/-! ## Reading by the first byte -/

theorem read_of_rest_nil (nothing : cursor.rest = []) :
    read cursor = (.error (cursor.shortfall 1), cursor) := by
  have absent : cursor.data[cursor.position]? = none := by
    have done := Cursor.hasMore_eq_false_iff.mpr nothing
    simpa [Cursor.hasMore] using done
  rw [read, Reader.bind_apply, Tag.read_apply, absent]

/-- The byte that stands first behind a cursor is the one at its position. -/
theorem getElem?_of_rest_cons (rest_eq : cursor.rest = code :: behind) :
    cursor.data[cursor.position]? = some code :=
  (Reader.byte_eq_ok_iff.mp
    (Reader.byte_eq_ok_iff_passes.mpr (@Cursor.passes_advance cursor [code] behind rest_eq).1)).1

theorem read_of_unknown (rest_eq : cursor.rest = code :: behind) (unknown : 0x13 < code) :
    read cursor = (.error (.invalidTag code), cursor.advance 1) := by
  have noTag : Tag.ofCode? code = none := by
    rw [← Option.map_eq_none_iff, ← Layout.ofCode?_eq]
    exact Layout.ofCode?_eq_none_iff.mpr unknown
  rw [read, Reader.bind_apply, Tag.read_apply, getElem?_of_rest_cons rest_eq]
  simp only [noTag]

theorem read_of_known (rest_eq : cursor.rest = code :: behind)
    (known : Layout.ofCode? code = some layout) :
    read cursor = readBehind layout.tag (cursor.advance 1) := by
  obtain ⟨tag, rfl, rfl⟩ := Layout.ofCode?_eq_some_iff.mp known
  have passage := (@Cursor.passes_advance cursor [tag.code] behind rest_eq).1
  rw [read, Reader.bind_apply, Tag.read_eq_ok_iff.mpr passage]
  rfl

/-! ## Reading the payload -/

theorem read_of_rest_singleton (rest_eq : cursor.rest = [code])
    (known : Layout.ofCode? code = some layout) (counted : layout.size = .counted) :
    read cursor = (.error ((cursor.advance 1).shortfall 1), cursor.advance 1) := by
  rw [read_of_known rest_eq known]
  obtain ⟨tag, rfl, rfl⟩ := Layout.ofCode?_eq_some_iff.mp known
  have nothing : (cursor.advance 1).remaining < 1 := by
    rw [← Cursor.length_rest, Cursor.rest_advance, rest_eq]
    exact Nat.zero_lt_one
  have noLength : Reader.byte (cursor.advance 1) =
      (.error ((cursor.advance 1).shortfall 1), cursor.advance 1) := by
    rw [Reader.byte, Reader.bind_apply, Reader.unsigned_eq_bytes, Reader.bytes_of_lt nothing]
    rfl
  have payload_eq : (Layout.ofTag tag).tag.readPayload =
      (do Reader.bytes (← Reader.byte).toNat) := Tag.readPayload_of_counted counted
  rw [readBehind, Reader.bind_apply, payload_eq, Reader.bind_apply, noLength]

/-- The payload is read as so many bytes where the layout puts it. -/
theorem readPayload_of_frames (frames : Frames cursor.rest layout front size) :
    read cursor = readBehind layout.tag (cursor.advance 1) ∧ layout.kind = layout.tag.kind ∧
      layout.tag.readPayload (cursor.advance 1) = Reader.bytes size (cursor.advance front) := by
  generalize rest_eq : cursor.rest = bytes at frames
  cases frames with
  | fixed known fixed =>
      refine ⟨read_of_known rest_eq known, ?_⟩
      obtain ⟨tag, rfl, rfl⟩ := Layout.ofCode?_eq_some_iff.mp known
      exact ⟨rfl, congrFun (Tag.readPayload_of_fixed fixed) _⟩
  | @counted code length behind layout known counted =>
      refine ⟨read_of_known rest_eq known, ?_⟩
      obtain ⟨tag, rfl, rfl⟩ := Layout.ofCode?_eq_some_iff.mp known
      have behindTag := (@Cursor.passes_advance cursor [tag.code] _ rest_eq).2
      have lengthStands := (@Cursor.passes_advance _ [length] behind behindTag).1
      -- The length is read first, and then as many bytes as it says.
      have length_eq : Reader.byte (cursor.advance 1) =
          (.ok length, (cursor.advance 1).advance 1) :=
        Reader.byte_eq_ok_iff_passes.mpr lengthStands
      have payload_eq : (Layout.ofTag tag).tag.readPayload =
          (do Reader.bytes (← Reader.byte).toNat) := Tag.readPayload_of_counted counted
      refine ⟨rfl, ?_⟩
      rw [payload_eq, Reader.bind_apply, length_eq]
      rfl

/-- A payload that is there is read, with the meaning of its bytes. -/
theorem exists_read_of_frames (frames : Frames cursor.rest layout front size)
    (fits : front + size ≤ cursor.remaining) :
    ∃ payload : Payload,
      read cursor = (.ok ⟨layout.tag, layout.kind, payload⟩, cursor.advance (front + size)) ∧
        payload.Means layout.kind ((cursor.rest.drop front).take size) := by
  obtain ⟨read_eq, kind_eq, bytes_eq⟩ := readPayload_of_frames frames
  have room : size ≤ (cursor.advance front).remaining := by
    simp only [Cursor.remaining, Cursor.advance] at fits ⊢
    omega
  rw [Reader.bytes_of_le room, Cursor.rest_advance, Cursor.advance_advance] at bytes_eq
  have admitted := (Tag.readPayload_eq_ok_iff.mp bytes_eq).1
  obtain ⟨payload, meaning⟩ := Payload.exists_ofBytes_eq_ok admitted
  refine ⟨payload, ?_, ?_⟩
  · rw [read_eq, readBehind, Reader.bind_apply, bytes_eq]
    simp only [Reader.bind_apply, Reader.ofExcept_apply, meaning, Reader.pure_apply, ofTag,
      kind_eq]
  · rw [kind_eq]
    exact (Payload.ofBytes_eq_ok_iff_means admitted).mp meaning

/-- A payload that is not there as a whole is missed where it is to stand. -/
theorem read_of_frames_of_lt (frames : Frames cursor.rest layout front size)
    (short : cursor.remaining < front + size) :
    read cursor = (.error ((cursor.advance front).shortfall size), cursor.advance front) := by
  obtain ⟨read_eq, -, bytes_eq⟩ := readPayload_of_frames frames
  have missing : (cursor.advance front).remaining < size := by
    have inside := frames.front_le
    rw [Cursor.length_rest] at inside
    simp only [Cursor.remaining, Cursor.advance] at inside short ⊢
    omega
  rw [read_eq, readBehind, Reader.bind_apply, bytes_eq, Reader.bytes_of_lt missing]

/-- The failure that a field behind `front` bytes is not there as a whole. -/
theorem shortfall_advance (cursor : Cursor) (front requested : Nat) :
    (cursor.advance front).shortfall requested =
      .truncated (cursor.position + front) requested (cursor.remaining - front) := by
  simp only [Cursor.shortfall, Cursor.advance, Cursor.remaining, Nat.sub_add_eq]

/-- A field that is not there as a whole is missed where it is to stand. -/
theorem read_of_field_of_lt {requested : Nat} (field : Field cursor.rest front requested)
    (short : cursor.remaining < front + requested) :
    read cursor =
      (.error (.truncated (cursor.position + front) requested (cursor.remaining - front)),
        cursor.advance front) := by
  rw [← shortfall_advance]
  rw [← Cursor.length_rest] at short
  generalize rest_eq : cursor.rest = bytes at field short
  cases field with
  | tag =>
      have nothing : cursor.rest = [] := by
        rw [rest_eq, ← List.length_eq_zero_iff]
        omega
      exact read_of_rest_nil nothing
  | @length code behind layout known counted =>
      have alone : behind = [] := by
        rw [← List.length_eq_zero_iff]
        simp only [List.length_cons] at short
        omega
      rw [alone] at rest_eq
      exact read_of_rest_singleton rest_eq known counted
  | payload frames =>
      rw [← rest_eq] at frames short
      exact read_of_frames_of_lt frames (by rwa [Cursor.length_rest] at short)

/-- What reading does in its three cases: the operand is there as a whole, or the first byte is no
tag, or a field is not there as a whole. -/
theorem read_cases (cursor : Cursor) :
    (∃ layout front size, ∃ payload : Payload, Frames cursor.rest layout front size ∧
        front + size ≤ cursor.remaining ∧
        payload.Means layout.kind ((cursor.rest.drop front).take size) ∧
        read cursor = (.ok ⟨layout.tag, layout.kind, payload⟩, cursor.advance (front + size))) ∨
      (∃ code behind, cursor.rest = code :: behind ∧ 0x13 < code ∧
        read cursor = (.error (.invalidTag code), cursor.advance 1)) ∨
      ∃ front requested, Field cursor.rest front requested ∧
        cursor.remaining < front + requested ∧
        read cursor =
          (.error (.truncated (cursor.position + front) requested (cursor.remaining - front)),
            cursor.advance front) := by
  have missed {front requested : Nat} (field : Field cursor.rest front requested)
      (short : cursor.rest.length < front + requested) :
      ∃ front requested, Field cursor.rest front requested ∧
        cursor.remaining < front + requested ∧
        read cursor =
          (.error (.truncated (cursor.position + front) requested (cursor.remaining - front)),
            cursor.advance front) := by
    rw [Cursor.length_rest] at short
    exact ⟨front, requested, field, short, read_of_field_of_lt field short⟩
  rcases exists_frames_or cursor.rest with nothing | ⟨code, behind, rest_eq, unknown⟩ |
    ⟨code, layout, rest_eq, known, counted⟩ | ⟨layout, front, size, frames⟩
  · refine .inr (.inr (missed (.tag cursor.rest) ?_))
    rw [nothing]
    exact Nat.zero_lt_one
  · exact .inr (.inl ⟨code, behind, rest_eq, unknown, read_of_unknown rest_eq unknown⟩)
  · refine .inr (.inr (missed (rest_eq ▸ .length known counted : Field cursor.rest 1 1) ?_))
    rw [rest_eq]
    exact Nat.lt_succ_self 1
  · by_cases fits : front + size ≤ cursor.remaining
    · obtain ⟨payload, success, meant⟩ := exists_read_of_frames frames fits
      exact .inl ⟨layout, front, size, payload, frames, fits, meant, success⟩
    · rw [← Cursor.length_rest] at fits
      exact .inr (.inr (missed (.payload frames) (Nat.not_le.mp fits)))

theorem read_ok_iff_frames {operand : Operand} {after : Cursor} :
    read cursor = (.ok operand, after) ↔
      ∃ layout front size, Frames cursor.rest layout front size ∧
        front + size ≤ cursor.remaining ∧ after = cursor.advance (front + size) ∧
        operand.tag = layout.tag ∧ operand.kind = layout.kind ∧
        operand.payload.Means layout.kind ((cursor.rest.drop front).take size) := by
  constructor
  · intro success
    rcases read_cases cursor with ⟨layout, front, size, payload, frames, fits, meant, read_eq⟩ |
      ⟨code, behind, -, -, read_eq⟩ | ⟨front, requested, -, -, read_eq⟩
    · rw [read_eq] at success
      cases success
      exact ⟨layout, front, size, frames, fits, rfl, rfl, rfl, meant⟩
    · rw [read_eq] at success
      cases success
    · rw [read_eq] at success
      cases success
  · rintro ⟨layout, front, size, frames, fits, rfl, tag_eq, kind_eq, meant⟩
    obtain ⟨payload, success, alsoMeant⟩ := exists_read_of_frames frames fits
    rw [success, ← tag_eq, ← kind_eq, alsoMeant.eq meant]

theorem read_error_iff_field {error : Error} {after : Cursor} :
    read cursor = (.error error, after) ↔
      (∃ code behind, cursor.rest = code :: behind ∧ 0x13 < code ∧
          error = .invalidTag code ∧ after = cursor.advance 1) ∨
        ∃ front requested, Field cursor.rest front requested ∧
          cursor.remaining < front + requested ∧
          error = .truncated (cursor.position + front) requested (cursor.remaining - front) ∧
          after = cursor.advance front := by
  constructor
  · intro failure
    rcases read_cases cursor with ⟨layout, front, size, payload, -, -, -, read_eq⟩ |
      ⟨code, behind, rest_eq, unknown, read_eq⟩ | ⟨front, requested, field, short, read_eq⟩
    · rw [read_eq] at failure
      cases failure
    · rw [read_eq] at failure
      cases failure
      exact .inl ⟨code, behind, rest_eq, unknown, rfl, rfl⟩
    · rw [read_eq] at failure
      cases failure
      exact .inr ⟨front, requested, field, short, rfl, rfl⟩
  · rintro (⟨code, behind, rest_eq, unknown, rfl, rfl⟩ |
      ⟨front, requested, field, short, rfl, rfl⟩)
    · exact read_of_unknown rest_eq unknown
    · exact read_of_field_of_lt field short

/-! ## Main result -/

/-- An operand is read exactly if its first byte is a tag and its payload is there as a whole; it
takes all bytes up to the end of the payload and has the tag and kind of its layout and the payload
that the bytes mean.  Otherwise either the first byte is no tag and the cursor stands behind it, or a
field is not there as a whole and the cursor stands in front of it. -/
theorem read_iff (cursor : Cursor) :
    ((∃ operand after, read cursor = (.ok operand, after)) ↔
        ∃ layout front size, Frames cursor.rest layout front size ∧
          front + size ≤ cursor.remaining) ∧
      (∀ operand after, read cursor = (.ok operand, after) ↔
        ∃ layout front size, Frames cursor.rest layout front size ∧
          front + size ≤ cursor.remaining ∧ after = cursor.advance (front + size) ∧
          operand.tag = layout.tag ∧ operand.kind = layout.kind ∧
          operand.payload.Means layout.kind ((cursor.rest.drop front).take size)) ∧
      ∀ error after, read cursor = (.error error, after) ↔
        (∃ code behind, cursor.rest = code :: behind ∧ 0x13 < code ∧
            error = .invalidTag code ∧ after = cursor.advance 1) ∨
          ∃ front requested, Field cursor.rest front requested ∧
            cursor.remaining < front + requested ∧
            error = .truncated (cursor.position + front) requested (cursor.remaining - front) ∧
            after = cursor.advance front := by
  refine ⟨⟨?_, ?_⟩, fun _ _ => read_ok_iff_frames, fun _ _ => read_error_iff_field⟩
  · rintro ⟨operand, after, success⟩
    obtain ⟨layout, front, size, frames, fits, -⟩ := read_ok_iff_frames.mp success
    exact ⟨layout, front, size, frames, fits⟩
  · rintro ⟨layout, front, size, frames, fits⟩
    obtain ⟨payload, success, -⟩ := exists_read_of_frames frames fits
    exact ⟨_, _, success⟩

end Operand

end ScriptDisassembler
