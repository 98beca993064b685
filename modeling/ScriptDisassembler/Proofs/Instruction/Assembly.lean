import ScriptDisassembler.Instruction.Stream
import ScriptDisassembler.Proofs.Instruction.Stored

/-!
# Assembled scripts

Decoding and assembling are inverse to each other.  A script assembled from storable instructions
is decoded as those instructions, each at its place.  A script that is decoded, and of which no
string was read, is what its instructions assemble to.  Both go by `Decoder.DecodesThrough`, the run
of the decoder from one cursor to another: one instruction is a step, and a whole script an
induction over the run.
-/

namespace ScriptDisassembler

namespace Decoder

/-- The instructions that are decoded one after another from a cursor up to a later one, and what
is noticed on the way. -/
inductive DecodesThrough (decoder : Decoder) :
    Cursor → List Instruction → List Notice → Cursor → Prop
  | nil (cursor : Cursor) : DecodesThrough decoder cursor [] [] cursor
  | cons {cursor middle after : Cursor} {instruction : Instruction}
      {instructions : List Instruction} {noticed later : List Notice}
      (head : decoder.decode cursor = ⟨.ok instruction, middle, noticed⟩)
      (tail : DecodesThrough decoder middle instructions later after) :
      DecodesThrough decoder cursor (instruction :: instructions) (noticed ++ later) after

/-- A script is decoded to its end by decoding through it. -/
theorem decodeAll_eq_ok_iff {decoder : Decoder} {cursor after : Cursor}
    {instructions : List Instruction} {notices : List Notice} :
    decoder.decodeAll cursor = ⟨.ok instructions, after, notices⟩ ↔
      decoder.DecodesThrough cursor instructions notices after ∧ after.hasMore = false := by
  constructor
  · intro success
    induction instructions generalizing cursor notices with
    | nil =>
        rw [decodeAll_eq] at success
        split at success
        · split at success
          · rename_i instruction _
            cases rest : (decoder.decodeAll (decoder.decode cursor).cursor).result with
            | error error => simp [rest, Except.map] at success
            | ok others => simp [rest, Except.map] at success
          · cases success
        · rename_i done
          cases success
          exact ⟨.nil after, by simpa using done⟩
    | cons instruction instructions ih =>
        rw [decodeAll_eq] at success
        split at success
        · rcases head : decoder.decode cursor with ⟨result, middle, noticed⟩
          rw [head] at success
          cases result with
          | error error => cases success
          | ok first =>
              rcases tail : decoder.decodeAll middle with ⟨rest, last, later⟩
              simp only [tail] at success
              cases rest with
              | error error => cases success
              | ok others =>
                  cases success
                  rcases ih tail with ⟨through, done⟩
                  exact ⟨.cons head through, done⟩
        · cases success
  · rintro ⟨through, done⟩
    induction through with
    | nil cursor =>
        rw [decodeAll_eq, if_neg (by simp [done])]
    | cons head tail ih =>
        rw [decodeAll_eq, if_pos (hasMore_of_decode (congrArg Decoding.result head)), head]
        simp only [ih done, Except.map]

end Decoder

namespace Lookup

/-- Instructions with the places and sizes that they have one behind the other. -/
def placed (lookup : Lookup) : Nat → List Instruction → List Instruction
  | _, [] => []
  | position, instruction :: instructions =>
      let size := (instruction.bytes lookup).length
      { instruction with offset := position, size := size } ::
        lookup.placed (position + size) instructions

theorem assemble_cons (lookup : Lookup) (instruction : Instruction)
    (instructions : List Instruction) :
    lookup.assemble (instruction :: instructions) =
      instruction.bytes lookup ++ lookup.assemble instructions :=
  rfl

end Lookup

/-- What an instruction says, wherever it stands. -/
def Instruction.content (instruction : Instruction) : UInt16 × Bool × List Operand :=
  (instruction.opcode, instruction.inverted, instruction.operands)

theorem Lookup.map_content_placed (lookup : Lookup) (position : Nat)
    (instructions : List Instruction) :
    (lookup.placed position instructions).map Instruction.content =
      instructions.map Instruction.content := by
  induction instructions generalizing position with
  | nil => rfl
  | cons instruction instructions ih =>
      simp only [placed, List.map_cons, ih]
      rfl

namespace Decoder

theorem decodesThrough_of_passes {decoder : Decoder}
    (lenient : decoder.unknownOpcodes = .lenient) {instructions : List Instruction}
    (storable : ∀ instruction ∈ instructions, instruction.Storable decoder.lookup)
    {cursor after : Cursor}
    (passage : cursor.Passes (decoder.lookup.assemble instructions) after) :
    ∃ notices, decoder.DecodesThrough cursor
      (decoder.lookup.placed cursor.position instructions) notices after := by
  induction instructions generalizing cursor with
  | nil =>
      rw [Cursor.passes_nil_iff.mp passage]
      exact ⟨[], .nil cursor⟩
  | cons instruction instructions ih =>
      rw [Lookup.assemble_cons] at passage
      rcases Cursor.passes_append_iff.mp passage with ⟨middle, first, others⟩
      obtain ⟨noticed, head⟩ :=
        decode_of_passes lenient (storable instruction List.mem_cons_self) first
      obtain ⟨later, tail⟩ :=
        ih (fun other member => storable other (List.mem_cons_of_mem instruction member)) others
      rw [first.position_eq] at tail
      exact ⟨noticed ++ later, .cons head tail⟩

theorem DecodesThrough.passes {decoder : Decoder} {cursor after : Cursor}
    {instructions : List Instruction} {notices : List Notice}
    (through : decoder.DecodesThrough cursor instructions notices after)
    (noString : ∀ instruction ∈ instructions, ∀ operand ∈ instruction.operands,
      operand.kind ≠ .string) :
    cursor.Passes (decoder.lookup.assemble instructions) after := by
  induction through with
  | nil cursor => exact Cursor.passes_nil_iff.mpr rfl
  | @cons cursor middle after instruction instructions noticed later head tail ih =>
      have first := passes_of_decode head (noString instruction List.mem_cons_self)
      have rest := ih fun other member => noString other (List.mem_cons_of_mem instruction member)
      exact first.trans rest

/-- The bytes of storable instructions are decoded to their end. -/
theorem decodeAll_of_storable (lookup : Lookup) {instructions : List Instruction}
    (storable : ∀ instruction ∈ instructions, instruction.Storable lookup) :
    ∃ notices, (Decoder.mk lookup .lenient).decodeAll
        (Cursor.start (lookup.assemble instructions).toArray) =
      ⟨.ok (lookup.placed 0 instructions),
        ⟨(lookup.assemble instructions).toArray, (lookup.assemble instructions).length⟩,
        notices⟩ := by
  have passage := Cursor.passes_start (lookup.assemble instructions)
  obtain ⟨notices, through⟩ :=
    @decodesThrough_of_passes ⟨lookup, .lenient⟩ rfl instructions storable _ _ passage
  refine ⟨notices, decodeAll_eq_ok_iff.mpr ⟨through, ?_⟩⟩
  simp [Cursor.hasMore]

/-- A script that was decoded without strings consists of the bytes of its instructions. -/
theorem assemble_eq_of_decodeAll {decoder : Decoder} {script : Array UInt8}
    {instructions : List Instruction}
    (success : (decoder.decodeAll (Cursor.start script)).result = .ok instructions)
    (noString : ∀ instruction ∈ instructions, ∀ operand ∈ instruction.operands,
      operand.kind ≠ .string) :
    decoder.lookup.assemble instructions = script.toList := by
  rcases outcome : decoder.decodeAll (Cursor.start script) with ⟨result, after, notices⟩
  rw [outcome] at success
  cases success
  rcases decodeAll_eq_ok_iff.mp outcome with ⟨through, done⟩
  have passage := through.passes noString
  have rest_eq := passage.rest_eq
  rw [Cursor.hasMore_eq_false_iff.mp done, List.append_nil] at rest_eq
  exact rest_eq.symm

/-! ## Main results -/

/-- Decoding undoes assembling.  The bytes of storable instructions are decoded to their end, as
instructions that say the same and stand one behind the other from the first byte on. -/
theorem decodeAll_assemble (lookup : Lookup) (instructions : List Instruction)
    (storable : ∀ instruction ∈ instructions, instruction.Storable lookup) :
    let script := (lookup.assemble instructions).toArray
    let decoding := (Decoder.mk lookup .lenient).decodeAll (Cursor.start script)
    decoding.result = .ok (lookup.placed 0 instructions) ∧
      (lookup.placed 0 instructions).map Instruction.content =
        instructions.map Instruction.content ∧
      decoding.cursor = ⟨script, script.size⟩ := by
  rcases decodeAll_of_storable lookup storable with ⟨notices, success⟩
  refine ⟨?_, lookup.map_content_placed 0 instructions, ?_⟩
  · rw [success]
  · rw [success, List.size_toArray]

/-- Two operands of which the second is an end marker, an open-ended list with strings of all
three forms, and an opcode without prototype. -/
theorem decodeAll_assemble_mixed :
    let lookup := Lookup.ofPairs [(1, .unnamed 1 (.fixed 2)), (2, .unnamed 2 .variadic)]
    let instructions : List Instruction :=
      [⟨0, 0, 1, true, [.ofTag .signed8 (.integer (-128)), .ofTag .endOfArguments .empty]⟩,
        ⟨0, 0, 2, false,
          [.ofTag .string8 (.text "né"), .ofTag .variableString (.text ""),
            .ofTag .string16 (.text "0123456789abcdef"), .ofTag .float32 (.float 0x7fc00001),
            .ofTag .global32Element (.element ⟨.other 9, 0xffff, 2, 0x80⟩)]⟩,
        ⟨0, 0, 0x7fff, false, []⟩]
    (∀ instruction ∈ instructions, instruction.Storable lookup) ∧
      ((Decoder.mk lookup .lenient).decodeAll
        (Cursor.start (lookup.assemble instructions).toArray)).result =
          .ok (lookup.placed 0 instructions) := by
  intro lookup instructions
  have storable : ∀ instruction ∈ instructions, instruction.Storable lookup := by decide
  exact ⟨storable, (decodeAll_assemble lookup instructions storable).1⟩

/-- Assembling undoes decoding, unless a string was read: the instructions assemble to the script
they were decoded from, and no other script is decoded as these instructions. -/
theorem assemble_decodeAll (lookup : Lookup) (unknownOpcodes : UnknownOpcodes)
    {script : Array UInt8} {instructions : List Instruction}
    (success : ((Decoder.mk lookup unknownOpcodes).decodeAll (Cursor.start script)).result =
      .ok instructions)
    (noString : ∀ instruction ∈ instructions, ∀ operand ∈ instruction.operands,
      operand.kind ≠ .string) :
    lookup.assemble instructions = script.toList ∧
      ∀ (otherwise : UnknownOpcodes) (other : Array UInt8),
        ((Decoder.mk lookup otherwise).decodeAll (Cursor.start other)).result =
          .ok instructions → other = script := by
  have assembled := assemble_eq_of_decodeAll success noString
  constructor
  · exact assembled
  · intro otherwise other success'
    have assembled' := assemble_eq_of_decodeAll success' noString
    exact Array.toList_inj.mp (assembled'.symm.trans assembled)

/-- An inverted instruction with an open-ended list, and an opcode without prototype. -/
theorem assemble_decodeAll_variadic :
    let lookup := Lookup.ofPairs [(1, .unnamed 1 .variadic)]
    let script : Array UInt8 := #[0x01, 0x80, 0x04, 0x80, 0x00, 0xff, 0x7f]
    let instructions : List Instruction :=
      [⟨0, 5, 1, true, [.ofTag .signed8 (.integer (-128))]⟩, ⟨5, 2, 0x7fff, false, []⟩]
    ((Decoder.mk lookup .lenient).decodeAll (Cursor.start script)).result = .ok instructions ∧
      lookup.assemble instructions = script.toList := by
  intro lookup script instructions
  have storable : ∀ instruction ∈ instructions, instruction.Storable lookup := by decide
  rcases decodeAll_of_storable lookup storable with ⟨notices, decoded⟩
  have success : ((Decoder.mk lookup .lenient).decodeAll (Cursor.start script)).result =
      .ok instructions :=
    congrArg Decoding.result decoded
  exact ⟨success, (assemble_decodeAll lookup .lenient success (by decide)).1⟩

end Decoder

end ScriptDisassembler
