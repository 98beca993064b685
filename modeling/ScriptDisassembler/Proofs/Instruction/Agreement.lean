import ScriptDisassembler.Proofs.Instruction.Strictness
import ScriptDisassembler.Proofs.Prototype.Definition

/-!
# What decoding takes from a lookup

Of a lookup, a lenient decoder uses nothing but the operand counts of opcodes of 15 bits, where an
opcode that is missing counts as one without operands.  Names and invocation forms make no
difference, nor do entries that no header can ask for.  A names text leaves all counts as they are,
so it makes no difference to a lenient decoder either (`Decoder.agree_of_countOf_eq`).
-/

namespace ScriptDisassembler

namespace Decoding

variable {α : Type} {heard : Notice → Bool}

/-- The same outcome with only those notices that are heard. -/
def hearing (heard : Notice → Bool) (decoding : Decoding α) : Decoding α :=
  { decoding with notices := decoding.notices.filter heard }

/-- The same outcome without notices. -/
def silent (decoding : Decoding α) : Decoding α :=
  { decoding with notices := [] }

theorem result_eq_of_hearing {first second : Decoding α}
    (same : first.hearing heard = second.hearing heard) : first.result = second.result :=
  (Decoding.mk.inj same).1

theorem cursor_eq_of_hearing {first second : Decoding α}
    (same : first.hearing heard = second.hearing heard) : first.cursor = second.cursor :=
  (Decoding.mk.inj same).2.1

theorem hearing_nothing : (hearing fun _ => false : Decoding α → Decoding α) = silent := by
  funext decoding
  simp [hearing, silent]

theorem hearing_everything : (hearing fun _ => true : Decoding α → Decoding α) = id := by
  funext decoding
  simp [hearing]

end Decoding

namespace Decoder

/-! ## Decoders that agree at every instruction -/

section Agreement

variable {heard : Notice → Bool} {first second : Decoder}

/-- Decoders that do the same at every instruction have the same outcomes. -/
theorem items_hearing
    (alike : ∀ cursor, (first.decode cursor).hearing heard = (second.decode cursor).hearing heard)
    (cursor : Cursor) :
    (first.items cursor).map (Decoding.hearing heard) =
      (second.items cursor).map (Decoding.hearing heard) := by
  induction cursor using first.induction with
  | done cursor done => rw [items_of_done done, items_of_done done]
  | error cursor error more failure =>
      have likewise : (second.decode cursor).result = .error error :=
        (Decoding.result_eq_of_hearing (alike cursor)).symm.trans failure
      rw [items_of_error more failure, items_of_error more likewise, List.map_singleton,
        List.map_singleton, alike]
  | ok cursor instruction success ih =>
      have likewise : (second.decode cursor).result = .ok instruction :=
        (Decoding.result_eq_of_hearing (alike cursor)).symm.trans success
      have there : (first.decode cursor).cursor = (second.decode cursor).cursor :=
        Decoding.cursor_eq_of_hearing (alike cursor)
      rw [items_of_ok success, items_of_ok likewise, List.map_cons, List.map_cons, alike, ih, there]

theorem finish_eq_of_items_hearing {cursor : Cursor}
    (items_eq : (first.items cursor).map (Decoding.hearing heard) =
      (second.items cursor).map (Decoding.hearing heard)) :
    first.finish cursor = second.finish cursor := by
  have cursors_eq := congrArg (List.map Decoding.cursor) items_eq
  rw [List.map_map, List.map_map] at cursors_eq
  change (first.items cursor).map Decoding.cursor = (second.items cursor).map Decoding.cursor
    at cursors_eq
  rw [finish, finish, ← List.getLast?_map, ← List.getLast?_map, cursors_eq]

/-- Decoders that do the same at every instruction do the same for a whole script. -/
theorem decodeAll_hearing
    (alike : ∀ cursor, (first.decode cursor).hearing heard = (second.decode cursor).hearing heard)
    (cursor : Cursor) :
    (first.decodeAll cursor).hearing heard = (second.decodeAll cursor).hearing heard := by
  induction cursor using first.induction with
  | done cursor done => rw [decodeAll_of_done done, decodeAll_of_done done]
  | error cursor error more failure =>
      have likewise : (second.decode cursor).result = .error error :=
        (Decoding.result_eq_of_hearing (alike cursor)).symm.trans failure
      have same := alike cursor
      rw [decodeAll_of_error more failure, decodeAll_of_error more likewise]
      simp only [Decoding.hearing, Decoding.mk.injEq] at same ⊢
      exact ⟨trivial, same.2⟩
  | ok cursor instruction success ih =>
      have likewise : (second.decode cursor).result = .ok instruction :=
        (Decoding.result_eq_of_hearing (alike cursor)).symm.trans success
      have same := alike cursor
      rw [decodeAll_of_ok success, decodeAll_of_ok likewise]
      simp only [Decoding.hearing, Decoding.mk.injEq, List.filter_append] at same ih ⊢
      rw [← same.2.1, ih.1, ih.2.1, ih.2.2, same.2.2]
      exact ⟨rfl, rfl, rfl⟩

end Agreement

/-! ## Lookups that agree where decoders look -/

/-- A lenient decoder reads as many operands as its lookup counts. -/
theorem silent_decode_lenient (lookup : Lookup) {cursor : Cursor} {header : UInt16}
    (heads : cursor.Heads header) :
    (lookup.lenient.decode cursor).silent =
      let (result, after) :=
        Operand.readAll (lookup.countOf (Header.opcode header)) (cursor.advance 2)
      ⟨(result.mapError (.instruction (Header.opcode header) cursor.position)).map fun operands =>
          ⟨cursor.position, after.position - cursor.position, Header.opcode header,
            Header.inverts header, operands⟩,
        after, []⟩ := by
  unfold Lookup.countOf
  cases declared : lookup (Header.opcode header) with
  | some prototype =>
      have decoded := @decode_of_declared lookup.lenient cursor header heads prototype declared
      rw [decoded]
      rfl
  | none =>
      have decoded := @decode_of_lenient lookup.lenient cursor header heads declared rfl
      rw [decoded]
      simp only [Operand.readAll, Operand.readExactly_zero, Cursor.advance,
        Nat.add_sub_cancel_left]
      rfl

/-- Lenient decoders whose lookups count the same read the same instruction. -/
theorem silent_decode_eq {first second : Lookup}
    (counts_eq : ∀ opcode ≤ 0x7fff, first.countOf opcode = second.countOf opcode)
    (cursor : Cursor) :
    (first.lenient.decode cursor).silent = (second.lenient.decode cursor).silent := by
  rcases cursor.remaining_lt_or_heads with short | ⟨header, heads⟩
  · rw [decode_of_remaining_lt _ short, decode_of_remaining_lt _ short]
  · rw [silent_decode_lenient first heads, silent_decode_lenient second heads,
      counts_eq _ (Header.opcode_le header)]

/-- No decoder asks for an opcode of more than 15 bits. -/
theorem decode_eq {first second : Lookup} (unknownOpcodes : UnknownOpcodes)
    (same : ∀ opcode ≤ 0x7fff, first opcode = second opcode) (cursor : Cursor) :
    (Decoder.mk first unknownOpcodes).decode cursor =
      (Decoder.mk second unknownOpcodes).decode cursor := by
  rcases cursor.remaining_lt_or_heads with short | ⟨header, heads⟩
  · rw [decode_of_remaining_lt _ short, decode_of_remaining_lt _ short]
  · simp only [decode, heads.word, decodeBehind, operandCount, same _ (Header.opcode_le header)]

end Decoder

/-! ## Names texts -/

/-- Names change nothing else in an entry. -/
theorem Update.exists_replay_setName {updates : List Update}
    (naming : ∀ update ∈ updates, ∃ opcode name, update = .setName opcode name)
    (prototype : Prototype) :
    ∃ name, replay (some prototype) updates = some { prototype with name := name } := by
  induction updates generalizing prototype with
  | nil => exact ⟨prototype.name, rfl⟩
  | cons update updates ih =>
      obtain ⟨opcode, name, rfl⟩ := naming _ List.mem_cons_self
      exact ih (fun later member => naming later (List.mem_cons_of_mem _ member))
        (prototype.withName name)

namespace Table

variable {table : Table} {opcode : UInt16}

/-- A names text keeps an entry but for its name. -/
theorem exists_find?_load_names_of_some {prototype : Prototype}
    (found : table.find? opcode = some prototype) (text : String) :
    ∃ name, (table.load .names text).table.find? opcode = some { prototype with name := name } := by
  change ∃ name, (table.applyAll (Format.names.updates text)).find? opcode = _
  rw [find?_applyAll, found]
  apply Update.exists_replay_setName
  intro update member
  obtain ⟨other, name, rfl, -⟩ :=
    Format.exists_setName_of_mem_updates (List.mem_of_mem_filter member)
  exact ⟨other, name, rfl⟩

/-- Where there was no entry, a names text makes a function without operands, or none. -/
theorem find?_load_names_of_none (absent : table.find? opcode = none) (text : String) :
    (table.load .names text).table.find? opcode = none ∨
      ∃ name, (table.load .names text).table.find? opcode =
        some ⟨opcode, name, .fixed 0, .function⟩ := by
  change (table.applyAll (Format.names.updates text)).find? opcode = none ∨
    ∃ name, (table.applyAll (Format.names.updates text)).find? opcode = _
  rw [find?_applyAll, absent]
  have naming : ∀ update ∈ (Format.names.updates text).filter
      (fun update => update.opcode = opcode), ∃ name, update = .setName opcode name := by
    intro update member
    obtain ⟨inText, about⟩ := List.mem_filter.mp member
    obtain ⟨other, name, rfl, -⟩ := Format.exists_setName_of_mem_updates inText
    have same : other = opcode := of_decide_eq_true about
    exact ⟨name, by rw [same]⟩
  cases updates : (Format.names.updates text).filter fun update => update.opcode = opcode with
  | nil => exact .inl rfl
  | cons update later =>
      right
      rw [updates] at naming
      obtain ⟨name, rfl⟩ := naming _ List.mem_cons_self
      rw [Update.replay_cons]
      apply Update.exists_replay_setName _ ((Prototype.unnamed opcode (.fixed 0)).withName name)
      intro other member
      obtain ⟨name, rfl⟩ := naming other (List.mem_cons_of_mem _ member)
      exact ⟨opcode, name, rfl⟩

/-- A names text leaves all counts as they are. -/
theorem countOf_load_names (table : Table) (text : String) (opcode : UInt16) :
    Lookup.countOf (table.load .names text).table.find? opcode =
      Lookup.countOf table.find? opcode := by
  cases found : table.find? opcode with
  | some prototype =>
      obtain ⟨name, named⟩ := exists_find?_load_names_of_some found text
      simp only [Lookup.countOf, found, named]
  | none =>
      rcases find?_load_names_of_none found text with still | ⟨name, named⟩
      · simp only [Lookup.countOf, found, still]
      · simp only [Lookup.countOf, found, named]

end Table

namespace Decoder

/-! ## Main result -/

/-- Whether two decoders give the same from a cursor on, one instruction at a time and as a whole,
whatever they notice. -/
structure Agree (first second : Decoder) (cursor : Cursor) : Prop where
  items : (first.items cursor).map Decoding.silent = (second.items cursor).map Decoding.silent
  finish : first.finish cursor = second.finish cursor
  decodeAll : (first.decodeAll cursor).silent = (second.decodeAll cursor).silent

/-- Lenient decoders agree on every script if their lookups count the operands of each opcode of 15
bits alike.  So they agree with a table before and after a names text is loaded into it, which
changes no entry but for its name.  Entries of greater opcodes make no difference to any decoder. -/
theorem agree_of_countOf_eq :
    (∀ first second : Lookup,
        (∀ opcode ≤ 0x7fff, first.countOf opcode = second.countOf opcode) →
          ∀ cursor, first.lenient.Agree second.lenient cursor) ∧
      (∀ (table : Table) (text : String),
        let named := (table.load .names text).table
        (∀ cursor, (Lookup.lenient table.find?).Agree (Lookup.lenient named.find?) cursor) ∧
          ∀ opcode prototype, table.find? opcode = some prototype →
            ∃ name, named.find? opcode = some { prototype with name := name }) ∧
      ∀ (first second : Lookup) (unknownOpcodes : UnknownOpcodes),
        (∀ opcode ≤ 0x7fff, first opcode = second opcode) →
          ∀ cursor,
            let decoder : Decoder := ⟨first, unknownOpcodes⟩
            let other : Decoder := ⟨second, unknownOpcodes⟩
            decoder.decode cursor = other.decode cursor ∧
              decoder.items cursor = other.items cursor ∧
              decoder.finish cursor = other.finish cursor ∧
              decoder.decodeAll cursor = other.decodeAll cursor := by
  have agree : ∀ first second : Lookup,
      (∀ opcode ≤ 0x7fff, first.countOf opcode = second.countOf opcode) →
        ∀ cursor, first.lenient.Agree second.lenient cursor := by
    intro first second counts_eq cursor
    have alike := silent_decode_eq counts_eq
    simp only [← Decoding.hearing_nothing] at alike
    have items_eq := items_hearing alike cursor
    have finish_eq := finish_eq_of_items_hearing items_eq
    have whole := decodeAll_hearing alike cursor
    rw [Decoding.hearing_nothing] at items_eq whole
    exact ⟨items_eq, finish_eq, whole⟩
  refine ⟨agree, ?_, ?_⟩
  · intro table text named
    constructor
    · apply agree
      intro opcode _
      exact (table.countOf_load_names text opcode).symm
    · intro opcode prototype found
      exact Table.exists_find?_load_names_of_some found text
  · intro first second unknownOpcodes same cursor decoder other
    have step : ∀ cursor, (decoder.decode cursor).hearing (fun _ => true) =
        (other.decode cursor).hearing (fun _ => true) := by
      intro there
      rw [decode_eq unknownOpcodes same there]
    have items_eq := items_hearing step cursor
    have finish_eq := finish_eq_of_items_hearing items_eq
    have whole := decodeAll_hearing step cursor
    rw [Decoding.hearing_everything, List.map_id, List.map_id] at items_eq
    rw [Decoding.hearing_everything, id, id] at whole
    exact ⟨decode_eq unknownOpcodes same cursor, items_eq, finish_eq, whole⟩

/-- An operator without a name in place of a named function, a missing entry in place of one without
operands, and under a key that no header can hold a prototype of another opcode.  The names text
renames the function and adds an opcode. -/
theorem agree_of_countOf_eq_operator :
    let table := Table.ofList [.function 1 "wait" 1, .unnamed 3 (.fixed 0)]
    let pairs : Lookup := Lookup.ofPairs
      [(1, ⟨1, none, .fixed 1, .operator⟩), (0x8001, .unnamed 1 .variadic)]
    let named := (table.load .names "0001 delay\n0002 goto").table
    let script := Cursor.start #[0x01, 0x80, 0x04, 0x05, 0x02, 0x00, 0x03, 0x00, 0x01]
    (∀ opcode ≤ 0x7fff, Lookup.countOf table.find? opcode = pairs.countOf opcode) ∧
      (Lookup.lenient table.find?).Agree pairs.lenient script ∧
      (Lookup.lenient table.find?).Agree (Lookup.lenient named.find?) script ∧
      table.find? 1 = some (.function 1 "wait" 1) ∧
      ∃ name, named.find? 1 = some { Prototype.function 1 "wait" 1 with name := name } := by
  intro table pairs named script
  have ⟨agree, names, _⟩ := agree_of_countOf_eq
  have counts_eq : ∀ opcode ≤ 0x7fff,
      Lookup.countOf table.find? opcode = pairs.countOf opcode := by
    intro opcode small
    have high : opcode ≠ 0x8001 := by
      rintro rfl
      exact absurd small (by decide)
    by_cases first : opcode = 1
    · subst first
      rfl
    by_cases third : opcode = 3
    · subst third
      rfl
    have missing : table.find? opcode = none := by
      simp only [table, Table.find?_ofList]
      simp [Prototype.function, Prototype.unnamed, Ne.symm first, Ne.symm third]
    have unpaired : pairs opcode = none := by
      simp [pairs, Lookup.ofPairs, List.lookup_cons, beq_false_of_ne first, beq_false_of_ne high]
    simp only [Lookup.countOf, missing, unpaired]
  have found : table.find? 1 = some (.function 1 "wait" 1) := rfl
  exact ⟨counts_eq, agree _ _ counts_eq script, (names table _).1 script, found,
    (names table _).2 1 _ found⟩

end Decoder

end ScriptDisassembler
