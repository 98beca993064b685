import ScriptDisassembler.Proofs.Prototype.Building
import ScriptDisassembler.Proofs.Prototype.Line
import ScriptDisassembler.Proofs.Prototype.Verdict

/-!
# What definition texts bring into a table

A line of any format, if it is accepted, brings an opcode of 15 bits, a count of 63 bits and a name
without blanks at its ends, line feeds and comments (`Format.listable_of_verdict`).  A table that is
filled from definition texts therefore holds listable prototypes only (`Table.Listable.load`).
-/

namespace ScriptDisassembler

open Prototype (NameListable)

/-- Whether everything that an update brings into a table is listable. -/
def Update.Listable : Update → Prop
  | declare opcode count => opcode ≤ 0x7fff ∧ count.Listable
  | setName opcode name => opcode ≤ 0x7fff ∧ NameListable name
  | insert prototype => prototype.Listable

/-- Whether every prototype of a table is listable. -/
def Table.Listable (table : Table) : Prop :=
  ∀ prototype ∈ table.prototypes, prototype.Listable

/-- A listable update makes a listable prototype of a listable one, or of none. -/
theorem Update.Listable.revise {update : Update} {entry : Option Prototype}
    (brought : update.Listable)
    (listable : ∀ prototype, entry = some prototype → prototype.Listable) :
    (update.revise entry).Listable := by
  cases update with
  | declare opcode count => exact ⟨brought.1, brought.2, fun _ named => by cases named⟩
  | setName opcode name =>
      have named : ∀ other, some name = some other → NameListable other := by
        rintro other ⟨⟩
        exact brought.2
      cases entry with
      | none => exact ⟨brought.1, Nat.two_pow_pos 63, named⟩
      | some prototype =>
          have old := listable prototype rfl
          exact ⟨old.opcode, old.count, named⟩
  | insert prototype => exact brought

/-! ## Accepted lines -/

namespace Verdict

theorem ofResult_eq_accepted_iff {result : Except Malformed Update} {update : Update} :
    ofResult result = accepted update ↔ result = .ok update := by
  cases result with
  | ok other => simp [ofResult]
  | error fault => simp [ofResult]

end Verdict

namespace Format

/-- A line of a counts file is accepted exactly if it is no comment and has an opcode in front of an
equals sign and a count in front of the next comma. -/
theorem countsVerdict_eq_accepted_iff {line : List Char} {update : Update} :
    countsVerdict line = .accepted update ↔
      (Text.strip line).head? ≠ some ';' ∧
        ∃ digits behind number rest opcode count,
          Text.cutAt? '=' (Text.strip line) = some (digits, behind) ∧
          Text.cutAt? ',' behind = some (number, rest) ∧
          readOpcode digits = .ok opcode ∧ readCount number = .ok count ∧
          update = .declare opcode count := by
  constructor
  · intro accepted
    unfold countsVerdict at accepted
    dsimp only at accepted
    split at accepted
    · cases accepted
    · rename_i content
      split at accepted
      · cases accepted
      · rename_i digits behind equals
        split at accepted
        · cases accepted
        · rename_i number rest comma
          rw [Verdict.ofResult_eq_accepted_iff] at accepted
          rcases except_bind_eq_ok_iff.mp accepted with ⟨opcode, read_opcode, accepted⟩
          rcases except_bind_eq_ok_iff.mp accepted with ⟨count, read_count, accepted⟩
          cases accepted
          refine ⟨?_, digits, behind, number, rest, opcode, count, equals, comma, read_opcode,
            read_count, rfl⟩
          intro comment
          exact content (by simp [comment])
  · rintro ⟨uncommented, digits, behind, number, rest, opcode, count, equals, comma, read_opcode,
      read_count, rfl⟩
    have filled : (Text.strip line).isEmpty = false := by
      rw [(Text.cutAt?_eq_some_iff.mp equals).1]
      simp
    have content : ((Text.strip line).head? == some ';') = false := by simpa using uncommented
    simp only [countsVerdict, filled, content, equals, comma, read_opcode, read_count]
    rfl

/-- A line of a names file is accepted exactly if its first four bytes are an opcode and something
that is not blank stands between them and a parenthesis. -/
theorem namesVerdict_eq_accepted_iff {line : List Char} {update : Update} :
    namesVerdict line = .accepted update ↔
      ∃ digits behind opcode,
        Text.cutBytes? 4 (Text.strip (Text.upTo ';' line)) = some (digits, behind) ∧
        readOpcode digits = .ok opcode ∧ Text.strip (Text.upTo '(' behind) ≠ [] ∧
        update = .setName opcode (String.ofList (Text.strip (Text.upTo '(' behind))) := by
  constructor
  · intro accepted
    unfold namesVerdict at accepted
    dsimp only at accepted
    split at accepted
    · cases accepted
    · split at accepted
      · cases accepted
      · rename_i digits behind cut
        split at accepted
        · cases accepted
        · rename_i opcode read_opcode
          split at accepted
          · cases accepted
          · rename_i named
            cases accepted
            exact ⟨digits, behind, opcode, cut, read_opcode, by simpa using named, rfl⟩
  · rintro ⟨digits, behind, opcode, cut, read_opcode, named, rfl⟩
    have filled : (Text.strip (Text.upTo ';' line)).isEmpty = false := by
      cases empty : Text.strip (Text.upTo ';' line) with
      | nil =>
          rw [empty] at cut
          cases cut
      | cons c rest => rfl
    have stays : (Text.strip (Text.upTo '(' behind)).isEmpty = false := by simpa using named
    simp only [namesVerdict, filled, cut, read_opcode, stays]
    rfl

theorem listable_of_countsVerdict {line : List Char} {update : Update}
    (accepted : countsVerdict line = .accepted update) : update.Listable := by
  rcases countsVerdict_eq_accepted_iff.mp accepted with
    ⟨-, _, _, _, _, opcode, count, -, -, read_opcode, read_count, rfl⟩
  exact ⟨readOpcode_eq_ok read_opcode, readCount_eq_ok read_count⟩

theorem listable_of_namesVerdict {line : List Char} {update : Update}
    (accepted : namesVerdict line = .accepted update) (unbroken : '\n' ∉ line) :
    update.Listable := by
  rcases namesVerdict_eq_accepted_iff.mp accepted with
    ⟨digits, behind, opcode, cut, read_opcode, named, rfl⟩
  have carried : ∀ c ∈ Text.upTo '(' behind, c ∈ Text.upTo ';' line := by
    intro c member
    apply Text.mem_of_mem_strip
    rw [(Text.cutBytes?_eq_some_iff.mp cut).1]
    exact List.mem_append_right _ (Text.mem_of_mem_upTo member)
  constructor
  · exact readOpcode_eq_ok read_opcode
  · apply Prototype.nameListable_strip named
    · exact fun member => unbroken (Text.mem_of_mem_upTo (carried _ member))
    · exact fun member => Text.notMem_upTo ';' line (carried _ member)

theorem listable_of_dumpVerdict {line : List Char} {update : Update}
    (accepted : dumpVerdict line = .accepted update) (unbroken : '\n' ∉ line) :
    update.Listable := by
  unfold dumpVerdict at accepted
  dsimp only at accepted
  split at accepted
  · cases accepted
  · rw [Verdict.ofResult_eq_accepted_iff] at accepted
    rcases except_bind_eq_ok_iff.mp accepted with ⟨prototype, read, accepted⟩
    cases accepted
    exact Prototype.listable_of_ofLine read
      (fun member => unbroken (Text.mem_of_mem_upTo member)) (Text.notMem_upTo ';' line)

/-- An accepted line brings listable data only. -/
theorem listable_of_verdict {format : Format} {line : List Char} {update : Update}
    (accepted : format.verdict line = .accepted update) (unbroken : '\n' ∉ line) :
    update.Listable := by
  cases format with
  | counts => exact listable_of_countsVerdict accepted
  | names => exact listable_of_namesVerdict accepted unbroken
  | dump => exact listable_of_dumpVerdict accepted unbroken

/-- The updates of a text are those of its accepted lines. -/
theorem mem_updates_iff {format : Format} {text : String} {update : Update} :
    update ∈ format.updates text ↔
      ∃ line ∈ Text.lines text.toList, format.verdict line = .accepted update := by
  simp [updates_eq_filterMap, Verdict.update?_eq_some_iff]

/-- A counts text declares opcodes and does nothing else. -/
theorem exists_declare_of_mem_updates {text : String} {update : Update}
    (member : update ∈ Format.counts.updates text) :
    ∃ opcode count, update = .declare opcode count := by
  obtain ⟨line, -, accepted⟩ := mem_updates_iff.mp member
  rcases countsVerdict_eq_accepted_iff.mp accepted with
    ⟨-, _, _, _, _, opcode, count, -, -, -, -, brought⟩
  exact ⟨opcode, count, brought⟩

/-- A names text gives names without an opening parenthesis and does nothing else. -/
theorem exists_setName_of_mem_updates {text : String} {update : Update}
    (member : update ∈ Format.names.updates text) :
    ∃ opcode name, update = .setName opcode name ∧ '(' ∉ name.toList := by
  obtain ⟨line, -, accepted⟩ := mem_updates_iff.mp member
  rcases namesVerdict_eq_accepted_iff.mp accepted with ⟨_, behind, opcode, -, -, -, brought⟩
  refine ⟨opcode, _, brought, ?_⟩
  rw [String.toList_ofList]
  exact fun inside => Text.notMem_upTo '(' behind (Text.mem_of_mem_strip inside)

theorem listable_of_mem_updates {format : Format} {text : String} {update : Update}
    (member : update ∈ format.updates text) : update.Listable := by
  obtain ⟨line, stored, accepted⟩ := mem_updates_iff.mp member
  exact listable_of_verdict accepted (Text.newline_notMem_of_mem_lines stored)

end Format

/-! ## Tables -/

namespace Table

theorem listable_empty : empty.Listable :=
  fun _ member => absurd member List.not_mem_nil

/-- Listable updates keep a table listable. -/
theorem Listable.applyAll {table : Table} {updates : List Update} (listable : table.Listable)
    (brought : ∀ update ∈ updates, update.Listable) : (table.applyAll updates).Listable :=
  forall_mem_applyAll listable fun update member _ => (brought update member).revise

/-- Definition texts fill a table with listable prototypes. -/
theorem Listable.load {table : Table} (listable : table.Listable) (format : Format)
    (text : String) : (table.load format text).table.Listable :=
  listable.applyAll fun _ => Format.listable_of_mem_updates

end Table

end ScriptDisassembler
