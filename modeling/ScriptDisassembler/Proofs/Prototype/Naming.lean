import ScriptDisassembler.Proofs.Prototype.Accounting
import ScriptDisassembler.Proofs.Prototype.Definition
import ScriptDisassembler.Proofs.Prototype.Grammar

/-!
# Lines that give names

In a names file the opcode is meant to be four hexadecimal digits (`FourDigits`).  What is read is
more: four bytes that are digits once the blanks around them are stripped, perhaps behind a plus
sign (`FourBytes`).  `Format.NamedBy` is the shape of a line with either kind of opcode.  The lines
with four bytes are those that give their names, and every other line leaves the table alone
(`Table.load_names`); so the name in `0001wait` is `wait`, but in `+7fff` it is `f`
(`Table.load_names_signed`).
-/

namespace ScriptDisassembler

/-- Whether characters are the four digits of a number. -/
def FourDigits (field : List Char) (value : Nat) : Prop :=
  field.length = 4 ∧ Numeral.Denotes 16 field value

/-- Whether characters take four bytes and are, but for blanks around them, the digits of a number
behind an optional plus sign. -/
def FourBytes (field : List Char) (value : Nat) : Prop :=
  Text.utf8Size field = 4 ∧ Numeral.DenotesUnsigned 16 (Text.strip field) value

/-- Four digits are those four bytes among which there is no sign and no blank. -/
theorem fourDigits_iff {field : List Char} {value : Nat} :
    FourDigits field value ↔
      FourBytes field value ∧ '+' ∉ field ∧ ∀ c ∈ field, Text.isBlank c = false := by
  constructor
  · rintro ⟨four, denoted⟩
    have solid : ∀ c ∈ field, Text.isBlank c = false := fun c member => (denoted.isPlain c member).1
    refine ⟨⟨denoted.utf8Size_eq.trans four, .inl ?_⟩, ?_, solid⟩
    · rwa [Text.strip_of_solid solid]
    · intro member
      obtain ⟨_, isDigit⟩ := denoted.exists_isDigit member
      exact Numeral.not_isDigit_sign (by decide) isDigit
  · rintro ⟨⟨four, unsigned⟩, noSign, solid⟩
    rw [Text.strip_of_solid solid] at unsigned
    rcases unsigned with denoted | ⟨digits, rfl, -⟩
    · exact ⟨denoted.utf8Size_eq.symm.trans four, denoted⟩
    · exact absurd List.mem_cons_self noSign

namespace Format

/-- Whether a line of a names file begins, up to blanks and without its comment, with an opcode of
the given shape, and has a name between this and the next parenthesis. -/
def NamedBy (Shape : List Char → Nat → Prop) (line : List Char) (opcode : UInt16)
    (name : String) : Prop :=
  ∃ field behind,
    Text.strip (Text.upTo ';' line) = field ++ behind ∧
      Shape field opcode.toNat ∧ opcode.toNat ≤ 0x7fff ∧
      ¬ Text.AllBlank (Text.upTo '(' behind) ∧
      name = String.ofList (Text.strip (Text.upTo '(' behind))

theorem NamedBy.mono {First Second : List Char → Nat → Prop} {line : List Char} {opcode : UInt16}
    {name : String} (named : NamedBy First line opcode name)
    (wider : ∀ field value, First field value → Second field value) :
    NamedBy Second line opcode name := by
  obtain ⟨field, behind, split, shaped, rest⟩ := named
  exact ⟨field, behind, split, wider _ _ shaped, rest⟩

/-- A line of a names file is accepted exactly if it begins with four bytes that are read as an
opcode, and has a name. -/
theorem verdict_names_eq_accepted_iff {line : List Char} {update : Update} :
    names.verdict line = .accepted update ↔
      ∃ opcode name, NamedBy FourBytes line opcode name ∧ update = .setName opcode name := by
  change namesVerdict line = _ ↔ _
  simp only [namesVerdict_eq_accepted_iff, Text.cutBytes?_eq_some_iff, readOpcode_eq_ok_iff, ne_eq,
    Text.strip_eq_nil_iff]
  constructor
  · rintro ⟨field, behind, opcode, ⟨split, four⟩, ⟨denoted, small⟩, filled, rfl⟩
    exact ⟨opcode, _, ⟨field, behind, split, ⟨four, denoted⟩, small, filled, rfl⟩, rfl⟩
  · rintro ⟨opcode, _, ⟨field, behind, split, ⟨four, denoted⟩, small, filled, rfl⟩, rfl⟩
    exact ⟨field, behind, opcode, ⟨split, four⟩, ⟨denoted, small⟩, filled, rfl⟩

end Format

namespace Loading

variable {loading : Loading} {line : List Char} {number : Nat}

theorem read_names_of_namedBy {opcode : UInt16} {name : String}
    (named : Format.NamedBy FourBytes line opcode name) :
    loading.read .names (line, number) =
      { loading with
        table := loading.table.setName opcode name
        count := loading.count + 1 } := by
  have accepted := Format.verdict_names_eq_accepted_iff.mpr ⟨opcode, name, named, rfl⟩
  simp only [read, accepted]
  rfl

theorem read_names_of_allBlank (blank : Text.AllBlank (Text.upTo ';' line)) :
    loading.read .names (line, number) = loading := by
  have ignored := (@Format.verdict_eq_ignored_iff .names line).mpr blank
  simp only [read, ignored]

theorem exists_read_names (filled : ¬ Text.AllBlank (Text.upTo ';' line))
    (nameless : ∀ opcode name, ¬ Format.NamedBy FourBytes line opcode name) :
    ∃ reason, loading.read .names (line, number) =
      { loading with notices := loading.notices ++ [.skipped .names number reason] } := by
  cases outcome : Format.names.verdict line with
  | ignored => exact absurd (Format.verdict_eq_ignored_iff.mp outcome) filled
  | accepted update =>
      obtain ⟨opcode, name, named, -⟩ := Format.verdict_names_eq_accepted_iff.mp outcome
      exact absurd named (nameless opcode name)
  | rejected reason => exact ⟨reason, by simp only [read, outcome]⟩

end Loading

namespace Table

/-! ## Main result -/

/-- A names text is loaded line by line.  A line that begins with four bytes for an opcode and has a
name gives this name to this opcode; a line that is blank up to its comment does nothing; and every
other line leaves the table alone, with one warning.  Lines with four digits for an opcode are among
the first ones, and the others of them have a plus sign or a blank among the four bytes. -/
theorem load_names (table : Table) (text : String) :
    table.load .names text =
        (((Text.lines text.toList).zipIdx 1).foldl (Loading.read .names) ⟨table, 0, []⟩).close
          .names ∧
      (∀ (loading : Loading) (line : List Char) (number : Nat),
        let after := loading.read .names (line, number)
        (∀ opcode name, Format.NamedBy FourBytes line opcode name →
          after = { loading with
            table := loading.table.setName opcode name
            count := loading.count + 1 }) ∧
          (Text.AllBlank (Text.upTo ';' line) → after = loading) ∧
          (¬ Text.AllBlank (Text.upTo ';' line) →
            (∀ opcode name, ¬ Format.NamedBy FourBytes line opcode name) →
              ∃ reason,
                after = { loading with
                  notices := loading.notices ++ [.skipped .names number reason] } ∧
                (Notice.skipped .names number reason).level = .warning)) ∧
      (∀ line opcode name,
        Format.NamedBy FourDigits line opcode name → Format.NamedBy FourBytes line opcode name) ∧
      ∀ field value, FourDigits field value ↔
        FourBytes field value ∧ '+' ∉ field ∧ ∀ c ∈ field, Text.isBlank c = false := by
  refine ⟨table.load_eq_foldl .names text, ?_, ?_, fun _ _ => fourDigits_iff⟩
  · intro loading line number
    refine ⟨fun _ _ => Loading.read_names_of_namedBy, Loading.read_names_of_allBlank, ?_⟩
    intro filled nameless
    obtain ⟨reason, skipped⟩ := Loading.exists_read_names filled nameless
    exact ⟨reason, skipped, rfl⟩
  · exact fun _ _ _ named => named.mono fun _ _ digits => (fourDigits_iff.mp digits).1

/-- Blanks may fill up the four bytes of an opcode, but the name may not begin within them. -/
theorem load_names_mixed :
    let start : Loading := ⟨empty, 0, []⟩
    let first := "1   wait(ms) ; pauses".toList
    let second := " ; 1   wait".toList
    let third := "1  wait".toList
    (Format.NamedBy FourBytes first 1 "wait" ∧
        start.read .names (first, 1) = ⟨empty.setName 1 "wait", 1, []⟩) ∧
      (Text.AllBlank (Text.upTo ';' second) ∧ start.read .names (second, 2) = start) ∧
      (¬ Text.AllBlank (Text.upTo ';' third) ∧
        (∀ opcode name, ¬ Format.NamedBy FourBytes third opcode name) ∧
        ∃ reason, start.read .names (third, 3) = ⟨empty, 0, [.skipped .names 3 reason]⟩) ∧
      Format.NamedBy FourDigits "0001 wait".toList 1 "wait" ∧
      Format.NamedBy FourBytes "0001 wait".toList 1 "wait" := by
  intro start first second third
  have ⟨_, each, wider, _⟩ := load_names empty ""
  have named : Format.NamedBy FourBytes first 1 "wait" := by
    refine ⟨"1   ".toList, "wait(ms)".toList, by decide,
      ⟨by decide, .inl ⟨by decide, [1], ?_, rfl⟩⟩, by decide, by decide, by decide⟩
    exact .cons (by decide) .nil
  have blank : Text.AllBlank (Text.upTo ';' second) := by decide
  have filled : ¬ Text.AllBlank (Text.upTo ';' third) := by decide
  have nameless : ∀ opcode name, ¬ Format.NamedBy FourBytes third opcode name := by
    intro opcode name named
    have accepted := Format.verdict_names_eq_accepted_iff.mpr ⟨opcode, name, named, rfl⟩
    have rejected : Format.names.verdict third =
        .rejected (.malformed (.opcode "1  w")) := by decide
    rw [rejected] at accepted
    cases accepted
  have digits : Format.NamedBy FourDigits "0001 wait".toList 1 "wait" := by
    refine ⟨"0001".toList, " wait".toList, by decide, ⟨rfl, by decide, [0, 0, 0, 1], ?_, rfl⟩,
      by decide, by decide, by decide⟩
    exact .cons (by decide) (.cons (by decide) (.cons (by decide) (.cons (by decide) .nil)))
  obtain ⟨reason, skipped, -⟩ := (each start third 3).2.2 filled nameless
  exact ⟨⟨named, (each start first 1).1 1 "wait" named⟩, ⟨blank, (each start second 2).2.1 blank⟩,
    ⟨filled, nameless, reason, skipped⟩, digits, wider _ _ _ digits⟩

/-- With a sign in front, an opcode has room for three digits, and a fourth one goes to the name. -/
theorem load_names_signed :
    (∀ opcode name, ¬ Format.NamedBy FourDigits "+7fff name(x)".toList opcode name) ∧
      empty.load .names "+7fff name(x)" =
        ⟨empty.setName 0x7ff "f name", 1, [.loaded .names 1]⟩ := by
  constructor
  · rintro opcode name ⟨field, behind, split, digits, -⟩
    have noSign := (fourDigits_iff.mp digits).2.1
    cases field with
    | nil => cases digits.1
    | cons c field =>
        have content : Text.strip (Text.upTo ';' "+7fff name(x)".toList) =
            '+' :: "7fff name(x)".toList := by decide
        rw [content, List.cons_append] at split
        exact noSign ((List.cons.inj split).1 ▸ List.mem_cons_self)
  · decide +kernel

end Table

end ScriptDisassembler
