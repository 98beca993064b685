import ScriptDisassembler.Proofs.Text.Digits
import ScriptDisassembler.Text.Record

/-!
# Reading JSON

A reader for what reports are made of: lists and records of texts and whole numbers.  It knows
nothing of a layout, so blanks may stand around every mark, and a text may use every escape for a
single character.  What `Record.text` and `Record.listText` write reads back as what they were given
(`read?_text`, `read?_listText`), whatever characters the texts hold.
-/

namespace ScriptDisassembler

/-- A value in JSON. -/
inductive Json
  /-- A whole number. -/
  | number (value : Nat)
  /-- A text. -/
  | text (value : String)
  /-- Values in order. -/
  | list (members : List Json)
  /-- Named values in order. -/
  | record (fields : List (String × Json))

namespace Json

variable {α β : Type}

/-! ## The reader

Each part gives what it read and the characters behind it. -/

/-- Whether a character may stand between marks. -/
def isSpace (c : Char) : Bool :=
  c == ' ' || c == '\n' || c == '\t' || c == '\r'

/-- A text from its first mark on. -/
def skipBlanks (chars : List Char) : List Char :=
  chars.dropWhile isSpace

/-- The character that a letter behind a backslash stands for. -/
def unescape? : Char → Option Char
  | '"' => some '"'
  | '\\' => some '\\'
  | '/' => some '/'
  | 'b' => some '\x08'
  | 'f' => some '\x0c'
  | 'n' => some '\n'
  | 'r' => some '\r'
  | 't' => some '\t'
  | _ => none

/-- The character with a number; half of a surrogate pair is none. -/
def ofPoint? (point : Nat) : Option Char :=
  if point.isValidChar then some (Char.ofNat point) else none

/-- A text that goes on behind a character. -/
def behind (c : Char) (read : List Char × List Char) : List Char × List Char :=
  (c :: read.1, read.2)

/-- A text up to its closing quote. -/
def readQuoted : List Char → Option (List Char × List Char)
  | [] => none
  | '"' :: rest => some ([], rest)
  | '\\' :: 'u' :: first :: second :: third :: fourth :: rest => do
      let point ← Numeral.readDigits? 16 [first, second, third, fourth]
      let c ← ofPoint? point
      (readQuoted rest).map (behind c)
  | '\\' :: letter :: rest => do
      let c ← unescape? letter
      (readQuoted rest).map (behind c)
  | c :: rest =>
      if c = '\\' ∨ c.toNat < 0x20 then none else (readQuoted rest).map (behind c)

/-- A text between quotes. -/
def readText (chars : List Char) : Option (String × List Char) :=
  match skipBlanks chars with
  | '"' :: rest => (readQuoted rest).map fun read => (String.ofList read.1, read.2)
  | _ => none

/-- A whole number; only zero begins with a zero. -/
def readNumber (chars : List Char) : Option (Nat × List Char) :=
  let digits := chars.takeWhile Char.isDigit
  if digits.head? = some '0' ∧ digits ≠ ['0'] then none
  else (Numeral.readDigits? 10 digits).map fun value => (value, chars.dropWhile Char.isDigit)

/-- A mark and nothing else. -/
def readMark (mark : Char) (chars : List Char) : Option (List Char) :=
  match skipBlanks chars with
  | c :: rest => if c = mark then some rest else none
  | [] => none

/-- Members with commas between them, up to the closing mark. -/
def readMembers (closing : Char) (readMember : List Char → Option (α × List Char)) :
    Nat → List Char → Option (List α × List Char)
  | 0, _ => none
  | limit + 1, chars => do
      let (member, rest) ← readMember chars
      match readMark ',' rest with
      | some rest => do
          let (members, rest) ← readMembers closing readMember limit rest
          return (member :: members, rest)
      | none => (readMark closing rest).map fun rest => ([member], rest)

/-- Members up to the closing mark, or the closing mark alone.  There are no more members than
characters. -/
def readBlock (closing : Char) (readMember : List Char → Option (α × List Char))
    (chars : List Char) : Option (List α × List Char) :=
  match readMembers closing readMember chars.length chars with
  | some read => some read
  | none => (readMark closing chars).map fun rest => ([], rest)

/-- A named value. -/
def readField (readValue : List Char → Option (Json × List Char)) (chars : List Char) :
    Option ((String × Json) × List Char) := do
  let (name, rest) ← readText chars
  let rest ← readMark ':' rest
  let (value, rest) ← readValue rest
  return ((name, value), rest)

/-- A value with brackets in each other up to a given depth. -/
def readValue : Nat → List Char → Option (Json × List Char)
  | 0, _ => none
  | depth + 1, chars =>
      match skipBlanks chars with
      | '"' :: rest => (readText ('"' :: rest)).map fun read => (.text read.1, read.2)
      | '[' :: rest =>
          (readBlock ']' (readValue depth) rest).map fun read => (.list read.1, read.2)
      | '\x7b' :: rest =>
          (readBlock '\x7d' (readField (readValue depth)) rest).map
            fun read => (.record read.1, read.2)
      | rest => (readNumber rest).map fun read => (.number read.1, read.2)

/-- The value that a text is, if there is nothing but blanks behind it. -/
def read? (text : String) : Option Json := do
  let (value, rest) ← readValue text.length text.toList
  if (skipBlanks rest).isEmpty then some value else none

/-! ## Blanks -/

theorem skipBlanks_append {blanks : List Char} (blank : ∀ c ∈ blanks, isSpace c = true)
    (chars : List Char) : skipBlanks (blanks ++ chars) = skipBlanks chars :=
  List.dropWhile_append_of_pos blank

theorem skipBlanks_cons {c : Char} (mark : isSpace c = false) (rest : List Char) :
    skipBlanks (c :: rest) = c :: rest := by
  simp [skipBlanks, mark]

theorem readMark_blanks {blanks : List Char} {c : Char} (blank : ∀ c ∈ blanks, isSpace c = true)
    (mark : isSpace c = false) (rest : List Char) :
    readMark c (blanks ++ c :: rest) = some rest := by
  rw [readMark, skipBlanks_append blank, skipBlanks_cons mark]
  exact if_pos rfl

theorem readMark_self {c : Char} (mark : isSpace c = false) (rest : List Char) :
    readMark c (c :: rest) = some rest :=
  @readMark_blanks [] c (by simp) mark rest

theorem readMark_of_ne {blanks : List Char} {c other : Char}
    (blank : ∀ c ∈ blanks, isSpace c = true) (mark : isSpace c = false) (different : c ≠ other)
    (rest : List Char) : readMark other (blanks ++ c :: rest) = none := by
  rw [readMark, skipBlanks_append blank, skipBlanks_cons mark]
  exact if_neg different

/-! ## Texts -/

theorem ofPoint?_toNat (c : Char) : ofPoint? c.toNat = some c := by
  rw [ofPoint?, if_pos (show c.toNat.isValidChar from c.valid), Char.ofNat_toNat]

/-- An escape is read as its character. -/
theorem readQuoted_escape (c : Char) (rest : List Char) :
    readQuoted (Record.escape c ++ rest) = (readQuoted rest).map (behind c) := by
  unfold Record.escape
  split_ifs with quote backslash newline carriage tab backspace feed control
  · subst quote
    rfl
  · subst backslash
    rfl
  · subst newline
    rfl
  · subst carriage
    rfl
  · subst tab
    rfl
  · rw [show c = '\x08' from Char.toNat_inj.mp backspace]
    rfl
  · rw [show c = '\x0c' from Char.toNat_inj.mp feed]
    rfl
  · have four : (Numeral.padded 4 (Numeral.hexDigits c.toNat)).length = 4 := by
      rw [Numeral.length_padded, max_eq_left]
      exact (Nat.length_toDigits_le_iff (by decide) (by decide)).mpr (by omega)
    have point : Numeral.readDigits? 16 (Numeral.padded 4 (Numeral.hexDigits c.toNat)) =
        some c.toNat := Numeral.readDigits?_padded (by decide) (by decide)
    obtain ⟨first, second, third, fourth, digits⟩ := List.length_eq_four.mp four
    rw [digits] at point ⊢
    simp only [List.cons_append, List.nil_append, readQuoted, point, ofPoint?_toNat,
      Option.bind_eq_bind, Option.bind_some]
  · simp [readQuoted, backslash, control]

/-- A quoted text is read up to its closing quote. -/
theorem readQuoted_flatMap (text rest : List Char) :
    readQuoted (text.flatMap Record.escape ++ '"' :: rest) = some (text, rest) := by
  induction text with
  | nil => rfl
  | cons c text ih =>
      rw [List.flatMap_cons, List.append_assoc, readQuoted_escape, ih]
      rfl

theorem toList_quote (text : String) :
    (Record.quote text).toList = '"' :: text.toList.flatMap Record.escape ++ ['"'] :=
  String.toList_ofList

theorem readText_quote {blanks : List Char} (blank : ∀ c ∈ blanks, isSpace c = true)
    (text : String) (rest : List Char) :
    readText (blanks ++ ((Record.quote text).toList ++ rest)) = some (text, rest) := by
  have read := readQuoted_flatMap text.toList rest
  rw [toList_quote, readText, skipBlanks_append blank, List.append_assoc, List.cons_append,
    skipBlanks_cons (by decide)]
  simp [read]

/-! ## Numbers -/

/-- Only zero is written with a leading zero. -/
theorem head?_toDigits_ne {value : Nat} (positive : value ≠ 0) :
    (Nat.toDigits 10 value).head? ≠ some '0' := by
  induction value using Nat.strongRecOn with
  | ind value ih =>
      by_cases small : value < 10
      · have digits : ∀ index : Fin 10, index.val ≠ 0 → index.val.digitChar ≠ '0' := by decide
        have digit := digits ⟨value, small⟩ positive
        simpa [Nat.toDigits_of_lt_base small] using digit
      · have earlier := ih (value / 10) (Nat.div_lt_self (by omega) (by decide)) (by omega)
        rw [Nat.toDigits_of_base_le (by decide) (by omega), List.head?_append_of_ne_nil]
        · exact earlier
        · exact Nat.toDigits_ne_nil

/-- Whether a text goes on without a digit. -/
def Ends (rest : List Char) : Prop :=
  ∀ c ∈ rest.head?, c.isDigit = false

theorem readNumber_decimalDigits (value : Nat) {rest : List Char} (ends : Ends rest) :
    readNumber (Numeral.decimalDigits value ++ rest) = some (value, rest) := by
  have digits : ∀ c ∈ Nat.toDigits 10 value, c.isDigit = true :=
    fun c member => Nat.isDigit_of_mem_toDigits (by decide) (by decide) member
  have taken : (Nat.toDigits 10 value ++ rest).takeWhile Char.isDigit = Nat.toDigits 10 value := by
    rw [List.takeWhile_append_of_pos digits]
    cases rest with
    | nil => simp
    | cons c rest => simp [ends c rfl]
  have left : (Nat.toDigits 10 value ++ rest).dropWhile Char.isDigit = rest := by
    rw [List.dropWhile_append_of_pos digits]
    cases rest with
    | nil => rfl
    | cons c rest => simp [ends c rfl]
  have canonical : ¬((Nat.toDigits 10 value).head? = some '0' ∧ Nat.toDigits 10 value ≠ ['0']) := by
    rintro ⟨zero, other⟩
    by_cases positive : value = 0
    · exact other (by rw [positive]; rfl)
    · exact head?_toDigits_ne positive zero
  rw [readNumber, Numeral.decimalDigits, taken, left, if_neg canonical,
    Numeral.readDigits?_toDigits (by decide) (by decide)]
  rfl

/-! ## Blocks -/

/-- The text of a block that is not empty, character by character. -/
theorem toList_block {members : List String} (nonempty : members ≠ [])
    (opening closing margin : String) :
    (Record.block opening closing margin members).toList =
      opening.toList ++ '\n' :: ([',', '\n'].intercalate
          (members.map fun member => margin.toList ++ ([' ', ' '] ++ member.toList)) ++
        '\n' :: (margin.toList ++ closing.toList)) := by
  simp [Record.block, nonempty, Function.comp_def]

section Members

variable {closing : Char} {readMember : List Char → Option (α × List Char)} {limit : Nat}
  {chars rest left last : List Char} {member : α} {members : List α}

theorem readMembers_of_comma (first : readMember chars = some (member, rest))
    (comma : readMark ',' rest = some left)
    (others : readMembers closing readMember limit left = some (members, last)) :
    readMembers closing readMember (limit + 1) chars = some (member :: members, last) := by
  simp [readMembers, first, comma, others]

theorem readMembers_of_closing (first : readMember chars = some (member, rest))
    (no_comma : readMark ',' rest = none) (closed : readMark closing rest = some last) :
    readMembers closing readMember (limit + 1) chars = some ([member], last) := by
  simp [readMembers, first, no_comma, closed]

end Members

/-- Members that are read one by one are read with commas between them up to the closing mark. -/
theorem readMembers_intercalate {closing : Char} (mark : isSpace closing = false)
    (no_comma : closing ≠ ',') {readMember : List Char → Option (α × List Char)}
    {write : β → List Char} {value : β → α} {margin : List Char}
    (blank : ∀ c ∈ margin, isSpace c = true) (rest : List Char) {members : List β}
    (reads : ∀ member ∈ members, ∀ rest, Ends rest →
      readMember ('\n' :: (write member ++ rest)) = some (value member, rest))
    (nonempty : members ≠ []) {limit : Nat}
    (enough : ('\n' :: ([',', '\n'].intercalate (members.map write) ++
      '\n' :: (margin ++ closing :: rest))).length ≤ limit) :
    readMembers closing readMember limit ('\n' :: ([',', '\n'].intercalate (members.map write) ++
      '\n' :: (margin ++ closing :: rest))) = some (members.map value, rest) := by
  have blank_line : ∀ c ∈ '\n' :: margin, isSpace c = true := by
    intro c member
    rcases List.mem_cons.mp member with rfl | member
    · rfl
    · exact blank c member
  induction members generalizing limit with
  | nil => exact absurd rfl nonempty
  | cons member members ih =>
      cases limit with
      | zero => simp at enough
      | succ limit =>
          have read := reads member List.mem_cons_self
          cases members with
          | nil =>
              have joined : [',', '\n'].intercalate ([member].map write) = write member := by
                simp [List.intercalate]
              rw [joined]
              exact readMembers_of_closing (read _ (by rintro c ⟨⟩; rfl))
                (readMark_of_ne blank_line mark no_comma rest)
                (readMark_blanks blank_line mark rest)
          | cons next members =>
              have joined : '\n' :: ([',', '\n'].intercalate
                  ((member :: next :: members).map write) ++ '\n' :: (margin ++ closing :: rest)) =
                  '\n' :: (write member ++ ',' :: '\n' ::
                    ([',', '\n'].intercalate ((next :: members).map write) ++
                      '\n' :: (margin ++ closing :: rest))) := by
                simp [List.intercalate]
              rw [joined] at enough ⊢
              have others := @ih (fun other among => reads other (List.mem_cons_of_mem _ among))
                (List.cons_ne_nil _ _) limit
                (by simp only [List.length_cons, List.length_append] at enough ⊢; omega)
              exact readMembers_of_comma (read _ (by rintro c ⟨⟩; rfl)) (readMark_self rfl _) others

/-- A block is read as its members, if each is read as one behind blanks. -/
theorem readBlock_block {opening closing margin : String} {last : Char}
    (closing_eq : closing.toList = [last]) (mark : isSpace last = false) (no_comma : last ≠ ',')
    (blank : ∀ c ∈ margin.toList, isSpace c = true)
    {readMember : List Char → Option (α × List Char)} {write : β → String} {value : β → α}
    (refuses : ∀ rest, readMember (last :: rest) = none) {members : List β}
    (reads : ∀ member ∈ members, ∀ blanks, (∀ c ∈ blanks, isSpace c = true) → ∀ rest, Ends rest →
      readMember (blanks ++ ((write member).toList ++ rest)) = some (value member, rest))
    (rest : List Char) :
    ∃ inside, (Record.block opening closing margin (members.map write)).toList ++ rest =
        opening.toList ++ inside ∧
      readBlock last readMember inside = some (members.map value, rest) := by
  by_cases empty : members = []
  · refine ⟨last :: rest, ?_, ?_⟩
    · simp [empty, Record.block, closing_eq]
    · have none_read : readMembers last readMember (last :: rest).length (last :: rest) = none := by
        simp [readMembers, refuses]
      rw [readBlock, none_read, readMark_self mark, empty]
      rfl
  · let indented := fun member => margin.toList ++ ([' ', ' '] ++ (write member).toList)
    let inside := '\n' :: ([',', '\n'].intercalate (members.map indented) ++
      '\n' :: (margin.toList ++ last :: rest))
    refine ⟨inside, ?_, ?_⟩
    · rw [toList_block (by simpa using empty), closing_eq, List.map_map]
      simp [inside, indented, Function.comp_def]
    · have blank_line : ∀ c ∈ '\n' :: (margin.toList ++ [' ', ' ']), isSpace c = true := by
        intro c member
        rcases List.mem_cons.mp member with rfl | member
        · rfl
        · rcases List.mem_append.mp member with margin | space
          · exact blank c margin
          · rcases List.mem_pair.mp space with rfl | rfl <;> rfl
      have reads_line : ∀ member ∈ members, ∀ rest, Ends rest →
          readMember ('\n' :: (indented member ++ rest)) = some (value member, rest) := by
        intro member among rest ends
        have read := reads member among _ blank_line rest ends
        simpa [indented] using read
      have read := readMembers_intercalate mark no_comma blank rest reads_line empty
        (Nat.le_refl inside.length)
      rw [readBlock, read]

/-! ## Values, records and lists of records -/

/-- The value of a field. -/
def ofField : FieldValue → Json
  | .number value => number value
  | .text value => text value

/-- The value of a record. -/
def ofRecord (fields : Record) : Json :=
  record (fields.map fun field => (field.1, ofField field.2))

section Opened

variable {depth : Nat} {blanks : List Char} (blank : ∀ c ∈ blanks, isSpace c = true)
  (rest : List Char)

include blank

theorem readValue_quote : readValue (depth + 1) (blanks ++ '"' :: rest) =
    (readText ('"' :: rest)).map fun read => (.text read.1, read.2) := by
  rw [readValue, skipBlanks_append blank, skipBlanks_cons (by decide)]
  rfl

theorem readValue_bracket : readValue (depth + 1) (blanks ++ '[' :: rest) =
    (readBlock ']' (readValue depth) rest).map fun read => (.list read.1, read.2) := by
  rw [readValue, skipBlanks_append blank, skipBlanks_cons (by decide)]
  rfl

theorem readValue_brace : readValue (depth + 1) (blanks ++ '\x7b' :: rest) =
    (readBlock '\x7d' (readField (readValue depth)) rest).map
      fun read => (.record read.1, read.2) := by
  rw [readValue, skipBlanks_append blank, skipBlanks_cons (by decide)]
  rfl

theorem readValue_digit {digit : Char} (isDigit : digit.isDigit = true) :
    readValue (depth + 1) (blanks ++ digit :: rest) =
      (readNumber (digit :: rest)).map fun read => (.number read.1, read.2) := by
  have mark : isSpace digit = false := by
    rw [Bool.eq_false_iff]
    intro space
    simp only [isSpace, Bool.or_eq_true, beq_iff_eq] at space
    rcases space with ((rfl | rfl) | rfl) | rfl <;> cases isDigit
  rw [readValue, skipBlanks_append blank, skipBlanks_cons mark]
  split
  · rename_i same
    cases same
    cases isDigit
  · rename_i same
    cases same
    cases isDigit
  · rename_i same
    cases same
    cases isDigit
  · rfl

end Opened

theorem readValue_valueText (depth : Nat) {blanks : List Char}
    (blank : ∀ c ∈ blanks, isSpace c = true) (value : FieldValue) {rest : List Char}
    (ends : Ends rest) :
    readValue (depth + 1) (blanks ++ ((Record.valueText value).toList ++ rest)) =
      some (ofField value, rest) := by
  cases value with
  | number value =>
      have read := readNumber_decimalDigits value ends
      have nonempty : Numeral.decimalDigits value ≠ [] := Nat.toDigits_ne_nil
      obtain ⟨digit, digits, written⟩ := List.exists_cons_of_ne_nil nonempty
      have isDigit : digit.isDigit = true :=
        @Nat.isDigit_of_mem_toDigits 10 value digit (by decide) (by decide)
          (show digit ∈ Numeral.decimalDigits value by simp [written])
      rw [Record.valueText, Numeral.decimal, String.toList_ofList, written, List.cons_append,
        readValue_digit blank _ isDigit, ← List.cons_append, ← written, read]
      rfl
  | text value =>
      have read := @readText_quote [] (by simp) value rest
      rw [List.nil_append, toList_quote, List.append_assoc, List.cons_append] at read
      rw [Record.valueText, toList_quote, List.append_assoc, List.cons_append,
        readValue_quote blank, read]
      rfl

theorem readField_fieldText (depth : Nat) {blanks : List Char}
    (blank : ∀ c ∈ blanks, isSpace c = true) (field : String × FieldValue) {rest : List Char}
    (ends : Ends rest) :
    readField (readValue (depth + 1)) (blanks ++ ((Record.fieldText field).toList ++ rest)) =
      some ((field.1, ofField field.2), rest) := by
  have value := readValue_valueText depth (by simp [isSpace] : ∀ c ∈ [' '], isSpace c = true)
    field.2 ends
  have colon := readMark_self (by decide : isSpace ':' = false)
    (' ' :: ((Record.valueText field.2).toList ++ rest))
  have split : (Record.fieldText field).toList ++ rest = (Record.quote field.1).toList ++
      ':' :: ' ' :: ((Record.valueText field.2).toList ++ rest) := by
    simp [Record.fieldText]
  rw [List.singleton_append] at value
  rw [split, readField, readText_quote blank]
  simp [colon, value]

theorem readValue_textBehind (depth : Nat) {margin : String}
    (blank_margin : ∀ c ∈ margin.toList, isSpace c = true) {blanks : List Char}
    (blank : ∀ c ∈ blanks, isSpace c = true) (fields : Record) (rest : List Char) :
    readValue (depth + 2) (blanks ++ ((fields.textBehind margin).toList ++ rest)) =
      some (ofRecord fields, rest) := by
  obtain ⟨inside, written, read⟩ := @readBlock_block _ _ "\x7b" "\x7d" margin '\x7d' rfl rfl
    (by decide) blank_margin (readField (readValue (depth + 1))) Record.fieldText
    (fun field => (field.1, ofField field.2)) (fun rest => rfl) fields
    (fun field _ blanks blank rest ends => readField_fieldText depth blank field ends) rest
  rw [Record.textBehind, written]
  exact (readValue_brace blank inside).trans (by rw [read]; rfl)

theorem readValue_listText (depth : Nat) (records : List Record) (rest : List Char) :
    readValue (depth + 3) ((Record.listText records).toList ++ rest) =
      some (list (records.map ofRecord), rest) := by
  have spaces : ∀ c ∈ "  ".toList, isSpace c = true := by simp [isSpace]
  obtain ⟨inside, written, read⟩ := @readBlock_block _ _ "[" "]" "" ']' rfl rfl (by decide)
    (by simp) (readValue (depth + 2)) (Record.textBehind "  ") ofRecord (fun rest => rfl) records
    (fun fields _ blanks blank rest _ => readValue_textBehind depth spaces blank fields rest) rest
  rw [Record.listText, written]
  exact (@readValue_bracket (depth + 2) [] (by simp) inside).trans (by rw [read]; rfl)

/-! ## Main results -/

/-- A block is long enough for the brackets that it may hold. -/
theorem two_le_length_block {opening closing : String} (opening_pos : 0 < opening.length)
    (closing_pos : 0 < closing.length) (margin : String) (members : List String) :
    2 ≤ (Record.block opening closing margin members).length := by
  unfold Record.block
  split
  · rw [String.length_append]
    omega
  · simp only [String.length_append]
    omega

/-- A value that is read at every sufficient depth is what its text is read as. -/
theorem read?_of_readValue {text : String} {value : Json} (long : 2 ≤ text.length)
    (read : ∀ depth, readValue (depth + 3) (text.toList ++ ['\n']) = some (value, ['\n'])) :
    read? (text ++ "\n") = some value := by
  obtain ⟨depth, length_eq⟩ := Nat.exists_eq_add_of_le' long
  have length : (text ++ "\n").length = depth + 3 := by
    rw [String.length_append, length_eq]
    rfl
  have chars : (text ++ "\n").toList = text.toList ++ ['\n'] := by
    simp
  rw [read?, length, chars, read]
  rfl

/-- A written list of records reads back. -/
theorem read?_listText (records : List Record) :
    read? (Record.listText records ++ "\n") = some (list (records.map ofRecord)) :=
  read?_of_readValue (two_le_length_block (by decide) (by decide) _ _) fun depth =>
    readValue_listText depth records ['\n']

end Json

end ScriptDisassembler
