import ScriptDisassembler.Text.Numeral

/-!
# Records as JSON

Reports for programs are JSON: one record, or a list of records, whose fields are numbers and texts.
The layout is that of the indenting printer of `serde_json`, which the program leaves this to: a
field to a line, two spaces for every level, brackets around nothing closed at once, and only those
characters of a text escaped that JSON does not allow in one.
-/

namespace ScriptDisassembler

/-- The value of a field. -/
inductive FieldValue
  /-- A number. -/
  | number (value : Nat)
  /-- A text. -/
  | text (value : String)
deriving DecidableEq, Repr

/-- Names with their values, in order. -/
abbrev Record :=
  List (String × FieldValue)

namespace Record

/-- A character inside a quoted text.  The quote, the backslash and the control characters are
written as escapes; everything else stands for itself. -/
def escape (c : Char) : List Char :=
  if c = '"' then ['\\', '"']
  else if c = '\\' then ['\\', '\\']
  else if c = '\n' then ['\\', 'n']
  else if c = '\r' then ['\\', 'r']
  else if c = '\t' then ['\\', 't']
  else if c.toNat = 0x08 then ['\\', 'b']
  else if c.toNat = 0x0c then ['\\', 'f']
  else if c.toNat < 0x20 then
    '\\' :: 'u' :: Numeral.padded 4 (Numeral.hexDigits c.toNat)
  else [c]

/-- A text between quotes. -/
def quote (text : String) : String :=
  String.ofList ('"' :: text.toList.flatMap escape ++ ['"'])

/-- The text of a value. -/
def valueText : FieldValue → String
  | .number value => Numeral.decimal value
  | .text value => quote value

/-- The text of a field: its name and its value. -/
def fieldText (field : String × FieldValue) : String :=
  quote field.1 ++ ": " ++ valueText field.2

/-- Texts in brackets, one to a line behind the given margin; brackets around nothing stand
together. -/
def block (opening closing margin : String) (members : List String) : String :=
  if members.isEmpty then opening ++ closing
  else
    opening ++ "\n" ++ String.intercalate ",\n" (members.map fun member => margin ++ "  " ++ member)
      ++ "\n" ++ margin ++ closing

/-- The text of a record whose closing bracket stands behind the given margin. -/
def textBehind (margin : String) (record : Record) : String :=
  block "\x7b" "\x7d" margin (record.map fieldText)

/-- The text of a record. -/
def text (record : Record) : String :=
  record.textBehind ""

/-- The text of a list of records. -/
def listText (records : List Record) : String :=
  block "[" "]" "" (records.map (textBehind "  "))

end Record

end ScriptDisassembler
