import ScriptDisassembler.Operand.Kind

/-!
# Operand type tags

Every stored operand starts with one tag byte.  The tag decides how many payload bytes follow
and which kind the operand has.  `ofCode?_eq_some_iff` says that the byte and the tag determine
each other.
-/

namespace ScriptDisassembler

/-- The type tags an operand may start with, in the order of their codes. -/
inductive Tag
  /-- Ends an open-ended operand list. -/
  | endOfArguments
  /-- An immediate 32-bit integer. -/
  | signed32
  /-- A global 32-bit variable. -/
  | global32
  /-- A local 32-bit variable. -/
  | local32
  /-- An immediate 8-bit integer. -/
  | signed8
  /-- An immediate 16-bit integer. -/
  | signed16
  /-- An immediate single-precision number. -/
  | float32
  /-- An element of a global 32-bit array. -/
  | global32Element
  /-- An element of a local 32-bit array. -/
  | local32Element
  /-- An immediate string in a field of 8 bytes. -/
  | string8
  /-- A global variable holding an 8-byte string. -/
  | globalString8
  /-- A local variable holding an 8-byte string. -/
  | localString8
  /-- An element of a global array of 8-byte strings. -/
  | globalString8Element
  /-- An element of a local array of 8-byte strings. -/
  | localString8Element
  /-- An immediate string whose length byte precedes it. -/
  | variableString
  /-- An immediate string in a field of 16 bytes. -/
  | string16
  /-- A global variable holding a 16-byte string. -/
  | globalString16
  /-- A local variable holding a 16-byte string. -/
  | localString16
  /-- An element of a global array of 16-byte strings. -/
  | globalString16Element
  /-- An element of a local array of 16-byte strings. -/
  | localString16Element
deriving DecidableEq, Repr

/-- How the length of a payload is known. -/
inductive PayloadSize
  /-- The tag alone fixes the number of bytes. -/
  | fixed (size : Nat)
  /-- A length byte stands between tag and payload. -/
  | counted
deriving DecidableEq, Repr

namespace Tag

/-- Every tag, in the order of the codes. -/
def all : List Tag :=
  [endOfArguments, signed32, global32, local32, signed8, signed16, float32, global32Element,
    local32Element, string8, globalString8, localString8, globalString8Element,
    localString8Element, variableString, string16, globalString16, localString16,
    globalString16Element, localString16Element]

/-- The byte that stands for a tag. -/
def code : Tag → UInt8
  | endOfArguments => 0x00
  | signed32 => 0x01
  | global32 => 0x02
  | local32 => 0x03
  | signed8 => 0x04
  | signed16 => 0x05
  | float32 => 0x06
  | global32Element => 0x07
  | local32Element => 0x08
  | string8 => 0x09
  | globalString8 => 0x0a
  | localString8 => 0x0b
  | globalString8Element => 0x0c
  | localString8Element => 0x0d
  | variableString => 0x0e
  | string16 => 0x0f
  | globalString16 => 0x10
  | localString16 => 0x11
  | globalString16Element => 0x12
  | localString16Element => 0x13

/-- The tag that a byte stands for.  Codes count the tags from zero without a gap. -/
def ofCode? (code : UInt8) : Option Tag :=
  all[code.toNat]?

@[simp]
theorem ofCode?_code (tag : Tag) : ofCode? tag.code = some tag := by
  cases tag <;> rfl

/-- The codes number the tags. -/
theorem code_getElem_all (index : Fin all.length) : (all.get index).code.toNat = index := by
  revert index
  decide

/-- A byte stands for a tag exactly when it is that tag's code. -/
theorem ofCode?_eq_some_iff {code : UInt8} {tag : Tag} :
    ofCode? code = some tag ↔ code = tag.code := by
  constructor
  · intro found
    obtain ⟨bound, rfl⟩ := List.getElem?_eq_some_iff.mp found
    exact UInt8.toNat_inj.mp (code_getElem_all ⟨code.toNat, bound⟩).symm
  · rintro rfl
    exact ofCode?_code tag

/-- Bytes past the last tag stand for nothing. -/
theorem ofCode?_eq_none_iff {code : UInt8} : ofCode? code = none ↔ 0x14 ≤ code.toNat := by
  simp [ofCode?, all]

/-- How long the payload behind a tag is. -/
def payloadSize : Tag → PayloadSize
  | endOfArguments => .fixed 0
  | signed8 => .fixed 1
  | global32 | local32 | signed16 | globalString8 | localString8 | globalString16
  | localString16 => .fixed 2
  | signed32 | float32 => .fixed 4
  | global32Element | local32Element | globalString8Element | localString8Element
  | globalString16Element | localString16Element => .fixed 6
  | string8 => .fixed 8
  | string16 => .fixed 16
  | variableString => .counted

/-- What the payload behind a tag means. -/
def kind : Tag → Kind
  | endOfArguments => .terminator
  | signed8 | signed16 | signed32 => .integer
  | float32 => .float
  | string8 | string16 | variableString => .string
  | global32 => .globalScalar
  | local32 => .localScalar
  | global32Element => .globalArray
  | local32Element => .localArray
  | globalString8 | globalString16 => .globalString
  | localString8 | localString16 => .localString
  | globalString8Element | globalString16Element => .globalStringArray
  | localString8Element | localString16Element => .localStringArray

/-- Only the end marker is of the terminating kind. -/
theorem kind_eq_terminator_iff {tag : Tag} : tag.kind = .terminator ↔ tag = .endOfArguments := by
  cases tag <;> simp [kind]

end Tag

end ScriptDisassembler
