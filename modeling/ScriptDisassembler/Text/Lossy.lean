/-!
# Reading bytes as UTF-8 text

Well-formed UTF-8 is read as it stands.  Of anything else, every longest piece that could still
have become a character, and every byte that could not start one, is read as one replacement
character.  The reader looks at one byte at a time: its state is the part of a character that it
has seen so far.
-/

namespace ScriptDisassembler.Text

/-- The character that stands for bytes that are no UTF-8. -/
def replacement : Char :=
  '\uFFFD'

/-- A character of which some bytes are read and others outstanding. -/
structure OpenCharacter where
  /-- The bits of the code point that are known, without those of the outstanding bytes. -/
  bits : Nat
  /-- The number of bytes that follow the next one. -/
  later : Nat
  /-- The least byte that may come next. -/
  least : UInt8
  /-- The greatest byte that may come next. -/
  greatest : UInt8
deriving DecidableEq, Repr

/-- What a byte does where a character may begin. -/
inductive Opening
  /-- The byte is a character by itself. -/
  | whole (c : Char)
  /-- The byte begins a character of several bytes. -/
  | begun (character : OpenCharacter)
  /-- No character begins with the byte. -/
  | impossible
deriving DecidableEq, Repr

/-- What a byte does where a character may begin.  The bounds on the second byte keep out overlong
forms, surrogates and code points past the last one. -/
def Opening.ofByte (byte : UInt8) : Opening :=
  let value := byte.toNat
  if value < 0x80 then .whole (Char.ofNat value)
  else if value < 0xc2 then .impossible
  else if value < 0xe0 then .begun ⟨value - 0xc0, 0, 0x80, 0xbf⟩
  else if value = 0xe0 then .begun ⟨0, 1, 0xa0, 0xbf⟩
  else if value = 0xed then .begun ⟨0x0d, 1, 0x80, 0x9f⟩
  else if value < 0xf0 then .begun ⟨value - 0xe0, 1, 0x80, 0xbf⟩
  else if value = 0xf0 then .begun ⟨0, 2, 0x90, 0xbf⟩
  else if value < 0xf4 then .begun ⟨value - 0xf0, 2, 0x80, 0xbf⟩
  else if value = 0xf4 then .begun ⟨4, 2, 0x80, 0x8f⟩
  else .impossible

/-- The text read so far and the character that is still open. -/
structure LossyReader where
  /-- The characters that are settled. -/
  text : String
  /-- The character whose bytes are being read. -/
  pending : Option OpenCharacter
deriving DecidableEq, Repr

namespace LossyReader

/-- Nothing is read yet. -/
def start : LossyReader :=
  ⟨"", none⟩

/-- Read a byte where a character may begin. -/
def openWith (text : String) (byte : UInt8) : LossyReader :=
  match Opening.ofByte byte with
  | .whole c => ⟨text.push c, none⟩
  | .begun character => ⟨text, some character⟩
  | .impossible => ⟨text.push replacement, none⟩

/-- Read one byte.  A byte that does not continue the open character settles it as a replacement
and is then read anew. -/
def read (reader : LossyReader) (byte : UInt8) : LossyReader :=
  match reader.pending with
  | none => openWith reader.text byte
  | some character =>
      if character.least ≤ byte ∧ byte ≤ character.greatest then
        let bits := character.bits * 64 + (byte.toNat - 0x80)
        match character.later with
        | 0 => ⟨reader.text.push (Char.ofNat bits), none⟩
        | later + 1 => ⟨reader.text, some ⟨bits, later, 0x80, 0xbf⟩⟩
      else openWith (reader.text.push replacement) byte

/-- The text when no byte follows: a character left open becomes a replacement. -/
def finish (reader : LossyReader) : String :=
  match reader.pending with
  | none => reader.text
  | some _ => reader.text.push replacement

end LossyReader

/-- The text of bytes, with replacement characters for what is no UTF-8. -/
def ofBytesLossy (bytes : List UInt8) : String :=
  (bytes.foldl LossyReader.read LossyReader.start).finish

@[simp]
theorem ofBytesLossy_nil : ofBytesLossy [] = "" :=
  rfl

/-- The bytes of a text in UTF-8. -/
def utf8Bytes (text : String) : List UInt8 :=
  text.toList.flatMap String.utf8EncodeChar

end ScriptDisassembler.Text
