import ScriptDisassembler.Text.Lossy

/-!
# Texts of the system

The system hands over arguments and paths as bytes.  Nearly always they are a text in UTF-8, but
nothing says that they must be.
-/

namespace ScriptDisassembler

/-- An argument or a path, as the system has it. -/
structure SystemText where
  /-- The bytes. -/
  bytes : List UInt8
deriving DecidableEq, Repr

namespace SystemText

/-- A text as the system has it. -/
def ofText (text : String) : SystemText :=
  ⟨Text.utf8Bytes text⟩

instance : Coe String SystemText :=
  ⟨ofText⟩

/-- The text that is shown: what is no UTF-8 is replaced. -/
def display (given : SystemText) : String :=
  Text.ofBytesLossy given.bytes

/-- The text that the bytes are, if they are one. -/
def text? (given : SystemText) : Option String :=
  if ofText given.display = given then some given.display else none

end SystemText

end ScriptDisassembler
