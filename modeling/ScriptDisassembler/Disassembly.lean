import ScriptDisassembler.Instruction.Stream
import ScriptDisassembler.Instruction.Text
import ScriptDisassembler.Text.System

/-!
# Disassembling a script

A disassembly is the source lines of a script's instructions, up to the end or to the first
instruction that can not be decoded or written.  Decoding and writing use the same lookup.
-/

namespace ScriptDisassembler

/-- The bytes of a script, and the path they were read from. -/
structure Script where
  /-- The bytes. -/
  data : Array UInt8
  /-- The path, if the script was read from a file. -/
  path : Option SystemText
deriving DecidableEq, Repr

namespace Script

/-- A script that was not read from a file. -/
def ofBytes (data : Array UInt8) : Script :=
  ⟨data, none⟩

/-- The number of bytes. -/
def size (script : Script) : Nat :=
  script.data.size

/-- Whether there are no bytes. -/
def isEmpty (script : Script) : Bool :=
  script.data.isEmpty

/-- The cursor in front of the first instruction. -/
def start (script : Script) : Cursor :=
  Cursor.start script.data

end Script

/-- An instruction in written form. -/
structure SourceLine where
  /-- The position of the instruction in the script. -/
  offset : Nat
  /-- Its opcode. -/
  opcode : UInt16
  /-- Its text. -/
  text : String
deriving DecidableEq, Repr

/-- The written form of a script, as far as it goes. -/
structure Disassembly where
  /-- The lines, in order. -/
  lines : List SourceLine
  /-- What ended the disassembly before the end of the script. -/
  failure : Option Error
  /-- What was noticed, in order. -/
  notices : List Notice
deriving DecidableEq

namespace Disassembly

/-- The line of one decoded instruction, with what was noticed while it was decoded and written. -/
def lineOf (lookup : Lookup) (item : Decoding Instruction) :
    Except Error SourceLine × List Notice :=
  match item.result with
  | .error error => (.error error, item.notices)
  | .ok instruction =>
      let written := instruction.text lookup
      (written.1.map (SourceLine.mk instruction.offset instruction.opcode),
        item.notices ++ written.2)

/-- The failure in a result. -/
def failure? (result : Except Error SourceLine × List Notice) : Option Error :=
  match result.1 with
  | .error error => some error
  | .ok _ => none

/-- The results up to the first failure, which is reached but gives no line. -/
def ofResults (results : List (Except Error SourceLine × List Notice)) : Disassembly :=
  let parts := results.span fun result => result.1.isOk
  let reached := parts.1 ++ parts.2.take 1
  { lines := parts.1.filterMap fun result => result.1.toOption
    failure := parts.2.head?.bind failure?
    notices := reached.flatMap Prod.snd }

end Disassembly

/-- The disassembly from a cursor on. -/
def Decoder.disassemble (decoder : Decoder) (cursor : Cursor) : Disassembly :=
  .ofResults ((decoder.items cursor).map (Disassembly.lineOf decoder.lookup))

end ScriptDisassembler
