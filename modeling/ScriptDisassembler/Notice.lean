import ScriptDisassembler.Prototype.Definition

/-!
# Notices

What the library has to say beside its results, as data: which definitions were skipped, how much
was loaded, and which gaps were bridged while decoding and writing.  A notice has a level, by which
a reader may choose, and one line of text.
-/

namespace ScriptDisassembler

/-- How much attention a notice wants. -/
inductive Level
  /-- Something was wrong and was worked around. -/
  | warning
  /-- A result in figures. -/
  | info
  /-- A detail for whoever looks for the reason of something. -/
  | debug
deriving DecidableEq, Repr

/-- Whether notices of a level are shown where another level is chosen: what is less urgent than the
chosen level is not. -/
def Level.admits : Level → Level → Bool
  | .warning, level => level == .warning
  | .info, level => level != .debug
  | .debug, _ => true

/-- Something that happened on the way to a result. -/
inductive Notice
  /-- A line of a definition text was skipped; lines count from one. -/
  | skipped (format : Format) (line : Nat) (reason : Rejection)
  /-- A definition text was loaded, with so many accepted lines. -/
  | loaded (format : Format) (count : Nat)
  /-- An opcode without a prototype was taken to have no operands. -/
  | assumedNoOperands (opcode : UInt16) (offset : Nat)
  /-- An operator had to be written as a call because of its operand count. -/
  | operatorArity (opcode : UInt16) (count : OperandCount)
  /-- So many prototypes are at hand. -/
  | available (count : Nat)
  /-- A script was disassembled to its end. -/
  | disassembled (instructions bytes : Nat)
deriving DecidableEq, Repr

namespace Notice

open Numeral

/-- The level of a notice. -/
def level : Notice → Level
  | skipped .. | operatorArity .. => .warning
  | disassembled .. => .info
  | loaded .. | assumedNoOperands .. | available .. => .debug

/-- Whether a notice is shown where a level is chosen, by its own level alone. -/
def shownAt (chosen : Level) (notice : Notice) : Bool :=
  chosen.admits notice.level

/-- The word for a format in the notice of a skipped line. -/
def source : Format → String
  | .counts => "counts"
  | .names => "names"
  | .dump => "dump"

/-- What the accepted lines of a format are called. -/
def harvest : Format → String
  | .counts => "operand counts"
  | .names => "opcode names"
  | .dump => "prototypes from dump"

/-- The wording of a notice. -/
def text : Notice → String
  | skipped format line reason =>
      "Skipping " ++ source format ++ " line " ++ decimal line ++ ": " ++ reason.message
  | loaded format count => "Loaded " ++ decimal count ++ " " ++ harvest format
  | assumedNoOperands opcode offset =>
      "Opcode 0x" ++ hexPadded 4 opcode.toNat ++ " at offset 0x" ++ hex offset
        ++ " has no prototype, assuming no operands"
  | operatorArity opcode count => (Error.operatorArity opcode count).message
  | available count => decimal count ++ " prototypes available"
  | disassembled instructions bytes =>
      decimal instructions ++ " instructions in " ++ decimal bytes ++ " bytes"

end Notice

end ScriptDisassembler
