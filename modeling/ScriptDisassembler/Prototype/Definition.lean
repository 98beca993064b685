import ScriptDisassembler.Prototype.Table

/-!
# Definition texts, line by line

Prototypes are defined by three formats of text.

* A counts file has lines `0001=1,wait`: opcode, operand count, and a description nobody reads.  A
  semicolon at its start makes a line a comment; a line without `=` and a comma behind it says
  nothing.
* A names file has lines `0001 wait(ms)`: four characters for the opcode and a name up to a
  parenthesis.  A semicolon starts a comment anywhere.
* A dump has one prototype in a line, as `Prototype.line` writes it.  A semicolon starts a comment
  anywhere.

Every line is ignored, accepted with one update of the table, or rejected for a stated reason;
`Format.verdict` decides which, from that line alone.
-/

namespace ScriptDisassembler

/-- The formats of definition texts. -/
inductive Format
  /-- Operand counts by opcode. -/
  | counts
  /-- Names by opcode. -/
  | names
  /-- Whole prototypes. -/
  | dump
deriving DecidableEq, Repr

/-- A change to a table. -/
inductive Update
  /-- An opcode becomes an unnamed function of so many operands. -/
  | declare (opcode : UInt16) (count : OperandCount)
  /-- An opcode gets a name. -/
  | setName (opcode : UInt16) (name : String)
  /-- A prototype takes its place. -/
  | insert (prototype : Prototype)
deriving DecidableEq, Repr

/-- The opcode that an update is about. -/
def Update.opcode : Update → UInt16
  | declare opcode _ => opcode
  | setName opcode _ => opcode
  | insert prototype => prototype.opcode

/-- The table after an update. -/
def Table.apply (table : Table) : Update → Table
  | .declare opcode count => table.declare opcode count
  | .setName opcode name => table.setName opcode name
  | .insert prototype => table.insert prototype

/-- The table after updates in order. -/
def Table.applyAll (table : Table) (updates : List Update) : Table :=
  updates.foldl apply table

/-- Why a line does not define anything although it should. -/
inductive Rejection
  /-- A part of the line can not be read. -/
  | malformed (fault : Malformed)
  /-- The line has no four bytes for an opcode. -/
  | tooShort (line : String)
  /-- Nothing that could be a name follows the opcode. -/
  | nameless (opcode : UInt16)
deriving DecidableEq, Repr

/-- The wording of a rejection. -/
def Rejection.message : Rejection → String
  | malformed fault => (Error.malformed fault none).message
  | tooShort line => "too short - '" ++ line ++ "'"
  | nameless opcode => "no name for 0x" ++ Numeral.hexPadded 4 opcode.toNat

/-- What a line of a definition text amounts to. -/
inductive Verdict
  /-- The line says nothing. -/
  | ignored
  /-- The line changes the table. -/
  | accepted (update : Update)
  /-- The line is skipped for a reason. -/
  | rejected (reason : Rejection)
deriving DecidableEq, Repr

namespace Verdict

/-- The verdict on a line that must yield an update. -/
def ofResult : Except Malformed Update → Verdict
  | .ok update => accepted update
  | .error fault => rejected (.malformed fault)

/-- The change that an accepted line makes. -/
def update? : Verdict → Option Update
  | accepted update => some update
  | _ => none

/-- The reason for which a line is skipped. -/
def rejection? : Verdict → Option Rejection
  | rejected reason => some reason
  | _ => none

end Verdict

namespace Format

/-- The verdict on a line of a counts file. -/
def countsVerdict (line : List Char) : Verdict :=
  let content := Text.strip line
  if content.isEmpty || content.head? == some ';' then .ignored
  else
    match Text.cutAt? '=' content with
    | none => .ignored
    | some (opcode, behind) =>
        match Text.cutAt? ',' behind with
        | none => .ignored
        | some (count, _) =>
            .ofResult do return .declare (← readOpcode opcode) (← readCount count)

/-- The verdict on a line of a names file. -/
def namesVerdict (line : List Char) : Verdict :=
  let content := Text.strip (Text.upTo ';' line)
  if content.isEmpty then .ignored
  else
    match Text.cutBytes? 4 content with
    | none => .rejected (.tooShort (String.ofList content))
    | some (opcode, behind) =>
        match readOpcode opcode with
        | .error fault => .rejected (.malformed fault)
        | .ok opcode =>
            let name := Text.strip (Text.upTo '(' behind)
            if name.isEmpty then .rejected (.nameless opcode)
            else .accepted (.setName opcode (String.ofList name))

/-- The verdict on a line of a dump. -/
def dumpVerdict (line : List Char) : Verdict :=
  let content := Text.upTo ';' line
  if (Text.strip content).isEmpty then .ignored
  else .ofResult do return .insert (← Prototype.ofLine content)

/-- The verdict on a line of a text in this format. -/
def verdict : Format → List Char → Verdict
  | counts => countsVerdict
  | names => namesVerdict
  | dump => dumpVerdict

end Format

end ScriptDisassembler
