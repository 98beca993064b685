import ScriptDisassembler.Notice
import ScriptDisassembler.Text.Lines

/-!
# Loading definition texts

A definition text is loaded into a table by the updates of its accepted lines, in order.  Loading
never fails: every rejected line is reported, and one last notice gives the number of accepted ones.
-/

namespace ScriptDisassembler

/-- The outcome of loading a definition text. -/
structure Loading where
  /-- The table with the accepted lines in it. -/
  table : Table
  /-- The number of accepted lines. -/
  count : Nat
  /-- What was reported, in order. -/
  notices : List Notice
deriving DecidableEq

namespace Format

/-- The verdicts on the lines of a text. -/
def verdicts (format : Format) (text : String) : List Verdict :=
  (Text.lines text.toList).map format.verdict

/-- The updates of the accepted lines of a text. -/
def updates (format : Format) (text : String) : List Update :=
  (format.verdicts text).filterMap Verdict.update?

/-- The notices on the rejected lines of a text. -/
def rejections (format : Format) (text : String) : List Notice :=
  ((format.verdicts text).zipIdx 1).filterMap fun (verdict, line) =>
    verdict.rejection?.map (Notice.skipped format line)

end Format

/-- Load a definition text into a table. -/
def Table.load (table : Table) (format : Format) (text : String) : Loading :=
  let updates := format.updates text
  { table := table.applyAll updates
    count := updates.length
    notices := format.rejections text ++ [.loaded format updates.length] }

end ScriptDisassembler
