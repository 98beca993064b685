import ScriptDisassembler.Instruction.Writing
import ScriptDisassembler.Main
import ScriptDisassembler.Proofs.Bytes.Passage
import ScriptDisassembler.Proofs.Text.Utf8
import ScriptDisassembler.Proofs.Operand.Stored
import ScriptDisassembler.Proofs.Operand.Sequence
import ScriptDisassembler.Proofs.Instruction.Stored
import ScriptDisassembler.Proofs.Instruction.Assembly
import ScriptDisassembler.Proofs.Operand.Composition
import ScriptDisassembler.Proofs.Operand.Failure
import ScriptDisassembler.Proofs.Operand.Relocation
import ScriptDisassembler.Proofs.Instruction.Step
import ScriptDisassembler.Proofs.Instruction.Failure
import ScriptDisassembler.Proofs.Instruction.Relocation
import ScriptDisassembler.Proofs.Instruction.Truncation
import ScriptDisassembler.Proofs.Instruction.Strictness
import ScriptDisassembler.Proofs.Text.Digits
import ScriptDisassembler.Proofs.Text.Pieces
import ScriptDisassembler.Proofs.Prototype.Line
import ScriptDisassembler.Proofs.Prototype.Definition
import ScriptDisassembler.Proofs.Prototype.Listing
import ScriptDisassembler.Proofs.Files.Writing
import ScriptDisassembler.Proofs.CommandLine.Scene
import ScriptDisassembler.Proofs.CommandLine.Definitions
import ScriptDisassembler.Proofs.CommandLine.Cache
import ScriptDisassembler.Proofs.Instruction.Agreement
import ScriptDisassembler.Proofs.Prototype.Stability
import ScriptDisassembler.Proofs.Instruction.Tiling
import ScriptDisassembler.Proofs.Operand.OpenEnd
import ScriptDisassembler.Proofs.Instruction.OpenEnd
import ScriptDisassembler.Proofs.Instruction.LineFeeds
import ScriptDisassembler.Proofs.Text.Json
import ScriptDisassembler.Proofs.CommandLine.Output
import ScriptDisassembler.Proofs.CommandLine.Verbosity
import ScriptDisassembler.Proofs.CommandLine.Reports
import ScriptDisassembler.Proofs.CommandLine.Frame
import ScriptDisassembler.Proofs.Operand.Grammar
import ScriptDisassembler.Proofs.Instruction.Writability
import ScriptDisassembler.Proofs.Instruction.Form
import ScriptDisassembler.Proofs.Operand.Locality
import ScriptDisassembler.Proofs.Instruction.Inversion
import ScriptDisassembler.Proofs.Operand.Counted
import ScriptDisassembler.Proofs.Instruction.Counted
import ScriptDisassembler.Proofs.Instruction.Progress
import ScriptDisassembler.Proofs.Prototype.Verdict
import ScriptDisassembler.Proofs.Prototype.Accounting
import ScriptDisassembler.Proofs.Prototype.Concatenation
import ScriptDisassembler.Proofs.Prototype.LineEnds
import ScriptDisassembler.Proofs.Prototype.Grammar
import ScriptDisassembler.Proofs.Prototype.Naming
import ScriptDisassembler.Proofs.Operand.Strings
import ScriptDisassembler.Proofs.Decimal.Rounding
import ScriptDisassembler.Proofs.Decimal.Spelling
import ScriptDisassembler.Proofs.Decimal.Shortest
import ScriptDisassembler.Proofs.Bytes.Checked
import ScriptDisassembler.Proofs.Bytes.Numbers
import ScriptDisassembler.Proofs.Operand.Floats
import ScriptDisassembler.Proofs.Operand.Visits
import ScriptDisassembler.Proofs.Instruction.Calls
