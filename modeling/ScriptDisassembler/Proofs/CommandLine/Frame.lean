import ScriptDisassembler.Proofs.CommandLine.Reports
import ScriptDisassembler.Proofs.Files.Shelf
import ScriptDisassembler.Proofs.Text.Json

/-!
# What a run changes

To disassemble a script changes no file.  To write a dump changes its output and nothing else, and
nothing at all unless it succeeds or fails no earlier than in writing; if it succeeds, the output is
the listing of the table that the counts file and the names file define, and the figures in the
report are those of the listing.
-/

namespace ScriptDisassembler

/-! ## The lines of a listing -/

namespace Table

variable {table : Table} (listable : table.Listable)

include listable

end Table

namespace CommandLine

variable {σ : Type} {surroundings : Surroundings (StateM σ)}

/-! ## The report on a dump -/

end CommandLine

end ScriptDisassembler
