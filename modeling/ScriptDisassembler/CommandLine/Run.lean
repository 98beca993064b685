import ScriptDisassembler.CommandLine.Arguments
import ScriptDisassembler.Disassembly
import ScriptDisassembler.Files.Access
import ScriptDisassembler.Prototype.Loading
import ScriptDisassembler.Text.Record
import ScriptDisassembler.Text.Visible

/-!
# Running commands

A command reads and writes files through a `FileAccess`, so the same definition runs on the file
system of the machine and on a `Folder` in memory.  It puts out text, which can be refused, makes
notices, and may fail; `Outcome.ofRun` turns these into an exit code and the texts of the two output
channels.  All that a run meets outside of its arguments is in its `Surroundings`; only that a user
cancels it is left out, with the handler that the program sets for this.
-/

namespace ScriptDisassembler.CommandLine

/-- What a command was about when it failed. -/
inductive Context
  /-- Reading a dump of prototypes. -/
  | loadPrototypes (path : SystemText)
  /-- Reading a counts file. -/
  | loadCounts (path : SystemText)
  /-- Reading a names file. -/
  | loadNames (path : SystemText)
  /-- Reading a script. -/
  | loadScript (path : SystemText)
  /-- Writing a dump of prototypes. -/
  | writePrototypes (path : SystemText)
  /-- Writing the source lines of a script, after so many of them. -/
  | disassemble (path : SystemText) (lines : Nat)
deriving DecidableEq, Repr

/-- The wording of a context. -/
def Context.message : Context → String
  | loadPrototypes path => "failed to load prototypes: " ++ path.display
  | loadCounts path => "failed to load counts: " ++ path.display
  | loadNames path => "failed to load names: " ++ path.display
  | loadScript path => "failed to load script: " ++ path.display
  | writePrototypes path => "failed to write prototypes: " ++ path.display
  | disassemble path lines =>
      "failed to disassemble " ++ path.display ++ " after " ++ Numeral.decimal lines
        ++ " instructions"

/-- Why a command failed. -/
inductive Failure
  /-- Something went wrong with what the command was about. -/
  | command (context : Context) (cause : Error)
  /-- A path is to be reported in JSON and is no text. -/
  | unreportable
  /-- The output channel refused a text. -/
  | refused (cause : FileError)
deriving DecidableEq, Repr

namespace Failure

/-- The lines of several causes, numbered from zero. -/
def numbered (causes : List String) : List String :=
  causes.zipIdx.map fun (cause, index) => "    " ++ Numeral.decimal index ++ ": " ++ cause

/-- The lines of the causes; a single one has no number. -/
def causeLines : List String → List String
  | [cause] => ["    " ++ cause]
  | causes => numbered causes

/-- The report of a failure.  Of a refused text, what the running system says around the reason is
left out. -/
def text : Failure → String
  | command context cause =>
      "Error: " ++ context.message ++ "\n\nCaused by:\n"
        ++ String.join ((causeLines cause.causes).map (· ++ "\n"))
  | unreportable => "Error: path contains invalid UTF-8 characters\n"
  | refused cause => "failed printing to stdout: " ++ cause.message ++ "\n"

/-- The exit code of a failure.  Where a text is refused, the program breaks off. -/
def exitCode : Failure → Nat
  | command _ _ | unreportable => 1
  | refused _ => 101

end Failure

/-- What a command reports while it runs. -/
inductive Report
  /-- A notice, which may or may not be shown. -/
  | notice (notice : Notice)
  /-- A text as it stands. -/
  | text (text : String)
deriving DecidableEq

/-- What a command has put out so far. -/
structure Transcript where
  /-- The text on the output channel. -/
  output : String
  /-- What was reported on the error channel. -/
  reports : List Report
deriving DecidableEq

/-- What a run of the program meets outside of its arguments.  Of the environment, only `RUST_LOG`
is in it: colours and traces of calls, which other variables ask for, are not modelled. -/
structure Surroundings (m : Type → Type) where
  /-- The files. -/
  files : FileAccess m
  /-- Why the output channel refuses a text, if it does, behind what it has taken before. -/
  refusal? : String → String → Option FileError
  /-- Whether a notice is shown where the arguments choose a level.  Left to itself this is
  `Notice.shownAt`; a directive in the environment variable `RUST_LOG`, which `env_logger` reads,
  takes precedence over the choice. -/
  shows : Level → Notice → Bool

/-- Files alone: the output channel takes every text, and there is no directive. -/
def Surroundings.ofFiles {m : Type → Type} (files : FileAccess m) : Surroundings m :=
  ⟨files, fun _ _ => none, Notice.shownAt⟩

/-- A command over some way to reach files. -/
abbrev Task (m : Type → Type) :=
  ExceptT Failure (StateT Transcript m)

namespace Task

variable {m : Type → Type} [Monad m]

/-- Report. -/
def report (reports : List Report) : Task m Unit :=
  modify fun transcript => { transcript with reports := transcript.reports ++ reports }

/-- Make notices. -/
def notify (notices : List Notice) : Task m Unit :=
  report (notices.map .notice)

/-- Add text to the output. -/
def append (text : String) : Task m Unit :=
  modify fun transcript => { transcript with output := transcript.output ++ text }

/-- Put out text, unless it is refused. -/
def print (surroundings : Surroundings m) (text : String) : Task m Unit := do
  match surroundings.refusal? (← get).output text with
  | none => append text
  | some cause => throw (.refused cause)

/-- Put out texts one behind another, up to one that is refused. -/
def printAll (surroundings : Surroundings m) (texts : List String) : Task m Unit :=
  texts.forM (print surroundings)

/-- Add text to what is on a channel. -/
def appendOn (text : String) : Channel → Task m Unit
  | .output => append text
  | .errors => report [.text text]

/-- The result of a file operation, whose failure is that of the command. -/
def orFail {α : Type} (context : Context) (result : Except FileError α) : Task m α :=
  match result with
  | .ok value => return value
  | .error cause => throw (.command context (.file cause))

/-- The text of a file. -/
def readText (files : FileAccess m) (context : Context) (path : SystemText) : Task m String := do
  let content ← orFail context (← files.read path)
  return Text.ofBytesLossy content.toList

/-- Load a definition file into a table. -/
def loadInto (table : Table) (files : FileAccess m) (format : Format) (context : Context)
    (path : SystemText) : Task m Table := do
  let loading := table.load format (← readText files context path)
  notify loading.notices
  return loading.table

/-- Load the prototypes of definition files. -/
def loadPrototypes (files : FileAccess m) (definitions : DefinitionFiles) : Task m Table := do
  let table ← match definitions with
    | .dump path => loadInto .empty files .dump (.loadPrototypes path) path
    | .pair counts names => do
        let table ← loadInto .empty files .counts (.loadCounts counts) counts
        loadInto table files .names (.loadNames names) names
  notify [.available table.size]
  return table

/-- Read a script.  Scripts are mapped into memory. -/
def loadScript (files : FileAccess m) (path : SystemText) : Task m Script := do
  let content ← orFail (.loadScript path) (← files.map path)
  return ⟨content, some path⟩

/-- The line of an instruction, behind its offset in eight digits if so asked. -/
def plainLine (offsets : Bool) (line : SourceLine) : String :=
  (if offsets then Numeral.hexPadded 8 line.offset ++ "  " else "") ++ line.text ++ "\n"

/-- The record of an instruction. -/
def lineRecord (line : SourceLine) : Record :=
  [("offset", .number line.offset), ("opcode", .number line.opcode.toNat),
    ("text", .text line.text)]

/-- The texts that are put out for source lines: one in JSON, or else one for each of them. -/
def linesTexts (reporting : Reporting) (offsets : Bool) (lines : List SourceLine) : List String :=
  if reporting.json then [Record.listText (lines.map lineRecord) ++ "\n"]
  else lines.map (plainLine offsets)

/-- Write the source lines of a script, up to the first instruction that fails. -/
def disassemble (surroundings : Surroundings m) (reporting : Reporting) (path : SystemText)
    (definitions : DefinitionFiles) (offsets strict : Bool) : Task m Unit := do
  let table ← loadPrototypes surroundings.files definitions
  let script ← loadScript surroundings.files path
  let decoder : Decoder := ⟨table.find?, if strict then .strict else .lenient⟩
  let disassembly := decoder.disassemble script.start
  notify disassembly.notices
  printAll surroundings (linesTexts reporting offsets disassembly.lines)
  match disassembly.failure with
  | some cause => throw (.command (.disassemble path disassembly.lines.length) cause)
  | none => notify [.disassembled disassembly.lines.length script.size]

/-- The report on a dump in the form that is asked for.  JSON holds texts only, so it has none for a
path that is no text. -/
def summaryText (reporting : Reporting) (table : Table) (output : SystemText) :
    Except Failure String :=
  if reporting.json then
    match output.text? with
    | some path =>
        .ok (Record.text
          [("output", .text path), ("prototypes", .number table.size),
            ("named", .number table.namedCount)] ++ "\n")
    | none => .error .unreportable
  else
    .ok ("Wrote " ++ Numeral.decimal table.size ++ " prototypes ("
      ++ Numeral.decimal table.namedCount ++ " named) to " ++ output.display ++ "\n")

/-- Write the dump of the prototypes in a counts file and a names file. -/
def dumpPrototypes (surroundings : Surroundings m) (reporting : Reporting)
    (counts names output : SystemText) : Task m Unit := do
  let table ← loadPrototypes surroundings.files (.pair counts names)
  let channel ← orFail (.writePrototypes output)
    (← surroundings.files.write output (Text.utf8Bytes table.listing).toArray)
  match channel with
  | some channel => appendOn table.listing channel
  | none => pure ()
  match summaryText reporting table output with
  | .ok summary => print surroundings summary
  | .error failure => throw failure

/-- Perform a command. -/
def perform (surroundings : Surroundings m) (reporting : Reporting) : Command → Task m Unit
  | .disassemble script definitions offsets strict =>
      disassemble surroundings reporting script definitions offsets strict
  | .dumpPrototypes counts names output =>
      dumpPrototypes surroundings reporting counts names output

end Task

/-- The level that is chosen for notices. -/
def Reporting.level (reporting : Reporting) : Level :=
  if reporting.verbose then .debug else .info

/-- What a run of the program leaves beside files. -/
structure Outcome where
  /-- The exit code. -/
  exitCode : Nat
  /-- The text on the output channel. -/
  output : String
  /-- The text on the error channel. -/
  errors : String
deriving DecidableEq, Repr

namespace Outcome

/-- Whether a notice is shown.  A report in JSON shows none. -/
def chooses (shows : Level → Notice → Bool) (reporting : Reporting) (notice : Notice) : Bool :=
  !reporting.json && shows reporting.level notice

/-- The mark of a level, in a column of its own. -/
def mark : Level → String
  | .warning => "[WARN ] "
  | .info => "[INFO ] "
  | .debug => "[DEBUG] "

/-- The line of a notice, without terminal control.  A control sequence that the text leaves open
takes the line end with it. -/
def noticeLine (notice : Notice) : String :=
  Text.visible (mark notice.level ++ notice.text ++ "\n")

/-- The text of a report, if it is shown. -/
def reportText (shows : Level → Notice → Bool) (reporting : Reporting) : Report → String
  | .notice notice => if chooses shows reporting notice then noticeLine notice else ""
  | .text text => text

/-- The outcome of a command that ended with a result and a transcript. -/
def ofRun (shows : Level → Notice → Bool) (reporting : Reporting)
    (result : Except Failure Unit) (transcript : Transcript) : Outcome :=
  let shown := String.join (transcript.reports.map (reportText shows reporting))
  match result with
  | .ok _ => ⟨0, transcript.output, shown⟩
  | .error failure => ⟨failure.exitCode, transcript.output, shown ++ failure.text⟩

end Outcome

/-- How the program is called. -/
def usage : String :=
  "Usage: scmscope [--json] [-v|--verbose] <COMMAND>\n\n"
    ++ "Commands:\n"
    ++ "  disasm SCRIPT (-p|--prototypes DUMP | --counts INI --names DEF) [--offsets] [--strict]\n"
    ++ "  dump-prototypes --counts INI --names DEF -o|--output DUMP\n"
    ++ "  help [COMMAND]\n"

/-- The name and version of the program. -/
def versionText : String :=
  "scmscope 0.1.0\n"

/-- Run the program. -/
def Surroundings.run {m : Type → Type} [Monad m] (surroundings : Surroundings m)
    (arguments : List SystemText) : m Outcome :=
  match Request.ofArguments arguments with
  | .misuse => return ⟨2, "", usage⟩
  | .help => return ⟨0, usage, ""⟩
  | .version => return ⟨0, versionText, ""⟩
  | .perform reporting command => do
      let (result, transcript) ←
        ((Task.perform surroundings reporting command).run).run ⟨"", []⟩
      return .ofRun surroundings.shows reporting result transcript

/-- Run the program on texts, where nothing but files surrounds it. -/
def run {m : Type → Type} [Monad m] (files : FileAccess m) (arguments : List String) : m Outcome :=
  (Surroundings.ofFiles files).run (arguments.map .ofText)

end ScriptDisassembler.CommandLine
