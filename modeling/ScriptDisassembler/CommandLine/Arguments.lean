import ScriptDisassembler.Text.System

/-!
# Arguments of the command line

The arguments are read one after another by `Scan.step`.  They name a command, switch options on and
give values to parameters; `--` makes everything behind it an operand.  What is asked for is decided
at the first argument that can not be understood, that asks for help or for the version, or at the
end by `Scan.finish`.

The program only declares its commands and options, and leaves the reading to the `clap` parser.
The scan is that parser's grammar for them, by its documented rules: a value may stand behind an
equals sign, letters may be put together, no option is given twice in a section, no value is empty
or begins like an option, and the switches of the general section are known behind a command too.
-/

namespace ScriptDisassembler.CommandLine

/-- The byte that options begin with. -/
@[match_pattern]
abbrev hyphen : UInt8 :=
  0x2d

/-- The byte between an option and its value. -/
@[match_pattern]
abbrev equals : UInt8 :=
  0x3d

/-- Options that are on or off. -/
inductive Switch
  /-- Report in JSON. -/
  | json
  /-- Report details. -/
  | verbose
  /-- Put the offset in front of every line. -/
  | offsets
  /-- Refuse opcodes without a prototype. -/
  | strict
deriving DecidableEq, Repr

/-- Options that take the path of a file. -/
inductive Parameter
  /-- A dump of prototypes. -/
  | prototypes
  /-- A counts file. -/
  | counts
  /-- A names file. -/
  | names
  /-- The file to write. -/
  | output
deriving DecidableEq, Repr

/-- Where the arguments stand: in front of a command or behind its name. -/
inductive Section
  /-- In front of a command. -/
  | general
  /-- Behind the command that writes the source lines of a script. -/
  | disassemble
  /-- Behind the command that writes a dump of prototypes. -/
  | dump
  /-- Behind the command that explains the others. -/
  | help
deriving DecidableEq, Repr

namespace Section

/-- The section that the name of a command begins. -/
def ofName? (name : SystemText) : Option Section :=
  if name = "disasm" then some disassemble
  else if name = "dump-prototypes" then some dump
  else if name = "help" then some help
  else none

/-- The switch of a long name. -/
def longSwitch? (name : SystemText) : Section → Option Switch
  | place =>
      if name = "json" then some .json
      else if name = "verbose" then some .verbose
      else if name = "offsets" ∧ place = disassemble then some .offsets
      else if name = "strict" ∧ place = disassemble then some .strict
      else none

/-- The switch of a letter. -/
def shortSwitch? (letter : UInt8) : Option Switch :=
  if letter = 'v'.toUInt8 then some .verbose else none

/-- The parameter of a long name. -/
def longParameter? (name : SystemText) (place : Section) : Option Parameter :=
  if name = "prototypes" ∧ place = disassemble then some .prototypes
  else if name = "counts" ∧ (place = disassemble ∨ place = dump) then some .counts
  else if name = "names" ∧ (place = disassemble ∨ place = dump) then some .names
  else if name = "output" ∧ place = dump then some .output
  else none

/-- The parameter of a letter. -/
def shortParameter? (letter : UInt8) (place : Section) : Option Parameter :=
  if letter = 'p'.toUInt8 ∧ place = disassemble then some .prototypes
  else if letter = 'o'.toUInt8 ∧ place = dump then some .output
  else none

/-- How many operands may follow. -/
def operandLimit : Section → Nat
  | disassemble | help => 1
  | general | dump => 0

end Section

/-- Why reading stops before the last argument. -/
inductive Stop
  /-- The arguments can not be understood. -/
  | misuse
  /-- Help is asked for. -/
  | help
  /-- The version is asked for. -/
  | version
deriving DecidableEq, Repr

/-- What the arguments read so far amount to. -/
structure Scan where
  /-- Where they stand. -/
  place : Section
  /-- The switches given in this section. -/
  switches : List Switch
  /-- The switches given in front of the command. -/
  earlier : List Switch
  /-- The parameters given, with their values. -/
  values : List (Parameter × SystemText)
  /-- The operands given. -/
  operands : List SystemText
  /-- The parameter whose value comes next. -/
  pending : Option Parameter
  /-- Whether all that follows is an operand. -/
  literal : Bool
deriving DecidableEq, Repr

namespace Scan

/-- Nothing is read yet. -/
def start : Scan :=
  ⟨.general, [], [], [], [], none, false⟩

/-- Switch an option on; no option is given twice in a section. -/
def giveSwitch (scan : Scan) (option : Switch) : Except Stop Scan :=
  if option ∈ scan.switches then throw .misuse
  else return { scan with switches := option :: scan.switches }

/-- Give a parameter its value, which is not empty; no parameter is given twice. -/
def giveValue (scan : Scan) (parameter : Parameter) (value : SystemText) : Except Stop Scan :=
  if value.bytes = [] ∨ (scan.values.lookup parameter).isSome then throw .misuse
  else return { scan with values := (parameter, value) :: scan.values, pending := none }

/-- Await the value of a parameter. -/
def await (scan : Scan) (parameter : Parameter) : Scan :=
  { scan with pending := some parameter }

/-- Read a command or an operand. -/
def giveOperand (scan : Scan) (operand : SystemText) : Except Stop Scan :=
  if scan.place = .general ∧ scan.literal = false then
    match Section.ofName? operand with
    | some place => return { start with place := place, earlier := scan.switches }
    | none => throw .misuse
  else if scan.place = .help ∧ (Section.ofName? operand).isNone then throw .misuse
  else if operand.bytes = [] ∨ scan.place.operandLimit ≤ scan.operands.length then throw .misuse
  else return { scan with operands := scan.operands ++ [operand] }

/-- Read an option by its long name, with the value behind an equals sign if there is one. -/
def giveLong (scan : Scan) (name : SystemText) (value : Option SystemText) : Except Stop Scan :=
  match scan.place.longParameter? name with
  | some parameter =>
      match value with
      | some value => scan.giveValue parameter value
      | none => return scan.await parameter
  | none =>
      if value.isSome then throw .misuse
      else
        match Section.longSwitch? name scan.place with
        | some option => scan.giveSwitch option
        | none =>
            if name = "help" then throw .help
            else if name = "version" ∧ scan.place = .general then throw .version
            else throw .misuse

/-- Read options by their letters.  What follows the letter of a parameter is its value, and an
equals sign may stand between them. -/
def giveLetters (scan : Scan) : List UInt8 → Except Stop Scan
  | [] => return scan
  | letter :: rest =>
      match scan.place.shortParameter? letter with
      | some parameter =>
          match rest with
          | [] => return scan.await parameter
          | equals :: value => scan.giveValue parameter ⟨value⟩
          | value => scan.giveValue parameter ⟨value⟩
      | none =>
          match Section.shortSwitch? letter with
          | some option => do
              let scan ← scan.giveSwitch option
              scan.giveLetters rest
          | none =>
              if letter = 'h'.toUInt8 then throw .help
              else if letter = 'V'.toUInt8 ∧ scan.place = .general then throw .version
              else throw .misuse

/-- A long name and the value behind its first equals sign. -/
def splitLong (text : List UInt8) : SystemText × Option SystemText :=
  match text.dropWhile (· != equals) with
  | [] => (⟨text⟩, none)
  | _ :: value => (⟨text.takeWhile (· != equals)⟩, some ⟨value⟩)

/-- Read one argument. -/
def step (scan : Scan) (argument : SystemText) : Except Stop Scan :=
  if scan.literal then scan.giveOperand argument
  else
    match scan.pending, argument.bytes with
    | some parameter, [hyphen] => scan.giveValue parameter argument
    | some _, hyphen :: _ => throw .misuse
    | some parameter, _ => scan.giveValue parameter argument
    | none, hyphen :: rest =>
        if scan.place = .help then throw .misuse
        else
          match rest with
          | [] => scan.giveOperand argument
          | [hyphen] => return { scan with literal := true }
          | hyphen :: text => scan.giveLong (splitLong text).1 (splitLong text).2
          | letters => scan.giveLetters letters
    | none, _ => scan.giveOperand argument

end Scan

/-- Where prototypes come from. -/
inductive DefinitionFiles
  /-- A dump. -/
  | dump (path : SystemText)
  /-- A counts file, and a names file for the opcodes in it. -/
  | pair (counts names : SystemText)
deriving DecidableEq, Repr

/-- What to do. -/
inductive Command
  /-- Write the source lines of a script. -/
  | disassemble (script : SystemText) (definitions : DefinitionFiles) (offsets strict : Bool)
  /-- Write a dump of prototypes. -/
  | dumpPrototypes (counts names output : SystemText)
deriving DecidableEq, Repr

/-- How to report. -/
structure Reporting where
  /-- In JSON. -/
  json : Bool
  /-- With details. -/
  verbose : Bool
deriving DecidableEq, Repr

/-- What the arguments ask for. -/
inductive Request
  /-- Nothing that could be understood. -/
  | misuse
  /-- Help. -/
  | help
  /-- The version. -/
  | version
  /-- A command. -/
  | perform (reporting : Reporting) (command : Command)
deriving DecidableEq, Repr

namespace Scan

/-- Whether a switch was given anywhere. -/
def has (scan : Scan) (option : Switch) : Bool :=
  scan.switches.contains option || scan.earlier.contains option

/-- The files that define prototypes: a dump alone, or a counts file with a names file. -/
def definitions? (scan : Scan) : Option DefinitionFiles :=
  match scan.values.lookup .prototypes, scan.values.lookup .counts, scan.values.lookup .names with
  | some dump, none, none => some (.dump dump)
  | none, some counts, some names => some (.pair counts names)
  | _, _, _ => none

/-- The command that complete arguments give. -/
def command? (scan : Scan) : Option Command :=
  match scan.place, scan.operands with
  | .disassemble, [script] =>
      scan.definitions?.map fun definitions =>
        .disassemble script definitions (scan.has .offsets) (scan.has .strict)
  | .dump, [] => do
      let counts ← scan.values.lookup .counts
      let names ← scan.values.lookup .names
      let output ← scan.values.lookup .output
      return .dumpPrototypes counts names output
  | _, _ => none

/-- What the arguments ask for when there are no more of them. -/
def finish (scan : Scan) : Request :=
  if scan.place = .help then .help
  else if scan.pending.isSome then .misuse
  else
    match scan.command? with
    | some command => .perform ⟨scan.has .json, scan.has .verbose⟩ command
    | none => .misuse

end Scan

/-- What arguments ask for. -/
def Request.ofArguments (arguments : List SystemText) : Request :=
  match arguments.foldlM Scan.step Scan.start with
  | .ok scan => scan.finish
  | .error .misuse => .misuse
  | .error .help => .help
  | .error .version => .version

end ScriptDisassembler.CommandLine
