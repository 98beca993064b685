import ScriptDisassembler.CommandLine.Run

/-!
# The program

The command line on the file system of the machine: arguments in, texts and an exit code out.
-/

namespace ScriptDisassembler

/-- The number of a system error, which some calls of the system give with a minus sign. -/
def errorNumber (code : UInt32) : Nat :=
  if code.toNat < 2 ^ 31 then code.toNat else (0 - code).toNat

/-- The reason behind a system error of a number, if it is one that is known. -/
def FileError.ofNumber? : Nat → Option FileError
  | 2 => some .notFound
  | 6 => some .noTerminal
  | 13 => some (.other "Permission denied (os error 13)")
  | 19 => some .notMappable
  | 20 => some .notDirectory
  | 21 => some .isDirectory
  | 28 => some .noSpace
  | 36 => some .nameTooLong
  | _ => none

/-- The reason behind a failed operation of the system. -/
def FileError.ofSystem (error : IO.Error) : FileError :=
  let known := match error with
    | .noFileOrDirectory _ code _ => ofNumber? (errorNumber code)
    | .inappropriateType _ code _ => ofNumber? (errorNumber code)
    | .invalidArgument _ code _ => ofNumber? (errorNumber code)
    | .permissionDenied _ code _ => ofNumber? (errorNumber code)
    | .resourceExhausted _ code _ => ofNumber? (errorNumber code)
    | .noSuchThing _ code _ => ofNumber? (errorNumber code)
    | _ => none
  known.getD (.other (toString error))

/-- The bytes of a file on the machine, whose path must be a text. -/
def readFile (path : SystemText) : IO (Except FileError (Array UInt8)) := do
  let some path := path.text? | return .error .illFormed
  match ← (IO.FS.readBinFile path).toBaseIO with
  | .ok content => return .ok content.data
  | .error error => return .error (.ofSystem error)

/-- Give a file on the machine these bytes.  They are put out before the file is closed, so that a
device without room is noticed. -/
def writeFile (path : SystemText) (content : Array UInt8) : IO (Except FileError Unit) := do
  let some path := path.text? | return .error .illFormed
  let written : IO Unit := do
    let handle ← IO.FS.Handle.mk path .write
    handle.write ⟨content⟩
    handle.flush
  match ← written.toBaseIO with
  | .ok _ => return .ok ()
  | .error error => return .error (.ofSystem error)

/-- File access on the machine.  A file is mapped by reading it; of a folder the failure is another
one. -/
def systemFiles : FileAccess IO where
  read := readFile
  map path := do
    match ← readFile path with
    | .error .isDirectory => return .error .notMappable
    | result => return result
  write path content := do
    return (← writeFile path content).map fun _ => none

end ScriptDisassembler

/-- Run the program on its arguments. -/
def main (arguments : List String) : IO UInt32 := do
  let outcome ← ScriptDisassembler.CommandLine.run ScriptDisassembler.systemFiles arguments
  IO.print outcome.output
  IO.eprint outcome.errors
  return UInt32.ofNat outcome.exitCode
