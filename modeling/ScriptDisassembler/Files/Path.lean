import ScriptDisassembler.Files.Folder
import ScriptDisassembler.Files.Location
import ScriptDisassembler.Text.Cut
import ScriptDisassembler.Text.System

/-!
# Paths

A path is walked name by name, from the working folder or, behind a leading slash, from the root of
all folders.  Only a folder can be walked through: a file ends the way, also where the next name is
a point (`leave_file`).  A path that leads to a file leads to one of the working folder
(`find?_of_enter`).
-/

namespace ScriptDisassembler.Folder

/-- The greatest number of bytes in a name. -/
def nameLimit : Nat :=
  255

/-- The greatest number of bytes in a path. -/
def pathLimit : Nat :=
  4095

/-- What has a name in a folder, seen from this working folder. -/
def child? (folder : Folder) (name : String) (location : Location) : Option Target :=
  if location = .working ∧ (folder.find? name).isSome then some (.file name)
  else location.entries.lookup name

/-- What a name leads to from a folder.  The empty name and a point stay, two points lead to the
parent. -/
def enter (folder : Folder) (location : Location) (name : List Char) : Except FileError Target :=
  if name = [] ∨ name = ['.'] then .ok (.folder location)
  else if name = ['.', '.'] then .ok (.folder location.parent)
  else if nameLimit < Text.utf8Size name then .error .nameTooLong
  else
    match folder.child? (String.ofList name) location with
    | some target => .ok target
    | none => .error .notFound

/-- What a name leads to from a target; nothing lies behind a file or a device. -/
def leave (folder : Folder) (target : Target) (name : List Char) : Except FileError Target :=
  match target with
  | .folder location => folder.enter location name
  | .file _ | .device _ => .error .notDirectory

/-- What names in order lead to. -/
def walk (folder : Folder) (target : Target) (names : List (List Char)) :
    Except FileError Target :=
  names.foldlM folder.leave target

/-- A path taken apart: where the walk starts, and the names on it.  In these folders all names are
texts. -/
def route (path : SystemText) : Except FileError (Target × List (List Char)) :=
  match path.text? with
  | none => .error .illFormed
  | some text =>
      if text.isEmpty then .error .notFound
      else if pathLimit < Text.utf8Size text.toList then .error .nameTooLong
      else
        let start := if text.toList.head? = some '/' then Location.root else Location.working
        .ok (.folder start, text.toList.splitOn '/')

/-- What a path leads to. -/
def resolve (folder : Folder) (path : SystemText) : Except FileError Target := do
  let (start, names) ← route path
  folder.walk start names

/-- What becomes of a new file: the working folder keeps it, and from any other folder that takes
files it is not seen again. -/
def newFile (location : Location) (name : String) : Except FileError Target :=
  if location = .working then .ok (.file name)
  else if location.takesFiles then .ok (.device .null)
  else .error .notFound

/-- What a path leads to if a file is to be written there: a target that exists, or a new file in a
folder that exists.  The last name must be that of a file, without a slash behind it. -/
def resolveForWriting (folder : Folder) (path : SystemText) : Except FileError Target := do
  let (start, names) ← route path
  let bare := (names.reverse.dropWhile List.isEmpty).reverse
  match bare.getLast? with
  | none => return start
  | some last =>
      let .folder location ← folder.walk start bare.dropLast | throw .notDirectory
      if bare.length < names.length then throw .isDirectory
      match folder.enter location last with
      | .error .notFound => newFile location (String.ofList last)
      | result => result

theorem walk_nil (folder : Folder) (target : Target) : folder.walk target [] = .ok target :=
  rfl

/-- A walk goes on where its first name leads to. -/
theorem walk_cons (folder : Folder) (target : Target) (name : List Char)
    (names : List (List Char)) :
    folder.walk target (name :: names) = (do folder.walk (← folder.leave target name) names) :=
  rfl

/-- Nothing lies behind a file. -/
theorem leave_file (folder : Folder) (file : String) (name : List Char) :
    folder.leave (.file file) name = .error .notDirectory :=
  rfl

/-- A file that a name leads to is in the working folder. -/
theorem find?_of_enter {folder : Folder} {location : Location} {name : List Char} {file : String}
    (found : folder.enter location name = .ok (.file file)) :
    (folder.find? file).isSome = true := by
  have known : folder.child? (String.ofList name) location = some (.file file) := by
    grind [enter]
  unfold child? at known
  split at known
  · rename_i stored
    cases known
    exact stored.2
  · exact absurd known (location.lookup_entries_ne_file _ file)

end ScriptDisassembler.Folder
