import ScriptDisassembler.Files.Device

/-!
# The surroundings of the working folder

The working folder lies in a folder of the root.  Beside it, the root has the usual folders of a
system, of which only those are known further that the system fills itself: the devices, and the
running processes with the channels of the program.
-/

namespace ScriptDisassembler

/-- A folder that a path can lead to. -/
inductive Location
  /-- The working folder. -/
  | working
  /-- The root of all folders. -/
  | root
  /-- A folder of the root whose files are not known. -/
  | usual
  /-- The devices. -/
  | devices
  /-- The hardware, as the system shows it. -/
  | hardware
  /-- The running processes. -/
  | processes
  /-- The running program. -/
  | program
  /-- The open files of the running program. -/
  | openFiles
deriving DecidableEq, Repr

/-- What a path can lead to. -/
inductive Target
  /-- A folder. -/
  | folder (location : Location)
  /-- A file of the working folder. -/
  | file (name : String)
  /-- A device. -/
  | device (device : Device)
deriving DecidableEq, Repr

namespace Location

/-- The folder that a folder lies in; the root lies in itself. -/
def parent : Location → Location
  | working => usual
  | root | usual | devices | hardware | processes => root
  | program => processes
  | openFiles => program

/-- The folders of the root whose files are not known. -/
def usualFolders : List String :=
  ["bin", "boot", "etc", "home", "lib", "lib64", "media", "mnt", "opt", "root", "run", "sbin",
    "srv", "tmp", "usr", "var"]

/-- What is known to be in a folder, beside the files of the working folder. -/
def entries : Location → List (String × Target)
  | working | usual | hardware => []
  | root =>
      [("dev", .folder devices), ("proc", .folder processes), ("sys", .folder hardware)]
        ++ usualFolders.map fun name => (name, .folder usual)
  | devices =>
      [("null", .device .null), ("zero", .device .endless), ("random", .device .endless),
        ("urandom", .device .endless), ("full", .device .full), ("tty", .device .terminal),
        ("stdin", .device .null), ("stdout", .device (.channel .output)),
        ("stderr", .device (.channel .errors)), ("fd", .folder openFiles),
        ("shm", .folder usual)]
  | processes => [("self", .folder program)]
  | program => [("cwd", .folder working), ("root", .folder root), ("fd", .folder openFiles)]
  | openFiles =>
      [("0", .device .null), ("1", .device (.channel .output)),
        ("2", .device (.channel .errors))]

/-- Whether files can be made in a folder. -/
def takesFiles : Location → Bool
  | working | root | usual | devices => true
  | hardware | processes | program | openFiles => false

/-- Whether a folder has a size.  Those that the system makes up while they are looked at have
none. -/
def hasSize : Location → Bool
  | working | root | usual | devices | openFiles => true
  | hardware | processes | program => false

/-- No folder but the working folder is known to hold a file. -/
theorem lookup_entries_ne_file (location : Location) (name file : String) :
    location.entries.lookup name ≠ some (.file file) := by
  intro found
  have member := List.lookup_eq_some_iff.mp found
  obtain ⟨before, after, split, -⟩ := member
  have listed : (name, Target.file file) ∈ location.entries := by simp [split]
  cases location <;> simp [entries, usualFolders] at listed

end Location

end ScriptDisassembler
