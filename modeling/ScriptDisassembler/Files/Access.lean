import ScriptDisassembler.Files.Path

/-!
# Reading and writing files

What a command needs of a file system, and a small file system that has it: a working folder in the
surroundings that `Folder.resolve` knows.  These surroundings are made up as far as runs can tell
them from those of a machine; what holds of a command is stated for every file system.
-/

namespace ScriptDisassembler

/-- Reading and writing whole files by path. -/
structure FileAccess (m : Type → Type) where
  /-- The bytes of a file. -/
  read : SystemText → m (Except FileError (Array UInt8))
  /-- The bytes of a file that is mapped into memory. -/
  map : SystemText → m (Except FileError (Array UInt8))
  /-- Give a file these bytes, whether it exists or not.  If the path leads to a channel of the
  program, the answer is that channel, and the bytes are still to be put out there. -/
  write : SystemText → Array UInt8 → m (Except FileError (Option Channel))

namespace Folder

/-- The bytes that a path leads to. -/
def read (folder : Folder) (path : SystemText) : Except FileError (Array UInt8) :=
  match folder.resolve path with
  | .error error => .error error
  | .ok (.folder _) => .error .isDirectory
  | .ok (.file name) => .ok ((folder.find? name).getD #[])
  | .ok (.device device) => device.read

/-- The bytes that a path leads to, if they can be mapped into memory.  Of what has no size, nothing
is mapped. -/
def map (folder : Folder) (path : SystemText) : Except FileError (Array UInt8) :=
  match folder.resolve path with
  | .error error => .error error
  | .ok (.folder location) => if location.hasSize then .error .notMappable else .ok #[]
  | .ok (.file name) => .ok ((folder.find? name).getD #[])
  | .ok (.device device) => device.map

/-- The folder after writing to a path, and the channel to which the path leads, if any. -/
def write (folder : Folder) (path : SystemText) (content : Array UInt8) :
    Except FileError (Folder × Option Channel) :=
  match folder.resolveForWriting path with
  | .error error => .error error
  | .ok (.folder _) => .error .isDirectory
  | .ok (.file name) => .ok (folder.insert name content, none)
  | .ok (.device device) => (device.write content).map fun channel => (folder, channel)

/-- File access from a working folder. -/
def access : FileAccess (StateM Folder) where
  read path := do return (← get).read path
  map path := do return (← get).map path
  write path content := do
    match (← get).write path content with
    | .ok (folder, channel) =>
        set folder
        return .ok channel
    | .error error => return .error error

end Folder

end ScriptDisassembler
