import ScriptDisassembler.Proofs.Files.Writing
import ScriptDisassembler.Proofs.Text.Utf8

/-!
# What is relied on of files

A run is stated and proved for all files that obey the laws of `FileAccess.Lawful`, seen through a
`FileView` that tells files apart: to read changes nothing; to write changes no file but the one
that the path leads to, which then, if writing succeeds, holds what was written; and what another
file gave it gives still.  If writing fails, nothing is said of the file that was to be written: it
may be cut off.

The files of a folder obey these laws (`Folder.lawful`).
-/

namespace ScriptDisassembler

variable {σ : Type}

/-- A way to tell files apart in the states that files are in. -/
structure FileView (σ : Type) where
  /-- What files are told apart by. -/
  File : Type
  /-- The bytes of a file, if there is one. -/
  content? : σ → File → Option (Array UInt8)
  /-- The file that a path leads to, if it leads to one. -/
  found? : σ → SystemText → Option File
  /-- The file that is written under a path, if it is one; it need not exist yet. -/
  target? : σ → SystemText → Option File

namespace FileAccess

variable (files : FileAccess (StateM σ)) (state : σ) (path : SystemText) (bytes : Array UInt8)

/-- What is read in a state. -/
def readIn : Except FileError (Array UInt8) :=
  ((files.read path).run state).1

/-- What is mapped into memory in a state. -/
def mapIn : Except FileError (Array UInt8) :=
  ((files.map path).run state).1

/-- What writing answers in a state, and the state that it leaves. -/
def writeIn : Except FileError (Option Channel) × σ :=
  (files.write path bytes).run state

/-- Whether files are left as they are by whoever reads them. -/
structure StableReads (files : FileAccess (StateM σ)) : Prop where
  read_keeps : ∀ path state, ((files.read path).run state).2 = state
  map_keeps : ∀ path state, ((files.map path).run state).2 = state

/-- The laws of reading and writing that a run relies on. -/
structure Lawful (files : FileAccess (StateM σ)) (view : FileView σ) : Prop
    extends files.StableReads where
  /-- To write changes no other file, whether it succeeds or not. -/
  write_others : ∀ path bytes state file, view.target? state path ≠ some file →
    view.content? (files.writeIn state path bytes).2 file = view.content? state file
  /-- A file that was written holds the bytes, and they are put out nowhere. -/
  write_target : ∀ path bytes state file channel, view.target? state path = some file →
    (files.writeIn state path bytes).1 = .ok channel →
    channel = none ∧ view.content? (files.writeIn state path bytes).2 file = some bytes
  /-- What was written to a file is read back. -/
  read_written : ∀ path bytes state file channel, view.target? state path = some file →
    (files.writeIn state path bytes).1 = .ok channel →
    files.readIn (files.writeIn state path bytes).2 path = .ok bytes
  /-- What is read of other files is read still. -/
  read_others : ∀ path bytes state file other stored, view.target? state path = some file →
    view.found? state other ≠ some file → files.readIn state other = .ok stored →
    files.readIn (files.writeIn state path bytes).2 other = .ok stored
  /-- What is mapped of other files is mapped still, and fails still, unless nothing was there. -/
  map_others : ∀ path bytes state file other, view.target? state path = some file →
    view.found? state other ≠ some file → files.mapIn state other ≠ .error .notFound →
    files.mapIn (files.writeIn state path bytes).2 other = files.mapIn state other

/-- Whether a path leads to a text, read as UTF-8. -/
def Holds (text : String) : Prop :=
  ∃ content, files.readIn state path = .ok content ∧ Text.ofBytesLossy content.toList = text

variable {files state path}

/-- A text that was written to a file is the text that the path leads to. -/
theorem Lawful.holds_written {view : FileView σ} (lawful : files.Lawful view) {text : String}
    {file : view.File} {channel : Option Channel} (named : view.target? state path = some file)
    (written : (files.writeIn state path (Text.utf8Bytes text).toArray).1 = .ok channel) :
    files.Holds (files.writeIn state path (Text.utf8Bytes text).toArray).2 path text :=
  ⟨_, lawful.read_written _ _ _ _ _ named written, Text.ofBytesLossy_utf8Bytes text⟩

end FileAccess

/-! ## Folders -/

namespace Folder

variable {folder : Folder} {path : SystemText} {file : String}

/-- The file that a target is. -/
def fileOf? : Except FileError Target → Option String
  | .ok (.file name) => some name
  | _ => none

theorem fileOf?_eq_some_iff {target : Except FileError Target} :
    fileOf? target = some file ↔ target = .ok (.file file) := by
  cases target with
  | error error => simp [fileOf?]
  | ok target => cases target <;> simp [fileOf?]

/-- The files of a folder are told apart by their names. -/
def view : FileView Folder where
  File := String
  content? := find?
  found? folder path := fileOf? (folder.resolve path)
  target? folder path := fileOf? (folder.resolveForWriting path)

theorem target?_view_eq_some_iff :
    view.target? folder path = some file ↔ folder.resolveForWriting path = .ok (.file file) :=
  fileOf?_eq_some_iff

theorem found?_view_eq_some_iff :
    view.found? folder path = some file ↔ folder.resolve path = .ok (.file file) :=
  fileOf?_eq_some_iff

theorem writeIn_access (folder : Folder) (path : SystemText) (bytes : Array UInt8) :
    access.writeIn folder path bytes =
      match folder.write path bytes with
      | .ok (after, channel) => (.ok channel, after)
      | .error error => (.error error, folder) := by
  unfold FileAccess.writeIn access
  dsimp only
  rw [StateT.run_bind, StateT.run_get, pure_bind]
  dsimp only
  cases folder.write path bytes <;> rfl

/-- A file is written in any case. -/
theorem writeIn_access_of_target (writable : folder.resolveForWriting path = .ok (.file file))
    (bytes : Array UInt8) :
    access.writeIn folder path bytes = (.ok none, folder.insert file bytes) := by
  rw [writeIn_access, write, writable]

/-- If what a path leads to is no file, no file is changed. -/
theorem writeIn_access_of_no_target
    (other : ∀ file, folder.resolveForWriting path ≠ .ok (.file file)) (bytes : Array UInt8) :
    (access.writeIn folder path bytes).2 = folder := by
  rw [writeIn_access, write]
  cases reached : folder.resolveForWriting path with
  | error error => rfl
  | ok target =>
      cases target with
      | folder location => rfl
      | file file => exact absurd reached (other file)
      | device device => cases given : device.write bytes <;> simp [given, Except.map]

/-- The files of a folder obey the laws. -/
theorem lawful : access.Lawful view where
  read_keeps _ _ := rfl
  map_keeps _ _ := rfl
  write_others path bytes folder file other := by
    cases reached : fileOf? (folder.resolveForWriting path) with
    | none =>
        have no_target : ∀ file, folder.resolveForWriting path ≠ .ok (.file file) := by
          intro name named
          rw [fileOf?_eq_some_iff.mpr named] at reached
          cases reached
        rw [writeIn_access_of_no_target no_target]
    | some name =>
        rw [writeIn_access_of_target (fileOf?_eq_some_iff.mp reached)]
        have differs : file ≠ name := by
          rintro rfl
          exact other reached
        exact (find?_insert folder name file bytes).trans (if_neg differs)
  write_target path bytes folder file channel named success := by
    rw [writeIn_access_of_target (target?_view_eq_some_iff.mp named)] at success ⊢
    cases success
    exact ⟨rfl, (find?_insert folder file file bytes).trans (if_pos rfl)⟩
  read_written path bytes folder file channel named success := by
    have writable := target?_view_eq_some_iff.mp named
    rw [writeIn_access_of_target writable]
    exact read_insert_of_resolveForWriting writable bytes
  read_others path bytes folder file other stored named differs given := by
    rw [writeIn_access_of_target (target?_view_eq_some_iff.mp named)]
    exact read_insert given (mt found?_view_eq_some_iff.mpr differs) bytes
  map_others path bytes folder file other named differs led := by
    rw [writeIn_access_of_target (target?_view_eq_some_iff.mp named)]
    exact map_insert led (mt found?_view_eq_some_iff.mpr differs) bytes

end Folder

end ScriptDisassembler
