/-!
# Folders

A folder holds files by name.  `find?_insert` says what a new file does to every look-up.
-/

namespace ScriptDisassembler

/-- A folder: its files by name. -/
structure Folder where
  /-- Names and contents; of equal names the first counts. -/
  files : List (String × Array UInt8)
deriving DecidableEq, Repr

namespace Folder

/-- The bytes of the file of a name. -/
def find? (folder : Folder) (name : String) : Option (Array UInt8) :=
  folder.files.lookup name

/-- The folder in which the file of a name has these bytes. -/
def insert (folder : Folder) (name : String) (content : Array UInt8) : Folder :=
  ⟨(name, content) :: folder.files.filter fun file => file.1 != name⟩

/-- A file that was written is found with the new bytes, and every other file as before. -/
theorem find?_insert (folder : Folder) (name other : String) (content : Array UInt8) :
    (folder.insert name content).find? other =
      if other = name then some content else folder.find? other := by
  have kept : ∀ files : List (String × Array UInt8), other ≠ name →
      (files.filter fun file => file.1 != name).lookup other = files.lookup other := by
    intro files differs
    induction files with
    | nil => rfl
    | cons file files ih =>
        obtain ⟨key, bytes⟩ := file
        by_cases named : key = name
        · have skipped : (other == key) = false := by simpa [named] using differs
          rw [List.filter_cons_of_neg (by simpa using named), ih, List.lookup_cons, skipped]
        · rw [List.filter_cons_of_pos (by simpa using named), List.lookup_cons, List.lookup_cons,
            ih]
  rw [find?, insert, List.lookup_cons]
  by_cases same : other = name
  · simp [same]
  · have skipped : (other == name) = false := by simpa using same
    simp only [skipped, same, if_false]
    exact kept folder.files same

end Folder

end ScriptDisassembler
