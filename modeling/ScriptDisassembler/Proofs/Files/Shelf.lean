import ScriptDisassembler.Proofs.Files.Laws

/-!
# A shelf

The plainest files that obey the laws: every path leads to a file of its own, whatever its bytes
are.  A shelf has so much room for each of its files, and one that is too long is cut off when it is
written (`Shelf.lawful`).
-/

namespace ScriptDisassembler

/-- Files by their paths. -/
structure Shelf where
  /-- The bytes of a file, if there is one. -/
  find? : SystemText → Option (Array UInt8)

namespace Shelf

/-- A shelf with these files. -/
def ofList (files : List (SystemText × Array UInt8)) : Shelf :=
  ⟨fun path => files.lookup path⟩

/-- The shelf on which one file has these bytes. -/
def insert (shelf : Shelf) (path : SystemText) (bytes : Array UInt8) : Shelf :=
  ⟨fun other => if other = path then some bytes else shelf.find? other⟩

/-- The bytes of a file that should be there. -/
def read (shelf : Shelf) (path : SystemText) : Except FileError (Array UInt8) :=
  (shelf.find? path).elim (.error .notFound) .ok

/-- File access to a shelf with room for so many bytes in a file. -/
def access (room : Nat) : FileAccess (StateM Shelf) where
  read path := do return (← get).read path
  map path := do return (← get).read path
  write path bytes := do
    if bytes.size ≤ room then
      modify fun shelf => shelf.insert path bytes
      return .ok none
    else
      modify fun shelf => shelf.insert path (bytes.take room)
      return .error .noSpace

/-- The files of a shelf are told apart by their paths. -/
def view : FileView Shelf where
  File := SystemText
  content? := find?
  found? _ path := some path
  target? _ path := some path

variable {room : Nat} {bytes : Array UInt8}

theorem writeIn_access_of_le (fits : bytes.size ≤ room) (shelf : Shelf) (path : SystemText) :
    (access room).writeIn shelf path bytes = (.ok none, shelf.insert path bytes) := by
  unfold FileAccess.writeIn access
  dsimp only
  rw [if_pos fits]
  rfl

theorem writeIn_access_of_lt (long : room < bytes.size) (shelf : Shelf) (path : SystemText) :
    (access room).writeIn shelf path bytes =
      (.error .noSpace, shelf.insert path (bytes.take room)) := by
  unfold FileAccess.writeIn access
  dsimp only
  rw [if_neg (Nat.not_le.mpr long)]
  rfl

/-- However much of a file is written, it is the only one that is. -/
theorem exists_writeIn_access (room : Nat) (shelf : Shelf) (path : SystemText)
    (bytes : Array UInt8) :
    ∃ written, ((access room).writeIn shelf path bytes).2 = shelf.insert path written := by
  by_cases fits : bytes.size ≤ room
  · exact ⟨bytes, by rw [writeIn_access_of_le fits]⟩
  · exact ⟨bytes.take room, by rw [writeIn_access_of_lt (Nat.not_le.mp fits)]⟩

/-- Writing succeeds only where there is room. -/
theorem le_of_writeIn_access {shelf : Shelf} {path : SystemText} {channel : Option Channel}
    (success : ((access room).writeIn shelf path bytes).1 = .ok channel) : bytes.size ≤ room := by
  refine Nat.not_lt.mp fun long => ?_
  rw [writeIn_access_of_lt long] at success
  cases success

theorem find?_insert_of_ne {path other : SystemText} (differs : other ≠ path) (shelf : Shelf)
    (written : Array UInt8) : (shelf.insert path written).find? other = shelf.find? other :=
  if_neg differs

theorem read_insert_of_ne {path other : SystemText} (differs : other ≠ path) (shelf : Shelf)
    (written : Array UInt8) : (shelf.insert path written).read other = shelf.read other := by
  rw [read, find?_insert_of_ne differs, read]

/-- The files of a shelf obey the laws. -/
theorem lawful (room : Nat) : (access room).Lawful view where
  read_keeps _ _ := rfl
  map_keeps _ _ := rfl
  write_others path bytes shelf file other := by
    obtain ⟨written, left⟩ := exists_writeIn_access room shelf path bytes
    rw [left]
    exact find?_insert_of_ne (fun same => other (congrArg some same.symm)) shelf written
  write_target path bytes shelf file channel named success := by
    cases named
    have fits := le_of_writeIn_access success
    rw [writeIn_access_of_le fits] at success ⊢
    cases success
    exact ⟨rfl, if_pos rfl⟩
  read_written path bytes shelf file channel named success := by
    have held : (shelf.insert path bytes).read path = .ok bytes := by
      simp [read, insert]
    rw [writeIn_access_of_le (le_of_writeIn_access success)]
    exact held
  read_others path bytes shelf file other stored named differs given := by
    cases named
    obtain ⟨written, left⟩ := exists_writeIn_access room shelf path bytes
    rw [left]
    exact (read_insert_of_ne (fun same => differs (congrArg some same)) shelf written).trans given
  map_others path bytes shelf file other named differs led := by
    cases named
    obtain ⟨written, left⟩ := exists_writeIn_access room shelf path bytes
    rw [left]
    exact read_insert_of_ne (fun same => differs (congrArg some same)) shelf written

end Shelf

end ScriptDisassembler
