import Mathlib.Data.List.DropRight
import ScriptDisassembler.Files.Access
import ScriptDisassembler.Proofs.Result

/-!
# Writing a file

What a new file changes for the paths of a folder.  A path that led somewhere leads there still
(`resolve_insert`), so of all that could be read before only the file itself is read differently
(`read_insert`, `map_insert`).  The path that was written to leads to the new file, and what was
written is read back (`read_insert_of_resolveForWriting`).
-/

namespace ScriptDisassembler.Folder

/-! ## Paths that led somewhere -/

theorem child?_insert {folder : Folder} {name : String} {location : Location} {target : Target}
    (found : folder.child? name location = some target) (file : String) (content : Array UInt8) :
    (folder.insert file content).child? name location = some target := by
  unfold child? at found ⊢
  by_cases stored : location = .working ∧ (folder.find? name).isSome
  · have kept : ((folder.insert file content).find? name).isSome := by
      rw [find?_insert]
      split
      · rfl
      · exact stored.2
    rw [if_pos stored] at found
    rw [if_pos ⟨stored.1, kept⟩, found]
  · rw [if_neg stored] at found
    have outside : location ≠ .working := by
      rintro rfl
      cases found
    rw [if_neg fun inside => outside inside.1, found]

theorem enter_insert {folder : Folder} {location : Location} {name : List Char}
    (found : folder.enter location name ≠ .error .notFound) (file : String)
    (content : Array UInt8) :
    (folder.insert file content).enter location name = folder.enter location name := by
  unfold enter at found ⊢
  split
  · rfl
  · rename_i named
    rw [if_neg named] at found
    split
    · rfl
    · rename_i down
      rw [if_neg down] at found
      split
      · rfl
      · rename_i short
        rw [if_neg short] at found
        cases known : folder.child? (String.ofList name) location with
        | none => exact absurd (by rw [known]) found
        | some target => rw [child?_insert known file content]

theorem leave_insert {folder : Folder} {origin : Target} {name : List Char}
    (found : folder.leave origin name ≠ .error .notFound) (file : String)
    (content : Array UInt8) :
    (folder.insert file content).leave origin name = folder.leave origin name := by
  cases origin with
  | folder location => exact enter_insert found file content
  | file _ | device _ => rfl

theorem walk_insert {folder : Folder} {origin : Target} {names : List (List Char)}
    (found : folder.walk origin names ≠ .error .notFound) (file : String)
    (content : Array UInt8) :
    (folder.insert file content).walk origin names = folder.walk origin names := by
  induction names generalizing origin with
  | nil => rfl
  | cons name names ih =>
      rw [walk_cons] at found
      rw [walk_cons, walk_cons]
      cases left : folder.leave origin name with
      | error error =>
          rw [left] at found
          have differs : folder.leave origin name ≠ .error .notFound := left ▸ found
          rw [leave_insert differs file content, left]
          rfl
      | ok next =>
          rw [left] at found
          have differs : folder.leave origin name ≠ .error .notFound := by
            rw [left]
            nofun
          rw [leave_insert differs file content, left]
          exact ih found

/-- What a path leads to is not changed by a file that is written, unless the path led nowhere. -/
theorem resolve_insert {folder : Folder} {path : SystemText}
    (found : folder.resolve path ≠ .error .notFound) (file : String) (content : Array UInt8) :
    (folder.insert file content).resolve path = folder.resolve path := by
  unfold resolve at found ⊢
  cases taken : route path with
  | error error => rfl
  | ok parts =>
      rw [taken] at found
      exact walk_insert found file content

/-- Writing one file leaves what is read of the others. -/
theorem read_insert {folder : Folder} {path : SystemText} {bytes : Array UInt8}
    (stored : folder.read path = .ok bytes) {file : String}
    (other : folder.resolve path ≠ .ok (.file file)) (content : Array UInt8) :
    (folder.insert file content).read path = .ok bytes := by
  unfold read at stored ⊢
  cases found : folder.resolve path with
  | error error =>
      rw [found] at stored
      cases stored
  | ok target =>
      rw [found] at stored
      have led : folder.resolve path ≠ .error .notFound := by
        rw [found]
        nofun
      rw [resolve_insert led file content, found]
      cases target with
      | folder location => cases stored
      | device device => exact stored
      | file name =>
          have differs : name ≠ file := by
            rintro rfl
            exact other found
          simpa [find?_insert, differs] using stored

/-- Writing one file leaves what can be mapped of the others, and why it can not. -/
theorem map_insert {folder : Folder} {path : SystemText} (led : folder.map path ≠ .error .notFound)
    {file : String} (other : folder.resolve path ≠ .ok (.file file)) (content : Array UInt8) :
    (folder.insert file content).map path = folder.map path := by
  have found : folder.resolve path ≠ .error .notFound := by
    intro missing
    exact led (by rw [map, missing])
  unfold map
  rw [resolve_insert found file content]
  cases reached : folder.resolve path with
  | error error => rfl
  | ok target =>
      cases target with
      | folder location => rfl
      | device device => rfl
      | file name =>
          have differs : name ≠ file := by
            rintro rfl
            exact other reached
          simp [find?_insert, differs]

/-! ## The path that was written to -/

/-- A file that did not exist is found once it is written. -/
theorem enter_insert_of_newFile {folder : Folder} {location : Location} {name : List Char}
    {file : String} (missing : folder.enter location name = .error .notFound)
    (made : newFile location (String.ofList name) = .ok (.file file)) (content : Array UInt8) :
    (folder.insert file content).enter location name = .ok (.file file) := by
  unfold newFile at made
  split at made
  · rename_i inside
    cases made
    unfold enter at missing ⊢
    split at missing
    · cases missing
    · rename_i named
      split at missing
      · cases missing
      · rename_i down
        split at missing
        · cases missing
        · rename_i short
          have stored : (folder.insert (String.ofList name) content).child? (String.ofList name)
              location = some (.file (String.ofList name)) := by
            rw [child?, if_pos ⟨inside, by simp [find?_insert]⟩]
          rw [if_neg named, if_neg down, if_neg short, stored]
  · split at made <;> cases made

/-- Every walk starts in a folder. -/
theorem route_start {path : SystemText} {start : Target} {names : List (List Char)}
    (taken : route path = .ok (start, names)) : ∃ location, start = .folder location := by
  unfold route at taken
  split at taken
  · cases taken
  · split at taken
    · cases taken
    · split at taken
      · cases taken
      · cases taken
        exact ⟨_, rfl⟩

/-- A file is written to where a walk to a folder ends, under a name that leads to the file or is
new there. -/
theorem exists_walk_of_resolveForWriting {folder : Folder} {path : SystemText} {file : String}
    (writable : folder.resolveForWriting path = .ok (.file file)) :
    ∃ origin names last location, route path = .ok (origin, names ++ [last]) ∧
      folder.walk origin names = .ok (.folder location) ∧
      (folder.enter location last = .ok (.file file) ∨
        folder.enter location last = .error .notFound ∧
          newFile location (String.ofList last) = .ok (.file file)) := by
  rcases except_bind_eq_ok_iff.mp writable with ⟨⟨origin, names⟩, taken, writable⟩
  dsimp only at writable
  split at writable
  · rcases route_start taken with ⟨location, rfl⟩
    cases writable
  · rename_i last ends
    rcases except_bind_eq_ok_iff.mp writable with ⟨target, arrived, writable⟩
    cases target with
    | file _ => cases writable
    | device _ => cases writable
    | folder location =>
        dsimp only at writable
        split at writable
        · cases writable
        · rename_i whole
          have kept : names.rdropWhile List.isEmpty = names :=
            (List.rdropWhile_prefix _ names).eq_of_length_le (Nat.not_lt.mp whole)
          change (names.rdropWhile List.isEmpty).getLast? = some last at ends
          change folder.walk origin (names.rdropWhile List.isEmpty).dropLast = _ at arrived
          rw [kept] at ends arrived
          have regrouped : names.dropLast ++ [last] = names :=
            List.dropLast_append_getLast? last ends
          refine ⟨origin, names.dropLast, last, location, ?_, arrived, ?_⟩
          · rw [regrouped, taken]
          · split at writable
            · rename_i missing
              exact .inr ⟨missing, writable⟩
            · exact .inl writable

/-- The path that a file was written to leads to that file. -/
theorem resolve_insert_of_resolveForWriting {folder : Folder} {path : SystemText} {file : String}
    (writable : folder.resolveForWriting path = .ok (.file file)) (content : Array UInt8) :
    (folder.insert file content).resolve path = .ok (.file file) := by
  obtain ⟨origin, names, last, location, taken, arrived, ends⟩ :=
    exists_walk_of_resolveForWriting writable
  rw [resolve, except_bind_eq_ok_iff]
  refine ⟨_, taken, ?_⟩
  dsimp only
  rw [walk, except_foldlM_concat_eq_ok_iff]
  have led : folder.walk origin names ≠ .error .notFound := by
    rw [arrived]
    nofun
  refine ⟨_, (walk_insert led file content).trans arrived, ?_⟩
  rcases ends with found | ⟨missing, made⟩
  · have there : folder.enter location last ≠ .error .notFound := by
      rw [found]
      nofun
    exact (enter_insert there file content).trans found
  · exact enter_insert_of_newFile missing made content

/-- What was written is read back. -/
theorem read_insert_of_resolveForWriting {folder : Folder} {path : SystemText} {file : String}
    (writable : folder.resolveForWriting path = .ok (.file file)) (content : Array UInt8) :
    (folder.insert file content).read path = .ok content := by
  unfold read
  rw [resolve_insert_of_resolveForWriting writable content]
  simp [find?_insert]

end ScriptDisassembler.Folder
