import ScriptDisassembler.Proofs.CommandLine.Scene
import ScriptDisassembler.Proofs.Prototype.Listing

/-!
# Definition files

`FileAccess.Defines` says which table definition files give in the state that files are in, and what
is noticed on the way; loading succeeds exactly with these (`runIn_loadPrototypes_eq_ok_iff`).  The
table is listable wherever it comes from, so a dump of it that is kept in a file defines it again
(`Defines.of_holds_listing`).
-/

namespace ScriptDisassembler

open CommandLine

variable {σ : Type} {files : FileAccess (StateM σ)}

/-- Whether definition files give a table, with these notices. -/
def FileAccess.Defines (files : FileAccess (StateM σ)) (state : σ) (definitions : DefinitionFiles)
    (table : Table) (notices : List Notice) : Prop :=
  match definitions with
  | .dump path =>
      ∃ text, files.Holds state path text ∧
        table = (Table.empty.load .dump text).table ∧
        notices = (Table.empty.load .dump text).notices
  | .pair counts names =>
      ∃ declared named declaration, files.Holds state counts declared ∧
        files.Holds state names named ∧
        declaration = Table.empty.load .counts declared ∧
        table = (declaration.table.load .names named).table ∧
        notices = declaration.notices ++ (declaration.table.load .names named).notices

namespace FileAccess.Defines

variable {state : σ} {table : Table} {notices : List Notice}

/-- Definition files give listable prototypes only. -/
theorem listable {definitions : DefinitionFiles}
    (defined : files.Defines state definitions table notices) : table.Listable := by
  cases definitions with
  | dump path =>
      rcases defined with ⟨text, -, rfl, -⟩
      exact Table.listable_empty.load .dump text
  | pair counts names =>
      rcases defined with ⟨declared, named, declaration, -, -, rfl, rfl, -⟩
      exact (Table.listable_empty.load .counts declared).load .names named

/-- To write a file changes nothing about what a counts file and a names file define, if they are
other files. -/
theorem of_write {view : FileView σ} (lawful : files.Lawful view) {counts names path : SystemText}
    {file : view.File} (defined : files.Defines state (.pair counts names) table notices)
    (writable : view.target? state path = some file)
    (counts_other : view.found? state counts ≠ some file)
    (names_other : view.found? state names ≠ some file) (bytes : Array UInt8) :
    files.Defines (files.writeIn state path bytes).2 (.pair counts names) table notices := by
  rcases defined with
    ⟨declared, named, declaration, ⟨_, counted, counts_text⟩, ⟨_, called, names_text⟩, loaded⟩
  have still_counted := lawful.read_others _ bytes _ _ _ _ writable counts_other counted
  have still_called := lawful.read_others _ bytes _ _ _ _ writable names_other called
  exact ⟨declared, named, declaration, ⟨_, still_counted, counts_text⟩,
    ⟨_, still_called, names_text⟩, loaded⟩

/-- The listing of a listable table defines that table. -/
theorem of_holds_listing {path : SystemText} (held : files.Holds state path table.listing)
    (listable : table.Listable) :
    files.Defines state (.dump path) table [.loaded .dump table.size] := by
  refine ⟨table.listing, held, ?_, ?_⟩
  · rw [Table.load_listing listable]
  · rw [Table.load_listing listable]

end FileAccess.Defines

namespace CommandLine.Task

/-- Loading succeeds exactly with what the definition files give. -/
theorem runIn_loadPrototypes_eq_ok_iff (stable : files.StableReads)
    {definitions : DefinitionFiles} {table : Table} {scene after : Scene σ} :
    (loadPrototypes files definitions).runIn scene = (.ok table, after) ↔
      ∃ notices, files.Defines scene.state definitions table notices ∧
        after = scene.notify (notices ++ [.available table.size]) := by
  cases definitions with
  | dump path =>
      change (loadInto Table.empty files .dump (.loadPrototypes path) path >>=
        fun table => notify [.available table.size] >>= fun _ => pure table).runIn scene = _ ↔ _
      simp only [runIn_bind_eq_ok_iff, runIn_loadInto_eq_ok_iff stable, runIn_notify, runIn_pure,
        Prod.mk.injEq, Except.ok.injEq]
      constructor
      · rintro ⟨found, middle, ⟨text, held, rfl, rfl⟩, ⟨⟩, noticed, ⟨-, rfl⟩, rfl, rfl⟩
        exact ⟨_, ⟨text, held, rfl, rfl⟩, (scene.notify_append _ _).symm⟩
      · rintro ⟨notices, ⟨text, held, rfl, rfl⟩, rfl⟩
        exact ⟨_, _, ⟨text, held, rfl, rfl⟩, (), _, ⟨trivial, rfl⟩, rfl,
          (scene.notify_append _ _).symm⟩
  | pair counts names =>
      change (loadInto Table.empty files .counts (.loadCounts counts) counts >>=
        fun table => loadInto table files .names (.loadNames names) names >>=
        fun table => notify [.available table.size] >>= fun _ => pure table).runIn scene = _ ↔ _
      simp only [runIn_bind_eq_ok_iff, runIn_loadInto_eq_ok_iff stable, runIn_notify, runIn_pure,
        Prod.mk.injEq, Except.ok.injEq]
      constructor
      · rintro ⟨first, between, ⟨declared, held_counts, rfl, rfl⟩, second, middle,
          ⟨named, held_names, rfl, rfl⟩, ⟨⟩, noticed, ⟨-, rfl⟩, rfl, rfl⟩
        refine ⟨_, ⟨declared, named, _, held_counts, held_names, rfl, rfl, rfl⟩, ?_⟩
        rw [Scene.notify_append, Scene.notify_append]
      · rintro ⟨notices, ⟨declared, named, first, held_counts, held_names, rfl, rfl, rfl⟩, rfl⟩
        refine ⟨_, _, ⟨declared, held_counts, rfl, rfl⟩, _, _, ⟨named, held_names, rfl, rfl⟩, (), _,
          ⟨trivial, rfl⟩, rfl, ?_⟩
        rw [Scene.notify_append, Scene.notify_append]

end CommandLine.Task

end ScriptDisassembler
