import Mathlib.Logic.Function.Iterate
import ScriptDisassembler.Proofs.Prototype.Listing

/-!
# Tables that are kept in a dump

Definition texts give a listable table, whatever they say and in whatever order they are loaded, so
the table comes back from its listing (`Table.stable_loadAll`).  Any other table loses at most once
what a dump can not hold: what comes back from its listing comes back ever after.  Without a dump
among the texts all prototypes are plain, since only a dump can bring an operator or a parenthesis
into a name.
-/

namespace ScriptDisassembler

/-- Whether a prototype could come from a counts text and a names text. -/
structure Prototype.Plain (prototype : Prototype) : Prop where
  invocation : prototype.invocation = .function
  name : ∀ name, prototype.name = some name → '(' ∉ name.toList

/-- Whether an update brings nothing into a table that is not plain. -/
def Update.Plain : Update → Prop
  | declare _ _ => True
  | setName _ name => '(' ∉ name.toList
  | insert prototype => prototype.Plain

/-- A plain update makes a plain prototype of a plain one, or of none. -/
theorem Update.Plain.revise {update : Update} {entry : Option Prototype} (brought : update.Plain)
    (plain : ∀ prototype, entry = some prototype → prototype.Plain) :
    (update.revise entry).Plain := by
  cases update with
  | declare opcode count => exact ⟨rfl, fun _ named => by cases named⟩
  | setName opcode name =>
      have named : ∀ other, some name = some other → '(' ∉ other.toList := by
        rintro other ⟨⟩
        exact brought
      cases entry with
      | none => exact ⟨rfl, named⟩
      | some prototype => exact ⟨(plain prototype rfl).invocation, named⟩
  | insert prototype => exact brought

/-- Only a dump brings anything that is not plain. -/
theorem Format.plain_of_mem_updates {format : Format} (other : format ≠ .dump) {text : String}
    {update : Update} (member : update ∈ format.updates text) : update.Plain := by
  cases format with
  | counts =>
      obtain ⟨opcode, count, rfl⟩ := exists_declare_of_mem_updates member
      trivial
  | names =>
      obtain ⟨opcode, name, rfl, unopened⟩ := exists_setName_of_mem_updates member
      exact unopened
  | dump => exact absurd rfl other

namespace Table

/-! ## Loading texts in any order -/

/-- The table that definition texts fill one after the other. -/
def loadAll (loads : List (Format × Source)) : Table :=
  build (loads.map fun load => .load load.1 load.2)

theorem loadAll_eq (loads : List (Format × Source)) :
    loadAll loads = empty.applyAll (loads.flatMap fun load => load.1.updates load.2.content) := by
  rw [loadAll, build_eq, List.flatMap_map]
  rfl

/-- Definition texts give a listable table. -/
theorem listable_loadAll (loads : List (Format × Source)) : (loadAll loads).Listable := by
  rw [loadAll_eq]
  apply listable_empty.applyAll
  intro update member
  obtain ⟨load, -, inText⟩ := List.mem_flatMap.mp member
  exact Format.listable_of_mem_updates inText

/-- Counts texts and names texts give plain prototypes. -/
theorem plain_loadAll {loads : List (Format × Source)} (noDump : ∀ load ∈ loads, load.1 ≠ .dump) :
    ∀ prototype ∈ (loadAll loads).prototypes, prototype.Plain := by
  rw [loadAll_eq]
  apply forall_mem_applyAll
  · exact fun _ member => absurd member List.not_mem_nil
  · intro update member _ plain
    obtain ⟨load, among, inText⟩ := List.mem_flatMap.mp member
    exact (Format.plain_of_mem_updates (noDump load among) inText).revise plain

/-! ## Dumping and loading again -/

/-- The table that comes back from the listing of a table. -/
def reload (table : Table) : Table :=
  (empty.load .dump table.listing).table

theorem listable_reload (table : Table) : table.reload.Listable :=
  listable_empty.load .dump table.listing

theorem Listable.reload_eq {table : Table} (listable : table.Listable) : table.reload = table := by
  rw [reload, load_listing listable]

/-! ## Main result -/

/-- The table that definition texts give holds listable prototypes only, which are plain if no dump
is among the texts.  It comes back from its listing, with all prototypes counted and without a
warning.  Of any other table, what has come back once comes back every time. -/
theorem stable_loadAll (loads : List (Format × Source)) :
    let table := loadAll loads
    let loading := empty.load .dump table.listing
    (∀ prototype ∈ table.prototypes, prototype.Listable) ∧
      ((∀ load ∈ loads, load.1 ≠ .dump) → ∀ prototype ∈ table.prototypes, prototype.Plain) ∧
      (loading.table.listing = table.listing ∧ loading.count = table.size ∧
        ∀ notice ∈ loading.notices, notice.level ≠ .warning) ∧
      ∀ (other : Table) (cycles : Nat), reload^[cycles] other.reload = other.reload := by
  intro table loading
  have listable : table.Listable := listable_loadAll loads
  have loaded : loading = ⟨table, table.size, [.loaded .dump table.size]⟩ := load_listing listable
  refine ⟨listable, plain_loadAll, ?_, ?_⟩
  · rw [loaded]
    refine ⟨rfl, rfl, ?_⟩
    intro notice member
    rw [List.mem_singleton.mp member]
    exact Level.noConfusion
  · intro other cycles
    exact Function.iterate_fixed other.listable_reload.reload_eq cycles

/-- A counts text, and a names file with a byte that is no text. -/
theorem stable_loadAll_replacement :
    let loads : List (Format × Source) :=
      [(.counts, .text "0001=1,wait\n0002=-1,goto"),
        (.names, .file (Text.utf8Bytes "0001 wa" ++ [0xff] ++ Text.utf8Bytes "t (ms)\n"))]
    (∀ load ∈ loads, load.1 ≠ .dump) ∧
      (∀ prototype ∈ (loadAll loads).prototypes, prototype.Plain) ∧
      (loadAll loads).listing = "0001 (func 1) wa\ufffdt\n0002 (func -1)\n" ∧
      (loadAll loads).reload.listing = (loadAll loads).listing := by
  intro loads
  have noDump : ∀ load ∈ loads, load.1 ≠ .dump := by decide
  have ⟨_, plain, ⟨stable, _, _⟩, _⟩ := stable_loadAll loads
  refine ⟨noDump, plain noDump, ?_, stable⟩
  decide +kernel

end Table

end ScriptDisassembler
