import ScriptDisassembler.Prototype.Line

/-!
# Prototype tables

A table holds at most one prototype for an opcode and lists them in ascending order, so two tables
with the same prototypes are equal.  `find?_insert` says what an insertion does to every look-up;
the other updates are insertions of a prototype that depends on the one found.
-/

namespace ScriptDisassembler

/-- Prototypes in strictly ascending order of their opcodes. -/
structure Table where
  /-- The prototypes. -/
  prototypes : List Prototype
  /-- Every opcode is greater than those before it. -/
  ascending : prototypes.Pairwise fun earlier later => earlier.opcode < later.opcode
deriving DecidableEq

namespace Table

/-- The table without prototypes. -/
def empty : Table :=
  ⟨[], List.Pairwise.nil⟩

instance : Inhabited Table :=
  ⟨empty⟩

/-- The number of prototypes. -/
def size (table : Table) : Nat :=
  table.prototypes.length

/-- Whether there are no prototypes. -/
def isEmpty (table : Table) : Bool :=
  table.prototypes.isEmpty

/-- The prototype of an opcode. -/
def find? (table : Table) (opcode : UInt16) : Option Prototype :=
  table.prototypes.find? fun prototype => prototype.opcode == opcode

/-- An ascending list with a prototype in its place, instead of one of the same opcode. -/
def insertInto (prototype : Prototype) : List Prototype → List Prototype
  | [] => [prototype]
  | first :: rest =>
      if prototype.opcode < first.opcode then prototype :: first :: rest
      else if first.opcode < prototype.opcode then first :: insertInto prototype rest
      else prototype :: rest

theorem mem_of_mem_insertInto {prototype member : Prototype} {list : List Prototype}
    (inserted : member ∈ insertInto prototype list) : member = prototype ∨ member ∈ list := by
  induction list with
  | nil => simpa [insertInto] using inserted
  | cons first rest ih =>
      simp only [insertInto] at inserted
      split at inserted
      · simpa using inserted
      · split at inserted
        · rcases List.mem_cons.mp inserted with rfl | deeper
          · simp
          · rcases ih deeper with rfl | old
            · simp
            · simp [old]
        · rcases List.mem_cons.mp inserted with rfl | old
          · simp
          · simp [old]

theorem pairwise_insertInto {prototype : Prototype} {list : List Prototype}
    (ascending : list.Pairwise fun earlier later => earlier.opcode < later.opcode) :
    (insertInto prototype list).Pairwise fun earlier later => earlier.opcode < later.opcode := by
  induction list with
  | nil => simp [insertInto]
  | cons first rest ih =>
      have ⟨below, sorted⟩ := List.pairwise_cons.mp ascending
      simp only [insertInto]
      split
      · rename_i less
        refine List.pairwise_cons.mpr ⟨?_, ascending⟩
        intro later member
        rcases List.mem_cons.mp member with rfl | deeper
        · exact less
        · exact UInt16.lt_trans less (below later deeper)
      · split
        · rename_i less
          refine List.pairwise_cons.mpr ⟨?_, ih sorted⟩
          intro later member
          rcases mem_of_mem_insertInto member with rfl | old
          · exact less
          · exact below later old
        · rename_i notLess notGreater
          have same : prototype.opcode = first.opcode :=
            UInt16.le_antisymm (UInt16.not_lt.mp notGreater) (UInt16.not_lt.mp notLess)
          refine List.pairwise_cons.mpr ⟨?_, sorted⟩
          intro later member
          rw [same]
          exact below later member

/-- The table with a prototype in place of any other of its opcode. -/
def insert (table : Table) (prototype : Prototype) : Table :=
  ⟨insertInto prototype table.prototypes, pairwise_insertInto table.ascending⟩

/-- The table in which an opcode is an unnamed function of so many operands. -/
def declare (table : Table) (opcode : UInt16) (count : OperandCount) : Table :=
  table.insert (.unnamed opcode count)

/-- The table in which an opcode has a name.  An opcode that was not declared becomes a function
without operands. -/
def setName (table : Table) (opcode : UInt16) (name : String) : Table :=
  table.insert (((table.find? opcode).getD (.unnamed opcode default)).withName name)

/-- The table of the listed prototypes; of equal opcodes the last one counts. -/
def ofList (prototypes : List Prototype) : Table :=
  prototypes.foldl insert empty

/-- The number of prototypes that have a name. -/
def namedCount (table : Table) : Nat :=
  table.prototypes.countP fun prototype => prototype.name.isSome

/-- One line for every prototype, each ended by a line feed. -/
def listing (table : Table) : String :=
  String.join (table.prototypes.map fun prototype => prototype.line ++ "\n")

/-! ## What look-ups find -/

@[simp]
theorem find?_empty (opcode : UInt16) : empty.find? opcode = none :=
  rfl

/-- A prototype is found under its own opcode. -/
theorem opcode_of_find? {table : Table} {opcode : UInt16} {prototype : Prototype}
    (found : table.find? opcode = some prototype) : prototype.opcode = opcode := by
  simpa using List.find?_some found

theorem find?_insertInto {prototype : Prototype} {list : List Prototype} {opcode : UInt16}
    (ascending : list.Pairwise fun earlier later => earlier.opcode < later.opcode) :
    (insertInto prototype list).find? (fun member => member.opcode == opcode) =
      if prototype.opcode = opcode then some prototype
      else list.find? fun member => member.opcode == opcode := by
  induction list with
  | nil => by_cases same : prototype.opcode = opcode <;> simp [insertInto, same]
  | cons first rest ih =>
      have ⟨below, sorted⟩ := List.pairwise_cons.mp ascending
      have test : ∀ word : UInt16, (word == opcode) = decide (word = opcode) := fun _ => rfl
      simp only [insertInto]
      split
      · rw [List.find?_cons, test]
        by_cases same : prototype.opcode = opcode <;> simp [same]
      · split
        · rename_i less
          rw [List.find?_cons, List.find?_cons, ih sorted, test]
          by_cases same : first.opcode = opcode
          · have differs : prototype.opcode ≠ opcode := by
              intro equal
              rw [← equal] at same
              exact UInt16.lt_irrefl _ (same ▸ less)
            simp [same, differs]
          · simp [same]
        · rename_i notLess notGreater
          have equal : prototype.opcode = first.opcode :=
            UInt16.le_antisymm (UInt16.not_lt.mp notGreater) (UInt16.not_lt.mp notLess)
          rw [List.find?_cons, List.find?_cons, ← equal, test]
          by_cases same : prototype.opcode = opcode <;> simp [same]

/-- An insertion changes the look-up of its own opcode and no other. -/
theorem find?_insert (table : Table) (prototype : Prototype) (opcode : UInt16) :
    (table.insert prototype).find? opcode =
      if prototype.opcode = opcode then some prototype else table.find? opcode :=
  find?_insertInto table.ascending

end Table

end ScriptDisassembler
