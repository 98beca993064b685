import Mathlib.Data.Finset.Card
import Mathlib.Data.List.Perm.Basic
import ScriptDisassembler.Prototype.Loading
import ScriptDisassembler.Text.Lossy

/-!
# Building tables

A table is built by single updates and by definition texts, of which every accepted line is an
update.  An update revises the entry of its own opcode and leaves the others alone
(`Table.find?_apply`), so what is found under an opcode is what the updates of this opcode make of
it, one after the other (`Table.find?_applyAll`).  Tables in which the same is found are equal
(`Table.eq_of_find?`); hence updates of different opcodes commute.
-/

namespace ScriptDisassembler

namespace Update

/-- What an update makes of the entry of its opcode. -/
def revise (entry : Option Prototype) : Update → Prototype
  | declare opcode count => .unnamed opcode count
  | setName opcode name => (entry.getD (.unnamed opcode (.fixed 0))).withName name
  | insert prototype => prototype

/-- What updates of one opcode make of its entry, one after the other. -/
def replay (entry : Option Prototype) (updates : List Update) : Option Prototype :=
  updates.foldl (fun entry update => some (update.revise entry)) entry

@[simp]
theorem replay_nil (entry : Option Prototype) : replay entry [] = entry :=
  rfl

@[simp]
theorem replay_cons (entry : Option Prototype) (update : Update) (updates : List Update) :
    replay entry (update :: updates) = replay (some (update.revise entry)) updates :=
  rfl

theorem replay_append (entry : Option Prototype) (first second : List Update) :
    replay entry (first ++ second) = replay (replay entry first) second :=
  List.foldl_append

/-- There is an entry in the end if there was one, or if there is an update. -/
theorem replay_eq_none_iff {entry : Option Prototype} {updates : List Update} :
    replay entry updates = none ↔ entry = none ∧ updates = [] := by
  induction updates generalizing entry with
  | nil => simp
  | cons update updates ih => simp [ih]

/-- Of whole prototypes, the last one stays. -/
theorem replay_insert (prototypes : List Prototype) :
    replay none (prototypes.map insert) = prototypes.getLast? := by
  induction prototypes using List.reverseRecOn with
  | nil => rfl
  | append_singleton earlier last ih =>
      rw [List.map_append, replay_append, List.getLast?_concat]
      rfl

end Update

namespace Table

/-! ## A table and its look-ups -/

theorem nodup_opcodes (table : Table) : (table.prototypes.map Prototype.opcode).Nodup := by
  rw [List.nodup_iff_pairwise_ne, List.pairwise_map]
  exact table.ascending.imp UInt16.ne_of_lt

/-- A table holds what is found in it. -/
theorem mem_prototypes_iff {table : Table} {prototype : Prototype} :
    prototype ∈ table.prototypes ↔ table.find? prototype.opcode = some prototype := by
  constructor
  · intro stored
    cases found : table.find? prototype.opcode with
    | none => exact absurd (List.find?_eq_none.mp found prototype stored) (by simp)
    | some other =>
        have member : other ∈ table.prototypes := List.mem_of_find?_eq_some found
        have equal : other = prototype :=
          List.inj_on_of_nodup_map table.nodup_opcodes member stored (opcode_of_find? found)
        rw [equal]
  · exact List.mem_of_find?_eq_some

theorem mem_prototypes_iff_exists {table : Table} {prototype : Prototype} :
    prototype ∈ table.prototypes ↔ ∃ opcode, table.find? opcode = some prototype := by
  constructor
  · intro stored
    exact ⟨prototype.opcode, mem_prototypes_iff.mp stored⟩
  · rintro ⟨opcode, found⟩
    exact List.mem_of_find?_eq_some found

theorem ext {first second : Table} (same : first.prototypes = second.prototypes) :
    first = second := by
  cases first
  cases second
  cases same
  rfl

/-- Tables in which the same is found are the same. -/
theorem eq_of_find? {first second : Table}
    (same : ∀ opcode, first.find? opcode = second.find? opcode) : first = second := by
  have members : first.prototypes.Perm second.prototypes := by
    rw [List.perm_ext_iff_of_nodup first.nodup_opcodes.of_map second.nodup_opcodes.of_map]
    intro prototype
    rw [mem_prototypes_iff, mem_prototypes_iff, same]
  apply ext
  apply members.eq_of_pairwise _ first.ascending second.ascending
  intro earlier later _ _ less greater
  exact absurd greater (UInt16.lt_asymm less)

/-! ## Updates -/

/-- An update revises the entry of its own opcode and no other. -/
theorem find?_apply (table : Table) (update : Update) (opcode : UInt16) :
    (table.apply update).find? opcode =
      if update.opcode = opcode then some (update.revise (table.find? opcode))
      else table.find? opcode := by
  cases update with
  | declare own count => exact find?_insert table _ opcode
  | setName own name =>
      have own_eq : (((table.find? own).getD (.unnamed own default)).withName name).opcode =
          own := by
        cases found : table.find? own with
        | none => rfl
        | some prototype =>
            change prototype.opcode = own
            exact opcode_of_find? found
      change (table.insert _).find? opcode = if own = opcode then _ else _
      rw [find?_insert, own_eq]
      split
      · rename_i same
        rw [← same]
        rfl
      · rfl
  | insert prototype => exact find?_insert table prototype opcode

/-- Under an opcode is found what its updates made of it. -/
theorem find?_applyAll (table : Table) (updates : List Update) (opcode : UInt16) :
    (table.applyAll updates).find? opcode =
      Update.replay (table.find? opcode)
        (updates.filter fun update => update.opcode = opcode) := by
  induction updates generalizing table with
  | nil => rfl
  | cons update updates ih =>
      change ((table.apply update).applyAll updates).find? opcode = _
      rw [ih, find?_apply]
      by_cases about : update.opcode = opcode
      · rw [if_pos about, List.filter_cons_of_pos (by simpa using about), Update.replay_cons]
      · rw [if_neg about, List.filter_cons_of_neg (by simpa using about)]

/-- Updates that have no opcode in common can be made in either order. -/
theorem applyAll_comm (table : Table) {first second : List Update}
    (apart : ∀ one ∈ first, ∀ other ∈ second, one.opcode ≠ other.opcode) :
    (table.applyAll first).applyAll second = (table.applyAll second).applyAll first := by
  apply eq_of_find?
  intro opcode
  simp only [find?_applyAll]
  by_cases named : ∃ one ∈ first, one.opcode = opcode
  · obtain ⟨one, member, rfl⟩ := named
    have untouched : second.filter (fun update => update.opcode = one.opcode) = [] := by
      rw [List.filter_eq_nil_iff]
      intro other otherMember
      simpa using (apart one member other otherMember).symm
    rw [untouched, Update.replay_nil, Update.replay_nil]
  · have untouched : first.filter (fun update => update.opcode = opcode) = [] := by
      rw [List.filter_eq_nil_iff]
      intro one member
      simpa using fun same => named ⟨one, member, same⟩
    rw [untouched, Update.replay_nil, Update.replay_nil]

/-- What holds of every prototype of a table, and is kept when an update revises an entry of which
it holds, still holds of every prototype when the updates are made. -/
theorem forall_mem_applyAll {motive : Prototype → Prop} {table : Table} {updates : List Update}
    (kept : ∀ prototype ∈ table.prototypes, motive prototype)
    (revised : ∀ update ∈ updates, ∀ entry : Option Prototype,
      (∀ prototype, entry = some prototype → motive prototype) → motive (update.revise entry)) :
    ∀ prototype ∈ (table.applyAll updates).prototypes, motive prototype := by
  induction updates generalizing table with
  | nil => exact kept
  | cons update updates ih =>
      apply @ih (table.apply update)
      · intro prototype stored
        have found := mem_prototypes_iff.mp stored
        rw [find?_apply] at found
        split at found
        · rw [← Option.some.inj found]
          apply revised update List.mem_cons_self
          intro before held
          exact kept before (List.mem_of_find?_eq_some held)
        · exact kept prototype (List.mem_of_find?_eq_some found)
      · intro later member
        exact revised later (List.mem_cons_of_mem update member)

/-- As many prototypes are held as opcodes were updated. -/
theorem size_applyAll_empty (updates : List Update) :
    (empty.applyAll updates).size = (updates.map Update.opcode).toFinset.card := by
  let table := empty.applyAll updates
  have held : (table.prototypes.map Prototype.opcode).toFinset =
      (updates.map Update.opcode).toFinset := by
    ext opcode
    rw [List.mem_toFinset, List.mem_toFinset]
    have found_iff : table.find? opcode ≠ none ↔ ∃ update ∈ updates, update.opcode = opcode := by
      rw [find?_applyAll, Ne, Update.replay_eq_none_iff]
      simp
    constructor
    · intro member
      obtain ⟨prototype, stored, rfl⟩ := List.mem_map.mp member
      rw [List.mem_map, ← found_iff, mem_prototypes_iff.mp stored]
      exact Option.some_ne_none prototype
    · intro member
      obtain ⟨prototype, found⟩ :=
        Option.ne_none_iff_exists'.mp (found_iff.mpr (List.mem_map.mp member))
      exact List.mem_map.mpr
        ⟨prototype, List.mem_of_find?_eq_some found, opcode_of_find? found⟩
  rw [← held, List.toFinset_card_of_nodup table.nodup_opcodes, List.length_map]
  rfl

/-! ## Listed prototypes -/

theorem ofList_eq_applyAll (prototypes : List Prototype) :
    ofList prototypes = empty.applyAll (prototypes.map .insert) := by
  rw [ofList, applyAll, List.foldl_map]
  rfl

/-- Of the prototypes of an opcode the last one counts. -/
theorem find?_ofList (prototypes : List Prototype) (opcode : UInt16) :
    (ofList prototypes).find? opcode =
      (prototypes.filter fun prototype => prototype.opcode = opcode).getLast? := by
  rw [ofList_eq_applyAll, find?_applyAll, List.filter_map, find?_empty]
  exact Update.replay_insert _

/-- The order of prototypes does not matter if no two have the same opcode. -/
theorem ofList_eq_of_perm {first second : List Prototype} (permuted : first.Perm second)
    (distinct : (first.map Prototype.opcode).Nodup) : ofList first = ofList second := by
  apply permuted.foldl_eq'
  intro one oneMember other otherMember table
  by_cases same : one.opcode = other.opcode
  · rw [List.inj_on_of_nodup_map distinct oneMember otherMember same]
  · exact @applyAll_comm table [.insert one] [.insert other] (by simpa)

end Table

/-! ## Operations -/

/-- A definition text as it comes. -/
inductive Source
  /-- A text at hand. -/
  | text (text : String)
  /-- The bytes of a file. -/
  | file (bytes : List UInt8)

/-- The text that a source gives. -/
def Source.content : Source → String
  | .text given => given
  | .file bytes => Text.ofBytesLossy bytes

/-- A step in building a table. -/
inductive Operation
  /-- One update. -/
  | update (update : Update)
  /-- A definition text. -/
  | load (format : Format) (source : Source)

/-- The updates that an operation amounts to, which for a text are those of its accepted lines. -/
def Operation.updates : Operation → List Update
  | .update single => [single]
  | .load format source => format.updates source.content

namespace Table

/-- The table after an operation. -/
def perform (table : Table) : Operation → Table
  | .update single => table.apply single
  | .load format source => (table.load format source.content).table

/-- The table that operations build from nothing. -/
def build (operations : List Operation) : Table :=
  operations.foldl perform empty

theorem perform_eq (table : Table) (operation : Operation) :
    table.perform operation = table.applyAll operation.updates := by
  cases operation <;> rfl

theorem build_eq (operations : List Operation) :
    build operations = empty.applyAll (operations.flatMap Operation.updates) := by
  have performed : perform = fun table operation => table.applyAll operation.updates := by
    funext table operation
    exact perform_eq table operation
  rw [build, performed, applyAll, List.foldl_flatMap]
  rfl

/-! ## Main result -/

/-- The law of tables.  In a table that operations built from nothing, under every opcode is found
what those updates made of it that are about this opcode, and nothing else; the prototypes are
listed in ascending order, and are as many as opcodes were updated.  Operations without a common
opcode commute.  Of listed prototypes the last of an opcode counts, so their order does not matter
if every opcode occurs once. -/
theorem find?_build (operations : List Operation) :
    let table := build operations
    let updates := operations.flatMap Operation.updates
    (∀ opcode, table.find? opcode =
        Update.replay none (updates.filter fun update => update.opcode = opcode)) ∧
      (∀ opcode prototype, table.find? opcode = some prototype → prototype.opcode = opcode) ∧
      (table.prototypes.Pairwise fun earlier later => earlier.opcode < later.opcode) ∧
      (∀ prototype,
        prototype ∈ table.prototypes ↔ ∃ opcode, table.find? opcode = some prototype) ∧
      table.size = (updates.map Update.opcode).toFinset.card ∧
      (∀ (other : Table) (first second : Operation),
        (∀ one ∈ first.updates, ∀ another ∈ second.updates, one.opcode ≠ another.opcode) →
          (other.perform first).perform second = (other.perform second).perform first) ∧
      (∀ prototypes opcode, (ofList prototypes).find? opcode =
        (prototypes.filter fun prototype => prototype.opcode = opcode).getLast?) ∧
      ∀ first second : List Prototype, first.Perm second →
        (first.map Prototype.opcode).Nodup →
          ofList first = ofList second ∧ (ofList first).listing = (ofList second).listing := by
  intro table updates
  refine ⟨?_, fun _ _ => opcode_of_find?, table.ascending, fun _ => mem_prototypes_iff_exists,
    ?_, ?_, find?_ofList, ?_⟩
  · intro opcode
    simp only [table, updates, build_eq, find?_applyAll, find?_empty]
  · simp only [table, updates, build_eq, size_applyAll_empty]
  · intro other first second apart
    simp only [perform_eq]
    exact other.applyAll_comm apart
  · intro first second permuted distinct
    have same := ofList_eq_of_perm permuted distinct
    exact ⟨same, congrArg listing same⟩

/-- A count drops the name that came before it, and a name stays with the operator that a dump
brought; the other two prototypes may come in either order. -/
theorem find?_build_mixed :
    let operations : List Operation :=
      [.load .names (.text "0001 wait(ms)\n0002 goto ; jump"), .update (.declare 1 .variadic),
        .load .dump (.file (Text.utf8Bytes "0003 (oper 2) +=\r\n?\n")),
        .update (.setName 3 "add")]
    let wait : Operation := .load .counts (.text "0001=1,wait")
    let add : Operation := .update (.setName 3 "+")
    let first : List Prototype := [.function 2 "goto" 0, .operator 3 "add" 2]
    let second : List Prototype := [.operator 3 "add" 2, .function 2 "goto" 0]
    (build operations).find? 1 = some (.unnamed 1 .variadic) ∧
      (build operations).find? 3 = some (.operator 3 "add" 2) ∧
      (build operations).size = 3 ∧
      (∀ one ∈ wait.updates, ∀ another ∈ add.updates, one.opcode ≠ another.opcode) ∧
      ((build operations).perform wait).perform add =
        ((build operations).perform add).perform wait ∧
      first.Perm second ∧ (first.map Prototype.opcode).Nodup ∧ ofList first = ofList second := by
  intro operations wait add first second
  have ⟨found, _, _, _, size_eq, commute, _, reorder⟩ := find?_build operations
  have apart : ∀ one ∈ wait.updates, ∀ another ∈ add.updates, one.opcode ≠ another.opcode := by
    decide +kernel
  have permuted : first.Perm second := .swap _ _ _
  have distinct : (first.map Prototype.opcode).Nodup := by decide
  refine ⟨?_, ?_, ?_, apart, commute _ _ _ apart, permuted, distinct,
    (reorder _ _ permuted distinct).1⟩
  · rw [found]
    decide +kernel
  · rw [found]
    decide +kernel
  · rw [size_eq]
    decide +kernel

end Table

end ScriptDisassembler
