import ScriptDisassembler.Proofs.Prototype.Definition

/-!
# Listings read back

The listing of a table of listable prototypes is a dump that loads without a warning and gives the
table again (`load_listing`).  No other table comes back from its listing, because whatever a dump
brings into the empty table is listable.
-/

namespace ScriptDisassembler

namespace Format

/-- The line of a listable prototype is accepted as that prototype. -/
theorem dumpVerdict_line {prototype : Prototype} (listable : prototype.Listable) :
    dumpVerdict prototype.line.toList = .accepted (.insert prototype) := by
  have whole : Text.upTo ';' prototype.line.toList = prototype.line.toList :=
    Text.upTo_of_notMem (Prototype.semicolon_notMem_line listable)
  have filled : (Text.strip prototype.line.toList).isEmpty = false := by
    rw [Prototype.strip_line listable.legible, Prototype.line_toList]
    simp
  simp only [dumpVerdict, whole, filled]
  rw [if_neg Bool.false_ne_true, Verdict.ofResult_eq_accepted_iff, except_bind_eq_ok_iff]
  exact ⟨prototype, Prototype.ofLine_line listable.legible, rfl⟩

end Format

namespace Table

/-! ## The lines of a listing -/

theorem listing_toList (table : Table) :
    table.listing.toList =
      (table.prototypes.map fun prototype => prototype.line.toList).flatMap (· ++ ['\n']) := by
  simp [listing, String.toList_join, List.flatMap_def, Function.comp_def]

theorem lines_listing {table : Table} (listable : table.Listable) :
    Text.lines table.listing.toList =
      table.prototypes.map fun prototype => prototype.line.toList := by
  rw [listing_toList]
  apply Text.lines_flatMap_newline
  · intro line member
    rcases List.mem_map.mp member with ⟨prototype, stored, rfl⟩
    exact Prototype.newline_notMem_line (listable prototype stored)
  · intro line member
    rcases List.mem_map.mp member with ⟨prototype, stored, rfl⟩
    intro last
    -- A carriage return is a blank, and the line has none at its end.
    have stripped := Prototype.strip_line (listable prototype stored).legible
    exact absurd ((Text.strip_eq_self_iff.mp stripped).2 '\r' last) (by decide)

theorem verdicts_listing {table : Table} (listable : table.Listable) :
    Format.dump.verdicts table.listing =
      table.prototypes.map fun prototype => .accepted (.insert prototype) := by
  rw [Format.verdicts, lines_listing listable, List.map_map]
  apply List.map_congr_left
  intro prototype stored
  exact Format.dumpVerdict_line (listable prototype stored)

theorem updates_listing {table : Table} (listable : table.Listable) :
    Format.dump.updates table.listing = table.prototypes.map .insert := by
  rw [Format.updates, verdicts_listing listable, List.filterMap_map]
  change table.prototypes.filterMap (some ∘ Update.insert) = _
  rw [List.filterMap_eq_map]

theorem rejections_listing {table : Table} (listable : table.Listable) :
    Format.dump.rejections table.listing = [] := by
  rw [Format.rejections, verdicts_listing listable, List.filterMap_eq_nil_iff]
  rintro ⟨verdict, line⟩ numbered
  rcases List.mem_map.mp (List.fst_mem_of_mem_zipIdx numbered) with ⟨prototype, -, rfl⟩
  rfl

/-! ## Filling a table in order -/

theorem insertInto_of_greater {prototype : Prototype} {list : List Prototype}
    (greater : ∀ member ∈ list, member.opcode < prototype.opcode) :
    insertInto prototype list = list ++ [prototype] := by
  induction list with
  | nil => rfl
  | cons first rest ih =>
      have less := greater first List.mem_cons_self
      have notLess : ¬ prototype.opcode < first.opcode := UInt16.lt_asymm less
      rw [insertInto, if_neg notLess, if_pos less,
        ih fun member stored => greater member (List.mem_cons_of_mem first stored)]
      rfl

/-- Prototypes that come in ascending order behind those of a table are appended. -/
theorem prototypes_applyAll_insert {table : Table} {prototypes : List Prototype}
    (ascending : (table.prototypes ++ prototypes).Pairwise
      fun earlier later => earlier.opcode < later.opcode) :
    (table.applyAll (prototypes.map .insert)).prototypes = table.prototypes ++ prototypes := by
  induction prototypes generalizing table with
  | nil => simp [applyAll]
  | cons prototype rest ih =>
      have greater : ∀ member ∈ table.prototypes, member.opcode < prototype.opcode := by
        intro member stored
        exact (List.pairwise_append.mp ascending).2.2 member stored prototype List.mem_cons_self
      have extended : (table.insert prototype).prototypes = table.prototypes ++ [prototype] :=
        insertInto_of_greater greater
      have regrouped : table.prototypes ++ prototype :: rest =
          (table.insert prototype).prototypes ++ rest := by
        rw [extended, List.append_assoc, List.singleton_append]
      rw [regrouped] at ascending ⊢
      exact ih ascending

/-- A table is the empty one filled with its prototypes. -/
theorem applyAll_insert_prototypes (table : Table) :
    empty.applyAll (table.prototypes.map .insert) = table := by
  apply ext
  rw [prototypes_applyAll_insert (by simpa [empty] using table.ascending)]
  rfl

/-! ## Loading a listing -/

/-- The listing of a listable table loads as that table, with nothing to report but its size. -/
theorem load_listing {table : Table} (listable : table.Listable) :
    empty.load .dump table.listing = ⟨table, table.size, [.loaded .dump table.size]⟩ := by
  simp only [load, updates_listing listable, rejections_listing listable,
    applyAll_insert_prototypes, List.length_map, List.nil_append]
  rfl

/-- A table comes back from its listing exactly if it is listable.  Then every prototype is
counted, no line is skipped, and the listing of what was loaded is the same. -/
theorem load_listing_eq_self_iff (table : Table) :
    ((empty.load .dump table.listing).table = table ↔
      ∀ prototype ∈ table.prototypes, prototype.Listable) ∧
    ((empty.load .dump table.listing).table = table →
      (empty.load .dump table.listing).count = table.size ∧
      (∀ notice ∈ (empty.load .dump table.listing).notices, notice.level ≠ .warning) ∧
      (empty.load .dump table.listing).table.listing = table.listing) := by
  have listable_of_same : (empty.load .dump table.listing).table = table → table.Listable := by
    intro same
    have loaded := listable_empty.load .dump table.listing
    rwa [same] at loaded
  constructor
  · constructor
    · exact listable_of_same
    · intro listable
      rw [load_listing listable]
  · intro same
    have listable := listable_of_same same
    rw [load_listing listable]
    refine ⟨rfl, ?_, rfl⟩
    intro notice member
    rw [List.mem_singleton.mp member]
    exact Level.noConfusion

/-- Parentheses in a name do not keep a table from coming back. -/
theorem load_listing_eq_self_of_parentheses :
    let table := ofList [⟨0x7fff, some "a) (func 1", .fixed (2 ^ 63 - 1), .operator⟩]
    (empty.load .dump table.listing).table = table ∧
      (empty.load .dump table.listing).count = 1 := by
  intro table
  have listable : ∀ prototype ∈ table.prototypes, prototype.Listable := by
    intro prototype stored
    rw [List.mem_singleton.mp stored]
    refine ⟨by decide, by decide, ?_⟩
    rintro name ⟨⟩
    exact ⟨by decide, by decide, by decide, by decide⟩
  have same := (load_listing_eq_self_iff table).1.mpr listable
  exact ⟨same, ((load_listing_eq_self_iff table).2 same).1⟩

end Table

end ScriptDisassembler
