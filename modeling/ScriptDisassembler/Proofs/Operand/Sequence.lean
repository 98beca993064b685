import ScriptDisassembler.Proofs.Operand.Stored

/-!
# Operands one behind the other

`Operand.ReadsThrough` says which operands are read one after another between two cursors.  Both
operand loops are characterised by it: the counted one reads through as many operands as it is
asked for, the open-ended one through operands that are no end markers and then an end marker.
-/

namespace ScriptDisassembler

namespace Operand

/-- The operands that are read one after another from a cursor up to a later one. -/
inductive ReadsThrough : Cursor → List Operand → Cursor → Prop
  | nil (cursor : Cursor) : ReadsThrough cursor [] cursor
  | cons {cursor middle after : Cursor} {operand : Operand} {operands : List Operand}
      (head : read cursor = (.ok operand, middle)) (tail : ReadsThrough middle operands after) :
      ReadsThrough cursor (operand :: operands) after

namespace ReadsThrough

@[simp]
theorem nil_iff {cursor after : Cursor} : ReadsThrough cursor [] after ↔ after = cursor := by
  constructor
  · rintro ⟨⟩
    rfl
  · rintro rfl
    exact nil after

theorem cons_iff {cursor after : Cursor} {operand : Operand} {operands : List Operand} :
    ReadsThrough cursor (operand :: operands) after ↔
      ∃ middle, read cursor = (.ok operand, middle) ∧ ReadsThrough middle operands after := by
  constructor
  · intro through
    cases through with
    | cons head tail => exact ⟨_, head, tail⟩
  · rintro ⟨middle, head, tail⟩
    exact cons head tail

/-- The bytes of storable operands are read through as these operands. -/
theorem of_passes {operands : List Operand} {cursor after : Cursor}
    (storable : ∀ operand ∈ operands, operand.Storable)
    (passage : cursor.Passes (operands.flatMap bytes) after) :
    ReadsThrough cursor operands after := by
  induction operands generalizing cursor with
  | nil =>
      rw [Cursor.passes_nil_iff.mp passage]
      exact nil cursor
  | cons operand operands ih =>
      rw [List.flatMap_cons] at passage
      rcases Cursor.passes_append_iff.mp passage with ⟨middle, first, others⟩
      have rest : ReadsThrough middle operands after :=
        ih (fun other member => storable other (List.mem_cons_of_mem operand member)) others
      exact cons (read_of_passes (storable operand List.mem_cons_self) first) rest

/-- Operands that are read through and are no strings stand there in their bytes. -/
theorem passes {operands : List Operand} {cursor after : Cursor}
    (through : ReadsThrough cursor operands after)
    (noString : ∀ operand ∈ operands, operand.kind ≠ .string) :
    cursor.Passes (operands.flatMap bytes) after := by
  induction through with
  | nil cursor => exact Cursor.passes_nil_iff.mpr rfl
  | @cons cursor middle after operand operands head tail ih =>
      have first := passes_of_read head (noString operand List.mem_cons_self)
      have rest := ih fun other member => noString other (List.mem_cons_of_mem operand member)
      exact first.trans rest

end ReadsThrough

/-! ## What the operand loops read -/

theorem readExactly_eq_ok_iff {count : Nat} {operands : List Operand} {cursor after : Cursor} :
    readExactly count cursor = (.ok operands, after) ↔
      operands.length = count ∧ ReadsThrough cursor operands after := by
  induction count generalizing cursor operands with
  | zero =>
      rw [readExactly_zero, List.length_eq_zero_iff]
      constructor
      · intro success
        cases success
        exact ⟨rfl, .nil after⟩
      · rintro ⟨rfl, through⟩
        rw [ReadsThrough.nil_iff.mp through]
  | succ count ih =>
      rw [readExactly_succ]
      simp only [Reader.bind_eq_ok_iff, Reader.pure_apply, Prod.mk.injEq, Except.ok.injEq]
      constructor
      · rintro ⟨operand, middle, head, rest, _, others, rfl, rfl⟩
        rcases ih.mp others with ⟨length_eq, tail⟩
        exact ⟨by rw [List.length_cons, length_eq], .cons head tail⟩
      · rintro ⟨length_eq, through⟩
        cases through with
        | nil => cases length_eq
        | cons head tail =>
            exact ⟨_, _, head, _, after, ih.mpr ⟨Nat.succ.inj length_eq, tail⟩, rfl, rfl⟩

/-- One step of the open-ended loop. -/
theorem readUntilEnd_eq_ok_cons_iff {operands : List Operand} {cursor after : Cursor} :
    readUntilEnd cursor = (.ok operands, after) ↔
      ∃ first middle, read cursor = (.ok first, middle) ∧
        if first.kind = .terminator then operands = [] ∧ after = middle
        else ∃ rest, operands = first :: rest ∧ readUntilEnd middle = (.ok rest, after) := by
  have unrolled := congrFun readUntilEnd_eq cursor
  rw [unrolled, Reader.bind_eq_ok_iff]
  apply exists_congr
  intro first
  apply exists_congr
  intro middle
  apply and_congr_right
  intro head
  by_cases last : first.kind = .terminator
  · simp [last, eq_comm]
  · simp only [last, if_false, Reader.bind_eq_ok_iff]
    constructor
    · rintro ⟨rest, behind, tail, same⟩
      cases same
      exact ⟨rest, rfl, tail⟩
    · rintro ⟨rest, rfl, tail⟩
      exact ⟨rest, after, tail, rfl⟩

theorem readUntilEnd_eq_ok_iff {operands : List Operand} {cursor after : Cursor} :
    readUntilEnd cursor = (.ok operands, after) ↔
      (∀ operand ∈ operands, operand.kind ≠ .terminator) ∧
        ∃ middle last, ReadsThrough cursor operands middle ∧
          read middle = (.ok last, after) ∧ last.kind = .terminator := by
  induction operands generalizing cursor with
  | nil =>
      rw [readUntilEnd_eq_ok_cons_iff]
      constructor
      · rintro ⟨first, middle, head, ending⟩
        split at ending
        · rename_i last
          rw [ending.2]
          exact ⟨by simp, cursor, first, .nil cursor, head, last⟩
        · rcases ending with ⟨rest, impossible, -⟩
          cases impossible
      · rintro ⟨-, middle, last, through, head, ending⟩
        rw [ReadsThrough.nil_iff.mp through] at head
        refine ⟨last, after, head, ?_⟩
        rw [if_pos ending]
        exact ⟨rfl, rfl⟩
  | cons operand operands ih =>
      rw [readUntilEnd_eq_ok_cons_iff]
      constructor
      · rintro ⟨first, middle, head, ending⟩
        split at ending
        · cases ending.1
        · rename_i more
          rcases ending with ⟨rest, same, tail⟩
          cases same
          rcases ih.mp tail with ⟨others, behind, last, through, lastRead, isLast⟩
          refine ⟨List.forall_mem_cons.mpr ⟨more, others⟩, behind, last, ?_, lastRead, isLast⟩
          exact .cons head through
      · rintro ⟨others, behind, last, through, lastRead, isLast⟩
        rcases List.forall_mem_cons.mp others with ⟨more, rest⟩
        rcases ReadsThrough.cons_iff.mp through with ⟨middle, head, tail⟩
        refine ⟨operand, middle, head, ?_⟩
        rw [if_neg more]
        exact ⟨operands, rfl, ih.mpr ⟨rest, behind, last, tail, lastRead, isLast⟩⟩

end Operand

end ScriptDisassembler
