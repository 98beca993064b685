import ScriptDisassembler.Proofs.Operand.Sequence

/-!
# Open-ended operand lists

An open-ended list is a counted one whose length the script tells: up to the end marker it reads the
same operands, and where it fails, the counted list of one operand more than were read fails too
(`Operand.readUntilEnd_eq_ok_iff_readExactly`, `Operand.readUntilEnd_eq_error_iff_readExactly`).
Counted lists from the same cursor are prefixes of each other
(`Operand.exists_readExactly_take`).
-/

namespace ScriptDisassembler.Operand

variable {cursor middle after : Cursor} {operands : List Operand} {error : Error}

namespace ReadsThrough

/-- The last of several operands is read behind the others. -/
theorem concat_iff {last : Operand} :
    ReadsThrough cursor (operands ++ [last]) after ↔
      ∃ middle, ReadsThrough cursor operands middle ∧ read middle = (.ok last, after) := by
  induction operands generalizing cursor with
  | nil =>
      rw [List.nil_append, cons_iff]
      constructor
      · rintro ⟨middle, head, tail⟩
        rw [nil_iff.mp tail]
        exact ⟨cursor, .nil cursor, head⟩
      · rintro ⟨middle, through, head⟩
        rw [nil_iff.mp through] at head
        exact ⟨after, head, .nil after⟩
  | cons operand operands ih =>
      rw [List.cons_append, cons_iff]
      constructor
      · rintro ⟨first, head, tail⟩
        obtain ⟨middle, through, last⟩ := ih.mp tail
        exact ⟨middle, .cons head through, last⟩
      · rintro ⟨middle, through, last⟩
        obtain ⟨first, head, tail⟩ := cons_iff.mp through
        exact ⟨first, head, ih.mpr ⟨middle, tail, last⟩⟩

/-- What is read through begins with what is read through of its beginning. -/
theorem take (through : ReadsThrough cursor operands after) (count : Nat) :
    ∃ middle, ReadsThrough cursor (operands.take count) middle := by
  induction through generalizing count with
  | nil cursor => exact ⟨cursor, by rw [List.take_nil]; exact .nil cursor⟩
  | @cons cursor _ _ _ _ head _ ih =>
      cases count with
      | zero => exact ⟨cursor, .nil cursor⟩
      | succ count =>
          obtain ⟨middle, through⟩ := ih count
          exact ⟨middle, .cons head through⟩

end ReadsThrough

/-! ## Counted lists of different lengths -/

/-- One operand more is read behind the others, and fails where it stands. -/
theorem readExactly_succ_eq_error_iff {count : Nat}
    (before : readExactly count cursor = (.ok operands, middle)) :
    readExactly (count + 1) cursor = (.error error, after) ↔
      read middle = (.error error, after) := by
  induction count generalizing cursor operands with
  | zero =>
      cases before
      rw [readExactly_succ, Reader.bind_eq_error_iff]
      simp [Reader.bind_apply]
  | succ count ih =>
      rw [readExactly_succ, Reader.bind_eq_ok_iff] at before
      obtain ⟨operand, behind, head, tail⟩ := before
      obtain ⟨rest, last, others, same⟩ := Reader.bind_eq_ok_iff.mp tail
      cases same
      rw [readExactly_succ, Reader.bind_apply, head, Reader.bind_eq_error_iff]
      simp [ih others]

/-- Fewer operands are the first of the operands. -/
theorem exists_readExactly_take (through : ReadsThrough cursor operands after) {count : Nat}
    (fewer : count ≤ operands.length) :
    ∃ middle, readExactly count cursor = (.ok (operands.take count), middle) := by
  obtain ⟨middle, front⟩ := through.take count
  exact ⟨middle, readExactly_eq_ok_iff.mpr ⟨List.length_take_of_le fewer, front⟩⟩

/-! ## Open-ended lists -/

/-- An open-ended list is read exactly if the counted list of one operand more ends with the first
end marker in it. -/
theorem readUntilEnd_eq_ok_iff_readExactly :
    readUntilEnd cursor = (.ok operands, after) ↔
      (∀ operand ∈ operands, operand.kind ≠ .terminator) ∧
        ∃ marker, marker.kind = .terminator ∧
          readExactly (operands.length + 1) cursor = (.ok (operands ++ [marker]), after) := by
  rw [readUntilEnd_eq_ok_iff]
  simp only [readExactly_eq_ok_iff, ReadsThrough.concat_iff, List.length_append,
    List.length_singleton, true_and]
  apply and_congr_right
  intro _
  constructor
  · rintro ⟨middle, marker, through, last, ends⟩
    exact ⟨marker, ends, middle, through, last⟩
  · rintro ⟨marker, ends, middle, through, last⟩
    exact ⟨middle, marker, through, last, ends⟩

theorem readUntilEnd_eq_error_iff :
    readUntilEnd cursor = (.error error, after) ↔
      ∃ operands middle, (∀ operand ∈ operands, operand.kind ≠ .terminator) ∧
        ReadsThrough cursor operands middle ∧ read middle = (.error error, after) := by
  constructor
  · intro failure
    induction left : cursor.remaining using Nat.strongRecOn generalizing cursor with
    | ind bound ih =>
        rw [readUntilEnd_eq, Reader.bind_eq_error_iff] at failure
        rcases failure with failure | ⟨operand, middle, head, failure⟩
        · exact ⟨[], cursor, by simp, .nil cursor, failure⟩
        · split at failure
          · cases failure
          · rename_i more
            rcases Reader.bind_eq_error_iff.mp failure with failure | ⟨_, _, -, impossible⟩
            · have fewer := remaining_lt_of_read head
              obtain ⟨operands, last, others, through, stopped⟩ :=
                ih middle.remaining (left ▸ fewer) failure rfl
              exact ⟨operand :: operands, last, List.forall_mem_cons.mpr ⟨more, others⟩,
                .cons head through, stopped⟩
            · cases impossible
  · rintro ⟨operands, middle, others, through, stopped⟩
    induction through with
    | nil cursor =>
        rw [readUntilEnd_eq, Reader.bind_eq_error_iff]
        exact .inl stopped
    | cons head tail ih =>
        obtain ⟨more, rest⟩ := List.forall_mem_cons.mp others
        rw [readUntilEnd_eq, Reader.bind_apply, head]
        dsimp only
        rw [if_neg more, Reader.bind_eq_error_iff]
        exact .inl (ih rest stopped)

/-- An open-ended list fails exactly as a counted list fails at its last operand, if there is no end
marker among the operands before. -/
theorem readUntilEnd_eq_error_iff_readExactly :
    readUntilEnd cursor = (.error error, after) ↔
      ∃ operands middle, (∀ operand ∈ operands, operand.kind ≠ .terminator) ∧
        readExactly operands.length cursor = (.ok operands, middle) ∧
        readExactly (operands.length + 1) cursor = (.error error, after) := by
  rw [readUntilEnd_eq_error_iff]
  constructor
  · rintro ⟨operands, middle, others, through, stopped⟩
    have front := readExactly_eq_ok_iff.mpr ⟨rfl, through⟩
    exact ⟨operands, middle, others, front, (readExactly_succ_eq_error_iff front).mpr stopped⟩
  · rintro ⟨operands, middle, others, front, failure⟩
    exact ⟨operands, middle, others, (readExactly_eq_ok_iff.mp front).2,
      (readExactly_succ_eq_error_iff front).mp failure⟩

end ScriptDisassembler.Operand
