import ScriptDisassembler.Proofs.Operand.OpenEnd

/-!
# Counted operand lists

Every operand takes at least one byte, so no more operands are read than bytes are left
(`Operand.ReadsThrough.remaining_add_length_le`).  A counted list fails where the first operand
stands that can not be read, and how many more were wanted makes no difference
(`Operand.readExactly_eq_error_iff`).  All counts past the number of bytes therefore fail alike
(`Operand.exists_readExactly_eq_error`), and an open-ended list comes to its end within that number
(`Operand.exists_stopsBehind`).
-/

namespace ScriptDisassembler.Operand

variable {cursor after : Cursor} {operands : List Operand} {error : Error} {count : Nat}

/-- Operands take at least one byte each. -/
theorem ReadsThrough.remaining_add_length_le (through : ReadsThrough cursor operands after) :
    after.remaining + operands.length ≤ cursor.remaining := by
  induction through with
  | nil cursor => exact Nat.le_refl _
  | cons head _ ih =>
      have fewer := remaining_lt_of_read head
      rw [List.length_cons]
      omega

theorem ReadsThrough.length_le (through : ReadsThrough cursor operands after) :
    operands.length ≤ cursor.remaining :=
  Nat.le_trans (Nat.le_add_left _ _) through.remaining_add_length_le

/-! ## Counted lists that fail -/

/-- A counted list fails exactly as the first operand does that can not be read. -/
theorem readExactly_eq_error_iff :
    readExactly count cursor = (.error error, after) ↔
      ∃ operands middle, operands.length < count ∧ ReadsThrough cursor operands middle ∧
        read middle = (.error error, after) := by
  induction count generalizing cursor with
  | zero => simp
  | succ count ih =>
      rw [readExactly_succ, Reader.bind_eq_error_iff]
      constructor
      · rintro (failure | ⟨operand, middle, head, failure⟩)
        · exact ⟨[], cursor, Nat.succ_pos count, .nil cursor, failure⟩
        · rcases Reader.bind_eq_error_iff.mp failure with failure | ⟨_, _, -, impossible⟩
          · obtain ⟨operands, last, fewer, through, stopped⟩ := ih.mp failure
            exact ⟨operand :: operands, last, Nat.succ_lt_succ fewer, .cons head through, stopped⟩
          · cases impossible
      · rintro ⟨operands, last, fewer, through, stopped⟩
        cases through with
        | nil cursor => exact .inl stopped
        | @cons _ middle _ operand operands head through =>
            have failure := ih.mpr ⟨operands, last, Nat.lt_of_succ_lt_succ fewer, through, stopped⟩
            exact .inr ⟨operand, middle, head, Reader.bind_eq_error_iff.mpr (.inl failure)⟩

/-- A counted list fails exactly as it does with the smallest count that fails. -/
theorem readExactly_eq_error_iff_readExactly :
    readExactly count cursor = (.error error, after) ↔
      ∃ fewer < count, ∃ operands middle, readExactly fewer cursor = (.ok operands, middle) ∧
        readExactly (fewer + 1) cursor = (.error error, after) := by
  rw [readExactly_eq_error_iff]
  constructor
  · rintro ⟨operands, middle, fewer, through, stopped⟩
    have front := readExactly_eq_ok_iff.mpr ⟨rfl, through⟩
    exact ⟨operands.length, fewer, operands, middle, front,
      (readExactly_succ_eq_error_iff front).mpr stopped⟩
  · rintro ⟨fewer, less, operands, middle, front, failure⟩
    obtain ⟨length_eq, through⟩ := readExactly_eq_ok_iff.mp front
    exact ⟨operands, middle, length_eq ▸ less, through,
      (readExactly_succ_eq_error_iff front).mp failure⟩

/-- A count of operands that are read is at most the number of bytes. -/
theorem le_remaining_of_readExactly (success : readExactly count cursor = (.ok operands, after)) :
    count ≤ cursor.remaining := by
  obtain ⟨rfl, through⟩ := readExactly_eq_ok_iff.mp success
  exact through.length_le

/-- All counts past the number of bytes fail alike. -/
theorem exists_readExactly_eq_error (cursor : Cursor) :
    ∃ error after, ∀ count, cursor.remaining < count →
      readExactly count cursor = (.error error, after) := by
  rcases outcome : readExactly (cursor.remaining + 1) cursor with ⟨result, after⟩
  cases result with
  | ok operands => exact absurd (le_remaining_of_readExactly outcome) (Nat.not_succ_le_self _)
  | error error =>
      refine ⟨error, after, fun count more => ?_⟩
      obtain ⟨operands, middle, -, through, stopped⟩ := readExactly_eq_error_iff.mp outcome
      have fewer : operands.length < count := Nat.lt_of_le_of_lt through.length_le more
      exact readExactly_eq_error_iff.mpr ⟨operands, middle, fewer, through, stopped⟩

/-! ## Open-ended lists come to an end -/

/-- Whether the open-ended list at a cursor stops behind operands, none of them an end marker: with
an end marker, or where no operand can be read. -/
def StopsBehind (cursor : Cursor) (operands : List Operand) : Prop :=
  (∀ operand ∈ operands, operand.kind ≠ .terminator) ∧
    ∃ middle after, ReadsThrough cursor operands middle ∧
      ((∃ marker, read middle = (.ok marker, after) ∧ marker.kind = .terminator ∧
          readUntilEnd cursor = (.ok operands, after)) ∨
        ∃ error, read middle = (.error error, after) ∧
          readUntilEnd cursor = (.error error, after))

/-- An open-ended list stops, behind at most as many operands as there are bytes. -/
theorem exists_stopsBehind (cursor : Cursor) :
    ∃ operands, operands.length ≤ cursor.remaining ∧ StopsBehind cursor operands := by
  rcases outcome : readUntilEnd cursor with ⟨result, after⟩
  cases result with
  | ok operands =>
      obtain ⟨others, middle, marker, through, last, ends⟩ := readUntilEnd_eq_ok_iff.mp outcome
      exact ⟨operands, through.length_le, others, middle, after, through,
        .inl ⟨marker, last, ends, outcome⟩⟩
  | error error =>
      obtain ⟨operands, middle, others, through, stopped⟩ := readUntilEnd_eq_error_iff.mp outcome
      exact ⟨operands, through.length_le, others, middle, after, through,
        .inr ⟨error, stopped, outcome⟩⟩

end ScriptDisassembler.Operand
