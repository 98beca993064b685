import ScriptDisassembler.Proofs.Operand.Composition

/-!
# How reading operands fails

There are two causes: a byte in the place of a tag is none, or a field wants more bytes than are
left.  In the first case the cursor stands behind the byte, in the second in front of the field, and
the failure says so in positions of the script.  `Operand.fault_of_readAll` is the statement for the
operands of an instruction.
-/

namespace ScriptDisassembler

/-- The failure of a read that wants more bytes than are left at the cursor. -/
def Cursor.Starves (cursor : Cursor) (error : Error) : Prop :=
  ∃ requested, cursor.remaining < requested ∧ error = cursor.shortfall requested

/-- The failure that a byte somewhere from the cursor on is no tag; `after` stands behind it. -/
def Cursor.Rejects (cursor after : Cursor) (error : Error) : Prop :=
  ∃ (code : UInt8) (earlier : Cursor), 0x14 ≤ code.toNat ∧ cursor.position ≤ earlier.position ∧
    earlier.Passes [code] after ∧ error = .invalidTag code

theorem Tag.read_apply (cursor : Cursor) :
    read cursor =
      match cursor.data[cursor.position]? with
      | none => (.error (cursor.shortfall 1), cursor)
      | some code =>
          match ofCode? code with
          | none => (.error (.invalidTag code), cursor.advance 1)
          | some tag => (.ok tag, cursor.advance 1) := by
  rw [read, Reader.bind_apply]
  cases stored : cursor.data[cursor.position]? with
  | none =>
      simp only [Reader.byte, Reader.bind_apply, Reader.unsigned, Reader.unsignedAt?, stored]
      rfl
  | some code =>
      rw [Reader.byte_eq_ok_iff.mpr ⟨stored, rfl⟩]
      cases known : ofCode? code <;> simp [known]

namespace Reader

variable {α : Type}

/-- A composed read fails for one of the two causes. -/
theorem Composed.starves_or_rejects {cursor after : Cursor} {reader : Reader α} {error : Error}
    (composed : Composed cursor reader) (failure : reader cursor = (.error error, after)) :
    after.Starves error ∨ cursor.Rejects after error := by
  induction composed with
  | pure a cursor => cases failure
  | bytes count cursor =>
      left
      by_cases fits : count ≤ cursor.remaining
      · rw [bytes_of_le fits] at failure
        cases failure
      · rw [bytes_of_lt (by omega)] at failure
        cases failure
        exact ⟨count, by omega, rfl⟩
  | tag cursor =>
      rw [Tag.read_apply] at failure
      cases stored : cursor.data[cursor.position]? with
      | none =>
          rw [stored] at failure
          cases failure
          have outside := Array.getElem?_eq_none_iff.mp stored
          exact .inl ⟨1, by simp only [Cursor.remaining]; omega, rfl⟩
      | some code =>
          cases known : Tag.ofCode? code with
          | some tag => simp [stored, known] at failure
          | none =>
              simp only [stored, known] at failure
              cases failure
              have passage := byte_eq_ok_iff_passes.mp (byte_eq_ok_iff.mpr ⟨stored, rfl⟩)
              exact .inr ⟨code, cursor, Tag.ofCode?_eq_none_iff.mp known, Nat.le_refl _,
                passage, rfl⟩
  | @bind α β cursor first next head forward tail headFails tailFails =>
      rcases bind_eq_error_iff.mp failure with failure | ⟨a, middle, success, failure⟩
      · exact headFails failure
      · rcases tailFails a middle success failure with starves | rejects
        · exact .inl starves
        · have moved := (head.forward success).2.1
          obtain ⟨code, earlier, noTag, later, passage, same⟩ := rejects
          exact .inr ⟨code, earlier, noTag, Nat.le_trans moved later, passage, same⟩

end Reader

namespace Operand

/-- How reading operands from a cursor on can fail, with the cursor afterwards: the byte in front of
it is no tag, or too few bytes are left at it. -/
def Fault (cursor after : Cursor) : Error → Prop
  | .invalidTag code =>
      0x14 ≤ code.toNat ∧ cursor.position < after.position ∧
        cursor.data[after.position - 1]? = some code
  | .truncated offset requested available =>
      offset = after.position ∧ cursor.position ≤ offset ∧ offset ≤ cursor.data.size ∧
        available = cursor.data.size - offset ∧ available < requested
  | _ => False

/-- The operands of an instruction fail to be read for one of the two causes. -/
theorem fault_of_readAll {count : OperandCount} {cursor after : Cursor} {error : Error}
    (inside : cursor.position ≤ cursor.data.size)
    (failure : readAll count cursor = (.error error, after)) : Fault cursor after error := by
  obtain ⟨same, moved, bounded⟩ := (composed_readAll count cursor).forward failure
  rcases (composed_readAll count cursor).starves_or_rejects failure with starves | rejects
  · obtain ⟨requested, short, rfl⟩ := starves
    simp only [Cursor.remaining, same] at short
    simp only [Fault, Cursor.shortfall, Cursor.remaining, same, true_and]
    omega
  · obtain ⟨code, earlier, noTag, later, passage, rfl⟩ := rejects
    obtain ⟨stored, rfl⟩ :=
      Reader.byte_eq_ok_iff.mp (Reader.byte_eq_ok_iff_passes.mpr passage)
    simp only [Cursor.advance] at same
    simp only [Fault, Cursor.advance, Nat.add_sub_cancel]
    exact ⟨noTag, by omega, same ▸ stored⟩

end Operand

end ScriptDisassembler
