import ScriptDisassembler.Instruction.Decoding
import ScriptDisassembler.Proofs.Operand.Stored

/-!
# What operands are read with

Everything that is read of a script is composed of two reads: so many bytes, and a tag.
`Reader.Composed` says this of a reader at one cursor.  Whatever holds of the two reads, and of one
read after another, then holds of the operand lists of an instruction by one induction
(`Operand.composed_readAll`).

The composition is stated at a cursor because the reads that follow depend on what was read: only
payloads of the size that their tag fixes are ever interpreted, and how far an open-ended list goes
is decided by the script.
-/

namespace ScriptDisassembler

namespace Reader

/-- At this cursor, the reader is composed of reads of bytes and of tags. -/
inductive Composed : {α : Type} → Cursor → Reader α → Prop
  | pure {α : Type} (a : α) (cursor : Cursor) : Composed cursor (Pure.pure a : Reader α)
  | bytes (count : Nat) (cursor : Cursor) : Composed cursor (Reader.bytes count)
  | tag (cursor : Cursor) : Composed cursor Tag.read
  | bind {α β : Type} {cursor : Cursor} {first : Reader α} {next : α → Reader β}
      (head : Composed cursor first) (forward : ∀ a, (next a).Forward)
      (tail : ∀ a middle, first cursor = (.ok a, middle) → Composed middle (next a)) :
      Composed cursor (first >>= next)

variable {α β : Type}

namespace Composed

/-- A composed read, and what is made of its result. -/
theorem map {cursor : Cursor} {reader : Reader α} (composed : Composed cursor reader)
    (make : α → β) : Composed cursor (do return make (← reader)) :=
  .bind composed (fun _ => forward_pure _) fun _ middle _ => .pure _ middle

/-- A composed read keeps the data and goes forward in them. -/
theorem forward {cursor after : Cursor} {reader : Reader α} {result : Except Error α}
    (composed : Composed cursor reader) (outcome : reader cursor = (result, after)) :
    after.data = cursor.data ∧ cursor.position ≤ after.position ∧
      after.position ≤ max cursor.position cursor.data.size := by
  suffices step : (reader cursor).2.data = cursor.data ∧
      cursor.position ≤ (reader cursor).2.position ∧
      (reader cursor).2.position ≤ max cursor.position cursor.data.size by
    rwa [outcome] at step
  clear outcome after result
  induction composed with
  | pure a cursor => exact forward_pure a cursor
  | bytes count cursor => exact forward_bytes count cursor
  | tag cursor => exact Tag.forward_read cursor
  | @bind α β cursor first next head forward tail ih _ =>
      rw [bind_apply]
      rcases outcome : first cursor with ⟨result, middle⟩
      rw [outcome] at ih
      cases result with
      | error error => exact ih
      | ok a =>
          have step := forward a middle
          simp only at ih ⊢
          rw [ih.1] at step
          exact ⟨step.1, Nat.le_trans ih.2.1 step.2.1, by omega⟩

end Composed

/-! ## The reads of numbers -/

theorem composed_unsigned (width : Nat) (cursor : Cursor) : Composed cursor (unsigned width) := by
  have fromBytes : unsigned width = (do return LittleEndian.value (← bytes width)) := by
    funext cursor
    rw [unsigned_eq_bytes, bind_apply]
    rcases bytes width cursor with ⟨result, after⟩
    cases result <;> rfl
  rw [fromBytes]
  exact (Composed.bytes width cursor).map LittleEndian.value

theorem composed_byte (cursor : Cursor) : Composed cursor byte :=
  (composed_unsigned 1 cursor).map UInt8.ofNat

end Reader

/-! ## The reads of operands -/

theorem Tag.composed_readPayload (tag : Tag) (cursor : Cursor) :
    Reader.Composed cursor tag.readPayload := by
  unfold readPayload
  split
  · exact .bytes _ cursor
  · exact .bind (Reader.composed_byte cursor) (fun _ => Reader.forward_bytes _)
      fun size middle _ => .bytes size.toNat middle

namespace Operand

theorem composed_readBehind (tag : Tag) (cursor : Cursor) :
    Reader.Composed cursor (readBehind tag) := by
  refine .bind (tag.composed_readPayload cursor) (fun _ => ?_) fun stored middle success => ?_
  · exact (Reader.forward_ofExcept _).bind fun _ => Reader.forward_pure _
  · have admitted := (Tag.readPayload_eq_ok_iff.mp success).1
    obtain ⟨payload, meaning⟩ := Payload.exists_ofBytes_eq_ok admitted
    rw [meaning]
    exact (Reader.Composed.pure payload middle).map (ofTag tag)

theorem composed_read (cursor : Cursor) : Reader.Composed cursor read :=
  .bind (.tag cursor) forward_readBehind fun tag middle _ => composed_readBehind tag middle

theorem composed_readExactly (count : Nat) (cursor : Cursor) :
    Reader.Composed cursor (readExactly count) := by
  induction count generalizing cursor with
  | zero => exact .pure [] cursor
  | succ count ih =>
      rw [readExactly_succ]
      refine .bind (composed_read cursor) (fun _ => ?_) fun operand middle _ => ?_
      · exact (forward_readExactly count).bind fun _ => Reader.forward_pure _
      · exact (ih middle).map (operand :: ·)

theorem composed_readUntilEnd (cursor : Cursor) : Reader.Composed cursor readUntilEnd := by
  induction left : cursor.remaining using Nat.strongRecOn generalizing cursor with
  | ind bound ih =>
      rw [readUntilEnd_eq]
      refine .bind (composed_read cursor) (fun operand => ?_) fun operand middle success => ?_
      · split
        · exact Reader.forward_pure _
        · exact forward_readUntilEnd.bind fun _ => Reader.forward_pure _
      · split
        · exact .pure [] middle
        · have fewer := remaining_lt_of_read success
          exact (ih middle.remaining (left ▸ fewer) middle rfl).map (operand :: ·)

theorem composed_readAll (count : OperandCount) (cursor : Cursor) :
    Reader.Composed cursor (readAll count) := by
  cases count with
  | fixed count => exact composed_readExactly count cursor
  | variadic => exact composed_readUntilEnd cursor

end Operand

end ScriptDisassembler
