import ScriptDisassembler.Proofs.Operand.Failure

/-!
# Which bytes a read depends on

A read depends on the bytes between the cursors in front of it and behind it, on how many bytes the
data have, and on nothing else (`Reader.Composed.inData`).  Neither does a failed one look at a byte
that it leaves unread: a field that is too long for the data is missed without being looked at.
-/

namespace ScriptDisassembler

namespace Cursor

/-- The cursor at the same position in other data. -/
def inData (data : Array UInt8) (cursor : Cursor) : Cursor :=
  ⟨data, cursor.position⟩

/-- Whether data have as many bytes as those of the cursor, and the same ones from the cursor up to
`stop`. -/
structure AgreesUpTo (cursor : Cursor) (data : Array UInt8) (stop : Nat) : Prop where
  size_eq : data.size = cursor.data.size
  getElem?_eq : ∀ place, cursor.position ≤ place → place < stop →
    data[place]? = cursor.data[place]?

variable {cursor : Cursor} {data : Array UInt8} {stop : Nat}

@[simp]
theorem advance_inData (data : Array UInt8) (cursor : Cursor) (count : Nat) :
    (cursor.inData data).advance count = (cursor.advance count).inData data :=
  rfl

namespace AgreesUpTo

/-- Less of the data agrees if more of them does. -/
theorem mono (agrees : cursor.AgreesUpTo data stop) {sooner : Nat} (inside : sooner ≤ stop) :
    cursor.AgreesUpTo data sooner :=
  ⟨agrees.size_eq, fun place behind before =>
    agrees.getElem?_eq place behind (Nat.lt_of_lt_of_le before inside)⟩

/-- What agrees from a cursor on agrees from a later one on. -/
theorem from_later (agrees : cursor.AgreesUpTo data stop) {later : Cursor}
    (data_eq : later.data = cursor.data) (moved : cursor.position ≤ later.position) :
    later.AgreesUpTo data stop :=
  ⟨data_eq ▸ agrees.size_eq, fun place behind before =>
    data_eq ▸ agrees.getElem?_eq place (Nat.le_trans moved behind) before⟩

/-- Data that agree up to the end agree from there on. -/
theorem of_size (agrees : cursor.AgreesUpTo data cursor.data.size) (stop : Nat) :
    cursor.AgreesUpTo data stop := by
  refine ⟨agrees.size_eq, fun place behind _ => ?_⟩
  by_cases inside : place < cursor.data.size
  · exact agrees.getElem?_eq place behind inside
  · have outside := agrees.size_eq
    rw [Array.getElem?_eq_none (by omega), Array.getElem?_eq_none (by omega)]

theorem remaining_inData (agrees : cursor.AgreesUpTo data stop) :
    (cursor.inData data).remaining = cursor.remaining := by
  rw [remaining, remaining, inData, agrees.size_eq]

theorem hasMore_inData (agrees : cursor.AgreesUpTo data stop) :
    (cursor.inData data).hasMore = cursor.hasMore := by
  rw [hasMore, hasMore, inData, agrees.size_eq]

theorem shortfall_inData (agrees : cursor.AgreesUpTo data stop) (requested : Nat) :
    (cursor.inData data).shortfall requested = cursor.shortfall requested := by
  rw [shortfall, shortfall, agrees.remaining_inData]
  rfl

theorem take_rest_inData {count : Nat} (agrees : cursor.AgreesUpTo data (cursor.position + count)) :
    (cursor.inData data).rest.take count = cursor.rest.take count := by
  apply List.ext_getElem?
  intro place
  rw [List.getElem?_take, List.getElem?_take]
  split
  · have same := agrees.getElem?_eq (cursor.position + place) (by omega) (by omega)
    simpa [rest, inData] using same
  · rfl

end AgreesUpTo

end Cursor

namespace Reader

variable {α : Type} {cursor : Cursor} {reader : Reader α}

/-- What is read in data that agree up to where the reading ends is the same. -/
theorem Composed.inData (composed : Composed cursor reader) (data : Array UInt8)
    (agrees : cursor.AgreesUpTo data (reader cursor).2.position) :
    reader (cursor.inData data) = ((reader cursor).1, (reader cursor).2.inData data) := by
  induction composed with
  | pure a cursor => rfl
  | bytes count cursor =>
      by_cases fits : count ≤ cursor.remaining
      · rw [bytes_of_le fits] at agrees ⊢
        rw [bytes_of_le (agrees.remaining_inData ▸ fits), agrees.take_rest_inData,
          Cursor.advance_inData]
      · have short : cursor.remaining < count := Nat.not_le.mp fits
        rw [bytes_of_lt (agrees.remaining_inData ▸ short), bytes_of_lt short,
          agrees.shortfall_inData]
  | tag cursor =>
      rw [Tag.read_apply] at agrees ⊢
      rw [Tag.read_apply]
      cases stored : cursor.data[cursor.position]? with
      | none =>
          have outside := Array.getElem?_eq_none_iff.mp stored
          rw [← agrees.size_eq] at outside
          have missing : (cursor.inData data).data[(cursor.inData data).position]? = none :=
            Array.getElem?_eq_none outside
          simp only [missing, agrees.shortfall_inData]
      | some code =>
          have behind : cursor.AgreesUpTo data (cursor.position + 1) := by
            rw [stored] at agrees
            cases known : Tag.ofCode? code <;> (simp only [known] at agrees; exact agrees)
          have present : (cursor.inData data).data[(cursor.inData data).position]? = some code :=
            (behind.getElem?_eq cursor.position (Nat.le_refl _) (Nat.lt_succ_self _)).trans stored
          simp only [present, Cursor.advance_inData]
          cases Tag.ofCode? code <;> rfl
  | @bind α β cursor first next head forward tail headSame tailSame =>
      rw [bind_apply] at agrees ⊢
      rw [bind_apply]
      rcases outcome : first cursor with ⟨result, middle⟩
      rw [outcome] at agrees headSame
      cases result with
      | error error => rw [headSame agrees]
      -- The first read ends no later than the second, so the data agree for both.
      | ok a =>
          obtain ⟨data_eq, moved, -⟩ := head.forward outcome
          have further := (forward a middle).2.1
          rw [headSame (agrees.mono further)]
          exact tailSame a middle outcome (agrees.from_later data_eq moved)

theorem composed_word (cursor : Cursor) : Composed cursor word :=
  (composed_unsigned 2 cursor).map UInt16.ofNat

end Reader

end ScriptDisassembler
