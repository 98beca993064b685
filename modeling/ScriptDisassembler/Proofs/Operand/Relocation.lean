import ScriptDisassembler.Proofs.Operand.Failure

/-!
# Reading the same bytes elsewhere

With more bytes in front of the data everything is read as before and every position is greater by
their number (`Reader.Composed.withFront`).  With more bytes behind the data everything is read as
before as well, except where bytes were missing; what is missing there is not found without the new
bytes (`Reader.Composed.withBack`).
-/

namespace ScriptDisassembler

namespace Cursor

/-- The cursor at the same byte, with other bytes in front of the data. -/
def withFront (front : Array UInt8) (cursor : Cursor) : Cursor :=
  ⟨front ++ cursor.data, front.size + cursor.position⟩

/-- The cursor at the same byte, with other bytes behind the data. -/
def withBack (back : Array UInt8) (cursor : Cursor) : Cursor :=
  ⟨cursor.data ++ back, cursor.position⟩

variable (front back : Array UInt8) (cursor : Cursor)

@[simp]
theorem remaining_withFront : (cursor.withFront front).remaining = cursor.remaining := by
  simp only [remaining, withFront, Array.size_append]
  omega

@[simp]
theorem hasMore_withFront : (cursor.withFront front).hasMore = cursor.hasMore := by
  simp [hasMore, withFront]

@[simp]
theorem rest_withFront : (cursor.withFront front).rest = cursor.rest := by
  simp [rest, withFront, List.drop_append]

@[simp]
theorem advance_withFront (count : Nat) :
    (cursor.withFront front).advance count = (cursor.advance count).withFront front := by
  simp [advance, withFront, Nat.add_assoc]

theorem getElem?_withFront :
    (cursor.withFront front).data[(cursor.withFront front).position]? =
      cursor.data[cursor.position]? := by
  simp only [withFront, Array.getElem?_append_right (Nat.le_add_right _ _),
    Nat.add_sub_cancel_left]

@[simp]
theorem advance_withBack (count : Nat) :
    (cursor.withBack back).advance count = (cursor.advance count).withBack back :=
  rfl

theorem rest_withBack {cursor : Cursor} (inside : cursor.position ≤ cursor.data.size) :
    (cursor.withBack back).rest = cursor.rest ++ back.toList := by
  simp [rest, withBack, List.drop_append_of_le_length, inside]

end Cursor

/-- The same failure, that many bytes later in the script. -/
def Error.shift (distance : Nat) : Error → Error
  | truncated offset requested available => .truncated (distance + offset) requested available
  | unknownOpcode opcode offset => .unknownOpcode opcode (distance + offset)
  | instruction opcode offset source =>
      .instruction opcode (distance + offset) (source.shift distance)
  | error => error

@[simp]
theorem Cursor.shortfall_withFront (front : Array UInt8) (cursor : Cursor) (requested : Nat) :
    (cursor.withFront front).shortfall requested =
      (cursor.shortfall requested).shift front.size := by
  rw [shortfall, remaining_withFront]
  rfl

namespace Reader

variable {α : Type} {cursor : Cursor} {reader : Reader α}

/-- More bytes in front of the data move the positions and change nothing else. -/
theorem Composed.withFront (composed : Composed cursor reader) (front : Array UInt8) :
    reader (cursor.withFront front) =
      ((reader cursor).1.mapError (Error.shift front.size),
        (reader cursor).2.withFront front) := by
  induction composed with
  | pure a cursor => rfl
  | bytes count cursor =>
      by_cases fits : count ≤ cursor.remaining
      · have fitsThere : count ≤ (cursor.withFront front).remaining := by simpa using fits
        rw [bytes_of_le fits, bytes_of_le fitsThere, Cursor.rest_withFront,
          Cursor.advance_withFront]
        rfl
      · have short : cursor.remaining < count := by omega
        have shortThere : (cursor.withFront front).remaining < count := by simpa using short
        rw [bytes_of_lt short, bytes_of_lt shortThere, Cursor.shortfall_withFront]
        rfl
  | tag cursor =>
      rw [Tag.read_apply, Tag.read_apply, Cursor.getElem?_withFront]
      cases cursor.data[cursor.position]? with
      | none =>
          simp only [Cursor.shortfall_withFront]
          rfl
      | some code =>
          simp only [Cursor.advance_withFront]
          cases Tag.ofCode? code <;> rfl
  | @bind α β cursor first next head forward tail headShifts tailShifts =>
      rw [bind_apply, bind_apply, headShifts]
      rcases outcome : first cursor with ⟨result, middle⟩
      cases result with
      | error error => rfl
      | ok a => exact tailShifts a middle outcome

/-- What a reader does on the data it does also with more bytes behind them, unless it fails for
want of bytes; then it succeeds with more bytes only if it takes some of them. -/
theorem Composed.withBack (composed : Composed cursor reader)
    (inside : cursor.position ≤ cursor.data.size) (back : Array UInt8) :
    reader (cursor.withBack back) = ((reader cursor).1, (reader cursor).2.withBack back) ∨
      ∃ error after, reader cursor = (.error error, after) ∧ after.Starves error ∧
        ∀ a beyond, reader (cursor.withBack back) = (.ok a, beyond) →
          cursor.data.size < beyond.position := by
  induction composed with
  | pure a cursor => exact .inl rfl
  | bytes count cursor =>
      have room : (cursor.withBack back).remaining = cursor.remaining + back.size := by
        simp only [Cursor.remaining, Cursor.withBack, Array.size_append]
        omega
      by_cases fits : count ≤ cursor.remaining
      · left
        rw [bytes_of_le fits, bytes_of_le (by omega), Cursor.rest_withBack back inside,
          List.take_append_of_le_length (by simpa using fits), Cursor.advance_withBack]
      · right
        refine ⟨_, cursor, bytes_of_lt (by omega), ⟨count, by omega, rfl⟩, ?_⟩
        intro stored beyond success
        by_cases fitsThere : count ≤ (cursor.withBack back).remaining
        · rw [bytes_of_le fitsThere] at success
          cases success
          simp only [Cursor.remaining] at fits
          simp only [Cursor.advance, Cursor.withBack]
          omega
        · rw [bytes_of_lt (by omega)] at success
          cases success
  | tag cursor =>
      rw [Tag.read_apply, Tag.read_apply]
      by_cases present : cursor.position < cursor.data.size
      · left
        have stored : (cursor.data ++ back)[cursor.position]? = cursor.data[cursor.position]? :=
          Array.getElem?_append_left present
        simp only [Cursor.withBack, stored]
        rw [Array.getElem?_eq_getElem present]
        cases known : Tag.ofCode? cursor.data[cursor.position] <;> simp [known, Cursor.advance]
      · right
        have atEnd : cursor.data[cursor.position]? = none :=
          Array.getElem?_eq_none_iff.mpr (by omega)
        refine ⟨_, cursor, by rw [atEnd], ⟨1, by simp only [Cursor.remaining]; omega, rfl⟩, ?_⟩
        intro tag beyond success
        have passage := Tag.read_eq_ok_iff.mp ((Tag.read_apply _).trans success)
        rw [passage.position_eq]
        simp only [Cursor.withBack, List.length_singleton]
        omega
  | @bind α β cursor first next head forward tail headLaw tailLaw =>
      rcases headLaw inside with same | ⟨error, after, failure, starves, beyondEnd⟩
      · rcases outcome : first cursor with ⟨result, middle⟩
        rw [outcome] at same
        simp only [bind_apply, same, outcome]
        cases result with
        | error error => exact .inl rfl
        | ok a =>
            obtain ⟨data_eq, -, bounded⟩ := head.forward outcome
            rw [← data_eq]
            exact tailLaw a middle outcome (by rw [data_eq]; omega)
      · right
        refine ⟨error, after, by rw [bind_apply, failure], starves, ?_⟩
        intro b beyond success
        obtain ⟨a, middle, first, second⟩ := bind_eq_ok_iff.mp success
        have further := (forward a middle).2.1
        rw [second] at further
        exact Nat.lt_of_lt_of_le (beyondEnd a middle first) further

end Reader

end ScriptDisassembler
